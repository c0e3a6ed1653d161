import Mathlib.Algebra.Order.Ring.Rat
import Himmy.Inference.ResponseCache

/-! # Model turns

The outcome of one model turn, and what the agent loop reads off it: whether it succeeded, the tool
calls that wait for an approval, a call of `final_answer`, and a turn that repeats the calls of the
one before. Costs are rational numbers. -/

namespace Himmy.Runtime

structure ToolCallRecord where
  toolCallId : String
  toolName : String
  args : Dict Value := KeyedList.empty

structure ToolReturnRecord where
  toolCallId : String
  toolName : String
  content : Value := .null
  outcome : String := "success"
  metadata : Dict Value := KeyedList.empty

structure InferenceError where
  code : String
  message : String
  retryable : Bool := false

/-- `RunResult`, apart from its thread. -/
structure RunResult where
  status : InferenceStatus := .success
  outputText : Option String := none
  outputStructured : Value := .null
  toolCalls : List ToolCallRecord := []
  toolReturns : List ToolReturnRecord := []
  error : Option String := none
  errorCode : Option String := none
  inputTokens : Int := 0
  outputTokens : Int := 0
  cost : Rat := 0
  latencyMs : Rat := 0
  modelPath : String := ""
  providerName : String := ""
  requestId : Option String := none
  traceId : Option String := none
  workflow : Option WorkflowState := none
  roundTripComplete : Bool := false

structure PendingToolCall where
  toolCallId : String
  toolName : String
  args : Dict Value := KeyedList.empty

def finalAnswerTool : String := "final_answer"

namespace RunResult

variable (result : RunResult)

def succeeded : Bool := result.status = .success

def deniedForApproval (ret : ToolReturnRecord) : Bool :=
  ret.outcome = "denied" && (match ret.metadata.find? "error_code" with
    | some (.str code) => code = "POLICY_BLOCKED"
    | _ => false)

def pendingApprovals : List PendingToolCall :=
  let denied := (result.toolReturns.filter deniedForApproval).map ToolReturnRecord.toolCallId
  (result.toolCalls.filter (fun call => call.toolCallId ∈ denied)).map
    (fun call => ⟨call.toolCallId, call.toolName, call.args⟩)

def finalAnswerText : Option String :=
  (result.toolCalls.find? (fun call => call.toolName = finalAnswerTool)).map
    (fun call => ((call.args.find? "answer").getD (.str "")).pyStr)

def callsSignature : List (String × String) :=
  result.toolCalls.map (fun call => (call.toolName, (Value.dict call.args.items).dumps))

end RunResult

/-- `is_no_progress`: the last two turns made the same calls, and some. -/
def isNoProgress (turns : List RunResult) : Bool :=
  match turns.reverse with
  | last :: previous :: _ =>
    last.callsSignature ≠ [] && last.callsSignature = previous.callsSignature
  | _ => false

def totalCost (turns : List RunResult) : Rat := (turns.map RunResult.cost).sum

@[simp] theorem totalCost_nil : totalCost [] = 0 := rfl

theorem totalCost_append (turns more : List RunResult) :
    totalCost (turns ++ more) = totalCost turns + totalCost more := by
  simp [totalCost]

/-! ## Threads

The messages of a conversation, the response of a model call, and how the tool calls of a response
are put on a thread: one tool message a call, with the call in its metadata. -/

inductive MessageRole where
  | system
  | user
  | assistant
  | tool
  deriving DecidableEq

def MessageRole.value : MessageRole → String
  | .system => "system"
  | .user => "user"
  | .assistant => "assistant"
  | .tool => "tool"

/-- `Message`, apart from its id and its time. -/
structure Message where
  role : MessageRole
  content : String := ""
  metadata : Dict Value := KeyedList.empty

structure ChatThread where
  messages : List Message := []
  version : Nat := 1

variable (thread : ChatThread)

/-- `append_message`, of several messages. -/
def ChatThread.append (messages : List Message) : ChatThread :=
  { thread with messages := thread.messages ++ messages }

@[simp] theorem ChatThread.append_messages (messages : List Message) :
    (thread.append messages).messages = thread.messages ++ messages := rfl

def ChatThread.bump : ChatThread :=
  { thread with version := thread.version + 1 }

@[simp] theorem ChatThread.bump_messages : thread.bump.messages = thread.messages := rfl

structure InferenceResponse where
  requestId : String
  status : InferenceStatus
  outputText : Option String := none
  outputStructured : Value := .null
  toolCalls : List ToolCallRecord := []
  toolReturns : List ToolReturnRecord := []
  workflow : Option WorkflowState := none
  inputTokens : Int := 0
  outputTokens : Int := 0
  cost : Rat := 0
  latencyMs : Rat := 0
  modelPath : String := ""
  providerName : String := ""
  error : Option InferenceError := none
  metadata : Dict Value := KeyedList.empty

/-! ## Tool messages -/

/-- How much of a tool result the model is shown. -/
structure ToolResultCap where
  /-- `_TOOL_RESULT_MODEL_MAX` -/
  modelMax : Nat := 6000
  /-- `tool_result_uncapped` -/
  uncapped : String → Bool := fun _ => false

def capToolResultForModel (text : String) (cap : Nat) : String :=
  if cap = 0 || text.length ≤ cap then text
  else String.ofList (text.toList.take cap) ++ "\n…[truncated " ++ toString (text.length - cap)
    ++ " chars]"

def contentText : Value → String
  | .str s => s
  | content => content.jsonDumps

/-- `value.get(key) or other`, as a text. -/
def metadataOr (metadata : Dict Value) (key other : String) : String :=
  match (metadata.find? key).filter Value.truthy with
  | some value => value.pyStr
  | none => other

/-- `text.rstrip(":")`. -/
def stripColons (text : List Char) : List Char := (text.reverse.dropWhile (· = ':')).reverse

def errorLine (ret : ToolReturnRecord) (text : String) : String :=
  let code := ((ret.metadata.find? "error_code").getD (.str (pyUpper ret.outcome))).pyStr
  let detail := metadataOr ret.metadata "error_message" text
  String.ofList (stripColons
    (pyStrip isPySpace ("ERROR: " ++ code ++ ": " ++ detail).toList))

def outcomeText (ret : Option ToolReturnRecord) : String :=
  let text := contentText ((ret.map ToolReturnRecord.content).getD .null)
  match ret with
  | some ret => if ret.outcome = "failed" || ret.outcome = "denied" then errorLine ret text else text
  | none => text

variable (cap : ToolResultCap)

def modelText (toolName text : String) : String :=
  if cap.modelMax ≠ 0 && !cap.uncapped toolName then capToolResultForModel text cap.modelMax
  else text

/-- The metadata of a tool message, with the full text when the model is shown less. -/
def toolMetadata (requestId traceId : String) (call : ToolCallRecord)
    (ret : Option ToolReturnRecord) (fullContent : Option String) : Dict Value :=
  Dict.ofList ([
    ("tool_call_id", .str call.toolCallId),
    ("tool_name", .str call.toolName),
    ("tool_outcome", .str ((ret.map ToolReturnRecord.outcome).getD "unknown")),
    ("tool_args", .dict call.args.items),
    ("request_id", .str requestId),
    ("trace_id", .str traceId),
    ("tool_return_metadata", .dict ((ret.map (·.metadata.items)).getD []))]
    ++ (fullContent.map (fun text => ("full_content", Value.str text))).toList)

def toolMessage (requestId traceId : String) (call : ToolCallRecord)
    (ret : Option ToolReturnRecord) : Message :=
  let text := outcomeText ret
  let shown := modelText cap call.toolName text
  { role := .tool
    content := shown
    metadata := toolMetadata requestId traceId call ret
      (if shown = text then none else some text) }

/-- `returns_by_id.get(tool_call_id)`: of several returns, the last. -/
def returnOf (response : InferenceResponse) (call : ToolCallRecord) : Option ToolReturnRecord :=
  response.toolReturns.reverse.find? (fun ret => ret.toolCallId = call.toolCallId)

def toolMessages (traceId : String) (response : InferenceResponse) : List Message :=
  response.toolCalls.map (fun call =>
    toolMessage cap response.requestId traceId call (returnOf response call))

def appendToolMessages (traceId : String) (response : InferenceResponse)
    (thread : ChatThread) : ChatThread :=
  thread.append (toolMessages cap traceId response)

end Himmy.Runtime
