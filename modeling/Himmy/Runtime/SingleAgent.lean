import Himmy.Guardrails.Pipeline
import Himmy.Runtime.AgentLoop
import Himmy.Runtime.Compaction

/-! # The turns of an agent

What one turn makes of the response of the model: the result it returns and the messages it puts on
the thread. `_run_task_pipeline` and `_continue_turn` replay the tool calls and then append the
guarded answer; `stream_task` yields the answer in pieces, guards it at its end and appends it, and
the streamed loop replays the tool calls after that. The measurements of a turn (its cost and its
latency) are not put in the metadata of a message here. -/

namespace Himmy.Runtime

open Himmy.Guardrails

/-- What the turns of a runtime depend on. -/
structure TurnConfig where
  inputGuardrail : Option GuardrailPipeline := none
  outputGuardrail : Option GuardrailPipeline := none
  cap : ToolResultCap := {}
  traceId : String := ""

def statusValue : InferenceStatus → String
  | .success => "SUCCESS"
  | .failed => "FAILED"

def isComplete (workflow : WorkflowState) : Bool :=
  (workflow.definition.steps.length : Int) ≤ workflow.currentStep

namespace TurnConfig

variable (cfg : TurnConfig)

def guardInput (text : String) : String := applyGuardrail cfg.inputGuardrail "input" text

def guardOutput (text : Option String) : Option String :=
  text.map (applyGuardrail cfg.outputGuardrail "output")

end TurnConfig

/-! ## Prompts -/

def ChatThread.hasSystem (thread : ChatThread) : Bool :=
  thread.messages.any (fun m => m.role = .system)

/-- The messages that `_run_task_pipeline` appends before it calls the model. -/
def runPrompts (cfg : TurnConfig) (systemPrompt taskPrompt : String) (thread : ChatThread) :
    ChatThread :=
  thread.append ((if !thread.hasSystem && systemPrompt ≠ "" then
      [{ role := .system, content := systemPrompt }] else [])
    ++ [{ role := .user, content := cfg.guardInput taskPrompt }])

/-- The messages that `stream_task` appends before it calls the model. -/
def streamPrompts (cfg : TurnConfig) (systemPrompt taskPrompt : String) (thread : ChatThread) :
    ChatThread :=
  thread.append ((if !thread.hasSystem then [{ role := .system, content := systemPrompt }] else [])
    ++ [{ role := .user, content := cfg.guardInput taskPrompt }])

def drainSteerQueue (texts : List String) (thread : ChatThread) : ChatThread :=
  let messages := texts.filterMap (fun text =>
    let content := pyStrip isPySpace text.toList
    if content = [] then none
    else some { role := MessageRole.user, content := String.ofList content,
                metadata := Dict.ofList [("steer", .bool true)] : Message })
  if messages = [] then thread else (thread.append messages).bump

/-! ## Answers -/

namespace InferenceResponse

variable (response : InferenceResponse)

def answerText : Option String :=
  match response.outputText, response.outputStructured with
  | some text, _ => some text
  | none, .null => none
  | none, structured => some structured.jsonDumps

def errorMessage : Option String := response.error.map InferenceError.message

/-- `error.code.value`. -/
def errorCode : Option String := response.error.map InferenceError.code

def roundTripComplete : Bool :=
  ((response.metadata.find? "round_trip_complete").getD .null).truthy

variable (traceId : String)

/-- The `RunResult` of a turn whose answer is `text`. -/
def runResult (text : Option String) : RunResult where
  status := response.status
  outputText := text
  outputStructured := response.outputStructured
  toolCalls := response.toolCalls
  toolReturns := response.toolReturns
  error := response.errorMessage
  errorCode := response.errorCode
  inputTokens := response.inputTokens
  outputTokens := response.outputTokens
  cost := response.cost
  latencyMs := response.latencyMs
  modelPath := response.modelPath
  providerName := response.providerName
  requestId := some response.requestId
  traceId := some traceId
  workflow := response.workflow
  roundTripComplete := response.roundTripComplete

def guardedMark (raw shown : Option String) : List (String × Value) :=
  if raw = shown then [] else [("guarded", .bool true)]

/-- The metadata that `_run_task_pipeline` and `_continue_turn` both write. -/
def turnMetadata : List (String × Value) := [
  ("request_id", .str response.requestId),
  ("trace_id", .str traceId),
  ("input_tokens", .int response.inputTokens),
  ("output_tokens", .int response.outputTokens),
  ("status", .str (statusValue response.status)),
  ("error", Value.ofOption response.errorMessage),
  ("error_code", Value.ofOption response.errorCode),
  ("output_structured", response.outputStructured)]

/-- The assistant message of `_run_task_pipeline`. -/
def runMessage (shown : Option String) : Message where
  role := .assistant
  content := shown.getD ""
  metadata := Dict.ofList (response.turnMetadata traceId
    ++ [("model_path", .str response.modelPath), ("provider_name", .str response.providerName)]
    ++ guardedMark response.answerText shown
    ++ (response.workflow.map (fun w => ("workflow_complete", Value.bool (isComplete w)))).toList)

def continueMessage (shown : Option String) : Message where
  role := .assistant
  content := shown.getD ""
  metadata := Dict.ofList (response.turnMetadata traceId ++ guardedMark response.answerText shown)

/-- The assistant message of `stream_task`. -/
def streamMessage (raw shown : String) : Message where
  role := .assistant
  content := shown
  metadata := Dict.ofList ([("request_id", .str response.requestId), ("streamed", .bool true)]
    ++ guardedMark (some raw) (some shown))

end InferenceResponse

section Turns

variable (cfg : TurnConfig) (response : InferenceResponse) (thread : ChatThread)

/-- What `_run_task_pipeline` makes of the response, on the thread with its prompts. -/
def finishRun (isNewThread : Bool) : RunResult × ChatThread :=
  let shown := cfg.guardOutput response.answerText
  let thread := (appendToolMessages cfg.cap cfg.traceId response thread).append
    [response.runMessage cfg.traceId shown]
  (response.runResult cfg.traceId shown, if isNewThread then thread else thread.bump)

/-- What `_continue_turn` makes of the response, on the thread that may have been compacted. -/
def finishContinue : RunResult × ChatThread :=
  let shown := cfg.guardOutput response.answerText
  let thread := (appendToolMessages cfg.cap cfg.traceId response thread).append
    [response.continueMessage cfg.traceId shown]
  ({ response.runResult cfg.traceId shown with workflow := none }, thread.bump)

/-- The answer that `stream_task` guards. -/
def streamAnswer : String := (cfg.guardOutput (some (response.outputText.getD ""))).getD ""

/-- The thread that `stream_task` leaves, from the thread with its prompts. -/
def finishStream : ChatThread :=
  thread.append [response.streamMessage (response.outputText.getD "") (streamAnswer cfg response)]

def replayStreamed : ChatThread :=
  let thread := appendToolMessages cfg.cap cfg.traceId response thread
  if response.toolCalls = [] then thread else thread.bump

end Turns

/-! ## Resuming -/

def resumeResponse (checkpointId : String) (call : PendingToolCall) (ret : ToolReturnRecord) :
    InferenceResponse where
  requestId := "resume:" ++ checkpointId
  status := .success
  toolCalls := [{ toolCallId := call.toolCallId, toolName := call.toolName, args := call.args }]
  toolReturns := [ret]

variable (actor : String)

def rejectedReturn (call : PendingToolCall) : ToolReturnRecord where
  toolCallId := call.toolCallId
  toolName := call.toolName
  content := .dict [("rejected", .bool true), ("reason", .str "rejected by human")]
  outcome := "rejected"
  metadata := Dict.ofList [("approved_by", .str actor)]

/-- The result of a call that `ToolService.execute` was given. -/
structure ToolExecution where
  outcome : String
  result : Value := .null
  errorCode : Option String := none

def approvedReturn (call : PendingToolCall) (execution : ToolExecution) :
    ToolReturnRecord where
  toolCallId := call.toolCallId
  toolName := call.toolName
  content := execution.result
  outcome := execution.outcome
  metadata := Dict.ofList [("approved_by", .str actor),
    ("error_code", Value.ofOption execution.errorCode)]

/-- The return of a pending call after the decision: `execute` is the tool service, or nothing when
    the calls are rejected. -/
def decidedReturn (execute : Option (PendingToolCall → ToolExecution))
    (call : PendingToolCall) : ToolReturnRecord :=
  match execute with
  | some execute => approvedReturn actor call (execute call)
  | none => rejectedReturn actor call

/-- `resume_agent_loop_locked`, up to its continuation turn: the decision on every pending call is
    put on the thread. -/
def applyDecision (cfg : TurnConfig) (checkpointId actor : String)
    (execute : Option (PendingToolCall → ToolExecution)) (pending : List PendingToolCall)
    (thread : ChatThread) : ChatThread :=
  (pending.foldl (fun thread call =>
    appendToolMessages cfg.cap cfg.traceId
      (resumeResponse checkpointId call (decidedReturn actor execute call)) thread) thread).bump

end Himmy.Runtime
