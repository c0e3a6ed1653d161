import Himmy.Runtime.SingleAgent

/-! # Streamed turns

`run_stream` yields the answer of the model in pieces, and then the response. `stream_task` guards
the answer when it has all of it. When the output guardrail withholds what it blocks, the pieces are
not yielded at all and the guarded answer is yielded in one delta; otherwise they have been yielded
as they came, and a correction follows them when the guardrail changed the answer. What a stream
does is a list of effects, so that the guardrail has its place among the deltas. -/

namespace Himmy.Runtime

open Himmy.Guardrails

/-- `event_type` and `event_payload`. -/
inductive StreamEvent where
  | guardedOutput (outputText : String)
  | toolCall (call : ToolCallRecord)
  | toolResult (toolCallId toolName outcome : String) (content : Value)
  | turnEnd (turn toolCalls : Nat)
  | done (result : AgentLoopResult)

structure StreamDelta where
  requestId : String
  delta : String := ""
  index : Nat := 0
  done : Bool := false
  response : Option InferenceResponse := none
  event : Option StreamEvent := none

/-- What a streamed turn does, in its order. -/
inductive StreamEffect where
  | yielded (delta : StreamDelta)
  /-- the output guardrail inspects the answer -/
  | inspected (text : String)

/-- The text cut into pieces of `size` characters, and a last one. -/
def chunks (size : Nat) (text : List Char) : List String :=
  if text = [] then []
  else String.ofList (text.take (size + 1)) :: chunks size (text.drop (size + 1))
termination_by text.length
decreasing_by
  have := List.length_pos_iff.2 ‹text ≠ []›
  rw [List.length_drop]
  omega

variable (requestId : String) (pieces : List String)

def pieceDeltas : List StreamDelta :=
  pieces.mapIdx (fun index piece => { requestId := requestId, delta := piece, index := index })

variable (response : InferenceResponse)

/-- The last delta of `run_stream`. -/
def finalDelta :
    StreamDelta where
  requestId := requestId
  index := pieces.length
  done := true
  response := some response

/-- `run_stream`, of a provider that streams these pieces. -/
def runStream :
    List StreamDelta :=
  pieceDeltas requestId pieces ++ [finalDelta requestId pieces response]

/-- The pieces of `run_stream` when the provider does not stream. -/
def bufferedPieces : List String :=
  chunks 23 (response.outputText.getD "").toList

def TurnConfig.bufferOutput (cfg : TurnConfig) : Bool :=
  cfg.outputGuardrail.any GuardrailPipeline.suppressesOutputContent

section StreamTask

variable (cfg : TurnConfig)

def lastDeltas (delta : StreamDelta) (response : InferenceResponse) : List StreamDelta :=
  let shown := streamAnswer cfg response
  let guarded := { response with outputText := some shown }
  if cfg.bufferOutput then
    [{ requestId := delta.requestId, delta := shown, index := delta.index, done := true,
       response := some guarded }]
  else
    (if shown = response.outputText.getD "" then []
      else [{ requestId := delta.requestId, index := delta.index,
              event := some (.guardedOutput shown) }])
      ++ [{ delta with response := some guarded }]

/-- What `stream_task` does with one delta of `run_stream`. -/
def streamDelta (delta : StreamDelta) (thread : ChatThread) : List StreamEffect × ChatThread :=
  match delta.done, delta.response with
  | true, some response =>
    (.inspected (response.outputText.getD "")
        :: (lastDeltas cfg delta response).map StreamEffect.yielded,
      finishStream cfg response thread)
  | false, _ => (if cfg.bufferOutput then [] else [.yielded delta], thread)
  | true, none => ([.yielded delta], thread)

/-- What `stream_task` does with the deltas of `run_stream`. -/
def streamDeltas : List StreamDelta → ChatThread → List StreamEffect × ChatThread
  | [], thread => ([], thread)
  | delta :: rest, thread =>
    let now := streamDelta cfg delta thread
    let later := streamDeltas rest now.2
    (now.1 ++ later.1, later.2)

end StreamTask

/-! ## The streamed loop -/

def resultFromResponse (traceId : String) (response : InferenceResponse) : RunResult :=
  response.runResult traceId response.answerText

variable (result : RunResult)

def textDeltas : List StreamDelta :=
  pieceDeltas (result.requestId.getD "") (chunks 23 (result.outputText.getD "").toList)

/-- `returns_by_id.get(tool_call_id)`. -/
def RunResult.returnOf (call : ToolCallRecord) : Option ToolReturnRecord :=
  result.toolReturns.reverse.find? (fun ret => ret.toolCallId = call.toolCallId)

def toolDeltas : List StreamDelta :=
  result.toolCalls.flatMap (fun call =>
    let ret := result.returnOf call
    [{ requestId := result.requestId.getD "", event := some (.toolCall call) },
     { requestId := result.requestId.getD ""
       event := some (.toolResult call.toolCallId call.toolName
         ((ret.map ToolReturnRecord.outcome).getD "unknown")
         ((ret.map ToolReturnRecord.content).getD .null)) }])

def turnEndDelta (turn : Nat) (result : RunResult) : StreamDelta where
  requestId := result.requestId.getD ""
  event := some (.turnEnd turn result.toolCalls.length)

def continuationDeltas (turn : Nat) (result : RunResult) : List StreamDelta :=
  textDeltas result ++ toolDeltas result ++ [turnEndDelta turn result]

/-! ## What is streamed -/

def yields (effects : List StreamEffect) : List StreamDelta :=
  effects.filterMap (fun effect => match effect with
    | .yielded delta => some delta
    | .inspected _ => none)

@[simp] theorem yields_append (effects more : List StreamEffect) :
    yields (effects ++ more) = yields effects ++ yields more := List.filterMap_append

@[simp] theorem yields_map_yielded (deltas : List StreamDelta) :
    yields (deltas.map StreamEffect.yielded) = deltas := by
  simp [yields, List.filterMap_map]

theorem streamDeltas_append (cfg : TurnConfig) {deltas : List StreamDelta}
    (h : ∀ delta ∈ deltas, delta.done = false) (rest : List StreamDelta) (thread : ChatThread) :
    streamDeltas cfg (deltas ++ rest) thread
      = ((if cfg.bufferOutput then [] else deltas.map StreamEffect.yielded)
          ++ (streamDeltas cfg rest thread).1, (streamDeltas cfg rest thread).2) := by
  induction deltas with
  | nil => simp
  | cons delta deltas ih =>
    have hdelta := h delta List.mem_cons_self
    rw [List.cons_append, streamDeltas, streamDelta, hdelta,
      ih (fun d hd => h d (List.mem_cons_of_mem _ hd))]
    cases cfg.bufferOutput <;> simp

theorem done_pieceDeltas {requestId : String} {pieces : List String} {delta : StreamDelta}
    (h : delta ∈ pieceDeltas requestId pieces) : delta.done = false := by
  obtain ⟨index, hindex, rfl⟩ := List.mem_mapIdx.1 h
  rfl

theorem streamDeltas_runStream (cfg : TurnConfig) (requestId : String) (pieces : List String)
    (response : InferenceResponse) (thread : ChatThread) :
    streamDeltas cfg (runStream requestId pieces response) thread = ((if cfg.bufferOutput then []
            else (pieceDeltas requestId pieces).map StreamEffect.yielded)
          ++ .inspected (response.outputText.getD "")
          :: (lastDeltas cfg (finalDelta requestId pieces response) response).map
              StreamEffect.yielded, finishStream cfg response thread) := by
  unfold runStream
  rw [streamDeltas_append cfg (fun _ hd => done_pieceDeltas hd)]
  simp [streamDeltas, streamDelta, finalDelta]

theorem join_chunks (size : Nat) (text : List Char) :
    String.join (chunks size text) = String.ofList text := by
  induction text using chunks.induct size with
  | case1 => simp [chunks]
  | case2 text hne ih =>
    rw [chunks, if_neg hne, String.join_cons, ih, ← String.ofList_append, List.take_append_drop]

end Himmy.Runtime
