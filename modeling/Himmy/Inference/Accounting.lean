import Himmy.Application.RunRetry
import Himmy.Inference.ResponseCache
import Himmy.Library.Interruption

/-! # The accounting of model calls

`InferenceService` announces each model call and reports how it ended, so that every call is paid for
once. A plain call has no cleanup, so an interruption leaves it without a report; a call whose cache hint
was rejected, or whose stream gave no final response, is announced again by the run that replaces it
(`accountedOnce_iff`). -/

namespace Himmy.Accounting

open Interruption Interruption.Program

/-! ## Calls -/

/-- The lifecycle events of a call. -/
inductive EventType where
  | inferenceRequested
  | inferenceSucceeded
  | inferenceFailed
  deriving DecidableEq

structure RunEvent where
  eventType : EventType
  requestId : String
  deriving DecidableEq

def announcement (requestId : String) : RunEvent :=
  { eventType := .inferenceRequested, requestId := requestId }

structure InferenceError where
  code : InferenceErrorCode
  message : String
  retryable : Bool := false

/-- `InferenceResponse`. -/
structure Response where
  status : InferenceStatus
  error : Option InferenceError := none
  outputText : Option String := none
  outputStructured : Option Value := none

def failure (error : InferenceError) : Response := { status := .failed, error := some error }

/-- `InferenceRequest`, with whether its cache policy is enabled, when it has one. -/
structure Request extends InferenceRequest where
  requestId : String
  cachePolicy : Option Bool := none
  validateStructuredOutput : Bool := true

/-- What becomes of a call of `generate`: it may take longer than its ceiling. -/
inductive GenerateOutcome where
  | responds (response : Response)
  | raises (name text : String)
  | notImplemented (text : String)
  | himmyError (text : String)
  | exceeds

/-- What a stream yields. -/
inductive Piece where
  | text (delta : String)
  | response (response : Response)

/-- How a stream goes on after its last piece. -/
inductive StreamEnding where
  | ends
  | stalls
  | raises

/-- What `generate_stream` returns; `closable` is whether it has an `aclose`. -/
structure ManagerStream where
  pieces : List Piece
  ending : StreamEnding
  closable : Bool := true

/-- `InferenceService`, with the behaviour of its manager at each attempt and that of its cache. -/
structure Service where
  maxRetries : Int := 2
  generate : Request → Nat → GenerateOutcome
  generateStream : Option (Request → ManagerStream) := none
  cached : Request → Option Response := fun _ => none
  /-- `validate_against_schema` -/
  validate : Dict Value → Value → Option String := fun _ _ => none
  /-- the ceiling of a call and the idle window, in seconds -/
  ceiling : Request → String := fun _ => ""
  idle : String := ""

/-- `normalize_forced_tool`, or the text of the `HimmyError`. -/
def normalizeForcedTool (request : Request) : Except String Request :=
  if request.responseFormat ≠ some .tool then .ok request
  else match request.boundTools with
    | [] => .error "ResponseFormat.TOOL requires at least one bound tool to force"
    | first :: tools =>
      let wanted := (request.toolNamesOverride.getD []).head?
      let forced := (wanted.bind (fun name => (first :: tools).find? (fun tool => tool.name = name))).getD first
      .ok { request with
        responseFormat := some .autoTools
        boundTools := [forced]
        messages := request.messages ++ [{
          role := "system"
          content := "You must call the `" ++ forced.name ++ "` tool to handle this request. "
            ++ "Issue the tool call now; do not reply in plain text." }]
        metadata := request.metadata.set "forced_tool" (.str forced.name) }

def errorNameMap : List (String × InferenceErrorCode × Bool) := [
  ("TimeoutError", .timeout, true),
  ("ConnectTimeout", .timeout, true),
  ("ReadTimeout", .timeout, true),
  ("ConnectError", .providerUnavailable, true),
  ("ConnectionError", .providerUnavailable, true),
  ("RemoteProtocolError", .providerUnavailable, true),
  ("UnexpectedModelBehavior", .providerUnavailable, true)]

def normalizeException (name text : String) : InferenceError :=
  let mapped := (errorNameMap.lookup name).getD (.unknown, false)
  { code := mapped.1, message := if text = "" then name else text, retryable := mapped.2 }

def wantsCache (request : Request) : Bool :=
  ((request.generationParams.find? "use_cache").map Value.truthy).getD false

section

variable {σ : Type} (service : Service)

def validateStructuredReply (request : Request) (response : Response) : Response :=
  if !request.validateStructuredOutput then response
  else if request.responseFormat ∉ [some .structuredOutput, some .jsonObject] then response
  else
    let error := request.outputJsonSchema.bind (fun schema =>
      if schema.items.isEmpty then none else response.outputStructured.bind (service.validate schema))
    error.elim response (fun error => { response with
      status := .failed
      error := some {
        code := .outputValidation
        message := "structured output failed schema validation: " ++ error } })

/-- `_run_once`, when it is done before the ceiling. -/
def runOnce (request : Request) (attempt : Nat) : Option Response :=
  match normalizeForcedTool request with
  | .error text => some (failure { code := .invalidRequest, message := text })
  | .ok request =>
    match service.generate request attempt with
    | .responds response => some response
    | .raises name text => some (failure (normalizeException name text))
    | .notImplemented text =>
      some (failure { code := .invalidRequest, message := if text = "" then "not implemented" else text })
    | .himmyError text => some (failure { code := .invalidRequest, message := text })
    | .exceeds => none

def attemptResponse (request : Request) (attempt : Nat) : Response :=
  let response := (runOnce service request attempt).getD (failure {
    code := .timeout
    message := "inference exceeded " ++ service.ceiling request ++ "s ceiling"
    retryable := true })
  if response.status = .success then validateStructuredReply service request response else response

def retries (response : Response) (left : Nat) : Bool :=
  response.status ≠ .success && 0 < left
    && response.error.any (fun error => error.retryable && error.code ∈ retryableErrorCodes)

/-- The loop of `run` over its attempts. -/
def attempts (request : Request) : Nat → Nat → Program RunEvent σ (Option Response)
  | _, 0 => pure none
  | attempt, left + 1 => do
      -- `asyncio.wait_for(self._run_once(request), timeout=ceiling)`
      suspend
      if retries (attemptResponse service request attempt) left then
        -- `asyncio.sleep`
        suspend
        attempts request (attempt + 1) left
      else pure (some (attemptResponse service request attempt))

/-- What `run` does with its last response. -/
inductive Verdict where
  | succeeded (response : Response)
  | failed (response : Response)
  /-- the cache hint was rejected -/
  | degrades
  /-- there was no attempt at all: `AssertionError` -/
  | unanswered

def judge (request : Request) : Option Response → Verdict
  | none => .unanswered
  | some response =>
    if response.status = .success then .succeeded response
    else if request.cachePolicy = some true ∧ response.error.any (fun error => error.code = .invalidRequest) then
      .degrades
    else .failed response

def attemptCount : Nat := (service.maxRetries + 1).toNat

def isStored (request : Request) (last : Option Response) : Bool :=
  wantsCache request && last.any (fun response => response.status = .success)

/-- `self._cache.get` of a request that wants the cache. -/
def lookUp (request : Request) : Program RunEvent σ (Option Response) :=
  if wantsCache request then do
    suspend
    pure (service.cached request)
  else pure none

/-- `self._cache.set` of a response that goes to the cache. -/
def store (request : Request) (last : Option Response) : Program RunEvent σ Unit :=
  if isStored request last then suspend else pure ()

/-- `run` between its two events: the response cache, the attempts, and the cache again. -/
def settle (request : Request) : Program RunEvent σ Verdict := do
  let hit ← lookUp service request
  match hit with
  | some hit => pure (.succeeded hit)
  | none => do
      let last ← attempts service request 0 (attemptCount service)
      store request last
      pure (judge request last)

/-- How `run` ends, given the run that replaces it when the cache hint is rejected. -/
def conclude (rerun : Program RunEvent σ Response) (request : Request) :
    Verdict → Program RunEvent σ Response
  | .succeeded response => do
      emit { eventType := .inferenceSucceeded, requestId := request.requestId }
      pure response
  | .failed response => do
      emit { eventType := .inferenceFailed, requestId := request.requestId }
      pure response
  | .degrades => rerun
  | .unanswered => raise

def runStep (rerun : Program RunEvent σ Response) (request : Request) : Program RunEvent σ Response := do
  emit (announcement request.requestId)
  let verdict ← settle service request
  conclude rerun request verdict

/-- `run`: the run without a cache policy has no hint that could be rejected. -/
def run (request : Request) : Program RunEvent σ Response :=
  runStep service (runStep service raise { request with cachePolicy := none }) request

/-! ## Streams -/

/-- The local variables of `run_stream`. -/
structure StreamLocals where
  index : Nat := 0
  final : Option Response := none
  terminalEmitted : Bool := false

def emitStreamTerminal (request : Request) (final : Option Response) : Program RunEvent StreamLocals Unit :=
  emit {
    eventType := if final.any (fun response => response.status = .success) then .inferenceSucceeded
      else .inferenceFailed
    requestId := request.requestId }

/-- The loop of `run_stream` over the pieces, to the wait that has no piece. -/
def readStream : List Piece → Program RunEvent StreamLocals Unit
  | [] => suspend
  | .response response :: pieces => do
      suspend
      assign (fun locals => { locals with final := some response })
      readStream pieces
  | .text _ :: pieces => do
      suspend
      assign (fun locals => { locals with index := locals.index + 1 })
      -- the delta is yielded
      suspend
      readStream pieces

def reportTerminal (request : Request) : Program RunEvent StreamLocals Unit := do
  let locals ← locals
  emitStreamTerminal request locals.final
  assign (fun locals => { locals with terminalEmitted := true })

/-- `aclose` of a stream that has one. -/
def closeStream (stream : ManagerStream) : Program RunEvent StreamLocals Unit :=
  if stream.closable then suspend else pure ()

variable (request : Request) (stream : ManagerStream)

def stallStream : Program RunEvent StreamLocals Unit := do
  closeStream stream
  assign (fun locals => { locals with
    final := some (failure {
      code := .timeout
      message := "stream idle for " ++ service.idle ++ "s"
      retryable := true }) })
  reportTerminal request
  suspend

def endStream : Option Response → Program RunEvent StreamLocals Unit
  | none => do
      let response ← run service request
      assign (fun locals => { locals with final := some response, terminalEmitted := true })
      suspend
  | some response => do
      assign (fun locals => { locals with
        final := some (if response.status = .success then validateStructuredReply service request response
          else response) })
      reportTerminal request
      suspend

/-- What `run_stream` does when there are no more pieces. -/
def afterPieces : Program RunEvent StreamLocals Unit :=
  match stream.ending with
  | .raises => raise
  | .stalls => stallStream service request stream
  | .ends => do
      let locals ← locals
      endStream service request locals.final

/-- The `try` block of `run_stream`. -/
def streamBody : Program RunEvent StreamLocals Unit := do
  readStream stream.pieces
  afterPieces service request stream

/-- The `finally` block of `run_stream`. -/
def streamCleanup : Program RunEvent StreamLocals Unit := do
  let locals ← locals
  if !locals.terminalEmitted then emitStreamTerminal request locals.final

def runManagerStream : Program RunEvent StreamLocals Unit := do
  emit (announcement request.requestId)
  protect (streamBody service request stream) (streamCleanup request)

def yieldChunks : Nat → Program RunEvent StreamLocals Unit
  | 0 => suspend
  | chunks + 1 => do
      suspend
      yieldChunks chunks

def runStream (request : Request) (chunkSize : Int) : Program RunEvent StreamLocals Unit :=
  match normalizeForcedTool request with
  | .error _ => do
      emit (announcement request.requestId)
      emit { eventType := .inferenceFailed, requestId := request.requestId }
      suspend
  | .ok request =>
    match service.generateStream with
    | some generateStream => runManagerStream service request (generateStream request)
    | none => do
        let response ← run service request
        let size := (max 1 chunkSize).toNat
        yieldChunks (((response.outputText.getD "").length + (size - 1)) / size)

/-! ## Where a call suspends -/

def lastResponse (request : Request) : Nat → Nat → Option Response
  | _, 0 => none
  | attempt, left + 1 =>
    if retries (attemptResponse service request attempt) left then lastResponse request (attempt + 1) left
    else some (attemptResponse service request attempt)

def attemptPoints (request : Request) : Nat → Nat → Nat
  | _, 0 => 0
  | attempt, left + 1 =>
    if retries (attemptResponse service request attempt) left then
      1 + (1 + attemptPoints request (attempt + 1) left)
    else 1

def cacheHit (request : Request) : Option Response :=
  if wantsCache request then service.cached request else none

/-- What `run` does. -/
def verdict (request : Request) : Verdict :=
  (cacheHit service request).elim (judge request (lastResponse service request 0 (attemptCount service)))
    .succeeded

/-- The suspension points between the two events of `run`. -/
def settlePoints (request : Request) : Nat :=
  (if wantsCache request then 1 else 0) + (cacheHit service request).elim
    (attemptPoints service request 0 (attemptCount service)
      + if isStored request (lastResponse service request 0 (attemptCount service)) then 1 else 0)
    (fun _ => 0)

theorem quiet_attempts (request : Request) (attempt left : Nat) :
    Quiet (attempts service request attempt left : Program RunEvent σ _)
      (attemptPoints service request attempt left) (lastResponse service request attempt left) := by
  induction left generalizing attempt with
  | zero => exact quiet_pure none
  | succ left ih =>
    rw [attempts, attemptPoints, lastResponse]
    split_ifs
    · exact quiet_suspend.bind (quiet_suspend.bind (ih (attempt + 1)))
    · exact quiet_suspend.then_pure _

theorem quiet_lookUp (request : Request) :
    Quiet (lookUp service request : Program RunEvent σ _) (if wantsCache request then 1 else 0)
      (cacheHit service request) := by
  unfold lookUp cacheHit
  split_ifs
  · exact quiet_suspend.then_pure _
  · exact quiet_pure none

theorem quiet_store (request : Request) (last : Option Response) :
    Quiet (store request last : Program RunEvent σ _) (if isStored request last then 1 else 0) () := by
  unfold store
  split_ifs
  · exact quiet_suspend
  · exact quiet_pure ()

theorem quiet_settle (request : Request) :
    Quiet (settle service request : Program RunEvent σ _) (settlePoints service request)
      (verdict service request) := by
  unfold settle settlePoints verdict
  refine (quiet_lookUp service request).bind ?_
  cases cacheHit service request with
  | some hit => exact quiet_pure _
  | none =>
    exact (quiet_attempts service request 0 (attemptCount service)).bind
      ((quiet_store request _).then_pure _)

def finalOf : Option Response → List Piece → Option Response
  | final, [] => final
  | _, .response response :: pieces => finalOf (some response) pieces
  | final, .text _ :: pieces => finalOf final pieces

def readPoints : List Piece → Nat
  | [] => 1
  | .response _ :: pieces => 1 + readPoints pieces
  | .text _ :: pieces => 1 + (1 + readPoints pieces)

end

/-! ## Accounting -/

/-- The events announce the call once and report its end once. -/
structure AccountedOnce (requestId : String) (events : List RunEvent) : Prop where
  requested : events.countP (fun e => e.requestId = requestId ∧ e.eventType = .inferenceRequested) = 1
  terminal : events.countP (fun e => e.requestId = requestId
    ∧ (e.eventType = .inferenceSucceeded ∨ e.eventType = .inferenceFailed)) = 1

/-- A call of the service. -/
inductive Call where
  | run
  | runStream (chunkSize : Int)

variable (service : Service) (request : Request) (interruption : Option Nat)

/-- The events of a call that is interrupted after some suspension points, if at all. -/
def callEvents : Call → List RunEvent
  | .run => (run service request ⟨[], interruption, ()⟩).2.events
  | .runStream chunkSize => (runStream service request chunkSize ⟨[], interruption, {}⟩).2.events

/-- `run` comes to its last event, and has one of its own. -/
def RunReports : Prop :=
  (∀ k ∈ interruption, 1 + settlePoints service request ≤ k)
    ∧ ∃ response, verdict service request = .succeeded response ∨ verdict service request = .failed response

/-- Once the pieces are read, a stream is not interrupted as its end is reported, and does not come to an
    end without a final response; `later` is the interruption from there on. -/
def EndReports (stream : ManagerStream) (final : Option Response) (later : Option Nat) : Prop :=
  match stream.ending with
  | .raises => True
  | .stalls => later ≠ some (if stream.closable then 1 else 0)
  | .ends => final.isSome ∧ later ≠ some 0

/-- A stream is not interrupted as it is announced, and is either interrupted while its pieces are read or
    reports its end once. -/
def StreamReports (stream : ManagerStream) (interruption : Option Nat) : Prop :=
  interruption ≠ some 0 ∧ ∀ later, spend (1 + readPoints stream.pieces) interruption = some later →
    EndReports stream (finalOf none stream.pieces) later

def CallReports : Call → Prop
  | .run => RunReports service request interruption
  | .runStream _ =>
    match normalizeForcedTool request with
    | .error _ => interruption ≠ some 0
    | .ok request =>
      match service.generateStream with
      | none => RunReports service request interruption
      | some generateStream => StreamReports (generateStream request) interruption

section

variable {σ : Type} {service : Service} {request : Request} {id : String}

def IsReport (id : String) (e : RunEvent) : Prop :=
  e.requestId = id ∧ (e.eventType = .inferenceSucceeded ∨ e.eventType = .inferenceFailed)

theorem accountedOnce_pair {e : RunEvent} (h : IsReport id e) : AccountedOnce id [announcement id, e] := by
  obtain ⟨rfl, htype⟩ := h
  constructor
  · rcases htype with htype | htype <;> simp [announcement, htype]
  · rcases htype with htype | htype <;> simp [announcement, htype]

theorem not_accountedOnce_announcement : ¬ AccountedOnce id [announcement id] := fun h => by
  have := h.terminal
  simp [announcement] at this

theorem not_accountedOnce_two_reports {e e' : RunEvent} (h : IsReport id e) (h' : IsReport id e') :
    ¬ AccountedOnce id [announcement id, e, e'] := fun haccounted => by
  have := haccounted.terminal
  obtain ⟨hid, htype⟩ := h
  obtain ⟨hid', htype'⟩ := h'
  simp [announcement, hid, htype, hid', htype'] at this

theorem not_accountedOnce_of_two_announcements {events : List RunEvent}
    (h : [announcement id, announcement id] <+: events) : ¬ AccountedOnce id events := fun haccounted => by
  have hle : [announcement id, announcement id].countP
      (fun e => e.requestId = id ∧ e.eventType = .inferenceRequested) ≤ 1 :=
    haccounted.requested ▸ h.sublist.countP_le
  simp [announcement] at hle

/-! ## Runs -/

theorem grows_report (event : RunEvent) (response : Response) :
    Grows (do emit event; pure response : Program RunEvent σ Response) :=
  (grows_emit event).bind fun _ => (quiet_pure response).grows

variable {rerun : Program RunEvent σ Response}

theorem grows_conclude (hrerun : Grows rerun) (verdict : Verdict) :
    Grows (conclude rerun request verdict) := by
  cases verdict with
  | succeeded response => exact grows_report _ response
  | failed response => exact grows_report _ response
  | degrades => exact hrerun
  | unanswered => exact grows_raise

theorem runStep_apply (rerun : Program RunEvent σ Response) (w : World RunEvent σ) :
    runStep service rerun request w = (spend (1 + settlePoints service request) w.left).elim
      (.error .interrupted, { w with events := w.events ++ [announcement request.requestId], left := none })
      (fun left => conclude rerun request (verdict service request)
        { w with events := w.events ++ [announcement request.requestId], left := left }) := by
  rw [runStep, emit_bind_apply, spend_add]
  cases spend 1 w.left with
  | none => rfl
  | some left =>
    rw [Option.elim_some, (quiet_settle service request).bind_apply, Option.bind_some]

theorem runStep_announces (service : Service) (request : Request)
    (hrerun : Grows rerun) (w : World RunEvent σ) :
    w.events ++ [announcement request.requestId] <+: (runStep service rerun request w).2.events := by
  rw [runStep_apply]
  cases spend (1 + settlePoints service request) w.left with
  | none => exact List.prefix_rfl
  | some left => exact grows_conclude hrerun _ { w with events := w.events ++ [announcement _], left := left }

theorem grows_runStep (hrerun : Grows rerun) : Grows (runStep service rerun request) := fun w =>
  (List.prefix_append ..).trans (runStep_announces service request hrerun w)

theorem run_announces (service : Service) (request : Request) (w : World RunEvent σ) :
    w.events ++ [announcement request.requestId] <+: (run service request w).2.events :=
  runStep_announces service request (grows_runStep grows_raise) w

theorem report_events (event : RunEvent) (response : Response) (w : World RunEvent σ) :
    ((do emit event; pure response : Program RunEvent σ Response) w).2.events = w.events ++ [event] := by
  rw [Quiet.events_bind fun _ => quiet_pure response, emit_events]

theorem run_accountedOnce_iff (w : World RunEvent σ) (h : w.events = []) :
    AccountedOnce request.requestId (run service request w).2.events
      ↔ RunReports service request w.left := by
  have hpassed : (∀ k ∈ w.left, 1 + settlePoints service request ≤ k)
      ↔ (spend (1 + settlePoints service request) w.left).isSome := by
    cases w.left <;> simp [spend]
  rw [RunReports, hpassed, run, runStep_apply, h]
  cases spend (1 + settlePoints service request) w.left with
  | none => simpa using not_accountedOnce_announcement
  | some left =>
    rw [Option.elim_some, List.nil_append, Option.isSome_some]
    cases hverdict : verdict service request with
    | succeeded response =>
      refine iff_of_true ?_ ⟨rfl, response, .inl rfl⟩
      rw [conclude, report_events]
      exact accountedOnce_pair ⟨rfl, .inl rfl⟩
    | failed response =>
      refine iff_of_true ?_ ⟨rfl, response, .inr rfl⟩
      rw [conclude, report_events]
      exact accountedOnce_pair ⟨rfl, .inr rfl⟩
    | degrades =>
      -- the run that replaces it announces the call a second time
      have hannounced := runStep_announces service { request with cachePolicy := none }
        (grows_raise : Grows (raise : Program RunEvent σ _)) { w with events := [announcement request.requestId], left := left }
      exact iff_of_false (not_accountedOnce_of_two_announcements hannounced) (by simp)
    | unanswered => exact iff_of_false not_accountedOnce_announcement (by simp)

/-! ## Streams -/

def readLocals : List Piece → StreamLocals → StreamLocals
  | [], locals => locals
  | .response response :: pieces, locals => readLocals pieces { locals with final := some response }
  | .text _ :: pieces, locals => readLocals pieces { locals with index := locals.index + 1 }

variable (pieces : List Piece)

theorem final_readLocals (locals : StreamLocals) :
    (readLocals pieces locals).final = finalOf locals.final pieces := by
  induction pieces generalizing locals with
  | nil => rfl
  | cons piece pieces ih => cases piece <;> exact ih _

theorem terminalEmitted_readLocals (locals : StreamLocals) :
    (readLocals pieces locals).terminalEmitted = locals.terminalEmitted := by
  induction pieces generalizing locals with
  | nil => rfl
  | cons piece pieces ih => cases piece <;> exact ih _

theorem assign_bind_apply {α : Type} (f : σ → σ) (p : Unit → Program RunEvent σ α) (w : World RunEvent σ) :
    (assign f >>= p) w = p () { w with locals := f w.locals } := rfl

theorem locals_bind_apply {α : Type} (p : σ → Program RunEvent σ α) (w : World RunEvent σ) :
    (locals >>= p) w = p w.locals w := rfl

/-- The pieces are read to their end unless the interruption comes first; reading emits nothing and does
    not touch the note of the terminal event. -/
theorem readStream_apply (w : World RunEvent StreamLocals) :
    (∃ locals left, spend (readPoints pieces) w.left = none ∧ locals.terminalEmitted = w.locals.terminalEmitted
        ∧ readStream pieces w = (.error .interrupted, { w with left := left, locals := locals }))
      ∨ ∃ left, spend (readPoints pieces) w.left = some left
        ∧ readStream pieces w = (.ok (), { w with left := left, locals := readLocals pieces w.locals }) := by
  induction pieces generalizing w with
  | nil =>
    rw [readStream, readPoints, readLocals, quiet_suspend w, advance]
    cases spend 1 w.left with
    | none => exact .inl ⟨w.locals, none, rfl, rfl, rfl⟩
    | some left => exact .inr ⟨left, rfl, rfl⟩
  | cons piece pieces ih =>
    cases piece with
    | response response =>
      rw [readStream, readPoints, readLocals, quiet_suspend.bind_apply, spend_add]
      cases spend 1 w.left with
      | none => exact .inl ⟨w.locals, none, rfl, rfl, rfl⟩
      | some left =>
        rw [Option.elim_some, assign_bind_apply, Option.bind_some]
        exact ih ⟨w.events, left, { w.locals with final := some response }⟩
    | text delta =>
      rw [readStream, readPoints, readLocals, quiet_suspend.bind_apply, spend_add]
      cases spend 1 w.left with
      | none => exact .inl ⟨w.locals, none, rfl, rfl, rfl⟩
      | some left =>
        rw [Option.elim_some, assign_bind_apply, quiet_suspend.bind_apply, Option.bind_some, spend_add]
        dsimp only
        cases spend 1 left with
        | none => exact .inl ⟨{ w.locals with index := w.locals.index + 1 }, none, rfl, rfl, rfl⟩
        | some later =>
          rw [Option.elim_some, Option.bind_some]
          exact ih ⟨w.events, later, { w.locals with index := w.locals.index + 1 }⟩

def terminalEvent (id : String) (final : Option Response) : RunEvent where
  eventType := if final.any (fun response => response.status = .success) then .inferenceSucceeded
    else .inferenceFailed
  requestId := id

theorem isReport_terminalEvent (id : String) (final : Option Response) :
    IsReport id (terminalEvent id final) := by
  refine ⟨rfl, ?_⟩
  unfold terminalEvent
  split_ifs
  · exact .inl rfl
  · exact .inr rfl

theorem streamCleanup_events (w : World RunEvent StreamLocals) :
    (streamCleanup request w).2.events = if w.locals.terminalEmitted then w.events
      else w.events ++ [terminalEvent request.requestId w.locals.final] := by
  rw [streamCleanup, locals_bind_apply]
  cases w.locals.terminalEmitted with
  | true => rfl
  | false => exact emit_events _ w

theorem grows_streamCleanup : Grows (streamCleanup request) := fun w => by
  rw [streamCleanup_events]
  split_ifs
  · exact List.prefix_rfl
  · exact List.prefix_append ..

theorem reportTerminal_bind_apply {α : Type} (f : Unit → Program RunEvent StreamLocals α)
    (w : World RunEvent StreamLocals) : (reportTerminal request >>= f) w = (spend 1 w.left).elim
      (.error .interrupted,
        { w with events := w.events ++ [terminalEvent request.requestId w.locals.final], left := none })
      (fun left => f () {
        events := w.events ++ [terminalEvent request.requestId w.locals.final]
        left := left
        locals := { w.locals with terminalEmitted := true } }) := by
  rw [reportTerminal, bind_bind, locals_bind_apply, bind_bind]
  show (emit (terminalEvent request.requestId w.locals.final) >>= _) w = _
  rw [emit_bind_apply]
  rfl

variable (stream : ManagerStream)

theorem quiet_closeStream : Quiet (closeStream stream) (if stream.closable then 1 else 0) () := by
  unfold closeStream
  split_ifs
  · exact quiet_suspend
  · exact quiet_pure ()

variable {locals : StreamLocals} (left : Option Nat)

theorem reported_accountedOnce_iff (h : locals.terminalEmitted = false) :
    AccountedOnce request.requestId (streamCleanup request ((reportTerminal request >>= fun _ => suspend)
        ⟨[announcement request.requestId], left, locals⟩).2).2.events ↔ left ≠ some 0 := by
  have hreport := isReport_terminalEvent request.requestId locals.final
  rw [streamCleanup_events, reportTerminal_bind_apply]
  dsimp only
  rw [ne_eq, ← spend_one_eq_none_iff]
  cases spend 1 left with
  | none =>
    -- the note was not taken, so the cleanup reports the end once more
    rw [Option.elim_none, h]
    exact iff_of_false (not_accountedOnce_two_reports hreport hreport) (by simp)
  | some later =>
    refine iff_of_true ?_ (by simp)
    rw [Option.elim_some, quiet_suspend, advance]
    dsimp only
    cases spend 1 later <;> exact accountedOnce_pair hreport

theorem stallStream_accountedOnce_iff (h : locals.terminalEmitted = false) :
    AccountedOnce request.requestId (streamCleanup request (stallStream service request stream
        ⟨[announcement request.requestId], left, locals⟩).2).2.events
      ↔ left ≠ some (if stream.closable then 1 else 0) := by
  rw [stallStream, (quiet_closeStream stream).bind_apply]
  dsimp only
  cases hspend : spend (if stream.closable then 1 else 0) left with
  | none =>
    obtain ⟨k, hleft, hk⟩ := spend_eq_none_iff.mp hspend
    refine iff_of_true ?_ (by rw [hleft]; simpa using hk.ne)
    rw [Option.elim_none, streamCleanup_events, h]
    exact accountedOnce_pair (isReport_terminalEvent ..)
  | some later =>
    rw [Option.elim_some, assign_bind_apply, eq_map_of_spend hspend]
    refine Iff.trans (reported_accountedOnce_iff later ?_) ?_
    · exact h
    · cases later <;> simp

theorem endStream_accountedOnce_iff (final : Option Response) (left : Option Nat)
    (h : locals.terminalEmitted = false) :
    AccountedOnce request.requestId (streamCleanup request (endStream service request final
        ⟨[announcement request.requestId], left, locals⟩).2).2.events
      ↔ final.isSome ∧ left ≠ some 0 := by
  cases final with
  | none =>
    refine iff_of_false (not_accountedOnce_of_two_announcements ?_) (by simp)
    have hannounced : [announcement request.requestId, announcement request.requestId]
        <+: (run service request ⟨[announcement request.requestId], left, locals⟩).2.events :=
      run_announces service request ⟨[announcement request.requestId], left, locals⟩
    have hrest : ∀ response : Response, Grows (do
        assign (fun locals : StreamLocals => { locals with final := some response, terminalEmitted := true })
        suspend : Program RunEvent StreamLocals Unit) := fun _ =>
      (grows_assign _).bind fun _ => grows_suspend
    exact (hannounced.trans (events_bind hrest _ _)).trans (grows_streamCleanup _)
  | some response =>
    rw [endStream, assign_bind_apply]
    refine Iff.trans (reported_accountedOnce_iff left ?_) ?_
    · exact h
    · simp

theorem afterPieces_accountedOnce_iff (h : locals.terminalEmitted = false) :
    AccountedOnce request.requestId (streamCleanup request (afterPieces service request stream
        ⟨[announcement request.requestId], left, locals⟩).2).2.events
      ↔ EndReports stream locals.final left := by
  unfold afterPieces EndReports
  cases stream.ending with
  | raises =>
    refine iff_of_true ?_ trivial
    show AccountedOnce _ (streamCleanup request ⟨_, left, locals⟩).2.events
    rw [streamCleanup_events, h]
    exact accountedOnce_pair (isReport_terminalEvent ..)
  | stalls => exact stallStream_accountedOnce_iff stream left h
  | ends => exact endStream_accountedOnce_iff locals.final left h

theorem runManagerStream_accountedOnce_iff (interruption : Option Nat) :
    AccountedOnce request.requestId (runManagerStream service request stream ⟨[], interruption, {}⟩).2.events
      ↔ StreamReports stream interruption := by
  rw [runManagerStream, emit_bind_apply, StreamReports, spend_add, ne_eq, ← spend_one_eq_none_iff]
  dsimp only
  cases spend 1 interruption with
  | none => exact iff_of_false not_accountedOnce_announcement (by simp)
  | some left =>
    rw [Option.elim_some, protect_events, List.nil_append, streamBody, Option.bind_some]
    rcases readStream_apply stream.pieces ⟨[announcement request.requestId], left, {}⟩ with
      ⟨locals, later, hspend, hlocals, hread⟩ | ⟨later, hspend, hread⟩
    · -- the interruption comes while the pieces are read
      dsimp only at hspend hread
      have hkept : ¬ locals.terminalEmitted = true := by simp [hlocals]
      refine iff_of_true ?_ (by simp [hspend])
      rw [bind_apply_error hread, streamCleanup_events, if_neg hkept]
      exact accountedOnce_pair (isReport_terminalEvent ..)
    · dsimp only at hspend hread
      rw [bind_apply_ok hread, afterPieces_accountedOnce_iff stream later (terminalEmitted_readLocals ..),
        final_readLocals, hspend]
      simp

/-! ## Calls -/

theorem requestId_normalizeForcedTool {request' : Request} (h : normalizeForcedTool request = .ok request') :
    request'.requestId = request.requestId := by
  unfold normalizeForcedTool at h
  split_ifs at h
  · rw [Except.ok.inj h]
  · cases htools : request.boundTools with
    | nil => simp [htools] at h
    | cons first tools =>
      rw [htools] at h
      rw [← Except.ok.inj h]

theorem quiet_yieldChunks (chunks : Nat) : Quiet (yieldChunks chunks) (chunks + 1) () := by
  induction chunks with
  | zero => exact quiet_suspend
  | succ chunks ih =>
    rw [Nat.add_comm (chunks + 1) 1]
    exact quiet_suspend.bind ih

end

/-- A call is accounted for exactly when it reports its own end, and no other run does for it. -/
theorem accountedOnce_iff (service : Service) (request : Request) (interruption : Option Nat) (call : Call) :
    AccountedOnce request.requestId (callEvents service request interruption call)
      ↔ CallReports service request interruption call := by
  cases call with
  | run => exact run_accountedOnce_iff ⟨[], interruption, ()⟩ rfl
  | runStream chunkSize =>
    unfold callEvents CallReports runStream
    cases hnormalized : normalizeForcedTool request with
    | error text =>
      dsimp only
      rw [emit_bind_apply]
      rw [← not_iff_not, not_not, ← spend_one_eq_none_iff]
      cases spend 1 interruption with
      | none => exact iff_of_true not_accountedOnce_announcement rfl
      | some left =>
        refine iff_of_false (not_not_intro ?_) (by simp)
        rw [Option.elim_some, Quiet.events_bind fun _ => quiet_suspend, emit_events]
        exact accountedOnce_pair ⟨rfl, .inr rfl⟩
    | ok request' =>
      dsimp only
      rw [← requestId_normalizeForcedTool hnormalized]
      cases service.generateStream with
      | none =>
        rw [Quiet.events_bind fun _ => quiet_yieldChunks _]
        exact run_accountedOnce_iff (⟨[], interruption, {}⟩ : World RunEvent StreamLocals) rfl
      | some generateStream => exact runManagerStream_accountedOnce_iff (generateStream request') interruption

/-- A stream that ends without a final response is announced twice, and a run that is cancelled while the
    manager generates is never reported. -/
theorem not_accountedOnce_endless_cancelled : ¬ AccountedOnce "r" (callEvents
        { generate := fun _ _ => .responds { status := .success }
          generateStream := some (fun _ => { pieces := [.text "a"], ending := .ends }) }
        { requestId := "r" } none (.runStream 24))
      ∧ ¬ AccountedOnce "r" (callEvents { generate := fun _ _ => .responds { status := .success } }
        { requestId := "r" } (some 1) .run) := by
  constructor
  · intro h
    exact absurd h.requested (by decide +kernel)
  · intro h
    exact absurd h.terminal (by decide +kernel)

end Himmy.Accounting
