import Himmy.Core.Text
import Himmy.Storage.Models

/-! # The drive of a claimed run

`dispatch_claimed_run` rehydrates the input of a claimed run, waits for the workspace's semaphore,
marks the run `RUNNING` and drives it on a runtime. What the runtime reports is external; each way
the drive can end is a `DriveOutcome`, and what the drive writes for it is `DriveOutcome.apply`. All
writes are `save_run` of the record the worker was handed by the claim.

The record edits of a drive never touch the claim's fields (`SameClaim`). -/

namespace Himmy

/-- What one turn reports: the fields of `RunResult` the drive reads. `outputStructured` is the typed
    output, or what the text parses to; `extractionError` is the schema violation, if any. -/
structure RunResult where
  threadId : String
  traceId : Option String := none
  outputText : Option String := none
  outputStructured : Option Json := none
  extractionError : Option String := none
  error : Option String := none
  errorCode : Option String := none

/-- What a team or workflow drive reports. `awaiting` is the pause at a member: its checkpoint id, the
    graph's, and the member. -/
structure OrchestrationOutcome where
  threadId : Option String := none
  outputText : Option String := none
  stoppedReason : Json := .null
  route : Json := .null
  graphCheckpointId : Option String := none
  awaiting : Option (Json × Json × Json) := none
  failed : Bool := false
  error : Option String := none

/-- The two entries into the drive of a run, which name themselves in the error texts. -/
inductive DriveEntry
  | dispatch
  | resume
deriving DecidableEq, Repr

/-- The ways a drive ends. -/
inductive DriveOutcome
  | buildFailed (exc : String)
  | timedOut (timeoutSeconds : Nat)
  | cancelled
  | raised (exc : String)
  | inferenceFailed (result : RunResult)
  | succeeded (result : RunResult)
  | awaitingApproval (result : RunResult) (checkpointId : Option String) (plan : Option Json)
  | orchestrated (outcome : OrchestrationOutcome)

namespace DriveOutcome

instance : ∀ o : DriveOutcome, Decidable (o = .cancelled)
  | .cancelled => isTrue rfl
  | .buildFailed _ => isFalse nofun
  | .timedOut _ => isFalse nofun
  | .raised _ => isFalse nofun
  | .inferenceFailed _ => isFalse nofun
  | .succeeded _ => isFalse nofun
  | .awaitingApproval .. => isFalse nofun
  | .orchestrated _ => isFalse nofun

/-- The outcome leaves the run `FAILED`. -/
def fails : DriveOutcome → Bool
  | .succeeded _ => false
  | .awaitingApproval .. => false
  | .orchestrated outcome => outcome.awaiting.isNone && outcome.failed
  | _ => true

def code : DriveOutcome → Option String
  | .inferenceFailed result => orNone result.errorCode
  | _ => none

def text (entry : DriveEntry) : DriveOutcome → String
  | .buildFailed exc => match entry with
    | .dispatch => "agent runtime build failed: " ++ exc
    | .resume => "resume runtime build failed: " ++ exc
  | .timedOut n => match entry with
    | .dispatch => "run exceeded " ++ toString n ++ "s execution timeout"
    | .resume => "resume exceeded " ++ toString n ++ "s timeout"
  | .cancelled => match entry with
    | .dispatch => "run cancelled"
    | .resume => "resume cancelled"
  | .raised exc => exc
  | .inferenceFailed result => pyOr result.error (pyOr result.errorCode "inference failed")
  | .succeeded _ => ""
  | .awaitingApproval .. => ""
  | .orchestrated outcome => pyOr outcome.error "orchestration failed"

def setIf (metadata : Dict Json) (key : String) : Option Json → Dict Json
  | some value => metadata.set key value
  | none => metadata

def applyOrchestration (outcome : OrchestrationOutcome) (run : RunRecord) (now : Instant) :
    RunRecord :=
  let metadata := setIf ((run.metadata.set "stopped_reason" outcome.stoppedReason).set "route"
    outcome.route) "graph_checkpoint_id" ((orNone outcome.graphCheckpointId).map Json.str)
  let run := { run with
    threadId := outcome.threadId, outputText := orNone outcome.outputText, metadata,
    updatedAt := now }
  match outcome.awaiting with
  | some (checkpointId, graphId, member) =>
    { run with
      status := .awaitingApproval,
      metadata := (((metadata.set "checkpoint_id" checkpointId).set "orchestration_checkpoint_id"
        graphId).set "awaiting_member" member).set "hitl_kind" (.str "orchestration") }
  | none =>
    if outcome.failed then
      { run with status := .failed, error := some (pyOr outcome.error "orchestration failed") }
    else { run with status := .succeeded }

def apply (entry : DriveEntry) (o : DriveOutcome) (run : RunRecord) (now : Instant) : RunRecord :=
  match o with
  | .inferenceFailed result =>
    { run with
      threadId := some result.threadId, traceId := result.traceId, status := .failed,
      error := some (o.text entry), outputText := orNone result.outputText,
      metadata := setIf run.metadata "error_code" (o.code.map Json.str), updatedAt := now }
  | .succeeded result =>
    { run with
      threadId := some result.threadId, traceId := result.traceId,
      outputText := orNone result.outputText, outputStructured := result.outputStructured,
      metadata := setIf run.metadata "extraction_error"
        (result.extractionError.map (fun e => .str ("schema validation failed: " ++ e))),
      status := .succeeded, updatedAt := now }
  | .awaitingApproval result checkpointId plan =>
    { run with
      threadId := some result.threadId, traceId := result.traceId, status := .awaitingApproval,
      metadata := setIf
        (run.metadata.set "checkpoint_id" ((checkpointId.map Json.str).getD .null)) "plan" plan,
      updatedAt := now }
  | .orchestrated outcome => applyOrchestration outcome run now
  | _ => { run with status := .failed, error := some (o.text entry), updatedAt := now }

end DriveOutcome

/-! ## The rehydration of the input -/

variable (run : RunRecord)

/-- The failure of a run whose recoverable input is missing or cannot be decoded. -/
def RunRecord.rehydrationFailed (error : String) (now : Instant) : RunRecord :=
  { run with
    status := .failed, error := some error, lastError := some error, updatedAt := now }

/-- The first step of `dispatch_claimed_run`: the error of an input that is missing or, when `exc` is
    given, cannot be decoded. -/
def rehydrationError (exc : Option String) : Option String :=
  match orNone run.inputBlob with
  | none => some ("run has no recoverable input (input_blob missing); cannot be "
      ++ "re-executed by the dispatcher")
  | some _ => exc.map ("run input could not be rehydrated: " ++ ·)

/-- `(run.metadata or {}).get("orchestration")`: the run is a team or workflow run. -/
def RunRecord.isOrchestration : Bool :=
  (orNone (Dict.str? run.metadata "orchestration")).isSome

/-- `list(metadata.get("member_agent_ids") or [])` is not empty. -/
def RunRecord.hasMembers : Bool :=
  match run.metadata.find? "member_agent_ids" with
  | some (.arr (_ :: _)) => true
  | _ => false

/-- The first step of `_dispatch_orchestration_run`: the error of a run without resolvable members,
    or with a member `removed`. -/
def membersError (resolverWired : Bool) (removed : Option String) : Option String :=
  if !run.hasMembers || !resolverWired then
    some "orchestration run cannot be recovered: no resolvable members"
  else removed.map (fun agentId => "orchestration recovery failed: member agent " ++ agentId
    ++ " removed")

def RunRecord.markedRunning (now : Instant) : RunRecord :=
  { run with status := .running, updatedAt := now }

/-! ## What a drive leaves alone -/

/-- The identity of a run and the fields of its claim. -/
structure SameClaim (a b : RunRecord) : Prop where
  runId : a.runId = b.runId
  workspaceId : a.workspaceId = b.workspaceId
  idempotencyKey : a.idempotencyKey = b.idempotencyKey
  createdAt : a.createdAt = b.createdAt
  ownerId : a.ownerId = b.ownerId
  leaseExpiresAt : a.leaseExpiresAt = b.leaseExpiresAt
  heartbeatAt : a.heartbeatAt = b.heartbeatAt
  attempt : a.attempt = b.attempt
  maxAttempts : a.maxAttempts = b.maxAttempts

namespace SameClaim

theorem trans {a b c : RunRecord} (h : SameClaim a b) (h' : SameClaim b c) : SameClaim a c :=
  ⟨h.1.trans h'.1, h.2.trans h'.2, h.3.trans h'.3, h.4.trans h'.4, h.5.trans h'.5,
    h.6.trans h'.6, h.7.trans h'.7, h.8.trans h'.8, h.9.trans h'.9⟩

variable (run : RunRecord)

theorem stamped (now : Instant) : SameClaim (run.stamped now) run :=
  ⟨rfl, rfl, rfl, rfl, rfl, rfl, rfl, rfl, rfl⟩

theorem markedRunning (now : Instant) : SameClaim (run.markedRunning now) run :=
  ⟨rfl, rfl, rfl, rfl, rfl, rfl, rfl, rfl, rfl⟩

theorem rehydrationFailed (error : String) (now : Instant) :
    SameClaim (run.rehydrationFailed error now) run :=
  ⟨rfl, rfl, rfl, rfl, rfl, rfl, rfl, rfl, rfl⟩

theorem apply (entry : DriveEntry) (o : DriveOutcome) (run : RunRecord) (now : Instant) :
    SameClaim (o.apply entry run now) run := by
  cases o with
  | orchestrated outcome =>
    simp only [DriveOutcome.apply, DriveOutcome.applyOrchestration]
    split
    · exact ⟨rfl, rfl, rfl, rfl, rfl, rfl, rfl, rfl, rfl⟩
    · split <;> exact ⟨rfl, rfl, rfl, rfl, rfl, rfl, rfl, rfl, rfl⟩
  | _ => exact ⟨rfl, rfl, rfl, rfl, rfl, rfl, rfl, rfl, rfl⟩

end SameClaim

namespace DriveOutcome

theorem status_apply (entry : DriveEntry) (o : DriveOutcome) (run : RunRecord) (now : Instant) :
    (o.apply entry run now).status = .failed ∨ (o.apply entry run now).status = .succeeded
      ∨ (o.apply entry run now).status = .awaitingApproval := by
  cases o with
  | orchestrated outcome =>
    simp only [apply, applyOrchestration]
    split
    · simp
    · split <;> simp
  | _ => simp [apply]

theorem apply_of_fails (entry : DriveEntry) {o : DriveOutcome} (h : o.fails = true)
    (run : RunRecord) (now : Instant) : (o.apply entry run now).status = .failed
      ∧ (o.apply entry run now).error = some (o.text entry) := by
  cases o with
  | succeeded result => simp [fails] at h
  | awaitingApproval result checkpointId plan => simp [fails] at h
  | orchestrated outcome =>
    have h' : (outcome.awaiting.isNone && outcome.failed) = true := h
    rw [Bool.and_eq_true, Option.isNone_iff_eq_none] at h'
    simp only [apply, applyOrchestration]
    rw [h'.1, h'.2]
    dsimp only
    rw [if_pos rfl]
    exact ⟨rfl, rfl⟩
  | _ => simp [apply]

end DriveOutcome

end Himmy
