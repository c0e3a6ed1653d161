import Himmy.Core.Ids
import Himmy.Core.Json

/-! # Persisted run records

`RunRecord` is the operational unit of work of the run store: one async run with its lifecycle
status, its output, and the fields of the leased work queue (owner, lease deadline, heartbeat,
attempt counter, backoff gate, lane). The updates that the stores make to a record are functions
here (`claimedBy`, `renewed`, `requeued`, `redriven`, `resolving`), so that the in-memory store,
which mutates the record, and the SQL stores, which rewrite columns and a JSON payload, can be
compared on them. -/

namespace Himmy

/-- Lifecycle state of an async agent run. -/
inductive RunStatus
  | queued
  | running
  | awaitingApproval
  | resolving
  | succeeded
  | failed
  | parked
deriving DecidableEq, Repr

/-- `ACTIVE_RUN_STATUSES`: the statuses that occupy a tenant's outstanding-run budget. -/
def activeRunStatuses : List RunStatus := [.queued, .running, .awaitingApproval, .resolving]

/-- `LOCAL_WORKSPACE`: the reserved single-user workspace. -/
def localWorkspace : String := "__local__"

/-- One persisted run. -/
structure RunRecord where
  runId : String
  workspaceId : String
  subjectId : String
  taskId : Option String := none
  threadId : Option String := none
  snapshotId : Option String := none
  personaName : Option String := none
  modelKey : Option String := none
  idempotencyKey : Option String := none
  status : RunStatus := .queued
  outputText : Option String := none
  outputStructured : Option Json := none
  error : Option String := none
  traceId : Option String := none
  metadata : Dict Json := KeyedList.empty
  createdAt : Instant
  updatedAt : Instant
  ownerId : Option String := none
  leaseExpiresAt : Option Instant := none
  heartbeatAt : Option Instant := none
  attempt : Int := 0
  maxAttempts : Int := 1
  nextAttemptAt : Option Instant := none
  lastError : Option String := none
  laneKey : Option String := none
  inputBlob : Option String := none

namespace RunRecord

variable (run : RunRecord)

def isActive : Bool := run.status ∈ activeRunStatuses

/-- `run.next_attempt_at or run.created_at`: the instant the run is ordered by in the queue. -/
def dueAt : Instant := run.nextAttemptAt.getD run.createdAt

/-- The status `IN` test of a lane filter; no filter admits every lane, a run without a lane is in
    no filter. -/
def inLanes : Option (List String) → Bool
  | none => true
  | some lanes => match run.laneKey with
    | none => false
    | some lane => lane ∈ lanes

/-! ## The updates the stores make -/

variable (now : Instant)

/-- A storage write stamps `updated_at`. -/
def stamped : RunRecord := { run with updatedAt := now }

/-- The claim: `RUNNING` under a fresh lease, one more attempt. -/
def claimedBy (ownerId : String) (leaseUntil now : Instant) : RunRecord :=
  { run with
    status := .running, ownerId := some ownerId, leaseExpiresAt := some leaseUntil,
    heartbeatAt := some now, attempt := run.attempt + 1, updatedAt := now }

def renewed (leaseUntil now : Instant) : RunRecord :=
  { run with leaseExpiresAt := some leaseUntil, heartbeatAt := some now, updatedAt := now }

def requeued : RunRecord :=
  { run with
    status := .queued, ownerId := none, leaseExpiresAt := none, nextAttemptAt := some now,
    updatedAt := now }

def redriven : RunRecord :=
  { run with
    status := .queued, attempt := 0, ownerId := none, leaseExpiresAt := none, lastError := none,
    error := none, nextAttemptAt := some now, updatedAt := now }

def resolving : RunRecord :=
  { run with status := .resolving, updatedAt := now }

/-- The reaper's predicate: a running lease that is past its deadline, in one of the lanes. -/
def leaseExpired (lanes : Option (List String)) : Bool :=
  run.status = .running && run.leaseExpiresAt.any (· ≤ now) && run.inLanes lanes

theorem runId_requeuedIf (lanes : Option (List String)) (run : RunRecord) :
    (if run.leaseExpired now lanes then run.requeued now else run).runId = run.runId := by
  split <;> rfl

def redrivable (run : RunRecord) (workspaceId : Option String) : Bool :=
  workspaceId.all (· = run.workspaceId) && (run.status = .parked || run.status = .failed)

end RunRecord

/-- The records of a run store under their run ids, in insertion order. -/
abbrev RunTable := KeyedList RunRecord.runId

end Himmy
