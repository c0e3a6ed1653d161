import Himmy.Application.Fleet
import Himmy.Storage.Calls

/-! # Admission of a run

`create_run`, `continue_thread` and `create_orchestration_run` store a `QUEUED` record and launch a
background task for it, or leave it to the dispatcher. With dispatch and a cap, one store operation
counts the active runs of the workspace and inserts the record. Without dispatch the record is
inserted first and the slot of the workspace is taken from a counter afterwards; when none is left
the record is marked `FAILED`. Run ids are fresh (`uuid4`). -/

namespace Himmy

/-- The create that was called. -/
inductive CreateKind
  | run
  | continuation
  | orchestration
deriving DecidableEq

/-- The mode of the service and its cap. -/
structure EnqueueConfig where
  dispatchEnabled : Bool
  maxOutstanding : Int := 0
  defaultMaxAttempts : Int := 1

/-- The run store, the slots taken in this process, and the runs whose task was launched. -/
structure RunAdmission where
  store : InMemoryRunStore := InMemoryRunStore.empty
  outstanding : String → Nat := fun _ => 0
  tasks : List String := []

namespace EnqueueConfig

variable (cfg : EnqueueConfig)

/-- The create counts and inserts in one store operation. -/
def Atomic (workspaceId : String) : Prop :=
  cfg.dispatchEnabled = true ∧ 0 < cfg.maxOutstanding ∧ workspaceId ≠ localWorkspace

instance (workspaceId : String) : Decidable (cfg.Atomic workspaceId) :=
  inferInstanceAs (Decidable (_ ∧ _ ∧ _))

/-- The record of a create; the fields of the queue are stamped in dispatch mode only. -/
def record (q : RunRequest) (now : Instant) : RunRecord :=
  if cfg.dispatchEnabled then q.record { defaultMaxAttempts := cfg.defaultMaxAttempts } now
  else { q.record {} now with laneKey := none, inputBlob := none }

def admitRun (outstanding : String → Nat) (workspaceId : String) : Option (String → Nat) :=
  if cfg.maxOutstanding ≤ 0 then some outstanding
  else if cfg.maxOutstanding ≤ outstanding workspaceId then none
  else some (Function.update outstanding workspaceId (outstanding workspaceId + 1))

def release (outstanding : String → Nat) (workspaceId : String) : String → Nat :=
  if cfg.maxOutstanding ≤ 0 then outstanding
  else Function.update outstanding workspaceId (outstanding workspaceId - 1)

end EnqueueConfig

def RunRecord.rejected (run : RunRecord) (now : Instant) : RunRecord :=
  { run with
    status := .failed, error := some "rejected: workspace run-concurrency quota exceeded"
    updatedAt := now }

namespace RunAdmission

variable (cfg : EnqueueConfig) (st : RunAdmission)

def reject (stored : RunRecord) (now : Instant) : RunAdmission × CreateAnswer :=
  ({ st with store := st.store.saveRun (stored.rejected now) now }, .quotaExceeded)

/-- `_admit_workspace_run_durable`; the count includes the stored record. -/
def admitWorkspaceRunDurable (stored : RunRecord) (now : Instant) : RunAdmission × CreateAnswer :=
  if cfg.maxOutstanding ≤ 0 ∨ stored.workspaceId = localWorkspace then (st, .stored stored)
  else if cfg.maxOutstanding < st.store.countActiveRunsForWorkspace stored.workspaceId then
    st.reject stored now
  else (st, .stored stored)

/-- `_launch_or_enqueue`, and the end of `create_orchestration_run`, which counts nothing in
    dispatch mode. -/
def launchOrEnqueue (kind : CreateKind) (stored : RunRecord) (quotaAlreadyAdmitted : Bool)
    (now : Instant) : RunAdmission × CreateAnswer :=
  if cfg.dispatchEnabled then
    if quotaAlreadyAdmitted ∨ kind = .orchestration then (st, .stored stored)
    else st.admitWorkspaceRunDurable cfg stored now
  else match cfg.admitRun st.outstanding stored.workspaceId with
    | none => st.reject stored now
    | some outstanding =>
      ({ st with outstanding, tasks := stored.runId :: st.tasks }, .stored stored)

def create (kind : CreateKind) (q : RunRequest) (now : Instant) : RunAdmission × CreateAnswer :=
  let run := cfg.record q now
  if cfg.Atomic run.workspaceId then
    let (store, stored, admitted) := st.store.saveRunIfUnderQuota run cfg.maxOutstanding now
    if admitted = false then ({ st with store }, .quotaExceeded)
    else if stored.runId ≠ run.runId then ({ st with store }, .stored stored)
    else launchOrEnqueue cfg { st with store } kind stored true now
  else
    let (store, stored, created) := st.store.saveRunIfAbsentByIdempotency run now
    if created = false then ({ st with store }, .stored stored)
    else launchOrEnqueue cfg { st with store } kind stored false now

variable (q : RunRequest) (now : Instant)

def createRun : RunAdmission × CreateAnswer :=
  st.create cfg .run q now

/-- `continue_thread`; the thread id of the request is the conversation id. -/
def continueThread : RunAdmission × CreateAnswer :=
  st.create cfg .continuation q now

def createOrchestrationRun : RunAdmission × CreateAnswer :=
  st.create cfg .orchestration q now

/-- The end of a run: its terminal write, and the release of its slot in inline mode. -/
def complete (runId : String) (failed : Bool) (now : Instant) : RunAdmission :=
  match st.store.getRun runId with
  | none => st
  | some run =>
    if run.isActive then
      { st with
        store := st.store.saveRun { run with status := if failed then .failed else .succeeded } now
        outstanding := if cfg.dispatchEnabled then st.outstanding
          else cfg.release st.outstanding run.workspaceId }
    else st

end RunAdmission

end Himmy
