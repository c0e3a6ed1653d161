import Himmy.Storage.Models
import Mathlib.Data.List.MinMax
import Mathlib.Data.List.Sort
import Mathlib.Data.Prod.Lex

/-! # The in-memory run store

`InMemoryRunStore` is a dictionary of run records with an index from `(workspace_id,
idempotency_key)` to a run id. Records are passed by value: a call is given the record as it stands
when the call is made, and what the caller does with its own copy afterwards is not a call on the
store. The clock a method reads (`utc_now_iso()`, or its `now` argument) is the argument `now`. -/

namespace Himmy

/-- Process-local run records with an idempotency index. -/
structure InMemoryRunStore where
  runs : RunTable
  runsByIdempotency : KeyedList (Prod.fst : (String × String) × String → String × String)

/-! ## Retention -/

/-- `xs[:n]` with Python's reading of a negative bound. -/
def pySlicePrefix {α : Type} (xs : List α) (n : Int) : List α :=
  if 0 ≤ n then xs.take n.toNat else xs.take (xs.length + n).toNat

theorem pySlicePrefix_map {α β : Type} (g : α → β) (xs : List α) (n : Int) :
    pySlicePrefix (xs.map g) n = (pySlicePrefix xs n).map g := by
  unfold pySlicePrefix
  split <;> simp [List.map_take]

/-- `_prune_victims_by_created_at`: the keys that fail either retention bound. The sort is stable. -/
def pruneVictimsByCreatedAt (items : List (String × Instant)) (olderThan : Option Duration)
    (keepLast : Option Int) (now : Instant) : List String :=
  let tooOld := match olderThan with
    | none => []
    | some days => (items.filter (fun kv => kv.2 < now - days)).map Prod.fst
  let surplus := match keepLast with
    | none => []
    | some n =>
      let keep := max n 0
      let ordered := items.insertionSort (fun a b => a.2 ≤ b.2)
      (if keep = 0 then ordered else pySlicePrefix ordered (ordered.length - keep)).map Prod.fst
  tooOld ++ surplus

namespace InMemoryRunStore

def empty : InMemoryRunStore := ⟨KeyedList.empty, KeyedList.empty⟩

variable (s : InMemoryRunStore)

def getRun (runId : String) : Option RunRecord := s.runs.get? runId

def loadRunByIdempotency (workspaceId idempotencyKey : String) : Option RunRecord :=
  (s.runsByIdempotency.get? (workspaceId, idempotencyKey)).bind (fun e => s.runs.get? e.2)

def countActiveRunsForWorkspace (workspaceId : String) : Nat :=
  s.runs.items.countP (fun r => r.workspaceId = workspaceId && r.isActive)

variable (run : RunRecord)

/-- `_index_idempotency`: `setdefault` on the index. -/
def indexIdempotency : InMemoryRunStore :=
  match run.idempotencyKey with
  | none => s
  | some key =>
    match s.runsByIdempotency.get? (run.workspaceId, key) with
    | some _ => s
    | none =>
      { s with
        runsByIdempotency := s.runsByIdempotency.put ((run.workspaceId, key), run.runId) }

variable (now : Instant)

def insert : InMemoryRunStore :=
  let s := s.indexIdempotency run
  { s with runs := s.runs.put (run.stamped now) }

/-- The stored run that already holds the key of `run`. -/
def existingByIdempotency : Option RunRecord :=
  run.idempotencyKey.bind (fun key => s.loadRunByIdempotency run.workspaceId key)

def saveRun : InMemoryRunStore :=
  s.insert run now

def saveRunIfAbsentByIdempotency : InMemoryRunStore × RunRecord × Bool :=
  match s.existingByIdempotency run with
  | some existing => (s, existing, false)
  | none => (s.insert run now, run.stamped now, true)

def saveRunIfUnderQuota (cap : Int) (now : Instant) : InMemoryRunStore × RunRecord × Bool :=
  match s.existingByIdempotency run with
  | some existing => (s, existing, true)
  | none =>
    if 0 < cap ∧ cap ≤ s.countActiveRunsForWorkspace run.workspaceId then (s, run, false)
    else (s.insert run now, run.stamped now, true)

def saveRunIfOwner (ownerId : String) (now : Instant) : InMemoryRunStore × Bool :=
  match s.runs.get? run.runId with
  | none => (s, false)
  | some existing =>
    if existing.ownerId ≠ some ownerId then (s, false) else (s.insert run now, true)

def claimRunForResume (runId workspaceId : String) (now : Instant) : InMemoryRunStore × Bool :=
  match s.runs.get? runId with
  | none => (s, false)
  | some run =>
    if run.workspaceId ≠ workspaceId ∨ run.status ≠ .awaitingApproval then (s, false)
    else ({ s with runs := s.runs.put (run.resolving now) }, true)

/-! ## The leased work queue -/

def liveLeased (workspaceId : String) (r : RunRecord) : Bool :=
  r.workspaceId = workspaceId && r.status = .running && r.leaseExpiresAt.all (now < ·)

/-- The live-leased `RUNNING` load of a workspace. -/
def load (s : InMemoryRunStore) (now : Instant) (workspaceId : String) : Nat :=
  s.runs.items.countP (liveLeased now workspaceId)

/-- A `QUEUED` run whose backoff is over, in one of the lanes. -/
def isReady (lanes : Option (List String)) (r : RunRecord) : Bool :=
  r.status = .queued && r.nextAttemptAt.all (· ≤ now) && r.inLanes lanes

variable (s : InMemoryRunStore)

def claimTarget (lanes : Option (List String)) (now : Instant)
    (fairness : Bool) (workspaceConcurrency : Int) : Option RunRecord :=
  let ready := s.runs.items.filter (isReady now lanes)
  if fairness then
    let ready :=
      if 0 < workspaceConcurrency then
        ready.filter (fun r => (s.load now r.workspaceId : Int) < workspaceConcurrency)
      else ready
    ready.argmin (fun r => toLex (s.load now r.workspaceId, toLex (r.dueAt, r.createdAt)))
  else ready.argmin (fun r => toLex (r.dueAt, r.createdAt))

def claimNextQueuedRun (ownerId : String) (lease : Duration)
    (lanes : Option (List String)) (now : Instant) (fairness : Bool) (workspaceConcurrency : Int) :
    InMemoryRunStore × Option RunRecord :=
  if lanes = some [] then (s, none)
  else match s.claimTarget lanes now fairness workspaceConcurrency with
    | none => (s, none)
    | some run =>
      let claimed := run.claimedBy ownerId (isoPlusSeconds now lease) now
      ({ s with runs := s.runs.put claimed }, some claimed)

def renewLease (runId ownerId : String) (lease : Duration) (now : Instant) :
    InMemoryRunStore × Bool :=
  match s.runs.get? runId with
  | none => (s, false)
  | some run =>
    if run.ownerId ≠ some ownerId ∨ run.status ≠ .running then (s, false)
    else ({ s with runs := s.runs.put (run.renewed (isoPlusSeconds now lease) now) }, true)

def requeueExpiredLeases (now : Instant) (lanes : Option (List String)) :
    InMemoryRunStore × List String :=
  if lanes = some [] then (s, [])
  else
    ({ s with
        runs := s.runs.modify (fun r => if r.leaseExpired now lanes then r.requeued now else r)
          (RunRecord.runId_requeuedIf now lanes) },
      (s.runs.items.filter (·.leaseExpired now lanes)).map RunRecord.runId)

def redriveRun (runId : String) (workspaceId : Option String)
    (now : Instant) : InMemoryRunStore × Bool :=
  match s.runs.get? runId with
  | none => (s, false)
  | some run =>
    if run.redrivable workspaceId then ({ s with runs := s.runs.put (run.redriven now) }, true)
    else (s, false)

/-- `prune_runs`; `none` when no bound is given (the `ValueError`). -/
def pruneRuns (olderThan : Option Duration) (keepLast : Option Int)
    (now : Instant) : InMemoryRunStore × Option Nat :=
  if olderThan = none ∧ keepLast = none then (s, none)
  else
    let candidates := (s.runs.items.filter (fun r => !r.isActive)).map
      (fun r => (r.runId, r.createdAt))
    let doomed := pruneVictimsByCreatedAt candidates olderThan keepLast now
    let popped := s.runs.items.filter (fun r => r.runId ∈ doomed)
    ({ runs := s.runs.filter (fun r => r.runId ∉ doomed)
       runsByIdempotency := s.runsByIdempotency.filter
        (fun e => !popped.any (fun r => r.workspaceId = e.1.1 && r.idempotencyKey = some e.1.2)) },
      some doomed.dedup.length)

end InMemoryRunStore

end Himmy
