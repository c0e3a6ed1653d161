import Himmy.Storage.InMemory
import Mathlib.Order.WithBot

/-! # The SQLite run store

The `runs` table: a row holds the whole record as its JSON `payload` and repeats the fields the
queries select on in columns of their own. `get_run` reads the payload, the `WHERE` and `ORDER BY`
clauses read the columns, and every `UPDATE` writes both (`json_set` on the payload), so a store
carries the fact that the two are in step (`RunRow.InStep`) and that the partial unique index on
`(workspace_id, idempotency_key)` is respected.

The table is listed in rowid order: an insert takes the next rowid, an upsert of a stored `run_id`
keeps the row where it is. A `TEXT` column compared with `<=` is compared as the instant it holds
(`Himmy.Core.Ids`); `NULL` fails every comparison and comes first in an ascending order. The
at-rest cipher is a codec of the payload's `input_blob`, undone on every read, and is left out: the
rows are those of a store without one. -/

namespace Himmy

/-- A row of `runs`. -/
structure RunRow where
  runId : String
  workspaceId : String
  subjectId : String
  idempotencyKey : Option String
  status : RunStatus
  payload : RunRecord
  createdAt : Instant
  updatedAt : Instant
  ownerId : Option String
  leaseExpiresAt : Option Instant
  heartbeatAt : Option Instant
  attempt : Int
  maxAttempts : Int
  nextAttemptAt : Option Instant
  lastError : Option String
  laneKey : Option String

namespace RunRow

/-- The columns repeat the payload; `next_attempt_at` falls back to `created_at`. -/
structure InStep (row : RunRow) : Prop where
  runId : row.runId = row.payload.runId
  workspaceId : row.workspaceId = row.payload.workspaceId
  idempotencyKey : row.idempotencyKey = row.payload.idempotencyKey
  status : row.status = row.payload.status
  ownerId : row.ownerId = row.payload.ownerId
  leaseExpiresAt : row.leaseExpiresAt = row.payload.leaseExpiresAt
  attempt : row.attempt = row.payload.attempt
  nextAttemptAt : row.nextAttemptAt = some row.payload.dueAt
  laneKey : row.laneKey = row.payload.laneKey

/-- The `next_attempt_at` column in its ascending order: `NULL` first. -/
def dueColumn (row : RunRow) : WithBot Instant := row.nextAttemptAt

/-- The lane clause ` AND lane_key IN (…)`. -/
def inLanes (row : RunRow) : Option (List String) → Bool
  | none => true
  | some lanes => match row.laneKey with
    | none => false
    | some lane => lane ∈ lanes

end RunRow

/-- `_run_upsert`: the row inserted for a record. -/
def runUpsert (run : RunRecord) : RunRow :=
  { runId := run.runId, workspaceId := run.workspaceId, subjectId := run.subjectId,
    idempotencyKey := run.idempotencyKey, status := run.status, payload := run,
    createdAt := run.createdAt, updatedAt := run.updatedAt, ownerId := run.ownerId,
    leaseExpiresAt := run.leaseExpiresAt, heartbeatAt := run.heartbeatAt, attempt := run.attempt,
    maxAttempts := run.maxAttempts, nextAttemptAt := some (run.nextAttemptAt.getD run.createdAt),
    lastError := run.lastError, laneKey := run.laneKey }

/-- A `SET` clause: it rewrites columns and payload together and leaves the keys of the row. -/
structure RowUpdate where
  set : RunRow → RunRow
  runId_set : ∀ row, (set row).runId = row.runId
  workspaceId_set : ∀ row, (set row).workspaceId = row.workspaceId
  idempotencyKey_set : ∀ row, (set row).idempotencyKey = row.idempotencyKey
  inStep_set : ∀ row, row.InStep → (set row).InStep

/-- The `runs` table. -/
structure SqliteRunStore where
  rows : KeyedList RunRow.runId
  inStep : ∀ row ∈ rows.items, row.InStep
  uniqueKeys : ∀ a ∈ rows.items, ∀ b ∈ rows.items, a.workspaceId = b.workspaceId →
    a.idempotencyKey = b.idempotencyKey → a.idempotencyKey ≠ none → a.runId = b.runId

namespace SqliteRunStore

def empty : SqliteRunStore :=
  ⟨KeyedList.empty, fun _ h => absurd h (by simp), fun _ h => absurd h (by simp)⟩

/-! ## Statements -/

variable (s : SqliteRunStore) (run : RunRecord)

/-- Another row already holds the unique key of `run`. -/
def violatesUnique : Bool :=
  run.idempotencyKey.isSome &&
    s.rows.items.any (fun row => row.runId ≠ run.runId && row.workspaceId = run.workspaceId
      && row.idempotencyKey = run.idempotencyKey)

/-- The row an upsert of `run` leaves: a conflict on `run_id` keeps the `created_at` column. -/
def upsertRow : RunRow :=
  match s.rows.get? run.runId with
  | none => runUpsert run
  | some old => { runUpsert run with createdAt := old.createdAt }

theorem upsertRow_payload : (s.upsertRow run).payload = run := by
  unfold upsertRow; split <;> rfl

theorem upsertRow_runId : (s.upsertRow run).runId = run.runId := by
  unfold upsertRow; split <;> rfl

theorem upsertRow_inStep : (s.upsertRow run).InStep := by
  unfold upsertRow
  split <;> exact ⟨rfl, rfl, rfl, rfl, rfl, rfl, rfl, rfl, rfl⟩

theorem upsertRow_keys : (s.upsertRow run).workspaceId = run.workspaceId
      ∧ (s.upsertRow run).idempotencyKey = run.idempotencyKey := by
  unfold upsertRow; split <;> exact ⟨rfl, rfl⟩

private theorem not_violatesUnique {s : SqliteRunStore} {run : RunRecord}
    (h : s.violatesUnique run = false) {row : RunRow} (hrow : row ∈ s.rows.items)
    (hws : row.workspaceId = run.workspaceId) (hkey : row.idempotencyKey = run.idempotencyKey)
    (hsome : row.idempotencyKey ≠ none) : row.runId = run.runId := by
  by_contra hne
  have hkey' : run.idempotencyKey.isSome = true := by
    rw [← hkey]; exact Option.isSome_iff_ne_none.2 hsome
  have : s.violatesUnique run = true := by
    rw [violatesUnique, hkey', Bool.true_and, List.any_eq_true]
    exact ⟨row, hrow, by simp [hne, hws, hkey]⟩
  simp [h] at this

variable (s : SqliteRunStore)

/-- The upsert statement; `none` is the `IntegrityError` of the unique index. -/
def upsert (run : RunRecord) : Option SqliteRunStore :=
  if h : s.violatesUnique run = true then none
  else some
    { rows := s.rows.put (s.upsertRow run)
      inStep := fun row hrow => by
        rcases (s.rows.mem_put_iff _ _).1 hrow with rfl | ⟨hrow, _⟩
        · exact s.upsertRow_inStep run
        · exact s.inStep row hrow
      uniqueKeys := by
        have h' : s.violatesUnique run = false := by simpa using h
        obtain ⟨hws, hkey⟩ := s.upsertRow_keys run
        intro a ha b hb hab hk hsome
        rcases (s.rows.mem_put_iff _ _).1 ha with rfl | ⟨ha, _⟩ <;>
          rcases (s.rows.mem_put_iff _ _).1 hb with rfl | ⟨hb, _⟩
        · rfl
        · rw [upsertRow_runId]
          exact (not_violatesUnique h' hb (hab.symm.trans hws) (hk.symm.trans hkey)
            (hk ▸ hsome)).symm
        · rw [upsertRow_runId]
          exact not_violatesUnique h' ha (hab.trans hws) (hk.trans hkey) hsome
        · exact s.uniqueKeys a ha b hb hab hk hsome }

/-- `UPDATE runs SET … WHERE …`: the table after it and its `rowcount`. -/
def update (cond : RunRow → Bool) (u : RowUpdate) : SqliteRunStore × Nat :=
  ({ rows := s.rows.modify (fun row => if cond row then u.set row else row)
      (fun row => by split; exacts [u.runId_set row, rfl])
     inStep := fun row hrow => by
      obtain ⟨old, hold, rfl⟩ := List.mem_map.1 hrow
      split
      · exact u.inStep_set old (s.inStep old hold)
      · exact s.inStep old hold
     uniqueKeys := by
      have hset : ∀ row : RunRow,
          (if cond row then u.set row else row).workspaceId = row.workspaceId
            ∧ (if cond row then u.set row else row).idempotencyKey = row.idempotencyKey
            ∧ (if cond row then u.set row else row).runId = row.runId := by
        intro row
        split
        · exact ⟨u.workspaceId_set row, u.idempotencyKey_set row, u.runId_set row⟩
        · exact ⟨rfl, rfl, rfl⟩
      intro a ha b hb hws hkey hsome
      obtain ⟨old, hold, rfl⟩ := List.mem_map.1 ha
      obtain ⟨old', hold', rfl⟩ := List.mem_map.1 hb
      simp only [hset] at hws hkey hsome ⊢
      exact s.uniqueKeys old hold old' hold' hws hkey hsome },
    s.rows.items.countP cond)

def delete (cond : RunRow → Bool) : SqliteRunStore :=
  { rows := s.rows.filter (fun row => !cond row)
    inStep := fun row hrow => s.inStep row (List.mem_of_mem_filter hrow)
    uniqueKeys := fun a ha b hb =>
      s.uniqueKeys a (List.mem_of_mem_filter ha) b (List.mem_of_mem_filter hb) }

/-! ## Reads -/

def getRun (runId : String) : Option RunRecord :=
  (s.rows.get? runId).map RunRow.payload

def keyRow (workspaceId idempotencyKey : String) : Option RunRow :=
  s.rows.items.find?
    (fun row => row.workspaceId = workspaceId && row.idempotencyKey = some idempotencyKey)

def loadRunByIdempotency (workspaceId idempotencyKey : String) : Option RunRecord :=
  (s.keyRow workspaceId idempotencyKey).map RunRow.payload

/-- `list_runs`, `ORDER BY created_at ASC`, ties in rowid order. -/
def listRuns (workspaceId subjectId : Option String) (status : Option RunStatus) : List RunRecord :=
  ((s.rows.items.filter (fun row => workspaceId.all (· = row.workspaceId) &&
    (subjectId.all (· = row.subjectId) && status.all (· = row.status)))).insertionSort
      (fun a b => a.createdAt ≤ b.createdAt)).map RunRow.payload

def countActiveRunsForWorkspace (workspaceId : String) : Nat :=
  s.rows.items.countP (fun row => row.workspaceId = workspaceId && row.status ∈ activeRunStatuses)

/-! ## Writes -/

variable (run : RunRecord) (now : Instant)

def saveRun : Option SqliteRunStore :=
  s.upsert (run.stamped now)

def saveRunIfOwner (ownerId : String) (now : Instant) : Option (SqliteRunStore × Bool) :=
  if s.rows.items.any (fun row => row.runId = run.runId && row.ownerId = some ownerId) then
    (s.upsert (run.stamped now)).map (·, true)
  else some (s, false)

/-- The stored row that already holds the key of `run`. -/
def existingByIdempotency : Option RunRecord :=
  run.idempotencyKey.bind (fun key => s.loadRunByIdempotency run.workspaceId key)

def saveRunIfAbsentByIdempotency : Option (SqliteRunStore × RunRecord × Bool) :=
  match s.existingByIdempotency run with
  | some existing => some (s, existing, false)
  | none => (s.upsert (run.stamped now)).map (·, run.stamped now, true)

/-- `_save_run_if_under_quota_sync`: the locked check, count and insert. -/
def saveRunIfUnderQuotaSync (cap : Int) (now : Instant) :
    Option (SqliteRunStore × RunRecord × Bool) :=
  match s.existingByIdempotency run with
  | some existing => some (s, existing, true)
  | none =>
    if cap ≤ s.countActiveRunsForWorkspace run.workspaceId then some (s, run.stamped now, false)
    else (s.upsert (run.stamped now)).map (·, run.stamped now, true)

/-- `save_run_if_under_quota`: a disabled cap, or an error of the locked create, takes the plain
    idempotent insert. -/
def saveRunIfUnderQuota (cap : Int) (now : Instant) : Option (SqliteRunStore × RunRecord × Bool) :=
  if cap ≤ 0 then s.saveRunIfAbsentByIdempotency run now
  else match s.saveRunIfUnderQuotaSync run cap now with
    | some result => some result
    | none => s.saveRunIfAbsentByIdempotency run now

def setResolving : RowUpdate where
  set row := { row with
    status := .resolving, updatedAt := now,
    payload := { row.payload with status := .resolving, updatedAt := now } }
  runId_set _ := rfl
  workspaceId_set _ := rfl
  idempotencyKey_set _ := rfl
  inStep_set _ h := ⟨h.1, h.2, h.3, rfl, h.5, h.6, h.7, h.8, h.9⟩

variable (s : SqliteRunStore)

def claimRunForResume (runId workspaceId : String) (now : Instant) : SqliteRunStore × Bool :=
  let (s', rowcount) := s.update (fun row => row.runId = runId && row.workspaceId = workspaceId
    && row.status = .awaitingApproval) (setResolving now)
  (s', rowcount = 1)

/-! ## The leased work queue -/

variable (now : Instant) (lanes : Option (List String))

/-- The `WHERE` clause of the claim. -/
def isReady (row : RunRow) : Bool :=
  row.status = .queued && row.nextAttemptAt.all (· ≤ now) && row.inLanes lanes

/-- The joined `load.running` of a workspace. -/
def load (workspaceId : String) : Nat :=
  s.rows.items.countP (fun row => row.status = .running && row.leaseExpiresAt.all (now < ·)
    && row.workspaceId = workspaceId)

/-- `_select_fair_target_locked`. -/
def selectFairTarget (now : Instant) (workspaceConcurrency : Int) : Option RunRow :=
  let candidates := s.rows.items.filter (fun row => isReady now lanes row
    && (workspaceConcurrency ≤ 0 || (s.load now row.workspaceId : Int) < workspaceConcurrency))
  candidates.argmin (fun row => toLex (s.load now row.workspaceId, row.dueColumn))

/-- The claim's `SELECT … ORDER BY next_attempt_at ASC, rowid ASC LIMIT 1`. -/
def selectTarget (now : Instant) : Option RunRow :=
  (s.rows.items.filter (isReady now lanes)).argmin RunRow.dueColumn

/-- The `SET` clause of the claim. -/
def setClaimed (ownerId : String) (leaseUntil now : Instant) (newAttempt : Int) : RowUpdate where
  set row := { row with
    status := .running, ownerId := some ownerId, leaseExpiresAt := some leaseUntil,
    heartbeatAt := some now, attempt := newAttempt, updatedAt := now,
    payload := { row.payload with
      status := .running, ownerId := some ownerId, leaseExpiresAt := some leaseUntil,
      heartbeatAt := some now, attempt := newAttempt, updatedAt := now } }
  runId_set _ := rfl
  workspaceId_set _ := rfl
  idempotencyKey_set _ := rfl
  inStep_set _ h := ⟨h.1, h.2, h.3, rfl, rfl, rfl, rfl, h.8, h.9⟩

def claimNextQueuedRun (ownerId : String) (lease : Duration)
    (lanes : Option (List String)) (now : Instant) (fairness : Bool) (workspaceConcurrency : Int) :
    SqliteRunStore × Option RunRecord :=
  if lanes = some [] then (s, none)
  else
    let target := if fairness then s.selectFairTarget lanes now workspaceConcurrency
      else s.selectTarget lanes now
    match target with
    | none => (s, none)
    | some target =>
      let s' := (s.update (fun row => row.runId = target.runId && row.status = .queued)
        (setClaimed ownerId (isoPlusSeconds now lease) now (target.attempt + 1))).1
      (s', s'.getRun target.runId)

/-- The `SET` clause of the renewal. -/
def setRenewed (leaseUntil now : Instant) : RowUpdate where
  set row := { row with
    leaseExpiresAt := some leaseUntil, heartbeatAt := some now, updatedAt := now,
    payload := { row.payload with
      leaseExpiresAt := some leaseUntil, heartbeatAt := some now, updatedAt := now } }
  runId_set _ := rfl
  workspaceId_set _ := rfl
  idempotencyKey_set _ := rfl
  inStep_set _ h := ⟨h.1, h.2, h.3, h.4, h.5, rfl, h.7, h.8, h.9⟩

def renewLease (runId ownerId : String) (lease : Duration) (now : Instant) :
    SqliteRunStore × Bool :=
  let (s', rowcount) := s.update (fun row => row.runId = runId && row.ownerId = some ownerId
    && row.status = .running) (setRenewed (isoPlusSeconds now lease) now)
  (s', rowcount = 1)

/-- The `WHERE` clause of the reaper. -/
def isExpired (row : RunRow) : Bool :=
  row.status = .running && row.leaseExpiresAt.any (· ≤ now) && row.inLanes lanes

/-- The `SET` clause of the reaper. -/
def setRequeued : RowUpdate where
  set row := { row with
    status := .queued, ownerId := none, leaseExpiresAt := none, nextAttemptAt := some now,
    updatedAt := now,
    payload := { row.payload with
      status := .queued, ownerId := none, leaseExpiresAt := none, nextAttemptAt := some now,
      updatedAt := now } }
  runId_set _ := rfl
  workspaceId_set _ := rfl
  idempotencyKey_set _ := rfl
  inStep_set _ h := ⟨h.1, h.2, h.3, rfl, rfl, rfl, h.7, rfl, h.9⟩

/-- `_requeue_expired_leases_sync`. The `SELECT` has no `ORDER BY`; the ids are listed in rowid
    order, one of the orders it may return. -/
def requeueExpiredLeases : SqliteRunStore × List String :=
  if lanes = some [] then (s, [])
  else
    let runIds := (s.rows.items.filter (isExpired now lanes)).map RunRow.runId
    if runIds = [] then (s, [])
    else ((s.update (isExpired now lanes) (setRequeued now)).1, runIds)

/-- The `SET` clause of the redrive. -/
def setRedriven : RowUpdate where
  set row := { row with
    status := .queued, attempt := 0, ownerId := none, leaseExpiresAt := none, lastError := none,
    nextAttemptAt := some now, updatedAt := now,
    payload := { row.payload with
      status := .queued, attempt := 0, ownerId := none, leaseExpiresAt := none, lastError := none,
      error := none, nextAttemptAt := some now, updatedAt := now } }
  runId_set _ := rfl
  workspaceId_set _ := rfl
  idempotencyKey_set _ := rfl
  inStep_set _ h := ⟨h.1, h.2, h.3, rfl, rfl, rfl, rfl, rfl, h.9⟩

def redriveRun (runId : String) (workspaceId : Option String)
    (now : Instant) : SqliteRunStore × Bool :=
  let (s', rowcount) := s.update (fun row => row.runId = runId
    && workspaceId.all (· = row.workspaceId) && (row.status = .parked || row.status = .failed))
    (setRedriven now)
  (s', rowcount = 1)

/-- The run ids that fail either bound, among the candidates read oldest first. -/
def pruneVictims (rows : List RunRow) (olderThan : Option Duration) (keepLast : Option Int)
    (now : Instant) : List String :=
  let tooOld := match olderThan with
    | none => []
    | some days => (rows.filter (fun row => row.createdAt < now - days)).map RunRow.runId
  let surplus := match keepLast with
    | none => []
    | some n =>
      let keep := max n 0
      (if keep = 0 then rows else pySlicePrefix rows (rows.length - keep)).map RunRow.runId
  tooOld ++ surplus

/-- `prune_runs`; `none` when no bound is given (the `ValueError`). The candidates are read
    `ORDER BY created_at ASC`, ties in rowid order. -/
def pruneRuns (olderThan : Option Duration) (keepLast : Option Int)
    (now : Instant) : SqliteRunStore × Option Nat :=
  if olderThan = none ∧ keepLast = none then (s, none)
  else
    let rows := (s.rows.items.filter (fun row => row.status ∉ activeRunStatuses)).insertionSort
      (fun a b => a.createdAt ≤ b.createdAt)
    let doomed := (pruneVictims rows olderThan keepLast now).dedup
    (s.delete (fun row => row.runId ∈ doomed), some doomed.length)

end SqliteRunStore

end Himmy
