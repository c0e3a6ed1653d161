import Himmy.Library.Transition
import Himmy.Storage.SqliteRecords

/-! # Run stores as machines over calls

The calls a run store serves and the answers it gives, and each of the two stores as a machine over
them. A label is a call together with the instant the store's clock shows when it runs.

`LeasedQueue` is what the two stores have in common on the calls of the leased work queue: a table
of records on which each call acts as specified. Results about every run store are proved for a
`LeasedQueue`; `inMemoryQueue` and `sqliteQueue` are its two instances. -/

namespace Himmy

/-- A call on a run store. -/
inductive StoreCall
  | saveRun (run : RunRecord)
  | saveRunIfOwner (run : RunRecord) (ownerId : String)
  | saveRunIfAbsentByIdempotency (run : RunRecord)
  | saveRunIfUnderQuota (run : RunRecord) (cap : Int)
  | claimNextQueuedRun (ownerId : String) (lease : Duration) (lanes : Option (List String))
      (fairness : Bool) (workspaceConcurrency : Int)
  | renewLease (runId ownerId : String) (lease : Duration)
  | requeueExpiredLeases (lanes : Option (List String))
  | redriveRun (runId : String) (workspaceId : Option String)
  | claimRunForResume (runId workspaceId : String)
  | pruneRuns (olderThan : Option Duration) (keepLast : Option Int)

/-- What a call returns, up to the record of a create (its run id stands for it). -/
inductive StoreAnswer
  | saved
  | flag (b : Bool)
  | created (runId : String) (b : Bool)
  | claimed (run : Option RunRecord)
  | requeued (runIds : List String)
  | pruned (count : Option Nat)
  | integrityError

abbrev TimedCall := Instant × StoreCall

def InMemoryRunStore.serve (s : InMemoryRunStore) : TimedCall → InMemoryRunStore × StoreAnswer
  | (now, .saveRun run) => (s.saveRun run now, .saved)
  | (now, .saveRunIfOwner run ownerId) =>
    let (s', b) := s.saveRunIfOwner run ownerId now
    (s', .flag b)
  | (now, .saveRunIfAbsentByIdempotency run) =>
    let (s', stored, b) := s.saveRunIfAbsentByIdempotency run now
    (s', .created stored.runId b)
  | (now, .saveRunIfUnderQuota run cap) =>
    let (s', stored, b) := s.saveRunIfUnderQuota run cap now
    (s', .created stored.runId b)
  | (now, .claimNextQueuedRun ownerId lease lanes fairness workspaceConcurrency) =>
    let (s', run) := s.claimNextQueuedRun ownerId lease lanes now fairness workspaceConcurrency
    (s', .claimed run)
  | (now, .renewLease runId ownerId lease) =>
    let (s', b) := s.renewLease runId ownerId lease now
    (s', .flag b)
  | (now, .requeueExpiredLeases lanes) =>
    let (s', runIds) := s.requeueExpiredLeases now lanes
    (s', .requeued runIds)
  | (now, .redriveRun runId workspaceId) =>
    let (s', b) := s.redriveRun runId workspaceId now
    (s', .flag b)
  | (now, .claimRunForResume runId workspaceId) =>
    let (s', b) := s.claimRunForResume runId workspaceId now
    (s', .flag b)
  | (now, .pruneRuns olderThan keepLast) =>
    let (s', count) := s.pruneRuns olderThan keepLast now
    (s', .pruned count)

def SqliteRunStore.serve (s : SqliteRunStore) : TimedCall → SqliteRunStore × StoreAnswer
  | (now, .saveRun run) =>
    match s.saveRun run now with
    | some s' => (s', .saved)
    | none => (s, .integrityError)
  | (now, .saveRunIfOwner run ownerId) =>
    match s.saveRunIfOwner run ownerId now with
    | some (s', b) => (s', .flag b)
    | none => (s, .integrityError)
  | (now, .saveRunIfAbsentByIdempotency run) =>
    match s.saveRunIfAbsentByIdempotency run now with
    | some (s', stored, b) => (s', .created stored.runId b)
    | none => (s, .integrityError)
  | (now, .saveRunIfUnderQuota run cap) =>
    match s.saveRunIfUnderQuota run cap now with
    | some (s', stored, b) => (s', .created stored.runId b)
    | none => (s, .integrityError)
  | (now, .claimNextQueuedRun ownerId lease lanes fairness workspaceConcurrency) =>
    let (s', run) := s.claimNextQueuedRun ownerId lease lanes now fairness workspaceConcurrency
    (s', .claimed run)
  | (now, .renewLease runId ownerId lease) =>
    let (s', b) := s.renewLease runId ownerId lease now
    (s', .flag b)
  | (now, .requeueExpiredLeases lanes) =>
    let (s', runIds) := s.requeueExpiredLeases now lanes
    (s', .requeued runIds)
  | (now, .redriveRun runId workspaceId) =>
    let (s', b) := s.redriveRun runId workspaceId now
    (s', .flag b)
  | (now, .claimRunForResume runId workspaceId) =>
    let (s', b) := s.claimRunForResume runId workspaceId now
    (s', .flag b)
  | (now, .pruneRuns olderThan keepLast) =>
    let (s', count) := s.pruneRuns olderThan keepLast now
    (s', .pruned count)

def inMemoryMachine : Machine InMemoryRunStore TimedCall StoreAnswer := ⟨InMemoryRunStore.serve⟩

def sqliteMachine : Machine SqliteRunStore TimedCall StoreAnswer := ⟨SqliteRunStore.serve⟩

/-! ## The leased work queue -/

/-- A machine over calls that acts on a table of records as the leased work queue should. -/
structure LeasedQueue (σ : Type) extends Machine σ TimedCall StoreAnswer where
  empty : σ
  records : σ → RunTable
  records_empty : records empty = KeyedList.empty
  /-- An idempotent create stores the record or creates nothing. -/
  absent : ∀ s now run,
    (records (step s (now, .saveRunIfAbsentByIdempotency run)).1 = records s
      ∧ ∀ runId, (step s (now, .saveRunIfAbsentByIdempotency run)).2 ≠ .created runId true)
    ∨ (records (step s (now, .saveRunIfAbsentByIdempotency run)).1
          = (records s).put (run.stamped now)
      ∧ (step s (now, .saveRunIfAbsentByIdempotency run)).2 = .created run.runId true)
  /-- A claim takes one stored `QUEUED` record of the lanes, or nothing. -/
  claim : ∀ s now ownerId lease lanes fairness workspaceConcurrency,
    (records (step s
        (now, .claimNextQueuedRun ownerId lease lanes fairness workspaceConcurrency)).1 = records s
      ∧ (step s (now, .claimNextQueuedRun ownerId lease lanes fairness workspaceConcurrency)).2
        = .claimed none)
    ∨ ∃ run, (records s).get? run.runId = some run ∧ run.status = .queued
      ∧ (step s (now, .claimNextQueuedRun ownerId lease lanes fairness workspaceConcurrency)).2
        = .claimed (some (run.claimedBy ownerId (isoPlusSeconds now lease) now))
      ∧ records (step s
          (now, .claimNextQueuedRun ownerId lease lanes fairness workspaceConcurrency)).1
        = (records s).put (run.claimedBy ownerId (isoPlusSeconds now lease) now)
  /-- A renewal is a guarded edit of one record. -/
  renew : ∀ s now runId ownerId lease,
    Prod.map records id (step s (now, .renewLease runId ownerId lease))
      = Prod.map id .flag ((records s).updateIf runId (·.leasedTo ownerId)
        (·.renewed (isoPlusSeconds now lease) now))
  /-- The reaper resets the expired leases of the lanes and reports their run ids. -/
  requeue : ∀ s now lanes, lanes ≠ some [] →
    records (step s (now, .requeueExpiredLeases lanes)).1 = (records s).requeueExpired now lanes
      ∧ (step s (now, .requeueExpiredLeases lanes)).2
        = .requeued (((records s).items.filter (·.leaseExpired now lanes)).map RunRecord.runId)
  requeue_no_lane : ∀ s now,
    records (step s (now, .requeueExpiredLeases (some []))).1 = records s
      ∧ (step s (now, .requeueExpiredLeases (some []))).2 = .requeued []
  /-- A redrive is a guarded edit of one record. -/
  redrive : ∀ s now runId workspaceId,
    Prod.map records id (step s (now, .redriveRun runId workspaceId))
      = Prod.map id .flag ((records s).updateIf runId (·.redrivable workspaceId) (·.redriven now))
  /-- A resume claim is a guarded edit of one record. -/
  resume : ∀ s now runId workspaceId,
    Prod.map records id (step s (now, .claimRunForResume runId workspaceId))
      = Prod.map id .flag ((records s).updateIf runId (·.resumable workspaceId) (·.resolving now))

/-! ## The in-memory store is a leased queue -/

namespace InMemoryRunStore

variable (s : InMemoryRunStore)

theorem runs_indexIdempotency (run : RunRecord) : (s.indexIdempotency run).runs = s.runs := by
  unfold indexIdempotency
  split
  · rfl
  · split <;> rfl

theorem runs_insert (run : RunRecord) (now : Instant) :
    (s.insert run now).runs = s.runs.put (run.stamped now) := by
  simp only [insert, runs_indexIdempotency]

theorem claimTarget_ready {s : InMemoryRunStore} {lanes : Option (List String)} {now : Instant}
    {fairness : Bool} {workspaceConcurrency : Int} {run : RunRecord}
    (h : s.claimTarget lanes now fairness workspaceConcurrency = some run) :
    run ∈ s.runs.items ∧ isReady now lanes run = true := by
  unfold claimTarget at h
  cases fairness with
  | true =>
    simp only [if_true] at h
    have hmem := List.argmin_mem h
    split at hmem
    · exact List.mem_filter.1 (List.mem_of_mem_filter hmem)
    · exact List.mem_filter.1 hmem
  | false => exact List.mem_filter.1 (List.argmin_mem h)

theorem renewLease_runs (runId ownerId : String) (lease : Duration) (now : Instant) :
    ((s.renewLease runId ownerId lease now).1.runs, (s.renewLease runId ownerId lease now).2)
      = s.runs.updateIf runId (·.leasedTo ownerId) (·.renewed (isoPlusSeconds now lease) now) := by
  unfold renewLease KeyedList.updateIf
  cases s.runs.get? runId with
  | none => rfl
  | some run =>
    by_cases h : run.ownerId = some ownerId ∧ run.status = .running
    · simp [RunRecord.leasedTo, h.1, h.2]
    · have h' : run.ownerId ≠ some ownerId ∨ run.status ≠ .running := by
        rw [← not_and_or]; exact h
      simp [RunRecord.leasedTo, h, h']

theorem redriveRun_runs (runId : String) (workspaceId : Option String) (now : Instant) :
    ((s.redriveRun runId workspaceId now).1.runs, (s.redriveRun runId workspaceId now).2)
      = s.runs.updateIf runId (·.redrivable workspaceId) (·.redriven now) := by
  unfold redriveRun KeyedList.updateIf
  cases s.runs.get? runId with
  | none => rfl
  | some run => by_cases h : run.redrivable workspaceId = true <;> simp [h]

theorem claimRunForResume_runs (runId workspaceId : String) (now : Instant) :
    ((s.claimRunForResume runId workspaceId now).1.runs,
      (s.claimRunForResume runId workspaceId now).2)
      = s.runs.updateIf runId (·.resumable workspaceId) (·.resolving now) := by
  unfold claimRunForResume KeyedList.updateIf
  cases s.runs.get? runId with
  | none => rfl
  | some run =>
    by_cases h : run.workspaceId = workspaceId ∧ run.status = .awaitingApproval
    · simp [RunRecord.resumable, h.1, h.2]
    · have h' : run.workspaceId ≠ workspaceId ∨ run.status ≠ .awaitingApproval := by
        rw [← not_and_or]; exact h
      simp [RunRecord.resumable, h, h']

end InMemoryRunStore

def inMemoryQueue : LeasedQueue InMemoryRunStore where
  toMachine := inMemoryMachine
  empty := InMemoryRunStore.empty
  records := InMemoryRunStore.runs
  records_empty := rfl
  absent s now run := by
    simp only [inMemoryMachine, InMemoryRunStore.serve,
      InMemoryRunStore.saveRunIfAbsentByIdempotency]
    split
    · exact Or.inl ⟨rfl, fun runId h => by simp at h⟩
    · exact Or.inr ⟨s.runs_insert run now, rfl⟩
  claim s now ownerId lease lanes fairness workspaceConcurrency := by
    simp only [inMemoryMachine, InMemoryRunStore.serve, InMemoryRunStore.claimNextQueuedRun]
    split
    · exact Or.inl ⟨rfl, rfl⟩
    · split
      · exact Or.inl ⟨rfl, rfl⟩
      · next run h =>
          obtain ⟨hmem, hready⟩ := InMemoryRunStore.claimTarget_ready h
          simp only [InMemoryRunStore.isReady, Bool.and_eq_true, decide_eq_true_eq] at hready
          exact Or.inr ⟨run, s.runs.get?_of_mem hmem, hready.1.1, rfl, rfl⟩
  renew s now runId ownerId lease :=
    congrArg (Prod.map id StoreAnswer.flag) (s.renewLease_runs runId ownerId lease now)
  requeue s now lanes hlanes := by
    simp only [inMemoryMachine, InMemoryRunStore.serve, InMemoryRunStore.requeueExpiredLeases,
      if_neg hlanes]
    exact ⟨rfl, trivial⟩
  requeue_no_lane s now := by
    simp [inMemoryMachine, InMemoryRunStore.serve, InMemoryRunStore.requeueExpiredLeases]
  redrive s now runId workspaceId :=
    congrArg (Prod.map id StoreAnswer.flag) (s.redriveRun_runs runId workspaceId now)
  resume s now runId workspaceId :=
    congrArg (Prod.map id StoreAnswer.flag) (s.claimRunForResume_runs runId workspaceId now)

/-! ## The SQLite store is a leased queue -/

def sqliteQueue : LeasedQueue SqliteRunStore where
  toMachine := sqliteMachine
  empty := SqliteRunStore.empty
  records := SqliteRunStore.records
  records_empty := rfl
  absent s now run := by
    simp only [sqliteMachine, SqliteRunStore.serve]
    rcases s.saveRunIfAbsentByIdempotency_cases run now with ⟨existing, h⟩ | h | ⟨s', h, hrec⟩
    · rw [h]; exact Or.inl ⟨rfl, fun runId h => by simp at h⟩
    · rw [h]; exact Or.inl ⟨rfl, fun runId h => by simp at h⟩
    · rw [h]; exact Or.inr ⟨hrec, rfl⟩
  claim s now ownerId lease lanes fairness workspaceConcurrency := by
    simp only [sqliteMachine, SqliteRunStore.serve]
    rcases s.claimNextQueuedRun_cases ownerId lease lanes now fairness workspaceConcurrency with
      h | ⟨run, hget, hready, hans, hrec⟩
    · rw [h]; exact Or.inl ⟨rfl, rfl⟩
    · simp only [RunRecord.claimable, Bool.and_eq_true, decide_eq_true_eq] at hready
      exact Or.inr ⟨run, hget, hready.1.1, by rw [hans], hrec⟩
  renew s now runId ownerId lease :=
    congrArg (Prod.map id StoreAnswer.flag) (s.renewLease_records runId ownerId lease now)
  requeue s now lanes hlanes := by
    simp only [sqliteMachine, SqliteRunStore.serve]
    exact ⟨s.requeueExpiredLeases_records now lanes,
      by rw [s.requeueExpiredLeases_ids now lanes]⟩
  requeue_no_lane s now := by
    simp [sqliteMachine, SqliteRunStore.serve, SqliteRunStore.requeueExpiredLeases_no_lane]
  redrive s now runId workspaceId :=
    congrArg (Prod.map id StoreAnswer.flag) (s.redriveRun_records runId workspaceId now)
  resume s now runId workspaceId :=
    congrArg (Prod.map id StoreAnswer.flag) (s.claimRunForResume_records runId workspaceId now)

end Himmy
