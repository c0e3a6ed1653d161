import Himmy.Application.RunEnqueue
import Himmy.Storage.Equivalence

/-! # Creates refused for quota

A create that counts and inserts in one store operation writes nothing when it is refused. One that
inserts first leaves a `FAILED` record behind, under the idempotency key of the request: a retry
finds the record instead of being admitted. The inline and the dispatch path therefore answer a
sequence of submissions and completions alike exactly when no refused key is submitted again. -/

namespace Himmy

open KeyedList (get?_put_self get?_eq_none_iff items_put_of_some mem_of_get? key_of_get?)
open RunRecord (holdsKey stamped isActive)

/-- A submission, or the end of a run. -/
inductive Submission
  | create (kind : CreateKind) (q : RunRequest) (now : Instant)
  | complete (runId : String) (failed : Bool) (now : Instant)

/-- What a caller may do later: submit, end a run, or read. -/
inductive RunCall
  | submission (a : Submission)
  | getRun (runId : String)
  | loadRunByIdempotency (workspaceId idempotencyKey : String)
  | countActiveRuns (workspaceId : String)

/-- The answer to a call. -/
inductive RunReply
  | created (answer : CreateAnswer)
  | completed
  | run (run : Option RunRecord)
  | count (n : Nat)

def CreateAnswer.runId : CreateAnswer → Option String
  | .stored run => some run.runId
  | _ => none

namespace RunAdmission

variable (cfg : EnqueueConfig)

def call (st : RunAdmission) : RunCall → RunAdmission × RunReply
  | .submission (.create kind q now) => Prod.map id .created (st.create cfg kind q now)
  | .submission (.complete runId failed now) => (st.complete cfg runId failed now, .completed)
  | .getRun runId => (st, .run (st.store.getRun runId))
  | .loadRunByIdempotency workspaceId key => (st, .run (st.store.loadRunByIdempotency workspaceId key))
  | .countActiveRuns workspaceId => (st, .count (st.store.countActiveRunsForWorkspace workspaceId))

def machine : Machine RunAdmission RunCall RunReply := ⟨call cfg⟩

def submit (st : RunAdmission) : Submission → RunAdmission × Option (Option String)
  | .create kind q now => Prod.map id (fun answer => some answer.runId) (st.create cfg kind q now)
  | .complete runId failed now => (st.complete cfg runId failed now, none)

/-- The submissions and completions of a service, with what its callers see. -/
def admissions : Machine RunAdmission Submission (Option (Option String)) := ⟨submit cfg⟩

end RunAdmission

/-! ## One refused create -/

namespace InMemoryRunStore

variable {s : InMemoryRunStore} {run run' : RunRecord}

theorem items_insert_of_fresh (hfresh : s.getRun run.runId = none) (now : Instant) :
    (s.insert run now).runs.items = s.runs.items ++ [run.stamped now] := by
  rw [runs_insert]
  exact KeyedList.items_put_of_none s.runs (run.stamped now) hfresh

theorem items_insert_insert (hfresh : s.getRun run.runId = none) (hid : run'.runId = run.runId)
    (now now' : Instant) :
    ((s.insert run now).insert run' now').runs.items = s.runs.items ++ [run'.stamped now'] := by
  have hget : (s.insert run now).runs.get? (run'.stamped now').runId = some (run.stamped now) := by
    rw [runs_insert, show (run'.stamped now').runId = (run.stamped now).runId from hid]
    exact get?_put_self _ _
  have hother : ∀ r ∈ s.runs.items,
      (if r.runId = (run'.stamped now').runId then run'.stamped now' else r) = r := by
    intro r hr
    refine if_neg ?_
    intro he
    exact (get?_eq_none_iff s.runs run.runId).1 hfresh r hr (he.trans hid)
  rw [runs_insert, items_put_of_some _ _ _ hget, items_insert_of_fresh hfresh,
    List.map_append, List.map_congr_left hother, List.map_id']
  simp only [List.map_cons, List.map_nil]
  rw [if_pos (show (run.stamped now).runId = (run'.stamped now').runId from hid.symm)]

end InMemoryRunStore

namespace RunAdmission

variable {cfg : EnqueueConfig} {st : RunAdmission} {kind : CreateKind} {q : RunRequest}
  {now : Instant}

theorem workspaceId_record : (cfg.record q now).workspaceId = q.workspaceId := by
  unfold EnqueueConfig.record
  split <;> rfl

theorem runId_record : (cfg.record q now).runId = q.runId := by
  unfold EnqueueConfig.record
  split <;> rfl

theorem idempotencyKey_record : (cfg.record q now).idempotencyKey = q.idempotencyKey := by
  unfold EnqueueConfig.record
  split <;> rfl

/-- What a create does, for a fresh run id. -/
inductive Created (cfg : EnqueueConfig) (st : RunAdmission) (q : RunRequest) (now : Instant) :
    RunAdmission → CreateAnswer → Prop
  /-- The key is that of a stored run. -/
  | existing (run : RunRecord) :
      st.store.existingByIdempotency (cfg.record q now) = some run →
      Created cfg st q now st (.stored run)
  /-- Dispatch mode, and the workspace is at the cap. -/
  | refused : cfg.Atomic q.workspaceId →
      st.store.existingByIdempotency (cfg.record q now) = none →
      cfg.maxOutstanding ≤ st.store.countActiveRunsForWorkspace q.workspaceId →
      Created cfg st q now st .quotaExceeded
  /-- Inline mode, and no slot is left. -/
  | rejected : cfg.dispatchEnabled = false →
      st.store.existingByIdempotency (cfg.record q now) = none → 0 < cfg.maxOutstanding →
      cfg.maxOutstanding ≤ st.outstanding q.workspaceId →
      Created cfg st q now
        { st with
          store := (st.store.insert (cfg.record q now) now).insert
            (((cfg.record q now).stamped now).rejected now) now } .quotaExceeded
  | launched : cfg.dispatchEnabled = false →
      st.store.existingByIdempotency (cfg.record q now) = none →
      (0 < cfg.maxOutstanding → (st.outstanding q.workspaceId : Int) < cfg.maxOutstanding) →
      Created cfg st q now
        { store := st.store.insert (cfg.record q now) now
          outstanding := if cfg.maxOutstanding ≤ 0 then st.outstanding
            else Function.update st.outstanding q.workspaceId (st.outstanding q.workspaceId + 1)
          tasks := q.runId :: st.tasks } (.stored ((cfg.record q now).stamped now))
  | enqueued : cfg.dispatchEnabled = true →
      st.store.existingByIdempotency (cfg.record q now) = none →
      (cfg.Atomic q.workspaceId →
        (st.store.countActiveRunsForWorkspace q.workspaceId : Int) < cfg.maxOutstanding) →
      Created cfg st q now { st with store := st.store.insert (cfg.record q now) now }
        (.stored ((cfg.record q now).stamped now))

theorem mem_of_existing {run r : RunRecord}
    (h : st.store.existingByIdempotency run = some r) : r ∈ st.store.runs.items := by
  obtain ⟨key, -, h⟩ := Option.bind_eq_some_iff.1 h
  obtain ⟨e, -, h⟩ := Option.bind_eq_some_iff.1 h
  exact mem_of_get? h

theorem create_cases (cfg : EnqueueConfig) (st : RunAdmission) (kind : CreateKind) (q : RunRequest)
    (now : Instant) (hfresh : st.store.getRun q.runId = none) :
    Created cfg st q now (st.create cfg kind q now).1 (st.create cfg kind q now).2 := by
  unfold create
  simp only [workspaceId_record]
  by_cases hatomic : cfg.Atomic q.workspaceId
  · rw [if_pos hatomic]
    unfold InMemoryRunStore.saveRunIfUnderQuota
    cases hexisting : st.store.existingByIdempotency (cfg.record q now) with
    | some r =>
      have hne : r.runId ≠ (cfg.record q now).runId := by
        intro he
        rw [runId_record] at he
        exact (get?_eq_none_iff _ _).1 hfresh r (mem_of_existing hexisting) he
      simp only [Bool.true_eq_false, if_false, ne_eq, hne, not_false_eq_true, if_true]
      exact .existing r hexisting
    | none =>
      simp only [workspaceId_record]
      by_cases hcap : cfg.maxOutstanding ≤ st.store.countActiveRunsForWorkspace q.workspaceId
      · have hfull : 0 < cfg.maxOutstanding
            ∧ cfg.maxOutstanding ≤ st.store.countActiveRunsForWorkspace q.workspaceId :=
          ⟨hatomic.2.1, hcap⟩
        simp only [if_pos hfull, if_true]
        exact .refused hatomic hexisting hcap
      · have hopen : ¬ (0 < cfg.maxOutstanding
            ∧ cfg.maxOutstanding ≤ st.store.countActiveRunsForWorkspace q.workspaceId) :=
          fun h => hcap h.2
        have hid : ((cfg.record q now).stamped now).runId = (cfg.record q now).runId := rfl
        simp only [if_neg hopen, Bool.true_eq_false, if_false, hid, ne_eq, not_true_eq_false,
          launchOrEnqueue, hatomic.1, if_true, true_or]
        exact .enqueued hatomic.1 hexisting (fun _ => by omega)
  · rw [if_neg hatomic]
    unfold InMemoryRunStore.saveRunIfAbsentByIdempotency
    cases hexisting : st.store.existingByIdempotency (cfg.record q now) with
    | some r => exact .existing r hexisting
    | none =>
      simp only [Bool.true_eq_false, if_false, launchOrEnqueue]
      cases hdispatch : cfg.dispatchEnabled with
      | true =>
        -- Without the atomic operation there is no cap to enforce.
        have hopen : cfg.maxOutstanding ≤ 0
            ∨ ((cfg.record q now).stamped now).workspaceId = localWorkspace := by
          rw [show ((cfg.record q now).stamped now).workspaceId = q.workspaceId from
            workspaceId_record]
          by_contra hno
          rw [not_or] at hno
          exact hatomic ⟨hdispatch, by omega, hno.2⟩
        have hsame : (if kind = .orchestration then
            ({ st with store := st.store.insert (cfg.record q now) now },
              CreateAnswer.stored ((cfg.record q now).stamped now))
            else admitWorkspaceRunDurable cfg
              { st with store := st.store.insert (cfg.record q now) now }
              ((cfg.record q now).stamped now) now)
            = ({ st with store := st.store.insert (cfg.record q now) now },
              .stored ((cfg.record q now).stamped now)) := by
          rw [admitWorkspaceRunDurable, if_pos hopen, ite_self]
        simp only [if_true, Bool.false_eq_true, false_or, hsame]
        exact .enqueued hdispatch hexisting (fun h => absurd h hatomic)
      | false =>
        simp only [Bool.false_eq_true, if_false]
        have hws : ((cfg.record q now).stamped now).workspaceId = q.workspaceId :=
          workspaceId_record
        have hid : ((cfg.record q now).stamped now).runId = q.runId := runId_record
        rw [hws, EnqueueConfig.admitRun]
        by_cases hcap : cfg.maxOutstanding ≤ 0
        · rw [if_pos hcap]
          have h : Created cfg st q now _ _ :=
            .launched hdispatch hexisting (fun h => by omega)
          rw [if_pos hcap] at h
          simp only [hid]
          exact h
        · rw [if_neg hcap]
          by_cases hfull : cfg.maxOutstanding ≤ st.outstanding q.workspaceId
          · rw [if_pos hfull]
            exact .rejected hdispatch hexisting (by omega) hfull
          · rw [if_neg hfull]
            have h : Created cfg st q now _ _ :=
              .launched hdispatch hexisting (fun _ => by omega)
            rw [if_neg hcap] at h
            simp only [hid]
            exact h

theorem countActiveRuns_of_refused (hfresh : st.store.getRun q.runId = none)
    (hrefused : (st.create cfg kind q now).2 = .quotaExceeded) (workspaceId : String) :
    (st.create cfg kind q now).1.store.countActiveRunsForWorkspace workspaceId
      = st.store.countActiveRunsForWorkspace workspaceId := by
  have h := create_cases cfg st kind q now hfresh
  generalize (st.create cfg kind q now).1 = st' at h
  generalize (st.create cfg kind q now).2 = answer at h hrefused
  cases h with
  | refused => rfl
  | rejected =>
    have hrun : st.store.getRun (cfg.record q now).runId = none := by rw [runId_record, hfresh]
    have hinactive : ((((cfg.record q now).stamped now).rejected now).stamped now).isActive
        = false := rfl
    have hid : (((cfg.record q now).stamped now).rejected now).runId = (cfg.record q now).runId :=
      rfl
    unfold InMemoryRunStore.countActiveRunsForWorkspace
    rw [InMemoryRunStore.items_insert_insert hrun hid, List.countP_append]
    simp [hinactive]
  | existing | launched | enqueued => cases hrefused

theorem answers_of_refused_iff (hfresh : st.store.getRun q.runId = none)
    (hrefused : (st.create cfg kind q now).2 = .quotaExceeded) :
    (∀ calls, (machine cfg).answers (st.create cfg kind q now).1 calls
        = (machine cfg).answers st calls) ↔ cfg.Atomic q.workspaceId := by
  have h := create_cases cfg st kind q now hfresh
  generalize (st.create cfg kind q now).1 = st' at h
  generalize (st.create cfg kind q now).2 = answer at h hrefused
  cases h with
  | refused hatomic => exact ⟨fun _ => hatomic, fun _ _ => rfl⟩
  | rejected hinline =>
    constructor
    · intro hsame
      -- The record of the refused run can be read.
      have hread := hsame [.getRun q.runId]
      have hget : (((st.store.insert (cfg.record q now) now).insert
          (((cfg.record q now).stamped now).rejected now) now).getRun q.runId)
            = some ((((cfg.record q now).stamped now).rejected now).stamped now) := by
        unfold InMemoryRunStore.getRun
        rw [InMemoryRunStore.runs_insert]
        have hid : q.runId = ((((cfg.record q now).stamped now).rejected now).stamped now).runId :=
          runId_record.symm
        rw [hid]
        exact get?_put_self _ _
      simp only [machine, Machine.answers, call, hget, hfresh] at hread
      cases hread
    · intro hatomic
      rw [hatomic.1] at hinline
      cases hinline
  | existing | launched | enqueued => cases hrefused

end RunAdmission

/-! ## The two paths side by side -/

/-- What a run counts for: its workspace, its key, and whether it is active. -/
structure RunEntry where
  runId : String
  workspaceId : String
  idempotencyKey : Option String
  active : Bool
deriving DecidableEq

def RunRecord.entry (run : RunRecord) : RunEntry :=
  { runId := run.runId, workspaceId := run.workspaceId, idempotencyKey := run.idempotencyKey
    active := run.isActive }

def RunRecord.isRejected (run : RunRecord) : Bool :=
  run.error = some "rejected: workspace run-concurrency quota exceeded"

namespace InMemoryRunStore

def Indexed (s : InMemoryRunStore) : Prop :=
  ∀ workspaceId key, s.runsByIdempotency.get? (workspaceId, key)
    = (s.runs.items.find? (·.holdsKey workspaceId key)).map
        (fun run => ((workspaceId, key), run.runId))

variable {s : InMemoryRunStore}

theorem Indexed.load (h : s.Indexed) (workspaceId key : String) :
    s.loadRunByIdempotency workspaceId key = s.runs.items.find? (·.holdsKey workspaceId key) := by
  rw [loadRunByIdempotency, h workspaceId key]
  cases hfind : s.runs.items.find? (·.holdsKey workspaceId key) with
  | none => rfl
  | some run =>
    simp only [Option.map_some, Option.bind_some]
    exact s.runs.get?_of_mem (List.mem_of_find?_eq_some hfind)

theorem Indexed.unheld (h : s.Indexed) {run : RunRecord}
    (hnone : s.existingByIdempotency run = none) :
    ∀ r ∈ s.runs.items, ∀ key, run.idempotencyKey = some key →
      r.holdsKey run.workspaceId key = false := by
  intro r hr key hkey
  rw [existingByIdempotency, hkey, Option.bind_some, h.load] at hnone
  simpa using List.find?_eq_none.1 hnone r hr

theorem get?_indexIdempotency (s : InMemoryRunStore) (run : RunRecord) (workspaceId key : String) :
    (s.indexIdempotency run).runsByIdempotency.get? (workspaceId, key)
      = (s.runsByIdempotency.get? (workspaceId, key)).or
          (if run.holdsKey workspaceId key then some ((workspaceId, key), run.runId) else none) := by
  unfold indexIdempotency
  cases hkey : run.idempotencyKey with
  | none => simp [holdsKey, hkey]
  | some k =>
    by_cases hholds : run.workspaceId = workspaceId ∧ k = key
    · obtain ⟨rfl, rfl⟩ := hholds
      have hyes : run.holdsKey run.workspaceId k = true := by simp [holdsKey, hkey]
      cases hget : s.runsByIdempotency.get? (run.workspaceId, k) with
      | none =>
        simp only [hyes, if_true, Option.none_or, hget]
        exact get?_put_self s.runsByIdempotency ((run.workspaceId, k), run.runId)
      | some e => simp [hget]
    · have hno : run.holdsKey workspaceId key = false := by
        simp only [holdsKey, hkey, Option.some.injEq, Bool.and_eq_false_iff,
          decide_eq_false_iff_not]
        exact not_and_or.1 hholds
      rw [hno, if_neg Bool.false_ne_true, Option.or_none]
      cases hget : s.runsByIdempotency.get? (run.workspaceId, k) with
      | none =>
        simp only [hget]
        refine KeyedList.get?_put_of_ne s.runsByIdempotency ((run.workspaceId, k), run.runId) ?_
        intro he
        cases he
        exact hholds ⟨rfl, rfl⟩
      | some e => simp only [hget]

theorem Indexed.insert_of_fresh (h : s.Indexed) {run : RunRecord}
    (hfresh : s.getRun run.runId = none) (now : Instant) : (s.insert run now).Indexed := by
  intro workspaceId key
  have hindex : (s.insert run now).runsByIdempotency = (s.indexIdempotency run).runsByIdempotency :=
    rfl
  have hholds : (run.stamped now).holdsKey workspaceId key = run.holdsKey workspaceId key := rfl
  rw [hindex, get?_indexIdempotency, items_insert_of_fresh hfresh, List.find?_append, h,
    List.find?_singleton, hholds]
  cases s.runs.items.find? (·.holdsKey workspaceId key) with
  | some found => rfl
  | none => split <;> rfl

theorem Indexed.insert_of_some (h : s.Indexed) {run old : RunRecord}
    (hget : s.getRun run.runId = some old) (hws : run.workspaceId = old.workspaceId)
    (hkey : run.idempotencyKey = old.idempotencyKey) (now : Instant) :
    (s.insert run now).Indexed := by
  intro workspaceId key
  have hindex : (s.insert run now).runsByIdempotency = (s.indexIdempotency run).runsByIdempotency :=
    rfl
  have hitems : (s.insert run now).runs.items
      = s.runs.items.map (fun r => if r.runId = run.runId then run.stamped now else r) := by
    rw [runs_insert]
    exact items_put_of_some _ (run.stamped now) old hget
  have hholds : ∀ r ∈ s.runs.items,
      (if r.runId = run.runId then run.stamped now else r).holdsKey workspaceId key
        = r.holdsKey workspaceId key := by
    intro r hr
    split
    · next hid =>
        have hsame : r = old := s.runs.eq_of_key_eq hr (mem_of_get? hget)
          (hid.trans (key_of_get? hget).symm)
        subst hsame
        simp [holdsKey, stamped, hws, hkey]
    · rfl
  have hid : ∀ r : RunRecord,
      (if r.runId = run.runId then run.stamped now else r).runId = r.runId := by
    intro r
    split
    · next hr => exact hr.symm
    · rfl
  have hfind : s.runs.items.find? ((·.holdsKey workspaceId key) ∘
      (fun r => if r.runId = run.runId then run.stamped now else r))
        = s.runs.items.find? (·.holdsKey workspaceId key) := List.find?_congr hholds
  rw [hindex, get?_indexIdempotency, hitems, List.find?_map, hfind, h]
  cases hcase : s.runs.items.find? (·.holdsKey workspaceId key) with
  | some found => simp [hid]
  | none =>
    -- The record itself is stored, so its key is not a new one.
    have hno : run.holdsKey workspaceId key = false := by
      have hold := List.find?_eq_none.1 hcase old (mem_of_get? hget)
      simpa [holdsKey, hws, hkey] using hold
    rw [hno]
    rfl

theorem items_insert_of_some {run old : RunRecord} (hget : s.getRun run.runId = some old)
    (now : Instant) : (s.insert run now).runs.items
      = s.runs.items.map (fun r => if r.runId = run.runId then run.stamped now else r) := by
  rw [runs_insert]
  exact items_put_of_some _ (run.stamped now) old hget

end InMemoryRunStore

def InMemoryRunStore.entries (s : InMemoryRunStore) : List RunEntry :=
  (s.runs.items.filter (fun run => !run.isRejected)).map RunRecord.entry

/-- The inline state, with the records of its refused creates, and the dispatch state without. -/
structure SideBySide (cap : Int) (inline dispatch : RunAdmission) : Prop where
  entries : dispatch.store.runs.items.map RunRecord.entry = inline.store.entries
  indexed : inline.store.Indexed
  indexed' : dispatch.store.Indexed
  slots : 0 < cap → ∀ workspaceId,
    inline.outstanding workspaceId = inline.store.countActiveRunsForWorkspace workspaceId
  inactive : ∀ run ∈ inline.store.runs.items, run.isRejected = true → run.isActive = false
  unrejected : ∀ run ∈ dispatch.store.runs.items, run.isRejected = false
  unique : ∀ run ∈ inline.store.runs.items, ∀ run' ∈ inline.store.runs.items, ∀ key,
    run.idempotencyKey = some key → run'.idempotencyKey = some key →
    run.workspaceId = run'.workspaceId → run.runId = run'.runId

namespace SideBySide

variable {cap : Int} {inline dispatch : RunAdmission}

section

variable (h : SideBySide cap inline dispatch)

include h

theorem count (workspaceId : String) : dispatch.store.countActiveRunsForWorkspace workspaceId
      = inline.store.countActiveRunsForWorkspace workspaceId := by
  have hdispatch : dispatch.store.countActiveRunsForWorkspace workspaceId
      = (dispatch.store.runs.items.map RunRecord.entry).countP
          (fun e => e.workspaceId = workspaceId && e.active) := by
    rw [List.countP_map]
    rfl
  have hinline : inline.store.countActiveRunsForWorkspace workspaceId
      = inline.store.entries.countP (fun e => e.workspaceId = workspaceId && e.active) := by
    rw [InMemoryRunStore.entries, List.countP_map, List.countP_filter]
    refine List.countP_congr (fun run hrun => ?_)
    show _ ↔ ((decide (run.workspaceId = workspaceId) && run.isActive) && !run.isRejected) = true
    cases hrejected : run.isRejected with
    | false => simp
    | true => simp [h.inactive run hrun hrejected]
  rw [hdispatch, hinline, h.entries]

theorem existing {run run' : RunRecord}
    (hws : run.workspaceId = run'.workspaceId) (hkey : run.idempotencyKey = run'.idempotencyKey)
    (hfree : ∀ r ∈ inline.store.runs.items, r.isRejected = true → ∀ key,
      run.idempotencyKey = some key → r.holdsKey run.workspaceId key = false) :
    (dispatch.store.existingByIdempotency run').map RunRecord.entry
      = (inline.store.existingByIdempotency run).map RunRecord.entry := by
  unfold InMemoryRunStore.existingByIdempotency
  rw [← hkey, ← hws]
  cases hcase : run.idempotencyKey with
  | none => rfl
  | some key =>
    have hmatch : ∀ r : RunRecord, r.holdsKey run.workspaceId key
        = ((fun e : RunEntry => decide (e.workspaceId = run.workspaceId)
            && decide (e.idempotencyKey = some key)) ∘ RunRecord.entry) r := fun r => rfl
    have hlive : inline.store.runs.items.find? (·.holdsKey run.workspaceId key)
        = (inline.store.runs.items.filter (fun r => !r.isRejected)).find?
            (·.holdsKey run.workspaceId key) := by
      rw [List.find?_filter]
      refine List.find?_congr (fun r hr => ?_)
      cases hrejected : r.isRejected with
      | false => simp
      | true => simp [hfree r hr hrejected key hcase]
    simp only [Option.bind_some]
    rw [h.indexed.load, h.indexed'.load, hlive]
    have hfind : ∀ l : List RunRecord,
        (l.find? (·.holdsKey run.workspaceId key)).map RunRecord.entry
          = (l.map RunRecord.entry).find? (fun e => decide (e.workspaceId = run.workspaceId)
            && decide (e.idempotencyKey = some key)) := by
      intro l
      rw [List.find?_map]
      rfl
    rw [hfind, hfind, h.entries, InMemoryRunStore.entries]

theorem exists_inline {run : RunRecord} (hrun : run ∈ dispatch.store.runs.items) :
    ∃ run' ∈ inline.store.runs.items, run'.isRejected = false ∧ run'.entry = run.entry := by
  have hmem : run.entry ∈ inline.store.entries := h.entries ▸ List.mem_map_of_mem hrun
  obtain ⟨run', hrun', hentry⟩ := List.mem_map.1 hmem
  obtain ⟨hmem', hlive⟩ := List.mem_filter.1 hrun'
  exact ⟨run', hmem', by simpa using hlive, hentry⟩

theorem exists_dispatch {run : RunRecord}
    (hrun : run ∈ inline.store.runs.items) (hlive : run.isRejected = false) :
    ∃ run' ∈ dispatch.store.runs.items, run'.entry = run.entry := by
  have hmem : run.entry ∈ dispatch.store.runs.items.map RunRecord.entry := by
    rw [h.entries]
    exact List.mem_map_of_mem (List.mem_filter.2 ⟨hrun, by simp [hlive]⟩)
  obtain ⟨run', hrun', hentry⟩ := List.mem_map.1 hmem
  exact ⟨run', hrun', hentry⟩

theorem fresh {runId : String}
    (hfresh : inline.store.getRun runId = none) : dispatch.store.getRun runId = none := by
  refine (get?_eq_none_iff _ _).2 ?_
  intro run hrun hid
  obtain ⟨run', hrun', -, hentry⟩ := h.exists_inline hrun
  refine (get?_eq_none_iff _ _).1 hfresh run' hrun' ?_
  exact (congrArg RunEntry.runId hentry).trans hid

variable {outstanding outstanding' : String → Nat} {tasks tasks' : List String}

theorem insert {store store' : InMemoryRunStore} (run run' : RunRecord)
    (hitems : store.runs.items = inline.store.runs.items ++ [run]) (hitems' : store'.runs.items
      = dispatch.store.runs.items ++ (if run.isRejected then [] else [run']))
    (hindexed : store.Indexed) (hindexed' : store'.Indexed)
    (hentry : run.isRejected = false → run'.isRejected = false ∧ run'.entry = run.entry)
    (hslots : 0 < cap → ∀ workspaceId, outstanding workspaceId = inline.outstanding workspaceId
        + (if run.workspaceId = workspaceId ∧ run.isActive = true then 1 else 0))
    (hinactive : run.isRejected = true → run.isActive = false)
    (hunique : ∀ r ∈ inline.store.runs.items, ∀ key, run.idempotencyKey = some key →
      r.holdsKey run.workspaceId key = false) : SideBySide cap { store, outstanding, tasks }
      { store := store', outstanding := outstanding', tasks := tasks' } := by
  constructor
  · simp only [InMemoryRunStore.entries, hitems, hitems', List.map_append, List.filter_append]
    rw [h.entries, InMemoryRunStore.entries]
    cases hrejected : run.isRejected with
    | true => simp [hrejected]
    | false => simp [hrejected, (hentry hrejected).2]
  · exact hindexed
  · exact hindexed'
  · intro hcap workspaceId
    have hold := h.slots hcap workspaceId
    unfold InMemoryRunStore.countActiveRunsForWorkspace at hold ⊢
    simp only [hslots hcap, hold, hitems, List.countP_append, List.countP_singleton]
    simp
  · intro r hr hrejected
    simp only [hitems, List.mem_append, List.mem_singleton] at hr
    rcases hr with hr | rfl
    · exact h.inactive r hr hrejected
    · exact hinactive hrejected
  · intro r hr
    simp only [hitems', List.mem_append] at hr
    rcases hr with hr | hr
    · exact h.unrejected r hr
    · split at hr
      · cases hr
      · next hlive =>
          rw [List.mem_singleton.1 hr]
          exact (hentry (by simpa using hlive)).1
  · intro r hr r' hr' key hkey hkey' hws
    simp only [hitems, List.mem_append, List.mem_singleton] at hr hr'
    rcases hr with hr | rfl
    · rcases hr' with hr' | rfl
      · exact h.unique r hr r' hr' key hkey hkey' hws
      · have hno := hunique r hr key hkey'
        simp [holdsKey, hkey, hws] at hno
    · rcases hr' with hr' | rfl
      · have hno := hunique r' hr' key hkey
        simp [holdsKey, hkey', hws] at hno
      · rfl

theorem insert_rejected {run : RunRecord} {now : Instant}
    (hfresh : inline.store.getRun run.runId = none)
    (hnone : inline.store.existingByIdempotency run = none) : SideBySide cap { inline with
        store := (inline.store.insert run now).insert ((run.stamped now).rejected now) now }
      dispatch := by
  have hid : ((run.stamped now).rejected now).runId = run.runId := rfl
  have hget : (inline.store.insert run now).getRun ((run.stamped now).rejected now).runId
      = some (run.stamped now) := by
    rw [InMemoryRunStore.getRun, InMemoryRunStore.runs_insert]
    exact get?_put_self inline.store.runs (run.stamped now)
  refine h.insert _ run (InMemoryRunStore.items_insert_insert hfresh hid now now) ?_
    ((h.indexed.insert_of_fresh hfresh now).insert_of_some hget rfl rfl now) h.indexed' ?_ ?_ ?_ ?_
  · rw [if_pos (by rfl), List.append_nil]
  · intro hlive
    cases hlive
  · intro _ workspaceId
    have hinactive : (((run.stamped now).rejected now).stamped now).isActive = false := rfl
    simp [hinactive]
  · intro _
    rfl
  · intro r hr key hkey
    exact h.indexed.unheld hnone r hr key hkey

theorem insert_both {run run' : RunRecord} {now : Instant}
    (hfresh : inline.store.getRun run.runId = none)
    (hnone : inline.store.existingByIdempotency run = none) (hqueued : run.status = .queued)
    (herror : run.error = none) (herror' : run'.error = none) (hentry : run'.entry = run.entry)
    (hslots : 0 < cap → outstanding = Function.update inline.outstanding run.workspaceId
      (inline.outstanding run.workspaceId + 1)) :
    SideBySide cap { store := inline.store.insert run now, outstanding, tasks }
      { store := dispatch.store.insert run' now, outstanding := outstanding', tasks := tasks' } := by
  have hfresh' : dispatch.store.getRun run'.runId = none := by
    rw [show run'.runId = run.runId from congrArg RunEntry.runId hentry]
    exact h.fresh hfresh
  have hlive : (run.stamped now).isRejected = false := by
    simp [RunRecord.isRejected, stamped, herror]
  have hlive' : (run'.stamped now).isRejected = false := by
    simp [RunRecord.isRejected, stamped, herror']
  refine h.insert _ (run'.stamped now) (InMemoryRunStore.items_insert_of_fresh hfresh now) ?_
    (h.indexed.insert_of_fresh hfresh now) (h.indexed'.insert_of_fresh hfresh' now) ?_ ?_ ?_ ?_
  · rw [hlive, if_neg Bool.false_ne_true]
    exact InMemoryRunStore.items_insert_of_fresh hfresh' now
  · intro _
    exact ⟨hlive', hentry⟩
  · intro hcap workspaceId
    have hactive : (run.stamped now).isActive = true := by
      simp [isActive, stamped, hqueued, activeRunStatuses]
    have hws : (run.stamped now).workspaceId = run.workspaceId := rfl
    rw [hslots hcap, hactive, hws]
    by_cases hin : run.workspaceId = workspaceId
    · subst hin
      simp
    · rw [Function.update_of_ne (Ne.symm hin)]
      simp [hin]
  · intro hrejected
    rw [hlive] at hrejected
    cases hrejected
  · intro r hr key hkey
    exact h.indexed.unheld hnone r hr key hkey

theorem getRun {runId : String} {run : RunRecord}
    (hget : inline.store.getRun runId = some run) (hactive : run.isActive = true) :
    run.isRejected = false
      ∧ ∃ run', dispatch.store.getRun runId = some run' ∧ run'.entry = run.entry := by
  have hmem := mem_of_get? hget
  have hid : run.runId = runId := key_of_get? hget
  have hlive : run.isRejected = false := by
    cases hrejected : run.isRejected with
    | false => rfl
    | true =>
      rw [h.inactive run hmem hrejected] at hactive
      cases hactive
  obtain ⟨run', hmem', hentry⟩ := h.exists_dispatch hmem hlive
  have hid' : run'.runId = runId := (congrArg RunEntry.runId hentry).trans hid
  exact ⟨hlive, run', hid' ▸ dispatch.store.runs.get?_of_mem hmem', hentry⟩

theorem not_active {runId : String} {run' : RunRecord}
    (hget : dispatch.store.getRun runId = some run')
    (hnot : ∀ run, inline.store.getRun runId = some run → run.isActive = false) :
    run'.isActive = false := by
  obtain ⟨run, hmem, -, hentry⟩ := h.exists_inline (mem_of_get? hget)
  have hsame : run.runId = run'.runId := congrArg RunEntry.runId hentry
  have hid : run.runId = runId := hsame.trans (key_of_get? hget)
  have hactive := hnot run (hid ▸ inline.store.runs.get?_of_mem hmem)
  have hboth : run.isActive = run'.isActive := congrArg RunEntry.active hentry
  rw [← hboth, hactive]

theorem finish {run rec run' rec' : RunRecord} (hget : inline.store.getRun rec.runId = some run)
    (hget' : dispatch.store.getRun rec'.runId = some run')
    (hws : rec.workspaceId = run.workspaceId) (hkey : rec.idempotencyKey = run.idempotencyKey)
    (hlive : run.isRejected = false) (hactive : run.isActive = true)
    (hlive' : rec.isRejected = false) (hended : rec.isActive = false)
    (hws' : rec'.workspaceId = run'.workspaceId) (hkey' : rec'.idempotencyKey = run'.idempotencyKey)
    (hrejected' : rec'.isRejected = false) (hentry : rec'.entry = rec.entry) (now : Instant)
 (hslots : 0 < cap → outstanding = Function.update inline.outstanding run.workspaceId
          (inline.outstanding run.workspaceId - 1)) :
    SideBySide cap { store := inline.store.saveRun rec now, outstanding, tasks }
      { store := dispatch.store.saveRun rec' now, outstanding := outstanding', tasks := tasks' } := by
  have hitems : (inline.store.saveRun rec now).runs.items = _ :=
    InMemoryRunStore.items_insert_of_some hget now
  have hitems' : (dispatch.store.saveRun rec' now).runs.items = _ :=
    InMemoryRunStore.items_insert_of_some hget' now
  have hrunId : rec'.runId = rec.runId := congrArg RunEntry.runId hentry
  -- What the write does to a record of the inline side: nothing but to end the run.
  have hwritten : ∀ r ∈ inline.store.runs.items,
      (if r.runId = rec.runId then rec.stamped now else r).isRejected = r.isRejected
        ∧ (if r.runId = rec.runId then rec.stamped now else r).runId = r.runId
        ∧ (if r.runId = rec.runId then rec.stamped now else r).workspaceId = r.workspaceId
        ∧ (if r.runId = rec.runId then rec.stamped now else r).idempotencyKey = r.idempotencyKey := by
    intro r hr
    split
    · next hid =>
        have hsame : r = run := inline.store.runs.eq_of_key_eq hr (mem_of_get? hget)
          (hid.trans (key_of_get? hget).symm)
        subst hsame
        exact ⟨hlive'.trans hlive.symm, hid.symm, hws, hkey⟩
    · exact ⟨rfl, rfl, rfl, rfl⟩
  constructor
  · let φ : RunEntry → RunEntry := fun e => if e.runId = rec.runId then rec.entry else e
    have hφ : (RunRecord.entry ∘ fun r => if r.runId = rec.runId then rec.stamped now else r)
        = φ ∘ RunRecord.entry := by
      funext r
      show _ = if r.runId = rec.runId then rec.entry else r.entry
      rw [Function.comp_apply]
      split <;> rfl
    have hφ' : (RunRecord.entry ∘ fun r => if r.runId = rec'.runId then rec'.stamped now else r)
        = φ ∘ RunRecord.entry := by
      funext r
      show _ = if r.runId = rec.runId then rec.entry else r.entry
      rw [Function.comp_apply, hrunId]
      split
      · exact hentry
      · rfl
    have hkept : inline.store.runs.items.filter
        ((fun r => !r.isRejected) ∘ (fun r => if r.runId = rec.runId then rec.stamped now else r))
          = inline.store.runs.items.filter (fun r => !r.isRejected) :=
      List.filter_congr (fun r hr => by rw [Function.comp_apply, (hwritten r hr).1])
    simp only [InMemoryRunStore.entries, hitems, hitems', List.filter_map, hkept, List.map_map]
    rw [hφ, hφ']
    have hold := congrArg (List.map φ) h.entries
    rw [InMemoryRunStore.entries, List.map_map, List.map_map] at hold
    exact hold
  · exact h.indexed.insert_of_some hget hws hkey now
  · exact h.indexed'.insert_of_some hget' hws' hkey' now
  · intro hcap workspaceId
    have hold := h.slots hcap workspaceId
    have hcount := KeyedList.countP_put_of_some inline.store.runs (rec.stamped now) run
      (fun r => r.workspaceId = workspaceId && r.isActive) hget
    unfold InMemoryRunStore.countActiveRunsForWorkspace at hold ⊢
    simp only [InMemoryRunStore.saveRun, InMemoryRunStore.runs_insert, hslots hcap]
    have hstamped : (rec.stamped now).isActive = false := hended
    simp only [hactive, hstamped, Bool.and_true, Bool.and_false, decide_eq_true_eq,
      Bool.false_eq_true, if_false] at hcount
    by_cases hin : run.workspaceId = workspaceId
    · subst hin
      rw [Function.update_self, hold]
      rw [if_pos rfl] at hcount
      omega
    · rw [Function.update_of_ne (Ne.symm hin), hold]
      rw [if_neg hin] at hcount
      omega
  · intro r hr hrejected
    have hr : r ∈ (inline.store.saveRun rec now).runs.items := hr
    rw [hitems] at hr
    obtain ⟨r₀, hr₀, rfl⟩ := List.mem_map.1 hr
    split at hrejected
    · rw [show (rec.stamped now).isRejected = rec.isRejected from rfl, hlive'] at hrejected
      cases hrejected
    · next hne =>
        rw [if_neg hne]
        exact h.inactive r₀ hr₀ hrejected
  · intro r hr
    have hr : r ∈ (dispatch.store.saveRun rec' now).runs.items := hr
    rw [hitems'] at hr
    obtain ⟨r₀, hr₀, rfl⟩ := List.mem_map.1 hr
    split
    · exact hrejected'
    · exact h.unrejected r₀ hr₀
  · intro r hr r' hr' key hrkey hrkey' hrws
    have hr : r ∈ (inline.store.saveRun rec now).runs.items := hr
    have hr' : r' ∈ (inline.store.saveRun rec now).runs.items := hr'
    rw [hitems] at hr hr'
    obtain ⟨r₀, hr₀, rfl⟩ := List.mem_map.1 hr
    obtain ⟨r₁, hr₁, rfl⟩ := List.mem_map.1 hr'
    obtain ⟨-, hid₀, hws₀, hkey₀⟩ := hwritten r₀ hr₀
    obtain ⟨-, hid₁, hws₁, hkey₁⟩ := hwritten r₁ hr₁
    rw [hid₀, hid₁]
    exact h.unique r₀ hr₀ r₁ hr₁ key (hkey₀ ▸ hrkey) (hkey₁ ▸ hrkey')
      (hws₀.symm.trans (hrws.trans hws₁))

end

end SideBySide

def EnqueueConfig.inline (cap : Int) : EnqueueConfig :=
  { dispatchEnabled := false, maxOutstanding := cap }

def EnqueueConfig.dispatch (cap maxAttempts : Int) : EnqueueConfig :=
  { dispatchEnabled := true, maxOutstanding := cap, defaultMaxAttempts := maxAttempts }

namespace RunAdmission

def Fresh (cap : Int) (st : RunAdmission) : Submission → Prop
  | .create _ q _ =>
    st.store.getRun q.runId = none ∧ (0 < cap → q.workspaceId ≠ localWorkspace)
  | .complete .. => True

def UnrefusedKey (st : RunAdmission) : Submission → Prop
  | .create _ q _ => ∀ run ∈ st.store.runs.items, run.isRejected = true →
      ∀ key, q.idempotencyKey = some key → run.holdsKey q.workspaceId key = false
  | .complete .. => True

end RunAdmission

namespace SideBySide

variable {cap maxAttempts : Int} {inline dispatch : RunAdmission}

open EnqueueConfig RunAdmission

theorem create (h : SideBySide cap inline dispatch) {kind : CreateKind} {q : RunRequest}
    {now : Instant} (hfresh : inline.Fresh cap (.create kind q now))
    (hkey : inline.UnrefusedKey (.create kind q now)) :
    SideBySide cap (inline.create (.inline cap) kind q now).1
        (dispatch.create (.dispatch cap maxAttempts) kind q now).1
      ∧ (inline.create (.inline cap) kind q now).2.runId
        = (dispatch.create (.dispatch cap maxAttempts) kind q now).2.runId := by
  have hI := create_cases (.inline cap) inline kind q now hfresh.1
  have hD := create_cases (.dispatch cap maxAttempts) dispatch kind q now (h.fresh hfresh.1)
  have hexisting : (dispatch.store.existingByIdempotency
        ((EnqueueConfig.dispatch cap maxAttempts).record q now)).map RunRecord.entry
      = (inline.store.existingByIdempotency
        ((EnqueueConfig.inline cap).record q now)).map RunRecord.entry :=
    h.existing rfl rfl hkey
  generalize (inline.create (.inline cap) kind q now).1 = inline' at hI ⊢
  generalize (inline.create (.inline cap) kind q now).2 = answer at hI ⊢
  generalize (dispatch.create (.dispatch cap maxAttempts) kind q now).1 = dispatch' at hD ⊢
  generalize (dispatch.create (.dispatch cap maxAttempts) kind q now).2 = answer' at hD ⊢
  cases hI with
  | existing run hrun =>
    cases hD with
    | existing run' hrun' =>
      rw [hrun, hrun'] at hexisting
      have hentry : run'.entry = run.entry := Option.some.inj hexisting
      have hid : run'.runId = run.runId := congrArg RunEntry.runId hentry
      exact ⟨h, congrArg some hid.symm⟩
    | refused _ hnone => rw [hrun, hnone] at hexisting; cases hexisting
    | enqueued _ hnone => rw [hrun, hnone] at hexisting; cases hexisting
    | rejected hmode => cases hmode
    | launched hmode => cases hmode
  | refused hatomic => cases hatomic.1
  | enqueued hmode => cases hmode
  | rejected _ hnone hcap hfull =>
    cases hD with
    | existing run' hrun' => rw [hnone, hrun'] at hexisting; cases hexisting
    | enqueued _ _ hopen =>
      -- The counter of the inline side is the count of the dispatch side.
      have hatomic : (EnqueueConfig.dispatch cap maxAttempts).Atomic q.workspaceId :=
        ⟨rfl, hcap, hfresh.2 hcap⟩
      have hroom : (dispatch.store.countActiveRunsForWorkspace q.workspaceId : Int) < cap :=
        hopen hatomic
      have hfull : cap ≤ (inline.outstanding q.workspaceId : Int) := hfull
      rw [h.count, ← h.slots hcap] at hroom
      omega
    | refused => exact ⟨h.insert_rejected hfresh.1 hnone, rfl⟩
    | rejected hmode => cases hmode
    | launched hmode => cases hmode
  | launched _ hnone hopen =>
    cases hD with
    | existing run' hrun' => rw [hnone, hrun'] at hexisting; cases hexisting
    | refused hatomic _ hfull =>
      have hroom : (inline.outstanding q.workspaceId : Int) < cap := hopen hatomic.2.1
      have hfull : cap ≤ (dispatch.store.countActiveRunsForWorkspace q.workspaceId : Int) :=
        hfull
      rw [h.count, ← h.slots hatomic.2.1] at hfull
      omega
    | enqueued =>
      refine ⟨h.insert_both hfresh.1 hnone rfl rfl rfl rfl ?_, rfl⟩
      intro hcap
      exact if_neg (not_le.2 hcap)
    | rejected hmode => cases hmode
    | launched hmode => cases hmode

theorem create_differ (h : SideBySide cap inline dispatch) {kind : CreateKind} {q : RunRequest}
    {now : Instant} (hfresh : inline.Fresh cap (.create kind q now))
    (hkey : ¬ inline.UnrefusedKey (.create kind q now)) :
    (inline.create (.inline cap) kind q now).2.runId
      ≠ (dispatch.create (.dispatch cap maxAttempts) kind q now).2.runId := by
  simp only [UnrefusedKey, not_forall] at hkey
  obtain ⟨run, hrun, hrejected, key, hqkey, hholds⟩ := hkey
  have hholds : run.holdsKey q.workspaceId key = true := by simpa using hholds
  obtain ⟨hws, hrunkey⟩ : run.workspaceId = q.workspaceId ∧ run.idempotencyKey = some key := by
    simpa [holdsKey] using hholds
  have hI := create_cases (.inline cap) inline kind q now hfresh.1
  have hD := create_cases (.dispatch cap maxAttempts) dispatch kind q now (h.fresh hfresh.1)
  have hload : inline.store.existingByIdempotency ((EnqueueConfig.inline cap).record q now)
      = inline.store.runs.items.find? (·.holdsKey q.workspaceId key) := by
    rw [InMemoryRunStore.existingByIdempotency, idempotencyKey_record, hqkey, Option.bind_some,
      workspaceId_record, h.indexed.load]
  obtain ⟨found, hfound⟩ : ∃ found,
      inline.store.runs.items.find? (·.holdsKey q.workspaceId key) = some found :=
    Option.isSome_iff_exists.1 (List.find?_isSome.2 ⟨run, hrun, hholds⟩)
  have hsame : found.runId = run.runId := by
    have hfoundkey := List.find?_some hfound
    obtain ⟨hws', hkey'⟩ : found.workspaceId = q.workspaceId
        ∧ found.idempotencyKey = some key := by
      simpa [holdsKey] using hfoundkey
    exact h.unique found (List.mem_of_find?_eq_some hfound) run hrun key hkey' hrunkey
      (hws'.trans hws.symm)
  have hinline : (inline.create (.inline cap) kind q now).2.runId = some run.runId := by
    generalize (inline.create (.inline cap) kind q now).1 = inline' at hI
    generalize (inline.create (.inline cap) kind q now).2 = answer at hI ⊢
    rw [hfound] at hload
    cases hI with
    | existing r hr =>
      rw [hload] at hr
      cases hr
      exact congrArg some hsame
    | refused _ hnone => rw [hload] at hnone; cases hnone
    | rejected _ hnone => rw [hload] at hnone; cases hnone
    | launched _ hnone => rw [hload] at hnone; cases hnone
    | enqueued _ hnone => rw [hload] at hnone; cases hnone
  rw [hinline]
  generalize (dispatch.create (.dispatch cap maxAttempts) kind q now).1 = dispatch' at hD
  generalize (dispatch.create (.dispatch cap maxAttempts) kind q now).2 = answer' at hD ⊢
  cases hD with
  | existing r hr =>
    -- It would be the entry of an unmarked record with the key.
    have hmem := mem_of_existing hr
    rw [InMemoryRunStore.existingByIdempotency, idempotencyKey_record, hqkey, Option.bind_some,
      workspaceId_record, h.indexed'.load] at hr
    have hrkey := List.find?_some hr
    obtain ⟨hrws, hrkey⟩ : r.workspaceId = q.workspaceId ∧ r.idempotencyKey = some key := by
      simpa [holdsKey] using hrkey
    obtain ⟨r', hr', hlive, hentry⟩ := h.exists_inline hmem
    have hws' : r'.workspaceId = r.workspaceId := congrArg RunEntry.workspaceId hentry
    have hkey' : r'.idempotencyKey = r.idempotencyKey := congrArg RunEntry.idempotencyKey hentry
    have hid := h.unique r' hr' run hrun key (hkey'.trans hrkey) hrunkey
      (hws'.trans (hrws.trans hws.symm))
    rw [inline.store.runs.eq_of_key_eq hr' hrun hid, hrejected] at hlive
    cases hlive
  | refused =>
    intro hanswer
    cases hanswer
  | enqueued =>
    intro hanswer
    have hid : run.runId = q.runId := Option.some.inj hanswer
    exact (get?_eq_none_iff _ _).1 hfresh.1 run hrun hid
  | rejected hmode => cases hmode
  | launched hmode => cases hmode

theorem complete (h : SideBySide cap inline dispatch) (runId : String) (failed : Bool)
    (now : Instant) : SideBySide cap (inline.complete (.inline cap) runId failed now)
      (dispatch.complete (.dispatch cap maxAttempts) runId failed now) := by
  by_cases hactive : ∃ run, inline.store.getRun runId = some run ∧ run.isActive = true
  · obtain ⟨run, hget, hactive⟩ := hactive
    obtain ⟨hlive, run', hget', hentry⟩ := h.getRun hget hactive
    have hactive' : run'.isActive = true := (congrArg RunEntry.active hentry).trans hactive
    have hid : run.runId = runId := key_of_get? hget
    have hid' : run'.runId = runId := key_of_get? hget'
    have hstored : inline.store.getRun
        ({ run with status := if failed then .failed else .succeeded } : RunRecord).runId
          = some run := by
      show inline.store.getRun run.runId = some run
      rw [hid]
      exact hget
    have hstored' : dispatch.store.getRun
        ({ run' with status := if failed then .failed else .succeeded } : RunRecord).runId
          = some run' := by
      show dispatch.store.getRun run'.runId = some run'
      rw [hid']
      exact hget'
    have hended : ({ run with status := if failed then .failed else .succeeded } : RunRecord).entry
        = { run.entry with active := false } := by
      cases failed <;> rfl
    have hended' : ({ run' with status := if failed then .failed else .succeeded } : RunRecord).entry
        = { run'.entry with active := false } := by
      cases failed <;> rfl
    unfold RunAdmission.complete
    simp only [hget, hget', hactive, hactive', if_true]
    refine h.finish hstored hstored' rfl rfl hlive hactive hlive ?_ rfl rfl
      (h.unrejected run' (mem_of_get? hget')) ?_ now ?_
    · exact congrArg RunEntry.active hended
    · rw [hended, hended', hentry]
    · intro hcap
      exact if_neg (not_le.2 hcap)
  · have hnot : ∀ run, inline.store.getRun runId = some run → run.isActive = false := by
      intro run hget
      by_contra hno
      exact hactive ⟨run, hget, by simpa using hno⟩
    have hinline : inline.complete (.inline cap) runId failed now = inline := by
      unfold RunAdmission.complete
      cases hget : inline.store.getRun runId with
      | none => rfl
      | some run => simp [hnot run hget]
    have hdispatch : dispatch.complete (.dispatch cap maxAttempts) runId failed now = dispatch := by
      unfold RunAdmission.complete
      cases hget : dispatch.store.getRun runId with
      | none => rfl
      | some run => simp [h.not_active hget hnot]
    rw [hinline, hdispatch]
    exact h

end SideBySide

namespace RunAdmission

open EnqueueConfig

theorem sideBySide_init (cap : Int) : SideBySide cap {} {} := by
  constructor
  · rfl
  · intro workspaceId key
    rfl
  · intro workspaceId key
    rfl
  · intro _ workspaceId
    rfl
  · intro run hrun
    cases hrun
  · intro run hrun
    cases hrun
  · intro run hrun
    cases hrun

/-- A refused create leaves the active runs as they were, and no later call can tell that it
    happened exactly when it took the atomic path; and the inline and the dispatch path answer a
    sequence of submissions and completions alike exactly when no refused key is submitted again. -/
theorem refused_create_traceless_iff (cfg : EnqueueConfig) (st : RunAdmission) (kind : CreateKind)
    (q : RunRequest) (now : Instant) (cap maxAttempts : Int) (steps : List Submission)
    (hsteps : (admissions (.inline cap)).AlongRun (Fresh cap) {} steps) :
    (st.store.getRun q.runId = none → (st.create cfg kind q now).2 = .quotaExceeded →
      (∀ workspaceId, (st.create cfg kind q now).1.store.countActiveRunsForWorkspace workspaceId
          = st.store.countActiveRunsForWorkspace workspaceId)
        ∧ ((∀ calls, (machine cfg).answers (st.create cfg kind q now).1 calls
            = (machine cfg).answers st calls) ↔ cfg.Atomic q.workspaceId))
    ∧ ((admissions (.inline cap)).answers {} steps
          = (admissions (.dispatch cap maxAttempts)).answers {} steps
        ↔ (admissions (.inline cap)).AlongRun UnrefusedKey {} steps) := by
  constructor
  · intro hfresh hrefused
    exact ⟨countActiveRuns_of_refused hfresh hrefused, answers_of_refused_iff hfresh hrefused⟩
  · rw [← List.forall₂_eq_eq_eq]
    refine Machine.answers_agree_iff ?_ ?_ (sideBySide_init cap) hsteps
    · intro inline dispatch a h hfresh hkey
      cases a with
      | create kind q now =>
        obtain ⟨h', hid⟩ := h.create hfresh hkey
        exact ⟨h', congrArg some hid⟩
      | complete runId failed now => exact ⟨h.complete runId failed now, rfl⟩
    · intro inline dispatch a h hfresh hkey hsame
      cases a with
      | create kind q now => exact h.create_differ hfresh hkey (Option.some.inj hsame)
      | complete runId failed now => exact hkey trivial

/-! ### A refused key, submitted again -/

def ofAcme (runId : String) (key : Option String) : Submission :=
  .create .run { runId, workspaceId := "acme", subjectId := "ada", idempotencyKey := key } 0

/-- Two creates under a cap of one, the end of the first, and another create. -/
def drained (key : Option String) : List Submission :=
  [ofAcme "run-1" none, ofAcme "run-2" key, .complete "run-1" false 0, ofAcme "run-3" key]

instance (cap : Int) (st : RunAdmission) : (a : Submission) → Decidable (st.Fresh cap a)
  | .create _ q _ => by
    unfold Fresh
    have : Decidable (st.store.getRun q.runId = none) :=
      decidable_of_iff ((st.store.getRun q.runId).isNone = true) Option.isNone_iff_eq_none
    infer_instance
  | .complete .. => inferInstanceAs (Decidable True)

def full : RunAdmission :=
  (({} : RunAdmission).createRun (.inline 1)
    { runId := "run-1", workspaceId := "acme", subjectId := "ada" } 0).1

theorem refused_create_traceless_iff_drained :
    ((∀ calls, (machine (.inline 1)).answers (full.create (.inline 1) .run
            { runId := "run-2", workspaceId := "acme", subjectId := "ada" } 0).1 calls
          = (machine (.inline 1)).answers full calls)
        ↔ (EnqueueConfig.inline 1).Atomic "acme")
      ∧ ((admissions (.inline 1)).answers {} (drained none)
          = (admissions (.dispatch 1 3)).answers {} (drained none)
        ↔ (admissions (.inline 1)).AlongRun UnrefusedKey {} (drained none)) :=
  have h := refused_create_traceless_iff (.inline 1) full .run
    { runId := "run-2", workspaceId := "acme", subjectId := "ada" } 0 1 3 (drained none)
    (by decide +kernel)
  ⟨(h.1 rfl rfl).2, h.2⟩

/-- The retry of a refused create is answered with the refused run inline, and admitted in dispatch
    mode. -/
theorem refused_key_lost : (admissions (.inline 1)).answers {} (drained (some "k"))
        = [some (some "run-1"), some none, none, some (some "run-2")]
      ∧ (admissions (.dispatch 1 3)).answers {} (drained (some "k"))
        = [some (some "run-1"), some none, none, some (some "run-3")] := by
  decide +kernel

end RunAdmission

end Himmy
