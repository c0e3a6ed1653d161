import Himmy.Library.FirstMin
import Himmy.Storage.Calls
import Mathlib.Data.List.Dedup
import Mathlib.Data.List.Find

/-! # The two run stores, call by call

`Simulates m s` relates an in-memory store and a SQLite store that hold the same records in the same
order: the idempotency index answers what a search of the records by key answers, the `created_at`
column repeats the payload, and the records stand in `created_at` order. Every call keeps the
relation and is answered alike, as long as no create with a disabled cap re-submits a stored
idempotency key, and no claim finds a queued run without a schedule whose `created_at` lies in the
future: on these two the stores differ (`Avoids`).

The argument follows the shape of the calls. A call that edits records in place keeps their identity
(`SameIdentity`), so it keeps the index, the columns and the order; a create appends; a prune
filters. -/

namespace Himmy

open KeyedList (mem_of_get? key_of_get? get?_put items_filter ext)

/-! ## Identity -/

/-- The fields of a run that no call changes. -/
structure SameIdentity (a b : RunRecord) : Prop where
  runId : a.runId = b.runId
  workspaceId : a.workspaceId = b.workspaceId
  idempotencyKey : a.idempotencyKey = b.idempotencyKey
  createdAt : a.createdAt = b.createdAt

theorem SameIdentity.refl (a : RunRecord) : SameIdentity a a := ⟨rfl, rfl, rfl, rfl⟩

def RunRecord.holdsKey (workspaceId idempotencyKey : String) (r : RunRecord) : Bool :=
  r.workspaceId = workspaceId && r.idempotencyKey = some idempotencyKey

theorem SameIdentity.holdsKey {a b : RunRecord} (h : SameIdentity a b) (ws key : String) :
    a.holdsKey ws key = b.holdsKey ws key := by
  simp [RunRecord.holdsKey, h.workspaceId, h.idempotencyKey]

def RunTable.keyRun (t : RunTable) (workspaceId idempotencyKey : String) : Option RunRecord :=
  t.items.find? (RunRecord.holdsKey workspaceId idempotencyKey)

theorem RunTable.keyRun_map {t t' : RunTable} {f : RunRecord → RunRecord}
    (ht : t'.items = t.items.map f) (hf : ∀ r ∈ t.items, SameIdentity (f r) r) (ws key : String) :
    (t'.keyRun ws key).map RunRecord.runId = (t.keyRun ws key).map RunRecord.runId := by
  unfold RunTable.keyRun
  rw [ht, List.find?_map]
  have hcongr : t.items.find? (RunRecord.holdsKey ws key ∘ f)
      = t.items.find? (RunRecord.holdsKey ws key) :=
    List.find?_congr (fun r hr => (hf r hr).holdsKey ws key)
  rw [hcongr]
  cases hfind : t.items.find? (RunRecord.holdsKey ws key) with
  | none => rfl
  | some r => simp [(hf r (List.mem_of_find?_eq_some hfind)).runId]

/-! ## The relation -/

/-- The two stores hold the same runs. -/
structure Simulates (m : InMemoryRunStore) (s : SqliteRunStore) : Prop where
  records : s.records = m.runs
  index : ∀ ws key, (m.runsByIdempotency.get? (ws, key)).map Prod.snd
    = (m.runs.keyRun ws key).map RunRecord.runId
  created : ∀ row ∈ s.rows.items, row.createdAt = row.payload.createdAt
  sorted : m.runs.items.Pairwise (fun a b => a.createdAt ≤ b.createdAt)

theorem Simulates.empty : Simulates InMemoryRunStore.empty SqliteRunStore.empty :=
  ⟨rfl, fun _ _ => rfl, fun _ h => absurd h (by simp [SqliteRunStore.empty]), List.Pairwise.nil⟩

namespace SqliteRunStore

variable (s : SqliteRunStore)

theorem keyRow_payload (ws key : String) :
    (s.keyRow ws key).map RunRow.payload = s.records.keyRun ws key := by
  unfold keyRow RunTable.keyRun
  rw [items_records, List.find?_map]
  refine congrArg (Option.map RunRow.payload) (List.find?_congr (fun row hrow => ?_))
  have hstep := s.inStep row hrow
  simp [RunRecord.holdsKey, hstep.workspaceId, hstep.idempotencyKey]

theorem loadRunByIdempotency_eq (ws key : String) :
    s.loadRunByIdempotency ws key = s.records.keyRun ws key := s.keyRow_payload ws key

theorem upsert_of_no_holder {s : SqliteRunStore} {run : RunRecord}
    (h : s.existingByIdempotency run = none) (now : Instant) :
    ∃ s', s.upsert (run.stamped now) = some s' := by
  have hfalse : s.violatesUnique (run.stamped now) = false := by
    rw [Bool.eq_false_iff]
    intro hv
    simp only [violatesUnique, Bool.and_eq_true, List.any_eq_true, RunRecord.stamped] at hv
    obtain ⟨hsome, row, hrow, ⟨-, hws⟩, hkey⟩ := hv
    have hws := of_decide_eq_true hws
    have hkey := of_decide_eq_true hkey
    obtain ⟨key, hkey'⟩ := Option.isSome_iff_exists.1 hsome
    simp only [existingByIdempotency, hkey', Option.bind_some, loadRunByIdempotency,
      Option.map_eq_none_iff, keyRow, List.find?_eq_none] at h
    exact h row hrow (by simp [hws, hkey, hkey'])
  unfold upsert
  rw [dif_neg (by simp [hfalse])]
  exact ⟨_, rfl⟩

/-- The `created_at` column repeats the payload. -/
def CreatedInStep : Prop :=
  ∀ row ∈ s.rows.items, row.createdAt = row.payload.createdAt

theorem CreatedInStep.update {s : SqliteRunStore} (h : s.CreatedInStep) {cond : RunRow → Bool}
    {u : RowUpdate} (hu : ∀ row, (u.set row).createdAt = row.createdAt
      ∧ (u.set row).payload.createdAt = row.payload.createdAt) :
    (s.update cond u).1.CreatedInStep := by
  intro row hrow
  obtain ⟨old, hold, rfl⟩ := List.mem_map.1 hrow
  split
  · rw [(hu old).1, (hu old).2]; exact h old hold
  · exact h old hold

theorem CreatedInStep.upsert {s s' : SqliteRunStore} (h : s.CreatedInStep) {run : RunRecord}
    (hup : s.upsert run = some s')
    (hold : ∀ old, s.records.get? run.runId = some old → old.createdAt = run.createdAt) :
    s'.CreatedInStep := by
  unfold SqliteRunStore.upsert at hup
  split at hup
  · cases hup
  · cases hup
    intro row hrow
    rcases (s.rows.mem_put_iff _ _).1 hrow with rfl | ⟨hrow, -⟩
    · rw [upsertRow_payload]
      unfold upsertRow
      split
      · rfl
      · next old hget =>
          have hpay : s.records.get? run.runId = some old.payload := by
            rw [← getRun_eq, getRun, hget]; rfl
          rw [← hold _ hpay]
          exact h old (mem_of_get? hget)
    · exact h row hrow

theorem renewLease_created (h : s.CreatedInStep) (runId ownerId : String)
    (lease : Duration) (now : Instant) : (s.renewLease runId ownerId lease now).1.CreatedInStep :=
  h.update (fun _ => ⟨rfl, rfl⟩)

theorem redriveRun_created (h : s.CreatedInStep) (runId : String)
    (workspaceId : Option String) (now : Instant) :
    (s.redriveRun runId workspaceId now).1.CreatedInStep :=
  h.update (fun _ => ⟨rfl, rfl⟩)

theorem claimRunForResume_created (h : s.CreatedInStep)
    (runId workspaceId : String) (now : Instant) :
    (s.claimRunForResume runId workspaceId now).1.CreatedInStep :=
  h.update (fun _ => ⟨rfl, rfl⟩)

theorem requeueExpiredLeases_created (h : s.CreatedInStep) (now : Instant)
    (lanes : Option (List String)) : (s.requeueExpiredLeases now lanes).1.CreatedInStep := by
  simp only [requeueExpiredLeases]
  split
  · exact h
  · split
    · exact h
    · exact h.update (fun _ => ⟨rfl, rfl⟩)

theorem CreatedInStep.claim {s : SqliteRunStore} (h : s.CreatedInStep) (ownerId : String)
    (lease : Duration) (lanes : Option (List String)) (now : Instant) (fairness : Bool)
    (workspaceConcurrency : Int) :
    (s.claimNextQueuedRun ownerId lease lanes now fairness workspaceConcurrency).1.CreatedInStep := by
  simp only [claimNextQueuedRun]
  generalize (if fairness = true then s.selectFairTarget lanes now workspaceConcurrency
    else s.selectTarget lanes now) = target
  split
  · exact h
  · cases target with
    | none => exact h
    | some row => exact h.update (fun _ => ⟨rfl, rfl⟩)

end SqliteRunStore

namespace InMemoryRunStore

variable (m : InMemoryRunStore)

theorem renewLease_index (runId ownerId : String) (lease : Duration) (now : Instant) :
    (m.renewLease runId ownerId lease now).1.runsByIdempotency = m.runsByIdempotency := by
  unfold renewLease
  split
  · rfl
  · split <;> rfl

theorem redriveRun_index (runId : String) (workspaceId : Option String) (now : Instant) :
    (m.redriveRun runId workspaceId now).1.runsByIdempotency = m.runsByIdempotency := by
  unfold redriveRun
  split
  · rfl
  · split <;> rfl

theorem claimRunForResume_index (runId workspaceId : String) (now : Instant) :
    (m.claimRunForResume runId workspaceId now).1.runsByIdempotency = m.runsByIdempotency := by
  unfold claimRunForResume
  split
  · rfl
  · split <;> rfl

end InMemoryRunStore

namespace Simulates

variable {m m' : InMemoryRunStore} {s s' : SqliteRunStore}

/-! ## Reads -/

section

variable (h : Simulates m s)

include h

theorem getRun_eq (runId : String) : s.getRun runId = m.getRun runId := by
  rw [SqliteRunStore.getRun_eq, h.records]; rfl

theorem load_keyRun (ws key : String) : m.loadRunByIdempotency ws key = m.runs.keyRun ws key := by
  have hindex := h.index ws key
  unfold InMemoryRunStore.loadRunByIdempotency
  cases hrun : m.runs.keyRun ws key with
  | none =>
    rw [hrun, Option.map_none, Option.map_eq_none_iff] at hindex
    rw [hindex]; rfl
  | some r =>
    rw [hrun, Option.map_some, Option.map_eq_some_iff] at hindex
    obtain ⟨e, he, hid⟩ := hindex
    rw [he, Option.bind_some, hid]
    exact m.runs.get?_of_mem (List.mem_of_find?_eq_some hrun)

theorem loadRunByIdempotency_eq (ws key : String) :
    s.loadRunByIdempotency ws key = m.loadRunByIdempotency ws key := by
  rw [SqliteRunStore.loadRunByIdempotency_eq, h.records, h.load_keyRun]

theorem existing_eq (run : RunRecord) :
    s.existingByIdempotency run = m.existingByIdempotency run := by
  unfold SqliteRunStore.existingByIdempotency InMemoryRunStore.existingByIdempotency
  cases run.idempotencyKey with
  | none => rfl
  | some key => exact h.loadRunByIdempotency_eq run.workspaceId key

theorem countActive_eq (ws : String) :
    s.countActiveRunsForWorkspace ws = m.countActiveRunsForWorkspace ws := by
  rw [SqliteRunStore.countActiveRunsForWorkspace_eq, h.records]; rfl

/-! ## Edits in place -/

theorem of_edit {f : RunRecord → RunRecord} (hf : ∀ r ∈ m.runs.items, SameIdentity (f r) r)
    (hruns : m'.runs.items = m.runs.items.map f)
    (hindex : m'.runsByIdempotency = m.runsByIdempotency) (hrecords : s'.records = m'.runs)
    (hcreated : s'.CreatedInStep) : Simulates m' s' where
  records := hrecords
  index ws key := by
    rw [hindex, h.index, RunTable.keyRun_map hruns hf]
  created := hcreated
  sorted := by
    rw [hruns, List.pairwise_map]
    exact h.sorted.imp_of_mem (fun {a b} ha hb hab => by
      rw [(hf a ha).createdAt, (hf b hb).createdAt]; exact hab)

theorem of_put (run : RunRecord) {old : RunRecord}
    (hold : m.runs.get? run.runId = some old) (hsame : SameIdentity run old)
    (hruns : m'.runs = m.runs.put run)
    (hindex : m'.runsByIdempotency = m.runsByIdempotency) (hrecords : s'.records = m'.runs)
    (hcreated : s'.CreatedInStep) : Simulates m' s' := by
  refine h.of_edit (f := fun r => if r.runId = run.runId then run else r) (fun r hr => ?_)
    (by rw [hruns, KeyedList.items_put_of_some _ _ _ hold]) hindex hrecords hcreated
  split
  · next hid =>
      rw [m.runs.eq_of_key_eq hr (mem_of_get? hold)
        (hid.trans (key_of_get? hold).symm)]
      exact hsame
  · exact SameIdentity.refl r

theorem of_updateIf {k : String} {p : RunRecord → Bool} {f : RunRecord → RunRecord} {b b' : Bool}
    (hm : (m'.runs, b) = m.runs.updateIf k p f) (hs : (s'.records, b') = s.records.updateIf k p f)
    (hf : ∀ r, SameIdentity (f r) r) (hindex : m'.runsByIdempotency = m.runsByIdempotency) (hcreated : s'.CreatedInStep) :
    Simulates m' s' ∧ b = b' := by
  rw [h.records, ← hm] at hs
  obtain ⟨hrecords, hb⟩ := Prod.mk.injEq .. ▸ hs
  refine ⟨?_, hb.symm⟩
  by_cases hedit : ∃ r, m.runs.get? k = some r ∧ p r = true
  · obtain ⟨r, hget, hp⟩ := hedit
    rw [m.runs.updateIf_of_pos f hget hp] at hm
    have hk : (f r).runId = k := (hf r).runId.trans (key_of_get? hget)
    exact h.of_put (f r) (by rw [hk]; exact hget) (hf r) (congrArg Prod.fst hm) hindex hrecords hcreated
  · rw [m.runs.updateIf_of_neg f (fun r hget => by
      by_contra hp
      exact hedit ⟨r, hget, by simpa using hp⟩)] at hm
    exact h.of_edit (f := id) (fun r _ => SameIdentity.refl r)
      (by rw [List.map_id]; exact congrArg (fun u => u.1.items) hm) hindex hrecords hcreated

/-! ## Saves and creates -/

theorem indexIdempotency_of_held {run old : RunRecord}
    (hold : m.runs.get? run.runId = some old) (hsame : SameIdentity run old) :
    m.indexIdempotency run = m := by
  unfold InMemoryRunStore.indexIdempotency
  cases hkey : run.idempotencyKey with
  | none => rfl
  | some key =>
    dsimp only
    cases hget : m.runsByIdempotency.get? (run.workspaceId, key) with
    | some _ => rfl
    | none =>
      exfalso
      have hindex := h.index run.workspaceId key
      rw [hget, Option.map_none, eq_comm, Option.map_eq_none_iff, RunTable.keyRun,
        List.find?_eq_none] at hindex
      refine hindex old (mem_of_get? hold) ?_
      simp [RunRecord.holdsKey, ← hsame.workspaceId, ← hsame.idempotencyKey, hkey]

theorem save {run old : RunRecord} (now : Instant)
    (hold : m.runs.get? run.runId = some old) (hsame : SameIdentity run old) :
    ∃ s', s.saveRun run now = some s' ∧ Simulates (m.saveRun run now) s' := by
  have hold' : s.records.get? run.runId = some old := by rw [h.records]; exact hold
  obtain ⟨s', hs'⟩ := SqliteRunStore.saveRun_isSome now hold' hsame.workspaceId.symm
    hsame.idempotencyKey.symm
  have hstamped : SameIdentity (run.stamped now) old := ⟨hsame.1, hsame.2, hsame.3, hsame.4⟩
  refine ⟨s', hs', h.of_put (run.stamped now) hold hstamped
    (m.runs_insert run now) ?_ ?_ ?_⟩
  · simp only [InMemoryRunStore.saveRun, InMemoryRunStore.insert,
      h.indexIdempotency_of_held hold hsame]
  · rw [SqliteRunStore.saveRun_records hs', h.records]
    exact (m.runs_insert run now).symm
  · refine SqliteRunStore.CreatedInStep.upsert h.created hs' (fun old' hget => ?_)
    rw [show (run.stamped now).runId = run.runId from rfl, hold', Option.some.injEq] at hget
    rw [← hget]; exact hsame.createdAt.symm

theorem insert {run : RunRecord} (now : Instant)
    (hnew : m.runs.get? run.runId = none) (hlast : ∀ r ∈ m.runs.items, r.createdAt ≤ run.createdAt)
    (hkey : m.existingByIdempotency run = none) :
    ∃ s', s.upsert (run.stamped now) = some s' ∧ Simulates (m.insert run now) s' := by
  obtain ⟨s', hs'⟩ := SqliteRunStore.upsert_of_no_holder (by rw [h.existing_eq]; exact hkey) now
  have hruns := m.runs_insert run now
  have hitems : (m.insert run now).runs.items = m.runs.items ++ [run.stamped now] := by
    rw [hruns]; exact KeyedList.items_put_of_none _ (run.stamped now) hnew
  refine ⟨s', hs', ?_, ?_, ?_, ?_⟩
  · rw [SqliteRunStore.upsert_records hs', h.records, hruns]
  · intro ws key
    have hold := h.index ws key
    rw [RunTable.keyRun] at hold ⊢
    rw [hitems, List.find?_append]
    simp only [InMemoryRunStore.insert, InMemoryRunStore.indexIdempotency]
    cases hk : run.idempotencyKey with
    | none =>
      have hmiss : [run.stamped now].find? (RunRecord.holdsKey ws key) = none := by
        simp [RunRecord.holdsKey, RunRecord.stamped, hk]
      rw [hmiss, Option.or_none]; exact hold
    | some k =>
      have hnone : m.runsByIdempotency.get? (run.workspaceId, k) = none := by
        rw [InMemoryRunStore.existingByIdempotency, hk, Option.bind_some, h.load_keyRun] at hkey
        have := h.index run.workspaceId k
        rwa [hkey, Option.map_none, Option.map_eq_none_iff] at this
      dsimp only
      rw [hnone]
      dsimp only
      rw [get?_put]
      by_cases hmine : (ws, key) = (run.workspaceId, k)
      · obtain ⟨rfl, rfl⟩ := Prod.mk.injEq .. ▸ hmine
        rw [hnone, Option.map_none, eq_comm, Option.map_eq_none_iff] at hold
        rw [if_pos rfl, hold]
        simp [RunRecord.holdsKey, RunRecord.stamped, hk]
      · have hmiss : [run.stamped now].find? (RunRecord.holdsKey ws key) = none := by
          have : ¬ (run.workspaceId = ws ∧ k = key) := fun hx => hmine (by rw [hx.1, hx.2])
          simpa [RunRecord.holdsKey, RunRecord.stamped, hk] using this
        rw [if_neg hmine, hmiss, Option.or_none]; exact hold
  · refine SqliteRunStore.CreatedInStep.upsert h.created hs' (fun old hget => ?_)
    rw [h.records] at hget
    exact absurd hget (by rw [show (run.stamped now).runId = run.runId from rfl, hnew]; simp)
  · rw [hitems, List.pairwise_append]
    exact ⟨h.sorted, List.pairwise_singleton _ _, fun a ha b hb => by
      rw [List.mem_singleton.1 hb]; exact hlast a ha⟩

end

/-! ## The claim -/

def NoneScheduledLater (m : InMemoryRunStore) (lanes : Option (List String)) (now : Instant) :
    Prop :=
  ∀ r ∈ m.runs.items, r.status = .queued → r.nextAttemptAt = none → r.inLanes lanes = true →
    r.createdAt ≤ now

theorem ready_eq {lanes : Option (List String)} {now : Instant}
    (hsched : NoneScheduledLater m lanes now) :
    ∀ r ∈ m.runs.items, InMemoryRunStore.isReady now lanes r = r.claimable now lanes := by
  intro r hr
  unfold InMemoryRunStore.isReady RunRecord.claimable RunRecord.dueAt
  cases hnext : r.nextAttemptAt with
  | some due => rfl
  | none =>
    rw [Option.all_none, Option.getD_none]
    by_cases hq : r.status = .queued
    · by_cases hl : r.inLanes lanes = true
      · simp [hq, hl, hsched r hr hq hnext hl]
      · simp [hl]
    · simp [hq]

theorem load_eq (h : Simulates m s) (now : Instant) (ws : String) : m.load now ws = s.load now ws := by
  unfold InMemoryRunStore.load SqliteRunStore.load
  rw [← h.records, SqliteRunStore.items_records, List.countP_map]
  refine List.countP_congr (fun row hrow => ?_)
  have hstep := s.inStep row hrow
  simp [InMemoryRunStore.liveLeased, hstep.workspaceId, hstep.status, hstep.leaseExpiresAt,
    and_comm, and_assoc]

/-- Among records in `created_at` order, the tie-breaker `created_at` of the Python sort decides
    nothing that the row order does not. -/
theorem argmin_fair_key {l : List RunRecord} (hsorted : l.Pairwise (fun a b => a.createdAt ≤ b.createdAt))
    (load : String → Nat) :
    l.argmin (fun r => toLex (load r.workspaceId, toLex (r.dueAt, r.createdAt)))
      = l.argmin (fun r => toLex (load r.workspaceId, r.dueAt)) := by
  refine FirstMin.argmin_congr_of_pairwise (hsorted.imp (fun {c b} hcb => ?_))
  simp only [Prod.Lex.toLex_lt_toLex]
  constructor
  · rintro (hlt | ⟨heq, hlt | ⟨-, hlt⟩⟩)
    · exact Or.inl hlt
    · exact Or.inr ⟨heq, hlt⟩
    · exact absurd hlt (not_lt_of_ge hcb)
  · rintro (hlt | ⟨heq, hlt⟩)
    · exact Or.inl hlt
    · exact Or.inr ⟨heq, Or.inl hlt⟩

theorem dueColumn_eq {row : RunRow} (hrow : row ∈ s.rows.items) :
    row.dueColumn = ((row.payload.dueAt : Int) : WithBot Int) :=
  (s.inStep row hrow).nextAttemptAt

section

variable (h : Simulates m s)

include h

variable {lanes : Option (List String)}

theorem ready_filter_eq {now : Instant} (hsched : NoneScheduledLater m lanes now) :
    m.runs.items.filter (InMemoryRunStore.isReady now lanes)
      = (s.rows.items.filter (SqliteRunStore.isReady now lanes)).map RunRow.payload := by
  rw [List.filter_congr (ready_eq hsched), ← h.records, SqliteRunStore.items_records,
    List.filter_map]
  exact congrArg (List.map RunRow.payload)
    (List.filter_congr (fun row hrow => (SqliteRunStore.isReady_eq hrow now lanes).symm))

theorem claimTarget_eq {now : Instant}
    (hsched : NoneScheduledLater m lanes now) (fairness : Bool) (workspaceConcurrency : Int) :
    m.claimTarget lanes now fairness workspaceConcurrency
      = (s.claimTarget lanes now fairness workspaceConcurrency).map RunRow.payload := by
  have hready := h.ready_filter_eq hsched
  have hsorted := h.sorted.sublist
    (List.filter_sublist (p := InMemoryRunStore.isReady now lanes))
  have hall : ∀ l : List RunRow, l.Pairwise (fun _ _ => True) := fun l =>
    List.pairwise_of_forall (fun _ _ => trivial)
  cases fairness with
  | false =>
    simp only [InMemoryRunStore.claimTarget, SqliteRunStore.claimTarget, Bool.false_eq_true,
      if_false]
    rw [FirstMin.argmin_lex_of_pairwise hsorted, hready, FirstMin.argmin_map]
    refine congrArg (Option.map RunRow.payload) (FirstMin.argmin_congr_of_pairwise ?_)
    refine (hall _).imp_of_mem (fun {c b} hc hb _ => ?_)
    rw [dueColumn_eq (List.mem_of_mem_filter hc), dueColumn_eq (List.mem_of_mem_filter hb),
      WithBot.coe_lt_coe]
  | true =>
    simp only [InMemoryRunStore.claimTarget, SqliteRunStore.claimTarget, if_true]
    -- The cap filters the ready records in Python and the candidate rows in SQL.
    have hcap : (if 0 < workspaceConcurrency then
          (m.runs.items.filter (InMemoryRunStore.isReady now lanes)).filter
            (fun r => (m.load now r.workspaceId : Int) < workspaceConcurrency)
        else m.runs.items.filter (InMemoryRunStore.isReady now lanes))
        = (s.rows.items.filter (fun row => SqliteRunStore.isReady now lanes row
            && (workspaceConcurrency ≤ 0
              || (s.load now row.workspaceId : Int) < workspaceConcurrency))).map
            RunRow.payload := by
      split
      · next hpos =>
          rw [hready, List.filter_map, List.filter_filter]
          refine congrArg (List.map RunRow.payload) (List.filter_congr (fun row hrow => ?_))
          rw [Function.comp_apply, h.load_eq, ← (s.inStep row hrow).workspaceId, Bool.and_comm]
          simp [not_le.2 hpos]
      · next hpos =>
          rw [hready]
          refine congrArg (List.map RunRow.payload) (List.filter_congr (fun row _ => ?_))
          simp [not_lt.1 hpos]
    have hsorted' : (if 0 < workspaceConcurrency then
          (m.runs.items.filter (InMemoryRunStore.isReady now lanes)).filter
            (fun r => (m.load now r.workspaceId : Int) < workspaceConcurrency)
        else m.runs.items.filter (InMemoryRunStore.isReady now lanes)).Pairwise
          (fun a b => a.createdAt ≤ b.createdAt) := by
      split
      · exact hsorted.sublist List.filter_sublist
      · exact hsorted
    rw [argmin_fair_key hsorted' (m.load now), hcap, FirstMin.argmin_map]
    refine congrArg (Option.map RunRow.payload) (FirstMin.argmin_congr_of_pairwise ?_)
    refine (hall _).imp_of_mem (fun {c b} hc hb _ => ?_)
    have hc := List.mem_of_mem_filter hc
    have hb := List.mem_of_mem_filter hb
    simp only [Prod.Lex.toLex_lt_toLex, dueColumn_eq hc, dueColumn_eq hb, WithBot.coe_lt_coe,
      h.load_eq, ← (s.inStep c hc).workspaceId, ← (s.inStep b hb).workspaceId]

theorem claim {now : Instant}
    (hsched : NoneScheduledLater m lanes now) (ownerId : String) (lease : Duration)
    (fairness : Bool) (workspaceConcurrency : Int) :
    Simulates (m.claimNextQueuedRun ownerId lease lanes now fairness workspaceConcurrency).1
        (s.claimNextQueuedRun ownerId lease lanes now fairness workspaceConcurrency).1
      ∧ (m.claimNextQueuedRun ownerId lease lanes now fairness workspaceConcurrency).2
        = (s.claimNextQueuedRun ownerId lease lanes now fairness workspaceConcurrency).2 := by
  have htarget := h.claimTarget_eq hsched fairness workspaceConcurrency
  unfold InMemoryRunStore.claimNextQueuedRun
  by_cases hlanes : lanes = some []
  · rw [if_pos hlanes, s.claimNextQueuedRun_of_no_target ownerId lease (Or.inl hlanes)]
    exact ⟨h, rfl⟩
  rw [if_neg hlanes, htarget]
  cases hrow : s.claimTarget lanes now fairness workspaceConcurrency with
  | none =>
    rw [s.claimNextQueuedRun_of_no_target ownerId lease (Or.inr hrow)]
    exact ⟨h, rfl⟩
  | some row =>
    obtain ⟨hrecords, hans⟩ := s.claimNextQueuedRun_of_target ownerId lease hlanes hrow
    obtain ⟨hmem, -⟩ := SqliteRunStore.claimTarget_ready hrow
    have hget : m.runs.get? row.payload.runId = some row.payload := by
      rw [← h.records, ← (s.inStep row hmem).runId]
      exact SqliteRunStore.get?_records_of_mem hmem
    refine ⟨h.of_put (row.payload.claimedBy ownerId (isoPlusSeconds now lease) now) hget
      ⟨rfl, rfl, rfl, rfl⟩ rfl rfl ?_ ?_, hans.symm⟩
    · rw [hrecords, h.records]; rfl
    · exact SqliteRunStore.CreatedInStep.claim h.created _ _ _ _ _ _

/-! ## Retention -/

theorem heldBy_eq (runId ownerId : String) :
    s.rows.items.any (fun row => row.runId = runId && row.ownerId = some ownerId)
      = (m.runs.get? runId).any (fun old => old.ownerId = some ownerId) := by
  rw [Bool.eq_iff_iff, List.any_eq_true, ← h.records]
  constructor
  · rintro ⟨row, hrow, hheld⟩
    simp only [Bool.and_eq_true, decide_eq_true_eq] at hheld
    rw [← hheld.1, SqliteRunStore.get?_records_of_mem hrow, Option.any_some,
      ← (s.inStep row hrow).ownerId]
    simpa using hheld.2
  · intro hany
    cases hget : s.records.get? runId with
    | none => rw [hget] at hany; simp at hany
    | some old =>
      obtain ⟨row, hrow, rfl⟩ := List.mem_map.1 (mem_of_get? hget)
      have hstep := s.inStep row hrow
      rw [hget, Option.any_some, ← hstep.ownerId] at hany
      refine ⟨row, hrow, ?_⟩
      rw [hstep.runId, key_of_get? hget]
      simpa using hany

theorem holder_unique {ws key : String} {a b : RunRecord}
    (ha : a ∈ m.runs.items) (hb : b ∈ m.runs.items) (hak : a.holdsKey ws key = true)
    (hbk : b.holdsKey ws key = true) : a = b := by
  simp only [RunRecord.holdsKey, Bool.and_eq_true, decide_eq_true_eq] at hak hbk
  refine m.runs.eq_of_key_eq ha hb ?_
  rw [← h.records] at ha hb
  obtain ⟨rowa, hrowa, rfl⟩ := List.mem_map.1 ha
  obtain ⟨rowb, hrowb, rfl⟩ := List.mem_map.1 hb
  have hsa := s.inStep rowa hrowa
  have hsb := s.inStep rowb hrowb
  rw [← hsa.runId, ← hsb.runId]
  refine s.uniqueKeys rowa hrowa rowb hrowb ?_ ?_ ?_
  · rw [hsa.workspaceId, hsb.workspaceId, hak.1, hbk.1]
  · rw [hsa.idempotencyKey, hsb.idempotencyKey, hak.2, hbk.2]
  · rw [hsa.idempotencyKey, hak.2]; simp

theorem keyRun_filter (keep : RunRecord → Bool) (ws key : String) :
    RunTable.keyRun (m.runs.filter keep) ws key = (m.runs.keyRun ws key).filter keep := by
  unfold RunTable.keyRun
  rw [items_filter]
  cases hfind : m.runs.items.find? (RunRecord.holdsKey ws key) with
  | none =>
    rw [Option.filter_none, List.find?_eq_none]
    exact fun r hr => List.find?_eq_none.1 hfind r (List.mem_of_mem_filter hr)
  | some r =>
    have hr := List.mem_of_find?_eq_some hfind
    have hk := List.find?_some hfind
    by_cases hkeep : keep r = true
    · rw [Option.filter_some_pos hkeep]
      cases hfind' : (m.runs.items.filter keep).find? (RunRecord.holdsKey ws key) with
      | none =>
        exact absurd hk (List.find?_eq_none.1 hfind' r (List.mem_filter.2 ⟨hr, hkeep⟩))
      | some r' =>
        have hr' := List.mem_of_mem_filter (List.mem_of_find?_eq_some hfind')
        rw [h.holder_unique hr' hr (List.find?_some hfind') hk]
    · rw [Option.filter_some_neg (by simpa using hkeep), List.find?_eq_none]
      intro r' hr' hk'
      obtain ⟨hr', hkeep'⟩ := List.mem_filter.1 hr'
      rw [h.holder_unique hr' hr hk' hk] at hkeep'
      exact hkeep hkeep'

theorem terminal_eq :
    ((s.rows.items.filter (fun row => row.status ∉ activeRunStatuses)).insertionSort
        (fun a b => a.createdAt ≤ b.createdAt)).map (fun row => (row.runId, row.createdAt))
      = (m.runs.items.filter (fun r => !r.isActive)).map (fun r => (r.runId, r.createdAt)) := by
  have hterm : m.runs.items.filter (fun r => !r.isActive)
      = (s.rows.items.filter (fun row => row.status ∉ activeRunStatuses)).map RunRow.payload := by
    rw [← h.records, SqliteRunStore.items_records, List.filter_map]
    refine congrArg (List.map RunRow.payload) (List.filter_congr (fun row hrow => ?_))
    simp [RunRecord.isActive, (s.inStep row hrow).status]
  have hsorted : (s.rows.items.filter (fun row => row.status ∉ activeRunStatuses)).Pairwise
      (fun a b => a.createdAt ≤ b.createdAt) := by
    have hpay := h.sorted
    rw [← h.records, SqliteRunStore.items_records, List.pairwise_map] at hpay
    refine (hpay.sublist List.filter_sublist).imp_of_mem (fun {a b} ha hb hab => ?_)
    rw [h.created a (List.mem_of_mem_filter ha), h.created b (List.mem_of_mem_filter hb)]
    exact hab
  rw [hsorted.insertionSort_eq, hterm, List.map_map]
  refine List.map_congr_left (fun row hrow => ?_)
  have hrow := List.mem_of_mem_filter hrow
  simp [(s.inStep row hrow).runId, h.created row hrow]

theorem victims_eq (olderThan : Option Duration) (keepLast : Option Int) (now : Instant) :
    SqliteRunStore.pruneVictims
        ((s.rows.items.filter (fun row => row.status ∉ activeRunStatuses)).insertionSort
          (fun a b => a.createdAt ≤ b.createdAt)) olderThan keepLast now = pruneVictimsByCreatedAt
          ((m.runs.items.filter (fun r => !r.isActive)).map (fun r => (r.runId, r.createdAt)))
          olderThan keepLast now := by
  have hsorted : ((m.runs.items.filter (fun r => !r.isActive)).map
      (fun r => (r.runId, r.createdAt))).Pairwise (fun a b => a.2 ≤ b.2) := by
    rw [List.pairwise_map]
    exact h.sorted.sublist List.filter_sublist
  unfold pruneVictimsByCreatedAt SqliteRunStore.pruneVictims
  rw [hsorted.insertionSort_eq, ← h.terminal_eq]
  generalize (s.rows.items.filter (fun row => row.status ∉ activeRunStatuses)).insertionSort
    (fun a b => a.createdAt ≤ b.createdAt) = rows
  refine congrArg₂ (· ++ ·) ?_ ?_
  · cases olderThan with
    | none => rfl
    | some days => simp [List.filter_map, Function.comp_def]
  · cases keepLast with
    | none => rfl
    | some n =>
      dsimp only
      split
      · simp
      · rw [List.length_map, pySlicePrefix_map]; simp

end

theorem delete_records {p : RunRecord → Bool} {cond : RunRow → Bool}
    (hcond : ∀ row ∈ s.rows.items, cond row = p row.payload) :
    (s.delete cond).records = s.records.filter (fun r => !p r) := by
  apply ext
  rw [SqliteRunStore.items_records, items_filter, SqliteRunStore.items_records,
    SqliteRunStore.delete, items_filter, List.filter_map]
  exact congrArg (List.map RunRow.payload)
    (List.filter_congr (fun row hrow => by rw [hcond row hrow]; rfl))

theorem prune (h : Simulates m s) (olderThan : Option Duration) (keepLast : Option Int)
    (now : Instant) :
    Simulates (m.pruneRuns olderThan keepLast now).1 (s.pruneRuns olderThan keepLast now).1
      ∧ (m.pruneRuns olderThan keepLast now).2 = (s.pruneRuns olderThan keepLast now).2 := by
  unfold InMemoryRunStore.pruneRuns SqliteRunStore.pruneRuns
  by_cases hbound : olderThan = none ∧ keepLast = none
  · rw [if_pos hbound, if_pos hbound]; exact ⟨h, rfl⟩
  rw [if_neg hbound, if_neg hbound]
  dsimp only
  rw [h.victims_eq olderThan keepLast now]
  generalize pruneVictimsByCreatedAt _ olderThan keepLast now = doomed
  refine ⟨⟨?_, fun ws key => ?_, ?_, h.sorted.sublist List.filter_sublist⟩, rfl⟩
  · rw [delete_records (p := fun r => decide (r.runId ∈ doomed)) (fun row hrow => by
      simp only [(s.inStep row hrow).runId, List.mem_dedup]), h.records]
    simp
  · rw [h.keyRun_filter, KeyedList.get?_filter]
    have hindex := h.index ws key
    cases hrun : m.runs.keyRun ws key with
    | none =>
      rw [hrun, Option.map_none, Option.map_eq_none_iff] at hindex
      rw [hindex]; rfl
    | some r =>
      rw [hrun, Option.map_some, Option.map_eq_some_iff] at hindex
      obtain ⟨e, he, hid⟩ := hindex
      have hr := List.mem_of_find?_eq_some hrun
      have hk := List.find?_some hrun
      have hke : e.1 = (ws, key) := key_of_get? he
      rw [he]
      -- The index entry goes exactly when the run that holds the key goes.
      have hentry : ((m.runs.items.filter (fun r => r.runId ∈ doomed)).any
          (fun r => r.workspaceId = e.1.1 && r.idempotencyKey = some e.1.2))
          = decide (r.runId ∈ doomed) := by
        rw [hke, Bool.eq_iff_iff, List.any_eq_true, decide_eq_true_eq]
        constructor
        · rintro ⟨r', hr', hk'⟩
          obtain ⟨hr', hin⟩ := List.mem_filter.1 hr'
          rw [h.holder_unique hr hr' hk hk']
          simpa using hin
        · exact fun hin => ⟨r, List.mem_filter.2 ⟨hr, by simpa using hin⟩, hk⟩
      simp only [Option.filter_some, hentry]
      by_cases hin : r.runId ∈ doomed <;> simp [hin, hid]
  · exact fun row hrow => h.created row (List.mem_of_mem_filter hrow)

/-! ## Every call -/

end Simulates

/-- Two answers name the same runs and give the same boolean; the run ids of a reap are compared as
    a collection, since the `SELECT` of the SQL reaper asks for no order. -/
def StoreAnswer.Same : StoreAnswer → StoreAnswer → Prop
  | .requeued runIds, .requeued runIds' => runIds.Perm runIds'
  | a, b => a = b

theorem StoreAnswer.same_of_eq {a b : StoreAnswer} (h : a = b) : a.Same b := by
  subst h
  cases a with
  | requeued runIds => exact List.Perm.refl runIds
  | _ => rfl

instance (a b : RunRecord) : Decidable (SameIdentity a b) :=
  decidable_of_iff (a.runId = b.runId ∧ a.workspaceId = b.workspaceId
      ∧ a.idempotencyKey = b.idempotencyKey ∧ a.createdAt = b.createdAt)
    ⟨fun ⟨h₁, h₂, h₃, h₄⟩ => ⟨h₁, h₂, h₃, h₄⟩, fun h => ⟨h.1, h.2, h.3, h.4⟩⟩

/-- The calls the comparison is about: a save writes a stored run, a create submits a new run id,
    and runs are created in `created_at` order. -/
def InDomain (m : InMemoryRunStore) : TimedCall → Prop
  | (_, .saveRun run) => ∃ old ∈ m.getRun run.runId, SameIdentity run old
  | (_, .saveRunIfOwner run _) => ∀ old ∈ m.getRun run.runId, SameIdentity run old
  | (_, .saveRunIfAbsentByIdempotency run) =>
    m.getRun run.runId = none ∧ ∀ r ∈ m.runs.items, r.createdAt ≤ run.createdAt
  | (_, .saveRunIfUnderQuota run _) =>
    m.getRun run.runId = none ∧ ∀ r ∈ m.runs.items, r.createdAt ≤ run.createdAt
  | _ => True

/-- The calls on which the stores agree: no create with a disabled cap re-submits a stored key, and
    no claim finds a queued run without a schedule that was created later than now. -/
def Avoids (m : InMemoryRunStore) : TimedCall → Prop
  | (_, .saveRunIfUnderQuota run cap) => cap ≤ 0 → m.existingByIdempotency run = none
  | (now, .claimNextQueuedRun _ _ lanes _ _) => Simulates.NoneScheduledLater m lanes now
  | _ => True

instance (m : InMemoryRunStore) (c : TimedCall) : Decidable (InDomain m c) := by
  obtain ⟨now, call⟩ := c
  cases call <;> unfold InDomain <;> infer_instance

instance (m : InMemoryRunStore) (c : TimedCall) : Decidable (Avoids m c) := by
  obtain ⟨now, call⟩ := c
  cases call <;> unfold Avoids <;> (try unfold Simulates.NoneScheduledLater) <;> infer_instance

theorem Simulates.serve {m : InMemoryRunStore} {s : SqliteRunStore} (h : Simulates m s)
    {c : TimedCall} (hdom : InDomain m c) (hav : Avoids m c) :
    Simulates (m.serve c).1 (s.serve c).1 ∧ (m.serve c).2.Same (s.serve c).2 := by
  obtain ⟨now, call⟩ := c
  cases call with
  | saveRun run =>
    obtain ⟨old, hold, hsame⟩ := hdom
    obtain ⟨s', hs', hsim⟩ := h.save now hold hsame
    simp only [InMemoryRunStore.serve, SqliteRunStore.serve, hs']
    exact ⟨hsim, StoreAnswer.same_of_eq rfl⟩
  | saveRunIfOwner run ownerId =>
    simp only [InMemoryRunStore.serve, SqliteRunStore.serve, InMemoryRunStore.saveRunIfOwner,
      SqliteRunStore.saveRunIfOwner, h.heldBy_eq]
    cases hold : m.runs.get? run.runId with
    | none => exact ⟨h, StoreAnswer.same_of_eq rfl⟩
    | some old =>
      obtain ⟨s', hs', hsim⟩ := h.save now hold (hdom old hold)
      rw [SqliteRunStore.saveRun] at hs'
      by_cases howner : old.ownerId = some ownerId
      · simp only [Option.any_some, howner, decide_true, if_true, hs', Option.map_some,
          ne_eq, not_true_eq_false, if_false]
        exact ⟨hsim, StoreAnswer.same_of_eq rfl⟩
      · simp only [Option.any_some, howner, decide_false, Bool.false_eq_true, if_false,
          ne_eq, not_false_eq_true, if_true]
        exact ⟨h, StoreAnswer.same_of_eq rfl⟩
  | saveRunIfAbsentByIdempotency run =>
    simp only [InMemoryRunStore.serve, SqliteRunStore.serve,
      InMemoryRunStore.saveRunIfAbsentByIdempotency,
      SqliteRunStore.saveRunIfAbsentByIdempotency, h.existing_eq]
    cases hex : m.existingByIdempotency run with
    | some existing => exact ⟨h, StoreAnswer.same_of_eq rfl⟩
    | none =>
      obtain ⟨s', hs', hsim⟩ := h.insert now hdom.1 hdom.2 hex
      simp only [hs', Option.map_some]
      exact ⟨hsim, StoreAnswer.same_of_eq rfl⟩
  | saveRunIfUnderQuota run cap =>
    simp only [InMemoryRunStore.serve, SqliteRunStore.serve,
      InMemoryRunStore.saveRunIfUnderQuota, SqliteRunStore.saveRunIfUnderQuota,
      SqliteRunStore.saveRunIfUnderQuotaSync, SqliteRunStore.saveRunIfAbsentByIdempotency,
      h.existing_eq, h.countActive_eq]
    by_cases hcap : cap ≤ 0
    · have hex := hav hcap
      obtain ⟨s', hs', hsim⟩ := h.insert now hdom.1 hdom.2 hex
      simp only [hex, hcap, not_lt.2 hcap, if_true, false_and, if_false, hs', Option.map_some]
      exact ⟨hsim, StoreAnswer.same_of_eq rfl⟩
    · cases hex : m.existingByIdempotency run with
      | some existing =>
        simp only [hcap, if_false]
        exact ⟨h, StoreAnswer.same_of_eq rfl⟩
      | none =>
        obtain ⟨s', hs', hsim⟩ := h.insert now hdom.1 hdom.2 hex
        by_cases hfull : cap ≤ m.countActiveRunsForWorkspace run.workspaceId
        · simp only [hcap, not_le.1 hcap, hfull, if_true, if_false, true_and]
          exact ⟨h, StoreAnswer.same_of_eq rfl⟩
        · simp only [hcap, hfull, if_false, and_false, hs', Option.map_some]
          exact ⟨hsim, StoreAnswer.same_of_eq rfl⟩
  | claimNextQueuedRun ownerId lease lanes fairness workspaceConcurrency =>
    obtain ⟨hsim, hans⟩ := h.claim hav ownerId lease fairness workspaceConcurrency
    exact ⟨hsim, StoreAnswer.same_of_eq (congrArg StoreAnswer.claimed hans)⟩
  | renewLease runId ownerId lease =>
    obtain ⟨hsim, hans⟩ := h.of_updateIf
      (m.renewLease_runs runId ownerId lease now) (s.renewLease_records runId ownerId lease now)
      (fun _ => ⟨rfl, rfl, rfl, rfl⟩) (m.renewLease_index runId ownerId lease now)
      (s.renewLease_created h.created runId ownerId lease now)
    exact ⟨hsim, StoreAnswer.same_of_eq (congrArg StoreAnswer.flag hans)⟩
  | requeueExpiredLeases lanes =>
    by_cases hlanes : lanes = some []
    · subst hlanes
      simp only [InMemoryRunStore.serve, SqliteRunStore.serve,
        SqliteRunStore.requeueExpiredLeases_no_lane, InMemoryRunStore.requeueExpiredLeases,
        if_true]
      exact ⟨h, StoreAnswer.same_of_eq rfl⟩
    · simp only [InMemoryRunStore.serve, SqliteRunStore.serve,
        InMemoryRunStore.requeueExpiredLeases, if_neg hlanes]
      refine ⟨h.of_edit (f := fun r => if r.leaseExpired now lanes then r.requeued now else r)
        (fun r _ => by split <;> exact ⟨rfl, rfl, rfl, rfl⟩) rfl rfl ?_
        (s.requeueExpiredLeases_created h.created now lanes), StoreAnswer.same_of_eq ?_⟩
      · rw [s.requeueExpiredLeases_records now lanes, h.records]; rfl
      · rw [s.requeueExpiredLeases_ids now lanes, h.records]
  | redriveRun runId workspaceId =>
    obtain ⟨hsim, hans⟩ := h.of_updateIf
      (m.redriveRun_runs runId workspaceId now) (s.redriveRun_records runId workspaceId now)
      (fun _ => ⟨rfl, rfl, rfl, rfl⟩) (m.redriveRun_index runId workspaceId now)
      (s.redriveRun_created h.created runId workspaceId now)
    exact ⟨hsim, StoreAnswer.same_of_eq (congrArg StoreAnswer.flag hans)⟩
  | claimRunForResume runId workspaceId =>
    obtain ⟨hsim, hans⟩ := h.of_updateIf
      (m.claimRunForResume_runs runId workspaceId now)
      (s.claimRunForResume_records runId workspaceId now)
      (fun _ => ⟨rfl, rfl, rfl, rfl⟩) (m.claimRunForResume_index runId workspaceId now)
      (s.claimRunForResume_created h.created runId workspaceId now)
    exact ⟨hsim, StoreAnswer.same_of_eq (congrArg StoreAnswer.flag hans)⟩
  | pruneRuns olderThan keepLast =>
    obtain ⟨hsim, hans⟩ := h.prune olderThan keepLast now
    exact ⟨hsim, StoreAnswer.same_of_eq (congrArg StoreAnswer.pruned hans)⟩

/-! ## Every sequence of calls -/

/-- What a client can read is the same on both stores. -/
structure SameViews (m : InMemoryRunStore) (s : SqliteRunStore) : Prop where
  getRun : ∀ runId, m.getRun runId = s.getRun runId
  loadRunByIdempotency : ∀ ws key, m.loadRunByIdempotency ws key = s.loadRunByIdempotency ws key
  countActive : ∀ ws, m.countActiveRunsForWorkspace ws = s.countActiveRunsForWorkspace ws

theorem Simulates.sameViews {m : InMemoryRunStore} {s : SqliteRunStore} (h : Simulates m s) :
    SameViews m s :=
  ⟨fun runId => (h.getRun_eq runId).symm, fun ws key => (h.loadRunByIdempotency_eq ws key).symm,
    fun ws => (h.countActive_eq ws).symm⟩

/-- **The stores are observably equal** along every sequence of calls of the domain that avoids the
    two differences: every call is answered alike, and the views agree after every prefix. -/
theorem stores_observably_equal {calls : List TimedCall}
    (h : inMemoryMachine.AlongRun (fun m c => InDomain m c ∧ Avoids m c) InMemoryRunStore.empty
      calls) : List.Forall₂ StoreAnswer.Same (inMemoryMachine.answers InMemoryRunStore.empty calls)
        (sqliteMachine.answers SqliteRunStore.empty calls) ∧ ∀ pre post, calls = pre ++ post →
        SameViews (inMemoryMachine.after InMemoryRunStore.empty pre)
          (sqliteMachine.after SqliteRunStore.empty pre) := by
  have hrun : ∀ pre : List TimedCall,
      inMemoryMachine.AlongRun (fun m c => InDomain m c ∧ Avoids m c) InMemoryRunStore.empty pre →
      Simulates (inMemoryMachine.after InMemoryRunStore.empty pre)
          (sqliteMachine.after SqliteRunStore.empty pre)
        ∧ List.Forall₂ StoreAnswer.Same (inMemoryMachine.answers InMemoryRunStore.empty pre)
          (sqliteMachine.answers SqliteRunStore.empty pre) := fun pre hpre =>
    Machine.simulation (R := Simulates) (fun _ _ _ hsim hc => hsim.serve hc.1 hc.2)
      Simulates.empty hpre
  refine ⟨(hrun calls h).2, fun pre post hcalls => ?_⟩
  subst hcalls
  exact (hrun pre h.prefix).1.sameViews

def mixedCalls : List TimedCall :=
  let a : RunRecord :=
    { runId := "a", workspaceId := "w", subjectId := "s", idempotencyKey := some "k",
      createdAt := 0, updatedAt := 0 }
  let b : RunRecord :=
    { runId := "b", workspaceId := "w", subjectId := "s", createdAt := 1, updatedAt := 1 }
  [(0, .saveRunIfUnderQuota a 1), (1, .saveRunIfUnderQuota b 1),
    (1, .saveRunIfAbsentByIdempotency b), (2, .claimNextQueuedRun "o" 10 none true 2),
    (3, .renewLease "a" "o" 10), (4, .saveRunIfOwner { a with status := .awaitingApproval } "o"),
    (5, .claimRunForResume "a" "w"), (6, .saveRun { a with status := .failed }),
    (7, .redriveRun "a" (some "w")), (8, .claimNextQueuedRun "o" 10 none false 0),
    (30, .requeueExpiredLeases none), (31, .saveRun { b with status := .succeeded }),
    (32, .pruneRuns none (some 0))]

theorem stores_observably_equal_mixedCalls :
    List.Forall₂ StoreAnswer.Same (inMemoryMachine.answers InMemoryRunStore.empty mixedCalls)
        (sqliteMachine.answers SqliteRunStore.empty mixedCalls)
      ∧ ∀ pre post, mixedCalls = pre ++ post →
        SameViews (inMemoryMachine.after InMemoryRunStore.empty pre)
          (sqliteMachine.after SqliteRunStore.empty pre) :=
  stores_observably_equal (by decide)

def resubmission : List TimedCall :=
  let run (runId : String) : RunRecord :=
    { runId, workspaceId := "w", subjectId := "s", idempotencyKey := some "k", createdAt := 0,
      updatedAt := 0 }
  [(0, .saveRunIfUnderQuota (run "a") 0), (0, .saveRunIfUnderQuota (run "b") 0)]

/-- The stores are not observably equal on the whole domain: the re-submission is admitted in
    memory and not admitted by SQLite. -/
theorem stores_differ_on_resubmission :
    inMemoryMachine.AlongRun InDomain InMemoryRunStore.empty resubmission
      ∧ ¬ List.Forall₂ StoreAnswer.Same
        (inMemoryMachine.answers InMemoryRunStore.empty resubmission)
        (sqliteMachine.answers SqliteRunStore.empty resubmission) := by
  refine ⟨by decide, fun h => ?_⟩
  have hm : inMemoryMachine.answers InMemoryRunStore.empty resubmission
      = [.created "a" true, .created "a" true] := by rfl
  have hs : sqliteMachine.answers SqliteRunStore.empty resubmission
      = [.created "a" true, .created "a" false] := by rfl
  rw [hm, hs] at h
  simp [StoreAnswer.Same] at h

end Himmy
