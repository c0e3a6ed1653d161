import Himmy.Storage.Equivalence

/-! # The in-memory idempotency index

`InMemoryRunStore` keeps its unique constraint in an index from `(workspace_id, idempotency_key)` to a
run id, that a write fills and a delete empties. `save_run` and `save_run_if_owner` do not look at it:
`keys_unique_iff` says for which histories it stays the unique constraint. -/

namespace Himmy

open KeyedList (mem_of_get? get?_put key_of_get? get?_filter)

namespace InMemoryRunStore

/-! ## The calls -/

variable (s : InMemoryRunStore)

def deleteBySubject (subjectId : String) : InMemoryRunStore × Nat :=
  let doomed := s.runs.items.filter (fun r => r.subjectId = subjectId)
  ({ runs := s.runs.filter (fun r => r.subjectId ≠ subjectId)
     runsByIdempotency := s.runsByIdempotency.filter
      (fun e => !doomed.any (fun r => r.workspaceId = e.1.1 && r.idempotencyKey = some e.1.2)) },
    doomed.length)

/-- A call that writes or deletes runs. -/
inductive KeyCall where
  | saveRun (run : RunRecord)
  | saveRunIfAbsentByIdempotency (run : RunRecord)
  | saveRunIfUnderQuota (run : RunRecord) (cap : Int)
  | saveRunIfOwner (run : RunRecord) (ownerId : String)
  | deleteBySubject (subjectId : String)
  | pruneRuns (olderThan : Option Duration) (keepLast : Option Int)

def afterCall (now : Instant) : KeyCall → InMemoryRunStore
  | .saveRun run => s.saveRun run now
  | .saveRunIfAbsentByIdempotency run => (s.saveRunIfAbsentByIdempotency run now).1
  | .saveRunIfUnderQuota run cap => (s.saveRunIfUnderQuota run cap now).1
  | .saveRunIfOwner run ownerId => (s.saveRunIfOwner run ownerId now).1
  | .deleteBySubject subjectId => (s.deleteBySubject subjectId).1
  | .pruneRuns olderThan keepLast => (s.pruneRuns olderThan keepLast now).1

def keyCalls : LTS InMemoryRunStore (Instant × KeyCall) := ⟨fun s e => some (s.afterCall e.1 e.2)⟩

def written : KeyCall → Option RunRecord
  | .saveRun run => some run
  | .saveRunIfAbsentByIdempotency run =>
    if (s.existingByIdempotency run).isNone then some run else none
  | .saveRunIfUnderQuota run cap =>
    if (s.existingByIdempotency run).isNone
      && !(0 < cap && cap ≤ s.countActiveRunsForWorkspace run.workspaceId) then some run else none
  | .saveRunIfOwner run ownerId =>
    if (s.runs.get? run.runId).any (fun existing => existing.ownerId = some ownerId) then some run
    else none
  | .deleteBySubject _ => none
  | .pruneRuns .. => none

/-! ## The unique constraint -/

/-- Every key is held by one stored run at most, and the index finds it. -/
structure KeysUnique (s : InMemoryRunStore) : Prop where
  unique : ∀ r ∈ s.runs.items, ∀ r' ∈ s.runs.items, ∀ ws key,
    r.holdsKey ws key = true → r'.holdsKey ws key = true → r = r'
  loads : ∀ ws key r,
    s.loadRunByIdempotency ws key = some r ↔ r ∈ s.runs.items ∧ r.holdsKey ws key = true
  /-- a re-submit of a stored key creates nothing -/
  resubmits : ∀ r ∈ s.runs.items, ∀ (run : RunRecord) (key : String) (cap : Int) (now : Instant),
    run.idempotencyKey = some key → r.holdsKey run.workspaceId key = true →
    s.saveRunIfAbsentByIdempotency run now = (s, r, false)
      ∧ s.saveRunIfUnderQuota run cap now = (s, r, true)

/-- No other stored run holds the key of the record, and it keeps the key of the stored run it
    replaces. -/
structure Fits (s : InMemoryRunStore) (run : RunRecord) : Prop where
  free : ∀ r ∈ s.runs.items, ∀ key, run.idempotencyKey = some key →
    r.holdsKey run.workspaceId key = true → r.runId = run.runId
  keeps : ∀ old, s.runs.get? run.runId = some old → ∀ ws key,
    old.holdsKey ws key = true → run.holdsKey ws key = true

/-- The index is that of the stored runs. -/
structure Indexes (s : InMemoryRunStore) : Prop where
  entries : ∀ ws key e, s.runsByIdempotency.get? (ws, key) = some e →
    ∃ r, s.runs.get? e.2 = some r ∧ r.holdsKey ws key = true
  stored : ∀ r ∈ s.runs.items, ∀ ws key, r.holdsKey ws key = true →
    (s.runsByIdempotency.get? (ws, key)).map Prod.snd = some r.runId

variable {s : InMemoryRunStore} {run r : RunRecord} {ws key : String} {now : Instant}

theorem Indexes.empty : Indexes InMemoryRunStore.empty := by
  constructor
  · intro ws key e he
    cases he
  · intro r hr
    cases hr

theorem holdsKey_iff : r.holdsKey ws key = true ↔ r.workspaceId = ws ∧ r.idempotencyKey = some key := by
  simp [RunRecord.holdsKey]

theorem Indexes.loads (h : Indexes s) (ws key : String) (r : RunRecord) :
    s.loadRunByIdempotency ws key = some r ↔ r ∈ s.runs.items ∧ r.holdsKey ws key = true := by
  unfold loadRunByIdempotency
  constructor
  · intro hload
    obtain ⟨e, he, hget⟩ := Option.bind_eq_some_iff.1 hload
    obtain ⟨r', hr', hholds⟩ := h.entries ws key e he
    obtain rfl := Option.some.inj (hget.symm.trans hr')
    exact ⟨mem_of_get? hget, hholds⟩
  · rintro ⟨hr, hholds⟩
    obtain ⟨e, he, hid⟩ := Option.map_eq_some_iff.1 (h.stored r hr ws key hholds)
    rw [he, Option.bind_some, hid]
    exact s.runs.get?_of_mem hr

theorem Indexes.keysUnique (h : Indexes s) : KeysUnique s := by
  refine ⟨?_, h.loads, ?_⟩
  · intro r hr r' hr' ws key hholds hholds'
    have hr := (h.loads ws key r).2 ⟨hr, hholds⟩
    have hr' := (h.loads ws key r').2 ⟨hr', hholds'⟩
    exact Option.some.inj (hr.symm.trans hr')
  · intro r hr run key cap now hkey hholds
    have hexisting : s.existingByIdempotency run = some r := by
      rw [existingByIdempotency, hkey, Option.bind_some]
      exact (h.loads _ _ _).2 ⟨hr, hholds⟩
    constructor
    · rw [saveRunIfAbsentByIdempotency, hexisting]
    · rw [saveRunIfUnderQuota, hexisting]

/-! ## A write -/

theorem index_insert (s : InMemoryRunStore) (run : RunRecord) (now : Instant) (ws key : String) :
    (s.insert run now).runsByIdempotency.get? (ws, key) = if run.holdsKey ws key then
          some ((s.runsByIdempotency.get? (ws, key)).getD ((ws, key), run.runId))
        else s.runsByIdempotency.get? (ws, key) := by
  unfold insert indexIdempotency
  split
  · next hnone => simp [RunRecord.holdsKey, hnone]
  · next k hkey =>
      split
      · next e he =>
          split
          · next hholds =>
              obtain ⟨hws, hk⟩ := holdsKey_iff.1 hholds
              obtain rfl := Option.some.inj (hkey.symm.trans hk)
              rw [← hws, he]
              rfl
          · rfl
      · next hnone =>
          rw [get?_put]
          split
          · next hsame =>
              obtain ⟨rfl, rfl⟩ := Prod.mk.inj hsame
              rw [if_pos (holdsKey_iff.2 ⟨rfl, hkey⟩), hnone]
              rfl
          · next hother =>
              rw [if_neg]
              intro hholds
              obtain ⟨hws, hk⟩ := holdsKey_iff.1 hholds
              obtain rfl := Option.some.inj (hkey.symm.trans hk)
              exact hother (by rw [hws])

theorem holdsKey_stamped (run : RunRecord) (now : Instant) (ws key : String) :
    (run.stamped now).holdsKey ws key = run.holdsKey ws key := rfl

theorem get?_insert (s : InMemoryRunStore) (run : RunRecord) (now : Instant) (runId : String) :
    (s.insert run now).runs.get? runId
      = if runId = run.runId then some (run.stamped now) else s.runs.get? runId := by
  rw [runs_insert, get?_put]
  rfl

theorem mem_insert {s : InMemoryRunStore} {run : RunRecord} {now : Instant} {r : RunRecord} :
    r ∈ (s.insert run now).runs.items
      ↔ r = run.stamped now ∨ r ∈ s.runs.items ∧ r.runId ≠ run.runId := by
  rw [runs_insert, KeyedList.mem_put_iff]
  rfl

theorem Indexes.insert (h : Indexes s) (hfits : Fits s run) : Indexes (s.insert run now) := by
  constructor
  · intro ws key e he
    rw [get?_insert]
    rw [index_insert] at he
    split
    · next hid =>
        refine ⟨run.stamped now, rfl, ?_⟩
        rw [holdsKey_stamped]
        by_contra hnot
        rw [if_neg hnot] at he
        obtain ⟨old, hold, hholds⟩ := h.entries ws key e he
        rw [hid] at hold
        exact hnot (hfits.keeps old hold ws key hholds)
    · next hid =>
        have hold : s.runsByIdempotency.get? (ws, key) = some e := by
          split at he
          · rcases hget : s.runsByIdempotency.get? (ws, key) with - | e'
            · rw [hget] at he
              cases he
              exact absurd rfl hid
            · rw [hget] at he
              exact he
          · exact he
        exact h.entries ws key e hold
  · intro r hr ws key hholds
    rw [index_insert]
    rcases mem_insert.1 hr with rfl | ⟨hr, hne⟩
    · rw [holdsKey_stamped] at hholds
      rw [if_pos hholds]
      rcases hget : s.runsByIdempotency.get? (ws, key) with - | e
      · rfl
      · obtain ⟨holder, hholder, hkey⟩ := h.entries ws key e hget
        obtain ⟨rfl, hrun⟩ := holdsKey_iff.1 hholds
        have hid := hfits.free holder (mem_of_get? hholder) key hrun hkey
        rw [key_of_get? hholder] at hid
        rw [Option.getD_some, Option.map_some, hid]
        rfl
    · have hstored := h.stored r hr ws key hholds
      obtain ⟨e, he, hid⟩ := Option.map_eq_some_iff.1 hstored
      split
      · rw [he, Option.getD_some, Option.map_some, hid]
      · exact hstored

theorem Fits.of_keysUnique (h : Indexes s) (hunique : KeysUnique (s.insert run now)) : Fits s run := by
  have hstored : run.stamped now ∈ (s.insert run now).runs.items := mem_insert.2 (.inl rfl)
  constructor
  · intro r hr key hkey hholds
    by_contra hne
    have hr' : r ∈ (s.insert run now).runs.items := mem_insert.2 (.inr ⟨hr, hne⟩)
    have hsame := hunique.unique r hr' _ hstored _ key hholds (holdsKey_iff.2 ⟨rfl, hkey⟩)
    exact hne (by rw [hsame]; rfl)
  · intro old hold ws key hholds
    obtain ⟨e, he, hid⟩ :=
      Option.map_eq_some_iff.1 (h.stored old (mem_of_get? hold) ws key hholds)
    -- the entry of the replaced run is still there, and names the record
    have hload : (s.insert run now).loadRunByIdempotency ws key = some (run.stamped now) := by
      have hentry : (s.insert run now).runsByIdempotency.get? (ws, key) = some e := by
        rw [index_insert, he]
        split <;> rfl
      rw [loadRunByIdempotency, hentry, Option.bind_some, get?_insert, hid,
        if_pos (key_of_get? hold)]
    exact ((hunique.loads ws key _).1 hload).2

/-! ## A delete -/

theorem Indexes.delete (h : Indexes s) {p : RunRecord → Bool} :
    Indexes { runs := s.runs.filter (fun r => !p r)
              runsByIdempotency := s.runsByIdempotency.filter (fun e =>
                !(s.runs.items.filter p).any
                  (fun r => r.workspaceId = e.1.1 && r.idempotencyKey = some e.1.2)) } := by
  constructor
  · intro ws key e he
    dsimp only at he ⊢
    rw [get?_filter, Option.filter_eq_some_iff] at he
    obtain ⟨he, hkept⟩ := he
    obtain ⟨r, hget, hholds⟩ := h.entries ws key e he
    refine ⟨r, ?_, hholds⟩
    have hkey : e.1 = (ws, key) := key_of_get? he
    obtain ⟨hws, hk⟩ := holdsKey_iff.1 hholds
    rw [get?_filter, hget, Option.filter_some, if_pos]
    by_contra hp
    simp only [Bool.not_eq_true', List.any_eq_false, List.mem_filter] at hkept
    exact hkept r ⟨mem_of_get? hget, by simpa using hp⟩ (by simp [hkey, hws, hk])
  · intro r hr ws key hholds
    obtain ⟨hr, hp⟩ := List.mem_filter.1 hr
    have hstored := h.stored r hr ws key hholds
    obtain ⟨e, he, hid⟩ := Option.map_eq_some_iff.1 hstored
    have hkey : e.1 = (ws, key) := key_of_get? he
    dsimp only
    rw [get?_filter, he, Option.filter_some, if_pos, Option.map_some, hid]
    simp only [Bool.not_eq_true', List.any_eq_false, List.mem_filter]
    rintro other ⟨hother, hdoomed⟩ hsame
    rw [hkey] at hsame
    -- the key is that of one stored run
    have heq := h.keysUnique.unique other hother r hr ws key hsame hholds
    rw [heq] at hdoomed
    rw [hdoomed] at hp
    cases hp

/-! ## A call -/

theorem Indexes.afterCall_cases (h : Indexes s) (call : KeyCall) (now : Instant) :
    (∃ run, s.written call = some run ∧ s.afterCall now call = s.insert run now)
      ∨ s.written call = none ∧ Indexes (s.afterCall now call) := by
  cases call with
  | saveRun run => exact .inl ⟨run, rfl, rfl⟩
  | saveRunIfAbsentByIdempotency run =>
    rcases hexisting : s.existingByIdempotency run with - | existing
    · exact .inl ⟨run, by simp [written, hexisting],
        by simp [afterCall, saveRunIfAbsentByIdempotency, hexisting]⟩
    · refine .inr ⟨by simp [written, hexisting], ?_⟩
      simpa [afterCall, saveRunIfAbsentByIdempotency, hexisting] using h
  | saveRunIfUnderQuota run cap =>
    rcases hexisting : s.existingByIdempotency run with - | existing
    · by_cases hfull : 0 < cap ∧ cap ≤ s.countActiveRunsForWorkspace run.workspaceId
      · refine .inr ⟨by simp [written, hfull], ?_⟩
        simpa [afterCall, saveRunIfUnderQuota, hexisting, hfull] using h
      · refine .inl ⟨run, by simpa [written, hexisting] using hfull, ?_⟩
        simp only [afterCall, saveRunIfUnderQuota, hexisting, if_neg hfull]
    · refine .inr ⟨by simp [written, hexisting], ?_⟩
      simpa [afterCall, saveRunIfUnderQuota, hexisting] using h
  | saveRunIfOwner run ownerId =>
    rcases hget : s.runs.get? run.runId with - | existing
    · refine .inr ⟨by simp [written, hget], ?_⟩
      simpa [afterCall, saveRunIfOwner, hget] using h
    · by_cases howner : existing.ownerId = some ownerId
      · exact .inl ⟨run, by simp [written, hget, howner],
          by simp [afterCall, saveRunIfOwner, hget, howner]⟩
      · refine .inr ⟨by simp [written, hget, howner], ?_⟩
        simpa [afterCall, saveRunIfOwner, hget, howner] using h
  | deleteBySubject subjectId =>
    refine .inr ⟨rfl, ?_⟩
    have hdelete := h.delete (p := fun r => r.subjectId = subjectId)
    simpa [afterCall, deleteBySubject] using hdelete
  | pruneRuns olderThan keepLast =>
    refine .inr ⟨rfl, ?_⟩
    show Indexes (s.pruneRuns olderThan keepLast now).1
    unfold pruneRuns
    split
    · exact h
    · dsimp only
      generalize pruneVictimsByCreatedAt _ olderThan keepLast now = doomed
      have hdelete := h.delete (p := fun r => r.runId ∈ doomed)
      simpa using hdelete

def FitsCall (s : InMemoryRunStore) (e : Instant × KeyCall) : Prop :=
  ∀ run, s.written e.2 = some run → Fits s run

theorem Indexes.step {s s' : InMemoryRunStore} {e : Instant × KeyCall} (h : Indexes s)
    (hs : keyCalls.step s e = some s') : (FitsCall s e ↔ KeysUnique s')
      ∧ (FitsCall s e → Indexes s') := by
  obtain rfl := Option.some.inj hs
  rcases h.afterCall_cases e.2 e.1 with ⟨run, hwritten, hafter⟩ | ⟨hwritten, hindexed⟩
  · have hfits : FitsCall s e ↔ Fits s run := by
      unfold FitsCall
      rw [hwritten]
      constructor
      · intro hf
        exact hf run rfl
      · rintro hf _ ⟨⟩
        exact hf
    rw [hfits, hafter]
    refine ⟨⟨fun hf => (h.insert hf).keysUnique, Fits.of_keysUnique h⟩, h.insert⟩
  · have hfits : FitsCall s e := by
      intro run hrun
      rw [hwritten] at hrun
      cases hrun
    exact ⟨⟨fun _ => hindexed.keysUnique, fun _ => hfits⟩, fun _ => hindexed⟩

/-- **The index is the unique constraint.** In every history from an empty store, the constraint holds
    after every call exactly when every record that a call stores fits. -/
theorem keys_unique_iff (es : List (Instant × KeyCall)) :
    keyCalls.AlongRun (fun s e => ∀ s', keyCalls.step s e = some s' → KeysUnique s') .empty es
      ↔ keyCalls.AlongRun FitsCall .empty es := by
  constructor
  · refine keyCalls.alongRun_of_invariant ?_ ?_ Indexes.empty
    · intro s e s' hI hkept hs
      exact (hI.step hs).2 ((hI.step hs).1.2 (hkept s' hs))
    · intro s e hI hkept
      exact (hI.step rfl).1.2 (hkept _ rfl)
  · refine keyCalls.alongRun_of_invariant ?_ ?_ Indexes.empty
    · intro s e s' hI hfits hs
      exact (hI.step hs).2 hfits
    · intro s e hI hfits s' hs
      exact (hI.step hs).1.1 hfits

/-! ## Two runs under one key -/

private def keyed (runId : String) : RunRecord :=
  { runId, workspaceId := "w", subjectId := "s", idempotencyKey := some "k", createdAt := 0,
    updatedAt := 0 }

/-- `save_run` stores a second run under a key. -/
theorem save_run_duplicates_key :
    ¬ keyCalls.AlongRun (fun s e => ∀ s', keyCalls.step s e = some s' → KeysUnique s') .empty
      [(0, .saveRun (keyed "a")), (0, .saveRun (keyed "b"))] := by
  intro h
  have hunique := (h.2 _ rfl).1 _ rfl
  have hstored : keyed "a" ∈ (empty.insert (keyed "a") 0).runs.items := mem_insert.2 (.inl rfl)
  have hsame := hunique.unique (keyed "a") (mem_insert.2 (.inr ⟨hstored, by decide⟩)) (keyed "b")
    (mem_insert.2 (.inl rfl)) "w" "k" rfl rfl
  exact absurd (congrArg RunRecord.runId hsame) (by decide)

end InMemoryRunStore

end Himmy
