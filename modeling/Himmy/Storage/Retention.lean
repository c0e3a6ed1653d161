import Himmy.Library.Newest
import Himmy.Storage.IdempotencyIndex

/-! # Retention of runs

`prune_runs` deletes the terminal runs that are too old or that are not among the newest, in memory and
in SQLite. The recommendations stand in another table: SQLite deletes those of the pruned runs in the
same transaction, the in-memory store does not know of them.

Both stores cut the runs off with `ordered[: len(ordered) - keep]`. When there are fewer runs than are to
be kept the bound is negative and Python counts it from the end, so that runs go that nothing asked to
delete (`Overshot`). `pruneCorrect_iff` says when a call does what it is for. -/

namespace Himmy

/-- The bounds of a call; at least one is given. -/
inductive PruneBounds where
  | age (olderThan : Duration)
  | count (keepLast : Int)
  | both (olderThan : Duration) (keepLast : Int)

namespace PruneBounds

def olderThan : PruneBounds → Option Duration
  | .age days => some days
  | .count _ => none
  | .both days _ => some days

def keepLast : PruneBounds → Option Int
  | .age _ => none
  | .count n => some n
  | .both _ n => some n

theorem not_none (b : PruneBounds) : ¬ (b.olderThan = none ∧ b.keepLast = none) := by
  rintro ⟨hage, hcount⟩
  cases b with
  | age days => cases hage
  | count n => cases hcount
  | both days n => cases hage

end PruneBounds

/-- What `prune_runs` reads of a run: its id, its status and when it was created. -/
abbrev PruneEntry := String × RunStatus × Instant

/-! ## The runs to delete -/

def pruneCandidates (entries : List PruneEntry) : List (String × Instant) :=
  (entries.filter (fun e => e.2.1 ∉ activeRunStatuses)).map (fun e => (e.1, e.2.2))

section Bounds

variable (b : PruneBounds) (now : Instant) (candidates : List (String × Instant))
  (c : String × Instant)

def newerCount : Nat := Newest.laterCount (fun a b : String × Instant => a.2 ≤ b.2) candidates c

def TooOld : Prop := ∃ days, b.olderThan = some days ∧ c.2 < now - days

/-- The run fails the bound on the number of runs. -/
def Surplus : Prop := ∃ n, b.keepLast = some n ∧ max n 0 ≤ (newerCount candidates c : Int)

def FailsBound : Prop := TooOld b now c ∨ Surplus b candidates c

/-- There are fewer runs than are to be kept, and the run is one of those before the negative bound. -/
def Overshot : Prop := ∃ n, b.keepLast = some n ∧ (candidates.length : Int) < n
  ∧ n ≤ newerCount candidates c + candidates.length

end Bounds

section Victims

variable {b : PruneBounds} {now : Instant} {candidates : List (String × Instant)}
  {c : String × Instant}

theorem nodup_of_keys (h : (candidates.map Prod.fst).Nodup) : candidates.Nodup := h.of_map _

theorem fst_mem_map_iff (h : (candidates.map Prod.fst).Nodup) (hc : c ∈ candidates)
    {l : List (String × Instant)} (hl : ∀ d ∈ l, d ∈ candidates) : c.1 ∈ l.map Prod.fst ↔ c ∈ l := by
  constructor
  · intro hmem
    obtain ⟨d, hd, hkey⟩ := List.mem_map.1 hmem
    rwa [← List.inj_on_of_nodup_map h (hl d hd) hc hkey]
  · exact fun hmem => List.mem_map.2 ⟨c, hmem, rfl⟩

def cutOff (candidates : List (String × Instant)) (n : Int) : List (String × Instant) :=
  let ordered := candidates.insertionSort (fun a b => a.2 ≤ b.2)
  if max n 0 = 0 then ordered else pySlicePrefix ordered (ordered.length - max n 0)

theorem mem_of_mem_cutOff {n : Int} (h : c ∈ cutOff candidates n) : c ∈ candidates := by
  unfold cutOff at h
  simp only at h
  split at h
  · exact (List.mem_insertionSort _).1 h
  · unfold pySlicePrefix at h
    split at h <;> exact (List.mem_insertionSort _).1 (List.mem_of_mem_take h)

theorem mem_cutOff_iff (h : (candidates.map Prod.fst).Nodup) (hc : c ∈ candidates) (n : Int) :
    c ∈ cutOff candidates n ↔ max n 0 ≤ (newerCount candidates c : Int)
      ∨ ((candidates.length : Int) < n ∧ n ≤ newerCount candidates c + candidates.length) := by
  have hnodup := nodup_of_keys h
  have htake : ∀ k : Nat, c ∈ (candidates.insertionSort (fun a b => a.2 ≤ b.2)).take
      (candidates.length - k) ↔ k ≤ newerCount candidates c := fun k =>
    Newest.mem_take_insertionSort_iff (r := fun a b : String × Instant => a.2 ≤ b.2)
      (fun _ _ _ hab hbc => le_trans hab hbc) (fun a b => le_total a.2 b.2) hnodup hc k
  have hlt : newerCount candidates c < candidates.length := Newest.laterCount_lt hnodup hc
  unfold cutOff
  simp only [List.length_insertionSort]
  split
  · next hzero =>
      rw [List.mem_insertionSort]
      exact ⟨fun _ => Or.inl (by omega), fun _ => hc⟩
  · next hpos =>
      unfold pySlicePrefix
      split
      · next hle =>
          rw [show ((candidates.length : Int) - max n 0).toNat = candidates.length - n.toNat by omega,
            htake]
          omega
      · next hneg =>
          -- the bound is negative: Python counts it from the end
          rw [List.length_insertionSort,
            show ((candidates.length : Int) + (candidates.length - max n 0)).toNat
              = candidates.length - (n.toNat - candidates.length) by omega, htake]
          omega

def aged (candidates : List (String × Instant)) (now : Instant) (days : Duration) :
    List (String × Instant) :=
  candidates.filter (fun kv => kv.2 < now - days)

theorem pruneVictims_eq (b : PruneBounds) (now : Instant) (candidates : List (String × Instant)) :
    pruneVictimsByCreatedAt candidates b.olderThan b.keepLast now
      = ((b.olderThan.elim [] (aged candidates now))
        ++ (b.keepLast.elim [] (cutOff candidates))).map Prod.fst := by
  rw [List.map_append]
  cases b <;> rfl

theorem mem_of_mem_victims {d : String × Instant}
    (hd : d ∈ b.olderThan.elim [] (aged candidates now) ++ b.keepLast.elim [] (cutOff candidates)) :
    d ∈ candidates := by
  rcases List.mem_append.1 hd with hd | hd
  · cases hdays : b.olderThan with
    | none => simp [hdays] at hd
    | some days =>
      rw [hdays] at hd
      exact List.mem_of_mem_filter hd
  · cases hn : b.keepLast with
    | none => simp [hn] at hd
    | some n =>
      rw [hn] at hd
      exact mem_of_mem_cutOff hd

theorem mem_pruneVictims_iff (h : (candidates.map Prod.fst).Nodup) (hc : c ∈ candidates) :
    c.1 ∈ pruneVictimsByCreatedAt candidates b.olderThan b.keepLast now
      ↔ FailsBound b now candidates c ∨ Overshot b candidates c := by
  have hage : c ∈ b.olderThan.elim [] (aged candidates now) ↔ TooOld b now c := by
    unfold TooOld
    cases b.olderThan with
    | none => simp
    | some days => simp [aged, hc]
  have hcount : c ∈ b.keepLast.elim [] (cutOff candidates)
      ↔ Surplus b candidates c ∨ Overshot b candidates c := by
    unfold Surplus Overshot
    cases b.keepLast with
    | none => simp
    | some n => simpa using mem_cutOff_iff h hc n
  rw [pruneVictims_eq, fst_mem_map_iff h hc (fun _ => mem_of_mem_victims), List.mem_append, hage,
    hcount, FailsBound, or_assoc]

theorem exists_of_mem_pruneVictims {id : String}
    (h : id ∈ pruneVictimsByCreatedAt candidates b.olderThan b.keepLast now) :
    ∃ c ∈ candidates, c.1 = id := by
  rw [pruneVictims_eq] at h
  obtain ⟨c, hc, hid⟩ := List.mem_map.1 h
  exact ⟨c, mem_of_mem_victims hc, hid⟩

end Victims

/-! ## The tables -/

/-- A recommendation, which is of a run. -/
structure RunRecommendation where
  recommendationId : String
  runId : String

/-- The in-memory run store and recommendation store. -/
structure InMemoryTables where
  runStore : InMemoryRunStore
  recommendations : KeyedList RunRecommendation.recommendationId

/-- The tables `runs` and `recommendations`. -/
structure SqliteTables where
  runStore : SqliteRunStore
  recommendations : KeyedList RunRecommendation.recommendationId

namespace InMemoryTables

variable (t : InMemoryTables)

def entries : List PruneEntry :=
  t.runStore.runs.items.map (fun r => (r.runId, r.status, r.createdAt))

def references : List String :=
  t.recommendations.items.map RunRecommendation.runId
    ++ t.runStore.runsByIdempotency.items.map Prod.snd

/-- `StorageService.prune_runs`, which asks the run store only. -/
def pruneRuns (b : PruneBounds) (now : Instant) : InMemoryTables × Option Nat :=
  let (runStore, count) := t.runStore.pruneRuns b.olderThan b.keepLast now
  ({ t with runStore }, count)

end InMemoryTables

namespace SqliteTables

variable (t : SqliteTables)

def entries : List PruneEntry :=
  t.runStore.rows.items.map (fun row => (row.runId, row.status, row.createdAt))

def references : List String := t.recommendations.items.map RunRecommendation.runId

/-- The run ids that the two `DELETE`s name. -/
def doomed (b : PruneBounds) (now : Instant) : List String :=
  SqliteRunStore.pruneVictims
    ((t.runStore.rows.items.filter (fun row => row.status ∉ activeRunStatuses)).insertionSort
      (fun a b => a.createdAt ≤ b.createdAt)) b.olderThan b.keepLast now

/-- `_prune_runs_sync`, with the cascade to the recommendations. -/
def pruneRuns (b : PruneBounds) (now : Instant) : SqliteTables × Option Nat :=
  let (runStore, count) := t.runStore.pruneRuns b.olderThan b.keepLast now
  ({ runStore
     recommendations := t.recommendations.filter (fun rec => rec.runId ∉ t.doomed b now) }, count)

end SqliteTables

/-! ## What a call is for -/

/-- The call deletes no active run, and of the terminal ones those that fail a bound; it returns their
    number. -/
structure PrunesExactly (b : PruneBounds) (now : Instant) (before after : List PruneEntry)
    (count : Option Nat) : Prop where
  old : ∀ e ∈ after, e ∈ before
  active : ∀ e ∈ before, e.2.1 ∈ activeRunStatuses → e ∈ after
  exact : ∀ e ∈ before, e.2.1 ∉ activeRunStatuses →
    (e ∉ after ↔ FailsBound b now (pruneCandidates before) (e.1, e.2.2))
  counted : count = some (before.countP (fun e => e ∉ after))

def NoneDangling (before after : List PruneEntry) (references : List String) : Prop :=
  ∀ id ∈ references, id ∈ before.map Prod.fst → id ∈ after.map Prod.fst

/-- `prune_runs` does what it is for, in both stores. -/
structure PruneCorrect (m : InMemoryTables) (s : SqliteTables) (b : PruneBounds) (now : Instant) :
    Prop where
  memory : PrunesExactly b now m.entries (m.pruneRuns b now).1.entries (m.pruneRuns b now).2
  sqlite : PrunesExactly b now s.entries (s.pruneRuns b now).1.entries (s.pruneRuns b now).2
  memoryReferences : NoneDangling m.entries (m.pruneRuns b now).1.entries
    (m.pruneRuns b now).1.references
  sqliteReferences : NoneDangling s.entries (s.pruneRuns b now).1.entries
    (s.pruneRuns b now).1.references
  same : (m.pruneRuns b now).1.entries = (s.pruneRuns b now).1.entries

/-- The states and bounds on which it does: the negative bound takes no run that the age does not take,
    and nothing that is left in memory refers to a run that fails a bound. -/
structure Prunable (m : InMemoryTables) (b : PruneBounds) (now : Instant) : Prop where
  covered : ∀ c ∈ pruneCandidates m.entries, Overshot b (pruneCandidates m.entries) c →
    FailsBound b now (pruneCandidates m.entries) c
  recommendations : ∀ rec ∈ m.recommendations.items, ∀ c ∈ pruneCandidates m.entries,
    c.1 = rec.runId → ¬ FailsBound b now (pruneCandidates m.entries) c
  /-- the key of an entry is that of a run that goes -/
  index : ∀ e ∈ m.runStore.runsByIdempotency.items, ∀ c ∈ pruneCandidates m.entries, c.1 = e.2 →
    FailsBound b now (pruneCandidates m.entries) c →
    ∃ r ∈ m.runStore.runs.items, r.isActive = false
      ∧ FailsBound b now (pruneCandidates m.entries) (r.runId, r.createdAt)
      ∧ r.holdsKey e.1.1 e.1.2 = true

/-! ## When a call does -/

section Entries

variable {b : PruneBounds} {now : Instant} {entries : List PruneEntry} {doomed : List String}

theorem mem_pruneCandidates {c : String × Instant} :
    c ∈ pruneCandidates entries ↔ ∃ e ∈ entries, e.2.1 ∉ activeRunStatuses ∧ (e.1, e.2.2) = c := by
  simp only [pruneCandidates, List.mem_map, List.mem_filter, decide_eq_true_eq, and_assoc]

theorem nodup_pruneCandidates (h : (entries.map Prod.fst).Nodup) :
    ((pruneCandidates entries).map Prod.fst).Nodup := by
  rw [pruneCandidates, List.map_map]
  exact h.sublist (List.filter_sublist.map _)

theorem length_dedup_doomed (h : (entries.map Prod.fst).Nodup)
    (honly : ∀ id ∈ doomed, ∃ e ∈ entries, e.1 = id) :
    doomed.dedup.length = entries.countP (fun e => e.1 ∈ doomed) := by
  have hperm : doomed.dedup.Perm ((entries.filter (fun e => e.1 ∈ doomed)).map Prod.fst) := by
    refine (List.perm_ext_iff_of_nodup (List.nodup_dedup _)
      (h.sublist (List.filter_sublist.map _))).2 (fun id => ?_)
    rw [List.mem_dedup, List.mem_map]
    constructor
    · intro hid
      obtain ⟨e, he, rfl⟩ := honly id hid
      exact ⟨e, List.mem_filter.2 ⟨he, decide_eq_true hid⟩, rfl⟩
    · rintro ⟨e, he, rfl⟩
      exact of_decide_eq_true (List.mem_filter.1 he).2
  rw [hperm.length_eq, List.length_map, List.countP_eq_length_filter]

theorem notMem_filter_iff {e : PruneEntry} (he : e ∈ entries) :
    e ∉ entries.filter (fun e => e.1 ∉ doomed) ↔ e.1 ∈ doomed := by
  simp [List.mem_filter, he]

theorem prunesExactly_iff (h : (entries.map Prod.fst).Nodup)
    (hdoomed : ∀ c ∈ pruneCandidates entries, c.1 ∈ doomed
      ↔ FailsBound b now (pruneCandidates entries) c ∨ Overshot b (pruneCandidates entries) c)
    (honly : ∀ id ∈ doomed, ∃ c ∈ pruneCandidates entries, c.1 = id) :
    PrunesExactly b now entries (entries.filter (fun e => e.1 ∉ doomed)) (some doomed.dedup.length)
      ↔ ∀ c ∈ pruneCandidates entries, Overshot b (pruneCandidates entries) c →
        FailsBound b now (pruneCandidates entries) c := by
  constructor
  · intro hprunes c hc hover
    obtain ⟨e, he, hterminal, rfl⟩ := mem_pruneCandidates.1 hc
    exact (hprunes.exact e he hterminal).1
      ((notMem_filter_iff he).2 ((hdoomed _ hc).2 (Or.inr hover)))
  · intro hcovered
    refine ⟨fun e he => List.mem_of_mem_filter he, fun e he hactive => ?_, fun e he hterminal => ?_, ?_⟩
    · by_contra hgone
      obtain ⟨c, hc, hid⟩ := honly _ ((notMem_filter_iff he).1 hgone)
      obtain ⟨e', he', hterminal, rfl⟩ := mem_pruneCandidates.1 hc
      rw [List.inj_on_of_nodup_map h he' he hid] at hterminal
      exact hterminal hactive
    · have hc : (e.1, e.2.2) ∈ pruneCandidates entries :=
        mem_pruneCandidates.2 ⟨e, he, hterminal, rfl⟩
      rw [notMem_filter_iff he]
      exact (hdoomed _ hc).trans ⟨fun hor => hor.elim id (hcovered _ hc), Or.inl⟩
    · rw [length_dedup_doomed h (fun id hid => ?_)]
      · refine congrArg some (List.countP_congr (fun e he => ?_))
        rw [decide_eq_true_eq, decide_eq_true_eq, notMem_filter_iff he]
      · obtain ⟨c, hc, hid⟩ := honly id hid
        obtain ⟨e, he, -, rfl⟩ := mem_pruneCandidates.1 hc
        exact ⟨e, he, hid⟩

theorem noneDangling_iff {references : List String} :
    NoneDangling entries (entries.filter (fun e => e.1 ∉ doomed)) references
      ↔ ∀ id ∈ references, id ∈ entries.map Prod.fst → id ∉ doomed := by
  refine forall₃_congr (fun id _ hid => ?_)
  obtain ⟨e, he, rfl⟩ := List.mem_map.1 hid
  constructor
  · intro hstays
    obtain ⟨e', he', hsame⟩ := List.mem_map.1 hstays
    rw [← hsame]
    exact of_decide_eq_true (List.mem_filter.1 he').2
  · exact fun hnot => List.mem_map.2 ⟨e, List.mem_filter.2 ⟨he, decide_eq_true hnot⟩, rfl⟩

end Entries

namespace InMemoryTables

variable (t : InMemoryTables) (b : PruneBounds) (now : Instant)

def doomed : List String :=
  pruneVictimsByCreatedAt (pruneCandidates t.entries) b.olderThan b.keepLast now

theorem nodup_entries : (t.entries.map Prod.fst).Nodup := by
  rw [entries, List.map_map]
  exact t.runStore.runs.nodup_keys

theorem candidates_eq : (t.runStore.runs.items.filter (fun r => !r.isActive)).map
    (fun r => (r.runId, r.createdAt)) = pruneCandidates t.entries := by
  rw [pruneCandidates, entries, List.filter_map, List.map_map]
  refine congrArg _ (List.filter_congr (fun r _ => ?_))
  simp [RunRecord.isActive]

theorem pruneRuns_eq : t.pruneRuns b now = ({ t with runStore :=
        { runs := t.runStore.runs.filter (fun r => r.runId ∉ t.doomed b now)
          runsByIdempotency := t.runStore.runsByIdempotency.filter (fun e =>
            !(t.runStore.runs.items.filter (fun r => r.runId ∈ t.doomed b now)).any
              (fun r => r.workspaceId = e.1.1 && r.idempotencyKey = some e.1.2)) } },
      some (t.doomed b now).dedup.length) := by
  unfold pruneRuns InMemoryRunStore.pruneRuns doomed
  simp only [if_neg b.not_none, t.candidates_eq]

theorem entries_pruneRuns :
    (t.pruneRuns b now).1.entries = t.entries.filter (fun e => e.1 ∉ t.doomed b now) := by
  rw [pruneRuns_eq, entries, entries, List.filter_map]
  rfl

end InMemoryTables

namespace SqliteTables

variable (t : SqliteTables) (b : PruneBounds) (now : Instant)

theorem pruneRuns_snd : (t.pruneRuns b now).2 = some (t.doomed b now).dedup.length := by
  unfold pruneRuns SqliteRunStore.pruneRuns doomed
  simp only [if_neg b.not_none]

theorem entries_pruneRuns :
    (t.pruneRuns b now).1.entries = t.entries.filter (fun e => e.1 ∉ t.doomed b now) := by
  unfold pruneRuns SqliteRunStore.pruneRuns entries doomed
  simp only [if_neg b.not_none, SqliteRunStore.delete, KeyedList.items_filter, List.filter_map,
    List.mem_dedup]
  refine congrArg _ (List.filter_congr (fun row _ => ?_))
  simp

theorem references_pruneRuns : (t.pruneRuns b now).1.references
    = (t.recommendations.items.filter (fun rec => rec.runId ∉ t.doomed b now)).map
      RunRecommendation.runId := rfl

theorem sorted_candidates :
    ((t.runStore.rows.items.filter (fun row => row.status ∉ activeRunStatuses)).insertionSort
        (fun a b => a.createdAt ≤ b.createdAt)).map (fun row => (row.runId, row.createdAt))
      = (pruneCandidates t.entries).insertionSort (fun a b => a.2 ≤ b.2) := by
  rw [List.map_insertionSort (fun a b : RunRow => a.createdAt ≤ b.createdAt)
    (fun a b : String × Instant => a.2 ≤ b.2) _ _ (fun _ _ _ _ => Iff.rfl), pruneCandidates, entries,
    List.filter_map, List.map_map]
  rfl

theorem mem_doomed_iff (id : String) : id ∈ t.doomed b now
    ↔ id ∈ pruneVictimsByCreatedAt (pruneCandidates t.entries) b.olderThan b.keepLast now := by
  have hsorted := t.sorted_candidates
  unfold doomed
  generalize (t.runStore.rows.items.filter (fun row => row.status ∉ activeRunStatuses)).insertionSort
    (fun a b => a.createdAt ≤ b.createdAt) = rows at hsorted ⊢
  generalize pruneCandidates t.entries = candidates at hsorted ⊢
  have hage : ∀ days, (rows.filter (fun row => row.createdAt < now - days)).map RunRow.runId
      = ((candidates.insertionSort (fun a b => a.2 ≤ b.2)).filter
        (fun kv => kv.2 < now - days)).map Prod.fst := by
    intro days
    rw [← hsorted, List.filter_map, List.map_map]
    rfl
  have hcount : ∀ n : Int, (if max n 0 = 0 then rows else
      pySlicePrefix rows (rows.length - max n 0)).map RunRow.runId
      = (cutOff candidates n).map Prod.fst := by
    intro n
    unfold cutOff
    simp only [← hsorted, List.length_map]
    split
    · rw [List.map_map]
      rfl
    · rw [pySlicePrefix_map, List.map_map]
      rfl
  have hselect : id ∈ SqliteRunStore.pruneVictims rows b.olderThan b.keepLast now
      ↔ id ∈ b.olderThan.elim [] (fun days => (rows.filter
          (fun row => row.createdAt < now - days)).map RunRow.runId)
        ∨ id ∈ b.keepLast.elim [] (fun n => (if max n 0 = 0 then rows else
          pySlicePrefix rows (rows.length - max n 0)).map RunRow.runId) := by
    rw [← List.mem_append]
    cases b <;> rfl
  rw [hselect, pruneVictims_eq, List.map_append, List.mem_append]
  refine or_congr ?_ ?_
  · cases b.olderThan with
    | none => rfl
    | some days => simp [hage, aged, List.mem_insertionSort]
  · cases b.keepLast with
    | none => rfl
    | some n => rw [Option.elim_some, hcount, Option.elim_some]

end SqliteTables

section Main

variable (m : InMemoryTables) (s : SqliteTables) (b : PruneBounds) (now : Instant)

theorem InMemoryTables.mem_doomed_iff {c : String × Instant} (hc : c ∈ pruneCandidates m.entries) :
    c.1 ∈ m.doomed b now ↔ FailsBound b now (pruneCandidates m.entries) c
      ∨ Overshot b (pruneCandidates m.entries) c :=
  mem_pruneVictims_iff (nodup_pruneCandidates m.nodup_entries) hc

theorem InMemoryTables.exists_of_mem_doomed {id : String} (h : id ∈ m.doomed b now) :
    ∃ c ∈ pruneCandidates m.entries, c.1 = id := exists_of_mem_pruneVictims h

theorem mem_entries_of_candidate {c : String × Instant} (hc : c ∈ pruneCandidates m.entries) :
    c.1 ∈ m.entries.map Prod.fst := by
  obtain ⟨e, he, -, rfl⟩ := mem_pruneCandidates.1 hc
  exact List.mem_map.2 ⟨e, he, rfl⟩

theorem candidate_of_doomed {r : RunRecord} (hr : r ∈ m.runStore.runs.items)
    (h : r.runId ∈ m.doomed b now) :
    r.isActive = false ∧ (r.runId, r.createdAt) ∈ pruneCandidates m.entries := by
  obtain ⟨c, hc, hid⟩ := m.exists_of_mem_doomed b now h
  obtain ⟨e, he, hterminal, rfl⟩ := mem_pruneCandidates.1 hc
  have hentry : (r.runId, r.status, r.createdAt) ∈ m.entries := List.mem_map.2 ⟨r, hr, rfl⟩
  obtain rfl := List.inj_on_of_nodup_map m.nodup_entries he hentry hid
  exact ⟨by simpa [RunRecord.isActive] using hterminal, hc⟩

theorem memoryReferences_iff (hcovered : ∀ c ∈ pruneCandidates m.entries,
      Overshot b (pruneCandidates m.entries) c → FailsBound b now (pruneCandidates m.entries) c) :
    NoneDangling m.entries (m.pruneRuns b now).1.entries (m.pruneRuns b now).1.references
      ↔ (∀ rec ∈ m.recommendations.items, ∀ c ∈ pruneCandidates m.entries,
          c.1 = rec.runId → ¬ FailsBound b now (pruneCandidates m.entries) c)
        ∧ ∀ e ∈ m.runStore.runsByIdempotency.items, ∀ c ∈ pruneCandidates m.entries, c.1 = e.2 →
          FailsBound b now (pruneCandidates m.entries) c →
          ∃ r ∈ m.runStore.runs.items, r.isActive = false
            ∧ FailsBound b now (pruneCandidates m.entries) (r.runId, r.createdAt)
            ∧ r.holdsKey e.1.1 e.1.2 = true := by
  have hdoomed : ∀ c ∈ pruneCandidates m.entries,
      (c.1 ∈ m.doomed b now ↔ FailsBound b now (pruneCandidates m.entries) c) := fun c hc =>
    (m.mem_doomed_iff b now hc).trans ⟨fun hor => hor.elim id (hcovered c hc), Or.inl⟩
  have hfails : ∀ r ∈ m.runStore.runs.items, r.runId ∈ m.doomed b now → r.isActive = false
      ∧ FailsBound b now (pruneCandidates m.entries) (r.runId, r.createdAt) := by
    intro r hr hgone
    obtain ⟨hterminal, hc⟩ := candidate_of_doomed m b now hr hgone
    exact ⟨hterminal, (hdoomed _ hc).1 hgone⟩
  rw [m.entries_pruneRuns, noneDangling_iff, m.pruneRuns_eq]
  unfold InMemoryTables.references
  simp only [KeyedList.items_filter]
  constructor
  · intro hnone
    refine ⟨fun rec hrec c hc hid hfail => ?_, fun e he c hc hid hfail => ?_⟩
    · exact hnone rec.runId (List.mem_append_left _ (List.mem_map.2 ⟨rec, hrec, rfl⟩))
        (hid ▸ mem_entries_of_candidate m hc) (hid ▸ (hdoomed c hc).2 hfail)
    · by_contra hno
      refine hnone e.2 (List.mem_append_right _ (List.mem_map.2 ⟨e, List.mem_filter.2 ⟨he, ?_⟩, rfl⟩))
        (hid ▸ mem_entries_of_candidate m hc) (hid ▸ (hdoomed c hc).2 hfail)
      rw [Bool.not_eq_true', List.any_eq_false]
      intro r hr hkey
      rw [List.mem_filter, decide_eq_true_eq] at hr
      obtain ⟨hterminal, hrfail⟩ := hfails r hr.1 hr.2
      exact hno ⟨r, hr.1, hterminal, hrfail, hkey⟩
  · rintro ⟨hrecs, hindex⟩ id hid hthere hgone
    obtain ⟨c, hc, rfl⟩ := m.exists_of_mem_doomed b now hgone
    have hfail := (hdoomed c hc).1 hgone
    rcases List.mem_append.1 hid with hid | hid
    · obtain ⟨rec, hrec, hrun⟩ := List.mem_map.1 hid
      exact hrecs rec hrec c hc hrun.symm hfail
    · obtain ⟨e, he, hrun⟩ := List.mem_map.1 hid
      rw [List.mem_filter, Bool.not_eq_true', List.any_eq_false] at he
      obtain ⟨r, hr, hterminal, hrfail, hkey⟩ := hindex e he.1 c hc hrun.symm hfail
      have hrc : (r.runId, r.createdAt) ∈ pruneCandidates m.entries :=
        mem_pruneCandidates.2 ⟨(r.runId, r.status, r.createdAt), List.mem_map.2 ⟨r, hr, rfl⟩,
          by simpa [RunRecord.isActive] using hterminal, rfl⟩
      exact he.2 r (List.mem_filter.2 ⟨hr, decide_eq_true ((hdoomed _ hrc).2 hrfail)⟩) hkey

/-- **Pruning is exact and leaves nothing dangling** in two stores of the same runs exactly when the
    negative bound takes no run that the age does not take, and nothing that stays in memory refers to a
    run that fails a bound. -/
theorem pruneCorrect_iff (hsame : m.entries = s.entries) :
    PruneCorrect m s b now ↔ Prunable m b now := by
  have hdoomed : ∀ id, id ∈ s.doomed b now ↔ id ∈ m.doomed b now := fun id => by
    rw [s.mem_doomed_iff, ← hsame]
    rfl
  have hmemory := prunesExactly_iff m.nodup_entries (fun c hc => m.mem_doomed_iff b now hc)
    (fun id => m.exists_of_mem_doomed b now)
  have hafter : (m.pruneRuns b now).1.entries = (s.pruneRuns b now).1.entries := by
    rw [m.entries_pruneRuns, s.entries_pruneRuns, hsame]
    exact List.filter_congr (fun e _ => by simp only [hdoomed])
  have hcount : (m.pruneRuns b now).2 = (s.pruneRuns b now).2 := by
    rw [m.pruneRuns_eq, s.pruneRuns_snd]
    exact congrArg some ((List.perm_ext_iff_of_nodup (List.nodup_dedup _) (List.nodup_dedup _)).2
      (fun id => by rw [List.mem_dedup, List.mem_dedup, hdoomed])).length_eq
  have hmemory : PrunesExactly b now m.entries (m.pruneRuns b now).1.entries (m.pruneRuns b now).2
      ↔ ∀ c ∈ pruneCandidates m.entries, Overshot b (pruneCandidates m.entries) c →
        FailsBound b now (pruneCandidates m.entries) c := by
    rw [m.entries_pruneRuns, m.pruneRuns_eq]
    exact hmemory
  constructor
  · intro hcorrect
    have hcovered := hmemory.1 hcorrect.memory
    obtain ⟨hrecs, hindex⟩ := (memoryReferences_iff m b now hcovered).1 hcorrect.memoryReferences
    exact ⟨hcovered, hrecs, hindex⟩
  · intro hprunable
    refine ⟨hmemory.2 hprunable.covered, ?_, (memoryReferences_iff m b now hprunable.covered).2
      ⟨hprunable.recommendations, hprunable.index⟩, ?_, hafter⟩
    · rw [← hsame, ← hafter, ← hcount]
      exact hmemory.2 hprunable.covered
    · -- SQLite deletes the recommendations of the runs that it deletes
      rw [s.entries_pruneRuns, noneDangling_iff, s.references_pruneRuns]
      intro id hid _
      obtain ⟨rec, hrec, rfl⟩ := List.mem_map.1 hid
      exact of_decide_eq_true (List.mem_filter.1 hrec).2

end Main

/-! ### Fewer runs than are to be kept

Three runs are stored and five are to be kept; `ordered[: -2]` is the oldest run. -/

/-- Pruning is exact and leaves nothing dangling, whatever the stores and the bounds. -/
def PruningExact : Prop :=
  ∀ (m : InMemoryTables) (s : SqliteTables) (b : PruneBounds) (now : Instant),
    m.entries = s.entries → PruneCorrect m s b now

private def finishedRuns : List TimedCall :=
  let run (runId : String) (createdAt : Instant) : RunRecord :=
    { runId, workspaceId := "w", subjectId := "s", status := .succeeded, createdAt
      updatedAt := createdAt }
  [(1, .saveRun (run "a" 1)), (2, .saveRun (run "b" 2)), (3, .saveRun (run "c" 3))]

private def finishedInMemory : InMemoryTables :=
  ⟨inMemoryMachine.after InMemoryRunStore.empty finishedRuns,
    KeyedList.empty.put { recommendationId := "rec", runId := "c" }⟩

private def finishedInSqlite : SqliteTables :=
  ⟨sqliteMachine.after SqliteRunStore.empty finishedRuns,
    KeyedList.empty.put { recommendationId := "rec", runId := "c" }⟩

theorem pruneCorrect_iff_finished : PruneCorrect finishedInMemory finishedInSqlite (.both 8 1) 10
      ↔ Prunable finishedInMemory (.both 8 1) 10 :=
  pruneCorrect_iff finishedInMemory finishedInSqlite (.both 8 1) 10 rfl

theorem not_pruningExact : ¬ PruningExact := by
  intro h
  have hexact := (h finishedInMemory finishedInSqlite (.count 5) 10 rfl).memory.exact
    ("a", .succeeded, 1) (by decide +kernel) (by decide)
  rcases hexact.1 (by decide +kernel) with ⟨days, hdays, -⟩ | ⟨n, hn, hle⟩
  · cases hdays
  · cases hn
    exact absurd hle (by decide +kernel)

end Himmy
