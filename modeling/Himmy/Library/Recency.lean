import Mathlib.Data.List.Dedup

/-! # The most recently used

A history of uses, the oldest first, has its values in the order of their last use. A cache of bounded
size that keeps the most recent of them need not know the history: what it holds after one more use
is what it held, with the value moved to the end and the oldest dropped (`mostRecent_append`). -/

namespace Recency

universe u

variable {α : Type u} (capacity : Option Nat) (l : List α)

/-- The last `capacity` entries; without a capacity, all. -/
def keepLast : List α :=
  capacity.elim l (fun n => l.drop (l.length - n))

@[simp] theorem keepLast_none : keepLast none l = l := rfl

theorem keepLast_some (n : Nat) (l : List α) : keepLast (some n) l = l.drop (l.length - n) := rfl

theorem keepLast_sublist : (keepLast capacity l).Sublist l := by
  cases capacity with
  | none => exact List.Sublist.refl l
  | some n => exact List.drop_sublist _ l

theorem length_keepLast_le (n : Nat) (l : List α) : (keepLast (some n) l).length ≤ n := by
  rw [keepLast_some, List.length_drop]
  omega

theorem keepLast_map {β : Type u} (f : α → β) (l : List α) :
    (keepLast capacity l).map f = keepLast capacity (l.map f) := by
  cases capacity with
  | none => rfl
  | some n => rw [keepLast_some, keepLast_some, List.map_drop, List.length_map]

theorem keepLast_of_length_le {capacity : Option Nat} {l : List α}
    (h : ∀ n ∈ capacity, l.length ≤ n) : keepLast capacity l = l := by
  cases capacity with
  | none => rfl
  | some n =>
    have hzero : l.length - n = 0 := Nat.sub_eq_zero_of_le (h n rfl)
    rw [keepLast_some, hzero, List.drop_zero]

theorem keepLast_append {capacity : Option Nat} {before l : List α}
    (h : before ≠ [] → ∃ n, capacity = some n ∧ n ≤ l.length) :
    keepLast capacity (before ++ l) = keepLast capacity l := by
  by_cases hbefore : before = []
  · rw [hbefore, List.nil_append]
  · obtain ⟨n, rfl, hn⟩ := h hbefore
    have hsum : before.length + l.length - n = before.length + (l.length - n) := by omega
    rw [keepLast_some, keepLast_some, List.length_append, hsum, List.drop_append]
    simp

theorem exists_append_keepLast : ∃ dropped, l = dropped ++ keepLast capacity l
      ∧ (dropped ≠ [] → ∃ n, capacity = some n ∧ n = (keepLast capacity l).length) := by
  cases capacity with
  | none => exact ⟨[], rfl, fun h => absurd rfl h⟩
  | some n =>
    refine ⟨l.take (l.length - n), (List.take_append_drop _ l).symm, fun hne => ⟨n, rfl, ?_⟩⟩
    have hpos : 0 < (l.take (l.length - n)).length := List.length_pos_iff.2 hne
    rw [List.length_take] at hpos
    rw [keepLast_some, List.length_drop]
    omega

section Uses

variable [DecidableEq α] (capacity : Option Nat) (uses : List α)

/-- The last `capacity` of the values by their last use. -/
def mostRecent : List α := keepLast capacity uses.dedup

@[simp] theorem mostRecent_nil : mostRecent capacity ([] : List α) = [] := by
  cases capacity with
  | none => rfl
  | some n => exact List.drop_nil

theorem dedup_append_singleton (a : α) :
    (uses ++ [a]).dedup = uses.dedup.filter (· ≠ a) ++ [a] := by
  induction uses with
  | nil => rfl
  | cons b uses ih =>
    rw [List.cons_append]
    by_cases hmem : b ∈ uses
    · rw [List.dedup_cons_of_mem (List.mem_append_left _ hmem), List.dedup_cons_of_mem hmem, ih]
    · by_cases hba : b = a
      · subst hba
        rw [List.dedup_cons_of_mem (by simp), List.dedup_cons_of_notMem hmem, ih,
          List.filter_cons_of_neg (by simp)]
      · rw [List.dedup_cons_of_notMem (by simp [hmem, hba]), List.dedup_cons_of_notMem hmem, ih,
          List.filter_cons_of_pos (by simpa using hba), List.cons_append]

theorem mostRecent_append (a : α) : mostRecent capacity (uses ++ [a])
      = keepLast capacity ((mostRecent capacity uses).filter (· ≠ a) ++ [a]) := by
  obtain ⟨dropped, hsplit, hfull⟩ := exists_append_keepLast capacity uses.dedup
  unfold mostRecent
  rw [dedup_append_singleton]
  have hfilter : uses.dedup.filter (· ≠ a) = dropped.filter (· ≠ a)
      ++ (keepLast capacity uses.dedup).filter (· ≠ a) := by
    rw [← List.filter_append, ← hsplit]
  rw [hfilter, List.append_assoc]
  refine keepLast_append (fun hne => ?_)
  have hdropped : dropped ≠ [] := by
    rintro rfl
    exact hne rfl
  obtain ⟨n, hn, hlength⟩ := hfull hdropped
  refine ⟨n, hn, ?_⟩
  -- at most one entry of the kept ones is the value that is used
  have hnodup : (keepLast capacity uses.dedup).Nodup :=
    uses.nodup_dedup.sublist (keepLast_sublist capacity _)
  have herase : (keepLast capacity uses.dedup).erase a
      = (keepLast capacity uses.dedup).filter (· ≠ a) := by
    rw [hnodup.erase_eq_filter]
    refine List.filter_congr (fun b _ => ?_)
    by_cases hb : b = a <;> simp [hb]
  have hle := List.le_length_erase (a := a) (l := keepLast capacity uses.dedup)
  rw [herase] at hle
  rw [List.length_append, List.length_singleton]
  omega

end Uses

end Recency
