import Mathlib.Data.List.Sort
import Mathlib.Data.List.Dedup

/-! # The last items of a stable sort

A list is sorted by a total preorder, and items that the preorder does not tell apart stay in the order
of the list. So there is one order of the items, `Later`, and how many items are later than one says
where the sort puts it: the items of the sort but for its last `n` are those with at least `n` later
ones (`mem_take_insertionSort_iff`). -/

universe u

namespace Newest

variable {α : Type u}

theorem not_pair_sublist_swap {l : List α} (hnodup : l.Nodup) {a b : α} (hab : [a, b].Sublist l) :
    ¬ [b, a].Sublist l := by
  induction l with
  | nil => cases hab
  | cons c l ih =>
    rw [List.nodup_cons] at hnodup
    intro hba
    rcases List.sublist_cons_iff.1 hab with habl | ⟨r, hr, hrest⟩
    · rcases List.sublist_cons_iff.1 hba with hbal | ⟨r, hr, hrest⟩
      · exact ih hnodup.2 habl hbal
      · obtain ⟨rfl, rfl⟩ := List.cons.inj hr
        exact hnodup.1 (habl.subset (List.mem_cons_of_mem _ List.mem_cons_self))
    · obtain ⟨rfl, rfl⟩ := List.cons.inj hr
      rcases List.sublist_cons_iff.1 hba with hbal | ⟨r, hr, hrest'⟩
      · exact hnodup.1 (hbal.subset (List.mem_cons_of_mem _ List.mem_cons_self))
      · obtain ⟨rfl, rfl⟩ := List.cons.inj hr
        exact hnodup.1 (hrest.subset List.mem_cons_self)

theorem pair_sublist_or {l : List α} {a b : α} (ha : a ∈ l) (hb : b ∈ l) (hne : a ≠ b) :
    [a, b].Sublist l ∨ [b, a].Sublist l := by
  induction l with
  | nil => cases ha
  | cons c l ih =>
    rcases List.mem_cons.1 ha with rfl | hal
    · rcases List.mem_cons.1 hb with rfl | hbl
      · exact absurd rfl hne
      · exact Or.inl (List.Sublist.cons_cons _ (List.singleton_sublist.2 hbl))
    · rcases List.mem_cons.1 hb with rfl | hbl
      · exact Or.inr (List.Sublist.cons_cons _ (List.singleton_sublist.2 hal))
      · exact (ih hal hbl).imp (List.Sublist.cons _) (List.Sublist.cons _)

theorem mem_take_iff_of_pairwise {R : α → α → Prop} [DecidableRel R] {s : List α}
    (hs : s.Pairwise (fun a b => R a b ∧ ¬ R b a)) (hirrefl : ∀ a, ¬ R a a) {x : α} (hx : x ∈ s)
    (n : Nat) : x ∈ s.take (s.length - n) ↔ n ≤ s.countP (fun b => R x b) := by
  induction s with
  | nil => cases hx
  | cons a s ih =>
    rw [List.pairwise_cons] at hs
    rw [List.length_cons]
    by_cases hxa : x = a
    · -- the first item comes before every other one
      subst hxa
      have hall : s.countP (fun b => R x b) = s.length :=
        List.countP_eq_length.2 (fun b hb => decide_eq_true (hs.1 b hb).1)
      rw [List.countP_cons_of_neg (by simpa using hirrefl x), hall]
      constructor
      · intro hmem
        by_contra hlt
        rw [show s.length + 1 - n = 0 by omega] at hmem
        cases hmem
      · intro hle
        rw [show s.length + 1 - n = (s.length - n) + 1 by omega]
        exact List.mem_cons_self
    · have hx : x ∈ s := (List.mem_cons.1 hx).resolve_left hxa
      rw [List.countP_cons_of_neg (by simpa using (hs.1 x hx).2), ← ih hs.2 hx]
      by_cases hle : n ≤ s.length
      · rw [show s.length + 1 - n = (s.length - n) + 1 by omega, List.take_succ_cons,
          List.mem_cons]
        exact ⟨fun h => h.resolve_left hxa, Or.inr⟩
      · rw [show s.length + 1 - n = 0 by omega, show s.length - n = 0 by omega]
        simp

section Sorting

variable (r : α → α → Prop)

/-- `b` is above `a` in the preorder, or beside it and after it in the list. -/
def Later (l : List α) (a b : α) : Prop := r a b ∧ (r b a → [a, b].Sublist l)

variable {r} {l : List α}

theorem not_later_self (hnodup : l.Nodup) (a : α) : ¬ Later r l a a := fun h =>
  not_pair_sublist_swap hnodup (h.2 h.1) (h.2 h.1)

variable [DecidableRel r]

theorem pairwise_later (htrans : ∀ a b c, r a b → r b c → r a c) (htotal : ∀ a b, r a b ∨ r b a)
    (hnodup : l.Nodup) :
    (l.insertionSort r).Pairwise (fun a b => Later r l a b ∧ ¬ Later r l b a) := by
  have : Std.Total r := ⟨htotal⟩
  have : IsTrans α r := ⟨htrans⟩
  have hperm := List.perm_insertionSort r l
  have hsorted := List.pairwise_insertionSort r l
  rw [List.pairwise_iff_forall_sublist] at hsorted ⊢
  intro a b hab
  have hswap : r b a → ¬ [b, a].Sublist l := fun hba hsub =>
    not_pair_sublist_swap (hperm.nodup_iff.2 hnodup) hab (List.pair_sublist_insertionSort hba hsub)
  have hne : a ≠ b := by
    rintro rfl
    exact not_pair_sublist_swap (hperm.nodup_iff.2 hnodup) hab hab
  have hmem : ∀ c ∈ [a, b], c ∈ l := fun c hc => hperm.mem_iff.1 (hab.subset hc)
  have hle := hsorted hab
  exact ⟨⟨hle, fun hba => (pair_sublist_or (hmem a (by simp)) (hmem b (by simp)) hne).resolve_right
    (hswap hba)⟩, fun hlater => hswap hlater.1 (hlater.2 hle)⟩

variable [DecidableEq α]

instance (l : List α) : DecidableRel (Later r l) := fun a b =>
  inferInstanceAs (Decidable (r a b ∧ (r b a → [a, b].Sublist l)))

variable (r) in
def laterCount (l : List α) (x : α) : Nat := l.countP (fun b => Later r l x b)

/-- **All but the last `n` items of the sort** are those that at least `n` items are later than. -/
theorem mem_take_insertionSort_iff (htrans : ∀ a b c, r a b → r b c → r a c)
    (htotal : ∀ a b, r a b ∨ r b a) (hnodup : l.Nodup) {x : α} (hx : x ∈ l) (n : Nat) :
    x ∈ (l.insertionSort r).take (l.length - n) ↔ n ≤ laterCount r l x := by
  have hperm := List.perm_insertionSort r l
  rw [laterCount, ← hperm.countP_eq, ← hperm.length_eq]
  exact mem_take_iff_of_pairwise (pairwise_later htrans htotal hnodup) (not_later_self hnodup)
    (hperm.mem_iff.2 hx) n

theorem laterCount_lt (hnodup : l.Nodup) {x : α} (hx : x ∈ l) : laterCount r l x < l.length := by
  refine Nat.lt_of_le_of_ne (List.countP_le_length) (fun h => ?_)
  exact not_later_self hnodup x (of_decide_eq_true (List.countP_eq_length.1 h x hx))

end Sorting

end Newest
