import Himmy.Library.Lists

/-! # The first items of an order

A list is sorted by a key, largest first, and cut off after `n` items. The sort may leave items of
one key in any order, so the items kept are determined only where the cut does not fall between two
of them: then every sorted arrangement keeps the same items (`take_perm`). -/

universe u v

namespace Windows

variable {α : Type u} {β : Type v} [LinearOrder β] {key : α → β} {l l' : List α} {n : Nat}

/-- The order in which a query comes to its items. -/
structure Arrangement (α : Type u) where
  arrange : List α → List α
  perm : ∀ l, (arrange l).Perm l

def Falling (key : α → β) (l : List α) : Prop := l.Pairwise (fun a b => key b ≤ key a)

def CutsBetween (key : α → β) (n : Nat) (l : List α) : Prop :=
  ∀ a ∈ l.take n, ∀ b ∈ l.drop n, key a ≠ key b

instance (key : α → β) (n : Nat) (l : List α) : Decidable (CutsBetween key n l) :=
  inferInstanceAs (Decidable (∀ a ∈ l.take n, ∀ b ∈ l.drop n, key a ≠ key b))

theorem falling_mergeSort (key : α → β) (l : List α) :
    Falling key (l.mergeSort (fun a b => key b ≤ key a)) :=
  Lists.pairwise_mergeSort (r := fun a b : α => key b ≤ key a) (fun hab hbc => le_trans hbc hab)
    (fun a b => le_total (key b) (key a)) l

theorem map_eq_of_perm (h : l.Perm l') (hl : Falling key l) (hl' : Falling key l') :
    l.map key = l'.map key := by
  have hkeys : (l.map key).Pairwise (fun x y => y ≤ x) := List.pairwise_map.2 hl
  have hkeys' : (l'.map key).Pairwise (fun x y => y ≤ x) := List.pairwise_map.2 hl'
  refine List.Perm.eq_of_pairwise ?_ hkeys hkeys' (h.map key)
  intro a b _ _ hba hab
  exact le_antisymm hab hba

theorem take_eq_filter {p : α → Bool} (hin : ∀ a ∈ l.take n, p a = true)
    (hout : ∀ a ∈ l.drop n, p a = false) : l.take n = l.filter p := by
  conv_rhs => rw [← List.take_append_drop n l]
  rw [List.filter_append, List.filter_eq_self.2 hin, List.filter_eq_nil_iff.2, List.append_nil]
  intro a ha
  simp [hout a ha]

/-- **The items before a cut between two keys do not depend on how the list is sorted.** -/
theorem take_perm (h : l.Perm l') (hl : Falling key l) (hl' : Falling key l')
    (hcut : CutsBetween key n l) : (l.take n).Perm (l'.take n) := by
  have hkeys := map_eq_of_perm h hl hl'
  by_cases hend : l.length ≤ n
  · rw [List.take_of_length_le hend, List.take_of_length_le (h.length_eq ▸ hend)]
    exact h
  obtain ⟨b, rest, hdrop⟩ := List.exists_cons_of_ne_nil
    (fun hnil => hend (List.drop_eq_nil_iff.1 hnil))
  -- the key of the first item after the cut tells the two sides apart
  have hin : ∀ a ∈ l.take n, key b < key a := by
    intro a ha
    have hb : b ∈ l.drop n := by rw [hdrop]; exact List.mem_cons_self
    have hfall : Falling key (l.take n ++ l.drop n) := by rw [List.take_append_drop]; exact hl
    exact lt_of_le_of_ne ((List.pairwise_append.1 hfall).2.2 a ha b hb) (Ne.symm (hcut a ha b hb))
  have hout : ∀ a ∈ l.drop n, key a ≤ key b := by
    intro a ha
    have hfall : Falling key (b :: rest) := by
      rw [← hdrop]
      exact hl.sublist (List.drop_sublist n l)
    rw [hdrop] at ha
    rcases List.mem_cons.1 ha with rfl | ha
    · exact le_rfl
    · exact (List.pairwise_cons.1 hfall).1 a ha
  have hin' : ∀ a ∈ l'.take n, key b < key a := by
    intro a ha
    have hmem : key a ∈ (l.take n).map key := by
      rw [List.map_take, hkeys, ← List.map_take]
      exact List.mem_map_of_mem ha
    obtain ⟨c, hc, hca⟩ := List.mem_map.1 hmem
    exact hca ▸ hin c hc
  have hout' : ∀ a ∈ l'.drop n, key a ≤ key b := by
    intro a ha
    have hmem : key a ∈ (l.drop n).map key := by
      rw [List.map_drop, hkeys, ← List.map_drop]
      exact List.mem_map_of_mem ha
    obtain ⟨c, hc, hca⟩ := List.mem_map.1 hmem
    exact hca ▸ hout c hc
  rw [take_eq_filter (p := fun a => key b < key a) (fun a ha => decide_eq_true (hin a ha))
      (fun a ha => decide_eq_false (not_lt.2 (hout a ha))),
    take_eq_filter (p := fun a => key b < key a) (fun a ha => decide_eq_true (hin' a ha))
      (fun a ha => decide_eq_false (not_lt.2 (hout' a ha)))]
  exact h.filter _

end Windows
