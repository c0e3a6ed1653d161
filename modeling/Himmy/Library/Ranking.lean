/-! # The best of a ranking

A ranking is a list, the best entry first. A search that keeps what passes a test and then cuts gives
the best of what passes; one that cuts first, to a bound, gives the same exactly when the bound was
wide enough (`take_filter_take_eq_iff`). Two tests choose the same best entries when they agree on
every entry that is looked at before there are enough (`take_filter_eq_iff`). -/

namespace Ranking

universe u

variable {α : Type u} (n : Nat) (passes : α → Bool) (ranking : List α)

/-- The best `n` entries that pass. -/
def best : List α := (ranking.filter passes).take n

@[simp] theorem length_best :
    (best n passes ranking).length = min n (ranking.countP passes) := by
  rw [best, List.length_take, List.countP_eq_length_filter]

theorem mem_of_mem_best {n : Nat} {passes : α → Bool} {ranking : List α} {x : α}
    (h : x ∈ best n passes ranking) : x ∈ ranking ∧ passes x = true :=
  List.mem_filter.1 (List.mem_of_mem_take h)

theorem best_eq_filter {n : Nat} {passes : α → Bool} {ranking : List α}
    (h : ranking.countP passes ≤ n) : best n passes ranking = ranking.filter passes := by
  rw [best, List.take_of_length_le]
  rwa [← List.countP_eq_length_filter]

theorem take_append_eq_take_iff (kept lost : List α) :
    kept.take n = (kept ++ lost).take n ↔ min n (kept.length + lost.length) ≤ kept.length := by
  rw [List.take_append, eq_comm, List.append_right_eq_self, List.take_eq_nil_iff,
    List.eq_nil_iff_length_eq_zero]
  omega

/-- A cut before the test loses nothing when the entries above it that pass are as many as are asked
    for, or all. -/
theorem take_filter_take_eq_iff (n bound : Nat) (passes : α → Bool) (ranking : List α) :
    best n passes (ranking.take bound) = best n passes ranking
      ↔ min n (ranking.countP passes) ≤ (ranking.take bound).countP passes := by
  have hsplit : ranking.filter passes
      = (ranking.take bound).filter passes ++ (ranking.drop bound).filter passes := by
    rw [← List.filter_append, List.take_append_drop]
  unfold best
  rw [hsplit, take_append_eq_take_iff, ← List.length_append, ← hsplit, List.countP_eq_length_filter,
    List.countP_eq_length_filter]

/-- An entry is looked at by a search for `n` that pass when fewer stand before it. -/
def Reached (x : α) : Prop :=
  ∃ before after, ranking = before ++ x :: after ∧ before.countP passes < n

theorem reached_cons_iff (a x : α) (ranking : List α) : Reached n passes (a :: ranking) x
      ↔ x = a ∧ 0 < n ∨ Reached (n - (if passes a then 1 else 0)) passes ranking x := by
  constructor
  · rintro ⟨before, after, hranking, hcount⟩
    rcases List.cons_eq_append_iff.1 hranking with ⟨rfl, hcons⟩ | ⟨rest, rfl, rfl⟩
    · injection hcons with hx
      exact .inl ⟨hx, by omega⟩
    · refine .inr ⟨rest, after, rfl, ?_⟩
      rw [List.countP_cons] at hcount
      omega
  · rintro (⟨rfl, hn⟩ | ⟨before, after, rfl, hcount⟩)
    · exact ⟨[], ranking, rfl, by simpa using hn⟩
    · refine ⟨a :: before, after, rfl, ?_⟩
      rw [List.countP_cons]
      omega

theorem take_filter_eq_iff (p q : α → Bool) (ranking : List α) :
    best n p ranking = best n q ranking ↔ ∀ x, Reached n p ranking x → p x = q x := by
  unfold best
  induction ranking generalizing n with
  | nil => simp [Reached]
  | cons a ranking ih =>
    by_cases hn : n = 0
    · simp [hn, Reached]
    · have hhead : Reached n p (a :: ranking) a := ⟨[], ranking, rfl, by simp; omega⟩
      obtain ⟨m, rfl⟩ : ∃ m, n = m + 1 := ⟨n - 1, by omega⟩
      by_cases hpq : p a = q a
      · -- the tests agree on the head, and the tails are compared
        have htail : (∀ x, Reached (m + 1) p (a :: ranking) x → p x = q x)
            ↔ ∀ x, Reached (m + 1 - (if p a then 1 else 0)) p ranking x → p x = q x := by
          simp only [reached_cons_iff]
          constructor
          · intro h x hx
            exact h x (.inr hx)
          · rintro h x (⟨rfl, -⟩ | hx)
            · exact hpq
            · exact h x hx
        rw [htail, ← ih]
        by_cases hp : p a
        · simp [hp, hpq ▸ hp]
        · simp [hp, hpq ▸ hp]
      · -- the head is kept by one of them, and no entry that the other keeps equals it
        refine iff_of_false ?_ (fun h => hpq (h a hhead))
        intro heq
        by_cases hp : p a
        · have hq : ¬ q a := fun hq => hpq (hp.trans hq.symm)
          rw [List.filter_cons_of_pos hp, List.filter_cons_of_neg hq, List.take_succ_cons] at heq
          have hmem : a ∈ (ranking.filter q).take (m + 1) := heq ▸ List.mem_cons_self
          exact hq (List.mem_filter.1 (List.mem_of_mem_take hmem)).2
        · have hq : q a := by simpa [hp] using hpq
          rw [List.filter_cons_of_neg hp, List.filter_cons_of_pos hq, List.take_succ_cons] at heq
          have hmem : a ∈ (ranking.filter p).take (m + 1) := heq ▸ List.mem_cons_self
          exact hp (List.mem_filter.1 (List.mem_of_mem_take hmem)).2

end Ranking
