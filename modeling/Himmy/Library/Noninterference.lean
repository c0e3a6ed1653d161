import Himmy.Library.Transition

/-! # Noninterference

Of the labels of a run some are kept, and it is asked what the run would have been without the
others. A relation between the run and the purged run shows that the kept labels get the same
answers, as soon as a kept label keeps the relation and gets the same answer on both sides, and a
label that is dropped keeps the relation on its own (`unwinding`). -/

universe u v w x

namespace Machine

variable {σ : Type u} {α : Type v} {ο : Type w} {τ : Type x} (M : Machine σ α ο)

section Kept

variable (keep : σ → α → Bool)

def kept : σ → List α → List α
  | _, [] => []
  | s, a :: as =>
    if keep s a then a :: kept (M.step s a).1 as else kept (M.step s a).1 as

def keptAnswers : σ → List α → List ο
  | _, [] => []
  | s, a :: as =>
    if keep s a then (M.step s a).2 :: keptAnswers (M.step s a).1 as
    else keptAnswers (M.step s a).1 as

end Kept

/-- What a relation between a run and its purged run has to satisfy. -/
structure Unwinding (M : Machine σ α ο) (N : Machine τ α ο) (keep : σ → α → Bool)
    (C : σ → α → Prop) (R : σ → τ → Prop) : Prop where
  kept : ∀ {s t a}, R s t → C s a → keep s a = true →
    R (M.step s a).1 (N.step t a).1 ∧ (M.step s a).2 = (N.step t a).2
  dropped : ∀ {s t a}, R s t → C s a → keep s a = false → R (M.step s a).1 t

/-- **Unwinding.** The purged run gives the kept labels the answers that they got. -/
theorem Unwinding.keptAnswers_eq {M : Machine σ α ο} {N : Machine τ α ο} {keep : σ → α → Bool}
    {C : σ → α → Prop} {R : σ → τ → Prop} (h : M.Unwinding N keep C R) {s : σ} {t : τ} {as : List α}
    (hR : R s t) (hC : M.AlongRun C s as) : M.keptAnswers keep s as = N.answers t (M.kept keep s as)
      ∧ R (M.after s as) (N.after t (M.kept keep s as)) := by
  induction as generalizing s t with
  | nil => exact ⟨rfl, hR⟩
  | cons a as ih =>
    rw [Machine.keptAnswers, Machine.kept, after]
    by_cases hkeep : keep s a = true
    · obtain ⟨hR', hanswer⟩ := h.kept hR hC.1 hkeep
      obtain ⟨hanswers, hafter⟩ := ih hR' hC.2
      rw [if_pos hkeep, if_pos hkeep, answers, after, hanswer, hanswers]
      exact ⟨rfl, hafter⟩
    · rw [if_neg hkeep, if_neg hkeep]
      exact ih (h.dropped hR hC.1 (by simpa using hkeep)) hC.2

end Machine
