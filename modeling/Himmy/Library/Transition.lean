import Mathlib.Data.List.Basic
import Mathlib.Order.Basic

/-! # Partial transition systems and machines with answers

`LTS` is a system whose labelled steps may be unavailable; `exec` runs a list of labels and fails
with the first unavailable one. `AlongRun C` says that a condition on a state and the label taken
from it holds at every step of a run: it is how a theorem restricts attention to the runs whose
steps meet a condition. The two rules that carry the inductions are `exec_invariant` (what every
step preserves, a run preserves) and `exec_measure_le` (a quantity that grows by at most the tally
of a step grows, over a run, by at most the tally of the run).

`Machine` is a total system that answers every label. `Machine.simulation` is its simulation rule:
two machines whose steps keep a relation and give related answers stay related, and give related
answers, along every sequence of labels that meets a condition at every step. -/

universe u v w x

/-- A labelled transition system with at most one successor for each label. -/
structure LTS (σ : Type u) (α : Type v) where
  step : σ → α → Option σ

namespace LTS

variable {σ : Type u} {α : Type v} (M : LTS σ α)

def exec : σ → List α → Option σ
  | s, [] => some s
  | s, a :: as => (M.step s a).bind (fun s' => exec s' as)

@[simp] theorem exec_nil (s : σ) : M.exec s [] = some s := rfl

variable {as : List α}

theorem exec_cons_eq_some {s t : σ} {a : α} :
    M.exec s (a :: as) = some t ↔ ∃ s', M.step s a = some s' ∧ M.exec s' as = some t := by
  simp [exec, Option.bind_eq_some_iff]

theorem exec_append_eq_some {s t : σ} {as bs : List α} :
    M.exec s (as ++ bs) = some t ↔ ∃ s', M.exec s as = some s' ∧ M.exec s' bs = some t := by
  induction as generalizing s with
  | nil => simp
  | cons a as ih =>
    simp only [List.cons_append, exec_cons_eq_some, ih]
    constructor
    · rintro ⟨s₁, h₁, s₂, h₂, h₃⟩
      exact ⟨s₂, ⟨s₁, h₁, h₂⟩, h₃⟩
    · rintro ⟨s₂, ⟨s₁, h₁, h₂⟩, h₃⟩
      exact ⟨s₁, h₁, s₂, h₂, h₃⟩

/-- `C` holds of every state of the run and the label taken from it. -/
def AlongRun (C : σ → α → Prop) : σ → List α → Prop
  | _, [] => True
  | s, a :: as => C s a ∧ ∀ s', M.step s a = some s' → AlongRun C s' as

instance AlongRun.decidable (M : LTS σ α) (C : σ → α → Prop) [∀ s a, Decidable (C s a)] :
    ∀ s as, Decidable (M.AlongRun C s as)
  | _, [] => inferInstanceAs (Decidable True)
  | s, a :: as =>
    match h : M.step s a with
    | none => decidable_of_iff (C s a)
        ⟨fun hC => ⟨hC, fun s' hs => by rw [h] at hs; cases hs⟩, And.left⟩
    | some s' =>
      have := AlongRun.decidable M C s' as
      decidable_of_iff (C s a ∧ M.AlongRun C s' as)
        ⟨fun hC => ⟨hC.1, fun s'' hs => by rw [h] at hs; cases hs; exact hC.2⟩,
          fun hC => ⟨hC.1, hC.2 s' h⟩⟩

variable {C : σ → α → Prop}

theorem AlongRun.of_append {M : LTS σ α} {s t : σ} {as bs : List α}
    (h : M.AlongRun C s (as ++ bs)) (hrun : M.exec s as = some t) : M.AlongRun C t bs := by
  induction as generalizing s with
  | nil => rw [exec_nil] at hrun; cases hrun; exact h
  | cons a as ih =>
    obtain ⟨s', hstep, hrun⟩ := M.exec_cons_eq_some.1 hrun
    exact ih (h.2 s' hstep) hrun

theorem AlongRun.prefix {M : LTS σ α} {s : σ} {as bs : List α}
    (h : M.AlongRun C s (as ++ bs)) : M.AlongRun C s as := by
  induction as generalizing s with
  | nil => trivial
  | cons a as ih => exact ⟨h.1, fun s' hstep => ih (h.2 s' hstep)⟩

theorem AlongRun.mono {M : LTS σ α} {C D : σ → α → Prop} (hCD : ∀ s a, C s a → D s a) {s : σ}
    (h : M.AlongRun C s as) : M.AlongRun D s as := by
  induction as generalizing s with
  | nil => trivial
  | cons a as ih => exact ⟨hCD s a h.1, fun s' hstep => ih (h.2 s' hstep)⟩

theorem AlongRun.and {M : LTS σ α} {C D : σ → α → Prop} {s : σ}
    (hC : M.AlongRun C s as) (hD : M.AlongRun D s as) :
    M.AlongRun (fun s a => C s a ∧ D s a) s as := by
  induction as generalizing s with
  | nil => trivial
  | cons a as ih => exact ⟨⟨hC.1, hD.1⟩, fun s' hstep => ih (hC.2 s' hstep) (hD.2 s' hstep)⟩

theorem AlongRun.of_forall (M : LTS σ α) {D : α → Prop} (s : σ)
    (h : ∀ a ∈ as, D a) : M.AlongRun (fun _ a => D a) s as := by
  induction as generalizing s with
  | nil => trivial
  | cons a as ih =>
    exact ⟨h a (List.mem_cons_self ..), fun s' _ => ih s' (fun b hb => h b (List.mem_cons_of_mem _ hb))⟩

variable {I : σ → Prop}

/-- **Run invariants.** What every step meeting `C` preserves holds after every run whose steps all
    meet `C`. -/
theorem exec_invariant (hstep : ∀ s a s', I s → C s a → M.step s a = some s' → I s') {s t : σ}
    (hI : I s) (hC : M.AlongRun C s as) (hrun : M.exec s as = some t) : I t := by
  induction as generalizing s with
  | nil => rw [exec_nil] at hrun; cases hrun; exact hI
  | cons a as ih =>
    obtain ⟨s', hs, hrun⟩ := M.exec_cons_eq_some.1 hrun
    exact ih (hstep s a s' hI hC.1 hs) (hC.2 s' hs) hrun

/-- **Shown along a run.** What an invariant and the condition say of a step holds of every step of
    a run whose steps all meet the condition. -/
theorem alongRun_of_invariant {C E : σ → α → Prop}
    (hstep : ∀ s a s', I s → C s a → M.step s a = some s' → I s')
    (hshow : ∀ s a, I s → C s a → E s a) {s : σ} (hI : I s)
    (hC : M.AlongRun C s as) : M.AlongRun E s as := by
  induction as generalizing s with
  | nil => trivial
  | cons a as ih =>
    refine ⟨hshow s a hI hC.1, ?_⟩
    intro s' hs
    exact ih (hstep s a s' hI hC.1 hs) (hC.2 s' hs)

theorem not_alongRun {E : σ → α → Prop} {s t : σ} {a : α}
    (hrun : M.exec s as = some t) (h : ¬ E t a) : ¬ M.AlongRun E s (as ++ [a]) := by
  intro hE
  exact h (hE.of_append hrun).1

/-- **Exact conditions.** When `C` is what a step has to meet to show `E` and keep `I`, a run meets
    `C` throughout exactly when it shows `E` throughout and passes through states with `I` only. -/
theorem alongRun_iff_kept {C E : σ → α → Prop}
    (hstep : ∀ s a s', I s → M.step s a = some s' → (C s a ↔ E s a ∧ I s')) {s t : σ}
    (hI : I s) (hrun : M.exec s as = some t) : M.AlongRun C s as ↔
      M.AlongRun E s as ∧ ∀ pre post s', as = pre ++ post → M.exec s pre = some s' → I s' := by
  induction as generalizing s with
  | nil =>
    simp only [AlongRun, true_and, true_iff]
    intro pre post s' happ hpre
    rw [(List.append_eq_nil_iff.1 happ.symm).1] at hpre
    cases hpre
    exact hI
  | cons a as ih =>
    obtain ⟨s₁, hs, hrun⟩ := M.exec_cons_eq_some.1 hrun
    constructor
    · intro h
      obtain ⟨hE, hI₁⟩ := (hstep s a s₁ hI hs).1 h.1
      obtain ⟨hrest, hkept⟩ := (ih hI₁ hrun).1 (h.2 s₁ hs)
      refine ⟨⟨hE, fun s' hs' => by rw [hs] at hs'; cases hs'; exact hrest⟩, ?_⟩
      intro pre post s' happ hpre
      cases pre with
      | nil => cases hpre; exact hI
      | cons b pre =>
        simp only [List.cons_append, List.cons.injEq] at happ
        obtain ⟨rfl, happ⟩ := happ
        obtain ⟨s₂, hs₂, hpre⟩ := M.exec_cons_eq_some.1 hpre
        rw [hs] at hs₂
        cases hs₂
        exact hkept pre post s' happ hpre
    · rintro ⟨hE, hkept⟩
      have hI₁ : I s₁ := hkept [a] as s₁ rfl (M.exec_cons_eq_some.2 ⟨s₁, hs, rfl⟩)
      refine ⟨(hstep s a s₁ hI hs).2 ⟨hE.1, hI₁⟩, fun s' hs' => ?_⟩
      rw [hs] at hs'
      cases hs'
      refine (ih hI₁ hrun).2 ⟨hE.2 s₁ hs, fun pre post s' happ hpre => ?_⟩
      exact hkept (a :: pre) post s' (by rw [happ]; rfl)
        (M.exec_cons_eq_some.2 ⟨s₁, hs, hpre⟩)

theorem at_step
    (hstep : ∀ s a s', I s → C s a → M.step s a = some s' → I s') {s t : σ} {pre post : List α}
    {a : α} (hI : I s) (hC : M.AlongRun C s (pre ++ a :: post)) (hrun : M.exec s pre = some t) :
    I t ∧ C t a :=
  ⟨M.exec_invariant hstep hI hC.prefix hrun, (hC.of_append hrun).1⟩

/-- **Deletion.** When the steps of the kept labels are simulated and those of the others leave a
    relation as it is, the run of the kept labels alone ends in a related state. -/
theorem exec_filter {keep : α → Bool} {R : σ → σ → Prop}
    (hkeep : ∀ s s₀ a s', R s s₀ → C s a → keep a = true → M.step s a = some s' →
      ∃ s₀', M.step s₀ a = some s₀' ∧ R s' s₀')
    (hdrop : ∀ s s₀ a s', R s s₀ → C s a → keep a = false → M.step s a = some s' → R s' s₀)
    {s s₀ t : σ} (hR : R s s₀) (hC : M.AlongRun C s as)
    (hrun : M.exec s as = some t) : ∃ t₀, M.exec s₀ (as.filter keep) = some t₀ ∧ R t t₀ := by
  induction as generalizing s s₀ with
  | nil => rw [exec_nil] at hrun; cases hrun; exact ⟨s₀, rfl, hR⟩
  | cons a as ih =>
    obtain ⟨s', hs, hrun⟩ := M.exec_cons_eq_some.1 hrun
    cases hk : keep a with
    | true =>
      obtain ⟨s₀', hs₀, hR'⟩ := hkeep s s₀ a s' hR hC.1 hk hs
      obtain ⟨t₀, hrun₀, hR₀⟩ := ih hR' (hC.2 s' hs) hrun
      refine ⟨t₀, ?_, hR₀⟩
      rw [List.filter_cons_of_pos hk]
      exact M.exec_cons_eq_some.2 ⟨s₀', hs₀, hrun₀⟩
    | false =>
      rw [List.filter_cons_of_neg (by simp [hk])]
      exact ih (hdrop s s₀ a s' hR hC.1 hk hs) (hC.2 s' hs) hrun

/-- Sum of a per-step quantity over a run (steps that are unavailable count nothing). -/
def tally (f : σ → α → σ → Nat) : σ → List α → Nat
  | _, [] => 0
  | s, a :: as =>
    match M.step s a with
    | some s' => f s a s' + tally f s' as
    | none => 0

/-- **Run measures.** A quantity bounded by `B` at the start, and raised by a step by at most the
    step's tally once it is at the bound, never exceeds `B` plus the tally of the run. -/
theorem exec_measure_le {μ : σ → Nat} {f : σ → α → σ → Nat} {B : Nat}
    (hinv : ∀ s a s', I s → M.step s a = some s' → I s')
    (hstep : ∀ s a s' k, I s → M.step s a = some s' → μ s ≤ B + k → μ s' ≤ B + (k + f s a s'))
    {s t : σ} (hI : I s) (hs : μ s ≤ B) (hrun : M.exec s as = some t) :
    μ t ≤ B + M.tally f s as := by
  suffices h : ∀ k, μ s ≤ B + k → μ t ≤ B + (k + M.tally f s as) by
    simpa using h 0 (by simpa using hs)
  clear hs
  induction as generalizing s with
  | nil => rw [exec_nil] at hrun; cases hrun; intro k hk; simpa [tally] using hk
  | cons a as ih =>
    intro k hk
    obtain ⟨s', hs, hrun⟩ := M.exec_cons_eq_some.1 hrun
    have := ih (hinv s a s' hI hs) hrun _ (hstep s a s' k hI hs hk)
    simpa [tally, hs, Nat.add_assoc] using this

/-! ### What a run shows -/

section Observed

variable {γ : Type x} (f : σ → α → List γ)

def observed : σ → List α → List γ
  | _, [] => []
  | s, a :: as =>
    match M.step s a with
    | some s' => f s a ++ observed s' as
    | none => []

variable {M f}

theorem observed_cons_of_step {s s' : σ} {a : α} (h : M.step s a = some s') (as : List α) :
    M.observed f s (a :: as) = f s a ++ M.observed f s' as := by
  rw [observed, h]

theorem observed_append {s t : σ} {as : List α} (hrun : M.exec s as = some t) (bs : List α) :
    M.observed f s (as ++ bs) = M.observed f s as ++ M.observed f t bs := by
  induction as generalizing s with
  | nil => rw [exec_nil] at hrun; cases hrun; rfl
  | cons a as ih =>
    obtain ⟨s', hs, hrun⟩ := M.exec_cons_eq_some.1 hrun
    rw [List.cons_append, observed_cons_of_step hs, observed_cons_of_step hs, ih hrun,
      List.append_assoc]

/-- **Run accounts.** What every step keeps between the state and what was shown so far holds after
    every run. -/
theorem exec_observed {I : List γ → σ → Prop}
    (hstep : ∀ l s a s', I l s → M.step s a = some s' → I (l ++ f s a) s') {l : List γ} {s t : σ}
    {as : List α} (hI : I l s) (hrun : M.exec s as = some t) : I (l ++ M.observed f s as) t := by
  induction as generalizing l s with
  | nil => rw [exec_nil] at hrun; cases hrun; rw [observed, List.append_nil]; exact hI
  | cons a as ih =>
    obtain ⟨s', hs, hrun⟩ := M.exec_cons_eq_some.1 hrun
    rw [observed_cons_of_step hs, ← List.append_assoc]
    exact ih (hstep l s a s' hI hs) hrun

end Observed

/-! ### A clock

Labels that carry clock readings, in the order in which they are taken. -/

section Clock

variable {τ : Type w} [LE τ] [DecidableLE τ]

def clocked (readings : α → List τ) : LTS (σ × τ) α where
  step s a :=
    if (s.2 :: readings a).Pairwise (· ≤ ·) then
      (M.step s.1 a).map (fun s' => (s', (readings a).getLastD s.2))
    else none

theorem clocked_step_eq_some {readings : α → List τ} {s t : σ × τ} {a : α} :
    (M.clocked readings).step s a = some t ↔
      (s.2 :: readings a).Pairwise (· ≤ ·) ∧ M.step s.1 a = some t.1
        ∧ (readings a).getLastD s.2 = t.2 := by
  obtain ⟨t, c⟩ := t
  unfold clocked
  simp only
  split
  · next h => simp [h]
  · next h => simp [h]

end Clock

theorem clock_le_of_step {τ : Type w} [Preorder τ] [DecidableLE τ] {readings : α → List τ}
    {s t : σ × τ} {a : α} (h : (M.clocked readings).step s a = some t) : s.2 ≤ t.2 := by
  obtain ⟨hsorted, -, hlast⟩ := (M.clocked_step_eq_some).1 h
  rw [← hlast]
  cases hreadings : readings a with
  | nil => exact le_rfl
  | cons c cs =>
    rw [hreadings] at hsorted
    exact (List.pairwise_cons.1 hsorted).1 _
      (by rw [List.getLastD_cons, List.getLastD_eq_getLast?]; exact List.mem_cons.2 (by
        cases hcs : cs.getLast? with
        | none => exact Or.inl rfl
        | some d => exact Or.inr (List.mem_of_getLast? hcs)))

end LTS

/-- A system that takes every label and answers it. -/
structure Machine (σ : Type u) (α : Type v) (ο : Type w) where
  step : σ → α → σ × ο

namespace Machine

variable {σ : Type u} {α : Type v} {ο : Type w}

def after (M : Machine σ α ο) : σ → List α → σ
  | s, [] => s
  | s, a :: as => after M (M.step s a).1 as

def history (M : Machine σ α ο) : σ → List α → List (α × ο)
  | _, [] => []
  | s, a :: as => (a, (M.step s a).2) :: history M (M.step s a).1 as

def answers (M : Machine σ α ο) : σ → List α → List ο
  | _, [] => []
  | s, a :: as => (M.step s a).2 :: answers M (M.step s a).1 as

/-- `C` holds of every state on the way and the label taken from it. -/
def AlongRun (M : Machine σ α ο) (C : σ → α → Prop) : σ → List α → Prop
  | _, [] => True
  | s, a :: as => C s a ∧ AlongRun M C (M.step s a).1 as

instance AlongRun.decidable (M : Machine σ α ο) (C : σ → α → Prop) [∀ s a, Decidable (C s a)] :
    ∀ s as, Decidable (M.AlongRun C s as)
  | _, [] => inferInstanceAs (Decidable True)
  | s, a :: as =>
    have := AlongRun.decidable M C (M.step s a).1 as
    inferInstanceAs (Decidable (C s a ∧ M.AlongRun C (M.step s a).1 as))

variable {M : Machine σ α ο} {C : σ → α → Prop}

theorem AlongRun.prefix {s : σ} {as bs : List α}
    (h : M.AlongRun C s (as ++ bs)) : M.AlongRun C s as := by
  induction as generalizing s with
  | nil => trivial
  | cons a as ih => exact ⟨h.1, ih h.2⟩

theorem AlongRun.of_append {s : σ} {as bs : List α}
    (h : M.AlongRun C s (as ++ bs)) : M.AlongRun C (M.after s as) bs := by
  induction as generalizing s with
  | nil => exact h
  | cons a as ih => exact ih h.2

variable {as : List α}

theorem after_invariant {I : σ → Prop}
    (hstep : ∀ s a, I s → C s a → I (M.step s a).1) {s : σ} (hI : I s)
    (hC : M.AlongRun C s as) : I (M.after s as) := by
  induction as generalizing s with
  | nil => exact hI
  | cons a as ih => exact ih (hstep s a hI hC.1) hC.2

theorem answers_invariant {I : σ → Prop} {P : ο → Prop}
    (hstep : ∀ s a, I s → C s a → I (M.step s a).1 ∧ P (M.step s a).2) {s : σ}
    (hI : I s) (hC : M.AlongRun C s as) : ∀ o ∈ M.answers s as, P o := by
  induction as generalizing s with
  | nil => exact fun o ho => absurd ho List.not_mem_nil
  | cons a as ih =>
    obtain ⟨hI', hP⟩ := hstep s a hI hC.1
    exact List.forall_mem_cons.2 ⟨hP, ih hI' hC.2⟩

theorem after_append (M : Machine σ α ο) (s : σ) (as bs : List α) :
    M.after s (as ++ bs) = M.after (M.after s as) bs := by
  induction as generalizing s with
  | nil => rfl
  | cons a as ih => exact ih _

theorem history_append (M : Machine σ α ο) (s : σ) (as bs : List α) :
    M.history s (as ++ bs) = M.history s as ++ M.history (M.after s as) bs := by
  induction as generalizing s with
  | nil => rfl
  | cons a as ih => simp only [List.cons_append, history, after, ih]

/-- **Provenance.** What is in a state was there at the start, or a label brought it in. -/
theorem provenance {β : Type x} (has : σ → β → Prop) (brings : α → β → Prop)
    (hstep : ∀ s a b, has (M.step s a).1 b → has s b ∨ brings a b) {s : σ} {b : β}
    (h : has (M.after s as) b) : has s b ∨ ∃ a ∈ as, brings a b := by
  induction as generalizing s with
  | nil => exact Or.inl h
  | cons a as ih =>
    rcases ih h with hs | ⟨a', ha', hb⟩
    · rcases hstep s a b hs with hs | hb
      · exact Or.inl hs
      · exact Or.inr ⟨a, List.mem_cons_self, hb⟩
    · exact Or.inr ⟨a', List.mem_cons_of_mem _ ha', hb⟩

theorem simulation {τ : Type x} {N : Machine τ α ο} {R : σ → τ → Prop} {same : ο → ο → Prop}
    (hstep : ∀ s t a, R s t → C s a →
      R (M.step s a).1 (N.step t a).1 ∧ same (M.step s a).2 (N.step t a).2)
    {s : σ} {t : τ} (hR : R s t) (hC : M.AlongRun C s as) :
    R (M.after s as) (N.after t as) ∧ List.Forall₂ same (M.answers s as) (N.answers t as) := by
  induction as generalizing s t with
  | nil => exact ⟨hR, List.Forall₂.nil⟩
  | cons a as ih =>
    obtain ⟨hR', hsame⟩ := hstep s t a hR hC.1
    obtain ⟨hafter, hanswers⟩ := ih hR' hC.2
    exact ⟨hafter, List.Forall₂.cons hsame hanswers⟩

/-- **Exact agreement.** Two machines whose steps keep a relation and give related answers exactly
    when the step meets a condition agree along a sequence of labels exactly when all its steps meet
    the condition. -/
theorem answers_agree_iff {τ : Type x} {N : Machine τ α ο} {R : σ → τ → Prop}
    {F C : σ → α → Prop} {same : ο → ο → Prop} (hstep : ∀ s t a, R s t → F s a → C s a →
      R (M.step s a).1 (N.step t a).1 ∧ same (M.step s a).2 (N.step t a).2)
    (hdiffer : ∀ s t a, R s t → F s a → ¬ C s a → ¬ same (M.step s a).2 (N.step t a).2)
    {s : σ} {t : τ} (hR : R s t) (hF : M.AlongRun F s as) :
    List.Forall₂ same (M.answers s as) (N.answers t as) ↔ M.AlongRun C s as := by
  induction as generalizing s t with
  | nil => exact ⟨fun _ => trivial, fun _ => List.Forall₂.nil⟩
  | cons a as ih =>
    rw [answers, answers, List.forall₂_cons, AlongRun]
    constructor
    · rintro ⟨hsame, hrest⟩
      have hC : C s a := by
        by_contra hC
        exact hdiffer s t a hR hF.1 hC hsame
      exact ⟨hC, (ih (hstep s t a hR hF.1 hC).1 hF.2).1 hrest⟩
    · rintro ⟨hC, hrest⟩
      obtain ⟨hR', hsame⟩ := hstep s t a hR hF.1 hC
      exact ⟨hsame, (ih hR' hF.2).2 hrest⟩

end Machine

/-! ## A list of parties

A system of many parties keeps their states in a list, one place each: a step of a party sets its
place, and a new party is appended. -/

namespace Parties

variable {σ : Type u} {ps : List σ}

theorem getElem?_set_cases {i j : Nat} {p q : σ} (h : (ps.set i p)[j]? = some q) :
    (i = j ∧ q = p) ∨ (i ≠ j ∧ ps[j]? = some q) := by
  rw [List.getElem?_set] at h
  split at h
  · next hij => split at h <;> cases h; exact Or.inl ⟨hij, rfl⟩
  · next hij => exact Or.inr ⟨hij, h⟩

theorem getElem?_set_of_some {i : Nat} {p p' : σ} (h : ps[i]? = some p) :
    (ps.set i p')[i]? = some p' := by
  rw [List.getElem?_set_self (List.getElem?_eq_some_iff.1 h).1]

theorem getElem?_concat_cases {j : Nat} {p q : σ} (h : (ps ++ [p])[j]? = some q) :
    ps[j]? = some q ∨ q = p := by
  rcases List.mem_append.1 (List.mem_of_getElem? h) with hmem | hmem
  · by_cases hj : j < ps.length
    · left
      rwa [List.getElem?_append_left hj] at h
    · right
      rw [List.getElem?_append_right (Nat.le_of_not_lt hj)] at h
      exact List.mem_singleton.1 (List.mem_of_getElem? h)
  · exact Or.inr (List.mem_singleton.1 hmem)

theorem flatMap_set_perm {β : Type v} {f : σ → List β} {i : Nat} {p p' : σ}
    {l : List β} (h : ps[i]? = some p) (hf : f p' = f p ++ l) :
    ((ps.set i p').flatMap f).Perm (ps.flatMap f ++ l) := by
  induction ps generalizing i with
  | nil => simp at h
  | cons q ps ih =>
    cases i with
    | zero =>
      cases h
      rw [List.set_cons_zero, List.flatMap_cons, List.flatMap_cons, hf, List.append_assoc,
        List.append_assoc]
      exact List.perm_append_comm.append_left (f p)
    | succ i =>
      rw [List.set_cons_succ, List.flatMap_cons, List.flatMap_cons, List.append_assoc]
      exact (ih (by simpa using h)).append_left (f q)

end Parties
