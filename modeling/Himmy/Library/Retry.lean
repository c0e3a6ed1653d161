import Mathlib.Logic.Basic

/-! # Bounded retries

`retry again run attempts` runs an action that changes a state, and runs it again from the state it
left as long as `again` holds of its answer and attempts are left. The action is told which attempt
it is. A property of a whole retry is proved by `retry_rule`: the condition under which a run is
started, what a run establishes, and that a run after which there is another reestablishes the
condition. -/

universe u v

variable {ρ : Type u} {σ : Type v}

/-- Run once, and at most `attempts` times more. -/
def retry (again : ρ → Bool) (run : Nat → σ → ρ × σ) : Nat → Nat → σ → ρ × σ
  | 0, attempt, s => run attempt s
  | attempts + 1, attempt, s =>
    if again (run attempt s).1 then retry again run attempts (attempt + 1) (run attempt s).2
    else run attempt s

variable {again : ρ → Bool} {run : Nat → σ → ρ × σ}

theorem retry_rule {P : Nat → σ → Prop} {Q : ρ → σ → Prop}
    (hrun : ∀ attempt s, P attempt s → Q (run attempt s).1 (run attempt s).2)
    (hagain : ∀ attempt s, P attempt s → again (run attempt s).1 = true →
      P (attempt + 1) (run attempt s).2) (attempts : Nat) {attempt : Nat} {s : σ}
    (h : P attempt s) :
    Q (retry again run attempts attempt s).1 (retry again run attempts attempt s).2 := by
  induction attempts generalizing attempt s with
  | zero => exact hrun attempt s h
  | succ attempts ih =>
    rw [retry]
    split
    · next hr => exact ih (hagain attempt s h hr)
    · exact hrun attempt s h
