import Mathlib.Data.Nat.Count
import Mathlib.Logic.Function.Basic

/-! # Commit logs

The committed states of a shared store, one after another, and who made each commit. Commit `i` takes
state `i` to state `i + 1`. A counter that moves with the commits of some authors (`tally`) tells two
states apart exactly when such an author has committed in between: this is what a cache that compares
version counters relies on (`lt_of_tally_le`). -/

universe u v

/-- A log: state `0` is the one at the start, and `author i` made commit `i`. -/
structure CommitLog (κ : Type u) (δ : Type v) where
  count : Nat
  state : Nat → δ
  author : Nat → κ

namespace CommitLog

variable {κ : Type u} {δ : Type v}

def start (d : δ) (who : κ) : CommitLog κ δ := ⟨0, fun _ => d, fun _ => who⟩

variable (log : CommitLog κ δ)

def current : δ := log.state log.count

def commit (who : κ) (d : δ) : CommitLog κ δ where
  count := log.count + 1
  state := Function.update log.state (log.count + 1) d
  author := Function.update log.author log.count who

/-- How many of the first `n` commits have an author in `p`. -/
def tally (p : κ → Prop) [DecidablePred p] (n : Nat) : Nat :=
  Nat.count (fun i => p (log.author i)) n

variable (log : CommitLog κ δ) (who : κ) (d : δ)

@[simp] theorem count_commit : (log.commit who d).count = log.count + 1 := rfl

@[simp] theorem current_commit : (log.commit who d).current = d := by
  simp [current, commit]

@[simp] theorem author_commit_count : (log.commit who d).author log.count = who := by
  simp [commit]

@[simp] theorem state_commit_succ : (log.commit who d).state (log.count + 1) = d := by
  simp [commit]

theorem state_commit {n : Nat} (h : n ≤ log.count) : (log.commit who d).state n = log.state n :=
  Function.update_of_ne (by omega) _ _

theorem author_commit {i : Nat} (h : i < log.count) : (log.commit who d).author i = log.author i :=
  Function.update_of_ne (by omega) _ _

variable (p : κ → Prop) [DecidablePred p]

theorem tally_succ (n : Nat) :
    log.tally p (n + 1) = log.tally p n + if p (log.author n) then 1 else 0 :=
  Nat.count_succ _ n

theorem tally_mono {m n : Nat} (h : m ≤ n) : log.tally p m ≤ log.tally p n :=
  Nat.count_monotone _ h

/-- The second log goes on from the first. -/
structure Before (log log' : CommitLog κ δ) : Prop where
  count : log.count ≤ log'.count
  state : ∀ n ≤ log.count, log'.state n = log.state n
  author : ∀ i < log.count, log'.author i = log.author i

theorem Before.refl (log : CommitLog κ δ) : log.Before log :=
  ⟨le_rfl, fun _ _ => rfl, fun _ _ => rfl⟩

theorem before_commit : log.Before (log.commit who d) :=
  ⟨Nat.le_succ _, fun _ h => log.state_commit who d h, fun _ h => log.author_commit who d h⟩

theorem Before.tally {log log' : CommitLog κ δ} (h : log.Before log') {n : Nat}
    (hn : n ≤ log.count) : log'.tally p n = log.tally p n := by
  induction n with
  | zero => simp [CommitLog.tally]
  | succ n ih => rw [tally_succ, tally_succ, ih (by omega), h.author n (by omega)]

theorem tally_commit : (log.commit who d).tally p (log.count + 1)
      = log.tally p log.count + if p who then 1 else 0 := by
  rw [tally_succ, author_commit_count, (log.before_commit who d).tally p le_rfl]

theorem lt_of_tally_le {i n : Nat} (hi : p (log.author i))
    (h : log.tally p (i + 1) ≤ log.tally p n) : i < n := by
  by_contra hn
  have hle := log.tally_mono p (show n ≤ i by omega)
  rw [tally_succ, if_pos hi] at h
  omega

end CommitLog
