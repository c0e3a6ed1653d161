import Mathlib.Data.List.Basic

/-! # Interruptible programs

A program emits events, keeps local variables and passes suspension points, at one of which it may be
interrupted: it goes on from there as if an exception had been raised, which only its cleanup survives.
`Quiet` is the rule for the parts that only pass suspension points, `Grows` the rule that what was
emitted stays so. -/

namespace Interruption

/-- How a program ends without a value. -/
inductive Exit where
  | interrupted
  | raised
  deriving DecidableEq

/-- What was emitted, the suspension points that are left before the interruption, when there is one,
    and the local variables. -/
structure World (ε σ : Type) where
  events : List ε
  left : Option Nat
  locals : σ

/-- What is left after some suspension points, unless the interruption is at one of them. -/
def spend (n : Nat) : Option Nat → Option (Option Nat)
  | none => some none
  | some k => if n ≤ k then some (some (k - n)) else none

theorem spend_zero (left : Option Nat) : spend 0 left = some left := by
  cases left <;> simp [spend]

theorem spend_add (n m : Nat) (left : Option Nat) : spend (n + m) left = (spend n left).bind (spend m) := by
  cases left with
  | none => rfl
  | some k =>
    simp only [spend]
    by_cases hn : n ≤ k
    · rw [if_pos hn, Option.bind_some]
      simp only [spend, Nat.sub_sub]
      split_ifs <;> first | rfl | omega
    · rw [if_neg hn, if_neg (by omega), Option.bind_none]

theorem eq_map_of_spend {n : Nat} {left later : Option Nat} (h : spend n left = some later) :
    left = later.map (fun k => n + k) := by
  cases left with
  | none =>
    obtain rfl : none = later := by simpa [spend] using h
    rfl
  | some k =>
    simp only [spend] at h
    split_ifs at h with hle
    obtain rfl := Option.some.inj h
    rw [Option.map_some, Nat.add_sub_cancel' hle]

theorem spend_eq_none_iff {n : Nat} {left : Option Nat} :
    spend n left = none ↔ ∃ k, left = some k ∧ k < n := by
  cases left with
  | none => simp [spend]
  | some k => simp [spend]

theorem spend_one_eq_none_iff {left : Option Nat} : spend 1 left = none ↔ left = some 0 := by
  rw [spend_eq_none_iff]
  constructor
  · rintro ⟨k, rfl, hk⟩
    obtain rfl : k = 0 := by omega
    rfl
  · intro hleft
    exact ⟨0, hleft, by omega⟩

def Program (ε σ α : Type) := World ε σ → Except Exit α × World ε σ

variable {ε σ α β : Type}

namespace Program

def andThen (p : Program ε σ α) (f : α → Program ε σ β) : Program ε σ β := fun w =>
  match p w with
  | (.ok a, w) => f a w
  | (.error e, w) => (.error e, w)

instance : Monad (Program ε σ) where
  pure a w := (.ok a, w)
  bind := andThen

def suspend : Program ε σ Unit := fun w =>
  (spend 1 w.left).elim (.error .interrupted, { w with left := none })
    (fun left => (.ok (), { w with left := left }))

def emit (event : ε) : Program ε σ Unit := fun w => suspend { w with events := w.events ++ [event] }

def raise : Program ε σ α := fun w => (.error .raised, w)

def locals : Program ε σ σ := fun w => (.ok w.locals, w)

def assign (f : σ → σ) : Program ε σ Unit := fun w => (.ok (), { w with locals := f w.locals })

/-- `try: body finally: cleanup`. -/
def protect (body : Program ε σ α) (cleanup : Program ε σ Unit) : Program ε σ α := fun w =>
  match cleanup (body w).2 with
  | (.ok _, w') => ((body w).1, w')
  | (.error e, w') => (.error e, w')

theorem pure_apply (a : α) (w : World ε σ) : (pure a : Program ε σ α) w = (.ok a, w) := rfl

variable {f : α → Program ε σ β} {p : Program ε σ α} {a : α}

theorem bind_apply_ok {w w' : World ε σ}
    (h : p w = (.ok a, w')) : (p >>= f) w = f a w' := by
  show andThen p f w = _
  unfold andThen
  rw [h]

theorem bind_apply_error {w w' : World ε σ} {e : Exit}
    (h : p w = (.error e, w')) : (p >>= f) w = (.error e, w') := by
  show andThen p f w = _
  unfold andThen
  rw [h]

theorem bind_bind {γ : Type} (p : Program ε σ α) (f : α → Program ε σ β) (g : β → Program ε σ γ) :
    (p >>= f) >>= g = p >>= fun a => f a >>= g := by
  funext w
  cases hresult : p w with
  | mk result w' =>
    cases result with
    | error e => rw [bind_apply_error hresult, bind_apply_error (bind_apply_error hresult)]
    | ok a =>
      rw [bind_apply_ok hresult]
      cases hlater : f a w' with
      | mk later w'' =>
        have hboth : (p >>= f) w = (later, w'') := by rw [bind_apply_ok hresult, hlater]
        cases later with
        | ok b => rw [bind_apply_ok hboth, bind_apply_ok hlater]
        | error e => rw [bind_apply_error hboth, bind_apply_error hlater]

/-! ## Quiet programs -/

def advance (n : Nat) (a : α) (w : World ε σ) : Except Exit α × World ε σ :=
  (spend n w.left).elim (.error .interrupted, { w with left := none })
    (fun left => (.ok a, { w with left := left }))

/-- The program passes that many suspension points, does nothing else and gives the value. -/
def Quiet (p : Program ε σ α) (n : Nat) (a : α) : Prop := ∀ w, p w = advance n a w

theorem quiet_pure (a : α) : Quiet (pure a : Program ε σ α) 0 a := fun w => by
  rw [pure_apply, advance, spend_zero]
  rfl

theorem quiet_suspend : Quiet (suspend : Program ε σ Unit) 1 () := fun _ => rfl

theorem Quiet.bind {n m : Nat} {b : β}
    (hp : Quiet p n a) (hf : Quiet (f a) m b) : Quiet (p >>= f) (n + m) b := by
  intro w
  have hw := hp w
  rw [advance] at hw ⊢
  rw [spend_add]
  cases hspend : spend n w.left with
  | none =>
    rw [hspend] at hw
    exact bind_apply_error hw
  | some left =>
    rw [hspend] at hw
    rw [bind_apply_ok hw, hf, Option.bind_some]
    rfl

theorem Quiet.then_pure {p : Program ε σ Unit} {n : Nat} (hp : Quiet p n ()) (b : β) :
    Quiet (p >>= fun _ => pure b) n b := hp.bind (f := fun _ => pure b) (quiet_pure b)

theorem Quiet.bind_apply {n : Nat} (hp : Quiet p n a) (f : α → Program ε σ β)
    (w : World ε σ) : (p >>= f) w = (spend n w.left).elim (.error .interrupted, { w with left := none })
      (fun left => f a { w with left := left }) := by
  have hw := hp w
  rw [advance] at hw
  cases hspend : spend n w.left with
  | none =>
    rw [hspend] at hw
    exact bind_apply_error hw
  | some left =>
    rw [hspend] at hw
    exact bind_apply_ok hw

variable (event : ε)

theorem emit_bind_apply (f : Unit → Program ε σ β) (w : World ε σ) :
    (emit event >>= f) w = (spend 1 w.left).elim
      (.error .interrupted, { w with events := w.events ++ [event], left := none })
      (fun left => f () { w with events := w.events ++ [event], left := left }) :=
  quiet_suspend.bind_apply f { w with events := w.events ++ [event] }

theorem Quiet.events_bind {n : α → Nat} {b : α → β}
    (hf : ∀ a, Quiet (f a) (n a) (b a)) (p : Program ε σ α) (w : World ε σ) :
    ((p >>= f) w).2.events = (p w).2.events := by
  cases hresult : p w with
  | mk result w' =>
    cases result with
    | error e => rw [bind_apply_error hresult]
    | ok a =>
      rw [bind_apply_ok hresult, hf a, advance]
      cases spend (n a) w'.left <;> rfl

theorem emit_events (w : World ε σ) :
    ((emit event : Program ε σ Unit) w).2.events = w.events ++ [event] := by
  unfold emit suspend
  dsimp only
  cases spend 1 w.left <;> rfl

/-! ## What was emitted stays emitted -/

def Grows (p : Program ε σ α) : Prop := ∀ w, w.events <+: (p w).2.events

theorem Quiet.grows {n : Nat} (h : Quiet p n a) : Grows p := fun w => by
  rw [h w, advance]
  cases spend n w.left <;> exact List.prefix_rfl

theorem grows_suspend : Grows (suspend : Program ε σ Unit) := quiet_suspend.grows

theorem grows_emit : Grows (emit event : Program ε σ Unit) := fun w =>
  (List.prefix_append ..).trans (grows_suspend { w with events := w.events ++ [event] })

theorem grows_raise : Grows (raise : Program ε σ α) := fun _ => List.prefix_rfl

theorem grows_assign (f : σ → σ) : Grows (assign f : Program ε σ Unit) := fun _ => List.prefix_rfl

theorem events_bind (hf : ∀ a, Grows (f a)) (p : Program ε σ α) (w : World ε σ) :
    (p w).2.events <+: ((p >>= f) w).2.events := by
  cases hresult : p w with
  | mk result w' =>
    cases result with
    | error e =>
      have hstop := bind_apply_error (f := f) hresult
      exact ⟨[], by rw [hstop, List.append_nil]⟩
    | ok a =>
      rw [bind_apply_ok hresult]
      exact hf a w'

theorem Grows.bind (hp : Grows p) (hf : ∀ a, Grows (f a)) :
    Grows (p >>= f) := fun w => (hp w).trans (events_bind hf p w)

theorem protect_events (body : Program ε σ α) (cleanup : Program ε σ Unit) (w : World ε σ) :
    (protect body cleanup w).2.events = (cleanup (body w).2).2.events := by
  unfold protect
  cases cleanup (body w).2 with
  | mk result w' => cases result <;> rfl

end Program

end Interruption
