import Himmy.Library.Reservation
import Himmy.Connectors.Sdk

/-! # Guarded side effects

Any number of threads call `run_once` and `call_idempotent` on one `IdempotencyStore`.
`GuardedCalls.system` is their interleaving: a section under the lock is one step, and an attempt at
the side effect is two, its start and its end. An attempt ends with a value or an exception, and its
effect may have landed either way.

`Sound` says what a step may do: an attempt starts only for a key without a success, while no other
thread performs it, and not as a retry of an attempt that landed; a caller after a success gets the
result of the success. It holds of every step of a run in which nobody asks for a key between the
section that releases its reservation and the one that records its result, and no exception of an
attempt that landed is retried. -/

namespace Himmy.Connectors

open Parties (getElem?_set_of_some getElem?_set_cases)

/-- The method that a thread calls. -/
inductive GuardedBy (ε : Type)
  | runOnce
  | callIdempotent (retry : RetryPolicy ε)

def GuardedBy.retries {ε : Type} : GuardedBy ε → Nat → ε → Bool
  | .runOnce, _, _ => false
  | .callIdempotent policy, attempt, e => policy.again true attempt e

/-- Where a thread stands. Between `reserved` and `failed` it holds the reservation of its key;
    `unrecorded` is between the section that releases it and the one that records the result. -/
inductive GuardedStage (ε ρ : Type)
  | entering
  | reserved (attempt : Nat)
  | performing (attempt : Nat)
  | succeeded (result : ρ)
  | failed (error : ε)
  | unrecorded (result : ρ)
  | returned (result : ρ)
  | raised (error : ε)
  | refused

/-- A thread in a call; `landed` says that the effect of an attempt that raised has landed. -/
structure GuardedCall (ε ρ : Type) where
  key : String
  guard : GuardedBy ε
  stage : GuardedStage ε ρ := .entering
  landed : Bool := false

namespace GuardedCall

variable {ε ρ : Type}

variable (c : GuardedCall ε ρ)

def holds : Option String :=
  match c.stage with
  | .reserved _ | .performing _ | .succeeded _ | .failed _ => some c.key
  | _ => none

/-- The key that the call has reserved, or whose result it has yet to record. -/
def owns : Option String :=
  match c.stage with
  | .unrecorded _ => some c.key
  | _ => c.holds

def success : Option ρ :=
  match c.stage with
  | .succeeded result | .unrecorded result => some result
  | _ => none

def performs : Option String :=
  match c.stage with
  | .performing _ => some c.key
  | _ => none

def attempting : Bool :=
  match c.stage with
  | .entering | .reserved _ | .performing _ => true
  | _ => false

variable {c : GuardedCall ε ρ} {k : String}

theorem owns_of_holds (h : c.holds = some k) : c.owns = some k := by
  unfold owns
  split
  · next hstage => simp [holds, hstage] at h
  · exact h

theorem owns_of_success {r : ρ} (h : c.success = some r) : c.owns = some c.key := by
  unfold success at h
  split at h
  · next hstage => simp [owns, holds, hstage]
  · next hstage => simp [owns, hstage]
  · cases h

theorem performs_sub_owns (h : c.performs = some k) : c.owns = some k := by
  unfold performs at h
  split at h
  · next hstage => simpa [owns, holds, hstage] using h
  · cases h

theorem key_of_owns (h : c.owns = some k) : c.key = k := by
  unfold owns holds at h
  split at h
  · simpa using h
  · split at h <;> simp_all

end GuardedCall

/-- How an attempt ends: whether its effect has landed, and what it returned or raised. -/
structure Attempt (ε ρ : Type) where
  landed : Bool
  answer : Except ε ρ

/-- The store and the threads; `first` is the first success of a key since it was last evicted. -/
structure GuardedCalls (ε ρ : Type) where
  store : IdempotencyStore ρ
  calls : List (GuardedCall ε ρ) := []
  first : String → Option ρ := fun _ => none

/-- A thread calls a method, or takes its next step. -/
inductive GuardedStep (ε ρ : Type)
  | call (key : String) (guard : GuardedBy ε)
  | enter (i : Nat)
  | start (i : Nat)
  | finish (i : Nat) (attempt : Attempt ε ρ)
  | release (i : Nat)
  | remember (i : Nat)

namespace GuardedCalls

variable {ε ρ : Type}

variable (s : GuardedCalls ε ρ) (i : Nat) (c : GuardedCall ε ρ)

/-- The `i`-th thread moves. -/
def setCall : GuardedCalls ε ρ :=
  { s with calls := s.calls.set i c }

/-- The first section of `run_once`. -/
def enter : GuardedCalls ε ρ :=
  match s.store.entry c.key with
  | .cached result => s.setCall i { c with stage := .returned result }
  | .inFlight => s.setCall i { c with stage := .refused }
  | .reserved =>
    { s.setCall i { c with stage := .reserved 0 } with store := s.store.reserve c.key }

def finish (n : Nat) (attempt : Attempt ε ρ) : GuardedCalls ε ρ :=
  match attempt.answer with
  | .ok result =>
    { s.setCall i { c with stage := .succeeded result } with
      first := fun k => if k = c.key then (s.first k).or (some result) else s.first k }
  | .error e =>
    let stage := if c.guard.retries n e then .reserved (n + 1) else .failed e
    s.setCall i { c with stage, landed := c.landed || attempt.landed }

def remember (result : ρ) : GuardedCalls ε ρ :=
  let store := s.store.remember c.key result
  { s.setCall i { c with stage := .returned result } with
    store
    first := fun k => if s.store.evicted store k then none else s.first k }

def step : GuardedStep ε ρ → Option (GuardedCalls ε ρ)
  | .call key guard => some { s with calls := s.calls ++ [{ key, guard }] }
  | .enter i => s.calls[i]?.bind fun c =>
    match c.stage with
    | .entering => some (s.enter i c)
    | _ => none
  | .start i => s.calls[i]?.bind fun c =>
    match c.stage with
    | .reserved n => some (s.setCall i { c with stage := .performing n })
    | _ => none
  | .finish i attempt => s.calls[i]?.bind fun c =>
    match c.stage with
    | .performing n => some (s.finish i c n attempt)
    | _ => none
  | .release i => s.calls[i]?.bind fun c =>
    match c.stage with
    | .succeeded result =>
      some { s.setCall i { c with stage := .unrecorded result } with
        store := s.store.discard c.key }
    | .failed e =>
      some { s.setCall i { c with stage := .raised e } with store := s.store.discard c.key }
    | _ => none
  | .remember i => s.calls[i]?.bind fun c =>
    match c.stage with
    | .unrecorded result => some (s.remember i c result)
    | _ => none

def system : LTS (GuardedCalls ε ρ) (GuardedStep ε ρ) := ⟨step⟩

theorem exec_attempt {s : GuardedCalls ε ρ} {i n : Nat} {c : GuardedCall ε ρ}
    (hi : s.calls[i]? = some c) (hstage : c.stage = .reserved n) (attempt : Attempt ε ρ) :
    ∃ s' c', system.exec s [.start i, .finish i attempt] = some s' ∧ s'.calls[i]? = some c'
      ∧ c'.guard = c.guard ∧ c'.stage = (match attempt.answer with
        | .ok result => .succeeded result
        | .error e => if c.guard.retries n e then .reserved (n + 1) else .failed e) := by
  have hstart : s.step (.start i) = some (s.setCall i { c with stage := .performing n }) := by
    simp only [step, hi, Option.bind_some, hstage]
  have hperforming : (s.setCall i { c with stage := .performing n }).calls[i]?
      = some { c with stage := .performing n } := getElem?_set_of_some hi
  have hfinish : (s.setCall i { c with stage := .performing n }).step (.finish i attempt)
      = some ((s.setCall i { c with stage := .performing n }).finish i
          { c with stage := .performing n } n attempt) := by
    simp only [step, hperforming, Option.bind_some]
  have hexec : system.exec s [.start i, .finish i attempt]
      = some ((s.setCall i { c with stage := .performing n }).finish i
          { c with stage := .performing n } n attempt) :=
    system.exec_cons_eq_some.2 ⟨_, hstart, system.exec_cons_eq_some.2 ⟨_, hfinish, rfl⟩⟩
  cases hanswer : attempt.answer with
  | ok result =>
    refine ⟨_, { c with stage := .succeeded result }, hexec, ?_, rfl, rfl⟩
    simp only [finish, hanswer]
    exact getElem?_set_of_some hperforming
  | error e =>
    let stage : GuardedStage ε ρ :=
      if c.guard.retries n e then .reserved (n + 1) else .failed e
    refine ⟨_, { c with stage, landed := c.landed || attempt.landed }, hexec, ?_, rfl, rfl⟩
    simp only [finish, hanswer]
    exact getElem?_set_of_some hperforming

/-- Where a thread stands when `run` has ended. -/
def stageOf : Except ε ρ → GuardedStage ε ρ
  | .ok result => .succeeded result
  | .error e => .failed e

/-- The attempts of a thread from the `n`-th on. -/
def attempts (i : Nat) (script : Nat → Attempt ε ρ) (n k : Nat) : List (GuardedStep ε ρ) :=
  (List.range' n k).flatMap fun m => [.start i, .finish i (script m)]

/-- An attempt of `RetryPolicy.run`, which counts them. -/
def scripted (script : Nat → Attempt ε ρ) (n made : Nat) : Except ε ρ × Nat :=
  ((script n).answer, made + 1)

/-- **A call alone is the retry loop**: it makes the attempts that `RetryPolicy.run` makes, and ends as
    it does. -/
theorem exec_run (policy : RetryPolicy ε) (script : Nat → Attempt ε ρ) {i : Nat}
    {s : GuardedCalls ε ρ} {c : GuardedCall ε ρ} (hi : s.calls[i]? = some c)
    (hguard : c.guard = .callIdempotent policy) (hstage : c.stage = .reserved 0) :
    let out := policy.run (scripted script) true 0
    out.2 ≤ policy.maxAttempts true ∧ ∃ s' c', system.exec s (attempts i script 0 out.2) = some s'
      ∧ s'.calls[i]? = some c' ∧ c'.stage = stageOf out.1 := by
  suffices h : ∀ left n made (s : GuardedCalls ε ρ) (c : GuardedCall ε ρ), s.calls[i]? = some c →
      c.guard = .callIdempotent policy → c.stage = .reserved n →
      n + 1 + left = policy.maxAttempts true →
      ∃ k ≤ left + 1, ∃ answer s' c',
        retry policy.caught (scripted script) left n made = (answer, made + k)
        ∧ system.exec s (attempts i script n k) = some s'
        ∧ s'.calls[i]? = some c' ∧ c'.stage = stageOf answer by
    have hpos : 1 ≤ policy.maxAttempts true := policy.attempts_pos
    obtain ⟨k, hk, answer, s', c', hrun, hexec⟩ :=
      h (policy.maxAttempts true - 1) 0 0 s c hi hguard hstage (by omega)
    rw [Nat.zero_add] at hrun
    intro out
    have hout : out = (answer, k) := hrun
    rw [hout]
    exact ⟨by omega, s', c', hexec⟩
  intro left
  induction left with
  | zero =>
    intro n made s c hi hguard hstage hleft
    obtain ⟨s', c', hexec, hi', -, hstage'⟩ := exec_attempt hi hstage (script n)
    refine ⟨1, le_refl _, _, s', c', rfl, hexec, hi', hstage'.trans ?_⟩
    have hlast : ∀ e, policy.again true n e = false := by
      intro e
      simp only [RetryPolicy.again, Bool.and_eq_false_iff, decide_eq_false_iff_not]
      omega
    cases hanswer : (script n).answer with
    | ok result => simp [stageOf]
    | error e => simp [stageOf, hguard, GuardedBy.retries, hlast]
  | succ left ih =>
    intro n made s c hi hguard hstage hleft
    obtain ⟨s', c', hexec, hi', hguard', hstage'⟩ := exec_attempt hi hstage (script n)
    have hmore : ∀ e, policy.again true n e = policy.retryOn e := by
      intro e
      simp only [RetryPolicy.again, Bool.and_eq_left_iff_imp, decide_eq_true_eq]
      omega
    rw [retry]
    cases hanswer : (script n).answer with
    | ok result =>
      refine ⟨1, by omega, .ok result, s', c', ?_, hexec, hi', hstage'.trans ?_⟩
      · simp [scripted, RetryPolicy.caught, hanswer]
      · simp [hanswer, stageOf]
    | error e =>
      cases hcaught : policy.retryOn e with
      | false =>
        refine ⟨1, by omega, .error e, s', c', ?_, hexec, hi', hstage'.trans ?_⟩
        · simp [scripted, RetryPolicy.caught, hanswer, hcaught]
        · simp [hanswer, stageOf, hguard, GuardedBy.retries, hmore, hcaught]
      | true =>
        have hreserved : c'.stage = .reserved (n + 1) := by
          simp [hstage', hanswer, hguard, GuardedBy.retries, hmore, hcaught]
        obtain ⟨k, hk, answer, t, d, hrun, hexec', hj, hd⟩ :=
          ih (n + 1) (made + 1) s' c' hi' (hguard'.trans hguard) hreserved (by omega)
        refine ⟨k + 1, by omega, answer, t, d, ?_, ?_, hj, hd⟩
        · rw [show made + 1 + k = made + (k + 1) by omega] at hrun
          simpa [scripted, RetryPolicy.caught, hanswer, hcaught] using hrun
        · exact system.exec_append_eq_some.2 ⟨s', hexec, hexec'⟩

theorem exec_run_retried :
    let c : GuardedCall Unit Nat :=
      { key := "k", guard := .callIdempotent { attempts := 2, retryOn := fun _ => true },
        stage := .reserved 0 }
    let script : Nat → Attempt Unit Nat := fun n =>
      if n = 0 then ⟨false, .error ()⟩ else ⟨true, .ok 7⟩
    ∃ s c', system.exec { store := {}, calls := [c] } (attempts 0 script 0 2) = some s
      ∧ s.calls[0]? = some c' ∧ c'.stage = .succeeded 7 := by
  intro c script
  exact (exec_run { attempts := 2, retryOn := fun _ => true } script (i := 0) (c := c) rfl rfl rfl).2

def Sound (s : GuardedCalls ε ρ) : GuardedStep ε ρ → Prop
  | .start i => ∀ c n, s.calls[i]? = some c → c.stage = .reserved n →
      s.first c.key = none ∧ c.landed = false
        ∧ ∀ (j : Nat) (c' : GuardedCall ε ρ), s.calls[j]? = some c' → c'.performs ≠ some c.key
  | .enter i => ∀ c r, s.calls[i]? = some c → c.stage = .entering → s.first c.key = some r →
      s.store.entry c.key = .cached r
        ∨ s.store.entry c.key = .inFlight ∧ ∃ (j : Nat) (c' : GuardedCall ε ρ),
          s.calls[j]? = some c' ∧ c'.key = c.key ∧ c'.stage = .succeeded r
  | .remember i => ∀ c r, s.calls[i]? = some c → c.stage = .unrecorded r → s.first c.key = some r
  | _ => True

/-- Nobody asks for a key whose result is released and not recorded, and an exception that is
    retried is one of an attempt that has not landed. -/
def Undisturbed (s : GuardedCalls ε ρ) : GuardedStep ε ρ → Prop
  | .enter i => ∀ c, s.calls[i]? = some c → ∀ (j : Nat) (c' : GuardedCall ε ρ) (r : ρ),
      s.calls[j]? = some c' → c'.stage = .unrecorded r → c'.key ≠ c.key
  | .finish i attempt => ∀ c n e, s.calls[i]? = some c → c.stage = .performing n →
      attempt.answer = .error e → c.guard.retries n e = true → attempt.landed = false
  | _ => True

/-! ## The invariant -/

/-- The reservations are those of the threads, one thread works for a key at a time, and the first
    success of a key is remembered or about to be. -/
structure Guarded (s : GuardedCalls ε ρ) : Prop where
  reserved : Reserved GuardedCall.holds s.store.inflight s.calls
  apart : Apart GuardedCall.owns s.calls
  remembered : ∀ k r, s.store.result? k = some r → s.first k = some r
    ∧ ∀ (i : Nat) (c : GuardedCall ε ρ), s.calls[i]? = some c → c.owns ≠ some k
  pending : ∀ (i : Nat) (c : GuardedCall ε ρ) (r : ρ), s.calls[i]? = some c → c.success = some r →
    s.first c.key = some r
  first : ∀ k r, s.first k = some r → s.store.result? k = some r
    ∨ ∃ (i : Nat) (c : GuardedCall ε ρ), s.calls[i]? = some c ∧ c.key = k ∧ c.success = some r
  unlanded : ∀ (i : Nat) (c : GuardedCall ε ρ), s.calls[i]? = some c → c.attempting = true →
    c.landed = false

namespace Guarded

variable {s : GuardedCalls ε ρ}

section

variable (h : s.Guarded)

include h

variable {c : GuardedCall ε ρ} {i : Nat}

theorem first_eq_success (hi : s.calls[i]? = some c)
    (howns : c.owns = some c.key) : s.first c.key = c.success := by
  cases hfirst : s.first c.key with
  | none =>
    cases hsuccess : c.success with
    | none => rfl
    | some r =>
      rw [h.pending i c r hi hsuccess] at hfirst
      cases hfirst
  | some r =>
    rcases h.first c.key r hfirst with hresult | ⟨j, c', hj, hkey, hsuccess⟩
    · exact absurd howns ((h.remembered c.key r hresult).2 i c hi)
    · have hij : i = j :=
        h.apart i j c c' c.key hi hj howns (hkey ▸ GuardedCall.owns_of_success hsuccess)
      subst hij
      rw [hi] at hj
      cases hj
      exact hsuccess.symm

theorem join (key : String) (guard : GuardedBy ε) :
    Guarded { s with calls := s.calls ++ [{ key, guard }] } := by
  have hback : ∀ {i : Nat} {c : GuardedCall ε ρ},
      (s.calls ++ [({ key, guard } : GuardedCall ε ρ)])[i]? = some c →
      s.calls[i]? = some c ∨ c = { key, guard } := Parties.getElem?_concat_cases
  refine ⟨h.reserved.join rfl, h.apart.join rfl, ?_, ?_, ?_, ?_⟩
  · intro k r hr
    refine ⟨(h.remembered k r hr).1, ?_⟩
    intro i c hi
    rcases hback hi with hi | rfl
    · exact (h.remembered k r hr).2 i c hi
    · simp [GuardedCall.owns, GuardedCall.holds]
  · intro i c r hi hr
    rcases hback hi with hi | rfl
    · exact h.pending i c r hi hr
    · cases hr
  · intro k r hr
    rcases h.first k r hr with hr | ⟨i, c, hi, hkey, hsuccess⟩
    · exact Or.inl hr
    · have hlt : i < s.calls.length := (List.getElem?_eq_some_iff.1 hi).1
      exact Or.inr ⟨i, c, by rw [List.getElem?_append_left hlt]; exact hi, hkey, hsuccess⟩
  · intro i c hi hattempting
    rcases hback hi with hi | rfl
    · exact h.unlanded i c hi hattempting
    · rfl

theorem place {c c' : GuardedCall ε ρ} {store : IdempotencyStore ρ}
    (hi : s.calls[i]? = some c) (hkey : c'.key = c.key)
    (hreserved : Reserved GuardedCall.holds store.inflight (s.calls.set i c'))
    (hapart : Apart GuardedCall.owns (s.calls.set i c'))
    (hresult : ∀ k, store.result? k = s.store.result? k)
    (howns : ∀ k r, s.store.result? k = some r → c'.owns ≠ some k)
    (hsuccess : c'.success = c.success) (hlanded : c'.attempting = true → c'.landed = false) :
    Guarded { s.setCall i c' with store } := by
  refine ⟨hreserved, hapart, ?_, ?_, ?_, ?_⟩
  · intro k r hr
    rw [hresult] at hr
    refine ⟨(h.remembered k r hr).1, ?_⟩
    intro j d hj hd
    rcases getElem?_set_cases hj with ⟨rfl, rfl⟩ | ⟨-, hold⟩
    · exact howns k r hr hd
    · exact (h.remembered k r hr).2 j d hold hd
  · intro j d r hj hr
    rcases getElem?_set_cases hj with ⟨rfl, rfl⟩ | ⟨-, hold⟩
    · rw [hkey]
      exact h.pending i c r hi (hsuccess ▸ hr)
    · exact h.pending j d r hold hr
  · intro k r hr
    rcases h.first k r hr with hr | ⟨j, d, hj, hk, hd⟩
    · exact Or.inl ((hresult k).trans hr)
    · by_cases hij : i = j
      · subst hij
        rw [hi] at hj
        cases hj
        exact Or.inr ⟨i, c', getElem?_set_of_some hi, hkey.trans hk, hsuccess.trans hd⟩
      · exact Or.inr ⟨j, d, (List.getElem?_set_ne hij).trans hj, hk, hd⟩
  · intro j d hj hd
    rcases getElem?_set_cases hj with ⟨rfl, rfl⟩ | ⟨-, hold⟩
    · exact hlanded hd
    · exact h.unlanded j d hold hd

theorem move {c c' : GuardedCall ε ρ} {store : IdempotencyStore ρ}
    (hi : s.calls[i]? = some c) (hkey : c'.key = c.key)
    (hreserved : Reserved GuardedCall.holds store.inflight (s.calls.set i c'))
    (hresult : ∀ k, store.result? k = s.store.result? k)
    (howns : ∀ k, c'.owns = some k → c.owns = some k) (hsuccess : c'.success = c.success)
    (hlanded : c'.attempting = true → c'.landed = false) :
    Guarded { s.setCall i c' with store } := by
  refine h.place hi hkey hreserved (h.apart.move hi howns) hresult ?_ hsuccess hlanded
  intro k r hr hk
  exact (h.remembered k r hr).2 i c hi (howns k hk)

theorem enter (hi : s.calls[i]? = some c) (hstage : c.stage = .entering)
    (hrecorded : ∀ (j : Nat) (c' : GuardedCall ε ρ) (r : ρ), s.calls[j]? = some c' →
      c'.stage = .unrecorded r → c'.key ≠ c.key) : (s.enter i c).Guarded := by
  have hnone : c.holds = none := by simp [GuardedCall.holds, hstage]
  have hsuccess : c.success = none := by simp [GuardedCall.success, hstage]
  unfold GuardedCalls.enter
  split
  · next r hentry =>
      refine h.move hi rfl (h.reserved.keep hi ?_) (fun k => rfl) ?_ ?_ ?_
      · rw [hnone]; rfl
      · intro k hk; cases hk
      · rw [hsuccess]; rfl
      · intro hattempting; cases hattempting
  · next hentry =>
      refine h.move hi rfl (h.reserved.keep hi ?_) (fun k => rfl) ?_ ?_ ?_
      · rw [hnone]; rfl
      · intro k hk; cases hk
      · rw [hsuccess]; rfl
      · intro hattempting; cases hattempting
  · next hentry =>
      obtain ⟨hresult, hinflight⟩ := s.store.entry_eq_reserved_iff.1 hentry
      have hfree : ∀ (j : Nat) (d : GuardedCall ε ρ), i ≠ j → s.calls[j]? = some d →
          d.owns ≠ some c.key := by
        intro j d _ hj hd
        unfold GuardedCall.owns at hd
        split at hd
        · next r hrecord => exact hrecorded j d r hj hrecord (Option.some.inj hd)
        · exact h.reserved.holds_ne hinflight hj hd
      refine h.place hi rfl (h.reserved.enter hi hnone hinflight rfl) (h.apart.enter rfl hfree)
        (fun k => rfl) ?_ ?_ ?_
      · intro k r hr hk
        cases hk
        rw [hresult] at hr
        cases hr
      · rw [hsuccess]; rfl
      · intro _
        exact h.unlanded i c hi (by simp [GuardedCall.attempting, hstage])

theorem start {i n : Nat} (hi : s.calls[i]? = some c)
    (hstage : c.stage = .reserved n) : (s.setCall i { c with stage := .performing n }).Guarded := by
  refine h.move hi rfl (h.reserved.keep hi ?_) (fun k => rfl) ?_ ?_ ?_
  · simp [GuardedCall.holds, hstage]
  · intro k hk
    simpa [GuardedCall.owns, GuardedCall.holds, hstage] using hk
  · simp [GuardedCall.success, hstage]
  · intro _
    exact h.unlanded i c hi (by simp [GuardedCall.attempting, hstage])

theorem release {stage : GuardedStage ε ρ}
    (hi : s.calls[i]? = some c) (hholds : c.holds = some c.key)
    (hstage : GuardedCall.holds { c with stage } = none)
    (hover : GuardedCall.attempting { c with stage } = false)
    (hsuccess : GuardedCall.success { c with stage } = c.success)
    (howns : ∀ k, GuardedCall.owns { c with stage } = some k → k = c.key) :
    Guarded { s.setCall i { c with stage } with store := s.store.discard c.key } := by
  refine h.move hi rfl (h.reserved.leave hi hholds hstage) (fun k => rfl) ?_ hsuccess ?_
  · intro k hk
    rw [howns k hk]
    exact GuardedCall.owns_of_holds hholds
  · intro hattempting
    rw [hover] at hattempting
    cases hattempting

theorem finish_error {i n : Nat} {attempt : Attempt ε ρ}
    {e : ε} (hi : s.calls[i]? = some c) (hstage : c.stage = .performing n)
    (hanswer : attempt.answer = .error e)
    (hlanded : c.guard.retries n e = true → attempt.landed = false) :
    (s.finish i c n attempt).Guarded := by
  have hunlanded : c.landed = false :=
    h.unlanded i c hi (by simp [GuardedCall.attempting, hstage])
  simp only [GuardedCalls.finish, hanswer]
  split
  · next hretries =>
      refine h.move hi rfl (h.reserved.keep hi ?_) (fun k => rfl) ?_ ?_ ?_
      · simp [GuardedCall.holds, hstage]
      · intro k hk
        simpa [GuardedCall.owns, GuardedCall.holds, hstage] using hk
      · simp [GuardedCall.success, hstage]
      · intro _
        simp [hunlanded, hlanded hretries]
  · refine h.move hi rfl (h.reserved.keep hi ?_) (fun k => rfl) ?_ ?_ ?_
    · simp [GuardedCall.holds, hstage]
    · intro k hk
      simpa [GuardedCall.owns, GuardedCall.holds, hstage] using hk
    · simp [GuardedCall.success, hstage]
    · intro hattempting
      simp [GuardedCall.attempting] at hattempting

theorem finish_ok {i n : Nat} {attempt : Attempt ε ρ}
    {result : ρ} (hi : s.calls[i]? = some c) (hstage : c.stage = .performing n)
    (hanswer : attempt.answer = .ok result) : (s.finish i c n attempt).Guarded := by
  have howns : c.owns = some c.key := by simp [GuardedCall.owns, GuardedCall.holds, hstage]
  have hnone : s.first c.key = none := by
    rw [h.first_eq_success hi howns]
    simp [GuardedCall.success, hstage]
  have hself : (if c.key = c.key then (s.first c.key).or (some result) else s.first c.key)
      = some result := by
    rw [if_pos rfl, hnone, Option.none_or]
  simp only [GuardedCalls.finish, hanswer]
  refine ⟨h.reserved.keep hi ?_, h.apart.move hi ?_, ?_, ?_, ?_, ?_⟩
  · simp [GuardedCall.holds, hstage]
  · intro k hk
    simpa [GuardedCall.owns, GuardedCall.holds, hstage] using hk
  · intro k r hr
    obtain ⟨hfirst, hfree⟩ := h.remembered k r hr
    have hk : k ≠ c.key := by
      rintro rfl
      exact hfree i c hi howns
    refine ⟨(if_neg hk).trans hfirst, ?_⟩
    intro j d hj hd
    rcases getElem?_set_cases hj with ⟨rfl, rfl⟩ | ⟨-, hold⟩
    · exact hk (GuardedCall.key_of_owns hd).symm
    · exact hfree j d hold hd
  · intro j d r hj hr
    rcases getElem?_set_cases hj with ⟨rfl, rfl⟩ | ⟨hij, hold⟩
    · exact hself.trans hr
    · have hkey : d.key ≠ c.key := by
        intro hkey
        exact hij (h.apart i j c d c.key hi hold howns (hkey ▸ GuardedCall.owns_of_success hr))
      exact (if_neg hkey).trans (h.pending j d r hold hr)
  · intro k r hr
    by_cases hk : k = c.key
    · subst hk
      have hr := hself.symm.trans hr
      exact Or.inr ⟨i, _, getElem?_set_of_some hi, rfl, hr⟩
    · have hr := (if_neg hk).symm.trans hr
      rcases h.first k r hr with hr | ⟨j, d, hj, hd, hsuccess⟩
      · exact Or.inl hr
      · have hij : i ≠ j := by
          rintro rfl
          rw [hi] at hj
          cases hj
          exact hk hd.symm
        exact Or.inr ⟨j, d, (List.getElem?_set_ne hij).trans hj, hd, hsuccess⟩
  · intro j d hj hd
    rcases getElem?_set_cases hj with ⟨rfl, rfl⟩ | ⟨-, hold⟩
    · cases hd
    · exact h.unlanded j d hold hd

theorem remember {result : ρ} (hi : s.calls[i]? = some c) (hstage : c.stage = .unrecorded result) :
    (s.remember i c result).Guarded := by
  have howns : c.owns = some c.key := by simp [GuardedCall.owns, hstage]
  have hsuccess : c.success = some result := by simp [GuardedCall.success, hstage]
  have hself : (s.store.remember c.key result).result? c.key = some result :=
    s.store.result?_remember_self c.key result
  -- A key without a remembered result is not evicted.
  have hkept : ∀ k, s.store.result? k = none →
      s.store.evicted (s.store.remember c.key result) k = false := by
    intro k hk
    simp [IdempotencyStore.evicted, IdempotencyStore.seen, hk]
  have hfree : s.store.result? c.key = none := by
    cases hr : s.store.result? c.key with
    | none => rfl
    | some r => exact absurd howns ((h.remembered c.key r hr).2 i c hi)
  have hfirst : ∀ k, s.store.evicted (s.store.remember c.key result) k = false →
      (s.remember i c result).first k = s.first k := by
    intro k hk
    simp only [GuardedCalls.remember, hk, Bool.false_eq_true, if_false]
  refine ⟨h.reserved.keep hi ?_, h.apart.move hi ?_, ?_, ?_, ?_, ?_⟩
  · simp [GuardedCall.holds, hstage]
  · intro k hk
    cases hk
  · intro k r hr
    have hr : (s.store.remember c.key result).result? k = some r := hr
    have hevicted : s.store.evicted (s.store.remember c.key result) k = false := by
      simp only [IdempotencyStore.evicted, IdempotencyStore.seen, hr, Option.isSome_some,
        Bool.not_true, Bool.and_false]
    by_cases hk : k = c.key
    · subst hk
      have hr := hself.symm.trans hr
      cases hr
      refine ⟨(hfirst _ hevicted).trans (h.pending i c result hi hsuccess), ?_⟩
      intro j d hj hd
      rcases getElem?_set_cases hj with ⟨rfl, rfl⟩ | ⟨hij, hold⟩
      · cases hd
      · exact hij (h.apart i j c d c.key hi hold howns hd)
    · obtain ⟨hold, hnobody⟩ := h.remembered k r (s.store.result?_of_remember hk hr)
      refine ⟨(hfirst k hevicted).trans hold, ?_⟩
      intro j d hj hd
      rcases getElem?_set_cases hj with ⟨rfl, rfl⟩ | ⟨-, hold⟩
      · cases hd
      · exact hnobody j d hold hd
  · intro j d r hj hr
    rcases getElem?_set_cases hj with ⟨rfl, rfl⟩ | ⟨-, hold⟩
    · cases hr
    · have hnone : s.store.result? d.key = none := by
        cases hold' : s.store.result? d.key with
        | none => rfl
        | some r' =>
          exact absurd (GuardedCall.owns_of_success hr) ((h.remembered d.key r' hold').2 j d hold)
      exact (hfirst d.key (hkept d.key hnone)).trans (h.pending j d r hold hr)
  · intro k r hr
    cases hevicted : s.store.evicted (s.store.remember c.key result) k with
    | true => simp [GuardedCalls.remember, hevicted] at hr
    | false =>
      rcases h.first k r ((hfirst k hevicted).symm.trans hr) with hold | ⟨j, d, hj, hd, hdone⟩
      · have hk : k ≠ c.key := by
          rintro rfl
          rw [hfree] at hold
          cases hold
        cases hnew : (s.store.remember c.key result).result? k with
        | none => simp [IdempotencyStore.evicted, IdempotencyStore.seen, hold, hnew] at hevicted
        | some r' =>
          rw [s.store.result?_of_remember hk hnew] at hold
          exact Or.inl (hnew.trans hold)
      · by_cases hij : i = j
        · subst hij
          rw [hi] at hj
          cases hj
          rw [hsuccess] at hdone
          cases hdone
          exact Or.inl (hd ▸ hself)
        · exact Or.inr ⟨j, d, (List.getElem?_set_ne hij).trans hj, hd, hdone⟩
  · intro j d hj hd
    rcases getElem?_set_cases hj with ⟨rfl, rfl⟩ | ⟨-, hold⟩
    · cases hd
    · exact h.unlanded j d hold hd

theorem step {a : GuardedStep ε ρ} {s' : GuardedCalls ε ρ}
    (hquiet : s.Undisturbed a) (hstep : s.step a = some s') : s'.Guarded := by
  cases a with
  | call key guard =>
    cases hstep
    exact h.join key guard
  | enter i =>
    obtain ⟨c, hi, hstep⟩ := Option.bind_eq_some_iff.1 hstep
    split at hstep
    · next hstage =>
        cases hstep
        exact h.enter hi hstage (hquiet c hi)
    · cases hstep
  | start i =>
    obtain ⟨c, hi, hstep⟩ := Option.bind_eq_some_iff.1 hstep
    split at hstep
    · next n hstage =>
        cases hstep
        exact h.start hi hstage
    · cases hstep
  | finish i attempt =>
    obtain ⟨c, hi, hstep⟩ := Option.bind_eq_some_iff.1 hstep
    split at hstep
    · next n hstage =>
        cases hstep
        cases hanswer : attempt.answer with
        | ok result => exact h.finish_ok hi hstage hanswer
        | error e => exact h.finish_error hi hstage hanswer (hquiet c n e hi hstage hanswer)
    · cases hstep
  | release i =>
    obtain ⟨c, hi, hstep⟩ := Option.bind_eq_some_iff.1 hstep
    split at hstep
    · next result hstage =>
        cases hstep
        refine h.release hi (by simp [GuardedCall.holds, hstage]) rfl rfl ?_ ?_
        · simp [GuardedCall.success, hstage]
        · intro k hk
          exact (Option.some.inj hk).symm
    · next e hstage =>
        cases hstep
        refine h.release hi (by simp [GuardedCall.holds, hstage]) rfl rfl ?_ ?_
        · simp [GuardedCall.success, hstage]
        · intro k hk
          cases hk
    · cases hstep
  | remember i =>
    obtain ⟨c, hi, hstep⟩ := Option.bind_eq_some_iff.1 hstep
    split at hstep
    · next result hstage =>
        cases hstep
        exact h.remember hi hstage
    · cases hstep

theorem sound (a : GuardedStep ε ρ) (hquiet : s.Undisturbed a) : s.Sound a := by
  cases a with
  | call key guard => trivial
  | enter i =>
    intro c r hi hstage hfirst
    rcases h.first c.key r hfirst with hresult | ⟨j, d, hj, hkey, hsuccess⟩
    · exact Or.inl (s.store.entry_eq_cached_iff.2 hresult)
    · -- The success is not recorded yet: its thread still holds the reservation.
      have hd : d.stage = .succeeded r := by
        unfold GuardedCall.success at hsuccess
        split at hsuccess
        · next hd => rw [hd, Option.some.inj hsuccess]
        · next result hd => exact absurd hkey (hquiet c hi j d result hj hd)
        · cases hsuccess
      have hholds : d.holds = some c.key := by simp [GuardedCall.holds, hd, hkey]
      have hnone : s.store.result? c.key = none := by
        cases hresult : s.store.result? c.key with
        | none => rfl
        | some r' =>
          exact absurd (GuardedCall.owns_of_holds hholds)
            ((h.remembered c.key r' hresult).2 j d hj)
      refine Or.inr ⟨s.store.entry_eq_inFlight_iff.2 ⟨hnone, ?_⟩, j, d, hj, hkey, hd⟩
      exact (h.reserved.mem_iff c.key).2 ⟨j, d, hj, hholds⟩
  | start i =>
    intro c n hi hstage
    have howns : c.owns = some c.key := by simp [GuardedCall.owns, GuardedCall.holds, hstage]
    refine ⟨?_, h.unlanded i c hi (by simp [GuardedCall.attempting, hstage]), ?_⟩
    · rw [h.first_eq_success hi howns]
      simp [GuardedCall.success, hstage]
    · intro j d hj hd
      have hij : i = j :=
        h.apart i j c d c.key hi hj howns (GuardedCall.performs_sub_owns hd)
      subst hij
      rw [hi] at hj
      cases hj
      simp [GuardedCall.performs, hstage] at hd
  | finish i attempt => trivial
  | release i => trivial
  | remember i =>
    intro c r hi hstage
    exact h.pending i c r hi (by simp [GuardedCall.success, hstage])

end

end Guarded

def init (store : IdempotencyStore ρ) : GuardedCalls ε ρ := { store }

theorem guarded_init {store : IdempotencyStore ρ} (hdone : store.done = KeyedList.empty)
    (hinflight : store.inflight = []) : (init store : GuardedCalls ε ρ).Guarded := by
  have hresult : ∀ k, store.result? k = none := by
    intro k
    rw [IdempotencyStore.result?, hdone, KeyedList.get?_empty, Option.map_none]
  refine ⟨?_, Apart.nil, ?_, ?_, ?_, ?_⟩
  · simp only [init, hinflight]
    exact Reserved.nil
  · intro k r hr
    rw [show (init store : GuardedCalls ε ρ).store = store from rfl, hresult] at hr
    cases hr
  · intro i c r hi
    simp [init] at hi
  · intro k r hr
    cases hr
  · intro i c hi
    simp [init] at hi

/-! ## Runs -/

/-- In a run in which nobody asks for a key between the release of its reservation and the record of
    its result, and no exception of an attempt that landed is retried, every step is sound and no
    two threads perform the effect of one key. -/
theorem effect_at_most_once {store : IdempotencyStore ρ} (hdone : store.done = KeyedList.empty)
    (hinflight : store.inflight = []) {steps : List (GuardedStep ε ρ)} {s : GuardedCalls ε ρ}
    (hrun : system.exec (init store) steps = some s)
    (hquiet : system.AlongRun Undisturbed (init store) steps) :
    system.AlongRun Sound (init store) steps ∧ Apart GuardedCall.performs s.calls := by
  have hinit : (init store : GuardedCalls ε ρ).Guarded := guarded_init hdone hinflight
  have hstep : ∀ (s : GuardedCalls ε ρ) a s', s.Guarded → s.Undisturbed a →
      system.step s a = some s' → s'.Guarded := fun s a s' h hq hs => h.step hq hs
  constructor
  · exact system.alongRun_of_invariant hstep (fun s a h hq => h.sound a hq) hinit hquiet
  · have hguarded := system.exec_invariant hstep hinit hquiet hrun
    intro i j c d k hi hj hc hd
    exact hguarded.apart i j c d k hi hj (GuardedCall.performs_sub_owns hc)
      (GuardedCall.performs_sub_owns hd)

def repeatedRun : List (GuardedStep Unit Nat) :=
  [.call "k" .runOnce, .enter 0, .start 0, .finish 0 ⟨true, .ok 1⟩, .release 0, .remember 0,
    .call "k" .runOnce, .enter 1]

theorem undisturbed_repeatedRun : system.AlongRun Undisturbed (init {}) repeatedRun := by
  refine ⟨trivial, fun s' h => ?_⟩
  cases h
  refine ⟨?_, fun s' h => ?_⟩
  · intro c hi j d r hj hd
    rcases j with _ | j
    · cases hj
      cases hd
    · cases hj
  cases h
  refine ⟨trivial, fun s' h => ?_⟩
  cases h
  refine ⟨?_, fun s' h => ?_⟩
  · intro c n e hi hstage hanswer
    cases hanswer
  cases h
  refine ⟨trivial, fun s' h => ?_⟩
  cases h
  refine ⟨trivial, fun s' h => ?_⟩
  cases h
  refine ⟨trivial, fun s' h => ?_⟩
  cases h
  refine ⟨?_, fun s' h => trivial⟩
  intro c hi j d r hj hd
  rcases j with _ | _ | j
  · cases hj
    cases hd
  · cases hj
    cases hd
  · cases hj

theorem effect_at_most_once_repeatedRun : system.AlongRun Sound (init {}) repeatedRun
      ∧ ∃ s, system.exec (init {}) repeatedRun = some s ∧ Apart GuardedCall.performs s.calls := by
  obtain ⟨s, hrun⟩ : ∃ s, system.exec (init {}) repeatedRun = some s :=
    Option.isSome_iff_exists.1 rfl
  have h := effect_at_most_once rfl rfl hrun undisturbed_repeatedRun
  exact ⟨h.1, s, hrun, h.2⟩

/-- A thread enters between the release of a reservation and the record of its result. -/
def overtakenRun : List (GuardedStep Unit Nat) :=
  [.call "k" .runOnce, .call "k" .runOnce, .enter 0, .start 0, .finish 0 ⟨true, .ok 1⟩, .release 0,
    .enter 1]

/-- The effect of an attempt lands, and the attempt raises an exception of `retry_on`. -/
def landedRun : List (GuardedStep Unit Nat) :=
  [.call "k" (.callIdempotent { attempts := 2, retryOn := fun _ => true }), .enter 0, .start 0,
    .finish 0 ⟨true, .error ()⟩]

/-- The next attempt of either run performs again an effect that succeeded, or that landed. -/
theorem effect_performed_twice : (system.exec (init {}) (overtakenRun ++ [.start 1])).isSome
      ∧ ¬ system.AlongRun Sound (init {}) (overtakenRun ++ [.start 1])
      ∧ (system.exec (init {}) (landedRun ++ [.start 0])).isSome
      ∧ ¬ system.AlongRun Sound (init {}) (landedRun ++ [.start 0]) := by
  refine ⟨rfl, ?_, rfl, ?_⟩
  · refine system.not_alongRun rfl ?_
    intro h
    have hfirst := (h _ 0 rfl rfl).1
    cases hfirst
  · refine system.not_alongRun rfl ?_
    intro h
    have hlanded := (h _ 1 rfl rfl).2.1
    cases hlanded

end GuardedCalls

end Himmy.Connectors
