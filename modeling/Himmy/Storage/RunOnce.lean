import Himmy.Library.Transition
import Himmy.Storage.TriggerDedup

/-! # Concurrent `run_once_async` and `seen_async` calls on one ledger

`DurableIdempotencyStore` runs a handler by the mark-after-success protocol: claim an in-flight
lease, run the handler, then store its result (`dedup_complete`) or, when it raised, drop the claim
(`dedup_release`). Any number of such calls, of `seen_async` pre-checks and of sweeps share one
ledger; `dedupSystem` is their interleaving, one store call at a time.

A store call reads the clock before it takes the write lock, so the reading it works with may be
older than the clock at which it takes effect, never newer. -/

namespace Himmy

/-- How `await call()` ends: with a value, given as text when it is a `str`, or by raising. -/
inductive HandlerOutcome
  | returned (text : Option String)
  | raised
deriving DecidableEq

/-- Where a `run_once_async` call stands. A stage that follows a won claim keeps the end of the
    lease that the claim was granted; the call itself does not know it. -/
inductive RunOnceStage
  | claiming
  | running (deadline : Instant)
  | succeeded (deadline : Instant) (stored : String)
  | raised (deadline : Instant)
  | completed (stored : String) (expires : Instant)
  | released
  | duplicate (result : Option String)
  | refused
  | crashed (deadline : Option Instant)
deriving DecidableEq

/-- One call of `run_once_async`. -/
structure RunOnce where
  key : DedupKey
  lease : Duration
  ttl : Duration
  stage : RunOnceStage := .claiming
deriving DecidableEq

namespace RunOnce

variable (c : RunOnce)

def onClaim (claim : DedupClaim) (now : Instant) : RunOnce :=
  match claim.outcome with
  | .done => { c with stage := .duplicate claim.result }
  | .inFlight => { c with stage := .refused }
  | .won => { c with stage := .running (isoPlusSeconds now c.lease) }

/-- The end of the lease of a claim that the call won and has not ended by a store call. -/
def holds : Option Instant :=
  match c.stage with
  | .running deadline => some deadline
  | .succeeded deadline _ => some deadline
  | .raised deadline => some deadline
  | .crashed deadline => deadline
  | _ => none

def isRunning : Bool :=
  match c.stage with
  | .running _ => true
  | _ => false

/-- The process of the call dies. A call that has returned or raised is over. -/
def crash : Option RunOnce :=
  match c.stage with
  | .claiming => some { c with stage := .crashed none }
  | .running deadline => some { c with stage := .crashed (some deadline) }
  | .succeeded deadline _ => some { c with stage := .crashed (some deadline) }
  | .raised deadline => some { c with stage := .crashed (some deadline) }
  | _ => none

def finish (o : HandlerOutcome) : Option RunOnce :=
  match c.stage, o with
  | .running deadline, .returned text => some { c with stage := .succeeded deadline (text.getD "") }
  | .running deadline, .raised => some { c with stage := .raised deadline }
  | _, _ => none

def isCompleted : Bool :=
  match c.stage with
  | .completed .. => true
  | _ => false

/-- A step that is no store call: the claim of the call stays as it was. -/
structure SameClaim (c c' : RunOnce) : Prop where
  key : c'.key = c.key
  holds : c'.holds = c.holds
  stopped : c'.isRunning = false
  notCompleted : c.isCompleted = false
  notCompleted' : c'.isCompleted = false

theorem finish_sameClaim {c c' : RunOnce} {o : HandlerOutcome} (h : c.finish o = some c') :
    c.SameClaim c' := by
  unfold finish at h
  split at h
  · next hstage =>
      cases h
      exact ⟨rfl, by simp [holds, hstage], rfl, by simp [isCompleted, hstage], rfl⟩
  · next hstage =>
      cases h
      exact ⟨rfl, by simp [holds, hstage], rfl, by simp [isCompleted, hstage], rfl⟩
  · cases h

theorem crash_sameClaim {c c' : RunOnce} (h : c.crash = some c') : c.SameClaim c' := by
  unfold crash at h
  split at h <;> cases h <;> next hstage =>
    exact ⟨rfl, by simp [holds, hstage], rfl, by simp [isCompleted, hstage], rfl⟩

end RunOnce

/-- Where a `seen_async` call stands: its claim is next, its claim won and the release is next, or it
    has answered. -/
inductive SeenStage
  | claiming
  | probing
  | answered (seen : Bool)
deriving DecidableEq

/-- One call of `seen_async`; `probe` is the clock reading of a claim it won. -/
structure Seen where
  key : DedupKey
  stage : SeenStage := .claiming
  probe : Option Instant := none
deriving DecidableEq

/-- What the call does with the answer to its zero-second claim. -/
def Seen.onClaim (c : Seen) (claim : DedupClaim) (now : Instant) : Seen :=
  match claim.outcome with
  | .won => { c with stage := .probing, probe := some now }
  | .done => { c with stage := .answered true }
  | .inFlight => { c with stage := .answered false }

/-- The ledger, the clock and the calls. -/
structure DedupSystem (σ : Type) where
  store : σ
  clock : Instant
  calls : List RunOnce := []
  seens : List Seen := []

/-- The events: the clock advances, a call begins, or a call takes its next step. -/
inductive DedupAction
  | tick (d : Nat)
  | runOnce (key : DedupKey) (lease ttl : Duration)
  | claim (i : Nat) (now : Instant)
  | finish (i : Nat) (o : HandlerOutcome)
  | complete (i : Nat) (now : Instant)
  | release (i : Nat)
  | crash (i : Nat)
  | sweep (now : Instant)
  | seen (key : DedupKey)
  | probe (j : Nat) (now : Instant)
  | unprobe (j : Nat)
deriving DecidableEq

/-- The event is a step of a `seen_async` call. -/
def DedupAction.isSeen : DedupAction → Bool
  | .seen _ | .probe .. | .unprobe _ => true
  | _ => false

namespace DedupSystem

variable {σ : Type} (S : TriggerDedupStore σ)

def init (clock : Instant) : DedupSystem σ := { store := S.empty, clock }

variable (s : DedupSystem σ)

/-- Put the `i`-th call of `run_once_async` and the ledger in place. -/
def setCall (i : Nat) (store : σ) (c : RunOnce) : DedupSystem σ :=
  { s with store, calls := s.calls.set i c }

/-- Put the `j`-th call of `seen_async` and the ledger in place. -/
def setSeen (j : Nat) (store : σ) (c : Seen) : DedupSystem σ :=
  { s with store, seens := s.seens.set j c }

def step : DedupAction → Option (DedupSystem σ)
  | .tick d => some { s with clock := s.clock + d }
  | .runOnce key lease ttl => some { s with calls := s.calls ++ [{ key, lease, ttl }] }
  | .claim i now => s.calls[i]?.bind fun c =>
    if c.stage = .claiming ∧ now ≤ s.clock then
      let (store, claim) := S.tryClaim s.store c.key c.lease now
      some (s.setCall i store (c.onClaim claim now))
    else none
  | .finish i o => s.calls[i]?.bind fun c => (c.finish o).map (s.setCall i s.store)
  | .complete i now => s.calls[i]?.bind fun c =>
    match c.stage with
    | .succeeded _ stored =>
      if now ≤ s.clock then
        some (s.setCall i (S.complete s.store c.key stored c.ttl now)
          { c with stage := .completed stored (isoPlusSeconds now c.ttl) })
      else none
    | _ => none
  | .release i => s.calls[i]?.bind fun c =>
    match c.stage with
    | .raised _ => some (s.setCall i (S.release s.store c.key) { c with stage := .released })
    | _ => none
  | .crash i => s.calls[i]?.bind fun c => c.crash.map (s.setCall i s.store)
  | .sweep now => if now ≤ s.clock then some { s with store := (S.sweep s.store now).1 } else none
  | .seen key => some { s with seens := s.seens ++ [{ key }] }
  | .probe j now => s.seens[j]?.bind fun c =>
    if c.stage = .claiming ∧ now ≤ s.clock then
      let (store, claim) := S.tryClaim s.store c.key 0 now
      some (s.setSeen j store (c.onClaim claim now))
    else none
  | .unprobe j => s.seens[j]?.bind fun c =>
    if c.stage = .probing then
      some (s.setSeen j (S.release s.store c.key) { c with stage := .answered false })
    else none

end DedupSystem

/-- Interleaved `run_once_async` calls, `seen_async` calls and sweeps. -/
def dedupSystem {σ : Type} (S : TriggerDedupStore σ) : LTS (DedupSystem σ) DedupAction :=
  ⟨DedupSystem.step S⟩

/-! ## What an event does -/

namespace DedupSystem

variable {σ : Type} {S : TriggerDedupStore σ}

/-- What an event does: what it needs of the state before, and the state after it. -/
inductive Effect (S : TriggerDedupStore σ) (s : DedupSystem σ) :
    DedupAction → DedupSystem σ → Prop
  | tick (d : Nat) : Effect S s (.tick d) { s with clock := s.clock + d }
  | runOnce (key : DedupKey) (lease ttl : Duration) :
      Effect S s (.runOnce key lease ttl) { s with calls := s.calls ++ [{ key, lease, ttl }] }
  | claim {i : Nat} {c : RunOnce} (now : Instant) (hc : s.calls[i]? = some c)
      (hstage : c.stage = .claiming) (hnow : now ≤ s.clock) :
      Effect S s (.claim i now) (s.setCall i (S.tryClaim s.store c.key c.lease now).1
        (c.onClaim (DedupClaim.of (S.entry s.store c.key) now) now))
  | finish {i : Nat} {c c' : RunOnce} (o : HandlerOutcome) (hc : s.calls[i]? = some c)
      (hsame : c.SameClaim c') : Effect S s (.finish i o) (s.setCall i s.store c')
  | complete {i : Nat} {c : RunOnce} {d : Instant} {stored : String} (now : Instant)
      (hc : s.calls[i]? = some c) (hstage : c.stage = .succeeded d stored)
      (hnow : now ≤ s.clock) :
      Effect S s (.complete i now) (s.setCall i (S.complete s.store c.key stored c.ttl now)
        { c with stage := .completed stored (isoPlusSeconds now c.ttl) })
  | release {i : Nat} {c : RunOnce} {d : Instant} (hc : s.calls[i]? = some c)
      (hstage : c.stage = .raised d) :
      Effect S s (.release i) (s.setCall i (S.release s.store c.key) { c with stage := .released })
  | crash {i : Nat} {c c' : RunOnce} (hc : s.calls[i]? = some c) (hsame : c.SameClaim c') :
      Effect S s (.crash i) (s.setCall i s.store c')
  | sweep (now : Instant) (hnow : now ≤ s.clock) :
      Effect S s (.sweep now) { s with store := (S.sweep s.store now).1 }
  | seen (key : DedupKey) : Effect S s (.seen key) { s with seens := s.seens ++ [{ key }] }
  | probe {j : Nat} {c : Seen} (now : Instant) (hc : s.seens[j]? = some c)
      (hstage : c.stage = .claiming) (hnow : now ≤ s.clock) :
      Effect S s (.probe j now) (s.setSeen j (S.tryClaim s.store c.key 0 now).1
        (c.onClaim (DedupClaim.of (S.entry s.store c.key) now) now))
  | unprobe {j : Nat} {c : Seen} (hc : s.seens[j]? = some c) (hstage : c.stage = .probing) :
      Effect S s (.unprobe j)
        (s.setSeen j (S.release s.store c.key) { c with stage := .answered false })

theorem effect_of_step {s s' : DedupSystem σ} {a : DedupAction} (h : s.step S a = some s') :
    Effect S s a s' := by
  cases a with
  | tick d => cases h; exact .tick d
  | runOnce key lease ttl => cases h; exact .runOnce key lease ttl
  | claim i now =>
    obtain ⟨c, hc, h⟩ := Option.bind_eq_some_iff.1 h
    split at h
    · next hok => cases h; rw [S.answer_tryClaim]; exact .claim now hc hok.1 hok.2
    · cases h
  | finish i o =>
    obtain ⟨c, hc, h⟩ := Option.bind_eq_some_iff.1 h
    obtain ⟨c', hfinish, rfl⟩ := Option.map_eq_some_iff.1 h
    exact .finish o hc (RunOnce.finish_sameClaim hfinish)
  | complete i now =>
    obtain ⟨c, hc, h⟩ := Option.bind_eq_some_iff.1 h
    split at h
    · next d stored hstage =>
        split at h
        · next hnow => cases h; exact .complete now hc hstage hnow
        · cases h
    · cases h
  | release i =>
    obtain ⟨c, hc, h⟩ := Option.bind_eq_some_iff.1 h
    split at h
    · next d hstage => cases h; exact .release hc hstage
    · cases h
  | crash i =>
    obtain ⟨c, hc, h⟩ := Option.bind_eq_some_iff.1 h
    obtain ⟨c', hcrash, rfl⟩ := Option.map_eq_some_iff.1 h
    exact .crash hc (RunOnce.crash_sameClaim hcrash)
  | sweep now =>
    simp only [step] at h
    split at h
    · next hnow => cases h; exact .sweep now hnow
    · cases h
  | seen key => cases h; exact .seen key
  | probe j now =>
    obtain ⟨c, hc, h⟩ := Option.bind_eq_some_iff.1 h
    split at h
    · next hok => cases h; rw [S.answer_tryClaim]; exact .probe now hc hok.1 hok.2
    · cases h
  | unprobe j =>
    obtain ⟨c, hc, h⟩ := Option.bind_eq_some_iff.1 h
    split at h
    · next hstage => cases h; exact .unprobe hc hstage
    · cases h

end DedupSystem

end Himmy
