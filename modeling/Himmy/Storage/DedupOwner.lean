import Himmy.Storage.RunOnce

/-! # Who ends a dedup claim

A ledger row does not say whose claim it is, so a `run_once_async` call whose lease ran out can end
the claim of the call that reclaimed the key: its `dedup_release` deletes the other's in-flight row,
its `dedup_complete` overwrites it. A third delivery then runs the handler beside the second.

When every closing store call finds its own claim (`ClosesOwnClaim`), each live claim stays in the
ledger until its own call ends it (`Owned`), so no other claim of its key is won. With handlers that
end inside their leases, delivery is then at most once at a time, remembered for the completed TTL,
and never lost. -/

namespace Himmy

def RunOnce.HoldsLive (c : RunOnce) (clock : Instant) : Prop := ∃ d, c.holds = some d ∧ clock < d

theorem RunOnce.not_holdsLive {c : RunOnce} {clock : Instant} (h : c.holds = none) :
    ¬ c.HoldsLive clock := by
  rintro ⟨d, hd, -⟩
  rw [h] at hd
  cases hd

theorem RunOnce.holds_onClaim {c : RunOnce} {e : Option DedupEntry} {now : Instant} :
    (c.onClaim (DedupClaim.of e now) now).holds
      = if (DedupClaim.of e now).outcome = .won then some (isoPlusSeconds now c.lease)
        else none := by
  unfold RunOnce.onClaim
  cases (DedupClaim.of e now).outcome <;> rfl

@[simp] theorem RunOnce.key_onClaim (c : RunOnce) (claim : DedupClaim) (now : Instant) :
    (c.onClaim claim now).key = c.key := by
  unfold RunOnce.onClaim
  cases claim.outcome <;> rfl

namespace DedupSystem

variable {σ : Type} {S : TriggerDedupStore σ} {s s' : DedupSystem σ} {a : DedupAction}

/-- A closing store call finds its own claim: `dedup_complete` its own in-flight row or no row,
    `dedup_release` no in-flight row but its own. -/
def ClosesOwnClaim (S : TriggerDedupStore σ) (s : DedupSystem σ) (a : DedupAction) : Prop :=
  match a with
  | .complete i _ => ∀ c ∈ s.calls[i]?, ∀ row ∈ S.entry s.store c.key,
      row.result = none ∧ row.expiresAt = c.holds
  | .release i => ∀ c ∈ s.calls[i]?, ∀ row ∈ S.entry s.store c.key,
      row.result = none → row.expiresAt = c.holds
  | _ => True

instance (S : TriggerDedupStore σ) (s : DedupSystem σ) :
    ∀ a : DedupAction, Decidable (ClosesOwnClaim S s a)
  | .complete .. | .release _ => by unfold ClosesOwnClaim; infer_instance
  | .tick _ | .runOnce .. | .claim .. | .finish .. | .crash _ | .sweep _ | .seen _ | .probe ..
  | .unprobe _ => .isTrue trivial

/-! ## Live claims -/

/-- Every live claim is in the ledger, and a key has one live claim at most. -/
structure Owned (S : TriggerDedupStore σ) (s : DedupSystem σ) : Prop where
  row : ∀ (i : Nat) (c : RunOnce) (d : Instant), s.calls[i]? = some c → c.holds = some d →
    s.clock < d → S.entry s.store c.key = some (.inFlight d)
  unique : ∀ (i j : Nat) (c c' : RunOnce), s.calls[i]? = some c → s.calls[j]? = some c' →
    c.key = c'.key → c.HoldsLive s.clock → c'.HoldsLive s.clock → i = j

namespace Owned

theorem init (S : TriggerDedupStore σ) (clock : Instant) : Owned S (init S clock) :=
  ⟨fun _ _ _ hc => absurd hc (by simp [DedupSystem.init]),
    fun _ _ _ _ hc => absurd hc (by simp [DedupSystem.init])⟩

theorem not_won (h : Owned S s) {i : Nat} {c : RunOnce} (hc : s.calls[i]? = some c)
    (hlive : c.HoldsLive s.clock) {now : Instant} (hnow : now ≤ s.clock) :
    (DedupClaim.of (S.entry s.store c.key) now).outcome ≠ .won := by
  obtain ⟨d, hd, hclock⟩ := hlive
  intro hwon
  have hdead := DedupClaim.of_won_iff.1 hwon _ (h.row i c d hc hd hclock)
  rw [DedupEntry.live_inFlight, decide_eq_false_iff_not] at hdead
  exact hdead (Int.lt_of_le_of_lt hnow hclock)

theorem mono (h : Owned S s) (hclock : s.clock ≤ s'.clock)
    (hcalls : ∀ (j : Nat) (c' : RunOnce), s'.calls[j]? = some c' → c'.HoldsLive s'.clock →
      ∃ c, s.calls[j]? = some c ∧ c.key = c'.key ∧ c.holds = c'.holds)
    (hrow : ∀ (j : Nat) (c : RunOnce) (d : Instant), s'.calls[j]? = some c → c.holds = some d →
      s'.clock < d → S.entry s.store c.key = some (.inFlight d) →
      S.entry s'.store c.key = some (.inFlight d)) : Owned S s' := by
  -- a claim live in `s'` was live in `s`: the clock has not gone back
  have hold : ∀ (j : Nat) (c' : RunOnce), s'.calls[j]? = some c' → c'.HoldsLive s'.clock →
      ∃ c, s.calls[j]? = some c ∧ c.key = c'.key ∧ c.holds = c'.holds ∧ c.HoldsLive s.clock := by
    intro j c' hc' hlive
    obtain ⟨c, hc, hkey, hholds⟩ := hcalls j c' hc' hlive
    obtain ⟨d, hd, hlt⟩ := hlive
    exact ⟨c, hc, hkey, hholds, d, hholds.trans hd, Int.lt_of_le_of_lt hclock hlt⟩
  constructor
  · intro i c' d hc' hd hlt
    obtain ⟨c, hc, hkey, hholds, -⟩ := hold i c' hc' ⟨d, hd, hlt⟩
    refine hrow i c' d hc' hd hlt ?_
    rw [← hkey]
    exact h.row i c d hc (hholds.trans hd) (Int.lt_of_le_of_lt hclock hlt)
  · intro i j c₁ c₂ hc₁ hc₂ hkey hlive₁ hlive₂
    obtain ⟨b₁, hb₁, hk₁, -, hl₁⟩ := hold i c₁ hc₁ hlive₁
    obtain ⟨b₂, hb₂, hk₂, -, hl₂⟩ := hold j c₂ hc₂ hlive₂
    exact h.unique i j b₁ b₂ hb₁ hb₂ (by rw [hk₁, hk₂, hkey]) hl₁ hl₂

theorem claim (h : Owned S s) {i : Nat} {c : RunOnce} {now : Instant} (hnow : now ≤ s.clock) :
    Owned S (s.setCall i (S.tryClaim s.store c.key c.lease now).1
      (c.onClaim (DedupClaim.of (S.entry s.store c.key) now) now)) := by
  by_cases hwon : (DedupClaim.of (S.entry s.store c.key) now).outcome = .won
  · -- no call holds a live claim of the key, or the claim would not be won
    have hfree : ∀ (j : Nat) (b : RunOnce), s.calls[j]? = some b → b.HoldsLive s.clock →
        b.key ≠ c.key := by
      intro j b hb hlive hkey
      exact h.not_won hb hlive hnow (by rw [hkey]; exact hwon)
    constructor
    · intro j b d hb hd hlt
      show S.entry (S.tryClaim s.store c.key c.lease now).1 b.key = _
      rw [S.entry_tryClaim]
      rcases Parties.getElem?_set_cases hb with ⟨-, rfl⟩ | ⟨-, hb⟩
      · rw [RunOnce.holds_onClaim, if_pos hwon] at hd
        cases hd
        rw [if_pos ⟨RunOnce.key_onClaim .., hwon⟩]
      · rw [if_neg (fun hk => hfree j b hb ⟨d, hd, hlt⟩ hk.1)]
        exact h.row j b d hb hd hlt
    · intro j k b₁ b₂ hb₁ hb₂ hkey hlive₁ hlive₂
      rcases Parties.getElem?_set_cases hb₁ with ⟨hij, rfl⟩ | ⟨-, hb₁⟩ <;>
        rcases Parties.getElem?_set_cases hb₂ with ⟨hik, rfl⟩ | ⟨-, hb₂⟩
      · exact hij.symm.trans hik
      · rw [RunOnce.key_onClaim] at hkey
        exact absurd hkey.symm (hfree k b₂ hb₂ hlive₂)
      · rw [RunOnce.key_onClaim] at hkey
        exact absurd hkey (hfree j b₁ hb₁ hlive₁)
      · exact h.unique j k b₁ b₂ hb₁ hb₂ hkey hlive₁ hlive₂
  · refine h.mono (Int.le_refl _) ?_ ?_
    · intro j b hb hlive
      rcases Parties.getElem?_set_cases hb with ⟨-, rfl⟩ | ⟨-, hb⟩
      · exact absurd hlive (RunOnce.not_holdsLive (by rw [RunOnce.holds_onClaim, if_neg hwon]))
      · exact ⟨b, hb, rfl, rfl⟩
    · intro j b d hb hd hlt hrow
      show S.entry (S.tryClaim s.store c.key c.lease now).1 b.key = _
      rw [S.entry_tryClaim, if_neg (fun hk => hwon hk.2)]
      exact hrow

theorem close (h : Owned S s) {i : Nat} {c c' : RunOnce} {store : σ} (hc : s.calls[i]? = some c)
    (hholds : c'.holds = none) (hother : ∀ k, k ≠ c.key → S.entry store k = S.entry s.store k)
    (hown : ∀ d, S.entry s.store c.key = some (.inFlight d) → c.holds = some d) :
    Owned S (s.setCall i store c') := by
  refine h.mono (Int.le_refl _) ?_ ?_
  · intro j b hb hlive
    rcases Parties.getElem?_set_cases hb with ⟨-, rfl⟩ | ⟨-, hb⟩
    · exact absurd hlive (RunOnce.not_holdsLive hholds)
    · exact ⟨b, hb, rfl, rfl⟩
  · intro j b d hb hd hlt hrow
    show S.entry store b.key = _
    rcases Parties.getElem?_set_cases hb with ⟨-, rfl⟩ | ⟨hij, hb⟩
    · rw [hholds] at hd
      cases hd
    · by_cases hkey : b.key = c.key
      · -- the row would be the closing call's own, and its claim the live claim of `b`
        rw [hkey] at hrow
        exact absurd (h.unique i j c b hc hb hkey.symm ⟨d, hown d hrow, hlt⟩ ⟨d, hd, hlt⟩) hij
      · rw [hother _ hkey]
        exact hrow

theorem step (h : Owned S s) (hseen : a.isSeen = false) (hown : ClosesOwnClaim S s a)
    (heff : Effect S s a s') : Owned S s' := by
  cases heff with
  | tick d =>
    refine h.mono (Int.le_add_of_nonneg_right (Int.natCast_nonneg d)) ?_ ?_
    · intro j c hc _
      exact ⟨c, hc, rfl, rfl⟩
    · intro j c d hc hd hlt hrow
      exact hrow
  | runOnce key lease ttl =>
    refine h.mono (Int.le_refl _) ?_ ?_
    · intro j c hc hlive
      rcases Parties.getElem?_concat_cases hc with hc | rfl
      · exact ⟨c, hc, rfl, rfl⟩
      · exact absurd hlive (RunOnce.not_holdsLive rfl)
    · intro j c d hc hd hlt hrow
      exact hrow
  | claim now hc hstage hnow => exact h.claim hnow
  | finish o hc hsame | crash hc hsame =>
    refine h.mono (Int.le_refl _) ?_ ?_
    · intro j b hb hlive
      rcases Parties.getElem?_set_cases hb with ⟨rfl, rfl⟩ | ⟨-, hb⟩
      · exact ⟨_, hc, hsame.key.symm, hsame.holds.symm⟩
      · exact ⟨b, hb, rfl, rfl⟩
    · intro j b d hb hd hlt hrow
      exact hrow
  | @complete i c d stored now hc hstage hnow =>
    refine h.close hc rfl ?_ ?_
    · intro k hk
      rw [S.entry_complete, if_neg hk]
    · intro d hrow
      exact (hown c hc _ hrow).2.symm
  | @release i c d hc hstage =>
    refine h.close hc rfl ?_ ?_
    · intro k hk
      rw [S.entry_release, if_neg hk]
    · intro d hrow
      exact (hown c hc _ hrow rfl).symm
  | sweep now hnow =>
    refine h.mono (Int.le_refl _) ?_ ?_
    · intro j c hc _
      exact ⟨c, hc, rfl, rfl⟩
    · intro j c d hc hd hlt hrow
      show S.entry (S.sweep s.store now).1 c.key = _
      have hlive : now < d := Int.lt_of_le_of_lt hnow hlt
      rw [S.entry_sweep, hrow]
      simp [Option.filter, hlive]
  | seen key => cases hseen
  | probe now hc hstage hnow => cases hseen
  | unprobe hc hstage => cases hseen

end Owned

def ClaimsOwned (S : TriggerDedupStore σ) (s : DedupSystem σ) : Prop :=
  ∀ c ∈ s.calls, ∀ d, c.holds = some d → s.clock < d →
    S.entry s.store c.key = some (.inFlight d)
      ∧ ∀ lease now, now ≤ s.clock → (S.tryClaim s.store c.key lease now).2.outcome ≠ .won

end DedupSystem

/-- A dedup claim is ended only by its owner: whatever `run_once_async` calls, crashes and sweeps
    run, a claim whose lease is live stays in the ledger until its own call ends it. -/
def ClaimEndedByOwner {σ : Type} (S : TriggerDedupStore σ) : Prop :=
  ∀ clock as s, (∀ a ∈ as, DedupAction.isSeen a = false) →
    (dedupSystem S).exec (.init S clock) as = some s → s.ClaimsOwned S

/-- In every run whose closing store calls find their own claims, a claim is ended only by its
    owner. -/
theorem claimEndedByOwner_of_closesOwn {σ : Type} (S : TriggerDedupStore σ) (clock : Instant)
    (as : List DedupAction) {s : DedupSystem σ} (hseen : ∀ a ∈ as, a.isSeen = false)
    (hown : (dedupSystem S).AlongRun (DedupSystem.ClosesOwnClaim S) (.init S clock) as)
    (hrun : (dedupSystem S).exec (.init S clock) as = some s) : s.ClaimsOwned S := by
  have howned : s.Owned S := by
    refine (dedupSystem S).exec_invariant ?_ (DedupSystem.Owned.init S clock)
      ((LTS.AlongRun.of_forall _ _ hseen).and hown) hrun
    intro s a s' h hcond hstep
    exact h.step hcond.1 hcond.2 (DedupSystem.effect_of_step hstep)
  intro c hc d hd hlt
  obtain ⟨i, hi⟩ := List.getElem?_of_mem hc
  refine ⟨howned.row i c d hi hd hlt, ?_⟩
  intro lease now hnow
  rw [S.answer_tryClaim]
  exact howned.not_won hi ⟨d, hd, hlt⟩ hnow

/-- The late worker: the first call's lease of ten seconds runs out, the second call reclaims the
    key, and the first call's handler raises. -/
private def lateWorker : List DedupAction :=
  [.runOnce ("webhook", "d1") (seconds 10) (seconds 60), .claim 0 0, .tick 10000000,
    .runOnce ("webhook", "d1") (seconds 10) (seconds 60), .claim 1 (seconds 10), .finish 0 .raised]

/-- The call that reclaimed the key holds it when the late worker's process has died. -/
theorem claimEndedByOwner_of_closesOwn_reclaimed :
    ∃ s, (dedupSystem sqliteTriggerDedupStore).exec (.init sqliteTriggerDedupStore 0)
        (lateWorker ++ [.crash 0]) = some s ∧ s.ClaimsOwned sqliteTriggerDedupStore :=
  ⟨_, rfl, claimEndedByOwner_of_closesOwn sqliteTriggerDedupStore 0
    (lateWorker ++ [.crash 0]) (by decide) (by decide) rfl⟩

/-- The late worker's `dedup_release` deletes the in-flight row of the new holder: a third call
    wins the claim while the new holder's lease is live. -/
theorem not_claimEndedByOwner :
    ¬ ClaimEndedByOwner sqliteTriggerDedupStore ∧ ¬ ClaimEndedByOwner inMemoryTriggerDedupStore := by
  constructor
  · intro h
    have hkept := h 0 (lateWorker ++ [.release 0]) _ (by decide) rfl
    exact absurd (hkept _ (List.mem_of_getElem? (i := 1) rfl) (seconds 20) rfl (by decide)).1
      (by decide)
  · intro h
    have hkept := h 0 (lateWorker ++ [.release 0]) _ (by decide) rfl
    exact absurd (hkept _ (List.mem_of_getElem? (i := 1) rfl) (seconds 20) rfl (by decide)).1
      (by decide)

/-! ## At-most-once delivery -/

namespace RunOnce

/-- What makes the ledger refuse a claim at `now` on account of this call: the lease of its claim,
    or its completed delivery. -/
def Blocks (c : RunOnce) (now : Instant) : Prop :=
  (∃ d, c.holds = some d ∧ now < d) ∨ ∃ stored e, c.stage = .completed stored e ∧ now < e

def Wrote (c : RunOnce) (row : DedupEntry) : Prop :=
  (∃ d, c.holds = some d ∧ row = .inFlight d)
    ∨ ∃ stored e, c.stage = .completed stored e ∧ row = ⟨some stored, some e⟩

variable {row : DedupEntry} {c : RunOnce}

theorem Wrote.blocks {now : Instant} (h : c.Wrote row)
    (hlive : row.live now = true) : c.Blocks now := by
  rcases h with ⟨d, hd, rfl⟩ | ⟨stored, e, hstage, rfl⟩
  · exact Or.inl ⟨d, hd, by simpa using hlive⟩
  · exact Or.inr ⟨stored, e, hstage, by simpa using hlive⟩

theorem SameClaim.wrote {c c' : RunOnce} (h : c.SameClaim c')
    (hwrote : c.Wrote row) : c'.Wrote row := by
  rcases hwrote with ⟨d, hd, hrow⟩ | ⟨stored, e, hstage, -⟩
  · exact Or.inl ⟨d, h.holds.trans hd, hrow⟩
  · have := h.notCompleted
    simp [isCompleted, hstage] at this

theorem not_wrote_of_claiming (h : c.stage = .claiming) :
    ¬ c.Wrote row := by
  rintro (⟨d, hd, -⟩ | ⟨stored, e, hstage, -⟩)
  · simp [holds, h] at hd
  · rw [h] at hstage
    cases hstage

theorem holds_of_isRunning (h : c.isRunning = true) : ∃ d, c.holds = some d := by
  unfold isRunning at h
  split at h
  · next d hstage => exact ⟨d, by simp [holds, hstage]⟩
  · cases h

end RunOnce

namespace DedupSystem

variable {σ : Type} {S : TriggerDedupStore σ} {s s' : DedupSystem σ} {a : DedupAction}

def InLease (s : DedupSystem σ) : Prop :=
  ∀ c ∈ s.calls, c.isRunning = true → ∀ d ∈ c.holds, s.clock < d

instance (s : DedupSystem σ) : Decidable s.InLease := by unfold InLease; infer_instance

def EndsInLease (S : TriggerDedupStore σ) (s : DedupSystem σ) (a : DedupAction) : Prop :=
  ∀ s' ∈ s.step S a, s'.InLease

instance (S : TriggerDedupStore σ) (s : DedupSystem σ) (a : DedupAction) :
    Decidable (EndsInLease S s a) := by unfold EndsInLease; infer_instance

/-- At most one handler is running for a key, a completed delivery is not run again before its TTL
    has passed, and only a live lease or such a delivery keeps a delivery from being run. -/
structure AtMostOnce (S : TriggerDedupStore σ) (s : DedupSystem σ) : Prop where
  oneRunning : ∀ (i j : Nat) (c c' : RunOnce), s.calls[i]? = some c → s.calls[j]? = some c' →
    c.key = c'.key → c.isRunning = true → c'.isRunning = true → i = j
  remembered : ∀ c ∈ s.calls, ∀ stored e, c.stage = .completed stored e → s.clock < e →
    ∀ lease now, now ≤ s.clock → (S.tryClaim s.store c.key lease now).2.outcome ≠ .won
  rerunnable : ∀ k lease now, (S.tryClaim s.store k lease now).2.outcome = .won
    ∨ ∃ c ∈ s.calls, c.key = k ∧ c.Blocks now

/-- The row of a completed delivery stays until its TTL has passed. -/
def Remembered (S : TriggerDedupStore σ) (s : DedupSystem σ) : Prop :=
  ∀ c ∈ s.calls, ∀ stored e, c.stage = .completed stored e → s.clock < e →
    S.entry s.store c.key = some ⟨some stored, some e⟩

theorem Remembered.not_won (h : Remembered S s) {c : RunOnce} (hc : c ∈ s.calls) {stored : String}
    {e now : Instant} (hstage : c.stage = .completed stored e) (hlt : s.clock < e)
    (hnow : now ≤ s.clock) : (DedupClaim.of (S.entry s.store c.key) now).outcome ≠ .won := by
  intro hwon
  have hdead := DedupClaim.of_won_iff.1 hwon _ (h c hc stored e hstage hlt)
  rw [DedupEntry.live_mk, decide_eq_false_iff_not] at hdead
  exact hdead (Int.lt_of_le_of_lt hnow hlt)

theorem Remembered.step (h : Remembered S s) (hseen : a.isSeen = false)
    (hown : ClosesOwnClaim S s a) (heff : Effect S s a s') : Remembered S s' := by
  -- a call other than the one that moved: only its row is at stake
  have hframe : ∀ {i : Nat} {c' : RunOnce} {store : σ}, c'.isCompleted = false →
      (∀ c ∈ s.calls, ∀ stored e, c.stage = .completed stored e → s.clock < e →
        S.entry store c.key = S.entry s.store c.key) →
      Remembered S (s.setCall i store c') := by
    intro i c' store hopen hrow c hc stored e hstage hlt
    rcases List.mem_or_eq_of_mem_set hc with hc | rfl
    · exact (hrow c hc stored e hstage hlt).trans (h c hc stored e hstage hlt)
    · simp [RunOnce.isCompleted, hstage] at hopen
  cases heff with
  | tick d =>
    intro c hc stored e hstage hlt
    have hle : s.clock ≤ s.clock + d := Int.le_add_of_nonneg_right (Int.natCast_nonneg d)
    exact h c hc stored e hstage (Int.lt_of_le_of_lt hle hlt)
  | runOnce key lease ttl =>
    intro c hc stored e hstage hlt
    rcases List.mem_append.1 hc with hc | hc
    · exact h c hc stored e hstage hlt
    · rw [List.mem_singleton.1 hc] at hstage
      cases hstage
  | @claim i c now hc hcstage hnow =>
    refine hframe ?_ ?_
    · unfold RunOnce.onClaim
      split <;> rfl
    · intro b hb stored e hstage hlt
      rw [S.entry_tryClaim]
      refine if_neg (fun hk => h.not_won hb hstage hlt hnow ?_)
      rw [hk.1]
      exact hk.2
  | finish o hc hsame | crash hc hsame =>
    exact hframe hsame.notCompleted' (fun _ _ _ _ _ _ => rfl)
  | @complete i c d stored now hc hcstage hnow =>
    intro b hb stored' e hstage hlt
    show S.entry (S.complete s.store c.key stored c.ttl now) b.key = _
    rw [S.entry_complete]
    rcases List.mem_or_eq_of_mem_set hb with hb | rfl
    · -- the closing call would find the completed row of `b`
      have hrow := h b hb stored' e hstage hlt
      rw [if_neg]
      · exact hrow
      · intro hkey
        rw [hkey] at hrow
        exact absurd (hown c hc _ hrow).1 (by simp)
    · cases hstage
      rw [if_pos rfl]
  | @release i c d hc hcstage =>
    refine hframe rfl ?_
    intro b hb stored e hstage hlt
    rw [S.entry_release]
    split
    · next hkey =>
        have hrow := h b hb stored e hstage hlt
        rw [← hkey, hrow]
        rfl
    · rfl
  | sweep now hnow =>
    intro c hc stored e hstage hlt
    have hlive : now < e := Int.lt_of_le_of_lt hnow hlt
    show S.entry (S.sweep s.store now).1 c.key = _
    rw [S.entry_sweep, h c hc stored e hstage hlt]
    simp [Option.filter, hlive]
  | seen key => cases hseen
  | probe now hc hcstage hnow => cases hseen
  | unprobe hc hcstage => cases hseen

/-- Every row was written by a call that has not ended its claim since, or completed it. -/
def Explained (S : TriggerDedupStore σ) (s : DedupSystem σ) : Prop :=
  ∀ k row, S.entry s.store k = some row → ∃ c ∈ s.calls, c.key = k ∧ c.Wrote row

theorem Explained.step (h : Explained S s) (hseen : a.isSeen = false) (heff : Effect S s a s') :
    Explained S s' := by
  -- the writer of a row keeps its place unless it is the call that moved
  have hframe : ∀ {i : Nat} {c c' : RunOnce} {store : σ}, s.calls[i]? = some c →
      ∀ {k : DedupKey} {row : DedupEntry}, S.entry s.store k = some row →
        (c.key = k → c.Wrote row → c'.key = k ∧ c'.Wrote row) →
        ∃ b ∈ (s.setCall i store c').calls, b.key = k ∧ b.Wrote row := by
    intro i c c' store hc k row hrow hmoved
    obtain ⟨b, hb, hkey, hwrote⟩ := h k row hrow
    obtain ⟨j, hj⟩ := List.getElem?_of_mem hb
    by_cases hij : i = j
    · subst hij
      cases hc.symm.trans hj
      obtain ⟨hkey', hwrote'⟩ := hmoved hkey hwrote
      exact ⟨c', List.mem_of_getElem? (Parties.getElem?_set_of_some hc), hkey', hwrote'⟩
    · refine ⟨b, List.mem_of_getElem? (i := j) ?_, hkey, hwrote⟩
      show (s.calls.set i c')[j]? = some b
      rw [List.getElem?_set_ne hij]
      exact hj
  cases heff with
  | tick d => exact h
  | runOnce key lease ttl =>
    intro k row hrow
    obtain ⟨c, hc, hkey, hwrote⟩ := h k row hrow
    exact ⟨c, List.mem_append_left _ hc, hkey, hwrote⟩
  | @claim i c now hc hcstage hnow =>
    intro k row hrow
    replace hrow : S.entry (S.tryClaim s.store c.key c.lease now).1 k = some row := hrow
    rw [S.entry_tryClaim] at hrow
    split at hrow
    · next hwon =>
        cases hrow
        refine ⟨_, List.mem_of_getElem? (Parties.getElem?_set_of_some hc), ?_, ?_⟩
        · rw [RunOnce.key_onClaim, hwon.1]
        · exact Or.inl ⟨_, by rw [RunOnce.holds_onClaim, if_pos hwon.2], rfl⟩
    · exact hframe hc hrow (fun _ hwrote => absurd hwrote (RunOnce.not_wrote_of_claiming hcstage))
  | finish o hc hsame | crash hc hsame =>
    intro k row hrow
    exact hframe hc hrow (fun hkey hwrote => ⟨hsame.key.trans hkey, hsame.wrote hwrote⟩)
  | @complete i c d stored now hc hcstage hnow =>
    intro k row hrow
    replace hrow : S.entry (S.complete s.store c.key stored c.ttl now) k = some row := hrow
    rw [S.entry_complete] at hrow
    split at hrow
    · next hk =>
        cases hrow
        exact ⟨_, List.mem_of_getElem? (Parties.getElem?_set_of_some hc), hk.symm,
          Or.inr ⟨_, _, rfl, rfl⟩⟩
    · next hk => exact hframe hc hrow (fun hkey _ => absurd hkey.symm hk)
  | @release i c d hc hcstage =>
    intro k row hrow
    replace hrow : S.entry (S.release s.store c.key) k = some row := hrow
    rw [S.entry_release] at hrow
    split at hrow
    · next hk =>
        -- only a completed row survives the release, and the call had completed nothing
        obtain ⟨hrow, hres⟩ := Option.filter_eq_some_iff.1 hrow
        rw [← hk] at hrow
        refine hframe hc hrow (fun _ hwrote => ?_)
        rcases hwrote with ⟨d', -, rfl⟩ | ⟨stored, e, hstage, -⟩
        · cases hres
        · rw [hcstage] at hstage
          cases hstage
    · next hk => exact hframe hc hrow (fun hkey _ => absurd hkey.symm hk)
  | sweep now hnow =>
    intro k row hrow
    replace hrow : S.entry (S.sweep s.store now).1 k = some row := hrow
    rw [S.entry_sweep] at hrow
    exact h k row (Option.filter_eq_some_iff.1 hrow).1
  | seen key => cases hseen
  | probe now hc hcstage hnow => cases hseen
  | unprobe hc hcstage => cases hseen

theorem AtMostOnce.of_invariants (howned : Owned S s) (hremembered : Remembered S s)
    (hexplained : Explained S s) (hlease : s.InLease) : AtMostOnce S s where
  oneRunning i j c c' hc hc' hkey hrun hrun' := by
    obtain ⟨d, hd⟩ := RunOnce.holds_of_isRunning hrun
    obtain ⟨d', hd'⟩ := RunOnce.holds_of_isRunning hrun'
    refine howned.unique i j c c' hc hc' hkey ⟨d, hd, ?_⟩ ⟨d', hd', ?_⟩
    · exact hlease c (List.mem_of_getElem? hc) hrun d hd
    · exact hlease c' (List.mem_of_getElem? hc') hrun' d' hd'
  remembered c hc stored e hstage hlt lease now hnow := by
    rw [S.answer_tryClaim]
    exact hremembered.not_won hc hstage hlt hnow
  rerunnable k lease now := by
    rw [S.answer_tryClaim]
    by_cases hwon : (DedupClaim.of (S.entry s.store k) now).outcome = .won
    · exact Or.inl hwon
    · right
      rw [DedupClaim.of_won_iff] at hwon
      push Not at hwon
      obtain ⟨row, hrow, hlive⟩ := hwon
      obtain ⟨c, hc, hkey, hwrote⟩ := hexplained k row hrow
      exact ⟨c, hc, hkey, hwrote.blocks (by simpa using hlive)⟩

end DedupSystem

/-- Crash-safe at-most-once delivery: any `run_once_async` calls, crashes and sweeps, with handlers
    that end inside their leases when they do not crash. -/
def AtMostOnceDelivery {σ : Type} (S : TriggerDedupStore σ) : Prop :=
  ∀ clock as s, (∀ a ∈ as, DedupAction.isSeen a = false) →
    (dedupSystem S).AlongRun (DedupSystem.EndsInLease S) (.init S clock) as →
    (dedupSystem S).exec (.init S clock) as = some s → s.AtMostOnce S

/-- In every run whose closing store calls find their own claims, delivery is at most once. -/
theorem atMostOnceDelivery_of_closesOwn {σ : Type} (S : TriggerDedupStore σ) (clock : Instant)
    (as : List DedupAction) {s : DedupSystem σ} (hseen : ∀ a ∈ as, a.isSeen = false)
    (hlease : (dedupSystem S).AlongRun (DedupSystem.EndsInLease S) (.init S clock) as)
    (hown : (dedupSystem S).AlongRun (DedupSystem.ClosesOwnClaim S) (.init S clock) as)
    (hrun : (dedupSystem S).exec (.init S clock) as = some s) : s.AtMostOnce S := by
  have hinv : s.Owned S ∧ s.Remembered S ∧ s.Explained S ∧ s.InLease := by
    refine (dedupSystem S).exec_invariant
      (I := fun s => s.Owned S ∧ s.Remembered S ∧ s.Explained S ∧ s.InLease) ?_ ?_
      (((LTS.AlongRun.of_forall _ _ hseen).and hown).and hlease) hrun
    · rintro s a s' ⟨howned, hremembered, hexplained, -⟩ ⟨⟨hseen, hown⟩, hlease⟩ hstep
      have heff := DedupSystem.effect_of_step hstep
      exact ⟨howned.step hseen hown heff, hremembered.step hseen hown heff,
        hexplained.step hseen heff, hlease s' hstep⟩
    · refine ⟨.init S clock, ?_, ?_, ?_⟩
      · intro c hc
        exact absurd hc List.not_mem_nil
      · intro k row hrow
        rw [show S.entry (DedupSystem.init S clock).store k = none from S.entry_empty k] at hrow
        cases hrow
      · intro c hc
        exact absurd hc List.not_mem_nil
  exact .of_invariants hinv.1 hinv.2.1 hinv.2.2.1 hinv.2.2.2

/-- The first delivery's handler raises and is released inside its lease, the second delivery's
    process dies, the third delivery runs the handler and completes, and the fourth is a duplicate. -/
private def retriedDelivery : List DedupAction :=
  let begin : DedupAction := .runOnce ("webhook", "d1") (seconds 10) (seconds 60)
  [begin, .claim 0 0, .finish 0 .raised, .release 0, begin, .claim 1 0, .crash 1, .tick 10000000,
    .sweep (seconds 10), begin, .claim 2 (seconds 10), .finish 2 (.returned (some "ok")),
    .complete 2 (seconds 10), begin, .claim 3 (seconds 10)]

theorem atMostOnceDelivery_of_closesOwn_retried :
    ∃ s, (dedupSystem sqliteTriggerDedupStore).exec (.init sqliteTriggerDedupStore 0)
        retriedDelivery = some s ∧ s.AtMostOnce sqliteTriggerDedupStore :=
  ⟨_, rfl, atMostOnceDelivery_of_closesOwn sqliteTriggerDedupStore 0 retriedDelivery (by decide)
    (by decide) (by decide) rfl⟩

/-- The first handler raises inside its lease, but its `dedup_release` reaches the store when the
    lease is over and a second delivery runs the handler: a third delivery runs it beside. -/
private def overtakenRelease : List DedupAction :=
  let begin : DedupAction := .runOnce ("webhook", "d1") (seconds 10) (seconds 60)
  [begin, .claim 0 0, .finish 0 .raised, .tick 10000000, begin, .claim 1 (seconds 10), .release 0,
    begin, .claim 2 (seconds 10)]

theorem not_atMostOnceDelivery :
    ¬ AtMostOnceDelivery sqliteTriggerDedupStore ∧ ¬ AtMostOnceDelivery inMemoryTriggerDedupStore := by
  constructor
  · intro h
    have honce := h 0 overtakenRelease _ (by decide) (by decide) rfl
    exact absurd (honce.oneRunning 1 2 _ _ rfl rfl rfl rfl rfl) (by decide)
  · intro h
    have honce := h 0 overtakenRelease _ (by decide) (by decide) rfl
    exact absurd (honce.oneRunning 1 2 _ _ rfl rfl rfl rfl rfl) (by decide)

end Himmy
