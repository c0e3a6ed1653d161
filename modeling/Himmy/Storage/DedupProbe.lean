import Himmy.Storage.RunOnce

/-! # The dedup pre-check

`seen_async` asks the ledger by a claim with a zero-second lease and, when it wins that claim, drops
it by `dedup_release`. Between its two store calls another call can win the expired row, and the
release then deletes that call's in-flight row.

When the release finds no in-flight row but the probe's own, and no claim works with a clock reading
older than a probe of its key that ran before it (`ProbesUnnoticed`), the ledger with the pre-checks
and the ledger without them answer every claim of a `run_once_async` call alike (`SameForCalls`). -/

namespace Himmy

namespace DedupSystem

variable {σ : Type} {S : TriggerDedupStore σ} {s s₀ s' : DedupSystem σ} {a : DedupAction}

/-- The release of a pre-check finds no in-flight row but its own probe, and a claim reads the clock
    no earlier than a probe of its key that ran before it. -/
def ProbesUnnoticed (S : TriggerDedupStore σ) (s : DedupSystem σ) (a : DedupAction) : Prop :=
  match a with
  | .unprobe j => ∀ p ∈ s.seens[j]?, ∀ row ∈ S.entry s.store p.key, row.result = none →
      p.probe.isSome = true ∧ row.expiresAt = p.probe
  | .claim i now => ∀ c ∈ s.calls[i]?, ∀ p ∈ s.seens, p.key = c.key → ∀ t ∈ p.probe, t ≤ now
  | _ => True

instance (S : TriggerDedupStore σ) (s : DedupSystem σ) :
    ∀ a : DedupAction, Decidable (ProbesUnnoticed S s a)
  | .unprobe _ | .claim .. => by unfold ProbesUnnoticed; infer_instance
  | .tick _ | .runOnce .. | .finish .. | .complete .. | .release _ | .crash _ | .sweep _ | .seen _
  | .probe .. => .isTrue trivial

/-- Nothing the ledger says of a key is live at `t`. -/
def Dead (e : Option DedupEntry) (t : Instant) : Prop := ∀ row, e = some row → row.live t = false

theorem Dead.mono {e : Option DedupEntry} {t t' : Instant} (h : Dead e t) (hle : t ≤ t') :
    Dead e t' := by
  intro row hrow
  have hdead := h row hrow
  unfold DedupEntry.live at hdead ⊢
  cases hexp : row.expiresAt with
  | none => simp [hexp] at hdead
  | some x =>
    simp only [hexp, Option.all_some, decide_eq_false_iff_not] at hdead ⊢
    exact fun hlt => hdead (Int.lt_of_le_of_lt hle hlt)

theorem Dead.filter {e : Option DedupEntry} {t : Instant} (h : Dead e t) (p : DedupEntry → Bool) :
    Dead (e.filter p) t :=
  fun row hrow => h row (Option.filter_eq_some_iff.1 hrow).1

/-- What a system with pre-checks and one without them have in common for the other calls. The
    ledgers differ at a key only when neither has a row live at the reading of a probe of it. -/
structure SameForCalls (S : TriggerDedupStore σ) (s s₀ : DedupSystem σ) : Prop where
  clock : s.clock = s₀.clock
  calls : s.calls = s₀.calls
  entry : ∀ k, S.entry s.store k = S.entry s₀.store k
    ∨ ∃ p ∈ s.seens, p.key = k ∧ ∃ t, p.probe = some t ∧ Dead (S.entry s.store k) t
      ∧ Dead (S.entry s₀.store k) t
  past : ∀ p ∈ s.seens, ∀ t, p.probe = some t → t ≤ s.clock
  fresh : ∀ p ∈ s.seens, p.stage = .claiming → p.probe = none

namespace SameForCalls

theorem init (S : TriggerDedupStore σ) (clock : Instant) :
    SameForCalls S (init S clock) (init S clock) :=
  ⟨rfl, rfl, fun _ => Or.inl rfl, fun _ hp => absurd hp List.not_mem_nil,
    fun _ hp => absurd hp List.not_mem_nil⟩

theorem answer_eq (h : SameForCalls S s s₀) {k : DedupKey} {now : Instant}
    (hlate : ∀ p ∈ s.seens, p.key = k → ∀ t, p.probe = some t → t ≤ now) :
    DedupClaim.of (S.entry s.store k) now = DedupClaim.of (S.entry s₀.store k) now := by
  rcases h.entry k with heq | ⟨p, hp, hkey, t, ht, hdead, hdead₀⟩
  · rw [heq]
  · have hle := hlate p hp hkey t ht
    have hwon : ∀ e, Dead e t → DedupClaim.of e now = { outcome := .won } := by
      intro e he
      unfold DedupClaim.of
      cases e with
      | none => rfl
      | some row => simp [he.mono hle row rfl]
    rw [hwon _ hdead, hwon _ hdead₀]

theorem store_call (h : SameForCalls S s s₀) {store store₀ : σ} {calls calls₀ : List RunOnce}
    (hcalls : calls = calls₀) (hentry : ∀ k, S.entry store k = S.entry store₀ k
      ∨ ∃ f : Option DedupEntry → Option DedupEntry, (∀ e t, Dead e t → Dead (f e) t)
        ∧ S.entry store k = f (S.entry s.store k) ∧ S.entry store₀ k = f (S.entry s₀.store k)) :
    SameForCalls S { s with store := store, calls := calls }
      { s₀ with store := store₀, calls := calls₀ } := by
  refine ⟨h.clock, hcalls, ?_, h.past, h.fresh⟩
  intro k
  rcases hentry k with heq | ⟨f, hf, hs, hs₀⟩
  · exact Or.inl heq
  · show S.entry store k = S.entry store₀ k ∨ _
    rcases h.entry k with heq | ⟨p, hp, hkey, t, ht, hdead, hdead₀⟩
    · left
      rw [hs, hs₀, heq]
    · right
      refine ⟨p, hp, hkey, t, ht, ?_, ?_⟩
      · show Dead (S.entry store k) t
        rw [hs]
        exact hf _ _ hdead
      · show Dead (S.entry store₀ k) t
        rw [hs₀]
        exact hf _ _ hdead₀

theorem keeps_probes {j : Nat} {p p' : Seen} (hp : s.seens[j]? = some p)
    (hsame : ∀ t, p.probe = some t → p'.key = p.key ∧ p'.probe = some t) {k : DedupKey} {t : Instant}
    (h : ∃ q ∈ s.seens, q.key = k ∧ q.probe = some t) :
    ∃ q ∈ s.seens.set j p', q.key = k ∧ q.probe = some t := by
  obtain ⟨q, hq, hkey, ht⟩ := h
  obtain ⟨i, hi⟩ := List.getElem?_of_mem hq
  by_cases hij : j = i
  · subst hij
    cases hp.symm.trans hi
    obtain ⟨hkey', ht'⟩ := hsame t ht
    exact ⟨p', List.mem_of_getElem? (Parties.getElem?_set_of_some hp), hkey'.trans hkey, ht'⟩
  · refine ⟨q, List.mem_of_getElem? (i := i) ?_, hkey, ht⟩
    rw [List.getElem?_set_ne hij]
    exact hi

section

variable (h : SameForCalls S s s₀)

include h

theorem step_call (hcond : ProbesUnnoticed S s a)
    (hseen : a.isSeen = false) (hstep : s.step S a = some s') :
    ∃ s₀', s₀.step S a = some s₀' ∧ SameForCalls S s' s₀' := by
  cases a with
  | tick d =>
    cases hstep
    refine ⟨_, rfl, ?_, h.calls, h.entry, ?_, h.fresh⟩
    · show s.clock + d = s₀.clock + d
      rw [h.clock]
    · intro p hp t ht
      exact Int.le_trans (h.past p hp t ht) (Int.le_add_of_nonneg_right (Int.natCast_nonneg d))
  | runOnce key lease ttl =>
    cases hstep
    refine ⟨_, rfl, h.clock, ?_, h.entry, h.past, h.fresh⟩
    show s.calls ++ _ = s₀.calls ++ _
    rw [h.calls]
  | claim i now =>
    obtain ⟨c, hc, hstep⟩ := Option.bind_eq_some_iff.1 hstep
    split at hstep
    · next hok =>
        cases hstep
        have hanswer := h.answer_eq (fun p hp hkey t ht => hcond c hc p hp hkey t ht)
        refine ⟨s₀.setCall i (S.tryClaim s₀.store c.key c.lease now).1
          (c.onClaim (S.tryClaim s₀.store c.key c.lease now).2 now), ?_, ?_⟩
        · show s₀.calls[i]?.bind _ = _
          rw [← h.calls, hc]
          simp [← h.clock, hok]
        · unfold setCall
          rw [S.answer_tryClaim, S.answer_tryClaim, ← hanswer, ← h.calls]
          refine h.store_call rfl (fun k => ?_)
          rw [S.entry_tryClaim, S.entry_tryClaim, ← hanswer]
          by_cases hwon : k = c.key ∧ (DedupClaim.of (S.entry s.store c.key) now).outcome = .won
          · left
            rw [if_pos hwon, if_pos hwon]
          · right
            rw [if_neg hwon, if_neg hwon]
            exact ⟨id, fun _ _ hdead => hdead, rfl, rfl⟩
    · cases hstep
  | finish i o =>
    obtain ⟨c, hc, hstep⟩ := Option.bind_eq_some_iff.1 hstep
    obtain ⟨c', hfinish, rfl⟩ := Option.map_eq_some_iff.1 hstep
    refine ⟨s₀.setCall i s₀.store c', ?_, h.clock, ?_, h.entry, h.past, h.fresh⟩
    · show s₀.calls[i]?.bind _ = _
      rw [← h.calls, hc]
      simp [hfinish]
    · show s.calls.set i c' = s₀.calls.set i c'
      rw [h.calls]
  | complete i now =>
    obtain ⟨c, hc, hstep⟩ := Option.bind_eq_some_iff.1 hstep
    split at hstep
    · next d stored hstage =>
        split at hstep
        · next hnow =>
            cases hstep
            refine ⟨s₀.setCall i (S.complete s₀.store c.key stored c.ttl now)
              { c with stage := .completed stored (isoPlusSeconds now c.ttl) }, ?_, ?_⟩
            · show s₀.calls[i]?.bind _ = _
              rw [← h.calls, hc]
              simp [hstage, ← h.clock, hnow]
            · unfold setCall
              rw [← h.calls]
              refine h.store_call rfl (fun k => ?_)
              rw [S.entry_complete, S.entry_complete]
              by_cases hk : k = c.key
              · left
                rw [if_pos hk, if_pos hk]
              · right
                rw [if_neg hk, if_neg hk]
                exact ⟨id, fun _ _ hdead => hdead, rfl, rfl⟩
        · cases hstep
    · cases hstep
  | release i =>
    obtain ⟨c, hc, hstep⟩ := Option.bind_eq_some_iff.1 hstep
    split at hstep
    · next d hstage =>
        cases hstep
        refine ⟨s₀.setCall i (S.release s₀.store c.key) { c with stage := .released }, ?_, ?_⟩
        · show s₀.calls[i]?.bind _ = _
          rw [← h.calls, hc]
          simp [hstage]
        · unfold setCall
          rw [← h.calls]
          refine h.store_call rfl (fun k => Or.inr ?_)
          rw [S.entry_release, S.entry_release]
          by_cases hk : k = c.key
          · subst hk
            rw [if_pos rfl, if_pos rfl]
            exact ⟨_, fun _ _ hdead => hdead.filter _, rfl, rfl⟩
          · rw [if_neg hk, if_neg hk]
            exact ⟨id, fun _ _ hdead => hdead, rfl, rfl⟩
    · cases hstep
  | crash i =>
    obtain ⟨c, hc, hstep⟩ := Option.bind_eq_some_iff.1 hstep
    obtain ⟨c', hcrash, rfl⟩ := Option.map_eq_some_iff.1 hstep
    refine ⟨s₀.setCall i s₀.store c', ?_, h.clock, ?_, h.entry, h.past, h.fresh⟩
    · show s₀.calls[i]?.bind _ = _
      rw [← h.calls, hc]
      simp [hcrash]
    · show s.calls.set i c' = s₀.calls.set i c'
      rw [h.calls]
  | sweep now =>
    simp only [step] at hstep
    split at hstep
    · next hnow =>
        cases hstep
        refine ⟨{ s₀ with store := (S.sweep s₀.store now).1 }, ?_, ?_⟩
        · simp [step, ← h.clock, hnow]
        · refine h.store_call h.calls (fun k => Or.inr ?_)
          rw [S.entry_sweep, S.entry_sweep]
          exact ⟨_, fun _ _ hdead => hdead.filter _, rfl, rfl⟩
    · cases hstep
  | seen key => cases hseen
  | probe j now => cases hseen
  | unprobe j => cases hseen

theorem seen_moves {j : Nat} {p p' : Seen} {store : σ}
    (hp : s.seens[j]? = some p) (hkey : p'.key = p.key) (hstage : p'.stage ≠ .claiming)
    (hkept : ∀ t, p.probe = some t → p'.probe = some t)
    (hpast : ∀ t, p'.probe = some t → t ≤ s.clock)
    (hother : ∀ k, k ≠ p.key → S.entry store k = S.entry s.store k)
    (hown : S.entry store p.key = S.entry s.store p.key
      ∨ ∃ t, p'.probe = some t ∧ Dead (S.entry s.store p.key) t
        ∧ ∀ t', t ≤ t' → Dead (S.entry store p.key) t') :
    SameForCalls S (s.setSeen j store p') s₀ := by
  have hmoved : p' ∈ s.seens.set j p' := List.mem_of_getElem? (Parties.getElem?_set_of_some hp)
  -- a key on which the ledgers differed keeps the probe that was its reason
  have hkeep : ∀ {k : DedupKey} {q : Seen} {t : Instant}, q ∈ s.seens → q.key = k →
      q.probe = some t → ∃ q ∈ s.seens.set j p', q.key = k ∧ q.probe = some t := by
    intro k q t hq hqkey hqt
    exact keeps_probes hp (fun t ht => ⟨hkey, hkept t ht⟩) ⟨q, hq, hqkey, hqt⟩
  have hsame : ∀ k, S.entry store k = S.entry s.store k → S.entry store k = S.entry s₀.store k
      ∨ ∃ q ∈ s.seens.set j p', q.key = k ∧ ∃ t, q.probe = some t ∧ Dead (S.entry store k) t
        ∧ Dead (S.entry s₀.store k) t := by
    intro k heq
    rw [heq]
    rcases h.entry k with hentry | ⟨q, hq, hqkey, t, hqt, hdead⟩
    · exact Or.inl hentry
    · obtain ⟨q', hq', hq'key, hq't⟩ := hkeep hq hqkey hqt
      exact Or.inr ⟨q', hq', hq'key, t, hq't, hdead⟩
  refine ⟨h.clock, h.calls, ?_, ?_, ?_⟩
  · intro k
    by_cases hk : k = p.key
    · subst hk
      rcases hown with heq | ⟨t, ht, hdead, hnew⟩
      · exact hsame p.key heq
      · right
        rcases h.entry p.key with hentry | ⟨q, hq, hqkey, u, hqu, -, hdead₀⟩
        · exact ⟨p', hmoved, hkey, t, ht, hnew t (Int.le_refl t), hentry ▸ hdead⟩
        · -- the later of the two probes sees neither row live
          rcases Int.le_total u t with hut | htu
          · exact ⟨p', hmoved, hkey, t, ht, hnew t (Int.le_refl t), hdead₀.mono hut⟩
          · obtain ⟨q', hq', hq'key, hq'u⟩ := hkeep hq hqkey hqu
            exact ⟨q', hq', hq'key, u, hq'u, hnew u htu, hdead₀⟩
    · exact hsame k (hother k hk)
  · intro q hq t ht
    rcases List.mem_or_eq_of_mem_set hq with hq | rfl
    · exact h.past q hq t ht
    · exact hpast t ht
  · intro q hq hqstage
    rcases List.mem_or_eq_of_mem_set hq with hq | rfl
    · exact h.fresh q hq hqstage
    · exact absurd hqstage hstage

theorem probe {j : Nat} {p : Seen} {now : Instant}
    (hp : s.seens[j]? = some p) (hstage : p.stage = .claiming) (hnow : now ≤ s.clock) :
    SameForCalls S (s.setSeen j (S.tryClaim s.store p.key 0 now).1
      (p.onClaim (DedupClaim.of (S.entry s.store p.key) now) now)) s₀ := by
  have hfresh : p.probe = none := h.fresh p (List.mem_of_getElem? hp) hstage
  have hother : ∀ k, k ≠ p.key →
      S.entry (S.tryClaim s.store p.key 0 now).1 k = S.entry s.store k := by
    intro k hk
    rw [S.entry_tryClaim, if_neg (fun hwon => hk hwon.1)]
  have hentry := S.entry_tryClaim s.store p.key 0 now p.key
  unfold Seen.onClaim
  cases hanswer : (DedupClaim.of (S.entry s.store p.key) now).outcome with
  | won =>
    refine h.seen_moves hp rfl (by simp) (by simp [hfresh]) ?_ hother (Or.inr ⟨now, rfl, ?_, ?_⟩)
    · intro t ht
      cases ht
      exact hnow
    · exact DedupClaim.of_won_iff.1 hanswer
    · intro t hle
      rw [hentry, if_pos ⟨rfl, hanswer⟩]
      refine Dead.mono (t := now) ?_ hle
      intro row hrow
      cases hrow
      simp [isoPlusSeconds]
  | done | inFlight =>
    refine h.seen_moves hp rfl (by simp) (by simp [hfresh]) (by simp [hfresh]) hother (Or.inl ?_)
    rw [hentry, if_neg (fun hwon => by simp [hanswer] at hwon)]

theorem unprobe {j : Nat} {p : Seen} (hp : s.seens[j]? = some p)
    (hcond : ∀ row ∈ S.entry s.store p.key, row.result = none →
      p.probe.isSome = true ∧ row.expiresAt = p.probe) :
    SameForCalls S (s.setSeen j (S.release s.store p.key) { p with stage := .answered false })
      s₀ := by
  have hentry := S.entry_release s.store p.key p.key
  rw [if_pos rfl] at hentry
  refine h.seen_moves hp rfl (by simp) (fun t ht => ht)
    (h.past p (List.mem_of_getElem? hp)) ?_ ?_
  · intro k hk
    rw [S.entry_release, if_neg hk]
  · rw [hentry]
    cases hrow : S.entry s.store p.key with
    | none => exact Or.inl rfl
    | some row =>
      cases hres : row.result with
      | some result => exact Or.inl (by simp [Option.filter, hres])
      | none =>
        obtain ⟨hprobe, hexp⟩ := hcond row hrow hres
        obtain ⟨t, ht⟩ := Option.isSome_iff_exists.1 hprobe
        right
        refine ⟨t, ht, ?_, ?_⟩
        · intro row' hrow'
          cases hrow'
          simp [DedupEntry.live, hexp, ht]
        · intro t' _ row' hrow'
          simp [Option.filter, hres] at hrow'

theorem step_seen (hcond : ProbesUnnoticed S s a)
    (hseen : a.isSeen = true) (hstep : s.step S a = some s') : SameForCalls S s' s₀ := by
  cases effect_of_step hstep with
  | seen key =>
    refine ⟨h.clock, h.calls, ?_, ?_, ?_⟩
    · intro k
      rcases h.entry k with heq | ⟨p, hp, hrest⟩
      · exact Or.inl heq
      · exact Or.inr ⟨p, List.mem_append_left _ hp, hrest⟩
    · intro p hp t ht
      rcases List.mem_append.1 hp with hp | hp
      · exact h.past p hp t ht
      · rw [List.mem_singleton.1 hp] at ht
        cases ht
    · intro p hp hstage
      rcases List.mem_append.1 hp with hp | hp
      · exact h.fresh p hp hstage
      · rw [List.mem_singleton.1 hp]
  | @probe j p now hp hstage hnow => exact h.probe hp hstage hnow
  | @unprobe j p hp hstage => exact h.unprobe hp (hcond p hp)
  | _ => cases hseen

theorem keeps_row (hcond : ProbesUnnoticed S s a)
    (hseen : a.isSeen = true) (hstep : s.step S a = some s') {k : DedupKey} {d : Instant}
    (hlive : s.clock < d) (hrow : S.entry s.store k = some (.inFlight d)) :
    S.entry s'.store k = some (.inFlight d) := by
  cases effect_of_step hstep with
  | seen key => exact hrow
  | @probe j p now hp hstage hnow =>
    show S.entry (S.tryClaim s.store p.key 0 now).1 k = _
    rw [S.entry_tryClaim, if_neg]
    · exact hrow
    · rintro ⟨rfl, hwon⟩
      have hdead := DedupClaim.of_won_iff.1 hwon _ hrow
      rw [DedupEntry.live_inFlight, decide_eq_false_iff_not] at hdead
      exact hdead (Int.lt_of_le_of_lt hnow hlive)
  | @unprobe j p hp hstage =>
    show S.entry (S.release s.store p.key) k = _
    rw [S.entry_release]
    split
    · next hk =>
        -- the row would be the probe's own, which was over when it was written
        rw [hk] at hrow
        obtain ⟨-, hexp⟩ := hcond p hp _ hrow rfl
        have hpast := h.past p (List.mem_of_getElem? hp) d hexp.symm
        exact absurd (Int.lt_of_le_of_lt hpast hlive) (Int.lt_irrefl d)
    · exact hrow
  | _ => cases hseen

end

end SameForCalls

/-- What a run looks like to the `run_once_async` calls: without the pre-checks it ends with the
    same calls, and no pre-check takes the row of a handler running under a live lease. -/
structure SeenUnobserved (S : TriggerDedupStore σ) (clock : Instant) (as : List DedupAction) :
    Prop where
  calls : ∀ s, (dedupSystem S).exec (init S clock) as = some s →
    ∃ s₀, (dedupSystem S).exec (init S clock) (as.filter (fun a => !a.isSeen)) = some s₀
      ∧ s₀.calls = s.calls
  rows : ∀ (pre post : List DedupAction) (a : DedupAction) (s s' : DedupSystem σ),
    as = pre ++ a :: post → a.isSeen = true →
    (dedupSystem S).exec (init S clock) pre = some s → s.step S a = some s' →
    ∀ c ∈ s.calls, c.isRunning = true → ∀ d ∈ c.holds, s.clock < d →
      S.entry s.store c.key = some (.inFlight d) → S.entry s'.store c.key = some (.inFlight d)

end DedupSystem

/-- The dedup pre-check is an observation: `seen_async` calls change nothing for the
    `run_once_async` calls they are interleaved with. -/
def SeenIsObservation {σ : Type} (S : TriggerDedupStore σ) : Prop :=
  ∀ clock as, DedupSystem.SeenUnobserved S clock as

/-- In every run whose pre-checks pass unnoticed, they are observations. -/
theorem seenUnobserved_of_unnoticed {σ : Type} (S : TriggerDedupStore σ) (clock : Instant)
    (as : List DedupAction)
    (hcond : (dedupSystem S).AlongRun (DedupSystem.ProbesUnnoticed S) (.init S clock) as) :
    DedupSystem.SeenUnobserved S clock as := by
  have hkeep : ∀ s s₀ a s', DedupSystem.SameForCalls S s s₀ → DedupSystem.ProbesUnnoticed S s a →
      (!a.isSeen) = true → (dedupSystem S).step s a = some s' →
      ∃ s₀', (dedupSystem S).step s₀ a = some s₀' ∧ DedupSystem.SameForCalls S s' s₀' := by
    intro s s₀ a s' hsame hunnoticed hcall hstep
    exact hsame.step_call hunnoticed (by simpa using hcall) hstep
  have hdrop : ∀ s s₀ a s', DedupSystem.SameForCalls S s s₀ → DedupSystem.ProbesUnnoticed S s a →
      (!a.isSeen) = false → (dedupSystem S).step s a = some s' →
      DedupSystem.SameForCalls S s' s₀ := by
    intro s s₀ a s' hsame hunnoticed hseen hstep
    exact hsame.step_seen hunnoticed (by simpa using hseen) hstep
  constructor
  · intro s hrun
    obtain ⟨s₀, hrun₀, hsame⟩ :=
      (dedupSystem S).exec_filter hkeep hdrop (DedupSystem.SameForCalls.init S clock) hcond hrun
    exact ⟨s₀, hrun₀, hsame.calls.symm⟩
  · rintro pre post a s s' rfl hseen hrun hstep c hc hrunning d hd hlive hrow
    obtain ⟨s₀, -, hsame⟩ := (dedupSystem S).exec_filter hkeep hdrop
      (DedupSystem.SameForCalls.init S clock) hcond.prefix hrun
    exact hsame.keeps_row (hcond.of_append hrun).1 hseen hstep hlive hrow

/-- A pre-check finds a delivery in flight, another probes the key after the lease and drops its
    own probe, and the next delivery reclaims the key. -/
private def checkedDelivery : List DedupAction :=
  let begin : DedupAction := .runOnce ("webhook", "d1") (seconds 10) (seconds 60)
  let check : DedupAction := .seen ("webhook", "d1")
  [begin, .claim 0 0, check, .probe 0 0, .tick 10000000, check, .probe 1 (seconds 10), .unprobe 1,
    begin, .claim 1 (seconds 10)]

theorem seenUnobserved_of_unnoticed_checked :
    DedupSystem.SeenUnobserved sqliteTriggerDedupStore 0 checkedDelivery :=
  seenUnobserved_of_unnoticed sqliteTriggerDedupStore 0 checkedDelivery (by decide)

/-- A delivery is claimed between the two store calls of a pre-check, whose release then deletes the
    in-flight row: a second delivery of the key is claimed beside the first. -/
private def probedDelivery : List DedupAction :=
  let begin : DedupAction := .runOnce ("webhook", "d1") (seconds 10) (seconds 60)
  [begin, .seen ("webhook", "d1"), .probe 0 0, .claim 0 0, .unprobe 0, begin, .claim 1 0]

theorem not_seenIsObservation :
    ¬ SeenIsObservation sqliteTriggerDedupStore ∧ ¬ SeenIsObservation inMemoryTriggerDedupStore := by
  constructor
  · intro h
    obtain ⟨s₀, hrun₀, hcalls⟩ := (h 0 probedDelivery).calls _ rfl
    cases hrun₀
    exact absurd hcalls (by decide)
  · intro h
    obtain ⟨s₀, hrun₀, hcalls⟩ := (h 0 probedDelivery).calls _ rfl
    cases hrun₀
    exact absurd hcalls (by decide)

end Himmy
