import Himmy.Runtime.Resume

/-! # Exactly-once execution of approved tools

The claim is re-entrant on `resolving`, so it does not keep a second resume away from a first one
that is still in flight, and the ledger is written after the tool has run.
`exactlyOnce_of_soleClaims` shows what the two leave: in every run in which each won claim finds no
other resume of the checkpoint in flight, and no resume stops between an execution and its record,
each pending call is executed at most once and a resolved checkpoint keeps its status. -/

namespace Himmy

/-! ## A resume and its row -/

/-- The pending call `n` is not executed by a resume that starts now: the checkpoint is resolved, or
    the ledger has the call. -/
def AgentCheckpoint.settles (c : AgentCheckpoint) (n : Nat) : Bool :=
  c.status.terminal || (c.pendingToolCalls[n]?).any (fun call =>
    call.toolCallId ≠ "" && (c.executedToolResults.find? call.toolCallId).isSome)

/-- The working copy of a resume in flight: the row, and perhaps more in the ledger. -/
structure AgentCheckpoint.CopyOf (copy c : AgentCheckpoint) : Prop where
  sameId : copy.checkpointId = c.checkpointId
  status : copy.status = c.status
  resolving : c.status = .resolving
  pending : copy.pendingToolCalls = c.pendingToolCalls
  ledger : ∀ key, (c.executedToolResults.find? key).isSome = true →
    (copy.executedToolResults.find? key).isSome = true

def CallStage.Agrees (c : AgentCheckpoint) : CallStage → Prop
  | .waiting => True
  | .done => True
  | .claimed => c.status = .resolving
  | .applying copy _ => copy.CopyOf c
  | .missed copy n => copy.CopyOf c ∧ ∃ call, copy.pendingToolCalls[n]? = some call
    ∧ call.toolCallId ≠ "" ∧ c.executedToolResults.find? call.toolCallId = none
  | .executed copy n _ => copy.CopyOf c ∧ ∃ call, copy.pendingToolCalls[n]? = some call
    ∧ call.toolCallId ≠ ""
  | .merged copy n => copy.CopyOf c ∧ ∃ call, copy.pendingToolCalls[n]? = some call
    ∧ call.toolCallId ≠ "" ∧ (copy.executedToolResults.find? call.toolCallId).isSome = true
  | .resolved => c.status.terminal = true
  | .finalizing latest => c.status.terminal = true ∧ latest.status = c.status
    ∧ latest.checkpointId = c.checkpointId

namespace CallStage

variable {c c' : AgentCheckpoint} {stage : CallStage}

theorem Agrees.resolving (h : stage.Agrees c) (hopen : stage.isOpen = true) :
    c.status = .resolving := by
  cases stage with
  | claimed => exact h
  | applying copy n => exact h.resolving
  | missed copy n | executed copy n result | merged copy n => exact h.1.resolving
  | waiting | resolved | finalizing latest | done => cases hopen

theorem Agrees.of_terminal (h : stage.Agrees c) (hterminal : c.status.terminal = true)
    (hstatus : c'.status = c.status) (hid : c'.checkpointId = c.checkpointId) :
    stage.Agrees c' := by
  have hopen : ¬ stage.isOpen = true := fun hopen => by
    rw [h.resolving hopen] at hterminal; cases hterminal
  cases stage with
  | waiting | done => trivial
  | resolved => exact (congrArg _ hstatus).trans hterminal
  | finalizing latest =>
    exact ⟨(congrArg _ hstatus).trans hterminal, h.2.1.trans hstatus.symm, h.2.2.trans hid.symm⟩
  | claimed | applying copy n | missed copy n | executed copy n result | merged copy n =>
    exact absurd rfl hopen

theorem Agrees.of_resolving (h : stage.Agrees c) (hresolving : c.status = .resolving)
    (hopen : stage.isOpen = false) : stage.Agrees c' := by
  cases stage with
  | waiting | done => trivial
  | resolved => rw [Agrees, hresolving] at h; cases h
  | finalizing latest => rw [Agrees, hresolving] at h; cases h.1
  | claimed | applying copy n | missed copy n | executed copy n result | merged copy n => cases hopen

end CallStage

/-- What a step of a resume does to the row of its checkpoint, and what it executes. -/
structure AgentResume.Advances (ρ : AgentResume) (l : AgentResumeStep) (c c' : AgentCheckpoint)
    (p : Advance) : Prop where
  agrees : p.stage.Agrees c'
  sameId : c'.checkpointId = c.checkpointId
  changes : c' = c ∨ ρ.stage.isOpen = true ∨ c.status.terminal = true
  status : c.status.terminal = true → c'.status = c.status
  stays_open : p.stage.isOpen = true → ρ.stage.isOpen = true
  executes : ∀ n, p.executes = some n → ρ.stage.isOpen = true ∧ c.settles n = false
    ∧ ρ.stage.covers n = false ∧ p.stage.covers n = true
  covers : ∀ n, ρ.stage.covers n = true → (l = .stop) ∨ p.stage.covers n = true
    ∨ c'.settles n = true
  settles : ∀ n, c.settles n = true → c'.settles n = true

/-! ## The working copy -/

namespace AgentCheckpoint.CopyOf

variable {copy c : AgentCheckpoint}

theorem refl (hresolving : c.status = .resolving) : c.CopyOf c :=
  ⟨rfl, rfl, hresolving, rfl, fun _ h => h⟩

theorem remember (h : copy.CopyOf c) (key : String) (raw : ToolExecutionResult) :
    (copy.remember key raw).CopyOf c := by
  refine ⟨h.sameId, h.status, h.resolving, h.pending, fun k hk => ?_⟩
  simp only [AgentCheckpoint.remember, Dict.find?_setDefault]
  split
  · rfl
  · exact h.ledger k hk

theorem recorded (h : copy.CopyOf c) (key : String) (result : ToolExecutionResult) :
    (copy.recorded (some c) key result).CopyOf c := by
  refine ⟨h.sameId, h.status, h.resolving, h.pending, fun k hk => ?_⟩
  simp only [AgentCheckpoint.recorded, Dict.find?_set]
  split
  · rfl
  · rw [Dict.isSome_find?_setDefaults, hk, Bool.or_true]

theorem settles (h : copy.CopyOf c) {n : Nat} (hn : c.settles n = true) : copy.settles n = true := by
  unfold AgentCheckpoint.settles at hn ⊢
  rw [h.status, h.pending]
  rw [Bool.or_eq_true] at hn ⊢
  refine hn.imp id (fun hcall => ?_)
  obtain ⟨call, hget, hcall⟩ := Option.any_eq_true _ _ |>.1 hcall
  refine (Option.any_eq_true _ _).2 ⟨call, hget, ?_⟩
  rw [Bool.and_eq_true] at hcall ⊢
  exact ⟨hcall.1, h.ledger _ hcall.2⟩

end AgentCheckpoint.CopyOf

theorem AgentCheckpoint.settles_of_terminal {c : AgentCheckpoint} (h : c.status.terminal = true)
    (n : Nat) : c.settles n = true := by
  rw [settles, h, Bool.true_or]

theorem AgentCheckpoint.not_settles {c : AgentCheckpoint} {n : Nat} {call : PendingToolCall}
    (hresolving : c.status = .resolving) (hcall : c.pendingToolCalls[n]? = some call)
    (hmissing : call.toolCallId = "" ∨ c.executedToolResults.find? call.toolCallId = none) :
    c.settles n = false := by
  rw [settles, hresolving, hcall]
  rcases hmissing with hkey | hnone
  · simp [CheckpointStatus.terminal, hkey]
  · simp [CheckpointStatus.terminal, hnone]

/-! ## The steps of a resume -/

namespace AgentResume

variable {ρ : AgentResume} {l : AgentResumeStep} {c : AgentCheckpoint} {p : Advance}

theorem Advances.quiet (hagrees : p.stage.Agrees c) (hexecutes : p.executes = none)
    (hopen : p.stage.isOpen = true → ρ.stage.isOpen = true)
    (hcovers : ∀ n, ρ.stage.covers n = true → l = .stop ∨ p.stage.covers n = true) :
    ρ.Advances l c c p :=
  ⟨hagrees, rfl, Or.inl rfl, fun _ => rfl, hopen, fun n hn => (by rw [hexecutes] at hn; cases hn),
    fun n hn => (hcovers n hn).imp id Or.inl, fun _ h => h⟩

theorem Advances.executing {n : Nat} {call : PendingToolCall} (hagrees : p.stage.Agrees c)
    (hexecutes : p.executes = some n) (hopen : ρ.stage.isOpen = true)
    (hresolving : c.status = .resolving) (hcall : c.pendingToolCalls[n]? = some call)
    (hmissing : call.toolCallId = "" ∨ c.executedToolResults.find? call.toolCallId = none)
    (hbefore : ∀ m, ρ.stage.covers m = decide (m < n))
    (hafter : ∀ m, p.stage.covers m = decide (m ≤ n)) : ρ.Advances l c c p := by
  refine ⟨hagrees, rfl, Or.inl rfl, fun _ => rfl, fun _ => hopen, fun m hm => ?_, fun m hm => ?_,
    fun _ h => h⟩
  · rw [hexecutes] at hm; cases hm
    exact ⟨hopen, AgentCheckpoint.not_settles hresolving hcall hmissing, by simp [hbefore],
      by simp [hafter]⟩
  · rw [hbefore, decide_eq_true_eq] at hm
    exact Or.inr (Or.inl (by rw [hafter, decide_eq_true_eq]; omega))

theorem advances_of_advance (hagrees : ρ.stage.Agrees c) (h : ρ.advance (some c) l = some p) :
    ρ.Advances l c (p.save.getD c) p := by
  cases l with
  | claim => cases h
  | load =>
    simp only [advance] at h
    split at h <;> cases h
    next hstage =>
    rw [hstage] at hagrees
    exact .quiet (AgentCheckpoint.CopyOf.refl hagrees) rfl (fun _ => by rw [hstage]; rfl)
      (fun n hn => by rw [hstage] at hn; cases hn)
  | reject =>
    simp only [advance] at h
    split at h <;> try (cases h)
    next copy n hstage =>
    split at h <;> cases h
    rw [hstage] at hagrees
    refine .quiet hagrees rfl (fun _ => by rw [hstage]; rfl) (fun m hm => Or.inr ?_)
    rw [hstage] at hm
    simp only [CallStage.covers, decide_eq_true_eq] at hm ⊢
    omega
  | lookup =>
    simp only [advance] at h
    split at h <;> try (cases h)
    next copy n hstage =>
    split at h <;> try (cases h)
    next call hcall =>
    split at h <;> try (cases h)
    next hkey =>
    simp only [Bool.and_eq_true, decide_eq_true_eq] at hkey
    rw [hstage] at hagrees
    have hcopy : copy.CopyOf c := hagrees
    split at h <;> cases h
    · next raw hraw =>
        refine .quiet (hcopy.remember _ _) rfl (fun _ => by rw [hstage]; rfl)
          (fun m hm => Or.inr ?_)
        rw [hstage] at hm
        simp only [CallStage.covers, decide_eq_true_eq] at hm ⊢
        omega
    · next hmissed =>
        simp only [AgentCheckpoint.ledgerGet, Option.getD_some, Option.or_eq_none_iff] at hmissed
        refine .quiet ⟨hcopy, call, hcall, hkey.2, hmissed.1⟩ rfl (fun _ => by rw [hstage]; rfl)
          (fun m hm => Or.inr ?_)
        rw [hstage] at hm
        exact hm
  | execute result =>
    simp only [advance] at h
    split at h
    · next copy n hstage =>
        rw [hstage] at hagrees
        obtain ⟨hcopy, call, hcall, hkey, hnone⟩ := hagrees
        split at h <;> cases h
        · refine .quiet hcopy rfl (fun _ => by rw [hstage]; rfl) (fun m hm => Or.inr ?_)
          rw [hstage] at hm
          simp only [CallStage.covers, decide_eq_true_eq] at hm ⊢
          omega
        · exact .executing (p := { stage := .executed copy n result, executes := some n })
            ⟨hcopy, call, hcall, hkey⟩ rfl (by rw [hstage]; rfl) hcopy.resolving
            (by rw [← hcopy.pending]; exact hcall) (Or.inr hnone)
            (fun m => by rw [hstage]; rfl) (fun m => rfl)
    · next copy n hstage =>
        rw [hstage] at hagrees
        have hcopy : copy.CopyOf c := hagrees
        split at h <;> try (cases h)
        next call hcall =>
        split at h <;> try (cases h)
        next hkey =>
        simp only [Bool.and_eq_true, decide_eq_true_eq] at hkey
        split at h <;> cases h
        · refine .quiet hcopy rfl (fun _ => by rw [hstage]; rfl) (fun m hm => Or.inr ?_)
          rw [hstage] at hm
          simp only [CallStage.covers, decide_eq_true_eq] at hm ⊢
          omega
        · exact .executing (p := { stage := .applying copy (n + 1), executes := some n })
            hcopy rfl (by rw [hstage]; rfl) hcopy.resolving
            (by rw [← hcopy.pending]; exact hcall) (Or.inl hkey.2)
            (fun m => by rw [hstage]; rfl)
            (fun m => by simp only [CallStage.covers, Nat.lt_succ_iff])
    · cases h
  | merge =>
    simp only [advance] at h
    split at h <;> try (cases h)
    next copy n result hstage =>
    obtain ⟨call, hcall, rfl⟩ := Option.map_eq_some_iff.1 h
    rw [hstage] at hagrees
    obtain ⟨hcopy, call', hcall', hkey⟩ := hagrees
    rw [hcall] at hcall'; cases hcall'
    refine .quiet ⟨hcopy.recorded _ _, call, hcall, hkey, ?_⟩ rfl (fun _ => by rw [hstage]; rfl)
      (fun m hm => Or.inr ?_)
    · simp [AgentCheckpoint.recorded]
    · rw [hstage] at hm
      exact hm
  | put =>
    simp only [advance] at h
    split at h <;> cases h
    next copy n hstage =>
    rw [hstage] at hagrees
    obtain ⟨hcopy, call, hcall, hkey, hrecorded⟩ := hagrees
    have hresolving : copy.status = .resolving := hcopy.status.trans hcopy.resolving
    refine ⟨AgentCheckpoint.CopyOf.refl hresolving, hcopy.sameId, Or.inr (Or.inl ?_),
      fun _ => hcopy.status, fun _ => by rw [hstage]; rfl, fun m hm => (by cases hm), ?_,
      fun m hm => hcopy.settles hm⟩
    · rw [hstage]; rfl
    · intro m hm
      rw [hstage] at hm
      simp only [CallStage.covers, decide_eq_true_eq] at hm
      exact Or.inr (Or.inl (by simpa [CallStage.covers] using Nat.lt_succ_of_le hm))
  | resolve =>
    simp only [advance] at h
    split at h <;> try (cases h)
    next copy n hstage =>
    split at h <;> cases h
    rw [hstage] at hagrees
    have hcopy : copy.CopyOf c := hagrees
    have hterminal : (copy.withStatus ρ.approved).status.terminal = true := by
      unfold AgentCheckpoint.withStatus
      cases ρ.approved <;> rfl
    refine ⟨hterminal, hcopy.sameId, Or.inr (Or.inl (by rw [hstage]; rfl)), fun hs => ?_,
      fun hs => (by cases hs), fun m hm => (by cases hm), fun m hm => Or.inr (Or.inr ?_),
      fun m _ => AgentCheckpoint.settles_of_terminal hterminal m⟩
    · rw [hcopy.resolving] at hs; cases hs
    · exact AgentCheckpoint.settles_of_terminal hterminal m
  | loadFinal paused =>
    simp only [advance] at h
    split at h <;> try (cases h)
    next hstage =>
    rw [hstage] at hagrees
    have hnone : ∀ m, ρ.stage.covers m = true → AgentResumeStep.loadFinal paused = .stop
        ∨ p.stage.covers m = true := fun m hm => by rw [hstage] at hm; cases hm
    split at h <;> cases h
    · exact .quiet trivial rfl (fun hs => by cases hs) hnone
    · exact .quiet ⟨hagrees, rfl, rfl⟩ rfl (fun hs => by cases hs) hnone
  | saveFinal text =>
    simp only [advance] at h
    split at h <;> cases h
    next latest hstage =>
    rw [hstage] at hagrees
    obtain ⟨hterminal, hstatus, hsame⟩ := hagrees
    have hterminal' : latest.status.terminal = true := (congrArg _ hstatus).trans hterminal
    exact ⟨trivial, hsame, Or.inr (Or.inr hterminal), fun _ => hstatus, fun hs => (by cases hs),
      fun m hm => (by cases hm), fun m hm => (by rw [hstage] at hm; cases hm),
      fun m _ => AgentCheckpoint.settles_of_terminal hterminal' m⟩
  | stop =>
    simp only [advance] at h
    split at h <;> cases h
    exact .quiet trivial rfl (fun hs => by cases hs) (fun m hm => Or.inl rfl)

end AgentResume

/-! ## What an event does -/

def CallStage.copy? : CallStage → Option AgentCheckpoint
  | .applying copy _ => some copy
  | .missed copy _ => some copy
  | .executed copy _ _ => some copy
  | .merged copy _ => some copy
  | .finalizing latest => some latest
  | _ => none

def AgentResume.Coherent (ρ : AgentResume) : Prop :=
  ∀ copy ∈ ρ.stage.copy?, copy.checkpointId = ρ.checkpointId

theorem AgentResume.Coherent.advance {ρ : AgentResume} {stored : Option AgentCheckpoint}
    {l : AgentResumeStep} {p : Advance} (hρ : ρ.Coherent)
    (hstored : ∀ c ∈ stored, c.checkpointId = ρ.checkpointId) (h : ρ.advance stored l = some p) :
    (∀ copy ∈ p.stage.copy?, copy.checkpointId = ρ.checkpointId)
      ∧ ∀ c ∈ p.save, c.checkpointId = ρ.checkpointId := by
  unfold AgentResume.Coherent at hρ
  cases l with
  | claim => cases h
  | load | loadFinal paused =>
    simp only [AgentResume.advance] at h
    repeat' split at h
    all_goals cases h
    all_goals simp_all [CallStage.copy?]
  | reject | execute result | put | resolve | saveFinal text | stop | lookup =>
    simp only [AgentResume.advance] at h
    repeat' split at h
    all_goals cases h
    all_goals simp_all [CallStage.copy?, AgentCheckpoint.remember, AgentCheckpoint.withStatus]
  | merge =>
    simp only [AgentResume.advance] at h
    split at h <;> try (cases h)
    next copy n result hstage =>
    obtain ⟨call, -, rfl⟩ := Option.map_eq_some_iff.1 h
    simp_all [CallStage.copy?, AgentCheckpoint.recorded]

/-- What an event does. -/
inductive ResumeSystem.Effect {σ : Type} (S : CheckpointStore σ) (st : ResumeSystem σ) :
    ResumeEvent → ResumeSystem σ → Prop
  | pauses {checkpointId : String} {pending : List PendingToolCall}
      (hnew : S.load st.store checkpointId = none) : Effect S st (.pause checkpointId pending)
        { st with store := S.save st.store { checkpointId, pendingToolCalls := pending } }
  | refuses {runtime : Nat} {checkpointId : String} {approved : Bool} :
      Effect S st (.call runtime checkpointId approved) st
  | calls {runtime : Nat} {checkpointId : String} {approved : Bool} {c : AgentCheckpoint}
      (hload : S.load st.store checkpointId = some c) : Effect S st (.call runtime checkpointId approved)
        { st with resumes := st.resumes ++ [{ runtime, checkpointId, approved }] }
  | claims {i : Nat} {ρ : AgentResume} (hρ : st.resumes[i]? = some ρ) (hstage : ρ.stage = .waiting) :
      Effect S st (.resume i .claim)
        { st with
          store := (S.claim st.store ρ.checkpointId).1,
          resumes := st.resumes.set i
            { ρ with stage := if (S.claim st.store ρ.checkpointId).2 then .claimed else .done } }
  | advances {i : Nat} {l : AgentResumeStep} {ρ : AgentResume} {p : Advance}
      (hρ : st.resumes[i]? = some ρ)
      (hadvance : ρ.advance (S.load st.store ρ.checkpointId) l = some p) :
      Effect S st (.resume i l) (st.advanced S i ρ p)

theorem ResumeSystem.effect_of_step {σ : Type} {S : CheckpointStore σ} {st st' : ResumeSystem σ}
    {e : ResumeEvent} (h : (resumeSystem S).step st e = some st') : st.Effect S e st' := by
  cases e with
  | pause checkpointId pending =>
    simp only [resumeSystem, ResumeSystem.step] at h
    split at h <;> cases h
    next hnew => exact .pauses (Option.not_isSome_iff_eq_none.1 hnew)
  | call runtime checkpointId approved =>
    simp only [resumeSystem, ResumeSystem.step] at h
    split at h <;> cases h
    · next hload =>
        obtain ⟨c, hc⟩ := Option.isSome_iff_exists.1 hload
        exact .calls hc
    · exact .refuses
  | resume i l =>
    by_cases hl : l = .claim
    · subst hl
      simp only [resumeSystem, ResumeSystem.step] at h
      split at h <;> try (cases h)
      next ρ hρ =>
      split at h <;> try (cases h)
      next hstage =>
      split at h <;> cases h
      exact .claims hρ hstage
    · have hadvance : st.resumes[i]?.bind (fun ρ =>
          (ρ.advance (S.load st.store ρ.checkpointId) l).map (st.advanced S i ρ)) = some st' := by
        cases l with
        | claim => exact absurd rfl hl
        | _ => exact h
      obtain ⟨ρ, hρ, hmap⟩ := Option.bind_eq_some_iff.1 hadvance
      obtain ⟨p, hp, rfl⟩ := Option.map_eq_some_iff.1 hmap
      exact .advances hρ hp

/-! ## The conditions and the property -/

section

variable {σ : Type} (S : CheckpointStore σ) (k : String)

/-- A claim of `k` that wins finds no other resume of `k` in flight. -/
def SoleClaims (st : ResumeSystem σ) (e : ResumeEvent) : Prop :=
  match e with
  | .resume i .claim => ∀ ρ ∈ st.resumes[i]?, ρ.checkpointId = k →
      (S.load st.store k).any (·.status.claimable) = true →
      ∀ τ ∈ st.resumes, τ.checkpointId = k → τ.stage.entered = false
  | _ => True

/-- A resume of `k` that stops has its executions in the ledger, or the checkpoint is resolved. -/
def StopsRecorded (st : ResumeSystem σ) (e : ResumeEvent) : Prop :=
  match e with
  | .resume i .stop => ∀ ρ ∈ st.resumes[i]?, ρ.checkpointId = k → ∀ x ∈ st.executed, x.1 = k →
      ρ.stage.covers x.2 = true → (S.load st.store k).any (·.settles x.2) = true
  | _ => True

instance (st : ResumeSystem σ) (e : ResumeEvent) : Decidable (SoleClaims S k st e) := by
  unfold SoleClaims; split <;> infer_instance

instance (st : ResumeSystem σ) (e : ResumeEvent) : Decidable (StopsRecorded S k st e) := by
  unfold StopsRecorded; split <;> infer_instance

/-- Each pending call of `k` is executed at most once, and once `k` is resolved no step changes its
    status. -/
structure ExactlyOnce (s : σ) (es : List ResumeEvent) : Prop where
  at_most_once : ∀ st, (resumeSystem S).exec { store := s } es = some st →
    ∀ n, st.executed.count (k, n) ≤ 1
  status_kept : ∀ pre e post st st' c, es = pre ++ e :: post →
    (resumeSystem S).exec { store := s } pre = some st →
    (resumeSystem S).step st e = some st' → S.load st.store k = some c →
    c.status.terminal = true → ∃ c', S.load st'.store k = some c' ∧ c'.status = c.status

/-! ## The invariant -/

/-- The resume is on `k`, past its claim and before its resolve save. -/
def AgentResume.OpenOn (ρ : AgentResume) : Prop := ρ.checkpointId = k ∧ ρ.stage.isOpen = true

/-- At most one resume of `k` is open, the row is where the resumes stand, and each executed call is
    settled or covered by the open resume. -/
structure ResumeSystem.SoleResume (st : ResumeSystem σ) : Prop where
  coherent : ∀ ρ ∈ st.resumes, ρ.Coherent
  agrees : ∀ ρ ∈ st.resumes, ρ.checkpointId = k →
    ∃ c, S.load st.store k = some c ∧ ρ.stage.Agrees c
  unique : ∀ (i j : Nat) (ρ τ : AgentResume), st.resumes[i]? = some ρ → st.resumes[j]? = some τ →
    ρ.OpenOn k → τ.OpenOn k → i = j
  once : ∀ n, st.executed.count (k, n) ≤ 1
  accounted : ∀ n, (k, n) ∈ st.executed → ∃ c, S.load st.store k = some c
    ∧ (c.settles n = true ∨ ∃ ρ ∈ st.resumes, ρ.checkpointId = k ∧ ρ.stage.covers n = true)

end

variable {stage : CallStage}

theorem CallStage.isOpen_of_covers {n : Nat} (h : stage.covers n = true) : stage.isOpen = true := by
  cases stage with
  | applying copy m | missed copy m | executed copy m result | merged copy m => rfl
  | waiting | claimed | resolved | finalizing latest | done => cases h

theorem CallStage.entered_of_isOpen (h : stage.isOpen = true) : stage.entered = true := by
  cases stage with
  | claimed | applying copy m | missed copy m | executed copy m result | merged copy m => rfl
  | waiting | resolved | finalizing latest | done => cases h

theorem CallStage.agrees_of_not_entered (h : stage.entered = false)
    (c : AgentCheckpoint) : stage.Agrees c := by
  cases stage with
  | waiting | done => trivial
  | claimed | applying copy m | missed copy m | executed copy m result | merged copy m | resolved
  | finalizing latest => cases h

theorem CallStage.not_open_of_not_entered (h : stage.entered = false) :
    ¬ stage.isOpen = true := fun hopen => by
  rw [entered_of_isOpen hopen] at h; cases h

namespace ResumeSystem.SoleResume

variable {σ : Type} {S : CheckpointStore σ} {k : String} {st st' : ResumeSystem σ}

theorem of_elsewhere (h : st.SoleResume S k) (hcoherent : ∀ ρ ∈ st'.resumes, ρ.Coherent)
    (hload : S.load st'.store k = S.load st.store k)
    (hexecuted : ∀ n, st'.executed.count (k, n) = st.executed.count (k, n))
    (hback : ∀ (j : Nat) (τ : AgentResume), st'.resumes[j]? = some τ → τ.checkpointId = k →
      st.resumes[j]? = some τ ∨ (τ.stage.entered = false ∧ ∃ c, S.load st.store k = some c))
    (hforth : ∀ ρ ∈ st.resumes, ρ.OpenOn k → ρ ∈ st'.resumes) : st'.SoleResume S k := by
  refine ⟨hcoherent, fun τ hτ hid => ?_, fun i j ρ τ hρ hτ hopenρ hopenτ => ?_, fun n => ?_,
    fun n hn => ?_⟩
  · obtain ⟨j, hj⟩ := List.getElem?_of_mem hτ
    rw [hload]
    rcases hback j τ hj hid with hold | ⟨hidle, c, hc⟩
    · exact h.agrees τ (List.mem_of_getElem? hold) hid
    · exact ⟨c, hc, CallStage.agrees_of_not_entered hidle c⟩
  · have hold : ∀ (m : Nat) (μ : AgentResume), st'.resumes[m]? = some μ → μ.OpenOn k →
        st.resumes[m]? = some μ := fun m μ hμ hopen =>
      (hback m μ hμ hopen.1).resolve_right
        (fun hidle => CallStage.not_open_of_not_entered hidle.1 hopen.2)
    exact h.unique i j ρ τ (hold i ρ hρ hopenρ) (hold j τ hτ hopenτ) hopenρ hopenτ
  · rw [hexecuted]; exact h.once n
  · rw [← List.count_pos_iff, hexecuted, List.count_pos_iff] at hn
    obtain ⟨c, hc, hn⟩ := h.accounted n hn
    rw [hload]
    refine ⟨c, hc, hn.imp id ?_⟩
    rintro ⟨ρ, hρ, hid, hcovers⟩
    exact ⟨ρ, hforth ρ hρ ⟨hid, CallStage.isOpen_of_covers hcovers⟩, hid, hcovers⟩

theorem load_advanced {i : Nat} {ρ : AgentResume} {p : Advance} {c : AgentCheckpoint}
    (hload : S.load st.store k = some c) (hid : (p.save.getD c).checkpointId = c.checkpointId) :
    S.load (st.advanced S i ρ p).store k = some (p.save.getD c) := by
  unfold advanced
  cases hsave : p.save with
  | none => exact hload
  | some c' =>
    rw [hsave] at hid
    simp only [S.load_save, Option.getD_some]
    rw [if_pos (by rw [← S.load_id _ _ _ hload]; exact hid.symm)]

section

variable (h : st.SoleResume S k)

include h

theorem coherent_advanced {i : Nat} {ρ : AgentResume} {l : AgentResumeStep}
    {p : Advance} (hρ : st.resumes[i]? = some ρ)
    (hadvance : ρ.advance (S.load st.store ρ.checkpointId) l = some p) :
    (∀ τ ∈ (st.advanced S i ρ p).resumes, τ.Coherent)
      ∧ ∀ c ∈ p.save, c.checkpointId = ρ.checkpointId := by
  obtain ⟨hstage, hsave⟩ := (h.coherent ρ (List.mem_of_getElem? hρ)).advance
    (fun c hc => S.load_id _ _ _ hc) hadvance
  refine ⟨fun τ hτ => ?_, hsave⟩
  rcases List.mem_or_eq_of_mem_set hτ with hτ | rfl
  · exact h.coherent τ hτ
  · exact hstage

theorem advances {i : Nat} {ρ : AgentResume} {l : AgentResumeStep}
    {p : Advance} (hρ : st.resumes[i]? = some ρ) (hid : ρ.checkpointId = k)
    (hadvance : ρ.advance (S.load st.store ρ.checkpointId) l = some p)
    (hstops : StopsRecorded S k st (.resume i l)) : (st.advanced S i ρ p).SoleResume S k := by
  have hcoherent := (h.coherent_advanced hρ hadvance).1
  obtain ⟨c, hc, hagrees⟩ := h.agrees ρ (List.mem_of_getElem? hρ) hid
  rw [hid, hc] at hadvance
  have hadv := AgentResume.advances_of_advance hagrees hadvance
  have hload := load_advanced (i := i) (ρ := ρ) hc hadv.sameId
  -- the other resumes of `k`
  have hother : ∀ (j : Nat) (τ : AgentResume), i ≠ j → st.resumes[j]? = some τ →
      τ.checkpointId = k → τ.stage.Agrees (p.save.getD c) := by
    intro j τ hij hτ hτid
    obtain ⟨c₁, hc₁, hτagrees⟩ := h.agrees τ (List.mem_of_getElem? hτ) hτid
    rw [hc] at hc₁; cases hc₁
    rcases hadv.changes with hsame | hopen | hterminal
    · rw [hsame]; exact hτagrees
    · refine hτagrees.of_resolving (hagrees.resolving hopen) ?_
      by_contra hτopen
      exact hij (h.unique i j ρ τ hρ hτ ⟨hid, hopen⟩ ⟨hτid, by simpa using hτopen⟩)
    · exact hτagrees.of_terminal hterminal (hadv.status hterminal) hadv.sameId
  -- a call is executed only when no execution of it is on record
  have hfresh : ∀ n, p.executes = some n → (k, n) ∉ st.executed := by
    intro n hn hmem
    obtain ⟨hopen, hunsettled, huncovered, -⟩ := hadv.executes n hn
    obtain ⟨c₁, hc₁, hsettled | ⟨τ, hτ, hτid, hcovers⟩⟩ := h.accounted n hmem
    · rw [hc] at hc₁; cases hc₁
      rw [hunsettled] at hsettled; cases hsettled
    · obtain ⟨j, hj⟩ := List.getElem?_of_mem hτ
      have hij := h.unique i j ρ τ hρ hj ⟨hid, hopen⟩ ⟨hτid, CallStage.isOpen_of_covers hcovers⟩
      subst hij
      rw [hρ] at hj; cases hj
      rw [huncovered] at hcovers; cases hcovers
  refine ⟨hcoherent, fun τ hτ hτid => ?_, fun a b τ υ hτ hυ hopenτ hopenυ => ?_, fun n => ?_,
    fun n hn => ?_⟩
  · refine ⟨_, hload, ?_⟩
    obtain ⟨j, hj⟩ := List.getElem?_of_mem hτ
    rcases Parties.getElem?_set_cases hj with ⟨-, rfl⟩ | ⟨hij, hold⟩
    · exact hadv.agrees
    · exact hother j τ hij hold hτid
  · have hopen : ∀ (m : Nat) (μ : AgentResume), i ≠ m → st.resumes[m]? = some μ → μ.OpenOn k →
        ¬ p.stage.isOpen = true := fun m μ him hμ hopenμ hopenp =>
      him (h.unique i m ρ μ hρ hμ ⟨hid, hadv.stays_open hopenp⟩ hopenμ)
    rcases Parties.getElem?_set_cases hτ with ⟨ha, rfl⟩ | ⟨ha, hτ'⟩ <;>
      rcases Parties.getElem?_set_cases hυ with ⟨hb, rfl⟩ | ⟨hb, hυ'⟩
    · exact ha.symm.trans hb
    · exact absurd hopenτ.2 (hopen b υ hb hυ' hopenυ)
    · exact absurd hopenυ.2 (hopen a τ ha hτ' hopenτ)
    · exact h.unique a b τ υ hτ' hυ' hopenτ hopenυ
  · unfold advanced
    dsimp only
    rw [List.count_append]
    cases hexecutes : p.executes with
    | none => simpa using h.once n
    | some m =>
      simp only [Option.map_some, Option.toList_some, List.count_singleton]
      split
      · next heq =>
          rw [beq_iff_eq, Prod.mk.injEq] at heq
          obtain ⟨-, rfl⟩ := heq
          have hnone := List.count_eq_zero.2 (hfresh m hexecutes)
          omega
      · exact h.once n
  · refine ⟨_, hload, ?_⟩
    rcases List.mem_append.1 hn with hn | hn
    · obtain ⟨c₁, hc₁, hsettled | ⟨τ, hτ, hτid, hcovers⟩⟩ := h.accounted n hn
      · rw [hc] at hc₁; cases hc₁
        exact Or.inl (hadv.settles n hsettled)
      · obtain ⟨j, hj⟩ := List.getElem?_of_mem hτ
        by_cases hij : i = j
        · subst hij
          rw [hρ] at hj; cases hj
          rcases hadv.covers n hcovers with rfl | hcovers' | hsettles
          · have hsettled := hstops ρ hρ hid (k, n) hn rfl hcovers
            rw [hc, Option.any_some] at hsettled
            exact Or.inl (hadv.settles n hsettled)
          · exact Or.inr ⟨_, List.mem_of_getElem? (Parties.getElem?_set_of_some hρ), hid, hcovers'⟩
          · exact Or.inl hsettles
        · exact Or.inr ⟨τ, List.mem_of_getElem? (by
            unfold advanced; rw [List.getElem?_set_ne hij]; exact hj), hτid, hcovers⟩
    · rw [Option.mem_toList, Option.map_eq_some_iff] at hn
      obtain ⟨m, hm, heq⟩ := hn
      rw [Prod.mk.injEq] at heq
      obtain ⟨-, rfl⟩ := heq
      exact Or.inr ⟨_, List.mem_of_getElem? (Parties.getElem?_set_of_some hρ), hid,
        (hadv.executes m hm).2.2.2⟩

theorem claims_won (i : Nat) (ρ : AgentResume) {c : AgentCheckpoint}
    (hload : S.load st.store k = some c) (hclaimable : c.status.claimable = true)
    (hsole : ∀ τ ∈ st.resumes, τ.checkpointId = k → τ.stage.entered = false) :
    SoleResume S k { st with
      store := (S.claim st.store k).1,
      resumes := st.resumes.set i { ρ with stage := .claimed } } := by
  have hload' : S.load (S.claim st.store k).1 k = some { c with status := .resolving } := by
    rw [S.load_claim, if_pos rfl, hload, Option.map_some, AgentCheckpoint.claimed,
      if_pos hclaimable]
  have hsettles : ∀ n, c.settles n = true →
      AgentCheckpoint.settles { c with status := .resolving } n = true := by
    intro n hn
    rw [CheckpointStatus.claimable_eq_not_terminal, Bool.not_eq_true'] at hclaimable
    rw [AgentCheckpoint.settles, hclaimable, Bool.false_or] at hn
    rw [AgentCheckpoint.settles, hn, Bool.or_true]
  refine ⟨fun τ hτ => ?_, fun τ hτ hτid => ?_, fun a b τ υ hτ hυ hopenτ hopenυ => ?_, h.once,
    fun n hn => ?_⟩
  · rcases List.mem_or_eq_of_mem_set hτ with hτ | rfl
    · exact h.coherent τ hτ
    · intro copy hcopy; cases hcopy
  · refine ⟨_, hload', ?_⟩
    rcases List.mem_or_eq_of_mem_set hτ with hτ | rfl
    · exact CallStage.agrees_of_not_entered (hsole τ hτ hτid) _
    · exact rfl
  · have hplace : ∀ (m : Nat) (μ : AgentResume),
        (st.resumes.set i { ρ with stage := .claimed })[m]? = some μ → μ.OpenOn k → m = i := by
      intro m μ hμ hopen
      rcases Parties.getElem?_set_cases hμ with ⟨him, -⟩ | ⟨-, hold⟩
      · exact him.symm
      · exact absurd hopen.2
          (CallStage.not_open_of_not_entered (hsole μ (List.mem_of_getElem? hold) hopen.1))
    rw [hplace a τ hτ hopenτ, hplace b υ hυ hopenυ]
  · refine ⟨_, hload', Or.inl ?_⟩
    obtain ⟨c₁, hc₁, hsettled | ⟨τ, hτ, hτid, hcovers⟩⟩ := h.accounted n hn
    · rw [hload] at hc₁; cases hc₁
      exact hsettles n hsettled
    · exact absurd (CallStage.isOpen_of_covers hcovers)
        (CallStage.not_open_of_not_entered (hsole τ hτ hτid))

theorem step {e : ResumeEvent} (hsole : SoleClaims S k st e)
    (hstops : StopsRecorded S k st e) (hstep : (resumeSystem S).step st e = some st') :
    st'.SoleResume S k := by
  have heff := ResumeSystem.effect_of_step hstep
  cases heff with
  | refuses => exact h
  | @pauses checkpointId pending hnew =>
    by_cases hid : k = checkpointId
    · -- nothing is on a checkpoint that did not exist
      subst hid
      have hresumes : ∀ ρ ∈ st.resumes, ρ.checkpointId ≠ k := fun ρ hρ hid => by
        obtain ⟨c, hc, -⟩ := h.agrees ρ hρ hid
        rw [hnew] at hc; cases hc
      have hexecuted : ∀ n, (k, n) ∉ st.executed := fun n hn => by
        obtain ⟨c, hc, -⟩ := h.accounted n hn
        rw [hnew] at hc; cases hc
      exact ⟨h.coherent, fun ρ hρ hid => absurd hid (hresumes ρ hρ),
        fun i j ρ τ hρ _ hopen _ => absurd hopen.1 (hresumes ρ (List.mem_of_getElem? hρ)),
        h.once, fun n hn => absurd hn (hexecuted n)⟩
    · exact h.of_elsewhere h.coherent (by rw [S.load_save, if_neg hid]) (fun _ => rfl)
        (fun _ _ hτ _ => Or.inl hτ) (fun _ hρ _ => hρ)
  | @calls runtime checkpointId approved c hload =>
    refine h.of_elsewhere ?_ rfl (fun _ => rfl) (fun j τ hτ hid => ?_)
      (fun ρ hρ _ => List.mem_append_left _ hρ)
    · intro ρ hρ
      rcases List.mem_append.1 hρ with hρ | hρ
      · exact h.coherent ρ hρ
      · rw [List.mem_singleton] at hρ
        subst hρ
        intro copy hcopy; cases hcopy
    · rcases Parties.getElem?_concat_cases hτ with hold | rfl
      · exact Or.inl hold
      · exact Or.inr ⟨rfl, c, by rw [← hid]; exact hload⟩
  | @claims i ρ hρ hstage =>
    have hidle : ρ.stage.entered = false := by rw [hstage]; rfl
    -- the waiting resume held nothing of `k`
    have hforth : ∀ stage : CallStage, ∀ τ ∈ st.resumes, τ.OpenOn k →
        τ ∈ st.resumes.set i { ρ with stage } := by
      intro stage τ hτ hopen
      obtain ⟨j, hj⟩ := List.getElem?_of_mem hτ
      have hij : i ≠ j := fun hij => by
        subst hij
        rw [hρ] at hj; cases hj
        exact CallStage.not_open_of_not_entered hidle hopen.2
      exact List.mem_of_getElem? (by rw [List.getElem?_set_ne hij]; exact hj)
    have hcoherent : ∀ stage : CallStage, stage.copy? = none →
        ∀ τ ∈ st.resumes.set i { ρ with stage }, τ.Coherent := by
      intro stage hcopy τ hτ
      rcases List.mem_or_eq_of_mem_set hτ with hτ | rfl
      · exact h.coherent τ hτ
      · intro copy hc
        rw [hcopy] at hc; cases hc
    by_cases hid : ρ.checkpointId = k
    · subst hid
      obtain ⟨c, hc, -⟩ := h.agrees ρ (List.mem_of_getElem? hρ) rfl
      cases hclaimable : c.status.claimable with
      | true =>
        have hwon : (S.claim st.store ρ.checkpointId).2 = true :=
          (S.claim_won _ _).2 ⟨c, hc, hclaimable⟩
        rw [hwon]
        exact h.claims_won i ρ hc hclaimable (hsole ρ hρ rfl (by rw [hc]; exact hclaimable))
      | false =>
        have hlost : (S.claim st.store ρ.checkpointId).2 = false := by
          rw [← Bool.not_eq_true, S.claim_won]
          rintro ⟨c₁, hc₁, hclaimable₁⟩
          rw [hc] at hc₁; cases hc₁
          rw [hclaimable] at hclaimable₁; cases hclaimable₁
        rw [hlost]
        refine h.of_elsewhere (hcoherent .done rfl) ?_ (fun _ => rfl) (fun j τ hτ hτid => ?_)
          (hforth .done)
        · rw [S.load_claim, if_pos rfl, hc, Option.map_some, AgentCheckpoint.claimed,
            if_neg (by simp [hclaimable])]
        · rcases Parties.getElem?_set_cases hτ with ⟨-, rfl⟩ | ⟨-, hold⟩
          · exact Or.inr ⟨rfl, c, hc⟩
          · exact Or.inl hold
    · refine h.of_elsewhere (hcoherent _ (by split <;> rfl)) ?_ (fun _ => rfl)
        (fun j τ hτ hτid => ?_) (hforth _)
      · rw [S.load_claim, if_neg (fun he => hid he.symm)]
      · rcases Parties.getElem?_set_cases hτ with ⟨-, rfl⟩ | ⟨-, hold⟩
        · exact absurd hτid hid
        · exact Or.inl hold
  | @advances i l ρ p hρ hadvance =>
    by_cases hid : ρ.checkpointId = k
    · exact h.advances hρ hid hadvance hstops
    · obtain ⟨hcoherent, hsave⟩ := h.coherent_advanced hρ hadvance
      refine h.of_elsewhere hcoherent ?_ (fun n => ?_) (fun j τ hτ hτid => ?_)
        (fun τ hτ hopen => ?_)
      · unfold advanced
        cases hs : p.save with
        | none => rfl
        | some c =>
          dsimp only
          rw [S.load_save, if_neg (fun he => hid ((hsave c hs).symm.trans he.symm))]
      · unfold advanced
        dsimp only
        rw [List.count_append]
        cases p.executes with
        | none => simp
        | some m => simp [hid]
      · rcases Parties.getElem?_set_cases hτ with ⟨-, rfl⟩ | ⟨-, hold⟩
        · exact absurd hτid hid
        · exact Or.inl hold
      · obtain ⟨j, hj⟩ := List.getElem?_of_mem hτ
        have hij : i ≠ j := fun hij => by
          subst hij
          rw [hρ] at hj; cases hj
          exact hid hopen.1
        exact List.mem_of_getElem? (by
          unfold advanced; rw [List.getElem?_set_ne hij]; exact hj)

theorem status_kept {e : ResumeEvent}
    (hstep : (resumeSystem S).step st e = some st') {c : AgentCheckpoint}
    (hload : S.load st.store k = some c) (hterminal : c.status.terminal = true) :
    ∃ c', S.load st'.store k = some c' ∧ c'.status = c.status := by
  have heff := ResumeSystem.effect_of_step hstep
  cases heff with
  | refuses | calls => exact ⟨c, hload, rfl⟩
  | @pauses checkpointId pending hnew =>
    have hne : k ≠ checkpointId := fun he => by
      rw [he, hnew] at hload; cases hload
    exact ⟨c, by rw [S.load_save, if_neg hne]; exact hload, rfl⟩
  | @claims i ρ =>
    refine ⟨c, ?_, rfl⟩
    have hclaimed : c.claimed = c := by
      rw [AgentCheckpoint.claimed, CheckpointStatus.claimable_eq_not_terminal, hterminal]
      rfl
    rw [S.load_claim]
    split
    · next hk => rw [← hk, hload, Option.map_some, hclaimed]
    · exact hload
  | @advances i l ρ p hρ hadvance =>
    by_cases hid : ρ.checkpointId = k
    · obtain ⟨c₁, hc₁, hagrees⟩ := h.agrees ρ (List.mem_of_getElem? hρ) hid
      rw [hload] at hc₁; cases hc₁
      rw [hid, hload] at hadvance
      have hadv := AgentResume.advances_of_advance hagrees hadvance
      exact ⟨_, load_advanced hload hadv.sameId, hadv.status hterminal⟩
    · obtain ⟨-, hsave⟩ := h.coherent_advanced hρ hadvance
      refine ⟨c, ?_, rfl⟩
      unfold advanced
      cases hs : p.save with
      | none => exact hload
      | some c' =>
        dsimp only
        rw [S.load_save, if_neg (fun he => hid ((hsave c' hs).symm.trans he.symm))]
        exact hload

end

theorem init (s : σ) : SoleResume S k { store := s } :=
  ⟨fun _ h => absurd h List.not_mem_nil, fun _ h => absurd h List.not_mem_nil,
    fun _ _ _ _ h => absurd (List.mem_of_getElem? h) List.not_mem_nil, fun _ => Nat.zero_le 1,
    fun _ h => absurd h List.not_mem_nil⟩

end ResumeSystem.SoleResume

/-! ## The result -/

/-- **Exactly-once.** Over every store, in every run whose won claims of `k` find no other resume of
    `k` in flight and whose stopped resumes of `k` have their executions on record, each pending
    call of `k` is executed at most once, and its resolved status never changes. -/
theorem exactlyOnce_of_soleClaims {σ : Type} {S : CheckpointStore σ} {k : String} {s : σ}
    {es : List ResumeEvent} (hsole : (resumeSystem S).AlongRun (SoleClaims S k) { store := s } es)
    (hstops : (resumeSystem S).AlongRun (StopsRecorded S k) { store := s } es) :
    ExactlyOnce S k s es := by
  have hkept : ∀ (st : ResumeSystem σ) (e : ResumeEvent) (st' : ResumeSystem σ),
      st.SoleResume S k → SoleClaims S k st e ∧ StopsRecorded S k st e →
      (resumeSystem S).step st e = some st' → st'.SoleResume S k :=
    fun _ _ _ h hC hs => h.step hC.1 hC.2 hs
  refine ⟨fun st hrun => ?_, ?_⟩
  · exact ((resumeSystem S).exec_invariant hkept (ResumeSystem.SoleResume.init s)
      (hsole.and hstops) hrun).once
  · rintro pre e post st st' c rfl hrun hstep hload hterminal
    have h := ((resumeSystem S).at_step hkept (ResumeSystem.SoleResume.init s)
      (hsole.and hstops) hrun).1
    exact h.status_kept hstep hload hterminal

private def pausedOnOne : SqliteCheckpoints :=
  SqliteCheckpoints.empty.save
    { checkpointId := "c", pendingToolCalls := [{ toolCallId := "t", toolName := "transfer" }] }

private def succeeds : ToolExecutionResult := { outcome := .success }

/-- The resume `i` claims the checkpoint and executes its call. -/
private def executes (i : Nat) : List ResumeEvent :=
  [.resume i .load, .resume i .lookup, .resume i (.execute succeeds)]

/-- A first resume crashes after its record; its retry replays the result and resolves the
    checkpoint. -/
theorem exactlyOnce_of_soleClaims_retried : ExactlyOnce sqliteCheckpointStore "c" pausedOnOne
      ([.call 0 "c" true, .resume 0 .claim] ++ executes 0
        ++ [.resume 0 .merge, .resume 0 .put, .resume 0 .stop, .call 1 "c" true, .resume 1 .claim,
          .resume 1 .load, .resume 1 .lookup, .resume 1 .resolve]) :=
  exactlyOnce_of_soleClaims (by decide) (by decide)

/-- Two processes resume the checkpoint, and both miss the ledger before either has executed. -/
private def racing : List ResumeEvent :=
  [.call 0 "c" true, .call 1 "c" true, .resume 0 .claim, .resume 1 .claim, .resume 0 .load,
    .resume 1 .load, .resume 0 .lookup, .resume 1 .lookup, .resume 0 (.execute succeeds),
    .resume 1 (.execute succeeds)]

private def raced : ResumeSystem SqliteCheckpoints :=
  ((resumeSystem sqliteCheckpointStore).exec { store := pausedOnOne } racing).getD
    { store := pausedOnOne }

/-- The second claim is won on `resolving`, and the approved call is executed twice. -/
theorem not_exactlyOnce : ¬ ExactlyOnce sqliteCheckpointStore "c" pausedOnOne racing := fun h =>
  absurd (h.at_most_once raced rfl 0) (by decide)

end Himmy
