import Himmy.Application.ResumeDrive

/-! # Resumes and the runs they leave

A run that a resume marked `RUNNING` stays in the hands of a live task until one of the tasks writes
what it came to: `resumes_settle` shows it of every run of the resumes whose errors are not taken for
the loss of a claim and whose tasks are struck in their drive only.

The invariant is `Driven`: of a spawned run that is `RUNNING`, some live task will not lose its claim.
A claim is lost only after another task resolved the checkpoint, or moved the graph past its pause;
that task is past its own claim (`Lost`), and it is on the same run, since a checkpoint belongs to one
run. -/

namespace Himmy

open ResumeDrive (live loaded)
open KeyedList (get?_put_self key_of_get? get?_put empty)

def RunStatus.settled : RunStatus → Bool
  | .succeeded => true
  | .failed => true
  | .parked => true
  | .awaitingApproval => true
  | _ => false

theorem DriveOutcome.settled_apply (entry : DriveEntry) (o : DriveOutcome) (run : RunRecord)
    (now : Instant) : (o.apply entry run now).status.settled = true := by
  rcases o.status_apply entry run now with h | h | h <;> rw [h] <;> rfl

theorem claimLoss_isResumeClaimLoss (checkpointId : String) (current : Option AgentCheckpoint) :
    (claimLoss checkpointId current).isResumeClaimLoss = true := by
  simp only [Raised.isResumeClaimLoss, claimLoss, Raised.himmyError, Bool.true_and,
    decide_eq_true_eq, String.toList_append]
  have hspace : " already resolved (".toList = " ".toList ++ "already resolved".toList ++ " (".toList :=
    rfl
  rw [hspace]
  refine ⟨"checkpoint ".toList ++ (Json.str checkpointId).pyRepr.toList ++ " ".toList,
    " (".toList ++ (statusText current).toList ++ ").".toList, ?_⟩
  simp only [List.append_assoc]

theorem ResumeTarget.settles_claimLoss (target : ResumeTarget) (checkpointId : String)
    (current : Option AgentCheckpoint) : target.settles (claimLoss checkpointId current) = none := by
  cases target with
  | agent c => rfl
  | orchestration => exact if_pos (claimLoss_isResumeClaimLoss checkpointId current)

namespace DriveStage

def checkpointId? : DriveStage → Option String
  | .located _ checkpointId _ => some checkpointId
  | .claimed _ checkpointId _ => some checkpointId
  | .applying copy _ => some copy.checkpointId
  | _ => none

def node? : DriveStage → Option String
  | .located _ _ node => node
  | .claimed _ _ node => node
  | .applying _ node => node
  | .continuing _ node => node
  | .advancing node => some node
  | _ => none

theorem node?_of_member? {stage : DriveStage} {m : String × String} (h : stage.member? = some m) :
    stage.node?.isSome = true := by
  cases stage with
  | located | claimed | applying | continuing =>
    obtain ⟨node, rfl, -⟩ := Option.map_eq_some_iff.1 h
    rfl
  | _ => cases h

end DriveStage

section

variable {σ : Type} (env : DriveEnv σ)

namespace ResumeDrives

variable (st : ResumeDrives σ)

/-- The checkpoint is stored, and it has not been approved or rejected. -/
def isOpen (checkpointId : String) : Bool :=
  (env.checkpoints.load st.checkpoints checkpointId).any (·.status.claimable)

variable (b : ResumeDrive)

def Lost : Prop :=
  match b.stage with
  | .building => match b.resume.target with
    | .agent checkpointId => st.isOpen env checkpointId = false
    | .orchestration => False
  | .entered _ => match b.resume.target with
    | .agent checkpointId => st.isOpen env checkpointId = false
    | .orchestration => False
  | .located _ checkpointId none => st.isOpen env checkpointId = false
  | .located _ checkpointId (some node) =>
    st.pauses b.resume.run.orchestrationCheckpointId ≠ some (node, checkpointId)
  | _ => False

def losesClaim : DriveStep → Bool
  | .claimCheckpoint => match b.stage with
    | .located _ checkpointId none =>
      !(env.checkpoints.claim st.checkpoints checkpointId).2
    | .located _ checkpointId (some node) =>
      !(env.checkpoints.claim st.checkpoints checkpointId).2
        && decide (st.pauses b.resume.run.orchestrationCheckpointId ≠ some (node, checkpointId))
    | _ => false
  | _ => false

/-! ## What is shown -/

def EndsSettled (st : ResumeDrives σ) (e : Instant × DriveEvent) : Prop :=
  match e.2 with
  | .task i l => ∀ b ∈ st.tasks[i]?, b.live = true → ∀ st', (resumeDrives env).step st e = some st' →
    ∀ b' ∈ st'.tasks[i]?, b'.live = false →
      if st.losesClaim env b l = true then st'.store = st.store
      else ∃ row, st'.store.records.get? b.runId = some row ∧ row.status.settled = true
  | _ => True

/-- Every run that a resume marked `RUNNING`, and that still is, has a live task. -/
def AllDriven : Prop :=
  ∀ b ∈ st.tasks, b.spawned = true → ∀ row, st.store.records.get? b.runId = some row →
    row.status = .running → ∃ d ∈ st.tasks, d.runId = b.runId ∧ d.live = true

/-! ## The condition -/

/-- The error a step of the drive meets, the loss of a claim apart, and the member whose loop it
    comes from. -/
def errorAt : DriveStep → Option (Option (String × String) × Raised)
  | .look => match b.stage with
    | .entered rt => (st.sought b).bind (fun s => (lookError rt (env.body s.1) s.1
        (env.checkpoints.load st.checkpoints s.1)).map (s.2.map (·, s.1), ·))
    | _ => none
  | .check => match b.stage with
    | .claimed rt checkpointId _ => match env.checkpoints.load st.checkpoints checkpointId with
      | none => some (b.stage.member?, unknownCheckpoint checkpointId)
      | some _ =>
        (openingError rt (env.body checkpointId) b.resume.approved).map (b.stage.member?, ·)
    | _ => none
  | .raises e => some (b.stage.member?, e)
  | _ => none

def Caught (member : Option (String × String)) (e : Raised) : Prop :=
  (b.resume.target.settles e).isSome = true
    ∨ ∃ m ∈ member, st.pauses b.resume.run.orchestrationCheckpointId = some m

instance (b : ResumeDrive) (member : Option (String × String)) (e : Raised) :
    Decidable (st.Caught b member e) :=
  inferInstanceAs (Decidable (_ ∨ _))

variable (owner : String → String)

def OpenFor (b : ResumeDrive) : Prop :=
  match b.resume.target with
  | .agent checkpointId => owner checkpointId = b.runId ∧ st.isOpen env checkpointId = true
  | .orchestration => owner b.resume.run.orchestrationCheckpointId = b.runId

/-- The condition on a step of a task: its error is not taken for the loss of a claim, it is struck in
    its drive only, and it works on a checkpoint of its own run. -/
def SteadyAt (b : ResumeDrive) (l : DriveStep) : Prop :=
  (∀ x ∈ st.errorAt env b l, st.Caught b x.1 x.2) ∧
    match l with
    | .flip => st.OpenFor env owner b
    | .look => ∀ s ∈ st.sought b, owner s.1 = b.runId
    | .cancel => b.stage.inDrive = true
    | .fail => False
    | _ => True

/-- The condition on a step of the system. `owner` says which run a checkpoint belongs to. -/
def Steady (st : ResumeDrives σ) (e : Instant × DriveEvent) : Prop :=
  match e.2 with
  | .task i l => ∀ b ∈ st.tasks[i]?, st.SteadyAt env owner b l
  | _ => True

instance (owner : String → String) (b : ResumeDrive) : Decidable (st.OpenFor env owner b) := by
  unfold OpenFor
  split <;> infer_instance

instance (owner : String → String) (b : ResumeDrive) :
    ∀ l, Decidable (st.SteadyAt env owner b l)
  | .flip => inferInstanceAs (Decidable (_ ∧ st.OpenFor env owner b))
  | .look => inferInstanceAs (Decidable (_ ∧ ∀ s ∈ st.sought b, owner s.1 = b.runId))
  | .cancel => inferInstanceAs (Decidable (_ ∧ b.stage.inDrive = true))
  | .fail => inferInstanceAs (Decidable (_ ∧ False))
  | .claim | .decide | .load | .buildFails _ | .memberRemoved _ | .build _ | .claimCheckpoint | .check
  | .record _ | .resolve | .advance _ | .leave _ | .finish | .raises _ | .timesOut _ =>
    inferInstanceAs (Decidable (_ ∧ True))

instance (owner : String → String) (st : ResumeDrives σ) :
    ∀ e, Decidable (Steady env owner st e)
  | (_, .task i l) => inferInstanceAs (Decidable (∀ b ∈ st.tasks[i]?, st.SteadyAt env owner b l))
  | (_, .resume ..) | (_, .reopen _) | (_, .pause _) => .isTrue trivial

/-! ## The invariant -/

/-- What holds of a task by itself. -/
structure Sound (owner : String → String) (b : ResumeDrive) : Prop where
  early : b.spawned = false → b.live = false ∧ b.stage = .building
  late : b.spawned = true → b.live = true ∨ b.resume.stage = .done
  owned : b.spawned = true → match b.resume.target with
    | .agent checkpointId => owner checkpointId = b.runId
    | .orchestration => owner b.resume.run.orchestrationCheckpointId = b.runId
  located : ∀ c ∈ b.stage.checkpointId?, owner c = b.runId
  member : b.stage.node?.isSome = true → b.resume.target = .orchestration

/-- A spawned run that is `RUNNING` has a live task that will not lose its claim. -/
structure Driven (owner : String → String) (st : ResumeDrives σ) : Prop where
  coherent : ∀ b ∈ st.tasks, b.resume.Coherent st.store.records
  sound : ∀ b ∈ st.tasks, Sound owner b
  driven : ∀ b ∈ st.tasks, b.spawned = true → ∀ row, st.store.records.get? b.runId = some row →
    row.status = .running → ∃ d ∈ st.tasks, d.runId = b.runId ∧ d.live = true ∧ ¬ st.Lost env d

variable {env} {owner : String → String} {st}

theorem Driven.allDriven (h : Driven env owner st) : st.AllDriven := by
  intro b hb hspawned row hget hrunning
  obtain ⟨d, hd, hrun, hlive, -⟩ := h.driven b hb hspawned row hget hrunning
  exact ⟨d, hd, hrun, hlive⟩

theorem driven_start (store : SqliteRunStore) (checkpoints : σ)
    (pauses : String → Option (String × String)) :
    Driven env owner ⟨store, checkpoints, pauses, []⟩ :=
  ⟨fun _ h => absurd h List.not_mem_nil, fun _ h => absurd h List.not_mem_nil,
    fun _ h => absurd h List.not_mem_nil⟩

/-! ## A step of a resume -/

def afterStep (b : ResumeDrive) (ρ : Resume) : ResumeDrive :=
  { b with
    resume := ρ
    spawned := b.spawned || (match ρ.stage with
      | .spawned => true
      | _ => false) }

variable {b : ResumeDrive}

theorem Sound.not_spawned (h : Sound owner b) (hlive : b.live = false)
    (hdone : b.resume.stage ≠ .done) : b.spawned = false := by
  cases hspawned : b.spawned with
  | false => rfl
  | true =>
    rcases h.late hspawned with h | h
    · rw [hlive] at h
      cases h
    · exact absurd h hdone

theorem Sound.spawned_of_live (h : Sound owner b) (hlive : b.live = true) : b.spawned = true := by
  cases hs : b.spawned with
  | true => rfl
  | false =>
    rw [(h.early hs).1] at hlive
    cases hlive

variable {now : Instant}

theorem Sound.afterStep (h : Sound owner b) {renv : ResumeEnv} {t t' : RunTable}
    {l : ResumeStep} {ρ : Resume} (heff : b.resume.Effect renv t now l t' ρ)
    (hopen : l = .flip → st.OpenFor env owner b) : Sound owner (afterStep b ρ) := by
  have hnot := h.not_spawned
  have hlives := h.spawned_of_live
  obtain ⟨hearly, hlate, howned, hlocated, hmember⟩ := h
  cases heff with
  | claims hstage | loses hstage | decides hstage =>
    have hfalse := hnot (by simp [live, hstage]) (by simp [hstage])
    refine ⟨fun _ => ⟨rfl, (hearly hfalse).2⟩, fun hs => ?_, fun hs => ?_, hlocated, hmember⟩
    · simp [ResumeDrives.afterStep, hfalse] at hs
    · simp [ResumeDrives.afterStep, hfalse] at hs
  | flips hstage =>
    have hopen := hopen rfl
    refine ⟨fun hs => ?_, fun _ => Or.inl rfl, fun _ => ?_, hlocated, hmember⟩
    · simp [ResumeDrives.afterStep] at hs
    · unfold OpenFor at hopen
      dsimp only [ResumeDrives.afterStep]
      split at hopen
      · next heq => rw [heq]; exact hopen.1
      · next heq => rw [heq]; exact hopen
  | loads hstage =>
    have hspawned := hlives (by simp [live, hstage])
    refine ⟨fun hs => ?_, fun _ => Or.inl rfl, fun _ => howned hspawned, hlocated, hmember⟩
    simp [ResumeDrives.afterStep, hspawned] at hs
  | finishes | stops =>
    refine ⟨fun hs => ?_, fun _ => Or.inr rfl, fun hs => ?_, hlocated, hmember⟩
    · simp only [ResumeDrives.afterStep, Bool.or_false] at hs
      exact ⟨rfl, (hearly hs).2⟩
    · simp only [ResumeDrives.afterStep, Bool.or_false] at hs
      exact howned hs

theorem runId_afterStep {renv : ResumeEnv} {t t' : RunTable}
    {l : ResumeStep} {ρ : Resume} (heff : b.resume.Effect renv t now l t' ρ) :
    (afterStep b ρ).runId = b.runId :=
  heff.sameRun.runId

variable {p : SqliteRunStore × Resume}

theorem not_live_of_flip {renv : ResumeEnv} {s : SqliteRunStore}
    (h : b.resume.step renv s now .flip = some p) : b.live = false := by
  simp only [Resume.step, Resume.advance] at h
  split at h
  · next hstage => simp [live, hstage]
  · cases h

theorem Driven.witness (h : Driven env owner st) (hmem : b ∈ st.tasks)
    {l : ResumeStep} {t' : RunTable} {ρ : Resume}
    (heff : b.resume.Effect env.resume st.store.records now l t' ρ)
    (hopen : l = .flip → st.OpenFor env owner b ∧ b.live = false)
    (hlost : l = .alreadyResolved → st.Lost env b) (hcrash : l ≠ .crash) {r : String}
    (hspawned : (ρ.stage = .spawned ∧ r = b.runId) ∨ ∃ d ∈ st.tasks, d.spawned = true ∧ d.runId = r)
    {row : RunRecord} (hget : t'.get? r = some row) (hrunning : row.status = .running) :
    (∃ d ∈ st.tasks, d ≠ b ∧ d.runId = r ∧ d.live = true ∧ ¬ st.Lost env d)
      ∨ (b.runId = r ∧ (afterStep b ρ).live = true ∧ ¬ st.Lost env (afterStep b ρ)) := by
  -- what the invariant gives when the row was `RUNNING` before the step
  have hkept : st.store.records.get? r = some row → ρ.stage ≠ .spawned ∨ r ≠ b.runId →
      ∃ d ∈ st.tasks, d.runId = r ∧ d.live = true ∧ ¬ st.Lost env d := by
    intro hget hstage
    rcases hspawned with ⟨hspawned, hr⟩ | ⟨d, hd, hds, rfl⟩
    · rcases hstage with hstage | hne
      · exact absurd hspawned hstage
      · exact absurd hr hne
    · exact h.driven d hd hds row hget hrunning
  have hcoherent := h.coherent b hmem
  by_cases hr : b.runId = r
  · subst hr
    have hput : ∀ rec : RunRecord, rec.runId = b.runId →
        (st.store.records.put rec).get? b.runId = some rec := by
      intro rec hrec
      rw [← hrec]
      exact get?_put_self _ _
    cases heff with
    | @claims old hstage hold =>
      have hid : old.runId = b.runId := key_of_get? hold
      rw [hput (old.resolving now) hid] at hget
      cases hget
      cases hrunning
    | decides =>
      rw [hput ((b.resume.run.withDecision b.resume.approved b.resume.actor now).stamped now) rfl]
        at hget
      cases hget
      cases hrunning
    | @finishes outcome run hstage =>
      have hid : (outcome.apply .resume run now).runId = b.runId :=
        (SameClaim.apply .resume outcome run now).runId.trans
          (hcoherent.background run hstage).runId
      rw [hput ((outcome.apply .resume run now).stamped now) hid] at hget
      cases hget
      have hsettled := outcome.settled_apply .resume run now
      rw [show (outcome.apply .resume run now).status = .running from hrunning] at hsettled
      cases hsettled
    | flips hstage =>
      obtain ⟨hopen, hlive⟩ := hopen rfl
      have hbuilding := (h.sound b hmem).early ((h.sound b hmem).not_spawned hlive (by simp [hstage]))
      refine Or.inr ⟨rfl, rfl, ?_⟩
      unfold OpenFor at hopen
      unfold Lost
      dsimp only [afterStep]
      rw [hbuilding.2]
      dsimp only
      split at hopen
      · rw [hopen.2]
        simp
      · exact not_false
    | loses hstage =>
      obtain ⟨d, hd, hrun, hlive, hnot⟩ := hkept hget (Or.inl (by simp))
      refine Or.inl ⟨d, hd, ?_, hrun, hlive, hnot⟩
      rintro rfl
      simp [live, hstage] at hlive
    | loads hstage =>
      obtain ⟨d, hd, hrun, hlive, hnot⟩ := hkept hget (Or.inl (by simp))
      by_cases hdb : d = b
      · subst hdb
        exact Or.inr ⟨rfl, rfl, hnot⟩
      · exact Or.inl ⟨d, hd, hdb, hrun, hlive, hnot⟩
    | stops hl =>
      rcases hl with rfl | rfl | rfl
      · obtain ⟨d, hd, hrun, hlive, hnot⟩ := hkept hget (Or.inl (by simp))
        refine Or.inl ⟨d, hd, ?_, hrun, hlive, hnot⟩
        rintro rfl
        rw [(hopen rfl).2] at hlive
        cases hlive
      · obtain ⟨d, hd, hrun, hlive, hnot⟩ := hkept hget (Or.inl (by simp))
        refine Or.inl ⟨d, hd, ?_, hrun, hlive, hnot⟩
        rintro rfl
        exact hnot (hlost rfl)
      · exact absurd rfl hcrash
  · rw [heff.get?_of_ne hcoherent hr] at hget
    obtain ⟨d, hd, hrun, hlive, hnot⟩ := hkept hget (Or.inr (fun he => hr he.symm))
    refine Or.inl ⟨d, hd, ?_, hrun, hlive, hnot⟩
    rintro rfl
    exact hr hrun

theorem mem_set_of_ne {ps : List ResumeDrive} {i : Nat} {b d : ResumeDrive} (hb : ps[i]? = some b)
    (hd : d ∈ ps) (hne : d ≠ b) (b' : ResumeDrive) : d ∈ ps.set i b' := by
  obtain ⟨j, hj⟩ := List.getElem?_of_mem hd
  refine List.mem_of_getElem? (i := j) ?_
  rw [List.getElem?_set_ne, hj]
  rintro rfl
  exact hne (Option.some.inj (hj.symm.trans hb))

theorem Driven.stepped (h : Driven env owner st) {i : Nat}
    (hb : st.tasks[i]? = some b) {l : ResumeStep} {s' : SqliteRunStore} {ρ : Resume}
    (hstep : b.resume.step env.resume st.store now l = some (s', ρ))
    (hopen : l = .flip → st.OpenFor env owner b) (hlost : l = .alreadyResolved → st.Lost env b)
    (hcrash : l ≠ .crash) : Driven env owner (st.stepped i b (s', ρ)) := by
  have hmem := List.mem_of_getElem? hb
  have hcoherent := h.coherent b hmem
  have heff := Resume.effect_of_step hcoherent hstep
  have hopen' : l = .flip → st.OpenFor env owner b ∧ b.live = false := by
    rintro rfl
    exact ⟨hopen rfl, not_live_of_flip hstep⟩
  have hnew : afterStep b ρ ∈ (st.stepped i b (s', ρ)).tasks :=
    List.mem_of_getElem? (Parties.getElem?_set_of_some hb)
  have hold : ∀ d ∈ st.tasks, d ≠ b → d ∈ (st.stepped i b (s', ρ)).tasks :=
    fun d hd hne => mem_set_of_ne hb hd hne _
  refine ⟨fun d hd => ?_, fun d hd => ?_, fun d hd hspawned row hget hrunning => ?_⟩
  · rcases List.mem_or_eq_of_mem_set hd with hd | rfl
    · exact (h.coherent d hd).mono (heff.persists hcoherent)
    · exact heff.coherent hcoherent
  · rcases List.mem_or_eq_of_mem_set hd with hd | rfl
    · exact h.sound d hd
    · exact (h.sound b hmem).afterStep heff hopen
  · have hbefore : (ρ.stage = .spawned ∧ d.runId = b.runId)
        ∨ ∃ d₀ ∈ st.tasks, d₀.spawned = true ∧ d₀.runId = d.runId := by
      rcases List.mem_or_eq_of_mem_set hd with hd | rfl
      · exact Or.inr ⟨d, hd, hspawned, rfl⟩
      · by_cases hstage : ρ.stage = .spawned
        · exact Or.inl ⟨hstage, runId_afterStep heff⟩
        · refine Or.inr ⟨b, hmem, ?_, (runId_afterStep heff).symm⟩
          dsimp only at hspawned
          split at hspawned
          · next heq => exact absurd heq hstage
          · rwa [Bool.or_false] at hspawned
    rcases h.witness hmem heff hopen' hlost hcrash hbefore hget hrunning with
      ⟨e, he, hne, hrun, hlive, hnot⟩ | ⟨hrun, hlive, hnot⟩
    · exact ⟨e, hold e he hne, hrun, hlive, hnot⟩
    · exact ⟨afterStep b ρ, hnew, (runId_afterStep heff).trans hrun, hlive, hnot⟩

/-! ## A move of a background task -/

/-- What a move does to what a claim depends on: it resolves a checkpoint, or it moves a graph, of its
    own run only, and then the task is past its own claim. -/
structure OwnMove (env : DriveEnv σ) (owner : String → String) (st st' : ResumeDrives σ)
    (b b' : ResumeDrive) : Prop where
  kept : ¬ st.Lost env b → ¬ st'.Lost env b'
  resolved : ∀ c, st'.isOpen env c = false →
    st.isOpen env c = false ∨ (owner c = b.runId ∧ ¬ st'.Lost env b')
  paused : ∀ g, st'.pauses g = st.pauses g ∨ (owner g = b.runId ∧ ¬ st'.Lost env b')

theorem OwnMove.not_lost {st' : ResumeDrives σ} {b b' d : ResumeDrive}
    (h : OwnMove env owner st st' b b') (hd : Sound owner d) (hlive : d.live = true)
    (hnot : ¬ st.Lost env d) : ¬ st'.Lost env d ∨ (b.runId = d.runId ∧ ¬ st'.Lost env b') := by
  have howned := hd.owned (hd.spawned_of_live hlive)
  -- a lost claim of an agent: its checkpoint is resolved
  have hagent : ∀ c, owner c = d.runId → (st.isOpen env c = false → st.Lost env d) →
      ¬ st'.isOpen env c = false ∨ (b.runId = d.runId ∧ ¬ st'.Lost env b') := by
    intro c hc hlost
    by_cases hres : st'.isOpen env c = false
    · rcases h.resolved c hres with hold | ⟨hown, hpast⟩
      · exact absurd (hlost hold) hnot
      · exact Or.inr ⟨hown.symm.trans hc, hpast⟩
    · exact Or.inl hres
  cases hstage : d.stage with
  | building | entered =>
    unfold Lost at hnot ⊢
    simp only [hstage] at hnot ⊢
    cases htarget : d.resume.target with
    | agent c =>
      rw [htarget] at howned
      simp only [htarget] at hnot ⊢
      refine hagent c howned (fun hres => ?_)
      exact absurd hres hnot
    | orchestration => exact Or.inl not_false
  | located rt c node =>
    have hlocated := hd.located c (by rw [hstage]; rfl)
    cases node with
    | none =>
      unfold Lost at hnot ⊢
      simp only [hstage] at hnot ⊢
      exact hagent c hlocated (fun hres => absurd hres hnot)
    | some node =>
      have htarget := hd.member (by rw [hstage]; rfl)
      rw [htarget] at howned
      unfold Lost at hnot ⊢
      simp only [hstage] at hnot ⊢
      rcases h.paused d.resume.run.orchestrationCheckpointId with hsame | ⟨hown, hpast⟩
      · rw [hsame]
        exact Or.inl hnot
      · exact Or.inr ⟨hown.symm.trans howned, hpast⟩
  | _ =>
    left
    unfold Lost
    simp only [hstage]
    exact not_false

theorem raised_cases (st : ResumeDrives σ) (b : ResumeDrive) (member : Option (String × String))
    (e : Raised) :
    (∃ outcome, st.raised b member e = .ends (.finish outcome) ∧ b.resume.target.settles e = some outcome)
      ∨ (∃ node checkpointId, member = some (node, checkpointId)
        ∧ st.pauses b.resume.run.orchestrationCheckpointId = some (node, checkpointId)
        ∧ st.raised b member e = .goes (.advancing node) st.checkpoints st.pauses)
      ∨ (st.raised b member e = .ends .alreadyResolved ∧ b.resume.target.settles e = none
        ∧ ∀ m ∈ member, st.pauses b.resume.run.orchestrationCheckpointId ≠ some m) := by
  unfold raised
  cases hsettles : b.resume.target.settles e with
  | some outcome => exact Or.inl ⟨outcome, rfl, rfl⟩
  | none =>
    right
    cases member with
    | none => exact Or.inr ⟨rfl, rfl, fun m hm => by cases hm⟩
    | some m =>
      dsimp only
      split
      · next hpause => exact Or.inl ⟨m.1, m.2, rfl, hpause, rfl⟩
      · next hpause =>
          refine Or.inr ⟨rfl, rfl, fun m' hm' => ?_⟩
          cases hm'
          exact hpause

theorem OwnMove.of_same {st' : ResumeDrives σ} {b b' : ResumeDrive}
    (hkept : ¬ st.Lost env b → ¬ st'.Lost env b') (hopen : ∀ c, st'.isOpen env c = st.isOpen env c)
    (hpauses : st'.pauses = st.pauses) : OwnMove env owner st st' b b' :=
  ⟨hkept, fun c hc => Or.inl (by rw [← hopen c]; exact hc),
    fun g => Or.inl (by rw [hpauses])⟩

theorem isOpen_claim (st : ResumeDrives σ) (checkpointId c : String) (tasks : List ResumeDrive)
    (pauses : String → Option (String × String)) :
    (ResumeDrives.mk st.store (env.checkpoints.claim st.checkpoints checkpointId).1 pauses
      tasks).isOpen env c = st.isOpen env c := by
  unfold isOpen
  dsimp only
  rw [env.checkpoints.load_claim]
  split
  · next hc =>
      rw [hc]
      cases env.checkpoints.load st.checkpoints checkpointId with
      | none => rfl
      | some found =>
        simp only [Option.map_some, Option.any_some, AgentCheckpoint.claimed]
        cases hclaimable : found.status.claimable with
        | false => exact hclaimable
        | true => rfl
  · rfl

theorem isOpen_save (st : ResumeDrives σ) (copy : AgentCheckpoint) (c : String)
    (tasks : List ResumeDrive) (pauses : String → Option (String × String))
    (h : (ResumeDrives.mk st.store (env.checkpoints.save st.checkpoints copy) pauses
      tasks).isOpen env c = false) : st.isOpen env c = false ∨ c = copy.checkpointId := by
  unfold isOpen at h ⊢
  dsimp only at h
  rw [env.checkpoints.load_save] at h
  split at h
  · next hc => exact Or.inr hc
  · exact Or.inl h

variable {l : DriveStep}

theorem ownMove_of_move {stage : DriveStage} {checkpoints : σ}
    {pauses : String → Option (String × String)} (tasks : List ResumeDrive)
    (hsound : Sound owner b) (hspawned : b.spawned = true) (hsteady : st.SteadyAt env owner b l)
    (h : st.move env b l = some (.goes stage checkpoints pauses)) :
    (∀ c ∈ stage.checkpointId?, owner c = b.runId)
      ∧ (stage.node?.isSome = true → b.resume.target = .orchestration)
      ∧ OwnMove env owner st ⟨st.store, checkpoints, pauses, tasks⟩ b { b with stage } := by
  -- an error that goes on recovers the member
  have hraised : ∀ member e, (∀ m ∈ member, b.resume.target = .orchestration) →
      some (st.raised b member e) = some (.goes stage checkpoints pauses) →
      (∀ c ∈ stage.checkpointId?, owner c = b.runId)
        ∧ (stage.node?.isSome = true → b.resume.target = .orchestration)
        ∧ OwnMove env owner st ⟨st.store, checkpoints, pauses, tasks⟩ b { b with stage } := by
    intro member e htarget h
    rcases st.raised_cases b member e with ⟨_, hr, -⟩ | ⟨node, c, hmember, -, hr⟩ | ⟨hr, -⟩
    · rw [hr] at h
      cases h
    · rw [hr] at h
      cases h
      exact ⟨(fun _ hno => by cases hno), fun _ => htarget _ hmember, .of_same (fun _ => not_false) (fun _ => rfl) rfl⟩
    · rw [hr] at h
      cases h
  have hmember : ∀ m ∈ b.stage.member?, b.resume.target = .orchestration :=
    fun m hm => hsound.member (DriveStage.node?_of_member? hm)
  cases l with
  | build rt =>
    simp only [move] at h
    split at h <;> cases h
    next hstage =>
    refine ⟨(fun _ hno => by cases hno), (fun hno => by cases hno), .of_same (fun hnot => ?_) (fun _ => rfl) rfl⟩
    unfold Lost at hnot ⊢
    rw [hstage] at hnot
    exact hnot
  | look =>
    simp only [move] at h
    split at h <;> try (cases h)
    next rt hstage =>
    split at h
    · cases h
      exact ⟨(fun _ hno => by cases hno), (fun hno => by cases hno), .of_same (fun _ => not_false) (fun _ => rfl) rfl⟩
    · next checkpointId node hsought =>
        have htarget : node.isSome = true → b.resume.target = .orchestration := by
          intro hnode
          unfold sought at hsought
          split at hsought
          · cases hsought
            cases hnode
          · assumption
        split at h
        · refine hraised _ _ (fun m hm => ?_) h
          obtain ⟨n, rfl, -⟩ := Option.map_eq_some_iff.1 hm
          exact htarget rfl
        cases h
        have hown := hsteady.2 _ hsought
        refine ⟨fun c hc => by cases hc; exact hown, htarget,
          .of_same (fun hnot => ?_) (fun _ => rfl) rfl⟩
        · unfold sought at hsought
          split at hsought
          · next c heq =>
              cases hsought
              unfold Lost at hnot ⊢
              rw [hstage] at hnot
              dsimp only at hnot
              rw [heq] at hnot
              exact hnot
          · obtain ⟨pause, hpause, heq⟩ := Option.map_eq_some_iff.1 hsought
            cases heq
            exact fun hlost => hlost hpause
  | claimCheckpoint =>
    simp only [move] at h
    split at h <;> try (cases h)
    next rt checkpointId node hstage =>
    have hclaim : ∀ c, (ResumeDrives.mk st.store (env.checkpoints.claim st.checkpoints
        checkpointId).1 st.pauses tasks).isOpen env c = st.isOpen env c :=
      fun c => isOpen_claim st checkpointId c tasks st.pauses
    have hlocated := hsound.located checkpointId (by rw [hstage]; rfl)
    split at h
    · next heq =>
        cases h
        rw [heq] at hclaim
        refine ⟨fun c hc => by cases hc; exact hlocated, fun hnode => ?_,
          .of_same (fun _ => not_false) hclaim rfl⟩
        exact hsound.member (by rw [hstage]; exact hnode)
    · exact hraised _ _ hmember h
  | check =>
    simp only [move] at h
    split at h <;> try (cases h)
    next rt checkpointId node hstage =>
    have hlocated := hsound.located checkpointId (by rw [hstage]; rfl)
    split at h
    · exact hraised _ _ hmember h
    · next copy hload =>
        split at h
        · exact hraised _ _ hmember h
        · cases h
          refine ⟨fun c hc => ?_, fun hnode => hsound.member (by rw [hstage]; exact hnode),
            .of_same (fun _ => not_false) (fun _ => rfl) rfl⟩
          cases hc
          rw [env.checkpoints.load_id _ _ _ hload]
          exact hlocated
  | record results =>
    simp only [move] at h
    split at h <;> cases h
    next copy node hstage =>
    have hlocated := hsound.located copy.checkpointId (by rw [hstage]; rfl)
    refine ⟨fun c hc => by cases hc; exact hlocated,
      fun hnode => hsound.member (by rw [hstage]; exact hnode), fun _ => not_false, ?_,
      fun _ => Or.inl rfl⟩
    intro c hc
    rcases isOpen_save st _ c tasks _ hc with hold | rfl
    · exact Or.inl hold
    · exact Or.inr ⟨hlocated, not_false⟩
  | resolve =>
    simp only [move] at h
    split at h <;> cases h
    next copy node hstage =>
    have hlocated := hsound.located copy.checkpointId (by rw [hstage]; rfl)
    refine ⟨(fun _ hno => by cases hno), fun hnode => hsound.member (by rw [hstage]; exact hnode), fun _ => not_false,
      fun c hc => ?_, fun _ => Or.inl rfl⟩
    rcases isOpen_save st _ c tasks _ hc with hold | rfl
    · exact Or.inl hold
    · exact Or.inr ⟨hlocated, not_false⟩
  | advance next =>
    have hmoves : b.stage.node?.isSome = true → (∀ g, Function.update st.pauses
        b.resume.run.orchestrationCheckpointId next g = st.pauses g ∨ owner g = b.runId) := by
      intro hnode g
      have howned := hsound.owned hspawned
      rw [hsound.member hnode] at howned
      by_cases hg : g = b.resume.run.orchestrationCheckpointId
      · rw [hg]
        exact Or.inr howned
      · exact Or.inl (Function.update_of_ne hg _ _)
    simp only [move] at h
    split at h <;> cases h
    all_goals
      next hstage =>
      refine ⟨(fun _ hno => by cases hno), (fun hno => by cases hno), fun _ => not_false, fun _ hc => Or.inl hc, fun g => ?_⟩
      rcases hmoves (by rw [hstage]; rfl) g with hsame | hown
      · exact Or.inl hsame
      · exact Or.inr ⟨hown, not_false⟩
  | leave outcome =>
    simp only [move] at h
    split at h
    · split at h <;> cases h
      all_goals exact ⟨(fun _ hno => by cases hno), (fun hno => by cases hno), .of_same (fun _ => not_false) (fun _ => rfl) rfl⟩
    · cases h
  | raises e =>
    simp only [move] at h
    split at h
    · exact hraised _ _ hmember h
    · cases h
  | claim | decide | flip | load => cases h
  | buildFails | memberRemoved | finish | timesOut | cancel =>
    simp only [move] at h
    split at h <;> cases h
  | fail =>
    simp only [move] at h
    split at h
    · split at h <;> cases h
    · split at h <;> cases h

theorem Driven.moves (h : Driven env owner st) {i : Nat}
    (hb : st.tasks[i]? = some b) (hblive : b.live = true) {stage : DriveStage}
    {checkpoints : σ} {pauses : String → Option (String × String)}
    (hsteady : st.SteadyAt env owner b l)
    (hmove : st.move env b l = some (.goes stage checkpoints pauses)) :
    Driven env owner ⟨st.store, checkpoints, pauses, st.tasks.set i { b with stage }⟩ := by
  have hmem := List.mem_of_getElem? hb
  have hsound := h.sound b hmem
  have hspawned := hsound.spawned_of_live hblive
  obtain ⟨hlocated, hmember, hown⟩ :=
    ownMove_of_move (st.tasks.set i { b with stage }) hsound hspawned hsteady hmove
  have hnew : { b with stage } ∈ st.tasks.set i { b with stage } :=
    List.mem_of_getElem? (Parties.getElem?_set_of_some hb)
  refine ⟨fun d hd => ?_, fun d hd => ?_, fun d hd hds row hget hrunning => ?_⟩
  · rcases List.mem_or_eq_of_mem_set hd with hd | rfl
    · exact h.coherent d hd
    · exact h.coherent b hmem
  · rcases List.mem_or_eq_of_mem_set hd with hd | rfl
    · exact h.sound d hd
    · refine ⟨fun hs => ?_, hsound.late, hsound.owned, hlocated, hmember⟩
      rw [show b.spawned = false from hs] at hspawned
      cases hspawned
  · obtain ⟨d₀, hd₀, hds₀, hrun₀⟩ : ∃ d₀ ∈ st.tasks, d₀.spawned = true ∧ d₀.runId = d.runId := by
      rcases List.mem_or_eq_of_mem_set hd with hd | rfl
      · exact ⟨d, hd, hds, rfl⟩
      · exact ⟨b, hmem, hds, rfl⟩
    rw [← hrun₀] at hget ⊢
    obtain ⟨e, he, hrun, hlive, hnot⟩ := h.driven d₀ hd₀ hds₀ row hget hrunning
    by_cases heb : e = b
    · subst heb
      exact ⟨_, hnew, hrun, hlive, hown.kept hnot⟩
    · rcases hown.not_lost (h.sound e he) hlive hnot with hnot | ⟨hrun', hnot⟩
      · exact ⟨e, mem_set_of_ne hb he heb _, hrun, hlive, hnot⟩
      · exact ⟨_, hnew, hrun'.trans hrun, hblive, hnot⟩

theorem ends_of_move {r : ResumeStep}
    (hsteady : st.SteadyAt env owner b l) (h : st.move env b l = some (.ends r)) :
    (st.losesClaim env b l = false ∧ ∃ outcome, r = .finish outcome)
      ∨ (st.losesClaim env b l = true ∧ r = .alreadyResolved ∧ st.Lost env b) := by
  have hraised : ∀ member e, (member, e) ∈ st.errorAt env b l → st.raised b member e = .ends r →
      ∃ outcome, r = .finish outcome := by
    intro member e he hr
    rcases st.raised_cases b member e with ⟨outcome, hr', -⟩ | ⟨_, _, -, -, hr'⟩ | ⟨-, hnone, hpauses⟩
    · rw [hr'] at hr
      cases hr
      exact ⟨outcome, rfl⟩
    · rw [hr'] at hr
      cases hr
    · rcases hsteady.1 _ he with hsome | ⟨m, hm, hpause⟩
      · rw [hnone] at hsome
        cases hsome
      · exact absurd hpause (hpauses m hm)
  cases l with
  | claim | decide | flip | load => cases h
  | buildFails | memberRemoved | finish | timesOut =>
    simp only [move] at h
    split at h <;> cases h
    exact Or.inl ⟨rfl, _, rfl⟩
  | build | record | resolve | advance =>
    simp only [move] at h
    split at h <;> cases h
  | leave outcome =>
    simp only [move] at h
    split at h
    · split at h <;> cases h
    · cases h
  | look =>
    simp only [move] at h
    split at h <;> try (cases h)
    next rt hstage =>
    split at h
    · cases h
    · next hsought =>
        split at h
        · next e he =>
            refine Or.inl ⟨rfl, hraised _ e ?_ (Option.some.inj h)⟩
            simp only [errorAt, hstage, hsought, Option.bind_some, he]
            rfl
        · cases h
  | check =>
    simp only [move] at h
    split at h <;> try (cases h)
    next rt checkpointId node hstage =>
    split at h
    · next hload =>
        refine Or.inl ⟨rfl, hraised _ _ ?_ (Option.some.inj h)⟩
        simp only [errorAt, hstage, hload]
        rfl
    · next hload =>
        split at h
        · next e he =>
            refine Or.inl ⟨rfl, hraised _ e ?_ (Option.some.inj h)⟩
            simp only [errorAt, hstage, hload, he]
            rfl
        · cases h
  | raises e =>
    simp only [move] at h
    split at h
    · exact Or.inl ⟨rfl, hraised _ e rfl (Option.some.inj h)⟩
    · cases h
  | cancel =>
    simp only [move, show b.stage.inDrive = true from hsteady.2, if_true] at h
    cases h
    exact Or.inl ⟨rfl, _, rfl⟩
  | fail => exact absurd hsteady.2 not_false
  | claimCheckpoint =>
    simp only [move] at h
    split at h <;> try (cases h)
    next rt checkpointId node hstage =>
    split at h
    · cases h
    next checkpoints hclaim =>
    have hlost : (env.checkpoints.claim st.checkpoints checkpointId).2 = false := by rw [hclaim]
    have hclosed : st.isOpen env checkpointId = false := by
      unfold isOpen
      rw [Option.any_eq_false]
      intro found hload
      cases hclaimable : found.status.claimable with
      | false => simp
      | true =>
        rw [(env.checkpoints.claim_won _ _).2 ⟨found, hload, hclaimable⟩] at hlost
        cases hlost
    rcases st.raised_cases b b.stage.member? (claimLoss checkpointId
      (env.checkpoints.load st.checkpoints checkpointId)) with
      ⟨_, -, hsettles⟩ | ⟨_, _, -, -, hr⟩ | ⟨hr, -, hpauses⟩
    · rw [ResumeTarget.settles_claimLoss] at hsettles
      cases hsettles
    · rw [hr] at h
      cases h
    · rw [hr] at h
      cases h
      rw [hstage] at hpauses
      cases node with
      | none =>
        refine Or.inr ⟨?_, rfl, ?_⟩
        · simp only [losesClaim, hstage, hlost]
          rfl
        · unfold Lost
          rw [hstage]
          exact hclosed
      | some n =>
        have hpause := hpauses (n, checkpointId) rfl
        refine Or.inr ⟨?_, rfl, ?_⟩
        · simp only [losesClaim, hstage, hlost]
          exact decide_eq_true hpause
        · unfold Lost
          rw [hstage]
          exact hpause

theorem live_of_ready (h : ready b l = true) : b.live = true := by
  have hloaded : b.loaded = true → b.live = true := by
    unfold loaded live
    intro h
    split at h <;> simp_all
  unfold ready at h
  split at h
  · exact h
  · exact h
  · exact hloaded h

variable {ρ : Resume}

theorem Driven.joins (h : Driven env owner st) (hρ : ρ.Coherent st.store.records)
    (hstage : ρ.stage = .loaded) : Driven env owner { st with tasks := st.tasks ++ [{ resume := ρ }] } := by
  refine ⟨fun d hd => ?_, fun d hd => ?_, fun d hd hspawned row hget hrunning => ?_⟩
  · rcases List.mem_append.1 hd with hd | hd
    · exact h.coherent d hd
    · rw [List.mem_singleton.1 hd]
      exact hρ
  · rcases List.mem_append.1 hd with hd | hd
    · exact h.sound d hd
    · rw [List.mem_singleton.1 hd]
      refine ⟨fun _ => ⟨?_, rfl⟩, fun hs => ?_, fun hs => ?_, nofun, nofun⟩
      · simp [live, hstage]
      · cases hs
      · cases hs
  · rcases List.mem_append.1 hd with hd | hd
    · obtain ⟨e, he, hrest⟩ := h.driven d hd hspawned row hget hrunning
      exact ⟨e, List.mem_append_left _ he, hrest⟩
    · rw [List.mem_singleton.1 hd] at hspawned
      cases hspawned

theorem Driven.writes (h : Driven env owner st) {s' : SqliteRunStore} {rec old : RunRecord}
    (hrec : s'.records = st.store.records.put rec) (hget : st.store.records.get? rec.runId = some old)
    (hsame : SameRun rec old) (hstatus : rec.status ≠ .running) :
    Driven env owner { st with store := s' } := by
  refine ⟨fun d hd => ?_, h.sound, fun d hd hspawned row hrow hrunning => ?_⟩
  · refine (h.coherent d hd).mono ?_
    rw [hrec]
    exact RunTable.Persists.put hget hsame
  · dsimp only at hrow
    rw [hrec, get?_put] at hrow
    split at hrow
    · cases hrow
      exact absurd hrunning hstatus
    · exact h.driven d hd hspawned row hrow hrunning

theorem Driven.pauses (h : Driven env owner st) {checkpoint : AgentCheckpoint}
    (hfresh : env.checkpoints.load st.checkpoints checkpoint.checkpointId = none) :
    Driven env owner { st with checkpoints := env.checkpoints.save st.checkpoints checkpoint } := by
  refine ⟨h.coherent, h.sound, fun d hd hspawned row hget hrunning => ?_⟩
  obtain ⟨e, he, hrun, hlive, hnot⟩ := h.driven d hd hspawned row hget hrunning
  refine ⟨e, he, hrun, hlive, fun hlost => hnot ?_⟩
  have hclosed : ∀ c, (ResumeDrives.mk st.store (env.checkpoints.save st.checkpoints checkpoint)
      st.pauses st.tasks).isOpen env c = false → st.isOpen env c = false := by
    intro c hc
    rcases isOpen_save st checkpoint c st.tasks st.pauses hc with hc | rfl
    · exact hc
    · unfold isOpen
      rw [hfresh]
      rfl
  unfold Lost at hlost ⊢
  split at hlost
  · split at hlost
    · exact hclosed _ hlost
    · exact hlost
  · split at hlost
    · exact hclosed _ hlost
    · exact hlost
  · exact hclosed _ hlost
  · exact hlost
  · exact hlost

theorem Driven.step {st' : ResumeDrives σ} {e : Instant × DriveEvent} (h : Driven env owner st)
    (hsteady : Steady env owner st e) (hstep : (resumeDrives env).step st e = some st') :
    Driven env owner st' := by
  obtain ⟨now, a⟩ := e
  cases a with
  | resume runId approved workspaceId actor =>
    simp only [resumeDrives, ResumeDrives.step] at hstep
    split at hstep <;> cases hstep
    · next run target hload =>
        obtain ⟨hget, -⟩ := resumeLoad_eq_ok.1 hload
        have hid : run.runId = runId := key_of_get? hget
        refine h.joins ⟨⟨run, ?_, SameRun.refl run⟩, fun r hr => ?_⟩ rfl
        · dsimp only
          rw [hid]
          exact hget
        · cases hr
    · exact h
  | reopen runId =>
    simp only [resumeDrives, ResumeDrives.step] at hstep
    split at hstep
    · next run hget =>
        split at hstep
        · obtain ⟨s', hs', rfl⟩ := Option.map_eq_some_iff.1 hstep
          rw [st.store.getRun_eq] at hget
          have hid : run.runId = runId := key_of_get? hget
          rw [← hid] at hget
          exact h.writes (SqliteRunStore.saveRun_records hs') hget ⟨rfl, rfl, rfl, rfl⟩
            (by simp [RunRecord.reopened, RunRecord.stamped])
        · cases hstep
    · cases hstep
  | pause checkpoint =>
    simp only [resumeDrives, ResumeDrives.step] at hstep
    split at hstep
    · next hfresh =>
        cases hstep
        rw [Bool.and_eq_true, Option.isNone_iff_eq_none] at hfresh
        exact h.pauses hfresh.1
    · cases hstep
  | task i l =>
    simp only [resumeDrives, ResumeDrives.step] at hstep
    obtain ⟨b, hb, hstep⟩ := Option.bind_eq_some_iff.1 hstep
    have hat : st.SteadyAt env owner b l := hsteady b hb
    split at hstep
    · next r hr =>
        obtain ⟨p, hp, rfl⟩ := Option.map_eq_some_iff.1 hstep
        refine h.stepped hb hp ?_ ?_ ?_
        · rintro rfl
          cases l <;> cases hr
          exact hat.2
        · rintro rfl
          cases l <;> cases hr
        · rintro rfl
          cases l <;> cases hr
    · split at hstep
      · next hready =>
          obtain ⟨m, hm, hmoved⟩ := Option.bind_eq_some_iff.1 hstep
          have hlive := live_of_ready hready
          cases m with
          | goes stage checkpoints pauses =>
            cases hmoved
            exact h.moves hb hlive hat hm
          | ends r =>
            obtain ⟨p, hp, rfl⟩ := Option.map_eq_some_iff.1 hmoved
            rcases ends_of_move hat hm with ⟨-, outcome, rfl⟩ | ⟨-, rfl, hlost⟩
            · exact h.stepped hb hp (fun hl => by cases hl) (fun hl => by cases hl) (by simp)
            · exact h.stepped hb hp (fun hl => by cases hl) (fun _ => hlost) (by simp)
      · cases hstep

/-! ## The ends of the tasks -/

theorem store_of_alreadyResolved {renv : ResumeEnv} {s : SqliteRunStore}
    (h : ρ.step renv s now .alreadyResolved = some p) : p.1 = s := by
  simp only [Resume.step, Resume.advance] at h
  split at h <;> cases h
  rfl

theorem settled_of_finish {renv : ResumeEnv} {s : SqliteRunStore}
    {outcome : DriveOutcome} (hρ : ρ.Coherent s.records)
    (h : ρ.step renv s now (.finish outcome) = some p) :
    ∃ row, p.1.records.get? ρ.run.runId = some row ∧ row.status.settled = true := by
  obtain ⟨s', ρ'⟩ := p
  have heff := Resume.effect_of_step hρ h
  dsimp only at heff ⊢
  generalize s'.records = t' at heff ⊢
  cases heff with
  | @finishes _ run hstage =>
    have hid : (outcome.apply .resume run now).runId = ρ.run.runId :=
      (SameClaim.apply .resume outcome run now).runId.trans (hρ.background run hstage).runId
    refine ⟨(outcome.apply .resume run now).stamped now, ?_, outcome.settled_apply .resume run now⟩
    rw [← hid]
    exact get?_put_self _ _
  | stops hl => rcases hl with hl | hl | hl <;> cases hl

theorem live_of_ofResume {r : ResumeStep} (hr : l.ofResume = some r)
    (hb : b.resume.Coherent st.store.records)
    (hlive : b.live = true) (h : b.resume.step env.resume st.store now r = some p) :
    (afterStep b p.2).live = true := by
  have heff := Resume.effect_of_step hb h
  have hflip : r ≠ .flip := by
    rintro rfl
    rw [not_live_of_flip h] at hlive
    cases hlive
  obtain ⟨s', ρ'⟩ := p
  dsimp only at heff ⊢
  generalize s'.records = t' at heff
  cases heff with
  | claims hstage | loses hstage | decides hstage | flips hstage =>
    simp [live, hstage] at hlive
  | loads => rfl
  | finishes => cases l <;> cases hr
  | stops hl =>
    rcases hl with rfl | rfl | rfl
    · exact absurd rfl hflip
    · cases l <;> cases hr
    · cases l <;> cases hr

theorem Driven.endsSettled {e : Instant × DriveEvent} (h : Driven env owner st)
    (hsteady : Steady env owner st e) : EndsSettled env st e := by
  obtain ⟨now, a⟩ := e
  cases a with
  | resume | reopen | pause => trivial
  | task i l =>
    intro b hb hlive st' hstep b' hb' hdead
    have hcoherent := h.coherent b (List.mem_of_getElem? hb)
    have hat : st.SteadyAt env owner b l := hsteady b hb
    simp only [resumeDrives, ResumeDrives.step] at hstep
    rw [Option.mem_def.1 hb, Option.bind_some] at hstep
    have hset : ∀ b₁ : ResumeDrive, (st.tasks.set i b₁)[i]? = some b₁ :=
      fun _ => Parties.getElem?_set_of_some hb
    split at hstep
    · next r hr =>
        obtain ⟨p, hp, rfl⟩ := Option.map_eq_some_iff.1 hstep
        obtain rfl := Option.some.inj ((hset _).symm.trans hb')
        have halive := live_of_ofResume hr hcoherent hlive hp
        rw [show (afterStep b p.2).live = false from hdead] at halive
        cases halive
    split at hstep
    · obtain ⟨m, hm, hmoved⟩ := Option.bind_eq_some_iff.1 hstep
      cases m with
      | goes stage checkpoints pauses =>
        cases hmoved
        obtain rfl := Option.some.inj ((hset _).symm.trans hb')
        rw [show b.live = false from hdead] at hlive
        cases hlive
      | ends r =>
        obtain ⟨p, hp, rfl⟩ := Option.map_eq_some_iff.1 hmoved
        rcases ends_of_move hat hm with ⟨hloss, outcome, rfl⟩ | ⟨hloss, rfl, -⟩
        · rw [hloss, if_neg Bool.false_ne_true]
          exact settled_of_finish hcoherent hp
        · rw [hloss, if_pos rfl]
          exact store_of_alreadyResolved hp
    · cases hstep

end ResumeDrives

/-- No task strands its run. -/
structure NeverStrands (st₀ : ResumeDrives σ) (es : List (Instant × DriveEvent)) : Prop where
  ends : (resumeDrives env).AlongRun (ResumeDrives.EndsSettled env) st₀ es
  driven : ∀ pre post st, es = pre ++ post → (resumeDrives env).exec st₀ pre = some st → st.AllDriven

/-- **Resumes settle their runs.** From any stores, in every run of the resumes whose steps meet the
    condition, each task that ends leaves its run settled, or it lost the claim of its checkpoint and
    leaves the store as it is; and in every state of the run, a run that a resume marked `RUNNING`
    and that still is has a live task. -/
theorem resumes_settle (owner : String → String) (store : SqliteRunStore) (checkpoints : σ)
    (pauses : String → Option (String × String)) (es : List (Instant × DriveEvent))
    (h : (resumeDrives env).AlongRun (ResumeDrives.Steady env owner)
      ⟨store, checkpoints, pauses, []⟩ es) :
    NeverStrands env ⟨store, checkpoints, pauses, []⟩ es := by
  have hstart : ResumeDrives.Driven env owner ⟨store, checkpoints, pauses, []⟩ :=
    ResumeDrives.driven_start store checkpoints pauses
  refine ⟨(resumeDrives env).alongRun_of_invariant (fun st e st' hI hC hs => hI.step hC hs)
    (fun st e hI hC => hI.endsSettled hC) hstart h, ?_⟩
  rintro pre post st rfl hpre
  exact ((resumeDrives env).exec_invariant (fun st e st' hI hC hs => hI.step hC hs) hstart h.prefix
    hpre).allDriven

end

/-! ## Concrete runs -/

private def serving : DriveEnv InMemoryCheckpoints :=
  { resume := { checkpointStore := true, agentResolver := some (fun _ _ => true) }
    checkpoints := inMemoryCheckpointStore
    body := fun _ => {} }

private def heldRun : RunRecord :=
  { runId := "run", workspaceId := "w", subjectId := "s", status := .awaitingApproval,
    metadata := Dict.set (Dict.set empty "agent_id" (.str "agent")) "checkpoint_id"
      (.str "checkpoint"), createdAt := 0, updatedAt := 0 }

private def paused (checkpoints : InMemoryCheckpoints) : ResumeDrives InMemoryCheckpoints :=
  ⟨(SqliteRunStore.empty.saveRun heldRun 0).getD .empty, checkpoints, fun _ => none, []⟩

/-- Two resumes of a run that was opened again in between: the second loses its claim to the first. -/
private def race : List (Instant × DriveEvent) :=
  [(1, .resume "run" true none "user"), (1, .task 0 .claim), (1, .task 0 .decide), (2, .reopen "run"),
    (2, .resume "run" true none "other"), (2, .task 1 .claim), (2, .task 1 .decide),
    (3, .task 0 .flip), (3, .task 1 .flip), (4, .task 0 .load), (4, .task 0 (.build {})),
    (4, .task 0 .look), (4, .task 0 .claimCheckpoint), (4, .task 0 .check), (5, .task 0 .resolve),
    (6, .task 1 .load), (6, .task 1 (.build {})), (6, .task 1 .look), (6, .task 1 .claimCheckpoint),
    (7, .task 0 (.leave (.succeeded { threadId := "thread" }))), (7, .task 0 .finish)]

theorem resumes_settle_race : NeverStrands serving
      (paused (empty.put { checkpointId := "checkpoint" : AgentCheckpoint })) race :=
  resumes_settle serving (fun _ => "run") _ _ _ race (by decide +kernel)

private def gone : List (Instant × DriveEvent) :=
  [(1, .resume "run" true none "user"), (1, .task 0 .claim), (1, .task 0 .decide), (1, .task 0 .flip),
    (2, .task 0 .load), (2, .task 0 (.build {})), (2, .task 0 .look)]

/-- The task of a resume takes the missing checkpoint for a lost claim: the run stays `RUNNING`, and
    nothing drives it. -/
theorem resume_strands_run : ¬ NeverStrands serving (paused empty) gone := by
  intro h
  obtain ⟨st, hst⟩ : ∃ st, (resumeDrives serving).exec (paused empty) gone = some st :=
    Option.isSome_iff_exists.1 (by decide +kernel)
  have hfacts : ((resumeDrives serving).exec (paused empty) gone).map (fun st =>
      ((st.tasks.map (fun b => (b.spawned, b.runId, b.live))),
        (st.store.records.get? "run").map RunRecord.status))
      = some ([(true, "run", false)], some .running) := by
    decide +kernel
  rw [hst, Option.map_some, Option.some.injEq, Prod.mk.injEq] at hfacts
  obtain ⟨htasks, hrow⟩ := hfacts
  obtain ⟨b, hb, hfields⟩ := List.map_eq_singleton_iff.1 htasks
  obtain ⟨row, hget, hrunning⟩ := Option.map_eq_some_iff.1 hrow
  obtain ⟨hspawned, hid, hdead⟩ : b.spawned = true ∧ b.runId = "run" ∧ b.live = false := by
    simpa using hfields
  obtain ⟨d, hd, -, hlive⟩ := h.driven gone [] st (by simp) hst b (by simp [hb]) hspawned row
    (by rw [hid]; exact hget) hrunning
  rw [hb, List.mem_singleton] at hd
  rw [hd, hdead] at hlive
  cases hlive

end Himmy
