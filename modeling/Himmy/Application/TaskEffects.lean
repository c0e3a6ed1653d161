import Himmy.Application.Fleet

/-! # What a step of a task does

`Worker.Effect` and `Resume.Effect` say once, for each step, what it does to the table of records
and to the task that takes it. A task on a stored run stays on it, so no save of a task is
refused. -/

namespace Himmy

open SameClaim (rehydrationFailed markedRunning apply stamped)
open Worker (advance step)

/-! ## Records of one run -/

/-- Two records of one run: what no write of the service ever changes. -/
structure SameRun (a b : RunRecord) : Prop where
  runId : a.runId = b.runId
  workspaceId : a.workspaceId = b.workspaceId
  idempotencyKey : a.idempotencyKey = b.idempotencyKey
  maxAttempts : a.maxAttempts = b.maxAttempts

namespace SameRun

theorem refl (a : RunRecord) : SameRun a a := ⟨rfl, rfl, rfl, rfl⟩

theorem symm {a b : RunRecord} (h : SameRun a b) : SameRun b a :=
  ⟨h.1.symm, h.2.symm, h.3.symm, h.4.symm⟩

theorem trans {a b c : RunRecord} (h : SameRun a b) (h' : SameRun b c) : SameRun a c :=
  ⟨h.1.trans h'.1, h.2.trans h'.2, h.3.trans h'.3, h.4.trans h'.4⟩

theorem of_sameClaim {a b : RunRecord} (h : SameClaim a b) : SameRun a b :=
  ⟨h.runId, h.workspaceId, h.idempotencyKey, h.maxAttempts⟩

theorem of_applyRetryPolicy {run saved : RunRecord} {now : Instant}
    (h : applyRetryPolicy run now = some saved) : SameRun saved run := by
  obtain ⟨-, -, ⟨-, rfl⟩ | rfl⟩ := applyRetryPolicy_cases h <;> exact ⟨rfl, rfl, rfl, rfl⟩

end SameRun

def RunTable.Persists (t t' : RunTable) : Prop :=
  ∀ runId row, t.get? runId = some row → ∃ row', t'.get? runId = some row' ∧ SameRun row' row

namespace RunTable

theorem Persists.refl (t : RunTable) : t.Persists t := fun _ row h => ⟨row, h, SameRun.refl row⟩

theorem Persists.put {t : RunTable} {rec row : RunRecord} (hget : t.get? rec.runId = some row)
    (hsame : SameRun rec row) : t.Persists (t.put rec) := by
  intro runId old hold
  rw [KeyedList.get?_put]
  split
  · next h => rw [h, hget] at hold; cases hold; exact ⟨rec, rfl, hsame⟩
  · exact ⟨old, hold, SameRun.refl old⟩

theorem Persists.put_of_none {t : RunTable} {rec : RunRecord} (hget : t.get? rec.runId = none) :
    t.Persists (t.put rec) := by
  intro runId old hold
  rw [KeyedList.get?_put_of_ne _ _ (fun h => by rw [h, hget] at hold; cases hold)]
  exact ⟨old, hold, SameRun.refl old⟩

theorem Persists.requeueExpired (t : RunTable) (now : Instant) (lanes : Option (List String)) :
    t.Persists (t.requeueExpired now lanes) := by
  intro runId row hget
  rw [RunTable.get?_requeueExpired, hget]
  refine ⟨_, rfl, ?_⟩
  dsimp only
  split <;> exact ⟨rfl, rfl, rfl, rfl⟩

end RunTable

/-! ## Steps that save -/

theorem SqliteRunStore.perform_of_stored {τ : Type} (s : SqliteRunStore) (now : Instant)
    (p : Progress τ) (abandon : τ → τ)
    (h : ∀ run, p.save = some run → ∃ row, s.records.get? run.runId = some row ∧ SameRun row run) :
    (s.perform now p abandon).2 = p.task ∧ (s.perform now p abandon).1.records = match p.save with
        | none => s.records
        | some run => s.records.put (run.stamped now) := by
  unfold perform
  cases hsave : p.save with
  | none => exact ⟨rfl, rfl⟩
  | some run =>
    obtain ⟨row, hget, hsame⟩ := h run hsave
    obtain ⟨s', hs'⟩ := saveRun_isSome now hget hsame.workspaceId hsame.idempotencyKey
    dsimp only
    rw [hs']
    exact ⟨rfl, saveRun_records hs'⟩

/-! ## Workers -/

/-- The worker's run is stored. -/
structure Worker.Coherent (t : RunTable) (w : Worker) : Prop where
  held : ∃ row, t.get? w.run.runId = some row ∧ SameRun row w.run
  deciding : ∀ run, w.stage = .deciding run → SameRun run w.run

theorem Worker.Coherent.mono {t t' : RunTable} {w : Worker} (h : w.Coherent t)
    (hmono : t.Persists t') : w.Coherent t' := by
  obtain ⟨row, hget, hsame⟩ := h.held
  obtain ⟨row', hget', hsame'⟩ := hmono _ _ hget
  exact ⟨⟨row', hget', hsame'.trans hsame⟩, h.deciding⟩

/-- The steps at which a worker writes its record, or the policy's, to the store. -/
def Worker.saves (w : Worker) : WorkerStep → Bool
  | .rehydrate exc => (rehydrationError w.run exc).isSome
  | .resolveMembers resolverWired removed => (membersError w.run resolverWired removed).isSome
  | .markRunning => true
  | .finish _ => true
  | .saveRetry => true
  | _ => false

/-- What a step of a worker does. -/
inductive Worker.Effect (t : RunTable) (now : Instant) (w : Worker) :
    WorkerStep → RunTable → Worker → Prop
  | renews {row : RunRecord} (hactive : w.isDone = false) (hget : t.get? w.run.runId = some row)
      (hleased : row.leasedTo w.ownerId = true) :
      Effect t now w .heartbeat (t.put (row.renewed (isoPlusSeconds now w.lease) now))
        { w with deadline := isoPlusSeconds now w.lease }
  | stopsBeating (hactive : w.isDone = false) :
      Effect t now w .heartbeat t { w with beating := false }
  | waits {l : WorkerStep} (hstage : w.stage = .claimed) (hsaves : w.saves l = false) :
      Effect t now w l t { w with stage := .waiting }
  | rereads {row : RunRecord} (hstage : w.stage = .waiting)
      (hget : t.get? w.run.runId = some row) :
      Effect t now w .reread t { w with run := row, stage := .ready }
  | fails {l : WorkerStep} {error : String} {next : WorkerStage} (hstage : w.stage = .claimed)
      (hnext : next = .settled ∨ next = .done) (hsaves : w.saves l = true)
      (hl : (∃ exc, l = .rehydrate exc) ∨ ∃ wired removed, l = .resolveMembers wired removed) :
      Effect t now w l (t.put ((w.run.rehydrationFailed error now).stamped now))
        { w with run := (w.run.rehydrationFailed error now).stamped now, stage := next }
  | marks (hstage : w.stage = .waiting ∨ w.stage = .ready) :
      Effect t now w .markRunning (t.put ((w.run.markedRunning now).stamped now))
        { w with run := (w.run.markedRunning now).stamped now, stage := .driving }
  | finishes {outcome : DriveOutcome} {next : WorkerStage} (hstage : w.stage = .driving)
      (hnext : next = .settled ∨ (outcome = .cancelled ∧ next = .done)) :
      Effect t now w (.finish outcome) (t.put ((outcome.apply .dispatch w.run now).stamped now))
        { w with run := (outcome.apply .dispatch w.run now).stamped now, stage := next }
  | reads {row : RunRecord} (hstage : w.stage = .settled) (hget : t.get? w.run.runId = some row)
      (hfailed : row.status = .failed) (htransient : row.failsTransiently = true) :
      Effect t now w .readForRetry t { w with stage := .deciding row }
  | passes {row : RunRecord} (hstage : w.stage = .settled)
      (hget : t.get? w.run.runId = some row)
      (hpass : ¬ (row.status = .failed ∧ row.failsTransiently = true)) :
      Effect t now w .readForRetry t { w with stage := .done }
  | retries {run saved : RunRecord} (hstage : w.stage = .deciding run)
      (hsave : applyRetryPolicy run now = some saved) :
      Effect t now w .saveRetry (t.put (saved.stamped now)) { w with stage := .done }
  | gives {run : RunRecord} (hstage : w.stage = .deciding run)
      (hsave : applyRetryPolicy run now = none) :
      Effect t now w .saveRetry t { w with stage := .done }
  | crashes (hactive : w.isDone = false) : Effect t now w .crash t { w with stage := .done }

private theorem Worker.effect_of_advance {t : RunTable} {now : Instant} {w : Worker}
    {l : WorkerStep} {p : Progress Worker} (hw : w.Coherent t)
    (h : w.advance (t.get? w.run.runId) now l = some p) : w.Effect t now l (match p.save with
      | none => t
      | some run => t.put (run.stamped now)) p.task
      ∧ ∀ run, p.save = some run → SameRun run w.run := by
  obtain ⟨row, hget, -⟩ := hw.held
  rw [hget] at h
  cases l with
  | heartbeat => cases h
  | rehydrate exc =>
    simp only [advance] at h
    split at h <;> try (cases h)
    next hstage =>
    split at h <;> try (cases h)
    split at h <;> cases h
    · next error herror =>
        exact ⟨.fails hstage (Or.inr rfl) (by simp [Worker.saves, herror]) (Or.inl ⟨exc, rfl⟩),
          fun run hrun => by
            cases hrun; exact SameRun.of_sameClaim (rehydrationFailed _ _ _)⟩
    · next hnone => exact ⟨.waits hstage (by simp [Worker.saves, hnone]), by simp⟩
  | resolveMembers wired removed =>
    simp only [advance] at h
    split at h <;> try (cases h)
    next hstage =>
    split at h <;> try (cases h)
    split at h <;> cases h
    · next error herror =>
        exact ⟨.fails hstage (Or.inl rfl) (by simp [Worker.saves, herror])
          (Or.inr ⟨wired, removed, rfl⟩), fun run hrun => by
            cases hrun; exact SameRun.of_sameClaim (rehydrationFailed _ _ _)⟩
    · next hnone => exact ⟨.waits hstage (by simp [Worker.saves, hnone]), by simp⟩
  | reread =>
    simp only [advance] at h
    split at h <;> try (cases h)
    next hstage =>
    split at h <;> cases h
    exact ⟨.rereads hstage hget, by simp⟩
  | markRunning =>
    simp only [advance, advance.mark] at h
    split at h
    · next hstage =>
        split at h <;> cases h
        exact ⟨.marks (Or.inl hstage), fun run hrun => by
          cases hrun; exact SameRun.of_sameClaim (markedRunning _ _)⟩
    · next hstage =>
        cases h
        exact ⟨.marks (Or.inr hstage), fun run hrun => by
          cases hrun; exact SameRun.of_sameClaim (markedRunning _ _)⟩
    · cases h
  | finish outcome =>
    simp only [advance] at h
    split at h <;> cases h
    next hstage =>
    refine ⟨.finishes hstage ?_, fun run hrun => by
      cases hrun; exact SameRun.of_sameClaim (apply _ _ _ _)⟩
    cases outcome <;> simp
  | readForRetry =>
    simp only [advance] at h
    split at h <;> try (cases h)
    next hstage =>
    split at h <;> cases h
    · next hfail =>
        simp only [Bool.and_eq_true, decide_eq_true_eq] at hfail
        exact ⟨.reads hstage hget hfail.1 hfail.2, by simp⟩
    · next hfail =>
        simp only [Bool.and_eq_true, decide_eq_true_eq] at hfail
        exact ⟨.passes hstage hget hfail, by simp⟩
  | saveRetry =>
    simp only [advance] at h
    split at h <;> cases h
    next run hstage =>
    dsimp only
    cases hsave : applyRetryPolicy run now with
    | none => exact ⟨.gives hstage hsave, by simp⟩
    | some saved =>
      refine ⟨.retries hstage hsave, fun run' hrun => ?_⟩
      cases hrun
      exact (SameRun.of_applyRetryPolicy hsave).trans (hw.deciding run hstage)
  | crash =>
    simp only [advance] at h
    split at h <;> cases h
    next hstage =>
    refine ⟨.crashes ?_, by simp⟩
    unfold Worker.isDone
    split
    · next hdone => exact absurd hdone hstage
    · rfl

theorem Worker.effect_of_step {s s' : SqliteRunStore} {now : Instant} {w w' : Worker}
    {l : WorkerStep} (hw : w.Coherent s.records) (h : w.step s now l = some (s', w')) :
    w.Effect s.records now l s'.records w' := by
  by_cases hl : l = .heartbeat
  · subst hl
    simp only [step] at h
    split at h
    · cases h
    · next hactive =>
        have hactive' : w.isDone = false := by
          cases hd : w.isDone with
          | false => rfl
          | true => simp [hd] at hactive
        have hrenew := s.renewLease_records w.run.runId w.ownerId w.lease now
        rcases KeyedList.updateIf_cases hrenew with
          ⟨hok, row, hget, hleased, hrec⟩ | ⟨hok, hrec⟩
        · rw [← Prod.mk.eta (p := s.renewLease w.run.runId w.ownerId w.lease now), hok] at h
          cases h
          rw [hrec]
          exact .renews hactive' hget hleased
        · rw [← Prod.mk.eta (p := s.renewLease w.run.runId w.ownerId w.lease now), hok] at h
          cases h
          rw [hrec]
          exact .stopsBeating hactive'
  · have hadv : ∃ p, w.advance (s.records.get? w.run.runId) now l = some p
        ∧ s.perform now p (fun w => { w with stage := .done }) = (s', w') := by
      rw [← s.getRun_eq]
      cases l with
      | heartbeat => exact absurd rfl hl
      | _ => exact Option.map_eq_some_iff.1 h
    obtain ⟨p, hp, hperf⟩ := hadv
    obtain ⟨heff, hsame⟩ := Worker.effect_of_advance hw hp
    obtain ⟨row, hget, hrow⟩ := hw.held
    obtain ⟨htask, hrec⟩ := s.perform_of_stored now p
      (fun w : Worker => { w with stage := .done }) (fun run hrun => by
        have hrun' := hsame run hrun
        exact ⟨row, by rw [hrun'.runId]; exact hget, hrow.trans hrun'.symm⟩)
    rw [hperf] at htask hrec
    dsimp only at htask hrec
    rw [htask, hrec]
    exact heff

namespace Worker.Effect

variable {t t' : RunTable} {now : Instant} {w w' : Worker} {l : WorkerStep}

theorem active (h : w.Effect t now l t' w') : w.isDone = false := by
  cases h with
  | renews hactive | stopsBeating hactive | crashes hactive => exact hactive
  | marks hstage => rcases hstage with hs | hs <;> simp [isDone, hs]
  | waits hstage _ | rereads hstage | fails hstage | finishes hstage | reads hstage | passes hstage
  | retries hstage | gives hstage => simp [isDone, hstage]

theorem table_cases (h : w.Effect t now l t' w') (hw : w.Coherent t) :
    t' = t ∨ ∃ rec, t' = t.put rec ∧ SameRun rec w.run := by
  obtain ⟨row, hget, hrow⟩ := hw.held
  cases h with
  | renews _ hget' _ =>
    rw [hget] at hget'; cases hget'
    exact Or.inr ⟨_, rfl, ⟨hrow.runId, hrow.workspaceId, hrow.idempotencyKey, hrow.maxAttempts⟩⟩
  | fails | marks => exact Or.inr ⟨_, rfl, ⟨rfl, rfl, rfl, rfl⟩⟩
  | finishes => exact Or.inr ⟨_, rfl, SameRun.of_sameClaim
      ((stamped _ _).trans (apply _ _ _ _))⟩
  | retries hstage hsave => exact Or.inr ⟨_, rfl, (SameRun.of_sameClaim (stamped _ _)).trans
      ((SameRun.of_applyRetryPolicy hsave).trans (hw.deciding _ hstage))⟩
  | _ => exact Or.inl rfl

theorem get?_of_ne (h : w.Effect t now l t' w') (hw : w.Coherent t) {r : String}
    (hne : w.run.runId ≠ r) : t'.get? r = t.get? r := by
  rcases h.table_cases hw with rfl | ⟨rec, rfl, hrec⟩
  · rfl
  · exact KeyedList.get?_put_of_ne _ _ (fun he => hne (hrec.runId.symm.trans he.symm))

theorem table_of_not_saves (h : w.Effect t now l t' w') (hsaves : w.saves l = false)
    (hbeat : l = .heartbeat →
      ∀ row, t.get? w.run.runId = some row → row.ownerId ≠ some w.ownerId) : t' = t := by
  cases h with
  | renews _ hget hleased =>
    simp only [RunRecord.leasedTo, Bool.and_eq_true, decide_eq_true_eq] at hleased
    exact absurd hleased.1 (hbeat rfl _ hget)
  | fails _ _ htrue => rw [htrue] at hsaves; cases hsaves
  | marks | finishes | retries => cases hsaves
  | _ => rfl

theorem persists (h : w.Effect t now l t' w') (hw : w.Coherent t) : t.Persists t' := by
  obtain ⟨row, hget, hrow⟩ := hw.held
  rcases h.table_cases hw with rfl | ⟨rec, rfl, hrec⟩
  · exact RunTable.Persists.refl t'
  · exact RunTable.Persists.put (by rw [hrec.runId]; exact hget) (hrec.trans hrow.symm)

theorem sameRun (h : w.Effect t now l t' w') (hw : w.Coherent t) : SameRun w'.run w.run := by
  obtain ⟨row, hget, hrow⟩ := hw.held
  cases h with
  | rereads _ hget' => rw [hget] at hget'; cases hget'; exact hrow
  | fails | marks => exact ⟨rfl, rfl, rfl, rfl⟩
  | finishes => exact SameRun.of_sameClaim ((stamped _ _).trans (apply _ _ _ _))
  | _ => exact SameRun.refl _

theorem coherent (h : w.Effect t now l t' w') (hw : w.Coherent t) : w'.Coherent t' := by
  have hsame := h.sameRun hw
  obtain ⟨row, hget, hrow⟩ := hw.held
  obtain ⟨row', hget', hrow'⟩ := h.persists hw _ _ hget
  refine ⟨⟨row', by rw [hsame.runId]; exact hget', hrow'.trans (hrow.trans hsame.symm)⟩, ?_⟩
  intro run hdeciding
  cases h with
  | renews => exact hw.deciding run hdeciding
  | stopsBeating => exact hw.deciding run hdeciding
  | reads _ hget'' =>
    cases hdeciding
    rw [hget] at hget''; cases hget''
    exact hrow
  | fails _ hnext => rcases hnext with rfl | rfl <;> cases hdeciding
  | finishes _ hnext => rcases hnext with rfl | ⟨-, rfl⟩ <;> cases hdeciding
  | _ => cases hdeciding

end Worker.Effect

/-! ## Resumes -/

/-- The resume's run is stored. -/
structure Resume.Coherent (t : RunTable) (ρ : Resume) : Prop where
  held : ∃ row, t.get? ρ.run.runId = some row ∧ SameRun row ρ.run
  background : ∀ run, ρ.stage = .background run → SameRun run ρ.run

theorem Resume.Coherent.mono {t t' : RunTable} {ρ : Resume} (h : ρ.Coherent t)
    (hmono : t.Persists t') : ρ.Coherent t' := by
  obtain ⟨row, hget, hsame⟩ := h.held
  obtain ⟨row', hget', hsame'⟩ := hmono _ _ hget
  exact ⟨⟨row', hget', hsame'.trans hsame⟩, h.background⟩

/-- What a step of a resume does. -/
inductive Resume.Effect (env : ResumeEnv) (t : RunTable) (now : Instant) (ρ : Resume) :
    ResumeStep → RunTable → Resume → Prop
  | claims {row : RunRecord} (hstage : ρ.stage = .loaded) (hget : t.get? ρ.run.runId = some row)
      (hawaiting : row.status = .awaitingApproval) :
      Effect env t now ρ .claim (t.put (row.resolving now)) { ρ with stage := .claimed }
  | loses (hstage : ρ.stage = .loaded) : Effect env t now ρ .claim t { ρ with stage := .done }
  | decides (hstage : ρ.stage = .claimed) :
      Effect env t now ρ .decide (t.put ((ρ.run.withDecision ρ.approved ρ.actor now).stamped now))
        { ρ with run := (ρ.run.withDecision ρ.approved ρ.actor now).stamped now, stage := .decided }
  | flips (hstage : ρ.stage = .decided) (hok : flipError env ρ.target ρ.run = none) :
      Effect env t now ρ .flip (t.put ((ρ.run.markedRunning now).stamped now))
        { ρ with run := (ρ.run.markedRunning now).stamped now, stage := .spawned }
  | loads {row : RunRecord} (hstage : ρ.stage = .spawned) (hget : t.get? ρ.run.runId = some row) :
      Effect env t now ρ .load t { ρ with stage := .background row }
  | finishes {outcome : DriveOutcome} {run : RunRecord} (hstage : ρ.stage = .background run) :
      Effect env t now ρ (.finish outcome) (t.put ((outcome.apply .resume run now).stamped now))
        { ρ with stage := .done }
  | stops {l : ResumeStep} (hl : l = .flip ∨ l = .alreadyResolved ∨ l = .crash) :
      Effect env t now ρ l t { ρ with stage := .done }

private theorem Resume.effect_of_advance {env : ResumeEnv} {t : RunTable} {now : Instant}
    {ρ : Resume} {l : ResumeStep} {p : Progress Resume} (hρ : ρ.Coherent t)
    (h : ρ.advance env (t.get? ρ.run.runId) now l = some p) :
    ρ.Effect env t now l (match p.save with
      | none => t
      | some run => t.put (run.stamped now)) p.task
      ∧ ∀ run, p.save = some run → SameRun run ρ.run := by
  obtain ⟨row, hget, -⟩ := hρ.held
  rw [hget] at h
  cases l with
  | claim => cases h
  | decide =>
    simp only [Resume.advance] at h
    split at h <;> cases h
    next hstage => exact ⟨.decides hstage, fun run hrun => by
      cases hrun; exact SameRun.of_sameClaim (SameClaim.withDecision _ _ _ _)⟩
  | flip =>
    simp only [Resume.advance] at h
    split at h <;> try (cases h)
    next hstage =>
    split at h <;> cases h
    · exact ⟨.stops (Or.inl rfl), by simp⟩
    · next hok => exact ⟨.flips hstage hok, fun run hrun => by
        cases hrun; exact SameRun.of_sameClaim (markedRunning _ _)⟩
  | load =>
    simp only [Resume.advance] at h
    split at h <;> cases h
    next hstage => exact ⟨.loads hstage hget, by simp⟩
  | finish outcome =>
    simp only [Resume.advance] at h
    split at h <;> cases h
    next run hstage => exact ⟨.finishes hstage, fun run' hrun => by
      cases hrun
      exact (SameRun.of_sameClaim (apply _ _ _ _)).trans (hρ.background run hstage)⟩
  | alreadyResolved =>
    simp only [Resume.advance] at h
    split at h <;> cases h
    exact ⟨.stops (Or.inr (Or.inl rfl)), by simp⟩
  | crash =>
    simp only [Resume.advance] at h
    split at h <;> cases h
    exact ⟨.stops (Or.inr (Or.inr rfl)), by simp⟩

theorem Resume.effect_of_step {env : ResumeEnv} {s s' : SqliteRunStore} {now : Instant}
    {ρ ρ' : Resume} {l : ResumeStep} (hρ : ρ.Coherent s.records)
    (h : ρ.step env s now l = some (s', ρ')) : ρ.Effect env s.records now l s'.records ρ' := by
  by_cases hl : l = .claim
  · subst hl
    simp only [Resume.step] at h
    split at h <;> try (cases h)
    next hstage =>
    have hclaim := s.claimRunForResume_records ρ.run.runId ρ.run.workspaceId now
    rcases KeyedList.updateIf_cases hclaim with ⟨hok, row, hget, hp, hrec⟩ | ⟨hok, hrec⟩
    · rw [← Prod.mk.eta (p := s.claimRunForResume ρ.run.runId ρ.run.workspaceId now), hok] at h
      cases h
      rw [hrec]
      simp only [RunRecord.resumable, Bool.and_eq_true, decide_eq_true_eq] at hp
      exact .claims hstage hget hp.2
    · rw [← Prod.mk.eta (p := s.claimRunForResume ρ.run.runId ρ.run.workspaceId now), hok] at h
      cases h
      rw [hrec]
      exact .loses hstage
  · have hadv : ∃ p, ρ.advance env (s.records.get? ρ.run.runId) now l = some p
        ∧ s.perform now p (fun ρ => { ρ with stage := .done }) = (s', ρ') := by
      rw [← s.getRun_eq]
      cases l with
      | claim => exact absurd rfl hl
      | _ => exact Option.map_eq_some_iff.1 h
    obtain ⟨p, hp, hperf⟩ := hadv
    obtain ⟨heff, hsame⟩ := Resume.effect_of_advance hρ hp
    obtain ⟨row, hget, hrow⟩ := hρ.held
    obtain ⟨htask, hrec⟩ := s.perform_of_stored now p
      (fun ρ : Resume => { ρ with stage := .done }) (fun run hrun => by
        have hrun' := hsame run hrun
        exact ⟨row, by rw [hrun'.runId]; exact hget, hrow.trans hrun'.symm⟩)
    rw [hperf] at htask hrec
    dsimp only at htask hrec
    rw [htask, hrec]
    exact heff

namespace Resume.Effect

variable {env : ResumeEnv} {t t' : RunTable} {now : Instant} {ρ ρ' : Resume} {l : ResumeStep}

section

variable (h : ρ.Effect env t now l t' ρ')

include h

theorem table_cases (hρ : ρ.Coherent t) : t' = t ∨ ∃ rec, t' = t.put rec ∧ SameRun rec ρ.run := by
  obtain ⟨row, hget, hrow⟩ := hρ.held
  cases h with
  | claims _ hget' _ =>
    rw [hget] at hget'; cases hget'
    exact Or.inr ⟨_, rfl, ⟨hrow.runId, hrow.workspaceId, hrow.idempotencyKey, hrow.maxAttempts⟩⟩
  | decides | flips => exact Or.inr ⟨_, rfl, ⟨rfl, rfl, rfl, rfl⟩⟩
  | finishes hstage => exact Or.inr ⟨_, rfl, (SameRun.of_sameClaim
      ((stamped _ _).trans (apply _ _ _ _))).trans (hρ.background _ hstage)⟩
  | _ => exact Or.inl rfl

theorem persists (hρ : ρ.Coherent t) : t.Persists t' := by
  obtain ⟨row, hget, hrow⟩ := hρ.held
  rcases h.table_cases hρ with rfl | ⟨rec, rfl, hrec⟩
  · exact RunTable.Persists.refl t'
  · exact RunTable.Persists.put (by rw [hrec.runId]; exact hget) (hrec.trans hrow.symm)

theorem get?_of_ne (hρ : ρ.Coherent t) {r : String}
    (hne : ρ.run.runId ≠ r) : t'.get? r = t.get? r := by
  rcases h.table_cases hρ with rfl | ⟨rec, rfl, hrec⟩
  · rfl
  · exact KeyedList.get?_put_of_ne _ _ (fun he => hne (hrec.runId.symm.trans he.symm))

theorem sameRun : SameRun ρ'.run ρ.run := by
  cases h with
  | decides | flips => exact ⟨rfl, rfl, rfl, rfl⟩
  | _ => exact SameRun.refl _

theorem coherent (hρ : ρ.Coherent t) : ρ'.Coherent t' := by
  have hsame := h.sameRun
  obtain ⟨row, hget, hrow⟩ := hρ.held
  obtain ⟨row', hget', hrow'⟩ := h.persists hρ _ _ hget
  refine ⟨⟨row', by rw [hsame.runId]; exact hget', hrow'.trans (hrow.trans hsame.symm)⟩, ?_⟩
  intro run hbackground
  cases h with
  | loads _ hget'' =>
    cases hbackground
    rw [hget] at hget''; cases hget''
    exact hrow
  | _ => cases hbackground

end

end Resume.Effect

end Himmy
