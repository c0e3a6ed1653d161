import Himmy.Application.FleetEffects

/-! # Resumed runs and the queue

A resume that won its claim drives a run outside the leased queue, and the run still carries the
lease its dispatcher left on it when it paused. `RESOLVING` keeps the run away from the reaper, the
flip to `RUNNING` brings it back under the reaper's predicate: `notRequeued_of_inTime` shows that the
queue leaves the run alone in every run of the fleet whose reaps come before that old lease ends. -/

namespace Himmy

/-! ## Resumes in progress -/

def ResumeStage.inProgress : ResumeStage → Bool
  | .loaded => false
  | .done => false
  | _ => true

/-- The resume marked its run `RUNNING`. -/
def ResumeStage.flipped : ResumeStage → Bool
  | .spawned => true
  | .background _ => true
  | _ => false

namespace Resume

def InProgressOn (ρ : Resume) (r : String) : Prop := ρ.run.runId = r ∧ ρ.stage.inProgress = true

instance (ρ : Resume) (r : String) : Decidable (ρ.InProgressOn r) :=
  inferInstanceAs (Decidable (_ ∧ _))

/-- The stored row is where the resume's stage says. -/
structure Keeps (ρ : Resume) (row : RunRecord) : Prop where
  claimed : ρ.stage = .claimed → row.status = .resolving
  decided : ρ.stage = .decided → row.status = .resolving ∧ row = ρ.run
  flipped : ρ.stage.flipped = true →
    row.status = .running ∧ row.leaseExpiresAt = ρ.run.leaseExpiresAt

theorem Keeps.resolving_or_running {ρ : Resume} {row : RunRecord} (h : ρ.Keeps row)
    (hprogress : ρ.stage.inProgress = true) :
    row.status = .resolving ∨ (row.status = .running ∧ ρ.stage.flipped = true) := by
  cases hstage : ρ.stage with
  | loaded | done => rw [hstage] at hprogress; cases hprogress
  | claimed => exact Or.inl (h.claimed hstage)
  | decided => exact Or.inl (h.decided hstage).1
  | spawned | background => exact Or.inr ⟨(h.flipped (by rw [hstage]; rfl)).1, rfl⟩

end Resume

/-! ## The conditions -/

def Worker.writes (w : Worker) : WorkerStep → Bool
  | .heartbeat => true
  | l => w.saves l

/-- While a resume of `r` is in progress, no worker writes the row of `r`. -/
def WorkersQuiet (r : String) (f : Fleet) (e : Instant × Action) : Prop :=
  match e.2 with
  | .worker i l => (∃ ρ ∈ f.resumes, ρ.InProgressOn r) →
      ∀ w ∈ f.workers[i]?, w.run.runId = r → w.writes l = false
  | _ => True

/-- A reap while a resume of `r` drives comes before the end of the lease that the record of the
    resume carries. -/
def ReapsInTime (r : String) (f : Fleet) (e : Instant × Action) : Prop :=
  match e.2 with
  | .reap _ => ∀ ρ ∈ f.resumes, ρ.run.runId = r → ρ.stage.flipped = true →
      ∀ deadline ∈ ρ.run.leaseExpiresAt, e.1 < deadline
  | _ => True

instance (r : String) (f : Fleet) : ∀ e : Instant × Action, Decidable (WorkersQuiet r f e)
  | (_, .worker ..) => by unfold WorkersQuiet; infer_instance
  | (_, .create _) | (_, .claim ..) | (_, .reap _)
  | (_, .redrive ..) | (_, .resume ..) | (_, .resumer ..) => .isTrue trivial

instance (r : String) (f : Fleet) : ∀ e : Instant × Action, Decidable (ReapsInTime r f e)
  | (_, .reap _) => by unfold ReapsInTime; infer_instance
  | (_, .create _) | (_, .claim ..) | (_, .worker ..)
  | (_, .redrive ..) | (_, .resume ..) | (_, .resumer ..) => .isTrue trivial

/-- While a resume of `r` is in progress, the reaper does not return `r` and no claim hands it
    out. -/
structure NotRequeued (cfg : FleetConfig) (r : String) (es : List (Instant × Action)) : Prop where
  not_reaped : ∀ pre now lanes post f, es = pre ++ (now, .reap lanes) :: post →
    (fleet cfg).exec {} pre = some f → (∃ ρ ∈ f.resumes, ρ.InProgressOn r) →
    r ∉ (f.store.requeueExpiredLeases now lanes).2
  not_claimed : ∀ pre now ownerId lease lanes fairness workspaceConcurrency post f run,
    es = pre ++ (now, .claim ownerId lease lanes fairness workspaceConcurrency) :: post →
    (fleet cfg).exec {} pre = some f → (∃ ρ ∈ f.resumes, ρ.InProgressOn r) →
    (f.store.claimNextQueuedRun ownerId lease lanes now fairness workspaceConcurrency).2 = some run →
    run.runId ≠ r

/-! ## The invariant -/

/-- At most one resume is in progress on `r`, and the stored row is at its stage. -/
structure Fleet.SoleResume (r : String) (f : Fleet) : Prop where
  unique : ∀ (i j : Nat) (ρ σ : Resume), f.resumes[i]? = some ρ → f.resumes[j]? = some σ →
    ρ.InProgressOn r → σ.InProgressOn r → i = j
  keeps : ∀ ρ ∈ f.resumes, ρ.InProgressOn r → ∃ row, f.record r = some row ∧ ρ.Keeps row

variable {t t' : RunTable} {now : Instant}

theorem Worker.Effect.table_of_not_writes {w w' : Worker}
    {l : WorkerStep} (heff : w.Effect t now l t' w') (hl : w.writes l = false) : t' = t := by
  refine heff.table_of_not_saves ?_ (fun hbeat => ?_)
  · cases l <;> first | rfl | exact hl
  · subst hbeat; cases hl

theorem Resume.Effect.keeps {env : ResumeEnv} {ρ ρ' : Resume}
    {l : ResumeStep} (heff : ρ.Effect env t now l t' ρ') {row : RunRecord}
    (hget : t.get? ρ.run.runId = some row) (hkeeps : ρ.stage.inProgress = true → ρ.Keeps row)
    (hprogress : ρ'.stage.inProgress = true) :
    (∃ row', t'.get? ρ.run.runId = some row' ∧ ρ'.Keeps row')
      ∧ (ρ.stage.inProgress = true ∨ row.status = .awaitingApproval) := by
  cases heff with
  | @claims row₁ hstage hget₁ hawaiting =>
    cases hget.symm.trans hget₁
    have hput := KeyedList.get?_put_self t (row.resolving now)
    rw [RunRecord.runId_resolving, KeyedList.key_of_get? hget] at hput
    exact ⟨⟨_, hput, fun _ => rfl, fun hs => (by cases hs), fun hs => by cases hs⟩,
      Or.inr hawaiting⟩
  | decides hstage =>
    exact ⟨⟨_, KeyedList.get?_put_self t
        ((ρ.run.withDecision ρ.approved ρ.actor now).stamped now),
      fun hs => (by cases hs), fun _ => ⟨rfl, rfl⟩, fun hs => by cases hs⟩,
      Or.inl (by rw [hstage]; rfl)⟩
  | flips hstage =>
    exact ⟨⟨_, KeyedList.get?_put_self t ((ρ.run.markedRunning now).stamped now),
      fun hs => (by cases hs), fun hs => (by cases hs), fun _ => ⟨rfl, rfl⟩⟩,
      Or.inl (by rw [hstage]; rfl)⟩
  | loads hstage =>
    have hflipped := (hkeeps (by rw [hstage]; rfl)).flipped (by rw [hstage]; rfl)
    exact ⟨⟨row, hget, fun hs => (by cases hs), fun hs => (by cases hs), fun _ => hflipped⟩,
      Or.inl (by rw [hstage]; rfl)⟩
  | loses | finishes | stops => cases hprogress

theorem Resume.Effect.of_not_inProgress {env : ResumeEnv}
    {ρ ρ' : Resume} {l : ResumeStep} (heff : ρ.Effect env t now l t' ρ')
    (hstage : ρ.stage.inProgress = false) :
    t' = t ∨ ∃ row, t.get? ρ.run.runId = some row ∧ row.status = .awaitingApproval := by
  cases heff with
  | claims _ hget hawaiting => exact Or.inr ⟨_, hget, hawaiting⟩
  | loses | stops | loads => exact Or.inl rfl
  | decides hs | flips hs | finishes hs => rw [hs] at hstage; cases hstage

namespace Fleet.SoleResume

variable {r : String} {f f' : Fleet} {e : Instant × Action} {ρ : Resume}

theorem status (h : f.SoleResume r) (hρ : ρ ∈ f.resumes) (hprogress : ρ.InProgressOn r)
    {row : RunRecord} (hget : f.record r = some row) :
    row.status = .resolving ∨ (row.status = .running ∧ ρ.stage.flipped = true) := by
  obtain ⟨row₁, hget₁, hkeeps⟩ := h.keeps ρ hρ hprogress
  cases hget.symm.trans hget₁
  exact hkeeps.resolving_or_running hprogress.2

theorem not_expired (h : f.SoleResume r) {now : Instant} {lanes : Option (List String)}
    (htime : ReapsInTime r f (now, .reap lanes)) (hρ : ρ ∈ f.resumes)
    (hprogress : ρ.InProgressOn r) : r ∉ f.store.records.expiredIds now lanes := by
  intro hexp
  obtain ⟨row, hget, hexpired⟩ := RunTable.mem_expiredIds.1 hexp
  simp only [RunRecord.leaseExpired, Bool.and_eq_true, decide_eq_true_eq] at hexpired
  obtain ⟨⟨hrunning, hpast⟩, -⟩ := hexpired
  rcases h.status hρ hprogress hget with hs | ⟨-, hflipped⟩
  · rw [hs] at hrunning; cases hrunning
  · obtain ⟨row₁, hget₁, hkeeps⟩ := h.keeps ρ hρ hprogress
    cases hget.symm.trans hget₁
    rw [(hkeeps.flipped hflipped).2, Option.any_eq_true] at hpast
    obtain ⟨deadline, hdeadline, hle⟩ := hpast
    exact absurd (htime ρ hρ hprogress.1 hflipped deadline hdeadline)
      (not_lt.2 (by simpa using hle))

theorem not_claimable (h : f.SoleResume r) (hρ : ρ ∈ f.resumes)
    (hprogress : ρ.InProgressOn r) {row : RunRecord} (hget : f.record row.runId = some row)
    (hqueued : row.status = .queued) : row.runId ≠ r := by
  rintro rfl
  rcases h.status hρ hprogress hget with hs | ⟨hs, -⟩ <;> rw [hs] at hqueued <;> cases hqueued

variable {cfg : FleetConfig}

theorem record_kept (h : f.SoleResume r) (hf : f.Coherent)
    (heff : f.Effect cfg e f') (hquiet : WorkersQuiet r f e) (htime : ReapsInTime r f e)
    (hρ : ρ ∈ f.resumes) (hprogress : ρ.InProgressOn r)
    (hother : ∀ i l, e.2 = .resumer i l → ∀ σ ∈ f.resumes[i]?, ¬ σ.InProgressOn r) :
    f'.record r = f.record r := by
  obtain ⟨row, hget, -⟩ := h.keeps ρ hρ hprogress
  cases heff with
  | idle hrec _ => simp only [record, hrec]
  | loads => rfl
  | @creates now q s' hnew _ hrec =>
    simp only [record, hrec]
    refine KeyedList.get?_put_of_ne _ _ (fun hr => ?_)
    rw [hr] at hget
    cases hnew.symm.trans hget
  | @claims now ownerId lease _ _ _ run s' hget' hqueued hrec =>
    simp only [record, hrec]
    exact KeyedList.get?_put_of_ne _ _ (h.not_claimable hρ hprogress hget' hqueued).symm
  | @worker now i l w w' s' hw heff =>
    have hcoh := hf.workers w (List.mem_of_getElem? hw)
    by_cases hid : w.run.runId = r
    · simp only [record, heff.table_of_not_writes (hquiet ⟨ρ, hρ, hprogress⟩ w hw hid)]
    · exact heff.get?_of_ne hcoh hid
  | @reaps now lanes s' hrec =>
    have hnot := h.not_expired htime hρ hprogress
    simp only [record, hrec, RunTable.get?_requeueExpired]
    have hrow : f.store.records.get? r = some row := hget
    have hkept : ¬ row.leaseExpired now lanes = true :=
      fun he => hnot (RunTable.mem_expiredIds.2 ⟨row, hrow, he⟩)
    simp [hrow, hkept]
  | @redrives now runId _ old s' hget' hredrivable hrec =>
    simp only [record, hrec]
    refine KeyedList.get?_put_of_ne _ _ (fun hr => ?_)
    rw [RunRecord.runId_redriven, KeyedList.key_of_get? hget'] at hr
    subst hr
    cases hget.symm.trans hget'
    simp only [RunRecord.redrivable, Bool.and_eq_true, Bool.or_eq_true,
      decide_eq_true_eq] at hredrivable
    rcases h.status hρ hprogress hget with hs | ⟨hs, -⟩ <;> simp [hs] at hredrivable
  | @resumer now i l σ σ' s' hσ heff =>
    have hcoh := hf.resumes σ (List.mem_of_getElem? hσ)
    by_cases hid : σ.run.runId = r
    · have hstage : σ.stage.inProgress = false := by
        have := hother i l rfl σ hσ
        simpa [Resume.InProgressOn, hid] using this
      rcases heff.of_not_inProgress hstage with htable | ⟨row₁, hget₁, hawaiting⟩
      · simp only [record, htable]
      · rw [hid] at hget₁
        cases hget.symm.trans hget₁
        rcases h.status hρ hprogress hget with hs | ⟨hs, -⟩ <;> rw [hs] at hawaiting <;>
          cases hawaiting
    · exact heff.get?_of_ne hcoh hid

theorem resumer_step {i : Nat} {ρ ρ' : Resume} {env : ResumeEnv} {t : RunTable} {now : Instant}
    {l : ResumeStep} (h : f.SoleResume r) (hρ : f.resumes[i]? = some ρ) (hid : ρ.run.runId = r)
    (heff : ρ.Effect env f.store.records now l t ρ') {j : Nat} {σ : Resume}
    (hσ : f.resumes[j]? = some σ) (hprogress : σ.InProgressOn r)
    (hprogress' : ρ'.stage.inProgress = true) : i = j := by
  obtain ⟨row, hget, hkeeps⟩ := h.keeps σ (List.mem_of_getElem? hσ) hprogress
  have hold : ρ.stage.inProgress = true → ρ.InProgressOn r := fun hs => ⟨hid, hs⟩
  have hrow : f.store.records.get? ρ.run.runId = some row := by rw [hid]; exact hget
  have hkeepsρ : ρ.stage.inProgress = true → ρ.Keeps row := by
    intro hs
    obtain ⟨row₁, hget₁, hkeeps₁⟩ := h.keeps ρ (List.mem_of_getElem? hρ) (hold hs)
    cases hget.symm.trans hget₁
    exact hkeeps₁
  rcases (heff.keeps hrow hkeepsρ hprogress').2 with hs | hawaiting
  · exact h.unique i j ρ σ hρ hσ (hold hs) hprogress
  · rcases hkeeps.resolving_or_running hprogress.2 with hs | ⟨hs, -⟩ <;> rw [hs] at hawaiting <;>
      cases hawaiting

theorem resumes_of_effect (heff : f.Effect cfg e f')
    (hevent : ∀ i l, e.2 ≠ .resumer i l) {j : Nat} {σ : Resume} (hσ : f'.resumes[j]? = some σ)
    (hprogress : σ.InProgressOn r) : f.resumes[j]? = some σ := by
  cases heff with
  | resumer => exact absurd rfl (hevent _ _)
  | loads =>
    rcases Parties.getElem?_concat_cases hσ with hold | rfl
    · exact hold
    · cases hprogress.2
  | _ => exact hσ

theorem step (h : f.SoleResume r) (hf : f.Coherent)
    (hquiet : WorkersQuiet r f e) (htime : ReapsInTime r f e)
    (hstep : (fleet cfg).step f e = some f') : f'.SoleResume r := by
  have heff := Fleet.effect_of_step hf hstep
  by_cases hevent : ∀ i l, e.2 ≠ .resumer i l
  · have hback := fun j σ hσ hp =>
      resumes_of_effect (r := r) (j := j) (σ := σ) heff hevent hσ hp
    refine ⟨fun i j ρ σ hρ hσ hpρ hpσ =>
      h.unique i j ρ σ (hback i ρ hρ hpρ) (hback j σ hσ hpσ) hpρ hpσ, fun ρ hρ hprogress => ?_⟩
    obtain ⟨j, hj⟩ := List.getElem?_of_mem hρ
    have hmem := List.mem_of_getElem? (hback j ρ hj hprogress)
    rw [h.record_kept hf heff hquiet htime hmem hprogress
      (fun i l hl => absurd hl (hevent i l))]
    exact h.keeps ρ hmem hprogress
  · have hkept := fun {ρ : Resume} => h.record_kept (ρ := ρ) hf heff hquiet htime
    cases heff with
    | @resumer now i l ρ ρ' s' hρ heff =>
      have hcoh := hf.resumes ρ (List.mem_of_getElem? hρ)
      have hid' : ρ'.run.runId = ρ.run.runId := heff.sameRun.runId
      have hsole : ∀ (j : Nat) (σ : Resume), f.resumes[j]? = some σ → σ.InProgressOn r →
          ρ'.InProgressOn r → i = j := fun j σ hσ hp hp' =>
        h.resumer_step hρ (hid'.symm.trans hp'.1) heff hσ hp hp'.2
      -- in progress after the step is the resume that took it, or one that was before
      refine ⟨fun j k σ τ hσ hτ hpσ hpτ => ?_, fun σ hσ hprogress => ?_⟩
      · rcases Parties.getElem?_set_cases hσ with ⟨hj, rfl⟩ | ⟨hj, hσ'⟩ <;>
          rcases Parties.getElem?_set_cases hτ with ⟨hk, rfl⟩ | ⟨hk, hτ'⟩
        · exact hj.symm.trans hk
        · exact absurd (hsole k τ hτ' hpτ hpσ) hk
        · exact absurd (hsole j σ hσ' hpσ hpτ) hj
        · exact h.unique j k σ τ hσ' hτ' hpσ hpτ
      · obtain ⟨j, hj⟩ := List.getElem?_of_mem hσ
        rcases Parties.getElem?_set_cases hj with ⟨rfl, rfl⟩ | ⟨hij, hσ'⟩
        · obtain ⟨row, hget, -⟩ := hcoh.held
          have hr : ρ.run.runId = r := hid'.symm.trans hprogress.1
          subst hr
          exact (heff.keeps hget (fun hs => by
            obtain ⟨row₁, hget₁, hkeeps⟩ := h.keeps ρ (List.mem_of_getElem? hρ) ⟨rfl, hs⟩
            cases hget.symm.trans hget₁
            exact hkeeps) hprogress.2).1
        · have hmem := List.mem_of_getElem? hσ'
          rw [hkept hmem hprogress (fun _ _ he τ hτ hpτ => by
            cases he
            exact hij (h.unique i j τ σ hτ hσ' hpτ hprogress))]
          exact h.keeps σ hmem hprogress
    | idle _ htask => exact absurd htask.2 hevent
    | _ => exact absurd (by simp) hevent

theorem empty (r : String) : ({} : Fleet).SoleResume r :=
  ⟨fun _ _ _ _ hρ => absurd (List.mem_of_getElem? hρ) List.not_mem_nil,
    fun _ hρ => absurd hρ List.not_mem_nil⟩

end Fleet.SoleResume

/-! ## The result -/

/-- **No second execution.** In every run whose reaps during a resume of `r` come before the end of
    the lease the dispatcher left on `r`, neither the reaper nor a claim takes `r` from a resume in
    progress. -/
theorem notRequeued_of_inTime {cfg : FleetConfig} {r : String} {es : List (Instant × Action)}
    (hquiet : (fleet cfg).AlongRun (WorkersQuiet r) {} es)
    (htime : (fleet cfg).AlongRun (ReapsInTime r) {} es) : NotRequeued cfg r es := by
  have hinv : ∀ {pre post f e}, es = pre ++ e :: post → (fleet cfg).exec {} pre = some f →
      (f.Coherent ∧ f.SoleResume r) ∧ ReapsInTime r f e := by
    rintro pre post f e rfl hrun
    have h := (fleet cfg).at_step (I := fun f => f.Coherent ∧ f.SoleResume r)
      (fun _ _ _ h hC hs => ⟨(Fleet.effect_of_step h.1 hs).coherent h.1, h.2.step h.1 hC.1 hC.2 hs⟩)
      ⟨Fleet.coherent_empty, Fleet.SoleResume.empty r⟩ (hquiet.and htime) hrun
    exact ⟨h.1, h.2.2⟩
  refine ⟨fun pre now lanes post f hes hrun hresume hreap => ?_, ?_⟩
  · obtain ⟨ρ, hρ, hprogress⟩ := hresume
    obtain ⟨⟨-, hsole⟩, hreapTime⟩ := hinv hes hrun
    rw [f.store.requeueExpiredLeases_ids] at hreap
    exact hsole.not_expired hreapTime hρ hprogress hreap
  · rintro pre now ownerId lease lanes fairness workspaceConcurrency post f run hes hrun
      ⟨ρ, hρ, hprogress⟩ hans
    obtain ⟨⟨-, hsole⟩, -⟩ := hinv hes hrun
    rcases f.store.claimNextQueuedRun_cases ownerId lease lanes now fairness
      workspaceConcurrency with hidle | ⟨row, hget, hready, hans', -⟩
    · rw [hidle] at hans; cases hans
    · rw [hans'] at hans
      cases hans
      simp only [RunRecord.claimable, Bool.and_eq_true, decide_eq_true_eq] at hready
      have hother : row.runId ≠ r := hsole.not_claimable hρ hprogress hget hready.1.1
      exact hother

private def resuming : FleetConfig :=
  { resume := { checkpointStore := true, agentResolver := some (fun _ _ => true) } }

private def approved : List (Instant × Action) :=
  [(0, .create { runId := "r", workspaceId := "w", subjectId := "s", inputBlob := some "input",
                 metadata := Dict.set KeyedList.empty "agent_id" (.str "agent") }),
    (1, .claim "a" 10 none false 0), (1, .worker 0 (.rehydrate none)), (1, .worker 0 .markRunning),
    (3, .worker 0 (.finish (.awaitingApproval { threadId := "t" } (some "checkpoint") none))),
    (3, .worker 0 .readForRetry), (5, .resume "r" true none "user"), (5, .resumer 0 .claim),
    (5, .resumer 0 .decide), (5, .resumer 0 .flip), (5, .resumer 0 .load)]

/-- A reap before the old lease ends, a claim, and the end of the resume. -/
theorem notRequeued_of_inTime_approved :
    NotRequeued resuming "r" (approved ++ [(9, .reap none), (9, .claim "b" 10 none false 0),
      (10, .resumer 0 (.finish (.succeeded { threadId := "t" })))]) :=
  notRequeued_of_inTime (by decide) (by decide)

private def resumed : Fleet := ((fleet resuming).exec {} approved).getD {}

/-- The resume drives past the deadline of the lease that the dispatcher left on the run: the reaper
    returns the run to the queue. -/
theorem not_notRequeued :
    ∃ es, (fleet resuming).AlongRun (WorkersQuiet "r") {} es ∧ ¬ NotRequeued resuming "r" es := by
  refine ⟨approved ++ [(12, .reap none)], by decide, fun h => ?_⟩
  exact h.not_reaped approved 12 none [] resumed rfl rfl
    ⟨resumed.resumes.head (by decide), List.head_mem _, by decide⟩ (by decide)

end Himmy
