import Himmy.Application.FleetEffects

/-! # What the records of a run keep

The record of a run is rewritten by claims, renewals, reaps, redrives, decisions, drives and the retry
policy, and copies of it are in the hands of tasks. Of all these writes only the finish of a drive
changes what a drive of the run is started from (`SameInput`); so a property of it that the finishes
keep holds of the stored record and of every copy (`Fleet.Carries`). -/

namespace Himmy

/-! ## What no write of a record changes -/

/-- Two records that a drive is started from alike. -/
structure SameInput (a b : RunRecord) : Prop where
  threadId : a.threadId = b.threadId
  metadata : ∀ key, key ≠ "resume_decision" → key ≠ "resume_actor" →
    a.metadata.find? key = b.metadata.find? key

namespace SameInput

theorem of_metadata {a b : RunRecord} (hthread : a.threadId = b.threadId)
    (hmetadata : a.metadata = b.metadata) : SameInput a b :=
  ⟨hthread, fun _ _ _ => by rw [hmetadata]⟩

theorem isOrchestration {a b : RunRecord} (h : SameInput a b) :
    a.isOrchestration = b.isOrchestration := by
  unfold RunRecord.isOrchestration Dict.str?
  rw [h.metadata "orchestration" (by decide) (by decide)]

theorem withDecision (run : RunRecord) (approved : Bool) (actor : String) (now : Instant) :
    SameInput (run.withDecision approved actor now) run := by
  refine ⟨rfl, fun key hdecision hactor => ?_⟩
  simp only [RunRecord.withDecision]
  rw [Dict.find?_set_of_ne _ _ hactor, Dict.find?_set_of_ne _ _ hdecision]

theorem applyRetryPolicy {run saved : RunRecord} {now : Instant}
    (h : applyRetryPolicy run now = some saved) : SameInput saved run := by
  obtain ⟨-, -, ⟨-, rfl⟩ | rfl⟩ := applyRetryPolicy_cases h
  · exact of_metadata rfl rfl
  · exact of_metadata rfl rfl

end SameInput

theorem DriveOutcome.find?_setIf_of_ne (metadata : Dict Json) {key key' : String}
    (value : Option Json) (h : key' ≠ key) :
    (setIf metadata key value).find? key' = metadata.find? key' := by
  cases value with
  | none => rfl
  | some value => exact Dict.find?_set_of_ne _ _ h

/-! ## The records of one run -/

/-- `P` holds of the stored record of `r` and of every record of `r` in the hands of a task. -/
structure Fleet.Carries (r : String) (P : RunRecord → Prop) (f : Fleet) : Prop where
  stored : ∀ row, f.record r = some row → P row
  workers : ∀ w ∈ f.workers, w.run.runId = r → P w.run ∧ ∀ run, w.stage = .deciding run → P run
  resumes : ∀ ρ ∈ f.resumes, ρ.run.runId = r → P ρ.run ∧ ∀ run, ρ.stage = .background run → P run

section Carries

variable {r : String} {P : RunRecord → Prop} {cfg : FleetConfig} {now : Instant}

theorem Worker.Effect.carries {t t' : RunTable} {w w' : Worker} {l : WorkerStep}
    (heff : w.Effect t now l t' w') (hw : w.Coherent t) (hsame : ∀ a b, SameInput a b → P b → P a)
    (hfinish : ∀ outcome, l = .finish outcome → P w.run → P (outcome.apply .dispatch w.run now))
    (hstored : ∀ row, t.get? w.run.runId = some row → P row)
    (hrun : P w.run) (hdeciding : ∀ run, w.stage = .deciding run → P run) :
    (∀ row, t'.get? w.run.runId = some row → P row)
      ∧ P w'.run ∧ ∀ run, w'.stage = .deciding run → P run := by
  have hput : ∀ rec : RunRecord, rec.runId = w.run.runId → P rec →
      ∀ row, (t.put rec).get? w.run.runId = some row → P row := by
    intro rec hid hP row hget
    rw [← hid, KeyedList.get?_put_self] at hget
    cases hget
    exact hP
  have hstamped : ∀ rec : RunRecord, P rec → P (rec.stamped now) :=
    fun rec => hsame _ rec (.of_metadata rfl rfl)
  cases heff with
  | @renews row _ hget _ =>
    refine ⟨hput _ ?_ (hsame _ row (.of_metadata rfl rfl) (hstored row hget)), hrun, hdeciding⟩
    rw [RunRecord.runId_renewed, KeyedList.key_of_get? hget]
  | stopsBeating => exact ⟨hstored, hrun, hdeciding⟩
  | waits => exact ⟨hstored, hrun, fun run hd => by cases hd⟩
  | rereads _ hget => exact ⟨hstored, hstored _ hget, fun run hd => by cases hd⟩
  | @fails _ error next _ hnext =>
    have hP : P (w.run.rehydrationFailed error now) := hsame _ w.run (.of_metadata rfl rfl) hrun
    refine ⟨hput _ rfl (hstamped _ hP), hstamped _ hP, fun run hd => ?_⟩
    rcases hnext with rfl | rfl <;> cases hd
  | marks =>
    have hP : P (w.run.markedRunning now) := hsame _ w.run (.of_metadata rfl rfl) hrun
    exact ⟨hput _ rfl (hstamped _ hP), hstamped _ hP, fun run hd => by cases hd⟩
  | @finishes outcome next _ hnext =>
    have hP := hstamped _ (hfinish outcome rfl hrun)
    refine ⟨hput _ ?_ hP, hP, fun run hd => ?_⟩
    · exact ((SameClaim.stamped _ _).trans (SameClaim.apply .dispatch outcome w.run now)).runId
    · rcases hnext with rfl | ⟨-, rfl⟩ <;> cases hd
  | reads _ hget =>
    refine ⟨hstored, hrun, fun run hd => ?_⟩
    cases hd
    exact hstored _ hget
  | passes => exact ⟨hstored, hrun, fun run hd => by cases hd⟩
  | @retries run saved hstage hsave =>
    refine ⟨hput _ ?_ (hstamped _ ?_), hrun, fun run hd => by cases hd⟩
    · exact (SameRun.of_applyRetryPolicy hsave).runId.trans (hw.deciding run hstage).runId
    · exact hsame _ _ (SameInput.applyRetryPolicy hsave) (hdeciding run hstage)
  | gives => exact ⟨hstored, hrun, fun run hd => by cases hd⟩
  | crashes => exact ⟨hstored, hrun, fun run hd => by cases hd⟩

theorem Resume.Effect.carries {env : ResumeEnv} {t t' : RunTable} {ρ ρ' : Resume}
    {l : ResumeStep} (heff : ρ.Effect env t now l t' ρ') (hρ : ρ.Coherent t)
    (hsame : ∀ a b, SameInput a b → P b → P a)
    (hfinish : ∀ outcome run, l = .finish outcome → ρ.stage = .background run → P run →
      P (outcome.apply .resume run now)) (hstored : ∀ row, t.get? ρ.run.runId = some row → P row)
    (hrun : P ρ.run) (hbackground : ∀ run, ρ.stage = .background run → P run) :
    (∀ row, t'.get? ρ.run.runId = some row → P row)
      ∧ P ρ'.run ∧ ∀ run, ρ'.stage = .background run → P run := by
  have hput : ∀ rec : RunRecord, rec.runId = ρ.run.runId → P rec →
      ∀ row, (t.put rec).get? ρ.run.runId = some row → P row := by
    intro rec hid hP row hget
    rw [← hid, KeyedList.get?_put_self] at hget
    cases hget
    exact hP
  have hstamped : ∀ rec : RunRecord, P rec → P (rec.stamped now) :=
    fun rec => hsame _ rec (.of_metadata rfl rfl)
  cases heff with
  | @claims row _ hget _ =>
    refine ⟨hput _ ?_ (hsame _ row (.of_metadata rfl rfl) (hstored row hget)), hrun, fun run hb => by cases hb⟩
    rw [RunRecord.runId_resolving, KeyedList.key_of_get? hget]
  | loses => exact ⟨hstored, hrun, fun run hb => by cases hb⟩
  | decides =>
    have hP := hstamped _ (hsame _ _ (SameInput.withDecision ρ.run ρ.approved ρ.actor now) hrun)
    exact ⟨hput _ rfl hP, hP, fun run hb => by cases hb⟩
  | flips =>
    have hP : P (ρ.run.markedRunning now) := hsame _ ρ.run (.of_metadata rfl rfl) hrun
    exact ⟨hput _ rfl (hstamped _ hP), hstamped _ hP, fun run hb => by cases hb⟩
  | loads _ hget =>
    refine ⟨hstored, hrun, fun run hb => ?_⟩
    cases hb
    exact hstored _ hget
  | @finishes outcome run hstage =>
    have hP := hstamped _ (hfinish outcome run rfl hstage (hbackground run hstage))
    refine ⟨hput _ ?_ hP, hrun, fun run hb => by cases hb⟩
    exact ((SameClaim.stamped _ _).trans (SameClaim.apply .resume outcome run now)).runId.trans
      (hρ.background run hstage).runId
  | stops => exact ⟨hstored, hrun, fun run hb => by cases hb⟩

/-- **One run.** An event keeps a property of the records of `r` that no write but a finish can
    break, when the finish of a drive of `r` keeps it. -/
theorem Fleet.Carries.step {f f' : Fleet} {a : Action} (h : f.Carries r P)
    (hf : f.Coherent) (hsame : ∀ a b, SameInput a b → P b → P a)
    (hstored : (f.record r).isSome = true)
    (hworker : ∀ i w outcome, a = .worker i (.finish outcome) → f.workers[i]? = some w →
      w.run.runId = r → P w.run → P (outcome.apply .dispatch w.run now))
    (hresume : ∀ i ρ outcome run, a = .resumer i (.finish outcome) → f.resumes[i]? = some ρ →
      ρ.run.runId = r → ρ.stage = .background run → P run → P (outcome.apply .resume run now))
    (hstep : (fleet cfg).step f (now, a) = some f') : f'.Carries r P := by
  have heff := Fleet.effect_of_step hf hstep
  cases heff with
  | idle hrec _ => exact ⟨fun row hget => h.stored row (by rw [← hget, record, record, hrec]),
      h.workers, h.resumes⟩
  | @creates _ q s' hnew _ hrec =>
    have hne : r ≠ q.runId := by
      rintro rfl
      rw [hnew] at hstored
      cases hstored
    refine ⟨fun row hget => h.stored row ?_, h.workers, h.resumes⟩
    rw [← hget, record, record, hrec]
    exact (KeyedList.get?_put_of_ne _ ((q.record cfg now).stamped now) hne).symm
  | @claims _ ownerId lease _ _ _ run s' hget _ hrec =>
    have hclaimed : run.runId = r → P (run.claimedBy ownerId (isoPlusSeconds now lease) now) := by
      rintro rfl
      exact hsame _ run (.of_metadata rfl rfl) (h.stored run hget)
    refine ⟨fun row hget' => ?_, fun w hw hid => ?_, h.resumes⟩
    · have hrow : s'.records.get? r = some row := hget'
      rw [hrec, KeyedList.get?_put] at hrow
      split at hrow
      · next hid =>
          cases hrow
          exact hclaimed hid.symm
      · exact h.stored row hrow
    · rcases List.mem_append.1 hw with hw | hw
      · obtain ⟨w₀, hw₀, rfl⟩ := List.mem_map.1 hw
        obtain ⟨superseded, heq⟩ := w₀.noteClaim_eq run.runId ownerId
        rw [heq] at hid ⊢
        exact h.workers w₀ hw₀ hid
      · rw [List.mem_singleton] at hw
        subst hw
        exact ⟨hclaimed hid, fun run hd => by cases hd⟩
  | @worker _ i l w w' s' hw heff =>
    have hmem := List.mem_of_getElem? hw
    have hcoh := hf.workers w hmem
    by_cases hid : w.run.runId = r
    · subst hid
      obtain ⟨hrun, hdeciding⟩ := h.workers w hmem rfl
      obtain ⟨hrow', hrun', hdeciding'⟩ := heff.carries hcoh hsame
        (fun outcome hl => hworker i w outcome (by rw [hl]) hw rfl) h.stored hrun hdeciding
      refine ⟨hrow', fun v hv hvid => ?_, h.resumes⟩
      rcases List.mem_or_eq_of_mem_set hv with hv | rfl
      · exact h.workers v hv hvid
      · exact ⟨hrun', hdeciding'⟩
    · refine ⟨fun row hget => h.stored row ?_, fun v hv hvid => ?_, h.resumes⟩
      · rw [← hget]
        exact (heff.get?_of_ne hcoh hid).symm
      · rcases List.mem_or_eq_of_mem_set hv with hv | rfl
        · exact h.workers v hv hvid
        · exact absurd ((heff.sameRun hcoh).runId.symm.trans hvid) hid
  | @reaps _ lanes s' hrec =>
    refine ⟨fun row hget => ?_, fun w hw hid => ?_, h.resumes⟩
    · have hrow : s'.records.get? r = some row := hget
      rw [hrec, RunTable.get?_requeueExpired, Option.map_eq_some_iff] at hrow
      obtain ⟨row₀, hget₀, rfl⟩ := hrow
      refine hsame _ row₀ ?_ (h.stored row₀ hget₀)
      split <;> exact .of_metadata rfl rfl
    · obtain ⟨w₀, hw₀, rfl⟩ := List.mem_map.1 hw
      obtain ⟨reaped, heq⟩ := w₀.noteReap_eq (f.store.records.expiredIds now lanes)
      rw [heq] at hid ⊢
      exact h.workers w₀ hw₀ hid
  | @redrives _ runId _ row s' hget _ hrec =>
    refine ⟨fun row' hget' => ?_, h.workers, h.resumes⟩
    have hrow : s'.records.get? r = some row' := hget'
    rw [hrec, KeyedList.get?_put, RunRecord.runId_redriven, KeyedList.key_of_get? hget] at hrow
    split at hrow
    · next hid =>
        cases hrow
        exact hsame _ row (.of_metadata rfl rfl) (h.stored row (by rw [hid]; exact hget))
    · exact h.stored row' hrow
  | @loads _ runId actor approved _ run target hget =>
    refine ⟨h.stored, h.workers, fun ρ hρ hid => ?_⟩
    rcases List.mem_append.1 hρ with hρ | hρ
    · exact h.resumes ρ hρ hid
    · rw [List.mem_singleton] at hρ
      subst hρ
      subst hid
      exact ⟨h.stored run hget, fun run hb => by cases hb⟩
  | @resumer _ i l ρ ρ' s' hρ heff =>
    have hmem := List.mem_of_getElem? hρ
    have hcoh := hf.resumes ρ hmem
    by_cases hid : ρ.run.runId = r
    · subst hid
      obtain ⟨hrun, hbackground⟩ := h.resumes ρ hmem rfl
      obtain ⟨hrow', hrun', hbackground'⟩ := heff.carries hcoh hsame
        (fun outcome run hl hstage => hresume i ρ outcome run (by rw [hl]) hρ rfl hstage)
        h.stored hrun hbackground
      refine ⟨hrow', h.workers, fun v hv hvid => ?_⟩
      rcases List.mem_or_eq_of_mem_set hv with hv | rfl
      · exact h.resumes v hv hvid
      · exact ⟨hrun', hbackground'⟩
    · refine ⟨fun row hget => h.stored row ?_, h.workers, fun v hv hvid => ?_⟩
      · rw [← hget]
        exact (heff.get?_of_ne hcoh hid).symm
      · rcases List.mem_or_eq_of_mem_set hv with hv | rfl
        · exact h.resumes v hv hvid
        · exact absurd (heff.sameRun.runId.symm.trans hvid) hid

end Carries

end Himmy
