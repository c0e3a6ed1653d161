import Himmy.Application.SoleWorker

/-! # The retry budget

The retry policy re-queues a failed run only while attempts are left, but the reaper re-queues an
expired one whatever its attempts. So the attempts of a run are bounded by its budget plus the number
of times it was reaped, and a run that is never reaped and fails transiently each time is executed
within its budget and ends parked. -/

namespace Himmy

/-- The attempts a run may reach when it was reaped `reaped` times. -/
def RunRecord.budget (run : RunRecord) (reaped : Nat) : Int := max 1 run.maxAttempts + reaped

theorem SameRun.budget {a b : RunRecord} (h : SameRun a b) (reaped : Nat) :
    a.budget reaped = b.budget reaped := by
  unfold RunRecord.budget; rw [h.maxAttempts]

/-! ## The bound -/

/-- Every record of `r` is within the budget of `r`, and a queued one below it. -/
structure Fleet.Budgeted (r : String) (f : Fleet) : Prop where
  coherent : f.Coherent
  row : ∀ row, f.record r = some row → row.attempt ≤ row.budget (f.reaps.count r)
    ∧ (row.status = .queued → row.attempt < row.budget (f.reaps.count r))
  held : ∀ w ∈ f.workers, w.run.runId = r → w.run.attempt ≤ w.run.budget (f.reaps.count r)
    ∧ ∀ run, w.stage = .deciding run → run.attempt ≤ run.budget (f.reaps.count r)

namespace Worker

theorem Effect.budgeted {t t' : RunTable} {now : Instant} {w w' : Worker} {l : WorkerStep}
    (heff : w.Effect t now l t' w') {n : Nat}
    (hrow : ∀ row, t.get? w.run.runId = some row → row.attempt ≤ row.budget n
      ∧ (row.status = .queued → row.attempt < row.budget n)) (hheld : w.run.attempt ≤ w.run.budget n
      ∧ ∀ run, w.stage = .deciding run → run.attempt ≤ run.budget n) :
    (∀ row, t'.get? w.run.runId = some row → row.attempt ≤ row.budget n
      ∧ (row.status = .queued → row.attempt < row.budget n)) ∧ w'.run.attempt ≤ w'.run.budget n
      ∧ ∀ run, w'.stage = .deciding run → run.attempt ≤ run.budget n := by
  -- a record saved over the row, within the budget and not queued, or below the budget
  have hput : ∀ rec : RunRecord, rec.attempt ≤ rec.budget n →
      (rec.status = .queued → rec.attempt < rec.budget n) →
      ∀ row, (t.put rec).get? w.run.runId = some row → row.attempt ≤ row.budget n
        ∧ (row.status = .queued → row.attempt < row.budget n) := by
    intro rec hle hlt row hget
    rw [KeyedList.get?_put] at hget
    split at hget
    · cases hget; exact ⟨hle, hlt⟩
    · exact hrow row hget
  cases heff with
  | renews _ hget _ =>
    obtain ⟨hle, hlt⟩ := hrow _ hget
    exact ⟨hput _ hle hlt, hheld⟩
  | stopsBeating => exact ⟨hrow, hheld⟩
  | waits | passes | gives | crashes => exact ⟨hrow, hheld.1, fun run hrun => by cases hrun⟩
  | rereads _ hget => exact ⟨hrow, (hrow _ hget).1, fun run hrun => by cases hrun⟩
  | reads _ hget =>
    refine ⟨hrow, hheld.1, fun run hrun => ?_⟩
    cases hrun
    exact (hrow _ hget).1
  | fails _ hnext =>
    refine ⟨hput _ hheld.1 (fun hq => by cases hq), hheld.1, fun run hrun => ?_⟩
    rcases hnext with rfl | rfl <;> cases hrun
  | marks => exact ⟨hput _ hheld.1 (fun hq => by cases hq), hheld.1, fun run hrun => by cases hrun⟩
  | @finishes outcome next hstage hnext =>
    have hclaim := (SameClaim.stamped (outcome.apply .dispatch w.run now) now).trans
      (SameClaim.apply .dispatch outcome w.run now)
    have hle : ((outcome.apply .dispatch w.run now).stamped now).attempt
        ≤ ((outcome.apply .dispatch w.run now).stamped now).budget n := by
      rw [(SameRun.of_sameClaim hclaim).budget n, hclaim.attempt]; exact hheld.1
    refine ⟨hput _ hle (fun hq => ?_), hle, fun run hrun => ?_⟩
    · have hq' : (outcome.apply .dispatch w.run now).status = .queued := hq
      rcases outcome.status_apply .dispatch w.run now with hs | hs | hs <;>
        (rw [hs] at hq'; cases hq')
    · rcases hnext with rfl | ⟨-, rfl⟩ <;> cases hrun
  | @retries run saved hstage hsave =>
    refine ⟨?_, hheld.1, fun run hrun => by cases hrun⟩
    have hle := hheld.2 run hstage
    obtain ⟨-, -, ⟨hleft, rfl⟩ | rfl⟩ := applyRetryPolicy_cases hsave
    · -- attempts were left: the re-queued record is below its budget
      have hlt : run.attempt < max 1 run.maxAttempts := of_decide_eq_true hleft
      refine hput _ hle (fun _ => ?_)
      show run.attempt < max 1 run.maxAttempts + (n : Int)
      omega
    · exact hput _ hle (fun hq => by cases hq)

end Worker

namespace Fleet.Budgeted

variable {r : String} {f f' : Fleet}

theorem step {cfg : FleetConfig} {e : Instant × Action} (h : f.Budgeted r) (hquiet : QuietOn r f e)
    (hstep : (fleet cfg).step f e = some f') : f'.Budgeted r := by
  have hcoherent := (Fleet.effect_of_step h.coherent hstep).coherent h.coherent
  have honrun := Fleet.onRun_of_step h.coherent hquiet hstep
  cases honrun with
  | elsewhere hrow hworkers hreaps =>
    refine ⟨hcoherent, ?_, ?_⟩
    · rw [hrow, hreaps]; exact h.row
    · intro v hv hvr
      obtain ⟨j, hj⟩ := List.getElem?_of_mem hv
      obtain ⟨w, hw, reaped, superseded, rfl⟩ := hworkers.back j v hj hvr
      rw [hreaps]
      exact h.held w (List.mem_of_getElem? hw) hvr
  | @created _ _ run hnone hrow _ hattempt hworkers hreaps =>
    refine ⟨hcoherent, fun row hget => ?_, ?_⟩
    · cases hrow.symm.trans hget
      have hlt : run.attempt < run.budget (f'.reaps.count r) := by
        unfold RunRecord.budget; omega
      exact ⟨hlt.le, fun _ => hlt⟩
    · rw [hworkers, hreaps]; exact h.held
  | @claimed now ownerId lease _ _ _ _ run hid hget hqueued hrow hworkers hreaps =>
    -- a queued run is below its budget, so its claim is within it
    have hle : run.attempt + 1 ≤ run.budget (f.reaps.count r) := (h.row run hget).2 hqueued
    refine ⟨hcoherent, fun row hget' => ?_, fun v hv hvr => ?_⟩
    · cases hrow.symm.trans hget'
      rw [hreaps]
      exact ⟨hle, fun hq => by cases hq⟩
    · rw [hreaps]
      rw [hworkers] at hv
      rcases List.mem_append.1 hv with hv | hv
      · obtain ⟨w, hw, rfl⟩ := List.mem_map.1 hv
        obtain ⟨superseded, heq⟩ := w.noteClaim_eq run.runId ownerId
        rw [heq] at hvr ⊢
        exact h.held w hw hvr
      · rw [List.mem_singleton] at hv
        subst hv
        exact ⟨hle, fun _ hrun => by cases hrun⟩
  | @worked now i l w w' _ hw hid heff hworkers hreaps =>
    subst hid
    obtain ⟨hrow, hheld⟩ := heff.budgeted h.row (h.held w (List.mem_of_getElem? hw) rfl)
    rw [← hreaps] at hrow hheld
    refine ⟨hcoherent, hrow, fun v hv hvr => ?_⟩
    rw [hworkers] at hv
    rcases List.mem_or_eq_of_mem_set hv with hv | rfl
    · rw [hreaps]; exact h.held v hv hvr
    · exact hheld
  | @reaped now _ _ run _ hget hrow hworkers hreaps =>
    -- the reap re-queues the run at its attempts, and raises the budget by one
    have hmore : ∀ rec : RunRecord, rec.attempt ≤ rec.budget (f.reaps.count r) →
        rec.attempt < rec.budget (f'.reaps.count r) := by
      intro rec hle
      unfold RunRecord.budget at hle ⊢
      rw [hreaps]
      push_cast
      omega
    refine ⟨hcoherent, fun row hget' => ?_, fun v hv hvr => ?_⟩
    · cases hrow.symm.trans hget'
      have hlt : run.attempt < run.budget (f'.reaps.count r) := hmore run (h.row run hget).1
      exact ⟨hlt.le, fun _ => hlt⟩
    · obtain ⟨j, hj⟩ := List.getElem?_of_mem hv
      obtain ⟨w, hw, reaped, superseded, rfl⟩ := hworkers.back j v hj hvr
      obtain ⟨hle, hdeciding⟩ := h.held w (List.mem_of_getElem? hw) hvr
      exact ⟨(hmore _ hle).le, fun run hrun => (hmore run (hdeciding run hrun)).le⟩

theorem empty (r : String) : ({} : Fleet).Budgeted r :=
  ⟨Fleet.coherent_empty, fun _ h => (by cases h), fun _ hw => absurd hw List.not_mem_nil⟩

end Fleet.Budgeted

/-! ## Runs that fail transiently each time -/

/-- A worker on `r` gets to drive it, and its drive fails transiently. -/
def FailsTransiently (r : String) (f : Fleet) (e : Instant × Action) : Prop :=
  match e.2 with
  | .worker i l => ∀ w ∈ f.workers[i]?, w.run.runId = r → match l with
    | .crash => False
    | .rehydrate exc => w.saves (.rehydrate exc) = false
    | .resolveMembers wired removed => w.saves (.resolveMembers wired removed) = false
    | .finish outcome => outcome ≠ .cancelled
        ∧ (outcome.apply .dispatch w.run e.1).status = .failed
        ∧ (outcome.apply .dispatch w.run e.1).failsTransiently = true
    | _ => True
  | _ => True

instance (r : String) (f : Fleet) : ∀ e : Instant × Action, Decidable (FailsTransiently r f e)
  | (_, .worker _ .heartbeat) | (_, .worker _ (.rehydrate _))
  | (_, .worker _ (.resolveMembers ..)) | (_, .worker _ .reread) | (_, .worker _ .markRunning)
  | (_, .worker _ (.finish _)) | (_, .worker _ .readForRetry) | (_, .worker _ .saveRetry)
  | (_, .worker _ .crash) => by unfold FailsTransiently; infer_instance
  | (_, .create _) | (_, .claim ..) | (_, .reap _) | (_, .redrive ..) | (_, .resume ..)
  | (_, .resumer ..) => .isTrue trivial

def NeverReaped (r : String) (f : Fleet) (e : Instant × Action) : Prop :=
  match e.2 with
  | .reap lanes => r ∉ (f.store.requeueExpiredLeases e.1 lanes).2
  | _ => True

instance (r : String) (f : Fleet) : ∀ e : Instant × Action, Decidable (NeverReaped r f e)
  | (_, .reap _) => by unfold NeverReaped; infer_instance
  | (_, .create _) | (_, .claim ..) | (_, .worker ..)
  | (_, .redrive ..) | (_, .resume ..) | (_, .resumer ..) => .isTrue trivial

theorem NeverReaped.not_expired {r : String} {f : Fleet} {now : Instant}
    {lanes : Option (List String)} (h : NeverReaped r f (now, .reap lanes)) :
    r ∉ f.store.records.expiredIds now lanes := by
  have h' : r ∉ (f.store.requeueExpiredLeases now lanes).2 := h
  rw [f.store.requeueExpiredLeases_ids] at h'
  exact h'

def Worker.SettledTransiently (w : Worker) (row : RunRecord) : Prop :=
  w.stage = .settled → row.status = .failed ∧ row.failsTransiently = true

theorem Worker.unnoted_settledTransiently : Unnoted Worker.SettledTransiently := by
  rintro _ w row ⟨reaped, superseded, rfl⟩ h
  exact h

theorem applyRetryPolicy_isSome {run : RunRecord} (now : Instant) (hfailed : run.status = .failed)
    (htransient : run.failsTransiently = true) : applyRetryPolicy run now ≠ none := by
  unfold applyRetryPolicy
  rw [if_neg (by simp [hfailed]), if_neg (by simp [htransient])]
  split <;> simp

namespace Worker

variable {r : String} {f : Fleet} {t' : RunTable} {now : Instant} {i : Nat} {w w' : Worker}
  {l : WorkerStep} {row : RunRecord}

theorem Effect.attempt_eq {t : RunTable} (heff : w.Effect t now l t' w')
    (hget : t.get? w.run.runId = some row) (hholds : w.Holds row) :
    ∃ row', t'.get? w.run.runId = some row' ∧ row'.attempt = row.attempt := by
  have hput : ∀ rec : RunRecord, rec.runId = w.run.runId → rec.attempt = row.attempt →
      ∃ row', (t.put rec).get? w.run.runId = some row' ∧ row'.attempt = row.attempt :=
    fun rec hid hattempt => ⟨rec, by rw [← hid]; exact KeyedList.get?_put_self t rec, hattempt⟩
  cases heff with
  | renews _ hget' _ =>
    cases hget.symm.trans hget'
    have hid : row.runId = w.run.runId := KeyedList.key_of_get? hget
    exact hput _ hid rfl
  | fails | marks => exact hput _ rfl hholds.attempt.symm
  | @finishes outcome _ _ _ =>
    have hclaim := (SameClaim.stamped (outcome.apply .dispatch w.run now) now).trans
      (SameClaim.apply .dispatch outcome w.run now)
    exact hput _ hclaim.runId (hclaim.attempt.trans hholds.attempt.symm)
  | @retries run saved hstage hsave =>
    obtain ⟨rfl, -⟩ := hholds.deciding run hstage
    have hattempt : saved.attempt = row.attempt := by
      obtain ⟨-, -, ⟨-, rfl⟩ | rfl⟩ := applyRetryPolicy_cases hsave <;> rfl
    exact hput _ ((SameRun.of_applyRetryPolicy hsave).runId.trans (KeyedList.key_of_get? hget))
      hattempt
  | _ => exact ⟨row, hget, rfl⟩

theorem Effect.rests (heff : w.Effect f.store.records now l t' w')
    (hget : f.record w.run.runId = some row) (hholds : w.Holds row)
    (hsettled : w.SettledTransiently row) (hw : f.workers[i]? = some w)
    (hfails : FailsTransiently w.run.runId f (now, .worker i l)) (hdone : w'.isDone = true) :
    ∃ row', t'.get? w.run.runId = some row' ∧ (row'.status = .queued ∨ row'.status = .parked) := by
  have hl := hfails w hw rfl
  cases heff with
  | renews hactive | stopsBeating hactive => exact absurd (hactive.symm.trans hdone) (by decide)
  | waits | rereads | marks | reads => cases hdone
  | fails _ _ hsaves hlabel =>
    rcases hlabel with ⟨exc, rfl⟩ | ⟨wired, removed, rfl⟩ <;>
      (dsimp only at hl; rw [hl] at hsaves; cases hsaves)
  | finishes _ hnext =>
    rcases hnext with rfl | ⟨rfl, -⟩
    · cases hdone
    · exact absurd rfl hl.1
  | passes hstage hget' hpass =>
    cases hget.symm.trans hget'
    exact absurd (hsettled hstage) hpass
  | gives hstage hsave =>
    obtain ⟨-, hfailed, htransient⟩ := hholds.deciding _ hstage
    exact absurd hsave (applyRetryPolicy_isSome now hfailed htransient)
  | crashes => exact absurd hl id
  | @retries run saved hstage hsave =>
    obtain ⟨rfl, -⟩ := hholds.deciding run hstage
    have hid : (saved.stamped now).runId = w.run.runId :=
      (SameRun.of_applyRetryPolicy hsave).runId.trans (KeyedList.key_of_get? hget)
    refine ⟨saved.stamped now, by rw [← hid]; exact KeyedList.get?_put_self _ _, ?_⟩
    obtain ⟨-, -, ⟨-, rfl⟩ | rfl⟩ := applyRetryPolicy_cases hsave
    · exact Or.inl rfl
    · exact Or.inr rfl

theorem Effect.settledTransiently (heff : w.Effect f.store.records now l t' w')
    (hget : f.record w.run.runId = some row) (hsettled : w.SettledTransiently row)
    (hw : f.workers[i]? = some w) (hfails : FailsTransiently w.run.runId f (now, .worker i l))
    {row' : RunRecord} (hget' : t'.get? w.run.runId = some row') : w'.SettledTransiently row' := by
  have hl := hfails w hw rfl
  intro hstage'
  cases heff with
  | renews _ hget₁ hleased =>
    cases hget.symm.trans hget₁
    simp only [RunRecord.leasedTo, Bool.and_eq_true, decide_eq_true_eq] at hleased
    have hfailed := (hsettled hstage').1
    rw [hleased.2] at hfailed
    cases hfailed
  | stopsBeating =>
    cases hget.symm.trans hget'
    exact hsettled hstage'
  | fails _ _ hsaves hlabel =>
    rcases hlabel with ⟨exc, rfl⟩ | ⟨wired, removed, rfl⟩ <;>
      (dsimp only at hl; rw [hl] at hsaves; cases hsaves)
  | @finishes outcome _ _ _ =>
    have hid := ((SameClaim.stamped (outcome.apply .dispatch w.run now) now).trans
      (SameClaim.apply .dispatch outcome w.run now)).runId
    rw [← hid, KeyedList.get?_put_self] at hget'
    cases hget'
    exact hl.2
  | _ => cases hstage'

end Worker

/-- The number of times `r` was handed to a worker. -/
def Fleet.executions (f : Fleet) (r : String) : Nat := executionsIn r f.workers

theorem executionsIn_set {r : String} {ws : List Worker} {i : Nat} {w w' : Worker}
    (hw : ws[i]? = some w) (hid : w'.run.runId = w.run.runId) :
    executionsIn r (ws.set i w') = executionsIn r ws := by
  obtain ⟨hlen, hget⟩ := List.getElem?_eq_some_iff.1 hw
  unfold executionsIn
  rw [List.countP_set hlen, hget, hid]
  by_cases hr : w.run.runId = r
  · have hpos : 0 < ws.countP (fun w => w.run.runId = r) :=
      List.countP_pos_iff.2 ⟨w, List.mem_of_getElem? hw, by simpa using hr⟩
    simp only [hr, decide_true, if_true]
    omega
  · simp [hr]

/-- The invariant of a run that is never reaped and fails transiently each time: its attempts count
    its executions, and when nobody has it it is queued or parked. -/
structure Fleet.Retried (r : String) (f : Fleet) : Prop where
  coherent : f.Coherent
  sole : f.SoleWorker r
  settled : ∀ w ∈ f.workers, w.ActiveOn r →
    ∃ row, f.record r = some row ∧ w.SettledTransiently row
  attempts : ∀ row, f.record r = some row → row.attempt = f.executions r
  unstored : f.record r = none → f.executions r = 0
  resting : ∀ row, f.record r = some row → (∀ w ∈ f.workers, ¬ w.ActiveOn r) →
    row.status = .queued ∨ row.status = .parked
  unreaped : f.reaps.count r = 0

namespace Fleet.Retried

variable {r : String} {f f' : Fleet} {e : Instant × Action}

theorem step {cfg : FleetConfig} (h : f.Retried r) (hquiet : QuietOn r f e)
    (hnever : NeverReaped r f e) (hfails : FailsTransiently r f e)
    (hstep : (fleet cfg).step f e = some f') : f'.Retried r := by
  have heff := Fleet.effect_of_step h.coherent hstep
  have hpersists := heff.persists h.coherent
  have hcoherent := heff.coherent h.coherent
  have honrun := Fleet.onRun_of_step h.coherent hquiet hstep
  have hspares : SparesActive r f e := by
    obtain ⟨now, a⟩ := e
    cases a with
    | reap lanes => exact fun hexp => absurd hexp hnever.not_expired
    | _ => trivial
  have hsole := h.sole.step h.coherent hquiet hspares hstep
  have hsettled := h.sole.pairs hspares honrun Worker.unnoted_settledTransiently
    (fun _ _ _ _ _ _ hs => by cases hs)
    (fun now i l w w' row he hw hid hwork hget hholds hs hactive => by
      subst he hid
      obtain ⟨row', hget', -⟩ := hwork.holds hget hholds hactive
      exact ⟨row', hget', hwork.settledTransiently hget hs hw hfails hget'⟩) h.settled
  cases honrun with
  | elsewhere hrow hworkers hreaps =>
    have hexec : f'.executions r = f.executions r := hworkers.count
    refine ⟨hcoherent, hsole, hsettled, ?_, ?_, ?_, hreaps.trans h.unreaped⟩
    · rw [hrow, hexec]; exact h.attempts
    · rw [hrow, hexec]; exact h.unstored
    · rw [hrow]
      intro row hget hnone
      refine h.resting row hget (fun w hw hactive => ?_)
      obtain ⟨j, hj⟩ := List.getElem?_of_mem hw
      obtain ⟨v, hv, reaped, superseded, rfl⟩ := hworkers.forth j w hj hactive.1
      exact hnone _ (List.mem_of_getElem? hv) hactive
  | @created _ _ run hnone hrow hqueued hattempt hworkers hreaps =>
    have hexec : f'.executions r = 0 := by
      rw [executions, hworkers]; exact h.unstored hnone
    refine ⟨hcoherent, hsole, hsettled, fun row hget => ?_, fun hget => ?_, fun row hget _ => ?_,
      hreaps ▸ h.unreaped⟩
    · cases hrow.symm.trans hget; rw [hattempt, hexec]; rfl
    · cases hrow.symm.trans hget
    · cases hrow.symm.trans hget; exact Or.inl hqueued
  | @claimed now ownerId lease _ _ _ _ run hid hget hqueued hrow hworkers hreaps =>
    refine ⟨hcoherent, hsole, hsettled, fun row hget' => ?_, fun hget' => ?_,
      fun row _ hnone => ?_, hreaps ▸ h.unreaped⟩
    · cases hrow.symm.trans hget'
      have hexec : f'.executions r = f.executions r + 1 := by
        have hmap : executionsIn r (f.workers.map (Worker.noteClaim run.runId ownerId))
            = executionsIn r f.workers := executionsIn_map r f.workers (fun w => by
          obtain ⟨superseded, heq⟩ := w.noteClaim_eq run.runId ownerId
          rw [heq])
        unfold executions executionsIn at *
        rw [hworkers, List.countP_append, hmap, List.countP_singleton]
        simp [Worker.start, hid]
      have hattempt : (run.claimedBy ownerId (isoPlusSeconds now lease) now).attempt
          = run.attempt + 1 := rfl
      rw [hexec, hattempt, h.attempts run hget]
      rfl
    · cases hrow.symm.trans hget'
    · refine absurd ?_ (hnone (Worker.start ownerId lease
        (run.claimedBy ownerId (isoPlusSeconds now lease) now) now)
        (by rw [hworkers]; exact List.mem_append_right _ (List.mem_singleton_self _)))
      exact ⟨hid, rfl⟩
  | @worked now i l w w' _ hw hid heff hworkers hreaps =>
    subst hid
    have hmem := List.mem_of_getElem? hw
    have hactive : w.ActiveOn w.run.runId := ⟨rfl, heff.active⟩
    obtain ⟨row, hget, hholds⟩ := h.sole.holds w hmem hactive
    obtain ⟨row₁, hget₁, hs⟩ := h.settled w hmem hactive
    cases hget.symm.trans hget₁
    obtain ⟨row', hget', hattempt⟩ := heff.attempt_eq hget hholds
    have hid' := (heff.sameRun (h.coherent.workers w hmem)).runId
    have hexec : f'.executions w.run.runId = f.executions w.run.runId := by
      rw [executions, hworkers]; exact executionsIn_set hw hid'
    refine ⟨hcoherent, hsole, hsettled, fun row₂ hget₂ => ?_, fun hget₂ => ?_,
      fun row₂ hget₂ hnone => ?_, hreaps ▸ h.unreaped⟩
    · cases hget'.symm.trans hget₂
      rw [hattempt, hexec]
      exact h.attempts row hget
    · cases hget'.symm.trans hget₂
    · have hlen : i < f.workers.length := (List.getElem?_eq_some_iff.1 hw).1
      have hdone : w'.isDone = true := by
        by_contra hnot
        exact hnone w' (by rw [hworkers]; exact List.mem_set hlen w') ⟨hid', by simpa using hnot⟩
      obtain ⟨row₃, hget₃, hrests⟩ := heff.rests hget hholds hs hw hfails hdone
      cases hget₂.symm.trans hget₃
      exact hrests
  | reaped hexpired => exact absurd hexpired hnever.not_expired

theorem empty (r : String) : ({} : Fleet).Retried r :=
  ⟨Fleet.coherent_empty, SoleWorker.empty r, fun _ hw => absurd hw List.not_mem_nil,
    fun _ h => (by cases h), fun _ => rfl, fun _ h => (by cases h), rfl⟩

end Fleet.Retried

/-! ## The result -/

/-- **The retry budget.** While nobody redrives or resumes `r`, its attempts stay within its budget
    and the number of times it was reaped; when moreover it is never reaped and every worker of it
    fails transiently, it is executed within its budget and comes to rest parked. -/
theorem retryBudget {cfg : FleetConfig} {r : String} {es : List (Instant × Action)} {f : Fleet}
    (hquiet : (fleet cfg).AlongRun (QuietOn r) {} es) (hrun : (fleet cfg).exec {} es = some f) :
    (∀ row, f.record r = some row → row.attempt ≤ row.budget (f.reaps.count r))
    ∧ ((fleet cfg).AlongRun (NeverReaped r) {} es → (fleet cfg).AlongRun (FailsTransiently r) {} es →
      ∀ row, f.record r = some row → (f.executions r : Int) ≤ max 1 row.maxAttempts
        ∧ ((∀ w ∈ f.workers, ¬ w.ActiveOn r) → row.status ≠ .queued → row.status = .parked)) := by
  have hbudget := (fleet cfg).exec_invariant
    (fun _ _ _ h hC hs => Fleet.Budgeted.step h hC hs) (Fleet.Budgeted.empty r) hquiet hrun
  refine ⟨fun row hget => (hbudget.row row hget).1, fun hnever hfails row hget => ?_⟩
  have hretried := (fleet cfg).exec_invariant
    (fun _ _ _ h hC hs => Fleet.Retried.step h hC.1.1 hC.1.2 hC.2 hs) (Fleet.Retried.empty r)
    ((hquiet.and hnever).and hfails) hrun
  refine ⟨?_, fun hrest hqueued => (hretried.resting row hget hrest).resolve_left hqueued⟩
  have hle := (hbudget.row row hget).1
  rw [hretried.unreaped, hretried.attempts row hget] at hle
  simpa [RunRecord.budget] using hle

private def startedRun : List (Instant × Action) :=
  [(0, .create { runId := "r", workspaceId := "w", subjectId := "s", inputBlob := some "input" }),
    (1, .claim "a" 10 none false 0)]

private def parking : List (Instant × Action) :=
  startedRun ++ [(2, .worker 0 (.rehydrate none)), (3, .worker 0 .markRunning),
    (4, .worker 0 (.finish (.timedOut 300))), (5, .worker 0 .readForRetry),
    (6, .worker 0 .saveRetry)]

private def parkedFleet : Fleet := ((fleet {}).exec {} parking).getD {}

/-- A run with one attempt times out, and is parked. -/
theorem retryBudget_parked : ∃ row, parkedFleet.record "r" = some row ∧ row.attempt ≤ row.budget 0
      ∧ row.status = .parked := by
  have hrun : (fleet {}).exec {} parking = some parkedFleet := rfl
  have hbudget := retryBudget (r := "r") (by decide) hrun
  exact ⟨_, rfl, hbudget.1 _ rfl,
    (hbudget.2 (by decide) (by decide) _ rfl).2 (by decide) (by decide)⟩

private def crashing : List (Instant × Action) :=
  startedRun ++ [(2, .worker 0 .crash), (20, .reap none), (21, .claim "b" 10 none false 0)]

private def crashedFleet : Fleet := ((fleet {}).exec {} crashing).getD {}

/-- A run with one attempt, whose worker crashes, is handed out a second time. -/
theorem retryBudget_exceeded :
    (fleet {}).AlongRun (QuietOn "r") {} crashing ∧ (fleet {}).exec {} crashing = some crashedFleet
      ∧ ∃ row, crashedFleet.record "r" = some row ∧ ¬ row.attempt ≤ max 1 row.maxAttempts :=
  ⟨by decide, rfl, _, rfl, by decide⟩

end Himmy
