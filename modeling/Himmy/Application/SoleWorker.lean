import Himmy.Application.FleetEffects

/-! # One active worker on a run

As long as no reap takes a run from a worker that is still active, and no redrive or resume writes
it, at most one worker is active on a run and the stored row is at that worker's stage
(`Fleet.SoleWorker`). -/

namespace Himmy

open KeyedList (key_of_get? get?_put_self get?_put_of_ne)

/-! ## A worker and its row -/

def WorkerStage.holding : WorkerStage → Bool
  | .claimed => true
  | .waiting => true
  | .ready => true
  | .driving => true
  | _ => false

namespace Worker

/-- The worker has not finished with the run `r`. -/
def ActiveOn (w : Worker) (r : String) : Prop := w.run.runId = r ∧ w.isDone = false

instance (w : Worker) (r : String) : Decidable (w.ActiveOn r) :=
  inferInstanceAs (Decidable (_ ∧ _))

variable {w : Worker}

theorem isDone_of_stage (h : w.stage = .done) : w.isDone = true := by simp [isDone, h]

theorem active_of_stage (h : w.stage ≠ .done) : w.isDone = false := by
  unfold isDone; split
  · next hdone => exact absurd hdone h
  · rfl

theorem Effect.holding_of_holding {t t' : RunTable} {now : Instant} {w w' : Worker} {l : WorkerStep}
    (heff : w.Effect t now l t' w') (h : w'.stage.holding = true) : w.stage.holding = true := by
  cases heff with
  | renews | stopsBeating => exact h
  | marks hstage => rcases hstage with hs | hs <;> (rw [hs]; rfl)
  | waits hstage | rereads hstage => rw [hstage]; rfl
  | fails hstage | finishes hstage => rw [hstage]; rfl
  | reads | passes | retries | gives | crashes => cases h

/-- The stored row is where the worker's stage says. -/
structure Holds (w : Worker) (row : RunRecord) : Prop where
  attempt : row.attempt = w.run.attempt
  holding : w.stage.holding = true → row.status = .running ∧ row.ownerId = some w.ownerId
    ∧ w.run.ownerId = some w.ownerId
  settled : w.stage = .settled → row.status ≠ .queued ∧ row.status ≠ .running
  deciding : ∀ run, w.stage = .deciding run → row = run ∧ run.status = .failed
    ∧ run.failsTransiently = true

theorem Holds.not_queued {row : RunRecord} (h : w.Holds row)
    (hactive : w.isDone = false) : row.status ≠ .queued := by
  cases hstage : w.stage with
  | settled => exact (h.settled hstage).1
  | deciding run => rw [(h.deciding run hstage).1, (h.deciding run hstage).2.1]; simp
  | done => rw [isDone_of_stage hstage] at hactive; cases hactive
  | _ => rw [(h.holding (by rw [hstage]; rfl)).1]; simp

theorem Effect.holds {t t' : RunTable} {now : Instant} {w w' : Worker} {l : WorkerStep}
    (heff : w.Effect t now l t' w') {row : RunRecord}
    (hget : t.get? w.run.runId = some row) (h : w.Holds row) (hactive : w'.isDone = false) :
    ∃ row', t'.get? w.run.runId = some row' ∧ w'.Holds row' := by
  have hid := key_of_get? hget
  cases heff with
  | @renews row₁ _ hget₁ hleased =>
    have hsame : row = row₁ := Option.some.inj (hget.symm.trans hget₁)
    subst hsame
    simp only [RunRecord.leasedTo, Bool.and_eq_true, decide_eq_true_eq] at hleased
    have hput := get?_put_self t (row.renewed (isoPlusSeconds now w.lease) now)
    rw [RunRecord.runId_renewed, hid] at hput
    refine ⟨_, hput, ⟨h.attempt, h.holding, h.settled, fun run hrun => ?_⟩⟩
    have := (h.deciding run hrun)
    rw [this.1, this.2.1] at hleased
    cases hleased.2
  | stopsBeating => exact ⟨row, hget, ⟨h.1, h.2, h.3, h.4⟩⟩
  | waits hstage =>
    exact ⟨row, hget, ⟨h.1, fun _ => h.holding (by rw [hstage]; rfl), fun hs => (by cases hs),
      fun run hrun => by cases hrun⟩⟩
  | @rereads row₁ hstage hget₁ =>
    have hsame : row = row₁ := Option.some.inj (hget.symm.trans hget₁)
    subst hsame
    obtain ⟨hrunning, howner, -⟩ := h.holding (by rw [hstage]; rfl)
    exact ⟨row, hget, ⟨rfl, fun _ => ⟨hrunning, howner, howner⟩, fun hs => (by cases hs),
      fun run hrun => by cases hrun⟩⟩
  | @fails _ error next hstage hnext =>
    refine ⟨_, get?_put_self t ((w.run.rehydrationFailed error now).stamped now),
      ⟨rfl, fun hs => ?_, fun _ => by simp [RunRecord.stamped, RunRecord.rehydrationFailed],
        fun run hrun => ?_⟩⟩
    · rcases hnext with rfl | rfl <;> cases hs
    · rcases hnext with rfl | rfl <;> cases hrun
  | marks hstage =>
    obtain ⟨-, -, howner⟩ := h.holding (by rcases hstage with hs | hs <;> (rw [hs]; rfl))
    exact ⟨_, get?_put_self t ((w.run.markedRunning now).stamped now),
      ⟨rfl, fun _ => ⟨rfl, howner, howner⟩, fun hs => (by cases hs), fun run hrun => by cases hrun⟩⟩
  | @finishes outcome next hstage hnext =>
    have hclaim := (SameClaim.stamped (outcome.apply .dispatch w.run now) now).trans
      (SameClaim.apply .dispatch outcome w.run now)
    refine ⟨(outcome.apply .dispatch w.run now).stamped now,
      by rw [← hclaim.runId]; exact get?_put_self t _, ⟨rfl, fun hs => ?_, fun _ => ?_,
        fun run hrun => ?_⟩⟩
    · rcases hnext with rfl | ⟨-, rfl⟩ <;> cases hs
    · have hstatus : ((outcome.apply .dispatch w.run now).stamped now).status
          = (outcome.apply .dispatch w.run now).status := rfl
      rw [hstatus]
      rcases outcome.status_apply .dispatch w.run now with hs | hs | hs <;> rw [hs] <;> simp
    · rcases hnext with rfl | ⟨-, rfl⟩ <;> cases hrun
  | @reads row₁ hstage hget₁ hfailed htransient =>
    have hsame : row = row₁ := Option.some.inj (hget.symm.trans hget₁)
    subst hsame
    refine ⟨row, hget, ⟨h.1, fun hs => (by cases hs), fun hs => (by cases hs), fun run hrun => ?_⟩⟩
    cases hrun
    exact ⟨rfl, hfailed, htransient⟩
  | passes | retries | gives | crashes => cases hactive

end Worker

/-! ## Events as one run sees them -/

variable (r : String)

/-- The event is not a redrive of `r` and not a step of a resume of `r`. -/
def QuietOn (f : Fleet) (e : Instant × Action) : Prop :=
  match e.2 with
  | .redrive runId _ => runId ≠ r
  | .resumer i _ => ∀ ρ ∈ f.resumes[i]?, ρ.run.runId ≠ r
  | _ => True

instance (r : String) (f : Fleet) : ∀ e : Instant × Action, Decidable (QuietOn r f e)
  | (_, .redrive ..) => by unfold QuietOn; infer_instance
  | (_, .resumer ..) => by unfold QuietOn; infer_instance
  | (_, .create _) | (_, .claim ..) | (_, .worker ..)
  | (_, .reap _) | (_, .resume ..) => .isTrue trivial

def Worker.NotedFrom (v w : Worker) : Prop := ∃ reaped superseded, v = { w with reaped, superseded }

variable (ws : List Worker)

/-- The number of times workers were started on `r`. -/
def executionsIn : Nat := ws.countP (fun w => w.run.runId = r)

/-- The workers on `r` are the same in both lists, each at its place, up to notes. -/
structure SameWorkersOn (r : String) (ws ws' : List Worker) : Prop where
  back : ∀ (j : Nat) (v : Worker), ws'[j]? = some v → v.run.runId = r →
    ∃ w, ws[j]? = some w ∧ v.NotedFrom w
  forth : ∀ (j : Nat) (w : Worker), ws[j]? = some w → w.run.runId = r →
    ∃ v, ws'[j]? = some v ∧ v.NotedFrom w
  count : executionsIn r ws' = executionsIn r ws

/-- A quiet event as the run `r` sees it. -/
inductive Fleet.OnRun (r : String) (f : Fleet) : Instant × Action → Fleet → Prop
  | elsewhere {e : Instant × Action} {f' : Fleet} (hrow : f'.record r = f.record r)
      (hworkers : SameWorkersOn r f.workers f'.workers)
      (hreaps : f'.reaps.count r = f.reaps.count r) : OnRun r f e f'
  | created {e : Instant × Action} {f' : Fleet} {run : RunRecord} (hnone : f.record r = none)
      (hrow : f'.record r = some run) (hqueued : run.status = .queued) (hattempt : run.attempt = 0)
      (hworkers : f'.workers = f.workers) (hreaps : f'.reaps = f.reaps) : OnRun r f e f'
  | claimed {now : Instant} {ownerId : String} {lease : Duration} {lanes : Option (List String)}
      {fairness : Bool} {workspaceConcurrency : Int} {f' : Fleet} {run : RunRecord}
      (hid : run.runId = r) (hget : f.record r = some run) (hqueued : run.status = .queued)
      (hrow : f'.record r = some (run.claimedBy ownerId (isoPlusSeconds now lease) now))
      (hworkers : f'.workers = f.workers.map (Worker.noteClaim run.runId ownerId) ++
        [Worker.start ownerId lease (run.claimedBy ownerId (isoPlusSeconds now lease) now) now])
      (hreaps : f'.reaps = f.reaps) :
      OnRun r f (now, .claim ownerId lease lanes fairness workspaceConcurrency) f'
  | worked {now : Instant} {i : Nat} {l : WorkerStep} {w w' : Worker} {f' : Fleet}
      (hw : f.workers[i]? = some w) (hid : w.run.runId = r)
      (heff : w.Effect f.store.records now l f'.store.records w')
      (hworkers : f'.workers = f.workers.set i w') (hreaps : f'.reaps = f.reaps) :
      OnRun r f (now, .worker i l) f'
  | reaped {now : Instant} {lanes : Option (List String)} {f' : Fleet} {run : RunRecord}
      (hexpired : r ∈ f.store.records.expiredIds now lanes) (hget : f.record r = some run)
      (hrow : f'.record r = some (run.requeued now))
      (hworkers : SameWorkersOn r f.workers f'.workers)
      (hreaps : f'.reaps.count r = f.reaps.count r + 1) : OnRun r f (now, .reap lanes) f'

theorem SameWorkersOn.refl : SameWorkersOn r ws ws :=
  ⟨fun _ v hv _ => ⟨v, hv, v.reaped, v.superseded, rfl⟩,
    fun _ v hv _ => ⟨v, hv, v.reaped, v.superseded, rfl⟩, rfl⟩

theorem executionsIn_map {g : Worker → Worker}
    (hg : ∀ w, (g w).run = w.run) : executionsIn r (ws.map g) = executionsIn r ws := by
  unfold executionsIn
  rw [List.countP_map]
  exact List.countP_congr (fun w _ => by simp [hg])

theorem SameWorkersOn.map_noteReap (runIds : List String) :
    SameWorkersOn r ws (ws.map (Worker.noteReap runIds)) where
  back j v hv _ := by
    rw [List.getElem?_map, Option.map_eq_some_iff] at hv
    obtain ⟨w, hw, rfl⟩ := hv
    obtain ⟨reaped, heq⟩ := w.noteReap_eq runIds
    exact ⟨w, hw, reaped, w.superseded, heq⟩
  forth j w hw _ := by
    obtain ⟨reaped, heq⟩ := w.noteReap_eq runIds
    exact ⟨_, by rw [List.getElem?_map, hw]; rfl, reaped, w.superseded, heq⟩
  count := executionsIn_map r ws (fun w => by
    obtain ⟨reaped, heq⟩ := w.noteReap_eq runIds
    rw [heq])

theorem SameWorkersOn.map_noteClaim {r runId ownerId : String} {start : Worker}
    (hstart : start.run.runId ≠ r) :
    SameWorkersOn r ws (ws.map (Worker.noteClaim runId ownerId) ++ [start]) where
  back j v hv hvr := by
    rcases Parties.getElem?_concat_cases hv with hold | rfl
    · rw [List.getElem?_map, Option.map_eq_some_iff] at hold
      obtain ⟨w, hw, rfl⟩ := hold
      obtain ⟨superseded, heq⟩ := w.noteClaim_eq runId ownerId
      exact ⟨w, hw, w.reaped, superseded, heq⟩
    · exact absurd hvr hstart
  forth j w hw _ := by
    obtain ⟨superseded, heq⟩ := w.noteClaim_eq runId ownerId
    refine ⟨_, ?_, w.reaped, superseded, heq⟩
    have hlen : j < ws.length := (List.getElem?_eq_some_iff.1 hw).1
    rw [List.getElem?_append_left (by simpa using hlen), List.getElem?_map, hw]
    rfl
  count := by
    have hmap : executionsIn r (ws.map (Worker.noteClaim runId ownerId)) = executionsIn r ws :=
      executionsIn_map r ws (fun w => by
        obtain ⟨superseded, heq⟩ := w.noteClaim_eq runId ownerId
        rw [heq])
    unfold executionsIn at hmap ⊢
    rw [List.countP_append, hmap, List.countP_singleton]
    simp [hstart]

theorem SameWorkersOn.set {r : String} {ws : List Worker} {i : Nat} {w w' : Worker}
    (hw : ws[i]? = some w) (hne : w.run.runId ≠ r) (hne' : w'.run.runId ≠ r) :
    SameWorkersOn r ws (ws.set i w') where
  back j v hv hvr := by
    rcases Parties.getElem?_set_cases hv with ⟨-, rfl⟩ | ⟨-, hold⟩
    · exact absurd hvr hne'
    · exact ⟨v, hold, v.reaped, v.superseded, rfl⟩
  forth j v hv hvr := by
    refine ⟨v, ?_, v.reaped, v.superseded, rfl⟩
    rw [List.getElem?_set_ne (fun hij => by
      subst hij
      rw [hw] at hv; cases hv
      exact hne hvr)]
    exact hv
  count := by
    obtain ⟨hlen, hget⟩ := List.getElem?_eq_some_iff.1 hw
    unfold executionsIn
    rw [List.countP_set hlen]
    simp [hget, hne, hne']

theorem RunTable.count_expiredIds {t : RunTable} {now : Instant} {lanes : Option (List String)}
    {r : String} (h : r ∈ t.expiredIds now lanes) : (t.expiredIds now lanes).count r = 1 :=
  List.count_eq_one_of_mem (t.nodup_keys.sublist (List.filter_sublist.map _)) h

theorem getElem?_claimed {ws : List Worker} {runId ownerId : String} {start v : Worker} {j : Nat}
    (h : (ws.map (Worker.noteClaim runId ownerId) ++ [start])[j]? = some v) :
    (∃ w, ws[j]? = some w ∧ v.NotedFrom w) ∨ (j = ws.length ∧ v = start) := by
  rw [List.getElem?_append] at h
  split at h
  · rw [List.getElem?_map, Option.map_eq_some_iff] at h
    obtain ⟨w, hw, rfl⟩ := h
    obtain ⟨superseded, heq⟩ := w.noteClaim_eq runId ownerId
    exact Or.inl ⟨w, hw, w.reaped, superseded, heq⟩
  · next hlen =>
      rw [List.length_map] at h hlen
      rw [List.getElem?_singleton] at h
      split at h
      · cases h; exact Or.inr ⟨by omega, rfl⟩
      · cases h

theorem Fleet.onRun_of_step {cfg : FleetConfig} {r : String} {f f' : Fleet} {e : Instant × Action}
    (hf : f.Coherent) (hquiet : QuietOn r f e) (hstep : (fleet cfg).step f e = some f') :
    f.OnRun r e f' := by
  have heff := Fleet.effect_of_step hf hstep
  cases heff with
  | idle hrec _ => exact .elsewhere (by simp only [record, hrec]) (SameWorkersOn.refl r _) rfl
  | @creates now q s' hnew _ hrec =>
    by_cases hid : q.runId = r
    · subst hid
      have hrow : s'.records.get? q.runId = some ((q.record cfg now).stamped now) := by
        rw [hrec]; exact get?_put_self _ _
      exact .created hnew hrow rfl rfl rfl rfl
    · refine .elsewhere ?_ (SameWorkersOn.refl r _) rfl
      simp only [record, hrec]
      exact get?_put_of_ne _ _ (fun he => hid he.symm)
  | @claims now ownerId lease _ _ _ run s' hget hqueued hrec =>
    by_cases hid : run.runId = r
    · refine .claimed hid (hid ▸ hget) hqueued ?_ rfl rfl
      simp only [record, hrec, ← hid]
      exact get?_put_self _ _
    · refine .elsewhere ?_ (SameWorkersOn.map_noteClaim f.workers hid) rfl
      simp only [record, hrec]
      exact get?_put_of_ne _ _ (fun he => hid he.symm)
  | @worker now i l w w' s' hw heff =>
    have hcoh := hf.workers w (List.mem_of_getElem? hw)
    by_cases hid : w.run.runId = r
    · exact .worked hw hid heff rfl rfl
    · have hid' : w'.run.runId ≠ r := fun he => hid ((heff.sameRun hcoh).runId.symm.trans he)
      exact .elsewhere (heff.get?_of_ne hcoh hid) (SameWorkersOn.set hw hid hid') rfl
  | @reaps now lanes s' hrec =>
    have hrow : s'.records.get? r = (f.store.records.get? r).map
        (fun row => if row.leaseExpired now lanes then row.requeued now else row) := by
      rw [hrec, RunTable.get?_requeueExpired]
    by_cases hexp : r ∈ f.store.records.expiredIds now lanes
    · obtain ⟨run, hget, hexpired⟩ := RunTable.mem_expiredIds.1 hexp
      refine .reaped hexp hget ?_ (SameWorkersOn.map_noteReap r _ _) ?_
      · simp only [record, hrow, hget, Option.map_some, hexpired, if_true]
      · rw [List.count_append, RunTable.count_expiredIds hexp]
    · refine .elsewhere ?_ (SameWorkersOn.map_noteReap r _ _) ?_
      · simp only [record, hrow]
        cases hget : f.store.records.get? r with
        | none => rfl
        | some row =>
          have hnot : ¬ row.leaseExpired now lanes = true :=
            fun he => hexp (RunTable.mem_expiredIds.2 ⟨row, hget, he⟩)
          simp [hnot]
      · rw [List.count_append, List.count_eq_zero.2 hexp, Nat.add_zero]
  | @redrives now runId _ row s' hget _ hrec =>
    have hne : r ≠ (row.redriven now).runId := by
      rw [RunRecord.runId_redriven, key_of_get? hget]
      exact fun he => hquiet he.symm
    refine .elsewhere ?_ (SameWorkersOn.refl r _) rfl
    simp only [record, hrec]
    exact get?_put_of_ne _ _ hne
  | loads => exact .elsewhere rfl (SameWorkersOn.refl r _) rfl
  | @resumer now i l ρ ρ' s' hρ heff =>
    exact .elsewhere (heff.get?_of_ne (hf.resumes ρ (List.mem_of_getElem? hρ)) (hquiet ρ hρ))
      (SameWorkersOn.refl r _) rfl

/-! ## The invariant -/

/-- The event does not reap `r` from an active worker. -/
def SparesActive (f : Fleet) (e : Instant × Action) : Prop :=
  match e.2 with
  | .reap lanes => r ∈ f.store.records.expiredIds e.1 lanes → ∀ w ∈ f.workers, ¬ w.ActiveOn r
  | _ => True

/-- At most one worker is active on `r`, and the stored row is at its stage. -/
structure Fleet.SoleWorker (r : String) (f : Fleet) : Prop where
  unique : ∀ (i j : Nat) (w v : Worker), f.workers[i]? = some w → f.workers[j]? = some v →
    w.ActiveOn r → v.ActiveOn r → i = j
  holds : ∀ w ∈ f.workers, w.ActiveOn r → ∃ row, f.record r = some row ∧ w.Holds row

def Unnoted (P : Worker → RunRecord → Prop) : Prop :=
  ∀ v w row, v.NotedFrom w → P w row → P v row

theorem Worker.unnoted_holds : Unnoted Worker.Holds := by
  rintro _ w row ⟨reaped, superseded, rfl⟩ h
  exact ⟨h.1, h.2, h.3, h.4⟩

theorem Worker.NotedFrom.activeOn {v w : Worker} {r : String} (h : v.NotedFrom w)
    (hv : v.ActiveOn r) : w.ActiveOn r := by
  obtain ⟨reaped, superseded, rfl⟩ := h
  exact hv

namespace Fleet.SoleWorker

variable {r : String} {f f' : Fleet} {e : Instant × Action}

theorem none_active (h : f.SoleWorker r) (hrow : ∀ row, f.record r = some row → row.status = .queued) :
    ∀ w ∈ f.workers, ¬ w.ActiveOn r := by
  intro w hw hactive
  obtain ⟨row, hget, hholds⟩ := h.holds w hw hactive
  exact hholds.not_queued hactive.2 (hrow row hget)

/-- **Pairs.** What a claim establishes of the active worker on `r` and the row, and every step of
    the worker keeps, holds after a quiet event that spares the active. -/
theorem pairs {P : Worker → RunRecord → Prop} (h : f.SoleWorker r) (hspares : SparesActive r f e)
    (honrun : f.OnRun r e f') (hnoted : Unnoted P)
    (hclaim : ∀ (now : Instant) (ownerId : String) (lease : Duration) (run : RunRecord),
      run.runId = r → run.status = .queued →
      P (Worker.start ownerId lease (run.claimedBy ownerId (isoPlusSeconds now lease) now) now)
        (run.claimedBy ownerId (isoPlusSeconds now lease) now))
    (hwork : ∀ (now : Instant) (i : Nat) (l : WorkerStep) (w w' : Worker) (row : RunRecord),
      e = (now, .worker i l) → f.workers[i]? = some w →
      w.run.runId = r → w.Effect f.store.records now l f'.store.records w' →
      f.record r = some row → w.Holds row → P w row → w'.isDone = false →
      ∃ row', f'.record r = some row' ∧ P w' row')
    (hpairs : ∀ w ∈ f.workers, w.ActiveOn r → ∃ row, f.record r = some row ∧ P w row) :
    ∀ w ∈ f'.workers, w.ActiveOn r → ∃ row, f'.record r = some row ∧ P w row := by
  intro v hv hactive
  obtain ⟨j, hj⟩ := List.getElem?_of_mem hv
  cases honrun with
  | elsewhere hrow hworkers =>
    obtain ⟨w, hw, hnote⟩ := hworkers.back j v hj hactive.1
    obtain ⟨row, hget, hP⟩ := hpairs w (List.mem_of_getElem? hw) (hnote.activeOn hactive)
    exact ⟨row, hrow.trans hget, hnoted v w row hnote hP⟩
  | created hnone _ _ _ hworkers =>
    rw [hworkers] at hv
    exact absurd hactive (h.none_active (fun row hget => by
      cases hnone.symm.trans hget) v hv)
  | @claimed now ownerId lease _ _ _ _ run hid hget hqueued hrow hworkers =>
    rw [hworkers] at hj
    rcases getElem?_claimed hj with ⟨w, hw, hnote⟩ | ⟨-, rfl⟩
    · refine absurd (hnote.activeOn hactive) (h.none_active (fun row hget' => ?_) w
        (List.mem_of_getElem? hw))
      cases hget.symm.trans hget'
      exact hqueued
    · exact ⟨_, hrow, hclaim now ownerId lease run hid hqueued⟩
  | @worked now i l w w' _ hw hid heff hworkers =>
    have hwactive : w.ActiveOn r := ⟨hid, heff.active⟩
    obtain ⟨row, hget, hholds⟩ := h.holds w (List.mem_of_getElem? hw) hwactive
    obtain ⟨row₁, hget₁, hP⟩ := hpairs w (List.mem_of_getElem? hw) hwactive
    cases hget.symm.trans hget₁
    rw [hworkers] at hj
    rcases Parties.getElem?_set_cases hj with ⟨-, rfl⟩ | ⟨hij, hold⟩
    · exact hwork now i l w _ row rfl hw hid heff hget hholds hP hactive.2
    · exact absurd (h.unique i j w v hw hold hwactive hactive) hij
  | reaped hexpired _ _ hworkers =>
    obtain ⟨w, hw, hnote⟩ := hworkers.back j v hj hactive.1
    exact absurd (hnote.activeOn hactive) (hspares hexpired w (List.mem_of_getElem? hw))

theorem unique_of_onRun (h : f.SoleWorker r) (honrun : f.OnRun r e f') (i j : Nat) (w v : Worker)
    (hw : f'.workers[i]? = some w) (hv : f'.workers[j]? = some v) (haw : w.ActiveOn r)
    (hav : v.ActiveOn r) : i = j := by
  cases honrun with
  | elsewhere _ hworkers | reaped _ _ _ hworkers =>
    obtain ⟨w₀, hw₀, hnw⟩ := hworkers.back i w hw haw.1
    obtain ⟨v₀, hv₀, hnv⟩ := hworkers.back j v hv hav.1
    exact h.unique i j w₀ v₀ hw₀ hv₀ (hnw.activeOn haw) (hnv.activeOn hav)
  | created _ _ _ _ hworkers =>
    rw [hworkers] at hw hv
    exact h.unique i j w v hw hv haw hav
  | @claimed _ _ _ _ _ _ _ run hid hget hqueued _ hworkers =>
    have hlast : ∀ (k : Nat) (u : Worker), f'.workers[k]? = some u → u.ActiveOn r →
        k = f.workers.length := by
      intro k u hu hau
      rw [hworkers] at hu
      rcases getElem?_claimed hu with ⟨w, hw, hnote⟩ | ⟨hk, -⟩
      · refine absurd (hnote.activeOn hau) (h.none_active (fun row hget' => ?_) w
          (List.mem_of_getElem? hw))
        cases hget.symm.trans hget'
        exact hqueued
      · exact hk
    rw [hlast i w hw haw, hlast j v hv hav]
  | @worked _ k _ u u' _ hu hid heff hworkers =>
    have hplace : ∀ (k' : Nat) (v : Worker), f'.workers[k']? = some v → v.ActiveOn r → k' = k := by
      intro k' v hv hav
      rw [hworkers] at hv
      rcases Parties.getElem?_set_cases hv with ⟨hkk, -⟩ | ⟨-, hold⟩
      · exact hkk.symm
      · exact (h.unique k k' u v hu hold ⟨hid, heff.active⟩ hav).symm
    rw [hplace i w hw haw, hplace j v hv hav]

theorem step {cfg : FleetConfig} (h : f.SoleWorker r) (hf : f.Coherent) (hquiet : QuietOn r f e)
    (hspares : SparesActive r f e) (hstep : (fleet cfg).step f e = some f') : f'.SoleWorker r := by
  have honrun := Fleet.onRun_of_step hf hquiet hstep
  refine ⟨h.unique_of_onRun honrun, h.pairs hspares honrun Worker.unnoted_holds ?_ ?_ h.holds⟩
  · intro now ownerId lease run _ _
    exact ⟨rfl, fun _ => ⟨rfl, rfl, rfl⟩, fun hs => (by cases hs), fun _ hs => by cases hs⟩
  · intro now i l w w' row _ _ hid heff hget hholds _ hactive
    rw [← hid] at hget ⊢
    exact heff.holds hget hholds hactive

theorem empty (r : String) : ({} : Fleet).SoleWorker r :=
  ⟨fun _ _ _ _ hw => absurd (List.mem_of_getElem? hw) List.not_mem_nil,
    fun _ hw => absurd hw List.not_mem_nil⟩

end Fleet.SoleWorker

end Himmy
