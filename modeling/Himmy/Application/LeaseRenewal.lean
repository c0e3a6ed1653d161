import Himmy.Application.SoleWorker

/-! # Lease renewals and the worker's writes

A worker writes back the record its claim returned, with the lease fields the record had then, while
its heartbeat renews the lease of the stored row. `renewalsKept_of_unrenewed` says when no renewal is
lost: when every write of the record comes before the first renewal since the record was read. Then
the stored deadline is never before the last one granted, and a run whose heartbeat keeps ahead of
the granted deadlines is not reaped while it is driven. -/

namespace Himmy

/-- At a reap the clock is before the deadline granted last to whoever drives `r`. -/
def Timely (r : String) (f : Fleet) (e : Instant × Action) : Prop :=
  match e.2 with
  | .reap _ => ∀ w ∈ f.workers, w.run.runId = r → w.stage.holding = true → e.1 < w.deadline
  | _ => True

def Worker.writesRecord (w : Worker) (l : WorkerStep) : Bool :=
  match l with
  | .saveRetry => false
  | l => w.saves l

def Unrenewed (r : String) (f : Fleet) (e : Instant × Action) : Prop :=
  match e.2 with
  | .worker i l => ∀ w ∈ f.workers[i]?, w.run.runId = r → w.writesRecord l = true →
      ∀ row ∈ f.record r, ∀ beat ∈ row.heartbeatAt, ∀ held ∈ w.run.heartbeatAt, beat ≤ held
  | _ => True

instance (r : String) (f : Fleet) : ∀ e : Instant × Action, Decidable (Timely r f e)
  | (_, .reap _) => by unfold Timely; infer_instance
  | (_, .create _) | (_, .claim ..) | (_, .worker ..)
  | (_, .redrive ..) | (_, .resume ..) | (_, .resumer ..) => .isTrue trivial

instance (r : String) (f : Fleet) : ∀ e : Instant × Action, Decidable (Unrenewed r f e)
  | (_, .worker ..) => by unfold Unrenewed; infer_instance
  | (_, .create _) | (_, .claim ..) | (_, .reap _)
  | (_, .redrive ..) | (_, .resume ..) | (_, .resumer ..) => .isTrue trivial

/-- No write of the record moves the stored deadline before the last one granted, and no reap
    returns `r` while a worker drives it. -/
structure RenewalsKept (cfg : FleetConfig) (r : String) (es : List (Instant × Action)) : Prop where
  deadline_kept : ∀ pre now i l post f f' w, es = pre ++ (now, .worker i l) :: post →
    (fleet cfg).exec {} pre = some f → (fleet cfg).step f (now, .worker i l) = some f' →
    f.workers[i]? = some w → w.run.runId = r → w.writesRecord l = true →
    ∃ row deadline, f'.record r = some row ∧ row.leaseExpiresAt = some deadline
      ∧ w.deadline ≤ deadline
  not_reaped : ∀ pre now lanes post f, es = pre ++ (now, .reap lanes) :: post →
    (fleet cfg).exec {} pre = some f → r ∈ (f.store.requeueExpiredLeases now lanes).2 →
    ∀ w ∈ f.workers, w.run.runId = r → w.stage.holding = false

/-! ## The lease of the row and of the record -/

/-- The row and the worker's record each carry the lease of their heartbeat, and the row's deadline
    is not before the last one granted. -/
structure Worker.Leased (w : Worker) (row : RunRecord) : Prop where
  stored : ∃ beat, row.heartbeatAt = some beat
    ∧ row.leaseExpiresAt = some (isoPlusSeconds beat w.lease)
    ∧ w.deadline ≤ isoPlusSeconds beat w.lease
  held : ∃ beat, w.run.heartbeatAt = some beat
    ∧ w.run.leaseExpiresAt = some (isoPlusSeconds beat w.lease)

namespace Worker

theorem active_of_holding {w : Worker} (h : w.stage.holding = true) : w.isDone = false :=
  active_of_stage (fun hdone => by rw [hdone] at h; cases h)

theorem Leased.deadline_le {w : Worker} {row : RunRecord} (h : w.Leased row)
    (hunrenewed : ∀ beat ∈ row.heartbeatAt, ∀ held ∈ w.run.heartbeatAt, beat ≤ held) :
    ∃ held, w.run.heartbeatAt = some held
      ∧ w.run.leaseExpiresAt = some (isoPlusSeconds held w.lease)
      ∧ w.deadline ≤ isoPlusSeconds held w.lease := by
  obtain ⟨beat, hbeat, -, hdeadline⟩ := h.stored
  obtain ⟨held, hheld, hlease⟩ := h.held
  exact ⟨held, hheld, hlease,
    hdeadline.trans (isoPlusSeconds_le (hunrenewed beat hbeat held hheld) w.lease)⟩

theorem Effect.writesRecord {t t' : RunTable} {now : Instant} {w w' : Worker} {l : WorkerStep}
    (heff : w.Effect t now l t' w') (hl : w.writesRecord l = true) : w.stage.holding = true
      ∧ ∃ row', t'.get? w.run.runId = some row' ∧ row'.heartbeatAt = w.run.heartbeatAt
        ∧ row'.leaseExpiresAt = w.run.leaseExpiresAt := by
  cases heff with
  | @fails _ error _ hstage =>
    exact ⟨by rw [hstage]; rfl, _, KeyedList.get?_put_self t
      ((w.run.rehydrationFailed error now).stamped now), rfl, rfl⟩
  | marks hstage =>
    exact ⟨by rcases hstage with hs | hs <;> (rw [hs]; rfl), _, KeyedList.get?_put_self t
      ((w.run.markedRunning now).stamped now), rfl, rfl⟩
  | @finishes outcome _ hstage =>
    have hclaim := (SameClaim.stamped (outcome.apply .dispatch w.run now) now).trans
      (SameClaim.apply .dispatch outcome w.run now)
    exact ⟨by rw [hstage]; rfl, _, by
      rw [← hclaim.runId]; exact KeyedList.get?_put_self t _, hclaim.heartbeatAt,
      hclaim.leaseExpiresAt⟩
  | waits _ hsaves =>
    have hsaves' : w.saves l = true := by
      unfold Worker.writesRecord at hl
      split at hl
      · cases hl
      · exact hl
    rw [hsaves'] at hsaves
    cases hsaves
  | _ => cases hl

theorem Effect.leased {t t' : RunTable} {now : Instant} {w w' : Worker} {l : WorkerStep}
    (heff : w.Effect t now l t' w') {row : RunRecord} (hget : t.get? w.run.runId = some row)
    (h : w.Leased row) (hholding : w'.stage.holding = true) (hunrenewed : w.writesRecord l = true →
      ∀ beat ∈ row.heartbeatAt, ∀ held ∈ w.run.heartbeatAt, beat ≤ held) :
    ∃ row', t'.get? w.run.runId = some row' ∧ w'.Leased row' := by
  cases heff with
  | @renews row₁ _ hget₁ _ =>
    have hput := KeyedList.get?_put_self t (row₁.renewed (isoPlusSeconds now w.lease) now)
    rw [RunRecord.runId_renewed, KeyedList.key_of_get? hget₁] at hput
    exact ⟨_, hput, ⟨now, rfl, rfl, le_refl _⟩, h.held⟩
  | stopsBeating => exact ⟨row, hget, h.stored, h.held⟩
  | waits => exact ⟨row, hget, h.stored, h.held⟩
  | @rereads row₁ _ hget₁ =>
    cases hget.symm.trans hget₁
    obtain ⟨beat, hbeat, hlease, -⟩ := h.stored
    exact ⟨row, hget, h.stored, beat, hbeat, hlease⟩
  | marks =>
    obtain ⟨held, hheld, hlease, hdeadline⟩ := h.deadline_le (hunrenewed rfl)
    exact ⟨_, KeyedList.get?_put_self t ((w.run.markedRunning now).stamped now),
      ⟨held, hheld, hlease, hdeadline⟩, held, hheld, hlease⟩
  | fails _ hnext => rcases hnext with rfl | rfl <;> cases hholding
  | finishes _ hnext => rcases hnext with rfl | ⟨-, rfl⟩ <;> cases hholding
  | reads | passes | retries | gives | crashes => cases hholding

end Worker

/-! ## The result -/

def Worker.LeasedWhileHolding (w : Worker) (row : RunRecord) : Prop :=
  w.stage.holding = true → w.Leased row

theorem Worker.unnoted_leased : Unnoted Worker.LeasedWhileHolding := by
  rintro _ w row ⟨reaped, superseded, rfl⟩ h hholding
  exact ⟨(h hholding).1, (h hholding).2⟩

/-- The invariant of the runs in time whose record writes all come before a renewal. -/
structure Fleet.LeasedOn (r : String) (f : Fleet) : Prop where
  coherent : f.Coherent
  sole : f.SoleWorker r
  leased : ∀ w ∈ f.workers, w.ActiveOn r → ∃ row, f.record r = some row ∧ w.LeasedWhileHolding row

theorem Worker.Holds.holding_of_running {w : Worker} {row : RunRecord} (h : w.Holds row)
    (hactive : w.isDone = false) (hrunning : row.status = .running) : w.stage.holding = true := by
  cases hstage : w.stage with
  | settled => exact absurd hrunning (h.settled hstage).2
  | deciding run =>
    obtain ⟨rfl, hfailed, -⟩ := h.deciding run hstage
    rw [hfailed] at hrunning; cases hrunning
  | done => rw [Worker.isDone_of_stage hstage] at hactive; cases hactive
  | _ => rfl

namespace Fleet.LeasedOn

variable {r : String} {f f' : Fleet} {e : Instant × Action}

theorem sparesActive (h : f.LeasedOn r) (htimely : Timely r f e) : SparesActive r f e := by
  obtain ⟨now, a⟩ := e
  cases a with
  | reap lanes =>
    intro hexp w hw hactive
    obtain ⟨row, hget, hexpired⟩ := RunTable.mem_expiredIds.1 hexp
    simp only [RunRecord.leaseExpired, Bool.and_eq_true, decide_eq_true_eq] at hexpired
    obtain ⟨⟨hrunning, hpast⟩, -⟩ := hexpired
    obtain ⟨row₁, hget₁, hholds⟩ := h.sole.holds w hw hactive
    cases hget.symm.trans hget₁
    have hholding := hholds.holding_of_running hactive.2 hrunning
    obtain ⟨row₂, hget₂, hleased⟩ := h.leased w hw hactive
    cases hget.symm.trans hget₂
    obtain ⟨beat, -, hlease, hdeadline⟩ := (hleased hholding).stored
    rw [hlease] at hpast
    have hpast' : isoPlusSeconds beat w.lease ≤ now := by simpa using hpast
    exact absurd (htimely w hw hactive.1 hholding) (not_lt.2 (hdeadline.trans hpast'))
  | _ => trivial

theorem step {cfg : FleetConfig} (h : f.LeasedOn r) (hquiet : QuietOn r f e)
    (htimely : Timely r f e) (hunrenewed : Unrenewed r f e)
    (hstep : (fleet cfg).step f e = some f') : f'.LeasedOn r := by
  have hspares := h.sparesActive htimely
  have honrun := Fleet.onRun_of_step h.coherent hquiet hstep
  refine ⟨(Fleet.effect_of_step h.coherent hstep).coherent h.coherent,
    h.sole.step h.coherent hquiet hspares hstep,
    h.sole.pairs hspares honrun Worker.unnoted_leased ?_ ?_ h.leased⟩
  · intro now ownerId lease run _ _ _
    exact ⟨⟨now, rfl, rfl, le_refl _⟩, now, rfl, rfl⟩
  · intro now i l w w' row he hw hid heff hget hholds hleased hactive
    subst he hid
    by_cases hholding : w'.stage.holding = true
    · obtain ⟨row', hget', hleased'⟩ := heff.leased hget
        (hleased (heff.holding_of_holding hholding)) hholding
        (fun hl => hunrenewed w hw rfl hl row hget)
      exact ⟨row', hget', fun _ => hleased'⟩
    · obtain ⟨row', hget', -⟩ := heff.holds hget hholds hactive
      exact ⟨row', hget', fun hs => absurd hs hholding⟩

theorem empty (r : String) : ({} : Fleet).LeasedOn r :=
  ⟨Fleet.coherent_empty, SoleWorker.empty r, fun _ hw => absurd hw List.not_mem_nil⟩

end Fleet.LeasedOn

/-- **No lost renewal.** In every run in which nobody redrives or resumes `r`, the heartbeat keeps
    ahead of the granted deadlines, and every write of the record comes before a renewal, no write
    moves the deadline back and no reap returns `r` while it is driven. -/
theorem renewalsKept_of_unrenewed {cfg : FleetConfig} {r : String} {es : List (Instant × Action)}
    (hquiet : (fleet cfg).AlongRun (QuietOn r) {} es)
    (htimely : (fleet cfg).AlongRun (Timely r) {} es)
    (hunrenewed : (fleet cfg).AlongRun (Unrenewed r) {} es) : RenewalsKept cfg r es := by
  have hinv : ∀ {pre post f e}, es = pre ++ e :: post → (fleet cfg).exec {} pre = some f →
      f.LeasedOn r ∧ (QuietOn r f e ∧ Timely r f e) ∧ Unrenewed r f e := by
    rintro pre post f e rfl hrun
    exact (fleet cfg).at_step
      (fun _ _ _ h hC hs => Fleet.LeasedOn.step h hC.1.1 hC.1.2 hC.2 hs) (Fleet.LeasedOn.empty r)
      ((hquiet.and htimely).and hunrenewed) hrun
  refine ⟨fun pre now i l post f f' w hes hrun hstep hw hid hl => ?_,
    fun pre now lanes post f hes hrun hreap w hw hid => ?_⟩
  · obtain ⟨hf, -, hunren⟩ := hinv hes hrun
    have hmem := List.mem_of_getElem? hw
    have heff := Fleet.effect_of_step hf.coherent hstep
    subst hid
    cases heff with
    | idle _ htask => exact absurd rfl (htask.1 i l)
    | worker hw' heff =>
      rw [hw] at hw'; cases hw'
      obtain ⟨hholding, row', hget', -, hlease⟩ := heff.writesRecord hl
      obtain ⟨row, hget, hleased⟩ := hf.leased w hmem ⟨rfl, heff.active⟩
      obtain ⟨held, -, hheld, hdeadline⟩ := (hleased hholding).deadline_le
        (fun beat hbeat => hunren w hw rfl hl row hget beat hbeat)
      exact ⟨row', _, hget', hlease.trans hheld, hdeadline⟩
  · obtain ⟨hf, ⟨-, htime⟩, -⟩ := hinv hes hrun
    rw [f.store.requeueExpiredLeases_ids] at hreap
    by_contra hholding
    have hholding' : w.stage.holding = true := by simpa using hholding
    exact hf.sparesActive htime hreap w hw ⟨hid, Worker.active_of_holding hholding'⟩

private def claimedAtOne : List (Instant × Action) :=
  [(0, .create { runId := "r", workspaceId := "w", subjectId := "s", inputBlob := some "input" }),
    (1, .claim "a" 10 none false 0), (2, .worker 0 (.rehydrate none))]

/-- The worker starts to drive the run before its first renewal, and is not reaped after it. -/
theorem renewalsKept_of_unrenewed_firstBeat :
    RenewalsKept {} "r" (claimedAtOne ++ [(3, .worker 0 .markRunning), (8, .worker 0 .heartbeat),
      (12, .reap none)]) :=
  renewalsKept_of_unrenewed (by decide) (by decide) (by decide)

/-- The worker renews its lease while it waits for the workspace's semaphore. -/
private def waiting : List (Instant × Action) := claimedAtOne ++ [(8, .worker 0 .heartbeat)]

private def lateMark : List (Instant × Action) := [(9, .worker 0 .markRunning)]

private def marked : Fleet := ((fleet {}).exec {} (waiting ++ lateMark)).getD {}

/-- A worker that waited through a renewal moves the deadline back when it starts to drive the run,
    and is reaped before the deadline it was granted. -/
theorem not_renewalsKept :
    ∃ es, (fleet {}).AlongRun (QuietOn "r") {} es ∧ (fleet {}).AlongRun (Timely "r") {} es
      ∧ ¬ RenewalsKept {} "r" es := by
  refine ⟨waiting ++ lateMark ++ [(12, .reap none)], by decide, by decide, fun h => ?_⟩
  have hdriving := h.not_reaped (waiting ++ lateMark) 12 none [] marked rfl rfl (by decide)
    (marked.workers.head (by decide)) (List.head_mem _) (by decide)
  revert hdriving
  decide

end Himmy
