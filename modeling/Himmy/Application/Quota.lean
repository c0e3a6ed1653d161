import Himmy.Application.FleetEffects

/-! # The outstanding-run cap

A create counts the active runs of its workspace and stores the new one in one transaction, so it
never takes the workspace over the cap. A retry re-queue, an operator redrive and a task's write over
a run that has ended make an inactive run active without counting. `outstandingCap` bounds the active
runs by the cap and the number of such reactivations. -/

namespace Himmy

/-- The run whose record the event may write on its own account: that of the task, or of the
    redrive. -/
def Fleet.writtenRun (f : Fleet) : Action → Option String
  | .worker i _ => f.workers[i]?.map (fun w => w.run.runId)
  | .redrive runId _ => some runId
  | .resumer i _ => f.resumes[i]?.map (fun ρ => ρ.run.runId)
  | _ => none

/-- One if the event wrote an inactive run of the workspace back to an active status. -/
def reactivations (workspaceId : String) (f : Fleet) (e : Instant × Action) (f' : Fleet) : Nat :=
  match (f.writtenRun e.2).bind f.record, (f.writtenRun e.2).bind f'.record with
  | some before, some after =>
    if after.workspaceId = workspaceId ∧ before.isActive = false ∧ after.isActive = true then 1
    else 0
  | _, _ => 0

def Fleet.outstanding (f : Fleet) (workspaceId : String) : Nat :=
  f.store.countActiveRunsForWorkspace workspaceId

def RunRecord.occupies (workspaceId : String) (run : RunRecord) : Bool :=
  run.workspaceId = workspaceId && run.isActive

namespace RunTable

variable {t : RunTable} {rec row : RunRecord}

theorem countP_put_le (workspaceId : String) (hget : t.get? rec.runId = some row)
    (hws : rec.workspaceId = row.workspaceId) : (t.put rec).items.countP (·.occupies workspaceId)
      ≤ t.items.countP (·.occupies workspaceId)
        + (if rec.workspaceId = workspaceId ∧ row.isActive = false ∧ rec.isActive = true then 1
          else 0) := by
  have hcount := t.countP_put_of_some rec row (·.occupies workspaceId) hget
  have hadds : (if rec.occupies workspaceId then 1 else 0)
      ≤ (if row.occupies workspaceId then 1 else 0)
        + (if rec.workspaceId = workspaceId ∧ row.isActive = false ∧ rec.isActive = true then 1
          else 0) := by
    unfold RunRecord.occupies
    rw [← hws]
    by_cases hin : rec.workspaceId = workspaceId <;> cases rec.isActive <;>
      cases row.isActive <;> simp [hin]
  omega

theorem countP_requeueExpired {workspaceId : String} (t : RunTable) (now : Instant) (lanes : Option (List String)) :
    (t.requeueExpired now lanes).items.countP (·.occupies workspaceId)
      = t.items.countP (·.occupies workspaceId) := by
  refine t.countP_modify _ _ _ (fun run _ => ?_)
  split
  · next hexpired =>
      simp only [RunRecord.leaseExpired, Bool.and_eq_true, decide_eq_true_eq] at hexpired
      have hactive : run.isActive = true := by simp [RunRecord.isActive, activeRunStatuses, hexpired.1.1]
      have hqueued : (run.requeued now).isActive = true := by
        simp [RunRecord.isActive, RunRecord.requeued, activeRunStatuses]
      unfold RunRecord.occupies
      rw [hactive, hqueued]
      rfl
  · rfl

end RunTable

theorem Fleet.outstanding_eq (f : Fleet) (workspaceId : String) :
    f.outstanding workspaceId = f.store.records.items.countP (·.occupies workspaceId) :=
  f.store.countActiveRunsForWorkspace_eq workspaceId

private theorem outstanding_le_of_put {f f' : Fleet} {e : Instant × Action} {workspaceId : String}
    {rec row : RunRecord} (hrun : f.writtenRun e.2 = some rec.runId)
    (hrec : f'.store.records = f.store.records.put rec) (hget : f.record rec.runId = some row)
    (hws : rec.workspaceId = row.workspaceId) :
    f'.outstanding workspaceId ≤ f.outstanding workspaceId + reactivations workspaceId f e f' := by
  have hget' : f'.record rec.runId = some rec := by
    rw [Fleet.record, hrec]; exact KeyedList.get?_put_self _ _
  have hreact : reactivations workspaceId f e f'
      = if rec.workspaceId = workspaceId ∧ row.isActive = false ∧ rec.isActive = true then 1
        else 0 := by
    unfold reactivations
    rw [hrun, Option.bind_some, Option.bind_some, hget, hget']
  rw [f.outstanding_eq, f'.outstanding_eq, hrec, hreact]
  exact RunTable.countP_put_le workspaceId hget hws

theorem Fleet.outstanding_step {cfg : FleetConfig} {f f' : Fleet} {e : Instant × Action}
    {workspaceId : String} (hf : f.Coherent) (hcap : 0 < cfg.workspaceMaxOutstanding)
    (hlocal : workspaceId ≠ localWorkspace) (hstep : (fleet cfg).step f e = some f') :
    f'.outstanding workspaceId ≤ f.outstanding workspaceId + reactivations workspaceId f e f'
    ∨ (f'.outstanding workspaceId : Int) ≤ cfg.workspaceMaxOutstanding := by
  have heff := Fleet.effect_of_step hf hstep
  cases heff with
  | idle hrec _ =>
    refine Or.inl (le_trans (le_of_eq ?_) (Nat.le_add_right _ _))
    rw [f.outstanding_eq, outstanding_eq, hrec]
  | @creates now q s' hnew hfree hrec =>
    have hcount := KeyedList.countP_put_of_none f.store.records ((q.record cfg now).stamped now)
      (·.occupies workspaceId) hnew
    by_cases hws : q.workspaceId = workspaceId
    · -- the create found the workspace under its cap
      refine Or.inr ?_
      have hlt := hfree hcap (hws ▸ hlocal)
      rw [hws] at hlt
      have hout : f.store.countActiveRunsForWorkspace workspaceId
          = f.store.records.items.countP (·.occupies workspaceId) := f.outstanding_eq workspaceId
      rw [outstanding_eq, hrec, hcount]
      rw [hout] at hlt
      split <;> omega
    · refine Or.inl (le_trans (le_of_eq ?_) (Nat.le_add_right _ _))
      have hout : RunRecord.occupies workspaceId ((q.record cfg now).stamped now) = false := by
        simp [RunRecord.occupies, RunRecord.stamped, RunRequest.record, hws]
      rw [f.outstanding_eq, outstanding_eq, hrec, hcount, hout]
      rfl
  | @claims now ownerId lease _ _ _ run s' hget hqueued hrec =>
    refine Or.inl (le_trans ?_ (Nat.le_add_right _ _))
    have hactive : run.isActive = true := by simp [RunRecord.isActive, activeRunStatuses, hqueued]
    have hget' : f.store.records.get?
        (run.claimedBy ownerId (isoPlusSeconds now lease) now).runId = some run := hget
    have hle := RunTable.countP_put_le workspaceId hget' rfl
    rw [if_neg (fun h => by rw [hactive] at h; cases h.2.1), Nat.add_zero] at hle
    rw [f.outstanding_eq, outstanding_eq, hrec]
    exact hle
  | @worker now i l w w' s' hw heff =>
    have hcoh := hf.workers w (List.mem_of_getElem? hw)
    obtain ⟨row, hget, hrow⟩ := hcoh.held
    rcases heff.table_cases hcoh with hrec | ⟨rec, hrec, hsame⟩
    · refine Or.inl (le_trans (le_of_eq ?_) (Nat.le_add_right _ _))
      rw [f.outstanding_eq, outstanding_eq, hrec]
    · refine Or.inl (outstanding_le_of_put ?_ hrec (by rw [hsame.runId]; exact hget)
        (hsame.trans hrow.symm).workspaceId)
      simp only [writtenRun, hw, Option.map_some, hsame.runId]
  | reaps hrec =>
    refine Or.inl (le_trans (le_of_eq ?_) (Nat.le_add_right _ _))
    rw [f.outstanding_eq, outstanding_eq, hrec]
    exact RunTable.countP_requeueExpired _ _ _
  | @redrives now runId _ row s' hget _ hrec =>
    have hid : row.runId = runId := KeyedList.key_of_get? hget
    have hget' : f.record (row.redriven now).runId = some row := by
      rw [RunRecord.runId_redriven, hid]; exact hget
    refine Or.inl (outstanding_le_of_put ?_ hrec hget' rfl)
    rw [RunRecord.runId_redriven, hid]; rfl
  | loads => exact Or.inl (Nat.le_add_right _ _)
  | @resumer now i l ρ ρ' s' hρ heff =>
    have hcoh := hf.resumes ρ (List.mem_of_getElem? hρ)
    obtain ⟨row, hget, hrow⟩ := hcoh.held
    rcases heff.table_cases hcoh with hrec | ⟨rec, hrec, hsame⟩
    · refine Or.inl (le_trans (le_of_eq ?_) (Nat.le_add_right _ _))
      rw [f.outstanding_eq, outstanding_eq, hrec]
    · refine Or.inl (outstanding_le_of_put ?_ hrec (by rw [hsame.runId]; exact hget)
        (hsame.trans hrow.symm).workspaceId)
      simp only [writtenRun, hρ, Option.map_some, hsame.runId]

theorem createRun_quotaExceeded {cfg : FleetConfig} {s : SqliteRunStore} {run : RunRecord}
    {now : Instant} (h : (createRun cfg s run now).2 = .quotaExceeded) :
    cfg.workspaceMaxOutstanding ≤ s.countActiveRunsForWorkspace run.workspaceId := by
  unfold createRun at h
  split at h
  · next hcap =>
      rcases s.saveRunIfUnderQuota_cases run hcap.1 now with
        ⟨existing, hans, -⟩ | hans | ⟨-, hfull⟩ | ⟨s', hans, -⟩
      · rw [hans] at h; cases h
      · rw [hans] at h; cases h
      · exact hfull
      · rw [hans] at h; cases h
  · split at h <;> cases h

/-- **The outstanding-run cap.** The active runs of a workspace never exceed the cap by more than the
    number of times an inactive run was made active again, and a create is rejected only when they
    are at the cap or above. -/
theorem outstandingCap {cfg : FleetConfig} {workspaceId : String} {es : List (Instant × Action)}
    {f : Fleet} (hcap : 0 < cfg.workspaceMaxOutstanding) (hlocal : workspaceId ≠ localWorkspace)
    (hrun : (fleet cfg).exec {} es = some f) : (f.outstanding workspaceId : Int)
        ≤ cfg.workspaceMaxOutstanding + (fleet cfg).tally (reactivations workspaceId) {} es
      ∧ ∀ (q : RunRequest) (now : Instant), q.workspaceId = workspaceId →
        (createRun cfg f.store (q.record cfg now) now).2 = .quotaExceeded →
        cfg.workspaceMaxOutstanding ≤ f.outstanding workspaceId := by
  refine ⟨?_, fun q now hws hrejected => hws ▸ createRun_quotaExceeded hrejected⟩
  have hle : f.outstanding workspaceId ≤ cfg.workspaceMaxOutstanding.toNat
      + (fleet cfg).tally (reactivations workspaceId) {} es := (fleet cfg).exec_measure_le
    (fun _ _ _ hf hs => (Fleet.effect_of_step hf hs).coherent hf)
    (fun f e f' k hf hs (hk : f.outstanding workspaceId ≤ _) => by
      rcases Fleet.outstanding_step hf hcap hlocal hs with hstep | hstep <;> omega)
    Fleet.coherent_empty (Nat.zero_le _) hrun
  omega

private def capped : FleetConfig := { workspaceMaxOutstanding := 1, defaultMaxAttempts := 2 }

private def submitted (runId : String) : Action :=
  .create { runId, workspaceId := "w", subjectId := "s", inputBlob := some "input" }

/-- A run times out, its slot is taken, and the retry policy queues the run again. -/
private def retriedOverCap : List (Instant × Action) :=
  [(0, submitted "r"), (1, .claim "a" 10 none false 0), (2, .worker 0 (.rehydrate none)),
    (3, .worker 0 .markRunning), (4, .worker 0 (.finish (.timedOut 300))), (5, submitted "s"),
    (6, .worker 0 .readForRetry), (7, .worker 0 .saveRetry)]

private def overCap : Fleet := ((fleet capped).exec {} retriedOverCap).getD {}

/-- One retry re-queue takes the workspace one over its cap. -/
theorem outstandingCap_retried : (overCap.outstanding "w" : Int) ≤ capped.workspaceMaxOutstanding
          + (fleet capped).tally (reactivations "w") {} retriedOverCap
      ∧ (fleet capped).tally (reactivations "w") {} retriedOverCap = 1 := by
  have hrun : (fleet capped).exec {} retriedOverCap = some overCap := rfl
  exact ⟨(outstandingCap (by decide) (by decide) hrun).1, by decide⟩

theorem outstandingCap_exceeded : (fleet capped).exec {} retriedOverCap = some overCap
      ∧ ¬ (overCap.outstanding "w" : Int) ≤ capped.workspaceMaxOutstanding :=
  ⟨rfl, by decide⟩

end Himmy
