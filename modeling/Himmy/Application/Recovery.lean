import Himmy.Application.ResumeQueue

/-! # Startup recovery

`sweepStuckRuns` re-queues the expired leases when a dispatcher owns execution and fails the
abandoned runs when none does; `reconcileResolvingRuns` then re-opens each run it finds `RESOLVING`
with a recorded decision and resumes it again. `crashedResume_recovered` says what the two make of a
resume that stopped between its claim and its flip to `RUNNING`. -/

namespace Himmy

open SqliteRunStore (saveRun_records mem_listRuns saveRun_isSome)

/-! ## The sweep -/

variable (run : RunRecord)

def RunRecord.abandoned (now : Instant) : RunRecord :=
  { run with
    status := .failed, error := some "run abandoned (process restart); swept to terminal state",
    updatedAt := now }

def RunRecord.isAbandoned (ttl : Duration) (now : Instant) : Bool :=
  (run.status = .queued || run.status = .running) && !(0 < ttl && now - run.updatedAt < ttl)

/-- The inline sweep over the listed runs: the ids it failed, or `none` if a save raised. -/
def sweepRuns (ttl : Duration) (now : Instant) :
    List RunRecord → SqliteRunStore → SqliteRunStore × Option (List String)
  | [], s => (s, some [])
  | run :: runs, s =>
    if run.isAbandoned ttl now then match s.saveRun (run.abandoned now) now with
      | none => (s, none)
      | some s =>
        let (s, swept) := sweepRuns ttl now runs s
        (s, swept.map (run.runId :: ·))
    else sweepRuns ttl now runs s

variable (dispatchEnabled : Bool)

def sweepStuckRuns (s : SqliteRunStore) (ttl : Duration) (now : Instant) :
    SqliteRunStore × Option (List String) :=
  if dispatchEnabled then
    let (s, requeued) := s.requeueExpiredLeases now none
    (s, some requeued)
  else sweepRuns ttl now (s.listRuns none none none) s

/-! ## The reconciliation -/

def RunRecord.resumeDecision : Option Bool :=
  match Dict.str? run.metadata "resume_decision" with
  | some "approved" => some true
  | some "rejected" => some false
  | _ => none

def recoveryActor (actor : Option String) : String := (orNone actor).getD "recovery"

def RunRecord.reopened (now : Instant) : RunRecord :=
  { run with status := .awaitingApproval, updatedAt := now }

def reconcileRun (env : ResumeEnv) (s : SqliteRunStore) (run : RunRecord) (approved : Bool)
    (now : Instant) : SqliteRunStore × Except ResumeError ResumeTask :=
  match s.saveRun (run.reopened now) now with
  | none => (s, .error .integrityError)
  | some s => resumeRun env s run.runId approved (some run.workspaceId)
      (recoveryActor (Dict.str? run.metadata "resume_actor")) now

/-- What a reconciliation leaves: the store, the resume tasks it spawned, and the ids it returns or
    the error it raises. -/
structure Reconciled where
  store : SqliteRunStore
  tasks : List ResumeTask
  redriven : Except ResumeError (List String)

/-- The reconciliation over the listed runs: one that cannot be approved is passed over, any other
    error ends the loop. -/
def reconcileRuns (env : ResumeEnv) (now : Instant) : List RunRecord → SqliteRunStore → Reconciled
  | [], s => { store := s, tasks := [], redriven := .ok [] }
  | run :: runs, s => match run.resumeDecision with
    | none => reconcileRuns env now runs s
    | some approved => match reconcileRun env s run approved now with
      | (s, .error (.notApprovable ..)) => reconcileRuns env now runs s
      | (s, .error e) => { store := s, tasks := [], redriven := .error e }
      | (s, .ok task) =>
        let rest := reconcileRuns env now runs s
        { rest with tasks := task :: rest.tasks, redriven := rest.redriven.map (run.runId :: ·) }

def reconcileResolvingRuns (env : ResumeEnv) (s : SqliteRunStore) (now : Instant) : Reconciled :=
  reconcileRuns env now (s.listRuns none none (some .resolving)) s

def recoverRuns (env : ResumeEnv) (s : SqliteRunStore) (ttl : Duration)
    (now : Instant) : Reconciled :=
  reconcileResolvingRuns env (sweepStuckRuns dispatchEnabled s ttl now).1 now

/-! ## What the recovery writes -/

theorem sweepRuns_get? {ttl : Duration} {now : Instant} {r : String} (runs : List RunRecord)
    (s : SqliteRunStore) (hkept : ∀ run ∈ runs, run.runId = r → run.isAbandoned ttl now = false) :
    (sweepRuns ttl now runs s).1.records.get? r = s.records.get? r := by
  induction runs generalizing s with
  | nil => rfl
  | cons run runs ih =>
    have ih' := fun s => ih s (fun run' hrun' => hkept run' (List.mem_cons_of_mem _ hrun'))
    rw [sweepRuns]
    split
    · next hswept =>
        have hne : r ≠ run.runId := fun he => by
          rw [hkept run List.mem_cons_self he.symm] at hswept; cases hswept
        split
        · rfl
        · next s' hsave =>
            show (sweepRuns ttl now runs s').1.records.get? r = _
            rw [ih', saveRun_records hsave]
            exact KeyedList.get?_put_of_ne _ _ hne
    · exact ih' s

theorem sweepStuckRuns_get? {s : SqliteRunStore} (ttl : Duration)
    (now : Instant) {r : String} {row : RunRecord} (hget : s.records.get? r = some row)
    (hresolving : row.status = .resolving) :
    (sweepStuckRuns dispatchEnabled s ttl now).1.records.get? r = some row := by
  unfold sweepStuckRuns
  split
  · show (s.requeueExpiredLeases now none).1.records.get? r = some row
    rw [s.requeueExpiredLeases_records, RunTable.get?_requeueExpired, hget]
    simp [RunRecord.leaseExpired, hresolving]
  · rw [sweepRuns_get? _ _ (fun run hrun hid => ?_), hget]
    obtain ⟨hget', -⟩ := mem_listRuns.1 hrun
    rw [hid, hget] at hget'
    cases hget'
    simp [RunRecord.isAbandoned, hresolving]

def RunRecord.redriveTask (approved : Bool) (target : ResumeTarget) : ResumeTask :=
  { runId := run.runId, approved, actor := recoveryActor (Dict.str? run.metadata "resume_actor"),
    target }

section

variable (env : ResumeEnv) (s : SqliteRunStore) (run : RunRecord) (approved : Bool) (now : Instant)

theorem reconcileRun_get?_of_ne {r : String} (hne : r ≠ run.runId) :
    (reconcileRun env s run approved now).1.records.get? r = s.records.get? r := by
  unfold reconcileRun
  split
  · rfl
  · next s' hsave =>
      rw [resumeRun_get?_of_ne _ _ _ _ _ _ _ hne, saveRun_records hsave]
      exact KeyedList.get?_put_of_ne _ _ hne

theorem reconcileRun_task {task : ResumeTask}
    (h : (reconcileRun env s run approved now).2 = .ok task) : task.runId = run.runId := by
  unfold reconcileRun at h
  split at h
  · cases h
  · exact resumeRun_task _ _ _ _ _ _ _ h

theorem reconcileRun_error (hget : s.records.get? run.runId = some run)
    (hstore : env.checkpointStore = true) {e : ResumeError}
    (h : (reconcileRun env s run approved now).2 = .error e) :
    ∃ id status, e = .notApprovable id status := by
  have hreopened : s.records.get? (run.reopened now).runId = some run := hget
  obtain ⟨s', hsave⟩ := saveRun_isSome now hreopened rfl rfl
  unfold reconcileRun at h
  rw [hsave] at h
  exact resumeRun_error _ _ _ _ _ _ _ hstore h

theorem reconcileRun_redrives (hget : s.records.get? run.runId = some run)
    (hstore : env.checkpointStore = true) {target : ResumeTarget}
    (htarget : run.resumeTarget env = .ok target) (hflip : flipError env target run = none) :
    (reconcileRun env s run approved now).2 = .ok (run.redriveTask approved target)
      ∧ ∃ row, (reconcileRun env s run approved now).1.records.get? run.runId = some row
        ∧ row.status = .running := by
  have hreopened : s.records.get? (run.reopened now).runId = some run := hget
  obtain ⟨s', hsave⟩ := saveRun_isSome now hreopened rfl rfl
  have hchecks : SameChecks ((run.reopened now).stamped now) run :=
    SameChecks.of_metadata rfl rfl rfl
  have hflip' := (hchecks.flipError env target).trans hflip
  have hload : resumeLoad env s' run.runId (some run.workspaceId)
      = .ok ((run.reopened now).stamped now, target) := by
    refine resumeLoad_eq_ok.2 ⟨?_, by simp [RunRecord.stamped, RunRecord.reopened], rfl, hstore,
      (hchecks.resumeTarget env).trans htarget⟩
    rw [saveRun_records hsave]
    exact KeyedList.get?_put_self _ _
  obtain ⟨hrow, hanswer⟩ := resumeRun_of_load approved
    (recoveryActor (Dict.str? run.metadata "resume_actor")) now hload
  unfold reconcileRun
  rw [hsave]
  dsimp only
  rw [hanswer, hflip', hrow, if_pos rfl]
  refine ⟨rfl, _, rfl, ?_⟩
  have hdecided := SameChecks.withDecision ((run.reopened now).stamped now) approved
    (recoveryActor (Dict.str? run.metadata "resume_actor")) now
  simp only [RunRecord.resumed, hdecided.flipError env target, hflip', RunRecord.markedRunning]

end

theorem reconcileRuns_leaves (env : ResumeEnv) (now : Instant) {r : String} (runs : List RunRecord)
    (s : SqliteRunStore) (hnone : ∀ run ∈ runs, run.runId = r → run.resumeDecision = none) :
    (reconcileRuns env now runs s).store.records.get? r = s.records.get? r
      ∧ ∀ task ∈ (reconcileRuns env now runs s).tasks, task.runId ≠ r := by
  induction runs generalizing s with
  | nil => exact ⟨rfl, fun task h => absurd h List.not_mem_nil⟩
  | cons run runs ih =>
    have ih' := fun s => ih s (fun run' hrun' => hnone run' (List.mem_cons_of_mem _ hrun'))
    rw [reconcileRuns]
    cases hdecision : run.resumeDecision with
    | none => exact ih' s
    | some approved =>
      have hne : r ≠ run.runId := fun he => by
        rw [hnone run List.mem_cons_self he.symm] at hdecision; cases hdecision
      have hkept := reconcileRun_get?_of_ne env s run approved now hne
      dsimp only
      split
      · next s' _ _ hresume =>
          rw [hresume] at hkept
          rw [← hkept]
          exact ih' s'
      · next s' e _ hresume =>
          rw [hresume] at hkept
          exact ⟨hkept, fun task h => absurd h List.not_mem_nil⟩
      · next s' task hresume =>
          rw [hresume] at hkept
          obtain ⟨hstore, htasks⟩ := ih' s'
          refine ⟨hstore.trans hkept, fun task' htask' => ?_⟩
          rcases List.mem_cons.1 htask' with rfl | htask'
          · rw [reconcileRun_task env s run approved now (congrArg Prod.snd hresume)]
            exact hne.symm
          · exact htasks task' htask'

theorem reconcileRuns_redrives {env : ResumeEnv} (now : Instant) (hstore : env.checkpointStore = true)
    {row : RunRecord} {approved : Bool} {target : ResumeTarget}
    (hdecision : row.resumeDecision = some approved) (htarget : row.resumeTarget env = .ok target)
    (hflip : flipError env target row = none) (runs : List RunRecord) (s : SqliteRunStore)
    (hnodup : (runs.map RunRecord.runId).Nodup)
    (hstored : ∀ run ∈ runs, s.records.get? run.runId = some run) (hmem : row ∈ runs) :
    (reconcileRuns env now runs s).tasks.filter (·.runId = row.runId)
        = [row.redriveTask approved target]
      ∧ ∃ row', (reconcileRuns env now runs s).store.records.get? row.runId = some row'
        ∧ row'.status = .running := by
  induction runs generalizing s with
  | nil => exact absurd hmem List.not_mem_nil
  | cons run runs ih =>
    rw [List.map_cons, List.nodup_cons] at hnodup
    have hget := hstored run List.mem_cons_self
    rw [reconcileRuns]
    rcases List.mem_cons.1 hmem with rfl | htail
    · -- the run itself: no later run of the list is the same run
      obtain ⟨hanswer, row', hrow', hrunning⟩ := reconcileRun_redrives env s row approved now hget
        hstore htarget hflip
      rw [hdecision]
      dsimp only
      rw [← Prod.mk.eta (p := reconcileRun env s row approved now), hanswer]
      dsimp only
      obtain ⟨hkept, htasks⟩ := reconcileRuns_leaves env now runs
        (reconcileRun env s row approved now).1 (fun run hrun hid =>
          absurd (List.mem_map.2 ⟨run, hrun, hid⟩) hnodup.1)
      refine ⟨?_, row', hkept.trans hrow', hrunning⟩
      rw [List.filter_cons_of_pos (by simp [RunRecord.redriveTask]), List.filter_eq_nil_iff.2
        (fun task htask => by simpa using htasks task htask)]
    · -- another run: it leaves the rows of the runs after it, and spawns no task of theirs
      have hne : row.runId ≠ run.runId := fun he => hnodup.1 (he ▸ List.mem_map_of_mem htail)
      have hrest : ∀ s' : SqliteRunStore, (∀ r, r ≠ run.runId → s'.records.get? r = s.records.get? r) →
          ∀ run' ∈ runs, s'.records.get? run'.runId = some run' := by
        intro s' hkept run' hrun'
        rw [hkept _ (fun he => hnodup.1 (he ▸ List.mem_map_of_mem hrun'))]
        exact hstored run' (List.mem_cons_of_mem _ hrun')
      cases hdecided : run.resumeDecision with
      | none => exact ih s hnodup.2 (hrest s (fun _ _ => rfl)) htail
      | some approved' =>
        have hkept := fun r => reconcileRun_get?_of_ne env s run approved' now (r := r)
        dsimp only
        split
        · next s' _ _ hresume =>
            rw [hresume] at hkept
            exact ih s' hnodup.2 (hrest s' hkept) htail
        · next s' e hother hresume =>
            obtain ⟨id, status, rfl⟩ := reconcileRun_error env s run approved' now hget hstore
              (congrArg Prod.snd hresume)
            exact absurd rfl (hother id status)
        · next s' task hresume =>
            rw [hresume] at hkept
            have hid := reconcileRun_task env s run approved' now (congrArg Prod.snd hresume)
            dsimp only
            rw [List.filter_cons_of_neg (by simpa [hid] using hne.symm)]
            exact ih s' hnodup.2 (hrest s' hkept) htail

/-! ## The recovery of a stopped resume -/

/-- The recovery spawned one task for the run of a resume, with the decision of that resume, and the
    run is `RUNNING` under it. -/
structure Reconciled.Redrives (recovered : Reconciled) (ρ : Resume) : Prop where
  task : recovered.tasks.filter (·.runId = ρ.run.runId)
    = [{ runId := ρ.run.runId, approved := ρ.approved, actor := recoveryActor (some ρ.actor),
         target := ρ.target }]
  running : ∃ row, recovered.store.records.get? ρ.run.runId = some row ∧ row.status = .running

/-- The recovery left the row of a run and spawned no task for it. -/
structure Reconciled.Leaves (recovered : Reconciled) (row : RunRecord) : Prop where
  stored : recovered.store.records.get? row.runId = some row
  no_task : ∀ task ∈ recovered.tasks, task.runId ≠ row.runId

section

variable {env : ResumeEnv} {s : SqliteRunStore} {row : RunRecord} (dispatchEnabled : Bool)
  (ttl : Duration) (now : Instant)

theorem recoverRuns_redrives (hget : s.records.get? row.runId = some row)
    (hresolving : row.status = .resolving) (hstore : env.checkpointStore = true) {approved : Bool}
    {target : ResumeTarget} (hdecision : row.resumeDecision = some approved)
    (htarget : row.resumeTarget env = .ok target) (hflip : flipError env target row = none) :
    (recoverRuns dispatchEnabled env s ttl now).tasks.filter (·.runId = row.runId)
        = [row.redriveTask approved target]
      ∧ ∃ row', (recoverRuns dispatchEnabled env s ttl now).store.records.get? row.runId = some row'
        ∧ row'.status = .running :=
  reconcileRuns_redrives now hstore hdecision htarget hflip _ _
    (SqliteRunStore.nodup_listRuns _ _)
    (fun _ hrun => (mem_listRuns.1 hrun).1)
    (mem_listRuns.2 ⟨sweepStuckRuns_get? dispatchEnabled ttl now hget hresolving,
      by simp [hresolving]⟩)

theorem recoverRuns_leaves (hget : s.records.get? row.runId = some row)
    (hresolving : row.status = .resolving) (hnone : row.resumeDecision = none) :
    (recoverRuns dispatchEnabled env s ttl now).Leaves row := by
  have hswept := sweepStuckRuns_get? dispatchEnabled ttl now hget hresolving
  -- the reconciliation lists the run as the sweep found it
  have hlisted : ∀ run ∈ (sweepStuckRuns dispatchEnabled s ttl now).1.listRuns none none
      (some .resolving), run.runId = row.runId → run.resumeDecision = none := by
    intro run hrun hid
    obtain ⟨hget', -⟩ := mem_listRuns.1 hrun
    rw [hid, hswept] at hget'
    cases hget'
    exact hnone
  obtain ⟨hstored, htasks⟩ := reconcileRuns_leaves env now _ _ hlisted
  exact ⟨hstored.trans hswept, htasks⟩

end

/-- What a resume of a service carries: a target that its record still resolves to, and, once it is
    decided, its decision on record. -/
structure Resume.Prepared (env : ResumeEnv) (ρ : Resume) : Prop where
  store : env.checkpointStore = true
  target : ρ.run.resumeTarget env = .ok ρ.target
  decided : ρ.stage = .decided → ρ.run.status = .resolving ∧ ρ.run.resumeDecision = some ρ.approved
    ∧ Dict.str? ρ.run.metadata "resume_actor" = some ρ.actor

theorem RunRecord.resumeDecision_withDecision (run : RunRecord) (approved : Bool) (actor : String)
    (now : Instant) : (run.withDecision approved actor now).resumeDecision = some approved := by
  simp only [resumeDecision, withDecision,
    Dict.str?_set_of_ne _ _ (show "resume_decision" ≠ "resume_actor" by decide),
    Dict.str?_set_self]
  cases approved <;> rfl

theorem Resume.Effect.prepared {env : ResumeEnv} {t t' : RunTable} {now : Instant} {ρ ρ' : Resume}
    {l : ResumeStep} (heff : ρ.Effect env t now l t' ρ') (h : ρ.Prepared env) : ρ'.Prepared env := by
  cases heff with
  | decides =>
    have hchecks : SameChecks ((ρ.run.withDecision ρ.approved ρ.actor now).stamped now) ρ.run :=
      (SameChecks.stamped _ now).trans (SameChecks.withDecision _ _ _ _)
    exact ⟨h.store, (hchecks.resumeTarget env).trans h.target,
      fun _ => ⟨rfl, ρ.run.resumeDecision_withDecision _ _ _, Dict.str?_set_self _ _ _⟩⟩
  | flips =>
    have hchecks : SameChecks ((ρ.run.markedRunning now).stamped now) ρ.run :=
      SameChecks.of_metadata rfl rfl rfl
    exact ⟨h.store, (hchecks.resumeTarget env).trans h.target, fun hs => by cases hs⟩
  | _ => exact ⟨h.store, h.target, fun hs => by cases hs⟩

/-- Every resume of a service is prepared. -/
structure Fleet.Prepared (env : ResumeEnv) (f : Fleet) : Prop where
  coherent : f.Coherent
  resumes : ∀ ρ ∈ f.resumes, ρ.Prepared env

theorem Fleet.Prepared.step {cfg : FleetConfig} {f f' : Fleet} {e : Instant × Action}
    (h : f.Prepared cfg.resume) (hstep : (fleet cfg).step f e = some f') :
    f'.Prepared cfg.resume := by
  have heff := Fleet.effect_of_step h.coherent hstep
  refine ⟨heff.coherent h.coherent, ?_⟩
  cases heff with
  | loads _ _ hload =>
    intro ρ hρ
    rcases List.mem_append.1 hρ with hρ | hρ
    · exact h.resumes ρ hρ
    · rw [List.mem_singleton] at hρ
      subst hρ
      obtain ⟨-, -, -, hstore, htarget⟩ := resumeLoad_eq_ok.1 hload
      exact ⟨hstore, htarget, fun hs => by cases hs⟩
  | resumer hσ heff =>
    intro ρ hρ
    rcases List.mem_or_eq_of_mem_set hρ with hρ | rfl
    · exact h.resumes ρ hρ
    · exact heff.prepared (h.resumes _ (List.mem_of_getElem? hσ))
  | _ => exact h.resumes

theorem Fleet.prepared_of_exec {cfg : FleetConfig} {es : List (Instant × Action)} {f : Fleet}
    (hrun : (fleet cfg).exec {} es = some f) : f.Prepared cfg.resume :=
  (fleet cfg).exec_invariant (fun _ _ _ h _ hs => Fleet.Prepared.step h hs)
    ⟨Fleet.coherent_empty, fun _ h => absurd h List.not_mem_nil⟩
    (LTS.AlongRun.of_forall _ _ (fun _ _ => trivial)) hrun

/-! ## The result -/

/-- **Recovery of a stopped resume.** In both modes, a resume that stopped between the write of its
    decision and its flip to `RUNNING` is driven again with that decision; one that stopped between
    its claim and the write, with no decision on record, stays `RESOLVING`. The row is the one the
    last write of the resume left. -/
theorem crashedResume_recovered {cfg : FleetConfig} {es : List (Instant × Action)} {f : Fleet}
    (hrun : (fleet cfg).exec {} es = some f) {ρ : Resume} (hρ : ρ ∈ f.resumes)
    (dispatchEnabled : Bool) (ttl : Duration) (now : Instant) :
    (ρ.stage = .decided → f.record ρ.run.runId = some ρ.run →
        flipError cfg.resume ρ.target ρ.run = none →
        (recoverRuns dispatchEnabled cfg.resume f.store ttl now).Redrives ρ)
      ∧ (ρ.stage = .claimed → ∀ row, f.record ρ.run.runId = some row → row.status = .resolving →
        row.resumeDecision = none →
        (recoverRuns dispatchEnabled cfg.resume f.store ttl now).Leaves row) := by
  refine ⟨fun hstage hrow hflip => ?_, fun _ row hrow hresolving hnone => ?_⟩
  · have hprepared := (Fleet.prepared_of_exec hrun).resumes ρ hρ
    obtain ⟨hresolving, hdecision, hactor⟩ := hprepared.decided hstage
    obtain ⟨htask, hrunning⟩ := recoverRuns_redrives dispatchEnabled ttl now hrow hresolving
      hprepared.store hdecision hprepared.target hflip
    rw [RunRecord.redriveTask, hactor] at htask
    exact ⟨htask, hrunning⟩
  · have hid := KeyedList.key_of_get? hrow
    exact recoverRuns_leaves dispatchEnabled ttl now (by rw [hid]; exact hrow) hresolving hnone

private def recovering : FleetConfig :=
  { resume := { checkpointStore := true, agentResolver := some (fun _ _ => true) } }

private def rejected : List (Instant × Action) :=
  [(0, .create { runId := "r", workspaceId := "w", subjectId := "s", inputBlob := some "input",
                 metadata := Dict.set KeyedList.empty "agent_id" (.str "agent") }),
    (1, .claim "a" 10 none false 0), (1, .worker 0 (.rehydrate none)), (1, .worker 0 .markRunning),
    (3, .worker 0 (.finish (.awaitingApproval { threadId := "t" } (some "checkpoint") none))),
    (3, .worker 0 .readForRetry), (5, .resume "r" false none "user"), (5, .resumer 0 .claim)]

private def decidedFleet : Fleet :=
  ((fleet recovering).exec {} (rejected ++ [(5, .resumer 0 .decide)])).getD {}

/-- The process stops after the decision: the recovery rejects the run again, in both modes. -/
theorem crashedResume_recovered_rejected :
    (recoverRuns true recovering.resume decidedFleet.store 0 30).Redrives
        (decidedFleet.resumes.head (by decide))
      ∧ (recoverRuns false recovering.resume decidedFleet.store 0 30).Redrives
        (decidedFleet.resumes.head (by decide)) :=
  have hrun : (fleet recovering).exec {} (rejected ++ [(5, .resumer 0 .decide)])
      = some decidedFleet := rfl
  ⟨(crashedResume_recovered hrun (List.head_mem (by decide)) true 0 30).1 rfl rfl rfl,
    (crashedResume_recovered hrun (List.head_mem (by decide)) false 0 30).1 rfl rfl rfl⟩

def AlwaysRedriven (cfg : FleetConfig) (f : Fleet) : Prop :=
  ∀ ρ ∈ f.resumes, ρ.stage.inProgress = true → ∀ (dispatchEnabled : Bool) (ttl : Duration)
    (now : Instant), (recoverRuns dispatchEnabled cfg.resume f.store ttl now).Redrives ρ

private def claimedFleet : Fleet := ((fleet recovering).exec {} rejected).getD {}

/-- The process stops before the decision is on record: the recovery drives nothing. -/
theorem not_alwaysRedriven :
    ∃ es f, (fleet recovering).exec {} es = some f ∧ ¬ AlwaysRedriven recovering f := by
  refine ⟨rejected, claimedFleet, rfl, fun h => ?_⟩
  have hredriven := (h (claimedFleet.resumes.head (by decide)) (List.head_mem _) rfl true 0 30).task
  revert hredriven
  decide

end Himmy
