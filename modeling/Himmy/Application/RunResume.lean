import Himmy.Application.RunDrive
import Himmy.Storage.SqliteRecords

/-! # Resuming a paused run

`resume_run` approves or rejects a run that waits on a human decision: it loads the run and checks
that the resume can proceed, claims it (`AWAITING_APPROVAL` to `RESOLVING`), records the decision,
marks it `RUNNING` and hands it to a background task. Each of the durable writes is a separate step
here, so that a process can stop between any two of them; `resumeRun` is their sequence. -/

namespace Himmy

def RunStatus.value : RunStatus → String
  | .queued => "QUEUED"
  | .running => "RUNNING"
  | .awaitingApproval => "AWAITING_APPROVAL"
  | .resolving => "RESOLVING"
  | .succeeded => "SUCCEEDED"
  | .failed => "FAILED"
  | .parked => "PARKED"

/-- What the service is wired with: a checkpoint store, and a resolver that says whether an agent id
    names an agent of a workspace. -/
structure ResumeEnv where
  checkpointStore : Bool
  agentResolver : Option (String → String → Bool)

/-- The errors of `resume_run`. -/
inductive ResumeError
  | notApprovable (runId status : String)
  | hitlNotSupported
  | integrityError

/-- What a resume drives: one agent's loop from its checkpoint, or the orchestration graph. -/
inductive ResumeTarget
  | agent (checkpointId : String)
  | orchestration
deriving DecidableEq

/-- `(run.metadata or {}).get("hitl_kind") == "orchestration"`. -/
def RunRecord.pausedInOrchestration (run : RunRecord) : Bool :=
  Dict.str? run.metadata "hitl_kind" = some "orchestration"

def agentTarget (env : ResumeEnv) (run : RunRecord) : Except ResumeError ResumeTarget :=
  match orNone (Dict.str? run.metadata "checkpoint_id") with
  | none => .error (.notApprovable run.runId "no checkpoint")
  | some checkpointId =>
    match orNone (Dict.str? run.metadata "agent_id"), env.agentResolver with
    | some agentId, some resolves =>
      if resolves agentId run.workspaceId then .ok (.agent checkpointId)
      else .error (.notApprovable run.runId "agent removed")
    | _, _ => .error (.notApprovable run.runId "no resolvable agent")

def RunRecord.resumeTarget (env : ResumeEnv) (run : RunRecord) : Except ResumeError ResumeTarget :=
  if run.pausedInOrchestration then .ok .orchestration else agentTarget env run

def SqliteRunStore.getScoped (s : SqliteRunStore) (runId : String) (workspaceId : Option String) :
    Option RunRecord :=
  (s.getRun runId).filter (fun run => workspaceId.all (· = run.workspaceId))

/-- `resume_run` up to its claim: the record it goes on with, and what it will drive. -/
def resumeLoad (env : ResumeEnv) (s : SqliteRunStore) (runId : String)
    (workspaceId : Option String) : Except ResumeError (RunRecord × ResumeTarget) :=
  match s.getScoped runId workspaceId with
  | none => .error (.notApprovable runId "unknown")
  | some run =>
    if run.status ≠ .awaitingApproval then .error (.notApprovable runId run.status.value)
    else if !env.checkpointStore then .error .hitlNotSupported
    else (run.resumeTarget env).map (run, ·)

/-- The value of `resume_decision`. -/
def decisionText (approved : Bool) : String := if approved then "approved" else "rejected"

def RunRecord.withDecision (run : RunRecord) (approved : Bool) (actor : String) (now : Instant) :
    RunRecord :=
  { run with
    status := .resolving,
    metadata := (run.metadata.set "resume_decision" (.str (decisionText approved))).set
      "resume_actor" (.str actor),
    updatedAt := now }

/-- The checks `_resume_orchestration` makes before its write. -/
def orchestrationError (env : ResumeEnv) (run : RunRecord) : Option ResumeError :=
  if (orNone (Dict.str? run.metadata "orchestration_checkpoint_id")).isNone then
    some (.notApprovable run.runId "no orchestration checkpoint")
  else if !run.hasMembers || env.agentResolver.isNone then
    some (.notApprovable run.runId "no resolvable members")
  else none

/-- The error that stops a resume between its decision and its flip to `RUNNING`. -/
def flipError (env : ResumeEnv) (target : ResumeTarget) (run : RunRecord) : Option ResumeError :=
  match target with
  | .agent _ => none
  | .orchestration => orchestrationError env run

/-- The background task a resume spawns. -/
structure ResumeTask where
  runId : String
  approved : Bool
  actor : String
  target : ResumeTarget
deriving DecidableEq

/-- `resume_run`: the store it leaves and the task it spawned, or its error. -/
def resumeRun (env : ResumeEnv) (s : SqliteRunStore) (runId : String) (approved : Bool)
    (workspaceId : Option String) (actor : String) (now : Instant) :
    SqliteRunStore × Except ResumeError ResumeTask :=
  match resumeLoad env s runId workspaceId with
  | .error e => (s, .error e)
  | .ok (run, target) =>
    match s.claimRunForResume runId run.workspaceId now with
    | (s, false) => (s, .error (.notApprovable runId RunStatus.resolving.value))
    | (s, true) =>
      let decided := run.withDecision approved actor now
      match s.saveRun decided now with
      | none => (s, .error .integrityError)
      | some s =>
        match flipError env target decided with
        | some e => (s, .error e)
        | none =>
          match s.saveRun (decided.markedRunning now) now with
          | none => (s, .error .integrityError)
          | some s => (s, .ok { runId, approved, actor, target })

/-! ## What a resume reads and writes -/

theorem resumeLoad_eq_ok {env : ResumeEnv} {s : SqliteRunStore} {runId : String}
    {workspaceId : Option String} {run : RunRecord} {target : ResumeTarget} :
    resumeLoad env s runId workspaceId = .ok (run, target)
      ↔ s.records.get? runId = some run ∧ workspaceId.all (· = run.workspaceId) = true
        ∧ run.status = .awaitingApproval ∧ env.checkpointStore = true
        ∧ run.resumeTarget env = .ok target := by
  have hscoped : ∀ loaded, s.getScoped runId workspaceId = some loaded
      ↔ s.records.get? runId = some loaded ∧ workspaceId.all (· = loaded.workspaceId) = true := by
    intro loaded
    rw [SqliteRunStore.getScoped, Option.filter_eq_some_iff, s.getRun_eq]
  constructor
  · intro h
    unfold resumeLoad at h
    split at h
    · cases h
    · next loaded hget =>
        split at h
        · cases h
        · next hstatus =>
            split at h
            · cases h
            · next hstore =>
                obtain ⟨hget, hworkspace⟩ := (hscoped loaded).1 hget
                cases htarget : loaded.resumeTarget env with
                | error e => rw [htarget] at h; cases h
                | ok loadedTarget =>
                  rw [htarget] at h
                  cases h
                  exact ⟨hget, hworkspace, by simpa using hstatus, by simpa using hstore, htarget⟩
  · rintro ⟨hget, hworkspace, hawaiting, hstore, htarget⟩
    simp [resumeLoad, (hscoped run).2 ⟨hget, hworkspace⟩, hawaiting, hstore, htarget, Except.map]

theorem RunRecord.resumeTarget_error {env : ResumeEnv} {run : RunRecord} {e : ResumeError}
    (h : run.resumeTarget env = .error e) : ∃ runId status, e = .notApprovable runId status := by
  unfold resumeTarget agentTarget at h
  split at h
  · cases h
  · split at h
    · cases h; exact ⟨_, _, rfl⟩
    · split at h
      · split at h <;> cases h
        exact ⟨_, _, rfl⟩
      · cases h; exact ⟨_, _, rfl⟩

theorem resumeLoad_error {env : ResumeEnv} {s : SqliteRunStore} {runId : String}
    {workspaceId : Option String} {e : ResumeError} (hstore : env.checkpointStore = true)
    (h : resumeLoad env s runId workspaceId = .error e) :
    ∃ runId status, e = .notApprovable runId status := by
  unfold resumeLoad at h
  split at h
  · cases h; exact ⟨_, _, rfl⟩
  · next run _ =>
      split at h
      · cases h; exact ⟨_, _, rfl⟩
      · rw [hstore, Bool.not_true, if_neg Bool.false_ne_true] at h
        cases htarget : run.resumeTarget env with
        | error e' => rw [htarget] at h; cases h; exact RunRecord.resumeTarget_error htarget
        | ok target => rw [htarget] at h; cases h

theorem flipError_notApprovable {env : ResumeEnv} {target : ResumeTarget} {run : RunRecord}
    {e : ResumeError} (h : flipError env target run = some e) :
    ∃ runId status, e = .notApprovable runId status := by
  cases target with
  | agent checkpointId => cases h
  | orchestration =>
    simp only [flipError, orchestrationError] at h
    split at h
    · cases h; exact ⟨_, _, rfl⟩
    · split at h <;> cases h
      exact ⟨_, _, rfl⟩

/-- The checks of a resume cannot tell the records apart. -/
structure SameChecks (a b : RunRecord) : Prop where
  runId : a.runId = b.runId
  workspaceId : a.workspaceId = b.workspaceId
  metadata : ∀ k, k ≠ "resume_decision" → k ≠ "resume_actor" →
    a.metadata.find? k = b.metadata.find? k

namespace SameChecks

theorem of_metadata {a b : RunRecord} (hid : a.runId = b.runId)
    (hworkspace : a.workspaceId = b.workspaceId) (h : a.metadata = b.metadata) : SameChecks a b :=
  ⟨hid, hworkspace, fun _ _ _ => by rw [h]⟩

theorem trans {a b c : RunRecord} (h : SameChecks a b) (h' : SameChecks b c) : SameChecks a c :=
  ⟨h.1.trans h'.1, h.2.trans h'.2, fun k hd ha => (h.3 k hd ha).trans (h'.3 k hd ha)⟩

theorem withDecision (run : RunRecord) (approved : Bool) (actor : String) (now : Instant) :
    SameChecks (run.withDecision approved actor now) run :=
  ⟨rfl, rfl, fun k hd ha => by
    simp only [RunRecord.withDecision]
    rw [Dict.find?_set_of_ne _ _ ha, Dict.find?_set_of_ne _ _ hd]⟩

theorem stamped (run : RunRecord) (now : Instant) : SameChecks (run.stamped now) run :=
  of_metadata rfl rfl rfl

theorem str? {a b : RunRecord} (h : SameChecks a b) {k : String} (hd : k ≠ "resume_decision")
    (ha : k ≠ "resume_actor") : Dict.str? a.metadata k = Dict.str? b.metadata k := by
  simp only [Dict.str?, h.metadata k hd ha]

theorem resumeTarget {a b : RunRecord} (h : SameChecks a b) (env : ResumeEnv) :
    a.resumeTarget env = b.resumeTarget env := by
  simp only [RunRecord.resumeTarget, RunRecord.pausedInOrchestration, agentTarget, h.runId,
    h.workspaceId, h.str? (k := "hitl_kind") (by decide) (by decide),
    h.str? (k := "checkpoint_id") (by decide) (by decide),
    h.str? (k := "agent_id") (by decide) (by decide)]
  rfl

theorem flipError {a b : RunRecord} (h : SameChecks a b) (env : ResumeEnv) (target : ResumeTarget) :
    flipError env target a = flipError env target b := by
  cases target with
  | agent checkpointId => rfl
  | orchestration =>
    simp only [Himmy.flipError, orchestrationError, RunRecord.hasMembers, h.runId,
      h.str? (k := "orchestration_checkpoint_id") (by decide) (by decide),
      h.metadata "member_agent_ids" (by decide) (by decide)]
    rfl

end SameChecks

def RunRecord.resumed (env : ResumeEnv) (target : ResumeTarget) (run : RunRecord) (approved : Bool)
    (actor : String) (now : Instant) : RunRecord :=
  let decided := run.withDecision approved actor now
  match flipError env target decided with
  | some _ => decided
  | none => decided.markedRunning now

theorem resumeRun_of_load {env : ResumeEnv} {s : SqliteRunStore} {runId : String}
    {workspaceId : Option String} {run : RunRecord} {target : ResumeTarget} (approved : Bool)
    (actor : String) (now : Instant)
    (hload : resumeLoad env s runId workspaceId = .ok (run, target)) :
    (∀ r, (resumeRun env s runId approved workspaceId actor now).1.records.get? r
        = if r = runId then some (run.resumed env target approved actor now)
          else s.records.get? r) ∧ (resumeRun env s runId approved workspaceId actor now).2
        = match flipError env target run with
          | some e => .error e
          | none => .ok { runId, approved, actor, target } := by
  obtain ⟨hget, -, hawaiting, -, -⟩ := resumeLoad_eq_ok.1 hload
  have hid : run.runId = runId := KeyedList.key_of_get? hget
  have hid₁ : (run.withDecision approved actor now).runId = runId := hid
  have hflip := (SameChecks.withDecision run approved actor now).flipError env target
  -- the claim is won, since the run was just seen to await approval
  have hclaim := s.claimRunForResume_records runId run.workspaceId now
  rw [KeyedList.updateIf_of_pos _ _ hget (by simp [RunRecord.resumable, hawaiting])] at hclaim
  obtain ⟨hclaimed, hwon⟩ := Prod.mk.inj hclaim
  generalize hs₁ : (s.claimRunForResume runId run.workspaceId now).1 = s₁ at hclaimed
  have hclaim' : s.claimRunForResume runId run.workspaceId now = (s₁, true) := by
    rw [← hs₁, ← hwon]
  -- the decision
  have hrow₁ : s₁.records.get? (run.withDecision approved actor now).runId
      = some (run.resolving now) := by
    rw [hclaimed]; exact KeyedList.get?_put_self _ _
  obtain ⟨s₂, hs₂⟩ := SqliteRunStore.saveRun_isSome now hrow₁ rfl rfl
  have hdecided := SqliteRunStore.saveRun_records hs₂
  unfold resumeRun RunRecord.resumed
  rw [hload, ← hflip]
  dsimp only
  rw [hclaim']
  dsimp only
  rw [hs₂]
  dsimp only
  cases flipError env target (run.withDecision approved actor now) with
  | some e =>
    refine ⟨fun r => ?_, rfl⟩
    dsimp only
    rw [hdecided, hclaimed, KeyedList.get?_put, KeyedList.get?_put, RunRecord.runId_stamped, hid₁,
      RunRecord.runId_resolving, hid]
    split <;> rfl
  | none =>
    have hrow₂ : s₂.records.get? ((run.withDecision approved actor now).markedRunning now).runId
        = some ((run.withDecision approved actor now).stamped now) := by
      rw [hdecided]; exact KeyedList.get?_put_self _ _
    obtain ⟨s₃, hs₃⟩ := SqliteRunStore.saveRun_isSome now hrow₂ rfl rfl
    have hrunning := SqliteRunStore.saveRun_records hs₃
    dsimp only
    rw [hs₃]
    refine ⟨fun r => ?_, rfl⟩
    dsimp only
    have hid₂ : ((run.withDecision approved actor now).markedRunning now).runId = runId := hid
    rw [hrunning, hdecided, hclaimed, KeyedList.get?_put, KeyedList.get?_put, KeyedList.get?_put,
      RunRecord.runId_stamped, hid₂, RunRecord.runId_stamped, hid₁, RunRecord.runId_resolving, hid]
    split <;> rfl

theorem resumeRun_of_error {env : ResumeEnv} {s : SqliteRunStore} {runId : String} {approved : Bool}
    {workspaceId : Option String} {actor : String} {now : Instant} {e : ResumeError}
    (hload : resumeLoad env s runId workspaceId = .error e) :
    resumeRun env s runId approved workspaceId actor now = (s, .error e) := by
  unfold resumeRun
  rw [hload]

section

variable (env : ResumeEnv) (s : SqliteRunStore) (runId : String) (approved : Bool)
  (workspaceId : Option String) (actor : String) (now : Instant)

theorem resumeRun_get?_of_ne {r : String} (hne : r ≠ runId) :
    (resumeRun env s runId approved workspaceId actor now).1.records.get? r = s.records.get? r := by
  cases hload : resumeLoad env s runId workspaceId with
  | error e => rw [resumeRun_of_error hload]
  | ok loaded => rw [(resumeRun_of_load approved actor now hload).1, if_neg hne]

theorem resumeRun_task {task : ResumeTask}
    (h : (resumeRun env s runId approved workspaceId actor now).2 = .ok task) :
    task.runId = runId := by
  cases hload : resumeLoad env s runId workspaceId with
  | error e => rw [resumeRun_of_error hload] at h; cases h
  | ok loaded =>
    rw [(resumeRun_of_load approved actor now hload).2] at h
    split at h <;> cases h
    rfl

theorem resumeRun_error (hstore : env.checkpointStore = true) {e : ResumeError}
    (h : (resumeRun env s runId approved workspaceId actor now).2 = .error e) :
    ∃ id status, e = .notApprovable id status := by
  cases hload : resumeLoad env s runId workspaceId with
  | error e' =>
    rw [resumeRun_of_error hload] at h
    cases h
    exact resumeLoad_error hstore hload
  | ok loaded =>
    rw [(resumeRun_of_load approved actor now hload).2] at h
    split at h <;> cases h
    next hflip => exact flipError_notApprovable hflip

end

namespace SameClaim

theorem withDecision (run : RunRecord) (approved : Bool) (actor : String) (now : Instant) :
    SameClaim (run.withDecision approved actor now) run :=
  ⟨rfl, rfl, rfl, rfl, rfl, rfl, rfl, rfl, rfl⟩

end SameClaim

end Himmy
