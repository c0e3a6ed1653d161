import Himmy.Application.Recovery
import Himmy.Runtime.AgentLoop
import Himmy.Runtime.Resume

/-! # The background task of a resume, and the errors it meets

`_resume_in_background` and `_resume_orchestration_in_background` rebuild the runtime of a resumed
run, drive the rest of it under a timeout and write what it came to. `resumeDrives` interleaves any
number of these tasks over the run store, the checkpoint store and the graph checkpoints: a step is
one access to a store, or an error that strikes the task where it stands.

An error of the drive is settled by the task that meets it (`ResumeTarget.settles`): the single-agent
task takes every `HimmyError` for the loss of the checkpoint's claim, the orchestration task those
whose text says so. A task that takes an error for the loss of a claim ends without a write. -/

namespace Himmy

/-! ## Errors -/

/-- An exception, and whether it is a `HimmyError`. -/
structure Raised where
  isHimmyError : Bool
  text : String
deriving DecidableEq, Repr

namespace Raised

def himmyError (text : String) : Raised := ⟨true, text⟩

/-- `ValidationError`, `sqlite3.Error` and every other exception that is not of the framework. -/
def foreign (text : String) : Raised := ⟨false, text⟩

def isResumeClaimLoss (e : Raised) : Bool :=
  e.isHimmyError && decide ("already resolved".toList <:+: e.text.toList)

end Raised

def CheckpointStatus.value : CheckpointStatus → String
  | .awaitingApproval => "awaiting_approval"
  | .resolving => "resolving"
  | .approved => "approved"
  | .rejected => "rejected"

def unknownCheckpoint (checkpointId : String) : Raised :=
  .himmyError ("unknown checkpoint " ++ (Json.str checkpointId).pyRepr ++ ".")

/-- `current.status if current is not None else "unknown"`. -/
def statusText (current : Option AgentCheckpoint) : String :=
  match current with
  | some current => current.status.value
  | none => "unknown"

/-- What `resume_agent_loop_locked` raises when its claim is lost. -/
def claimLoss (checkpointId : String) (current : Option AgentCheckpoint) : Raised :=
  .himmyError ("checkpoint " ++ (Json.str checkpointId).pyRepr ++ " already resolved ("
    ++ statusText current ++ ").")

def ResumeTarget.settles (target : ResumeTarget) (e : Raised) : Option DriveOutcome :=
  match target with
  | .agent _ => if e.isHimmyError then none else some (.raised e.text)
  | .orchestration => if e.isResumeClaimLoss then none else some (.raised e.text)

/-! ## What a resume reads of a checkpoint -/

/-- The parts of a stored checkpoint that no resume writes: what a load of the row raises, the turn
    ceiling, and the validation errors of the other parts. -/
structure CheckpointBody where
  unreadable : Option Raised := none
  maxTurns : Int := 8
  persona : Option String := none
  task : Option String := none
  thread : Option String := none
  ctx : Option String := none
  llmConfig : Option String := none

/-- The runtime that was rebuilt for a resume. -/
structure RebuiltRuntime where
  hasCheckpointStore : Bool := true
  hasToolService : Bool := true

/-- The error of `resume_agent_loop` before it takes the lock of the checkpoint. -/
def lookError (rt : RebuiltRuntime) (body : CheckpointBody) (checkpointId : String)
    (stored : Option AgentCheckpoint) : Option Raised :=
  if !rt.hasCheckpointStore then
    some (.himmyError "resume_agent_loop requires a checkpoint_store.")
  else if body.unreadable.isSome then body.unreadable
  else if stored.isNone then some (unknownCheckpoint checkpointId)
  else none

/-- The error of `resume_agent_loop_locked` between its claim and the decision. -/
def openingError (rt : RebuiltRuntime) (body : CheckpointBody) (approved : Bool) : Option Raised :=
  match Runtime.validateMaxTurns body.maxTurns "resume_agent_loop" with
  | .error e => some (.himmyError e)
  | .ok _ =>
    if approved && !rt.hasToolService then
      some (.himmyError "cannot resume approved: no tool_service to execute the action.")
    else match (body.persona.or body.task).or body.thread with
      | some e => some (.foreign e)
      | none => match body.ctx with
        | some e => some (.himmyError ("resume_agent_loop: invalid task context: " ++ e))
        | none => body.llmConfig.map .foreign

/-! ## One task -/

/-- Where the background task of a resume stands. `node` is the member that an orchestration is
    paused at. Between `entered` and `looping` the task is under `asyncio.wait_for`, and between
    `located` and `continuing` in `resume_agent_loop`. -/
inductive DriveStage
  | building
  | entered (rt : RebuiltRuntime)
  | located (rt : RebuiltRuntime) (checkpointId : String) (node : Option String)
  | claimed (rt : RebuiltRuntime) (checkpointId : String) (node : Option String)
  | applying (copy : AgentCheckpoint) (node : Option String)
  | continuing (checkpointId : String) (node : Option String)
  | advancing (node : String)
  | looping
  | returned (outcome : DriveOutcome)

/-- The task is under `asyncio.wait_for`. -/
def DriveStage.inDrive : DriveStage → Bool
  | .building => false
  | .returned _ => false
  | _ => true

/-- The member, and its checkpoint, whose `resume_agent_loop` the task is in. -/
def DriveStage.member? : DriveStage → Option (String × String)
  | .located _ checkpointId node => node.map (·, checkpointId)
  | .claimed _ checkpointId node => node.map (·, checkpointId)
  | .applying copy node => node.map (·, copy.checkpointId)
  | .continuing checkpointId node => node.map (·, checkpointId)
  | _ => none

/-- A resume and its background task. `spawned` is history: the run was marked `RUNNING`. -/
structure ResumeDrive where
  resume : Resume
  stage : DriveStage := .building
  spawned : Bool := false

/-- The steps of a resume and of its background task. -/
inductive DriveStep
  | claim
  | decide
  | flip
  | load
  | buildFails (e : Raised)
  | memberRemoved (agentId : String)
  | build (rt : RebuiltRuntime)
  | look
  | claimCheckpoint
  | check
  | record (results : Dict ToolExecutionResult)
  | resolve
  | advance (next : Option (String × String))
  | leave (outcome : DriveOutcome)
  | finish
  | raises (e : Raised)
  | timesOut (seconds : Nat)
  | cancel
  | fail

namespace DriveStep

def ofResume : DriveStep → Option ResumeStep
  | .claim => some .claim
  | .decide => some .decide
  | .flip => some .flip
  | .load => some .load
  | _ => none

end DriveStep

def RunRecord.orchestrationCheckpointId (run : RunRecord) : String :=
  (orNone (Dict.str? run.metadata "orchestration_checkpoint_id")).getD ""

def ResumeTarget.returns : ResumeTarget → DriveOutcome → Bool
  | .agent _, .inferenceFailed _ => true
  | .agent _, .succeeded _ => true
  | .agent _, .awaitingApproval .. => true
  | .orchestration, .orchestrated _ => true
  | _, _ => false

namespace ResumeDrive

variable (b : ResumeDrive)

def runId : String := b.resume.run.runId

def live : Bool := match b.resume.stage with
  | .spawned => true
  | .background _ => true
  | _ => false

def loaded : Bool := match b.resume.stage with
  | .background _ => true
  | _ => false

end ResumeDrive

/-! ## The system -/

/-- The stores, and the resumes over them. `pauses` is what the graph checkpoints are stamped with: the
    paused node and its member checkpoint. -/
structure ResumeDrives (σ : Type) where
  store : SqliteRunStore
  checkpoints : σ
  pauses : String → Option (String × String)
  tasks : List ResumeDrive := []

/-- Where a step takes a background task: on, with what it does to the checkpoint stores, or to its
    end. -/
inductive Move (σ : Type)
  | goes (stage : DriveStage) (checkpoints : σ) (pauses : String → Option (String × String))
  | ends (l : ResumeStep)

/-- What is around the resumes: the wiring of the service, the checkpoint store, and the parts of the
    checkpoints that no resume writes. -/
structure DriveEnv (σ : Type) where
  resume : ResumeEnv
  checkpoints : CheckpointStore σ
  body : String → CheckpointBody

/-- What can happen next. -/
inductive DriveEvent
  | resume (runId : String) (approved : Bool) (workspaceId : Option String) (actor : String)
  | reopen (runId : String)
  | pause (checkpoint : AgentCheckpoint)
  | task (i : Nat) (l : DriveStep)

section

variable {σ : Type} (env : DriveEnv σ)

namespace ResumeDrives

variable (st : ResumeDrives σ) (b : ResumeDrive)

/-- What an error does to a task in its drive. `_resume_member` takes a claim loss of its member, while
    the graph is still paused there, for a member that was resolved before the graph advanced. -/
def raised (member : Option (String × String)) (e : Raised) : Move σ :=
  match b.resume.target.settles e with
  | some outcome => .ends (.finish outcome)
  | none => match member with
    | some (node, checkpointId) =>
      if st.pauses b.resume.run.orchestrationCheckpointId = some (node, checkpointId) then
        .goes (.advancing node) st.checkpoints st.pauses
      else .ends .alreadyResolved
    | none => .ends .alreadyResolved

/-- What the task looks for: the checkpoint of the run, or of the member its graph is paused at. -/
def sought : Option (String × Option String) :=
  match b.resume.target with
  | .agent checkpointId => some (checkpointId, none)
  | .orchestration =>
    (st.pauses b.resume.run.orchestrationCheckpointId).map (fun pause => (pause.2, some pause.1))

/-- A background task from one store access to the next. -/
def move : DriveStep → Option (Move σ)
  | .buildFails e => match b.resume.target, b.stage with
    | .agent _, .building => some (.ends (.finish (.buildFailed e.text)))
    | _, _ => none
  | .memberRemoved agentId => match b.resume.target, b.stage with
    | .orchestration, .building => some (.ends (.finish (.raised
        ("resume failed: member agent " ++ agentId ++ " removed"))))
    | _, _ => none
  | .build rt => match b.stage with
    | .building => some (.goes (.entered rt) st.checkpoints st.pauses)
    | _ => none
  | .look => match b.stage with
    | .entered rt => match st.sought b with
      -- the graph waits on no member: it is driven on, or it raises
      | none => some (.goes .looping st.checkpoints st.pauses)
      | some (checkpointId, node) =>
        match lookError rt (env.body checkpointId) checkpointId
          (env.checkpoints.load st.checkpoints checkpointId) with
        | some e => some (st.raised b (node.map (·, checkpointId)) e)
        | none => some (.goes (.located rt checkpointId node) st.checkpoints st.pauses)
    | _ => none
  | .claimCheckpoint => match b.stage with
    | .located rt checkpointId node =>
      match env.checkpoints.claim st.checkpoints checkpointId with
      | (checkpoints, true) => some (.goes (.claimed rt checkpointId node) checkpoints st.pauses)
      | (_, false) => some (st.raised b b.stage.member?
          (claimLoss checkpointId (env.checkpoints.load st.checkpoints checkpointId)))
    | _ => none
  | .check => match b.stage with
    | .claimed rt checkpointId node => match env.checkpoints.load st.checkpoints checkpointId with
      | none => some (st.raised b b.stage.member? (unknownCheckpoint checkpointId))
      | some copy => match openingError rt (env.body checkpointId) b.resume.approved with
        | some e => some (st.raised b b.stage.member? e)
        | none => some (.goes (.applying copy node) st.checkpoints st.pauses)
    | _ => none
  | .record results => match b.stage with
    | .applying copy node =>
      let copy := { copy with executedToolResults := results }
      some (.goes (.applying copy node) (env.checkpoints.save st.checkpoints copy) st.pauses)
    | _ => none
  | .resolve => match b.stage with
    | .applying copy node => some (.goes (.continuing copy.checkpointId node)
        (env.checkpoints.save st.checkpoints (copy.withStatus b.resume.approved)) st.pauses)
    | _ => none
  | .advance next => match b.stage with
    | .continuing _ (some _) => some (.goes .looping st.checkpoints
        (Function.update st.pauses b.resume.run.orchestrationCheckpointId next))
    | .advancing _ => some (.goes .looping st.checkpoints
        (Function.update st.pauses b.resume.run.orchestrationCheckpointId next))
    | _ => none
  | .leave outcome =>
    if b.resume.target.returns outcome then match b.stage with
      | .continuing _ none => some (.goes (.returned outcome) st.checkpoints st.pauses)
      | .looping => some (.goes (.returned outcome) st.checkpoints st.pauses)
      | _ => none
    else none
  | .finish => match b.stage with
    | .returned outcome => some (.ends (.finish outcome))
    | _ => none
  | .raises e => if b.stage.inDrive then some (st.raised b b.stage.member? e) else none
  | .timesOut seconds => if b.stage.inDrive then some (.ends (.finish (.timedOut seconds))) else none
  -- outside `wait_for` no handler catches a cancellation
  | .cancel => if b.stage.inDrive then some (.ends (.finish .cancelled)) else some (.ends .crash)
  -- an exception outside the `try`: of the load, of the resolver, or of the projection
  | .fail => match b.resume.target, b.stage with
    | .agent _, .building => if b.loaded then none else some (.ends .crash)
    | _, _ => if b.stage.inDrive then none else some (.ends .crash)
  | _ => none

/-- The system after a step of the resume `i`. -/
def stepped (i : Nat) (b : ResumeDrive) (p : SqliteRunStore × Resume) : ResumeDrives σ :=
  { st with
    store := p.1,
    tasks := st.tasks.set i { b with
      resume := p.2,
      spawned := b.spawned || (match p.2.stage with
        | .spawned => true
        | _ => false) } }

/-- The system after a move of the task `i`. -/
def moved (now : Instant) (i : Nat) (b : ResumeDrive) : Move σ → Option (ResumeDrives σ)
  | .goes stage checkpoints pauses =>
    some { st with checkpoints, pauses, tasks := st.tasks.set i { b with stage } }
  | .ends l => (b.resume.step env.resume st.store now l).map (st.stepped i b)

/-- A task can be struck while it waits for the semaphore, every other step comes after it has loaded
    its run. -/
def ready : DriveStep → Bool
  | .cancel => b.live
  | .fail => b.live
  | _ => b.loaded

def step (st : ResumeDrives σ) (e : Instant × DriveEvent) : Option (ResumeDrives σ) :=
  match e with
  | (_, .resume runId approved workspaceId actor) =>
    match resumeLoad env.resume st.store runId workspaceId with
    | .ok (run, target) => some { st with
        tasks := st.tasks ++ [{ resume := { run, approved, actor, target } }] }
    | .error _ => some st
  | (now, .reopen runId) => match st.store.getRun runId with
    | some run =>
      if run.status = .resolving && run.resumeDecision.isSome then
        (st.store.saveRun (run.reopened now) now).map (fun store => { st with store })
      else none
    | none => none
  | (_, .pause checkpoint) =>
    if (env.checkpoints.load st.checkpoints checkpoint.checkpointId).isNone
        && !checkpoint.status.terminal then
      some { st with checkpoints := env.checkpoints.save st.checkpoints checkpoint }
    else none
  | (now, .task i l) => st.tasks[i]?.bind (fun b => match l.ofResume with
    | some l => (b.resume.step env.resume st.store now l).map (st.stepped i b)
    | none => if ready b l then (st.move env b l).bind (st.moved env now i b) else none)

end ResumeDrives

def resumeDrives : LTS (ResumeDrives σ) (Instant × DriveEvent) := ⟨ResumeDrives.step env⟩

end

end Himmy
