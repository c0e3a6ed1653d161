import Himmy.Application.RunResume
import Himmy.Application.RunRetry
import Himmy.Library.Transition

/-! # Dispatchers, reapers and resumes over one run store

`fleet` is the system of everything that acts on the runs of one SQLite run store in dispatch mode:
creates under the outstanding-run cap, the claim loops of any number of dispatchers, a worker with
its heartbeat for each claimed run, the reaper loops, operator redrives, and the background resumes
of approved or rejected runs. A step of `fleet` is one statement on the store, or a step of a task
that touches no store, so a list of events is an interleaving: a process can stop, be overtaken, or
wait between any two of its statements. A task acts on the record in its hands, which is the one the
store returned to it some steps ago.

A few fields of a `Worker` and of the `Fleet` are history, not state of the program: no step reads
them (`token`, `deadline`, `reaped`, `superseded`, `reaps`). -/

namespace Himmy

/-! ## Tasks that save records -/

/-- Where a step takes a task: the task afterwards, and the record it saves on the way. -/
structure Progress (τ : Type) where
  task : τ
  save : Option RunRecord := none

def SqliteRunStore.perform {τ : Type} (s : SqliteRunStore) (now : Instant) (p : Progress τ)
    (abandon : τ → τ) : SqliteRunStore × τ :=
  match p.save with
  | none => (s, p.task)
  | some run => match s.saveRun run now with
    | some s' => (s', p.task)
    | none => (s, abandon p.task)

/-! ## Workers -/

/-- Where a worker stands with the run it claimed. -/
inductive WorkerStage
  | claimed
  | waiting
  | ready
  | driving
  | settled
  | deciding (run : RunRecord)
  | done

/-- A claimed run in the hands of a dispatcher's worker, and its heartbeat. -/
structure Worker where
  ownerId : String
  lease : Duration
  run : RunRecord
  stage : WorkerStage := .claimed
  beating : Bool := true
  /-- The attempt number of the claim. -/
  token : Int
  /-- The deadline of the claim or of the last successful renewal. -/
  deadline : Instant
  /-- The lease was reaped. -/
  reaped : Bool := false
  /-- The lease was reaped and the run was then claimed by another owner. -/
  superseded : Bool := false

/-- The steps of a worker. -/
inductive WorkerStep
  | heartbeat
  | rehydrate (exc : Option String)
  | resolveMembers (resolverWired : Bool) (removed : Option String)
  | reread
  | markRunning
  | finish (outcome : DriveOutcome)
  | readForRetry
  | saveRetry
  | crash

namespace Worker

/-- The worker `_run_worker` starts on a claimed run. -/
def start (ownerId : String) (lease : Duration) (run : RunRecord) (now : Instant) : Worker :=
  { ownerId, lease, run, token := run.attempt, deadline := isoPlusSeconds now lease }

variable (w : Worker)

def isDone : Bool := match w.stage with
  | .done => true
  | _ => false

/-- `dispatch_claimed_run` from one store access to the next. `stored` is what `get_run` returns. An
    orchestration run is read again after the wait for the semaphore; any other run is driven on the
    record of the claim. -/
def advance (stored : Option RunRecord) (now : Instant) :
    WorkerStep → Option (Progress Worker)
  | .heartbeat => none
  | .rehydrate exc => match w.stage with
    | .claimed =>
      if w.run.isOrchestration then none
      else match rehydrationError w.run exc with
        | some error =>
          let failed := w.run.rehydrationFailed error now
          some { task := { w with run := failed.stamped now, stage := .done }, save := some failed }
        | none => some { task := { w with stage := .waiting } }
    | _ => none
  | .resolveMembers resolverWired removed => match w.stage with
    | .claimed =>
      if w.run.isOrchestration then match membersError w.run resolverWired removed with
        | some error =>
          let failed := w.run.rehydrationFailed error now
          some { task := { w with run := failed.stamped now, stage := .settled },
                 save := some failed }
        | none => some { task := { w with stage := .waiting } }
      else none
    | _ => none
  | .reread => match w.stage with
    | .waiting =>
      if w.run.isOrchestration then match stored with
        | some run => some { task := { w with run, stage := .ready } }
        | none => some { task := { w with stage := .settled } }
      else none
    | _ => none
  | .markRunning => match w.stage with
    | .waiting => if w.run.isOrchestration then none else some (mark w)
    | .ready => some (mark w)
    | _ => none
  | .finish outcome => match w.stage with
    | .driving =>
      let run := outcome.apply .dispatch w.run now
      -- a cancelled drive unwinds the task, past the retry policy
      let stage := match outcome with
        | .cancelled => .done
        | _ => .settled
      some { task := { w with run := run.stamped now, stage }, save := some run }
    | _ => none
  | .readForRetry => match w.stage with
    | .settled => match stored with
      | some run =>
        if run.status = .failed && run.failsTransiently then
          some { task := { w with stage := .deciding run } }
        else some { task := { w with stage := .done } }
      | none => some { task := { w with stage := .done } }
    | _ => none
  | .saveRetry => match w.stage with
    | .deciding run =>
      some { task := { w with stage := .done }, save := applyRetryPolicy run now }
    | _ => none
  | .crash => match w.stage with
    | .done => none
    | _ => some { task := { w with stage := .done } }
where
  mark (w : Worker) : Progress Worker :=
    { task := { w with run := (w.run.markedRunning now).stamped now, stage := .driving },
      save := some (w.run.markedRunning now) }

def step (s : SqliteRunStore) (now : Instant) :
    WorkerStep → Option (SqliteRunStore × Worker)
  | .heartbeat =>
    if w.isDone || !w.beating then none
    else match s.renewLease w.run.runId w.ownerId w.lease now with
      | (s', true) => some (s', { w with deadline := isoPlusSeconds now w.lease })
      | (s', false) => some (s', { w with beating := false })
  | l => (w.advance (s.getRun w.run.runId) now l).map
      (fun p => s.perform now p (fun w => { w with stage := .done }))

def noteReap (runIds : List String) (w : Worker) : Worker :=
  if w.run.runId ∈ runIds then { w with reaped := true } else w

def noteClaim (runId ownerId : String) (w : Worker) : Worker :=
  if w.run.runId = runId ∧ w.reaped ∧ w.ownerId ≠ ownerId then { w with superseded := true } else w

end Worker

/-! ## Resumes -/

/-- Where a resume stands. -/
inductive ResumeStage
  | loaded
  | claimed
  | decided
  | spawned
  | background (run : RunRecord)
  | done

/-- One call of `resume_run` past its checks, and the background task it spawns. -/
structure Resume where
  run : RunRecord
  approved : Bool
  actor : String
  target : ResumeTarget
  stage : ResumeStage := .loaded

/-- The steps of a resume. -/
inductive ResumeStep
  | claim
  | decide
  | flip
  | load
  | finish (outcome : DriveOutcome)
  | alreadyResolved
  | crash

namespace Resume

/-- `resume_run` and its background task between two store accesses, the claim apart. -/
def advance (env : ResumeEnv) (ρ : Resume) (stored : Option RunRecord) (now : Instant) :
    ResumeStep → Option (Progress Resume)
  | .claim => none
  | .decide => match ρ.stage with
    | .claimed =>
      let decided := ρ.run.withDecision ρ.approved ρ.actor now
      some { task := { ρ with run := decided.stamped now, stage := .decided }, save := some decided }
    | _ => none
  | .flip => match ρ.stage with
    | .decided => match flipError env ρ.target ρ.run with
      | some _ => some { task := { ρ with stage := .done } }
      | none =>
        let running := ρ.run.markedRunning now
        some { task := { ρ with run := running.stamped now, stage := .spawned },
               save := some running }
    | _ => none
  | .load => match ρ.stage with
    | .spawned => match stored with
      | some run => some { task := { ρ with stage := .background run } }
      | none => some { task := { ρ with stage := .done } }
    | _ => none
  | .finish outcome => match ρ.stage with
    | .background run =>
      some { task := { ρ with stage := .done }, save := some (outcome.apply .resume run now) }
    | _ => none
  | .alreadyResolved => match ρ.stage with
    | .background _ => some { task := { ρ with stage := .done } }
    | _ => none
  | .crash => match ρ.stage with
    | .done => none
    | _ => some { task := { ρ with stage := .done } }

def step (env : ResumeEnv) (ρ : Resume) (s : SqliteRunStore) (now : Instant) :
    ResumeStep → Option (SqliteRunStore × Resume)
  | .claim => match ρ.stage with
    | .loaded => match s.claimRunForResume ρ.run.runId ρ.run.workspaceId now with
      | (s', true) => some (s', { ρ with stage := .claimed })
      | (s', false) => some (s', { ρ with stage := .done })
    | _ => none
  | l => (ρ.advance env (s.getRun ρ.run.runId) now l).map
      (fun p => s.perform now p (fun ρ => { ρ with stage := .done }))

end Resume

/-! ## Creates -/

/-- What `create_run` is asked for. -/
structure RunRequest where
  runId : String
  workspaceId : String
  subjectId : String
  taskId : Option String := none
  threadId : Option String := none
  personaName : Option String := none
  modelKey : Option String := none
  idempotencyKey : Option String := none
  metadata : Dict Json := KeyedList.empty
  laneKey : Option String := none
  inputBlob : Option String := none

/-- The wiring and the tunables of the service. -/
structure FleetConfig where
  workspaceMaxOutstanding : Int := 0
  defaultMaxAttempts : Int := 1
  resume : ResumeEnv := { checkpointStore := false, agentResolver := none }

/-- The `QUEUED` record of a create in dispatch mode. -/
def RunRequest.record (q : RunRequest) (cfg : FleetConfig) (now : Instant) : RunRecord :=
  { runId := q.runId, workspaceId := q.workspaceId, subjectId := q.subjectId, taskId := q.taskId,
    threadId := q.threadId, personaName := q.personaName, modelKey := q.modelKey,
    idempotencyKey := q.idempotencyKey, metadata := q.metadata, createdAt := now, updatedAt := now,
    maxAttempts := cfg.defaultMaxAttempts, laneKey := q.laneKey, inputBlob := q.inputBlob }

/-- The answer to a create. -/
inductive CreateAnswer
  | stored (run : RunRecord)
  | quotaExceeded
  | integrityError

def createRun (cfg : FleetConfig) (s : SqliteRunStore) (run : RunRecord) (now : Instant) :
    SqliteRunStore × CreateAnswer :=
  if 0 < cfg.workspaceMaxOutstanding ∧ run.workspaceId ≠ localWorkspace then
    match s.saveRunIfUnderQuota run cfg.workspaceMaxOutstanding now with
    | some (s', stored, true) => (s', .stored stored)
    | some (s', _, false) => (s', .quotaExceeded)
    | none => (s, .integrityError)
  else match s.saveRunIfAbsentByIdempotency run now with
    | some (s', stored, _) => (s', .stored stored)
    | none => (s, .integrityError)

/-! ## The system -/

/-- The store and the tasks that act on it. -/
structure Fleet where
  store : SqliteRunStore := SqliteRunStore.empty
  workers : List Worker := []
  resumes : List Resume := []
  /-- The run ids the reaps returned. -/
  reaps : List String := []

/-- What can happen next. -/
inductive Action
  | create (q : RunRequest)
  | claim (ownerId : String) (lease : Duration) (lanes : Option (List String)) (fairness : Bool)
      (workspaceConcurrency : Int)
  | worker (i : Nat) (l : WorkerStep)
  | reap (lanes : Option (List String))
  | redrive (runId : String) (workspaceId : Option String)
  | resume (runId : String) (approved : Bool) (workspaceId : Option String) (actor : String)
  | resumer (i : Nat) (l : ResumeStep)

namespace Fleet

def record (f : Fleet) (runId : String) : Option RunRecord := f.store.records.get? runId

def step (cfg : FleetConfig) (f : Fleet) : Instant × Action → Option Fleet
  | (now, .create q) =>
    if (f.store.getRun q.runId).isSome then none
    else some { f with store := (createRun cfg f.store (q.record cfg now) now).1 }
  | (now, .claim ownerId lease lanes fairness workspaceConcurrency) =>
    match f.store.claimNextQueuedRun ownerId lease lanes now fairness workspaceConcurrency with
    | (s', none) => some { f with store := s' }
    | (s', some run) => some { f with
        store := s',
        workers := f.workers.map (Worker.noteClaim run.runId ownerId)
          ++ [Worker.start ownerId lease run now] }
  | (now, .worker i l) =>
    f.workers[i]?.bind (fun w => (w.step f.store now l).map
      (fun sw => { f with store := sw.1, workers := f.workers.set i sw.2 }))
  | (now, .reap lanes) =>
    match f.store.requeueExpiredLeases now lanes with
    | (s', runIds) => some { f with
        store := s', workers := f.workers.map (Worker.noteReap runIds),
        reaps := f.reaps ++ runIds }
  | (now, .redrive runId workspaceId) =>
    some { f with store := (f.store.redriveRun runId workspaceId now).1 }
  | (_, .resume runId approved workspaceId actor) =>
    match resumeLoad cfg.resume f.store runId workspaceId with
    | .ok (run, target) => some { f with resumes := f.resumes ++ [{ run, approved, actor, target }] }
    | .error _ => some f
  | (now, .resumer i l) =>
    f.resumes[i]?.bind (fun ρ => (ρ.step cfg.resume f.store now l).map
      (fun sρ => { f with store := sρ.1, resumes := f.resumes.set i sρ.2 }))

end Fleet

def fleet (cfg : FleetConfig) : LTS Fleet (Instant × Action) := ⟨Fleet.step cfg⟩

end Himmy
