import Himmy.Runtime.Turn

/-! # Workflows

`WorkflowOrchestrator.run` drives the steps of a workflow over one state: it formats the subtask of a
step against the state, runs the step with its retries, and puts its output into the state. A drive
stops at a failed step, or goes on past it; its result can be passed back, and the next drive begins
at the step it names.

The runtime that runs a turn, `str.format` and `json.loads` are an `Engine`. A run keeps, besides its
result, the steps it visited and the attempts it made at them. -/

namespace Himmy.Workflows

open Himmy.Runtime

/-! ## Steps and results -/

structure WorkflowStep where
  name : String
  subtask : String
  toolNames : List String := []
  responseFormat : Option ResponseFormat := none
  outputJsonSchema : Option (Dict Value) := none
  outputKey : Option String := none
  sequentialTools : Bool := false
  temperature : Option Rat := none
  maxTokens : Option Int := none
  stepTimeoutSeconds : Option Rat := none
  metadata : Dict Value := KeyedList.empty

structure Workflow where
  name : String
  steps : List WorkflowStep := []

/-- `WorkflowStepResult`. -/
structure StepResult where
  stepName : String
  completed : Bool
  outputText : Option String := none
  outputStructured : Value := .null
  toolCalls : List ToolCallRecord := []
  toolReturns : List ToolReturnRecord := []
  error : Option String := none
  attempts : Nat := 1
  metadata : Dict Value := KeyedList.empty

/-- What a completed step puts into the state: its structured output, or else its text. -/
def StepResult.output (result : StepResult) : Value :=
  match result.outputStructured with
  | .null => Value.ofOption result.outputText
  | structured => structured

/-- The values of `WorkflowResult.status` that a run returns. -/
inductive WorkflowStatus where
  | completed
  | failed
  | partly
  deriving DecidableEq

structure WorkflowResult where
  workflowName : String
  status : WorkflowStatus
  finalState : Dict Value
  threadId : String
  stepResults : List StepResult
  startIndex : Nat
  nextIndex : Option Nat
  idempotencyKey : Option String

/-! ## What a run is over -/

/-- `subtask.format(**state)`. -/
inductive Formatted where
  | text (prompt : String)
  | missing (key : String)
  | raises (exc : String)

/-- A tool call that a turn executed, and whether it succeeded. -/
structure ToolExecution where
  toolName : String
  args : Dict Value := KeyedList.empty
  succeeded : Bool

/-- The task and the config of a turn. `budget` is the timeout of the attempt it is part of. -/
structure TurnRequest where
  title : String
  prompt : String
  toolNames : List String
  responseFormat : Option ResponseFormat
  outputJsonSchema : Option (Dict Value) := none
  temperature : Rat
  maxTokens : Option Int := none
  workflow : Option WorkflowState := none
  budget : Option Rat

/-- How a turn ends. A timeout of the step raises. -/
inductive TurnEnd where
  | returned (result : RunResult)
  | raised (exc : String)
  | cancelled

/-- A turn: the tool calls it executed, and its end. -/
structure Turn where
  executed : List ToolExecution := []
  ends : TurnEnd

/-- The runtime, the library and the settings of an orchestrator. -/
structure Engine (ω : Type) where
  format : String → Dict Value → Formatted
  /-- `json.loads`, of a text that is a list or a dictionary -/
  loads : String → Option Value
  /-- `run_task_detailed` -/
  runTask : ω → TurnRequest → Turn × ω
  /-- a cancellation strikes outside a turn: at an event, or in a backoff -/
  interrupted : ω → Bool × ω
  defaultTemperature : Rat := 1 / 10
  maxStepRetries : Nat := 0
  stepTimeoutSeconds : Option Rat := none

/-- What leaves `run` without a result. -/
inductive Interrupt where
  | raised (exc : String)
  | cancelled

section

variable {ω : Type} (engine : Engine ω)

/-! ## One attempt at a step -/

/-- How an attempt ends. -/
inductive AttemptEnd where
  | result (r : StepResult)
  | raised (exc : String)
  | cancelled

/-- `step.step_timeout_seconds or self._step_timeout_seconds`. -/
def budget (step : WorkflowStep) : Option Rat :=
  (step.stepTimeoutSeconds.filter (· ≠ 0)).or (engine.stepTimeoutSeconds.filter (· ≠ 0))

def stepResultFromRun (step : WorkflowStep) (result : RunResult) : StepResult :=
  if !result.succeeded then
    { stepName := step.name, completed := false, outputText := result.outputText,
      outputStructured := result.outputStructured, toolCalls := result.toolCalls,
      toolReturns := result.toolReturns, error := some (pyOr result.error "step inference failed"),
      metadata := step.metadata }
  else
    { stepName := step.name, completed := true, outputText := result.outputText,
      outputStructured := match result.outputStructured with
        | .null => ((orNone result.outputText).bind engine.loads).getD .null
        | structured => structured,
      toolCalls := result.toolCalls, toolReturns := result.toolReturns, metadata := step.metadata }

def runSingle (step : WorkflowStep) (prompt : String) (temperature : Rat) (w : ω) :
    List ToolExecution × AttemptEnd × ω :=
  let (turn, w) := engine.runTask w {
    title := step.name, prompt, toolNames := step.toolNames,
    responseFormat := match step.responseFormat with
      | none => step.outputJsonSchema.map (fun _ => .structuredOutput)
      | some format => some format,
    outputJsonSchema := step.outputJsonSchema, temperature, maxTokens := step.maxTokens,
    budget := budget engine step }
  match turn.ends with
  | .returned result => (turn.executed, .result (stepResultFromRun engine step result), w)
  | .raised exc => (turn.executed, .raised exc, w)
  | .cancelled => (turn.executed, .cancelled, w)

/-- What the turns of a forced-sequential step have come to. -/
structure Sequence where
  toolCalls : List ToolCallRecord := []
  toolReturns : List ToolReturnRecord := []
  lastText : Option String := none

/-- `_run_sequential_tools`, at the tool `k` of the step, before the tools that remain. -/
def runSequentialTools (step : WorkflowStep) (prompt : String) (temperature : Rat) :
    List String → Nat → Sequence → ω → List ToolExecution × AttemptEnd × ω
  | [], _, acc, w =>
    ([], .result { stepName := step.name, completed := true, outputText := acc.lastText,
                   toolCalls := acc.toolCalls, toolReturns := acc.toolReturns,
                   metadata := step.metadata }, w)
  | tool :: tools, k, acc, w =>
    let (turn, w) := engine.runTask w {
      title := step.name ++ ":" ++ tool, prompt, toolNames := step.toolNames,
      responseFormat := some .workflow, temperature,
      workflow := some { definition := ⟨step.toolNames⟩, currentStep := k },
      budget := budget engine step }
    match turn.ends with
    | .raised exc => (turn.executed, .raised exc, w)
    | .cancelled => (turn.executed, .cancelled, w)
    | .returned result =>
      if !result.succeeded then
        (turn.executed, .result {
          stepName := step.name, completed := false, outputText := acc.lastText,
          toolCalls := acc.toolCalls, toolReturns := acc.toolReturns,
          error := some (pyOr result.error "workflow step inference failed"),
          metadata := step.metadata }, w)
      else
        let (executed, ends, w) := runSequentialTools step prompt temperature tools (k + 1)
          { toolCalls := acc.toolCalls ++ result.toolCalls,
            toolReturns := acc.toolReturns ++ result.toolReturns,
            lastText := (orNone result.outputText).or acc.lastText } w
        (turn.executed ++ executed, ends, w)

def runStepOnce (step : WorkflowStep) (prompt : String) (w : ω) :
    List ToolExecution × AttemptEnd × ω :=
  let temperature := step.temperature.getD engine.defaultTemperature
  if step.sequentialTools && 2 ≤ step.toolNames.length then
    runSequentialTools engine step prompt temperature step.toolNames 0 {} w
  else runSingle engine step prompt temperature w

/-! ## A step with its retries -/

/-- An attempt at the step `index`, as it went. -/
structure Attempt where
  index : Nat
  attempt : Nat
  prompt : String
  failed : Bool
  executed : List ToolExecution

def attemptResult (step : WorkflowStep) (attempt : Nat) : AttemptEnd → Option StepResult
  | .result r => some { r with attempts := attempt + 1 }
  | .raised exc => some { stepName := step.name, completed := false, error := some exc,
                          attempts := attempt + 1, metadata := step.metadata }
  | .cancelled => none

/-- A step, as it ran: no result, when it was cancelled. -/
structure StepRun (ω : Type) where
  attempts : List Attempt
  result : Option StepResult
  world : ω

def runStep (index : Nat) (step : WorkflowStep) (prompt : String) (retries attempt : Nat) (w : ω) :
    StepRun ω :=
  let (executed, ends, w) := runStepOnce engine step prompt w
  match attemptResult step attempt ends with
  | none => ⟨[⟨index, attempt, prompt, false, executed⟩], none, w⟩
  | some result =>
    let here : Attempt := ⟨index, attempt, prompt, !result.completed, executed⟩
    if result.completed then ⟨[here], some result, w⟩
    else match retries with
      | 0 => ⟨[here], some result, w⟩
      | retries + 1 => match engine.interrupted w with
        | (true, w) => ⟨[here], none, w⟩
        | (false, w) =>
          let more := runStep index step prompt retries (attempt + 1) w
          { more with attempts := here :: more.attempts }

/-! ## A drive -/

/-- A step that a drive came to, with its result. -/
structure Visit where
  index : Nat
  step : WorkflowStep
  result : StepResult

def Visit.record (state : Dict Value) (v : Visit) : Dict Value :=
  if v.result.completed then match v.step.outputKey with
    | some key => state.set key v.result.output
    | none => state
  else state

/-- Where a drive ends. -/
inductive DriveEnd where
  | finished
  | stopped (index : Nat)
  | interrupted (i : Interrupt)

/-- A drive over some steps: the steps it visited, its attempts, and the state it leaves. -/
structure Drive (ω : Type) where
  visits : List Visit
  attempts : List Attempt
  state : Dict Value
  ends : DriveEnd
  world : ω

def missingKey (step : WorkflowStep) (key : String) : StepResult where
  stepName := step.name
  completed := false
  error := some ("Missing state key referenced in subtask: " ++ key)
  metadata := step.metadata

def visitStep (index : Nat) (step : WorkflowStep) (state : Dict Value) (w : ω) :
    List Attempt × Except Interrupt StepResult × ω :=
  match engine.format step.subtask state with
  | .raises exc => ([], .error (.raised exc), w)
  | .missing key => ([], .ok (missingKey step key), w)
  | .text prompt =>
    let run := runStep engine index step prompt engine.maxStepRetries 0 w
    match run.result with
    | none => (run.attempts, .error .cancelled, run.world)
    | some result => (run.attempts, .ok result, run.world)

/-- The loop of `_run_inner`, from the step `index` on. -/
def runSteps (stop : Bool) : List WorkflowStep → Nat → Dict Value → ω → Drive ω
  | [], _, state, w => ⟨[], [], state, .finished, w⟩
  | step :: steps, index, state, w =>
    match visitStep engine index step state w with
    | (attempts, .error i, w) => ⟨[], attempts, state, .interrupted i, w⟩
    | (attempts, .ok result, w) =>
      let v : Visit := ⟨index, step, result⟩
      match engine.interrupted w with
      | (true, w) => ⟨[v], attempts, v.record state, .interrupted .cancelled, w⟩
      | (false, w) =>
        if !result.completed && stop then ⟨[v], attempts, v.record state, .stopped index, w⟩
        else
          let rest := runSteps stop steps (index + 1) (v.record state) w
          { rest with visits := v :: rest.visits, attempts := attempts ++ rest.attempts }

/-- A run: what its drive did, and its result or what interrupted it. -/
structure Run (ω : Type) where
  visits : List Visit := []
  attempts : List Attempt := []
  ends : Except Interrupt WorkflowResult
  world : ω

variable (resume : Option WorkflowResult)

/-- `begin`, before it is clamped. -/
def beginIndex (startIndex : Option Int) : Int :=
  match startIndex with
  | some i => i
  | none => match resume with
    | some r => r.nextIndex.getD 0
    | none => 0

def startState (initialState : Dict Value) : Dict Value :=
  match resume with
  | some r => r.finalState
  | none => initialState

/-- `step_results` at the start. -/
def earlierResults : List StepResult :=
  match resume with
  | some r => r.stepResults
  | none => []

def statusOf (anyFailed anyCompleted : Bool) : WorkflowStatus :=
  if anyFailed && anyCompleted then .partly else if anyFailed then .failed else .completed

variable (wf : Workflow)

def runInner (threadId : String) (initialState : Dict Value) (stop : Bool)
    (resume : Option WorkflowResult) (startIndex : Option Int) (key : Option String) (w : ω) : Run ω :=
  let state := startState resume initialState
  let earlier := earlierResults resume
  let first := (max 0 (min (beginIndex resume startIndex) wf.steps.length)).toNat
  match engine.interrupted w with
  | (true, w) => { ends := .error .cancelled, world := w }
  | (false, w) =>
    let drive := runSteps engine stop (wf.steps.drop first) first state w
    let result (nextIndex : Option Nat) : WorkflowResult := {
      workflowName := wf.name
      status := statusOf (drive.visits.any (!·.result.completed))
        (earlier.any (·.completed) || drive.visits.any (·.result.completed))
      finalState := drive.state
      threadId
      stepResults := earlier ++ drive.visits.map (·.result)
      startIndex := first
      nextIndex
      idempotencyKey := key }
    let ended (nextIndex : Option Nat) : Run ω := match engine.interrupted drive.world with
      | (true, w) => ⟨drive.visits, drive.attempts, .error .cancelled, w⟩
      | (false, w) => ⟨drive.visits, drive.attempts, .ok (result nextIndex), w⟩
    match drive.ends with
    | .interrupted i => ⟨drive.visits, drive.attempts, .error i, drive.world⟩
    | .finished => ended none
    | .stopped index => ended (some index)

/-- `idempotency_key or (resume.idempotency_key if resume else None)`. -/
def runKey (resume : Option WorkflowResult) (idempotencyKey : Option String) : Option String :=
  (orNone idempotencyKey).or (resume.bind (·.idempotencyKey))

def run (completed : Dict WorkflowResult) (threadId : String) (initialState : Dict Value)
    (stop : Bool) (resume : Option WorkflowResult) (startIndex : Option Int)
    (idempotencyKey : Option String) (w : ω) : Run ω × Dict WorkflowResult :=
  let key := runKey resume idempotencyKey
  match key.bind completed.find? with
  | some cached => ({ ends := .ok cached, world := w }, completed)
  | none =>
    let r := runInner engine wf threadId initialState stop resume startIndex key w
    (r, match key, r.ends with
      | some k, .ok result => if result.status = .completed then completed.set k result else completed
      | _, _ => completed)

end

end Himmy.Workflows
