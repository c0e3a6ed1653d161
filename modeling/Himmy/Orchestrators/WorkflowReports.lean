import Himmy.Orchestrators.WorkflowResume

/-! # What a workflow run reports

A run emits that it starts, each step it comes to, and that it is finished. A subtask that lacks a key
of the state is a failed step; one that `str.format` refuses otherwise leaves `run` as an exception,
with nothing reported after it. The completed results are kept by the idempotency key alone, so a run
can be given the result of another workflow. -/

namespace Himmy.Workflows

variable {ω : Type} (engine : Engine ω)

/-- The events of a run; the last one stands for `WORKFLOW_FINISHED` with the error `cancelled`. -/
inductive WorkflowEvent where
  | started (startIndex : Nat)
  | stepCompleted (stepName : String) (completed : Bool)
  | finished (status : WorkflowStatus)
  | cancelled

/-- The arguments of `run`. -/
structure RunCall where
  workflow : Workflow
  threadId : String := ""
  initialState : Dict Value := KeyedList.empty
  stop : Bool := true
  resume : Option WorkflowResult := none
  startIndex : Option Int := none
  idempotencyKey : Option String := none

namespace RunCall

variable (c : RunCall)

def key : Option String := runKey c.resume c.idempotencyKey

/-- `begin` -/
def first : Nat :=
  (max 0 (min (beginIndex c.resume c.startIndex) c.workflow.steps.length)).toNat

def steps : List WorkflowStep := c.workflow.steps.drop c.first

def state : Dict Value := startState c.resume c.initialState

def earlier : List StepResult := earlierResults c.resume

def inner (w : ω) : Run ω :=
  runInner engine c.workflow c.threadId c.initialState c.stop c.resume c.startIndex c.key w

def stepEvents (visits : List Visit) : List WorkflowEvent :=
  visits.map (fun v => .stepCompleted v.step.name v.result.completed)

def statusAfter (visits : List Visit) : WorkflowStatus :=
  statusOf (visits.any (!·.result.completed))
    (c.earlier.any (·.completed) || visits.any (·.result.completed))

def drive (w : ω) : Drive ω := runSteps engine c.stop c.steps c.first c.state w

/-- The events after the steps, with whether a cancellation strikes at the last one. -/
def endEvents (status : WorkflowStatus) (struck : Bool) : DriveEnd → List WorkflowEvent
  | .interrupted (.raised _) => []
  | .interrupted .cancelled => [.cancelled]
  | .finished => .finished status :: (if struck then [.cancelled] else [])
  | .stopped _ => .finished status :: (if struck then [.cancelled] else [])

/-- What a run emits that is not answered from the completed ones, and what `run` emits for it when a
    cancellation leaves it. -/
def events (w : ω) : List WorkflowEvent :=
  match engine.interrupted w with
  | (true, _) => [.started c.first, .cancelled]
  | (false, w) =>
    let drive := c.drive engine w
    .started c.first :: stepEvents drive.visits
      ++ endEvents (c.statusAfter drive.visits) (engine.interrupted drive.world).1 drive.ends

end RunCall

/-- An orchestrator: its completed results, with the workflow that each was a run of. -/
structure Orchestrator (ω : Type) where
  world : ω
  completed : Dict WorkflowResult := KeyedList.empty
  ranBy : Dict Workflow := KeyedList.empty

namespace Orchestrator

variable (s : Orchestrator ω) (c : RunCall)

/-- The result that `run` returns from the completed ones. -/
def cached : Option WorkflowResult := c.key.bind s.completed.find?

def call : Run ω × Orchestrator ω :=
  let (r, completed) := run engine c.workflow s.completed c.threadId c.initialState c.stop c.resume
    c.startIndex c.idempotencyKey s.world
  (r, { world := r.world, completed, ranBy := match s.cached c, c.key with
          | none, some k => if (completed.find? k).isSome then s.ranBy.set k c.workflow else s.ranBy
          | _, _ => s.ranBy })

def after (s : Orchestrator ω) (calls : List RunCall) : Orchestrator ω :=
  calls.foldl (fun s c => (s.call engine c).2) s

/-- A call reports its end: it returns a result or is cancelled, its events are the start, the steps and
    one end, its status says how the steps went, a subtask that is not rendered is a failed step; and a
    result is returned without a run only for the workflow that it was a run of. -/
structure Reports : Prop where
  ends : ∀ exc, (s.call engine c).1.ends ≠ .error (.raised exc)
  sameWorkflow : ∀ k, c.key = some k → (s.cached c).isSome → s.ranBy.find? k = some c.workflow
  events : s.cached c = none → ∃ last, c.events engine s.world
      = .started c.first :: RunCall.stepEvents (c.inner engine s.world).visits ++ [last]
    ∧ (last = .cancelled ∧ (c.inner engine s.world).ends = .error .cancelled
      ∨ ∃ res, last = .finished res.status ∧ (c.inner engine s.world).ends = .ok res)
  status : s.cached c = none → ∀ res, (s.call engine c).1.ends = .ok res →
    (res.status = .completed ↔ ∀ v ∈ (s.call engine c).1.visits, v.result.completed = true)
      ∧ (res.status = .failed ↔ (∃ v ∈ (s.call engine c).1.visits, v.result.completed = false)
        ∧ ∀ r ∈ c.earlier ++ (s.call engine c).1.visits.map Visit.result, r.completed = false)
  unrendered : ∀ k v, (s.call engine c).1.visits[k]? = some v →
    (∀ prompt, engine.format v.step.subtask
      (accumulated c.state ((s.call engine c).1.visits.take k)) ≠ .text prompt) →
    v.result.completed = false

end Orchestrator

/-- No subtask that the loop comes to is refused by `str.format` for another reason than a missing
    key. -/
def Renders (stop : Bool) : List WorkflowStep → Nat → Dict Value → ω → Prop
  | [], _, _, _ => True
  | step :: steps, index, state, w => (∀ exc, engine.format step.subtask state ≠ .raises exc)
    ∧ ∀ attempts result w', visitStep engine index step state w = (attempts, .ok result, w') →
      (engine.interrupted w').1 = false → (stop = true → result.completed = true) →
      Renders stop steps (index + 1) (Visit.record state ⟨index, step, result⟩) (engine.interrupted w').2

section Drive

variable {engine} {state : Dict Value} {index : Nat} {step : WorkflowStep}

theorem visitStep_ok {w w' : ω}
    {attempts : List Attempt} {result : StepResult}
    (h : visitStep engine index step state w = (attempts, .ok result, w'))
    (hnot : ∀ prompt, engine.format step.subtask state ≠ .text prompt) : result.completed = false := by
  unfold visitStep at h
  split at h
  · cases h
  · cases h
    rfl
  · next prompt hprompt => exact absurd hprompt (hnot prompt)

theorem visitStep_raised_iff {w : ω}
    {exc : String} : (visitStep engine index step state w).2.1 = .error (.raised exc)
      ↔ engine.format step.subtask state = .raises exc := by
  unfold visitStep
  split
  · next hformat => simp [hformat]
  · next hformat => simp [hformat]
  · next prompt hformat =>
      dsimp only
      split <;> simp [hformat]

theorem runSteps_cons (steps : List WorkflowStep) (stop : Bool)
    {w w' w'' : ω} {attempts : List Attempt} {result : StepResult} {struck : Bool}
    (hvisit : visitStep engine index step state w = (attempts, .ok result, w'))
    (hstruck : engine.interrupted w' = (struck, w'')) :
    runSteps engine stop (step :: steps) index state w
      = if struck = true then ⟨[⟨index, step, result⟩], attempts, Visit.record state ⟨index, step, result⟩,
          .interrupted .cancelled, w''⟩
        else if (!result.completed && stop) = true then
          ⟨[⟨index, step, result⟩], attempts, Visit.record state ⟨index, step, result⟩, .stopped index, w''⟩
        else
          let rest := runSteps engine stop steps (index + 1) (Visit.record state ⟨index, step, result⟩) w''
          { rest with visits := ⟨index, step, result⟩ :: rest.visits, attempts := attempts ++ rest.attempts } := by
  rw [runSteps, hvisit]
  simp only [hstruck]
  cases struck <;> rfl

theorem renders_iff {stop : Bool} {steps : List WorkflowStep} {w : ω} :
    Renders engine stop steps index state w
      ↔ ∀ exc, (runSteps engine stop steps index state w).ends ≠ .interrupted (.raised exc) := by
  induction steps generalizing index state w with
  | nil => simp [Renders, runSteps]
  | cons step steps ih =>
    obtain ⟨attempts, answer, w', hvisit⟩ :
        ∃ attempts answer w', visitStep engine index step state w = (attempts, answer, w') := ⟨_, _, _, rfl⟩
    have hformat : ∀ exc, engine.format step.subtask state = .raises exc
        ↔ answer = .error (.raised exc) := by
      intro exc
      have hraised : (visitStep engine index step state w).2.1 = .error (.raised exc) ↔ _ :=
        visitStep_raised_iff
      rw [← hraised, hvisit]
    rw [Renders]
    simp only [ne_eq, hformat]
    cases answer with
    | error i =>
      rw [runSteps, hvisit]
      simp
    | ok result =>
      obtain ⟨struck, w'', hstruck⟩ : ∃ struck w'', engine.interrupted w' = (struck, w'') := ⟨_, _, rfl⟩
      rw [runSteps_cons steps stop hvisit hstruck]
      constructor
      · rintro ⟨-, hrest⟩
        have hthere := hrest attempts result w' hvisit
        rw [hstruck] at hthere
        split_ifs with hnow hfail
        · simp
        · simp
        · exact ih.1 (hthere (by simpa using hnow) (fun hs => by simpa [hs] using hfail))
      · intro hends
        refine ⟨by simp, ?_⟩
        rintro attempts₁ result₁ w₁ hvisit₁ hnot hstop
        rw [hvisit] at hvisit₁
        cases hvisit₁
        rw [hstruck] at hnot ⊢
        have hfail : ¬ (!result.completed && stop) = true := by
          cases stop <;> simp_all
        rw [if_neg (by simpa using hnot), if_neg hfail] at hends
        exact ih.2 hends

theorem runSteps_unrendered {stop : Bool} {steps : List WorkflowStep}
    {w : ω} {k : Nat} {v : Visit} (hv : (runSteps engine stop steps index state w).visits[k]? = some v)
    (hnot : ∀ prompt, engine.format v.step.subtask
      (accumulated state ((runSteps engine stop steps index state w).visits.take k)) ≠ .text prompt) :
    v.result.completed = false := by
  induction steps generalizing index state w k with
  | nil => cases hv
  | cons step steps ih =>
    obtain ⟨attempts, answer, w', hvisit⟩ :
        ∃ attempts answer w', visitStep engine index step state w = (attempts, answer, w') := ⟨_, _, _, rfl⟩
    cases answer with
    | error i =>
      rw [runSteps, hvisit] at hv
      cases hv
    | ok result =>
      obtain ⟨struck, w'', hstruck⟩ : ∃ struck w'', engine.interrupted w' = (struck, w'') := ⟨_, _, rfl⟩
      have hfirst : ∀ later : List Visit, (⟨index, step, result⟩ :: later)[k]? = some v →
          (∀ prompt, engine.format v.step.subtask
            (accumulated state ((⟨index, step, result⟩ :: later).take k)) ≠ .text prompt) →
          k = 0 → v.result.completed = false := by
        rintro later hv hnot rfl
        cases hv
        exact visitStep_ok hvisit hnot
      rw [runSteps_cons steps stop hvisit hstruck] at hv hnot
      cases k with
      | zero =>
        split_ifs at hv hnot
        · exact hfirst _ hv hnot rfl
        · exact hfirst _ hv hnot rfl
        · exact hfirst _ hv hnot rfl
      | succ k =>
        split_ifs at hv hnot
        · cases hv
        · cases hv
        · exact ih hv hnot

end Drive

section Call

variable {s : Orchestrator ω} {c : RunCall}

theorem call_cached {res : WorkflowResult} (h : s.cached c = some res) :
    (s.call engine c).1 = { ends := .ok res, world := s.world } := by
  have hcached : (runKey c.resume c.idempotencyKey).bind s.completed.find? = some res := h
  simp only [Orchestrator.call, run, hcached]

theorem call_uncached (h : s.cached c = none) : (s.call engine c).1 = c.inner engine s.world := by
  have hcached : (runKey c.resume c.idempotencyKey).bind s.completed.find? = none := h
  simp only [Orchestrator.call, run, hcached]
  rfl

theorem inner_started {w w₁ : ω} (hstart : engine.interrupted w = (false, w₁)) :
    (c.inner engine w).visits = (c.drive engine w₁).visits
      ∧ (∀ i, (c.drive engine w₁).ends = .interrupted i → (c.inner engine w).ends = .error i)
      ∧ ((∀ i, (c.drive engine w₁).ends ≠ .interrupted i) →
        if (engine.interrupted (c.drive engine w₁).world).1 = true then
          (c.inner engine w).ends = .error .cancelled
        else ∃ res, (c.inner engine w).ends = .ok res
          ∧ res.status = c.statusAfter (c.drive engine w₁).visits) := by
  obtain ⟨struck, w₂, hstruck⟩ :
      ∃ struck w₂, engine.interrupted (c.drive engine w₁).world = (struck, w₂) := ⟨_, _, rfl⟩
  simp only [RunCall.drive, RunCall.steps, RunCall.first, RunCall.state] at hstruck
  simp only [RunCall.inner, runInner, hstart, RunCall.drive, RunCall.steps, RunCall.first, RunCall.state,
    hstruck]
  cases (runSteps engine c.stop (c.workflow.steps.drop _) _ _ w₁).ends with
  | interrupted i => simp
  | finished => cases struck <;> simp [RunCall.statusAfter, RunCall.earlier]
  | stopped index => cases struck <;> simp [RunCall.statusAfter, RunCall.earlier]

/-- What a call needs to report its end: no subtask it comes to is refused by `str.format` but for a
    missing key, no cancellation strikes at its last event, and a cached result is of its workflow. -/
structure Orchestrator.Reportable (s : Orchestrator ω) (c : RunCall) : Prop where
  sameWorkflow : ∀ k, c.key = some k → (s.cached c).isSome → s.ranBy.find? k = some c.workflow
  renders : s.cached c = none → ∀ w, engine.interrupted s.world = (false, w) →
    Renders engine c.stop c.steps c.first c.state w
  unstruck : s.cached c = none → ∀ w, engine.interrupted s.world = (false, w) →
    (∀ i, (c.drive engine w).ends ≠ .interrupted i) → (engine.interrupted (c.drive engine w).world).1 = false

theorem Orchestrator.Reports.reportable (h : s.Reports engine c) : s.Reportable engine c where
  sameWorkflow := h.sameWorkflow
  renders hnone w hstart := by
    refine renders_iff.2 fun exc hraised => ?_
    have hends := (inner_started engine hstart).2.1 _ hraised
    rw [← call_uncached engine hnone] at hends
    exact h.ends exc hends
  unstruck hnone w hstart hdrive := by
    obtain ⟨last, hevents, -⟩ := h.events hnone
    have hvisits := (inner_started engine (c := c) hstart).1
    cases hstruck : (engine.interrupted (c.drive engine w).world).1 with
    | false => rfl
    | true =>
      -- the end and the cancellation are two last events
      simp only [RunCall.events, hstart, hvisits, hstruck] at hevents
      have hlength := congrArg List.length hevents
      cases hends : (c.drive engine w).ends with
      | interrupted i => exact absurd hends (hdrive i)
      | finished => simp [hends, RunCall.endEvents] at hlength
      | stopped index => simp [hends, RunCall.endEvents] at hlength

theorem statusOf_eq_failed (anyFailed anyCompleted : Bool) :
    statusOf anyFailed anyCompleted = .failed ↔ anyFailed = true ∧ anyCompleted = false := by
  cases anyFailed <;> cases anyCompleted <;> decide

theorem Orchestrator.Reportable.inner (h : s.Reportable engine c) (hnone : s.cached c = none) :
    ∃ last, c.events engine s.world
        = .started c.first :: RunCall.stepEvents (c.inner engine s.world).visits ++ [last]
      ∧ (last = .cancelled ∧ (c.inner engine s.world).ends = .error .cancelled
        ∨ ∃ res, last = .finished res.status ∧ (c.inner engine s.world).ends = .ok res
          ∧ res.status = c.statusAfter (c.inner engine s.world).visits) := by
  obtain ⟨struck, w, hstart⟩ : ∃ struck w, engine.interrupted s.world = (struck, w) := ⟨_, _, rfl⟩
  cases struck with
  | true =>
    refine ⟨.cancelled, ?_, Or.inl ⟨rfl, ?_⟩⟩ <;>
      simp [RunCall.events, RunCall.inner, runInner, hstart, RunCall.stepEvents]
  | false =>
    obtain ⟨hvisits, hbroken, hended⟩ := inner_started engine (c := c) hstart
    simp only [RunCall.events, hstart, hvisits]
    have hreturn : (∀ i, (c.drive engine w).ends ≠ .interrupted i) →
        (engine.interrupted (c.drive engine w).world).1 = false
          ∧ ∃ res, (c.inner engine s.world).ends = .ok res
            ∧ res.status = c.statusAfter (c.drive engine w).visits := by
      intro hdrive
      have hunstruck := h.unstruck hnone w hstart hdrive
      have hres := hended hdrive
      rw [if_neg (by rw [hunstruck]; exact Bool.false_ne_true)] at hres
      exact ⟨hunstruck, hres⟩
    cases hends : (c.drive engine w).ends with
    | interrupted i =>
      cases i with
      | raised exc => exact absurd hends (renders_iff.1 (h.renders hnone w hstart) exc)
      | cancelled => exact ⟨.cancelled, rfl, Or.inl ⟨rfl, hbroken _ hends⟩⟩
    | finished =>
      obtain ⟨hunstruck, res, hok, hstatus⟩ := hreturn (by simp [hends])
      exact ⟨.finished res.status, by simp [RunCall.endEvents, hunstruck, hstatus],
        Or.inr ⟨res, rfl, hok, hstatus⟩⟩
    | stopped index =>
      obtain ⟨hunstruck, res, hok, hstatus⟩ := hreturn (by simp [hends])
      exact ⟨.finished res.status, by simp [RunCall.endEvents, hunstruck, hstatus],
        Or.inr ⟨res, rfl, hok, hstatus⟩⟩

theorem inner_unrendered {w : ω} {k : Nat} {v : Visit} (hv : (c.inner engine w).visits[k]? = some v)
    (hnot : ∀ prompt, engine.format v.step.subtask
      (accumulated c.state ((c.inner engine w).visits.take k)) ≠ .text prompt) :
    v.result.completed = false := by
  obtain ⟨struck, w₁, hstart⟩ : ∃ struck w₁, engine.interrupted w = (struck, w₁) := ⟨_, _, rfl⟩
  cases struck with
  | true =>
    simp only [RunCall.inner, runInner, hstart] at hv
    cases hv
  | false =>
    rw [(inner_started engine hstart).1] at hv hnot
    exact runSteps_unrendered hv hnot

theorem Orchestrator.Reportable.reports (h : s.Reportable engine c) : s.Reports engine c := by
  cases hcached : s.cached c with
  | some res =>
    have hnone : s.cached c ≠ none := by simp [hcached]
    have hcall := call_cached engine hcached
    exact ⟨by simp [hcall], h.sameWorkflow, fun h => absurd h hnone, fun h => absurd h hnone,
      by simp [hcall]⟩
  | none =>
    have hcall := call_uncached engine hcached
    obtain ⟨last, hevents, hlast⟩ := h.inner engine hcached
    refine ⟨fun exc hexc => ?_, h.sameWorkflow, fun _ => ⟨last, hevents, ?_⟩, fun _ res hres => ?_,
      fun k v hv hnot => ?_⟩
    · rw [hcall] at hexc
      rcases hlast with ⟨-, hends⟩ | ⟨res, -, hends, -⟩ <;> rw [hends] at hexc <;> cases hexc
    · rcases hlast with hcancelled | ⟨res, hfinished, hends, -⟩
      · exact Or.inl hcancelled
      · exact Or.inr ⟨res, hfinished, hends⟩
    · rw [hcall] at hres ⊢
      rcases hlast with ⟨-, hends⟩ | ⟨res', -, hends, hstatus⟩
      · rw [hends] at hres
        cases hres
      · obtain rfl : res' = res := Except.ok.inj (hends.symm.trans hres)
        rw [hstatus, RunCall.statusAfter, statusOf_eq_completed, statusOf_eq_failed]
        simp [RunCall.earlier, List.any_eq_true, or_imp, forall_and]
    · rw [hcall] at hv hnot
      exact inner_unrendered engine hv hnot

/-- In every state that calls lead to, a call reports its end exactly when it is reportable. -/
theorem reports_iff (world : ω) (calls : List RunCall) (c : RunCall) :
    (({ world } : Orchestrator ω).after engine calls).Reports engine c
      ↔ (({ world } : Orchestrator ω).after engine calls).Reportable engine c :=
  ⟨fun h => h.reportable, fun h => h.reports⟩

end Call

/-! ### A brace, and a key of another workflow -/

/-- `str.format` refuses the text of an opening brace; every other turn succeeds. -/
def braceEngine : Engine Unit where
  format text _ := if text = "\x7b" then .raises "Single '\x7b' encountered in format string" else .text text
  loads _ := none
  runTask _ _ := ({ ends := .returned { status := .success, outputText := some "done" } }, ())
  interrupted _ := (false, ())

def oneStep (name subtask : String) : RunCall where
  workflow := ⟨name, [{ name := "step", subtask }]⟩
  idempotencyKey := some "k"

/-- The subtask of a brace leaves `run` as an exception, and a second workflow is given the result of the
    first one under its key. -/
theorem not_reports_brace :
    ¬ ({ world := () } : Orchestrator Unit).Reports braceEngine (oneStep "braces" "\x7b")
      ∧ ¬ (({ world := () } : Orchestrator Unit).after braceEngine [oneStep "first" "go"]).Reports
        braceEngine (oneStep "second" "go") := by
  refine ⟨fun h => h.ends _ rfl, fun h => ?_⟩
  have hsame := congrArg (Option.map Workflow.name) (h.sameWorkflow "k" rfl rfl)
  exact absurd hsame (by decide)

end Himmy.Workflows
