import Himmy.Orchestrators.WorkflowDrive

/-! # Resuming a workflow

A `session` is the drives of one workflow on one orchestrator: each drive after the first is passed
the result that the last drive with a result returned. `resume_continues` shows that the drives of a
session come to what one run without a failure comes to, in every session in which a result that is
passed back and is not completed names the step to resume from, no drive was interrupted after it
completed a step, and no attempt that is tried again executed a tool call. -/

namespace Himmy.Workflows

open KeyedList (empty)

section

variable {ω : Type} (engine : Engine ω) (wf : Workflow) (initialState : Dict Value)

/-! ## Sessions -/

/-- The drives so far: what `_completed` holds, the result to pass back, the visits of the drives
    that returned a result, and those of the drives that returned none. -/
structure Session (ω : Type) where
  world : ω
  completed : Dict WorkflowResult := empty
  result : Option WorkflowResult := none
  returned : List Visit := []
  unreturned : List Visit := []

/-- A call of `run`. -/
structure DriveCall where
  stop : Bool := true
  key : Option String := none
  threadId : String

variable (s : Session ω)

def Session.drive (c : DriveCall) : Run ω × Dict WorkflowResult :=
  run engine wf s.completed c.threadId initialState c.stop s.result none c.key s.world

def Session.after (p : Run ω × Dict WorkflowResult) : Session ω :=
  match p.1.ends with
  | .ok res => { s with world := p.1.world, completed := p.2, result := some res,
                        returned := s.returned ++ p.1.visits }
  | .error _ => { s with world := p.1.world, completed := p.2,
                         unreturned := s.unreturned ++ p.1.visits }

def session : LTS (Session ω) DriveCall :=
  ⟨fun s c => some (s.after (s.drive engine wf initialState c))⟩

/-! ## What a drive of a session has to be -/

def Session.Done (i : Nat) : Prop :=
  ∃ v ∈ s.returned ++ s.unreturned, v.index = i ∧ v.result.completed = true

instance (s : Session ω) : DecidablePred s.Done :=
  fun _ => inferInstanceAs (Decidable (∃ v ∈ s.returned ++ s.unreturned, _ ∧ _))

def Session.pending : List Nat :=
  (List.range wf.steps.length).filter (fun i => ¬ s.Done i)

def CompletesAll (wf : Workflow) (visits : List Visit) : Prop :=
  ∀ i < wf.steps.length, ∃ v ∈ visits, v.index = i ∧ v.result.completed = true

def UnfailedRun (wf : Workflow) (initialState : Dict Value) (outputs : List Value)
    (res : WorkflowResult) : Prop :=
  ∃ (α : Type) (engine : Engine α) (threadId : String) (stop : Bool) (w : α),
    let r := (run engine wf empty threadId initialState stop none none none w).1
    r.ends = .ok res ∧ (∀ v ∈ r.visits, v.result.completed = true)
      ∧ r.visits.map (·.result.output) = outputs

/-- The visits came to what a run without a failure comes to. -/
structure Finished (wf : Workflow) (initialState : Dict Value) (visits : List Visit)
    (res : WorkflowResult) : Prop where
  status : res.status = .completed
  /-- one completed result for each step, in order -/
  inOrder : (completedVisits visits).map (·.index) = List.range wf.steps.length
  results : res.stepResults.filter (·.completed) = (completedVisits visits).map (·.result)
  unfailed : ∀ other,
    UnfailedRun wf initialState ((completedVisits visits).map (·.result.output)) other →
    other.status = .completed ∧ other.finalState = res.finalState
      ∧ other.stepResults.map (·.output) = (res.stepResults.filter (·.completed)).map (·.output)

def ToolExecution.Same (e e' : ToolExecution) : Prop := e.toolName = e'.toolName ∧ e.args = e'.args

/-- The drive goes on from what the earlier ones did. -/
structure Session.Continues (s : Session ω) (c : DriveCall) (r : Run ω) : Prop where
  notAgain : ∀ a ∈ r.attempts, ¬ s.Done a.index
  inOrder : r.visits.map (·.index) <+: s.pending wf
  runsAll : ∀ res, r.ends = .ok res → res.nextIndex = none →
    r.visits.map (·.index) = s.pending wf
  stops : ∀ res j, r.ends = .ok res → res.nextIndex = some j →
    c.stop = true ∧ ∃ v, r.visits.getLast? = some v ∧ v.index = j ∧ v.result.completed = false
  prompts : ∀ a ∈ r.attempts, ∃ (k : Nat) (step : WorkflowStep),
    wf.steps[a.index]? = some step ∧ (s.pending wf)[k]? = some a.index
      ∧ engine.format step.subtask (accumulated initialState (s.returned ++ r.visits.take k))
        = .text a.prompt
  state : ∀ res, r.ends = .ok res →
    res.finalState = accumulated initialState (s.returned ++ r.visits)
  finished : ∀ res, r.ends = .ok res → CompletesAll wf (s.returned ++ r.visits) →
    Finished wf initialState (s.returned ++ r.visits) res
  returns : ∀ res, s.result = some res → res.status = .completed →
    r.ends = .ok res ∧ r.attempts = [] ∧ r.visits = []
  retries : r.attempts.Pairwise (fun a b => a.index = b.index →
    ∀ e ∈ a.executed, e.succeeded = true → ∀ e' ∈ b.executed, ¬ e.Same e')

def Session.cached (c : DriveCall) : Option WorkflowResult :=
  (runKey s.result c.key).bind s.completed.find?

/-- The condition: the result that `run` finds under its key is the one that is passed back; a result
    that it does not find is not completed, and names a step unless no step has completed; no drive
    was interrupted after it completed a step; and an attempt that is tried again executed no tool
    call that succeeded. -/
structure Session.Resumable (s : Session ω) (c : DriveCall) : Prop where
  cached : ∀ res, s.cached c = some res → s.result = some res ∧ res.status = .completed
  named : s.cached c = none → ∀ res, s.result = some res → res.status ≠ .completed
    ∧ (res.nextIndex = none → ∀ result ∈ res.stepResults, result.completed = false)
  kept : completedVisits s.unreturned = []
  idle : ∀ a ∈ (s.drive engine wf initialState c).1.attempts, a.failed = true →
    a.attempt < engine.maxStepRetries → ∀ e ∈ a.executed, e.succeeded = false

/-! ## The invariant -/

/-- The completed visits are at the first `n` steps, in order. -/
structure Upto (wf : Workflow) (n : Nat) (visits : List Visit) : Prop where
  indices : (completedVisits visits).map (·.index) = List.range n
  steps : (completedVisits visits).map (·.step) = wf.steps.take n

private theorem range_add_range' (n k : Nat) :
    List.range (n + k) = List.range n ++ List.range' n k := by
  rw [List.range_eq_range', List.range_eq_range', ← List.range'_append_1, Nat.zero_add]

variable {n : Nat}

theorem Upto.append {wf : Workflow} {visits more : List Visit} (h : Upto wf n visits)
    (hindices : more.map (·.index) = List.range' n more.length)
    (hsteps : more.map (·.step) = (wf.steps.drop n).take more.length)
    (hall : ∀ v ∈ more, v.result.completed = true) : Upto wf (n + more.length) (visits ++ more) := by
  have hmore : completedVisits more = more := List.filter_eq_self.2 hall
  constructor
  · rw [completedVisits_append, hmore, List.map_append, h.indices, hindices, range_add_range']
  · rw [completedVisits_append, hmore, List.map_append, h.steps, hsteps, List.take_add]

theorem Upto.failed {wf : Workflow} {visits : List Visit} {v : Visit} (h : Upto wf n visits)
    (hv : v.result.completed = false) : Upto wf n (visits ++ [v]) := by
  have hlast : completedVisits [v] = [] := by simp [completedVisits, hv]
  constructor
  · rw [completedVisits_append, hlast, List.append_nil, h.indices]
  · rw [completedVisits_append, hlast, List.append_nil, h.steps]

theorem Upto.done_iff {s : Session ω} (h : Upto wf n s.returned)
    (hkept : completedVisits s.unreturned = []) (i : Nat) : s.Done i ↔ i < n := by
  have hmem : s.Done i ↔ i ∈ (completedVisits (s.returned ++ s.unreturned)).map (·.index) := by
    simp only [Session.Done, completedVisits, List.mem_map, List.mem_filter]
    constructor
    · rintro ⟨v, hv, hi, hcompleted⟩
      exact ⟨v, ⟨hv, hcompleted⟩, hi⟩
    · rintro ⟨v, ⟨hv, hcompleted⟩, hi⟩
      exact ⟨v, hv, hi, hcompleted⟩
  rw [hmem, completedVisits_append, hkept, List.append_nil, h.indices, List.mem_range]

theorem Upto.pending_eq {s : Session ω} (h : Upto wf n s.returned)
    (hkept : completedVisits s.unreturned = []) (hle : n ≤ wf.steps.length) :
    s.pending wf = List.range' n (wf.steps.length - n) := by
  unfold Session.pending
  simp only [h.done_iff wf hkept]
  obtain ⟨k, hk⟩ := Nat.exists_eq_add_of_le hle
  rw [hk, Nat.add_sub_cancel_left, range_add_range', List.filter_append]
  have hbefore : (List.range n).filter (fun i => ¬ i < n) = [] := by
    simp [List.filter_eq_nil_iff]
  have hafter : (List.range' n k).filter (fun i => ¬ i < n) = List.range' n k := by
    simp [List.filter_eq_self, List.mem_range'_1]
    omega
  rw [hbefore, hafter, List.nil_append]

/-- What the drives that meet the condition keep. -/
structure Session.Sound (s : Session ω) : Prop where
  start : s.result = none → s.returned = []
  results : ∀ res, s.result = some res → res.stepResults = s.returned.map (·.result)
  state : ∀ res, s.result = some res → res.finalState = accumulated initialState s.returned
  all : ∀ res, s.result = some res → res.status = .completed →
    res.nextIndex = none ∧ Upto wf wf.steps.length s.returned
  named : ∀ res j, s.result = some res → res.nextIndex = some j →
    j < wf.steps.length ∧ Upto wf j s.returned

variable {engine wf initialState}
variable {s : Session ω} {c : DriveCall}

theorem upto_zero {visits : List Visit} (h : completedVisits visits = []) : Upto wf 0 visits :=
  ⟨by rw [h]; rfl, by rw [h]; rfl⟩

theorem Session.Sound.begins (hI : s.Sound wf initialState)
    (hC : s.Resumable engine wf initialState c) (hmiss : s.cached c = none) :
    ∃ first : Nat, beginIndex s.result none = first ∧ first ≤ wf.steps.length
      ∧ Upto wf first s.returned := by
  rcases hresult : s.result with - | res
  · refine ⟨0, rfl, Nat.zero_le _, upto_zero ?_⟩
    rw [hI.start hresult]
    rfl
  · obtain ⟨-, hnone⟩ := hC.named hmiss res hresult
    rcases hnext : res.nextIndex with - | j
    · refine ⟨0, by simp [beginIndex, hnext], Nat.zero_le _, upto_zero ?_⟩
      have hfailed := hnone hnext
      rw [hI.results res hresult] at hfailed
      rw [completedVisits, List.filter_eq_nil_iff]
      intro v hv
      simp [hfailed v.result (List.mem_map_of_mem hv)]
    · obtain ⟨hlt, hupto⟩ := hI.named res j hresult hnext
      exact ⟨j, by simp [beginIndex, hnext], hlt.le, hupto⟩

theorem Session.Sound.startState_eq (hI : s.Sound wf initialState) :
    startState s.result initialState = accumulated initialState s.returned := by
  rcases hresult : s.result with - | res
  · rw [hI.start hresult]
    rfl
  · exact hI.state res hresult

theorem Session.Sound.earlierResults_eq (hI : s.Sound wf initialState) :
    earlierResults s.result = s.returned.map (·.result) := by
  rcases hresult : s.result with - | res
  · rw [hI.start hresult]
    rfl
  · exact hI.results res hresult

/-- What the condition makes of a drive: it returns the result it is passed, or it goes on from the
    steps that the earlier drives completed. -/
inductive Session.Drives (engine : Engine ω) (wf : Workflow) (initialState : Dict Value)
    (s : Session ω) (stop : Bool) (r : Run ω) : Prop
  | returns {res : WorkflowResult} (hresult : s.result = some res) (hdone : res.status = .completed)
      (hr : r = { ends := .ok res, world := s.world })
  | goesOn {first : Nat} (ends : DriveEnd) (hle : first ≤ wf.steps.length)
      (hupto : Upto wf first s.returned)
      (hopen : ∀ res, s.result = some res → res.status ≠ .completed)
      (hgoes : Run.GoesOn engine wf stop first (accumulated initialState s.returned)
        (s.returned.map (·.result)) r ends)

theorem Session.Sound.drives (hI : s.Sound wf initialState)
    (hC : s.Resumable engine wf initialState c) :
    s.Drives engine wf initialState c.stop (s.drive engine wf initialState c).1 := by
  rcases hcached : s.cached c with - | res
  · obtain ⟨first, hfirst, hle, hupto⟩ := hI.begins hC hcached
    obtain ⟨ends, hgoes⟩ := runInner_goesOn wf c.threadId initialState c.stop s.result
      (runKey s.result c.key) s.world hfirst hle
    rw [hI.startState_eq, hI.earlierResults_eq] at hgoes
    refine .goesOn ends hle hupto (fun res hres => (hC.named hcached res hres).1) ?_
    unfold Session.drive run
    dsimp only
    rw [show (runKey s.result c.key).bind s.completed.find? = none from hcached]
    exact hgoes
  · obtain ⟨hresult, hdone⟩ := hC.cached res hcached
    refine .returns hresult hdone ?_
    unfold Session.drive run
    dsimp only
    rw [show (runKey s.result c.key).bind s.completed.find? = some res from hcached]

theorem statusOf_eq_completed (anyFailed anyCompleted : Bool) :
    statusOf anyFailed anyCompleted = .completed ↔ anyFailed = false := by
  cases anyFailed <;> cases anyCompleted <;> decide

section

variable {stop : Bool} {first : Nat} {state : Dict Value} {earlier : List StepResult} {r : Run ω}
variable {ends : DriveEnd} {res : WorkflowResult}

section

variable (h : Run.GoesOn engine wf stop first state earlier r ends)

include h

theorem Run.GoesOn.length_le : r.visits.length ≤ wf.steps.length - first := by
  have hlength := congrArg List.length h.passes.inOrder.2
  simp only [List.length_map, List.length_take, List.length_drop] at hlength
  omega

theorem Run.GoesOn.completed_iff (hres : r.ends = .ok res) :
    res.status = .completed ↔ ∀ v ∈ r.visits, v.result.completed = true := by
  rw [h.status res hres, statusOf_eq_completed]
  simp

theorem Run.GoesOn.upto_of_completed {before : List Visit} (hupto : Upto wf first before)
    (hall : ∀ v ∈ r.visits, v.result.completed = true) :
    Upto wf (first + r.visits.length) (before ++ r.visits) :=
  hupto.append h.passes.inOrder.1 h.passes.inOrder.2 hall

theorem Run.GoesOn.length_of_completed
    (hres : r.ends = .ok res) (hall : ∀ v ∈ r.visits, v.result.completed = true) :
    res.nextIndex = none ∧ r.visits.length = wf.steps.length - first := by
  rcases h.next res hres with ⟨rfl, hnext⟩ | ⟨j, rfl, -⟩
  · exact ⟨hnext, by simpa using h.passes.all_of_finished.1⟩
  · obtain ⟨-, before, v, hvisits, -, hfailed, -⟩ := h.passes.of_stopped
    rw [hall v (by simp [hvisits])] at hfailed
    cases hfailed

theorem Run.GoesOn.upto_of_next
    {visits : List Visit} (hupto : Upto wf first visits) (hres : r.ends = .ok res) {j : Nat}
    (hnext : res.nextIndex = some j) :
    j < wf.steps.length ∧ Upto wf j (visits ++ r.visits) ∧ stop = true
      ∧ ∃ v, r.visits.getLast? = some v ∧ v.index = j ∧ v.result.completed = false := by
  rcases h.next res hres with ⟨-, hnone⟩ | ⟨j', rfl, hj'⟩
  · rw [hnone] at hnext
    cases hnext
  · obtain rfl := Option.some.inj (hnext.symm.trans hj')
    obtain ⟨hstop, before, v, hvisits, hindex, hfailed, hbefore⟩ := h.passes.of_stopped
    have horder := h.passes.inOrder
    have hle := h.length_le
    rw [hvisits, List.length_append, List.length_singleton] at horder hle
    obtain ⟨hindices, hsteps⟩ := horder
    rw [List.map_append, List.range'_concat, Nat.one_mul] at hindices
    obtain ⟨hindices, hlast⟩ := List.append_inj hindices (by simp)
    have hj : j = first + before.length := by rw [← hindex]; simpa using hlast
    have hbeforeSteps := congrArg (List.take before.length) hsteps
    rw [List.map_append, List.take_left' (by simp), List.take_take, Nat.min_eq_left (Nat.le_succ _)]
      at hbeforeSteps
    have hbeforeUpto := hupto.append hindices hbeforeSteps hbefore
    refine ⟨by omega, ?_, hstop, v, by simp [hvisits], hindex, hfailed⟩
    rw [hvisits, ← List.append_assoc, hj]
    exact hbeforeUpto.failed hfailed

end

end

variable {s : Session ω}

theorem Session.after_ok {p : Run ω × Dict WorkflowResult} {res : WorkflowResult}
    (h : p.1.ends = .ok res) :
    (s.after p).result = some res ∧ (s.after p).returned = s.returned ++ p.1.visits := by
  unfold Session.after
  rw [h]
  exact ⟨rfl, rfl⟩

theorem Session.after_error {p : Run ω × Dict WorkflowResult} {i : Interrupt}
    (h : p.1.ends = .error i) :
    (s.after p).result = s.result ∧ (s.after p).returned = s.returned := by
  unfold Session.after
  rw [h]
  exact ⟨rfl, rfl⟩

theorem Session.Sound.congr {s s' : Session ω} (h : s.Sound wf initialState)
    (hresult : s'.result = s.result) (hreturned : s'.returned = s.returned) :
    s'.Sound wf initialState := by
  constructor <;> rw [hresult, hreturned]
  · exact h.start
  · exact h.results
  · exact h.state
  · exact h.all
  · exact h.named

theorem Session.Sound.step {s s' : Session ω} (hI : s.Sound wf initialState)
    (hC : s.Resumable engine wf initialState c)
    (hs : (session engine wf initialState).step s c = some s') : s'.Sound wf initialState := by
  obtain rfl := Option.some.inj hs
  rcases hends : (s.drive engine wf initialState c).1.ends with i | res
  · obtain ⟨hresult, hreturned⟩ := Session.after_error (s := s) hends
    exact hI.congr hresult hreturned
  · obtain ⟨hresult, hreturned⟩ := Session.after_ok (s := s) hends
    cases hI.drives hC with
    | returns hkept hdone hr =>
      rw [hr] at hends hreturned
      cases hends
      exact hI.congr (hresult.trans hkept.symm) (by simpa using hreturned)
    | goesOn ends hle hupto hopen hgoes =>
      constructor <;> rw [hresult, hreturned]
      · simp
      · rintro _ ⟨⟩
        rw [hgoes.results res hends, List.map_append]
      · rintro _ ⟨⟩
        rw [hgoes.state res hends, accumulated_append]
      · rintro _ ⟨⟩ hdone
        have hall := (hgoes.completed_iff hends).1 hdone
        obtain ⟨hnext, hlength⟩ := hgoes.length_of_completed hends hall
        have hfull := hgoes.upto_of_completed hupto hall
        rw [hlength, Nat.add_sub_cancel' hle] at hfull
        exact ⟨hnext, hfull⟩
      · rintro _ j ⟨⟩ hnext
        obtain ⟨hlt, hnamed, -⟩ := hgoes.upto_of_next hupto hends hnext
        exact ⟨hlt, hnamed⟩

/-! ## A drive continues the session -/

theorem Session.Sound.initial (w : ω) (completed : Dict WorkflowResult) :
    Session.Sound wf initialState { world := w, completed } := by
  constructor
  · simp
  · simp
  · simp
  · simp
  · simp

theorem finished_of_upto {visits : List Visit} {res : WorkflowResult}
    (hupto : Upto wf wf.steps.length visits) (hstatus : res.status = .completed)
    (hresults : res.stepResults = visits.map (·.result))
    (hstate : res.finalState = accumulated initialState visits) :
    Finished wf initialState visits res := by
  have hkept : res.stepResults.filter (·.completed) = (completedVisits visits).map (·.result) := by
    rw [hresults, completedVisits, List.filter_map]
    rfl
  refine ⟨hstatus, hupto.indices, hkept, ?_⟩
  rintro other ⟨α, other', threadId, stop, w, hends, hall, houtputs⟩
  have hzero : beginIndex none none = (0 : Nat) := rfl
  obtain ⟨ends, hgoes⟩ : ∃ ends, Run.GoesOn other' wf stop 0 initialState []
      (runInner other' wf threadId initialState stop none none none w) ends :=
    runInner_goesOn wf threadId initialState stop none none w hzero (Nat.zero_le _)
  have hrun : (run other' wf empty threadId initialState stop none none none w).1
      = runInner other' wf threadId initialState stop none none none w := rfl
  rw [hrun] at hends hall houtputs
  have hsteps : (runInner other' wf threadId initialState stop none none none w).visits.map (·.step)
      = (completedVisits visits).map (·.step) := by
    obtain ⟨-, hlength⟩ := hgoes.length_of_completed hends hall
    rw [hgoes.passes.inOrder.2, hupto.steps, hlength]
    simp
  refine ⟨(hgoes.completed_iff hends).2 hall, ?_, ?_⟩
  · rw [hgoes.state other hends, hstate, ← accumulated_completedVisits initialState visits]
    exact accumulated_congr hsteps houtputs hall (fun v hv => (List.mem_filter.1 hv).2) _
  · rw [hgoes.results other hends, hkept, List.nil_append, List.map_map, List.map_map]
    exact houtputs

theorem Run.GoesOn.visits_prefix {stop : Bool} {first : Nat} {state : Dict Value}
    {earlier : List StepResult} {r : Run ω} {ends : DriveEnd}
    (h : Run.GoesOn engine wf stop first state earlier r ends) :
    r.visits.map (·.index) <+: List.range' first (wf.steps.length - first) := by
  obtain ⟨k, hk⟩ := Nat.exists_eq_add_of_le h.length_le
  rw [h.passes.inOrder.1, hk, ← List.range'_append_1]
  exact List.prefix_append ..

theorem Run.GoesOn.completes_of_all {stop : Bool} {first : Nat} {state : Dict Value}
    {earlier : List StepResult} {r : Run ω} {ends : DriveEnd} {visits : List Visit}
    (h : Run.GoesOn engine wf stop first state earlier r ends) (hupto : Upto wf first visits)
    (hall : CompletesAll wf (visits ++ r.visits)) : ∀ v ∈ r.visits, v.result.completed = true := by
  intro v hv
  have hindices := h.passes.inOrder.1
  have hrange : v.index ∈ List.range' first r.visits.length := by
    rw [← hindices]
    exact List.mem_map_of_mem hv
  rw [List.mem_range'_1] at hrange
  have hle := h.length_le
  obtain ⟨u, hu, hsame, hcompleted⟩ := hall v.index (by omega)
  rcases List.mem_append.1 hu with hu | hu
  · have hbefore : u.index ∈ (completedVisits visits).map (·.index) :=
      List.mem_map_of_mem (List.mem_filter.2 ⟨hu, hcompleted⟩)
    rw [hupto.indices, List.mem_range] at hbefore
    omega
  · have hnodup : (r.visits.map (·.index)).Nodup := by
      rw [hindices]
      exact List.nodup_range'
    rw [← List.inj_on_of_nodup_map hnodup hu hv hsame]
    exact hcompleted

theorem Session.Sound.continues (hI : s.Sound wf initialState)
    (hC : s.Resumable engine wf initialState c) :
    s.Continues engine wf initialState c (s.drive engine wf initialState c).1 := by
  have hidle := hC.idle
  cases hI.drives hC with
  | @returns res hresult hdone hr =>
    obtain ⟨hnext, hupto⟩ := hI.all res hresult hdone
    have hpending : s.pending wf = [] := by
      rw [hupto.pending_eq wf hC.kept (Nat.le_refl _), Nat.sub_self]
      rfl
    rw [hr]
    constructor
    · simp
    · simp
    · simp [hpending]
    · rintro _ j ⟨⟩ hj
      rw [hnext] at hj
      cases hj
    · simp
    · rintro _ ⟨⟩
      simpa using hI.state res hresult
    · rintro _ ⟨⟩ -
      rw [List.append_nil]
      exact finished_of_upto hupto hdone (hI.results res hresult) (hI.state res hresult)
    · intro other hother _
      rw [hresult, Option.some.injEq] at hother
      rw [hother]
      exact ⟨rfl, rfl, rfl⟩
    · exact List.Pairwise.nil
  | @goesOn first ends hle hupto hopen hgoes =>
    generalize (s.drive engine wf initialState c).1 = r at *
    have hpending := hupto.pending_eq wf hC.kept hle
    constructor
    · intro a ha
      obtain ⟨k, -, hindex, -⟩ := hgoes.passes.prompted a ha
      rw [hupto.done_iff wf hC.kept]
      omega
    · rw [hpending]
      exact hgoes.visits_prefix
    · intro res hres hnext
      rcases hgoes.next res hres with ⟨rfl, -⟩ | ⟨j, -, hj⟩
      · rw [hpending, hgoes.passes.inOrder.1, hgoes.passes.all_of_finished.1, List.length_drop]
      · rw [hnext] at hj
        cases hj
    · intro res j hres hnext
      exact (hgoes.upto_of_next hupto hres hnext).2.2
    · intro a ha
      obtain ⟨k, step, hindex, hstep, hformat⟩ := hgoes.passes.prompted a ha
      rw [List.getElem?_drop, ← hindex] at hstep
      refine ⟨k, step, hstep, ?_, ?_⟩
      · have hlt := (List.getElem?_eq_some_iff.1 hstep).1
        rw [hpending, List.getElem?_range' (by omega), hindex]
        simp
      · rw [accumulated_append]
        exact hformat
    · intro res hres
      rw [hgoes.state res hres, accumulated_append]
    · intro res hres hcompletes
      have hall := hgoes.completes_of_all hupto hcompletes
      obtain ⟨-, hlength⟩ := hgoes.length_of_completed hres hall
      have hfull := hgoes.upto_of_completed hupto hall
      rw [hlength, Nat.add_sub_cancel' hle] at hfull
      refine finished_of_upto hfull ((hgoes.completed_iff hres).2 hall) ?_ ?_
      · rw [hgoes.results res hres, List.map_append]
      · rw [hgoes.state res hres, accumulated_append]
    · intro res hresult hdone
      exact absurd hdone (hopen res hresult)
    · refine hgoes.passes.retried.imp_of_mem ?_
      intro a b ha _ hab hsame e he hsucceeded
      obtain ⟨hfailed, hlt⟩ := hab hsame
      rw [hidle a ha hfailed hlt e he] at hsucceeded
      cases hsucceeded

end

/-- **Resuming continues.** In every session whose drives meet the condition, from a new workflow on,
    every drive continues what the earlier ones did. -/
theorem resume_continues {ω : Type} (engine : Engine ω) (wf : Workflow) (initialState : Dict Value)
    (w : ω) (completed : Dict WorkflowResult) (cs : List DriveCall)
    (h : (session engine wf initialState).AlongRun (Session.Resumable engine wf initialState)
      { world := w, completed } cs) :
    (session engine wf initialState).AlongRun (fun s c =>
      s.Continues engine wf initialState c (s.drive engine wf initialState c).1)
      { world := w, completed } cs :=
  (session engine wf initialState).alongRun_of_invariant (fun _ _ _ hI hC hs => hI.step hC hs)
    (fun _ _ hI hC => hI.continues hC) (Session.Sound.initial w completed) h

/-! ## Concrete sessions -/

/-- A runtime whose turns succeed or fail as the list says, and succeed after it. -/
private def scripted : Engine (List Bool) where
  format subtask _ := .text subtask
  loads _ := none
  runTask
    | [], _ => ({ ends := .returned { outputText := some "done" } }, [])
    | true :: turns, _ => ({ ends := .returned { outputText := some "done" } }, turns)
    | false :: turns, _ => ({ ends := .raised "provider down" }, turns)
  interrupted turns := (false, turns)

private def twoSteps : Workflow where
  name := "two"
  steps := [{ name := "first", subtask := "one", outputKey := some "a" },
    { name := "second", subtask := "two", outputKey := some "b" }]

/-- The second step fails, and is resumed. -/
theorem resume_continues_after_failure : (session scripted twoSteps empty).AlongRun (fun s c =>
        s.Continues scripted twoSteps empty c
          (s.drive scripted twoSteps empty c).1)
      { world := [true, false, true] } [{ threadId := "t" }, { threadId := "u" }] := by
  refine resume_continues scripted twoSteps empty [true, false, true] empty _
    ⟨⟨?_, ?_, ?_, ?_⟩, ?_⟩
  · intro res hres
    cases hres
  · intro _ res hres
    cases hres
  · rfl
  · decide +kernel
  · rintro _ ⟨⟩
    refine ⟨⟨?_, ?_, ?_, ?_⟩, fun _ _ => trivial⟩
    · intro res hres
      cases hres
    · rintro _ _ ⟨⟩
      exact ⟨by decide +kernel, fun hnext => by cases hnext⟩
    · rfl
    · decide +kernel

/-- The first drive goes on past the failure of its first step; the next one runs the second step
    again. -/
theorem resume_repeats_completed_step : ¬ (session scripted twoSteps empty).AlongRun (fun s c =>
        s.Continues scripted twoSteps empty c
          (s.drive scripted twoSteps empty c).1)
      { world := [false, true, true] }
      [{ stop := false, threadId := "t" }, { stop := false, threadId := "u" }] := by
  intro h
  have hagain := (h.2 _ rfl).1.notAgain
  revert hagain
  decide +kernel

end Himmy.Workflows
