import Himmy.Orchestrators.Workflow

/-! # A drive of a workflow

`Passes` is what the loop of a drive can do, without the world it does it in. The facts about a drive
are inductions on it: its visits are at consecutive steps, an attempt is made with the subtask of its
step formatted over the state that the visits before it leave, and an attempt that is followed by
another one at its step failed. `runInner_goesOn` says them of a run. -/

namespace Himmy.Workflows

/-! ## What visits leave -/

variable (state : Dict Value) (visits : List Visit)

def accumulated : Dict Value :=
  visits.foldl Visit.record state

def completedVisits : List Visit := visits.filter (·.result.completed)

@[simp] theorem accumulated_nil : accumulated state [] = state := rfl

@[simp] theorem accumulated_cons (v : Visit) (visits : List Visit) :
    accumulated state (v :: visits) = accumulated (v.record state) visits := rfl

theorem accumulated_append (visits more : List Visit) :
    accumulated state (visits ++ more) = accumulated (accumulated state visits) more :=
  List.foldl_append

theorem completedVisits_append (visits more : List Visit) :
    completedVisits (visits ++ more) = completedVisits visits ++ completedVisits more :=
  List.filter_append ..

theorem accumulated_completedVisits :
    accumulated state (completedVisits visits) = accumulated state visits := by
  induction visits generalizing state with
  | nil => rfl
  | cons v visits ih =>
    unfold completedVisits at ih ⊢
    rw [List.filter_cons]
    split
    · rw [accumulated_cons, accumulated_cons, ih]
    · next hv => rw [ih, accumulated_cons, Visit.record, if_neg hv]

theorem accumulated_congr {visits visits' : List Visit} (hsteps : visits.map (·.step) = visits'.map (·.step))
    (houtputs : visits.map (·.result.output) = visits'.map (·.result.output))
    (hcompleted : ∀ v ∈ visits, v.result.completed = true)
    (hcompleted' : ∀ v ∈ visits', v.result.completed = true) (state : Dict Value) :
    accumulated state visits = accumulated state visits' := by
  induction visits generalizing visits' state with
  | nil =>
    rw [List.map_nil, eq_comm, List.map_eq_nil_iff] at hsteps
    rw [hsteps]
  | cons v visits ih =>
    cases visits' with
    | nil => cases hsteps
    | cons v' visits' =>
      simp only [List.map_cons, List.cons.injEq] at hsteps houtputs
      have hrecord : v.record state = v'.record state := by
        unfold Visit.record
        rw [hcompleted v List.mem_cons_self, hcompleted' v' List.mem_cons_self, hsteps.1,
          houtputs.1]
      rw [accumulated_cons, accumulated_cons, hrecord]
      exact ih hsteps.2 houtputs.2 (fun u hu => hcompleted u (List.mem_cons_of_mem _ hu))
        (fun u hu => hcompleted' u (List.mem_cons_of_mem _ hu)) _

section

variable {ω : Type} (engine : Engine ω)

/-! ## The attempts at a step -/

variable (index : Nat) (step : WorkflowStep)

theorem runStep_attempts (prompt : String)
    (retries attempt : Nat) (w : ω) :
    ∀ a ∈ (runStep engine index step prompt retries attempt w).attempts,
      a.index = index ∧ a.prompt = prompt := by
  induction retries generalizing attempt w with
  | zero =>
    unfold runStep
    dsimp only
    split
    · simp
    · split <;> simp
  | succ retries ih =>
    unfold runStep
    dsimp only
    split
    · simp
    · split
      · simp
      · split
        · simp
        · intro a ha
          rcases List.mem_cons.1 ha with rfl | ha
          · exact ⟨rfl, rfl⟩
          · exact ih _ _ a ha

theorem runStep_retried (prompt : String)
    (retries attempt : Nat) (w : ω) :
    (runStep engine index step prompt retries attempt w).attempts.Pairwise
      (fun a _ => a.failed = true ∧ a.attempt < attempt + retries) := by
  induction retries generalizing attempt w with
  | zero =>
    unfold runStep
    dsimp only
    split
    · simp
    · split <;> simp
  | succ retries ih =>
    unfold runStep
    dsimp only
    split
    · simp
    · next result _ =>
        split
        · simp
        · next hfailed =>
            split
            · simp
            · refine List.Pairwise.cons (fun b _ => ⟨?_, ?_⟩) ?_
              · simpa using hfailed
              · exact Nat.lt_add_of_pos_right (Nat.succ_pos _)
              · refine (ih _ _).imp (fun h => ⟨h.1, ?_⟩)
                rw [Nat.add_succ, ← Nat.succ_add]
                exact h.2

/-! ## The passes of a drive -/

/-- The attempts of one visit: they are at its step, their prompt is its subtask formatted over the
    state, and every one but the last failed and was retried. -/
structure AttemptsAt (index : Nat) (step : WorkflowStep) (state : Dict Value)
    (attempts : List Attempt) : Prop where
  prompts : ∀ a ∈ attempts, a.index = index ∧ engine.format step.subtask state = .text a.prompt
  retried : attempts.Pairwise (fun a _ => a.failed = true ∧ a.attempt < engine.maxStepRetries)

theorem AttemptsAt.not_last {index : Nat} {step : WorkflowStep} {state : Dict Value}
    {attempts : List Attempt} (h : AttemptsAt engine index step state attempts) :
    attempts.Pairwise (fun a b => a.index = b.index →
      a.failed = true ∧ a.attempt < engine.maxStepRetries) := by
  refine h.retried.imp ?_
  intro a b hab _
  exact hab

theorem visitStep_attemptsAt (state : Dict Value) (w : ω) :
    AttemptsAt engine index step state (visitStep engine index step state w).1 := by
  have hnone : AttemptsAt engine index step state [] := ⟨by simp, List.Pairwise.nil⟩
  unfold visitStep
  split
  · exact hnone
  · exact hnone
  · next prompt hformat =>
      have hat : AttemptsAt engine index step state
          (runStep engine index step prompt engine.maxStepRetries 0 w).attempts := by
        refine ⟨fun a ha => ?_, ?_⟩
        · obtain ⟨hindex, hprompt⟩ := runStep_attempts engine index step prompt _ _ _ a ha
          exact ⟨hindex, by rw [hprompt]; exact hformat⟩
        · simpa using runStep_retried engine index step prompt engine.maxStepRetries 0 w
      dsimp only
      split <;> exact hat

/-- The ways a drive can go over some steps, from an index and a state on: its visits, its attempts
    and its end. -/
inductive Passes (stop : Bool) : List WorkflowStep → Nat → Dict Value → List Visit → List Attempt →
    DriveEnd → Prop
  | nil (index : Nat) (state : Dict Value) : Passes stop [] index state [] [] .finished
  /-- interrupted before its first step -/
  | early (steps : List WorkflowStep) (index : Nat) (state : Dict Value) (i : Interrupt) :
      Passes stop steps index state [] [] (.interrupted i)
  /-- interrupted in a step -/
  | breaks {step : WorkflowStep} {steps : List WorkflowStep} {index : Nat} {state : Dict Value}
      {attempts : List Attempt} (i : Interrupt) (hat : AttemptsAt engine index step state attempts) :
      Passes stop (step :: steps) index state [] attempts (.interrupted i)
  /-- interrupted after a step -/
  | cut {step : WorkflowStep} {steps : List WorkflowStep} {index : Nat} {state : Dict Value}
      {attempts : List Attempt} (result : StepResult) (i : Interrupt)
      (hat : AttemptsAt engine index step state attempts) :
      Passes stop (step :: steps) index state [⟨index, step, result⟩] attempts (.interrupted i)
  | stops {step : WorkflowStep} {steps : List WorkflowStep} {index : Nat} {state : Dict Value}
      {attempts : List Attempt} {result : StepResult} (hstop : stop = true)
      (hfailed : result.completed = false) (hat : AttemptsAt engine index step state attempts) :
      Passes stop (step :: steps) index state [⟨index, step, result⟩] attempts (.stopped index)
  | goes {step : WorkflowStep} {steps : List WorkflowStep} {index : Nat} {state : Dict Value}
      {attempts more : List Attempt} {result : StepResult} {visits : List Visit} {ends : DriveEnd}
      (hgoes : stop = true → result.completed = true)
      (hat : AttemptsAt engine index step state attempts)
      (rest : Passes stop steps (index + 1) (Visit.record state ⟨index, step, result⟩) visits more
        ends) :
      Passes stop (step :: steps) index state (⟨index, step, result⟩ :: visits) (attempts ++ more)
        ends

theorem runSteps_passes (stop : Bool) (steps : List WorkflowStep) (index : Nat) (state : Dict Value)
    (w : ω) : Passes engine stop steps index state (runSteps engine stop steps index state w).visits
      (runSteps engine stop steps index state w).attempts
      (runSteps engine stop steps index state w).ends := by
  induction steps generalizing index state w with
  | nil => exact .nil index state
  | cons step steps ih =>
    have hat := visitStep_attemptsAt engine index step state w
    unfold runSteps
    split
    · next attempts i w' hvisit =>
        rw [hvisit] at hat
        exact .breaks i hat
    · next attempts result w' hvisit =>
        rw [hvisit] at hat
        dsimp only
        split
        · exact .cut result .cancelled hat
        · split
          · next hfail =>
              simp only [Bool.and_eq_true, Bool.not_eq_true'] at hfail
              exact .stops hfail.2 hfail.1 hat
          · next hgoes =>
              refine .goes ?_ hat (ih _ _ _)
              intro hstop
              simpa [hstop] using hgoes

theorem runSteps_state (stop : Bool) (steps : List WorkflowStep) (index : Nat) (state : Dict Value)
    (w : ω) : (runSteps engine stop steps index state w).state
      = accumulated state (runSteps engine stop steps index state w).visits := by
  induction steps generalizing index state w with
  | nil => rfl
  | cons step steps ih =>
    unfold runSteps
    split
    · rfl
    · dsimp only
      split
      · rfl
      · split
        · rfl
        · exact ih _ _ _

variable {engine}
variable {stop : Bool} {steps : List WorkflowStep} {index : Nat} {state : Dict Value}
variable {visits : List Visit} {attempts : List Attempt} {ends : DriveEnd}

theorem Passes.inOrder (h : Passes engine stop steps index state visits attempts ends) :
    visits.map (·.index) = List.range' index visits.length
      ∧ visits.map (·.step) = steps.take visits.length := by
  induction h with
  | nil | early | breaks => simp
  | cut | stops => simp
  | goes _ _ _ ih => simp [List.range'_succ, ih.1, ih.2]

theorem Passes.all_of_finished (h : Passes engine stop steps index state visits attempts .finished) :
    visits.length = steps.length ∧ (stop = true → ∀ v ∈ visits, v.result.completed = true) := by
  generalize hends : DriveEnd.finished = ends at h
  induction h with
  | nil => simp
  | early | breaks | cut | stops => cases hends
  | goes hgoes _ _ ih =>
    obtain ⟨hlength, hall⟩ := ih hends
    refine ⟨by simp [hlength], ?_⟩
    intro hstop v hv
    rcases List.mem_cons.1 hv with rfl | hv
    · exact hgoes hstop
    · exact hall hstop v hv

theorem Passes.of_stopped {j : Nat}
    (h : Passes engine stop steps index state visits attempts (.stopped j)) :
    stop = true ∧ ∃ (before : List Visit) (v : Visit), visits = before ++ [v] ∧ v.index = j
      ∧ v.result.completed = false ∧ ∀ u ∈ before, u.result.completed = true := by
  generalize hends : DriveEnd.stopped j = ends at h
  induction h with
  | nil | early | breaks | cut => cases hends
  | stops hstop hfailed =>
    cases hends
    exact ⟨hstop, [], _, rfl, rfl, hfailed, by simp⟩
  | goes hgoes _ _ ih =>
    obtain ⟨hstop, before, v, rfl, hindex, hfailed, hbefore⟩ := ih hends
    refine ⟨hstop, _ :: before, v, rfl, hindex, hfailed, ?_⟩
    intro u hu
    rcases List.mem_cons.1 hu with rfl | hu
    · exact hgoes hstop
    · exact hbefore u hu

def PromptedAt (engine : Engine ω) (steps : List WorkflowStep) (index : Nat) (state : Dict Value)
    (visits : List Visit) (a : Attempt) : Prop :=
  ∃ (k : Nat) (step : WorkflowStep), a.index = index + k ∧ steps[k]? = some step
    ∧ engine.format step.subtask (accumulated state (visits.take k)) = .text a.prompt

theorem Passes.prompted (h : Passes engine stop steps index state visits attempts ends) :
    ∀ a ∈ attempts, PromptedAt engine steps index state visits a := by
  have hfirst : ∀ {step : WorkflowStep} {steps : List WorkflowStep} {index : Nat}
      {state : Dict Value} {visits : List Visit} {attempts : List Attempt},
      AttemptsAt engine index step state attempts →
      ∀ a ∈ attempts, PromptedAt engine (step :: steps) index state visits a := by
    intro step steps index state visits attempts hat a ha
    exact ⟨0, step, (hat.prompts a ha).1, rfl, (hat.prompts a ha).2⟩
  induction h with
  | nil | early => simp
  | breaks _ hat => exact hfirst hat
  | cut _ _ hat => exact hfirst hat
  | stops _ _ hat => exact hfirst hat
  | goes _ hat _ ih =>
    intro a ha
    rcases List.mem_append.1 ha with ha | ha
    · exact hfirst hat a ha
    · obtain ⟨k, step, hindex, hstep, hformat⟩ := ih a ha
      exact ⟨k + 1, step, by rw [hindex]; omega, hstep, hformat⟩

theorem Passes.retried (h : Passes engine stop steps index state visits attempts ends) :
    attempts.Pairwise (fun a b => a.index = b.index →
      a.failed = true ∧ a.attempt < engine.maxStepRetries) := by
  induction h with
  | nil | early => exact List.Pairwise.nil
  | breaks _ hat | cut _ _ hat | stops _ _ hat => exact hat.not_last
  | goes _ hat rest ih =>
    refine List.pairwise_append.2 ⟨hat.not_last, ih, ?_⟩
    intro a ha b hb hsame
    -- the attempts that follow are at later steps
    obtain ⟨k, _, hindex, -⟩ := rest.prompted b hb
    rw [(hat.prompts a ha).1, hindex] at hsame
    omega

/-! ## A run -/

/-- What a run from the step `first` on over the visits of earlier drives does, and what its result
    says of it. -/
structure Run.GoesOn (engine : Engine ω) (wf : Workflow) (stop : Bool) (first : Nat)
    (state : Dict Value) (earlier : List StepResult) (r : Run ω) (ends : DriveEnd) : Prop where
  passes : Passes engine stop (wf.steps.drop first) first state r.visits r.attempts ends
  next : ∀ res, r.ends = .ok res →
    ends = .finished ∧ res.nextIndex = none ∨ ∃ j, ends = .stopped j ∧ res.nextIndex = some j
  status : ∀ res, r.ends = .ok res → res.status = statusOf (r.visits.any (!·.result.completed))
    (earlier.any (·.completed) || r.visits.any (·.result.completed))
  state : ∀ res, r.ends = .ok res → res.finalState = accumulated state r.visits
  results : ∀ res, r.ends = .ok res → res.stepResults = earlier ++ r.visits.map (·.result)

theorem runInner_goesOn (wf : Workflow) (threadId : String) (initialState : Dict Value) (stop : Bool)
    (resume : Option WorkflowResult) (key : Option String) (w : ω) {first : Nat}
    (hfirst : beginIndex resume none = first) (hle : first ≤ wf.steps.length) :
    ∃ ends, Run.GoesOn engine wf stop first (startState resume initialState) (earlierResults resume)
      (runInner engine wf threadId initialState stop resume none key w) ends := by
  have hclamp : (max 0 (min (beginIndex resume none) wf.steps.length)).toNat = first := by
    rw [hfirst]
    omega
  unfold runInner
  rw [hclamp]
  generalize startState resume initialState = state
  generalize earlierResults resume = earlier
  dsimp only
  split
  · exact ⟨.interrupted .cancelled, .early .., by simp, by simp, by simp, by simp⟩
  · next w' _ =>
      have hpasses := runSteps_passes engine stop (wf.steps.drop first) first state w'
      have hstate := runSteps_state engine stop (wf.steps.drop first) first state w'
      generalize runSteps engine stop (wf.steps.drop first) first state w' = drive at *
      split
      · next i hends =>
          rw [hends] at hpasses
          exact ⟨.interrupted i, hpasses, by simp, by simp, by simp, by simp⟩
      · next hends =>
          rw [hends] at hpasses
          split
          · exact ⟨.finished, hpasses, by simp, by simp, by simp, by simp⟩
          · refine ⟨.finished, hpasses, ?_, ?_, ?_, ?_⟩ <;> rintro res ⟨⟩
            · exact .inl ⟨rfl, rfl⟩
            · rfl
            · exact hstate
            · rfl
      · next index hends =>
          rw [hends] at hpasses
          split
          · exact ⟨.stopped index, hpasses, by simp, by simp, by simp, by simp⟩
          · refine ⟨.stopped index, hpasses, ?_, ?_, ?_, ?_⟩ <;> rintro res ⟨⟩
            · exact .inr ⟨index, rfl, rfl⟩
            · rfl
            · exact hstate
            · rfl

end

end Himmy.Workflows
