import Himmy.Runtime.AgentLoop

/-! # The budgets of a whole run

A run is the first drive of `run_agent_loop`, the synthesis turn that may follow it, and the resumes
of its checkpoints. The checkpoints carry the turns and the cost of the run so far, and the ladder
adds them to its own; but a resume makes its continuation turn before it looks at the ladder, whose
first conditions are not the bounds, and the synthesis turn asks for no budget.

`withinBudgets_iff` says which runs keep their budgets. -/

namespace Himmy.Runtime

variable {σ : Type}

/-- A run so far: all its turns, what its last drive returned, and whether it was resumed. -/
structure AgentRun (σ : Type) where
  maxTurns : Int
  costBudget : Option Rat
  turns : List RunResult
  result : AgentLoopResult
  resumed : Bool := false
  st : σ

/-- What happens to a run after its first drive. -/
inductive RunStep where
  | rescue
  | resume (approved hitl : Bool)

namespace AgentRun

def start (env : AgentEnvironment σ) (maxTurns : Int) (costBudget : Option Rat)
    (hitl stopOnNoProgress : Bool) (st : σ) : AgentRun σ :=
  let driven := driveLoop env.continueTurn ⟨maxTurns, costBudget, hitl, stopOnNoProgress, 0, 0⟩
    (env.runTask st).1 [] (env.runTask st).2
  ⟨maxTurns, costBudget, driven.1.turns, driven.1, false, driven.2⟩

def step (env : AgentEnvironment σ) (run : AgentRun σ) : RunStep → Option (AgentRun σ)
  | .rescue =>
    if !run.resumed && run.result.needsSynthesis then
      let synthesized := env.maybeSynthesize run.result run.st
      some { run with
        turns := synthesized.1.turns, result := synthesized.1, st := synthesized.2 }
    else none
  | .resume approved hitl =>
    run.result.checkpoint.bind (fun checkpoint =>
      match env.resumeAgentLoop checkpoint approved hitl run.st with
      | .error _ => none
      | .ok (result, st) => some { run with
          turns := run.turns ++ result.turns, result := result, resumed := true, st := st })

variable (run : AgentRun σ)

def ordinaryTurns : Nat :=
  if run.result.stoppedReason = .synthesized then run.turns.length - 1 else run.turns.length

/-- No more turns than allowed, the synthesis turn apart, and none after the first that was started
    once the turns before it had cost the budget. -/
def WithinBudgets : Prop :=
  (run.ordinaryTurns : Int) ≤ run.maxTurns
    ∧ ∀ budget, run.costBudget = some budget → ∀ n, 0 < n → n < run.turns.length →
        totalCost (run.turns.take n) < budget

def BudgetLeft : RunStep → Prop
  | .rescue => ∀ budget, run.costBudget = some budget → totalCost run.turns < budget
  | .resume _ _ => ∀ checkpoint, run.result.checkpoint = some checkpoint →
      (checkpoint.turnsCompleted : Int) < checkpoint.maxTurns
        ∧ ∀ budget, checkpoint.costBudget = some budget → checkpoint.costCompleted < budget

end AgentRun

def agentRuns (env : AgentEnvironment σ) : LTS (AgentRun σ) RunStep where
  step := AgentRun.step env

theorem runAgentLoop_eq (env : AgentEnvironment σ) {maxTurns : Int} (costBudget : Option Rat)
    {hitl : Bool} (stopOnNoProgress synthesizeEmpty : Bool) (st : σ)
    (hturns : validateMaxTurns maxTurns "run_agent_loop" = .ok ())
    (hstore : hitl = true → env.hasCheckpointStore = true) :
    let run := AgentRun.start env maxTurns costBudget hitl stopOnNoProgress st
    env.runAgentLoop maxTurns costBudget hitl stopOnNoProgress synthesizeEmpty st
      = .ok (if synthesizeEmpty then ((run.step env .rescue).getD run).result else run.result,
          if synthesizeEmpty then ((run.step env .rescue).getD run).st else run.st) := by
  intro run
  have hguard : (hitl && !env.hasCheckpointStore) = false := by
    cases hitl <;> simp_all
  unfold AgentEnvironment.runAgentLoop
  rw [hturns]
  dsimp only
  rw [hguard, if_neg Bool.false_ne_true]
  cases synthesizeEmpty with
  | false => rfl
  | true =>
    simp only [if_true, Except.ok.injEq]
    cases hneeds : run.result.needsSynthesis with
    | true =>
      have hstep : run.step env .rescue = some { run with
          turns := (env.maybeSynthesize run.result run.st).1.turns
          result := (env.maybeSynthesize run.result run.st).1
          st := (env.maybeSynthesize run.result run.st).2 } := by
        unfold AgentRun.step
        rw [hneeds]
        rfl
      rw [hstep]
      rfl
    | false =>
      have hstep : run.step env .rescue = none := by
        unfold AgentRun.step
        simp [hneeds]
      rw [hstep]
      unfold AgentEnvironment.maybeSynthesize
      rw [if_neg (by rw [Bool.not_eq_true]; exact hneeds)]
      rfl

/-! ## The turns of a drive -/

section Drive

variable {settings : LoopSettings} {first : RunResult} {made : List RunResult}

theorem totalCost_lt_of_gone
    (hgone : ∀ n < made.length, settings.stopReason (first :: made.take n) = none) {budget : Rat}
    (hbudget : settings.costBudget = some budget) {n : Nat} (hpos : 0 < n)
    (hn : n < (first :: made).length) :
    settings.costOffset + totalCost ((first :: made).take n) < budget := by
  obtain ⟨n, rfl⟩ := Nat.exists_eq_succ_of_ne_zero hpos.ne'
  have hleft := (LoopSettings.bounds_of_stopReason_none (List.cons_ne_nil _ _)
    (hgone n (by simpa using hn))).2
  unfold LoopSettings.budgetReached at hleft
  rw [hbudget, Option.any_some, decide_eq_false_iff_not, not_le] at hleft
  exact hleft

theorem length_le_of_gone
    (hgone : ∀ n < made.length, settings.stopReason (first :: made.take n) = none)
    (hfirst : (settings.turnsOffset : Int) < settings.maxTurns) :
    (settings.turnsOffset + (first :: made).length : Int) ≤ settings.maxTurns := by
  rcases Nat.eq_zero_or_pos made.length with hzero | hpos
  · rw [List.length_eq_zero_iff.1 hzero, List.length_singleton]
    omega
  · have hleft := (LoopSettings.bounds_of_stopReason_none (List.cons_ne_nil _ _)
      (hgone (made.length - 1) (by omega))).1
    rw [List.length_cons, List.length_take] at hleft
    rw [List.length_cons]
    omega

theorem checkpoint_of_stopped {turns : List RunResult} {reason : StopReason}
    {checkpoint : LoopCheckpoint} (h : (settings.stopped turns reason).checkpoint = some checkpoint) :
    reason = .awaitingApproval ∧ checkpoint = settings.checkpoint turns := by
  unfold LoopSettings.stopped at h
  dsimp only at h
  split at h
  · next hreason => exact ⟨hreason, (Option.some.inj h).symm⟩
  · cases h

end Drive

/-! ## What a checkpoint carries -/

namespace AgentRun

/-- The checkpoint of a run that waits carries its bounds, its turns and their cost. -/
structure Tracked (run : AgentRun σ) : Prop where
  turns_ne : run.turns ≠ []
  result_turns : run.resumed = false → run.result.turns = run.turns
  carried : ∀ checkpoint, run.result.checkpoint = some checkpoint →
    checkpoint.maxTurns = run.maxTurns ∧ checkpoint.costBudget = run.costBudget
      ∧ checkpoint.turnsCompleted = run.turns.length
      ∧ checkpoint.costCompleted = totalCost run.turns
  waiting : ∀ checkpoint, run.result.checkpoint = some checkpoint →
    run.result.stoppedReason ≠ .synthesized

theorem tracked_of_stopped {run : AgentRun σ} {settings : LoopSettings} (before : List RunResult)
    {turns : List RunResult} {reason : StopReason} (hresult : run.result = settings.stopped turns reason)
    (hstop : settings.stopReason turns = some reason)
    (hbounds : settings.maxTurns = run.maxTurns ∧ settings.costBudget = run.costBudget)
    (hoffset : settings.turnsOffset = before.length ∧ settings.costOffset = totalCost before)
    (hturns : run.turns = before ++ turns) (hresumed : run.resumed = false → before = []) :
    run.Tracked := by
  have hne : turns ≠ [] := by
    rintro rfl
    cases hstop
  refine ⟨?_, fun hfalse => ?_, fun checkpoint hcheckpoint => ?_, fun checkpoint hcheckpoint => ?_⟩
  · rw [hturns]
    simp [hne]
  · rw [hresult, hturns, hresumed hfalse, List.nil_append]
    rfl
  · rw [hresult] at hcheckpoint
    obtain ⟨_, rfl⟩ := checkpoint_of_stopped hcheckpoint
    refine ⟨hbounds.1, hbounds.2, ?_, ?_⟩
    · simp [LoopSettings.checkpoint, hoffset.1, hturns]
    · simp [LoopSettings.checkpoint, hoffset.2, hturns, totalCost_append]
  · rw [hresult] at hcheckpoint ⊢
    obtain ⟨hreason, _⟩ := checkpoint_of_stopped hcheckpoint
    show reason ≠ .synthesized
    rw [hreason]
    nofun

theorem ordinaryTurns_of_stopped (run : AgentRun σ) {settings : LoopSettings}
    {turns : List RunResult} {reason : StopReason}
    (hresult : run.result = settings.stopped turns reason)
    (hstop : settings.stopReason turns = some reason) : run.ordinaryTurns = run.turns.length := by
  refine if_neg (fun hsynth => ?_)
  rw [hresult] at hsynth
  exact settings.stopReason_ne_synthesized turns (hstop.trans (congrArg some hsynth))

theorem start_spec (env : AgentEnvironment σ) {maxTurns : Int} (costBudget : Option Rat)
    (hitl stopOnNoProgress : Bool) (st : σ) (hturns : 1 ≤ maxTurns) :
    (start env maxTurns costBudget hitl stopOnNoProgress st).Tracked
      ∧ (start env maxTurns costBudget hitl stopOnNoProgress st).WithinBudgets := by
  obtain ⟨made, reason, hresult, hstop, hgone⟩ := driveLoop_spec env.continueTurn
    ⟨maxTurns, costBudget, hitl, stopOnNoProgress, 0, 0⟩ (env.runTask st).1 [] (env.runTask st).2
  have hmade : (start env maxTurns costBudget hitl stopOnNoProgress st).turns
      = (env.runTask st).1 :: made := congrArg AgentLoopResult.turns hresult
  refine ⟨tracked_of_stopped [] hresult hstop ⟨rfl, rfl⟩ ⟨rfl, rfl⟩ hmade
    (fun _ => rfl), ?_, fun budget hbudget n hpos hn => ?_⟩
  · rw [ordinaryTurns_of_stopped _ hresult hstop, hmade]
    have hle := length_le_of_gone hgone (by show ((0 : Nat) : Int) < maxTurns; omega)
    show ((made.length + 1 : Nat) : Int) ≤ maxTurns
    have : ((0 : Nat) + (made.length + 1 : Nat) : Int) ≤ maxTurns := hle
    omega
  · rw [hmade] at hn ⊢
    have hlt := totalCost_lt_of_gone hgone hbudget hpos hn
    rwa [show (⟨maxTurns, costBudget, hitl, stopOnNoProgress, 0, 0⟩ : LoopSettings).costOffset = 0
      from rfl, zero_add] at hlt

variable {env : AgentEnvironment σ} {run run' : AgentRun σ}

theorem rescue_spec (htracked : run.Tracked) (hstep : run.step env .rescue = some run') :
    run'.Tracked ∧ (run'.WithinBudgets ↔ run.WithinBudgets ∧ run.BudgetLeft .rescue) := by
  unfold step at hstep
  dsimp only at hstep
  split at hstep
  · next hrescue =>
      rw [Bool.and_eq_true, Bool.not_eq_true'] at hrescue
      obtain ⟨hresumed, hneeds⟩ := hrescue
      cases hstep
      have hresult : run.result.turns = run.turns := htracked.result_turns hresumed
      have hreason : run.result.stoppedReason ≠ .synthesized := by
        intro hsynth
        unfold AgentLoopResult.needsSynthesis at hneeds
        rw [hsynth] at hneeds
        cases hneeds
      have hsynthesis : env.maybeSynthesize run.result run.st
          = ({ turns := run.turns ++ [(env.synthesize run.st).1], stoppedReason := .synthesized },
            (env.synthesize run.st).2) := by
        unfold AgentEnvironment.maybeSynthesize
        rw [if_pos hneeds, hresult]
      rw [hsynthesis]
      refine ⟨⟨by simp, fun _ => rfl, nofun, nofun⟩, ?_⟩
      have hordinary : run.ordinaryTurns = run.turns.length := if_neg hreason
      have hlength : 0 < run.turns.length := List.length_pos_of_ne_nil htracked.turns_ne
      constructor
      · rintro ⟨hcount, hcost⟩
        refine ⟨⟨?_, fun budget hbudget n hpos hn => ?_⟩, fun budget hbudget => ?_⟩
        · simpa [ordinaryTurns, hreason] using hcount
        · have := hcost budget hbudget n hpos (by rw [List.length_append]; omega)
          rwa [List.take_append_of_le_length hn.le] at this
        · have := hcost budget hbudget run.turns.length hlength (by simp)
          rwa [List.take_left] at this
      · rintro ⟨⟨hcount, hcost⟩, hleft⟩
        refine ⟨?_, fun budget hbudget n hpos hn => ?_⟩
        · simpa [ordinaryTurns, hreason] using hcount
        · rw [List.length_append, List.length_singleton] at hn
          rcases Nat.lt_succ_iff_lt_or_eq.1 hn with hn | rfl
          · rw [List.take_append_of_le_length hn.le]
            exact hcost budget hbudget n hpos hn
          · rw [List.take_left]
            exact hleft budget hbudget
  · cases hstep

def resumeSettings (checkpoint : LoopCheckpoint) (hitl : Bool) : LoopSettings :=
  ⟨checkpoint.maxTurns, checkpoint.costBudget, hitl, false, checkpoint.turnsCompleted,
    checkpoint.costCompleted⟩

theorem resumeAgentLoop_ok {checkpoint : LoopCheckpoint}
    {approved hitl : Bool} {st st' : σ} {result : AgentLoopResult}
    (h : env.resumeAgentLoop checkpoint approved hitl st = .ok (result, st')) :
    ∃ (first : RunResult) (made : List RunResult) (reason : StopReason),
      result = (resumeSettings checkpoint hitl).stopped (first :: made) reason
        ∧ (resumeSettings checkpoint hitl).stopReason (first :: made) = some reason
        ∧ ∀ n < made.length,
          (resumeSettings checkpoint hitl).stopReason (first :: made.take n) = none := by
  unfold AgentEnvironment.resumeAgentLoop at h
  split at h
  · cases h
  · split at h
    · cases h
    · obtain ⟨made, reason, hresult, hstop, hgone⟩ := driveLoop_spec env.continueTurn
        (resumeSettings checkpoint hitl)
        (env.continueTurn (env.applyDecision checkpoint.pendingToolCalls approved st)).1 []
        (env.continueTurn (env.applyDecision checkpoint.pendingToolCalls approved st)).2
      exact ⟨_, made, reason, (congrArg Prod.fst (Except.ok.inj h)).symm.trans hresult, hstop, hgone⟩

theorem resume_spec {approved hitl : Bool}
    (htracked : run.Tracked) (hstep : run.step env (.resume approved hitl) = some run') :
    run'.Tracked
      ∧ (run'.WithinBudgets ↔ run.WithinBudgets ∧ run.BudgetLeft (.resume approved hitl)) := by
  obtain ⟨checkpoint, hcheckpoint, hresumed⟩ := Option.bind_eq_some_iff.1 hstep
  obtain ⟨hmax, hbudget, hcompleted, hcost⟩ := htracked.carried checkpoint hcheckpoint
  have hordinary : run.ordinaryTurns = run.turns.length :=
    if_neg (htracked.waiting checkpoint hcheckpoint)
  have hlength : 0 < run.turns.length := List.length_pos_of_ne_nil htracked.turns_ne
  split at hresumed
  · cases hresumed
  · next result st hok =>
      obtain ⟨first, made, reason, hresult, hstop, hgone⟩ := resumeAgentLoop_ok hok
      cases hresumed
      have hturns : result.turns = first :: made := congrArg AgentLoopResult.turns hresult
      have hordinary' := ordinaryTurns_of_stopped { run with
        turns := run.turns ++ result.turns, result := result, resumed := true, st := st }
        hresult hstop
      refine ⟨tracked_of_stopped run.turns hresult hstop ⟨hmax, hbudget⟩ ⟨hcompleted, hcost⟩
        (congrArg (run.turns ++ ·) hturns) nofun, ?_⟩
      constructor
      · rintro ⟨hcount, hcosts⟩
        rw [hordinary', hturns] at hcount
        rw [hturns] at hcosts
        simp only [List.length_append, List.length_cons] at hcount hcosts
        refine ⟨⟨?_, fun budget hb n hpos hn => ?_⟩, ?_⟩
        · rw [hordinary]
          omega
        · have := hcosts budget hb n hpos (by omega)
          rwa [List.take_append_of_le_length hn.le] at this
        · intro checkpoint' hcheckpoint'
          rw [hcheckpoint] at hcheckpoint'
          cases hcheckpoint'
          refine ⟨by omega, fun budget hb => ?_⟩
          have := hcosts budget (hbudget.symm.trans hb) run.turns.length hlength (by omega)
          rwa [List.take_left, ← hcost] at this
      · rintro ⟨⟨hcount, hcosts⟩, hleft⟩
        obtain ⟨hturnsLeft, hbudgetLeft⟩ := hleft checkpoint hcheckpoint
        refine ⟨?_, fun budget hb n hpos hn => ?_⟩
        · have hle := length_le_of_gone hgone hturnsLeft
          rw [hordinary', hturns, List.length_append]
          show ((run.turns.length + (first :: made).length : Nat) : Int) ≤ run.maxTurns
          have : (checkpoint.turnsCompleted + (first :: made).length : Int) ≤ checkpoint.maxTurns :=
            hle
          omega
        · rw [hturns] at hn ⊢
          rcases Nat.lt_trichotomy n run.turns.length with hlt | heq | hgt
          · rw [List.take_append_of_le_length hlt.le]
            exact hcosts budget hb n hpos hlt
          · rw [heq, List.take_left, ← hcost]
            exact hbudgetLeft budget (hbudget.trans hb)
          · -- inside the resumed drive, whose ladder adds the cost that the checkpoint carries
            rw [List.length_append] at hn
            have hlt := totalCost_lt_of_gone hgone (hbudget.trans hb)
              (show 0 < n - run.turns.length by omega) (by omega)
            rw [List.take_append, List.take_of_length_le hgt.le, totalCost_append, ← hcost]
            exact hlt

theorem step_spec {label : RunStep}
    (htracked : run.Tracked) (hstep : run.step env label = some run') :
    run'.Tracked ∧ (run'.WithinBudgets ↔ run.WithinBudgets ∧ run.BudgetLeft label) := by
  cases label with
  | rescue => exact rescue_spec htracked hstep
  | resume approved hitl => exact resume_spec htracked hstep

end AgentRun

/-- **Budgets.** A run keeps its bounds on turns and cost exactly when each of its resumes, and its
    synthesis turn, still had what it should have asked for. -/
theorem withinBudgets_iff (env : AgentEnvironment σ) {maxTurns : Int} (costBudget : Option Rat)
    (hitl stopOnNoProgress : Bool) (st : σ) (steps : List RunStep) {run : AgentRun σ}
    (hvalid : validateMaxTurns maxTurns "run_agent_loop" = .ok ()) (hrun : (agentRuns env).exec
      (AgentRun.start env maxTurns costBudget hitl stopOnNoProgress st) steps = some run) :
    run.WithinBudgets ↔ (agentRuns env).AlongRun AgentRun.BudgetLeft
      (AgentRun.start env maxTurns costBudget hitl stopOnNoProgress st) steps := by
  have hturns : 1 ≤ maxTurns := by
    by_contra hlt
    rw [validateMaxTurns, if_pos (by omega)] at hvalid
    cases hvalid
  obtain ⟨htracked, hwithin⟩ :=
    AgentRun.start_spec env costBudget hitl stopOnNoProgress st hturns
  suffices h : ∀ (steps : List RunStep) (run₀ : AgentRun σ), run₀.Tracked →
      (agentRuns env).exec run₀ steps = some run →
      (run.WithinBudgets ↔ run₀.WithinBudgets ∧
        (agentRuns env).AlongRun AgentRun.BudgetLeft run₀ steps) by
    rw [h steps _ htracked hrun]
    exact and_iff_right hwithin
  intro steps
  induction steps with
  | nil =>
    intro run₀ _ hexec
    cases hexec
    exact (and_iff_left trivial).symm
  | cons label steps ih =>
    intro run₀ htracked hexec
    obtain ⟨run₁, hstep, hexec⟩ := (agentRuns env).exec_cons_eq_some.1 hexec
    obtain ⟨htracked₁, hwithin₁⟩ := AgentRun.step_spec htracked hstep
    rw [ih run₁ htracked₁ hexec, hwithin₁, and_assoc]
    refine and_congr_right (fun _ => and_congr_right (fun _ => ⟨fun h run₂ hstep₂ => ?_, fun h => ?_⟩))
    · rw [hstep] at hstep₂
      cases hstep₂
      exact h
    · exact h run₁ hstep

def gatedTurn : RunResult where
  toolCalls := [{ toolCallId := "c1", toolName := "send_payment" }]
  toolReturns := [{
    toolCallId := "c1", toolName := "send_payment", outcome := "denied"
    metadata := ⟨[("error_code", .str "POLICY_BLOCKED")], by decide⟩ }]

def gatedEnvironment : AgentEnvironment Unit where
  runTask := fun st => (gatedTurn, st)
  continueTurn := fun st => (gatedTurn, st)
  synthesize := fun st => (gatedTurn, st)
  applyDecision := fun _ _ st => st

theorem stopReason_gated {settings : LoopSettings} (h : settings.hitl = true) :
    settings.stopReason [gatedTurn] = some .awaitingApproval := by
  cases settings
  cases h
  rfl

theorem start_gated (maxTurns : Int) : AgentRun.start gatedEnvironment maxTurns none true false ()
      = ⟨maxTurns, none, [gatedTurn],
        (⟨maxTurns, none, true, false, 0, 0⟩ : LoopSettings).stopped [gatedTurn] .awaitingApproval,
        false, ()⟩ := by
  unfold AgentRun.start
  rw [show (gatedEnvironment.runTask ()).1 = gatedTurn from rfl,
    driveLoop_of_stop (stopReason_gated rfl)]
  rfl

theorem exec_gated {maxTurns : Int}
    (hvalid : validateMaxTurns maxTurns "resume_agent_loop" = .ok ()) :
    ∃ result, result.stoppedReason = .awaitingApproval ∧ (agentRuns gatedEnvironment).exec
        (AgentRun.start gatedEnvironment maxTurns none true false ()) [.resume true true]
      = some ⟨maxTurns, none, [gatedTurn, gatedTurn], result, true, ()⟩ := by
  have hresume : gatedEnvironment.resumeAgentLoop
      ((⟨maxTurns, none, true, false, 0, 0⟩ : LoopSettings).checkpoint [gatedTurn]) true true ()
      = .ok ((⟨maxTurns, none, true, false, 1, 0 + totalCost [gatedTurn]⟩ : LoopSettings).stopped
        [gatedTurn] .awaitingApproval, ()) := by
    unfold AgentEnvironment.resumeAgentLoop LoopSettings.checkpoint
    dsimp only
    rw [hvalid]
    exact congrArg Except.ok (driveLoop_of_stop (stopReason_gated rfl) ())
  refine ⟨(⟨maxTurns, none, true, false, 1, 0 + totalCost [gatedTurn]⟩ : LoopSettings).stopped
    [gatedTurn] .awaitingApproval, rfl,
    (agentRuns gatedEnvironment).exec_cons_eq_some.2 ⟨_, ?_, rfl⟩⟩
  rw [start_gated]
  unfold agentRuns AgentRun.step
  dsimp only
  rw [show ((⟨maxTurns, none, true, false, 0, 0⟩ : LoopSettings).stopped [gatedTurn]
    .awaitingApproval).checkpoint
      = some ((⟨maxTurns, none, true, false, 0, 0⟩ : LoopSettings).checkpoint [gatedTurn]) from rfl,
    Option.bind_some, hresume]
  rfl

/-- Two turns and a resume between them keep a bound of two. -/
theorem withinBudgets_iff_gated : ∃ run, (agentRuns gatedEnvironment).exec
      (AgentRun.start gatedEnvironment 2 none true false ()) [.resume true true] = some run
    ∧ (run.WithinBudgets ↔ (agentRuns gatedEnvironment).AlongRun AgentRun.BudgetLeft
      (AgentRun.start gatedEnvironment 2 none true false ()) [.resume true true]) := by
  obtain ⟨result, _, hrun⟩ :=
    exec_gated (show validateMaxTurns 2 "resume_agent_loop" = .ok () from rfl)
  exact ⟨_, hrun, withinBudgets_iff gatedEnvironment none true false () _ rfl hrun⟩

/-- With a bound of one, the resume makes a second turn. -/
theorem gated_exceeds_maxTurns : ∃ run, (agentRuns gatedEnvironment).exec
      (AgentRun.start gatedEnvironment 1 none true false ()) [.resume true true] = some run
    ∧ ¬ run.WithinBudgets := by
  obtain ⟨result, hreason, hrun⟩ :=
    exec_gated (show validateMaxTurns 1 "resume_agent_loop" = .ok () from rfl)
  refine ⟨_, hrun, fun hwithin => ?_⟩
  have hcount := hwithin.1
  unfold AgentRun.ordinaryTurns at hcount
  rw [if_neg (by rw [hreason]; nofun)] at hcount
  exact absurd hcount (show ¬ ((2 : Nat) : Int) ≤ 1 by decide)

end Himmy.Runtime
