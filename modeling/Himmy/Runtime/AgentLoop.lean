import Himmy.Runtime.Turn

/-! # The agent loop

`run_agent_loop` runs a first turn and then continuation turns until the ladder of stop conditions
stops it; a loop that ends in silence after it used tools gets one more turn, with no tools. A turn
that waits for an approval suspends the loop in a checkpoint, from which `resume_agent_loop` goes on
after the decision, with a continuation turn and then the same ladder. The model, the tools and the
thread are a parameter: whatever they do, they take a state to the outcome of a turn and the next
state. -/

namespace Himmy.Runtime

/-- `stopped_reason`. -/
inductive StopReason where
  | error
  | awaitingApproval
  | final
  | finalAnswer
  | noProgress
  | maxTurns
  | budget
  | synthesized
  deriving DecidableEq

/-- `AgentCheckpoint`, as far as the resumed loop reads it. -/
structure LoopCheckpoint where
  maxTurns : Int
  costBudget : Option Rat
  turnsCompleted : Nat
  costCompleted : Rat
  pendingToolCalls : List PendingToolCall

structure AgentLoopResult where
  turns : List RunResult
  stoppedReason : StopReason := .final
  checkpoint : Option LoopCheckpoint := none

/-- The arguments of `_drive_loop` that its stop conditions read. -/
structure LoopSettings where
  maxTurns : Int
  costBudget : Option Rat := none
  hitl : Bool := false
  stopOnNoProgress : Bool := false
  turnsOffset : Nat := 0
  costOffset : Rat := 0

namespace LoopSettings

variable (settings : LoopSettings) (turns : List RunResult)

def budgetReached : Bool :=
  settings.costBudget.any (fun budget => budget ≤ settings.costOffset + totalCost turns)

def stopReason : Option StopReason :=
  match turns.getLast? with
  | none => none
  | some last =>
    if !last.succeeded then some .error
    else if settings.hitl && last.pendingApprovals ≠ [] then some .awaitingApproval
    else if last.toolCalls = [] then some .final
    else if last.roundTripComplete then some .final
    else if last.finalAnswerText.isSome then some .finalAnswer
    else if settings.stopOnNoProgress && isNoProgress turns then some .noProgress
    else if settings.maxTurns ≤ settings.turnsOffset + turns.length then some .maxTurns
    else if settings.budgetReached turns then some .budget
    else none

/-- `_save_checkpoint`, of the drive that a pending approval suspends. -/
def checkpoint : LoopCheckpoint where
  maxTurns := settings.maxTurns
  costBudget := settings.costBudget
  turnsCompleted := settings.turnsOffset + turns.length
  costCompleted := settings.costOffset + totalCost turns
  pendingToolCalls := (turns.getLast?.map RunResult.pendingApprovals).getD []

def stopped (reason : StopReason) : AgentLoopResult where
  turns := turns
  stoppedReason := reason
  checkpoint := if reason = .awaitingApproval then some (settings.checkpoint turns) else none

theorem stopReason_ne_synthesized : settings.stopReason turns ≠ some .synthesized := by
  unfold stopReason
  split
  · nofun
  · split_ifs <;> nofun

theorem bounds_of_stopReason_none {settings : LoopSettings} {turns : List RunResult}
    (hne : turns ≠ []) (h : settings.stopReason turns = none) :
    (settings.turnsOffset + turns.length : Int) < settings.maxTurns
      ∧ settings.budgetReached turns = false := by
  unfold stopReason at h
  rw [List.getLast?_eq_some_getLast hne] at h
  dsimp only at h
  split_ifs at h with _ _ _ _ _ _ hturns hbudget
  exact ⟨Int.not_le.1 hturns, by simpa using hbudget⟩

end LoopSettings

variable {σ : Type}

def driveLoop (turn : σ → RunResult × σ) (settings : LoopSettings) (first : RunResult)
    (more : List RunResult) (st : σ) : AgentLoopResult × σ :=
  match _h : settings.stopReason (first :: more) with
  | some reason => (settings.stopped (first :: more) reason, st)
  | none => driveLoop turn settings first (more ++ [(turn st).1]) (turn st).2
termination_by (settings.maxTurns - settings.turnsOffset - more.length).toNat
decreasing_by
  have hbound := (LoopSettings.bounds_of_stopReason_none (List.cons_ne_nil _ _) _h).1
  simp only [List.length_append, List.length_cons, List.length_nil] at hbound ⊢
  omega

def hardMaxTurns : Int := 100

def validateMaxTurns (maxTurns : Int) (entryPoint : String) : Except String Unit :=
  if maxTurns < 1 then .error (entryPoint ++ " requires max_turns >= 1.")
  else if hardMaxTurns < maxTurns then
    .error (entryPoint ++ " requires max_turns <= " ++ toString hardMaxTurns ++ " (got "
      ++ toString maxTurns ++ "): the runtime enforces a hard turn ceiling.")
  else .ok ()

/-- `maybe_synthesize` makes a turn of its own after this result. -/
def AgentLoopResult.needsSynthesis (result : AgentLoopResult) : Bool :=
  (result.stoppedReason = .final || result.stoppedReason = .maxTurns)
    && (match result.turns.getLast? with
      | some last => pyStrip isPySpace (last.outputText.getD "").toList = []
      | none => false)
    && result.turns.any (fun turn => turn.toolCalls ≠ [])

/-- The model, the tools and the thread. -/
structure AgentEnvironment (σ : Type) where
  /-- `run_task_detailed` of the task -/
  runTask : σ → RunResult × σ
  /-- `_continue_turn` -/
  continueTurn : σ → RunResult × σ
  /-- `run_task_detailed` of the synthesis nudge -/
  synthesize : σ → RunResult × σ
  /-- the outcomes of the pending calls, executed or rejected, put on the thread -/
  applyDecision : List PendingToolCall → Bool → σ → σ
  hasToolService : Bool := true
  hasCheckpointStore : Bool := true

namespace AgentEnvironment

variable (env : AgentEnvironment σ)

def maybeSynthesize (result : AgentLoopResult) (st : σ) : AgentLoopResult × σ :=
  if result.needsSynthesis then
    ({ turns := result.turns ++ [(env.synthesize st).1], stoppedReason := .synthesized },
      (env.synthesize st).2)
  else (result, st)

/-- `run_agent_loop`, without the routing of its tools and without steering. -/
def runAgentLoop (maxTurns : Int) (costBudget : Option Rat) (hitl stopOnNoProgress
    synthesizeEmpty : Bool) (st : σ) : Except String (AgentLoopResult × σ) :=
  match validateMaxTurns maxTurns "run_agent_loop" with
  | .error e => .error e
  | .ok _ =>
    if hitl && !env.hasCheckpointStore then
      .error "hitl=True requires a checkpoint_store on the runtime."
    else
      let settings : LoopSettings := ⟨maxTurns, costBudget, hitl, stopOnNoProgress, 0, 0⟩
      let driven := driveLoop env.continueTurn settings (env.runTask st).1 [] (env.runTask st).2
      .ok (if synthesizeEmpty then env.maybeSynthesize driven.1 driven.2 else driven)

/-- `resume_agent_loop_locked` of a checkpoint that it claims: the decision goes on the thread, and a
    continuation turn is made before the first stop condition is looked at. -/
def resumeAgentLoop (checkpoint : LoopCheckpoint) (approved hitl : Bool) (st : σ) :
    Except String (AgentLoopResult × σ) :=
  match validateMaxTurns checkpoint.maxTurns "resume_agent_loop" with
  | .error e => .error e
  | .ok _ =>
    if approved && !env.hasToolService then
      .error "cannot resume approved: no tool_service to execute the action."
    else
      let turn := env.continueTurn (env.applyDecision checkpoint.pendingToolCalls approved st)
      .ok (driveLoop env.continueTurn ⟨checkpoint.maxTurns, checkpoint.costBudget, hitl, false,
        checkpoint.turnsCompleted, checkpoint.costCompleted⟩ turn.1 [] turn.2)

end AgentEnvironment

/-! ## What a drive does -/

section Drive

variable {turn : σ → RunResult × σ} {settings : LoopSettings}

theorem driveLoop_of_stop {first : RunResult} {more : List RunResult} {reason : StopReason}
    (h : settings.stopReason (first :: more) = some reason) (st : σ) :
    driveLoop turn settings first more st = (settings.stopped (first :: more) reason, st) := by
  rw [driveLoop]
  split
  · next reason' h' =>
      rw [h] at h'
      cases h'
      rfl
  · next h' =>
      rw [h] at h'
      cases h'

theorem driveLoop_of_none {first : RunResult} {more : List RunResult}
    (h : settings.stopReason (first :: more) = none) (st : σ) :
    driveLoop turn settings first more st
      = driveLoop turn settings first (more ++ [(turn st).1]) (turn st).2 := by
  rw [driveLoop]
  split
  · next reason' h' =>
      rw [h] at h'
      cases h'
  · rfl

theorem driveLoop_spec (turn : σ → RunResult × σ) (settings : LoopSettings) (first : RunResult)
    (more : List RunResult) (st : σ) : ∃ (made : List RunResult) (reason : StopReason),
      (driveLoop turn settings first more st).1 = settings.stopped (first :: more ++ made) reason
        ∧ settings.stopReason (first :: more ++ made) = some reason
        ∧ ∀ n < made.length, settings.stopReason (first :: more ++ made.take n) = none := by
  induction hn : (settings.maxTurns - settings.turnsOffset - more.length).toNat using
    Nat.strong_induction_on generalizing more st with
  | _ n ih =>
    cases h : settings.stopReason (first :: more) with
    | some reason =>
      refine ⟨[], reason, ?_, ?_, nofun⟩
      · rw [driveLoop_of_stop h, List.append_nil]
      · rw [List.append_nil, h]
    | none =>
      have hbound := (LoopSettings.bounds_of_stopReason_none (List.cons_ne_nil _ _) h).1
      rw [List.length_cons] at hbound
      obtain ⟨made, reason, hresult, hstop, hgone⟩ := ih _ (by
        rw [List.length_append, List.length_singleton]
        omega) (more ++ [(turn st).1]) (turn st).2 rfl
      refine ⟨(turn st).1 :: made, reason, ?_, ?_, fun k hk => ?_⟩
      · rw [driveLoop_of_none h, hresult]
        simp
      · simpa using hstop
      · cases k with
        | zero => simpa using h
        | succ k =>
          have := hgone k (by simpa using hk)
          simpa using this

end Drive

end Himmy.Runtime
