import Mathlib.Algebra.BigOperators.Group.List.Basic
import Mathlib.Tactic.Ring
import Himmy.Orchestrators.GroupChat
import Himmy.Orchestrators.TeamControl

/-! # The spend of a team

The result of a team run, a group chat or a fan-out reports the costs of the turns it holds. What is
inferred inside a turn besides its response (the sub-runs of the workers it asks, and the summaries of
its thread), the calls of a selector, and the turns of a worker that raises are no part of it.
`spend_reported_iff`: the report is the spend exactly when these cost nothing. -/

namespace Himmy.Teams

open Himmy.Runtime

/-! ## What was spent -/

mutual

/-- The costs of what was inferred in a turn besides its response. -/
def TurnTrace.hidden : TurnTrace → Rat
  | .turn _ summaries delegations => summaries.sum + spentOn delegations

def spentOn : List Delegation → Rat
  | [] => 0
  | d :: ds => d.spent + spentOn ds

/-- The costs of everything inferred in the sub-run of a worker. -/
def Delegation.spent : Delegation → Rat
  | .ran _ turns raised => spentIn turns + raised.sum

def spentIn : List TurnTrace → Rat
  | [] => 0
  | t :: ts => t.result.cost + t.hidden + spentIn ts

end

def TurnOutcome.spent : TurnOutcome → Rat
  | .returned t => t.result.cost + t.hidden
  | .raised _ spent => spent.sum

def TurnOutcome.hidden : TurnOutcome → Rat
  | .returned t => t.hidden
  | .raised _ spent => spent.sum

def TurnOutcome.cost : TurnOutcome → Rat
  | .returned t => t.result.cost
  | .raised .. => 0

theorem TurnOutcome.spent_eq (outcome : TurnOutcome) : outcome.spent = outcome.cost + outcome.hidden := by
  cases outcome with
  | returned t => rfl
  | raised exc costs => exact (zero_add _).symm

theorem spentIn_eq (turns : List TurnTrace) : spentIn turns
    = (turns.map (fun t => t.result.cost)).sum + (turns.map TurnTrace.hidden).sum := by
  induction turns with
  | nil => simp [spentIn]
  | cons t turns ih =>
    simp only [spentIn, List.map_cons, List.sum_cons, ih]
    ring

/-! ## Team runs -/

section

variable {ω : Type} (run : TeamRun ω)

def TeamRun.spent : Rat := (run.driven.map (fun d => d.outcome.spent)).sum

/-- The costs that its turns hide: of workers and of summaries. -/
def TeamRun.hidden : Rat := (run.driven.map (fun d => d.outcome.hidden)).sum

def TeamRun.Reports : Prop := ∀ res, run.ends = .ok res → res.totalCost = run.spent

theorem Loops.totalCost {o : Orchestrator} {n : Nat} {active : TeamMember}
    {turns : List (String × RunResult)} {result : RunResult} {chain chain' : List String}
    {driven : List Driven} {ends : Except String MultiAgentResult}
    (h : Loops o n active turns result chain driven chain' ends) {res : MultiAgentResult}
    (hres : ends = .ok res) : res.totalCost
      = (turns.map (fun t => t.2.cost)).sum + (driven.map (fun d => d.outcome.cost)).sum := by
  induction h with
  | fails | synthesisRaises | raises | gated => cases hres
  | finishes | stops =>
    cases hres
    simp [finish]
  | synthesizes =>
    cases hres
    simp [finish, TurnOutcome.cost]
  | goes _ _ _ ih =>
    rw [ih hres, List.map_append, List.sum_append, List.map_cons, List.sum_cons, add_assoc]
    simp [TurnOutcome.cost]

theorem runTeam_totalCost (rt : TeamRuntime ω) (o : Orchestrator) (prompt : String) (w : ω) :
    ∀ res, (runTeam rt o prompt w).ends = .ok res →
      res.totalCost = ((runTeam rt o prompt w).driven.map (fun d => d.outcome.cost)).sum := by
  unfold runTeam
  split
  · simp
  · dsimp only
    split
    · simp
    · split
      · simp
      · intro res hres
        rw [(runLoop_loops o rt _ _ _ _ _ _).totalCost hres]
        simp [TurnOutcome.cost]

theorem TeamRun.spent_eq :
    run.spent = (run.driven.map (fun d => d.outcome.cost)).sum + run.hidden := by
  simp only [TeamRun.spent, TeamRun.hidden, TurnOutcome.spent_eq, List.sum_map_add]

theorem runTeam_reports_iff (rt : TeamRuntime ω) (o : Orchestrator) (prompt : String) (w : ω) :
    (runTeam rt o prompt w).Reports
      ↔ ∀ res, (runTeam rt o prompt w).ends = .ok res → (runTeam rt o prompt w).hidden = 0 := by
  refine forall₂_congr ?_
  intro res hres
  rw [runTeam_totalCost rt o prompt w res hres, TeamRun.spent_eq, left_eq_add]

/-! ## Group chats -/

def Round.spent (r : Round) : Rat :=
  r.selection.spent.sum + ((r.outcome.map TurnOutcome.spent).getD 0)

def Round.hidden (r : Round) : Rat :=
  r.selection.spent.sum + ((r.outcome.map TurnOutcome.hidden).getD 0)

def Round.cost (r : Round) : Rat := (r.outcome.map TurnOutcome.cost).getD 0

theorem Round.spent_eq (r : Round) : r.spent = r.cost + r.hidden := by
  unfold spent cost hidden
  rcases r.outcome with - | outcome
  · simp
  · simp only [Option.map_some, Option.getD_some, outcome.spent_eq]
    ring

variable (run : ChatRun ω)

def ChatRun.spent : Rat := (run.rounds.map Round.spent).sum

def ChatRun.hidden : Rat := (run.rounds.map Round.hidden).sum

def ChatRun.Reports : Prop := ∀ res, run.ends = .ok res → res.totalCost = run.spent

theorem ChatRun.spent_eq : run.spent = (run.rounds.map Round.cost).sum + run.hidden := by
  have hspent : Round.spent = fun r => r.cost + r.hidden := funext Round.spent_eq
  rw [ChatRun.spent, ChatRun.hidden, hspent, List.sum_map_add]

theorem chatLoop_totalCost (rt : ChatRuntime ω) (o : ChatOrchestrator) (remaining : Nat)
    (prompt : Option String) (st : ChatState) (w : ω) :
    ∀ res, (chatLoop rt o remaining prompt st w).ends = .ok res → res.totalCost
      = (st.turns.map (fun t => t.2.cost)).sum
        + ((chatLoop rt o remaining prompt st w).rounds.map Round.cost).sum := by
  induction remaining using Nat.strongRecOn generalizing prompt st w with
  | ind remaining ih =>
    intro res hres
    obtain ⟨selection, w₁, hselect⟩ : ∃ selection w₁, rt.select w
        ⟨o.speakers, st.lastSpeaker, st.turns.length, st.transcript⟩ = (selection, w₁) := ⟨_, _, rfl⟩
    rcases chatLoop_cases rt o remaining prompt st hselect with ⟨exc, -, hrun⟩ |
      ⟨speaker, answer, w', -, -, ⟨exc, outcome, hrun⟩ |
        ⟨t, -, ⟨reason, text, -, hrun⟩ | ⟨n, st', rfl, -, hturns, -, hrun⟩⟩⟩
    · rw [hrun] at hres
      cases hres
    · rw [hrun] at hres
      cases hres
    · rw [hrun] at hres ⊢
      cases hres
      simp [chatFinish, Round.cost, TurnOutcome.cost]
    · rw [hrun] at hres ⊢
      rw [ih n (Nat.lt_succ_self n) none st' w' res hres, hturns]
      simp [Round.cost, TurnOutcome.cost, add_assoc]

theorem runChat_reports_iff (rt : ChatRuntime ω) (o : ChatOrchestrator) (prompt : String) (w : ω) :
    (runChat rt o prompt w).Reports
      ↔ ∀ res, (runChat rt o prompt w).ends = .ok res → (runChat rt o prompt w).hidden = 0 := by
  refine forall₂_congr ?_
  intro res hres
  have htotal := chatLoop_totalCost rt o (o.maxRounds - 1).toNat (some prompt) {} w res hres
  rw [ChatRun.spent_eq, htotal, List.map_nil, List.sum_nil, zero_add]
  exact left_eq_add

end

/-! ## Fan-outs -/

def Worked.spent (worked : Worked) : Rat :=
  spentIn worked.loop.turns + ((worked.loop.raised.map (fun r => r.2.sum)).getD 0)

def Worked.hidden (worked : Worked) : Rat :=
  match worked.loop.raised with
  | none => (worked.loop.turns.map TurnTrace.hidden).sum
  | some (_, costs) => spentIn worked.loop.turns + costs.sum

theorem runWorker_fanoutCost (workers : Workers) (team : AgentTeam) (i : Nat) (spec : SubtaskSpec) :
    (runWorker workers team i spec).spent = (runWorker workers team i spec).fanoutCost.getD 0
      + (runWorker workers team i spec).hidden := by
  unfold runWorker
  split
  · simp [Worked.spent, Worked.hidden, spentIn]
  · next worker _ =>
      dsimp only
      split
      · next exc costs hraised => simp [Worked.spent, Worked.hidden, hraised]
      · next hraised =>
          split
          · next hnone =>
              rw [List.getLast?_eq_none_iff] at hnone
              simp [Worked.spent, Worked.hidden, hraised, hnone, spentIn]
          · simp [Worked.spent, Worked.hidden, hraised, spentIn_eq]

def FanOutReports (fan : Except String (List Worked × FanOutResult)) : Prop :=
  ∀ worked res, fan = .ok (worked, res) → res.totalCost = (worked.map Worked.spent).sum

theorem fanOut_reports_iff (workers : Workers) (team : AgentTeam) (specs : List SubtaskSpec)
    (concurrency : Option Int) : FanOutReports (fanOut workers team specs concurrency)
      ↔ ∀ worked res, fanOut workers team specs concurrency = .ok (worked, res) →
        (worked.map Worked.hidden).sum = 0 := by
  refine forall₃_congr ?_
  intro worked res hfan
  unfold fanOut at hfan
  split_ifs at hfan
  · cases hfan
    simp
  · cases hfan
    have hspent : (specs.mapIdx (runWorker workers team)).map Worked.spent
        = (specs.mapIdx (runWorker workers team)).map
            (fun w => w.fanoutCost.getD 0 + w.hidden) := by
      refine List.map_congr_left ?_
      intro w hw
      obtain ⟨i, hi, rfl⟩ := List.mem_mapIdx.1 hw
      exact runWorker_fanoutCost workers team i specs[i]
    rw [hspent, List.sum_map_add]
    exact left_eq_add

/-- **The spend that is reported.** For every team run, group chat and fan-out, the total cost of the
    result is the cost of everything inferred on its behalf exactly when what its turns, its selector
    and its workers that raised hide costs nothing. -/
theorem spend_reported_iff {ω : Type} (rt : ChatRuntime ω) (o : Orchestrator) (chat : ChatOrchestrator)
    (prompt : String) (w : ω) (workers : Workers) (team : AgentTeam) (specs : List SubtaskSpec)
    (concurrency : Option Int) : ((runTeam rt.toTeamRuntime o prompt w).Reports
        ↔ ∀ res, (runTeam rt.toTeamRuntime o prompt w).ends = .ok res →
          (runTeam rt.toTeamRuntime o prompt w).hidden = 0) ∧ ((runChat rt chat prompt w).Reports
        ↔ ∀ res, (runChat rt chat prompt w).ends = .ok res → (runChat rt chat prompt w).hidden = 0)
      ∧ (FanOutReports (fanOut workers team specs concurrency)
        ↔ ∀ worked res, fanOut workers team specs concurrency = .ok (worked, res) →
          (worked.map Worked.hidden).sum = 0) :=
  ⟨runTeam_reports_iff rt.toTeamRuntime o prompt w, runChat_reports_iff rt chat prompt w,
    fanOut_reports_iff workers team specs concurrency⟩

/-! ## A selector that asks a model -/

private def selecting : ChatRuntime Unit where
  turn _ _ := (.returned (.turn { outputText := some "done", cost := 2 } [] []), ())
  reinject _ _ _ := (.ok (), ())
  threadEmpty _ := true
  select _ context :=
    let named : Value := .dict [("next_speaker", .str "a")]
    (llmSelect (some { cost := 1, outputStructured := named }) context, ())

private def panel : ChatOrchestrator where
  team := { members := [{ name := "a" }, { name := "b" }], entry := "a" }
  maxRounds := 1
  speakers := ["a", "b"]

/-- The call of the selector is not in the total. -/
theorem selector_cost_unreported : ¬ (runChat selecting panel "hello" ()).Reports := by
  intro h
  have hfacts : (runChat selecting panel "hello" ()).ends.toOption.map (·.totalCost) = some 2
      ∧ (runChat selecting panel "hello" ()).spent = 3 := by
    decide +kernel
  obtain ⟨hcost, hspent⟩ := hfacts
  rcases hends : (runChat selecting panel "hello" ()).ends with exc | res
  · rw [hends] at hcost
    cases hcost
  · rw [hends] at hcost
    have htotal : res.totalCost = 2 := Option.some.inj hcost
    rw [h res hends, hspent] at htotal
    revert htotal
    decide

end Himmy.Teams
