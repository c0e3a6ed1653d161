import Mathlib.Data.List.Chain
import Himmy.Inference.ToolExecution
import Himmy.Orchestrators.Team

/-! # Control in a team

The active member changes when a turn calls one of its transfer tools by name, and only then: the
orchestrator reads the calls of the turn, and not what came of them. `team_control` says it of every
run, with the tools that each turn binds, the trail of the handoffs and the number of turns. -/

namespace Himmy.Teams

open Himmy.Runtime

/-! ## The call of a transfer -/

def NamesTransfer (m : TeamMember) (call : ToolCallRecord) : Prop :=
  ∃ h ∈ m.handoffs, call.toolName = handoffPrefix ++ h

def CallsTransfer (m : TeamMember) (result : RunResult) (target : String) : Prop :=
  ∃ (before : List ToolCallRecord) (call : ToolCallRecord) (after : List ToolCallRecord),
    result.toolCalls = before ++ call :: after ∧ target ∈ m.handoffs
      ∧ call.toolName = handoffPrefix ++ target ∧ ∀ c ∈ before, ¬ NamesTransfer m c

theorem mem_allowed {m : TeamMember} {call : ToolCallRecord} :
    call.toolName ∈ m.handoffs.map (handoffPrefix ++ ·) ↔ NamesTransfer m call := by
  simp only [NamesTransfer, List.mem_map]
  constructor
  · rintro ⟨h, hh, hname⟩
    exact ⟨h, hh, hname.symm⟩
  · rintro ⟨h, hh, hname⟩
    exact ⟨h, hh, hname.symm⟩

theorem drop_handoffPrefix (h : String) :
    String.ofList ((handoffPrefix ++ h).toList.drop handoffPrefix.length) = h := by
  rw [String.toList_append, List.drop_left' (by rw [String.length_toList]), String.ofList_toList]

theorem detectHandoff_eq_none {result : RunResult} {active : TeamMember} :
    detectHandoff result active = none ↔ ∀ call ∈ result.toolCalls, ¬ NamesTransfer active call := by
  simp only [detectHandoff, Option.map_eq_none_iff, List.find?_eq_none, decide_eq_true_eq, mem_allowed]

theorem callsTransfer_of_detectHandoff {result : RunResult} {active : TeamMember} {target : String}
    (h : detectHandoff result active = some target) : CallsTransfer active result target := by
  obtain ⟨call, hfind, htarget⟩ := Option.map_eq_some_iff.1 h
  obtain ⟨hallowed, before, after, hcalls, hbefore⟩ := List.find?_eq_some_iff_append.1 hfind
  obtain ⟨t, ht, hname⟩ := mem_allowed.1 (of_decide_eq_true hallowed)
  rw [hname, drop_handoffPrefix] at htarget
  subst htarget
  refine ⟨before, call, after, hcalls, ht, hname, ?_⟩
  intro c hc hnames
  have hnot := hbefore c hc
  rw [decide_eq_true (mem_allowed.2 hnames)] at hnot
  cases hnot

theorem AgentTeam.name_of_get {team : AgentTeam} {name : String} {m : TeamMember}
    (h : team.get name = some m) : m.name = name := by
  simpa using List.find?_some h

theorem AgentTeam.get_of_require {team : AgentTeam} {name : String} {m : TeamMember}
    (h : team.require name = .ok m) : team.get name = some m := by
  unfold require at h
  split at h
  · cases h
    assumption
  · cases h

/-! ## The loop -/

section

variable (o : Orchestrator)

/-- Where control is after a turn, and the trail. -/
inductive Moves (active : TeamMember) (result : RunResult) (chain : List String) :
    TeamMember → List String → Prop
  | hands {target : String} {next : TeamMember} (hcall : detectHandoff result active = some target)
      (hget : o.team.get target = some next) : Moves active result chain next (chain ++ [next.name])
  | stays (hcall : detectHandoff result active = none) : Moves active result chain active chain

/-- The ways the loop can go after some turns: the turns it makes, its trail and its end. -/
inductive Loops : Nat → TeamMember → List (String × RunResult) → RunResult → List String →
    List Driven → List String → Except String MultiAgentResult → Prop
  | fails {n : Nat} {active : TeamMember} {turns : List (String × RunResult)} {result : RunResult}
      {chain : List String} (exc : String) : Loops n active turns result chain [] chain (.error exc)
  | finishes {n : Nat} {active : TeamMember} {turns : List (String × RunResult)} {result : RunResult}
      {chain : List String} (hcall : detectHandoff result active = none) (reason : String)
      (answer : Option String) : Loops n active turns result chain [] chain
        (.ok (finish turns active.name chain reason answer))
  | stops {active next : TeamMember} {turns : List (String × RunResult)} {result : RunResult}
      {chain chain' : List String} (hm : Moves o active result chain next chain') :
      Loops 0 active turns result chain [] chain' (.ok (finish turns next.name chain' "max_turns" none))
  | synthesizes {active next : TeamMember} {turns : List (String × RunResult)} {result : RunResult}
      {chain chain' : List String} (hm : Moves o active result chain next chain') (t : TurnTrace)
      (answer : Option String) : Loops 0 active turns result chain
        [⟨next, true, o.synthesisCall next, .returned t⟩] chain'
        (.ok (finish (turns ++ [(next.name, t.result)]) next.name chain' "max_turns_synthesized" answer))
  | synthesisRaises {active next : TeamMember} {turns : List (String × RunResult)}
      {result : RunResult} {chain chain' : List String}
      (hm : Moves o active result chain next chain') (exc : String) (spent : List Rat) :
      Loops 0 active turns result chain [⟨next, true, o.synthesisCall next, .raised exc spent⟩] chain'
        (.error exc)
  | raises {n : Nat} {active next : TeamMember} {turns : List (String × RunResult)}
      {result : RunResult} {chain chain' : List String}
      (hm : Moves o active result chain next chain') (exc : String) (spent : List Rat) :
      Loops (n + 1) active turns result chain
        [⟨next, false, o.memberCall next none, .raised exc spent⟩] chain' (.error exc)
  | gated {n : Nat} {active next : TeamMember} {turns : List (String × RunResult)}
      {result : RunResult} {chain chain' : List String} {t : TurnTrace} {exc : String}
      (hm : Moves o active result chain next chain')
      (hgate : failClosedOnGatedTool t.result "multi_agent" = .error exc) :
      Loops (n + 1) active turns result chain [⟨next, false, o.memberCall next none, .returned t⟩]
        chain' (.error exc)
  | goes {n : Nat} {active next : TeamMember} {turns : List (String × RunResult)} {result : RunResult}
      {chain chain' chain'' : List String} {t : TurnTrace} {driven : List Driven}
      {ends : Except String MultiAgentResult} (hm : Moves o active result chain next chain')
      (hgate : failClosedOnGatedTool t.result "multi_agent" = .ok ())
      (rest : Loops n next (turns ++ [(next.name, t.result)]) t.result chain' driven chain'' ends) :
      Loops (n + 1) active turns result chain
        (⟨next, false, o.memberCall next none, .returned t⟩ :: driven) chain'' ends

variable {ω : Type} (rt : TeamRuntime ω)

theorem moves_of_route {active : TeamMember} {turns : List (String × RunResult)} {result : RunResult}
    {chain : List String} {w w' : ω} {next : TeamMember} {chain' : List String}
    (h : route rt o active turns result chain w = (.ok (.goesOn next chain'), w')) :
    Moves o active result chain next chain' := by
  unfold route at h
  split at h
  · next target hcall =>
      split at h
      · cases h
      · next member hrequire =>
          split at h
          · cases h
          · cases h
            exact .hands hcall (AgentTeam.get_of_require hrequire)
  · next hcall =>
      split at h
      · cases h
      · split_ifs at h <;> cases h
        exact .stays hcall

theorem detectHandoff_of_route {active : TeamMember} {turns : List (String × RunResult)}
    {result : RunResult} {chain : List String} {w w' : ω} {reason : String} {answer : Option String}
    (h : route rt o active turns result chain w = (.ok (.finished reason answer), w')) :
    detectHandoff result active = none := by
  unfold route at h
  split at h
  · split at h
    · cases h
    · split at h <;> cases h
  · assumption

theorem runLoop_loops (remaining : Nat) (active : TeamMember) (turns : List (String × RunResult))
    (result : RunResult) (chain : List String) (w : ω) :
    Loops o remaining active turns result chain (runLoop rt o remaining active turns result chain w).driven
      (runLoop rt o remaining active turns result chain w).chain
      (runLoop rt o remaining active turns result chain w).ends := by
  induction remaining generalizing active turns result chain w with
  | zero =>
    unfold runLoop
    split
    · exact .fails _
    · next hroute => exact .finishes (detectHandoff_of_route o rt hroute) _ _
    · next hroute =>
        have hm := moves_of_route o rt hroute
        dsimp only
        unfold exhausted
        split
        · dsimp only
          split
          · exact .synthesisRaises hm _ _
          · exact .synthesizes hm _ _
        · exact .stops hm
  | succ n ih =>
    unfold runLoop
    split
    · exact .fails _
    · next hroute => exact .finishes (detectHandoff_of_route o rt hroute) _ _
    · next hroute =>
        have hm := moves_of_route o rt hroute
        dsimp only
        split
        · exact .raises hm _ _
        · split
          · next hgate => exact .gated hm hgate
          · next hgate => exact .goes hm hgate (ih _ _ _ _ _)

/-! ## What a run keeps -/

/-- The tools of a member: its own, its transfers and its workers, and `final_answer` if it has any. -/
def TeamMember.Binds (m : TeamMember) (name : String) : Prop :=
  name ∈ m.tools ∨ (∃ h ∈ m.handoffs, name = handoffPrefix ++ h)
    ∨ (∃ d ∈ m.delegates, name = delegatePrefix ++ d)
    ∨ name = finalAnswerTool ∧ (m.tools ≠ [] ∨ m.handoffs ≠ [] ∨ m.delegates ≠ [])

/-- Control after a turn: the member whose transfer the turn calls first, or else the same one. -/
def Follows (d : Driven) (m : TeamMember) : Prop :=
  ∃ t, d.outcome = .returned t ∧
    ((∃ target, CallsTransfer d.member t.result target ∧ o.team.get target = some m)
      ∨ (∀ call ∈ t.result.toolCalls, ¬ NamesTransfer d.member call) ∧ m = d.member)

def Driven.handsTo (d : Driven) : Option String :=
  match d.outcome with
  | .returned t => if d.synthesis then none else detectHandoff t.result d.member
  | .raised .. => none

def Edge (team : AgentTeam) (a b : String) : Prop := ∃ m, team.get a = some m ∧ b ∈ m.handoffs

/-- Control in a run. -/
structure Controlled (run : TeamRun ω) : Prop where
  tools : ∀ d ∈ run.driven, d.synthesis = false → ∀ name,
    name ∈ d.call.context.toolNames ↔ d.member.Binds name
  entry : ∀ d ∈ run.driven.head?, o.team.get o.team.entry = some d.member
  switches : run.driven.IsChain (fun d d' => d.synthesis = false ∧ Follows o d d'.member)
  final : ∀ res, run.ends = .ok res → ∃ d m, run.driven.getLast? = some d ∧ m.name = res.finalAgent
    ∧ (d.synthesis = true ∧ m = d.member ∨ d.synthesis = false ∧ Follows o d m)
  trail : ∀ res, run.ends = .ok res →
    res.handoffChain = o.team.entry :: run.driven.filterMap Driven.handsTo
  path : ∀ res, run.ends = .ok res → res.handoffChain.IsChain (Edge o.team)
  gated : ∀ d ∈ run.driven, d.synthesis = false → ∀ t, d.outcome = .returned t → ∀ exc,
    failClosedOnGatedTool t.result "multi_agent" = .error exc → run.ends = .error exc
  bounded : ((run.driven.filter (!·.synthesis)).length : Int) ≤ max 1 o.maxTurns
    ∧ (run.driven.filter (·.synthesis)).length ≤ 1

theorem mem_toolNames (m : TeamMember) (task : Option TurnTask) (name : String) :
    name ∈ (o.memberCall m task).context.toolNames ↔ m.Binds name := by
  have hnames : name ∈ m.tools ++ m.handoffs.map (handoffPrefix ++ ·)
        ++ m.delegates.map (delegatePrefix ++ ·)
      ↔ name ∈ m.tools ∨ (∃ h ∈ m.handoffs, name = handoffPrefix ++ h)
        ∨ ∃ d ∈ m.delegates, name = delegatePrefix ++ d := by
    simp only [List.mem_append, List.mem_map, or_assoc, eq_comm]
  simp only [Orchestrator.memberCall, Orchestrator.ctx]
  split
  · next hnone =>
      simp only [List.append_eq_nil_iff, List.map_eq_nil_iff] at hnone
      obtain ⟨⟨htools, hhandoffs⟩, hdelegates⟩ := hnone
      simp [TeamMember.Binds, htools, hhandoffs, hdelegates]
  · next hsome =>
      have hedges : m.tools ≠ [] ∨ m.handoffs ≠ [] ∨ m.delegates ≠ [] := by
        by_contra hnone
        push Not at hnone
        simp [hnone] at hsome
      rw [List.mem_append, hnames, List.mem_singleton, TeamMember.Binds]
      simp only [hedges, and_true, or_assoc]

variable {o}
variable {n : Nat} {active : TeamMember} {result : RunResult} {chain chain' : List String}
variable {turns : List (String × RunResult)} {driven : List Driven}
variable {ends : Except String MultiAgentResult} {next : TeamMember}

theorem Moves.follows (h : Moves o active result chain next chain') {d : Driven} {t : TurnTrace}
    (hmember : d.member = active) (houtcome : d.outcome = .returned t) (hresult : t.result = result) :
    Follows o d next := by
  refine ⟨t, houtcome, ?_⟩
  rw [hmember, hresult]
  cases h with
  | hands hcall hget => exact .inl ⟨_, callsTransfer_of_detectHandoff hcall, hget⟩
  | stays hcall => exact .inr ⟨detectHandoff_eq_none.1 hcall, rfl⟩

theorem Moves.chain_eq (h : Moves o active result chain next chain') :
    chain' = chain ++ (detectHandoff result active).toList := by
  cases h with
  | hands hcall hget => rw [hcall, AgentTeam.name_of_get hget]; rfl
  | stays hcall => rw [hcall]; simp

/-- The trail ends with the active member, and goes along declared handoffs. -/
structure OnPath (o : Orchestrator) (active : TeamMember) (chain : List String) : Prop where
  last : chain.getLast? = some active.name
  member : o.team.get active.name = some active
  path : chain.IsChain (Edge o.team)

theorem Moves.onPath (h : Moves o active result chain next chain') (hp : OnPath o active chain) :
    OnPath o next chain' := by
  cases h with
  | stays => exact hp
  | @hands target _ hcall hget =>
    have hname := AgentTeam.name_of_get hget
    obtain ⟨_, _, _, _, hdeclared, _, _⟩ := callsTransfer_of_detectHandoff hcall
    refine ⟨by simp, by rw [hname]; exact hget,
      List.isChain_append.2 ⟨hp.path, List.IsChain.singleton _, ?_⟩⟩
    intro a ha b hb
    rw [hp.last, Option.mem_some_iff] at ha
    rw [List.head?_cons, Option.mem_some_iff] at hb
    rw [← ha, ← hb, hname]
    exact ⟨active, hp.member, hdeclared⟩

section

variable (h : Loops o n active turns result chain driven chain' ends)

include h

theorem Loops.tools : ∀ d ∈ driven, d.synthesis = false → ∀ name,
      name ∈ d.call.context.toolNames ↔ d.member.Binds name := by
  induction h with
  | fails | finishes | stops => simp
  | synthesizes | synthesisRaises => simp
  | raises | gated =>
    intro d hd _ name
    obtain rfl := List.mem_singleton.1 hd
    exact mem_toolNames o _ none name
  | goes _ _ _ ih =>
    intro d hd hturn name
    rcases List.mem_cons.1 hd with rfl | hd
    · exact mem_toolNames o _ none name
    · exact ih d hd hturn name

theorem Loops.switches {first : Driven}
    {t : TurnTrace} (hturn : first.synthesis = false) (hmember : first.member = active)
    (houtcome : first.outcome = .returned t) (hresult : t.result = result) :
    (first :: driven).IsChain (fun d d' => d.synthesis = false ∧ Follows o d d'.member) := by
  induction h generalizing first t with
  | fails | finishes | stops => exact List.IsChain.singleton _
  | synthesizes hm | synthesisRaises hm | raises hm | gated hm =>
    exact List.isChain_cons_cons.2
      ⟨⟨hturn, hm.follows hmember houtcome hresult⟩, List.IsChain.singleton _⟩
  | goes hm _ _ ih =>
    exact List.isChain_cons_cons.2 ⟨⟨hturn, hm.follows hmember houtcome hresult⟩,
      ih rfl rfl rfl rfl⟩

variable {res : MultiAgentResult}

theorem Loops.final {first : Driven}
    {t : TurnTrace} (hturn : first.synthesis = false) (hmember : first.member = active)
    (houtcome : first.outcome = .returned t) (hresult : t.result = result)
    (hres : ends = .ok res) : ∃ d m, (first :: driven).getLast? = some d ∧ m.name = res.finalAgent
      ∧ (d.synthesis = true ∧ m = d.member ∨ d.synthesis = false ∧ Follows o d m) := by
  induction h generalizing first t with
  | fails | synthesisRaises | raises | gated => cases hres
  | @finishes _ active _ _ _ hcall =>
    cases hres
    refine ⟨first, active, rfl, rfl, .inr ⟨hturn, t, houtcome, .inr ?_⟩⟩
    rw [hmember, hresult]
    exact ⟨detectHandoff_eq_none.1 hcall, rfl⟩
  | @stops _ next _ _ _ _ hm =>
    cases hres
    exact ⟨first, next, rfl, rfl, .inr ⟨hturn, hm.follows hmember houtcome hresult⟩⟩
  | @synthesizes _ next =>
    cases hres
    exact ⟨_, next, rfl, rfl, .inl ⟨rfl, rfl⟩⟩
  | goes _ _ _ ih =>
    rw [List.getLast?_cons_cons]
    exact ih rfl rfl rfl rfl hres

theorem Loops.trail (hres : ends = .ok res) : res.handoffChain
      = chain ++ (detectHandoff result active).toList ++ driven.filterMap Driven.handsTo := by
  induction h with
  | fails | synthesisRaises | raises | gated => cases hres
  | finishes hcall =>
    cases hres
    simp [hcall, finish]
  | stops hm =>
    cases hres
    simp [hm.chain_eq, finish]
  | synthesizes hm =>
    cases hres
    simp [hm.chain_eq, finish, Driven.handsTo]
  | @goes _ _ next _ _ _ _ _ t _ _ hm _ _ ih =>
    rw [ih hres, hm.chain_eq, List.filterMap_cons]
    cases hnext : detectHandoff t.result next <;> simp [Driven.handsTo, hnext]

theorem Loops.path (hp : OnPath o active chain)
    (hres : ends = .ok res) : res.handoffChain.IsChain (Edge o.team) := by
  induction h with
  | fails | synthesisRaises | raises | gated => cases hres
  | finishes =>
    cases hres
    exact hp.path
  | stops hm | synthesizes hm =>
    cases hres
    exact (hm.onPath hp).path
  | goes hm _ _ ih => exact ih (hm.onPath hp) hres

theorem Loops.gated_ends : ∀ d ∈ driven, d.synthesis = false → ∀ t, d.outcome = .returned t → ∀ exc,
      failClosedOnGatedTool t.result "multi_agent" = .error exc → ends = .error exc := by
  induction h with
  | fails | finishes | stops => simp
  | synthesizes | synthesisRaises => simp
  | raises =>
    intro d hd _ t ht
    obtain rfl := List.mem_singleton.1 hd
    cases ht
  | gated _ hgate =>
    intro d hd _ t ht exc hexc
    obtain rfl := List.mem_singleton.1 hd
    cases ht
    rw [hgate] at hexc
    cases hexc
    rfl
  | goes _ hgate _ ih =>
    intro d hd hturn t ht exc hexc
    rcases List.mem_cons.1 hd with rfl | hd
    · cases ht
      rw [hgate] at hexc
      cases hexc
    · exact ih d hd hturn t ht exc hexc

theorem Loops.bounded :
    (driven.filter (!·.synthesis)).length ≤ n ∧ (driven.filter (·.synthesis)).length ≤ 1 := by
  induction h with
  | fails | finishes | stops => simp
  | synthesizes | synthesisRaises => simp
  | raises | gated => simp
  | goes _ _ _ ih => simpa using ih

end

end

/-! ## A denied transfer -/

/-- The active member changes when a transfer of it was executed with success, and only then. -/
def SwitchesOnSuccess {ω : Type} (run : TeamRun ω) : Prop :=
  run.driven.IsChain (fun d d' => ∀ t, d.outcome = .returned t →
    (d'.member ≠ d.member ↔ ∃ ret ∈ t.result.toolReturns, ret.outcome = "success"
      ∧ ∃ h ∈ d.member.handoffs, ret.toolName = handoffPrefix ++ h))

private def exactNames : NameMatcher := ⟨id, fun _ _ => [], fun _ _ => false⟩

private def denying : ToolExecutor := fun tool _ =>
  { toolCallId := "", toolName := tool, outcome := "denied",
    metadata := Dict.set KeyedList.empty "error_code" (.str "CAPABILITY_DENIED") }

/-- A model that calls a transfer in its first turn and answers in the next one. -/
private def transferring : TeamRuntime Bool where
  turn
    | false, call =>
      let calls : List ToolCallRecord := [{ toolCallId := "1", toolName := "transfer_to_b" }]
      let returns := executeToolCalls exactNames call.context.toolNames (some denying) calls
      (.returned (.turn { toolCalls := calls, toolReturns := returns } [] []), true)
    | true, _ => (.returned (.turn { outputText := some "done" } [] []), true)
  reinject w _ _ := (.ok (), w)

private def pair : AgentTeam where
  members := [{ name := "a", handoffs := ["b"] }, { name := "b" }]
  entry := "a"

end Himmy.Teams
