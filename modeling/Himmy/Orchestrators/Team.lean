import Himmy.Runtime.AgentLoop

/-! # Teams

`MultiAgentOrchestrator` routes a prompt through the members of a team on one thread. A member hands
over to a peer by a call of `transfer_to_<peer>`, which the orchestrator looks for between turns, and
asks a worker by a call of `ask_<worker>`, whose handler runs the worker in a thread of its own.

The runtime is a `TeamRuntime`: it takes the arguments of a turn to the turn as it went. A `TurnTrace`
is a turn with everything that was run inside it, and a run keeps the turns it made. -/

namespace Himmy.Teams

open Himmy.Runtime

/-! ## Teams -/

/-- `TeamMember`; its persona is named by its agent. -/
structure TeamMember where
  name : String
  persona : String := ""
  tools : List String := []
  modelKey : String := "default"
  handoffs : List String := []
  delegates : List String := []
  deriving DecidableEq

structure AgentTeam where
  members : List TeamMember
  entry : String

def AgentTeam.get (team : AgentTeam) (name : String) : Option TeamMember :=
  team.members.find? (fun m => m.name = name)

def AgentTeam.require (team : AgentTeam) (name : String) : Except String TeamMember :=
  match team.get name with
  | some m => .ok m
  | none => .error ("team has no member " ++ name)

def handoffPrefix : String := "transfer_to_"

def delegatePrefix : String := "ask_"

/-! ## Turns -/

/-- The context of a turn. -/
structure TurnContext where
  modelKey : String
  toolNames : List String
  contextSubjectId : Option String := none
  deriving DecidableEq

/-- The `LLMConfig` of a turn. -/
structure TurnConfig where
  modelKey : String
  temperature : Rat
  responseFormat : Option ResponseFormat := none
  deriving DecidableEq

/-- A task that opens a turn. -/
structure TurnTask where
  title : String
  prompt : String
  deriving DecidableEq

/-- The arguments of `run_task_detailed`, or of `continue_turn` when there is no task. -/
structure TurnCall where
  persona : String
  task : Option TurnTask
  context : TurnContext
  config : TurnConfig
  deriving DecidableEq

mutual

/-- A turn: its result, the costs of the summaries that the compaction of its thread asked for, and
    the sub-runs of the workers that were asked in it. -/
inductive TurnTrace where
  | turn (result : RunResult) (summaries : List Rat) (delegations : List Delegation)

/-- The sub-run of a worker: its turns, and the costs of what was inferred in a turn that raised. -/
inductive Delegation where
  | ran (worker : String) (turns : List TurnTrace) (raised : List Rat)

end

def TurnTrace.result : TurnTrace → RunResult
  | .turn result _ _ => result

/-- How a turn ends: it raises, after what was inferred in it. -/
inductive TurnOutcome where
  | returned (t : TurnTrace)
  | raised (exc : String) (spent : List Rat)

/-- The runtime under an orchestrator. -/
structure TeamRuntime (ω : Type) where
  turn : ω → TurnCall → TurnOutcome × ω
  /-- `reinject_system_prompt`, and the event of the handoff -/
  reinject : ω → TeamMember → TurnContext → Except String Unit × ω

/-! ## Approval gates -/

variable (result : RunResult)

def gatedToolDenied : Option String :=
  let denied := (result.toolReturns.filter RunResult.deniedForApproval).map (·.toolCallId)
  (result.toolCalls.find? (fun call => call.toolCallId ∈ denied)).map (·.toolName)

def hitlUnsupportedMarker : String := "__hitl_unsupported__"

def itemOf (items : List (String × Value)) (key : String) : Value :=
  ((items.find? (fun kv => kv.1 = key)).map Prod.snd).getD .null

def delegateMarker : Option (List (String × Value)) :=
  result.toolReturns.findSome? fun ret => match ret.content with
    | .dict items => if (itemOf items hitlUnsupportedMarker).truthy then some items else none
    | _ => none

def strOr (value : Value) (default : String) : String :=
  if value.truthy then value.pyStr else default

/-- The tool that `_fail_closed_on_gated_tool` names, and the kind and the worker of its run. -/
def gatedTool (kind : String) : Option (String × String × Option String) :=
  match gatedToolDenied result with
  | some tool => some (tool, kind, none)
  | none => (delegateMarker result).map fun marker =>
    (strOr (itemOf marker "tool") "", strOr (itemOf marker "kind") kind,
      if (itemOf marker "worker").truthy then some (itemOf marker "worker").pyStr else none)

def failClosedOnGatedTool (kind : String) : Except String Unit :=
  match gatedTool result kind with
  | none => .ok ()
  | some (tool, kind, worker) =>
    if tool = "" then .ok ()
    else .error ("approval-gated tool '" ++ tool ++ "' was called inside a " ++ kind ++ " run"
      ++ (match worker with
        | some worker => " (delegated to worker '" ++ worker ++ "')"
        | none => "")
      ++ ", but human-in-the-loop approval is not supported for the " ++ kind
      ++ " kind (use a workflow or a graph team for HITL); the tool was NOT executed.")

/-! ## The orchestrator -/

/-- `MultiAgentOrchestrator`, wired to a team; `subject` is the `context_subject_id` of its run. -/
structure Orchestrator where
  team : AgentTeam
  maxTurns : Int := 12
  defaultTemperature : Rat := 1 / 10
  delegateMaxTurns : Int := 6
  synthesizeOnMaxTurns : Bool := true
  subject : Option String := none

variable (o : Orchestrator) (member : TeamMember)

def Orchestrator.ctx : TurnContext :=
  let names := member.tools ++ member.handoffs.map (handoffPrefix ++ ·)
    ++ member.delegates.map (delegatePrefix ++ ·)
  { modelKey := member.modelKey
    toolNames := if names = [] then names else names ++ [finalAnswerTool]
    contextSubjectId := o.subject }

def Orchestrator.cfg : TurnConfig where
  modelKey := member.modelKey
  temperature := o.defaultTemperature
  responseFormat :=
    if member.tools ≠ [] ∨ member.handoffs ≠ [] ∨ member.delegates ≠ [] then some .autoTools else none

/-- `_detect_handoff`: the target of the first call that names a transfer of the member. -/
def detectHandoff (active : TeamMember) : Option String :=
  let allowed := active.handoffs.map (handoffPrefix ++ ·)
  (result.toolCalls.find? (fun call => call.toolName ∈ allowed)).map
    (fun call => String.ofList (call.toolName.toList.drop handoffPrefix.length))

def Orchestrator.memberCall (task : Option TurnTask) : TurnCall :=
  ⟨member.persona, task, o.ctx member, o.cfg member⟩

def synthesisNudge : String :=
  "You have already gathered the information you need from the tools above. "
    ++ "Now answer the user's original question directly and completely, using only "
    ++ "those results. Do not call any tools."

/-- The turn of `_synthesize`. -/
def Orchestrator.synthesisCall : TurnCall where
  persona := member.persona
  task := some ⟨"synthesis", synthesisNudge⟩
  context := { modelKey := member.modelKey, toolNames := [], contextSubjectId := o.subject }
  config := { modelKey := member.modelKey, temperature := o.defaultTemperature }

/-- What the handler of `ask_<worker>` returns, of the sub-run of the worker. -/
def delegateReturn (worker : String) (loop : AgentLoopResult) : Value :=
  match loop.turns.findSome? gatedToolDenied with
  | some tool => .dict [(hitlUnsupportedMarker, .bool true), ("kind", .str "multi_agent delegate"),
      ("tool", .str tool), ("worker", .str worker)]
  | none => .dict [("agent", .str worker),
      ("answer", .str (pyOr (loop.turns.getLast?.bind (·.outputText)) ""))]

structure MultiAgentResult where
  turns : List (String × RunResult)
  finalAgent : String
  outputText : Option String
  handoffChain : List String
  stoppedReason : String
  totalCost : Rat

def finish (turns : List (String × RunResult)) (finalAgent : String) (chain : List String)
    (reason : String) (answer : Option String) : MultiAgentResult where
  turns := turns
  finalAgent := finalAgent
  outputText := match answer with
    | some answer => some answer
    | none => turns.getLast?.bind (fun t => t.2.outputText)
  handoffChain := chain
  stoppedReason := reason
  totalCost := (turns.map (fun t => t.2.cost)).sum

/-! ## A run -/

/-- A turn that a run made: who was active, and whether it was the synthesis. -/
structure Driven where
  member : TeamMember
  synthesis : Bool := false
  call : TurnCall
  outcome : TurnOutcome

/-- A run: its turns, the trail of the handoffs, and its result or what it raised. -/
structure TeamRun (ω : Type) where
  driven : List Driven
  chain : List String
  ends : Except String MultiAgentResult
  world : ω

/-- Where the loop goes after a turn, before it looks at `max_turns`. -/
inductive Routing where
  | finished (reason : String) (answer : Option String)
  | goesOn (active : TeamMember) (chain : List String)

section

variable {ω : Type} (rt : TeamRuntime ω) (o : Orchestrator)

def route (active : TeamMember) (turns : List (String × RunResult)) (result : RunResult)
    (chain : List String) (w : ω) : Except String Routing × ω :=
  match detectHandoff result active with
  | some target => match o.team.require target with
    | .error exc => (.error exc, w)
    | .ok member => match rt.reinject w member (o.ctx member) with
      | (.error exc, w) => (.error exc, w)
      | (.ok _, w) => (.ok (.goesOn member (chain ++ [member.name])), w)
  | none => match result.finalAnswerText with
    | some answer => (.ok (.finished "final_answer" (some answer)), w)
    | none =>
      if result.toolCalls = [] then (.ok (.finished "final" none), w)
      else if isNoProgress (turns.map Prod.snd) then (.ok (.finished "no_progress" none), w)
      else (.ok (.goesOn active chain), w)

def exhausted (active : TeamMember) (turns : List (String × RunResult)) (result : RunResult)
    (chain : List String) (w : ω) : TeamRun ω :=
  if o.synthesizeOnMaxTurns && result.toolCalls ≠ [] && result.finalAnswerText.isNone then
    let call := o.synthesisCall active
    match rt.turn w call with
    | (.raised exc spent, w) => ⟨[⟨active, true, call, .raised exc spent⟩], chain, .error exc, w⟩
    | (.returned t, w) =>
      let synth := t.result
      ⟨[⟨active, true, call, .returned t⟩], chain, .ok (finish (turns ++ [(active.name, synth)])
        active.name chain "max_turns_synthesized" ((orNone synth.finalAnswerText).or synth.outputText)),
        w⟩
  else ⟨[], chain, .ok (finish turns active.name chain "max_turns" none), w⟩

/-- The loop of `_run_team`, after a turn; `remaining` is `max_turns - len(turns)`. -/
def runLoop : Nat → TeamMember → List (String × RunResult) → RunResult → List String → ω → TeamRun ω
  | remaining, active, turns, result, chain, w =>
    match route rt o active turns result chain w with
    | (.error exc, w) => ⟨[], chain, .error exc, w⟩
    | (.ok (.finished reason answer), w) =>
      ⟨[], chain, .ok (finish turns active.name chain reason answer), w⟩
    | (.ok (.goesOn active chain), w) => match remaining with
      | 0 => exhausted rt o active turns result chain w
      | remaining + 1 =>
        let call := o.memberCall active none
        match rt.turn w call with
        | (.raised exc spent, w) => ⟨[⟨active, false, call, .raised exc spent⟩], chain, .error exc, w⟩
        | (.returned t, w) => match failClosedOnGatedTool t.result "multi_agent" with
          | .error exc => ⟨[⟨active, false, call, .returned t⟩], chain, .error exc, w⟩
          | .ok _ =>
            let rest := runLoop remaining active (turns ++ [(active.name, t.result)]) t.result chain w
            { rest with driven := ⟨active, false, call, .returned t⟩ :: rest.driven }

def runTeam (prompt : String) (w : ω) : TeamRun ω :=
  match o.team.require o.team.entry with
  | .error exc => ⟨[], [], .error exc, w⟩
  | .ok active =>
    let call := o.memberCall active (some ⟨active.name ++ "-entry", prompt⟩)
    match rt.turn w call with
    | (.raised exc spent, w) => ⟨[⟨active, false, call, .raised exc spent⟩], [active.name], .error exc, w⟩
    | (.returned t, w) => match failClosedOnGatedTool t.result "multi_agent" with
      | .error exc => ⟨[⟨active, false, call, .returned t⟩], [active.name], .error exc, w⟩
      | .ok _ =>
        let rest := runLoop rt o (o.maxTurns - 1).toNat active [(active.name, t.result)] t.result
          [active.name] w
        { rest with driven := ⟨active, false, call, .returned t⟩ :: rest.driven }

end

end Himmy.Teams
