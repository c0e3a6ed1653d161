import Himmy.Orchestrators.Team

/-! # Group chats and fan-outs

`GroupChatOrchestrator` lets a selector choose who of a team speaks next on one thread, until a final
answer, a termination predicate or `max_rounds`. `fan_out` runs a worker for each subtask, each in a
thread of its own, and joins their results in the order of the subtasks. -/

namespace Himmy.Teams

open Himmy.Runtime

/-! ## Selectors -/

structure SelectionContext where
  candidates : List String
  lastSpeaker : Option String
  roundIndex : Nat
  transcript : List (String × String)

/-- What a selector comes to, and the costs of the inferences it made. -/
structure Selection where
  pick : Except String String
  spent : List Rat := []

/-- `RoundRobinSelector.select`. -/
def roundRobin (context : SelectionContext) : Except String String :=
  match context.candidates with
  | [] => .error "RoundRobinSelector: no candidates to choose from"
  | first :: rest =>
    let candidates := first :: rest
    match context.lastSpeaker with
    | none => .ok first
    | some last =>
      if last ∈ candidates then
        .ok (candidates.getD ((candidates.idxOf last + 1) % candidates.length) first)
      else .ok first

/-- The response of the model that `LLMSelector` asks. -/
structure SelectorResponse where
  success : Bool := true
  outputStructured : Value := .null
  cost : Rat := 0

/-- `LLMSelector.select`; the model does not respond when its call raises. -/
def llmSelect (response : Option SelectorResponse) (context : SelectionContext) : Selection :=
  match context.candidates with
  | [] => { pick := .error "LLMSelector: no candidates to choose from" }
  | [only] => { pick := .ok only }
  | candidates => match response with
    | none => { pick := roundRobin context }
    | some response =>
      { spent := [response.cost]
        pick :=
          if !response.success || !response.outputStructured.truthy then roundRobin context
          else match response.outputStructured with
            | .dict items => match itemOf items "next_speaker" with
              | .str pick => if pick ∈ candidates then .ok pick else roundRobin context
              | _ => roundRobin context
            | _ => .error "object has no attribute 'get'" }

/-! ## Group chats -/

/-- The runtime under a group chat, and its selector. -/
structure ChatRuntime (ω : Type) extends TeamRuntime ω where
  select : ω → SelectionContext → Selection × ω
  /-- `not thread.messages` -/
  threadEmpty : ω → Bool
  /-- `terminate_when` -/
  terminates : String → RunResult → Bool := fun _ _ => false

/-- `GroupChatOrchestrator`, wired to a team. -/
structure ChatOrchestrator where
  team : AgentTeam
  maxRounds : Int := 8
  defaultTemperature : Rat := 1 / 10
  speakers : List String
  allowFinalAnswer : Bool := true

def ChatOrchestrator.ctx (o : ChatOrchestrator) (member : TeamMember) : TurnContext where
  modelKey := member.modelKey
  toolNames := member.tools ++ (if o.allowFinalAnswer then [finalAnswerTool] else [])

def ChatOrchestrator.cfg (o : ChatOrchestrator) (member : TeamMember) : TurnConfig where
  modelKey := member.modelKey
  temperature := o.defaultTemperature
  responseFormat := if member.tools ≠ [] ∨ o.allowFinalAnswer then some .autoTools else none

structure GroupChatResult where
  turns : List (String × RunResult)
  speakerOrder : List String
  finalSpeaker : String
  outputText : Option String
  stoppedReason : String
  totalCost : Rat

/-- A round: its selection, and the turn of the speaker if there was one. -/
structure Round where
  selection : Selection
  outcome : Option TurnOutcome := none

/-- A chat: its rounds, and its result or what it raised. -/
structure ChatRun (ω : Type) where
  rounds : List Round
  ends : Except String GroupChatResult
  world : ω

section

variable {ω : Type} (rt : ChatRuntime ω) (o : ChatOrchestrator)

/-- `_speak`: the turn, or what the injection of the persona raised. -/
def speak (speaker : TeamMember) (prompt : Option String) (w : ω) : Except String TurnOutcome × ω :=
  let continued (w : ω) : Except String TurnOutcome × ω := match rt.reinject w speaker (o.ctx speaker) with
    | (.error exc, w) => (.error exc, w)
    | (.ok _, w) =>
      let (outcome, w) := rt.turn w ⟨speaker.persona, none, o.ctx speaker, o.cfg speaker⟩
      (.ok outcome, w)
  match prompt with
  | none => continued w
  | some prompt =>
    if rt.threadEmpty w then
      let (outcome, w) := rt.turn w
        ⟨speaker.persona, some ⟨speaker.name ++ "-open", prompt⟩, o.ctx speaker, o.cfg speaker⟩
      (.ok outcome, w)
    else continued w

def chatFinish (turns : List (String × RunResult)) (order : List String) (finalSpeaker reason : String)
    (answer : Option String) : GroupChatResult where
  turns := turns
  speakerOrder := order
  finalSpeaker := finalSpeaker
  outputText := answer
  stoppedReason := reason
  totalCost := (turns.map (fun t => t.2.cost)).sum

/-- The state of the loop of `run`. -/
structure ChatState where
  turns : List (String × RunResult) := []
  order : List String := []
  transcript : List (String × String) := []
  lastSpeaker : Option String := none

/-- The loop of `run`; `remaining` is `max_rounds - len(turns) - 1`, and `prompt` is set in the first
    round. -/
def chatLoop : Nat → Option String → ChatState → ω → ChatRun ω
  | remaining, prompt, st, w =>
    let (selection, w) := rt.select w ⟨o.speakers, st.lastSpeaker, st.turns.length, st.transcript⟩
    match selection.pick.bind o.team.require with
    | .error exc => ⟨[⟨selection, none⟩], .error exc, w⟩
    | .ok speaker =>
      match speak rt o speaker prompt w with
      | (.error exc, w) => ⟨[⟨selection, none⟩], .error exc, w⟩
      | (.ok (.raised exc spent), w) => ⟨[⟨selection, some (.raised exc spent)⟩], .error exc, w⟩
      | (.ok (.returned t), w) =>
        let here : Round := ⟨selection, some (.returned t)⟩
        match failClosedOnGatedTool t.result "group_chat" with
        | .error exc => ⟨[here], .error exc, w⟩
        | .ok _ =>
          let result := t.result
          let spoken := result.outputText.getD ""
          let st : ChatState := {
            turns := st.turns ++ [(speaker.name, result)], order := st.order ++ [speaker.name],
            transcript := st.transcript ++ [(speaker.name, spoken)], lastSpeaker := some speaker.name }
          let ended (reason : String) (answer : String) : ChatRun ω :=
            ⟨[here], .ok (chatFinish st.turns st.order speaker.name reason (some answer)), w⟩
          match result.finalAnswerText with
          | some answer => ended "final_answer" answer
          | none =>
            if rt.terminates speaker.name result then ended "terminated" spoken
            else match remaining with
              | 0 => ended "max_rounds" spoken
              | remaining + 1 =>
                let rest := chatLoop remaining none st w
                { rest with rounds := here :: rest.rounds }

/-- `GroupChatOrchestrator.run`, which its constructor lets no chat without a round reach. -/
def runChat (prompt : String) (w : ω) : ChatRun ω :=
  chatLoop rt o (o.maxRounds - 1).toNat (some prompt) {} w

end

def stopAfter (terminates : String → RunResult → Bool) (remaining : Nat) (name : String)
    (result : RunResult) : Option (String × String) :=
  match result.finalAnswerText with
  | some answer => some ("final_answer", answer)
  | none =>
    if terminates name result then some ("terminated", result.outputText.getD "")
    else if remaining = 0 then some ("max_rounds", result.outputText.getD "") else none

theorem chatLoop_cases {ω : Type} (rt : ChatRuntime ω) (o : ChatOrchestrator) (remaining : Nat)
    (opening : Option String) (st : ChatState) {w w₁ : ω} {selection : Selection}
    (hselect : rt.select w ⟨o.speakers, st.lastSpeaker, st.turns.length, st.transcript⟩ = (selection, w₁)) :
    (∃ exc, selection.pick.bind o.team.require = .error exc
      ∧ chatLoop rt o remaining opening st w = ⟨[⟨selection, none⟩], .error exc, w₁⟩)
    ∨ ∃ speaker answer w', selection.pick.bind o.team.require = .ok speaker
      ∧ speak rt o speaker opening w₁ = (answer, w')
      ∧ ((∃ exc outcome, chatLoop rt o remaining opening st w = ⟨[⟨selection, outcome⟩], .error exc, w'⟩)
        ∨ ∃ t, answer = .ok (.returned t)
          ∧ ((∃ reason text, stopAfter rt.terminates remaining speaker.name t.result = some (reason, text)
              ∧ chatLoop rt o remaining opening st w = ⟨[⟨selection, some (.returned t)⟩],
                .ok (chatFinish (st.turns ++ [(speaker.name, t.result)]) (st.order ++ [speaker.name])
                  speaker.name reason (some text)), w'⟩) ∨ ∃ n st', remaining = n + 1
              ∧ stopAfter rt.terminates remaining speaker.name t.result = none
              ∧ st'.turns = st.turns ++ [(speaker.name, t.result)]
              ∧ st'.order = st.order ++ [speaker.name] ∧ chatLoop rt o remaining opening st w
                = { chatLoop rt o n none st' w' with
                    rounds := ⟨selection, some (.returned t)⟩ :: (chatLoop rt o n none st' w').rounds })) := by
  have hrun := chatLoop.eq_def rt o remaining opening st w
  simp only [hselect] at hrun
  cases hpick : selection.pick.bind o.team.require with
  | error exc =>
    rw [hpick] at hrun
    exact Or.inl ⟨exc, rfl, hrun⟩
  | ok speaker =>
    obtain ⟨answer, w', hspeak⟩ : ∃ answer w', speak rt o speaker opening w₁ = (answer, w') :=
      ⟨_, _, rfl⟩
    rw [hpick] at hrun
    simp only [hspeak] at hrun
    refine Or.inr ⟨speaker, answer, w', rfl, hspeak, ?_⟩
    rcases answer with exc | ⟨t | ⟨exc, spent⟩⟩
    · exact Or.inl ⟨exc, none, hrun⟩
    · cases hgate : failClosedOnGatedTool t.result "group_chat" with
      | error exc =>
        simp only [hgate] at hrun
        exact Or.inl ⟨exc, _, hrun⟩
      | ok _ =>
        refine Or.inr ⟨t, rfl, ?_⟩
        simp only [hgate] at hrun
        unfold stopAfter
        cases hfinal : t.result.finalAnswerText with
        | some text =>
          simp only [hfinal] at hrun
          exact Or.inl ⟨_, _, rfl, hrun⟩
        | none =>
          simp only [hfinal] at hrun
          by_cases hterminates : rt.terminates speaker.name t.result = true
          · rw [if_pos hterminates] at hrun
            exact Or.inl ⟨_, _, if_pos hterminates, hrun⟩
          · rw [if_neg hterminates] at hrun
            cases remaining with
            | zero => exact Or.inl ⟨_, _, (if_neg hterminates).trans (if_pos rfl), hrun⟩
            | succ n =>
              exact Or.inr ⟨n, _, rfl, (if_neg hterminates).trans (if_neg (by simp)), rfl, rfl, hrun⟩
    · exact Or.inl ⟨exc, _, hrun⟩

/-! ## Fan-outs -/

structure SubtaskSpec where
  worker : String
  objective : String
  inputs : Dict Value := KeyedList.empty

structure SubtaskResult where
  worker : String
  answer : String := ""
  data : Dict Value := KeyedList.empty
  ok : Bool := true
  error : Option String := none

/-- The loop of a worker: its turns, and what it raised after them, with the costs of what was inferred
    in the turn that raised. -/
structure WorkerLoop where
  turns : List TurnTrace
  raised : Option (String × List Rat) := none

/-- What a fan-out runs its workers with: the loop of the worker of the `i`-th subtask, and
    `SubtaskResult.model_validate`. -/
structure Workers where
  loop : Nat → TeamMember → SubtaskSpec → WorkerLoop
  validate : List (String × Value) → Option SubtaskResult

def setItem (items : List (String × Value)) (key : String) (value : Value) : List (String × Value) :=
  if items.any (fun kv => kv.1 = key) then
    items.map (fun kv => if kv.1 = key then (key, value) else kv)
  else items ++ [(key, value)]

variable (workers : Workers)

def coerceResult (spec : SubtaskSpec) (run : RunResult) : SubtaskResult :=
  if !run.succeeded then
    { worker := spec.worker, ok := false, error := some (pyOr run.error "inference failed") }
  else
    let prose : SubtaskResult := { worker := spec.worker, answer := run.outputText.getD "" }
    match run.outputStructured with
    | .dict items => (workers.validate (setItem items "worker" (.str spec.worker))).getD prose
    | _ => prose

/-- A worker: its loop, its result, and the `fanout_cost` of its thread. -/
structure Worked where
  loop : WorkerLoop := { turns := [] }
  result : SubtaskResult
  fanoutCost : Option Rat := none

def runWorker (team : AgentTeam) (i : Nat) (spec : SubtaskSpec) : Worked :=
  match team.get spec.worker with
  | none => { result := { worker := spec.worker, ok := false,
                          error := some ("team has no member '" ++ spec.worker ++ "'") } }
  | some worker =>
    let loop := workers.loop i worker spec
    match loop.raised with
    | some (exc, _) => { loop, result := { worker := spec.worker, ok := false, error := some exc } }
    | none => match loop.turns.getLast? with
      | none => { loop, result := { worker := spec.worker, ok := false,
                                    error := some "list index out of range" } }
      | some last => { loop, result := coerceResult workers spec last.result,
                       fanoutCost := some (loop.turns.map (fun t => t.result.cost)).sum }

structure FanOutResult where
  results : List SubtaskResult := []
  totalCost : Rat := 0

/-- `fan_out`: its workers, and the join. -/
def fanOut (team : AgentTeam) (specs : List SubtaskSpec)
    (concurrency : Option Int) : Except String (List Worked × FanOutResult) :=
  if specs = [] then .ok ([], {})
  else if concurrency.any (· < 1) then .error "fan_out concurrency must be >= 1 when set."
  else
    let worked := specs.mapIdx (runWorker workers team)
    .ok (worked, { results := worked.map (·.result)
                   totalCost := (worked.map (fun w => w.fanoutCost.getD 0)).sum })

end Himmy.Teams
