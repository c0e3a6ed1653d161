import Himmy.Orchestrators.GroupChat
import Himmy.Runtime.SingleAgent

/-! # Discussions

The turns of a group chat are turns of one model on one thread: the first one opens an empty thread
with the prompt, the others change its system prompt to the one of the speaker and continue. A thread
that is not empty is continued from the start, so the prompt gets on no thread that a caller brings;
and whom the selector names is looked up in the team, not among the speakers. -/

namespace Himmy.Teams

open Himmy.Runtime

/-! ## The shared thread -/

/-- A request to the model: the turn it is made for, the system prompt that was rendered last, with
    its persona and its context, and the messages of the thread. -/
structure Asked where
  call : TurnCall
  rendered : Option (String × TurnContext × String)
  messages : List Message

/-- A thread, the system prompt that was rendered last for it, and the requests that were made. -/
structure SharedChat (σ : Type) where
  state : σ
  thread : ChatThread := {}
  rendered : Option (String × TurnContext × String) := none
  asked : List Asked := []

/-- The agents of a chat, on a runtime without a compactor. -/
structure ChatAgents (σ : Type) where
  settings : Runtime.TurnConfig
  /-- `_render_guarded_prompts` of a persona, a context and the prompt of a task -/
  render : σ → String → TurnContext → String → Except String (String × String) × σ
  /-- the response to a request, or what the turn raised and what was spent in it -/
  respond : σ → TurnCall → List Message → Except (String × List Rat) Runtime.InferenceResponse × σ
  select : σ → SelectionContext → Selection × σ
  terminates : String → RunResult → Bool := fun _ _ => false

def replaceSystem (system : Message) : List Message → Option (List Message)
  | [] => none
  | m :: messages =>
    if m.role = .system then some (system :: messages)
    else (replaceSystem system messages).map (m :: ·)

/-- `reinject_system_prompt`, of a system message. -/
def reinjected (system : Message) (thread : ChatThread) : ChatThread :=
  if (thread.messages.find? (fun m => m.role = .system)).any (fun m => m.content = system.content) then
    thread
  else
    { messages := (replaceSystem system thread.messages).getD (system :: thread.messages)
      version := thread.version + 1 }

namespace ChatAgents

variable {σ : Type} (agents : ChatAgents σ)

def ask (call : TurnCall) (finish : Runtime.InferenceResponse → RunResult × ChatThread) (w : SharedChat σ) :
    TurnOutcome × SharedChat σ :=
  let asked := w.asked ++ [⟨call, w.rendered, w.thread.messages⟩]
  match agents.respond w.state call w.thread.messages with
  | (.error (exc, spent), state) => (.raised exc spent, { w with state, asked })
  | (.ok response, state) =>
    let (result, thread) := finish response
    (.returned (.turn result [] []), { w with state, thread, asked })

/-- `run_task_detailed` and `continue_turn`. -/
def turn (w : SharedChat σ) (call : TurnCall) : TurnOutcome × SharedChat σ :=
  match call.task with
  | some task => match agents.render w.state call.persona call.context task.prompt with
    | (.error exc, state) => (.raised exc [], { w with state })
    | (.ok (system, text), state) =>
      let thread := runPrompts agents.settings system text w.thread
      agents.ask call (fun response => finishRun agents.settings response thread false)
        { w with state, thread, rendered := some (call.persona, call.context, system) }
  | none => agents.ask call (fun response => finishContinue agents.settings response w.thread) w

def reinject (w : SharedChat σ) (member : TeamMember) (context : TurnContext) :
    Except String Unit × SharedChat σ :=
  match agents.render w.state member.persona context "" with
  | (.error exc, state) => (.error exc, { w with state })
  | (.ok (system, _), state) =>
    (.ok (), { w with
      state, rendered := some (member.persona, context, system)
      thread := reinjected { role := .system, content := system,
                             metadata := Dict.ofList [("agent_id", .str member.persona)] } w.thread })

def runtime : ChatRuntime (SharedChat σ) where
  turn := agents.turn
  reinject := agents.reinject
  select w context :=
    let (selection, state) := agents.select w.state context
    (selection, { w with state })
  threadEmpty w := w.thread.messages.isEmpty
  terminates := agents.terminates

end ChatAgents

/-! ## What a discussion is -/

/-- The messages that pose a prompt, however it is rendered. -/
structure Question {σ : Type} (agents : ChatAgents σ) (prompt : String) where
  poses : Message → Bool
  user : ∀ m, poses m = true → m.role = .user
  rendered : ∀ s persona context system text, (agents.render s persona context prompt).1 = .ok (system, text) →
    poses { role := .user, content := agents.settings.guardInput text } = true

/-- The request is made for the member, with its tools and its model, and the system prompt that leads
    it is the one that was rendered for the member. -/
structure SpokenBy (o : ChatOrchestrator) (member : TeamMember) (a : Asked) : Prop where
  persona : a.call.persona = member.persona
  context : a.call.context = o.ctx member
  config : a.call.config = o.cfg member
  system : ∃ system, a.rendered = some (member.persona, o.ctx member, system)
    ∧ (((a.messages.find? (fun m => m.role = .system)).map Message.content).getD "" = system)

/-- What is made of the turns of a chat that ends: each is the turn of a speaker, and only the last
    one stops the chat, for the reason stated. -/
structure EndsAsStated (terminates : String → RunResult → Bool) (maxRounds : Nat)
    (names : List String) (result : GroupChatResult) : Prop where
  turns : result.turns.map Prod.fst = names
  order : result.speakerOrder = names
  stops : ∀ i name turn, result.turns[i]? = some (name, turn) →
    stopAfter terminates (maxRounds - (i + 1)) name turn
      = if i + 1 = result.turns.length then some (result.stoppedReason, result.outputText.getD "") else none
  final : ∃ before turn, result.turns = before ++ [(result.finalSpeaker, turn)]

/-- `max_rounds`, which is at least 1. -/
def ChatOrchestrator.rounds (o : ChatOrchestrator) : Nat := (o.maxRounds - 1).toNat + 1

/-- A group chat discusses the prompt among its speakers. -/
structure Discusses {σ : Type} {agents : ChatAgents σ} {prompt : String} (q : Question agents prompt)
    (o : ChatOrchestrator) (run : ChatRun (SharedChat σ)) : Prop where
  posed : ∀ a ∈ run.world.asked, a.messages.countP q.poses = 1
  allowed : ∀ round ∈ run.rounds, ∀ member, round.selection.pick.bind o.team.require = .ok member →
    member.name ∈ o.speakers
  spoken : ∃ speakers : List TeamMember, List.Forall₂ (SpokenBy o) speakers run.world.asked
    ∧ (∀ s ∈ speakers, ∃ round ∈ run.rounds, round.selection.pick.bind o.team.require = .ok s)
    ∧ speakers.length ≤ o.rounds
    ∧ ∀ result, run.ends = .ok result →
      EndsAsStated agents.terminates o.rounds (speakers.map TeamMember.name) result

/-! ## The prompt on the thread -/

section Thread

variable {p : Message → Bool} (hp : ∀ m, p m = true → m.role = .user)

include hp

theorem countP_replaceSystem {system : Message} (hsystem : system.role = .system)
    {messages messages' : List Message} (h : replaceSystem system messages = some messages') :
    messages'.countP p = messages.countP p := by
  have hnot : ∀ m : Message, m.role = .system → ¬ p m = true := fun m hm h => by
    rw [hp m h] at hm
    cases hm
  induction messages generalizing messages' with
  | nil => cases h
  | cons m messages ih =>
    unfold replaceSystem at h
    split_ifs at h with hrole
    · cases h
      rw [List.countP_cons_of_neg (hnot system hsystem), List.countP_cons_of_neg (hnot m hrole)]
    · obtain ⟨replaced, hreplaced, rfl⟩ := Option.map_eq_some_iff.1 h
      rw [List.countP_cons, List.countP_cons, ih hreplaced]

theorem countP_reinjected {system : Message} (hsystem : system.role = .system) (thread : ChatThread) :
    (reinjected system thread).messages.countP p = thread.messages.countP p := by
  unfold reinjected
  split
  · rfl
  · cases hreplaced : replaceSystem system thread.messages with
    | some messages => exact countP_replaceSystem hp hsystem hreplaced
    | none =>
      refine List.countP_cons_of_neg (fun h => ?_)
      rw [hp system h] at hsystem
      cases hsystem

theorem countP_answered (cfg : Runtime.TurnConfig) (response : Runtime.InferenceResponse)
    (thread : ChatThread) (isNewThread : Bool) :
    (finishRun cfg response thread isNewThread).2.messages.countP p = thread.messages.countP p
      ∧ (finishContinue cfg response thread).2.messages.countP p = thread.messages.countP p := by
  have hlater : ∀ m : Message, m.role ≠ .user → ¬ p m = true := fun m hm h => hm (hp m h)
  have htools : (toolMessages cfg.cap cfg.traceId response).countP p = 0 := by
    rw [List.countP_eq_zero]
    intro m hm
    obtain ⟨call, -, rfl⟩ := List.mem_map.1 hm
    exact hlater _ (by simp [toolMessage])
  have hrun := hlater (response.runMessage cfg.traceId (cfg.guardOutput response.answerText))
    (by simp [InferenceResponse.runMessage])
  have hcontinue := hlater (response.continueMessage cfg.traceId (cfg.guardOutput response.answerText))
    (by simp [InferenceResponse.continueMessage])
  refine ⟨?_, ?_⟩
  · cases isNewThread <;>
      simp [finishRun, appendToolMessages, List.countP_append, htools, hrun]
  · simp [finishContinue, appendToolMessages, List.countP_append, htools, hcontinue]

end Thread

theorem find?_replaceSystem {system : Message} (hsystem : system.role = .system)
    {messages messages' : List Message} (h : replaceSystem system messages = some messages') :
    messages'.find? (fun m => m.role = .system) = some system := by
  induction messages generalizing messages' with
  | nil => cases h
  | cons m messages ih =>
    unfold replaceSystem at h
    split_ifs at h with hrole
    · cases h
      exact List.find?_cons_of_pos (by simpa using hsystem)
    · obtain ⟨replaced, hreplaced, rfl⟩ := Option.map_eq_some_iff.1 h
      rw [List.find?_cons_of_neg (by simpa using hrole), ih hreplaced]

theorem find?_reinjected {system : Message} (hsystem : system.role = .system) (thread : ChatThread) :
    ((reinjected system thread).messages.find? (fun m => m.role = .system)).map Message.content
      = some system.content := by
  unfold reinjected
  split
  · next hsame =>
      obtain ⟨m, hm, hcontent⟩ := (Option.any_eq_true _ _).1 hsame
      rw [hm, Option.map_some, of_decide_eq_true hcontent]
  · cases hreplaced : replaceSystem system thread.messages with
    | some messages =>
      rw [Option.getD_some, find?_replaceSystem hsystem hreplaced, Option.map_some]
    | none =>
      rw [Option.getD_none, List.find?_cons_of_pos (by simpa using hsystem), Option.map_some]

/-! ## One turn -/

section Turn

variable {σ : Type} {agents : ChatAgents σ} {prompt : String} (q : Question agents prompt)
  (o : ChatOrchestrator) (member : TeamMember)

/-- How often the prompt is posed to the speaker of a round, on the thread that it finds. -/
def Question.onThread (opening : Option String) (thread : ChatThread) : Nat :=
  if opening.isSome ∧ thread.messages = [] then 1 else thread.messages.countP q.poses

theorem ask_spec (agents : ChatAgents σ) (call : TurnCall) (finish : Runtime.InferenceResponse → RunResult × ChatThread)
    (w : SharedChat σ) :
    (agents.ask call finish w).2.asked = w.asked ++ [⟨call, w.rendered, w.thread.messages⟩]
      ∧ ∀ t, (agents.ask call finish w).1 = .returned t →
        ∃ response, (agents.ask call finish w).2.thread = (finish response).2 := by
  unfold ChatAgents.ask
  dsimp only
  split
  · exact ⟨rfl, fun t ht => by cases ht⟩
  · next response state _ => exact ⟨rfl, fun t _ => ⟨response, rfl⟩⟩

theorem reinject_spec {context : TurnContext} {w w' : SharedChat σ} {answer : Except String Unit}
    (h : agents.reinject w member context = (answer, w')) :
    w'.asked = w.asked ∧ (answer = .ok () → ∃ system,
      w'.rendered = some (member.persona, context, system)
        ∧ (w'.thread.messages.find? (fun m => m.role = .system)).map Message.content = some system
        ∧ w'.thread.messages.countP q.poses = w.thread.messages.countP q.poses) := by
  unfold ChatAgents.reinject at h
  split at h
  · cases h
    exact ⟨rfl, fun hok => by cases hok⟩
  · next system text state _ =>
      cases h
      exact ⟨rfl, fun _ => ⟨system, rfl, find?_reinjected rfl _, countP_reinjected q.user rfl _⟩⟩

/-- A turn asks the model once at most, for the speaker, with the prompt posed as on its thread. -/
def TurnSpec (opening : Option String) (w w' : SharedChat σ) (answer : Except String TurnOutcome) : Prop :=
  (w'.asked = w.asked ∧ ∀ t, answer ≠ .ok (.returned t))
    ∨ ∃ a, w'.asked = w.asked ++ [a] ∧ SpokenBy o member a
      ∧ a.messages.countP q.poses = q.onThread opening w.thread
      ∧ ∀ t, answer = .ok (.returned t) →
        w'.thread.messages.countP q.poses = q.onThread opening w.thread

variable {answer : Except String TurnOutcome} {w w' : SharedChat σ}

theorem speak_continues
    (h : speak agents.runtime o member none w = (answer, w')) : TurnSpec q o member none w w' answer := by
  obtain ⟨injected, w₁, hreinject⟩ :
      ∃ injected w₁, agents.reinject w member (o.ctx member) = (injected, w₁) := ⟨_, _, rfl⟩
  obtain ⟨hasked, hinjected⟩ := reinject_spec q member hreinject
  simp only [speak, ChatAgents.runtime, hreinject] at h
  cases injected with
  | error exc =>
    cases h
    exact Or.inl ⟨hasked, fun t ht => by cases ht⟩
  | ok _ =>
    obtain ⟨system, hrendered, hfind, hcount⟩ := hinjected rfl
    simp only [ChatAgents.turn, Prod.mk.injEq] at h
    obtain ⟨rfl, rfl⟩ := h
    obtain ⟨hlater, hthread⟩ := ask_spec agents
      ⟨member.persona, none, o.ctx member, o.cfg member⟩
      (fun response => finishContinue agents.settings response w₁.thread) w₁
    refine Or.inr ⟨_, by rw [hlater, hasked], ⟨rfl, rfl, rfl, system, hrendered, by simp [hfind]⟩,
      hcount, fun t ht => ?_⟩
    obtain ⟨response, hresponse⟩ := hthread t (Except.ok.inj ht)
    rw [hresponse, (countP_answered q.user agents.settings response w₁.thread false).2]
    exact hcount

theorem speak_opens
    (hempty : w.thread.messages = []) (h : speak agents.runtime o member (some prompt) w = (answer, w')) :
    TurnSpec q o member (some prompt) w w' answer := by
  have hone : q.onThread (some prompt) w.thread = 1 := if_pos ⟨rfl, hempty⟩
  simp only [speak, ChatAgents.runtime, hempty, List.isEmpty_nil, if_true, ChatAgents.turn] at h
  cases hrender : agents.render w.state member.persona (o.ctx member) prompt with
  | mk rendered state =>
    rw [hrender] at h
    cases rendered with
    | error exc =>
      cases h
      exact Or.inl ⟨rfl, fun t ht => by cases ht⟩
    | ok texts =>
      obtain ⟨system, text⟩ := texts
      have hposes := q.rendered w.state member.persona (o.ctx member) system text (by rw [hrender])
      have hnot : ∀ m : Message, m.role = .system → ¬ q.poses m = true := fun m hm hp => by
        rw [q.user m hp] at hm
        cases hm
      have hcount : (runPrompts agents.settings system text w.thread).messages.countP q.poses = 1 := by
        by_cases hsystem : system = ""
        · simp [runPrompts, hempty, hsystem, hposes]
        · simp [runPrompts, hempty, hsystem, hposes, ChatThread.hasSystem, hnot]
      simp only [Prod.mk.injEq] at h
      obtain ⟨rfl, rfl⟩ := h
      obtain ⟨hlater, hthread⟩ := ask_spec agents
        ⟨member.persona, some ⟨member.name ++ "-open", prompt⟩, o.ctx member, o.cfg member⟩
        (fun response => finishRun agents.settings response
          (runPrompts agents.settings system text w.thread) false)
        ⟨state, runPrompts agents.settings system text w.thread,
          some (member.persona, o.ctx member, system), w.asked⟩
      refine Or.inr ⟨_, hlater, ⟨rfl, rfl, rfl, system, rfl, ?_⟩, hcount.trans hone.symm, fun t ht => ?_⟩
      · by_cases hsystem : system = ""
        · simp [runPrompts, hempty, hsystem]
        · simp [runPrompts, hempty, hsystem, ChatThread.hasSystem]
      · obtain ⟨response, hresponse⟩ := hthread t (Except.ok.inj ht)
        rw [hresponse, (countP_answered q.user agents.settings response _ false).1, hcount, hone]

theorem speak_spec {opening : Option String} (hopening : ∀ text ∈ opening, text = prompt)
    (h : speak agents.runtime o member opening w = (answer, w')) :
    TurnSpec q o member opening w w' answer := by
  cases opening with
  | none => exact speak_continues q o member h
  | some text =>
    obtain rfl := hopening text rfl
    by_cases hempty : w.thread.messages = []
    · exact speak_opens q o member hempty h
    · have hsame : q.onThread (some text) w.thread = q.onThread none w.thread := by
        simp [Question.onThread, hempty]
      have hcontinued : speak agents.runtime o member none w = (answer, w') := by
        rw [← h]
        simp [speak, ChatAgents.runtime, hempty]
      unfold TurnSpec
      rw [hsame]
      exact speak_continues q o member hcontinued

end Turn

/-! ## The loop -/

section Loop

variable {σ : Type} {agents : ChatAgents σ} {prompt : String} (q : Question agents prompt)
  (o : ChatOrchestrator)

/-- What the rounds from here on come to: the requests, and the turns of a chat that ends. -/
structure LoopSpec (remaining : Nat) (opening : Option String) (st : ChatState) (w : SharedChat σ)
    (run : ChatRun (SharedChat σ)) (speakers : List TeamMember) (later : List Asked) : Prop where
  asked : run.world.asked = w.asked ++ later
  spoken : List.Forall₂ (SpokenBy o) speakers later
  length : speakers.length ≤ remaining + 1
  posed : ∀ a ∈ later, a.messages.countP q.poses = q.onThread opening w.thread
  selected : ∀ s ∈ speakers, ∃ round ∈ run.rounds, round.selection.pick.bind o.team.require = .ok s
  ends : ∀ result, run.ends = .ok result → ∃ turns : List (String × RunResult),
    result.turns = st.turns ++ turns ∧ result.speakerOrder = st.order ++ turns.map Prod.fst
      ∧ turns.map Prod.fst = speakers.map TeamMember.name
      ∧ (∀ i name turn, turns[i]? = some (name, turn) →
        stopAfter agents.terminates (remaining - i) name turn
          = if i + 1 = turns.length then some (result.stoppedReason, result.outputText.getD "") else none)
      ∧ ∃ before turn, turns = before ++ [(result.finalSpeaker, turn)]

theorem LoopSpec.silent {remaining : Nat} {opening : Option String} {st : ChatState} {w : SharedChat σ}
    {run : ChatRun (SharedChat σ)} {exc : String} (hasked : run.world.asked = w.asked)
    (hends : run.ends = .error exc) : LoopSpec q o remaining opening st w run [] [] where
  asked := by rw [hasked, List.append_nil]
  spoken := .nil
  length := Nat.zero_le _
  posed a ha := by cases ha
  selected s hs := by cases hs
  ends result hres := by
    rw [hends] at hres
    cases hres

theorem chatLoop_spec (remaining : Nat) {opening : Option String} (hopening : ∀ text ∈ opening, text = prompt)
    (st : ChatState) (w : SharedChat σ) : ∃ speakers later, LoopSpec q o remaining opening st w
      (chatLoop agents.runtime o remaining opening st w) speakers later := by
  induction remaining using Nat.strongRecOn generalizing opening st w with
  | ind remaining ih =>
    obtain ⟨selection, w₁, hselect⟩ : ∃ selection w₁, agents.runtime.select w
        ⟨o.speakers, st.lastSpeaker, st.turns.length, st.transcript⟩ = (selection, w₁) := ⟨_, _, rfl⟩
    obtain ⟨hsame, hthread⟩ : w₁.asked = w.asked ∧ w₁.thread = w.thread := by
      cases hselect
      exact ⟨rfl, rfl⟩
    rcases chatLoop_cases agents.runtime o remaining opening st hselect with
      ⟨exc, -, hrun⟩ | ⟨speaker, answer, w', hpick, hspeak, hround⟩
    · rw [hrun]
      exact ⟨[], [], .silent q o hsame rfl⟩
    · have hturn := speak_spec q o speaker hopening hspeak
      unfold TurnSpec at hturn
      rw [hsame, hthread] at hturn
      rcases hturn with ⟨hasked, hnone⟩ | ⟨a, hasked, hspoken, hposed, hreturned⟩
      · rcases hround with ⟨exc, outcome, hrun⟩ | ⟨t, hanswer, -⟩
        · rw [hrun]
          exact ⟨[], [], .silent q o hasked rfl⟩
        · exact absurd hanswer (hnone t)
      · rcases hround with ⟨exc, outcome, hrun⟩
          | ⟨t, hanswer, ⟨reason, text, hstop, hrun⟩ | ⟨n, st', rfl, hstop, hturns, horder, hrun⟩⟩
        · rw [hrun]
          exact ⟨[speaker], [a], hasked, .cons hspoken .nil, by simp, by simpa using hposed,
            by simpa using hpick, fun result hres => (by cases hres)⟩
        · rw [hrun]
          refine ⟨[speaker], [a], hasked, .cons hspoken .nil, by simp, by simpa using hposed,
            by simpa using hpick, fun result hres => ?_⟩
          cases hres
          refine ⟨[(speaker.name, t.result)], rfl, rfl, rfl, fun i name turn hi => ?_, [], t.result, rfl⟩
          cases i with
          | zero =>
            cases hi
            exact hstop
          | succ i => cases hi
        · have hnone : ∀ text ∈ (none : Option String), text = prompt := by simp
          obtain ⟨speakers, later, hrest⟩ := ih n (Nat.lt_succ_self n) hnone st' w'
          have hlater : q.onThread none w'.thread = q.onThread opening w.thread :=
            (if_neg (by simp)).trans (hreturned t hanswer)
          rw [hrun]
          refine ⟨speaker :: speakers, a :: later, ?_, .cons hspoken hrest.spoken, ?_, ?_, ?_, ?_⟩
          · show (chatLoop agents.runtime o n none st' w').world.asked = _
            rw [hrest.asked, hasked, List.append_assoc, List.singleton_append]
          · simpa using hrest.length
          · intro b hb
            rcases List.mem_cons.1 hb with rfl | hb
            · exact hposed
            · exact (hrest.posed b hb).trans hlater
          · intro s hs
            rcases List.mem_cons.1 hs with rfl | hs
            · exact ⟨_, List.mem_cons_self, hpick⟩
            · obtain ⟨round, hmem, hsel⟩ := hrest.selected s hs
              exact ⟨round, List.mem_cons_of_mem _ hmem, hsel⟩
          · intro result hres
            obtain ⟨turns, hall, hnames, hfst, hstops, before, turn, hlast⟩ := hrest.ends result hres
            refine ⟨(speaker.name, t.result) :: turns, by rw [hall, hturns]; simp,
              by rw [hnames, horder]; simp, by simp [hfst], fun i name turn hi => ?_,
              (speaker.name, t.result) :: before, turn, by rw [hlast]; rfl⟩
            cases i with
            | zero =>
              cases hi
              have hne : turns ≠ [] := by
                rw [hlast]
                simp
              have hmore : ¬ 0 + 1 = ((speaker.name, t.result) :: turns).length := by
                simpa using hne
              rw [if_neg hmore]
              exact hstop
            | succ i =>
              have hstep := hstops i name turn hi
              rw [Nat.add_sub_add_right, hstep, List.length_cons]
              simp only [Nat.add_right_cancel_iff]

end Loop

/-! ## Chats -/

def ChatAgents.discuss {σ : Type} (agents : ChatAgents σ) (o : ChatOrchestrator) (prompt : String)
    (state : σ) (thread : ChatThread) : ChatRun (SharedChat σ) :=
  runChat agents.runtime o prompt { state, thread }

theorem require_eq_ok_iff {team : AgentTeam} {name : String} {member : TeamMember} :
    team.require name = .ok member ↔ team.get name = some member := by
  unfold AgentTeam.require
  cases team.get name <;> simp

/-- A echoPanel of two speakers in a team of three, with a model that answers everything alike. -/
def echoPanel (select : SelectionContext → Except String String) : ChatAgents Unit × ChatOrchestrator :=
  ({ settings := {}
     render := fun _ _ _ text => (.ok ("", text), ())
     respond := fun _ _ _ => (.ok { requestId := "r", status := .success, outputText := some "ok" }, ())
     select := fun _ context => ({ pick := select context }, ()) },
   { team := ⟨[⟨"a", "a", [], "default", [], []⟩, ⟨"b", "b", [], "default", [], []⟩,
       ⟨"c", "c", [], "default", [], []⟩], "a"⟩
     speakers := ["a", "b"] })

def echoQuestion (select : SelectionContext → Except String String) (prompt : String) :
    Question (echoPanel select).1 prompt where
  poses m := m.role = .user ∧ m.content = prompt
  user m h := (of_decide_eq_true h).1
  rendered s persona context system text h := by
    cases h
    exact decide_eq_true ⟨rfl, rfl⟩

end Himmy.Teams
