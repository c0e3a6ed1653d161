import Himmy.Runtime.Streaming
import Himmy.Runtime.TranscriptRuns

/-! # The streamed agent loop

`stream_agent_loop` runs its first turn through `stream_task`, rebuilds the result of the turn from
the last delta, and drives the continuation turns with a ladder of stop conditions of its own. It is
compared here with `run_agent_loop` over the same model and tools. The two threads hold the messages
of the first turn in another order, and a model may tell these apart, so it is asked not to. -/

namespace Himmy.Runtime

open LoopSettings (stopReason budgetReached stopped bounds_of_stopReason_none)

/-! ## Both loops over one model -/

/-- A deterministic model with its tools: a request binds the tools or not, and has the messages of
    a thread. -/
structure AgentModel (σ : Type) where
  respond : σ → Bool → List InferenceMessage → InferenceResponse × σ
  /-- the pieces that the provider streams of that response -/
  pieces : σ → Bool → List InferenceMessage → List String
  /-- what a decision on pending calls makes of the tools and the thread -/
  applyDecision : List PendingToolCall → Bool → σ × ChatThread → σ × ChatThread
  hasCheckpointStore : Bool := true

/-- A task, with its prompts rendered. -/
structure LoopTask where
  systemPrompt : String
  taskPrompt : String
  nudgeSystemPrompt : String
  nudgePrompt : String
  isNewThread : Bool

variable {σ : Type}

section Environment

variable (model : AgentModel σ) (cfg : TurnConfig) (task : LoopTask)

/-- `run_task_detailed`. -/
def runTask (systemPrompt taskPrompt : String) (bindTools isNewThread : Bool)
    (st : σ × ChatThread) : RunResult × (σ × ChatThread) :=
  let thread := runPrompts cfg systemPrompt taskPrompt st.2
  let answer := model.respond st.1 bindTools thread.request
  let turn := finishRun cfg answer.1 thread isNewThread
  (turn.1, answer.2, turn.2)

/-- `_continue_turn`, without a compactor. -/
def continueTurn (st : σ × ChatThread) : RunResult × (σ × ChatThread) :=
  let answer := model.respond st.1 true st.2.request
  let turn := finishContinue cfg answer.1 st.2
  (turn.1, answer.2, turn.2)

def agentEnvironment : AgentEnvironment (σ × ChatThread) where
  runTask := runTask model cfg task.systemPrompt task.taskPrompt true task.isNewThread
  continueTurn := continueTurn model cfg
  synthesize := runTask model cfg task.nudgeSystemPrompt task.nudgePrompt false false
  applyDecision := model.applyDecision
  hasCheckpointStore := model.hasCheckpointStore

end Environment

variable (maxTurns : Int) (costBudget : Option Rat)

/-- The ladder of stop conditions of `_stream_drive_loop`. -/
def streamStopReason (hitl stopOnNoProgress : Bool) (turns : List RunResult) : Option StopReason :=
  match turns.getLast? with
  | none => none
  | some last =>
    if !last.succeeded then some .error
    else if hitl && last.pendingApprovals ≠ [] then some .awaitingApproval
    else if last.toolCalls = [] then some .final
    else if last.roundTripComplete then some .final
    else if last.finalAnswerText.isSome then some .finalAnswer
    else if stopOnNoProgress && isNoProgress turns then some .noProgress
    else if maxTurns ≤ turns.length then some .maxTurns
    else if costBudget.any (fun budget => budget ≤ totalCost turns) then some .budget
    else none

/-- What `_stream_drive_loop` returns when it stops. -/
def streamStopped (turns : List RunResult) (reason : StopReason) : AgentLoopResult where
  turns := turns
  stoppedReason := reason
  checkpoint :=
    if reason = .awaitingApproval then
      some { maxTurns := maxTurns, costBudget := costBudget, turnsCompleted := turns.length,
             costCompleted := totalCost turns,
             pendingToolCalls := (turns.getLast?.map RunResult.pendingApprovals).getD [] }
    else none

theorem streamStopReason_eq (hitl stopOnNoProgress : Bool) (turns : List RunResult) :
    streamStopReason maxTurns costBudget hitl stopOnNoProgress turns
      = (⟨maxTurns, costBudget, hitl, stopOnNoProgress, 0, 0⟩ : LoopSettings).stopReason turns := by
  unfold streamStopReason stopReason
  cases turns.getLast? with
  | none => rfl
  | some last => simp [budgetReached]

theorem streamStopped_eq (hitl stopOnNoProgress : Bool)
    (turns : List RunResult) (reason : StopReason) : streamStopped maxTurns costBudget turns reason
      = (⟨maxTurns, costBudget, hitl, stopOnNoProgress, 0, 0⟩ : LoopSettings).stopped turns
          reason := by
  simp [streamStopped, stopped, LoopSettings.checkpoint]

def streamDriveLoop (turn : σ → RunResult × σ) (maxTurns : Int) (costBudget : Option Rat)
    (hitl stopOnNoProgress : Bool) (first : RunResult) (more : List RunResult) (st : σ) :
    List StreamDelta × AgentLoopResult × σ :=
  match _h : streamStopReason maxTurns costBudget hitl stopOnNoProgress (first :: more) with
  | some reason => ([], streamStopped maxTurns costBudget (first :: more) reason, st)
  | none =>
    let made := turn st
    let rest := streamDriveLoop turn maxTurns costBudget hitl stopOnNoProgress first
      (more ++ [made.1]) made.2
    (continuationDeltas (more.length + 2) made.1 ++ rest.1, rest.2)
termination_by (maxTurns - more.length).toNat
decreasing_by
  rw [streamStopReason_eq] at _h
  have hbound := (bounds_of_stopReason_none (List.cons_ne_nil _ _) _h).1
  simp only [List.length_append, List.length_cons, List.length_nil] at hbound ⊢
  omega

section StreamLoop

variable (model : AgentModel σ) (cfg : TurnConfig) (task : LoopTask)

def takeFirstTurn (deltas : List StreamDelta) : List StreamDelta × Option InferenceResponse :=
  (deltas.filter (fun delta => !delta.done),
    (deltas.filter (fun delta => delta.done)).getLast?.bind StreamDelta.response)

def streamTask (st : σ × ChatThread) : List StreamEffect × (σ × ChatThread) :=
  let thread := streamPrompts cfg task.systemPrompt task.taskPrompt st.2
  let answer := model.respond st.1 true thread.request
  let pieces := model.pieces st.1 true thread.request
  let streamed := streamDeltas cfg (runStream answer.1.requestId pieces answer.1) thread
  (streamed.1, answer.2, streamed.2)

/-- `stream_agent_loop`, consumed to its end. -/
def streamAgentLoop (maxTurns : Int) (costBudget : Option Rat) (hitl stopOnNoProgress
    synthesizeEmpty : Bool) (st : σ × ChatThread) :
    Except String (List StreamDelta × AgentLoopResult × (σ × ChatThread)) :=
  match validateMaxTurns maxTurns "stream_agent_loop" with
  | .error e => .error e
  | .ok _ =>
    if hitl && !model.hasCheckpointStore then
      .error "hitl=True requires a checkpoint_store on the runtime."
    else
      let streamed := streamTask model cfg task st
      let taken := takeFirstTurn (yields streamed.1)
      match taken.2 with
      | none => .error "AssertionError"
      | some response =>
        let first := resultFromResponse cfg.traceId response
        let thread := replayStreamed cfg response streamed.2.2
        let driven := streamDriveLoop (continueTurn model cfg) maxTurns costBudget hitl
          stopOnNoProgress first [] (streamed.2.1, thread)
        let result :=
          if synthesizeEmpty then
            (agentEnvironment model cfg task).maybeSynthesize driven.2.1 driven.2.2
          else driven.2
        .ok (taken.1 ++ toolDeltas first ++ [turnEndDelta 1 first] ++ driven.1
            ++ [{ requestId := first.requestId.getD "", done := true,
                  event := some (.done result.1) }],
          result.1, result.2)

end StreamLoop

/-! ## The ladder does not read texts -/

def RunResult.textless (result : RunResult) : RunResult := { result with outputText := none }

/-- Results of one turn that differ, if at all, in an absent text and an empty one. -/
structure TurnAlike (result result' : RunResult) : Prop where
  textless : result.textless = result'.textless
  text : result.outputText.getD "" = result'.outputText.getD ""

theorem totalCost_textless (turns : List RunResult) :
    totalCost (turns.map RunResult.textless) = totalCost turns := by
  rw [totalCost, List.map_map]
  rfl

theorem isNoProgress_textless (turns : List RunResult) :
    isNoProgress (turns.map RunResult.textless) = isNoProgress turns := by
  unfold isNoProgress
  rw [← List.map_reverse]
  cases turns.reverse with
  | nil => rfl
  | cons last before =>
    cases before with
    | nil => rfl
    | cons previous before => rfl

theorem stopReason_textless (settings : LoopSettings) (turns : List RunResult) :
    settings.stopReason (turns.map RunResult.textless) = settings.stopReason turns := by
  unfold stopReason budgetReached
  rw [List.getLast?_map, isNoProgress_textless, totalCost_textless, List.length_map]
  cases turns.getLast? with
  | none => rfl
  | some last => rfl

theorem checkpoint_textless (settings : LoopSettings) (turns : List RunResult) :
    settings.checkpoint (turns.map RunResult.textless) = settings.checkpoint turns := by
  unfold LoopSettings.checkpoint
  rw [List.getLast?_map, totalCost_textless, List.length_map]
  cases turns.getLast? with
  | none => rfl
  | some last => rfl

/-- Two results of a loop that differ, if at all, in the text of the first turn. -/
structure ResultAlike (result result' : AgentLoopResult) : Prop where
  turns : ∃ first first' more, result.turns = first :: more ∧ result'.turns = first' :: more ∧
    TurnAlike first first'
  stoppedReason : result.stoppedReason = result'.stoppedReason
  checkpoint : result.checkpoint = result'.checkpoint

section Simulation

variable {τ : Type} (settings : LoopSettings) {first first' : RunResult}

theorem stopReason_cons (h : TurnAlike first first') (more : List RunResult) :
    settings.stopReason (first :: more) = settings.stopReason (first' :: more) := by
  rw [← stopReason_textless settings (first :: more), ← stopReason_textless settings (first' :: more),
    List.map_cons, h.textless, List.map_cons]

theorem resultAlike_stopped (h : TurnAlike first first') (more : List RunResult)
    (reason : StopReason) : ResultAlike (settings.stopped (first :: more) reason)
      (settings.stopped (first' :: more) reason) where
  turns := ⟨first, first', more, rfl, rfl, h⟩
  stoppedReason := rfl
  checkpoint := by
    have hcheckpoint : settings.checkpoint (first :: more) = settings.checkpoint (first' :: more) := by
      rw [← checkpoint_textless settings (first :: more),
        ← checkpoint_textless settings (first' :: more), List.map_cons, h.textless, List.map_cons]
    simp only [stopped, hcheckpoint]

theorem driveLoop_alike {turn : σ → RunResult × σ} {turn' : τ → RunResult × τ} {R : σ → τ → Prop}
    (hturn : ∀ s t, R s t → (turn s).1 = (turn' t).1 ∧ R (turn s).2 (turn' t).2)
    (hfirst : TurnAlike first first') (more : List RunResult) {s : σ} {t : τ} (hR : R s t) :
    R (driveLoop turn settings first more s).2 (driveLoop turn' settings first' more t).2 ∧
      ∃ made reason,
        (driveLoop turn settings first more s).1 = settings.stopped (first :: made) reason ∧
        (driveLoop turn' settings first' more t).1 = settings.stopped (first' :: made) reason := by
  induction hn : (settings.maxTurns - settings.turnsOffset - more.length).toNat using
    Nat.strong_induction_on generalizing more s t with
  | _ n ih =>
    have hstop := stopReason_cons settings hfirst more
    cases h : settings.stopReason (first :: more) with
    | some reason =>
      rw [driveLoop_of_stop h, driveLoop_of_stop (hstop.symm.trans h)]
      exact ⟨hR, more, reason, rfl, rfl⟩
    | none =>
      have hbound := (bounds_of_stopReason_none (List.cons_ne_nil _ _) h).1
      rw [List.length_cons] at hbound
      rw [driveLoop_of_none h, driveLoop_of_none (hstop.symm.trans h)]
      obtain ⟨hresult, hR'⟩ := hturn s t hR
      rw [hresult]
      exact ih _ (by
        rw [List.length_append, List.length_singleton]
        omega) _ hR' rfl

theorem needsSynthesis_eq {result result' : AgentLoopResult} (h : ResultAlike result result') :
    result.needsSynthesis = result'.needsSynthesis := by
  obtain ⟨first, first', more, hturns, hturns', hfirst⟩ := h.turns
  have hcalls : first.toolCalls = first'.toolCalls := by
    have htextless := congrArg RunResult.toolCalls hfirst.textless
    exact htextless
  unfold AgentLoopResult.needsSynthesis
  rw [h.stoppedReason, hturns, hturns', List.any_cons, List.any_cons, hcalls]
  cases more with
  | nil => simp only [List.getLast?_singleton, hfirst.text]
  | cons _ _ => simp only [List.getLast?_cons_cons]

end Simulation

/-! ## The continuation turns of a stream -/

section StreamDrive

variable {turn : σ → RunResult × σ} {maxTurns : Int} {costBudget : Option Rat}
  {hitl stopOnNoProgress : Bool} {first : RunResult} {more : List RunResult}

theorem streamDriveLoop_of_stop {reason : StopReason}
    (h : streamStopReason maxTurns costBudget hitl stopOnNoProgress (first :: more) = some reason)
    (st : σ) : streamDriveLoop turn maxTurns costBudget hitl stopOnNoProgress first more st
      = ([], streamStopped maxTurns costBudget (first :: more) reason, st) := by
  rw [streamDriveLoop]
  split
  · next reason' h' =>
      rw [h] at h'
      cases h'
      rfl
  · next h' =>
      rw [h] at h'
      cases h'

theorem streamDriveLoop_of_none
    (h : streamStopReason maxTurns costBudget hitl stopOnNoProgress (first :: more) = none)
    (st : σ) : streamDriveLoop turn maxTurns costBudget hitl stopOnNoProgress first more st
      = (continuationDeltas (more.length + 2) (turn st).1
          ++ (streamDriveLoop turn maxTurns costBudget hitl stopOnNoProgress first
            (more ++ [(turn st).1]) (turn st).2).1,
        (streamDriveLoop turn maxTurns costBudget hitl stopOnNoProgress first
          (more ++ [(turn st).1]) (turn st).2).2) := by
  rw [streamDriveLoop]
  split
  · next reason' h' =>
      rw [h] at h'
      cases h'
  · rfl

def turnTexts : List StreamDelta → String → List String
  | [], _ => []
  | delta :: rest, text =>
    match delta.event with
    | none => turnTexts rest (text ++ delta.delta)
    | some (.turnEnd _ _) => text :: turnTexts rest ""
    | some _ => turnTexts rest text

theorem turnTexts_append {deltas : List StreamDelta} (h : ∀ delta ∈ deltas, delta.event = none)
    (rest : List StreamDelta) (text : String) : turnTexts (deltas ++ rest) text
      = turnTexts rest (text ++ String.join (deltas.map StreamDelta.delta)) := by
  induction deltas generalizing text with
  | nil => simp
  | cons delta deltas ih =>
    rw [List.cons_append, turnTexts, h delta List.mem_cons_self]
    dsimp only
    rw [ih (fun d hd => h d (List.mem_cons_of_mem _ hd)), List.map_cons, String.join_cons,
      String.append_assoc]

theorem turnTexts_pieceDeltas (requestId : String) (pieces : List String)
    (rest : List StreamDelta) (text : String) :
    turnTexts (pieceDeltas requestId pieces ++ rest) text
      = turnTexts rest (text ++ String.join pieces) := by
  have hdeltas : (pieceDeltas requestId pieces).map StreamDelta.delta = pieces := by
    refine List.ext_getElem (by simp [pieceDeltas]) (fun i _ _ => ?_)
    simp [pieceDeltas]
  rw [turnTexts_append (fun delta hdelta => ?_), hdeltas]
  obtain ⟨index, hindex, rfl⟩ := List.mem_mapIdx.1 hdelta
  rfl

theorem turnTexts_toolDeltas (result : RunResult) (rest : List StreamDelta) (text : String) :
    turnTexts (toolDeltas result ++ rest) text = turnTexts rest text := by
  unfold toolDeltas
  induction result.toolCalls with
  | nil => rfl
  | cons call calls ih =>
    rw [List.flatMap_cons, List.append_assoc]
    exact ih

theorem turnTexts_turnEnd (n : Nat) (result : RunResult) (rest : List StreamDelta) (text : String) :
    turnTexts (turnEndDelta n result :: rest) text = text :: turnTexts rest "" := rfl

theorem turnTexts_continuationDeltas (n : Nat) (result : RunResult) (rest : List StreamDelta) :
    turnTexts (continuationDeltas n result ++ rest) ""
      = result.outputText.getD "" :: turnTexts rest "" := by
  unfold continuationDeltas textDeltas
  rw [List.append_assoc, List.append_assoc, turnTexts_pieceDeltas, turnTexts_toolDeltas,
    List.singleton_append, turnTexts_turnEnd, join_chunks]
  simp

theorem streamDriveLoop_spec (turn : σ → RunResult × σ) (maxTurns : Int) (costBudget : Option Rat)
    (hitl stopOnNoProgress : Bool) (first : RunResult) (more : List RunResult) (st : σ) :
    let streamed := streamDriveLoop turn maxTurns costBudget hitl stopOnNoProgress first more st
    streamed.2 = driveLoop turn ⟨maxTurns, costBudget, hitl, stopOnNoProgress, 0, 0⟩ first more st ∧
      ∃ made, streamed.2.1.turns = first :: more ++ made ∧ ∀ rest,
        turnTexts (streamed.1 ++ rest) ""
          = made.map (fun result => result.outputText.getD "") ++ turnTexts rest "" := by
  induction hn : (maxTurns - more.length).toNat using Nat.strong_induction_on
    generalizing more st with
  | _ n ih =>
    have hstop := streamStopReason_eq maxTurns costBudget hitl stopOnNoProgress (first :: more)
    dsimp only
    cases h : streamStopReason maxTurns costBudget hitl stopOnNoProgress (first :: more) with
    | some reason =>
      rw [streamDriveLoop_of_stop h, driveLoop_of_stop (hstop ▸ h),
        ← streamStopped_eq maxTurns costBudget hitl stopOnNoProgress]
      exact ⟨rfl, [], by rw [List.append_nil]; rfl, fun rest => rfl⟩
    | none =>
      rw [hstop] at h
      have hbound := (bounds_of_stopReason_none (List.cons_ne_nil _ _) h).1
      simp only [List.length_cons, Nat.cast_zero] at hbound
      rw [driveLoop_of_none h, streamDriveLoop_of_none (hstop ▸ h)]
      obtain ⟨hdriven, made, hturns, htexts⟩ := ih _ (by
        rw [List.length_append, List.length_singleton]
        omega) (more ++ [(turn st).1]) (turn st).2 rfl
      refine ⟨hdriven, (turn st).1 :: made, by rw [hturns]; simp, fun rest => ?_⟩
      rw [List.append_assoc, turnTexts_continuationDeltas, htexts]
      rfl

end StreamDrive

/-! ## The two threads -/

def Reordered (messages messages' : List Message) : Prop :=
  ∃ before tools answer answer' after, messages = before ++ tools ++ answer :: after ∧
    messages' = before ++ answer' :: tools ++ after ∧ (∀ m ∈ tools, m.role = MessageRole.tool) ∧
    answer.role = .assistant ∧ answer'.role = .assistant ∧ answer.content = answer'.content

theorem Reordered.append {messages messages' : List Message} (h : Reordered messages messages')
    (more : List Message) : Reordered (messages ++ more) (messages' ++ more) := by
  obtain ⟨before, tools, answer, answer', after, rfl, rfl, htools, hroles⟩ := h
  exact ⟨before, tools, answer, answer', after ++ more, by simp, by simp, htools, hroles⟩

theorem Reordered.hasSystem_eq {thread thread' : ChatThread}
    (h : Reordered thread.messages thread'.messages) : thread.hasSystem = thread'.hasSystem := by
  obtain ⟨before, tools, answer, answer', after, hmessages, hmessages', -, hrole, hrole', -⟩ := h
  simp [ChatThread.hasSystem, hmessages, hmessages', hrole, hrole']

def AgentModel.Blind (model : AgentModel σ) : Prop :=
  ∀ st bindTools (thread thread' : ChatThread), Reordered thread.messages thread'.messages →
    model.respond st bindTools thread.request = model.respond st bindTools thread'.request

def StateAlike (st st' : σ × ChatThread) : Prop :=
  st.1 = st'.1 ∧ Reordered st.2.messages st'.2.messages

section Turns

variable {model : AgentModel σ} (cfg : TurnConfig) {st st' : σ × ChatThread}

theorem messages_finishRun (response : InferenceResponse) (thread : ChatThread)
    (isNewThread : Bool) : (finishRun cfg response thread isNewThread).2.messages
      = thread.messages ++ toolMessages cfg.cap cfg.traceId response
        ++ [response.runMessage cfg.traceId (cfg.guardOutput response.answerText)] := by
  cases isNewThread <;> rfl

theorem continueTurn_alike (hblind : model.Blind) (h : StateAlike st st') :
    (continueTurn model cfg st).1 = (continueTurn model cfg st').1 ∧
      StateAlike (continueTurn model cfg st).2 (continueTurn model cfg st').2 := by
  have hrespond : model.respond st.1 true st.2.request = model.respond st'.1 true st'.2.request := by
    rw [h.1]
    exact hblind _ _ _ _ h.2
  unfold continueTurn
  rw [hrespond]
  exact ⟨rfl, rfl, (h.2.append _).append _⟩

theorem runTask_alike (hblind : model.Blind) (systemPrompt taskPrompt : String) (bindTools : Bool)
    (h : StateAlike st st') :
    let ran := runTask model cfg systemPrompt taskPrompt bindTools false st
    let ran' := runTask model cfg systemPrompt taskPrompt bindTools false st'
    ran.1 = ran'.1 ∧ StateAlike ran.2 ran'.2 := by
  have hprompts : Reordered (runPrompts cfg systemPrompt taskPrompt st.2).messages
      (runPrompts cfg systemPrompt taskPrompt st'.2).messages := by
    simp only [runPrompts, h.2.hasSystem_eq]
    exact h.2.append _
  have hrespond : model.respond st.1 bindTools (runPrompts cfg systemPrompt taskPrompt st.2).request
      = model.respond st'.1 bindTools (runPrompts cfg systemPrompt taskPrompt st'.2).request := by
    rw [h.1]
    exact hblind _ _ _ _ hprompts
  simp only [runTask, hrespond]
  refine ⟨rfl, rfl, ?_⟩
  rw [messages_finishRun, messages_finishRun]
  exact (hprompts.append _).append _

def finishLoop (model : AgentModel σ) (cfg : TurnConfig) (task : LoopTask) (synthesizeEmpty : Bool)
    (driven : AgentLoopResult × (σ × ChatThread)) : AgentLoopResult × (σ × ChatThread) :=
  if synthesizeEmpty then (agentEnvironment model cfg task).maybeSynthesize driven.1 driven.2
  else driven

theorem finishLoop_alike (hblind : model.Blind) (task : LoopTask) (synthesizeEmpty : Bool)
    {driven driven' : AgentLoopResult × (σ × ChatThread)} (hresult : ResultAlike driven.1 driven'.1)
    (h : StateAlike driven.2 driven'.2) :
    let made := finishLoop model cfg task synthesizeEmpty driven
    let made' := finishLoop model cfg task synthesizeEmpty driven'
    ResultAlike made.1 made'.1 ∧ StateAlike made.2 made'.2 ∧
      (driven.1.turns = driven'.1.turns → made.1.turns = made'.1.turns) := by
  obtain ⟨hturn, hstate⟩ := runTask_alike cfg hblind task.nudgeSystemPrompt
    task.nudgePrompt false h
  have hsynthesize : ((agentEnvironment model cfg task).synthesize driven.2).1
      = ((agentEnvironment model cfg task).synthesize driven'.2).1 := hturn
  dsimp only
  unfold finishLoop AgentEnvironment.maybeSynthesize
  rw [needsSynthesis_eq hresult]
  split_ifs with _ hneeds
  · refine ⟨?_, hstate, fun hturns => ?_⟩
    · obtain ⟨first, first', more, hturns, hturns', hfirst⟩ := hresult.turns
      refine ⟨⟨first, first', more ++ [((agentEnvironment model cfg task).synthesize driven.2).1],
        ?_, ?_, hfirst⟩, rfl, rfl⟩
      · rw [hturns, List.cons_append]
      · rw [hturns', List.cons_append, hsynthesize]
    · rw [hturns, hsynthesize]
  · exact ⟨hresult, h, id⟩
  · exact ⟨hresult, h, id⟩

end Turns

/-! ## The first turn -/

section FirstTurn

variable {cfg : TurnConfig} {response : InferenceResponse}

def TextAnswer (cfg : TurnConfig) (response : InferenceResponse) : Prop :=
  response.outputText.isSome = true ∨
    response.outputText = none ∧ response.outputStructured = .null ∧ streamAnswer cfg response = ""

theorem takeFirstTurn_spec (cfg : TurnConfig) (requestId : String) (pieces : List String)
    (response : InferenceResponse) (thread : ChatThread) :
    let taken := takeFirstTurn
      (yields (streamDeltas cfg (runStream requestId pieces response) thread).1)
    taken.2 = some { response with outputText := some (streamAnswer cfg response) } ∧
      ∀ rest, turnTexts (taken.1 ++ rest) ""
        = turnTexts rest (if cfg.bufferOutput then "" else String.join pieces) := by
  have hkept : (pieceDeltas requestId pieces).filter (fun delta => !delta.done)
      = pieceDeltas requestId pieces :=
    List.filter_eq_self.2 (fun delta hdelta => by rw [done_pieceDeltas hdelta]; rfl)
  have hdone : (pieceDeltas requestId pieces).filter (fun delta => delta.done) = [] :=
    List.filter_eq_nil_iff.2 (fun delta hdelta => by rw [done_pieceDeltas hdelta]; nofun)
  have hyields : yields (streamDeltas cfg (runStream requestId pieces response) thread).1
      = (if cfg.bufferOutput then [] else pieceDeltas requestId pieces)
        ++ lastDeltas cfg (finalDelta requestId pieces response) response := by
    rw [streamDeltas_runStream, yields_append]
    cases cfg.bufferOutput <;> simp [yields, List.filterMap_map]
  dsimp only
  rw [hyields]
  unfold takeFirstTurn lastDeltas
  cases hbuffer : cfg.bufferOutput with
  | true => simp [finalDelta]
  | false =>
    by_cases hshown : streamAnswer cfg response = response.outputText.getD ""
    · refine ⟨by simp [hshown, hdone, finalDelta], fun rest => ?_⟩
      simp [hshown, hkept, turnTexts_pieceDeltas, finalDelta]
    · refine ⟨by simp [hshown, hdone, finalDelta], fun rest => ?_⟩
      simp [hshown, hkept, turnTexts_pieceDeltas, finalDelta, turnTexts]

theorem turnAlike_resultFromResponse (h : TextAnswer cfg response) :
    TurnAlike (response.runResult cfg.traceId (cfg.guardOutput response.answerText))
        (resultFromResponse cfg.traceId
          { response with outputText := some (streamAnswer cfg response) }) ∧
      (response.outputText.isSome = true →
        response.runResult cfg.traceId (cfg.guardOutput response.answerText)
          = resultFromResponse cfg.traceId
              { response with outputText := some (streamAnswer cfg response) }) := by
  rcases h with htext | ⟨hnone, hnull, hempty⟩
  · obtain ⟨text, htext⟩ := Option.isSome_iff_exists.1 htext
    have hshown : cfg.guardOutput response.answerText = some (streamAnswer cfg response) := by
      simp [InferenceResponse.answerText, streamAnswer, htext, TurnConfig.guardOutput]
    rw [hshown]
    exact ⟨⟨rfl, rfl⟩, fun _ => rfl⟩
  · have hshown : cfg.guardOutput response.answerText = none := by
      simp [InferenceResponse.answerText, hnone, hnull, TurnConfig.guardOutput]
    rw [hshown, hempty]
    exact ⟨⟨rfl, rfl⟩, fun h => by rw [hnone] at h; cases h⟩

theorem reordered_first (h : TextAnswer cfg response) (thread : ChatThread) (isNewThread : Bool) :
    Reordered (finishRun cfg response thread isNewThread).2.messages
      (replayStreamed cfg { response with outputText := some (streamAnswer cfg response) }
        (finishStream cfg response thread)).messages := by
  have hmessages : (replayStreamed cfg
      { response with outputText := some (streamAnswer cfg response) }
      (finishStream cfg response thread)).messages
        = thread.messages ++ [response.streamMessage (response.outputText.getD "")
            (streamAnswer cfg response)] ++ toolMessages cfg.cap cfg.traceId response := by
    unfold replayStreamed
    dsimp only
    split_ifs <;> rfl
  rw [messages_finishRun, hmessages]
  refine ⟨thread.messages, toolMessages cfg.cap cfg.traceId response, _,
    response.streamMessage (response.outputText.getD "") (streamAnswer cfg response), [], rfl,
    by simp, fun m hm => ?_, rfl, rfl, (turnAlike_resultFromResponse h).1.text⟩
  obtain ⟨call, -, rfl⟩ := List.mem_map.1 hm
  rfl

theorem runPrompts_eq {systemPrompt : String} {thread : ChatThread}
    (h : thread.hasSystem = true ∨ systemPrompt ≠ "") (cfg : TurnConfig) (taskPrompt : String) :
    runPrompts cfg systemPrompt taskPrompt thread
      = streamPrompts cfg systemPrompt taskPrompt thread := by
  unfold runPrompts streamPrompts
  rcases h with hsystem | hprompt
  · simp [hsystem]
  · simp [hprompt]

end FirstTurn

/-! ## The loops -/

def drivenTurns (result : AgentLoopResult) : List RunResult :=
  if result.stoppedReason = .synthesized then result.turns.dropLast else result.turns

section Loops

variable (model : AgentModel σ) (cfg : TurnConfig) (task : LoopTask) (st : σ × ChatThread)

def firstRequest : List InferenceMessage :=
  (streamPrompts cfg task.systemPrompt task.taskPrompt st.2).request

def firstResponse : InferenceResponse :=
  (model.respond st.1 true (firstRequest cfg task st)).1

theorem drivenTurns_finishLoop {driven : AgentLoopResult × (σ × ChatThread)}
    (h : driven.1.stoppedReason ≠ .synthesized) (synthesizeEmpty : Bool) :
    drivenTurns (finishLoop model cfg task synthesizeEmpty driven).1 = driven.1.turns := by
  unfold finishLoop AgentEnvironment.maybeSynthesize drivenTurns
  split_ifs <;> simp_all

theorem driveLoop_ne_synthesized (turn : σ → RunResult × σ) (settings : LoopSettings)
    (first : RunResult) (more : List RunResult) (st : σ) :
    (driveLoop turn settings first more st).1.stoppedReason ≠ .synthesized := by
  obtain ⟨made, reason, hresult, hstop, -⟩ := driveLoop_spec turn settings first more st
  rw [hresult]
  rintro rfl
  exact settings.stopReason_ne_synthesized _ hstop

def guardedResponse : InferenceResponse :=
  { firstResponse model cfg task st with
    outputText := some (streamAnswer cfg (firstResponse model cfg task st)) }

def streamedFirst : RunResult :=
  resultFromResponse cfg.traceId (guardedResponse model cfg task st)

def streamedState : σ × ChatThread :=
  ((streamTask model cfg task st).2.1,
    replayStreamed cfg (guardedResponse model cfg task st) (streamTask model cfg task st).2.2)

theorem streamAgentLoop_ok {maxTurns : Int} (costBudget : Option Rat) {hitl : Bool}
    (stopOnNoProgress synthesizeEmpty : Bool) (st : σ × ChatThread)
    (hturns : validateMaxTurns maxTurns "stream_agent_loop" = .ok ())
    (hstore : (hitl && !model.hasCheckpointStore) = false) :
    let first := streamedFirst model cfg task st
    let driven := streamDriveLoop (continueTurn model cfg) maxTurns costBudget hitl
      stopOnNoProgress first [] (streamedState model cfg task st)
    let result := finishLoop model cfg task synthesizeEmpty driven.2
    ∃ taken, (∀ rest, turnTexts (taken ++ rest) "" = turnTexts rest (if cfg.bufferOutput then ""
        else String.join (model.pieces st.1 true (firstRequest cfg task st)))) ∧
      streamAgentLoop model cfg task maxTurns costBudget hitl stopOnNoProgress synthesizeEmpty st
        = .ok (taken ++ toolDeltas first ++ [turnEndDelta 1 first] ++ driven.1
            ++ [{ requestId := first.requestId.getD "", done := true,
                  event := some (.done result.1) }],
          result.1, result.2) := by
  obtain ⟨htaken, htexts⟩ := takeFirstTurn_spec cfg (firstResponse model cfg task st).requestId
    (model.pieces st.1 true (firstRequest cfg task st)) (firstResponse model cfg task st)
    (streamPrompts cfg task.systemPrompt task.taskPrompt st.2)
  refine ⟨_, htexts, ?_⟩
  have htaken' : (takeFirstTurn (yields (streamTask model cfg task st).1)).2
      = some (guardedResponse model cfg task st) := htaken
  simp only [streamAgentLoop, hturns, hstore, Bool.false_eq_true, if_false, htaken']
  rfl

end Loops

theorem validateMaxTurns_cases (maxTurns : Int) (entryPoint entryPoint' : String) :
    (validateMaxTurns maxTurns entryPoint = .ok () ∧ validateMaxTurns maxTurns entryPoint' = .ok ()) ∨
      ∃ e e', validateMaxTurns maxTurns entryPoint = .error e ∧
        validateMaxTurns maxTurns entryPoint' = .error e' := by
  unfold validateMaxTurns
  split_ifs
  · exact .inr ⟨_, _, rfl, rfl⟩
  · exact .inr ⟨_, _, rfl, rfl⟩
  · exact .inl ⟨rfl, rfl⟩

theorem first_alike {model : AgentModel σ} {cfg : TurnConfig} {task : LoopTask} {st : σ × ChatThread}
    (hprompt : st.2.hasSystem = true ∨ task.systemPrompt ≠ "")
    (hfirst : TextAnswer cfg (firstResponse model cfg task st)) :
    let ran := (agentEnvironment model cfg task).runTask st
    TurnAlike ran.1 (streamedFirst model cfg task st) ∧
      ((firstResponse model cfg task st).outputText.isSome = true →
        ran.1 = streamedFirst model cfg task st) ∧
      StateAlike ran.2 (streamedState model cfg task st) := by
  have hrun : (agentEnvironment model cfg task).runTask st
      = ((finishRun cfg (firstResponse model cfg task st)
            (streamPrompts cfg task.systemPrompt task.taskPrompt st.2) task.isNewThread).1,
          (model.respond st.1 true (firstRequest cfg task st)).2,
          (finishRun cfg (firstResponse model cfg task st)
            (streamPrompts cfg task.systemPrompt task.taskPrompt st.2) task.isNewThread).2) := by
    simp only [agentEnvironment, runTask, runPrompts_eq hprompt]
    rfl
  have hthread : (streamTask model cfg task st).2.2
      = finishStream cfg (firstResponse model cfg task st)
          (streamPrompts cfg task.systemPrompt task.taskPrompt st.2) := by
    simp only [streamTask, streamDeltas_runStream]
    rfl
  obtain ⟨halike, heq⟩ := turnAlike_resultFromResponse hfirst
  dsimp only
  rw [hrun]
  refine ⟨halike, heq, rfl, ?_⟩
  rw [streamedState, hthread]
  exact reordered_first hfirst _ _

def steadyModel : AgentModel Unit where
  respond _ _ _ := ({ requestId := "request-1", status := .success, outputText := some "Done." }, ())
  pieces _ _ _ := ["Do", "ne."]
  applyDecision _ _ st := st

def searchTask : LoopTask where
  systemPrompt := "You look things up."
  taskPrompt := "What is the capital?"
  nudgeSystemPrompt := "You look things up."
  nudgePrompt := "Answer now."
  isNewThread := true

def lastMessageModel : AgentModel Unit where
  respond _ _ messages :=
    (match messages.getLast?.map InferenceMessage.role with
      | some "user" => { requestId := "request-1", status := .success, outputText := some "Looking.",
                         toolCalls := [{ toolCallId := "call-1", toolName := "search" }] }
      | some role => { requestId := "request-2", status := .success, outputText := some role }
      | none => { requestId := "request-2", status := .success }, ())
  pieces _ _ _ := ["Looking."]
  applyDecision _ _ st := st

end Himmy.Runtime
