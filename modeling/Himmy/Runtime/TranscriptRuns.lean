import Himmy.Inference.Transcripts
import Himmy.Runtime.SingleAgent

/-! # The threads that a run builds

A run puts messages on a thread in turns: first turns, streamed or not, continuation turns before
which the thread may be compacted, steering, and resumes. What the transcripts of a thread call and
answer depends on the call ids of its tool messages only (`wellFormed_iff`), so the invariant of a
run is that these are there and distinct. A resume puts a second tool message for the denied call on
the thread, and breaks it. -/

namespace Himmy.Runtime

/-! ## The messages of a request -/

/-- `metadata.get(key)` of a text. -/
def metadataText (metadata : Dict Value) (key : String) : Option String :=
  match metadata.find? key with
  | some (.str s) => some s
  | _ => none

/-- The message of `build_request`. -/
def Message.toInference (m : Message) : InferenceMessage where
  role := m.role.value
  content := m.content
  metadata := m.metadata
  toolCallId := metadataText m.metadata "tool_call_id"
  name := metadataText m.metadata "tool_name"

variable (thread : ChatThread)

def ChatThread.request : List InferenceMessage :=
  thread.messages.map Message.toInference

/-- Both providers accept the calls and answers of the transcript of a thread. -/
def WellFormed : Prop :=
  WellPaired ((openaiMessages thread.request).map OpenAIMessage.entry)
    ∧ WellPaired ((anthropicMessages thread.request).map AnthropicMessage.entry)

def Message.HasCallId (m : Message) : Prop :=
  m.role = .tool → ∃ callId, m.metadata.find? "tool_call_id" = some (.str callId)

def callIds (messages : List Message) : List String :=
  (messages.filter (fun m => m.role = .tool)).map
    (fun m => (metadataText m.metadata "tool_call_id").getD "")

@[simp] theorem callIds_append (messages more : List Message) :
    callIds (messages ++ more) = callIds messages ++ callIds more := by
  simp [callIds]

theorem callIds_of_ne_tool {m : Message} (h : m.role ≠ .tool) : callIds [m] = [] := by
  simp [callIds, h]

theorem value_eq_tool_iff (role : MessageRole) : role.value = "tool" ↔ role = .tool := by
  cases role <;> decide

theorem Message.HasCallId.regular {m : Message} (h : m.HasCallId) : m.toInference.Regular where
  role := by
    have hvalue : ∀ role : MessageRole, role.value ∈ ["system", "user", "assistant", "tool"] := by
      intro role
      cases role <;> decide
    exact hvalue m.role
  callId htool := by
    obtain ⟨callId, hcall⟩ := h ((value_eq_tool_iff m.role).1 htool)
    simp only [Message.toInference, metadataText, hcall]
    by_cases hblank : callId = "" <;> simp [pyOr, orNone, hblank]

theorem answeredCalls_request : answeredCalls thread.request = callIds thread.messages := by
  unfold answeredCalls callIds ChatThread.request
  rw [List.filter_map, List.map_map]
  congr 1
  · funext m
    simp only [Function.comp, Message.toInference]
    cases metadataText m.metadata "tool_call_id" with
    | none => rfl
    | some callId => by_cases hblank : callId = "" <;> simp [pyOr, orNone, hblank]
  · refine List.filter_congr (fun m _ => ?_)
    simp [Message.toInference, value_eq_tool_iff]

theorem wellFormed_iff {thread : ChatThread} (h : ∀ m ∈ thread.messages, m.HasCallId) :
    WellFormed thread ↔ "" ∉ callIds thread.messages ∧ (callIds thread.messages).Nodup := by
  have hregular : ∀ m ∈ thread.request, m.Regular := by
    intro m' hm'
    obtain ⟨m, hm, rfl⟩ := List.mem_map.1 hm'
    exact (h m hm).regular
  have hiff := wellPaired_messages_iff hregular
  rw [answeredCalls_request] at hiff
  unfold WellFormed
  rw [hiff.1, hiff.2, and_self]

/-! ## What the operations put on a thread -/

theorem find?_toolMetadata (requestId traceId : String) (call : ToolCallRecord)
    (ret : Option ToolReturnRecord) (fullContent : Option String) :
    (toolMetadata requestId traceId call ret fullContent).find? "tool_call_id"
      = some (.str call.toolCallId) := by
  have hkeys : ∀ text : Option String, ((["tool_call_id", "tool_name", "tool_outcome", "tool_args",
      "request_id", "trace_id", "tool_return_metadata"] : List String)
        ++ (text.map (fun _ => "full_content")).toList).Nodup := by
    intro text
    cases text <;> simp
  have hnodup := hkeys fullContent
  have hmem : ∀ more : List (String × Value), (("tool_call_id", Value.str call.toolCallId) :
      String × Value) ∈ [("tool_call_id", .str call.toolCallId), ("tool_name", .str call.toolName)]
        ++ more := fun more => by simp
  refine Dict.find?_ofList_of_mem (by cases fullContent <;> exact hnodup) (hmem _)

variable (cap : ToolResultCap)

theorem find?_toolMessage (requestId traceId : String)
    (call : ToolCallRecord) (ret : Option ToolReturnRecord) :
    (toolMessage cap requestId traceId call ret).metadata.find? "tool_call_id"
      = some (.str call.toolCallId) := by
  have hmetadata : (toolMessage cap requestId traceId call ret).metadata
      = toolMetadata requestId traceId call ret
          (if modelText cap call.toolName (outcomeText ret) = outcomeText ret then none
            else some (outcomeText ret)) := by
    simp only [toolMessage]
  rw [hmetadata, find?_toolMetadata]

def HaveCallIds (messages : List Message) : Prop := ∀ m ∈ messages, m.HasCallId

theorem HaveCallIds.append {messages more : List Message} (h : HaveCallIds messages)
    (h' : HaveCallIds more) : HaveCallIds (messages ++ more) := fun m hm =>
  (List.mem_append.1 hm).elim (h m) (h' m)

theorem haveCallIds_of_ne_tool {m : Message} (h : m.role ≠ .tool) : HaveCallIds [m] := by
  intro m' hm' htool
  rw [List.mem_singleton.1 hm'] at htool
  exact absurd htool h

variable (traceId : String) (response : InferenceResponse)

theorem haveCallIds_toolMessages
    : HaveCallIds (toolMessages cap traceId response) := by
  intro m hm _
  obtain ⟨call, -, rfl⟩ := List.mem_map.1 hm
  exact ⟨call.toolCallId, find?_toolMessage _ _ _ _ _⟩

def InferenceResponse.callIds : List String :=
  response.toolCalls.map ToolCallRecord.toolCallId

theorem callIds_toolMessages :
    callIds (toolMessages cap traceId response) = response.callIds := by
  have hfilter : (toolMessages cap traceId response).filter (fun m => m.role = .tool)
      = toolMessages cap traceId response := by
    rw [List.filter_eq_self]
    intro m hm
    obtain ⟨call, -, rfl⟩ := List.mem_map.1 hm
    rfl
  unfold callIds
  rw [hfilter, toolMessages, List.map_map, InferenceResponse.callIds]
  refine List.map_congr_left (fun call _ => ?_)
  simp only [Function.comp, metadataText, find?_toolMessage, Option.getD_some]

theorem prompts_spec (systemPrompt userText : String) (b : Bool) :
    let prompts : List Message := (if b then [{ role := .system, content := systemPrompt }] else [])
      ++ [{ role := .user, content := userText }]
    HaveCallIds prompts ∧ callIds prompts = [] := by
  have huser : HaveCallIds [({ role := .user, content := userText } : Message)] :=
    haveCallIds_of_ne_tool (by simp)
  cases b with
  | false => exact ⟨huser, rfl⟩
  | true => exact ⟨(haveCallIds_of_ne_tool (by simp)).append huser, rfl⟩

/-- A thread continues another one with messages whose tool messages answer the calls `ids`. -/
structure Continues (ids : List String) (thread thread' : ChatThread) : Prop where
  haveCallIds : HaveCallIds thread.messages → HaveCallIds thread'.messages
  callIds : callIds thread'.messages = callIds thread.messages ++ ids

theorem Continues.trans {ids more : List String} {thread thread' thread'' : ChatThread}
    (h : Continues ids thread thread') (h' : Continues more thread' thread'') :
    Continues (ids ++ more) thread thread'' where
  haveCallIds hids := h'.haveCallIds (h.haveCallIds hids)
  callIds := by rw [h'.callIds, h.callIds, List.append_assoc]

theorem continues_append {messages : List Message}
    (h : HaveCallIds messages) : Continues (Runtime.callIds messages) thread (thread.append messages) where
  haveCallIds hids := hids.append h
  callIds := callIds_append _ _

theorem Continues.bump {ids : List String} {thread thread' : ChatThread}
    (h : Continues ids thread thread') : Continues ids thread thread'.bump :=
  ⟨h.haveCallIds, h.callIds⟩

theorem continues_appendToolMessages
    (thread : ChatThread) :
    Continues response.callIds thread (appendToolMessages cap traceId response thread) := by
  rw [← callIds_toolMessages cap traceId response]
  exact continues_append thread (haveCallIds_toolMessages cap traceId response)

theorem continues_message {m : Message} (h : m.role ≠ .tool) :
    Continues [] thread (thread.append [m]) := by
  rw [← callIds_of_ne_tool h]
  exact continues_append thread (haveCallIds_of_ne_tool h)

section Operations

variable (cfg : TurnConfig) (response : InferenceResponse) (thread : ChatThread)

theorem continues_runPrompts (systemPrompt taskPrompt : String) :
    Continues [] thread (runPrompts cfg systemPrompt taskPrompt thread) := by
  obtain ⟨hids, hcalls⟩ := prompts_spec systemPrompt (cfg.guardInput taskPrompt)
    (!thread.hasSystem && systemPrompt ≠ "")
  rw [← hcalls]
  exact continues_append thread hids

theorem continues_streamPrompts (systemPrompt taskPrompt : String) :
    Continues [] thread (streamPrompts cfg systemPrompt taskPrompt thread) := by
  obtain ⟨hids, hcalls⟩ := prompts_spec systemPrompt (cfg.guardInput taskPrompt) (!thread.hasSystem)
  rw [← hcalls]
  exact continues_append thread hids

theorem continues_finishRun (isNewThread : Bool) :
    Continues response.callIds thread (finishRun cfg response thread isNewThread).2 := by
  have h := (continues_appendToolMessages cfg.cap cfg.traceId response thread).trans
    (continues_message _ (m := response.runMessage cfg.traceId
      (cfg.guardOutput response.answerText)) (by simp [InferenceResponse.runMessage]))
  rw [List.append_nil] at h
  unfold finishRun
  cases isNewThread with
  | true => exact h
  | false => exact h.bump

theorem continues_finishContinue :
    Continues response.callIds thread (finishContinue cfg response thread).2 := by
  have h := (continues_appendToolMessages cfg.cap cfg.traceId response thread).trans
    (continues_message _ (m := response.continueMessage cfg.traceId
      (cfg.guardOutput response.answerText)) (by simp [InferenceResponse.continueMessage]))
  rw [List.append_nil] at h
  exact h.bump

theorem continues_finishStream : Continues [] thread (finishStream cfg response thread) :=
  continues_message thread (by simp [InferenceResponse.streamMessage])

theorem continues_replayStreamed :
    Continues response.callIds thread (replayStreamed cfg response thread) := by
  have h := continues_appendToolMessages cfg.cap cfg.traceId response thread
  unfold replayStreamed
  dsimp only
  split_ifs
  · exact h
  · exact h.bump

theorem continues_drainSteerQueue (texts : List String) :
    Continues [] thread (drainSteerQueue texts thread) := by
  have huser : ∀ m ∈ texts.filterMap (fun text =>
      let content := pyStrip isPySpace text.toList
      if content = [] then none
      else some { role := MessageRole.user, content := String.ofList content,
                  metadata := Dict.ofList [("steer", .bool true)] : Message }), m.role ≠ .tool := by
    intro m hm
    obtain ⟨text, -, htext⟩ := List.mem_filterMap.1 hm
    dsimp only at htext
    split_ifs at htext
    rw [← Option.some.inj htext]
    simp
  unfold drainSteerQueue
  dsimp only
  split_ifs with hnone
  · exact ⟨id, (List.append_nil _).symm⟩
  · have hcalls : callIds (texts.filterMap _) = [] :=
      List.map_eq_nil_iff.2 (List.filter_eq_nil_iff.2 (fun m hm => by simpa using huser m hm))
    have h := continues_append thread (fun m hm htool => absurd htool (huser m hm))
    rw [hcalls] at h
    exact h.bump

theorem continues_applyDecision (checkpointId actor : String)
    (execute : Option (PendingToolCall → ToolExecution)) (pending : List PendingToolCall) :
    Continues (pending.map PendingToolCall.toolCallId) thread
      (applyDecision cfg checkpointId actor execute pending thread) := by
  unfold applyDecision
  refine Continues.bump ?_
  induction pending generalizing thread with
  | nil => exact ⟨id, (List.append_nil _).symm⟩
  | cons call pending ih =>
    rw [List.foldl_cons, List.map_cons, ← List.singleton_append]
    exact (continues_appendToolMessages cfg.cap cfg.traceId
      (resumeResponse checkpointId call (decidedReturn actor execute call)) thread).trans (ih _)

end Operations

/-! ## Runs -/

/-- The tool messages of a thread answer distinct calls. -/
structure Sound (thread : ChatThread) : Prop where
  haveCallIds : HaveCallIds thread.messages
  blank : "" ∉ callIds thread.messages
  nodup : (callIds thread.messages).Nodup

variable {thread : ChatThread}

theorem Sound.wellFormed (h : Sound thread) : WellFormed thread :=
  (wellFormed_iff h.haveCallIds).2 ⟨h.blank, h.nodup⟩

theorem HaveCallIds.sound_iff (h : HaveCallIds thread.messages) :
    Sound thread ↔ WellFormed thread :=
  ⟨Sound.wellFormed, fun hwell => ⟨h, ((wellFormed_iff h).1 hwell).1, ((wellFormed_iff h).1 hwell).2⟩⟩

/-- Call ids that are there, distinct, and new to a thread. -/
structure NewCalls (thread : ChatThread) (ids : List String) : Prop where
  blank : "" ∉ ids
  nodup : ids.Nodup
  new : ∀ id ∈ ids, id ∉ callIds thread.messages

theorem Sound.continues_iff {thread thread' : ChatThread} {ids : List String} (h : Sound thread)
    (hcontinues : Continues ids thread thread') : Sound thread' ↔ NewCalls thread ids := by
  constructor
  · intro h'
    have hblank := h'.blank
    have hnodup := h'.nodup
    rw [hcontinues.callIds, List.mem_append, not_or] at hblank
    rw [hcontinues.callIds, List.nodup_append] at hnodup
    exact ⟨hblank.2, hnodup.2.1, fun id hid hmem => hnodup.2.2 id hmem id hid rfl⟩
  · intro hnew
    refine ⟨hcontinues.haveCallIds h.haveCallIds, ?_, ?_⟩
    · rw [hcontinues.callIds, List.mem_append, not_or]
      exact ⟨h.blank, hnew.blank⟩
    · rw [hcontinues.callIds, List.nodup_append]
      exact ⟨h.nodup, hnew.nodup, fun id hid id' hid' he => hnew.new id' hid' (he ▸ hid)⟩

theorem maybeCompact_spec (compactor : ContextCompactor) (summarize : String → String)
    (h : HaveCallIds thread.messages) :
    HaveCallIds (compactor.maybeCompact summarize thread).1.messages ∧
      List.Sublist (callIds (compactor.maybeCompact summarize thread).1.messages)
        (callIds thread.messages) := by
  unfold ContextCompactor.maybeCompact
  cases hplan : compactor.plan thread.messages with
  | none => exact ⟨h, List.Sublist.refl _⟩
  | some plan =>
    dsimp only
    split_ifs
    · exact ⟨h, List.Sublist.refl _⟩
    · exact ⟨h, List.Sublist.refl _⟩
    · have hsub := filter_compacted_sublist hplan
        (summarize (ContextCompactor.renderSpan plan.summarize))
        (p := fun m => m.role = .tool) (by simp [ContextCompactor.summaryMessage])
      refine ⟨fun m hm htool => ?_, hsub.map _⟩
      have hmem := hsub.subset (List.mem_filter.2 ⟨hm, by simpa using htool⟩)
      exact h m (List.mem_filter.1 hmem).1 htool

/-- `_maybe_compact`, when a compactor is set. -/
def compactThread (compactor : Option ContextCompactor) (summarize : String → String)
    (thread : ChatThread) : ChatThread :=
  match compactor with
  | some compactor => (compactor.maybeCompact summarize thread).1
  | none => thread

theorem haveCallIds_compactThread (h : HaveCallIds thread.messages)
    (compactor : Option ContextCompactor) (summarize : String → String) :
    HaveCallIds (compactThread compactor summarize thread).messages := by
  cases compactor with
  | none => exact h
  | some compactor => exact (maybeCompact_spec compactor summarize h).1

theorem Sound.compactThread (h : Sound thread)
    (compactor : Option ContextCompactor) (summarize : String → String) :
    Sound (compactThread compactor summarize thread) := by
  cases compactor with
  | none => exact h
  | some compactor =>
    obtain ⟨hids, hsub⟩ := maybeCompact_spec compactor summarize h.haveCallIds
    exact ⟨hids, fun hmem => h.blank (hsub.subset hmem), hsub.nodup h.nodup⟩

/-- A thread, and the calls of its last turn that wait for an approval. -/
structure ThreadState where
  thread : ChatThread := {}
  pending : List PendingToolCall := []

/-- What puts messages on a thread. -/
inductive ThreadStep where
  | runTask (systemPrompt taskPrompt : String) (isNewThread : Bool) (response : InferenceResponse)
  /-- a streamed turn: the loop replays its tool calls, `stream_task` alone does not -/
  | streamTask (systemPrompt taskPrompt : String) (replay : Bool) (response : InferenceResponse)
  | continueTurn (compactor : Option ContextCompactor) (summarize : String → String)
      (response : InferenceResponse)
  | steer (texts : List String)
  | resume (checkpointId actor : String) (execute : Option (PendingToolCall → ToolExecution))

namespace ThreadState

def pendingOf (response : InferenceResponse) : List PendingToolCall :=
  (response.runResult "" none).pendingApprovals

def step (cfg : TurnConfig) (s : ThreadState) : ThreadStep → Option ThreadState
  | .runTask systemPrompt taskPrompt isNewThread response =>
    some { thread := (finishRun cfg response (runPrompts cfg systemPrompt taskPrompt s.thread)
             isNewThread).2
           pending := pendingOf response }
  | .streamTask systemPrompt taskPrompt replay response =>
    let thread := finishStream cfg response (streamPrompts cfg systemPrompt taskPrompt s.thread)
    some { thread := if replay then replayStreamed cfg response thread else thread
           pending := if replay then pendingOf response else [] }
  | .continueTurn compactor summarize response =>
    some { thread := (finishContinue cfg response (compactThread compactor summarize s.thread)).2
           pending := pendingOf response }
  | .steer texts => some { s with thread := drainSteerQueue texts s.thread }
  | .resume checkpointId actor execute =>
    if s.pending = [] then none
    else some { thread := applyDecision cfg checkpointId actor execute s.pending s.thread
                pending := [] }

def Fresh (s : ThreadState) : ThreadStep → Prop
  | .runTask _ _ _ response => NewCalls s.thread response.callIds
  | .streamTask _ _ replay response => replay = true → NewCalls s.thread response.callIds
  | .continueTurn compactor summarize response =>
    NewCalls (compactThread compactor summarize s.thread) response.callIds
  | .steer _ => True
  | .resume _ _ _ => False

end ThreadState

def threadRuns (cfg : TurnConfig) : LTS ThreadState ThreadStep where
  step := ThreadState.step cfg

/-- Every tool message of the thread has the id of a call, and the pending calls have tool messages. -/
structure Recorded (s : ThreadState) : Prop where
  haveCallIds : HaveCallIds s.thread.messages
  pending : ∀ call ∈ s.pending, call.toolCallId ∈ callIds s.thread.messages

theorem newCalls_nil (thread : ChatThread) : NewCalls thread [] := ⟨nofun, List.nodup_nil, nofun⟩

variable {thread thread' : ChatThread}

theorem Continues.sound_iff (h : Continues [] thread thread')
    (hsound : Sound thread) : Sound thread' := (hsound.continues_iff h).2 (newCalls_nil thread)

theorem Continues.newCalls_iff (h : Continues [] thread thread')
    (ids : List String) : NewCalls thread' ids ↔ NewCalls thread ids := by
  have hids := h.callIds
  rw [List.append_nil] at hids
  constructor
  · exact fun hnew => ⟨hnew.blank, hnew.nodup, fun id hid => hids ▸ hnew.new id hid⟩
  · exact fun hnew => ⟨hnew.blank, hnew.nodup, fun id hid => hids.symm ▸ hnew.new id hid⟩

theorem mem_callIds_of_pendingOf {response : InferenceResponse} {call : PendingToolCall}
    (h : call ∈ ThreadState.pendingOf response) : call.toolCallId ∈ response.callIds := by
  obtain ⟨record, hrecord, rfl⟩ := List.mem_map.1 h
  exact List.mem_map.2 ⟨record, (List.mem_filter.1 hrecord).1, rfl⟩

theorem Continues.recorded {response : InferenceResponse}
    (h : Continues response.callIds thread thread') (hids : HaveCallIds thread.messages) :
    Recorded { thread := thread', pending := ThreadState.pendingOf response } where
  haveCallIds := h.haveCallIds hids
  pending call hcall := by
    rw [h.callIds]
    exact List.mem_append_right _ (mem_callIds_of_pendingOf hcall)

section Steps

variable {cfg : TurnConfig} {s s' : ThreadState} {a : ThreadStep}

theorem step_spec (hrecorded : Recorded s) (hstep : (threadRuns cfg).step s a = some s') :
    Recorded s' ∧ (Sound s.thread → (Sound s'.thread ↔ s.Fresh a)) := by
  cases a with
  | runTask systemPrompt taskPrompt isNewThread response =>
    obtain rfl := Option.some.inj hstep
    have hprompts := continues_runPrompts cfg s.thread systemPrompt taskPrompt
    have hrun := continues_finishRun cfg response
      (runPrompts cfg systemPrompt taskPrompt s.thread) isNewThread
    refine ⟨hrun.recorded (hprompts.haveCallIds hrecorded.haveCallIds), fun hsound => ?_⟩
    exact ((hprompts.sound_iff hsound).continues_iff hrun).trans (hprompts.newCalls_iff _)
  | streamTask systemPrompt taskPrompt replay response =>
    obtain rfl := Option.some.inj hstep
    have hprompts := (continues_streamPrompts cfg s.thread systemPrompt taskPrompt).trans
      (continues_finishStream cfg response _)
    have hids := hprompts.haveCallIds hrecorded.haveCallIds
    cases replay with
    | false =>
      refine ⟨⟨hids, nofun⟩, fun hsound => iff_of_true (hprompts.sound_iff hsound) nofun⟩
    | true =>
      have hreplay := continues_replayStreamed cfg response
        (finishStream cfg response (streamPrompts cfg systemPrompt taskPrompt s.thread))
      refine ⟨hreplay.recorded hids, fun hsound => ?_⟩
      exact (((hprompts.sound_iff hsound).continues_iff hreplay).trans
        (hprompts.newCalls_iff _)).trans ⟨fun h _ => h, fun h => h rfl⟩
  | continueTurn compactor summarize response =>
    obtain rfl := Option.some.inj hstep
    have hcontinue := continues_finishContinue cfg response
      (compactThread compactor summarize s.thread)
    refine ⟨hcontinue.recorded ?_, fun hsound => ?_⟩
    · exact haveCallIds_compactThread hrecorded.haveCallIds compactor summarize
    · exact (hsound.compactThread compactor summarize).continues_iff hcontinue
  | steer texts =>
    obtain rfl := Option.some.inj hstep
    have hsteer := continues_drainSteerQueue s.thread texts
    refine ⟨⟨hsteer.haveCallIds hrecorded.haveCallIds, fun call hcall => ?_⟩, fun hsound =>
      iff_of_true (hsteer.sound_iff hsound) trivial⟩
    rw [hsteer.callIds, List.append_nil]
    exact hrecorded.pending call hcall
  | resume checkpointId actor execute =>
    simp only [threadRuns, ThreadState.step, Option.ite_none_left_eq_some] at hstep
    obtain ⟨hpending, hs'⟩ := hstep
    obtain rfl := Option.some.inj hs'
    have hdecided := continues_applyDecision cfg s.thread checkpointId actor execute s.pending
    refine ⟨⟨hdecided.haveCallIds hrecorded.haveCallIds, nofun⟩, fun hsound => ?_⟩
    refine iff_of_false (fun h => ?_) id
    -- the first pending call has a tool message on the thread already
    obtain ⟨call, hcall⟩ := List.exists_mem_of_ne_nil _ hpending
    exact ((hsound.continues_iff hdecided).1 h).new call.toolCallId
      (List.mem_map_of_mem hcall) (hrecorded.pending call hcall)

theorem wellFormed_along_iff (hrecorded : Recorded s) (hsound : Sound s.thread)
    (steps : List ThreadStep) (hrun : ((threadRuns cfg).exec s steps).isSome = true) :
    (∀ before after t, steps = before ++ after → (threadRuns cfg).exec s before = some t →
        WellFormed t.thread) ↔ (threadRuns cfg).AlongRun ThreadState.Fresh s steps := by
  induction steps generalizing s with
  | nil =>
    refine iff_of_true (fun before after t hsplit ht => ?_) trivial
    obtain ⟨rfl, -⟩ := List.append_eq_nil_iff.1 hsplit.symm
    rw [LTS.exec_nil, Option.some.injEq] at ht
    exact ht ▸ hsound.wellFormed
  | cons a steps ih =>
    obtain ⟨t, ht⟩ := Option.isSome_iff_exists.1 hrun
    obtain ⟨s', hstep, hrest⟩ := (threadRuns cfg).exec_cons_eq_some.1 ht
    obtain ⟨hrecorded', hiff⟩ := step_spec hrecorded hstep
    have hstepIff := hiff hsound
    rw [hrecorded'.haveCallIds.sound_iff] at hstepIff
    constructor
    · intro hwell
      have hwell' : WellFormed s'.thread := hwell [a] steps s' rfl
        ((threadRuns cfg).exec_cons_eq_some.2 ⟨s', hstep, rfl⟩)
      refine ⟨hstepIff.1 hwell', fun s'' hs'' => ?_⟩
      obtain rfl := Option.some.inj (hstep.symm.trans hs'')
      refine (ih hrecorded' (hrecorded'.haveCallIds.sound_iff.2 hwell')
        (by rw [hrest]; rfl)).1 (fun before after t hsplit ht => ?_)
      exact hwell (a :: before) after t (by rw [hsplit, List.cons_append])
        ((threadRuns cfg).exec_cons_eq_some.2 ⟨s', hstep, ht⟩)
    · rintro ⟨hfresh, hmore⟩ before after t hsplit ht
      have hwell' := hstepIff.2 hfresh
      cases before with
      | nil =>
        rw [LTS.exec_nil, Option.some.injEq] at ht
        exact ht ▸ hsound.wellFormed
      | cons b before =>
        rw [List.cons_append, List.cons.injEq] at hsplit
        obtain ⟨rfl, hsplit⟩ := hsplit
        obtain ⟨s'', hs'', ht⟩ := (threadRuns cfg).exec_cons_eq_some.1 ht
        obtain rfl := Option.some.inj (hstep.symm.trans hs'')
        exact (ih hrecorded' (hrecorded'.haveCallIds.sound_iff.2 hwell')
          (by rw [hrest]; rfl)).2 (hmore s' hstep) before after t hsplit ht

end Steps

theorem recorded_empty : Recorded {} where
  haveCallIds := nofun
  pending := nofun

theorem sound_empty : Sound {} where
  haveCallIds := nofun
  blank := nofun
  nodup := List.nodup_nil

/-- The threads of a run are well formed if and only if the calls of each of its turns have ids that
    are new to the thread, and it resumes no denied call. -/
theorem wellFormed_iff_fresh (cfg : TurnConfig) {steps : List ThreadStep}
    (hrun : ((threadRuns cfg).exec {} steps).isSome = true) :
    (∀ before after s, steps = before ++ after → (threadRuns cfg).exec {} before = some s →
        WellFormed s.thread) ↔ (threadRuns cfg).AlongRun ThreadState.Fresh {} steps :=
  wellFormed_along_iff recorded_empty sound_empty steps hrun

def deniedResponse : InferenceResponse where
  requestId := "request-1"
  status := .success
  toolCalls := [{ toolCallId := "call-1", toolName := "refund" }]
  toolReturns := [{ toolCallId := "call-1", toolName := "refund", outcome := "denied",
                    metadata := Dict.ofList [("error_code", .str "POLICY_BLOCKED")] }]

def deniedTurn : ThreadStep := .runTask "" "Refund the order." true deniedResponse

def rejectedCall : ThreadStep := .resume "checkpoint-1" "reviewer" none

theorem pendingOf_deniedResponse : ThreadState.pendingOf deniedResponse ≠ [] := by
  have hcode : (Dict.ofList [("error_code", Value.str "POLICY_BLOCKED")]).find? "error_code"
      = some (.str "POLICY_BLOCKED") := by
    rw [Dict.find?_ofList_cons]
    rfl
  simp [ThreadState.pendingOf, RunResult.pendingApprovals, InferenceResponse.runResult,
    deniedResponse, RunResult.deniedForApproval, hcode]

theorem fresh_deniedTurn : ThreadState.Fresh {} deniedTurn where
  blank := by decide
  nodup := by decide
  new := nofun

/-- The denied call is answered again when it is rejected: the thread declares its id twice. -/
theorem not_wellFormed_rejectedCall :
    ∃ s, (threadRuns {}).exec {} [deniedTurn, rejectedCall] = some s ∧ ¬ WellFormed s.thread := by
  obtain ⟨s, hturn⟩ : ∃ s, (threadRuns {}).step {} deniedTurn = some s := ⟨_, rfl⟩
  obtain ⟨hrecorded, hsound⟩ := step_spec recorded_empty hturn
  have hpending : s.pending ≠ [] := Option.some.inj hturn ▸ pendingOf_deniedResponse
  obtain ⟨t, hreject⟩ : ∃ t, (threadRuns {}).step s rejectedCall = some t := ⟨_, if_neg hpending⟩
  obtain ⟨hrecorded', hsound'⟩ := step_spec hrecorded hreject
  refine ⟨t, ?_, fun hwell => ?_⟩
  · exact (threadRuns {}).exec_cons_eq_some.2 ⟨s, hturn,
      (threadRuns {}).exec_cons_eq_some.2 ⟨t, hreject, rfl⟩⟩
  · exact (hsound' ((hsound sound_empty).2 fresh_deniedTurn)).1
      (hrecorded'.haveCallIds.sound_iff.2 hwell)

theorem wellFormed_iff_fresh_deniedTurn :
    (threadRuns {}).AlongRun ThreadState.Fresh {} [deniedTurn] ∧
      (∀ before after s, [deniedTurn] = before ++ after →
        (threadRuns {}).exec {} before = some s → WellFormed s.thread) := by
  have hfresh : (threadRuns {}).AlongRun ThreadState.Fresh {} [deniedTurn] :=
    ⟨fresh_deniedTurn, fun _ _ => trivial⟩
  exact ⟨hfresh, (wellFormed_iff_fresh {} rfl).2 hfresh⟩

end Himmy.Runtime
