import Himmy.Inference.Models
import Himmy.Library.CallPairing

/-! # The transcripts that providers are sent

`_openai_messages` and `_anthropic_messages` project the messages of a request. The tool calls of an
assistant message are not among them: they are rebuilt from the tool messages that answer them, and
added to the assistant message before, or to a new one. Both projections run over the messages with
a pointer to the assistant message that takes the calls; on the calls and answers they do what
`Rebuild` does (`entries_openaiMessages`, `entries_anthropicMessages`). -/

namespace Himmy

open Rebuild (anchored declare step run)

/-- `value.get(key)` of a dictionary. -/
def Value.get? (key : String) : Value → Option Value
  | .dict kvs => (kvs.find? (fun kv => kv.1 = key)).map Prod.snd
  | _ => none

def Value.textAt (key : String) (value : Value) : String :=
  ((value.get? key).getD (.str "")).pyStr

def InferenceMessage.lowerRole (m : InferenceMessage) : String := pyLower (pyOr (some m.role) "user")

def InferenceMessage.toolCallBlock (m : InferenceMessage) : Option Value :=
  (m.metadataOr m.toolCallId "tool_call_id").map fun callId =>
    .dict [
      ("id", .str callId.pyStr),
      ("type", .str "function"),
      ("function", .dict [
        ("name", (m.metadataOr m.name "tool_name").getD (.str "")),
        ("arguments", .str (Value.jsonDumps (match m.metadata.find? "tool_args" with
          | some (.dict args) => .dict args
          | _ => .dict [])))])]

/-- The messages of a transcript so far, and the index of the assistant message that takes the calls
    of the tool messages that come next. -/
structure Projection (μ : Type) where
  messages : List μ := []
  toolAnchor : Option Nat := none

/-! ## OpenAI -/

/-- A message of an OpenAI chat. -/
structure OpenAIMessage where
  role : String
  content : Option String
  toolCalls : List Value := []
  toolCallId : Option String := none

namespace OpenAIMessage

/-- `setdefault("tool_calls", []).append(block)`. -/
def addToolCall (block : Value) (m : OpenAIMessage) : OpenAIMessage :=
  { m with toolCalls := m.toolCalls ++ [block] }

def entry (m : OpenAIMessage) : Entry String :=
  if m.role = "assistant" then .calls (m.toolCalls.map (Value.textAt "id"))
  else if m.role = "tool" then .answer (m.toolCallId.getD "")
  else .other

end OpenAIMessage

def openaiAnchored (s : Projection OpenAIMessage) : Projection OpenAIMessage :=
  match s.toolAnchor with
  | some _ => s
  | none =>
    { messages := s.messages ++ [{ role := "assistant", content := none }]
      toolAnchor := some s.messages.length }

def openaiDeclare (block : Value) (s : Projection OpenAIMessage) : Projection OpenAIMessage :=
  match (openaiAnchored s).toolAnchor with
  | some k => { openaiAnchored s with
      messages := (openaiAnchored s).messages.modify k (OpenAIMessage.addToolCall block) }
  | none => openaiAnchored s

def openaiStep (s : Projection OpenAIMessage) (m : InferenceMessage) : Projection OpenAIMessage :=
  let role := m.lowerRole
  if role = "tool" then
    let s := match m.toolCallBlock with
      | some block => openaiDeclare block s
      | none => s
    { s with messages := s.messages ++ [{ role := "tool", content := some m.content,
                                           toolCallId := some (pyOr m.toolCallId "") }] }
  else if role = "system" || role = "assistant" || role = "user" then
    { messages := s.messages ++ [{ role := role, content := some m.content }]
      toolAnchor := if role = "assistant" then some s.messages.length else none }
  else { messages := s.messages ++ [{ role := "user", content := some m.content }] }

/-- `_openai_messages`, with the content of system messages as a text. -/
def openaiMessages (messages : List InferenceMessage) : List OpenAIMessage :=
  (messages.foldl openaiStep {}).messages

/-! ## Anthropic -/

/-- A message of an Anthropic conversation: its content is a text or a list of blocks. -/
structure AnthropicMessage where
  role : String
  content : Value

def textBlock (text : String) : Value := .dict [("type", .str "text"), ("text", .str text)]

def toolResultBlock (m : InferenceMessage) : Value := .dict [
  ("type", .str "tool_result"),
  ("tool_use_id", .str (pyOr m.toolCallId "")),
  ("content", .str m.content)]

namespace AnthropicMessage

def contentBlocks (m : AnthropicMessage) : List Value :=
  match m.content with
  | .str text => if text = "" then [] else [textBlock text]
  | .list blocks => blocks
  | _ => []

def addToolUse (block : Value) (m : AnthropicMessage) : AnthropicMessage :=
  { m with content := .list (m.contentBlocks ++ [block]) }

def toolUseIds (blocks : List Value) : List String :=
  (blocks.filter (fun block => block.textAt "type" = "tool_use")).map (Value.textAt "id")

def entry (m : AnthropicMessage) : Entry String :=
  if m.role = "assistant" then .calls (toolUseIds m.contentBlocks)
  else match m.contentBlocks with
    | block :: _ =>
      if block.textAt "type" = "tool_result" then .answer (block.textAt "tool_use_id") else .other
    | [] => .other

end AnthropicMessage

def anthropicAnchored (s : Projection AnthropicMessage) : Projection AnthropicMessage :=
  match s.toolAnchor with
  | some _ => s
  | none =>
    { messages := s.messages ++ [{ role := "assistant", content := .list [] }]
      toolAnchor := some s.messages.length }

def anthropicDeclare (block : Value) (s : Projection AnthropicMessage) :
    Projection AnthropicMessage :=
  match (anthropicAnchored s).toolAnchor with
  | some k => { anthropicAnchored s with
      messages := (anthropicAnchored s).messages.modify k (AnthropicMessage.addToolUse block) }
  | none => anthropicAnchored s

def anthropicStep (s : Projection AnthropicMessage) (m : InferenceMessage) :
    Projection AnthropicMessage :=
  let role := m.lowerRole
  if role = "system" then s
  else if role = "tool" then
    let s := match m.toolUseBlock with
      | some block => anthropicDeclare block s
      | none => s
    { messages := s.messages ++ [{ role := "user", content := .list [toolResultBlock m] }] }
  else if role = "assistant" then
    { messages := s.messages ++ [{ role := "assistant", content := .str m.content }]
      toolAnchor := some s.messages.length }
  else { messages := s.messages ++ [{ role := "user", content := .str m.content }] }

def anthropicMessages (messages : List InferenceMessage) : List AnthropicMessage :=
  (messages.foldl anthropicStep {}).messages

/-! ## The calls and answers of a transcript -/

/-- A message has one of the four roles, and the id of the call that a tool message answers is the
    one in its metadata. -/
structure InferenceMessage.Regular (m : InferenceMessage) : Prop where
  role : m.role ∈ ["system", "user", "assistant", "tool"]
  callId : m.role = "tool" →
    m.metadata.find? "tool_call_id" = some (.str (pyOr m.toolCallId ""))

def InferenceMessage.item (m : InferenceMessage) : Item String :=
  if m.role = "tool" then .answer (pyOr m.toolCallId "")
  else if m.role = "assistant" then .turn
  else .other

def Projection.rebuild {μ : Type} (entry : μ → Entry String) (s : Projection μ) : Rebuild String where
  entries := s.messages.map entry
  anchor := s.toolAnchor

variable {m : InferenceMessage}

theorem InferenceMessage.Regular.lowerRole (h : m.Regular) : m.lowerRole = m.role := by
  have hrole := h.role
  simp only [List.mem_cons, List.not_mem_nil, or_false] at hrole
  unfold InferenceMessage.lowerRole
  rcases hrole with hrole | hrole | hrole | hrole <;> rw [hrole] <;> decide

theorem InferenceMessage.Regular.metadataOr (h : m.Regular) (htool : m.role = "tool") :
    m.metadataOr m.toolCallId "tool_call_id"
      = if pyOr m.toolCallId "" = "" then none else some (.str (pyOr m.toolCallId "")) := by
  have hcall := h.callId htool
  unfold InferenceMessage.metadataOr
  rw [hcall]
  unfold pyOr
  cases horNone : orNone m.toolCallId with
  | none => simp [Value.truthy]
  | some id =>
    have hne : id ≠ "" := (orNone_eq_some_iff.1 horNone).2
    simp [hne]

theorem OpenAIMessage.entry_addToolCall (block : Value) (m : OpenAIMessage) :
    (m.addToolCall block).entry = m.entry.addCall (block.textAt "id") := by
  unfold OpenAIMessage.entry OpenAIMessage.addToolCall
  split_ifs <;> simp [Entry.addCall]

theorem rebuild_openaiAnchored (s : Projection OpenAIMessage) :
    (openaiAnchored s).rebuild OpenAIMessage.entry = (s.rebuild OpenAIMessage.entry).anchored := by
  unfold openaiAnchored anchored
  cases hanchor : s.toolAnchor <;> simp [Projection.rebuild, hanchor, OpenAIMessage.entry]

theorem rebuild_openaiDeclare (block : Value) (s : Projection OpenAIMessage) :
    (openaiDeclare block s).rebuild OpenAIMessage.entry
      = (s.rebuild OpenAIMessage.entry).declare (block.textAt "id") := by
  unfold openaiDeclare declare
  rw [← rebuild_openaiAnchored]
  cases hanchor : (openaiAnchored s).toolAnchor with
  | none => simp [Projection.rebuild, hanchor]
  | some k =>
    simp only [Projection.rebuild, hanchor]
    rw [Lists.map_modify (fun m _ => OpenAIMessage.entry_addToolCall block m)]

theorem toolCallBlock_of_blank (h : m.Regular) (htool : m.role = "tool")
    (hid : pyOr m.toolCallId "" = "") : m.toolCallBlock = none := by
  rw [InferenceMessage.toolCallBlock, h.metadataOr htool, if_pos hid]
  rfl

theorem toolCallBlock_of_id (h : m.Regular) (htool : m.role = "tool")
    (hid : pyOr m.toolCallId "" ≠ "") :
    ∃ block, m.toolCallBlock = some block ∧ block.textAt "id" = pyOr m.toolCallId "" := by
  rw [InferenceMessage.toolCallBlock, h.metadataOr htool, if_neg hid]
  exact ⟨_, rfl, rfl⟩

theorem rebuild_openaiStep (h : m.Regular) (s : Projection OpenAIMessage) :
    (openaiStep s m).rebuild OpenAIMessage.entry
      = step "" true (s.rebuild OpenAIMessage.entry) m.item := by
  have hrole := h.role
  simp only [List.mem_cons, List.not_mem_nil, or_false] at hrole
  unfold openaiStep InferenceMessage.item
  rw [h.lowerRole]
  by_cases htool : m.role = "tool"
  · simp only [htool, if_true, step]
    by_cases hid : pyOr m.toolCallId "" = ""
    · rw [toolCallBlock_of_blank h htool hid, if_pos hid]
      simp [Projection.rebuild, OpenAIMessage.entry]
    · obtain ⟨block, hblock, hblockId⟩ := toolCallBlock_of_id h htool hid
      rw [hblock, if_neg hid, ← hblockId, ← rebuild_openaiDeclare]
      simp [Projection.rebuild, OpenAIMessage.entry, hblockId]
  · rcases hrole with hrole | hrole | hrole | hrole
    · simp [hrole, step, Projection.rebuild, OpenAIMessage.entry]
    · simp [hrole, step, Projection.rebuild, OpenAIMessage.entry]
    · simp [hrole, step, Projection.rebuild, OpenAIMessage.entry]
    · exact absurd hrole htool

variable {messages : List InferenceMessage}

theorem entries_openaiMessages (h : ∀ m ∈ messages, m.Regular) :
    (openaiMessages messages).map OpenAIMessage.entry
      = (run "" true (messages.map InferenceMessage.item)).entries := by
  suffices hfold : ∀ s : Projection OpenAIMessage,
      (messages.foldl openaiStep s).rebuild OpenAIMessage.entry
        = (messages.map InferenceMessage.item).foldl (step "" true)
            (s.rebuild OpenAIMessage.entry) from
    congrArg Rebuild.entries (hfold {})
  induction messages with
  | nil => exact fun s => rfl
  | cons m messages ih =>
    intro s
    rw [List.foldl_cons, List.map_cons, List.foldl_cons,
      ih (fun m hm => h m (List.mem_cons_of_mem _ hm)),
      rebuild_openaiStep (h m List.mem_cons_self)]

/-! ## The transcript for Anthropic -/

theorem AnthropicMessage.contentBlocks_addToolUse (block : Value) (m : AnthropicMessage) :
    (m.addToolUse block).contentBlocks = m.contentBlocks ++ [block] := rfl

theorem AnthropicMessage.entry_addToolUse {block : Value} (hblock : block.textAt "type" = "tool_use")
    (m : AnthropicMessage) : (m.addToolUse block).entry = m.entry.addCall (block.textAt "id") := by
  unfold AnthropicMessage.entry
  rw [AnthropicMessage.contentBlocks_addToolUse]
  by_cases hrole : m.role = "assistant"
  · simp [AnthropicMessage.addToolUse, hrole, Entry.addCall, AnthropicMessage.toolUseIds, hblock]
  · simp only [AnthropicMessage.addToolUse, hrole, if_false]
    cases m.contentBlocks with
    | nil => simp [hblock, Entry.addCall]
    | cons b blocks =>
      simp only [List.cons_append]
      split_ifs <;> rfl

theorem rebuild_anthropicAnchored (s : Projection AnthropicMessage) :
    (anthropicAnchored s).rebuild AnthropicMessage.entry
      = (s.rebuild AnthropicMessage.entry).anchored := by
  unfold anthropicAnchored anchored
  cases hanchor : s.toolAnchor <;>
    simp [Projection.rebuild, hanchor, AnthropicMessage.entry, AnthropicMessage.contentBlocks,
      AnthropicMessage.toolUseIds]

theorem rebuild_anthropicDeclare {block : Value} (hblock : block.textAt "type" = "tool_use")
    (s : Projection AnthropicMessage) : (anthropicDeclare block s).rebuild AnthropicMessage.entry
      = (s.rebuild AnthropicMessage.entry).declare (block.textAt "id") := by
  unfold anthropicDeclare declare
  rw [← rebuild_anthropicAnchored]
  cases hanchor : (anthropicAnchored s).toolAnchor with
  | none => simp [Projection.rebuild, hanchor]
  | some k =>
    simp only [Projection.rebuild, hanchor]
    rw [Lists.map_modify (fun m _ => AnthropicMessage.entry_addToolUse hblock m)]

theorem toolUseBlock_of_blank (h : m.Regular) (htool : m.role = "tool")
    (hid : pyOr m.toolCallId "" = "") : m.toolUseBlock = none := by
  rw [InferenceMessage.toolUseBlock, h.metadataOr htool, if_pos hid]
  rfl

theorem toolUseBlock_of_id (h : m.Regular) (htool : m.role = "tool")
    (hid : pyOr m.toolCallId "" ≠ "") :
    ∃ block, m.toolUseBlock = some block ∧ block.textAt "type" = "tool_use"
      ∧ block.textAt "id" = pyOr m.toolCallId "" := by
  rw [InferenceMessage.toolUseBlock, h.metadataOr htool, if_neg hid]
  exact ⟨_, rfl, rfl, rfl⟩

theorem entry_toolResult (m : InferenceMessage) :
    AnthropicMessage.entry { role := "user", content := .list [toolResultBlock m] }
      = .answer (pyOr m.toolCallId "") := by
  simp [AnthropicMessage.entry, AnthropicMessage.contentBlocks, toolResultBlock, Value.textAt,
    Value.get?, Value.pyStr]

theorem entry_text (role text : String) :
    AnthropicMessage.entry { role := role, content := .str text }
      = if role = "assistant" then .calls [] else .other := by
  unfold AnthropicMessage.entry AnthropicMessage.contentBlocks
  by_cases htext : text = ""
  · simp [htext, AnthropicMessage.toolUseIds]
  · simp [htext, AnthropicMessage.toolUseIds, textBlock, Value.textAt, Value.get?, Value.pyStr]

theorem rebuild_anthropicStep (h : m.Regular) (s : Projection AnthropicMessage) :
    (anthropicStep s m).rebuild AnthropicMessage.entry
      = if m.role = "system" then s.rebuild AnthropicMessage.entry
        else step "" false (s.rebuild AnthropicMessage.entry) m.item := by
  have hrole := h.role
  simp only [List.mem_cons, List.not_mem_nil, or_false] at hrole
  unfold anthropicStep InferenceMessage.item
  rw [h.lowerRole]
  by_cases htool : m.role = "tool"
  · simp only [htool, if_true, step]
    by_cases hid : pyOr m.toolCallId "" = ""
    · rw [toolUseBlock_of_blank h htool hid, if_pos hid]
      simp [Projection.rebuild, entry_toolResult]
    · obtain ⟨block, hblock, htype, hblockId⟩ := toolUseBlock_of_id h htool hid
      rw [hblock, if_neg hid, ← hblockId, ← rebuild_anthropicDeclare htype]
      simp [Projection.rebuild, entry_toolResult, hblockId]
  · rcases hrole with hrole | hrole | hrole | hrole
    · simp [hrole]
    · simp [hrole, step, Projection.rebuild, entry_text]
    · simp [hrole, step, Projection.rebuild, entry_text]
    · exact absurd hrole htool

theorem entries_anthropicMessages (h : ∀ m ∈ messages, m.Regular) :
    (anthropicMessages messages).map AnthropicMessage.entry
      = (run "" false ((messages.filter (fun m => m.role ≠ "system")).map
          InferenceMessage.item)).entries := by
  suffices hfold : ∀ s : Projection AnthropicMessage,
      (messages.foldl anthropicStep s).rebuild AnthropicMessage.entry
        = ((messages.filter (fun m => m.role ≠ "system")).map InferenceMessage.item).foldl
            (step "" false) (s.rebuild AnthropicMessage.entry) from
    congrArg Rebuild.entries (hfold {})
  induction messages with
  | nil => exact fun s => rfl
  | cons m messages ih =>
    intro s
    rw [List.foldl_cons, ih (fun m hm => h m (List.mem_cons_of_mem _ hm)),
      rebuild_anthropicStep (h m List.mem_cons_self), List.filter_cons]
    by_cases hsystem : m.role = "system"
    · simp [hsystem]
    · simp [hsystem]

/-! ## When a transcript is well formed -/

def answeredCalls (messages : List InferenceMessage) : List String :=
  (messages.filter (fun m => m.role = "tool")).map (fun m => pyOr m.toolCallId "")

theorem answered_items (messages : List InferenceMessage) :
    (messages.map InferenceMessage.item).flatMap Item.answered = answeredCalls messages := by
  induction messages with
  | nil => rfl
  | cons m messages ih =>
    rw [List.map_cons, List.flatMap_cons, ih]
    unfold answeredCalls InferenceMessage.item
    rw [List.filter_cons]
    by_cases htool : m.role = "tool"
    · simp [htool, Item.answered]
    · by_cases hassistant : m.role = "assistant"
      · simp [hassistant, Item.answered]
      · simp [htool, hassistant, Item.answered]

theorem wellPaired_messages_iff (h : ∀ m ∈ messages, m.Regular) :
    (WellPaired ((openaiMessages messages).map OpenAIMessage.entry)
        ↔ "" ∉ answeredCalls messages ∧ (answeredCalls messages).Nodup)
      ∧ (WellPaired ((anthropicMessages messages).map AnthropicMessage.entry)
        ↔ "" ∉ answeredCalls messages ∧ (answeredCalls messages).Nodup) := by
  constructor
  · rw [entries_openaiMessages h, wellPaired_rebuild_iff, answered_items]
  · have hsystem : answeredCalls (messages.filter (fun m => m.role ≠ "system"))
        = answeredCalls messages := by
      unfold answeredCalls
      rw [List.filter_filter]
      congr 1
      refine List.filter_congr (fun m _ => ?_)
      by_cases htool : m.role = "tool" <;> simp [htool]
    rw [entries_anthropicMessages h, wellPaired_rebuild_iff, answered_items, hsystem]

end Himmy
