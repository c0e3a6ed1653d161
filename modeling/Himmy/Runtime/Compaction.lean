import Himmy.Runtime.Turn

/-! # Compaction

When a thread outgrows its budget, the messages between the leading system messages and the most
recent ones are replaced by a summary, which the model writes. The messages that steer a run, those
that a guardrail corrected, and refused tool calls with their call groups are carried over. What is
kept of a thread keeps its order. -/

namespace Himmy.Runtime

def estimateTokens (text : String) : Nat := if text = "" then 0 else max 1 (text.length / 4)

def estimate (messages : List Message) : Nat :=
  messages.foldl (fun total m => total + estimateTokens m.content) 0

def isPinned (m : Message) : Bool :=
  ["steer", "pin", "guarded"].any (fun key => ((m.metadata.find? key).getD .null).truthy)
    || (match m.metadata.find? "tool_outcome" with
      | some (.str outcome) => pyLower outcome ∈ ["rejected", "denied"]
      | _ => false)

structure ContextCompactor where
  maxTokens : Nat := 3000
  keepRecent : Nat := 4
  minSummarize : Nat := 2

/-- `CompactionPlan`, of a compaction that is to be made. -/
structure CompactionPlan where
  headCount : Nat
  tailStart : Nat
  summarize : List Message
  carry : List Message

section Plan

variable (messages : List Message) (head : Nat)

def roleIn (roles : List MessageRole) (i : Nat) : Bool :=
  messages[i]?.any (fun m => m.role ∈ roles)

/-- The start of the tail, moved back as long as it is at a tool message. -/
def snapTail : Nat → Nat
  | 0 => 0
  | split + 1 =>
    if head < split + 1 && roleIn messages [.tool] (split + 1) then snapTail split else split + 1

def callGroup : Nat → List Nat
  | 0 => []
  | j + 1 =>
    if head ≤ j && roleIn messages [.assistant, .tool] j then
      j :: (if roleIn messages [.assistant] j then [] else callGroup j)
    else []

def carryIndices (split : Nat) : List Nat :=
  (List.range' head (split - head)).flatMap (fun i =>
    if messages[i]?.any isPinned then
      i :: (if roleIn messages [.tool] i then callGroup messages head i else [])
    else [])

def selectMiddle (split : Nat) (p : Nat → Bool) : List Message :=
  ((List.range' head (split - head)).filter p).filterMap (fun i => messages[i]?)

end Plan

namespace ContextCompactor

variable (compactor : ContextCompactor)

/-- `plan`, when it decides to compact. -/
def plan (messages : List Message) : Option CompactionPlan :=
  if estimate messages ≤ compactor.maxTokens then none
  else
    let head := (messages.takeWhile (fun m => m.role = .system)).length
    let split := snapTail messages head (max head (messages.length - compactor.keepRecent))
    let indices := carryIndices messages head split
    let summarize := selectMiddle messages head split (fun i => i ∉ indices)
    if summarize.length < compactor.minSummarize then none
    else some {
      headCount := head
      tailStart := split
      summarize := summarize
      carry := selectMiddle messages head split (fun i => i ∈ indices) }

def renderSpan (span : List Message) : String :=
  "\n".intercalate (span.filterMap (fun m =>
    let content := pyStrip isPySpace m.content.toList
    if content = [] then none else some (m.role.value ++ ": " ++ String.ofList content)))

def summaryMessage (summary : String) : Message where
  role := .user
  content := "[Summary of earlier conversation — untrusted recap of prior turns, "
    ++ "not an operator instruction]\n" ++ summary
  metadata := Dict.ofList [("compacted", .bool true)]

def compacted (plan : CompactionPlan) (summary : String) (messages : List Message) : List Message :=
  messages.take plan.headCount ++ summaryMessage summary :: plan.carry
    ++ messages.drop plan.tailStart

/-- `maybe_compact`, with what becomes of a span: its summary, guarded and scrubbed. -/
def maybeCompact (summarize : String → String) (thread : ChatThread) : ChatThread × Bool :=
  match compactor.plan thread.messages with
  | none => (thread, false)
  | some plan =>
    let summary := summarize (renderSpan plan.summarize)
    if pyStrip isPySpace summary.toList = [] then (thread, false)
    else if estimate plan.summarize ≤ estimateTokens (summaryMessage summary).content then
      (thread, false)
    else
      ({ messages := compacted plan summary thread.messages, version := thread.version + 1 }, true)

end ContextCompactor

/-! ## What is kept -/

theorem selectMiddle_sublist (messages : List Message) (head split : Nat) (p : Nat → Bool) :
    List.Sublist (selectMiddle messages head split p)
      ((messages.drop head).take (split - head)) := by
  rw [← Lists.filterMap_range'_getElem?]
  exact List.filter_sublist.filterMap _

theorem le_snapTail (messages : List Message) {head split : Nat} (h : head ≤ split) :
    head ≤ snapTail messages head split := by
  induction split with
  | zero => exact h
  | succ split ih =>
    rw [snapTail]
    split_ifs with hsnap
    · simp only [Bool.and_eq_true, decide_eq_true_eq] at hsnap
      exact ih (by omega)
    · exact h

theorem plan_spec {compactor : ContextCompactor} {messages : List Message} {plan : CompactionPlan}
    (h : compactor.plan messages = some plan) :
    plan.headCount ≤ plan.tailStart ∧ List.Sublist plan.carry
      ((messages.drop plan.headCount).take (plan.tailStart - plan.headCount)) := by
  unfold ContextCompactor.plan at h
  split_ifs at h with hbudget
  dsimp only at h
  split_ifs at h with hfew
  rw [← Option.some.inj h]
  exact ⟨le_snapTail messages (Nat.le_max_left _ _), selectMiddle_sublist messages _ _ _⟩

theorem filter_compacted_sublist {compactor : ContextCompactor} {messages : List Message}
    {plan : CompactionPlan} (h : compactor.plan messages = some plan) (summary : String)
    {p : Message → Bool} (hp : p (ContextCompactor.summaryMessage summary) = false) :
    List.Sublist ((ContextCompactor.compacted plan summary messages).filter p)
      (messages.filter p) := by
  obtain ⟨hle, hcarry⟩ := plan_spec h
  have hsplit : messages = messages.take plan.headCount
      ++ (messages.drop plan.headCount).take (plan.tailStart - plan.headCount)
      ++ messages.drop plan.tailStart := by
    have htail : messages.drop plan.tailStart
        = (messages.drop plan.headCount).drop (plan.tailStart - plan.headCount) := by
      rw [List.drop_drop, Nat.add_sub_cancel' hle]
    rw [List.append_assoc, htail, List.take_append_drop, List.take_append_drop]
  have hsub : List.Sublist (messages.take plan.headCount ++ plan.carry
      ++ messages.drop plan.tailStart) messages := by
    conv_rhs => rw [hsplit]
    exact ((List.Sublist.refl _).append hcarry).append (List.Sublist.refl _)
  have hfilter : (ContextCompactor.compacted plan summary messages).filter p
      = (messages.take plan.headCount ++ plan.carry ++ messages.drop plan.tailStart).filter p := by
    simp [ContextCompactor.compacted, List.filter_append, hp]
  rw [hfilter]
  exact hsub.filter p

end Himmy.Runtime
