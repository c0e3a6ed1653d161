import Himmy.Runtime.Compaction
import Mathlib.Algebra.Ring.Nat

/-! # What compaction keeps over a run

A compaction replaces messages of the middle by a summary that is smaller than they are. Messages that
are pinned are never among them, so however often a thread is compacted while it grows, its pinned
messages stay in their order (`keepsThread_run`). -/

namespace Himmy.Runtime

open ContextCompactor (summaryMessage compacted maybeCompact)

/-! ## The parts of a plan -/

theorem estimate_eq_sum (messages : List Message) :
    estimate messages = (messages.map (fun m => estimateTokens m.content)).sum := by
  have hfold : ∀ (messages : List Message) (total : Nat),
      messages.foldl (fun total m => total + estimateTokens m.content) total
        = total + (messages.map (fun m => estimateTokens m.content)).sum := by
    intro messages
    induction messages with
    | nil => simp
    | cons m messages ih =>
      intro total
      rw [List.foldl_cons, ih, List.map_cons, List.sum_cons]
      omega
  unfold estimate
  rw [hfold, Nat.zero_add]

@[simp] theorem estimate_append (messages later : List Message) :
    estimate (messages ++ later) = estimate messages + estimate later := by
  simp [estimate_eq_sum]

@[simp] theorem estimate_cons (m : Message) (messages : List Message) :
    estimate (m :: messages) = estimateTokens m.content + estimate messages := by
  simp [estimate_eq_sum]

theorem estimate_perm {messages messages' : List Message} (h : messages.Perm messages') :
    estimate messages = estimate messages' := by
  rw [estimate_eq_sum, estimate_eq_sum]
  exact (h.map _).sum_nat

section Middle

variable (messages : List Message) (head split : Nat) (p : Nat → Bool)

theorem mem_selectMiddle_iff (m : Message) : m ∈ selectMiddle messages head split p
      ↔ ∃ i, head ≤ i ∧ i < head + (split - head) ∧ p i = true ∧ messages[i]? = some m := by
  unfold selectMiddle
  simp only [List.mem_filterMap, List.mem_filter, List.mem_range'_1]
  constructor
  · rintro ⟨i, ⟨⟨hlow, hhigh⟩, hp⟩, hm⟩
    exact ⟨i, hlow, hhigh, hp, hm⟩
  · rintro ⟨i, hlow, hhigh, hp, hm⟩
    exact ⟨i, ⟨⟨hlow, hhigh⟩, hp⟩, hm⟩

theorem selectMiddle_perm :
    (selectMiddle messages head split (fun i => !p i) ++ selectMiddle messages head split p).Perm
      ((messages.drop head).take (split - head)) := by
  rw [← Lists.filterMap_range'_getElem?]
  unfold selectMiddle
  rw [← List.filterMap_append]
  refine List.Perm.filterMap _ ?_
  exact List.perm_append_comm.trans (List.filter_append_perm p _)

theorem filter_selectMiddle {q : Message → Bool}
    (h : ∀ i m, head ≤ i → i < head + (split - head) → messages[i]? = some m → q m = true →
      p i = true) : (selectMiddle messages head split p).filter q
      = ((messages.drop head).take (split - head)).filter q := by
  rw [← Lists.filterMap_range'_getElem?]
  unfold selectMiddle
  have hindices : ∀ i ∈ List.range' head (split - head), ∀ m, messages[i]? = some m → q m = true →
      p i = true := by
    intro i hi m hm hq
    rw [List.mem_range'_1] at hi
    exact h i m hi.1 hi.2 hm hq
  generalize List.range' head (split - head) = indices at hindices
  induction indices with
  | nil => rfl
  | cons i indices ih =>
    have hrest := ih (fun j hj => hindices j (List.mem_cons_of_mem i hj))
    have hi := hindices i List.mem_cons_self
    cases hget : messages[i]? with
    | none =>
      by_cases hp : p i = true
      · rw [List.filter_cons_of_pos hp, List.filterMap_cons_none hget,
          List.filterMap_cons_none hget]
        exact hrest
      · rw [List.filter_cons_of_neg hp, List.filterMap_cons_none hget]
        exact hrest
    | some m =>
      rw [List.filterMap_cons_some hget]
      by_cases hp : p i = true
      · rw [List.filter_cons_of_pos hp, List.filterMap_cons_some hget, List.filter_cons,
          List.filter_cons, hrest]
      · have hq : ¬ q m = true := fun hq => hp (hi m hget hq)
        rw [List.filter_cons_of_neg hp, List.filter_cons_of_neg hq]
        exact hrest

end Middle

section Snap

variable (messages : List Message) {head split : Nat}

theorem snapTail_le : snapTail messages head split ≤ split := by
  induction split with
  | zero => exact Nat.le_refl 0
  | succ split ih =>
    rw [snapTail]
    split_ifs
    · omega
    · exact Nat.le_refl _

theorem roleIn_snapTail (h : head < snapTail messages head split) :
    roleIn messages [.tool] (snapTail messages head split) = false := by
  induction split with
  | zero => simp [snapTail] at h
  | succ split ih =>
    rw [snapTail] at h ⊢
    split_ifs at h ⊢ with hsnap
    · exact ih h
    · simpa [h] using hsnap

end Snap

variable {messages : List Message}

theorem mem_carryIndices {head split i : Nat} {m : Message}
    (hlow : head ≤ i) (hhigh : i < head + (split - head)) (hm : messages[i]? = some m)
    (hpinned : isPinned m = true) : i ∈ carryIndices messages head split := by
  unfold carryIndices
  refine List.mem_flatMap.2 ⟨i, List.mem_range'_1.2 ⟨hlow, hhigh⟩, ?_⟩
  rw [if_pos (by simp [hm, hpinned])]
  exact List.mem_cons_self

theorem isPinned_summaryMessage (summary : String) :
    isPinned (summaryMessage summary) = false := rfl

/-! ## One compaction -/

/-- The parts that a compaction makes of the messages of a thread, and its summary. -/
structure CompactionParts where
  head : List Message
  summarized : List Message
  carried : List Message
  tail : List Message
  summary : Message

/-- The messages after a compaction are made of the parts of those before it. -/
structure Compacts (keepRecent : Nat) (before after : List Message) (parts : CompactionParts) :
    Prop where
  /-- The parts are a partition, each in the old order. -/
  partition : ∃ middle, before = parts.head ++ middle ++ parts.tail
    ∧ parts.summarized.Sublist middle ∧ parts.carried.Sublist middle
    ∧ (parts.summarized ++ parts.carried).Perm middle
  after_eq : after = parts.head ++ parts.summary :: parts.carried ++ parts.tail
  unpinned : ∀ m ∈ parts.summarized, isPinned m = false
  recent : (before.drop (before.length - keepRecent)).IsSuffix after
  /-- A tail that starts at a tool message is right behind the head. -/
  tailStart : ∀ m ∈ parts.tail.head?, m.role = .tool → parts.summarized ++ parts.carried = []
  smaller : estimate after < estimate before

/-- `ContextCompactor` after the check of its constructor. -/
structure CheckedCompactor extends ContextCompactor where
  keepRecent_pos : 1 ≤ keepRecent

variable {plan : CompactionPlan}

theorem plan_eq {compactor : ContextCompactor} (h : compactor.plan messages = some plan) :
    ∃ head split, head = (messages.takeWhile (fun m => m.role = .system)).length
      ∧ split = snapTail messages head (max head (messages.length - compactor.keepRecent))
      ∧ plan = {
        headCount := head
        tailStart := split
        summarize := selectMiddle messages head split (fun i => i ∉ carryIndices messages head split)
        carry := selectMiddle messages head split (fun i => i ∈ carryIndices messages head split) } := by
  unfold ContextCompactor.plan at h
  split_ifs at h with hbudget
  dsimp only at h
  split_ifs at h with hfew
  exact ⟨_, _, rfl, rfl, (Option.some.inj h).symm⟩

theorem take_middle_drop (messages : List Message) {head split : Nat} (h : head ≤ split) :
    messages = messages.take head ++ (messages.drop head).take (split - head)
      ++ messages.drop split := by
  have htail : messages.drop split = (messages.drop head).drop (split - head) := by
    rw [List.drop_drop, Nat.add_sub_cancel' h]
  rw [List.append_assoc, htail, List.take_append_drop, List.take_append_drop]

theorem maybeCompact_cases (compactor : ContextCompactor) (summarize : String → String)
    (thread : ChatThread) : compactor.maybeCompact summarize thread = (thread, false)
      ∨ ∃ plan summary, compactor.plan thread.messages = some plan
        ∧ estimateTokens (summaryMessage summary).content < estimate plan.summarize
        ∧ compactor.maybeCompact summarize thread
          = ({ messages := compacted plan summary thread.messages
               version := thread.version + 1 }, true) := by
  unfold maybeCompact
  cases hplan : compactor.plan thread.messages with
  | none => exact .inl rfl
  | some plan =>
    dsimp only
    split_ifs with hblank hlarge
    · exact .inl rfl
    · exact .inl rfl
    · exact .inr ⟨plan, _, rfl, by omega, rfl⟩

theorem compacts_of_plan {compactor : CheckedCompactor}
    (hplan : compactor.plan messages = some plan) {summary : String}
    (hsmaller : estimateTokens (summaryMessage summary).content < estimate plan.summarize) :
    Compacts compactor.keepRecent messages (compacted plan summary messages)
      { head := messages.take plan.headCount
        summarized := plan.summarize
        carried := plan.carry
        tail := messages.drop plan.tailStart
        summary := summaryMessage summary } := by
  obtain ⟨head, split, -, hsplit, rfl⟩ := plan_eq hplan
  dsimp only at hsmaller ⊢
  have hheadSplit : head ≤ split := hsplit ▸ le_snapTail _ (Nat.le_max_left _ _)
  have hmiddle := take_middle_drop messages hheadSplit
  have hperm : (selectMiddle messages head split (fun i => i ∉ carryIndices messages head split)
      ++ selectMiddle messages head split (fun i => i ∈ carryIndices messages head split)).Perm
      ((messages.drop head).take (split - head)) := by
    simpa using selectMiddle_perm messages head split
      (fun i => decide (i ∈ carryIndices messages head split))
  -- something is summarized, so the tail is behind the head
  have hless : head < split := by
    by_contra hge
    have hempty : split - head = 0 := by omega
    simp [selectMiddle, hempty, estimate_eq_sum] at hsmaller
  have hkept : split ≤ messages.length - compactor.keepRecent := by
    have hle : snapTail messages head (max head (messages.length - compactor.keepRecent)) ≤ _ :=
      snapTail_le messages
    rw [← hsplit] at hle
    omega
  exact {
    partition := ⟨_, hmiddle, selectMiddle_sublist _ _ _ _, selectMiddle_sublist _ _ _ _, hperm⟩
    after_eq := rfl
    unpinned := by
      intro m hm
      obtain ⟨i, hlow, hhigh, hnot, hget⟩ := (mem_selectMiddle_iff _ _ _ _ _).1 hm
      by_contra hpinned
      exact of_decide_eq_true hnot (mem_carryIndices hlow hhigh hget (by simpa using hpinned))
    recent := by
      have hsuffix : (messages.drop (messages.length - compactor.keepRecent)).IsSuffix
          (messages.drop split) := by
        have hdrop : messages.length - compactor.keepRecent
            = split + (messages.length - compactor.keepRecent - split) := by omega
        rw [hdrop, ← List.drop_drop]
        exact List.drop_suffix _ _
      exact hsuffix.trans (List.suffix_append _ _)
    tailStart := by
      intro m hm htool
      have hrole : roleIn messages [.tool] split = false := by
        rw [hsplit] at hless ⊢
        exact roleIn_snapTail messages hless
      rw [List.head?_drop] at hm
      simp [roleIn, Option.mem_def.1 hm, htool] at hrole
    smaller := by
      have hsame := estimate_perm hperm
      rw [estimate_append] at hsame
      conv_rhs => rw [hmiddle]
      unfold compacted
      simp only [estimate_append, estimate_cons]
      omega }

theorem filter_isPinned_compacted {compactor : ContextCompactor}
    (hplan : compactor.plan messages = some plan) (summary : String) :
    (compacted plan summary messages).filter isPinned = messages.filter isPinned := by
  obtain ⟨head, split, -, hsplit, rfl⟩ := plan_eq hplan
  have hheadSplit : head ≤ split := hsplit ▸ le_snapTail _ (Nat.le_max_left _ _)
  have hcarry := filter_selectMiddle messages head split
    (fun i => i ∈ carryIndices messages head split) (q := isPinned)
    (fun i m hlow hhigh hm hpinned => by simpa using mem_carryIndices hlow hhigh hm hpinned)
  conv_rhs => rw [take_middle_drop messages hheadSplit]
  unfold compacted
  dsimp only
  rw [List.filter_append, List.filter_append, List.filter_append, List.filter_append,
    List.filter_cons_of_neg (by simp [isPinned_summaryMessage]), hcarry]

/-! ## Runs -/

/-- What happens to a thread in a run. -/
inductive ThreadEvent where
  | append (m : Message)
  | compact (compactor : CheckedCompactor) (summarize : String → String)

def ThreadEvent.apply : ThreadEvent → ChatThread → ChatThread
  | .append m, thread => thread.append [m]
  | .compact compactor summarize, thread => (compactor.maybeCompact summarize thread).1

def runThread (events : List ThreadEvent) (thread : ChatThread) : ChatThread :=
  events.foldl (fun thread event => event.apply thread) thread

def KeepsThread : ThreadEvent → ChatThread → Prop
  | .append m, thread => ((ThreadEvent.append m).apply thread).messages = thread.messages ++ [m]
  | .compact compactor summarize, thread =>
    ((compactor.maybeCompact summarize thread).2 = true →
      ∃ parts, Compacts compactor.keepRecent thread.messages
        (compactor.maybeCompact summarize thread).1.messages parts)
    ∧ ((compactor.maybeCompact summarize thread).2 = false →
      (compactor.maybeCompact summarize thread).1 = thread)

theorem keepsThread (event : ThreadEvent) (thread : ChatThread) : KeepsThread event thread := by
  cases event with
  | append m => rfl
  | compact compactor summarize =>
    simp only [KeepsThread]
    rcases maybeCompact_cases compactor.toContextCompactor summarize thread with
      hsame | ⟨plan, summary, hplan, hsmaller, hcompacted⟩
    · simp [hsame]
    · rw [hcompacted]
      exact ⟨fun _ => ⟨_, compacts_of_plan hplan hsmaller⟩, fun h => absurd h (by simp)⟩

theorem filter_isPinned_apply (event : ThreadEvent) (thread : ChatThread) :
    (thread.messages.filter isPinned).IsPrefix ((event.apply thread).messages.filter isPinned) := by
  cases event with
  | append m =>
    unfold ThreadEvent.apply
    rw [ChatThread.append_messages, List.filter_append]
    exact List.prefix_append _ _
  | compact compactor summarize =>
    simp only [ThreadEvent.apply]
    rcases maybeCompact_cases compactor.toContextCompactor summarize thread with
      hsame | ⟨plan, summary, hplan, -, hcompacted⟩
    · rw [hsame]
    · rw [hcompacted, filter_isPinned_compacted hplan]

theorem filter_isPinned_runThread (events : List ThreadEvent) (thread : ChatThread) :
    (thread.messages.filter isPinned).IsPrefix
      ((runThread events thread).messages.filter isPinned) := by
  induction events generalizing thread with
  | nil => exact List.prefix_refl _
  | cons event events ih => exact (filter_isPinned_apply event thread).trans (ih (event.apply thread))

/-- In every run of appended messages and compactions, each compaction keeps what must be kept and makes
    the thread smaller, and the pinned messages of any moment stay for the rest of the run. -/
theorem keepsThread_run (thread : ChatThread) (events : List ThreadEvent) :
    (∀ before event after, events = before ++ event :: after →
        KeepsThread event (runThread before thread)) ∧ ∀ before after, events = before ++ after →
        ((runThread before thread).messages.filter isPinned).IsPrefix
          ((runThread events thread).messages.filter isPinned) := by
  refine ⟨fun before event _ _ => keepsThread event _, ?_⟩
  rintro before after rfl
  unfold runThread
  rw [List.foldl_append]
  exact filter_isPinned_runThread after _

end Himmy.Runtime
