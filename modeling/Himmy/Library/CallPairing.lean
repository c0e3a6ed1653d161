import Himmy.Library.Lists
import Mathlib.Data.List.Basic
import Mathlib.Data.List.Nodup
import Mathlib.Data.List.Count

/-! # Calls and their answers in a conversation

A conversation is a list of entries: turns that make calls, answers to a call, and other turns.
`WellPaired` is the rule that an answer follows, with only answers in between, the turn that makes
its call, that every call is answered once, and that no call is made twice.

`rebuild` makes a conversation from items that hold the answers only: the call of an answer is added
to the turn before it, or to a new one where there is none. Whether an answer lets the next one use
the same turn is a parameter (`keep`). The calls and the answers of what it makes are those of the
items in their order, so it is well paired if and only if the items have ids, and no two the same
(`wellPaired_rebuild_iff`). -/

universe u

/-- An entry of a conversation. -/
inductive Entry (ι : Type u) where
  | calls (ids : List ι)
  | answer (id : ι)
  | other

/-- A conversation of which the calls are to be rebuilt. -/
inductive Item (ι : Type u) where
  | answer (id : ι)
  | turn
  | other

namespace Entry

variable {ι : Type u}

def declared : Entry ι → List ι
  | calls ids => ids
  | _ => []

def answered : Entry ι → List ι
  | answer id => [id]
  | _ => []

def addCall (id : ι) : Entry ι → Entry ι
  | calls ids => calls (ids ++ [id])
  | e => e

def isAnswer : Entry ι → Bool
  | answer _ => true
  | _ => false

end Entry

def Item.answered {ι : Type u} : Item ι → List ι
  | .answer id => [id]
  | _ => []

section Rule

variable {ι : Type u}

def pendingAfter : List ι → List (Entry ι) → List ι
  | pending, [] => pending
  | _, .calls ids :: l => pendingAfter ids l
  | pending, .answer _ :: l => pendingAfter pending l
  | _, .other :: l => pendingAfter [] l

def Follows : List ι → List (Entry ι) → Prop
  | _, [] => True
  | _, .calls ids :: l => Follows ids l
  | pending, .answer id :: l => id ∈ pending ∧ Follows pending l
  | _, .other :: l => Follows [] l

/-- The pairing rule. -/
structure WellPaired [DecidableEq ι] (l : List (Entry ι)) : Prop where
  follows : Follows [] l
  answeredOnce : ∀ id ∈ l.flatMap Entry.declared, (l.flatMap Entry.answered).count id = 1
  declaredOnce : (l.flatMap Entry.declared).Nodup

theorem follows_append (pending : List ι) (l l' : List (Entry ι)) :
    Follows pending (l ++ l') ↔ Follows pending l ∧ Follows (pendingAfter pending l) l' := by
  induction l generalizing pending with
  | nil => simp [Follows, pendingAfter]
  | cons e l ih =>
    cases e with
    | calls ids => simp only [List.cons_append, Follows, pendingAfter, ih]
    | answer id => simp only [List.cons_append, Follows, pendingAfter, ih, and_assoc]
    | other => simp only [List.cons_append, Follows, pendingAfter, ih]

theorem pendingAfter_append (pending : List ι) (l l' : List (Entry ι)) :
    pendingAfter pending (l ++ l') = pendingAfter (pendingAfter pending l) l' := by
  induction l generalizing pending with
  | nil => rfl
  | cons e l ih => cases e <;> simp only [List.cons_append, pendingAfter, ih]

variable {l : List (Entry ι)}

theorem pendingAfter_answers (pending : List ι)
    (h : ∀ e ∈ l, e.isAnswer = true) : pendingAfter pending l = pending := by
  induction l with
  | nil => rfl
  | cons e l ih =>
    cases e with
    | answer id => exact ih (fun e he => h e (List.mem_cons_of_mem _ he))
    | calls ids => nomatch h _ List.mem_cons_self
    | other => nomatch h _ List.mem_cons_self

theorem answered_subset_of_follows {pending : List ι} (h : Follows pending l) :
    ∀ id ∈ l.flatMap Entry.answered, id ∈ pending ∨ id ∈ l.flatMap Entry.declared := by
  induction l generalizing pending with
  | nil => nofun
  | cons e l ih =>
    intro id hid
    rw [List.flatMap_cons, List.mem_append] at hid ⊢
    cases e with
    | calls ids =>
      exact Or.inr (ih h id (hid.resolve_left List.not_mem_nil))
    | answer id' =>
      rcases hid with hid | hid
      · rw [List.mem_singleton.1 hid]
        exact Or.inl h.1
      · exact (ih h.2 id hid).imp_right Or.inr
    | other =>
      have := ih h id (hid.resolve_left List.not_mem_nil)
      exact Or.inr (Or.inr (this.resolve_left List.not_mem_nil))

theorem Follows.mono {pending more : List ι} (h : Follows pending l)
    (hsub : ∀ id ∈ pending, id ∈ more) : Follows more l := by
  induction l with
  | nil => trivial
  | cons e l ih =>
    cases e with
    | calls ids => exact h
    | answer id => exact ⟨hsub id h.1, ih h.2⟩
    | other => exact h

end Rule

/-! ## Rebuilding the calls -/

/-- The conversation so far, and the turn that takes the calls of the answers that come next. -/
structure Rebuild (ι : Type u) where
  entries : List (Entry ι) := []
  anchor : Option Nat := none

namespace Rebuild

variable {ι : Type u}

def anchored (s : Rebuild ι) : Rebuild ι :=
  match s.anchor with
  | some _ => s
  | none => { entries := s.entries ++ [.calls []], anchor := some s.entries.length }

def declare (id : ι) (s : Rebuild ι) : Rebuild ι :=
  match s.anchored.anchor with
  | some k => { s.anchored with entries := s.anchored.entries.modify k (Entry.addCall id) }
  | none => s.anchored

def step [DecidableEq ι] (blank : ι) (keep : Bool) (s : Rebuild ι) : Item ι → Rebuild ι
  | .answer id =>
    let s := if id = blank then s else s.declare id
    { entries := s.entries ++ [.answer id], anchor := if keep then s.anchor else none }
  | .turn => { entries := s.entries ++ [.calls []], anchor := some s.entries.length }
  | .other => { entries := s.entries ++ [.other], anchor := none }

def run [DecidableEq ι] (blank : ι) (keep : Bool) (items : List (Item ι)) : Rebuild ι := items.foldl (step blank keep) {}

def AnchorOk (s : Rebuild ι) : Prop :=
  ∀ k, s.anchor = some k → ∃ before ids after, s.entries = before ++ .calls ids :: after
    ∧ before.length = k ∧ ∀ e ∈ after, e.isAnswer = true

theorem anchored_spec {s : Rebuild ι} (h : s.AnchorOk) :
    ∃ before ids after, s.anchored.entries = before ++ .calls ids :: after
      ∧ s.anchored.anchor = some before.length ∧ (∀ e ∈ after, e.isAnswer = true)
      ∧ s.anchored.entries.flatMap Entry.declared = s.entries.flatMap Entry.declared
      ∧ s.anchored.entries.flatMap Entry.answered = s.entries.flatMap Entry.answered
      ∧ (Follows [] s.entries → Follows [] s.anchored.entries) := by
  unfold anchored
  cases hanchor : s.anchor with
  | some k =>
    obtain ⟨before, ids, after, hentries, rfl, hafter⟩ := h k hanchor
    exact ⟨before, ids, after, hentries, hanchor, hafter, rfl, rfl, id⟩
  | none =>
    refine ⟨s.entries, [], [], rfl, rfl, nofun, ?_, ?_, fun hfollows => ?_⟩
    · simp [Entry.declared]
    · simp [Entry.answered]
    · exact (follows_append _ _ _).2 ⟨hfollows, trivial⟩

theorem declared_answers {after : List (Entry ι)} (h : ∀ e ∈ after, e.isAnswer = true) :
    after.flatMap Entry.declared = [] := by
  rw [List.flatMap_eq_nil_iff]
  intro e he
  cases e with
  | answer id => rfl
  | calls ids => nomatch h _ he
  | other => nomatch h _ he

theorem declare_spec {s : Rebuild ι} (h : s.AnchorOk) (id : ι) : (s.declare id).AnchorOk
      ∧ (s.declare id).entries.flatMap Entry.declared = s.entries.flatMap Entry.declared ++ [id]
      ∧ (s.declare id).entries.flatMap Entry.answered = s.entries.flatMap Entry.answered
      ∧ (Follows [] s.entries → Follows [] (s.declare id).entries)
      ∧ id ∈ pendingAfter [] (s.declare id).entries := by
  obtain ⟨before, ids, after, hentries, hanchor, hafter, hdeclared, hanswered, hfollows⟩ :=
    anchored_spec h
  have hmodify : (s.declare id).entries = before ++ .calls (ids ++ [id]) :: after := by
    rw [declare, hanchor]
    simp only [hentries]
    rw [Lists.modify_length_append]
    rfl
  have hdeclare : (s.declare id).anchor = some before.length := by
    rw [declare, hanchor]
    exact hanchor
  refine ⟨fun k hk => ?_, ?_, ?_, fun hf => ?_, ?_⟩
  · rw [hdeclare, Option.some.injEq] at hk
    exact ⟨before, ids ++ [id], after, hmodify, hk, hafter⟩
  · rw [hmodify, ← hdeclared, hentries]
    simp [Entry.declared, declared_answers hafter]
  · rw [hmodify, ← hanswered, hentries]
    simp [Entry.answered]
  · have := hfollows hf
    rw [hentries, follows_append] at this
    rw [hmodify, follows_append]
    have hafterFollows : Follows ids after := this.2
    exact ⟨this.1, hafterFollows.mono (fun id hid => List.mem_append_left _ hid)⟩
  · rw [hmodify, pendingAfter_append, pendingAfter, pendingAfter_answers _ hafter]
    simp

section Run

variable [DecidableEq ι] (blank : ι) (keep : Bool)

/-- What holds of the conversation of items that answer `ids`. -/
structure Inv (s : Rebuild ι) (ids : List ι) : Prop where
  anchorOk : s.AnchorOk
  declared : s.entries.flatMap Entry.declared = ids.filter (· ≠ blank)
  answered : s.entries.flatMap Entry.answered = ids
  follows : blank ∉ ids → Follows [] s.entries

variable {s : Rebuild ι} {ids : List ι}

theorem Inv.append (h : Inv blank s ids) {e : Entry ι}
    (he : e = .calls [] ∨ e = .other) (anchor : Option Nat)
    (hanchor : ∀ k, anchor = some k → k = s.entries.length ∧ e = .calls []) :
    Inv blank { entries := s.entries ++ [e], anchor := anchor } ids where
  anchorOk k hk := by
    obtain ⟨rfl, rfl⟩ := hanchor k hk
    exact ⟨s.entries, [], [], rfl, rfl, nofun⟩
  declared := by
    rw [← h.declared]
    rcases he with rfl | rfl <;> simp [Entry.declared]
  answered := by
    rw [← h.answered]
    rcases he with rfl | rfl <;> simp [Entry.answered]
  follows hblank := by
    refine (follows_append _ _ _).2 ⟨h.follows hblank, ?_⟩
    rcases he with rfl | rfl <;> trivial

theorem Inv.answer (h : Inv blank s ids) (id : ι) :
    Inv blank (step blank keep s (.answer id)) (ids ++ [id]) := by
  have hanchorOk : ∀ {t : Rebuild ι}, t.AnchorOk →
      AnchorOk { entries := t.entries ++ [.answer id],
                 anchor := if keep = true then t.anchor else none } := by
    intro t ht k hk
    simp only [Option.ite_none_right_eq_some] at hk
    obtain ⟨before, cs, after, hentries, hlength, hafter⟩ := ht k hk.2
    refine ⟨before, cs, after ++ [.answer id], by simp [hentries], hlength, ?_⟩
    intro e he
    rcases List.mem_append.1 he with he | he
    · exact hafter e he
    · rw [List.mem_singleton.1 he]
      rfl
  rw [step]
  by_cases hid : id = blank
  · simp only [if_pos hid]
    refine ⟨hanchorOk h.anchorOk, ?_, ?_, fun hblank => ?_⟩
    · rw [List.flatMap_append, h.declared, List.filter_append]
      simp [Entry.declared, hid]
    · rw [List.flatMap_append, h.answered]
      rfl
    · exact absurd (by simp [hid]) hblank
  · simp only [if_neg hid]
    obtain ⟨hanchor, hdeclared, hanswered, hfollows, hpending⟩ := declare_spec h.anchorOk id
    refine ⟨hanchorOk hanchor, ?_, ?_, fun hblank => ?_⟩
    · rw [List.flatMap_append, hdeclared, h.declared, List.filter_append]
      simp [Entry.declared, hid]
    · rw [List.flatMap_append, hanswered, h.answered]
      rfl
    · refine (follows_append _ _ _).2 ⟨hfollows (h.follows ?_), hpending, trivial⟩
      exact fun hmem => hblank (List.mem_append_left _ hmem)

theorem inv_foldl (h : Inv blank s ids) (items : List (Item ι)) :
    Inv blank (items.foldl (step blank keep) s) (ids ++ items.flatMap Item.answered) := by
  induction items generalizing s ids with
  | nil => simpa using h
  | cons item items ih =>
    rw [List.foldl_cons, List.flatMap_cons, ← List.append_assoc]
    refine ih ?_
    cases item with
    | answer id => exact h.answer blank keep id
    | turn =>
      rw [show Item.answered (.turn : Item ι) = [] from rfl, List.append_nil]
      exact h.append blank (Or.inl rfl) _ (fun k hk => ⟨(Option.some.inj hk).symm, rfl⟩)
    | other =>
      rw [show Item.answered (.other : Item ι) = [] from rfl, List.append_nil]
      exact h.append blank (Or.inr rfl) _ nofun

theorem inv_run (items : List (Item ι)) :
    Inv blank (run blank keep items) (items.flatMap Item.answered) := by
  have hstart : Inv blank ({} : Rebuild ι) [] := ⟨nofun, rfl, rfl, fun _ => trivial⟩
  exact inv_foldl blank keep hstart items

end Run

end Rebuild

theorem wellPaired_rebuild_iff {ι : Type u} [DecidableEq ι] (blank : ι) (keep : Bool)
    (items : List (Item ι)) : WellPaired (Rebuild.run blank keep items).entries
      ↔ blank ∉ items.flatMap Item.answered ∧ (items.flatMap Item.answered).Nodup := by
  have hinv := Rebuild.inv_run blank keep items
  constructor
  · intro h
    have hblank : blank ∉ items.flatMap Item.answered := by
      intro hmem
      rw [← hinv.answered] at hmem
      have := (answered_subset_of_follows h.follows blank hmem).resolve_left List.not_mem_nil
      rw [hinv.declared] at this
      simp at this
    refine ⟨hblank, ?_⟩
    have hnodup := h.declaredOnce
    rwa [hinv.declared, List.filter_eq_self.2 (by
      intro id hid
      simpa using fun he : id = blank => hblank (he ▸ hid))] at hnodup
  · rintro ⟨hblank, hnodup⟩
    have hdeclared : (Rebuild.run blank keep items).entries.flatMap Entry.declared
        = items.flatMap Item.answered := by
      rw [hinv.declared, List.filter_eq_self]
      intro id hid
      simpa using fun he : id = blank => hblank (he ▸ hid)
    refine ⟨hinv.follows hblank, fun id hid => ?_, ?_⟩
    · rw [hinv.answered]
      rw [hdeclared] at hid
      exact List.count_eq_one_of_mem hnodup hid
    · rwa [hdeclared]
