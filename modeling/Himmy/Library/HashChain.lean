import Mathlib.Data.List.Induction
import Mathlib.Data.List.Nodup
import Mathlib.Data.List.Perm.Subperm

/-! # Hash chains

Items that each carry a hash of all the items before them. `Chained` says it of a list in its order;
`Intact` of a collection in any order. A collection is checked by following the hashes from the
genesis value (`walk`): it is intact exactly when no two items claim one predecessor and the walk
visits them all (`intact_iff_visits`).

What a chain can tell after one change is exact. A deletion is noticed unless it is of the last item
(`intact_erase_iff`), and a replacement is noticed unless the predecessor is kept and either the item
is the last or its content is the same (`intact_replace_iff`): nothing follows the last item that
would vouch for it. -/

universe u v w

/-- A step function without collisions, started at a value it never returns to. -/
structure ChainHash (H : Type u) (B : Type v) where
  genesis : H
  step : H → B → H
  step_inj : ∀ {h h' : H} {b b' : B}, step h b = step h' b' → h = h' ∧ b = b'
  step_ne_genesis : ∀ (h : H) (b : B), step h b ≠ genesis

namespace ChainHash

variable {H : Type u} {B : Type v} {α : Type w}

/-! ## The hash of a list -/

def hashFrom (C : ChainHash H B) (h : H) (bs : List B) : H := bs.foldl C.step h

@[simp] theorem hashFrom_nil (C : ChainHash H B) (h : H) : C.hashFrom h [] = h := rfl

@[simp] theorem hashFrom_cons (C : ChainHash H B) (h : H) (b : B) (bs : List B) :
    C.hashFrom h (b :: bs) = C.hashFrom (C.step h b) bs := rfl

theorem hashFrom_append (C : ChainHash H B) (h : H) (bs bs' : List B) :
    C.hashFrom h (bs ++ bs') = C.hashFrom (C.hashFrom h bs) bs' := by
  simp [hashFrom]

theorem hashFrom_concat (C : ChainHash H B) (h : H) (bs : List B) (b : B) :
    C.hashFrom h (bs ++ [b]) = C.step (C.hashFrom h bs) b := by
  simp [hashFrom_append]

theorem hashFrom_genesis_inj (C : ChainHash H B) {bs bs' : List B}
    (h : C.hashFrom C.genesis bs = C.hashFrom C.genesis bs') : bs = bs' := by
  induction bs using List.reverseRecOn generalizing bs' with
  | nil =>
    induction bs' using List.reverseRecOn with
    | nil => rfl
    | append_singleton bs' b' _ =>
      rw [hashFrom_concat, hashFrom_nil] at h
      exact (C.step_ne_genesis _ _ h.symm).elim
  | append_singleton bs b ih =>
    induction bs' using List.reverseRecOn with
    | nil =>
      rw [hashFrom_concat, hashFrom_nil] at h
      exact (C.step_ne_genesis _ _ h).elim
    | append_singleton bs' b' _ =>
      rw [hashFrom_concat, hashFrom_concat] at h
      obtain ⟨hbs, rfl⟩ := C.step_inj h
      rw [ih hbs]

/-! ## Chained lists -/

def Chained (C : ChainHash H B) (prev : α → H) (leaf : α → B) : H → List α → Prop
  | _, [] => True
  | h, a :: l => prev a = h ∧ C.Chained prev leaf (C.step h (leaf a)) l

variable (C : ChainHash H B) (prev : α → H) (leaf : α → B)

theorem chained_append (h : H) (l l' : List α) : C.Chained prev leaf h (l ++ l') ↔
      C.Chained prev leaf h l ∧ C.Chained prev leaf (C.hashFrom h (l.map leaf)) l' := by
  induction l generalizing h with
  | nil => simp [Chained]
  | cons a l ih => simp [Chained, ih, and_assoc]

theorem chained_concat (h : H) (l : List α) (a : α) : C.Chained prev leaf h (l ++ [a]) ↔
      C.Chained prev leaf h l ∧ prev a = C.hashFrom h (l.map leaf) := by
  simp [chained_append, Chained]

variable {prev leaf}

theorem Chained.prev_eq {C : ChainHash H B} {h : H} {l t : List α} {a : α}
    (hc : C.Chained prev leaf h (l ++ a :: t)) : prev a = C.hashFrom h (l.map leaf) :=
  ((C.chained_append prev leaf h l (a :: t)).1 hc).2.1

theorem Chained.prev_ne_hashFrom {C : ChainHash H B} {l : List α}
    (hc : C.Chained prev leaf C.genesis l) {a : α} (ha : a ∈ l) :
    prev a ≠ C.hashFrom C.genesis (l.map leaf) := by
  obtain ⟨s, t, rfl⟩ := List.append_of_mem ha
  intro heq
  rw [hc.prev_eq] at heq
  have hbs := congrArg List.length (C.hashFrom_genesis_inj heq)
  simp only [List.length_map, List.length_append, List.length_cons] at hbs
  omega

theorem Chained.nodup_prev {C : ChainHash H B} {l : List α}
    (hc : C.Chained prev leaf C.genesis l) : (l.map prev).Nodup := by
  induction l using List.reverseRecOn with
  | nil => exact List.nodup_nil
  | append_singleton l a ih =>
    obtain ⟨hl, ha⟩ := (C.chained_concat prev leaf C.genesis l a).1 hc
    rw [List.map_append, List.nodup_append]
    refine ⟨ih hl, List.nodup_singleton _, ?_⟩
    intro h hmem h' hmem'
    obtain ⟨x, hx, rfl⟩ := List.mem_map.1 hmem
    rw [List.map_singleton, List.mem_singleton] at hmem'
    rw [hmem', ha]
    exact hl.prev_ne_hashFrom hx

/-! ## Walks -/

/-- The items met when each hash is followed to the item that names it, until none does. -/
def Visits (C : ChainHash H B) (leaf : α → B) (next : H → Option α) : H → List α → Prop
  | h, [] => next h = none
  | h, a :: l => next h = some a ∧ C.Visits leaf next (C.step h (leaf a)) l

/-- The walk, for at most `fuel` looks at `next`. -/
def walk (C : ChainHash H B) (leaf : α → B) (next : H → Option α) : Nat → H → Option (List α)
  | 0, _ => none
  | fuel + 1, h =>
    match next h with
    | none => some []
    | some a => (C.walk leaf next fuel (C.step h (leaf a))).map (a :: ·)

theorem walk_eq_some_iff (next : H → Option α) (fuel : Nat) (h : H) (l : List α) :
    C.walk leaf next fuel h = some l ↔ C.Visits leaf next h l ∧ l.length < fuel := by
  induction fuel generalizing h l with
  | zero => simp [walk]
  | succ fuel ih =>
    rw [walk]
    cases hnext : next h with
    | none =>
      cases l with
      | nil => simp [Visits, hnext]
      | cons a l => simp [Visits, hnext]
    | some a =>
      cases l with
      | nil => simp [Visits, hnext]
      | cons b l =>
        simp only [Option.map_eq_some_iff, List.cons.injEq, Visits, hnext,
          Option.some.injEq, List.length_cons]
        constructor
        · rintro ⟨m, hm, rfl, rfl⟩
          obtain ⟨hvisits, hlen⟩ := (ih _ _).1 hm
          exact ⟨⟨rfl, hvisits⟩, by omega⟩
        · rintro ⟨⟨rfl, hvisits⟩, hlen⟩
          exact ⟨l, (ih _ _).2 ⟨hvisits, by omega⟩, rfl, rfl⟩

variable {C}

theorem Visits.unique {next : H → Option α} {h : H} {l m : List α}
    (hl : C.Visits leaf next h l) (hm : C.Visits leaf next h m) : l = m := by
  have hwalk := (C.walk_eq_some_iff next (l.length + m.length + 1) h l).2 ⟨hl, by omega⟩
  rw [(C.walk_eq_some_iff next _ h m).2 ⟨hm, by omega⟩] at hwalk
  exact (Option.some.inj hwalk).symm

variable (C)

theorem visits_iff {next : H → Option α} {h : H} {l : List α}
    (hnext : ∀ h a, next h = some a → prev a = h) :
    C.Visits leaf next h l ↔ C.Chained prev leaf h l ∧ (∀ a ∈ l, next (prev a) = some a)
      ∧ next (C.hashFrom h (l.map leaf)) = none := by
  induction l generalizing h with
  | nil => simp [Visits, Chained]
  | cons a l ih =>
    simp only [Visits, Chained, ih, List.forall_mem_cons, List.map_cons, hashFrom_cons]
    constructor
    · rintro ⟨hfound, hl, hmem, hend⟩
      have hprev := hnext h a hfound
      exact ⟨⟨hprev, hl⟩, ⟨by rw [hprev, hfound], hmem⟩, hend⟩
    · rintro ⟨⟨hprev, hl⟩, ⟨hfound, hmem⟩, hend⟩
      exact ⟨by rw [← hprev, hfound], hl, hmem, hend⟩

/-! ## Collections -/

def Intact (C : ChainHash H B) (prev : α → H) (leaf : α → B) (rows : List α) : Prop :=
  ∃ l, l.Perm rows ∧ C.Chained prev leaf C.genesis l

variable [DecidableEq H]

/-- The first item that names a hash as its predecessor. -/
def follow (prev : α → H) (rows : List α) (h : H) : Option α := rows.find? (fun a => prev a = h)

variable {rows : List α}

theorem prev_of_follow {h : H} {a : α} (hf : follow prev rows h = some a) : prev a = h := by
  simpa using List.find?_some hf

theorem mem_of_follow {h : H} {a : α} (hf : follow prev rows h = some a) :
    a ∈ rows := List.mem_of_find?_eq_some hf

theorem follow_eq_none_iff {h : H} : follow prev rows h = none ↔ ∀ a ∈ rows, prev a ≠ h := by
  simp [follow]

theorem follow_of_mem (hnodup : (rows.map prev).Nodup) {a : α} (ha : a ∈ rows) :
    follow prev rows (prev a) = some a := by
  cases hf : follow prev rows (prev a) with
  | none => exact (follow_eq_none_iff.1 hf a ha rfl).elim
  | some b =>
    rw [List.inj_on_of_nodup_map hnodup (mem_of_follow hf) ha (prev_of_follow hf)]

theorem visits_follow_iff {rows l : List α} {h : H} :
    C.Visits leaf (follow prev rows) h l ↔ C.Chained prev leaf h l
      ∧ (∀ a ∈ l, follow prev rows (prev a) = some a)
      ∧ follow prev rows (C.hashFrom h (l.map leaf)) = none :=
  C.visits_iff (fun _ _ => prev_of_follow)

theorem exists_visits (prev : α → H) (leaf : α → B) (rows : List α) :
    ∃ l, C.Visits leaf (follow prev rows) C.genesis l ∧ l.length ≤ rows.length := by
  -- after `n` looks the walk has ended, or has met `n` items that form a chain
  have hprefix : ∀ n, (∃ l, C.Visits leaf (follow prev rows) C.genesis l ∧ l.length < n)
      ∨ ∃ l, l.length = n ∧ C.Chained prev leaf C.genesis l
          ∧ ∀ a ∈ l, follow prev rows (prev a) = some a := by
    intro n
    induction n with
    | zero => exact Or.inr ⟨[], rfl, trivial, fun a ha => by cases ha⟩
    | succ n ih =>
      rcases ih with ⟨l, hvisits, hlen⟩ | ⟨l, hlen, hchained, hfound⟩
      · exact Or.inl ⟨l, hvisits, by omega⟩
      · cases hnext : follow prev rows (C.hashFrom C.genesis (l.map leaf)) with
        | none =>
          exact Or.inl ⟨l, C.visits_follow_iff.2
            ⟨hchained, hfound, hnext⟩, by omega⟩
        | some a =>
          have hprev := prev_of_follow hnext
          refine Or.inr ⟨l ++ [a], by simp [hlen],
            (C.chained_concat prev leaf C.genesis l a).2 ⟨hchained, hprev⟩, ?_⟩
          intro b hb
          rcases List.mem_append.1 hb with hb | hb
          · exact hfound b hb
          · rw [List.mem_singleton.1 hb, hprev, hnext]
  rcases hprefix (rows.length + 1) with ⟨l, hvisits, hlen⟩ | ⟨l, hlen, hchained, hfound⟩
  · exact ⟨l, hvisits, by omega⟩
  · have hsubset : l ⊆ rows := fun a ha => mem_of_follow (hfound a ha)
    have hle := (List.subperm_of_subset hchained.nodup_prev.of_map hsubset).length_le
    omega

theorem intact_iff_visits {rows l : List α} (hl : C.Visits leaf (follow prev rows) C.genesis l) :
    C.Intact prev leaf rows ↔ (rows.map prev).Nodup ∧ l.length = rows.length := by
  constructor
  · rintro ⟨m, hperm, hchained⟩
    have hnodup := (hperm.map prev).nodup_iff.1 hchained.nodup_prev
    have hm : C.Visits leaf (follow prev rows) C.genesis m := by
      refine C.visits_follow_iff.2 ⟨hchained, ?_, ?_⟩
      · intro a ha
        exact follow_of_mem hnodup (hperm.mem_iff.1 ha)
      · rw [follow_eq_none_iff]
        intro a ha
        exact hchained.prev_ne_hashFrom (hperm.mem_iff.2 ha)
    rw [hl.unique hm]
    exact ⟨hnodup, hperm.length_eq⟩
  · rintro ⟨-, hlen⟩
    obtain ⟨hchained, hfound, -⟩ := C.visits_follow_iff.1 hl
    have hsubset : l ⊆ rows := fun a ha => mem_of_follow (hfound a ha)
    have hsubperm := List.subperm_of_subset hchained.nodup_prev.of_map hsubset
    exact ⟨l, hsubperm.perm_of_length_le (by omega), hchained⟩

/-! ## One change to a chain -/

variable {C} {l t : List α} {a : α}

theorem visits_of_prefix {rows : List α} (hchained : C.Chained prev leaf C.genesis l)
    (hnodup : (rows.map prev).Nodup) (hmem : ∀ x ∈ l, x ∈ rows)
    (hend : ∀ x ∈ rows, prev x ≠ C.hashFrom C.genesis (l.map leaf)) :
    C.Visits leaf (follow prev rows) C.genesis l :=
  C.visits_follow_iff.2
    ⟨hchained, fun x hx => follow_of_mem hnodup (hmem x hx), follow_eq_none_iff.2 hend⟩

theorem intact_concat_iff (hl : C.Chained prev leaf C.genesis l) (b : α) :
    C.Intact prev leaf (l ++ [b]) ↔ prev b = C.hashFrom C.genesis (l.map leaf) := by
  constructor
  · intro hintact
    have hnodup : ((l ++ [b]).map prev).Nodup := by
      obtain ⟨m, hperm, hm⟩ := hintact
      exact (hperm.map prev).nodup_iff.1 hm.nodup_prev
    by_contra hne
    have hvisits : C.Visits leaf (follow prev (l ++ [b])) C.genesis l := by
      refine visits_of_prefix hl hnodup (fun x => List.mem_append_left _) ?_
      intro x hx
      rcases List.mem_append.1 hx with hx | hx
      · exact hl.prev_ne_hashFrom hx
      · rwa [List.mem_singleton.1 hx]
    have hlen := ((C.intact_iff_visits hvisits).1 hintact).2
    rw [List.length_append, List.length_singleton] at hlen
    omega
  · intro hprev
    exact ⟨l ++ [b], List.Perm.refl _, (C.chained_concat prev leaf _ l b).2 ⟨hl, hprev⟩⟩

theorem intact_erase_iff (hc : C.Chained prev leaf C.genesis (l ++ a :: t)) :
    C.Intact prev leaf (l ++ t) ↔ t = [] := by
  have hl := ((C.chained_append prev leaf C.genesis l (a :: t)).1 hc).1
  have hperm : (l ++ a :: t).Perm (a :: (l ++ t)) := List.perm_middle
  have hnodup := (hperm.map prev).nodup_iff.1 hc.nodup_prev
  rw [List.map_cons, List.nodup_cons] at hnodup
  constructor
  · intro hintact
    have hvisits : C.Visits leaf (follow prev (l ++ t)) C.genesis l := by
      refine visits_of_prefix hl hnodup.2 (fun x => List.mem_append_left t) ?_
      intro x hx heq
      rw [← hc.prev_eq] at heq
      exact hnodup.1 (List.mem_map.2 ⟨x, hx, heq⟩)
    have hlen := ((C.intact_iff_visits hvisits).1 hintact).2
    rw [List.length_append] at hlen
    exact List.eq_nil_of_length_eq_zero (by omega)
  · rintro rfl
    rw [List.append_nil]
    exact ⟨l, List.Perm.refl l, hl⟩

theorem intact_replace_iff (hc : C.Chained prev leaf C.genesis (l ++ a :: t)) (b : α) :
    C.Intact prev leaf (l ++ b :: t) ↔ prev b = prev a ∧ (t = [] ∨ leaf b = leaf a) := by
  obtain ⟨hl, ha, ht⟩ := (C.chained_append prev leaf C.genesis l (a :: t)).1 hc
  constructor
  · intro hintact
    have hnodup : ((l ++ b :: t).map prev).Nodup := by
      obtain ⟨m, hperm, hm⟩ := hintact
      exact (hperm.map prev).nodup_iff.1 hm.nodup_prev
    -- an unchanged item does not name the predecessor of the replaced one
    have hother : ∀ x ∈ l ++ t, prev x ≠ prev a := by
      intro x hx heq
      have hperm : (l ++ a :: t).Perm (a :: (l ++ t)) := List.perm_middle
      have hcons := (hperm.map prev).nodup_iff.1 hc.nodup_prev
      rw [List.map_cons, List.nodup_cons] at hcons
      exact hcons.1 (List.mem_map.2 ⟨x, hx, heq⟩)
    have hprev : prev b = prev a := by
      by_contra hne
      have hvisits : C.Visits leaf (follow prev (l ++ b :: t)) C.genesis l := by
        refine visits_of_prefix hl hnodup (fun x => List.mem_append_left _) ?_
        intro x hx
        rw [← ha]
        rcases List.mem_append.1 hx with hx | hx
        · exact hother x (List.mem_append_left t hx)
        · rcases List.mem_cons.1 hx with rfl | hx
          · exact hne
          · exact hother x (List.mem_append_right l hx)
      have hlen := ((C.intact_iff_visits hvisits).1 hintact).2
      rw [List.length_append, List.length_cons] at hlen
      omega
    refine ⟨hprev, ?_⟩
    by_contra hnot
    rw [not_or] at hnot
    obtain ⟨htail, hleaf⟩ := hnot
    have hlb : C.Chained prev leaf C.genesis (l ++ [b]) :=
      (C.chained_concat prev leaf C.genesis l b).2 ⟨hl, hprev.trans ha⟩
    have hvisits : C.Visits leaf (follow prev (l ++ b :: t)) C.genesis (l ++ [b]) := by
      refine visits_of_prefix hlb hnodup (fun x hx => ?_) ?_
      · rcases List.mem_append.1 hx with hx | hx
        · exact List.mem_append_left _ hx
        · exact List.mem_append_right _ (List.mem_cons.2 (Or.inl (List.mem_singleton.1 hx)))
      · intro x hx
        rw [← List.singleton_append, ← List.append_assoc] at hx
        rcases List.mem_append.1 hx with hx | hx
        · exact hlb.prev_ne_hashFrom hx
        · -- a later item names a hash that the old content went into
          intro heq
          obtain ⟨s, u, rfl⟩ := List.append_of_mem hx
          have hc' : C.Chained prev leaf C.genesis ((l ++ a :: s) ++ x :: u) := by
            rwa [List.append_assoc, List.cons_append]
          rw [hc'.prev_eq] at heq
          have hbs := C.hashFrom_genesis_inj heq
          simp only [List.map_append, List.map_cons, List.map_nil] at hbs
          have htails := List.append_cancel_left hbs
          exact hleaf (List.cons.inj htails).1.symm
    have hlen := ((C.intact_iff_visits hvisits).1 hintact).2
    simp only [List.length_append, List.length_cons, List.length_nil] at hlen
    exact htail (List.eq_nil_of_length_eq_zero (by omega))
  · rintro ⟨hprev, hkept⟩
    refine ⟨l ++ b :: t, List.Perm.refl _, ?_⟩
    rw [chained_append]
    refine ⟨hl, hprev.trans ha, ?_⟩
    rcases hkept with rfl | hleaf
    · trivial
    · rwa [hleaf]

end ChainHash
