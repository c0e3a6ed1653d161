import Mathlib.Data.List.Sort

/-! # Sorted lists, lists without duplicates, and lists with keys -/

universe u v w

namespace Lists

variable {α : Type u}

theorem pairwise_mergeSort {r : α → α → Prop} [DecidableRel r]
    (htrans : ∀ {a b c}, r a b → r b c → r a c) (htotal : ∀ a b, r a b ∨ r b a) (l : List α) :
    (l.mergeSort (fun a b => r a b)).Pairwise r := by
  have hsorted := @List.pairwise_mergeSort α (fun a b => decide (r a b))
    (fun a b c hab hbc => decide_eq_true (htrans (of_decide_eq_true hab) (of_decide_eq_true hbc)))
    (fun a b => by rw [Bool.or_eq_true, decide_eq_true_eq, decide_eq_true_eq]; exact htotal a b) l
  exact hsorted.imp (fun h => of_decide_eq_true h)

theorem nodup_eraseDups [BEq α] [LawfulBEq α] (l : List α) : l.eraseDups.Nodup := by
  induction hn : l.length using Nat.strong_induction_on generalizing l with
  | _ n ih =>
    cases l with
    | nil => simp
    | cons a l =>
      subst hn
      rw [List.eraseDups_cons]
      refine List.nodup_cons.2 ⟨fun ha => ?_, ih _ ?_ _ rfl⟩
      · rw [List.mem_eraseDups, List.mem_filter] at ha
        simpa using ha.2
      · exact Nat.lt_succ_of_le (List.length_filter_le _ _)

theorem modify_length_append (f : α → α) (before : List α) (x : α) (after : List α) :
    (before ++ x :: after).modify before.length f = before ++ f x :: after := by
  induction before with
  | nil => rfl
  | cons y before ih => rw [List.cons_append, List.length_cons, List.modify_succ_cons, ih,
      List.cons_append]

theorem map_modify {β : Type v} {f : α → α} {g : β → β} {h : α → β} {l : List α} {k : Nat}
    (hfg : ∀ x ∈ l, h (f x) = g (h x)) : (l.modify k f).map h = (l.map h).modify k g := by
  induction l generalizing k with
  | nil => simp
  | cons x l ih =>
    cases k with
    | zero => simp [hfg x List.mem_cons_self]
    | succ k =>
      rw [List.modify_succ_cons, List.map_cons, List.map_cons, List.modify_succ_cons,
        ih (fun y hy => hfg y (List.mem_cons_of_mem _ hy))]

theorem filterMap_range'_getElem? (l : List α) (start n : Nat) :
    (List.range' start n).filterMap (fun i => l[i]?) = (l.drop start).take n := by
  induction n generalizing start with
  | zero => simp
  | succ n ih =>
    rw [List.range'_succ, List.filterMap_cons, ih]
    by_cases hstart : start < l.length
    · rw [List.getElem?_eq_getElem hstart, List.drop_eq_getElem_cons hstart, List.take_succ_cons]
    · rw [List.getElem?_eq_none (Nat.le_of_not_lt hstart),
        List.drop_eq_nil_of_le (Nat.le_of_not_lt hstart),
        List.drop_eq_nil_of_le (Nat.le_succ_of_le (Nat.le_of_not_lt hstart)), List.take_nil,
        List.take_nil]

section ByKey

variable {κ : Type v} {ν : Type w} {r : κ → κ → Prop} [DecidableRel r]

theorem orderedInsert_inj {a b : κ × ν} {l l' : List (κ × ν)} (hab : a.1 = b.1)
    (hkeys : l.map Prod.fst = l'.map Prod.fst)
    (h : l.orderedInsert (fun a b => r a.1 b.1) a = l'.orderedInsert (fun a b => r a.1 b.1) b) :
    a = b ∧ l = l' := by
  induction l generalizing l' with
  | nil =>
    rw [List.map_eq_nil_iff.1 hkeys.symm] at h ⊢
    simpa using h
  | cons c l ih =>
    obtain ⟨d, l', rfl, hcd, htails⟩ := List.map_eq_cons_iff.1 hkeys.symm
    simp only [List.orderedInsert, hab, hcd] at h
    split at h
    · simpa using h
    · obtain ⟨rfl, htail⟩ := List.cons.inj h
      obtain ⟨rfl, rfl⟩ := ih htails.symm htail
      exact ⟨rfl, rfl⟩

theorem insertionSort_inj {l l' : List (κ × ν)} (hkeys : l.map Prod.fst = l'.map Prod.fst)
    (h : l.insertionSort (fun a b => r a.1 b.1) = l'.insertionSort (fun a b => r a.1 b.1)) :
    l = l' := by
  have hsort : ∀ l : List (κ × ν), (l.insertionSort (fun a b => r a.1 b.1)).map Prod.fst
      = (l.map Prod.fst).insertionSort r := by
    intro l
    exact List.map_insertionSort _ _ _ _ (fun _ _ _ _ => Iff.rfl)
  induction l generalizing l' with
  | nil => rw [List.map_eq_nil_iff.1 hkeys.symm]
  | cons a l ih =>
    obtain ⟨b, l', rfl, hba, htails⟩ := List.map_eq_cons_iff.1 hkeys.symm
    rw [List.insertionSort_cons, List.insertionSort_cons] at h
    obtain ⟨rfl, hsorts⟩ := orderedInsert_inj hba.symm (by rw [hsort, hsort, htails]) h
    rw [ih htails.symm hsorts]

end ByKey

/-- What a function tells apart no better than another one, on the members of two lists, does not
    tell apart the lists if the other does not. -/
theorem map_eq_map_of_mem {β : Type v} {γ : Type w} {f : α → β} {g : α → γ} {l l' : List α}
    (h : ∀ a ∈ l, ∀ b ∈ l', f a = f b → g a = g b) (hl : l.map f = l'.map f) :
    l.map g = l'.map g := by
  induction l generalizing l' with
  | nil => rw [List.map_eq_nil_iff.1 hl.symm]
  | cons a l ih =>
    cases l' with
    | nil => exact absurd hl (by simp)
    | cons b l' =>
      rw [List.map_cons, List.map_cons, List.cons.injEq] at hl
      rw [List.map_cons, List.map_cons, h a List.mem_cons_self b List.mem_cons_self hl.1,
        ih (fun c hc d hd => h c (List.mem_cons_of_mem _ hc) d (List.mem_cons_of_mem _ hd)) hl.2]

theorem map_eq_map_of_imp {β : Type v} {γ : Type w} {f : α → β} {g : α → γ}
    (h : ∀ a b, f a = f b → g a = g b) {l l' : List α} (hl : l.map f = l'.map f) :
    l.map g = l'.map g := by
  induction l generalizing l' with
  | nil =>
    rw [List.map_nil, eq_comm, List.map_eq_nil_iff] at hl
    rw [hl]
  | cons a l ih =>
    cases l' with
    | nil => cases hl
    | cons b l' =>
      obtain ⟨hab, hrest⟩ := List.cons.inj hl
      rw [List.map_cons, List.map_cons, h a b hab, ih hrest]

/-! ## Lists with distinct keys -/

section Keys

variable {κ : Type v} [DecidableEq κ] {l l' : List (κ × α)}

theorem find?_key_eq_some_iff (hnodup : (l.map Prod.fst).Nodup) {k : κ} {a : κ × α} :
    l.find? (fun a => a.1 = k) = some a ↔ a ∈ l ∧ a.1 = k := by
  constructor
  · intro h
    have hkey := List.find?_some h
    exact ⟨List.mem_of_find?_eq_some h, of_decide_eq_true hkey⟩
  · rintro ⟨ha, rfl⟩
    cases hfind : l.find? (fun b => b.1 = a.1) with
    | none => simpa using List.find?_eq_none.1 hfind a ha
    | some b =>
      have hb := List.mem_of_find?_eq_some hfind
      have hkey := List.find?_some hfind
      rw [List.inj_on_of_nodup_map hnodup hb ha (of_decide_eq_true hkey)]

theorem insertionSort_eq_iff_find? {r : κ → κ → Prop} [DecidableRel r]
    (htrans : ∀ {a b c}, r a b → r b c → r a c) (htotal : ∀ a b, r a b ∨ r b a)
    (hantisymm : ∀ {a b}, r a b → r b a → a = b) (hnodup : (l.map Prod.fst).Nodup)
    (hnodup' : (l'.map Prod.fst).Nodup) :
    l.insertionSort (fun a b => r a.1 b.1) = l'.insertionSort (fun a b => r a.1 b.1)
      ↔ ∀ k, l.find? (fun a => a.1 = k) = l'.find? (fun a => a.1 = k) := by
  have hperm := List.perm_insertionSort (fun a b : κ × α => r a.1 b.1) l
  have hperm' := List.perm_insertionSort (fun a b : κ × α => r a.1 b.1) l'
  constructor
  · intro h k
    rw [h] at hperm
    have hsame := hperm.symm.trans hperm'
    ext a
    rw [find?_key_eq_some_iff hnodup, find?_key_eq_some_iff hnodup', hsame.mem_iff]
  · intro h
    have hmem : ∀ a, a ∈ l ↔ a ∈ l' := by
      intro a
      have hl := find?_key_eq_some_iff hnodup (k := a.1) (a := a)
      have hl' := find?_key_eq_some_iff hnodup' (k := a.1) (a := a)
      rw [h a.1] at hl
      simpa using hl.symm.trans hl'
    have hsame := (List.perm_ext_iff_of_nodup hnodup.of_map hnodup'.of_map).2 hmem
    have : Std.Total (fun a b : κ × α => r a.1 b.1) := ⟨fun a b => htotal a.1 b.1⟩
    have : IsTrans (κ × α) (fun a b => r a.1 b.1) := ⟨fun a b c => htrans⟩
    refine ((hperm.trans hsame).trans hperm'.symm).eq_of_pairwise ?_
      (List.pairwise_insertionSort _ l) (List.pairwise_insertionSort _ l')
    intro a b ha hb hab hba
    exact List.inj_on_of_nodup_map hnodup (hperm.mem_iff.1 ha)
      ((hmem b).2 (hperm'.mem_iff.1 hb)) (hantisymm hab hba)

end Keys

end Lists
