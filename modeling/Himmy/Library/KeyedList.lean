import Mathlib.Data.List.Nodup
import Mathlib.Data.List.Count
import Mathlib.Data.List.Perm.Basic

/-! # Insertion-ordered keyed lists

A `KeyedList key` is a list in which no two items share a key: the common shape of an
insertion-ordered dictionary (values looked up by a key they carry) and of a table with a primary
key whose rows are kept in row-number order. `put` replaces an item in place or appends a new one,
so the position of a key never changes while it is present.

The lookup lemmas (`get?_put`, `get?_modify`, `get?_filter`) describe each operation through `get?`;
`map` carries a keyed list along a key-preserving function and commutes with the operations, which
is what relates two presentations of one collection. -/

universe u v w

/-- A list whose items have pairwise distinct keys. -/
structure KeyedList {α : Type u} {κ : Type v} (key : α → κ) where
  items : List α
  nodup_keys : (items.map key).Nodup

namespace KeyedList

variable {α : Type u} {κ : Type v} {key : α → κ}

@[ext] theorem ext {l l' : KeyedList key} (h : l.items = l'.items) : l = l' := by
  cases l; cases l'; cases h; rfl

def empty : KeyedList key := ⟨[], List.nodup_nil⟩

@[simp] theorem items_empty : (empty : KeyedList key).items = [] := rfl

variable (l : KeyedList key)

def modify (f : α → α) (hf : ∀ a, key (f a) = key a) : KeyedList key :=
  ⟨l.items.map f, by
    have hkeys : (l.items.map f).map key = l.items.map key := by
      rw [List.map_map]
      exact List.map_congr_left (fun a _ => hf a)
    rw [hkeys]; exact l.nodup_keys⟩

/-- Keep the items that satisfy `p`. -/
def filter (p : α → Bool) : KeyedList key :=
  ⟨l.items.filter p, l.nodup_keys.sublist (List.filter_sublist.map key)⟩

@[simp] theorem items_modify (f : α → α) (hf : ∀ a, key (f a) = key a) :
    (l.modify f hf).items = l.items.map f := rfl

@[simp] theorem items_filter (p : α → Bool) : (l.filter p).items = l.items.filter p := rfl

theorem filter_filter (p q : α → Bool) :
    (l.filter p).filter q = l.filter (fun a => p a && q a) := by
  refine ext ?_
  rw [items_filter, items_filter, items_filter, List.filter_filter]
  exact List.filter_congr (fun a _ => Bool.and_comm _ _)

theorem filter_modify {q : α → Bool} {f : α → α}
    (hf : ∀ a, key (f a) = key a) (hq : ∀ a, q (f a) = q a) :
    (l.modify f hf).filter q = (l.filter q).modify f hf := by
  refine ext ?_
  rw [items_filter, items_modify, items_modify, items_filter, List.filter_map]
  exact congrArg (List.map f) (List.filter_congr (fun a _ => hq a))

theorem filter_modify_of_neg {q : α → Bool} {f : α → α}
    (hf : ∀ a, key (f a) = key a) (hq : ∀ a, q (f a) = q a)
    (hsame : ∀ a ∈ l.items, q a = true → f a = a) : (l.modify f hf).filter q = l.filter q := by
  rw [l.filter_modify hf hq]
  refine ext ?_
  rw [items_modify, items_filter]
  refine (List.map_congr_left (fun a ha => ?_)).trans (List.map_id _)
  obtain ⟨hmem, hqa⟩ := List.mem_filter.1 ha
  exact hsame a hmem hqa

theorem eq_of_key_eq {a b : α} (ha : a ∈ l.items) (hb : b ∈ l.items) (h : key a = key b) : a = b :=
  List.inj_on_of_nodup_map l.nodup_keys ha hb h

/-! ## Lookup -/

section Lookup

variable [DecidableEq κ] (l : KeyedList key)

/-- The item stored under `k`. -/
def get? (k : κ) : Option α := l.items.find? (fun a => key a = k)

theorem get?_eq_some_iff (k : κ) (a : α) : l.get? k = some a ↔ a ∈ l.items ∧ key a = k := by
  constructor
  · intro h
    exact ⟨List.mem_of_find?_eq_some h, by simpa using List.find?_some h⟩
  · rintro ⟨ha, rfl⟩
    cases h : l.get? (key a) with
    | none =>
      have := List.find?_eq_none.1 h a ha
      simp at this
    | some b =>
      have hb : b ∈ l.items := List.mem_of_find?_eq_some h
      have hkey : key b = key a := by simpa using List.find?_some h
      rw [l.eq_of_key_eq hb ha hkey]

theorem get?_eq_none_iff (k : κ) : l.get? k = none ↔ ∀ a ∈ l.items, key a ≠ k := by
  simp [get?, List.find?_eq_none]

theorem get?_of_mem {a : α} (ha : a ∈ l.items) : l.get? (key a) = some a :=
  (l.get?_eq_some_iff _ _).2 ⟨ha, rfl⟩

theorem mem_of_get? {l : KeyedList key} {k : κ} {a : α} (h : l.get? k = some a) : a ∈ l.items :=
  ((l.get?_eq_some_iff k a).1 h).1

theorem key_of_get? {l : KeyedList key} {k : κ} {a : α} (h : l.get? k = some a) : key a = k :=
  ((l.get?_eq_some_iff k a).1 h).2

@[simp] theorem get?_empty (k : κ) : (empty : KeyedList key).get? k = none := rfl

variable (l : KeyedList key)

@[simp] theorem get?_modify (f : α → α) (hf : ∀ a, key (f a) = key a) (k : κ) :
    (l.modify f hf).get? k = (l.get? k).map f := by
  cases h : l.get? k with
  | none =>
    rw [get?_eq_none_iff] at h
    simp only [Option.map_none, get?_eq_none_iff, items_modify, List.mem_map]
    rintro _ ⟨a, ha, rfl⟩
    rw [hf]; exact h a ha
  | some a =>
    obtain ⟨ha, hk⟩ := (l.get?_eq_some_iff k a).1 h
    simp only [Option.map_some, get?_eq_some_iff, items_modify, hf, hk, and_true]
    exact List.mem_map_of_mem ha

theorem get?_filter (p : α → Bool) (k : κ) : (l.filter p).get? k = (l.get? k).filter p := by
  cases h : l.get? k with
  | none =>
    rw [get?_eq_none_iff] at h
    rw [Option.filter_none, get?_eq_none_iff]
    exact fun a ha => h a (List.mem_of_mem_filter ha)
  | some a =>
    obtain ⟨ha, hk⟩ := (l.get?_eq_some_iff k a).1 h
    by_cases hp : p a = true
    · rw [Option.filter_some_pos hp, get?_eq_some_iff]
      exact ⟨List.mem_filter.2 ⟨ha, hp⟩, hk⟩
    · rw [Option.filter_some_neg (by simpa using hp), get?_eq_none_iff]
      intro b hb hkb
      obtain ⟨hb, hpb⟩ := List.mem_filter.1 hb
      rw [l.eq_of_key_eq hb ha (hkb.trans hk.symm)] at hpb
      exact hp hpb

/-! ## Insertion -/

variable (a : α)

/-- Store `a` under its key: in place of the item that has the key, else at the end. -/
def put : KeyedList key :=
  if h : (l.get? (key a)).isSome then
    ⟨l.items.map (fun b => if key b = key a then a else b), by
      have hkeys : (l.items.map (fun b => if key b = key a then a else b)).map key
          = l.items.map key := by
        rw [List.map_map]
        refine List.map_congr_left (fun b _ => ?_)
        simp only [Function.comp_apply]
        split
        · next hb => exact hb.symm
        · rfl
      rw [hkeys]; exact l.nodup_keys⟩
  else
    ⟨l.items ++ [a], by
      rw [List.map_append, List.nodup_append]
      refine ⟨l.nodup_keys, List.nodup_singleton _, ?_⟩
      intro k hk k' hk' he
      obtain ⟨b, hb, rfl⟩ := List.mem_map.1 hk
      rw [Bool.not_eq_true, Option.isSome_eq_false_iff, Option.isNone_iff_eq_none] at h
      exact (l.get?_eq_none_iff _).1 h b hb (he.trans (by simpa using hk'))⟩

theorem items_put_of_some (a b : α) (h : l.get? (key a) = some b) :
    (l.put a).items = l.items.map (fun c => if key c = key a then a else c) := by
  unfold put; rw [dif_pos (by simp [h])]

theorem items_put_of_none (h : l.get? (key a) = none) : (l.put a).items = l.items ++ [a] := by
  unfold put; rw [dif_neg (by simp [h])]

theorem mem_put_iff (a b : α) : b ∈ (l.put a).items ↔ b = a ∨ (b ∈ l.items ∧ key b ≠ key a) := by
  cases h : l.get? (key a) with
  | none =>
    have hne := (l.get?_eq_none_iff _).1 h
    rw [items_put_of_none l a h, List.mem_append, List.mem_singleton]
    exact ⟨fun hb => hb.elim (fun hm => Or.inr ⟨hm, hne b hm⟩) Or.inl,
      fun hb => hb.elim Or.inr (fun hm => Or.inl hm.1)⟩
  | some c =>
    obtain ⟨hc, hk⟩ := (l.get?_eq_some_iff _ _).1 h
    rw [items_put_of_some l a c h, List.mem_map]
    constructor
    · rintro ⟨d, hd, rfl⟩
      split
      · exact Or.inl rfl
      · next hne => exact Or.inr ⟨hd, hne⟩
    · rintro (rfl | ⟨hb, hne⟩)
      · exact ⟨c, hc, if_pos hk⟩
      · exact ⟨b, hb, if_neg hne⟩

theorem get?_put (k : κ) : (l.put a).get? k = if k = key a then some a else l.get? k := by
  split
  · next h => exact ((l.put a).get?_eq_some_iff k a).2 ⟨(l.mem_put_iff a a).2 (Or.inl rfl), h.symm⟩
  · next h =>
      cases hg : l.get? k with
      | none =>
        rw [get?_eq_none_iff] at hg ⊢
        intro b hb
        rcases (l.mem_put_iff a b).1 hb with rfl | ⟨hb, _⟩
        · exact fun he => h he.symm
        · exact hg b hb
      | some b =>
        obtain ⟨hb, rfl⟩ := (l.get?_eq_some_iff _ _).1 hg
        exact (l.put a).get?_of_mem ((l.mem_put_iff a b).2 (Or.inr ⟨hb, h⟩))

@[simp] theorem get?_put_self : (l.put a).get? (key a) = some a := by
  rw [get?_put, if_pos rfl]

theorem get?_put_of_ne {k : κ} (h : k ≠ key a) : (l.put a).get? k = l.get? k := by
  rw [get?_put, if_neg h]

/-! ## Removal -/

def erase (k : κ) : KeyedList key := l.filter (fun a => key a ≠ k)

theorem get?_erase (k k' : κ) : (l.erase k).get? k' = if k' = k then none else l.get? k' := by
  rw [erase, get?_filter]
  cases hget : l.get? k' with
  | none => rw [Option.filter_none]; split <;> rfl
  | some a =>
    have hkey := key_of_get? hget
    by_cases h : k' = k
    · rw [if_pos h, Option.filter_some_neg (by simp [hkey, h])]
    · rw [if_neg h, Option.filter_some_pos (by simp [hkey, h])]

theorem mem_erase_iff (k : κ) (a : α) : a ∈ (l.erase k).items ↔ a ∈ l.items ∧ key a ≠ k := by
  rw [erase, items_filter, List.mem_filter, decide_eq_true_eq]

/-- Store `a` at the end, in place of the item of its key wherever that was. -/
def replace : KeyedList key := (l.erase (key a)).put a

theorem get?_replace (k : κ) : (l.replace a).get? k = if k = key a then some a else l.get? k := by
  rw [replace, get?_put, get?_erase]
  split <;> rfl

theorem mem_replace_iff (a b : α) :
    b ∈ (l.replace a).items ↔ b = a ∨ (b ∈ l.items ∧ key b ≠ key a) := by
  rw [replace, mem_put_iff, mem_erase_iff, and_assoc, and_self]

/-- Keep the last `n` items. -/
def trim (n : Nat) : KeyedList key :=
  ⟨l.items.drop (l.items.length - n),
    l.nodup_keys.sublist ((List.drop_sublist _ l.items).map key)⟩

omit [DecidableEq κ] in
theorem length_trim_le (l : KeyedList key) (n : Nat) : (l.trim n).items.length ≤ n := by
  simp only [trim, List.length_drop]
  omega

theorem get?_of_get?_trim {l : KeyedList key} {n : Nat} {k : κ} {a : α}
    (h : (l.trim n).get? k = some a) : l.get? k = some a := by
  obtain ⟨hmem, hkey⟩ := ((l.trim n).get?_eq_some_iff k a).1 h
  exact (l.get?_eq_some_iff k a).2 ⟨List.mem_of_mem_drop hmem, hkey⟩

theorem get?_trim_replace_self (l : KeyedList key) (a : α) {n : Nat} (hn : 0 < n) :
    ((l.replace a).trim n).get? (key a) = some a := by
  have hitems : (l.replace a).items = (l.erase (key a)).items ++ [a] := by
    rw [replace, items_put_of_none]
    rw [get?_erase, if_pos rfl]
  refine (get?_eq_some_iff _ _ _).2 ⟨?_, rfl⟩
  simp only [trim, hitems, List.length_append, List.length_singleton]
  rw [List.drop_append_of_le_length (by omega)]
  exact List.mem_append_right _ (List.mem_singleton_self a)

/-! ## Many at once -/

omit [DecidableEq κ] in
theorem items_foldl_filter {β : Type w} (p : β → α → Bool) (bs : List β) (l : KeyedList key) :
    (bs.foldl (fun l b => l.filter (p b)) l).items = l.items.filter (fun a => bs.all (p · a)) := by
  induction bs generalizing l with
  | nil => simp
  | cons b bs ih =>
    rw [List.foldl_cons, ih, items_filter, List.filter_filter]
    exact List.filter_congr (fun a _ => by rw [List.all_cons, Bool.and_comm])

theorem items_foldl_erase (ks : List κ) (l : KeyedList key) :
    (ks.foldl erase l).items = l.items.filter (fun a => key a ∉ ks) := by
  have h := items_foldl_filter (fun (k : κ) (a : α) => key a ≠ k) ks l
  refine h.trans (List.filter_congr (fun a _ => ?_))
  rw [Bool.eq_iff_iff, List.all_eq_true]
  simp only [decide_eq_true_eq]
  exact ⟨fun h hmem => h _ hmem rfl, fun h k hk heq => h (heq ▸ hk)⟩

theorem mem_foldl_put {β : Type w} (f : β → α) (bs : List β) (l : KeyedList key) {a : α}
    (h : a ∈ (bs.foldl (fun l b => l.put (f b)) l).items) : a ∈ l.items ∨ ∃ b ∈ bs, a = f b := by
  induction bs generalizing l with
  | nil => exact .inl h
  | cons b bs ih =>
    rcases ih _ h with hput | ⟨b', hb', rfl⟩
    · rcases (mem_put_iff l (f b) a).1 hput with rfl | hold
      · exact .inr ⟨b, List.mem_cons_self .., rfl⟩
      · exact .inl hold.1
    · exact .inr ⟨b', List.mem_cons_of_mem _ hb', rfl⟩

theorem items_foldl_put (as : List α) (l : KeyedList key) (hnodup : (as.map key).Nodup)
    (hnew : ∀ a ∈ as, key a ∉ l.items.map key) : (as.foldl put l).items = l.items ++ as := by
  induction as generalizing l with
  | nil => simp
  | cons a as ih =>
    rw [List.map_cons, List.nodup_cons] at hnodup
    have hnone : l.get? (key a) = none := by
      rw [get?_eq_none_iff]
      intro b hb heq
      exact hnew a (List.mem_cons_self ..) (heq ▸ List.mem_map_of_mem hb)
    rw [List.foldl_cons, ih _ hnodup.2, items_put_of_none l a hnone, List.append_assoc]
    · rfl
    · intro b hb hmem
      rw [items_put_of_none l a hnone, List.map_append, List.mem_append] at hmem
      rcases hmem with hold | hlast
      · exact hnew b (List.mem_cons_of_mem _ hb) hold
      · rw [List.map_singleton, List.mem_singleton] at hlast
        exact hnodup.1 (hlast ▸ List.mem_map_of_mem hb)

/-! ## Guarded updates -/

variable (l : KeyedList key)

/-- Replace the item under `k` by `f` of it when it satisfies `p`; report whether it did. -/
def updateIf (k : κ) (p : α → Bool) (f : α → α) : KeyedList key × Bool :=
  match l.get? k with
  | some a => if p a then (l.put (f a), true) else (l, false)
  | none => (l, false)

theorem updateIf_of_pos {k : κ} {p : α → Bool} (f : α → α) {a : α}
    (h : l.get? k = some a) (hp : p a = true) : l.updateIf k p f = (l.put (f a), true) := by
  simp [updateIf, h, hp]

theorem updateIf_of_neg {k : κ} {p : α → Bool} (f : α → α)
    (h : ∀ a, l.get? k = some a → p a = false) : l.updateIf k p f = (l, false) := by
  unfold updateIf
  cases hg : l.get? k with
  | none => rfl
  | some a => simp [h a hg]

theorem updateIf_snd (k : κ) (p : α → Bool) (f : α → α) :
    (l.updateIf k p f).2 = true ↔ ∃ a, l.get? k = some a ∧ p a = true := by
  unfold updateIf
  cases hg : l.get? k with
  | none => simp
  | some a => by_cases hp : p a = true <;> simp [hp]

theorem updateIf_cases {l l' : KeyedList key} {k : κ} {p : α → Bool} {f : α → α} {b : Bool}
    (h : (l', b) = l.updateIf k p f) :
    (b = true ∧ ∃ a, l.get? k = some a ∧ p a = true ∧ l' = l.put (f a)) ∨ (b = false ∧ l' = l) := by
  unfold updateIf at h
  cases hg : l.get? k with
  | none => rw [hg] at h; cases h; exact Or.inr ⟨rfl, rfl⟩
  | some a =>
    rw [hg] at h
    dsimp only at h
    split at h <;> cases h
    · next hp => exact Or.inl ⟨rfl, a, rfl, hp, rfl⟩
    · exact Or.inr ⟨rfl, rfl⟩

theorem get?_updateIf (k : κ) (p : α → Bool) (f : α → α) (hf : ∀ a, key (f a) = key a) (k' : κ) :
    (l.updateIf k p f).1.get? k'
      = if k' = k then (l.get? k).map (fun a => if p a then f a else a) else l.get? k' := by
  unfold updateIf
  cases hg : l.get? k with
  | none =>
    dsimp only
    split
    · next h => rw [h, hg]; rfl
    · rfl
  | some a =>
    have hk : key (f a) = k := (hf a).trans (key_of_get? hg)
    by_cases hp : p a = true
    · simp only [hp, if_true, get?_put, hk, Option.map_some]
    · simp only [hp, Option.map_some, Bool.false_eq_true, if_false]
      split
      · next h => rw [h, hg]
      · rfl

/-- A conditional rewrite whose condition names a key is a guarded update of that key, and the
    number of items it selects says whether it happened. -/
theorem updateIf_eq_modify (k : κ) (p : α → Bool) (f : α → α) (hf : ∀ a, key (f a) = key a) :
    l.updateIf k p f = (l.modify (fun a => if decide (key a = k) && p a then f a else a)
          (fun a => by split <;> simp [hf]),
        decide (l.items.countP (fun a => decide (key a = k) && p a) = 1)) := by
  by_cases h : ∃ a, l.get? k = some a ∧ p a = true
  · obtain ⟨a, ha, hp⟩ := h
    obtain ⟨hmem, hk⟩ := (l.get?_eq_some_iff k a).1 ha
    rw [l.updateIf_of_pos f ha hp]
    refine Prod.ext (ext ?_) ?_
    · rw [items_put_of_some l (f a) a (by rw [hf, hk]; exact ha), items_modify]
      refine List.map_congr_left (fun b hb => ?_)
      rw [hf, hk]
      by_cases hb' : key b = k
      · rw [l.eq_of_key_eq hb hmem (hb'.trans hk.symm)]
        simp [hk, hp]
      · simp [hb']
    · have hcount : l.items.countP (fun b => decide (key b = k) && p b)
          = l.items.countP (fun b => key b == k) := by
        refine List.countP_congr (fun b hb => ?_)
        by_cases hb' : key b = k
        · rw [l.eq_of_key_eq hb hmem (hb'.trans hk.symm)]
          simp [hk, hp]
        · simp [hb']
      have hone : l.items.countP (fun b => key b == k) = 1 := by
        have hmap : (l.items.map key).count k = 1 :=
          List.count_eq_one_of_mem l.nodup_keys (List.mem_map.2 ⟨a, hmem, hk⟩)
        rwa [List.count, List.countP_map] at hmap
      simp [hcount, hone]
  · have hneg : ∀ a ∈ l.items, (decide (key a = k) && p a) = false := by
      intro a ha
      by_cases hk : key a = k
      · have hp : p a = false := by
          by_contra hp
          exact h ⟨a, (l.get?_eq_some_iff k a).2 ⟨ha, hk⟩, by simpa using hp⟩
        simp [hp]
      · simp [hk]
    rw [l.updateIf_of_neg f (fun a ha => by
      by_contra hp
      exact h ⟨a, ha, by simpa using hp⟩)]
    refine Prod.ext (ext ?_) ?_
    · rw [items_modify]
      exact ((List.map_congr_left (fun a ha => by simp [hneg a ha])).trans (List.map_id _)).symm
    · have hzero : l.items.countP (fun a => decide (key a = k) && p a) = 0 :=
        List.countP_eq_zero.2 (fun a ha => by simp [hneg a ha])
      simp [hzero]

theorem countP_key_eq_one_iff (k : κ) (p : α → Bool) :
    l.items.countP (fun a => decide (key a = k) && p a) = 1
      ↔ ∃ a, l.get? k = some a ∧ p a = true := by
  rw [← updateIf_snd l k p id, l.updateIf_eq_modify k p id (fun _ => rfl), decide_eq_true_eq]

end Lookup

/-! ## Counting -/

theorem countP_modify (l : KeyedList key) (f : α → α) (hf : ∀ a, key (f a) = key a) (p : α → Bool)
    (h : ∀ a ∈ l.items, p (f a) = p a) : (l.modify f hf).items.countP p = l.items.countP p := by
  rw [items_modify, List.countP_map]
  exact List.countP_congr (fun a ha => by simp [h a ha])

private theorem countP_map_replace {l : List α} (p : α → Bool) (g : α → α) (b : α) (hb : b ∈ l)
    (hnd : l.Nodup) (hg : ∀ c ∈ l, c ≠ b → g c = c) :
    (l.map g).countP p + (if p b then 1 else 0) = l.countP p + (if p (g b) then 1 else 0) := by
  induction l with
  | nil => simp at hb
  | cons c rest ih =>
    obtain ⟨hc, hnd⟩ := List.nodup_cons.1 hnd
    simp only [List.map_cons, List.countP_cons]
    rcases List.mem_cons.1 hb with rfl | hb
    · have hrest : rest.map g = rest :=
        (List.map_congr_left (fun d hd => hg d (List.mem_cons_of_mem _ hd)
          (fun he => hc (he ▸ hd)))).trans (List.map_id _)
      rw [hrest]; omega
    · have hne : c ≠ b := fun he => hc (he ▸ hb)
      rw [hg c (List.mem_cons_self ..) hne]
      have := ih hb hnd (fun d hd => hg d (List.mem_cons_of_mem _ hd))
      omega

theorem countP_put_of_some [DecidableEq κ] (l : KeyedList key) (a b : α) (p : α → Bool)
    (h : l.get? (key a) = some b) : (l.put a).items.countP p + (if p b then 1 else 0)
      = l.items.countP p + (if p a then 1 else 0) := by
  obtain ⟨hb, hk⟩ := (l.get?_eq_some_iff _ _).1 h
  rw [items_put_of_some l a b h]
  have := countP_map_replace p (fun c => if key c = key a then a else c) b hb
    (List.Nodup.of_map _ l.nodup_keys)
    (fun c hc hne => if_neg (fun he => hne (l.eq_of_key_eq hc hb (he.trans hk.symm))))
  simpa [hk] using this

theorem countP_put_of_none [DecidableEq κ] (l : KeyedList key) (a : α) (p : α → Bool)
    (h : l.get? (key a) = none) :
    (l.put a).items.countP p = l.items.countP p + (if p a then 1 else 0) := by
  rw [items_put_of_none l a h, List.countP_append, List.countP_singleton]

/-! ## Writes and filters -/

section Filters

variable [DecidableEq κ]

theorem filter_get?_filter (l : KeyedList key) {p q : α → Bool}
    (hq : ∀ a, q a = true → p a = true) (k : κ) :
    ((l.filter p).get? k).filter q = (l.get? k).filter q := by
  rw [get?_filter, Option.filter_filter]
  refine congrArg (fun r => (l.get? k).filter r) (funext fun a => ?_)
  by_cases hqa : q a = true
  · rw [hqa, hq a hqa, Bool.and_self]
  · rw [Bool.not_eq_true] at hqa
    rw [hqa, Bool.and_false]

theorem filter_put_of_pos (l : KeyedList key) {q : α → Bool} {a : α} (ha : q a = true)
    (hold : ∀ b, l.get? (key a) = some b → q b = true) :
    (l.put a).filter q = (l.filter q).put a := by
  refine ext ?_
  have hget := l.get?_filter q (key a)
  cases h : l.get? (key a) with
  | none =>
    rw [h, Option.filter_none] at hget
    rw [items_filter, items_put_of_none l a h, items_put_of_none _ a hget, List.filter_append,
      List.filter_cons_of_pos ha]
    rfl
  | some b =>
    rw [h, Option.filter_some_pos (hold b h)] at hget
    rw [items_filter, items_put_of_some l a b h, items_put_of_some _ a b hget, items_filter,
      List.filter_map]
    refine congrArg _ (List.filter_congr ?_)
    intro c hc
    show q (if key c = key a then a else c) = q c
    split
    · next hkey =>
        rw [ha, l.eq_of_key_eq hc (mem_of_get? h) (hkey.trans (key_of_get? h).symm), hold b h]
    · rfl

theorem filter_put_of_neg (l : KeyedList key) {q : α → Bool} {a : α} (ha : q a = false)
    (hold : ∀ b, l.get? (key a) = some b → q b = false) : (l.put a).filter q = l.filter q := by
  refine ext ?_
  cases h : l.get? (key a) with
  | none =>
    rw [items_filter, items_put_of_none l a h, List.filter_append,
      List.filter_cons_of_neg (by simp [ha]), List.filter_nil, List.append_nil]
    rfl
  | some b =>
    rw [items_filter, items_put_of_some l a b h, items_filter, List.filter_map]
    have hsame : l.items.filter (q ∘ fun c => if key c = key a then a else c)
        = l.items.filter q := by
      refine List.filter_congr ?_
      intro c hc
      show q (if key c = key a then a else c) = q c
      split
      · next hkey =>
          rw [ha, l.eq_of_key_eq hc (mem_of_get? h) (hkey.trans (key_of_get? h).symm), hold b h]
      · rfl
    rw [hsame]
    refine (List.map_congr_left (fun c hc => ?_)).trans (List.map_id _)
    obtain ⟨hmem, hq⟩ := List.mem_filter.1 hc
    refine if_neg (fun hkey => ?_)
    rw [l.eq_of_key_eq hmem (mem_of_get? h) (hkey.trans (key_of_get? h).symm), hold b h] at hq
    cases hq

section UpdateIf

variable (l : KeyedList key) {k : κ} {p q : α → Bool} {f : α → α}
  (hkey : ∀ a, key (f a) = key a) (hq : ∀ a, q (f a) = q a)

include hkey hq

theorem updateIf_filter (hp : ∀ a, l.get? k = some a → p a = true → q a = true) :
    (l.filter q).updateIf k p f = ((l.updateIf k p f).1.filter q, (l.updateIf k p f).2) := by
  by_cases h : ∃ a, l.get? k = some a ∧ p a = true
  · obtain ⟨a, ha, hpa⟩ := h
    have hfa : l.get? (key (f a)) = some a := by rw [hkey, key_of_get? ha, ha]
    have hqa : q (f a) = true := (hq a).trans (hp a ha hpa)
    rw [l.updateIf_of_pos f ha hpa, updateIf_of_pos _ f
      (by rw [get?_filter, ha, Option.filter_some_pos (hp a ha hpa)]) hpa,
      l.filter_put_of_pos hqa (fun b hb => by
        rw [hfa] at hb
        cases hb
        exact hp a ha hpa)]
  · have hnone : ∀ a, l.get? k = some a → p a = false := by
      intro a ha
      rw [Bool.eq_false_iff]
      exact fun hpa => h ⟨a, ha, hpa⟩
    rw [l.updateIf_of_neg f hnone, updateIf_of_neg]
    intro a ha
    rw [get?_filter, Option.filter_eq_some_iff] at ha
    exact hnone a ha.1

theorem filter_updateIf_of_neg (hp : ∀ a, l.get? k = some a → p a = true → q a = false) :
    (l.updateIf k p f).1.filter q = l.filter q := by
  by_cases h : ∃ a, l.get? k = some a ∧ p a = true
  · obtain ⟨a, ha, hpa⟩ := h
    have hfa : l.get? (key (f a)) = some a := by rw [hkey, key_of_get? ha, ha]
    rw [l.updateIf_of_pos f ha hpa]
    refine l.filter_put_of_neg ((hq a).trans (hp a ha hpa)) ?_
    intro b hb
    rw [hfa] at hb
    cases hb
    exact hp a ha hpa
  · rw [l.updateIf_of_neg f (fun a ha => by
      rw [Bool.eq_false_iff]
      exact fun hpa => h ⟨a, ha, hpa⟩)]

end UpdateIf

end Filters

/-! ## Presentations of one collection -/

section Map

variable {β : Type w} {key' : β → κ}

/-- Carry a keyed list along a function that preserves the keys of its items. -/
def map (l : KeyedList key) (g : α → β) (hg : ∀ a ∈ l.items, key' (g a) = key a) : KeyedList key' :=
  ⟨l.items.map g, by
    have hkeys : (l.items.map g).map key' = l.items.map key := by
      rw [List.map_map]
      exact List.map_congr_left hg
    rw [hkeys]; exact l.nodup_keys⟩

@[simp] theorem items_map (l : KeyedList key) (g : α → β)
    (hg : ∀ a ∈ l.items, key' (g a) = key a) : (l.map g hg).items = l.items.map g := rfl

theorem get?_map [DecidableEq κ] (l : KeyedList key) (g : α → β)
    (hg : ∀ a ∈ l.items, key' (g a) = key a) (k : κ) : (l.map g hg).get? k = (l.get? k).map g := by
  cases h : l.get? k with
  | none =>
    rw [get?_eq_none_iff] at h
    rw [Option.map_none, get?_eq_none_iff]
    intro b hb
    obtain ⟨a, ha, rfl⟩ := List.mem_map.1 hb
    rw [hg a ha]; exact h a ha
  | some a =>
    obtain ⟨ha, hk⟩ := (l.get?_eq_some_iff k a).1 h
    rw [Option.map_some, get?_eq_some_iff]
    exact ⟨List.mem_map_of_mem ha, (hg a ha).trans hk⟩

end Map

/-! ## Up to order -/

theorem nodup_items (l : KeyedList key) : l.items.Nodup := List.Nodup.of_map key l.nodup_keys

section Order

variable [DecidableEq κ]

theorem perm_of_get?_eq {l l' : KeyedList key} (h : ∀ k, l.get? k = l'.get? k) :
    l.items.Perm l'.items := by
  refine (List.perm_ext_iff_of_nodup l.nodup_items l'.nodup_items).2 (fun a => ?_)
  have hiff : ∀ l : KeyedList key, a ∈ l.items ↔ l.get? (key a) = some a := fun l =>
    ⟨l.get?_of_mem, mem_of_get?⟩
  rw [hiff l, hiff l', h]

theorem perm_cons_erase {l : KeyedList key} {k : κ} {a : α} (h : l.get? k = some a) :
    l.items.Perm (a :: (l.erase k).items) := by
  have hkey := key_of_get? h
  have hnot : a ∉ (l.erase k).items := fun hmem => ((l.mem_erase_iff k a).1 hmem).2 hkey
  refine (List.perm_ext_iff_of_nodup l.nodup_items (List.nodup_cons.2 ⟨hnot, nodup_items _⟩)).2 ?_
  intro b
  rw [List.mem_cons, mem_erase_iff]
  constructor
  · intro hb
    by_cases hbk : key b = k
    · exact Or.inl (l.eq_of_key_eq hb (mem_of_get? h) (hbk.trans hkey.symm))
    · exact Or.inr ⟨hb, hbk⟩
  · rintro (rfl | ⟨hb, -⟩)
    · exact mem_of_get? h
    · exact hb

end Order

end KeyedList
