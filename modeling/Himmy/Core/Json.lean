import Himmy.Library.KeyedList

/-! # JSON values and string-keyed dictionaries

The records of the storage kernel carry free-form `dict[str, Any]` fields that are serialized with
`json.dumps`; `Json` is what such a field can hold. A Python dictionary keeps its insertion order,
which is what `KeyedList` models. -/

namespace Himmy

/-- A JSON value; numbers are the integers the modelled records hold. -/
inductive Json where
  | null
  | bool (b : Bool)
  | num (n : Int)
  | str (s : String)
  | arr (xs : List Json)
  | obj (kvs : List (String × Json))

namespace Json

/-- `value` or `None`. -/
def ofOption : Option String → Json
  | some s => .str s
  | none => .null

mutual

/-- `repr(value)`, up to the choice of quotes and the escapes of a text. -/
def pyRepr : Json → String
  | .null => "None"
  | .bool b => if b then "True" else "False"
  | .num n => toString n
  | .str s => "'" ++ s ++ "'"
  | .arr xs => "[" ++ ", ".intercalate (pyReprElements xs) ++ "]"
  | .obj kvs => "\x7b" ++ ", ".intercalate (pyReprFields kvs) ++ "\x7d"

def pyReprElements : List Json → List String
  | [] => []
  | x :: xs => x.pyRepr :: pyReprElements xs

def pyReprFields : List (String × Json) → List String
  | [] => []
  | (k, x) :: kvs => ("'" ++ k ++ "': " ++ x.pyRepr) :: pyReprFields kvs

end

/-- `str(value)`. -/
def pyStr : Json → String
  | .str s => s
  | x => x.pyRepr

/-- `bool(value)`. -/
def truthy : Json → Bool
  | .null => false
  | .bool b => b
  | .num n => n ≠ 0
  | .str s => s ≠ ""
  | .arr xs => !xs.isEmpty
  | .obj kvs => !kvs.isEmpty

end Json

abbrev Dict (ν : Type) := KeyedList (Prod.fst : String × ν → String)

namespace Dict

variable {ν : Type} (d : Dict ν) (k : String)

def find? : Option ν := (KeyedList.get? d k).map Prod.snd

def set (v : ν) : Dict ν := KeyedList.put d (k, v)

theorem find?_set (k k' : String) (v : ν) :
    (d.set k v).find? k' = if k' = k then some v else d.find? k' := by
  simp only [find?, set, KeyedList.get?_put]
  split <;> rfl

@[simp] theorem find?_set_self (v : ν) : (d.set k v).find? k = some v := by
  rw [find?_set, if_pos rfl]

theorem find?_set_of_ne {k k' : String} (v : ν) (h : k' ≠ k) :
    (d.set k v).find? k' = d.find? k' := by
  rw [find?_set, if_neg h]

theorem find?_eq_some_iff {d : Dict ν} {k : String} {v : ν} :
    d.find? k = some v ↔ (k, v) ∈ d.items := by
  unfold find?
  constructor
  · intro h
    obtain ⟨kv, hget, rfl⟩ := Option.map_eq_some_iff.1 h
    rw [← KeyedList.key_of_get? hget]
    exact KeyedList.mem_of_get? hget
  · intro h
    exact Option.map_eq_some_iff.2 ⟨(k, v), KeyedList.get?_of_mem d h, rfl⟩

section SetAll

variable {α : Type} (key : α → String) (val : α → ν) (l : List α) (d : Dict ν) {k : String}

theorem find?_foldl_set_of_ne (h : ∀ a ∈ l, key a ≠ k) :
    (l.foldl (fun d a => d.set (key a) (val a)) d).find? k = d.find? k := by
  induction l generalizing d with
  | nil => rfl
  | cons a l ih =>
    rw [List.foldl_cons, ih _ (fun b hb => h b (List.mem_cons_of_mem _ hb)),
      find?_set_of_ne d _ (h a List.mem_cons_self).symm]

theorem find?_foldl_set_of_mem {l : List α} (hnodup : (l.map key).Nodup) (d : Dict ν) {a : α}
    (ha : a ∈ l) : (l.foldl (fun d a => d.set (key a) (val a)) d).find? (key a) = some (val a) := by
  induction l generalizing d with
  | nil => cases ha
  | cons b l ih =>
    rw [List.map_cons, List.nodup_cons] at hnodup
    rw [List.foldl_cons]
    rcases List.mem_cons.1 ha with rfl | ha
    · rw [find?_foldl_set_of_ne key val l _ (fun c hc hk =>
        hnodup.1 (List.mem_map.2 ⟨c, hc, hk⟩)), find?_set_self]
    · exact ih hnodup.2 _ ha

theorem find?_foldl_set_cases {v : ν}
    (h : (l.foldl (fun d a => d.set (key a) (val a)) d).find? k = some v) :
    (∃ a ∈ l, key a = k ∧ val a = v) ∨ d.find? k = some v := by
  induction l generalizing d with
  | nil => exact Or.inr h
  | cons a l ih =>
    rw [List.foldl_cons] at h
    rcases ih _ h with ⟨b, hb, hk, hv⟩ | hd
    · exact Or.inl ⟨b, List.mem_cons_of_mem _ hb, hk, hv⟩
    · rw [find?_set] at hd
      split at hd
      · next hk =>
          exact Or.inl ⟨a, List.mem_cons_self, hk.symm, Option.some.inj hd⟩
      · exact Or.inr hd

theorem isSome_find?_foldl_set
    (h : (∃ a ∈ l, key a = k) ∨ (d.find? k).isSome) :
    ((l.foldl (fun d a => d.set (key a) (val a)) d).find? k).isSome := by
  induction l generalizing d with
  | nil => simpa using h
  | cons b l ih =>
    rw [List.foldl_cons]
    refine ih _ ?_
    rcases h with ⟨a, ha, hk⟩ | hd
    · rcases List.mem_cons.1 ha with rfl | ha
      · exact .inr (by rw [find?_set, if_pos hk.symm]; rfl)
      · exact .inl ⟨a, ha, hk⟩
    · right
      rw [find?_set]
      split
      · rfl
      · exact hd

end SetAll

/-- The dictionary display `{k: v, …}`. -/
def ofList (kvs : List (String × ν)) : Dict ν :=
  kvs.foldl (fun d kv => d.set kv.1 kv.2) KeyedList.empty

theorem find?_ofList_of_mem {kvs : List (String × ν)} (hnodup : (kvs.map Prod.fst).Nodup)
    {kv : String × ν} (h : kv ∈ kvs) : (ofList kvs).find? kv.1 = some kv.2 :=
  find?_foldl_set_of_mem Prod.fst Prod.snd hnodup KeyedList.empty h

theorem find?_ofList_nil (k : String) : (ofList ([] : List (String × ν))).find? k = none := rfl

theorem find?_ofList_cons (kv : String × ν) (kvs : List (String × ν)) (k : String) :
    (ofList (kv :: kvs)).find? k
      = ((ofList kvs).find? k).or (if k = kv.1 then some kv.2 else none) := by
  have hfold : ∀ (kvs : List (String × ν)) (d : Dict ν),
      (kvs.foldl (fun d kv => d.set kv.1 kv.2) d).find? k
        = ((ofList kvs).find? k).or (d.find? k) := by
    intro kvs
    induction kvs with
    | nil => intro d; rfl
    | cons kv kvs ih =>
      intro d
      rw [ofList, List.foldl_cons, List.foldl_cons, ih, ih (set KeyedList.empty kv.1 kv.2),
        Option.or_assoc, find?_set, find?_set]
      split <;> rfl
  rw [ofList, List.foldl_cons, hfold, find?_set]
  rfl

theorem find?_ofList_append (kvs more : List (String × ν)) (k : String) :
    (ofList (kvs ++ more)).find? k = ((ofList more).find? k).or ((ofList kvs).find? k) := by
  induction kvs with
  | nil => rw [List.nil_append, find?_ofList_nil, Option.or_none]
  | cons kv kvs ih => rw [List.cons_append, find?_ofList_cons, ih, find?_ofList_cons, Option.or_assoc]

theorem find?_ofList_ite (c : Prop) [Decidable c] (kvs kvs' : List (String × ν)) (k : String) :
    (ofList (if c then kvs else kvs')).find? k
      = if c then (ofList kvs).find? k else (ofList kvs').find? k := by
  split <;> rfl

/-- `d.setdefault(k, v)`. -/
def setDefault (d : Dict ν) (k : String) (v : ν) : Dict ν :=
  if (d.find? k).isSome then d else d.set k v

/-- `for k, v in e.items(): d.setdefault(k, v)`. -/
def setDefaults (d e : Dict ν) : Dict ν := e.items.foldl (fun d kv => d.setDefault kv.1 kv.2) d

theorem find?_setDefault (d : Dict ν) (k k' : String) (v : ν) :
    (d.setDefault k v).find? k' = if k' = k then some ((d.find? k).getD v) else d.find? k' := by
  unfold setDefault
  cases hget : d.find? k with
  | some w =>
    simp only [Option.isSome_some, if_true, Option.getD_some]
    split
    · next h => rw [h, hget]
    · rfl
  | none => simp only [Option.isSome_none, Bool.false_eq_true, if_false, find?_set, Option.getD_none]

theorem isSome_find?_setDefaults (d e : Dict ν) (k : String) :
    ((d.setDefaults e).find? k).isSome = ((d.find? k).isSome || (e.find? k).isSome) := by
  have hkeys : ∀ (items : List (String × ν)) (d : Dict ν),
      ((items.foldl (fun d kv => d.setDefault kv.1 kv.2) d).find? k).isSome
        = ((d.find? k).isSome || items.any (fun kv => kv.1 = k)) := by
    intro items
    induction items with
    | nil => intro d; simp
    | cons kv items ih =>
      intro d
      rw [List.foldl_cons, ih, find?_setDefault, List.any_cons]
      by_cases h : k = kv.1
      · simp [h]
      · simp [h, Ne.symm h]
  have he : (e.find? k).isSome = e.items.any (fun kv => kv.1 = k) := by
    unfold find?
    cases hget : KeyedList.get? e k with
    | none =>
      have hne := (e.get?_eq_none_iff k).1 hget
      symm
      simpa using fun a b hab => hne (a, b) hab
    | some kv =>
      obtain ⟨hmem, hk⟩ := (e.get?_eq_some_iff k kv).1 hget
      symm
      simp only [Option.map_some, Option.isSome_some, List.any_eq_true]
      exact ⟨kv, hmem, by simpa using hk⟩
  rw [setDefaults, hkeys, he]

variable (d : Dict Json)

/-- The value under `k` when it is a string. -/
def str? (k : String) : Option String :=
  match d.find? k with
  | some (.str s) => some s
  | _ => none

@[simp] theorem str?_set_self (k s : String) :
    str? (d.set k (.str s)) k = some s := by
  simp [str?]

theorem str?_set_of_ne {k k' : String} (v : Json) (h : k' ≠ k) :
    str? (d.set k v) k' = str? d k' := by
  simp only [str?, find?_set_of_ne d v h]

end Dict

end Himmy
