import Mathlib.Data.List.TakeWhile
import Himmy.Inference.Values
import Himmy.Entities.SqliteRegistry

/-! # Metadata filters

How the registries select records by their metadata. `query` tests containment in Python on both.
`list_recent_by_kind` compares the values of top-level keys: the in-memory registry looks them up in
the dictionary, the SQLite registry puts each key into a JSON path and compares what `json_extract`
finds with a bound parameter. The two agree where the key is a plain label of the path language, the
value is one that SQLite can compare, and so is what the records have under the key
(`clausesHold_of_plain`). -/

namespace Himmy

/-! ## Containment -/

namespace Json

mutual

def metadataContains (haystack : Json) : Json → Bool
  | .obj needle =>
    match haystack with
    | .obj kvs => fieldsContained kvs needle
    | _ => false
  | .arr needle =>
    match haystack with
    | .arr xs => elementsContained xs needle
    | _ => false
  | needle => haystack.pyEq needle

def fieldsContained (kvs : List (String × Json)) : List (String × Json) → Bool
  | [] => true
  | (k, v) :: needle =>
    (match kvs.find? (fun kv => kv.1 = k) with
      | some kv => metadataContains kv.2 v
      | none => false) && fieldsContained kvs needle

def elementsContained (xs : List Json) : List Json → Bool
  | [] => true
  | v :: needle => xs.any (fun x => metadataContains x v) && elementsContained xs needle

end

end Json

structure EntityQuery where
  kind : Option String := none
  metadataFilters : Dict Json := KeyedList.empty
  stableId : Option String := none

/-- The tests of `query` on the columns of a record. -/
def EntityQuery.selectsColumns (q : EntityQuery) (record : EntityRecord) : Bool :=
  q.kind.all (fun kind => record.kind = kind)
    && q.stableId.all (fun stableId => record.stableId = stableId)

/-- The test of `query` on the metadata of a record. -/
def EntityQuery.selectsMetadata (q : EntityQuery) (record : EntityRecord) : Bool :=
  q.metadataFilters.items.isEmpty
    || Json.metadataContains (.obj record.metadata.items) (.obj q.metadataFilters.items)

/-! ## Values of a key in Python -/

def metadataEquals (metadata : Dict Json) (kv : String × Json) : Bool :=
  ((metadata.find? kv.1).getD .null).pyEq kv.2

/-! ## Values of a key in SQL -/

/-- A value of a statement; an integer that does not fit in 64 bits is read as a `REAL`. -/
inductive SqlValue where
  | null
  | integer (n : Int)
  | real (n : Int)
  | text (s : String)
  deriving DecidableEq

/-- The value bound for a parameter. A list and a dictionary are not supported, and a larger integer
    overflows. -/
def SqlValue.ofParameter : Json → Option SqlValue
  | .null => some .null
  | .bool b => some (.integer (if b then 1 else 0))
  | .num n => if fitsInteger n then some (.integer n) else none
  | .str s => some (.text s)
  | .arr _ | .obj _ => none

/-- A label that the path language and the JSON text both write as it is. -/
def plainKey (key : String) : Bool :=
  key.toList ≠ [] && key.toList.all
    (fun c => 32 ≤ c.toNat && c.toNat < 127 && c ∉ ['"', '\\', '.', '['])

/-- The JSON functions of SQLite, in what depends on its version or is not read here: how a label is
    compared with a key of the stored text, a path from a `[` on, the text of a string with a NUL
    character or of a container, and the comparison of a `REAL` with an integer. -/
structure JsonFunctions where
  labelMatches : String → String → Bool
  labelMatches_plain : ∀ label key, plainKey label = true →
    (labelMatches label key = true ↔ label = key)
  subscript : List Char → Json → Option (Option Json)
  text : String → String
  text_eq : ∀ s, s.toList.all (fun c => c.toNat ≠ 0) = true → text s = s
  render : Json → String
  realEq : Int → Int → Bool

def splitLabel : List Char → Option (String × List Char)
  | '"' :: path =>
    let label := path.takeWhile (· ≠ '"')
    if label.length < path.length then
      some (String.ofList label, path.drop (label.length + 1))
    else none
  | path =>
    let label := path.takeWhile (fun c => c ≠ '.' && c ≠ '[')
    if label = [] then none else some (String.ofList label, path.drop label.length)

/-- The path `$.key` after its `$`; it ends at a NUL character. -/
def metadataPath (key : String) : List Char :=
  '.' :: key.toList.takeWhile (fun c => c.toNat ≠ 0)

namespace JsonFunctions

variable (J : JsonFunctions)

/-- What a path leads to, within `n` steps: an error, nothing, or a value. -/
def lookup : Nat → List Char → Json → Option (Option Json)
  | _, [], x => some (some x)
  | 0, _ :: _, _ => none
  | n + 1, c :: path, x =>
    if c = '.' then
      match x with
      | .obj kvs =>
        match splitLabel path with
        | none => none
        | some (label, rest) =>
          match kvs.find? (fun kv => J.labelMatches label kv.1) with
          | some kv => lookup n rest kv.2
          | none => some none
      | _ => some none
    else if c = '[' then J.subscript (c :: path) x
    else none

theorem lookup_nil (n : Nat) (x : Json) : J.lookup n [] x = some (some x) := by
  cases n <;> rfl

def ofJson : Json → SqlValue
  | .null => .null
  | .bool b => .integer (if b then 1 else 0)
  | .num n => if fitsInteger n then .integer n else .real n
  | .str s => .text (J.text s)
  | x => .text (J.render x)

def jsonExtract (metadata : Dict Json) (key : String) : Option SqlValue :=
  let path := metadataPath key
  (J.lookup path.length path (.obj metadata.items)).map (fun x => (x.map J.ofJson).getD .null)

/-- `a = b` is true; a comparison with `NULL` is not. -/
def sqlEq : SqlValue → SqlValue → Bool
  | .integer m, .integer n => m = n
  | .text s, .text t => s = t
  | .real m, .integer n => J.realEq m n
  | _, _ => false

/-- The clauses of `list_recent_by_kind` on the metadata of a row, one after another. -/
def clausesHold (metadata : Dict Json) : List (String × SqlValue) → Option Bool
  | [] => some true
  | (key, value) :: clauses =>
    match J.jsonExtract metadata key with
    | none => none
    | some found => if J.sqlEq found value then clausesHold metadata clauses else some false

end JsonFunctions

/-! ## Where they agree -/

namespace Json

theorem mem_quote (s : String) : '"' ∈ (quote s).toList := by
  rw [quote, String.toList_append, String.toList_append]
  exact List.mem_append_left _ (List.mem_append_left _ (List.mem_singleton_self _))

variable {x : Json}

theorem eq_num_of_canonical {n : Int} (h : x.canonical = toString n) : x = .num n := by
  have hchars : ∀ c ∈ x.canonical.toList, c.isDigit = true ∨ c = '-' := by
    rw [h]
    exact fun c hc => mem_toString_int hc
  cases x with
  | null => exact absurd (hchars 'n' (by decide)) (by decide)
  | bool b =>
    cases b with
    | false => exact absurd (hchars 'f' (by decide)) (by decide)
    | true => exact absurd (hchars 't' (by decide)) (by decide)
  | num m => rw [toString_int_injective h]
  | str s => exact absurd (hchars '"' (mem_quote s)) (by decide)
  | arr xs =>
    refine absurd (hchars '[' ?_) (by decide)
    rw [canonical, String.toList_append, String.toList_append]
    exact List.mem_append_left _ (List.mem_append_left _ (List.mem_singleton_self _))
  | obj kvs =>
    refine absurd (hchars '{' ?_) (by decide)
    rw [canonical, String.toList_append, String.toList_append]
    exact List.mem_append_left _ (List.mem_append_left _ (List.mem_singleton_self _))

theorem eq_str_of_canonical {s : String} (h : x.canonical = quote s) : x = .str s := by
  have hhead : ∀ t : String, (quote t).toList.head? = some '"' := by
    intro t
    rw [quote, String.toList_append, String.toList_append]
    rfl
  have hx : x.canonical.toList.head? = some '"' := by rw [h, hhead]
  cases x with
  | null => exact absurd hx (by decide)
  | bool b => cases b <;> exact absurd hx (by decide)
  | num n =>
    have hmem : '"' ∈ (toString n).toList := List.mem_of_mem_head? hx
    exact absurd (mem_toString_int hmem) (by decide)
  | str t =>
    have hlist : '"' :: (t.toList.flatMap escape ++ ['"'])
        = '"' :: (s.toList.flatMap escape ++ ['"']) := by
      have hquote := congrArg String.toList (show quote t = quote s from h)
      simp only [quote, String.toList_append, String.toList_ofList] at hquote
      exact hquote
    have hchars : t.toList.flatMap escape ++ (['"'] ++ [])
        = s.toList.flatMap escape ++ (['"'] ++ []) := (List.cons.inj hlist).2
    have heq := (PrefixCode.flatMap_marked separates_escape avoids_escape hchars).1
    rw [String.toList_inj.1 heq]
  | arr xs =>
    rw [canonical, String.toList_append, String.toList_append] at hx
    exact absurd (show some '[' = some '"' from hx) (by decide)
  | obj kvs =>
    rw [canonical, String.toList_append, String.toList_append] at hx
    exact absurd (show some '{' = some '"' from hx) (by decide)

theorem pyEq_num {n : Int} :
    x.pyEq (.num n) = true ↔ x = .num n ∨ ∃ b, x = .bool b ∧ (if b then 1 else 0) = n := by
  unfold pyEq
  rw [decide_eq_true_iff]
  constructor
  · intro h
    have hnum := eq_num_of_canonical h
    cases x with
    | num m => exact Or.inl hnum
    | bool b => exact Or.inr ⟨b, rfl, Json.num.inj hnum⟩
    | _ => cases hnum
  · rintro (rfl | ⟨b, rfl, rfl⟩) <;> rfl

theorem pyEq_bool {b : Bool} :
    x.pyEq (.bool b) = x.pyEq (.num (if b then 1 else 0)) := rfl

theorem pyEq_str {s : String} : x.pyEq (.str s) = true ↔ x = .str s := by
  unfold pyEq
  rw [decide_eq_true_iff]
  constructor
  · intro h
    have hstr := eq_str_of_canonical h
    cases x with
    | str t => exact hstr
    | _ => cases hstr
  · rintro rfl
    rfl

end Json

def bindable : Json → Bool
  | .bool _ | .str _ => true
  | .num n => fitsInteger n
  | _ => false

/-- What a record has under a key compares as in Python: an integer of 64 bits, a string without a
    NUL character, a container whose text is not the value. -/
def comparable (J : JsonFunctions) (value : Json) : Json → Prop
  | .num n => fitsInteger n = true
  | .str s => s.toList.all (fun c => c.toNat ≠ 0) = true
  | .null | .bool _ => True
  | x => value ≠ .str (J.render x)

/-- A clause that the two registries test alike on the metadata. -/
structure ClausePlain (J : JsonFunctions) (metadata : Dict Json) (kv : String × Json) : Prop where
  key : plainKey kv.1 = true
  value : bindable kv.2 = true
  stored : ∀ x ∈ metadata.find? kv.1, comparable J kv.2 x

namespace JsonFunctions

variable (J : JsonFunctions)

theorem sqlEq_integer {x : Json} {n : Int} (hx : ∀ m, x = .num m → fitsInteger m = true) :
    J.sqlEq (J.ofJson x) (.integer n) = x.pyEq (.num n) := by
  rw [Bool.eq_iff_iff, Json.pyEq_num]
  cases x with
  | num m => simp [ofJson, hx m rfl, sqlEq]
  | bool b => simp [ofJson, sqlEq]
  | null => simp [ofJson, sqlEq]
  | str s => simp [ofJson, sqlEq]
  | arr xs => simp [ofJson, sqlEq]
  | obj kvs => simp [ofJson, sqlEq]

theorem sqlEq_text {x : Json} {s : String} (hx : comparable J (.str s) x) :
    J.sqlEq (J.ofJson x) (.text s) = x.pyEq (.str s) := by
  rw [Bool.eq_iff_iff, Json.pyEq_str]
  cases x with
  | num m =>
    have hfits : fitsInteger m = true := hx
    simp [ofJson, hfits, sqlEq]
  | bool b => simp [ofJson, sqlEq]
  | null => simp [ofJson, sqlEq]
  | str t =>
    have htext := J.text_eq t hx
    simp [ofJson, sqlEq, htext]
  | arr xs =>
    have hne : Json.str s ≠ .str (J.render (.arr xs)) := hx
    simpa [ofJson, sqlEq, eq_comm] using hne
  | obj kvs =>
    have hne : Json.str s ≠ .str (J.render (.obj kvs)) := hx
    simpa [ofJson, sqlEq, eq_comm] using hne

theorem sqlEq_ofJson {x v : Json} (hv : bindable v = true) (hx : comparable J v x) :
    ∃ p, SqlValue.ofParameter v = some p ∧ J.sqlEq (J.ofJson x) p = x.pyEq v := by
  have hnum : ∀ m, x = .num m → fitsInteger m = true := by
    rintro m rfl
    exact hx
  cases v with
  | bool b => exact ⟨_, rfl, (J.sqlEq_integer hnum).trans Json.pyEq_bool.symm⟩
  | num n => exact ⟨_, if_pos hv, J.sqlEq_integer hnum⟩
  | str s => exact ⟨_, rfl, J.sqlEq_text hx⟩
  | null => cases hv
  | arr xs => cases hv
  | obj kvs => cases hv

variable {key : String}

theorem plainKey_iff : plainKey key = true ↔ key.toList ≠ [] ∧ ∀ c ∈ key.toList,
    32 ≤ c.toNat ∧ c.toNat < 127 ∧ c ∉ ['"', '\\', '.', '['] := by
  simp [plainKey, and_assoc]

theorem jsonExtract_plain (metadata : Dict Json) (hkey : plainKey key = true) :
    J.jsonExtract metadata key = some (((metadata.find? key).map J.ofJson).getD .null) := by
  obtain ⟨hne, hchars⟩ := plainKey_iff.1 hkey
  have hpath : metadataPath key = '.' :: key.toList := by
    rw [metadataPath, List.takeWhile_eq_self_iff.2]
    intro c hc
    have hprintable := (hchars c hc).1
    exact decide_eq_true (by omega)
  have hlabel : splitLabel key.toList = some (key, []) := by
    have hwhole : key.toList.takeWhile (fun c => c ≠ '.' && c ≠ '[') = key.toList := by
      rw [List.takeWhile_eq_self_iff]
      intro c hc
      have hplain := (hchars c hc).2.2
      simp only [List.mem_cons, not_or] at hplain
      simp [hplain.2.2.1, hplain.2.2.2.1]
    unfold splitLabel
    split
    · next path hquote =>
        have hplain := (hchars '"' (by rw [hquote]; exact List.mem_cons_self)).2.2
        exact absurd (List.mem_cons_self) hplain
    · dsimp only
      rw [hwhole, if_neg hne, String.ofList_toList, List.drop_length]
  have hfind : metadata.items.find? (fun kv => J.labelMatches key kv.1)
      = metadata.items.find? (fun kv => kv.1 = key) := by
    refine congrArg (fun p => metadata.items.find? p) (funext (fun kv => ?_))
    rw [Bool.eq_iff_iff, J.labelMatches_plain key kv.1 hkey, decide_eq_true_iff, eq_comm]
  have hlookup : J.lookup ('.' :: key.toList).length ('.' :: key.toList) (.obj metadata.items)
      = some (metadata.find? key) := by
    rw [List.length_cons, lookup, if_pos rfl]
    simp only [hlabel, hfind]
    unfold Dict.find? KeyedList.get?
    cases metadata.items.find? (fun kv => kv.1 = key) with
    | none => rfl
    | some kv => exact J.lookup_nil _ kv.2
  unfold jsonExtract
  simp only [hpath, hlookup, Option.map_some]

theorem jsonExtract_eq (metadata : Dict Json) (hkey : plainKey key = true) :
    J.jsonExtract metadata key = some (J.ofJson ((metadata.find? key).getD .null)) := by
  rw [J.jsonExtract_plain metadata hkey]
  cases metadata.find? key <;> rfl

end JsonFunctions

def bindClauses (filters : List (String × Json)) : Option (List (String × SqlValue)) :=
  filters.mapM (fun kv => (SqlValue.ofParameter kv.2).map (fun v => (kv.1, v)))

theorem clausesHold_of_plain (J : JsonFunctions) {filters : List (String × Json)}
    (hvalues : ∀ kv ∈ filters, bindable kv.2 = true) : ∃ clauses, bindClauses filters = some clauses
      ∧ ∀ metadata : Dict Json, (∀ kv ∈ filters, ClausePlain J metadata kv) →
        J.clausesHold metadata clauses = some (filters.all (metadataEquals metadata)) := by
  unfold bindClauses
  induction filters with
  | nil => exact ⟨[], rfl, fun _ _ => rfl⟩
  | cons kv filters ih =>
    obtain ⟨clauses, hbind, hhold⟩ := ih (fun kv' hkv' => hvalues kv' (List.mem_cons_of_mem _ hkv'))
    obtain ⟨v, hv, -⟩ := J.sqlEq_ofJson (x := .null) (hvalues kv List.mem_cons_self) trivial
    refine ⟨(kv.1, v) :: clauses, ?_, ?_⟩
    · rw [List.mapM_cons, hv, hbind]
      rfl
    · intro metadata hplain
      have hkv := hplain kv List.mem_cons_self
      have hstored : comparable J kv.2 ((metadata.find? kv.1).getD .null) := by
        cases hfind : metadata.find? kv.1 with
        | none => trivial
        | some x => exact hkv.stored x hfind
      obtain ⟨v', hv', heq⟩ := J.sqlEq_ofJson hkv.value hstored
      rw [hv] at hv'
      cases hv'
      have hrest := hhold metadata (fun kv' hkv' => hplain kv' (List.mem_cons_of_mem _ hkv'))
      unfold JsonFunctions.clausesHold
      rw [J.jsonExtract_eq metadata hkv.key]
      simp only [heq, hrest, List.all_cons, metadataEquals]
      cases ((metadata.find? kv.1).getD .null).pyEq kv.2 <;> rfl

end Himmy
