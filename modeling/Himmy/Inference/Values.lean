import Himmy.Core.Text
import Himmy.Entities.Records
import Himmy.Library.JsonText
import Himmy.Library.Lists

/-! # The values of a request, and their JSON text

The parameters, schemas and metadata of an inference request are dictionaries of any values.
`json.dumps(value, sort_keys=True, default=str)` writes a value without the order of its
dictionaries, and an object that JSON does not know as its `str`. That text says everything else:
it is the text of one datum (`dumps_eq_iff`). -/

namespace Himmy

/-- The literal of a float: it has a point, an exponent, or is not finite. -/
structure FloatLiteral extends JsonText.Bare where
  float : letters.any (fun c => c ∈ ['.', 'e', 'N', 'I']) = true

/-- A value of a `dict[str, Any]`. -/
inductive Value where
  | null
  | bool (b : Bool)
  | int (n : Int)
  | float (literal : FloatLiteral)
  | str (s : String)
  | list (xs : List Value)
  | dict (kvs : List (String × Value))
  /-- an object that JSON does not know, by its `str` -/
  | object (text : String)

namespace Value

def ofOption : Option String → Value
  | some s => .str s
  | none => .null

def truthy : Value → Bool
  | .null => false
  | .bool b => b
  | .int n => n ≠ 0
  | .float literal => literal.letters.any (fun c => c ∈ "123456789NI".toList)
  | .str s => s ≠ ""
  | .list xs => !xs.isEmpty
  | .dict kvs => !kvs.isEmpty
  | .object _ => true

/-- `repr` of a float, which is not finite in other words than in JSON. -/
def floatRepr (literal : FloatLiteral) : String :=
  let text := String.ofList literal.letters
  if text = "NaN" then "nan" else if text = "Infinity" then "inf"
  else if text = "-Infinity" then "-inf" else text

mutual

/-- `repr(value)`, up to the choice of quotes and the escapes of a text. -/
def pyRepr : Value → String
  | .null => "None"
  | .bool b => if b then "True" else "False"
  | .int n => toString n
  | .float literal => floatRepr literal
  | .str s => "'" ++ s ++ "'"
  | .list xs => "[" ++ ", ".intercalate (pyReprElements xs) ++ "]"
  | .dict kvs => "\x7b" ++ ", ".intercalate (pyReprFields kvs) ++ "\x7d"
  | .object text => text

def pyReprElements : List Value → List String
  | [] => []
  | x :: xs => x.pyRepr :: pyReprElements xs

def pyReprFields : List (String × Value) → List String
  | [] => []
  | (k, x) :: kvs => ("'" ++ k ++ "': " ++ x.pyRepr) :: pyReprFields kvs

end

def pyStr : Value → String
  | .str s => s
  | x => x.pyRepr

/-! ## JSON data -/

def nullWord : JsonText.Bare := ⟨"null".toList, by decide, rfl⟩

def boolWord : Bool → JsonText.Bare
  | true => ⟨"true".toList, by decide, rfl⟩
  | false => ⟨"false".toList, by decide, rfl⟩

def intWord (n : Int) : JsonText.Bare where
  letters := (toString n).toList
  ne_nil h := by
    rw [toList_toString_int, List.append_eq_nil_iff] at h
    exact Nat.toDigits_ne_nil h.2
  bare := by
    refine List.all_eq_true.2 (fun c hc => ?_)
    rcases mem_toString_int hc with hdigit | rfl
    · simp [JsonText.isBare, Char.isAlphanum, hdigit]
    · decide

def sortFields (kvs : List (String × JsonText.Data)) : List (String × JsonText.Data) :=
  kvs.insertionSort (fun a b => a.1 ≤ b.1)

mutual

/-- The JSON data that `json.dumps(value, sort_keys=True, default=str)` writes. -/
def data : Value → JsonText.Data
  | .null => .bare nullWord
  | .bool b => .bare (boolWord b)
  | .int n => .bare (intWord n)
  | .float literal => .bare literal.toBare
  | .str s => .str s.toList
  | .list xs => .arr (dataElements xs)
  | .dict kvs => .obj ((sortFields (dataFields kvs)).map (fun kv => (kv.1.toList, kv.2)))
  | .object text => .str text.toList

def dataElements : List Value → List JsonText.Data
  | [] => []
  | x :: xs => x.data :: dataElements xs

def dataFields : List (String × Value) → List (String × JsonText.Data)
  | [] => []
  | (k, x) :: kvs => (k, x.data) :: dataFields kvs

end

/-- `json.dumps(value, sort_keys=True, default=str)`. -/
def dumps (value : Value) : String := String.ofList (JsonText.text Json.escape value.data)

mutual

/-- The JSON data that `json.dumps(value, default=str)` writes, with the keys in their order. -/
def plainData : Value → JsonText.Data
  | .null => .bare nullWord
  | .bool b => .bare (boolWord b)
  | .int n => .bare (intWord n)
  | .float literal => .bare literal.toBare
  | .str s => .str s.toList
  | .list xs => .arr (plainElements xs)
  | .dict kvs => .obj (plainFields kvs)
  | .object text => .str text.toList

def plainElements : List Value → List JsonText.Data
  | [] => []
  | x :: xs => x.plainData :: plainElements xs

def plainFields : List (String × Value) → List (List Char × JsonText.Data)
  | [] => []
  | (k, x) :: kvs => (k.toList, x.plainData) :: plainFields kvs

end

/-- `json.dumps(value, default=str)`. -/
def jsonDumps (value : Value) : String := String.ofList (JsonText.text Json.escape value.plainData)

end Value

/-! ## Reading a text back -/

namespace Json

def shortEscapes : List (Nat × Char) :=
  [(34, '"'), (92, '\\'), (8, 'b'), (9, 't'), (10, 'n'), (12, 'f'), (13, 'r')]

theorem escape_cases (c : Char) : (∃ l, (c.toNat, l) ∈ shortEscapes ∧ escape c = ['\\', l])
      ∨ (c ≠ '\\' ∧ c ≠ '"' ∧ escape c = [c])
      ∨ (c.toNat < 65536 ∧ escape c = '\\' :: 'u' :: hex4 c.toNat)
      ∨ (65536 ≤ c.toNat ∧ escape c = '\\' :: 'u' :: (hex4 (55296 + (c.toNat - 65536) / 1024)
          ++ '\\' :: 'u' :: hex4 (56320 + (c.toNat - 65536) % 1024))) := by
  have hne : ∀ d : Char, c.toNat ≠ d.toNat → c ≠ d := fun d h hcd => h (by rw [hcd])
  generalize he : escape c = e
  unfold escape at he
  by_cases hquote : c.toNat = 34
  · rw [if_pos hquote] at he
    exact Or.inl ⟨'"', by rw [hquote]; decide, he.symm⟩
  rw [if_neg hquote] at he
  by_cases hslash : c.toNat = 92
  · rw [if_pos hslash] at he
    exact Or.inl ⟨'\\', by rw [hslash]; decide, he.symm⟩
  rw [if_neg hslash] at he
  split at he
  · next h => exact Or.inl ⟨'b', by rw [h]; decide, he.symm⟩
  split at he
  · next h => exact Or.inl ⟨'t', by rw [h]; decide, he.symm⟩
  split at he
  · next h => exact Or.inl ⟨'n', by rw [h]; decide, he.symm⟩
  split at he
  · next h => exact Or.inl ⟨'f', by rw [h]; decide, he.symm⟩
  split at he
  · next h => exact Or.inl ⟨'r', by rw [h]; decide, he.symm⟩
  split at he
  · exact Or.inr (Or.inl ⟨hne '\\' hslash, hne '"' hquote, he.symm⟩)
  split at he
  · next h => exact Or.inr (Or.inr (Or.inl ⟨h, he.symm⟩))
  · next h => exact Or.inr (Or.inr (Or.inr ⟨Nat.le_of_not_lt h, he.symm⟩))

theorem shortEscapes_inj {m n : Nat} {l : Char} (hm : (m, l) ∈ shortEscapes)
    (hn : (n, l) ∈ shortEscapes) : m = n := by
  have hall : ∀ p ∈ shortEscapes, ∀ q ∈ shortEscapes, p.2 = q.2 → p.1 = q.1 := by decide
  exact hall _ hm _ hn rfl

theorem u_notMem_shortEscapes {n : Nat} : (n, 'u') ∉ shortEscapes := by
  have hall : ∀ p ∈ shortEscapes, p.2 ≠ 'u' := by decide
  exact fun h => hall _ h rfl

theorem toNat_valid (c : Char) : c.toNat < 55296 ∨ 57343 < c.toNat ∧ c.toNat < 1114112 := by
  have hvalid := c.valid
  unfold UInt32.isValidChar Nat.isValidChar at hvalid
  exact hvalid

theorem hex4_append_inj {m n : Nat} (hm : m < 65536) (hn : n < 65536) {x y : List Char}
    (h : hex4 m ++ x = hex4 n ++ y) : m = n ∧ x = y := by
  obtain ⟨hhex, hxy⟩ := List.append_inj h rfl
  exact ⟨hex4_inj hm hn hhex, hxy⟩

theorem separates_escape : PrefixCode.Separates escape := by
  intro a b x y h
  have ha := toNat_valid a
  have hb := toNat_valid b
  rcases escape_cases a with ⟨l, hl, ea⟩ | ⟨hslash, -, ea⟩ | ⟨hsmall, ea⟩ | ⟨hlarge, ea⟩ <;>
    rcases escape_cases b with ⟨l', hl', eb⟩ | ⟨hslash', -, eb⟩ | ⟨hsmall', eb⟩ | ⟨hlarge', eb⟩ <;>
    rw [ea, eb] at h
  · obtain ⟨rfl, hxy⟩ := List.cons.inj (List.cons.inj h).2
    exact ⟨Char.toNat_inj.1 (shortEscapes_inj hl hl'), hxy⟩
  · exact absurd (List.cons.inj h).1.symm hslash'
  · rw [(List.cons.inj (List.cons.inj h).2).1] at hl
    exact absurd hl u_notMem_shortEscapes
  · rw [(List.cons.inj (List.cons.inj h).2).1] at hl
    exact absurd hl u_notMem_shortEscapes
  · exact absurd (List.cons.inj h).1 hslash
  · obtain ⟨rfl, hxy⟩ := List.cons.inj h
    exact ⟨rfl, hxy⟩
  · exact absurd (List.cons.inj h).1 hslash
  · exact absurd (List.cons.inj h).1 hslash
  · rw [← (List.cons.inj (List.cons.inj h).2).1] at hl'
    exact absurd hl' u_notMem_shortEscapes
  · exact absurd (List.cons.inj h).1.symm hslash'
  · obtain ⟨hab, hxy⟩ := hex4_append_inj hsmall hsmall' (List.cons.inj (List.cons.inj h).2).2
    exact ⟨Char.toNat_inj.1 hab, hxy⟩
  · -- a surrogate is no code point
    rw [List.cons_append, List.cons_append, List.cons_append, List.cons_append,
      List.append_assoc] at h
    have hab := (hex4_append_inj hsmall (by omega) (List.cons.inj (List.cons.inj h).2).2).1
    omega
  · rw [← (List.cons.inj (List.cons.inj h).2).1] at hl'
    exact absurd hl' u_notMem_shortEscapes
  · exact absurd (List.cons.inj h).1.symm hslash'
  · rw [List.cons_append, List.cons_append, List.cons_append, List.cons_append,
      List.append_assoc] at h
    have hab := (hex4_append_inj (by omega) hsmall' (List.cons.inj (List.cons.inj h).2).2).1
    omega
  · rw [List.cons_append, List.cons_append, List.cons_append, List.cons_append,
      List.append_assoc, List.append_assoc] at h
    obtain ⟨hhigh, hrest⟩ := hex4_append_inj (by omega) (by omega)
      (List.cons.inj (List.cons.inj h).2).2
    obtain ⟨hlow, hxy⟩ := hex4_append_inj (by omega) (by omega)
      (List.cons.inj (List.cons.inj hrest).2).2
    exact ⟨Char.toNat_inj.1 (by omega), hxy⟩

theorem avoids_escape : PrefixCode.Avoids escape ['"'] := by
  intro a x y h
  rcases escape_cases a with ⟨l, -, ea⟩ | ⟨-, hquote, ea⟩ | ⟨-, ea⟩ | ⟨-, ea⟩ <;> rw [ea] at h
  · exact absurd (List.cons.inj h).1 (by decide)
  · exact absurd (List.cons.inj h).1 hquote
  · exact absurd (List.cons.inj h).1 (by decide)
  · exact absurd (List.cons.inj h).1 (by decide)

end Json

namespace Value

theorem dumps_eq_iff (v v' : Value) : v.dumps = v'.dumps ↔ v.data = v'.data := by
  constructor
  · intro h
    exact JsonText.text_injective Json.separates_escape Json.avoids_escape (String.ofList_injective h)
  · intro h
    rw [dumps, dumps, h]

/-! ## Data that is the same -/

theorem dataElements_eq_map (xs : List Value) : dataElements xs = xs.map data := by
  induction xs with
  | nil => rfl
  | cons x xs ih => rw [dataElements, List.map_cons, ih]

theorem dataFields_eq_map (kvs : List (String × Value)) :
    dataFields kvs = kvs.map (fun kv => (kv.1, kv.2.data)) := by
  induction kvs with
  | nil => rfl
  | cons kv kvs ih => rw [dataFields, List.map_cons, ih]

@[simp] theorem data_null : null.data = .bare nullWord := by rw [data]

@[simp] theorem data_str_inj {s t : String} : (str s).data = (str t).data ↔ s = t := by
  rw [data, data, JsonText.Data.str.injEq, String.toList_inj]

@[simp] theorem data_str_ne_null {s : String} : (str s).data ≠ null.data := by
  rw [data, data]
  exact JsonText.Data.noConfusion

@[simp] theorem data_ofOption_inj {s t : Option String} :
    (ofOption s).data = (ofOption t).data ↔ s = t := by
  cases s <;> cases t <;> simp [ofOption, data_str_ne_null.symm, -data_null]

@[simp] theorem data_int_inj {m n : Int} : (int m).data = (int n).data ↔ m = n := by
  rw [data, data]
  constructor
  · intro h
    have hletters := congrArg JsonText.Bare.letters (JsonText.Data.bare.inj h)
    exact toString_int_injective (String.toList_inj.1 hletters)
  · rintro rfl
    rfl

theorem data_list_map {α : Type} (f : α → Value) {xs ys : List α} :
    (list (xs.map f)).data = (list (ys.map f)).data
      ↔ xs.map (fun x => (f x).data) = ys.map (fun y => (f y).data) := by
  rw [data, data, JsonText.Data.arr.injEq, dataElements_eq_map, dataElements_eq_map, List.map_map,
    List.map_map]
  rfl

@[simp] theorem data_strs_inj {xs ys : List String} :
    (list (xs.map str)).data = (list (ys.map str)).data ↔ xs = ys := by
  rw [data_list_map]
  constructor
  · exact fun h => List.map_injective_iff.2 (fun _ _ hst => data_str_inj.1 hst) h
  · rintro rfl
    rfl

def dataAt (kvs : List (String × Value)) (k : String) : Option JsonText.Data :=
  (kvs.find? (fun kv => kv.1 = k)).map (fun kv => kv.2.data)

theorem data_dict_eq_iff {kvs kvs' : List (String × Value)} (hnodup : (kvs.map Prod.fst).Nodup)
    (hnodup' : (kvs'.map Prod.fst).Nodup) :
    (dict kvs).data = (dict kvs').data ↔ ∀ k, dataAt kvs k = dataAt kvs' k := by
  have hkeys : ∀ kvs : List (String × Value),
      (dataFields kvs).map Prod.fst = kvs.map Prod.fst := by
    intro kvs
    rw [dataFields_eq_map, List.map_map]
    rfl
  have hfind : ∀ (kvs : List (String × Value)) (k : String),
      (dataFields kvs).find? (fun kv => kv.1 = k)
        = (dataAt kvs k).map (fun d => (k, d)) := by
    intro kvs k
    rw [dataFields_eq_map, List.find?_map, dataAt, Option.map_map]
    cases h : kvs.find? (fun kv => kv.1 = k) with
    | none => simpa using h
    | some kv =>
      have hk := List.find?_some h
      rw [show (fun kv : String × Value => decide (kv.1 = k))
        = (fun kv => decide (kv.1 = k)) ∘ (fun kv => (kv.1, kv.2.data)) from rfl] at h
      rw [h, Option.map_some, Option.map_some, of_decide_eq_true hk]
      rfl
  have hpairs : Function.Injective (fun kv : String × JsonText.Data => (kv.1.toList, kv.2)) := by
    rintro ⟨k, d⟩ ⟨k', d'⟩ h
    obtain ⟨hk, hd⟩ := Prod.mk.inj h
    exact Prod.ext (String.toList_inj.1 hk) hd
  rw [data, data, JsonText.Data.obj.injEq, (List.map_injective_iff.2 hpairs).eq_iff, sortFields,
    sortFields, Lists.insertionSort_eq_iff_find? (r := (· ≤ ·)) String.le_trans String.le_total
      String.le_antisymm (by rw [hkeys]; exact hnodup) (by rw [hkeys]; exact hnodup')]
  constructor
  · intro h k
    have hk := h k
    rw [hfind, hfind] at hk
    exact Option.map_injective (fun d d' hd => (Prod.mk.inj hd).2) hk
  · intro h k
    rw [hfind, hfind, h k]

end Value

end Himmy
