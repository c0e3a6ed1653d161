import Himmy.Inference.Values

/-! # Python's equality of JSON data, from its text

`Json.pyEq` compares canonical texts. A canonical text is the text of JSON data without gaps, so that
equal values hold the same data: the same strings, and the same data in every place (`pyEq_iff`). -/

namespace Himmy

open JsonText (written writtenElements writtenFields quoted)
open Value (data dataElements dataFields)

namespace Json

mutual

def toValue : Json → Value
  | .null => .null
  | .bool b => .bool b
  | .num n => .int n
  | .str s => .str s
  | .arr xs => .list (toValues xs)
  | .obj kvs => .dict (toValueFields kvs)

def toValues : List Json → List Value
  | [] => []
  | x :: xs => x.toValue :: toValues xs

def toValueFields : List (String × Json) → List (String × Value)
  | [] => []
  | (k, x) :: kvs => (k, x.toValue) :: toValueFields kvs

end

variable (d : JsonText.Data)

def compact : String := String.ofList (written escape [] d)

theorem toList_compact : (compact d).toList = written escape [] d :=
  String.toList_ofList

theorem compact_injective : Function.Injective compact := fun _ _ h =>
  JsonText.written_injective separates_escape avoids_escape (String.ofList_injective h)

/-! ## The canonical text -/

theorem toList_intercalate_compact (ds : List JsonText.Data) :
    (",".intercalate ((d :: ds).map compact)).toList ++ [']']
      = writtenElements escape [] [] (d :: ds) := by
  induction ds generalizing d with
  | nil => simp [writtenElements, compact]
  | cons e ds ih =>
    rw [List.map_cons, List.map_cons, String.intercalate_cons_cons, String.toList_append,
      String.toList_append, List.append_assoc, List.append_assoc, ← List.map_cons, ih e]
    simp [writtenElements, compact]

def compactField (kv : String × JsonText.Data) : String := quote kv.1 ++ ":" ++ compact kv.2

theorem toList_intercalate_fields (kv : String × JsonText.Data)
    (kvs : List (String × JsonText.Data)) :
    (",".intercalate ((kv :: kvs).map compactField)).toList ++ ['}']
      = writtenFields escape [] [] ((kv :: kvs).map (fun kv => (kv.1.toList, kv.2))) := by
  induction kvs generalizing kv with
  | nil => simp [writtenFields, compactField, compact, quote, quoted]
  | cons kv' kvs ih =>
    rw [List.map_cons, List.map_cons, String.intercalate_cons_cons, String.toList_append,
      String.toList_append, List.append_assoc, List.append_assoc, ← List.map_cons, ih kv']
    simp [writtenFields, compactField, compact, quote, quoted]

theorem compact_arr (ds : List JsonText.Data) :
    "[" ++ ",".intercalate (ds.map compact) ++ "]" = compact (.arr ds) := by
  rw [← String.toList_inj, String.toList_append, String.toList_append, List.append_assoc,
    toList_compact, written]
  cases ds with
  | nil => simp [writtenElements]
  | cons d ds => exact congrArg (List.cons '[') (toList_intercalate_compact d ds)

theorem compact_obj (kvs : List (String × JsonText.Data)) :
    "\x7b" ++ ",".intercalate (kvs.map compactField) ++ "\x7d"
      = compact (.obj (kvs.map (fun kv => (kv.1.toList, kv.2)))) := by
  rw [← String.toList_inj, String.toList_append, String.toList_append, List.append_assoc,
    toList_compact, written]
  cases kvs with
  | nil => simp [writtenFields]
  | cons kv kvs => exact congrArg (List.cons '{') (toList_intercalate_fields kv kvs)

mutual

theorem canonical_eq : ∀ x : Json, x.canonical = compact x.toValue.data
  | .null => rfl
  | .bool true => rfl
  | .bool false => rfl
  | .num n => by
    rw [canonical, toValue, data, compact, written]
    exact String.ofList_toList.symm
  | .str s => by
    rw [canonical, toValue, data, compact, written, quote, quoted,
      ← String.toList_inj]
    simp
  | .arr xs => by
    rw [canonical, toValue, data, canonicalElements_eq xs, compact_arr]
  | .obj kvs => by
    rw [canonical, toValue, data, canonicalFields_eq kvs, Value.sortFields, ← compact_obj,
      ← List.map_insertionSort (fun a b : String × JsonText.Data => a.1 ≤ b.1)
        (fun a b : String × String => a.1 ≤ b.1) _ _ (fun _ _ _ _ => Iff.rfl), List.map_map]
    rfl

theorem canonicalElements_eq :
    ∀ xs : List Json, canonicalElements xs = (dataElements (toValues xs)).map compact
  | [] => rfl
  | x :: xs => by
    rw [canonicalElements, toValues, dataElements, List.map_cons, canonical_eq x,
      canonicalElements_eq xs]

theorem canonicalFields_eq : ∀ kvs : List (String × Json), canonicalFields kvs
      = (dataFields (toValueFields kvs)).map (fun kv => (kv.1, compact kv.2))
  | [] => rfl
  | (k, x) :: kvs => by
    rw [canonicalFields, toValueFields, dataFields, List.map_cons, canonical_eq x,
      canonicalFields_eq kvs]

end

/-! ## Equal values -/

def pyData (x : Json) : JsonText.Data := x.numbered.toValue.data

theorem pyEq_iff {x y : Json} : x.pyEq y = true ↔ x.pyData = y.pyData := by
  rw [pyEq, decide_eq_true_eq, canonical_eq, canonical_eq, compact_injective.eq_iff]
  rfl

theorem pyEq_refl (x : Json) : x.pyEq x = true := pyEq_iff.2 rfl

theorem pyEq_of_pyEq {x y z : Json} (hy : x.pyEq y = true) (hz : x.pyEq z = true) :
    y.pyData = z.pyData := (pyEq_iff.1 hy).symm.trans (pyEq_iff.1 hz)

theorem pyData_str_inj {s t : String} (h : (str s).pyData = (str t).pyData) : s = t :=
  Value.data_str_inj.1 h

theorem dataFields_numbered (kvs : List (String × Json)) :
    dataFields (toValueFields (numberedFields kvs)) = kvs.map (fun kv => (kv.1, kv.2.pyData)) := by
  induction kvs with
  | nil => rfl
  | cons kv kvs ih =>
    rw [numberedFields, toValueFields, dataFields, ih, List.map_cons]
    rfl

theorem dataElements_numbered (xs : List Json) :
    dataElements (toValues (numberedElements xs)) = xs.map pyData := by
  induction xs with
  | nil => rfl
  | cons x xs ih =>
    rw [numberedElements, toValues, dataElements, ih, List.map_cons]
    rfl

theorem pyData_arr_inj {xs ys : List Json} (h : (arr xs).pyData = (arr ys).pyData) :
    xs.map pyData = ys.map pyData := by
  rw [pyData, pyData, numbered, numbered, toValue, toValue, data, data,
    JsonText.Data.arr.injEq, dataElements_numbered, dataElements_numbered] at h
  exact h

theorem pyData_obj_inj {kvs kvs' : List (String × Json)}
    (hkeys : kvs.map Prod.fst = kvs'.map Prod.fst) (h : (obj kvs).pyData = (obj kvs').pyData) :
    kvs.map (fun kv => (kv.1, kv.2.pyData)) = kvs'.map (fun kv => (kv.1, kv.2.pyData)) := by
  have hpairs : Function.Injective (fun kv : String × JsonText.Data => (kv.1.toList, kv.2)) := by
    rintro ⟨k, d⟩ ⟨k', d'⟩ h
    obtain ⟨hk, hd⟩ := Prod.mk.inj h
    exact Prod.ext (String.toList_inj.1 hk) hd
  rw [pyData, pyData, numbered, numbered, toValue, toValue, data, data,
    JsonText.Data.obj.injEq, (List.map_injective_iff.2 hpairs).eq_iff, dataFields_numbered,
    dataFields_numbered] at h
  refine Lists.insertionSort_inj ?_ h
  rw [List.map_map, List.map_map]
  exact hkeys

end Json

end Himmy
