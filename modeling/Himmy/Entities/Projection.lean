import Himmy.Library.PrefixCode
import Himmy.Core.Text
import Himmy.Entities.Records

/-! # Stable ids and the projection onto the spine

`stable_id_for` derives the stable id of a semantic key, and `project` makes the record of a domain
model. The derived ids say what they were derived from, as far as `uuid5` has no collisions: a
record id its kind, stable id and version (`recordIdFor_inj`), a stable id the key of a namespace
unless the key is itself a UUID (`stableIdFor_inj`). -/

namespace Himmy

/-! ## UUIDs -/

variable (c : Char)

/-- A digit of `int(text, 16)`, up to digits outside ASCII. -/
def isBase16Digit : Bool :=
  c.isDigit || ('a'.toNat ≤ c.toNat && c.toNat ≤ 'f'.toNat)
    || ('A'.toNat ≤ c.toNat && c.toNat ≤ 'F'.toNat)

def isBase16Digits : List Char → Bool
  | [] => true
  | '_' :: c :: cs => isBase16Digit c && isBase16Digits cs
  | c :: cs => isBase16Digit c && isBase16Digits cs

def isBase16Numeral : List Char → Bool
  | [] => false
  | c :: cs => isBase16Digit c && isBase16Digits cs

/-- A character that `int` strips. -/
def isAsciiSpace : Bool := c = ' ' || (9 ≤ c.toNat && c.toNat ≤ 13)

/-- `int(text, 16)` of a text without a minus sign does not raise. -/
def isBase16 (text : List Char) : Bool :=
  let text := pyStrip isAsciiSpace text
  let text := if text.head? = some '+' then text.tail else text
  match text with
  | '0' :: x :: '_' :: digits =>
    if x = 'x' ∨ x = 'X' then isBase16Numeral digits else isBase16Numeral text
  | '0' :: x :: digits =>
    if x = 'x' ∨ x = 'X' then isBase16Numeral digits else isBase16Numeral text
  | _ => isBase16Numeral text

def uuidDigits (value : String) : List Char :=
  pyRemove "-" (pyStrip (fun c => c.toNat = 123 || c.toNat = 125)
    (pyRemove "uuid:" (pyRemove "urn:" value.toList)))

def isUuid (value : String) : Bool :=
  let digits := uuidDigits value
  digits.length = 32 && isBase16 digits

def stableIdFor (D : Digests) (value ns : String) (fallbackKey : Option String) : String :=
  let key := if value = "" then (orNone fallbackKey).getD "" else value
  if isUuid key then key else D.uuid5 (escapePrefix ns ++ ":" ++ key)

def project (D : Digests) (stableValue ns kind : String) (version : Int)
    (fallbackKey : Option String) (payload metadata : Dict Json) (createdAt : String) :
    EntityRecord :=
  EntityRecord.create D (stableIdFor D stableValue ns fallbackKey) version kind payload metadata
    createdAt

/-! ## A text with a separator is no UUID -/

theorem isBase16Digit_of_isBase16Digits {cs : List Char} (h : isBase16Digits cs = true) :
    ∀ c ∈ cs, isBase16Digit c = true ∨ c = '_' := by
  fun_induction isBase16Digits cs with
  | case1 => exact fun c hc => by cases hc
  | case2 d ds ih =>
    rw [Bool.and_eq_true] at h
    intro c hc
    rcases List.mem_cons.1 hc with rfl | hc
    · exact Or.inr rfl
    · rcases List.mem_cons.1 hc with rfl | hc
      · exact Or.inl h.1
      · exact ih h.2 c hc
  | case3 d ds _ ih =>
    rw [Bool.and_eq_true] at h
    intro c hc
    rcases List.mem_cons.1 hc with rfl | hc
    · exact Or.inl h.1
    · exact ih h.2 c hc

theorem isBase16Digit_of_isBase16Numeral {cs : List Char} (h : isBase16Numeral cs = true) :
    ∀ c ∈ cs, isBase16Digit c = true ∨ c = '_' := by
  cases cs with
  | nil => cases h
  | cons d ds =>
    rw [isBase16Numeral, Bool.and_eq_true] at h
    intro c hc
    rcases List.mem_cons.1 hc with rfl | hc
    · exact Or.inl h.1
    · exact isBase16Digit_of_isBase16Digits h.2 c hc

theorem bar_not_mem_of_isBase16 {text : List Char} (h : isBase16 text = true) : '|' ∉ text := by
  have hdigit : ¬ (isBase16Digit '|' = true ∨ '|' = '_') := by decide
  have hnumeral : ∀ cs : List Char, isBase16Numeral cs = true → '|' ∉ cs :=
    fun cs hcs hbar => hdigit (isBase16Digit_of_isBase16Numeral hcs '|' hbar)
  intro hbar
  have hstripped := mem_pyStrip (p := isAsciiSpace) (c := '|') (by decide) hbar
  unfold isBase16 at h
  simp only at h
  generalize pyStrip isAsciiSpace text = stripped at h hstripped
  -- the sign is no separator
  have hunsigned : '|' ∈ (if stripped.head? = some '+' then stripped.tail else stripped) := by
    split
    · cases stripped with
      | nil => cases hstripped
      | cons c cs =>
        rename_i hhead
        rw [List.head?_cons, Option.some.injEq] at hhead
        subst hhead
        exact (List.mem_cons.1 hstripped).resolve_left (by decide)
    · exact hstripped
  generalize (if stripped.head? = some '+' then stripped.tail else stripped) = unsigned
    at h hunsigned
  split at h
  · split at h
    · next hx =>
        refine hnumeral _ h ?_
        rcases hx with rfl | rfl <;> simpa using hunsigned
    · exact hnumeral _ h hunsigned
  · split at h
    · next hx =>
        refine hnumeral _ h ?_
        rcases hx with rfl | rfl <;> simpa using hunsigned
    · exact hnumeral _ h hunsigned
  · exact hnumeral _ h hunsigned

theorem isUuid_of_bar {value : String} (h : '|' ∈ value.toList) : isUuid value = false := by
  have hdigits : '|' ∈ uuidDigits value := by
    refine mem_removeFrom (by decide) (by decide) (mem_pyStrip (by decide) ?_)
    exact mem_removeFrom (by decide) (by decide) (mem_removeFrom (by decide) (by decide) h)
  unfold isUuid
  cases hbase : isBase16 (uuidDigits value) with
  | true => exact absurd hdigits (bar_not_mem_of_isBase16 hbase)
  | false => simp [hbase]

/-! ## What the ids are derived from -/

def escapeCode : List Char :=
  if c.toNat = 92 then "\\\\".toList else if c = ':' then "\\:".toList else [c]

theorem escapeCode_cases :
    (c = '\\' ∧ escapeCode c = ['\\', '\\']) ∨ (c = ':' ∧ escapeCode c = ['\\', ':'])
      ∨ (c ≠ '\\' ∧ c ≠ ':' ∧ escapeCode c = [c]) := by
  unfold escapeCode
  split
  · next hc => exact Or.inl ⟨Char.toNat_inj.1 hc, rfl⟩
  · next hc =>
      split
      · next hcolon => exact Or.inr (Or.inl ⟨hcolon, rfl⟩)
      · next hcolon => exact Or.inr (Or.inr ⟨fun h => hc (by rw [h]; rfl), hcolon, rfl⟩)

theorem separates_escapeCode : PrefixCode.Separates escapeCode := by
  intro a b x y h
  rcases escapeCode_cases a with ⟨rfl, ha⟩ | ⟨rfl, ha⟩ | ⟨hslash, hcolon, ha⟩ <;>
    rcases escapeCode_cases b with ⟨rfl, hb⟩ | ⟨rfl, hb⟩ | ⟨hslash', hcolon', hb⟩ <;>
    simp only [ha, hb] at h
  · exact ⟨rfl, List.append_cancel_left h⟩
  · cases h
  · exact absurd (List.cons.inj h).1.symm hslash'
  · cases h
  · exact ⟨rfl, List.append_cancel_left h⟩
  · exact absurd (List.cons.inj h).1.symm hslash'
  · exact absurd (List.cons.inj h).1 hslash
  · exact absurd (List.cons.inj h).1 hslash
  · exact List.cons.inj h

theorem avoids_escapeCode : PrefixCode.Avoids escapeCode ":".toList := by
  intro a x y h
  rcases escapeCode_cases a with ⟨rfl, ha⟩ | ⟨rfl, ha⟩ | ⟨-, hcolon, ha⟩ <;> rw [ha] at h
  · cases h
  · cases h
  · exact hcolon (List.cons.inj h).1

theorem escapePrefix_colon_inj {a b x y : String}
    (h : escapePrefix a ++ (":" ++ x) = escapePrefix b ++ (":" ++ y)) : a = b ∧ x = y := by
  have hlist := congrArg String.toList h
  simp only [escapePrefix, String.toList_append, String.toList_ofList] at hlist
  obtain ⟨hab, hxy⟩ := PrefixCode.flatMap_marked separates_escapeCode avoids_escapeCode hlist
  exact ⟨String.toList_inj.1 hab, String.toList_inj.1 hxy⟩

section Injective

variable {D : Digests} (huuid : Function.Injective D.uuid5)
include huuid

theorem recordIdFor_inj {stableId stableId' kind kind' : String} {version version' : Int}
    (h : EntityRecord.recordIdFor D stableId version kind
      = EntityRecord.recordIdFor D stableId' version' kind') :
    kind = kind' ∧ stableId = stableId' ∧ version = version' := by
  have htext := huuid h
  simp only [String.append_assoc] at htext
  obtain ⟨hkind, hrest⟩ := escapePrefix_colon_inj htext
  obtain ⟨hstable, hversion⟩ := escapePrefix_colon_inj hrest
  exact ⟨hkind, hstable, toString_int_injective hversion⟩

theorem stableIdFor_inj {value value' ns : String} {fallbackKey fallbackKey' : Option String}
    (hne : value ≠ "") (hne' : value' ≠ "") (hplain : isUuid value = false)
    (hplain' : isUuid value' = false)
    (h : stableIdFor D value ns fallbackKey = stableIdFor D value' ns fallbackKey') :
    value = value' := by
  simp only [stableIdFor, if_neg hne, if_neg hne', hplain, hplain', Bool.false_eq_true,
    if_false] at h
  exact String.append_right_inj _ |>.1 (huuid h)

end Injective

end Himmy
