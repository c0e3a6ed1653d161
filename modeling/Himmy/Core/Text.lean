import Mathlib.Data.List.Infix

/-! # Python strings

The string operations of the modelled code: truthiness of an optional string, the substring test
`in`, `str.lower`, `str.upper`, `str.replace` by nothing, `str.strip`, and the text of an integer. -/

namespace Himmy

/-- `s or None`: an empty string is falsy. -/
def orNone : Option String → Option String
  | some s => if s = "" then none else some s
  | none => none

theorem orNone_eq_some_iff {a : Option String} {s : String} :
    orNone a = some s ↔ a = some s ∧ s ≠ "" := by
  unfold orNone
  cases a with
  | none => simp
  | some t =>
    by_cases ht : t = ""
    · simp only [ht, if_true, Option.some.injEq]
      constructor
      · intro h
        cases h
      · rintro ⟨rfl, h⟩
        exact absurd rfl h
    · simp only [ht, if_false, Option.some.injEq]
      constructor
      · rintro rfl
        exact ⟨rfl, ht⟩
      · exact And.left

def pyOr (a : Option String) (b : String) : String := (orNone a).getD b

theorem pyOr_some {a : String} (h : a ≠ "") (b : String) : pyOr (some a) b = a := by
  simp [pyOr, orNone, h]

theorem pyOr_ne_blank (a : Option String) {b : String} (h : b ≠ "") : pyOr a b ≠ "" := by
  unfold pyOr orNone
  cases a with
  | none => exact h
  | some a =>
    by_cases ha : a = ""
    · simpa [ha] using h
    · simp [ha]

def pyIn (marker text : String) : Bool :=
  text.toList.tails.any (fun rest => marker.toList.isPrefixOf rest)

/-- `c.lower()` as far as an ASCII marker can see it: the ASCII letters, and the two other
    characters whose lower case contains an ASCII letter (U+0130 and U+212A). The lower case of
    every remaining character has no ASCII character in it. -/
def lowerChar (c : Char) : List Char :=
  if c = '\u0130' then ['i', '\u0307']
  else if c = '\u212A' then ['k']
  else [c.toLower]

/-- `text.lower()`, up to characters outside ASCII. -/
def pyLower (text : String) : String := String.ofList (text.toList.flatMap lowerChar)

/-- `text.upper()`, up to characters outside ASCII. -/
def pyUpper (text : String) : String := String.ofList (text.toList.map Char.toUpper)

/-! ## `str.replace` and `str.strip` -/

/-- The characters without the occurrences of `pattern`, of which the first `skip` characters belong
    to an occurrence that has been found. -/
def removeFrom (pattern : List Char) : Nat → List Char → List Char
  | _, [] => []
  | 0, c :: cs =>
    if pattern.isPrefixOf (c :: cs) then removeFrom pattern (pattern.length - 1) cs
    else c :: removeFrom pattern 0 cs
  | skip + 1, _ :: cs => removeFrom pattern skip cs

/-- `text.replace(pattern, "")`. -/
def pyRemove (pattern : String) (text : List Char) : List Char := removeFrom pattern.toList 0 text

/-- `c.isspace()`. -/
def isPySpace (c : Char) : Bool :=
  c.toNat ∈ [0x09, 0x0A, 0x0B, 0x0C, 0x0D, 0x1C, 0x1D, 0x1E, 0x1F, 0x20, 0x85, 0xA0, 0x1680, 0x2028,
    0x2029, 0x202F, 0x205F, 0x3000] || (0x2000 ≤ c.toNat && c.toNat ≤ 0x200A)

/-- A character that ends a line for `splitlines`. -/
def isLineBreak (c : Char) : Bool := c.toNat ∈ [10, 11, 12, 13, 28, 29, 30, 133, 8232, 8233]

/-- `text.strip(chars)`, for the characters of a class. -/
def pyStrip (p : Char → Bool) (text : List Char) : List Char :=
  ((text.dropWhile p).reverse.dropWhile p).reverse

theorem removeFrom_skip (pattern : List Char) (skip : Nat) (text : List Char) :
    removeFrom pattern skip text = removeFrom pattern 0 (text.drop skip) := by
  induction skip generalizing text with
  | zero => rw [List.drop_zero]
  | succ skip ih =>
    cases text with
    | nil => rfl
    | cons c cs => rw [removeFrom, List.drop_succ_cons, ih]

theorem mem_removeFrom {pattern : List Char} (hne : pattern ≠ []) {c : Char} (hc : c ∉ pattern)
    {text : List Char} (h : c ∈ text) : c ∈ removeFrom pattern 0 text := by
  induction hlength : text.length using Nat.strong_induction_on generalizing text with
  | _ n ih =>
    cases text with
    | nil => cases h
    | cons x cs =>
      rw [List.length_cons] at hlength
      rw [removeFrom]
      split
      · next hprefix =>
          -- what follows the occurrence
          obtain ⟨rest, hrest⟩ := List.isPrefixOf_iff_prefix.1 hprefix
          obtain ⟨d, pattern, rfl⟩ := List.exists_cons_of_ne_nil hne
          have hmem : c ∈ rest := by
            rw [← hrest] at h
            exact (List.mem_append.1 h).resolve_left hc
          rw [List.cons_append, List.cons.injEq] at hrest
          rw [removeFrom_skip, List.length_cons, Nat.add_sub_cancel, ← hrest.2, List.drop_left]
          refine ih rest.length ?_ hmem rfl
          rw [← hlength, ← hrest.2, List.length_append]
          omega
      · rcases List.mem_cons.1 h with rfl | h
        · exact List.mem_cons_self
        · exact List.mem_cons_of_mem _ (ih cs.length (by omega) h rfl)

theorem mem_pyStrip {p : Char → Bool} {c : Char} (hc : p c = false) {text : List Char}
    (h : c ∈ text) : c ∈ pyStrip p text := by
  have hdrop : ∀ l : List Char, c ∈ l → c ∈ l.dropWhile p := by
    intro l hl
    rw [← List.takeWhile_append_dropWhile (p := p) (l := l)] at hl
    refine (List.mem_append.1 hl).resolve_left (fun htake => ?_)
    rw [List.all_eq_true.1 List.all_takeWhile c htake] at hc
    cases hc
  rw [pyStrip, List.mem_reverse]
  exact hdrop _ (List.mem_reverse.2 (hdrop _ h))

/-! ## The text of an integer -/

theorem toList_toString_int (n : Int) :
    (toString n).toList = (if 0 ≤ n then [] else ['-']) ++ Nat.toDigits 10 n.natAbs := by
  rw [Int.toString_eq_repr, Int.repr_eq_if]
  split
  · rw [Nat.toList_repr, List.nil_append]
    congr 1
    omega
  · rw [String.toList_append, Nat.toList_repr]
    congr 2
    omega

theorem toDigits_injective {m n : Nat} (h : Nat.toDigits 10 m = Nat.toDigits 10 n) : m = n := by
  have hvalue := congrArg (Nat.ofDigitChars 10 · 0) h
  simpa [Nat.ofDigitChars_ten_toDigits] using hvalue

theorem mem_toString_int {n : Int} {c : Char} (h : c ∈ (toString n).toList) :
    c.isDigit = true ∨ c = '-' := by
  rw [toList_toString_int] at h
  rcases List.mem_append.1 h with hsign | hdigit
  · split at hsign
    · cases hsign
    · exact Or.inr (List.mem_singleton.1 hsign)
  · exact Or.inl (Nat.isDigit_of_mem_toDigits (by decide) (by decide) hdigit)

theorem toString_int_injective {m n : Int} (h : toString m = toString n) : m = n := by
  have htext : (toString m).toList = (toString n).toList := congrArg String.toList h
  rw [toList_toString_int, toList_toString_int] at htext
  have hminus : ∀ k l : Nat, Nat.toDigits 10 k ≠ ['-'] ++ Nat.toDigits 10 l := by
    intro k l hkl
    have hmem : '-' ∈ Nat.toDigits 10 k := by rw [hkl]; exact List.mem_cons_self
    exact absurd (Nat.isDigit_of_mem_toDigits (by decide) (by decide) hmem) (by decide)
  by_cases hm : 0 ≤ m <;> by_cases hn : 0 ≤ n
  · simp only [if_pos hm, if_pos hn, List.nil_append] at htext
    have := toDigits_injective htext
    omega
  · simp only [if_pos hm, if_neg hn, List.nil_append] at htext
    exact absurd htext (hminus _ _)
  · simp only [if_neg hm, if_pos hn, List.nil_append] at htext
    exact absurd htext.symm (hminus _ _)
  · simp only [if_neg hm, if_neg hn] at htext
    have := toDigits_injective (List.append_cancel_left htext)
    omega

end Himmy
