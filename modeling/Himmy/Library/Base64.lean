import Mathlib.Data.List.GetD

/-! # URL-safe base64

Three bytes are four letters of six bits each, and one or two bytes at the end are filled up with `=`.
A reader takes the letters one by one and holds the bits that do not make a byte yet; it passes over
characters that are no letters, and a filled-up group ends the text. What was written is read back
(`decode_encode`). -/

namespace Base64

def alphabet : List Char :=
  "ABCDEFGHIJKLMNOPQRSTUVWXYZabcdefghijklmnopqrstuvwxyz0123456789-_".toList

def letter (n : Nat) : Char := alphabet.getD n 'A'

/-- The value of a letter; the letters `+` and `/` of the other alphabet are read too. -/
def value? (c : Char) : Option Nat :=
  if c = '+' then some 62 else if c = '/' then some 63
  else (alphabet.zipIdx.find? (fun e => e.1 = c)).map Prod.snd

def encode : List UInt8 → List Char
  | [] => []
  | [a] => [letter (a.toNat / 4), letter (a.toNat % 4 * 16), '=', '=']
  | [a, b] =>
    [letter (a.toNat / 4), letter (a.toNat % 4 * 16 + b.toNat / 16), letter (b.toNat % 16 * 4), '=']
  | a :: b :: c :: rest =>
    letter (a.toNat / 4) :: letter (a.toNat % 4 * 16 + b.toNat / 16)
      :: letter (b.toNat % 16 * 4 + c.toNat / 64) :: letter (c.toNat % 64) :: encode rest

/-- The bytes of what is left of a text: `quad` letters of a group have been read, `left` are their bits
    that make no byte yet, and `pads` fillers have been passed. -/
def decodeFrom (quad left pads : Nat) : List Char → Option (List UInt8)
  | [] => if quad = 0 then some [] else none
  | c :: rest =>
    if c = '=' then
      if 2 ≤ quad then
        if 4 ≤ quad + (pads + 1) then some [] else decodeFrom quad left (pads + 1) rest
      else decodeFrom quad left pads rest
    else match value? c with
      | none => decodeFrom quad left pads rest
      | some v =>
        if quad = 0 then decodeFrom 1 v 0 rest
        else if quad = 1 then
          (decodeFrom 2 (v % 16) 0 rest).map (UInt8.ofNat (left * 4 + v / 16) :: ·)
        else if quad = 2 then
          (decodeFrom 3 (v % 4) 0 rest).map (UInt8.ofNat (left * 16 + v / 4) :: ·)
        else (decodeFrom 0 0 0 rest).map (UInt8.ofNat (left * 64 + v) :: ·)

/-- The bytes of a text; `none` when it ends inside a group or is not ASCII. -/
def decode (text : List Char) : Option (List UInt8) :=
  if text.all (fun c => c.toNat < 128) then decodeFrom 0 0 0 text else none

/-! ## Letters -/

theorem value?_letter : ∀ n < 64, value? (letter n) = some n ∧ letter n ≠ '=' := by
  decide +kernel

theorem letter_mem (n : Nat) : letter n ∈ alphabet := by
  unfold letter
  by_cases hn : n < alphabet.length
  · rw [List.getD_eq_getElem _ _ hn]
    exact List.getElem_mem hn
  · rw [List.getD_eq_default _ _ (Nat.le_of_not_lt hn)]
    decide

theorem mem_encode {c : Char} (bytes : List UInt8) (h : c ∈ encode bytes) :
    c ∈ alphabet ∨ c = '=' := by
  induction bytes using encode.induct with
  | case1 => cases h
  | case2 a =>
    simp only [encode, List.mem_cons, List.not_mem_nil, or_false] at h
    rcases h with rfl | rfl | rfl | rfl
    · exact Or.inl (letter_mem _)
    · exact Or.inl (letter_mem _)
    · exact Or.inr rfl
    · exact Or.inr rfl
  | case3 a b =>
    simp only [encode, List.mem_cons, List.not_mem_nil, or_false] at h
    rcases h with rfl | rfl | rfl | rfl
    · exact Or.inl (letter_mem _)
    · exact Or.inl (letter_mem _)
    · exact Or.inl (letter_mem _)
    · exact Or.inr rfl
  | case4 a b c' rest ih =>
    simp only [encode, List.mem_cons] at h
    rcases h with rfl | rfl | rfl | rfl | h
    · exact Or.inl (letter_mem _)
    · exact Or.inl (letter_mem _)
    · exact Or.inl (letter_mem _)
    · exact Or.inl (letter_mem _)
    · exact ih h

theorem notMem_encode {c : Char} (hletter : c ∉ alphabet) (hfill : c ≠ '=') (bytes : List UInt8) :
    c ∉ encode bytes := fun h => (mem_encode bytes h).elim hletter hfill

theorem all_ascii_encode (bytes : List UInt8) :
    (encode bytes).all (fun c => c.toNat < 128) = true := by
  have halphabet : alphabet.all (fun c => c.toNat < 128) = true := by decide
  refine List.all_eq_true.2 (fun c hc => ?_)
  rcases mem_encode bytes hc with hmem | rfl
  · exact List.all_eq_true.1 halphabet c hmem
  · decide

/-! ## The round trip -/

section Step

variable {v left pads : Nat} (hv : v < 64) (rest : List Char)
include hv

theorem decodeFrom_zero : decodeFrom 0 left pads (letter v :: rest) = decodeFrom 1 v 0 rest := by
  obtain ⟨hvalue, hne⟩ := value?_letter v hv
  rw [decodeFrom, if_neg hne, hvalue]
  rfl

theorem decodeFrom_one : decodeFrom 1 left pads (letter v :: rest)
    = (decodeFrom 2 (v % 16) 0 rest).map (UInt8.ofNat (left * 4 + v / 16) :: ·) := by
  obtain ⟨hvalue, hne⟩ := value?_letter v hv
  rw [decodeFrom, if_neg hne, hvalue]
  rfl

theorem decodeFrom_two : decodeFrom 2 left pads (letter v :: rest)
    = (decodeFrom 3 (v % 4) 0 rest).map (UInt8.ofNat (left * 16 + v / 4) :: ·) := by
  obtain ⟨hvalue, hne⟩ := value?_letter v hv
  rw [decodeFrom, if_neg hne, hvalue]
  rfl

theorem decodeFrom_three : decodeFrom 3 left pads (letter v :: rest)
    = (decodeFrom 0 0 0 rest).map (UInt8.ofNat (left * 64 + v) :: ·) := by
  obtain ⟨hvalue, hne⟩ := value?_letter v hv
  rw [decodeFrom, if_neg hne, hvalue]
  rfl

end Step

theorem ofNat_eq {n : Nat} {a : UInt8} (h : n = a.toNat) : UInt8.ofNat n = a := by
  rw [h, UInt8.ofNat_toNat]

theorem decodeFrom_encode (bytes : List UInt8) : decodeFrom 0 0 0 (encode bytes) = some bytes := by
  induction bytes using encode.induct with
  | case1 => rfl
  | case2 a =>
    have ha := a.toNat_lt
    rw [encode, decodeFrom_zero (by omega), decodeFrom_one (by omega)]
    rw [ofNat_eq (a := a) (by omega)]
    rfl
  | case3 a b =>
    have ha := a.toNat_lt
    have hb := b.toNat_lt
    rw [encode, decodeFrom_zero (by omega), decodeFrom_one (by omega), decodeFrom_two (by omega)]
    rw [ofNat_eq (a := a) (by omega), ofNat_eq (a := b) (by omega)]
    rfl
  | case4 a b c rest ih =>
    have ha := a.toNat_lt
    have hb := b.toNat_lt
    have hc := c.toNat_lt
    rw [encode, decodeFrom_zero (by omega), decodeFrom_one (by omega), decodeFrom_two (by omega),
      decodeFrom_three (by omega), ih]
    rw [ofNat_eq (a := a) (by omega), ofNat_eq (a := b) (by omega), ofNat_eq (a := c) (by omega)]
    rfl

/-- **Bytes are read back from their text.** -/
theorem decode_encode (bytes : List UInt8) : decode (encode bytes) = some bytes := by
  rw [decode, if_pos (all_ascii_encode bytes), decodeFrom_encode]

end Base64
