import Mathlib.Data.List.Basic

/-! # Percent-encoding

A text in which every reserved character is written as `%` and two hexadecimal digits for each byte of
its UTF-8 encoding. What it encodes is read back (`decode_quote`), and no separator of a URL is left
in it. -/

namespace Percent

def isUnreserved (c : Char) : Bool :=
  ('a' ≤ c && c ≤ 'z') || ('A' ≤ c && c ≤ 'Z') || ('0' ≤ c && c ≤ '9')
    || c = '_' || c = '.' || c = '-' || c = '~'

/-! ## Hexadecimal digits -/

def hexDigit (n : Nat) : Char := if n < 10 then Char.ofNat (48 + n) else Char.ofNat (55 + n)

def hexValue (c : Char) : Option Nat :=
  if '0' ≤ c && c ≤ '9' then some (c.toNat - 48)
  else if 'A' ≤ c && c ≤ 'F' then some (c.toNat - 55)
  else if 'a' ≤ c && c ≤ 'f' then some (c.toNat - 87)
  else none

theorem hexValue_hexDigit : ∀ n < 16, hexValue (hexDigit n) = some n := by decide

theorem isUnreserved_hexDigit : ∀ n < 16, isUnreserved (hexDigit n) = true := by decide

/-! ## Encoding -/

def ofByte (b : UInt8) : List Char := ['%', hexDigit (b.toNat / 16), hexDigit (b.toNat % 16)]

def quoteChar (c : Char) : List Char :=
  if isUnreserved c then [c] else (String.utf8EncodeChar c).flatMap ofByte

variable (text : List Char)

def quote : List Char := text.flatMap quoteChar

theorem mem_ofByte {b : UInt8} {c : Char} (h : c ∈ ofByte b) : c = '%' ∨ isUnreserved c = true := by
  have hlt : b.toNat < 256 := b.toNat_lt
  simp only [ofByte, List.mem_cons, List.not_mem_nil, or_false] at h
  rcases h with rfl | rfl | rfl
  · exact .inl rfl
  · exact .inr (isUnreserved_hexDigit _ (by omega))
  · exact .inr (isUnreserved_hexDigit _ (by omega))

theorem mem_quote {text : List Char} {c : Char} (h : c ∈ quote text) : c = '%' ∨ isUnreserved c = true := by
  obtain ⟨d, -, hd⟩ := List.mem_flatMap.mp h
  unfold quoteChar at hd
  split_ifs at hd with hunreserved
  · rw [List.mem_singleton.mp hd]
    exact .inr hunreserved
  · obtain ⟨b, -, hb⟩ := List.mem_flatMap.mp hd
    exact mem_ofByte hb

theorem quote_of_unreserved {text : List Char} (h : ∀ c ∈ text, isUnreserved c = true) :
    quote text = text := by
  induction text with
  | nil => rfl
  | cons c text ih =>
    rw [List.forall_mem_cons] at h
    rw [quote, List.flatMap_cons, quoteChar, if_pos h.1, ← quote, ih h.2, List.singleton_append]

theorem quote_of_quote_unreserved {text : List Char} (h : ∀ c ∈ quote text, isUnreserved c = true) :
    quote text = text := by
  refine quote_of_unreserved fun c hc => ?_
  by_contra hreserved
  -- a reserved character has a byte, and the code of a byte starts with a percent sign
  obtain ⟨b, hb⟩ := List.exists_mem_of_ne_nil (String.utf8EncodeChar c) String.utf8EncodeChar_ne_nil
  have hpercent : '%' ∈ quote text := by
    refine List.mem_flatMap.mpr ⟨c, hc, ?_⟩
    rw [quoteChar, if_neg hreserved]
    exact List.mem_flatMap.mpr ⟨b, hb, List.mem_cons_self⟩
  exact absurd (h '%' hpercent) (by decide)

/-! ## Decoding -/

/-- The bytes that a text encodes; a percent sign without two digits stands for itself. -/
def unquote : List Char → List UInt8
  | [] => []
  | '%' :: high :: low :: rest =>
    match hexValue high, hexValue low with
    | some a, some b => UInt8.ofNat (16 * a + b) :: unquote rest
    | _, _ => String.utf8EncodeChar '%' ++ unquote (high :: low :: rest)
  | c :: rest => String.utf8EncodeChar c ++ unquote rest

def decode : Option (List Char) :=
  ((unquote text).toByteArray.utf8Decode?).map Array.toList

theorem unquote_cons {c : Char} (h : c ≠ '%') (rest : List Char) :
    unquote (c :: rest) = String.utf8EncodeChar c ++ unquote rest := by
  rw [unquote]
  rintro high low tail rfl
  exact absurd rfl h

theorem unquote_ofByte (b : UInt8) (rest : List Char) : unquote (ofByte b ++ rest) = b :: unquote rest := by
  have hlt : b.toNat < 256 := b.toNat_lt
  rw [ofByte, List.cons_append, List.cons_append, List.cons_append, List.nil_append, unquote,
    hexValue_hexDigit _ (by omega), hexValue_hexDigit _ (by omega)]
  simp only [Nat.div_add_mod, UInt8.ofNat_toNat]

theorem unquote_bytes (bytes : List UInt8) (rest : List Char) :
    unquote (bytes.flatMap ofByte ++ rest) = bytes ++ unquote rest := by
  induction bytes with
  | nil => rfl
  | cons b bytes ih =>
    rw [List.flatMap_cons, List.append_assoc, unquote_ofByte, ih, List.cons_append]

theorem unquote_quoteChar (c : Char) (rest : List Char) :
    unquote (quoteChar c ++ rest) = String.utf8EncodeChar c ++ unquote rest := by
  unfold quoteChar
  split_ifs with hunreserved
  · refine unquote_cons ?_ rest
    rintro rfl
    exact absurd hunreserved (by decide)
  · exact unquote_bytes _ rest

theorem unquote_quote : unquote (quote text) = text.flatMap String.utf8EncodeChar := by
  induction text with
  | nil => rfl
  | cons c text ih => rw [quote, List.flatMap_cons, unquote_quoteChar, ← quote, ih, List.flatMap_cons]

theorem decode_quote : decode (quote text) = some text := by
  have hbytes : (unquote (quote text)).toByteArray = text.utf8Encode := by
    rw [unquote_quote, List.utf8Encode]
  rw [decode, hbytes, List.utf8Decode?_utf8Encode]
  rfl

theorem quote_injective : Function.Injective quote := fun s t h => by
  have := congrArg decode h
  simpa only [decode_quote, Option.some.injEq] using this

end Percent
