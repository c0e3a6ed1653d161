import Mathlib.Tactic.Choose
import Himmy.Inference.GemmaLoops

/-! # Rendered calls are read back

The parser reads back the arguments of a rendered call, with their keys in order, but for two kinds of
values: a float whose text has no point is read as that text, and an integer with too many digits
raises. What is rendered holds the closing text of a call nowhere but at the ends of its calls, so the
strict pattern finds each call, and the tolerant one finds nothing that ends elsewhere. -/

namespace Himmy.Gemma

open KeyedList (empty put)

variable {floatOf : List Char → FloatLiteral} {s t : List Char}

/-! ## Cutting at a pattern -/

def Unbordered (pattern : List Char) : Prop := ∃ c rest, pattern = c :: rest ∧ c ∉ rest

theorem unbordered_strDelimiter : Unbordered strDelimiter :=
  ⟨'<', ['|', '"', '|', '>'], by decide, by decide⟩

theorem unbordered_closer : Unbordered closer :=
  ⟨'}', "<tool_call|>".toList, by decide, by decide⟩

theorem Unbordered.apart {pattern : List Char} (h : Unbordered pattern) {before after : List Char}
    (hne : before ≠ []) (hbegins : pattern <+: before ++ (pattern ++ after)) : pattern <+: before := by
  obtain ⟨c, rest, hpattern, hc⟩ := h
  by_cases hlength : pattern.length ≤ before.length
  · exact List.prefix_of_prefix_length_le hbegins (List.prefix_append _ _) hlength
  · -- the first character of the second occurrence is inside the first
    exfalso
    obtain ⟨tail, htail⟩ := hbegins
    have hpos := List.length_pos_iff.2 hne
    have hkept : (pattern ++ tail)[before.length]? = pattern[before.length]? :=
      List.getElem?_append_left (by omega)
    have hget : pattern[before.length]? = some c := by
      rw [← hkept, htail,
        List.getElem?_append_right le_rfl, Nat.sub_self, hpattern]
      rfl
    rw [hpattern, List.getElem?_cons, if_neg (by omega)] at hget
    exact hc (List.mem_of_getElem? hget)

theorem cut_append {pattern : List Char} (h : Unbordered pattern) {before : List Char}
    (hbefore : ¬ pattern <:+: before) (after : List Char) :
    cut pattern (before ++ (pattern ++ after)) = some (before, after) := by
  induction before with
  | nil =>
    obtain ⟨c, rest, hpattern, -⟩ := h
    have hbegins : pattern.isPrefixOf (pattern ++ after) = true :=
      List.isPrefixOf_iff_prefix.2 (List.prefix_append _ _)
    have hdrop : (pattern ++ after).drop pattern.length = after := List.drop_left
    rw [hpattern, List.cons_append] at hbegins hdrop
    rw [List.nil_append, hpattern, List.cons_append, cut, if_pos hbegins, hdrop]
  | cons c cs ih =>
    have hnot : ¬ pattern.isPrefixOf (c :: cs ++ (pattern ++ after)) = true := by
      intro hbegins
      have happly := h.apart (List.cons_ne_nil c cs) (List.isPrefixOf_iff_prefix.1 hbegins)
      exact hbefore happly.isInfix
    have hcs : ¬ pattern <:+: cs := fun hwithin =>
      hbefore (hwithin.trans (List.suffix_cons c cs).isInfix)
    rw [List.cons_append] at hnot ⊢
    rw [cut, if_neg hnot, ih hcs]
    rfl

/-! ## Scalars -/

/-- A character that is neither white space nor a mark of the grammar. -/
def isNameChar (c : Char) : Bool :=
  !isPySpace c && !(['{', '}', '[', ']', ':', ',', '<', '>', '|', '"'].contains c)

def IsWord (w : List Char) : Prop := ∀ c ∈ w, isNameChar c = true

/-- A value ends here: with the text, or at a comma or a closing bracket. -/
def Delimited (rest : List Char) : Prop :=
  rest = [] ∨ ∃ c cs, rest = c :: cs ∧ (c = ',' ∨ c = '}' ∨ c = ']')

theorem delimited_nil : Delimited [] := Or.inl rfl

variable {c : Char}

theorem delimited_cons {cs : List Char} (h : c = ',' ∨ c = '}' ∨ c = ']') :
    Delimited (c :: cs) := Or.inr ⟨c, cs, rfl, h⟩

theorem isPySpace_of_isNameChar (h : isNameChar c = true) : isPySpace c = false := by
  unfold isNameChar at h
  simp only [Bool.and_eq_true, Bool.not_eq_true'] at h
  exact h.1

theorem ne_of_isNameChar (h : isNameChar c = true) :
    c ≠ '{' ∧ c ≠ '}' ∧ c ≠ '[' ∧ c ≠ ']' ∧ c ≠ ':' ∧ c ≠ ',' ∧ c ≠ '<' ∧ c ≠ '>' := by
  unfold isNameChar at h
  simp only [Bool.and_eq_true, Bool.not_eq_true', List.contains_eq_mem, decide_eq_false_iff_not,
    List.mem_cons, not_or] at h
  obtain ⟨-, h1, h2, h3, h4, h5, h6, h7, h8, -⟩ := h
  exact ⟨h1, h2, h3, h4, h5, h6, h7, h8⟩

theorem notSpace_of_isPySpace (h : isPySpace c = false) :
    c ≠ ' ' ∧ c ≠ '\t' ∧ c ≠ '\r' ∧ c ≠ '\n' := by
  refine ⟨?_, ?_, ?_, ?_⟩ <;> rintro rfl <;> exact absurd h (by decide)

theorem dropWhile_of_notSpace {cs : List Char} (h : isPySpace c = false) :
    (c :: cs).dropWhile isPySpace = c :: cs := by
  rw [List.dropWhile_cons, h]
  rfl

theorem pyStrip_of_ends {c d : Char} {l : List Char} (hl : s = c :: l)
    (hc : isPySpace c = false) {l' : List Char} (hl' : s = l' ++ [d]) (hd : isPySpace d = false) :
    pyStrip isPySpace s = s := by
  have hfirst : s.dropWhile isPySpace = s := by rw [hl, dropWhile_of_notSpace hc]
  have hlast : s.reverse.dropWhile isPySpace = s.reverse := by
    rw [hl', List.reverse_append, List.reverse_singleton, List.singleton_append,
      dropWhile_of_notSpace hd]
  rw [pyStrip, hfirst, hlast, List.reverse_reverse]

variable {w : List Char}

theorem IsWord.pyStrip (h : IsWord w) : pyStrip isPySpace w = w := by
  rcases List.eq_nil_or_concat w with rfl | ⟨l', d, hl'⟩
  · rfl
  cases w with
  | nil => rfl
  | cons c l =>
    have hd : d ∈ c :: l := by
      rw [hl']
      simp
    rw [List.concat_eq_append] at hl'
    exact pyStrip_of_ends rfl (isPySpace_of_isNameChar (h c List.mem_cons_self)) hl'
      (isPySpace_of_isNameChar (h d hd))

theorem scanScalar_word (hw : IsWord w) {rest : List Char} (hrest : Delimited rest) :
    scanScalar 0 (w ++ rest) = (w, rest) := by
  induction w with
  | nil =>
    rcases hrest with rfl | ⟨c, cs, rfl, hc⟩
    · rfl
    · rcases hc with rfl | rfl | rfl <;> simp [scanScalar]
  | cons c w ih =>
    obtain ⟨h1, h2, h3, h4, -, h6, -, -⟩ := ne_of_isNameChar (hw c List.mem_cons_self)
    have hrest := ih (fun d hd => hw d (List.mem_cons_of_mem _ hd))
    rw [List.cons_append, scanScalar, if_neg (by simp [h1, h3]), if_neg (by simp [h2, h4]),
      if_neg (by simp [h6]), hrest]

theorem parseValue_word (hne : w ≠ []) (hw : IsWord w) {rest : List Char}
    (hrest : Delimited rest) (n : Nat) : parseValue floatOf (n + 1) (w ++ rest)
      = some ((coerceScalar floatOf w).map fun v => (v, rest)) := by
  obtain ⟨c, cs, rfl⟩ := List.exists_cons_of_ne_nil hne
  have hc := hw c List.mem_cons_self
  obtain ⟨h1, -, h3, -, -, -, h7, -⟩ := ne_of_isNameChar hc
  have hscan := scanScalar_word hw hrest
  rw [List.cons_append] at hscan ⊢
  have hskip : skipWs (c :: (cs ++ rest)) = c :: (cs ++ rest) :=
    skipWs_eq_of_head (notSpace_of_isPySpace (isPySpace_of_isNameChar hc))
  have hscalar : IsScalar (c :: (cs ++ rest)) := by
    refine ⟨by simp [hskip], ?_, by simp [hskip, h1], by simp [hskip, h3]⟩
    rw [hskip, ← List.isPrefixOf_iff_prefix, not_isPrefixOf_strDelimiter _ h7]
    exact Bool.false_ne_true
  rw [parseValue_scalar hscalar, scalarAt, hskip, hscan, hw.pyStrip]

theorem parseValue_quoted {content : List Char} (h : ¬ strDelimiter <:+: content) (rest : List Char)
    (n : Nat) : parseValue floatOf (n + 1) (strDelimiter ++ (content ++ strDelimiter) ++ rest)
      = Run.ok (.str (String.ofList content), rest) := by
  have hskip : skipWs (strDelimiter ++ (content ++ strDelimiter) ++ rest)
      = strDelimiter ++ (content ++ strDelimiter) ++ rest := by
    have hdelimiter : strDelimiter = '<' :: ['|', '"', '|', '>'] := by decide
    rw [hdelimiter]
    exact skipWs_eq_of_head (by decide)
  have hbegins : strDelimiter <+: skipWs (strDelimiter ++ (content ++ strDelimiter) ++ rest) := by
    rw [hskip, List.append_assoc]
    exact List.prefix_append _ _
  have htext : textAt (strDelimiter ++ (content ++ strDelimiter) ++ rest) = (content, rest) := by
    rw [textAt, hskip, List.append_assoc, List.drop_left, List.append_assoc,
      cut_append unbordered_strDelimiter h]
    rfl
  rw [parseValue_text hbegins, htext]

/-! ## Loops over what is rendered -/

def collect {σ α : Type} (add : σ → α → Value → σ) (result : α → Except String Value) :
    σ → List α → Except String σ
  | acc, [] => .ok acc
  | acc, a :: as => (result a).bind fun v => collect add result (add acc a v) as

theorem skipComma_comma (rest : List Char) : skipComma (',' :: rest) = rest := by
  simp [skipComma, skipWs]

theorem skipComma_close (f : Frame) (rest : List Char) :
    skipComma (f.close :: rest) = f.close :: rest := by
  cases f <;> simp [skipComma, skipWs, Frame.close]

theorem delimited_close (f : Frame) (rest : List Char) : Delimited (f.close :: rest) := by
  cases f
  · exact delimited_cons (Or.inr (Or.inl rfl))
  · exact delimited_cons (Or.inr (Or.inr rfl))

theorem loop_parts {σ α : Type} {f : Frame} {add : σ → List Char → Value → σ}
    {add' : σ → α → Value → σ} {value : List Char → Run (Value × List Char)}
    {part : α → List Char} {result : α → Except String Value} {as : List α}
    (hpart : ∀ a ∈ as, ∀ rest, Delimited rest → (∃ t, f.item (part a ++ rest) = some t
        ∧ value t = some ((result a).map fun v => (v, rest)))
      ∧ ∀ acc v, add acc (part a ++ rest) v = add' acc a v) (acc : σ) (rest : List Char) :
    loop f add value (as.length + 1) acc ([','].intercalate (as.map part) ++ f.close :: rest)
      = some ((collect add' result acc as).map fun acc => (acc, rest)) := by
  have hclose : skipWs (f.close :: rest) = f.close :: rest := by
    cases f <;> exact skipWs_eq_of_head (by decide)
  induction as generalizing acc with
  | nil =>
    have hitem : f.item (f.close :: rest) = none := by simp [Frame.item, Frame.Ends, hclose]
    have hleft : f.left (f.close :: rest) = rest := by simp [Frame.left, hclose]
    show loop f add value 1 acc (f.close :: rest) = _
    rw [loop, hitem, hleft]
    rfl
  | cons a as ih =>
    -- the text behind the part, and what the loop goes on with
    obtain ⟨behind, htext, hdelimited, hnext⟩ : ∃ behind,
        [','].intercalate ((a :: as).map part) ++ f.close :: rest = part a ++ behind
          ∧ Delimited behind
          ∧ skipComma behind = [','].intercalate (as.map part) ++ f.close :: rest := by
      cases as with
      | nil =>
        refine ⟨f.close :: rest, ?_, delimited_close f rest, skipComma_close f rest⟩
        rw [List.map_singleton, List.intercalate_singleton]
      | cons b as =>
        refine ⟨',' :: ([','].intercalate ((b :: as).map part) ++ f.close :: rest), ?_,
          delimited_cons (Or.inl rfl), skipComma_comma _⟩
        rw [List.map_cons, List.map_cons, List.intercalate_cons_cons]
        simp
    obtain ⟨⟨t, hitem, hvalue⟩, hadd⟩ := hpart a List.mem_cons_self behind hdelimited
    have hrest := fun acc => ih (fun b hb => hpart b (List.mem_cons_of_mem _ hb)) acc
    rw [htext, List.length_cons, loop, hitem, Option.elim_some, hvalue]
    cases hresult : result a with
    | error e =>
      rw [collect, hresult]
      rfl
    | ok v =>
      rw [collect, hresult]
      show loop f add value (as.length + 1) (add acc (part a ++ behind) v) (skipComma behind) = _
      rw [hadd, hnext, hrest]
      rfl

/-! ## Numbers -/

theorem digit_cases (h : c.isDigit = true) : 48 ≤ c.toNat ∧ c.toNat ≤ 57 :=
  Char.isDigit_iff_toNat.1 h

theorem digitValue_of_isDigit (h : c.isDigit = true) : digitValue c = some (c.toNat - 48) := by
  obtain ⟨hlow, hhigh⟩ := digit_cases h
  have hfirst : digitBlocks.find? (fun first => first ≤ c.toNat && c.toNat < first + 10)
      = some 0x30 := by
    rw [digitBlocks, List.find?_cons_of_pos]
    simp only [Bool.and_eq_true, decide_eq_true_eq]
    omega
  rw [digitValue, hfirst]
  rfl

theorem isDecimal_of_isDigit (h : c.isDigit = true) : isDecimal c = true := by
  rw [isDecimal, digitValue_of_isDigit h]
  rfl

theorem isNameChar_of_isDigit (h : c.isDigit = true) : isNameChar c = true := by
  obtain ⟨hlow, hhigh⟩ := digit_cases h
  have hspace : isPySpace c = false := by
    simp only [isPySpace, List.mem_cons, List.not_mem_nil, or_false, Bool.or_eq_false_iff,
      decide_eq_false_iff_not, Bool.and_eq_false_iff]
    omega
  have hmark : ∀ d ∈ ['{', '}', '[', ']', ':', ',', '<', '>', '|', '"'], c ≠ d := by
    rintro d hd rfl
    have hmarks : ['{', '}', '[', ']', ':', ',', '<', '>', '|', '"'].all
        (fun d => !d.isDigit) = true := by decide
    have hnot := List.all_eq_true.1 hmarks c hd
    rw [h] at hnot
    cases hnot
  unfold isNameChar
  simp only [hspace, Bool.not_false, Bool.true_and, Bool.not_eq_true', List.contains_eq_mem,
    decide_eq_false_iff_not]
  exact fun hmem => hmark c hmem rfl

theorem natOf_eq_ofDigitChars {digits : List Char} (h : ∀ c ∈ digits, c.isDigit = true) :
    natOf digits = Nat.ofDigitChars 10 digits 0 := by
  have hfold : ∀ n : Nat, digits.foldl (fun n c => 10 * n + (digitValue c).getD 0) n
      = digits.foldl (fun n c => 10 * n + (c.toNat - '0'.toNat)) n := by
    induction digits with
    | nil => exact fun n => rfl
    | cons c digits ih =>
      intro n
      rw [List.foldl_cons, List.foldl_cons, digitValue_of_isDigit (h c List.mem_cons_self)]
      exact ih (fun d hd => h d (List.mem_cons_of_mem _ hd)) _
  rw [natOf, Nat.ofDigitChars_eq_foldl, hfold]

theorem isDigit_toDigits (k : Nat) : ∀ c ∈ Nat.toDigits 10 k, c.isDigit = true :=
  fun _ hc => Nat.isDigit_of_mem_toDigits (by decide) (by decide) hc

theorem unsigned_of_isDigit {cs : List Char} (h : c.isDigit = true) :
    unsigned (c :: cs) = c :: cs := by
  unfold unsigned
  split
  · next heq =>
      obtain ⟨rfl, -⟩ := List.cons.inj heq
      exact absurd h (by decide)
  · rfl

theorem unsigned_toDigits (k : Nat) : unsigned (Nat.toDigits 10 k) = Nat.toDigits 10 k := by
  obtain ⟨c, cs, hcs⟩ := List.exists_cons_of_ne_nil (Nat.toDigits_ne_nil (b := 10) (n := k))
  rw [hcs]
  exact unsigned_of_isDigit (isDigit_toDigits k c (hcs ▸ List.mem_cons_self))

theorem toString_int_cases (n : Int) : unsigned (toString n).toList = Nat.toDigits 10 n.natAbs
      ∧ ((toString n).toList.head? = some '-' ↔ n < 0) := by
  rw [toList_toString_int]
  split_ifs with hsign
  · obtain ⟨c, cs, hcs⟩ := List.exists_cons_of_ne_nil (Nat.toDigits_ne_nil (b := 10) (n := n.natAbs))
    have hc := isDigit_toDigits n.natAbs c (hcs ▸ List.mem_cons_self)
    have hne : c ≠ '-' := by
      rintro rfl
      exact absurd hc (by decide)
    refine ⟨unsigned_toDigits _, ?_⟩
    rw [List.nil_append, hcs]
    simp only [List.head?_cons, Option.some.injEq, hne, false_iff, not_lt]
    exact hsign
  · exact ⟨rfl, by simpa using hsign⟩

theorem coerceScalar_number (h : ∀ c ∈ w.head?, c.isDigit = true ∨ c = '-') :
    coerceScalar floatOf w = if isInteger w then (intOf w).map .int
      else if isDecimalFraction w then .ok (.float (floatOf w)) else .ok (.str (String.ofList w)) := by
  have hword : ∀ word : List Char, word.head?.any (fun c => !c.isDigit && c ≠ '-') = true →
      w ≠ word := by
    rintro word hword rfl
    obtain ⟨c, hc, hnot⟩ := (Option.any_eq_true _ _).1 hword
    simp only [Bool.and_eq_true, Bool.not_eq_true', decide_eq_true_eq] at hnot
    rcases h c hc with hdigit | hdash
    · rw [hdigit] at hnot
      cases hnot.1
    · exact hnot.2 hdash
  have hnull : ¬ (w = "null".toList || w = "None".toList) = true := by
    simp only [Bool.or_eq_true, decide_eq_true_eq]
    rintro (h | h)
    · exact hword _ (by decide) h
    · exact hword _ (by decide) h
  rw [coerceScalar, if_neg (hword _ (by decide)), if_neg (hword _ (by decide)), if_neg hnull]

theorem coerceScalar_int (n : Int) : coerceScalar floatOf (toString n).toList
      = if maxStrDigits < (Nat.toDigits 10 n.natAbs).length then
          .error "Exceeds the limit (4300 digits) for integer string conversion"
        else .ok (.int n) := by
  obtain ⟨hunsigned, hsign⟩ := toString_int_cases n
  have hhead : ∀ c ∈ (toString n).toList.head?, c.isDigit = true ∨ c = '-' := by
    intro c hc
    exact mem_toString_int (List.mem_of_mem_head? hc)
  have hint : isInteger (toString n).toList = true := by
    rw [isInteger, hunsigned]
    simp only [Bool.and_eq_true, decide_eq_true_eq]
    exact ⟨Nat.toDigits_ne_nil, List.all_eq_true.2 (fun c hc =>
      isDecimal_of_isDigit (isDigit_toDigits _ c hc))⟩
  have hnat : natOf (Nat.toDigits 10 n.natAbs) = n.natAbs := by
    rw [natOf_eq_ofDigitChars (isDigit_toDigits _), Nat.ofDigitChars_ten_toDigits]
  rw [coerceScalar_number hhead, if_pos hint, intOf, hunsigned, hnat]
  split_ifs with hlong hneg
  · rfl
  · have hneg := hsign.1 hneg
    simp only [Except.map, Except.ok.injEq, Value.int.injEq]
    omega
  · have hpos : ¬ n < 0 := fun h => hneg (hsign.2 h)
    simp only [Except.map, Except.ok.injEq, Value.int.injEq]
    omega

/-- The text that `repr` writes of a finite float. -/
structure IsFloatRepr (letters : List Char) : Prop where
  parts : ∃ sign digits fraction exponent, letters = sign ++ (digits ++ (fraction ++ exponent))
    ∧ (sign = [] ∨ sign = ['-']) ∧ digits ≠ [] ∧ (∀ c ∈ digits, c.isDigit = true)
    ∧ (fraction = [] ∨ ∃ ds, fraction = '.' :: ds ∧ ds ≠ [] ∧ ∀ c ∈ ds, c.isDigit = true)
    ∧ (exponent = [] ∨ ∃ plus ds, exponent = 'e' :: plus :: ds ∧ (plus = '+' ∨ plus = '-')
      ∧ ds ≠ [] ∧ ∀ c ∈ ds, c.isDigit = true)

theorem dropWhile_digits {digits rest : List Char} (h : ∀ c ∈ digits, c.isDigit = true)
    (hrest : ∀ c ∈ rest.head?, isDecimal c = false) : (digits ++ rest).takeWhile isDecimal = digits
      ∧ (digits ++ rest).dropWhile isDecimal = rest := by
  induction digits with
  | nil =>
    cases rest with
    | nil => exact ⟨rfl, rfl⟩
    | cons c rest =>
      have hc := hrest c rfl
      simp [hc]
  | cons c digits ih =>
    have hc := isDecimal_of_isDigit (h c List.mem_cons_self)
    obtain ⟨htake, hdrop⟩ := ih (fun d hd => h d (List.mem_cons_of_mem _ hd))
    simp [hc, htake, hdrop]

theorem IsFloatRepr.recognized {literal : FloatLiteral} (h : IsFloatRepr literal.letters) :
    isInteger literal.letters = false
      ∧ isDecimalFraction literal.letters = literal.letters.contains '.' := by
  obtain ⟨sign, digits, fraction, exponent, hletters, hsign, hne, hdigits, hfraction, hexponent⟩ := h.parts
  have hexp : isExponent exponent = true := by
    rcases hexponent with rfl | ⟨plus, ds, rfl, hplus, hds, hall⟩
    · rfl
    · have hdecimal : ds.all isDecimal = true :=
        List.all_eq_true.2 (fun c hc => isDecimal_of_isDigit (hall c hc))
      rcases hplus with rfl | rfl <;> simp [isExponent, hds, hdecimal]
  have hunsigned : unsigned literal.letters = digits ++ (fraction ++ exponent) := by
    rw [hletters]
    rcases hsign with rfl | rfl
    · obtain ⟨c, cs, rfl⟩ := List.exists_cons_of_ne_nil hne
      exact unsigned_of_isDigit (hdigits c List.mem_cons_self)
    · rfl
  have hnotE : isDecimal 'e' = false := by decide
  have hnotPoint : isDecimal '.' = false := by decide
  have hbehind : ∀ c ∈ exponent.head?, isDecimal c = false := by
    rcases hexponent with rfl | ⟨plus, ds, rfl, -⟩
    · simp
    · simpa using hnotE
  have hsignPoint : ¬ '.' ∈ sign := by rcases hsign with rfl | rfl <;> simp
  have hdigitsPoint : ∀ ds : List Char, (∀ c ∈ ds, c.isDigit = true) → ¬ '.' ∈ ds := by
    intro ds hds hmem
    exact absurd (hds '.' hmem) (by decide)
  have hexponentPoint : ¬ '.' ∈ exponent := by
    rcases hexponent with rfl | ⟨plus, ds, rfl, hplus, -, hall⟩
    · simp
    · have hds := hdigitsPoint ds hall
      rcases hplus with rfl | rfl <;> simp [hds]
  rcases hfraction with rfl | ⟨ds, rfl, hds, hall⟩
  · -- without a point there is an exponent, since a float is no integer
    rw [List.nil_append] at hunsigned hletters
    obtain ⟨plus, es, rfl⟩ : ∃ plus es, exponent = 'e' :: plus :: es := by
      rcases hexponent with rfl | ⟨plus, es, rfl, -⟩
      · have hmarked := literal.float
        rw [List.any_eq_true] at hmarked
        obtain ⟨c, hc, hmark⟩ := hmarked
        have hmark : c ∈ ['.', 'e', 'N', 'I'] := of_decide_eq_true hmark
        rw [hletters, List.append_nil, List.mem_append] at hc
        rcases hc with hc | hc
        · rcases hsign with rfl | rfl
          · cases hc
          · rw [List.mem_singleton.1 hc] at hmark
            exact absurd hmark (by decide)
        · have hdigit := hdigits c hc
          have hmarks : ['.', 'e', 'N', 'I'].all (fun c => !c.isDigit) = true := by decide
          have hnot := List.all_eq_true.1 hmarks c hmark
          rw [hdigit] at hnot
          cases hnot
      · exact ⟨plus, es, rfl⟩
    obtain ⟨-, hdrop⟩ := dropWhile_digits hdigits hbehind
    constructor
    · rw [isInteger, hunsigned, List.all_append]
      simp [hnotE]
    · have hpoint : ¬ '.' ∈ literal.letters := by
        rw [hletters]
        simp only [List.mem_append, not_or]
        exact ⟨hsignPoint, hdigitsPoint digits hdigits, hexponentPoint⟩
      rw [isDecimalFraction, hunsigned, hdrop]
      simpa using hpoint
  · have hstop : ∀ c ∈ ('.' :: ds ++ exponent).head?, isDecimal c = false := by
      simpa using hnotPoint
    obtain ⟨-, hdrop⟩ := dropWhile_digits hdigits hstop
    obtain ⟨htake', hdrop'⟩ := dropWhile_digits hall hbehind
    constructor
    · rw [isInteger, hunsigned, List.all_append]
      simp [hnotPoint]
    · have hpoint : '.' ∈ literal.letters := by
        rw [hletters]
        simp
      rw [isDecimalFraction, hunsigned, hdrop]
      simp only [List.cons_append, htake', hdrop', hexp, Bool.and_true]
      simp [hpoint, hds]

theorem coerceScalar_float {literal : FloatLiteral} (h : IsFloatRepr literal.letters) :
    coerceScalar floatOf literal.letters = .ok (if literal.letters.contains '.' then
      .float (floatOf literal.letters) else .str (String.ofList literal.letters)) := by
  obtain ⟨hint, hfraction⟩ := h.recognized
  obtain ⟨sign, digits, fraction, exponent, hletters, hsign, hne, hdigits, -⟩ := h.parts
  have hhead : ∀ c ∈ literal.letters.head?, c.isDigit = true ∨ c = '-' := by
    obtain ⟨c, cs, rfl⟩ := List.exists_cons_of_ne_nil hne
    rw [hletters]
    rcases hsign with rfl | rfl
    · simpa using Or.inl (hdigits c List.mem_cons_self)
    · simp
  rw [coerceScalar_number hhead, hint, hfraction]
  split_ifs <;> simp_all

theorem IsFloatRepr.isWord {letters : List Char} (h : IsFloatRepr letters) : IsWord letters := by
  obtain ⟨sign, digits, fraction, exponent, rfl, hsign, -, hdigits, hfraction, hexponent⟩ := h.parts
  have hmarks : ['-', '+', '.', 'e'].all isNameChar = true := by decide
  have hmark : ∀ c ∈ ['-', '+', '.', 'e'], isNameChar c = true := List.all_eq_true.1 hmarks
  intro c hc
  simp only [List.mem_append] at hc
  rcases hc with hc | hc | hc | hc
  · rcases hsign with rfl | rfl
    · cases hc
    · rw [List.mem_singleton.1 hc]
      exact hmark '-' (by simp)
  · exact isNameChar_of_isDigit (hdigits c hc)
  · rcases hfraction with rfl | ⟨ds, rfl, -, hds⟩
    · cases hc
    · rcases List.mem_cons.1 hc with rfl | hc
      · exact hmark '.' (by simp)
      · exact isNameChar_of_isDigit (hds c hc)
  · rcases hexponent with rfl | ⟨plus, ds, rfl, hplus, -, hds⟩
    · cases hc
    · rcases List.mem_cons.1 hc with rfl | hc
      · exact hmark 'e' (by simp)
      · rcases List.mem_cons.1 hc with rfl | hc
        · rcases hplus with rfl | rfl
          · exact hmark '+' (by simp)
          · exact hmark '-' (by simp)
        · exact isNameChar_of_isDigit (hds c hc)

theorem isWord_int (n : Int) : IsWord (toString n).toList := by
  intro c hc
  rcases mem_toString_int hc with hdigit | rfl
  · exact isNameChar_of_isDigit hdigit
  · decide

/-! ## Values -/

mutual

def Everywhere (p : Value → Prop) : Value → Prop
  | .list xs => p (.list xs) ∧ EverywhereElements p xs
  | .dict kvs => p (.dict kvs) ∧ EverywhereFields p kvs
  | v => p v

def EverywhereElements (p : Value → Prop) : List Value → Prop
  | [] => True
  | x :: xs => Everywhere p x ∧ EverywhereElements p xs

def EverywhereFields (p : Value → Prop) : List (String × Value) → Prop
  | [] => True
  | (_, x) :: kvs => Everywhere p x ∧ EverywhereFields p kvs

end

variable {p : Value → Prop}

theorem everywhereElements_iff {xs : List Value} :
    EverywhereElements p xs ↔ ∀ x ∈ xs, Everywhere p x := by
  induction xs with
  | nil => simp [EverywhereElements]
  | cons x xs ih => rw [EverywhereElements, ih, List.forall_mem_cons]

theorem everywhereFields_iff {kvs : List (String × Value)} :
    EverywhereFields p kvs ↔ ∀ kv ∈ kvs, Everywhere p kv.2 := by
  induction kvs with
  | nil => simp [EverywhereFields]
  | cons kv kvs ih => rw [EverywhereFields, ih, List.forall_mem_cons]

theorem everywhere_list {xs : List Value} :
    Everywhere p (.list xs) ↔ p (.list xs) ∧ ∀ x ∈ xs, Everywhere p x := by
  rw [Everywhere, everywhereElements_iff]

theorem everywhere_dict {kvs : List (String × Value)} :
    Everywhere p (.dict kvs) ↔ p (.dict kvs) ∧ ∀ kv ∈ kvs, Everywhere p kv.2 := by
  rw [Everywhere, everywhereFields_iff]

theorem of_everywhere {v : Value} (h : Everywhere p v) : p v := by
  cases v with
  | list xs => exact (everywhere_list.1 h).1
  | dict kvs => exact (everywhere_dict.1 h).1
  | _ => exact h

/-- A JSON value whose texts are free of the delimiters, whose keys are words, and whose floats are
    read back from their `repr`. -/
def IsJson (floatOf : List Char → FloatLiteral) : Value → Prop
  | .str s => ¬ strDelimiter <:+: s.toList ∧ ¬ closer <:+: s.toList
  | .float literal => IsFloatRepr literal.letters ∧ floatOf literal.letters = literal
  | .dict kvs => (kvs.map Prod.fst).Nodup ∧ ∀ kv ∈ kvs, IsWord kv.1.toList
  | .object _ => False
  | _ => True

def Fits : Value → Prop
  | .int n => (Nat.toDigits 10 n.natAbs).length ≤ maxStrDigits
  | _ => True

/-- The `repr` of a float has a point. -/
def Pointed : Value → Prop
  | .float literal => '.' ∈ literal.letters
  | _ => True

def sortItems (kvs : List (String × Value)) : List (String × Value) :=
  kvs.insertionSort (fun a b => a.1 ≤ b.1)

mutual

def readValue : Value → Value
  | .float literal =>
    if literal.letters.contains '.' then .float literal else .str (String.ofList literal.letters)
  | .list xs => .list (readElements xs)
  | .dict kvs => .dict (sortItems (readFields kvs))
  | v => v

def readElements : List Value → List Value
  | [] => []
  | x :: xs => readValue x :: readElements xs

def readFields : List (String × Value) → List (String × Value)
  | [] => []
  | (k, x) :: kvs => (k, readValue x) :: readFields kvs

end

theorem readElements_eq_map (xs : List Value) : readElements xs = xs.map readValue := by
  induction xs with
  | nil => rfl
  | cons x xs ih => rw [readElements, List.map_cons, ih]

variable (kvs : List (String × Value))

theorem readFields_eq_map : readFields kvs = kvs.map (fun kv => (kv.1, readValue kv.2)) := by
  induction kvs with
  | nil => rfl
  | cons kv kvs ih => rw [readFields, List.map_cons, ih]

theorem fmtElements_eq_map (escapeKeys : Bool) (xs : List Value) :
    fmtElements escapeKeys xs = xs.map (fmtArg escapeKeys) := by
  induction xs with
  | nil => rfl
  | cons x xs ih => rw [fmtElements, List.map_cons, ih]

theorem fmtFields_eq_map (escapeKeys : Bool) (kvs : List (String × Value)) :
    fmtFields escapeKeys kvs = kvs.map (fun kv => (kv.1, fmtArg escapeKeys kv.2)) := by
  induction kvs with
  | nil => rfl
  | cons kv kvs ih => rw [fmtFields, List.map_cons, ih]

def itemText (kv : String × Value) : List Char := kv.1.toList ++ ':' :: fmtArg false kv.2

def bodyText : List Char :=
  [','].intercalate ((sortItems kvs).map itemText)

theorem map_sortItems {α : Type} (g : Value → α) (kvs : List (String × Value)) :
    (sortItems kvs).map (fun kv => (kv.1, g kv.2))
      = (kvs.map (fun kv => (kv.1, g kv.2))).insertionSort (fun a b => a.1 ≤ b.1) :=
  List.map_insertionSort _ _ _ _ (fun _ _ _ _ => Iff.rfl)

theorem sortItems_readFields :
    sortItems (readFields kvs) = (sortItems kvs).map (fun kv => (kv.1, readValue kv.2)) := by
  rw [readFields_eq_map, map_sortItems]
  rfl

theorem parts_eq : ((fmtFields false kvs).insertionSort (fun a b => a.1 ≤ b.1)).map
      (fun part => part.1.toList ++ ':' :: part.2) = (sortItems kvs).map itemText := by
  rw [fmtFields_eq_map, ← map_sortItems, List.map_map]
  rfl

theorem fmtArg_dict : fmtArg false (.dict kvs) = '{' :: (bodyText kvs ++ ['}']) := by
  rw [bodyText, ← parts_eq, fmtArg]
  rfl

theorem fmtArg_list (xs : List Value) :
    fmtArg false (.list xs) = '[' :: ([','].intercalate (xs.map (fmtArg false)) ++ [']']) := by
  rw [fmtArg, fmtElements_eq_map]

theorem mem_sortItems {kvs : List (String × Value)} {kv : String × Value} :
    kv ∈ sortItems kvs ↔ kv ∈ kvs := List.mem_insertionSort _

theorem renderCall_eq (name : String) (args : List (String × Value)) :
    renderCall name args = opener ++ (name.toList ++ '{' :: (bodyText args ++ closer)) := by
  rw [renderCall, parts_eq]
  rfl

theorem floatRepr_of_isFloatRepr {literal : FloatLiteral} (h : IsFloatRepr literal.letters) :
    (Value.floatRepr literal).toList = literal.letters := by
  obtain ⟨sign, digits, fraction, exponent, hletters, hsign, hne, hdigits, -⟩ := h.parts
  obtain ⟨c, cs, rfl⟩ := List.exists_cons_of_ne_nil hne
  have hdigit := hdigits c List.mem_cons_self
  have hword : ∀ word : List Char, (unsigned word).head?.any (fun c => !c.isDigit) = true →
      literal.letters ≠ word := by
    rintro word hword heq
    have hhead : (unsigned word).head? = some c := by
      rw [← heq, hletters]
      rcases hsign with rfl | rfl
      · rw [List.nil_append, List.cons_append, unsigned_of_isDigit hdigit]
        rfl
      · rfl
    rw [hhead] at hword
    simp [hdigit] at hword
  have hnan : String.ofList literal.letters ≠ "NaN" := fun heq =>
    hword "NaN".toList (by decide) (by rw [← heq, String.toList_ofList])
  have hinf : String.ofList literal.letters ≠ "Infinity" := fun heq =>
    hword "Infinity".toList (by decide) (by rw [← heq, String.toList_ofList])
  have hneg : String.ofList literal.letters ≠ "-Infinity" := fun heq =>
    hword "-Infinity".toList (by decide) (by rw [← heq, String.toList_ofList])
  rw [Value.floatRepr]
  simp only [if_neg hnan, if_neg hinf, if_neg hneg, String.toList_ofList]

variable {v : Value}

theorem fmtArg_word (h : IsJson floatOf v) :
    (∃ s, v = .str s) ∨ (∃ xs, v = .list xs) ∨ (∃ kvs, v = .dict kvs)
      ∨ fmtArg false v ≠ [] ∧ IsWord (fmtArg false v) := by
  have hwords : ["None".toList, "true".toList, "false".toList].all (fun w => w.all isNameChar)
      = true := by decide
  have hword : ∀ w ∈ ["None".toList, "true".toList, "false".toList], IsWord w := fun w hw =>
    List.all_eq_true.1 (List.all_eq_true.1 hwords w hw)
  cases v with
  | str s => exact Or.inl ⟨s, rfl⟩
  | list xs => exact Or.inr (Or.inl ⟨xs, rfl⟩)
  | dict kvs => exact Or.inr (Or.inr (Or.inl ⟨kvs, rfl⟩))
  | object text => exact h.elim
  | null => exact Or.inr (Or.inr (Or.inr ⟨by simp [fmtArg], hword _ (by simp [fmtArg])⟩))
  | bool b =>
    refine Or.inr (Or.inr (Or.inr ?_))
    cases b
    · exact ⟨by simp [fmtArg], hword _ (by simp [fmtArg])⟩
    · exact ⟨by simp [fmtArg], hword _ (by simp [fmtArg])⟩
  | int n =>
    refine Or.inr (Or.inr (Or.inr ?_))
    rw [fmtArg]
    refine ⟨?_, isWord_int n⟩
    rw [toList_toString_int]
    simp [Nat.toDigits_ne_nil]
  | float literal =>
    refine Or.inr (Or.inr (Or.inr ?_))
    rw [fmtArg, floatRepr_of_isFloatRepr h.1]
    exact ⟨literal.ne_nil, h.1.isWord⟩

/-- No text of a value begins or ends with white space, nor begins with a closing bracket. -/
theorem fmtArg_ends (h : IsJson floatOf v) :
    (∃ c l, fmtArg false v = c :: l ∧ isPySpace c = false ∧ c ≠ ']')
      ∧ ∃ l d, fmtArg false v = l ++ [d] ∧ isPySpace d = false := by
  have hdelimiter : strDelimiter = '<' :: ['|', '"', '|', '>'] := by decide
  rcases fmtArg_word h with ⟨s, rfl⟩ | ⟨xs, rfl⟩ | ⟨kvs, rfl⟩ | ⟨hne, hword⟩
  · rw [fmtArg]
    constructor
    · exact ⟨'<', _, by rw [hdelimiter]; rfl, by decide, by decide⟩
    · exact ⟨strDelimiter ++ (s.toList ++ ['<', '|', '"', '|']), '>',
        by rw [hdelimiter]; simp, by decide⟩
  · rw [fmtArg_list]
    exact ⟨⟨'[', _, rfl, by decide, by decide⟩, '[' :: _, ']', rfl, by decide⟩
  · rw [fmtArg_dict]
    exact ⟨⟨'{', _, rfl, by decide, by decide⟩, '{' :: _, '}', rfl, by decide⟩
  · constructor
    · obtain ⟨c, l, hl⟩ := List.exists_cons_of_ne_nil hne
      have hc := hword c (hl ▸ List.mem_cons_self)
      exact ⟨c, l, hl, isPySpace_of_isNameChar hc, (ne_of_isNameChar hc).2.2.2.1⟩
    · obtain ⟨l, d, hl⟩ := (List.eq_nil_or_concat (fmtArg false v)).resolve_left hne
      rw [List.concat_eq_append] at hl
      have hd := hword d (by rw [hl]; simp)
      exact ⟨l, d, hl, isPySpace_of_isNameChar hd⟩

/-! ## Values are read back -/

/-- The text of a value is read as what the parser makes of the value, when its integers fit, and
    raises otherwise. -/
structure ReadBack (floatOf : List Char → FloatLiteral) (n : Nat) (v : Value)
    (r : Except String Value) : Prop where
  reads : ∀ rest, Delimited rest →
    parseValue floatOf n (fmtArg false v ++ rest) = some (r.map fun v => (v, rest))
  fits : Everywhere Fits v → r = .ok (readValue v)
  raises : ¬ Everywhere Fits v → ∃ e, r = .error e

theorem ReadBack.mono {n m : Nat} {r : Except String Value}
    (h : ReadBack floatOf n v r) (hle : n ≤ m) : ReadBack floatOf m v r :=
  ⟨fun rest hrest => parseValue_extends hle _ _ (h.reads rest hrest), h.fits, h.raises⟩

section Collect

variable {σ α : Type} {add : σ → α → Value → σ} {result : α → Except String Value}

theorem collect_ok {read : α → Value} {as : List α} (h : ∀ a ∈ as, result a = .ok (read a))
    (acc : σ) : collect add result acc as = .ok (as.foldl (fun acc a => add acc a (read a)) acc) := by
  induction as generalizing acc with
  | nil => rfl
  | cons a as ih =>
    rw [collect, h a List.mem_cons_self]
    exact ih (fun b hb => h b (List.mem_cons_of_mem _ hb)) _

variable (add) in
theorem collect_error {as : List α} {a : α} (ha : a ∈ as) {e : String} (h : result a = .error e)
    (acc : σ) : ∃ e, collect add result acc as = .error e := by
  induction as generalizing acc with
  | nil => cases ha
  | cons b as ih =>
    rw [collect]
    rcases List.mem_cons.1 ha with rfl | ha
    · exact ⟨e, by rw [h]; rfl⟩
    · cases hb : result b with
      | error e' => exact ⟨e', rfl⟩
      | ok v => exact ih ha _

theorem foldl_concat (read : α → Value) (as : List α) (acc : List Value) :
    as.foldl (fun acc a => acc ++ [read a]) acc = acc ++ as.map read := by
  induction as generalizing acc with
  | nil => simp
  | cons a as ih => rw [List.foldl_cons, ih, List.map_cons, List.append_assoc, List.singleton_append]

end Collect

variable {v : Value}

theorem item_fmtArg (h : IsJson floatOf v) (rest : List Char) :
    Frame.array.item (fmtArg false v ++ rest) = some (fmtArg false v ++ rest) := by
  obtain ⟨⟨c, l, hl, hspace, hclose⟩, -⟩ := fmtArg_ends h
  have hskip : skipWs (c :: (l ++ rest)) = c :: (l ++ rest) :=
    skipWs_eq_of_head (notSpace_of_isPySpace hspace)
  rw [hl, List.cons_append]
  simp [Frame.item, Frame.Ends, Frame.close, hskip, hclose]

theorem item_itemText {kv : String × Value} (h : IsWord kv.1.toList) (rest : List Char) :
    Frame.object.item (itemText kv ++ rest) = some (fmtArg false kv.2 ++ rest)
      ∧ ∀ acc v, addItem acc (itemText kv ++ rest) v = acc.set kv.1 v := by
  have hcolon : ¬ [':'] <:+: kv.1.toList := by
    intro hwithin
    have hc := h ':' (hwithin.sublist.subset List.mem_cons_self)
    exact absurd hc (by decide)
  have hcut : cut [':'] (itemText kv ++ rest) = some (kv.1.toList, fmtArg false kv.2 ++ rest) := by
    have hform : itemText kv ++ rest = kv.1.toList ++ ([':'] ++ (fmtArg false kv.2 ++ rest)) := by
      simp [itemText]
    rw [hform]
    exact cut_append ⟨':', [], rfl, by simp⟩ hcolon _
  obtain ⟨c, l, hl, hc⟩ : ∃ c l, itemText kv ++ rest = c :: l ∧ (isNameChar c = true ∨ c = ':') := by
    unfold itemText
    cases hkey : kv.1.toList with
    | nil => exact ⟨':', _, rfl, Or.inr rfl⟩
    | cons c l => exact ⟨c, _, rfl, Or.inl (h c (hkey ▸ List.mem_cons_self))⟩
  have hopen : isPySpace c = false ∧ c ≠ '}' := by
    rcases hc with hc | rfl
    · exact ⟨isPySpace_of_isNameChar hc, (ne_of_isNameChar hc).2.1⟩
    · exact ⟨by decide, by decide⟩
  have hskip : skipWs (itemText kv ++ rest) = itemText kv ++ rest := by
    rw [hl]
    exact skipWs_eq_of_head (notSpace_of_isPySpace hopen.1)
  constructor
  · have hends : ¬ Frame.object.Ends (itemText kv ++ rest) := by
      rw [Frame.Ends, hskip, hl]
      simp [Frame.close, hopen.2]
    rw [Frame.item, if_neg hends]
    show (cut [':'] (skipWs (itemText kv ++ rest))).map Prod.snd = _
    rw [hskip, hcut]
    rfl
  · intro acc v
    have hkey : keyAt (itemText kv ++ rest) = kv.1.toList := by
      rw [keyAt, hskip, hcut]
      rfl
    rw [addItem, hkey, h.pyStrip, String.ofList_toList]

theorem readBack_list {n : Nat} {xs : List Value} (hjson : ∀ x ∈ xs, IsJson floatOf x)
    {result : Value → Except String Value} (h : ∀ x ∈ xs, ReadBack floatOf n x (result x)) :
    ∃ m r, ReadBack floatOf m (.list xs) r := by
  have hloop : ∀ rest, loop .array addElement (parseValue floatOf n) (xs.length + 1) []
      ([','].intercalate (xs.map (fmtArg false)) ++ ']' :: rest)
        = some ((collect (fun acc _ v => acc ++ [v]) result [] xs).map fun acc => (acc, rest)) := by
    intro rest
    refine loop_parts (f := .array) (fun x hx rest hrest => ⟨⟨_, item_fmtArg (hjson x hx) rest, ?_⟩,
      fun acc v => rfl⟩) [] rest
    exact (h x hx).reads rest hrest
  refine ⟨max n (xs.length + 1) + 1,
    (collect (fun acc _ v => acc ++ [v]) result [] xs).map .list, ?_, ?_, ?_⟩
  · intro rest _
    have hskip : skipWs (fmtArg false (.list xs) ++ rest)
        = '[' :: ([','].intercalate (xs.map (fmtArg false)) ++ ']' :: rest) := by
      rw [fmtArg_list, List.cons_append, List.append_assoc]
      exact skipWs_eq_of_head (by decide)
    have hmax := loop_extends (fun s => parseValue_extends (Nat.le_max_left n (xs.length + 1)) s)
      (Nat.le_max_right n (xs.length + 1)) [] _ _ (hloop rest)
    rw [parseValue_array hskip, hmax]
    cases collect (fun acc _ v => acc ++ [v]) result [] xs <;> rfl
  · intro hfits
    have hall := (everywhere_list.1 hfits).2
    rw [collect_ok (fun x hx => (h x hx).fits (hall x hx)), foldl_concat, readValue,
      readElements_eq_map]
    rfl
  · intro hnot
    rw [everywhere_list] at hnot
    push Not at hnot
    obtain ⟨x, hx, hbad⟩ := hnot trivial
    obtain ⟨e, he⟩ := (h x hx).raises hbad
    obtain ⟨e', he'⟩ := collect_error (fun acc _ v => acc ++ [v]) hx he ([] : List Value)
    exact ⟨e', by rw [he']; rfl⟩

theorem readBack_dict {n : Nat} {kvs : List (String × Value)} (hjson : IsJson floatOf (.dict kvs))
    {result : String × Value → Except String Value}
    (h : ∀ kv ∈ kvs, ReadBack floatOf n kv.2 (result kv)) :
    ∃ m r, ReadBack floatOf m (.dict kvs) r := by
  let add : Dict Value → String × Value → Value → Dict Value := fun acc kv v => acc.set kv.1 v
  have hsorted : ∀ kv ∈ sortItems kvs, ReadBack floatOf n kv.2 (result kv) := fun kv hkv =>
    h kv (mem_sortItems.1 hkv)
  have hloop : ∀ rest, loop .object addItem (parseValue floatOf n) ((sortItems kvs).length + 1)
      empty (bodyText kvs ++ '}' :: rest)
        = some ((collect add result empty (sortItems kvs)).map
          fun acc => (acc, rest)) := by
    intro rest
    refine loop_parts (f := .object) (fun kv hkv rest hrest => ?_) empty rest
    obtain ⟨hitem, hadd⟩ := item_itemText (hjson.2 kv (mem_sortItems.1 hkv)) rest
    exact ⟨⟨_, hitem, (hsorted kv hkv).reads rest hrest⟩, hadd⟩
  refine ⟨max n ((sortItems kvs).length + 1) + 1,
    (collect add result empty (sortItems kvs)).map fun obj => .dict obj.items, ?_, ?_, ?_⟩
  · intro rest _
    have hskip : skipWs (fmtArg false (.dict kvs) ++ rest) = '{' :: (bodyText kvs ++ '}' :: rest) := by
      rw [fmtArg_dict, List.cons_append, List.append_assoc]
      exact skipWs_eq_of_head (by decide)
    have hmax := loop_extends
      (fun s => parseValue_extends (Nat.le_max_left n ((sortItems kvs).length + 1)) s)
      (Nat.le_max_right n ((sortItems kvs).length + 1)) empty _ _ (hloop rest)
    rw [parseValue_object hskip, hmax]
    cases collect add result empty (sortItems kvs) <;> rfl
  · intro hfits
    have hall := (everywhere_dict.1 hfits).2
    have hkeys : ((sortItems kvs).map Prod.fst).Nodup :=
      ((List.perm_insertionSort _ kvs).map Prod.fst).nodup_iff.2 hjson.1
    have hput : ∀ (l : List (String × Value)) (acc : Dict Value),
        l.foldl (fun acc kv => add acc kv (readValue kv.2)) acc
          = (l.map (fun kv => (kv.1, readValue kv.2))).foldl put acc := by
      intro l acc
      rw [List.foldl_map]
      rfl
    have hitems := KeyedList.items_foldl_put ((sortItems kvs).map (fun kv => (kv.1, readValue kv.2)))
      (empty : Dict Value) (by rw [List.map_map]; exact hkeys) (by simp)
    rw [collect_ok (fun kv hkv => (hsorted kv hkv).fits (hall kv (mem_sortItems.1 hkv))), hput,
      readValue, sortItems_readFields]
    show Except.ok (Value.dict _) = _
    rw [hitems]
    rfl
  · intro hnot
    rw [everywhere_dict] at hnot
    push Not at hnot
    obtain ⟨kv, hkv, hbad⟩ := hnot trivial
    obtain ⟨e, he⟩ := (h kv hkv).raises hbad
    obtain ⟨e', he'⟩ := collect_error add (mem_sortItems.2 hkv) he empty
    exact ⟨e', by rw [he']; rfl⟩

theorem readBack_word (hne : fmtArg false v ≠ []) (hword : IsWord (fmtArg false v))
    (hfits : Everywhere Fits v → coerceScalar floatOf (fmtArg false v) = .ok (readValue v))
    (hraises : ¬ Everywhere Fits v → ∃ e, coerceScalar floatOf (fmtArg false v) = .error e) :
    ReadBack floatOf 1 v (coerceScalar floatOf (fmtArg false v)) :=
  ⟨fun _ hrest => parseValue_word hne hword hrest 0, hfits, hraises⟩

theorem readBack_of_not_composite (h : IsJson floatOf v) (hlist : ∀ xs, v ≠ .list xs)
    (hdict : ∀ kvs, v ≠ .dict kvs) : ∃ m r, ReadBack floatOf m v r := by
  rcases fmtArg_word h with ⟨s, rfl⟩ | ⟨xs, rfl⟩ | ⟨kvs, rfl⟩ | ⟨hne, hword⟩
  · refine ⟨1, .ok (.str s), ?_, fun _ => rfl, fun hnot => absurd trivial hnot⟩
    intro rest _
    rw [fmtArg, parseValue_quoted h.1, String.ofList_toList]
    rfl
  · exact absurd rfl (hlist xs)
  · exact absurd rfl (hdict kvs)
  refine ⟨1, _, readBack_word hne hword ?_ ?_⟩
  · intro hfits
    cases v with
    | null => rfl
    | bool b => cases b <;> rfl
    | int n =>
      have hshort : ¬ maxStrDigits < (Nat.toDigits 10 n.natAbs).length := not_lt.2 hfits
      rw [fmtArg, coerceScalar_int, if_neg hshort]
      rfl
    | float literal =>
      rw [fmtArg, floatRepr_of_isFloatRepr h.1, coerceScalar_float h.1, h.2]
      rfl
    | str s =>
      have hmem : '<' ∈ strDelimiter := by decide
      rw [fmtArg] at hword
      exact absurd (hword '<' (List.mem_append_left _ hmem)) (by decide)
    | list xs => exact absurd rfl (hlist xs)
    | dict kvs => exact absurd rfl (hdict kvs)
    | object text => exact h.elim
  · intro hnot
    cases v with
    | int n =>
      have hlong : maxStrDigits < (Nat.toDigits 10 n.natAbs).length := not_le.1 hnot
      rw [fmtArg, coerceScalar_int, if_pos hlong]
      exact ⟨_, rfl⟩
    | list xs => exact absurd rfl (hlist xs)
    | dict kvs => exact absurd rfl (hdict kvs)
    | _ => exact absurd trivial hnot

mutual

theorem exists_readBack : ∀ v, Everywhere (IsJson floatOf) v → ∃ n r, ReadBack floatOf n v r
  | .list xs, h => by
    obtain ⟨n, hn⟩ := exists_readBackElements xs (everywhere_list.1 h).2
    choose! result hresult using hn
    refine readBack_list (fun x hx => ?_) hresult
    exact of_everywhere ((everywhere_list.1 h).2 x hx)
  | .dict kvs, h => by
    obtain ⟨n, hn⟩ := exists_readBackFields kvs (everywhere_dict.1 h).2
    choose! result hresult using hn
    exact readBack_dict (everywhere_dict.1 h).1 hresult
  | .null, h => readBack_of_not_composite h (by simp) (by simp)
  | .bool _, h => readBack_of_not_composite h (by simp) (by simp)
  | .int _, h => readBack_of_not_composite h (by simp) (by simp)
  | .float _, h => readBack_of_not_composite h (by simp) (by simp)
  | .str _, h => readBack_of_not_composite h (by simp) (by simp)
  | .object _, h => readBack_of_not_composite h (by simp) (by simp)

theorem exists_readBackElements : ∀ xs : List Value, (∀ x ∈ xs, Everywhere (IsJson floatOf) x) →
    ∃ n, ∀ x ∈ xs, ∃ r, ReadBack floatOf n x r
  | [], _ => ⟨0, by simp⟩
  | x :: xs, h => by
    obtain ⟨m, r, hr⟩ := exists_readBack x (h x List.mem_cons_self)
    obtain ⟨n, hn⟩ := exists_readBackElements xs (fun y hy => h y (List.mem_cons_of_mem _ hy))
    refine ⟨max m n, fun y hy => ?_⟩
    rcases List.mem_cons.1 hy with rfl | hy
    · exact ⟨r, hr.mono (Nat.le_max_left m n)⟩
    · obtain ⟨r', hr'⟩ := hn y hy
      exact ⟨r', hr'.mono (Nat.le_max_right m n)⟩

theorem exists_readBackFields : ∀ kvs : List (String × Value),
    (∀ kv ∈ kvs, Everywhere (IsJson floatOf) kv.2) → ∃ n, ∀ kv ∈ kvs, ∃ r, ReadBack floatOf n kv.2 r
  | [], _ => ⟨0, by simp⟩
  | (k, x) :: kvs, h => by
    obtain ⟨m, r, hr⟩ := exists_readBack x (h (k, x) List.mem_cons_self)
    obtain ⟨n, hn⟩ := exists_readBackFields kvs (fun y hy => h y (List.mem_cons_of_mem _ hy))
    refine ⟨max m n, fun y hy => ?_⟩
    rcases List.mem_cons.1 hy with rfl | hy
    · exact ⟨r, hr.mono (Nat.le_max_left m n)⟩
    · obtain ⟨r', hr'⟩ := hn y hy
      exact ⟨r', hr'.mono (Nat.le_max_right m n)⟩

end

end Himmy.Gemma
