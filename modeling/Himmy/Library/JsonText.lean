import Himmy.Library.PrefixCode

/-! # JSON texts

JSON data and its text, with the separators `", "` and `": "` (`text`) or with any gap after the comma
and the colon (`written`). Numbers and constants are words that
stand without quotes, and a string is written between quotes in a letter code that is a parameter.
When the code can be read back and never begins a word with a quote, the text says what the data was
(`text_injective`): the words are read up to the first letter that stands in none, the strings up to
their quote, and the rest from its first letter. -/

namespace JsonText

def isBare (c : Char) : Bool := c.isAlphanum || c = '+' || c = '-' || c = '.'

/-- A number or constant. -/
structure Bare where
  letters : List Char
  ne_nil : letters ≠ []
  bare : letters.all isBare = true

theorem Bare.isBare {w : Bare} {c : Char} (hc : c ∈ w.letters) : isBare c = true :=
  List.all_eq_true.1 w.bare c hc

theorem Bare.ext {w w' : Bare} (h : w.letters = w'.letters) : w = w' := by
  cases w
  cases w'
  cases h
  rfl

/-- JSON data. -/
inductive Data where
  | bare (w : Bare)
  | str (s : List Char)
  | arr (xs : List Data)
  | obj (kvs : List (List Char × Data))

variable (code : Char → List Char)

def quoted (s : List Char) : List Char := '"' :: (s.flatMap code ++ ['"'])

section Written

variable (gap : List Char)

mutual

/-- The text of the data, with a gap after each comma and colon. -/
def written : Data → List Char
  | .bare w => w.letters
  | .str s => quoted code s
  | .arr xs => '[' :: writtenElements [] xs
  | .obj kvs => '{' :: writtenFields [] kvs

def writtenElements (sep : List Char) : List Data → List Char
  | [] => [']']
  | x :: xs => sep ++ (written x ++ writtenElements (',' :: gap) xs)

def writtenFields (sep : List Char) : List (List Char × Data) → List Char
  | [] => ['}']
  | (k, x) :: kvs =>
    sep ++ (quoted code k ++ (':' :: (gap ++ (written x ++ writtenFields (',' :: gap) kvs))))

end

end Written

mutual

def text : Data → List Char
  | .bare w => w.letters
  | .str s => quoted code s
  | .arr xs => '[' :: elements [] xs
  | .obj kvs => '{' :: fields [] kvs

def elements (sep : List Char) : List Data → List Char
  | [] => [']']
  | x :: xs => sep ++ (text x ++ elements [',', ' '] xs)

def fields (sep : List Char) : List (List Char × Data) → List Char
  | [] => ['}']
  | (k, x) :: kvs => sep ++ (quoted code k ++ (':' :: ' ' :: (text x ++ fields [',', ' '] kvs)))

end

mutual

theorem text_eq_written : ∀ v, text code v = written code [' '] v
  | .bare w => by rw [text, written]
  | .str s => by rw [text, written]
  | .arr xs => by rw [text, written, elements_eq_written [] xs]
  | .obj kvs => by rw [text, written, fields_eq_written [] kvs]

theorem elements_eq_written (sep : List Char) :
    ∀ xs, elements code sep xs = writtenElements code [' '] sep xs
  | [] => by rw [elements, writtenElements]
  | x :: xs => by rw [elements, writtenElements, text_eq_written x, elements_eq_written _ xs]

theorem fields_eq_written (sep : List Char) :
    ∀ kvs, fields code sep kvs = writtenFields code [' '] sep kvs
  | [] => by rw [fields, writtenFields]
  | (k, x) :: kvs => by
    rw [fields, writtenFields, text_eq_written x, fields_eq_written _ kvs]
    rfl

end

variable {code} {gap : List Char}

/-! ## Reading a text back -/

theorem bare_ne {w : Bare} {c : Char} (hc : isBare c = false) (x y : List Char) :
    w.letters ++ x ≠ c :: y := by
  intro h
  cases hw : w.letters with
  | nil => exact w.ne_nil hw
  | cons d rest =>
    rw [hw, List.cons_append] at h
    have hd := Bare.isBare (w := w) (by rw [hw]; exact List.mem_cons_self)
    rw [(List.cons.inj h).1, hc] at hd
    cases hd

theorem quoted_inj (hcode : PrefixCode.Separates code) (hquote : PrefixCode.Avoids code ['"'])
    {s s' x y : List Char} (h : quoted code s ++ x = quoted code s' ++ y) : s = s' ∧ x = y := by
  rw [quoted, quoted, List.cons_append, List.cons_append] at h
  have htail := (List.cons.inj h).2
  rw [List.append_assoc, List.append_assoc] at htail
  exact PrefixCode.flatMap_marked hcode hquote htail

theorem written_ne_close {c : Char} (hc : c = ']' ∨ c = '}') (v : Data) (x y : List Char) :
    written code gap v ++ x ≠ c :: y := by
  intro h
  cases v with
  | bare w =>
    rw [written] at h
    refine bare_ne ?_ x y h
    rcases hc with rfl | rfl <;> decide
  | str s => rcases hc with rfl | rfl <;> simp [written, quoted] at h
  | arr xs => rcases hc with rfl | rfl <;> simp [written] at h
  | obj kvs => rcases hc with rfl | rfl <;> simp [written] at h

theorem leaves_writtenElements (xs : List Data) (x : List Char) :
    PrefixCode.Leaves (fun c => isBare c = true) (writtenElements code gap (',' :: gap) xs ++ x) := by
  cases xs with
  | nil => simp [writtenElements, isBare]
  | cons a xs => simp [writtenElements, isBare]

theorem leaves_writtenFields (kvs : List (List Char × Data)) (x : List Char) :
    PrefixCode.Leaves (fun c => isBare c = true) (writtenFields code gap (',' :: gap) kvs ++ x) := by
  cases kvs with
  | nil => simp [writtenFields, isBare]
  | cons kv kvs => simp [writtenFields, isBare]

mutual

theorem written_inj (hcode : PrefixCode.Separates code) (hquote : PrefixCode.Avoids code ['"']) :
    ∀ (v v' : Data) {x y : List Char}, PrefixCode.Leaves (fun c => isBare c = true) x →
      PrefixCode.Leaves (fun c => isBare c = true) y →
      written code gap v ++ x = written code gap v' ++ y → v = v' ∧ x = y
  | .bare w, v', x, y, hx, hy, h => by
    cases v' with
    | bare w' =>
      rw [written, written] at h
      obtain ⟨hletters, hxy⟩ := PrefixCode.append_inj_of_class (fun _ => Bare.isBare)
        (fun _ => Bare.isBare) hx hy h
      exact ⟨by rw [Bare.ext hletters], hxy⟩
    | str s => exact absurd h (by rw [written, written]; exact bare_ne (by decide) _ _)
    | arr xs => exact absurd h (by rw [written, written]; exact bare_ne (by decide) _ _)
    | obj kvs => exact absurd h (by rw [written, written]; exact bare_ne (by decide) _ _)
  | .str s, v', x, y, _, _, h => by
    cases v' with
    | bare w => exact absurd h.symm (by rw [written, written]; exact bare_ne (by decide) _ _)
    | str s' =>
      rw [written, written] at h
      obtain ⟨rfl, hxy⟩ := quoted_inj hcode hquote h
      exact ⟨rfl, hxy⟩
    | arr xs => simp [written, quoted] at h
    | obj kvs => simp [written, quoted] at h
  | .arr xs, v', x, y, _, _, h => by
    cases v' with
    | bare w => exact absurd h.symm (by rw [written, written]; exact bare_ne (by decide) _ _)
    | str s => simp [written, quoted] at h
    | arr xs' =>
      rw [written, written] at h
      obtain ⟨rfl, hxy⟩ := writtenElements_inj hcode hquote xs xs' (Or.inl rfl) (List.cons.inj h).2
      exact ⟨rfl, hxy⟩
    | obj kvs => simp [written] at h
  | .obj kvs, v', x, y, _, _, h => by
    cases v' with
    | bare w => exact absurd h.symm (by rw [written, written]; exact bare_ne (by decide) _ _)
    | str s => simp [written, quoted] at h
    | arr xs => simp [written] at h
    | obj kvs' =>
      rw [written, written] at h
      obtain ⟨rfl, hxy⟩ := writtenFields_inj hcode hquote kvs kvs' (Or.inl rfl) (List.cons.inj h).2
      exact ⟨rfl, hxy⟩

theorem writtenElements_inj (hcode : PrefixCode.Separates code) (hquote : PrefixCode.Avoids code ['"']) :
    ∀ (xs xs' : List Data) {sep x y : List Char}, (sep = [] ∨ sep = ',' :: gap) →
      writtenElements code gap sep xs ++ x = writtenElements code gap sep xs' ++ y → xs = xs' ∧ x = y
  | [], [], _, x, y, _, h => by
    rw [writtenElements] at h
    exact ⟨rfl, (List.cons.inj h).2⟩
  | [], b :: ys, sep, x, y, hsep, h => by
    rw [writtenElements, writtenElements] at h
    rcases hsep with rfl | rfl
    · rw [List.nil_append, List.append_assoc] at h
      exact absurd h.symm (written_ne_close (Or.inl rfl) b _ _)
    · simp at h
  | a :: xs, [], sep, x, y, hsep, h => by
    rw [writtenElements, writtenElements] at h
    rcases hsep with rfl | rfl
    · rw [List.nil_append, List.append_assoc] at h
      exact absurd h (written_ne_close (Or.inl rfl) a _ _)
    · simp at h
  | a :: xs, b :: ys, sep, x, y, _, h => by
    rw [writtenElements, writtenElements, List.append_assoc, List.append_assoc, List.append_assoc,
      List.append_assoc] at h
    obtain ⟨rfl, hrest⟩ := written_inj hcode hquote a b (leaves_writtenElements xs x) (leaves_writtenElements ys y)
      (List.append_cancel_left h)
    obtain ⟨rfl, hxy⟩ := writtenElements_inj hcode hquote xs ys (Or.inr rfl) hrest
    exact ⟨rfl, hxy⟩

theorem writtenFields_inj (hcode : PrefixCode.Separates code) (hquote : PrefixCode.Avoids code ['"']) :
    ∀ (kvs kvs' : List (List Char × Data)) {sep x y : List Char}, (sep = [] ∨ sep = ',' :: gap) →
      writtenFields code gap sep kvs ++ x = writtenFields code gap sep kvs' ++ y → kvs = kvs' ∧ x = y
  | [], [], _, x, y, _, h => by
    rw [writtenFields] at h
    exact ⟨rfl, (List.cons.inj h).2⟩
  | [], (k, b) :: kvs', sep, x, y, hsep, h => by
    rw [writtenFields, writtenFields] at h
    rcases hsep with rfl | rfl <;> simp [quoted] at h
  | (k, a) :: kvs, [], sep, x, y, hsep, h => by
    rw [writtenFields, writtenFields] at h
    rcases hsep with rfl | rfl <;> simp [quoted] at h
  | (k, a) :: kvs, (k', b) :: kvs', sep, x, y, _, h => by
    simp only [writtenFields, List.append_assoc, List.cons_append] at h
    obtain ⟨rfl, hvalue⟩ := quoted_inj hcode hquote (List.append_cancel_left h)
    have hvalue := List.append_cancel_left (List.cons.inj hvalue).2
    obtain ⟨rfl, hrest⟩ := written_inj hcode hquote a b (leaves_writtenFields kvs x) (leaves_writtenFields kvs' y)
      hvalue
    obtain ⟨rfl, hxy⟩ := writtenFields_inj hcode hquote kvs kvs' (Or.inr rfl) hrest
    exact ⟨rfl, hxy⟩

end

theorem written_injective (hcode : PrefixCode.Separates code) (hquote : PrefixCode.Avoids code ['"']) :
    Function.Injective (written code gap) := by
  intro v v' h
  exact (written_inj hcode hquote v v' (PrefixCode.leaves_nil _) (PrefixCode.leaves_nil _)
    (by rw [h])).1

/-- **The text of JSON data** is the text of no other data. -/
theorem text_injective (hcode : PrefixCode.Separates code) (hquote : PrefixCode.Avoids code ['"']) :
    Function.Injective (text code) := by
  intro v v' h
  rw [text_eq_written, text_eq_written] at h
  exact written_injective hcode hquote h

end JsonText
