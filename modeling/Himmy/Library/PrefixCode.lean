import Mathlib.Data.List.Basic

/-! # Texts that can be read back

A text is put together from parts, and two texts that agree were put together from the same parts.
Three ways to put one together can be read back from the front, whatever follows: a letter code of
which no word continues another (`Separates`), the words of such a code up to a mark that no word
begins with (`flatMap_marked`), and a word of letters up to the first letter that is none of them
(`append_inj_of_class`). Of parts joined by a separator only the pieces between the separators can
be read back (`intercalate_eq_iff`). -/

universe u v

namespace PrefixCode

variable {α : Type u} {β : Type v}

/-! ## Letter codes -/

def Separates (code : α → List β) : Prop :=
  ∀ a b x y, code a ++ x = code b ++ y → a = b ∧ x = y

/-- No word of the code, whatever follows it, begins with the mark. -/
def Avoids (code : α → List β) (mark : List β) : Prop :=
  ∀ a x y, code a ++ x ≠ mark ++ y

theorem flatMap_marked {code : α → List β} {mark : List β} (hcode : Separates code)
    (hmark : Avoids code mark) {l l' : List α} {x y : List β}
    (h : l.flatMap code ++ (mark ++ x) = l'.flatMap code ++ (mark ++ y)) : l = l' ∧ x = y := by
  induction l generalizing l' with
  | nil =>
    cases l' with
    | nil => exact ⟨rfl, List.append_cancel_left h⟩
    | cons b l' =>
      rw [List.flatMap_nil, List.nil_append, List.flatMap_cons, List.append_assoc] at h
      exact absurd h.symm (hmark b _ x)
  | cons a l ih =>
    cases l' with
    | nil =>
      rw [List.flatMap_nil, List.nil_append, List.flatMap_cons, List.append_assoc] at h
      exact absurd h (hmark a _ y)
    | cons b l' =>
      rw [List.flatMap_cons, List.flatMap_cons, List.append_assoc, List.append_assoc] at h
      obtain ⟨rfl, hrest⟩ := hcode a b _ _ h
      obtain ⟨rfl, hxy⟩ := ih hrest
      exact ⟨rfl, hxy⟩

/-! ## Words of a class of letters -/

variable (p : β → Prop)

/-- The text ends, or goes on with a letter outside the class. -/
def Leaves (x : List β) : Prop := ∀ b ∈ x.head?, ¬ p b

@[simp] theorem leaves_nil : Leaves p [] := fun _ h => by cases h

@[simp] theorem leaves_cons (b : β) (x : List β) : Leaves p (b :: x) ↔ ¬ p b := by
  simp [Leaves]

theorem append_inj_of_class {p : β → Prop} {a b x y : List β} (ha : ∀ c ∈ a, p c)
    (hb : ∀ c ∈ b, p c) (hx : Leaves p x) (hy : Leaves p y) (h : a ++ x = b ++ y) :
    a = b ∧ x = y := by
  induction a generalizing b with
  | nil =>
    cases b with
    | nil => exact ⟨rfl, h⟩
    | cons c b =>
      rw [List.nil_append, List.cons_append] at h
      rw [h, leaves_cons] at hx
      exact absurd (hb c List.mem_cons_self) hx
  | cons c a ih =>
    cases b with
    | nil =>
      rw [List.nil_append, List.cons_append] at h
      rw [← h, leaves_cons] at hy
      exact absurd (ha c List.mem_cons_self) hy
    | cons d b =>
      rw [List.cons_append, List.cons_append] at h
      obtain ⟨rfl, hrest⟩ := List.cons.inj h
      obtain ⟨rfl, hxy⟩ := ih (fun c hc => ha c (List.mem_cons_of_mem _ hc))
        (fun c hc => hb c (List.mem_cons_of_mem _ hc)) hrest
      exact ⟨rfl, hxy⟩

/-! ## Joined pieces -/

section Joined

variable [DecidableEq β]

theorem splitOn_intercalate_parts (sep : β) {parts : List (List β)} (h : parts ≠ []) :
    ([sep].intercalate parts).splitOn sep = parts.flatMap (List.splitOn sep) := by
  induction parts with
  | nil => exact absurd rfl h
  | cons a parts ih =>
    cases parts with
    | nil => simp
    | cons b parts =>
      rw [List.intercalate_cons_cons, List.append_assoc, List.singleton_append,
        List.splitOn_append_cons_self, ih (List.cons_ne_nil _ _)]
      rfl

/-- Two joined texts are the same exactly when their pieces are: joining forgets only which pieces
    belong to one part. -/
theorem intercalate_eq_iff (sep : β) {parts parts' : List (List β)} (h : parts ≠ [])
    (h' : parts' ≠ []) : [sep].intercalate parts = [sep].intercalate parts'
      ↔ parts.flatMap (List.splitOn sep) = parts'.flatMap (List.splitOn sep) := by
  rw [← splitOn_intercalate_parts sep h, ← splitOn_intercalate_parts sep h']
  constructor
  · exact congrArg _
  · intro hsplit
    have hjoin := congrArg ([sep].intercalate) hsplit
    rwa [List.intercalate_splitOn, List.intercalate_splitOn] at hjoin

theorem flatMap_splitOn_of_not_mem {sep : β} {parts : List (List β)} (h : ∀ a ∈ parts, sep ∉ a) :
    parts.flatMap (List.splitOn sep) = parts := by
  induction parts with
  | nil => rfl
  | cons a parts ih =>
    rw [List.flatMap_cons, List.splitOn_eq_singleton (h a List.mem_cons_self),
      ih (fun b hb => h b (List.mem_cons_of_mem _ hb)), List.singleton_append]

end Joined

end PrefixCode
