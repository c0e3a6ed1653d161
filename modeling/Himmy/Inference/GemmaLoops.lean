import Mathlib.Data.Nat.Digits.Defs
import Mathlib.Logic.Relation
import Himmy.Inference.GemmaGrammar

/-! # The loops of the Gemma parser

The object loop and the array loop differ in the bracket that ends them and in where the next value
begins; as one loop over a frame (`loop`) they have one induction. What a run returns it returns with
more fuel as well, and what it has returned leaves less of the text. -/

namespace Himmy.Gemma

open Run (ok)

/-! ## Runs -/

variable {α β : Type}

theorem Run.andThen_eq_some_iff {x : Run α} {f : α → Run β} {r : Except String β} :
    x.andThen f = some r ↔ (∃ a, x = ok a ∧ f a = some r) ∨ ∃ e, x = some (.error e) ∧ r = .error e := by
  unfold Run.andThen
  split
  · simp [ok]
  · simp [ok, eq_comm]
  · simp [ok]

theorem Run.andThen_eq_ok_iff {x : Run α} {f : α → Run β} {b : β} :
    x.andThen f = ok b ↔ ∃ a, x = ok a ∧ f a = ok b := by
  rw [ok, Run.andThen_eq_some_iff]
  constructor
  · rintro (h | ⟨e, -, h⟩)
    · exact h
    · cases h
  · exact Or.inl

@[simp] theorem Run.ok_andThen (a : α) (f : α → Run β) : (ok a).andThen f = f a := rfl

variable {α : Type}

@[simp] theorem Run.ok_inj {a b : α} : ok a = ok b ↔ a = b := by
  simp [ok]

def Run.Extends (x y : Run α) : Prop := ∀ r, x = some r → y = some r

theorem Run.Extends.andThen {x y : Run α} {f g : α → Run β} (hxy : x.Extends y)
    (hfg : ∀ a, (f a).Extends (g a)) : (x.andThen f).Extends (y.andThen g) := by
  intro r h
  rw [Run.andThen_eq_some_iff] at h ⊢
  rcases h with ⟨a, hx, hf⟩ | ⟨e, hx, hr⟩
  · exact Or.inl ⟨a, hxy _ hx, hfg a r hf⟩
  · exact Or.inr ⟨e, hxy _ hx, hr⟩

theorem Run.Extends.refl (x : Run α) : x.Extends x := fun _ h => h

/-! ## Frames -/

/-- The kind of a loop. -/
inductive Frame where
  | object
  | array
  deriving DecidableEq

def Frame.close : Frame → Char
  | .object => '}'
  | .array => ']'

def Frame.Ends (f : Frame) (s : List Char) : Prop := skipWs s = [] ∨ (skipWs s).head? = some f.close

instance (f : Frame) (s : List Char) : Decidable (f.Ends s) := inferInstanceAs (Decidable (_ ∨ _))

/-- Where the value of the next iteration begins, unless the loop ends. -/
def Frame.item (f : Frame) (s : List Char) : Option (List Char) :=
  if f.Ends s then none
  else match f with
    | .object => (cut [':'] (skipWs s)).map Prod.snd
    | .array => some (skipWs s)

def Frame.left (f : Frame) (s : List Char) : List Char :=
  if (skipWs s).head? = some f.close then (skipWs s).tail else []

def loop {σ : Type} (f : Frame) (add : σ → List Char → Value → σ)
    (value : List Char → Run (Value × List Char)) : Nat → σ → List Char → Run (σ × List Char)
  | 0, _, _ => none
  | fuel + 1, acc, s => (f.item s).elim (ok (acc, f.left s)) fun t =>
    (value t).andThen fun p => loop f add value fuel (add acc s p.1) (skipComma p.2)

variable (s : List Char)

def keyAt : List Char := ((cut [':'] (skipWs s)).map Prod.fst).getD []

def addItem (obj : Dict Value) (s : List Char) (v : Value) : Dict Value :=
  obj.set (String.ofList (pyStrip isPySpace (keyAt s))) v

def addElement (arr : List Value) (_ : List Char) (v : Value) : List Value := arr ++ [v]

theorem objectLoop_eq (value : List Char → Run (Value × List Char)) (fuel : Nat) (obj : Dict Value)
    (s : List Char) : objectLoop value fuel obj s = loop .object addItem value fuel obj s := by
  induction fuel generalizing obj s with
  | zero => rfl
  | succ fuel ih =>
    unfold objectLoop
    split
    · next hws => simp [loop, Frame.item, Frame.left, Frame.Ends, hws]
    · next hws => simp [loop, Frame.item, Frame.left, Frame.Ends, Frame.close, hws]
    · next hnil hbrace =>
        have hne : skipWs s ≠ [] := hnil
        have hhead : (skipWs s).head? ≠ some '}' := by
          intro hhead
          obtain ⟨rest, hrest⟩ := List.head?_eq_some_iff.1 hhead
          exact hbrace rest hrest
        cases hcut : cut [':'] (skipWs s) with
        | none => simp [loop, Frame.item, Frame.left, Frame.Ends, Frame.close, hhead, hne, hcut]
        | some p =>
          simp [loop, Frame.item, Frame.Ends, Frame.close, hhead, hne, hcut, ih, addItem, keyAt]

theorem arrayLoop_eq (value : List Char → Run (Value × List Char)) (fuel : Nat) (arr : List Value)
    (s : List Char) : arrayLoop value fuel arr s = loop .array addElement value fuel arr s := by
  induction fuel generalizing arr s with
  | zero => rfl
  | succ fuel ih =>
    unfold arrayLoop
    split
    · next hws => simp [loop, Frame.item, Frame.left, Frame.Ends, hws]
    · next hws => simp [loop, Frame.item, Frame.left, Frame.Ends, Frame.close, hws]
    · next hnil hbracket =>
        have hne : skipWs s ≠ [] := hnil
        have hhead : (skipWs s).head? ≠ some ']' := by
          intro hhead
          obtain ⟨rest, hrest⟩ := List.head?_eq_some_iff.1 hhead
          exact hbracket rest hrest
        simp [loop, Frame.item, Frame.Ends, Frame.close, hhead, hne, ih, addElement]

/-! ## The texts of the parser -/

theorem cut_eq_some {pattern s before after : List Char} (h : cut pattern s = some (before, after)) :
    s = before ++ (pattern ++ after) := by
  induction s generalizing before with
  | nil =>
    rw [cut] at h
    split_ifs at h with hp
    cases h
    simp [hp]
  | cons c cs ih =>
    rw [cut] at h
    split_ifs at h with hp
    · obtain ⟨rest, hrest⟩ := List.isPrefixOf_iff_prefix.1 hp
      cases h
      rw [← hrest, List.drop_left, List.nil_append]
    · obtain ⟨p, hcut, hpair⟩ := Option.map_eq_some_iff.1 h
      cases hpair
      rw [List.cons_append, ← ih hcut]

theorem length_skipWs_le : (skipWs s).length ≤ s.length :=
  (List.dropWhile_sublist _).length_le

variable {c : Char}

theorem skipWs_eq_of_head {cs : List Char} (h : c ≠ ' ' ∧ c ≠ '\t' ∧ c ≠ '\r' ∧ c ≠ '\n') :
    skipWs (c :: cs) = c :: cs := by
  simp [skipWs, h]

theorem head_skipWs {s : List Char} {cs : List Char} (h : skipWs s = c :: cs) :
    c ≠ ' ' ∧ c ≠ '\t' ∧ c ≠ '\r' ∧ c ≠ '\n' := by
  induction s with
  | nil => cases h
  | cons d ds ih =>
    unfold skipWs at h ih
    rw [List.dropWhile_cons] at h
    split_ifs at h with hd
    · exact ih h
    · cases h
      simpa [and_assoc] using hd

theorem skipWs_skipWs : skipWs (skipWs s) = skipWs s := by
  cases h : skipWs s with
  | nil => rfl
  | cons c cs => exact skipWs_eq_of_head (head_skipWs h)

theorem skipComma_cases :
    skipWs s = ',' :: skipComma s ∨ skipWs s = skipComma s ∧ (skipWs s).head? ≠ some ',' := by
  unfold skipComma
  split
  · next rest h => exact Or.inl h
  · next hnot =>
      refine Or.inr ⟨rfl, ?_⟩
      intro hhead
      obtain ⟨rest, hrest⟩ := List.head?_eq_some_iff.1 hhead
      exact hnot rest hrest

theorem length_skipComma_le : (skipComma s).length ≤ s.length := by
  have hws := length_skipWs_le s
  rcases skipComma_cases s with h | ⟨h, -⟩
  · rw [h, List.length_cons] at hws
    omega
  · rwa [h] at hws

theorem append_scanScalar (depth : Nat) (s : List Char) :
    (scanScalar depth s).1 ++ (scanScalar depth s).2 = s := by
  induction s generalizing depth with
  | nil => rfl
  | cons c cs ih =>
    unfold scanScalar
    split_ifs <;> simp [ih]

theorem scanScalar_zero_cons (cs : List Char) (hopen : c ≠ '{' ∧ c ≠ '[') :
    (c = '}' ∨ c = ']' ∨ c = ',') ∧ scanScalar 0 (c :: cs) = ([], c :: cs)
      ∨ (scanScalar 0 (c :: cs)).1 ≠ [] := by
  rw [scanScalar, if_neg (by simp [hopen])]
  by_cases hclose : c = '}' ∨ c = ']'
  · rw [if_pos hclose, if_pos rfl]
    exact Or.inl ⟨by tauto, rfl⟩
  · rw [if_neg hclose]
    by_cases hcomma : c = ','
    · rw [if_pos ⟨hcomma, rfl⟩]
      exact Or.inl ⟨by tauto, rfl⟩
    · rw [if_neg (by simp [hcomma])]
      exact Or.inr (List.cons_ne_nil _ _)

/-! ## The forms of a value -/

def textAt : List Char × List Char :=
  (cut strDelimiter ((skipWs s).drop strDelimiter.length)).getD
    ((skipWs s).drop strDelimiter.length, [])

/-- A scalar begins here. -/
structure IsScalar (s : List Char) : Prop where
  ne_nil : skipWs s ≠ []
  not_text : ¬ strDelimiter <+: skipWs s
  not_object : (skipWs s).head? ≠ some '{'
  not_array : (skipWs s).head? ≠ some '['

def scalarAt : List Char × List Char :=
  (pyStrip isPySpace (scanScalar 0 (skipWs s)).1, (scanScalar 0 (skipWs s)).2)

theorem value_forms : skipWs s = [] ∨ strDelimiter <+: skipWs s ∨ (∃ t, skipWs s = '{' :: t)
      ∨ (∃ t, skipWs s = '[' :: t) ∨ IsScalar s := by
  by_cases hnil : skipWs s = []
  · exact Or.inl hnil
  by_cases htext : strDelimiter <+: skipWs s
  · exact Or.inr (Or.inl htext)
  by_cases hobject : (skipWs s).head? = some '{'
  · exact Or.inr (Or.inr (Or.inl (List.head?_eq_some_iff.1 hobject)))
  by_cases harray : (skipWs s).head? = some '['
  · exact Or.inr (Or.inr (Or.inr (Or.inl (List.head?_eq_some_iff.1 harray))))
  · exact Or.inr (Or.inr (Or.inr (Or.inr ⟨hnil, htext, hobject, harray⟩)))

theorem not_isPrefixOf_strDelimiter (t : List Char) (h : c ≠ '<') :
    strDelimiter.isPrefixOf (c :: t) = false := by
  have hdelimiter : strDelimiter = '<' :: ['|', '"', '|', '>'] := by decide
  rw [hdelimiter, List.isPrefixOf, beq_eq_false_iff_ne.2 h.symm, Bool.false_and]

variable {floatOf : List Char → FloatLiteral} {fuel : Nat} {s t : List Char}

theorem parseValue_nil (h : skipWs s = []) :
    parseValue floatOf (fuel + 1) s = ok (.str "", []) := by
  simp [parseValue, h]

theorem parseValue_text (h : strDelimiter <+: skipWs s) : parseValue floatOf (fuel + 1) s
      = ok (.str (String.ofList (textAt s).1), (textAt s).2) := by
  have hne : skipWs s ≠ [] := by
    intro hnil
    rw [hnil, List.prefix_nil] at h
    exact absurd h (by decide)
  unfold parseValue textAt
  simp only [if_neg hne, if_pos (List.isPrefixOf_iff_prefix.2 h)]
  cases cut strDelimiter ((skipWs s).drop strDelimiter.length) <;> rfl

theorem parseValue_object (h : skipWs s = '{' :: t) : parseValue floatOf (fuel + 1) s
      = (loop .object addItem (parseValue floatOf fuel) fuel KeyedList.empty t).andThen
          fun p => ok (.dict p.1.items, p.2) := by
  have hdelimiter := not_isPrefixOf_strDelimiter t (show '{' ≠ '<' by decide)
  simp [parseValue, h, hdelimiter, objectLoop_eq]

theorem parseValue_array (h : skipWs s = '[' :: t) : parseValue floatOf (fuel + 1) s
      = (loop .array addElement (parseValue floatOf fuel) fuel [] t).andThen
          fun p => ok (.list p.1, p.2) := by
  have hdelimiter := not_isPrefixOf_strDelimiter t (show '[' ≠ '<' by decide)
  simp [parseValue, h, hdelimiter, arrayLoop_eq]

theorem parseValue_scalar (h : IsScalar s) : parseValue floatOf (fuel + 1) s
      = some ((coerceScalar floatOf (scalarAt s).1).map fun v => (v, (scalarAt s).2)) := by
  have hdelimiter : strDelimiter.isPrefixOf (skipWs s) = false := by
    rw [Bool.eq_false_iff]
    exact fun hp => h.not_text (List.isPrefixOf_iff_prefix.1 hp)
  simp [parseValue, h.ne_nil, hdelimiter, h.not_object, h.not_array, scalarAt]

/-! ## Fuel -/

variable {fuel fuel' : Nat}

theorem loop_extends {σ : Type} {f : Frame} {add : σ → List Char → Value → σ}
    {value value' : List Char → Run (Value × List Char)}
    (hvalue : ∀ s, (value s).Extends (value' s)) (hfuel : fuel ≤ fuel') (acc : σ)
    (s : List Char) : (loop f add value fuel acc s).Extends (loop f add value' fuel' acc s) := by
  induction fuel generalizing fuel' acc s with
  | zero =>
    intro r h
    cases h
  | succ fuel ih =>
    obtain ⟨fuel', rfl⟩ : ∃ n, fuel' = n + 1 := ⟨fuel' - 1, by omega⟩
    unfold loop
    cases f.item s with
    | none => exact Run.Extends.refl _
    | some t => exact (hvalue t).andThen (fun p => ih (Nat.le_of_succ_le_succ hfuel) _ _)

theorem parseValue_extends (hfuel : fuel ≤ fuel') (s : List Char) :
    (parseValue floatOf fuel s).Extends (parseValue floatOf fuel' s) := by
  induction fuel generalizing fuel' s with
  | zero =>
    intro r h
    cases h
  | succ fuel ih =>
    obtain ⟨fuel', rfl⟩ : ∃ n, fuel' = n + 1 := ⟨fuel' - 1, by omega⟩
    have hle := Nat.le_of_succ_le_succ hfuel
    rcases value_forms s with h | h | ⟨t, h⟩ | ⟨t, h⟩ | h
    · rw [parseValue_nil h, parseValue_nil h]
      exact Run.Extends.refl _
    · rw [parseValue_text h, parseValue_text h]
      exact Run.Extends.refl _
    · rw [parseValue_object h, parseValue_object h]
      exact (loop_extends (ih hle) hle _ _).andThen (fun _ => Run.Extends.refl _)
    · rw [parseValue_array h, parseValue_array h]
      exact (loop_extends (ih hle) hle _ _).andThen (fun _ => Run.Extends.refl _)
    · rw [parseValue_scalar h, parseValue_scalar h]
      exact Run.Extends.refl _

theorem parseValue_unique {p q : Value × List Char}
    (h : parseValue floatOf fuel s = ok p) (h' : parseValue floatOf fuel' s = ok q) : p = q := by
  have hp := parseValue_extends (Nat.le_max_left fuel fuel') s _ h
  have hq := parseValue_extends (Nat.le_max_right fuel fuel') s _ h'
  exact Run.ok_inj.1 (hp.symm.trans hq)

end Himmy.Gemma
