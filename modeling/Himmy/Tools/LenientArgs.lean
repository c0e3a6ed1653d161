import Himmy.Library.JsonSchema

/-! # Lenient arguments

Before it validates the arguments of a tool call, the service repairs what small models get wrong: it
drops keys that the schema forbids and optional nulls, and makes of a string the number or boolean that
it spells. It looks at one property at a time, and of its schema at `type` alone, so it also rewrites
some arguments that were valid (`repairsOnly_iff`). -/

namespace Himmy.Lenient

open JsonSchema

def keywordsOf : Schema → Keywords
  | .mk keywords _ _ _ _ _ _ => keywords

/-! ## The repair -/

def scalarTypes (prop : Keywords) : List TypeName :=
  (prop.type.elim [] TypeKeyword.names).filter (fun t => t ∈ [.integer, .number, .boolean])

def decimalOf : List Char → Int
  | '-' :: digits => -(Nat.ofDigitChars 10 digits 0 : Int)
  | digits => Nat.ofDigitChars 10 digits 0

/-- The integer of which a text is the `str`. `int` reads no text of more than 4300 digits. -/
def spelledInt (text : String) : Option Int :=
  (some (decimalOf text.toList)).filter
    (fun n => toString n = text && text.toList.countP Char.isDigit ≤ 4300)

def allowsNull (prop : Keywords) : Bool := .null ∈ prop.type.elim [] TypeKeyword.names

/-- `additionalProperties` is `False`. -/
def forbidsExtras : Option (Subschema Schema) → Bool
  | some (.bool false) => true
  | _ => false

theorem eq_of_forbidsExtras {additional : Option (Subschema Schema)} (h : forbidsExtras additional = true) :
    additional = some (.bool false) := by
  rcases additional with _ | ⟨_ | _⟩ | s <;> simp_all [forbidsExtras]

section

/- The finite float that a text is the `repr` of. -/
variable (spelledFloat : String → Option Rat)

def coerceScalar (value : String) (targets : List TypeName) : Option Datum :=
  if .boolean ∈ targets ∧ (value = "true" ∨ value = "false") then some (.bool (value = "true"))
  else
    (if .integer ∈ targets then (spelledInt value).map (fun n => .num (.int n)) else none).or
      (if .number ∈ targets then (spelledFloat value).map (fun q => .num (.float q)) else none)

def lenientValue (required : Bool) : Subschema Schema → Datum →
    Except String (Option (Datum × Bool))
  | .bool _, .null =>
    if required then .ok (some (.null, false))
    else .error "AttributeError: 'bool' object has no attribute 'get'"
  | .schema prop, .null =>
    .ok (if required || allowsNull (keywordsOf prop) then some (.null, false) else none)
  | .schema prop, .str text =>
    .ok (some ((coerceScalar spelledFloat text (scalarTypes (keywordsOf prop))).elim (.str text, false)
      (fun coerced => (coerced, true))))
  | _, value => .ok (some (value, false))

def lenientArg : Schema → String → Datum → Except String (Option (Datum × Bool))
  | .mk keywords _ _ _ properties additional _, key, value =>
    match properties.lookup key with
    | none => .ok (if forbidsExtras additional then none else some (value, false))
    | some prop => lenientValue spelledFloat (key ∈ keywords.required) prop value

/-- The argument, as it was repaired, before the arguments that follow it. -/
def keepArg (key : String) (rest : List (String × Datum) × List String) :
    Option (Datum × Bool) → List (String × Datum) × List String
  | none => rest
  | some made => ((key, made.1) :: rest.1, if made.2 then key :: rest.2 else rest.2)

def coerceLenientArgs (schema : Schema) :
    List (String × Datum) → Except String (List (String × Datum) × List String)
  | [] => .ok ([], [])
  | (key, value) :: args =>
    match lenientArg spelledFloat schema key value with
    | .error e => .error e
    | .ok repaired =>
      (coerceLenientArgs schema args).map (fun rest => keepArg key rest repaired)

end

/-! ## One argument -/

section

variable {spelledFloat : String → Option Rat}

def Spells (spelledFloat : String → Option Rat) (text : String) : Datum → Prop
  | .bool b => text = if b then "true" else "false"
  | .num (.int n) => text = toString n
  | .num (.float q) => spelledFloat text = some q
  | _ => False

def MadeOf (spelledFloat : String → Option Rat) (given made : Datum) : Prop :=
  made = given ∨ ∃ text, given = .str text ∧ Spells spelledFloat text made

def SpellsSome (spelledFloat : String → Option Rat) (text : String) (targets : List TypeName) : Prop :=
  .boolean ∈ targets ∧ (text = "true" ∨ text = "false")
    ∨ .integer ∈ targets ∧ (spelledInt text).isSome
    ∨ .number ∈ targets ∧ (spelledFloat text).isSome

theorem spells_of_coerceScalar {text : String} {targets : List TypeName} {made : Datum}
    (h : coerceScalar spelledFloat text targets = some made) : Spells spelledFloat text made := by
  unfold coerceScalar at h
  by_cases hbool : .boolean ∈ targets ∧ (text = "true" ∨ text = "false")
  · rw [if_pos hbool] at h
    injection h with hmade
    rw [← hmade]
    rcases hbool.2 with rfl | rfl <;> simp [Spells]
  · rw [if_neg hbool] at h
    rcases Option.or_eq_some_iff.mp h with h | ⟨-, h⟩
    · obtain ⟨-, n, hn, rfl⟩ : .integer ∈ targets ∧ ∃ n, spelledInt text = some n ∧ .num (.int n) = made := by
        simpa using h
      have hcanonical := (Option.filter_eq_some_iff.mp hn).2
      simp only [Bool.and_eq_true, decide_eq_true_eq] at hcanonical
      exact hcanonical.1.symm
    · obtain ⟨-, q, hq, rfl⟩ : .number ∈ targets ∧ ∃ q, spelledFloat text = some q ∧ .num (.float q) = made := by
        simpa using h
      exact hq

theorem coerceScalar_isSome_iff (text : String) (targets : List TypeName) :
    (coerceScalar spelledFloat text targets).isSome ↔ SpellsSome spelledFloat text targets := by
  unfold coerceScalar SpellsSome
  split_ifs with hbool hinteger hnumber hnumber <;> simp [*]

theorem coerceScalar_ne_text {text : String} {targets : List TypeName} {made : Datum}
    (h : coerceScalar spelledFloat text targets = some made) : made ≠ .null ∧ ∀ s, made ≠ .str s := by
  have hspells := spells_of_coerceScalar h
  constructor
  · rintro rfl
    exact hspells
  · rintro s rfl
    exact hspells

/-- The repair touches the value of a declared property: an optional null where `type` lists none, or a
    text that spells a value of a type that it lists. -/
def TouchesValue (spelledFloat : String → Option Rat) (required : Bool) : Subschema Schema → Datum → Prop
  | .bool _, .null => required = false
  | .schema prop, .null => required = false ∧ allowsNull (keywordsOf prop) = false
  | .schema prop, .str text => SpellsSome spelledFloat text (scalarTypes (keywordsOf prop))
  | _, _ => False

/-- The repair touches the argument, as the value of a declared property. -/
def Touches (spelledFloat : String → Option Rat) : Schema → String → Datum → Prop
  | .mk keywords _ _ _ properties _ _, key, value =>
    ∃ prop ∈ properties.lookup key, TouchesValue spelledFloat (key ∈ keywords.required) prop value

def Forbids : Schema → String → Prop
  | .mk _ _ _ _ properties additional _, key =>
    properties.lookup key = none ∧ forbidsExtras additional = true

theorem lenientValue_eq_self_iff (required : Bool) (prop : Subschema Schema) (value : Datum) :
    lenientValue spelledFloat required prop value = .ok (some (value, false))
      ↔ ¬ TouchesValue spelledFloat required prop value := by
  cases prop with
  | bool b => cases value <;> simp [lenientValue, TouchesValue]
  | schema prop =>
    cases value with
    | null => simp [lenientValue, TouchesValue]
    | str text =>
      simp only [lenientValue, TouchesValue, ← coerceScalar_isSome_iff]
      cases hmade : coerceScalar spelledFloat text (scalarTypes (keywordsOf prop)) with
      | none => simp
      | some made => simp
    | bool | num | arr | obj => simp [lenientValue, TouchesValue]

theorem lenientArg_eq_self_iff (schema : Schema) (key : String) (value : Datum) :
    lenientArg spelledFloat schema key value = .ok (some (value, false))
      ↔ ¬ Forbids schema key ∧ ¬ Touches spelledFloat schema key value := by
  obtain ⟨keywords, oneOf, anyOf, allOf, properties, additional, items⟩ := schema
  simp only [lenientArg, Forbids, Touches]
  cases hprop : properties.lookup key with
  | none => simp
  | some prop => simpa using lenientValue_eq_self_iff _ prop value

theorem lenientValue_kept {required : Bool} {prop : Subschema Schema} {value : Datum} {made : Datum × Bool}
    (h : lenientValue spelledFloat required prop value = .ok (some made)) :
    MadeOf spelledFloat value made.1
      ∧ lenientValue spelledFloat required prop made.1 = .ok (some (made.1, false)) := by
  by_cases htouched : TouchesValue spelledFloat required prop value
  · cases prop with
    | bool b =>
      cases value with
      | null => simp_all [lenientValue, TouchesValue]
      | str | bool | num | arr | obj => exact htouched.elim
    | schema prop =>
      cases value with
      | null => simp_all [lenientValue, TouchesValue]
      | str text =>
        -- a coerced text: what it became is no text, and no null that could be dropped
        rw [TouchesValue, ← coerceScalar_isSome_iff] at htouched
        obtain ⟨coerced, hcoerced⟩ := Option.isSome_iff_exists.mp htouched
        simp only [lenientValue, hcoerced, Option.elim_some, Except.ok.injEq, Option.some.injEq] at h
        subst h
        have hkind := coerceScalar_ne_text hcoerced
        refine ⟨.inr ⟨text, rfl, spells_of_coerceScalar hcoerced⟩, ?_⟩
        rw [lenientValue_eq_self_iff]
        cases coerced <;> simp_all [TouchesValue]
      | bool | num | arr | obj => exact htouched.elim
  · have hsame := (lenientValue_eq_self_iff required prop value).mpr htouched
    obtain rfl : (value, false) = made := by simpa [hsame] using h
    exact ⟨.inl rfl, hsame⟩

theorem lenientArg_kept {schema : Schema} {key : String} {value : Datum} {made : Datum × Bool}
    (h : lenientArg spelledFloat schema key value = .ok (some made)) :
    MadeOf spelledFloat value made.1
      ∧ lenientArg spelledFloat schema key made.1 = .ok (some (made.1, false)) := by
  obtain ⟨keywords, oneOf, anyOf, allOf, properties, additional, items⟩ := schema
  simp only [lenientArg] at h ⊢
  cases hprop : properties.lookup key with
  | none =>
    simp only [hprop] at h ⊢
    split_ifs at h with hforbids
    · simp at h
    · obtain rfl : (value, false) = made := by simpa using h
      exact ⟨.inl rfl, if_neg hforbids ▸ rfl⟩
  | some prop =>
    simp only [hprop] at h ⊢
    exact lenientValue_kept h

/-! ## All the arguments -/

theorem coerceLenientArgs_cons_iff (schema : Schema) (key : String) (value : Datum)
    (args : List (String × Datum)) (out : List (String × Datum) × List String) :
    coerceLenientArgs spelledFloat schema ((key, value) :: args) = .ok out
      ↔ ∃ repaired rest, lenientArg spelledFloat schema key value = .ok repaired
        ∧ coerceLenientArgs spelledFloat schema args = .ok rest ∧ keepArg key rest repaired = out := by
  simp only [coerceLenientArgs]
  cases lenientArg spelledFloat schema key value with
  | error e => simp
  | ok repaired =>
    cases coerceLenientArgs spelledFloat schema args with
    | error e => simp [Except.map]
    | ok rest => simp [Except.map]

variable {args : List (String × Datum)} {out : List (String × Datum) × List String}

variable {schema : Schema}

theorem coerceLenientArgs_length
    (h : coerceLenientArgs spelledFloat schema args = .ok out) : out.1.length ≤ args.length := by
  induction args generalizing out with
  | nil =>
    obtain rfl : ([], []) = out := by simpa [coerceLenientArgs] using h
    simp
  | cons arg args ih =>
    obtain ⟨key, value⟩ := arg
    obtain ⟨repaired, rest, -, hrest, rfl⟩ := (coerceLenientArgs_cons_iff ..).mp h
    have := ih hrest
    cases repaired with
    | none => simp only [keepArg, List.length_cons]; omega
    | some made => simp only [keepArg, List.length_cons]; omega

theorem coerceLenientArgs_eq_self_iff (schema : Schema) (args : List (String × Datum)) :
    coerceLenientArgs spelledFloat schema args = .ok (args, [])
      ↔ ∀ arg ∈ args, lenientArg spelledFloat schema arg.1 arg.2 = .ok (some (arg.2, false)) := by
  induction args with
  | nil => simp [coerceLenientArgs]
  | cons arg args ih =>
    obtain ⟨key, value⟩ := arg
    rw [List.forall_mem_cons, ← ih, coerceLenientArgs_cons_iff]
    constructor
    · rintro ⟨repaired, rest, hvalue, hrest, hout⟩
      have hlength := coerceLenientArgs_length hrest
      cases repaired with
      | none =>
        -- an argument that was dropped leaves fewer of them
        rw [keepArg] at hout
        rw [hout, List.length_cons] at hlength
        omega
      | some made =>
        obtain ⟨made, coerced⟩ := made
        cases coerced with
        | true => simp [keepArg] at hout
        | false =>
          simp only [keepArg, Prod.mk.injEq, List.cons.injEq, Bool.false_eq_true, if_false] at hout
          obtain ⟨⟨⟨-, rfl⟩, hargs⟩, hkeys⟩ := hout
          exact ⟨hvalue, by rw [hrest, ← hargs, ← hkeys]⟩
    · rintro ⟨hvalue, hrest⟩
      exact ⟨_, _, hvalue, hrest, by simp [keepArg]⟩

theorem coerceLenientArgs_kept (h : coerceLenientArgs spelledFloat schema args = .ok out) :
    ∀ arg ∈ out.1, (∃ given, (arg.1, given) ∈ args ∧ MadeOf spelledFloat given arg.2)
      ∧ lenientArg spelledFloat schema arg.1 arg.2 = .ok (some (arg.2, false)) := by
  induction args generalizing out with
  | nil =>
    obtain rfl : ([], []) = out := by simpa [coerceLenientArgs] using h
    simp
  | cons arg args ih =>
    obtain ⟨key, value⟩ := arg
    obtain ⟨repaired, rest, hvalue, hrest, rfl⟩ := (coerceLenientArgs_cons_iff ..).mp h
    have hlater : ∀ arg ∈ rest.1,
        (∃ given, (arg.1, given) ∈ (key, value) :: args ∧ MadeOf spelledFloat given arg.2)
          ∧ lenientArg spelledFloat schema arg.1 arg.2 = .ok (some (arg.2, false)) := by
      intro arg harg
      obtain ⟨⟨given, hgiven, hmade⟩, hagain⟩ := ih hrest arg harg
      exact ⟨⟨given, List.mem_cons_of_mem _ hgiven, hmade⟩, hagain⟩
    cases repaired with
    | none => exact hlater
    | some made =>
      obtain ⟨hmade, hagain⟩ := lenientArg_kept hvalue
      exact List.forall_mem_cons.mpr ⟨⟨⟨value, List.mem_cons_self, hmade⟩, hagain⟩, hlater⟩

theorem coerceLenientArgs_again (h : coerceLenientArgs spelledFloat schema args = .ok out) :
    coerceLenientArgs spelledFloat schema out.1 = .ok (out.1, []) :=
  (coerceLenientArgs_eq_self_iff schema out.1).mpr fun arg harg => (coerceLenientArgs_kept h arg harg).2

/-! ## Valid arguments -/

theorem not_forbids_of_valid {accepts : String → String → Prop}
    (h : Valid accepts schema (.obj args)) : ∀ arg ∈ args, ¬ Forbids schema arg.1 := by
  obtain ⟨keywords, oneOf, anyOf, allOf, properties, additional, items⟩ := schema
  rintro arg harg ⟨hundeclared, hforbids⟩
  simp only [Valid] at h
  have heach := h.2.2.2.2.2.2.2.2.1
  have hextra : arg ∈ extras (properties.map Prod.fst) args := by
    simp only [extras, List.mem_filter, Bool.not_eq_true', List.contains_eq_mem, decide_eq_false_iff_not,
      List.mem_map]
    refine ⟨harg, ?_⟩
    rintro ⟨declared, hdeclared, hkey⟩
    have hne := List.lookup_eq_none_iff.mp hundeclared declared hdeclared
    simp [hkey] at hne
  rw [eq_of_forbidsExtras hforbids, ValidEach] at heach
  rcases heach with heach | heach
  · exact Bool.false_ne_true heach
  · exact List.ne_nil_of_mem (List.mem_map_of_mem hextra) heach

/-- The repair changes only what is broken: valid arguments come back as they were, with no coerced keys;
    whatever it returns keeps each value, or makes of a text what it spells, and is returned again. -/
structure RepairsOnly (accepts : String → String → Prop) (spelledFloat : String → Option Rat)
    (schema : Schema) (args : List (String × Datum)) : Prop where
  valid_unchanged : Valid accepts schema (.obj args)
    → coerceLenientArgs spelledFloat schema args = .ok (args, [])
  kept : ∀ out, coerceLenientArgs spelledFloat schema args = .ok out
    → ∀ arg ∈ out.1, ∃ given, (arg.1, given) ∈ args ∧ MadeOf spelledFloat given arg.2
  idempotent : ∀ out, coerceLenientArgs spelledFloat schema args = .ok out
    → coerceLenientArgs spelledFloat schema out.1 = .ok (out.1, [])

/-- Exactly the valid arguments of which none is an optional null that `type` does not list, or a text
    that spells a number or boolean that `type` lists, come back as they were. -/
theorem repairsOnly_iff (accepts : String → String → Prop) (spelledFloat : String → Option Rat)
    (schema : Schema) (args : List (String × Datum)) : RepairsOnly accepts spelledFloat schema args
      ↔ (Valid accepts schema (.obj args) → ∀ arg ∈ args, ¬ Touches spelledFloat schema arg.1 arg.2) := by
  constructor
  · intro h hvalid arg harg
    have hself := (coerceLenientArgs_eq_self_iff schema args).mp (h.valid_unchanged hvalid) arg harg
    exact ((lenientArg_eq_self_iff ..).mp hself).2
  · intro h
    refine ⟨fun hvalid => ?_, fun out hout arg harg => (coerceLenientArgs_kept hout arg harg).1,
      fun out hout => coerceLenientArgs_again hout⟩
    refine (coerceLenientArgs_eq_self_iff schema args).mpr fun arg harg => ?_
    exact (lenientArg_eq_self_iff ..).mpr ⟨not_forbids_of_valid hvalid arg harg, h hvalid arg harg⟩

def querySchema : Schema :=
  .mk {} [] [] [] [("q", .schema (.mk { type := some (.union [.string, .integer]) } [] [] [] [] none none))]
    none none

/-- The query "5" is valid as a text and is made an integer. -/
theorem not_repairsOnly_query :
    ¬ RepairsOnly (fun _ _ => True) (fun _ => none) querySchema [("q", .str "5")] := by
  intro h
  have hvalid : Valid (fun _ _ => True) querySchema (.obj [("q", .str "5")]) := by
    simp [querySchema, Valid, ValidAll, ValidProperties, ValidEach, Keywords.ValidConst, Keywords.ValidEnum,
      Keywords.ValidType, Keywords.ValidString, Keywords.ValidRequired, Within, TypeKeyword.names,
      TypeName.Holds]
  have hself := (coerceLenientArgs_eq_self_iff ..).mp (h.valid_unchanged hvalid) _ List.mem_cons_self
  refine ((lenientArg_eq_self_iff ..).mp hself).2 ⟨_, rfl, .inr (.inl ⟨by decide, by decide +kernel⟩)⟩

end

end Himmy.Lenient
