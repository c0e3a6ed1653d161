import Mathlib.Data.Rat.Defs

/-! # JSON schemas and what they say of a value

A schema is a group of assertions about the value itself (`Keywords`) together with its subschemas.
`Valid` is the meaning that JSON Schema gives them: each keyword speaks of the values of its own
kind and holds of all others, two values are equal when they are the same JSON data, and a number
with an integral value is an integer. -/

namespace JsonSchema

/-- A number, as an integer or as a float of that value. -/
inductive Number where
  | int (n : Int)
  | float (q : Rat)

def Number.value : Number → Rat
  | .int n => n
  | .float q => q

/-- A JSON value. -/
inductive Datum where
  | null
  | bool (b : Bool)
  | num (n : Number)
  | str (s : String)
  | arr (xs : List Datum)
  | obj (kvs : List (String × Datum))

/-! ## Equality -/

section Equality

/- The number that a boolean counts as, where it counts as one. -/
variable (boolean : Bool → Option Rat)

mutual

/-- Two values are equal, numbers by their value and objects up to the order of their members. -/
def equal : Datum → Datum → Bool
  | .null, .null => true
  | .bool b, .bool c => b == c
  | .bool b, .num n => boolean b == some n.value
  | .num n, .bool b => boolean b == some n.value
  | .num m, .num n => m.value == n.value
  | .str s, .str t => s == t
  | .arr xs, .arr ys => equalElements xs ys
  | .obj kvs, .obj kvs' => kvs.length == kvs'.length && equalMembers kvs kvs'
  | _, _ => false

def equalElements : List Datum → List Datum → Bool
  | [], [] => true
  | x :: xs, y :: ys => equal x y && equalElements xs ys
  | _, _ => false

def equalMembers : List (String × Datum) → List (String × Datum) → Bool
  | [], _ => true
  | (key, x) :: kvs, kvs' =>
    (match kvs'.lookup key with
      | some y => equal x y
      | none => false) && equalMembers kvs kvs'

end

end Equality

/-- Two values are the same JSON data: a boolean is no number. -/
def same (x y : Datum) : Bool := equal (fun _ => none) x y

section

variable {boolean : Bool → Option Rat}

mutual

theorem equal_of_same : ∀ x y, same x y = true → equal boolean x y = true
  | .null, y, h => by cases y <;> simp_all [same, equal]
  | .bool b, y, h => by cases y <;> simp_all [same, equal]
  | .num n, y, h => by cases y <;> simp_all [same, equal]
  | .str s, y, h => by cases y <;> simp_all [same, equal]
  | .arr xs, y, h => by
    cases y with
    | arr ys => exact equalElements_of_same xs ys h
    | null | bool | num | str | obj => simp [same, equal] at h
  | .obj kvs, y, h => by
    cases y with
    | obj kvs' =>
      rw [same, equal, Bool.and_eq_true] at h
      rw [equal, Bool.and_eq_true]
      exact ⟨h.1, equalMembers_of_same kvs kvs' h.2⟩
    | null | bool | num | str | arr => simp [same, equal] at h

theorem equalElements_of_same : ∀ xs ys,
    equalElements (fun _ => none) xs ys = true → equalElements boolean xs ys = true
  | [], ys, h => by cases ys <;> simp_all [equalElements]
  | x :: xs, ys, h => by
    cases ys with
    | nil => simp [equalElements] at h
    | cons y ys =>
      rw [equalElements, Bool.and_eq_true] at h ⊢
      exact ⟨equal_of_same x y h.1, equalElements_of_same xs ys h.2⟩

theorem equalMembers_of_same : ∀ kvs kvs',
    equalMembers (fun _ => none) kvs kvs' = true → equalMembers boolean kvs kvs' = true
  | [], _, _ => by rw [equalMembers]
  | (key, x) :: kvs, kvs', h => by
    rw [equalMembers, Bool.and_eq_true] at h ⊢
    refine ⟨?_, equalMembers_of_same kvs kvs' h.2⟩
    cases hy : kvs'.lookup key with
    | none => simp [hy] at h
    | some y =>
      simp only [hy] at h
      exact equal_of_same x y h.1

end

end

/-! ## Schemas -/

/-- The primitive types. -/
inductive TypeName where
  | object | array | string | number | integer | boolean | null
  deriving DecidableEq

def TypeName.Holds : TypeName → Datum → Prop
  | .object, .obj _ => True
  | .array, .arr _ => True
  | .string, .str _ => True
  | .number, .num _ => True
  | .integer, .num n => n.value.den = 1
  | .boolean, .bool _ => True
  | .null, .null => True
  | _, _ => False

/-- The keyword `type`: one type, or a list of them. -/
inductive TypeKeyword where
  | one (t : TypeName)
  | union (ts : List TypeName)

def TypeKeyword.names : TypeKeyword → List TypeName
  | .one t => [t]
  | .union ts => ts

/-- The assertions that need no subschema. -/
structure Keywords where
  const : Option Datum := none
  enum : Option (List Datum) := none
  type : Option TypeKeyword := none
  minLength : Option Number := none
  maxLength : Option Number := none
  pattern : Option String := none
  minimum : Option Number := none
  maximum : Option Number := none
  exclusiveMinimum : Option Number := none
  exclusiveMaximum : Option Number := none
  required : List String := []
  minProperties : Option Number := none
  minItems : Option Number := none
  maxItems : Option Number := none

/-- A subschema may be a boolean, which accepts everything or nothing. -/
inductive Subschema (α : Type) where
  | bool (b : Bool)
  | schema (s : α)

/-- A schema: its assertions and its subschemas. An absent combinator is the empty list. -/
inductive Schema where
  | mk (keywords : Keywords) (oneOf anyOf allOf : List Schema)
      (properties : List (String × Subschema Schema)) (additionalProperties items : Option (Subschema Schema))

def extras (names : List String) (kvs : List (String × Datum)) : List (String × Datum) :=
  kvs.filter (fun kv => !names.contains kv.1)

def Within (low high : Option Number) (length : Nat) : Prop :=
  (∀ b ∈ low, b.value ≤ length) ∧ ∀ b ∈ high, (length : Rat) ≤ b.value

namespace Keywords

variable (k : Keywords) (v : Datum)

def ValidConst : Prop := ∀ c ∈ k.const, same v c = true

def ValidEnum : Prop := ∀ choices ∈ k.enum, ∃ c ∈ choices, same v c = true

def ValidType : Prop := ∀ keyword ∈ k.type, ∃ t ∈ keyword.names, t.Holds v

def ValidString (accepts : String → String → Prop) (s : String) : Prop :=
  Within k.minLength k.maxLength s.length ∧ ∀ pattern ∈ k.pattern, accepts pattern s

def ValidNumber (n : Number) : Prop :=
  (∀ b ∈ k.minimum, b.value ≤ n.value) ∧ (∀ b ∈ k.maximum, n.value ≤ b.value)
    ∧ (∀ b ∈ k.exclusiveMinimum, b.value < n.value) ∧ (∀ b ∈ k.exclusiveMaximum, n.value < b.value)

/-- `required`, of an object. -/
def ValidRequired (kvs : List (String × Datum)) : Prop :=
  ∀ key ∈ k.required, (kvs.lookup key).isSome = true

end Keywords

/-! ## Validity -/

section Validity

/- Whether a text has a match of a pattern. -/
variable (accepts : String → String → Prop)

mutual

def Valid : Schema → Datum → Prop
  | .mk k oneOf anyOf allOf properties additional items, v =>
    k.ValidConst v ∧ k.ValidEnum v
      ∧ (oneOf ≠ [] → ValidOne oneOf v) ∧ (anyOf ≠ [] → ValidSome anyOf v) ∧ ValidAll allOf v
      ∧ k.ValidType v
      ∧ match v with
        | .str s => k.ValidString accepts s
        | .num n => k.ValidNumber n
        | .obj kvs => k.ValidRequired kvs ∧ ValidProperties properties kvs
            ∧ ValidEach additional ((extras (properties.map Prod.fst) kvs).map Prod.snd)
            ∧ Within k.minProperties none kvs.length
        | .arr xs => ValidEach items xs ∧ Within k.minItems k.maxItems xs.length
        | _ => True

def ValidAll : List Schema → Datum → Prop
  | [], _ => True
  | s :: ss, v => Valid s v ∧ ValidAll ss v

def ValidSome : List Schema → Datum → Prop
  | [], _ => False
  | s :: ss, v => Valid s v ∨ ValidSome ss v

def ValidOne : List Schema → Datum → Prop
  | [], _ => False
  | s :: ss, v => Valid s v ∧ ¬ ValidSome ss v ∨ ¬ Valid s v ∧ ValidOne ss v

def ValidProperties : List (String × Subschema Schema) → List (String × Datum) → Prop
  | [], _ => True
  | (key, sub) :: properties, kvs =>
    (∀ v ∈ kvs.lookup key, match sub with
      | .bool b => b = true
      | .schema s => Valid s v) ∧ ValidProperties properties kvs

def ValidEach : Option (Subschema Schema) → List Datum → Prop
  | none, _ => True
  | some (.bool b), vs => b = true ∨ vs = []
  | some (.schema s), vs => ∀ v ∈ vs, Valid s v

end

def ValidObject (k : Keywords) (properties : List (String × Subschema Schema))
    (additional : Option (Subschema Schema)) (kvs : List (String × Datum)) : Prop :=
  k.ValidRequired kvs ∧ ValidProperties accepts properties kvs
    ∧ ValidEach accepts additional ((extras (properties.map Prod.fst) kvs).map Prod.snd)
    ∧ Within k.minProperties none kvs.length

def ValidArray (k : Keywords) (items : Option (Subschema Schema)) (xs : List Datum) : Prop :=
  ValidEach accepts items xs ∧ Within k.minItems k.maxItems xs.length

end Validity

end JsonSchema
