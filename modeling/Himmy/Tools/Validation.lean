import Himmy.Library.JsonSchema

/-! # The offline validator

`_validate_subset` makes its checks in order and returns the first error. It departs from the
keywords' meaning in a few places: Python's `==` takes `True` for `1`, an integer is an `int`, a
length is compared only with an `int`, a boolean subschema is passed over, and the keywords of a
kind are looked at only where `type` names that kind. A run that comes to none of these places
(`Clear`) returns `None` exactly for the valid values. -/

namespace Himmy.Validation

open JsonSchema

/-- `x == y`: Python takes `True` for 1 and `False` for 0. -/
def pyEqual (x y : Datum) : Bool := equal (fun b => some (if b then 1 else 0)) x y

theorem pyEqual_of_same {x y : Datum} (h : same x y = true) : pyEqual x y = true :=
  equal_of_same x y h

def typeText : TypeName → String
  | .object => "object"
  | .array => "array"
  | .string => "string"
  | .number => "number"
  | .integer => "integer"
  | .boolean => "boolean"
  | .null => "null"

/-- `type(value).__name__`. -/
def pyTypeName : Datum → String
  | .null => "NoneType"
  | .bool _ => "bool"
  | .num (.int _) => "int"
  | .num (.float _) => "float"
  | .str _ => "str"
  | .arr _ => "list"
  | .obj _ => "dict"

def typeMatches : Datum → TypeName → Bool
  | .obj _, .object => true
  | .arr _, .array => true
  | .str _, .string => true
  | .num _, .number => true
  | .num (.int _), .integer => true
  | .bool _, .boolean => true
  | .null, .null => true
  | _, _ => false

theorem holds_of_typeMatches {v : Datum} {t : TypeName} (h : typeMatches v t = true) : t.Holds v := by
  rcases v with _ | _ | (_ | _) | _ | _ | _ <;> cases t <;> simp_all [typeMatches, TypeName.Holds, Number.value]

def expected (k : Keywords) (v : Datum) : Option TypeName :=
  match k.type with
  | some (.one t) => some t
  | some (.union ts) => ts.find? (typeMatches v)
  | none => none

/-! ## The checks of a value -/

section Checks

/- `repr`, and `re.search` of a pattern in a text: there is none for a pattern with an error. -/
variable (repr : Datum → String) (search : String → String → Option Bool) (k : Keywords) (v : Datum)

def constError : Option String :=
  match k.const with
  | some c => if pyEqual v c then none else some ("value " ++ repr v ++ " != const " ++ repr c)
  | none => none

def enumError : Option String :=
  match k.enum with
  | some choices =>
    if choices.any (pyEqual v) then none
    else some ("value " ++ repr v ++ " not in enum " ++ repr (.arr choices))
  | none => none

def oneOfError (branches : List Schema) (found : Nat) : Option String :=
  if branches.isEmpty || found == 1 then none
  else some ("value matched " ++ toString found ++ " of oneOf branches (expected 1)")

def anyOfError (branches : List Schema) (found : Bool) : Option String :=
  if branches.isEmpty || found then none else some "value did not match any anyOf branch"

def typeError : Option String :=
  match k.type with
  | some (.union ts) =>
    if ts.any (typeMatches v) then none
    else some ("expected one of " ++ repr (.arr (ts.map (fun t => .str (typeText t)))) ++ ", got "
      ++ pyTypeName v)
  | some (.one t) =>
    if typeMatches v t then none else some ("expected " ++ typeText t ++ ", got " ++ pyTypeName v)
  | none => none

variable (text : String) (bound : Option Number)

/-- A length is compared with a bound that is an `int`. -/
def lowError (length : Nat) : Option String :=
  match bound with
  | some (.int n) => if (length : Int) < n then some (text ++ " " ++ toString n) else none
  | _ => none

def highError (length : Nat) : Option String :=
  match bound with
  | some (.int n) => if n < (length : Int) then some (text ++ " " ++ toString n) else none
  | _ => none

def patternError (s : String) : Option String :=
  match k.pattern with
  | some p =>
    if search p s = some false then some ("string does not match pattern " ++ repr (.str p)) else none
  | none => none

def stringError (s : String) : Option String :=
  lowError "string shorter than minLength" k.minLength s.length
    <|> highError "string longer than maxLength" k.maxLength s.length
    <|> patternError repr search k s

/-- A number is compared with a bound, `fails` says how. -/
def boundError (n : Number) (fails : Rat → Rat → Bool) :
    Option String :=
  match bound with
  | some b =>
    if fails n.value b.value then
      some ("value " ++ repr (.num n) ++ " " ++ text ++ " " ++ repr (.num b))
    else none
  | none => none

def numberError (n : Number) : Option String :=
  boundError repr "< minimum" k.minimum n (fun x b => x < b)
    <|> boundError repr "> maximum" k.maximum n (fun x b => b < x)
    <|> boundError repr "<= exclusiveMinimum" k.exclusiveMinimum n (fun x b => x ≤ b)
    <|> boundError repr ">= exclusiveMaximum" k.exclusiveMaximum n (fun x b => b ≤ x)

def missingError (kvs : List (String × Datum)) : Option String :=
  (k.required.find? (fun key => (kvs.lookup key).isNone)).map
    (fun key => "missing required property " ++ repr (.str key))

def unexpectedError (names : List String) : Option String :=
  if names.isEmpty then none
  else some ("unexpected propert" ++ (if names.length = 1 then "y" else "ies") ++ " "
    ++ repr (.arr (names.map .str)))

end Checks

/-! ## The validator -/

section Validator

variable (repr : Datum → String) (search : String → String → Option Bool)

mutual

def validateSubset : Schema → Datum → Option String
  | .mk k oneOf anyOf allOf properties additional items, v =>
    constError repr k v
      <|> enumError repr k v
      <|> oneOfError oneOf (matchCount oneOf v)
      <|> anyOfError anyOf (matchesAny anyOf v)
      <|> allOfError allOf v
      <|> typeError repr k v
      <|> match v with
        | .str s => if expected k v = some .string then stringError repr search k s else none
        | .num n =>
          if expected k v = some .number ∨ expected k v = some .integer then numberError repr k n
          else none
        | .obj kvs =>
          if expected k v = some .object then
            missingError repr k kvs
              <|> propertiesError properties kvs
              <|> additionalError additional (extras (properties.map Prod.fst) kvs)
              <|> lowError "object has fewer than minProperties" k.minProperties kvs.length
          else none
        | .arr xs =>
          if expected k v = some .array then
            itemsError items xs
              <|> lowError "array has fewer than minItems" k.minItems xs.length
              <|> highError "array has more than maxItems" k.maxItems xs.length
          else none
        | _ => none

def matchCount : List Schema → Datum → Nat
  | [], _ => 0
  | s :: ss, v => (if (validateSubset s v).isNone then 1 else 0) + matchCount ss v

def matchesAny : List Schema → Datum → Bool
  | [], _ => false
  | s :: ss, v => (validateSubset s v).isNone || matchesAny ss v

def allOfError : List Schema → Datum → Option String
  | [], _ => none
  | s :: ss, v => (validateSubset s v).map ("allOf: " ++ ·) <|> allOfError ss v

def propertiesError : List (String × Subschema Schema) → List (String × Datum) → Option String
  | [], _ => none
  | (_, .bool _) :: properties, kvs => propertiesError properties kvs
  | (key, .schema s) :: properties, kvs =>
    (kvs.lookup key).bind (fun v => (validateSubset s v).map (key ++ ": " ++ ·))
      <|> propertiesError properties kvs

def additionalError : Option (Subschema Schema) → List (String × Datum) → Option String
  | some (.bool false), extra => unexpectedError repr (extra.map Prod.fst)
  | some (.schema s), extra =>
    extra.findSome? (fun kv => (validateSubset s kv.2).map (kv.1 ++ ": " ++ ·))
  | _, _ => none

def itemsError : Option (Subschema Schema) → List Datum → Option String
  | some (.schema s), xs =>
    xs.zipIdx.findSome? (fun xi =>
      (validateSubset s xi.1).map ("[" ++ toString xi.2 ++ "]: " ++ ·))
  | _, _ => none

end

end Validator

/-! ## Where the checks part from the meaning -/

/-- `p` of every element that a loop comes to; it stops after an element that `halts`. -/
def Along {α : Type} (halts : α → Bool) (p : α → Prop) : List α → Prop
  | [] => True
  | x :: xs => p x ∧ (halts x = false → Along halts p xs)

theorem Along.forall_iff {α : Type} {f : α → Option String} {p q : α → Prop} {xs : List α}
    (h : Along (fun x => (f x).isSome) p xs) (hp : ∀ x ∈ xs, p x → (f x = none ↔ q x)) :
    (∀ x ∈ xs, f x = none) ↔ ∀ x ∈ xs, q x := by
  induction xs with
  | nil => simp
  | cons x xs ih =>
    rw [List.forall_mem_cons, List.forall_mem_cons]
    have hx := hp x List.mem_cons_self h.1
    have hxs : f x = none → ((∀ y ∈ xs, f y = none) ↔ ∀ y ∈ xs, q y) := fun hnone =>
      ih (h.2 (by simp [hnone])) (fun y hy => hp y (List.mem_cons_of_mem x hy))
    constructor
    · rintro ⟨hnone, hrest⟩
      exact ⟨hx.1 hnone, (hxs hnone).1 hrest⟩
    · rintro ⟨hq, hrest⟩
      exact ⟨hx.2 hq, (hxs (hx.2 hq)).2 hrest⟩

theorem orElse_none_iff {a b : Option String} {p q : Prop} (ha : a = none ↔ p)
    (hb : a = none → (b = none ↔ q)) : (a <|> b) = none ↔ p ∧ q := by
  cases a with
  | none => exact (hb rfl).trans (and_iff_right (ha.1 rfl)).symm
  | some e => exact iff_of_false (by simp) (fun h => by simpa using ha.2 h.1)

variable (k : Keywords) (v : Datum)

/-- Python finds the value equal only to what is the same data. -/
def ConstClear : Prop :=
  ∀ c ∈ k.const, pyEqual v c = true → same v c = true

def EnumClear : Prop :=
  ∀ choices ∈ k.enum, choices.any (pyEqual v) = true → ∃ c ∈ choices, same v c = true

def TypeClear : Prop :=
  ∀ keyword ∈ k.type, (∃ t ∈ keyword.names, t.Holds v) → ∃ t ∈ keyword.names, typeMatches v t = true

def LowClear (bound : Option Number) (length : Nat) : Prop :=
  ∀ q, bound = some (.float q) → q ≤ length

def HighClear (bound : Option Number) (length : Nat) : Prop :=
  ∀ q, bound = some (.float q) → (length : Rat) ≤ q

def LengthClear (low high : Option Number) (length : Nat) : Prop :=
  LowClear low length ∧ (lowError "" low length = none → HighClear high length)

def Accepts (search : String → String → Option Bool) (pattern s : String) : Prop :=
  search pattern s ≠ some false

section Checks

variable {repr : Datum → String} {search : String → String → Option Bool} {k : Keywords} {v : Datum}

theorem constError_none_iff (h : ConstClear k v) :
    constError repr k v = none ↔ k.ValidConst v := by
  unfold constError Keywords.ValidConst
  cases hc : k.const with
  | none => simp
  | some c =>
    have hiff : pyEqual v c = true ↔ same v c = true := ⟨h c hc, pyEqual_of_same⟩
    simp [hiff]

theorem enumError_none_iff (h : EnumClear k v) :
    enumError repr k v = none ↔ k.ValidEnum v := by
  unfold enumError Keywords.ValidEnum
  cases hc : k.enum with
  | none => simp
  | some choices =>
    have hiff : choices.any (pyEqual v) = true ↔ ∃ c ∈ choices, same v c = true := by
      refine ⟨h choices hc, ?_⟩
      rintro ⟨c, hmem, hsame⟩
      exact List.any_eq_true.2 ⟨c, hmem, pyEqual_of_same hsame⟩
    simp [hiff]

theorem typeError_none_iff (h : TypeClear k v) :
    typeError repr k v = none ↔ k.ValidType v := by
  unfold typeError Keywords.ValidType
  cases hc : k.type with
  | none => simp
  | some keyword =>
    have hiff : (∃ t ∈ keyword.names, typeMatches v t = true) ↔ ∃ t ∈ keyword.names, t.Holds v := by
      refine ⟨?_, h keyword hc⟩
      rintro ⟨t, hmem, hmatch⟩
      exact ⟨t, hmem, holds_of_typeMatches hmatch⟩
    rcases keyword with t | ts
    · simpa [TypeKeyword.names] using hiff
    · simpa [TypeKeyword.names] using hiff

variable {bound : Option Number} {length : Nat} {text : String}

theorem lowError_none_iff (h : LowClear bound length) :
    lowError text bound length = none ↔ ∀ b ∈ bound, b.value ≤ length := by
  unfold lowError
  rcases bound with _ | (n | q)
  · simp
  · simp [Number.value]
    norm_cast
  · simpa [Number.value] using h q rfl

theorem highError_none_iff (h : HighClear bound length) :
    highError text bound length = none ↔ ∀ b ∈ bound, (length : Rat) ≤ b.value := by
  unfold highError
  rcases bound with _ | (n | q)
  · simp
  · simp [Number.value]
    norm_cast
  · simpa [Number.value] using h q rfl

theorem lowError_none_of {text text' : String}
    (h : lowError text bound length = none) : lowError text' bound length = none := by
  unfold lowError at h ⊢
  rcases bound with _ | (n | q) <;> simp_all

theorem lengthError_none_iff {text text' : String} {low high : Option Number}
    (h : LengthClear low high length) :
    (lowError text low length <|> highError text' high length) = none ↔ Within low high length :=
  orElse_none_iff (lowError_none_iff h.1) (fun hlow =>
    highError_none_iff (h.2 (lowError_none_of hlow)))


theorem stringError_none_iff {s : String} (h : LengthClear k.minLength k.maxLength s.length) :
    stringError repr search k s = none ↔ k.ValidString (Accepts search) s := by
  unfold stringError Keywords.ValidString
  have hpattern : patternError repr search k s = none ↔ ∀ p ∈ k.pattern, Accepts search p s := by
    unfold patternError Accepts
    cases k.pattern <;> simp
  rw [Within, and_assoc]
  refine orElse_none_iff (lowError_none_iff h.1) (fun hlow => ?_)
  exact orElse_none_iff (highError_none_iff (h.2 (lowError_none_of hlow))) (fun _ => hpattern)

theorem boundError_none_iff {n : Number} {fails : Rat → Rat → Bool} :
    boundError repr text bound n fails = none ↔ ∀ b ∈ bound, fails n.value b.value = false := by
  unfold boundError
  cases bound <;> simp

theorem numberError_none_iff {n : Number} : numberError repr k n = none ↔ k.ValidNumber n := by
  unfold numberError Keywords.ValidNumber
  refine orElse_none_iff ?_ (fun _ => orElse_none_iff ?_ (fun _ => orElse_none_iff ?_ (fun _ => ?_)))
  all_goals simp [boundError_none_iff, Rat.not_lt, Rat.not_le]

theorem missingError_none_iff {kvs : List (String × Datum)} :
    missingError repr k kvs = none ↔ k.ValidRequired kvs := by
  unfold missingError Keywords.ValidRequired
  simp [Option.isSome_iff_ne_none]

theorem unexpectedError_none_iff {extra : List (String × Datum)} :
    unexpectedError repr (extra.map Prod.fst) = none ↔ extra.map Prod.snd = [] := by
  unfold unexpectedError
  cases extra <;> simp

end Checks

/-! ## The clear runs -/

section Clear

variable (repr : Datum → String) (search : String → String → Option Bool)

mutual

/-- A run of the validator comes to no place where a check of its own parts from the meaning of the
    keyword. Each check is come to when the ones before it have no error. -/
def Clear : Schema → Datum → Prop
  | .mk k oneOf anyOf allOf properties additional items, v =>
    ConstClear k v ∧ (constError repr k v = none →
    EnumClear k v ∧ (enumError repr k v = none →
    ClearBranches oneOf (fun _ => false) v
      ∧ (oneOfError oneOf (matchCount repr search oneOf v) = none →
    ClearBranches anyOf Option.isNone v
      ∧ (anyOfError anyOf (matchesAny repr search anyOf v) = none →
    ClearBranches allOf Option.isSome v ∧ (allOfError repr search allOf v = none →
    TypeClear k v ∧ (typeError repr k v = none →
      match v with
      | .str s =>
        if expected k v = some .string then LengthClear k.minLength k.maxLength s.length
        else k.ValidString (Accepts search) s
      | .num n =>
        if expected k v = some .number ∨ expected k v = some .integer then True
        else k.ValidNumber n
      | .obj kvs =>
        if expected k v = some .object then
          missingError repr k kvs = none →
          ClearProperties properties kvs ∧ (propertiesError repr search properties kvs = none →
          ClearAdditional additional (extras (properties.map Prod.fst) kvs)
            ∧ (additionalError repr search additional (extras (properties.map Prod.fst) kvs) = none →
          LowClear k.minProperties kvs.length))
        else ValidObject (Accepts search) k properties additional kvs
      | .arr xs =>
        if expected k v = some .array then
          ClearItems items xs ∧ (itemsError repr search items xs = none →
          LengthClear k.minItems k.maxItems xs.length)
        else ValidArray (Accepts search) k items xs
      | _ => True))))))

/-- The same of the branches that are come to: after one that `halts` there are no more. -/
def ClearBranches : List Schema → (Option String → Bool) → Datum → Prop
  | [], _, _ => True
  | s :: ss, halts, v =>
    Clear s v ∧ (halts (validateSubset repr search s v) = false → ClearBranches ss halts v)

def ClearProperties : List (String × Subschema Schema) → List (String × Datum) → Prop
  | [], _ => True
  | (key, .bool b) :: properties, kvs =>
    (kvs.lookup key = none ∨ b = true) ∧ ClearProperties properties kvs
  | (key, .schema s) :: properties, kvs =>
    (∀ v ∈ kvs.lookup key, Clear s v)
      ∧ ((∀ v ∈ kvs.lookup key, validateSubset repr search s v = none) →
        ClearProperties properties kvs)

def ClearAdditional : Option (Subschema Schema) → List (String × Datum) → Prop
  | some (.schema s), extra =>
    Along (fun kv => (validateSubset repr search s kv.2).isSome) (fun kv => Clear s kv.2) extra
  | _, _ => True

def ClearItems : Option (Subschema Schema) → List Datum → Prop
  | some (.schema s), xs =>
    Along (fun x => (validateSubset repr search s x).isSome) (fun x => Clear s x) xs
  | some (.bool b), xs => b = true ∨ xs = []
  | none, _ => True

end

end Clear

/-! ## Agreement -/

section Agreement

variable {repr : Datum → String} {search : String → String → Option Bool}

mutual

theorem validateSubset_none : ∀ (s : Schema) (v : Datum), Clear repr search s v →
    (validateSubset repr search s v = none ↔ Valid (Accepts search) s v)
  | .mk k oneOf anyOf allOf properties additional items, v, h => by
    unfold validateSubset Valid
    unfold Clear at h
    obtain ⟨hconst, h⟩ := h
    refine orElse_none_iff (constError_none_iff hconst) (fun he => ?_)
    obtain ⟨henum, h⟩ := h he
    refine orElse_none_iff (enumError_none_iff henum) (fun he => ?_)
    obtain ⟨hone, h⟩ := h he
    refine orElse_none_iff ?_ (fun he => ?_)
    · rw [← (matchCount_iff oneOf v hone).2]
      unfold oneOfError
      cases oneOf <;> simp
    obtain ⟨hany, h⟩ := h he
    refine orElse_none_iff ?_ (fun he => ?_)
    · rw [← matchesAny_iff anyOf v hany]
      unfold anyOfError
      cases anyOf <;> simp
    obtain ⟨hall, h⟩ := h he
    refine orElse_none_iff (allOfError_none_iff allOf v hall) (fun he => ?_)
    obtain ⟨htype, h⟩ := h he
    refine orElse_none_iff (typeError_none_iff htype) (fun he => ?_)
    have h := h he
    cases v with
    | null => simp
    | bool => simp
    | str s =>
      dsimp only at h ⊢
      split_ifs at h ⊢ with hs
      · exact stringError_none_iff h
      · simpa using h
    | num n =>
      dsimp only at h ⊢
      split_ifs at h ⊢ with hn
      · exact numberError_none_iff
      · simpa using h
    | obj kvs =>
      dsimp only at h ⊢
      split_ifs at h ⊢ with ho
      · refine orElse_none_iff missingError_none_iff (fun he => ?_)
        obtain ⟨hproperties, h⟩ := h he
        refine orElse_none_iff (propertiesError_none_iff properties kvs hproperties) (fun he => ?_)
        obtain ⟨hadditional, h⟩ := h he
        refine orElse_none_iff (additionalError_none_iff additional _ hadditional) (fun he => ?_)
        rw [lowError_none_iff (h he), Within]
        simp
      · simpa [ValidObject] using h
    | arr xs =>
      dsimp only at h ⊢
      split_ifs at h ⊢ with ha
      · obtain ⟨hitems, h⟩ := h
        refine orElse_none_iff (itemsError_none_iff items xs hitems) (fun he => ?_)
        exact lengthError_none_iff (h he)
      · simpa [ValidArray] using h

theorem matchCount_iff : ∀ (ss : List Schema) (v : Datum),
    ClearBranches repr search ss (fun _ => false) v →
      (matchCount repr search ss v = 0 ↔ ¬ ValidSome (Accepts search) ss v)
        ∧ (matchCount repr search ss v = 1 ↔ ValidOne (Accepts search) ss v)
  | [], v, _ => by simp [matchCount, ValidSome, ValidOne]
  | s :: ss, v, h => by
    rw [ClearBranches] at h
    have hs := validateSubset_none s v h.1
    obtain ⟨hzero, hone⟩ := matchCount_iff ss v (h.2 rfl)
    rw [matchCount, ValidSome, ValidOne, ← hs, ← hone]
    by_cases hnone : validateSubset repr search s v = none
    · simp [hnone, hzero]
    · simp [hnone, hzero, Option.isNone_iff_eq_none]

theorem matchesAny_iff : ∀ (ss : List Schema) (v : Datum),
    ClearBranches repr search ss Option.isNone v →
      (matchesAny repr search ss v = true ↔ ValidSome (Accepts search) ss v)
  | [], v, _ => by simp [matchesAny, ValidSome]
  | s :: ss, v, h => by
    rw [ClearBranches] at h
    rw [matchesAny, ValidSome, ← validateSubset_none s v h.1, Bool.or_eq_true, Option.isNone_iff_eq_none]
    by_cases hnone : validateSubset repr search s v = none
    · simp [hnone]
    · have hsome : (validateSubset repr search s v).isNone = false := by
        simpa [Option.isSome_iff_ne_none] using hnone
      rw [matchesAny_iff ss v (h.2 hsome)]

theorem allOfError_none_iff : ∀ (ss : List Schema) (v : Datum),
    ClearBranches repr search ss Option.isSome v →
      (allOfError repr search ss v = none ↔ ValidAll (Accepts search) ss v)
  | [], v, _ => by simp [allOfError, ValidAll]
  | s :: ss, v, h => by
    rw [ClearBranches] at h
    rw [allOfError, ValidAll]
    refine orElse_none_iff ?_ (fun he => allOfError_none_iff ss v (h.2 ?_))
    · rw [Option.map_eq_none_iff]
      exact validateSubset_none s v h.1
    · rw [Option.map_eq_none_iff] at he
      simp [he]

theorem propertiesError_none_iff : ∀ (properties : List (String × Subschema Schema))
    (kvs : List (String × Datum)), ClearProperties repr search properties kvs →
      (propertiesError repr search properties kvs = none
        ↔ ValidProperties (Accepts search) properties kvs)
  | [], kvs, _ => by simp [propertiesError, ValidProperties]
  | (key, .bool b) :: properties, kvs, h => by
    rw [ClearProperties] at h
    rw [propertiesError, ValidProperties, propertiesError_none_iff properties kvs h.2]
    rcases h.1 with hnone | htrue
    · simp [hnone]
    · simp [htrue]
  | (key, .schema s) :: properties, kvs, h => by
    rw [ClearProperties] at h
    have hs : (∀ v ∈ kvs.lookup key, validateSubset repr search s v = none)
        ↔ ∀ v ∈ kvs.lookup key, Valid (Accepts search) s v :=
      forall₂_congr (fun v hv => validateSubset_none s v (h.1 v hv))
    rw [propertiesError, ValidProperties]
    have herror : (kvs.lookup key).bind (fun v =>
        (validateSubset repr search s v).map (key ++ ": " ++ ·)) = none
        ↔ ∀ v ∈ kvs.lookup key, validateSubset repr search s v = none := by
      rw [Option.bind_eq_none_iff]
      simp
    refine orElse_none_iff (herror.trans hs) (fun he => ?_)
    exact propertiesError_none_iff properties kvs (h.2 (herror.1 he))

theorem additionalError_none_iff : ∀ (sub : Option (Subschema Schema)) (extra : List (String × Datum)),
    ClearAdditional repr search sub extra → (additionalError repr search sub extra = none
        ↔ ValidEach (Accepts search) sub (extra.map Prod.snd))
  | none, extra, _ => by simp [additionalError, ValidEach]
  | some (.bool b), extra, _ => by
    cases b
    · simpa [additionalError, ValidEach] using unexpectedError_none_iff
    · simp [additionalError, ValidEach]
  | some (.schema s), extra, h => by
    rw [ClearAdditional] at h
    rw [additionalError, ValidEach, List.findSome?_eq_none_iff, List.forall_mem_map]
    have hloop := h.forall_iff (fun kv _ hkv => validateSubset_none s kv.2 hkv)
    simpa using hloop

theorem itemsError_none_iff : ∀ (sub : Option (Subschema Schema)) (xs : List Datum),
    ClearItems repr search sub xs →
      (itemsError repr search sub xs = none ↔ ValidEach (Accepts search) sub xs)
  | none, xs, _ => by simp [itemsError, ValidEach]
  | some (.bool b), xs, h => by
    rw [ClearItems] at h
    simpa [itemsError, ValidEach] using h
  | some (.schema s), xs, h => by
    rw [ClearItems] at h
    have hloop := h.forall_iff (fun x _ hx => validateSubset_none s x hx)
    have hindexed : (∀ xi ∈ xs.zipIdx, validateSubset repr search s xi.1 = none)
        ↔ ∀ x ∈ xs, validateSubset repr search s x = none := by
      have hmap : (∀ x ∈ xs.zipIdx.map Prod.fst, validateSubset repr search s x = none)
          ↔ ∀ xi ∈ xs.zipIdx, validateSubset repr search s xi.1 = none := List.forall_mem_map
      rw [List.zipIdx_map_fst] at hmap
      exact hmap.symm
    rw [itemsError, ValidEach, List.findSome?_eq_none_iff, ← hloop, ← hindexed]
    simp

end

end Agreement

/-- Where the run is clear, the validator returns `None` exactly for a valid value. -/
theorem validateSubset_eq_none_iff (repr : Datum → String) (search : String → String → Option Bool)
    (s : Schema) (v : Datum) (h : Clear repr search s v) :
    validateSubset repr search s v = none ↔ Valid (Accepts search) s v :=
  validateSubset_none s v h

private def bare (k : Keywords) : Schema := .mk k [] [] [] [] none none

private def atLeastFive : Schema :=
  .mk { type := some (.one .object), required := ["a"] } [] [] []
    [("a", .schema (bare { type := some (.one .integer), minimum := some (.int 5) }))] none none

/-- A clear run: an object with such an integer is found valid, and it is. -/
theorem validateSubset_atLeastFive :
    validateSubset (fun _ => "") (fun _ _ => none) atLeastFive (.obj [("a", .num (.int 7))]) = none
      ↔ Valid (Accepts fun _ _ => none) atLeastFive (.obj [("a", .num (.int 7))]) := by
  refine validateSubset_eq_none_iff _ _ _ _ ?_
  simp [atLeastFive, bare, Clear, ClearBranches, ClearProperties, ClearAdditional, ConstClear, EnumClear,
    TypeClear, LowClear, TypeKeyword.names, TypeName.Holds, typeMatches, expected]

/-- Without a `type` the keyword `required` is passed over, `True` passes for the constant 1, and `1.0`
    for no integer. -/
theorem not_agrees_required :
    let run := validateSubset (fun _ => "") (fun _ _ => none)
    let Means := Valid (Accepts fun _ _ => none)
    (run (bare { required := ["a"] }) (.obj []) = none ∧ ¬ Means (bare { required := ["a"] }) (.obj []))
      ∧ (run (bare { const := some (.num (.int 1)) }) (.bool true) = none
        ∧ ¬ Means (bare { const := some (.num (.int 1)) }) (.bool true))
      ∧ (run (bare { type := some (.one .integer) }) (.num (.float 1)) ≠ none
        ∧ Means (bare { type := some (.one .integer) }) (.num (.float 1))) := by
  refine ⟨⟨by decide +kernel, ?_⟩, ⟨by decide +kernel, ?_⟩, by decide +kernel, ?_⟩
  · simp [bare, Valid, Keywords.ValidRequired]
  · intro h
    exact absurd (h.1 (.num (.int 1)) rfl) (by decide +kernel)
  · simp [bare, Valid, ValidAll, Keywords.ValidConst, Keywords.ValidEnum, Keywords.ValidType,
      Keywords.ValidNumber, TypeKeyword.names, TypeName.Holds, Number.value]

end Himmy.Validation
