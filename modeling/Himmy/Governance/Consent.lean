import Himmy.Entities.Projection

/-! # Consent: purposes, states and the policy

The stable id of a consent chain is derived from the workspace, the subject and the purpose, joined
by `|`. It says of them no more than their pieces between the separators
(`consentStableId_eq_iff`), so two different triples with the same pieces share a chain. -/

namespace Himmy

def consentKind : String := "consent"

inductive Purpose where
  | retain
  | train
  | infer
  | analytics
  | share
  | improve
  deriving DecidableEq

def Purpose.value : Purpose → String
  | .retain => "retain"
  | .train => "train"
  | .infer => "infer"
  | .analytics => "analytics"
  | .share => "share"
  | .improve => "improve"

def Purpose.ofValue (value : String) : Option Purpose :=
  [Purpose.retain, .train, .infer, .analytics, .share, .improve].find? (fun p => p.value = value)

@[simp] theorem Purpose.ofValue_value (purpose : Purpose) :
    Purpose.ofValue purpose.value = some purpose := by
  cases purpose <;> rfl

theorem Purpose.value_injective : Function.Injective Purpose.value := by
  intro p q h
  have := congrArg Purpose.ofValue h
  simpa using this

inductive ConsentState where
  | granted
  | denied
  | withdrawn
  | unknown
  deriving DecidableEq

def ConsentState.value : ConsentState → String
  | .granted => "granted"
  | .denied => "denied"
  | .withdrawn => "withdrawn"
  | .unknown => "unknown"

def ConsentState.ofValue (value : String) : Option ConsentState :=
  [ConsentState.granted, .denied, .withdrawn, .unknown].find? (fun s => s.value = value)

@[simp] theorem ConsentState.ofValue_value (state : ConsentState) :
    ConsentState.ofValue state.value = some state := by
  cases state <;> rfl

/-! ## The stable id of a chain -/

/-- What a consent chain is for. -/
structure ConsentKey where
  workspaceId : Option String
  subjectId : String
  purpose : String
  deriving DecidableEq

namespace ConsentKey

variable (key : ConsentKey)

def text : String :=
  match key.workspaceId with
  | none => key.subjectId ++ "|" ++ key.purpose
  | some workspaceId => workspaceId ++ "|" ++ key.subjectId ++ "|" ++ key.purpose

def parts : List String :=
  match key.workspaceId with
  | none => [key.subjectId, key.purpose]
  | some workspaceId => [workspaceId, key.subjectId, key.purpose]

def pieces : List (List Char) :=
  (key.parts.map String.toList).flatMap (List.splitOn '|')

/-- Two different keys with the same pieces: their components divide them differently. -/
def Confused (key key' : ConsentKey) : Prop := key ≠ key' ∧ key.pieces = key'.pieces

theorem toList_text : key.text.toList = ['|'].intercalate (key.parts.map String.toList) := by
  unfold text parts
  cases key.workspaceId with
  | none => simp [List.intercalate_cons_cons]
  | some workspaceId => simp [List.intercalate_cons_cons]

theorem bar_mem_text : '|' ∈ key.text.toList := by
  unfold text
  cases key.workspaceId with
  | none => simp
  | some workspaceId => simp

theorem parts_injective : Function.Injective parts := by
  intro key key' h
  obtain ⟨workspaceId, subjectId, purpose⟩ := key
  obtain ⟨workspaceId', subjectId', purpose'⟩ := key'
  cases workspaceId <;> cases workspaceId' <;> simp_all [parts]

theorem text_eq_iff {key key' : ConsentKey} : key.text = key'.text ↔ key.pieces = key'.pieces := by
  have hne : ∀ key : ConsentKey, key.parts.map String.toList ≠ [] := by
    intro key
    unfold parts
    cases key.workspaceId <;> simp
  rw [← String.toList_inj, toList_text, toList_text,
    PrefixCode.intercalate_eq_iff '|' (hne key) (hne key')]
  rfl

theorem not_confused_of_plain {key key' : ConsentKey} (h : ∀ p ∈ key.parts, '|' ∉ p.toList)
    (h' : ∀ p ∈ key'.parts, '|' ∉ p.toList) : ¬ Confused key key' := by
  rintro ⟨hne, hpieces⟩
  have hplain : ∀ key : ConsentKey, (∀ p ∈ key.parts, '|' ∉ p.toList) →
      key.pieces = key.parts.map String.toList := fun key h =>
    PrefixCode.flatMap_splitOn_of_not_mem (by simpa using h)
  rw [hplain key h, hplain key' h'] at hpieces
  exact hne (parts_injective (List.map_injective_iff.2 (fun _ _ h => String.toList_injective h) hpieces))

end ConsentKey

/-- `consent_stable_id`, for the value of a purpose. -/
def consentStableId (D : Digests) (key : ConsentKey) : String :=
  stableIdFor D key.text consentKind none

theorem consentStableId_eq_iff {D : Digests} (huuid : Function.Injective D.uuid5)
    {key key' : ConsentKey} :
    consentStableId D key = consentStableId D key' ↔ key.pieces = key'.pieces := by
  have hne : ∀ key : ConsentKey, key.text ≠ "" := by
    intro key hblank
    have hbar := key.bar_mem_text
    rw [hblank] at hbar
    exact absurd hbar (by decide)
  rw [← ConsentKey.text_eq_iff]
  constructor
  · exact stableIdFor_inj huuid (hne key) (hne key') (isUuid_of_bar key.bar_mem_text)
      (isUuid_of_bar key'.bar_mem_text)
  · intro h
    rw [consentStableId, consentStableId, h]

end Himmy
