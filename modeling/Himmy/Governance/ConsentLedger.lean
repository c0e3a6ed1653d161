import Himmy.Entities.Versions
import Himmy.Governance.Consent
import Himmy.Governance.ConsentRegistry

/-! # The consent ledger

`ConsentLedger` keeps one version chain for each workspace, subject and purpose on a registry: `set`
appends a version, `withdraw` appends one for a purpose or for every purpose that the subject has a
record for, and `decision` applies the policy to the latest one. The ledger has no retention
service here, so a withdrawal erases nothing. -/

namespace Himmy

/-! ## The policy -/

def Effect.value : Effect → String
  | .allow => "allow"
  | .ephemeral => "ephemeral"
  | .deny => "deny"

structure ConsentDefaults where
  perPurpose : Purpose → Option Effect := fun _ => none
  fallback : Effect := .deny

def ConsentDefaults.effectFor (defaults : ConsentDefaults) (purpose : Purpose) : Effect :=
  (defaults.perPurpose purpose).getD defaults.fallback

def defaultConsentDefaults : ConsentDefaults where
  perPurpose purpose := if purpose = .infer then some .ephemeral else some .deny

def effectForState (state : ConsentState) (purpose : Purpose) (defaults : ConsentDefaults) :
    Effect :=
  match state with
  | .granted => .allow
  | .denied | .withdrawn => .deny
  | .unknown => defaults.effectFor purpose

structure ConsentPolicy where
  governed : Bool := false
  defaults : ConsentDefaults := defaultConsentDefaults

/-- The `Decision` of the policy. -/
structure PolicyDecision extends Decision where
  subjectId : String
  purpose : Purpose

def ConsentPolicy.decide (policy : ConsentPolicy) (subjectId : String) (purpose : Purpose)
    (state : ConsentState) (surface : Option String) : PolicyDecision :=
  if policy.governed then
    let effect := effectForState state purpose policy.defaults
    let place := match orNone surface with
      | some surface => " @" ++ surface
      | none => ""
    { effect, reason := state.value ++ "->" ++ effect.value ++ place, subjectId, purpose }
  else { effect := .allow, reason := "ungoverned", subjectId, purpose }

/-! ## Consent records -/

structure ConsentRecord where
  subjectId : String
  purpose : Purpose
  state : ConsentState
  workspaceId : Option String := none
  actor : String := ""
  source : String := ""
  basis : Option String := none
  expiresAt : Option String := none
  recordedAt : String

namespace ConsentRecord

variable (record : ConsentRecord)

def key : ConsentKey := ⟨record.workspaceId, record.subjectId, record.purpose.value⟩

/-- `record.model_dump(mode="json")`. -/
def payload : Dict Json := Dict.ofList [
  ("subject_id", .str record.subjectId),
  ("purpose", .str record.purpose.value),
  ("state", .str record.state.value),
  ("workspace_id", .ofOption record.workspaceId),
  ("actor", .str record.actor),
  ("source", .str record.source),
  ("basis", .ofOption record.basis),
  ("expires_at", .ofOption record.expiresAt),
  ("recorded_at", .str record.recordedAt)]

def metadata : Dict Json := Dict.ofList [
  ("subject_id", .str record.subjectId),
  ("purpose", .str record.purpose.value),
  ("state", .str record.state.value),
  ("workspace_id", .ofOption record.workspaceId)]

/-- A field `str | None`. -/
def optionalText : Option Json → Option (Option String)
  | none | some .null => some none
  | some (.str s) => some (some s)
  | some _ => none

/-- A field `str` with a default. -/
def textOr (default : String) : Option Json → Option String
  | none => some default
  | some (.str s) => some s
  | some _ => none

/-- `ConsentRecord.model_validate(payload)`, for a payload with a `recorded_at`. -/
def validate (payload : Dict Json) : Option ConsentRecord := do
  let subjectId ← payload.str? "subject_id"
  let purpose ← (payload.str? "purpose").bind Purpose.ofValue
  let state ← (payload.str? "state").bind ConsentState.ofValue
  let workspaceId ← optionalText (payload.find? "workspace_id")
  let actor ← textOr "" (payload.find? "actor")
  let source ← textOr "" (payload.find? "source")
  let basis ← optionalText (payload.find? "basis")
  let expiresAt ← optionalText (payload.find? "expires_at")
  let recordedAt ← payload.str? "recorded_at"
  return { subjectId, purpose, state, workspaceId, actor, source, basis, expiresAt, recordedAt }

theorem optionalText_ofOption (s : Option String) : optionalText (some (.ofOption s)) = some s := by
  cases s <;> rfl

@[simp] theorem validate_payload : validate record.payload = some record := by
  simp [validate, Dict.str?, payload, Dict.find?_ofList_cons, Dict.find?_ofList_nil,
    optionalText_ofOption, textOr]

end ConsentRecord

/-! ## Reads -/

namespace EntityRegistry

/-- `query` by a kind and metadata that are texts. -/
def query (registry : EntityRegistry) (kind : String) (filters : List (String × String)) :
    List EntityRecord :=
  registry.records.items.filter (fun r =>
    r.kind = kind && filters.all (fun f => r.metadata.str? f.1 = some f.2))

end EntityRegistry

/-- What the calls of the ledger raise. -/
inductive ConsentLedgerError where
  /-- `consent write for … lost too many races` -/
  | lostRaces (subjectId purpose : String)
  /-- a record of the chain is no consent record -/
  | invalidRecord
  /-- `ValueError` of `Purpose(value)` -/
  | unknownPurpose

namespace ConsentLedger

variable (D : Digests) (registry : EntityRegistry) (key : ConsentKey)

def latest : Except ConsentLedgerError (Option ConsentRecord) :=
  match registry.getLatest (consentStableId D key) with
  | none => .ok none
  | some r => match ConsentRecord.validate r.payload with
      | some record => .ok (some record)
      | none => .error .invalidRecord

def history : Except ConsentLedgerError (List ConsentRecord) :=
  match (registry.getHistory (consentStableId D key)).mapM
      (fun r => ConsentRecord.validate r.payload) with
  | some records => .ok records
  | none => .error .invalidRecord

def state : Except ConsentLedgerError ConsentState :=
  match registry.getLatest (consentStableId D key) with
  | none => .ok .unknown
  | some r => match (r.payload.str? "state").bind ConsentState.ofValue with
      | some state => .ok state
      | none => .error .invalidRecord

def decision (policy : ConsentPolicy) (workspaceId : Option String) (subjectId : String)
    (purpose : Purpose) (surface : Option String) : Except ConsentLedgerError PolicyDecision :=
  (state D registry ⟨workspaceId, subjectId, purpose.value⟩).map
    (fun state => policy.decide subjectId purpose state surface)

def purposeValue (r : EntityRecord) : String :=
  match (r.metadata.find? "purpose").filter Json.truthy with
  | some value => value.pyStr
  | none => ((r.payload.find? "purpose").getD .null).pyStr

variable (subjectId : String) (workspaceId : Option String)

def purposeFilter : List (String × String) :=
  ("subject_id", subjectId) :: workspaceId.toList.map (fun w => ("workspace_id", w))

/-- The values that `_purposes_for` has seen, in the order of their records. -/
def purposeValues : List String :=
  (((registry.query consentKind (purposeFilter subjectId workspaceId)).map purposeValue).filter
    (fun value => value ≠ "")).eraseDups

def purposesFor :
    Except ConsentLedgerError (List Purpose) :=
  match (purposeValues registry subjectId workspaceId).mapM Purpose.ofValue with
  | some purposes => .ok purposes
  | none => .error .unknownPurpose

end ConsentLedger

/-! ## Writes -/

/-- The arguments of `set`. -/
structure SetCall where
  subjectId : String
  purpose : Purpose
  state : ConsentState
  workspaceId : Option String := none
  actor : String := ""
  source : String := ""
  basis : Option String := none
  expiresAt : Option String := none

/-- The record of a `set`, at the clock. -/
def SetCall.record (call : SetCall) (recordedAt : String) : ConsentRecord where
  subjectId := call.subjectId
  purpose := call.purpose
  state := call.state
  workspaceId := call.workspaceId
  actor := call.actor
  source := call.source
  basis := call.basis
  expiresAt := call.expiresAt
  recordedAt

/-- The arguments of `withdraw`. -/
structure WithdrawCall where
  subjectId : String
  purpose : Option Purpose := none
  workspaceId : Option String := none
  reason : String := ""
  actor : String := ""
  source : String := ""

/-- The `set` of a withdrawal for a purpose. -/
def WithdrawCall.setCall (call : WithdrawCall) (purpose : Purpose) : SetCall where
  subjectId := call.subjectId
  purpose
  state := .withdrawn
  workspaceId := call.workspaceId
  actor := call.actor
  source := call.source
  basis := orNone (some call.reason)

/-- The clock readings of a `set`: for its record, and for each of its attempts. -/
structure SetDraws where
  recordedAt : String
  createdAt : Nat → String

/-- The `new_version` of an attempt. -/
def ConsentRecord.versionCall (D : Digests) (record : ConsentRecord) (expected : Int)
    (createdAt : String) : NewVersion where
  stableId := consentStableId D record.key
  kind := consentKind
  payload := record.payload
  metadata := record.metadata
  expectedVersion := some expected
  createdAt

@[simp] theorem ConsentRecord.stableId_versionCall (D : Digests) (record : ConsentRecord)
    (expected : Int) (createdAt : String) :
    (record.versionCall D expected createdAt).stableId = consentStableId D record.key := by
  rw [versionCall]

def maxConsentRetry : Nat := 8

namespace ConsentLedger

variable (D : Digests) (registry : EntityRegistry)

/-- The attempts of `set`, of which so many are left. -/
def attempts (record : ConsentRecord) (createdAt : Nat → String) :
    Nat → Except ConsentLedgerError (EntityRegistry × EntityRecord)
  | 0 => .error (.lostRaces record.subjectId record.purpose.value)
  | n + 1 =>
    match registry.newVersion D (record.versionCall D
        (registry.currentVersion (consentStableId D record.key)) (createdAt n)) with
    | .ok stored => .ok stored
    | .error _ => attempts record createdAt n

def set (call : SetCall) (draws : SetDraws) :
    Except ConsentLedgerError (EntityRegistry × EntityRecord) :=
  attempts D registry (call.record draws.recordedAt) draws.createdAt maxConsentRetry

/-- The `set`s of a withdrawal, until one raises. -/
def setAll (call : WithdrawCall) (draws : Purpose → SetDraws) :
    EntityRegistry → List Purpose → EntityRegistry × Except ConsentLedgerError (List EntityRecord)
  | registry, [] => (registry, .ok [])
  | registry, purpose :: purposes =>
    match set D registry (call.setCall purpose) (draws purpose) with
    | .error e => (registry, .error e)
    | .ok (registry', stored) =>
      let (registry'', rest) := setAll call draws registry' purposes
      (registry'', rest.map (stored :: ·))

def withdrawnPurposes (call : WithdrawCall) : Except ConsentLedgerError (List Purpose) :=
  match call.purpose with
  | some purpose =>
    (latest D registry ⟨call.workspaceId, call.subjectId, purpose.value⟩).map
      (fun existing => if existing.isSome then [purpose] else [])
  | none => purposesFor registry call.subjectId call.workspaceId

/-- `withdraw`, without a retention service. -/
def withdraw (call : WithdrawCall) (draws : Purpose → SetDraws) :
    EntityRegistry × Except ConsentLedgerError (List EntityRecord) :=
  match withdrawnPurposes D registry call with
  | .error e => (registry, .error e)
  | .ok purposes => setAll D call draws registry purposes

end ConsentLedger

end Himmy
