import Mathlib.Data.String.Basic
import Mathlib.Data.Finset.Sort
import Himmy.Auth.Rbac
import Himmy.Tools.Models

/-! # Which tools the caller of a run may invoke

The capability of a tool is a permission on the resource `tool`, whose action is the name of the
tool and what is done with it. The gate of a run is built from its principal, or rebuilt from the
actor that was recorded with the run. -/

namespace Himmy.Auth

/-- `sorted(texts)`, as a list of strings. -/
def sortedTexts (texts : Finset String) : Json := .arr ((texts.sort (· ≤ ·)).map .str)

/-- Whether `actor_metadata` has the flag `tool_authz_enforce`. -/
def Principal.enforced (p : Principal) : Bool := !p.allTenants || decide (p.scopes ≠ ∅)

def Principal.actorMetadata (p : Principal) : Dict Json :=
  Dict.ofList
    ([("subject", .str p.subject), ("auth_method", .str p.authMethod)]
      ++ (if p.roles = ∅ then [] else [("roles", sortedTexts p.roles)])
      ++ (if p.scopes = ∅ then [] else [("scopes", sortedTexts p.scopes)])
      ++ ((orNone p.sourceIp).toList.map (fun ip => ("source_ip", .str ip)))
      ++ (if p.enforced then [("tool_authz_enforce", .bool true)] else [])
      ++ (if p.subjectScoped && decide (tenantAdminRole ∉ p.roles) then
          [("subject_scoped", .bool true)]
        else []))

end Himmy.Auth

namespace Himmy.Tools

open Himmy.Auth

def toolResource : String := "tool"

def invokeAction : String := "invoke"

def writeAction : String := "write"

@[ext] structure ToolCapabilityAuthorizer where
  enforce : Bool
  roles : Finset String
  policy : Option AccessPolicy := none
  scopes : Finset String := ∅

/-- What `frozenset(str(v) for v in value or [])` holds, or the type that is not iterable. -/
def textsOf : Option Json → Except String (List String)
  | none => .ok []
  | some value =>
    if !value.truthy then .ok []
    else match value with
      | .arr values => .ok (values.map Json.pyStr)
      | .str text => .ok (text.toList.map (fun c => String.ofList [c]))
      | .obj fields => .ok (fields.map Prod.fst)
      | _ => .error (typeName value)

namespace ToolCapabilityAuthorizer

/-- `cls(enforce=False, roles=frozenset())`. -/
def passThrough : ToolCapabilityAuthorizer := { enforce := false, roles := ∅ }

def fromPrincipal (principal : Option Principal) (policy : Option AccessPolicy) :
    ToolCapabilityAuthorizer :=
  match principal with
  | none => passThrough
  | some p =>
    if p.allTenants && decide (p.scopes = ∅) then passThrough
    else { enforce := true, roles := p.roles, policy := policy, scopes := p.scopes }

def fromActor (actor : Option (Dict Json)) (policy : Option AccessPolicy) :
    Except String ToolCapabilityAuthorizer :=
  match actor with
  | none => .ok passThrough
  | some actor =>
    if !(((actor.find? "tool_authz_enforce").map Json.truthy).getD false) then .ok passThrough
    else do
      let roles ← textsOf (actor.find? "roles")
      let scopes ← textsOf (actor.find? "scopes")
      return { enforce := true, roles := roles.toFinset, policy := policy,
               scopes := scopes.toFinset }

variable (a : ToolCapabilityAuthorizer)

def attenuate : ToolCapabilityAuthorizer := a

/-- The principal that `_grants` asks the policy about. -/
def probe : Principal :=
  { subject := "__tool_authz__", roles := a.roles, scopes := a.scopes }

/-- `_grants`, under a policy. -/
def grants (policy : AccessPolicy) (name action : String) : Bool :=
  policy.authorize a.probe toolResource (name ++ ":" ++ action)

def isAuthorized (name : String) (readOnly : Option Bool) : Bool :=
  if !a.enforce then true
  else match a.policy with
    | none => false
    | some policy =>
      if !a.grants policy name invokeAction then false
      else if readOnly ≠ some true && !a.grants policy name writeAction then false
      else true

/-- The read-only verdict of `authorize_definition`: an inferred one does not count. -/
def assertedReadOnly (definition : ToolDefinition) : Option Bool :=
  if definition.readOnly = some true && definition.readOnlyAuthoritative then some true else none

def authorizeDefinition (a : ToolCapabilityAuthorizer) (definition : ToolDefinition) : Bool :=
  a.isAuthorized definition.name (assertedReadOnly definition)

def actionsFor (name : String) (readOnly : Option Bool) : List String :=
  (name ++ ":" ++ invokeAction) ::
    (if readOnly = some true then [] else [name ++ ":" ++ writeAction])

theorem isAuthorized_iff {a : ToolCapabilityAuthorizer} (henforce : a.enforce = true)
    (name : String) (readOnly : Option Bool) : a.isAuthorized name readOnly = true
      ↔ ∃ policy, a.policy = some policy ∧ ∀ action ∈ actionsFor name readOnly,
          policy.authorize a.probe toolResource action = true := by
  unfold isAuthorized actionsFor grants
  rw [henforce]
  cases a.policy with
  | none => simp
  | some policy =>
    by_cases hread : readOnly = some true
    · simp [hread]
    · simp [hread]

end ToolCapabilityAuthorizer

/-! ## The gate rebuilt from the actor -/

section Actor

theorem textsOf_sortedTexts {texts : Finset String} (h : texts ≠ ∅) :
    textsOf (some (sortedTexts texts)) = .ok (texts.sort (· ≤ ·)) := by
  have hsome : ((texts.sort (· ≤ ·)).map Json.str).isEmpty = false := by
    rw [List.isEmpty_map, List.isEmpty_eq_false_iff]
    intro hnil
    exact h (by rw [← Finset.sort_toFinset texts (· ≤ ·), hnil, List.toFinset_nil])
  simp [textsOf, sortedTexts, Json.truthy, Json.pyStr, Function.comp_def, hsome]

variable (p : Principal)

theorem textsOf_recorded (texts : Finset String) :
    textsOf (if texts = ∅ then none else some (sortedTexts texts)) = .ok (texts.sort (· ≤ ·)) := by
  split_ifs with h
  · rw [h, Finset.sort_empty]
    rfl
  · exact textsOf_sortedTexts h

theorem find?_roles_actorMetadata :
    p.actorMetadata.find? "roles" = if p.roles = ∅ then none else some (sortedTexts p.roles) := by
  cases h : orNone p.sourceIp <;>
    simp [Principal.actorMetadata, Dict.find?_ofList_append, Dict.find?_ofList_cons,
      Dict.find?_ofList_nil, Dict.find?_ofList_ite, h]

theorem find?_scopes_actorMetadata : p.actorMetadata.find? "scopes"
      = if p.scopes = ∅ then none else some (sortedTexts p.scopes) := by
  cases h : orNone p.sourceIp <;>
    simp [Principal.actorMetadata, Dict.find?_ofList_append, Dict.find?_ofList_cons,
      Dict.find?_ofList_nil, Dict.find?_ofList_ite, h]

theorem find?_enforce_actorMetadata : p.actorMetadata.find? "tool_authz_enforce"
      = if p.enforced then some (.bool true) else none := by
  cases h : orNone p.sourceIp <;>
    simp [Principal.actorMetadata, Dict.find?_ofList_append, Dict.find?_ofList_cons,
      Dict.find?_ofList_nil, Dict.find?_ofList_ite, h]

def gateKeys : List String := ["tool_authz_enforce", "roles", "scopes"]

theorem fromActor_eq {actor : Dict Json} {p : Principal}
    (h : ∀ k ∈ gateKeys, actor.find? k = p.actorMetadata.find? k) (policy : Option AccessPolicy) :
    ToolCapabilityAuthorizer.fromActor (some actor) policy
      = .ok (ToolCapabilityAuthorizer.fromPrincipal (some p) policy) := by
  have henforce := h "tool_authz_enforce" (by simp [gateKeys])
  have hroles := h "roles" (by simp [gateKeys])
  have hscopes := h "scopes" (by simp [gateKeys])
  rw [find?_enforce_actorMetadata] at henforce
  rw [find?_roles_actorMetadata] at hroles
  rw [find?_scopes_actorMetadata] at hscopes
  unfold ToolCapabilityAuthorizer.fromActor ToolCapabilityAuthorizer.fromPrincipal
  dsimp only
  rw [henforce, hroles, hscopes, textsOf_recorded, textsOf_recorded]
  -- the flag is recorded exactly when the caller's own gate enforces
  have hflag : (p.allTenants && decide (p.scopes = ∅)) = !p.enforced := by
    simp [Principal.enforced]
  rw [hflag]
  cases p.enforced with
  | false => rfl
  | true =>
    show Except.ok _ = Except.ok _
    simp only [Finset.sort_toFinset, Bool.not_true, Bool.false_eq_true, if_false]

end Actor

end Himmy.Tools
