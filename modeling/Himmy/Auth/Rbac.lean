import Mathlib.Data.Finset.Union
import Mathlib.Data.Finset.Option
import Himmy.Core.Json
import Himmy.Core.Text
import Himmy.Library.Lists

/-! # Principals and the access policy

A role grants permissions, pairs of a resource and an action in which `*` stands for any. A token
may carry scopes; those that are permissions on a resource the policy knows narrow what the roles
grant. -/

namespace Himmy.Auth

/-! ## Principals -/

def tenantAdminRole : String := "tenant_admin"

structure Principal where
  subject : String
  tenantIds : Finset String := ∅
  roles : Finset String := ∅
  scopes : Finset String := ∅
  allTenants : Bool := false
  authMethod : String := "anonymous"
  sourceIp : Option String := none
  subjectScoped : Bool := false

/-! ## Permissions -/

structure RbacPolicyError where
  message : String
  deriving DecidableEq

/-- `type(value).__name__`. -/
def typeName : Json → String
  | .null => "NoneType"
  | .bool _ => "bool"
  | .num _ => "int"
  | .str _ => "str"
  | .arr _ => "list"
  | .obj _ => "dict"

abbrev Permission := String × String

def parsePerm (spec : String) : Except RbacPolicyError Permission :=
  if ':' ∉ spec.toList then
    .error ⟨"RBAC permission " ++ (Json.str spec).pyRepr
      ++ " is malformed: expected 'resource:action' (missing ':')"⟩
  else
    -- `partition`: the action keeps any further colon
    let resource := pyStrip isPySpace (spec.toList.takeWhile (· ≠ ':'))
    let action := pyStrip isPySpace (spec.toList.dropWhile (· ≠ ':')).tail
    if resource.isEmpty || action.isEmpty then
      .error ⟨"RBAC permission " ++ (Json.str spec).pyRepr
        ++ " is malformed: both 'resource' and 'action' are required "
        ++ "(use the literal '*' for a wildcard, never an empty half)"⟩
    else .ok (String.ofList resource, String.ofList action)

def covers (perms : Finset Permission) (resource action : String) : Bool :=
  decide (∃ p ∈ perms, (p.1 = resource ∨ p.1 = "*") ∧ (p.2 = action ∨ p.2 = "*"))

theorem covers_iff {perms : Finset Permission} {resource action : String} :
    covers perms resource action = true
      ↔ ∃ p ∈ perms, (p.1 = resource ∨ p.1 = "*") ∧ (p.2 = action ∨ p.2 = "*") := by
  rw [covers, decide_eq_true_eq]

/-! ## The built-in roles -/

def studioReadResources : List String :=
  ["studio.console", "studio.runs", "studio.connections", "studio.google", "studio.approvals",
    "studio.models", "studio.modelcatalog", "studio.agents", "studio.tasks", "studio.chats",
    "studio.cookbook", "studio.notes", "studio.calendar", "studio.memory", "studio.knowledge",
    "studio.evals", "studio.workflows", "studio.files", "studio.mcp", "studio.eval",
    "studio.guardrails", "studio.kb", "studio.learning", "studio.lineage", "studio.missions",
    "studio.notify", "studio.privacy", "studio.projects", "studio.routines", "studio.seclog",
    "studio.teams", "studio.telegram"]

def studioGlobalStoreResources : List String :=
  ["studio.memory", "studio.notes", "studio.tasks", "studio.chats", "studio.cookbook",
    "studio.calendar", "studio.knowledge", "studio.projects", "studio.files", "studio.seclog",
    "studio.lineage", "studio.privacy", "studio.connections", "studio.google", "studio.missions",
    "studio.notify", "studio.kb", "studio.telegram", "studio.mcp", "studio.approvals",
    "studio.models", "studio.routines", "studio.eval", "studio.evals", "studio.workflows",
    "studio.agents", "studio.teams"]

def studioReadPerms : List String :=
  (studioReadResources.filter (fun res => !studioGlobalStoreResources.contains res)).map
    (· ++ ":read")

def defaultRbac : List (String × List String) :=
  [("viewer", ["run:read", "recommendation:read", "context:read", "dashboard:read",
      "evaluation:read", "connector:read", "agent:read", "knowledge:read", "routine:read",
      "model:read", "diagnostics:read"] ++ studioReadPerms),
    ("operator", ["run:read", "run:write", "recommendation:read", "recommendation:write",
      "context:read", "context:write", "dashboard:read", "evaluation:read", "evaluation:write",
      "consent:read", "consent:write", "connector:read", "agent:read", "agent:write",
      "knowledge:read", "knowledge:write", "routine:read", "routine:write", "model:read",
      "model:write", "diagnostics:read", "tool:*"] ++ studioReadPerms),
    ("auditor", ["run:read", "recommendation:read", "context:read", "dashboard:read",
      "evaluation:read", "audit:read", "audit:run", "consent:read", "connector:read",
      "agent:read", "knowledge:read", "routine:read", "model:read", "diagnostics:read"]
      ++ studioReadPerms),
    ("data_subject", ["consent:read"]),
    ("admin", ["*:*"])]

/-- `spec.split(":", 1)[0]`. -/
def resourceOf (spec : String) : String := String.ofList (spec.toList.takeWhile (· ≠ ':'))

def builtinResources : Finset String :=
  ((defaultRbac.flatMap Prod.snd).map resourceOf).toFinset.erase "*"

/-! ## The policy -/

structure AccessPolicy where
  rolePermissions : Dict (Finset Permission)

namespace AccessPolicy

variable (policy : AccessPolicy)

def namedResources : Finset String :=
  ((policy.rolePermissions.items.map Prod.snd).toFinset.biUnion
    (fun perms => perms.image Prod.fst)).erase "*"

def knownResources : Finset String :=
  policy.namedResources ∪ builtinResources

def roleGrants (role resource action : String) : Bool :=
  match policy.rolePermissions.find? role with
  | some perms => covers perms resource action
  | none => false

end AccessPolicy

def scopePermission (known : Finset String) (scope : String) : Option Permission :=
  match parsePerm scope with
  | .ok perm => if perm.1 ∈ known then some perm else none
  | .error _ => none

def scopePermissions (scopes known : Finset String) : Finset Permission :=
  scopes.biUnion (fun scope => (scopePermission known scope).toFinset)

def AccessPolicy.authorize (policy : AccessPolicy) (principal : Principal)
    (resource action : String) : Bool :=
  let grantedByRole := decide (∃ role ∈ principal.roles,
    policy.roleGrants role resource action = true)
  if !grantedByRole then false
  else
    let scopePerms := scopePermissions principal.scopes policy.knownResources
    if scopePerms = ∅ then true
    else covers scopePerms resource action

end Himmy.Auth
