import Mathlib.Data.Finset.Insert
import Himmy.Library.Narrowing
import Himmy.Tools.Capability

/-! # Scopes narrow what the roles grant

A principal reaches what its roles grant, narrowed by the scopes that the policy recognizes: those
that parse and name a resource of the policy or a built-in one. Scopes that are not recognized
restrict nothing, and `*` is not a resource, so a token all of whose scopes are of this kind reaches
what its roles do (`authorize_wildcardScope`). -/

namespace Himmy.Auth

open Himmy.Tools

def named (perms : Finset Permission) : Set Permission :=
  {perm | covers perms perm.1 perm.2 = true}

theorem mem_named_iff {perms : Finset Permission} {perm : Permission} :
    perm ∈ named perms ↔ ∃ q ∈ perms, perm ∈ named {q} := by
  simp [named, covers_iff]

namespace AccessPolicy

variable (policy : AccessPolicy)

def reach (roles : Finset String) : Set Permission :=
  {perm | ∃ role ∈ roles, policy.roleGrants role perm.1 perm.2 = true}

def permitted (p : Principal) : Set Permission :=
  {perm | policy.authorize p perm.1 perm.2 = true}

def recognized (p : Principal) : Finset Permission :=
  scopePermissions p.scopes policy.knownResources

theorem reach_mono {roles roles' : Finset String} (h : roles ⊆ roles') :
    policy.reach roles ⊆ policy.reach roles' := by
  rintro perm ⟨role, hrole, hgrant⟩
  exact ⟨role, h hrole, hgrant⟩

variable (p : Principal)

theorem permitted_eq : policy.permitted p
      = narrow (policy.reach p.roles) (fun q => named {q}) ↑(policy.recognized p) := by
  ext perm
  simp only [permitted, authorize, narrow, reach, Set.mem_ofPred_eq, Finset.coe_nonempty,
    SetLike.mem_coe, ← mem_named_iff]
  by_cases hrole : ∃ role ∈ p.roles, policy.roleGrants role perm.1 perm.2 = true
  · by_cases hscopes : scopePermissions p.scopes policy.knownResources = ∅
    · simp [hrole, hscopes, recognized]
    · simp [hrole, hscopes, recognized, named, Finset.nonempty_iff_ne_empty]
  · simp [hrole]

@[simp] theorem recognized_withoutScopes : policy.recognized { p with scopes := ∅ } = ∅ := by
  simp [recognized, scopePermissions]

theorem permitted_withoutScopes :
    policy.permitted { p with scopes := ∅ } = policy.reach p.roles := by
  rw [permitted_eq, recognized_withoutScopes, Finset.coe_empty, narrow_empty]

theorem recognized_insert (scope : String) :
    policy.recognized { p with scopes := insert scope p.scopes }
      = (scopePermission policy.knownResources scope).toFinset ∪ policy.recognized p := by
  simp [recognized, scopePermissions, Finset.biUnion_insert]

theorem permitted_subset : policy.permitted p ⊆ policy.permitted { p with scopes := ∅ } := by
  rw [permitted_withoutScopes, permitted_eq]
  exact narrow_subset

theorem permitted_mono_roles {roles : Finset String} (h : p.roles ⊆ roles) :
    policy.permitted p ⊆ policy.permitted { p with roles := roles } := by
  rw [permitted_eq, permitted_eq]
  exact narrow_mono_reach (policy.reach_mono h)

variable {p : Principal}

theorem permitted_subset_named (h : (policy.recognized p).Nonempty) :
    policy.permitted p ⊆ named (policy.recognized p) := by
  rw [permitted_eq]
  intro perm hperm
  exact mem_named_iff.2 (hperm.2 (Finset.coe_nonempty.2 h))

theorem permitted_of_unrecognized (h : policy.recognized p = ∅) :
    policy.permitted p = policy.permitted { p with scopes := ∅ } := by
  rw [permitted_withoutScopes, permitted_eq, h, Finset.coe_empty, narrow_empty]

theorem permitted_insert_unrecognized (p : Principal) {scope : String}
    (h : scopePermission policy.knownResources scope = none) :
    policy.permitted { p with scopes := insert scope p.scopes } = policy.permitted p := by
  rw [permitted_eq, permitted_eq, recognized_insert, h, Option.toFinset_none, Finset.empty_union]

theorem permitted_insert (h : (policy.recognized p).Nonempty) {scope : String}
    {perm : Permission} (hscope : scopePermission policy.knownResources scope = some perm) :
    policy.permitted { p with scopes := insert scope p.scopes }
      = policy.permitted p ∪ (policy.reach p.roles ∩ named {perm}) := by
  rw [permitted_eq, permitted_eq, recognized_insert, hscope, Option.toFinset_some,
    Finset.coe_union, Finset.coe_singleton, Set.singleton_union]
  exact narrow_insert (Finset.coe_nonempty.2 h) perm

end AccessPolicy

/-! ## The gate of the tools -/

section Gate

variable {policy : AccessPolicy} {name : String} {readOnly : Option Bool}

def enforcingGate (policy : AccessPolicy) (roles scopes : Finset String) :
    ToolCapabilityAuthorizer :=
  { enforce := true, roles := roles, policy := some policy, scopes := scopes }

theorem enforcingGate_isAuthorized_iff {roles scopes : Finset String} :
    (enforcingGate policy roles scopes).isAuthorized name readOnly = true
      ↔ ∀ action ∈ ToolCapabilityAuthorizer.actionsFor name readOnly,
        (toolResource, action) ∈ policy.permitted (enforcingGate policy roles scopes).probe := by
  rw [ToolCapabilityAuthorizer.isAuthorized_iff rfl]
  simp only [enforcingGate, Option.some.injEq, exists_eq_left', AccessPolicy.permitted,
    Set.mem_ofPred_eq]

theorem enforcingGate_mono {roles roles' scopes scopes' : Finset String}
    (h : policy.permitted (enforcingGate policy roles scopes).probe
      ⊆ policy.permitted (enforcingGate policy roles' scopes').probe)
    (hgate : (enforcingGate policy roles scopes).isAuthorized name readOnly = true) :
    (enforcingGate policy roles' scopes').isAuthorized name readOnly = true := by
  rw [enforcingGate_isAuthorized_iff] at hgate ⊢
  intro action haction
  exact h (hgate action haction)

end Gate

/-! ## Narrowing -/

/-- **Scopes narrow.** What a token is permitted, its roles alone permit; a further role takes
    nothing away. Once a scope of the token is recognized, what is permitted is what the recognized
    scopes name: an unrecognized scope changes nothing then, and a recognized one adds what it names
    of what the roles grant. The gate of the tools narrows alike. -/
theorem AccessPolicy.permitted_narrows (policy : AccessPolicy) (p : Principal) :
    policy.permitted p ⊆ policy.permitted { p with scopes := ∅ }
    ∧ (∀ role, policy.permitted p ⊆ policy.permitted { p with roles := insert role p.roles })
    ∧ (∀ name readOnly, (enforcingGate policy p.roles p.scopes).isAuthorized name readOnly = true →
        (enforcingGate policy p.roles ∅).isAuthorized name readOnly = true
        ∧ ∀ role,
          (enforcingGate policy (insert role p.roles) p.scopes).isAuthorized name readOnly = true)
    ∧ (policy.recognized p = ∅ → policy.permitted p = policy.permitted { p with scopes := ∅ })
    ∧ ((policy.recognized p).Nonempty →
        policy.permitted p ⊆ named (policy.recognized p)
        ∧ (∀ scope, scopePermission policy.knownResources scope = none →
            policy.permitted { p with scopes := insert scope p.scopes } = policy.permitted p)
        ∧ (∀ scope perm, scopePermission policy.knownResources scope = some perm →
            policy.permitted { p with scopes := insert scope p.scopes }
              = policy.permitted p ∪ (policy.permitted { p with scopes := ∅ } ∩ named {perm}))
        ∧ ∀ name readOnly,
            (enforcingGate policy p.roles p.scopes).isAuthorized name readOnly = true →
            ∀ action ∈ ToolCapabilityAuthorizer.actionsFor name readOnly,
              (toolResource, action) ∈ named (policy.recognized p)) := by
  refine ⟨policy.permitted_subset p, ?_, ?_, policy.permitted_of_unrecognized, ?_⟩
  · intro role
    exact policy.permitted_mono_roles p (Finset.subset_insert role p.roles)
  · intro name readOnly hauth
    constructor
    · exact enforcingGate_mono (policy.permitted_subset _) hauth
    · intro role
      exact enforcingGate_mono (policy.permitted_mono_roles _ (Finset.subset_insert role _)) hauth
  · intro hrec
    refine ⟨policy.permitted_subset_named hrec, ?_, ?_, ?_⟩
    · intro scope hscope
      exact policy.permitted_insert_unrecognized p hscope
    · intro scope perm hscope
      rw [policy.permitted_withoutScopes]
      exact policy.permitted_insert hrec hscope
    · intro name readOnly hauth action haction
      rw [enforcingGate_isAuthorized_iff] at hauth
      exact policy.permitted_subset_named (p := (enforcingGate policy p.roles p.scopes).probe) hrec
        (hauth action haction)

/-! ## A policy with an administrator and readers -/

def samplePolicy : AccessPolicy :=
  ⟨⟨[("admin", {("*", "*")}), ("reader", {("run", "read")})], by simp⟩⟩

def scopedToken (scope : String) : Principal :=
  { subject := "ci", roles := {"admin"}, scopes := {scope} }

theorem star_notMem_knownResources (policy : AccessPolicy) : "*" ∉ policy.knownResources := by
  simp [AccessPolicy.knownResources, AccessPolicy.namedResources, builtinResources]

theorem parsePerm_readAnything : parsePerm "*:read" = .ok ("*", "read") := rfl

theorem parsePerm_readRuns : parsePerm "run:read" = .ok ("run", "read") := rfl

theorem samplePolicy_recognized :
    samplePolicy.recognized (scopedToken "run:read") = {("run", "read")} := by
  have hknown : "run" ∈ samplePolicy.knownResources :=
    Finset.mem_union_left _ (by decide)
  simp [AccessPolicy.recognized, scopePermissions, scopedToken, scopePermission,
    parsePerm_readRuns, hknown]

/-- The permissions of the scopes of the form `resource:action`. -/
def shapedPermissions (scopes : Finset String) : Finset Permission :=
  scopes.biUnion (fun scope => (parsePerm scope).toOption.toFinset)

/-- The scope `*:read` has the form of a permission, and does not keep the token of an
    administrator from writing. -/
theorem authorize_wildcardScope :
    ¬ ∀ (policy : AccessPolicy) (p : Principal) (resource action : String),
      (shapedPermissions p.scopes).Nonempty → policy.authorize p resource action = true →
        covers (shapedPermissions p.scopes) resource action = true := by
  intro hclaim
  have hshaped : shapedPermissions (scopedToken "*:read").scopes = {("*", "read")} := by
    simp [shapedPermissions, scopedToken, parsePerm_readAnything, Except.toOption]
  have hrec : samplePolicy.recognized (scopedToken "*:read") = ∅ := by
    simp [AccessPolicy.recognized, scopePermissions, scopedToken, scopePermission,
      parsePerm_readAnything, star_notMem_knownResources]
  have hgrant : ("run", "write") ∈ samplePolicy.permitted (scopedToken "*:read") := by
    rw [samplePolicy.permitted_of_unrecognized hrec, samplePolicy.permitted_withoutScopes]
    exact ⟨"admin", by decide, by decide⟩
  have hcover := hclaim samplePolicy (scopedToken "*:read") "run" "write"
    (hshaped ▸ Finset.singleton_nonempty _) hgrant
  rw [hshaped] at hcover
  revert hcover
  decide

/-- The scope `run:read` leaves an administrator the reading of runs. -/
theorem permitted_narrows_readRuns :
    samplePolicy.permitted (scopedToken "run:read") ⊆ named {("run", "read")}
    ∧ ("run", "write") ∉ samplePolicy.permitted (scopedToken "run:read") := by
  obtain ⟨-, -, -, -, hnarrow⟩ := samplePolicy.permitted_narrows (scopedToken "run:read")
  obtain ⟨hnamed, -⟩ := hnarrow (samplePolicy_recognized ▸ Finset.singleton_nonempty _)
  rw [samplePolicy_recognized] at hnamed
  refine ⟨hnamed, fun hwrite => ?_⟩
  have hcovered := hnamed hwrite
  revert hcovered
  show ¬ covers {("run", "read")} "run" "write" = true
  decide

end Himmy.Auth
