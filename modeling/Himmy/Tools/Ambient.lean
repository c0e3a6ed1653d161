import Mathlib.Data.List.Chain
import Himmy.Auth.Scopes
import Himmy.Tools.Service

/-! # The gate in force

A tool service may be handed a gate, and a run binds one for everything that executes under it. What
is enforced is the intersection of the two; where there is neither, everything is denied once an
authenticator is configured. A binding replaces the one around it until its block ends. -/

namespace Himmy.Tools

open Himmy.Auth
open ToolCapabilityAuthorizer (fromActor fromPrincipal)

/-- `ToolAuthorizer`, in its three shapes. -/
inductive ToolAuthorizer where
  | capability (a : ToolCapabilityAuthorizer)
  /-- `DENY_ALL` -/
  | denyAll
  /-- `_IntersectionAuthorizer` -/
  | intersection (a b : ToolAuthorizer)

namespace ToolAuthorizer

def authorizeDefinition (definition : ToolDefinition) : ToolAuthorizer → Bool
  | .capability a => a.authorizeDefinition definition
  | .denyAll => false
  | .intersection a b => a.authorizeDefinition definition && b.authorizeDefinition definition

def attenuate : ToolAuthorizer → ToolAuthorizer
  | .capability a => .capability a.attenuate
  | .denyAll => .denyAll
  | .intersection a b => .intersection a.attenuate b.attenuate

def permits (a : ToolAuthorizer) : Set ToolDefinition :=
  {definition | a.authorizeDefinition definition = true}

@[simp] theorem permits_denyAll : denyAll.permits = ∅ := by
  ext definition
  simp [permits, authorizeDefinition]

@[simp] theorem permits_intersection (a b : ToolAuthorizer) :
    (intersection a b).permits = a.permits ∩ b.permits := by
  ext definition
  simp [permits, authorizeDefinition]

@[simp] theorem permits_attenuate (a : ToolAuthorizer) : a.attenuate.permits = a.permits := by
  induction a with
  | capability a => rfl
  | denyAll => rfl
  | intersection a b iha ihb =>
    rw [attenuate, permits_intersection, permits_intersection, iha, ihb]

@[simp] theorem permits_attenuate_iterate (n : Nat) (a : ToolAuthorizer) :
    (attenuate^[n] a).permits = a.permits := by
  induction n generalizing a with
  | zero => rfl
  | succ n ih => rw [Function.iterate_succ_apply, ih, permits_attenuate]

end ToolAuthorizer

/-- Which authorizers are one object, as `a is b` tells. -/
structure Identity where
  isSame : ToolAuthorizer → ToolAuthorizer → Bool
  eq_of_isSame : ∀ {a b}, isSame a b = true → a = b

/-- The bindings of `_active_authorizer` that are in force, the innermost first. -/
abbrev Bindings := List (Option ToolAuthorizer)

def Bindings.current : Bindings → Option ToolAuthorizer
  | [] => none
  | binding :: _ => binding

/-- `use_tool_authorizer`, for what its block runs. -/
def Bindings.use (authorizer : Option ToolAuthorizer) (bindings : Bindings) : Bindings :=
  authorizer :: bindings

def resolveEffectiveAuthorizer (identity : Identity) (authConfigured : Bool) (bindings : Bindings)
    (explicit : Option ToolAuthorizer) : Option ToolAuthorizer :=
  match explicit, bindings.current with
  | none, none => if authConfigured then some .denyAll else none
  | none, some ambient => some ambient
  | some explicit, none => some explicit
  | some explicit, some ambient =>
    if identity.isSame explicit ambient then some explicit
    else some (.intersection explicit ambient)

def gated : Option ToolAuthorizer → Set ToolDefinition
  | none => Set.univ
  | some a => a.permits

section Effective

variable (identity : Identity) (authConfigured : Bool) (bindings : Bindings)
variable (explicit : Option ToolAuthorizer)

theorem gated_resolve : gated (resolveEffectiveAuthorizer identity authConfigured bindings explicit)
      = gated explicit ∩ gated bindings.current
        ∩ {_definition | explicit.isSome ∨ bindings.current.isSome ∨ authConfigured = false} := by
  ext definition
  unfold resolveEffectiveAuthorizer
  cases explicit with
  | none =>
    cases hcurrent : bindings.current with
    | none => cases authConfigured <;> simp [gated]
    | some ambient => simp [gated]
  | some explicit =>
    cases hcurrent : bindings.current with
    | none => simp [gated]
    | some ambient =>
      by_cases hsame : identity.isSame explicit ambient = true
      · obtain rfl := identity.eq_of_isSame hsame
        simp [gated, hsame]
      · simp [gated, hsame]

theorem gated_resolve_attenuate (n m : Nat) (ambient : Option ToolAuthorizer) :
    gated (resolveEffectiveAuthorizer identity authConfigured
        (bindings.use (ambient.map ToolAuthorizer.attenuate^[m]))
        (explicit.map ToolAuthorizer.attenuate^[n]))
      = gated (resolveEffectiveAuthorizer identity authConfigured (bindings.use ambient) explicit) := by
  rw [gated_resolve, gated_resolve]
  cases explicit <;> cases ambient <;>
    simp [gated, Bindings.use, Bindings.current]

end Effective

def Bindings.Attenuating (bindings : Bindings) : Prop :=
  bindings.IsChain (fun inner outer => gated inner ⊆ gated outer)

theorem Bindings.Attenuating.gated_current_subset {bindings : Bindings}
    (h : bindings.Attenuating) {binding : Option ToolAuthorizer} (hmem : binding ∈ bindings) :
    gated bindings.current ⊆ gated binding := by
  cases bindings with
  | nil => cases hmem
  | cons inner outer =>
    have hpairwise := List.isChain_iff_pairwise
      (R := fun inner outer => gated inner ⊆ gated outer) |>.1 h
    rcases List.mem_cons.1 hmem with rfl | hmem
    · exact subset_rfl
    · exact List.rel_of_pairwise_cons hpairwise hmem

/-! ## Delegation -/

/-- **Delegation.** A tool is dispatched only if the explicit gate and the binding in force permit
    it, and with an authenticator only if there is one of them; attenuating either changes nothing.
    Where each binding permits no more than the one around it, every binding permits the tool. The
    gate that is rebuilt from the recorded actor of a principal is the principal's. -/
theorem delegation_narrows (identity : Identity) (authConfigured : Bool) (bindings : Bindings)
    (explicit : Option ToolAuthorizer) :
    gated (resolveEffectiveAuthorizer identity authConfigured bindings explicit)
        ⊆ gated explicit ∩ gated bindings.current
    ∧ (explicit = none → bindings.current = none → authConfigured = true →
        gated (resolveEffectiveAuthorizer identity authConfigured bindings explicit) = ∅)
    ∧ (∀ n m ambient, gated (resolveEffectiveAuthorizer identity authConfigured
            (bindings.use (Option.map ToolAuthorizer.attenuate^[m] ambient))
            (explicit.map ToolAuthorizer.attenuate^[n]))
          = gated (resolveEffectiveAuthorizer identity authConfigured (bindings.use ambient)
              explicit)) ∧ (bindings.Attenuating → ∀ binding ∈ bindings,
        gated (resolveEffectiveAuthorizer identity authConfigured bindings explicit)
          ⊆ gated binding) ∧ ∀ (p : Principal) (policy : Option AccessPolicy) (actor : Dict Json),
        (∀ k ∈ gateKeys, actor.find? k = p.actorMetadata.find? k) → fromActor (some actor) policy
          = .ok (fromPrincipal (some p) policy) := by
  have hboth : gated (resolveEffectiveAuthorizer identity authConfigured bindings explicit)
      ⊆ gated explicit ∩ gated bindings.current := by
    rw [gated_resolve]
    exact Set.inter_subset_left
  refine ⟨hboth, ?_, ?_, ?_, ?_⟩
  · intro hexplicit hcurrent hauth
    rw [gated_resolve, hexplicit, hcurrent, hauth]
    simp
  · intro n m ambient
    exact gated_resolve_attenuate identity authConfigured bindings explicit n m ambient
  · intro hattenuating binding hmem definition hdefinition
    exact hattenuating.gated_current_subset hmem (hboth hdefinition).2
  · intro p policy actor hactor
    exact fromActor_eq hactor policy

def apart : Identity := ⟨fun _ _ => false, nofun⟩

def adminGate : ToolAuthorizer := .capability (enforcingGate samplePolicy {"admin"} ∅)

def readerGate : ToolAuthorizer := .capability (enforcingGate samplePolicy {"reader"} ∅)

def shell : ToolDefinition := { name := "shell", kind := .local }

theorem shell_mem_adminGate : shell ∈ adminGate.permits := by
  show (enforcingGate samplePolicy {"admin"} ∅).isAuthorized "shell" none = true
  rw [enforcingGate_isAuthorized_iff]
  intro action _
  show _ ∈ samplePolicy.permitted { (enforcingGate samplePolicy {"admin"} ∅).probe with scopes := ∅ }
  rw [AccessPolicy.permitted_withoutScopes]
  refine ⟨"admin", by decide, ?_⟩
  show covers {("*", "*")} toolResource action = true
  simp [covers_iff]

theorem shell_notMem_readerGate : shell ∉ readerGate.permits := by
  show ¬ (enforcingGate samplePolicy {"reader"} ∅).isAuthorized "shell" none = true
  rw [enforcingGate_isAuthorized_iff]
  intro h
  obtain ⟨role, hrole, hgrant⟩ :=
    samplePolicy.permitted_eq _ ▸ h ("shell:" ++ invokeAction) (by decide) |>.1
  obtain rfl := Finset.mem_singleton.1 hrole
  revert hgrant
  decide

/-- A reader's sub-agent with a gate of its own, bound inside the reader's: the tool that the
    reader may not invoke is dispatched. -/
theorem delegation_rebinding :
    ¬ ∀ (identity : Identity) (authConfigured : Bool) (bindings : Bindings)
        (explicit : Option ToolAuthorizer), ∀ binding ∈ bindings,
        gated (resolveEffectiveAuthorizer identity authConfigured bindings explicit)
          ⊆ gated binding := by
  intro hclaim
  have hsub := hclaim apart true
    (Bindings.use (some adminGate.attenuate) (Bindings.use (some readerGate) []))
    (some adminGate) (some readerGate) (by simp [Bindings.use])
  refine shell_notMem_readerGate (hsub ?_)
  rw [gated_resolve]
  simp [gated, Bindings.use, Bindings.current, shell_mem_adminGate]

/-- A sub-agent that inherits a reader's gate. -/
theorem delegation_narrows_reader : shell ∉ gated (resolveEffectiveAuthorizer apart true
        [some readerGate.attenuate, some readerGate] (some adminGate))
    ∧ fromActor (some (scopedToken "run:read").actorMetadata) (some samplePolicy)
        = .ok (fromPrincipal (some (scopedToken "run:read")) (some samplePolicy)) := by
  obtain ⟨-, -, -, hbindings, hactor⟩ := delegation_narrows apart true
    [some readerGate.attenuate, some readerGate] (some adminGate)
  constructor
  · intro hshell
    refine shell_notMem_readerGate (hbindings ?_ (some readerGate) (by simp) hshell)
    simp [Bindings.Attenuating, gated]
  · exact hactor _ _ _ (fun _ _ => rfl)

end Himmy.Tools
