import Himmy.Library.Transition
import Himmy.Memory.Consolidation

/-! # Sequences of memory calls

`memoryCalls` is the system of a memory service and its consolidator: its labels are their calls
with what they draw, in any order, and the registrations of other components on the shared registry.
A drawn memory id is new to the store. -/

namespace Himmy

/-- A call of the memory subsystem, with what it draws. -/
inductive MemoryCall (D : Digests) (Sim : Type) where
  | remember (call : RememberCall) (draws : RememberDraws D)
  | consolidate (call : ConsolidateCall) (data : Option (Dict Json)) (draws : ConsolidateDraws D)
  | invalidate (memoryId validTo : String) (supersededBy : Option String)
  | promote (memoryId tier recordedAt : String) (event : AuditEvent D)
  | «recall» (call : RecallCall Sim) (event : AuditEvent D)
  /-- another component registers a record -/
  | registered (record : EntityRecord)
  /-- another component draws a link -/
  | linked (link : EntityLink)

def MemoryCall.readings {D : Digests} {Sim : Type} : MemoryCall D Sim → List String
  | .remember _ draws => [draws.createdAt, draws.recordedAt]
  | .consolidate _ _ draws => [draws.now, draws.remember.createdAt, draws.remember.recordedAt]
  | .promote _ _ recordedAt _ => [recordedAt]
  | .invalidate .. | .recall .. | .registered _ | .linked _ => []

namespace MemoryService

variable {σ Sim : Type} [LinearOrder Sim] [Zero Sim] (S : MemoryStore σ) (D : Digests)
  (cfg : MemoryConfig) (E : Embedder Sim) (ccfg : ConsolidatorConfig Sim)

def freshId (store : σ) (memoryId : String) : Bool :=
  memoryId ≠ "" && (S.get store memoryId).isNone

def perform (m : MemoryService σ) : MemoryCall D Sim → MemoryService σ
  | .remember call draws => (m.remember S D cfg call draws).1
  | .consolidate call data draws => (m.consolidate S D cfg E ccfg call data draws).1
  | .invalidate memoryId validTo supersededBy => (m.invalidate S memoryId validTo supersededBy).1
  | .promote memoryId tier recordedAt event => (m.promote S D cfg memoryId tier recordedAt event).1
  | .recall call event => (m.recall S D cfg E ccfg.minSimilarity call event).1
  | .registered record => { m with registry := tryRegister m.registry record }
  | .linked link => { m with registry := m.registry.link link }

def drawsFresh (m : MemoryService σ) : MemoryCall D Sim → Bool
  | .remember _ draws => freshId S m.store draws.memoryId
  | .consolidate _ _ draws => freshId S m.store draws.remember.memoryId
  | _ => true

end MemoryService

def memoryCalls {σ Sim : Type} [LinearOrder Sim] [Zero Sim] (S : MemoryStore σ) (D : Digests)
    (cfg : MemoryConfig) (E : Embedder Sim) (ccfg : ConsolidatorConfig Sim) :
    LTS (MemoryService σ) (MemoryCall D Sim) where
  step m call := if m.drawsFresh S D call then some (m.perform S D cfg E ccfg call) else none

namespace MemoryService

section

variable {σ Sim : Type} [LinearOrder Sim] [Zero Sim] {S : MemoryStore σ} {D : Digests}
  {cfg : MemoryConfig} {E : Embedder Sim} {ccfg : ConsolidatorConfig Sim} {m m' : MemoryService σ}

theorem step_memoryCalls {call : MemoryCall D Sim}
    (h : (memoryCalls S D cfg E ccfg).step m call = some m') :
    m.drawsFresh S D call = true ∧ m' = m.perform S D cfg E ccfg call := by
  unfold memoryCalls at h
  simp only at h
  split at h
  · next hfresh => exact ⟨hfresh, (Option.some.inj h).symm⟩
  · cases h

@[simp] theorem store_recall (call : RecallCall Sim) (event : AuditEvent D) :
    (m.recall S D cfg E ccfg.minSimilarity call event).1.store = m.store := by
  obtain ⟨m₀, hrecall, hm₀⟩ := m.recall_eq S D cfg E ccfg.minSimilarity call event
  rw [hrecall]
  rcases hm₀ with rfl | rfl <;> simp

omit [LinearOrder Sim] [Zero Sim] in
theorem promote_cases (S : MemoryStore σ) (D : Digests) (cfg : MemoryConfig) (m : MemoryService σ)
    (memoryId tier recordedAt : String) (event : AuditEvent D) :
    (m.promote S D cfg memoryId tier recordedAt event).1 = m
      ∨ ∃ record, S.get m.store memoryId = some record ∧ tier ∈ memoryTiers ∧ record.tier ≠ tier
        ∧ (m.promote S D cfg memoryId tier recordedAt event).1
          = ((m.saved S (record.movedTo tier) (.promoted record (record.movedTo tier))).projectFact
              D cfg (record.movedTo tier) 2 recordedAt).emit D cfg event := by
  unfold promote
  split
  · exact Or.inl rfl
  · next htier =>
      split
      · exact Or.inl rfl
      · next record hget =>
          split
          · exact Or.inl rfl
          · next hne => exact Or.inr ⟨record, hget, not_not.1 htier, hne, rfl⟩

omit [LinearOrder Sim] [Zero Sim] in
theorem invalidate_cases (S : MemoryStore σ) (m : MemoryService σ) (memoryId validTo : String)
    (supersededBy : Option String) :
    (S.get m.store memoryId = none ∧ (m.invalidate S memoryId validTo supersededBy).1 = m)
      ∨ ∃ record, S.get m.store memoryId = some record
        ∧ (m.invalidate S memoryId validTo supersededBy).1
          = m.saved S (record.closed validTo supersededBy)
            (.invalidated record (record.closed validTo supersededBy)) := by
  cases hget : S.get m.store memoryId with
  | none => exact Or.inl ⟨rfl, by simp [invalidate, get, hget]⟩
  | some record => exact Or.inr ⟨record, rfl, by rw [invalidate_of_get S m hget]⟩

omit [LinearOrder Sim] [Zero Sim] in
theorem freshId_iff {store : σ} {memoryId : String} :
    freshId S store memoryId = true ↔ memoryId ≠ "" ∧ S.get store memoryId = none := by
  simp [freshId]

end

end MemoryService

end Himmy
