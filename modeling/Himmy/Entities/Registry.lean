import Himmy.Entities.Records

/-! # The in-memory registry

`EntityRegistry`: the records by id, the versions of each artefact, and the links. A record is never
replaced: a call inserts at most one, under an id that was free (`register_cases`). -/

namespace Himmy

/-- What the calls of a registry raise. -/
inductive RegistryError where
  /-- `Content-address violation for record_id=…` -/
  | contentAddress (recordId kind stableId : String) (version : Int)
  /-- `Optimistic concurrency conflict for stable_id=…` -/
  | versionConflict (stableId : String) (expected found : Int)

/-- The arguments of `new_version`; `createdAt` is the clock. -/
structure NewVersion where
  stableId : String
  kind : String
  payload : Dict Json
  metadata : Dict Json
  expectedVersion : Option Int
  createdAt : String

def NewVersion.record (D : Digests) (call : NewVersion) (version : Int) : EntityRecord :=
  EntityRecord.create D call.stableId version call.kind call.payload call.metadata call.createdAt

structure EntityRegistry where
  records : KeyedList EntityRecord.recordId := KeyedList.empty
  byStableId : Dict (List EntityRecord) := KeyedList.empty
  links : List EntityLink := []

def EntityRecord.sameContent (r s : EntityRecord) : Bool :=
  Json.pyEq (.obj r.payload.items) (.obj s.payload.items)
    && Json.pyEq (.obj r.metadata.items) (.obj s.metadata.items)

namespace EntityRegistry

variable (registry : EntityRegistry)

def get (recordId : String) : Option EntityRecord := registry.records.get? recordId

def getLatest (stableId : String) : Option EntityRecord :=
  (registry.byStableId.find? stableId).bind List.getLast?

def register (record : EntityRecord) : Except RegistryError (EntityRegistry × EntityRecord) :=
  match registry.get record.recordId with
  | some existing =>
    if existing.sameContent record then .ok (registry, existing)
    else .error (.contentAddress record.recordId record.kind record.stableId record.version)
  | none =>
    let versions := (registry.byStableId.find? record.stableId).getD [] ++ [record]
    .ok ({ registry with
      records := registry.records.put record
      byStableId := registry.byStableId.set record.stableId
        (versions.mergeSort (fun r s => r.version ≤ s.version)) }, record)

def currentVersion (stableId : String) : Int :=
  match registry.getLatest stableId with
  | some latest => latest.version
  | none => 0

def newVersion (D : Digests) (call : NewVersion) :
    Except RegistryError (EntityRegistry × EntityRecord) :=
  let current := registry.currentVersion call.stableId
  match call.expectedVersion.filter (fun expected => expected ≠ current) with
  | some expected => .error (.versionConflict call.stableId expected current)
  | none => registry.register (call.record D (current + 1))

def link (link : EntityLink) : EntityRegistry :=
  { registry with links := registry.links ++ [link] }

variable {registry} {registry' : EntityRegistry} {record stored : EntityRecord}

theorem register_cases (h : registry.register record = .ok (registry', stored)) :
    registry' = registry ∨ (registry.get record.recordId = none
      ∧ registry'.records = registry.records.put record ∧ stored = record) := by
  unfold register at h
  split at h
  · split at h <;> cases h
    exact Or.inl rfl
  · next hnone =>
      cases h
      exact Or.inr ⟨hnone, rfl, rfl⟩

theorem register_of_none (h : registry.get record.recordId = none) :
    ∃ registry', registry.register record = .ok (registry', record)
      ∧ registry'.records = registry.records.put record := by
  unfold register
  rw [h]
  exact ⟨_, rfl, rfl⟩

end EntityRegistry

end Himmy
