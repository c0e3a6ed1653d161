import Himmy.Entities.Projection
import Himmy.Entities.Registry
import Himmy.Memory.Store

/-! # The memory service

`MemoryService` writes memories to its store and, when a registry is attached, projects each of them
onto the spine as a record of kind `memory_fact`. Its state has, beside the store and the registry,
a journal of the writes in their order; the code keeps none.

The embedder, the clock and the drawn ids are given to each call. -/

namespace Himmy

open EntityRecord (recordIdFor create)

/-! ## The projection of a memory -/

def memoryFactKind : String := "memory_fact"

namespace MemoryRecord

variable (D : Digests) (record : MemoryRecord)

def stableValue : String := pyOr record.stableKey record.memoryId

def factId : String :=
  stableIdFor D record.stableValue memoryFactKind (some record.memoryId)

def factPayload : Dict Json := Dict.ofList [
  ("memory_id", .str record.memoryId),
  ("subject_id", .str record.subjectId),
  ("kind", .str record.kind),
  ("text", .str record.text),
  ("valid_from", .str record.validFrom),
  ("source", .str record.source),
  ("stable_key", .ofOption record.stableKey)]

def factMetadata : Dict Json := Dict.ofList [
  ("subject_id", .str record.subjectId),
  ("tier", .str record.tier),
  ("valid_to", .ofOption record.validTo),
  ("superseded_by", .ofOption record.supersededBy),
  ("confidence", record.confidence),
  ("source", .str record.source)]

variable (version : Int) (recordedAt : String)

/-- `memory_to_record`, at the `created_at` of the spine record. -/
def toRecord : EntityRecord :=
  project D record.stableValue memoryFactKind memoryFactKind version (some record.memoryId)
    record.factPayload record.factMetadata recordedAt

def spineId : String :=
  recordIdFor D (record.factId D) version memoryFactKind

@[simp] theorem recordId_toRecord :
    (record.toRecord D version recordedAt).recordId = record.spineId D version := by
  rw [toRecord, project, create, spineId, factId]

@[simp] theorem stableId_toRecord :
    (record.toRecord D version recordedAt).stableId = record.factId D := by
  rw [toRecord, project, create, factId]

@[simp] theorem version_toRecord : (record.toRecord D version recordedAt).version = version := by
  rw [toRecord, project, create]

@[simp] theorem kind_toRecord : (record.toRecord D version recordedAt).kind = memoryFactKind := by
  rw [toRecord, project, create]

end MemoryRecord

/-- The record of a `RunEvent` on the spine. -/
structure AuditEvent (D : Digests) where
  record : EntityRecord
  kind_eq : record.kind = "run_event"
  recordId_eq : record.recordId
    = recordIdFor D record.stableId record.version record.kind

/-! ## Validity -/

def isValidAt (record : MemoryRecord) (asOf : String) : Bool :=
  if asOf < record.validFrom then false
  else !record.validTo.any (fun validTo => validTo ≤ asOf)

def filterAsOf (records : List MemoryRecord) (asOf : String) : List MemoryRecord :=
  records.filter (fun r => isValidAt r asOf)

theorem isValidAt_iff {record : MemoryRecord} {asOf : String} : isValidAt record asOf = true ↔
    record.validFrom ≤ asOf ∧ ∀ validTo ∈ record.validTo, asOf < validTo := by
  unfold isValidAt
  split
  · next h => simp [not_le.2 h]
  · next h =>
      cases record.validTo with
      | none => simp [not_lt.1 h]
      | some validTo => simp [not_lt.1 h]

/-! ## The service -/

/-- A write of the memory subsystem. -/
inductive MemoryWrite where
  | remembered (record : MemoryRecord)
  | invalidated (old new : MemoryRecord)
  | promoted (old new : MemoryRecord)
  /-- a link on the spine, from the record of one memory to the record of another -/
  | linked (src dst : MemoryRecord) (relation : String)

/-- The store and the registry of a `MemoryService`, and the writes so far. -/
structure MemoryService (σ : Type) where
  store : σ
  registry : EntityRegistry := {}
  journal : List MemoryWrite := []

/-- What the service and the consolidator are constructed with. -/
structure MemoryConfig where
  /-- the service projects onto the registry -/
  serviceRegistry : Bool
  /-- the consolidator links on the registry -/
  consolidatorRegistry : Bool

/-- The arguments of `remember`. -/
structure RememberCall where
  text : String
  subjectId : String := "default"
  kind : String := "semantic"
  metadata : Dict Json := KeyedList.empty
  tier : String := "recall"
  source : String := "user"
  confidence : Json := .num 1
  stableKey : Option String := none
  projectVersion : Int := 1

/-- What a `remember` draws: the id of the memory, the clock for its `created_at` and for its spine
    record, and its event. -/
structure RememberDraws (D : Digests) where
  memoryId : String
  createdAt : String
  recordedAt : String
  event : AuditEvent D

variable (call : RememberCall) (memoryId createdAt : String)

def RememberCall.record : MemoryRecord where
  memoryId
  subjectId := call.subjectId
  kind := call.kind
  text := call.text
  metadata := call.metadata
  createdAt
  tier := if call.tier ∈ memoryTiers then call.tier else "recall"
  source := call.source
  confidence := call.confidence
  stableKey := call.stableKey

/-- The record that `invalidate` saves. -/
def MemoryRecord.closed (record : MemoryRecord) (validTo : String) (supersededBy : Option String) :
    MemoryRecord :=
  { record with validTo := some validTo, supersededBy }

/-- The record that `promote` saves. -/
def MemoryRecord.movedTo (record : MemoryRecord) (tier : String) : MemoryRecord :=
  { record with tier }

@[simp] theorem RememberCall.memoryId_record :
    (call.record memoryId createdAt).memoryId = memoryId := rfl

@[simp] theorem RememberCall.subjectId_record :
    (call.record memoryId createdAt).subjectId = call.subjectId := rfl

namespace MemoryRecord

variable (record : MemoryRecord) (validTo tier : String) (supersededBy : Option String)

@[simp] theorem memoryId_closed : (record.closed validTo supersededBy).memoryId = record.memoryId :=
  rfl

@[simp] theorem subjectId_closed :
    (record.closed validTo supersededBy).subjectId = record.subjectId := rfl

@[simp] theorem validTo_closed : (record.closed validTo supersededBy).validTo = some validTo := rfl

@[simp] theorem memoryId_movedTo : (record.movedTo tier).memoryId = record.memoryId := rfl

@[simp] theorem validTo_movedTo : (record.movedTo tier).validTo = record.validTo := rfl

end MemoryRecord

/-- What `promote` raises. -/
inductive MemoryError where
  /-- `unknown tier …; expected one of …` -/
  | unknownTier (tier : String)

namespace MemoryService

variable {σ : Type} (S : MemoryStore σ) (D : Digests) (cfg : MemoryConfig) (m : MemoryService σ)

def tryRegister (registry : EntityRegistry) (record : EntityRecord) : EntityRegistry :=
  match registry.register record with
  | .ok (registry', _) => registry'
  | .error _ => registry

variable (record : MemoryRecord)

def projectFact (version : Int) (recordedAt : String) : MemoryService σ :=
  if cfg.serviceRegistry then
    { m with registry := tryRegister m.registry (record.toRecord D version recordedAt) }
  else m

/-- `_emit`, as far as the registry sees it. -/
def emit (event : AuditEvent D) : MemoryService σ :=
  if cfg.serviceRegistry then { m with registry := tryRegister m.registry event.record } else m

/-- `self._store.save(record)`. -/
def saved (write : MemoryWrite) : MemoryService σ :=
  { m with store := S.save m.store record, journal := m.journal ++ [write] }

variable (call : RememberCall) (draws : RememberDraws D)

def remember : MemoryService σ × MemoryRecord :=
  let record := call.record draws.memoryId draws.createdAt
  let m := m.saved S record (.remembered record)
  let m := m.projectFact D cfg record call.projectVersion draws.recordedAt
  (m.emit D cfg draws.event, record)

def get (memoryId : String) : Option MemoryRecord := S.get m.store memoryId

def invalidate (memoryId validTo : String) (supersededBy : Option String) :
    MemoryService σ × Option MemoryRecord :=
  match m.get S memoryId with
  | none => (m, none)
  | some record =>
    let updated := record.closed validTo supersededBy
    (m.saved S updated (.invalidated record updated), some updated)

def promote (memoryId tier recordedAt : String) (event : AuditEvent D) :
    MemoryService σ × Except MemoryError (Option MemoryRecord) :=
  if tier ∉ memoryTiers then (m, .error (.unknownTier tier))
  else match m.get S memoryId with
    | none => (m, .ok none)
    | some record =>
      if record.tier = tier then (m, .ok (some record))
      else
        let updated := record.movedTo tier
        let m := m.saved S updated (.promoted record updated)
        let m := m.projectFact D cfg updated 2 recordedAt
        (m.emit D cfg event, .ok (some updated))

/-! ### What the calls do to the store and to the journal -/

@[simp] theorem store_emit (event : AuditEvent D) : (m.emit D cfg event).store = m.store := by
  unfold emit
  split <;> rfl

@[simp] theorem journal_emit (event : AuditEvent D) : (m.emit D cfg event).journal = m.journal := by
  unfold emit
  split <;> rfl

@[simp] theorem store_projectFact (version : Int) (recordedAt : String) :
    (m.projectFact D cfg record version recordedAt).store = m.store := by
  unfold projectFact
  split <;> rfl

@[simp] theorem journal_projectFact (version : Int) (recordedAt : String) :
    (m.projectFact D cfg record version recordedAt).journal = m.journal := by
  unfold projectFact
  split <;> rfl

@[simp] theorem store_remember : (m.remember S D cfg call draws).1.store
      = S.save m.store (call.record draws.memoryId draws.createdAt) := by
  simp [remember, saved]

@[simp] theorem journal_remember : (m.remember S D cfg call draws).1.journal
      = m.journal ++ [.remembered (call.record draws.memoryId draws.createdAt)] := by
  simp [remember, saved]

@[simp] theorem snd_remember :
    (m.remember S D cfg call draws).2 = call.record draws.memoryId draws.createdAt := rfl

theorem invalidate_of_get {memoryId validTo : String} {supersededBy : Option String}
    {record : MemoryRecord} (h : S.get m.store memoryId = some record) :
    m.invalidate S memoryId validTo supersededBy = (m.saved S (record.closed validTo supersededBy)
          (.invalidated record (record.closed validTo supersededBy)),
        some (record.closed validTo supersededBy)) := by
  simp [invalidate, get, h]

end MemoryService

/-! ## Recall -/

/-- An embedder: the similarity of a query and a text, and the text of a similarity. -/
structure Embedder (Sim : Type) where
  /-- the cosine of the embeddings -/
  similarity : String → String → Sim
  /-- the format `.3f` -/
  format : Sim → String

/-- `similarity_threshold`. -/
inductive RecallThreshold (Sim : Type) where
  /-- `None` -/
  | default
  | least (threshold : Sim)
  /-- `ALWAYS_INCLUDE` -/
  | alwaysInclude

/-- The arguments of `recall` without `max_hops`. -/
structure RecallCall (Sim : Type) where
  query : String
  subjectId : String := "default"
  topK : Nat := 5
  threshold : RecallThreshold Sim := .default
  asOf : Option String := none
  tier : Option String := none
  activeOnly : Bool := false

structure MemoryHit (Sim : Type) where
  record : MemoryRecord
  similarity : Sim

namespace MemoryService

variable {σ Sim : Type} [LinearOrder Sim] [Zero Sim] (S : MemoryStore σ) (D : Digests)
  (cfg : MemoryConfig) (E : Embedder Sim) (minSimilarity : Option Sim) (m : MemoryService σ)

variable (call : RecallCall Sim)

/-- The memories that `recall` ranks. -/
def candidates : List MemoryRecord :=
  let records := S.list m.store (some call.subjectId) call.activeOnly call.tier
  match call.asOf with
  | some asOf => filterAsOf records asOf
  | none => records

def cut (scored : List (MemoryHit Sim)) : List (MemoryHit Sim) :=
  match call.threshold, minSimilarity with
  | .alwaysInclude, _ => scored.take (max 1 call.topK)
  | .least threshold, _ | .default, some threshold =>
    (scored.filter (fun h => threshold ≤ h.similarity)).take call.topK
  | .default, none => (scored.filter (fun h => 0 < h.similarity)).take call.topK

def scored : List (MemoryHit Sim) :=
  (m.candidates S call).map
    (fun r => { record := r, similarity := E.similarity call.query r.text : MemoryHit Sim })

def ranking : List (MemoryHit Sim) :=
  (m.scored S E call).mergeSort (fun h h' => h'.similarity ≤ h.similarity)

def hits : List (MemoryHit Sim) :=
  cut minSimilarity call (m.ranking S E call)

def «recall» (event : AuditEvent D) : MemoryService σ × List (MemoryHit Sim) :=
  if (m.candidates S call).isEmpty then (m, [])
  else (m.emit D cfg event, m.hits S E minSimilarity call)

def floorKeeps (similarity : Sim) : Bool :=
  match call.threshold, minSimilarity with
  | .alwaysInclude, _ => true
  | .least threshold, _ | .default, some threshold => threshold ≤ similarity
  | .default, none => 0 < similarity

variable (call : RecallCall Sim)

omit [LinearOrder Sim] [Zero Sim] in
def hitCap : Nat :=
  match call.threshold with
  | .alwaysInclude => max 1 call.topK
  | .least _ | .default => call.topK

theorem cut_eq (scored : List (MemoryHit Sim)) : cut minSimilarity call scored
      = (scored.filter (fun h => floorKeeps minSimilarity call h.similarity)).take
        (hitCap call) := by
  unfold cut floorKeeps hitCap
  split <;> simp_all

theorem hits_eq : m.hits S E minSimilarity call
    = ((m.ranking S E call).filter (fun h => floorKeeps minSimilarity call h.similarity)).take
      (hitCap call) :=
  cut_eq minSimilarity call _

omit [Zero Sim] in
theorem sorted_ranking (call : RecallCall Sim) :
    (m.ranking S E call).Pairwise (fun h h' => h'.similarity ≤ h.similarity) := by
  exact Lists.pairwise_mergeSort (r := fun h h' : MemoryHit Sim => h'.similarity ≤ h.similarity)
    (fun hab hbc => le_trans hbc hab) (fun _ _ => le_total _ _) (m.scored S E call)

theorem record_mem_candidates {minSimilarity : Option Sim} {call : RecallCall Sim}
    {h : MemoryHit Sim} (hmem : h ∈ m.hits S E minSimilarity call) :
    h.record ∈ m.candidates S call := by
  rw [hits_eq] at hmem
  have hranked := (List.mem_filter.1 (List.mem_of_mem_take hmem)).1
  obtain ⟨r, hr, rfl⟩ := List.mem_map.1 (List.mem_mergeSort.1 hranked)
  exact hr

theorem hits_of_no_candidates {call : RecallCall Sim} (h : m.candidates S call = [])
    (minSimilarity : Option Sim) : m.hits S E minSimilarity call = [] := by
  simp [hits_eq, ranking, scored, h]

theorem recall_eq (minSimilarity : Option Sim) (call : RecallCall Sim) (event : AuditEvent D) :
    ∃ m', m.recall S D cfg E minSimilarity call event = (m', m.hits S E minSimilarity call)
      ∧ (m' = m ∨ m' = m.emit D cfg event) := by
  unfold «recall»
  split
  · next h =>
      rw [List.isEmpty_iff] at h
      exact ⟨m, by rw [m.hits_of_no_candidates S E h], Or.inl rfl⟩
  · exact ⟨_, rfl, Or.inr rfl⟩

end MemoryService

end Himmy
