import Himmy.Entities.Registry
import Himmy.Governance.KeyVault
import Himmy.Memory.Store
import Himmy.Storage.SubjectRows

/-! # The erasure of a subject

`erase_subject` destroys the subject's key for a workspace, deletes the subject's rows from every
store that is wired, and certifies what it did. The deletion does not ask what became of the key: a
call that may not destroy the key of another workspace's subject deletes its rows all the same. And a
memory store keeps the links of the memories it deletes, a storage backend its memory objects.

`erase_meets_iff` says for which states an erasure is what it should be. -/

namespace Himmy

open SubjectKeyVault (mayDestroy destroy shredRow row?_shredRow)
open StorageTables (deleteBySubject_fst deleteBySubject)

/-! ## Stores -/

/-- A store that is wired, or that raises when it is asked to delete. -/
structure Handle (σ : Type) where
  content : σ
  raises : Option String := none

/-- The callable of a knowledge backend; a second call finds nothing to delete. -/
structure KnowledgeEraser (ν : Type) where
  erase : ν → String → ν × Nat
  erase_erase : ∀ content subjectId,
    (erase (erase content subjectId).1 subjectId).1 = (erase content subjectId).1

structure StoreErasureResult where
  store : String
  action : String
  deleted : Nat := 0
  ok : Bool := true
  error : String := ""

structure SubjectReachMap (σ ν : Type) where
  memoryStore : Option (Handle σ) := none
  conversationStore : Option (Handle ConversationTables) := none
  spine : Option (Handle StorageTables) := none
  knowledge : Option (Handle ν) := none

variable {σ ν κ β : Type}

def safeDelete (store : String) (delete : σ → σ × Nat) (handle : Handle σ) :
    Handle σ × StoreErasureResult :=
  match handle.raises with
  | some error => (handle, { store := store, action := "delete", ok := false, error := error })
  | none => ({ handle with content := (delete handle.content).1 },
      { store := store, action := "delete", deleted := (delete handle.content).2 })

def Handle.deleted (delete : σ → σ × Nat) (handle : Handle σ) : Handle σ :=
  (safeDelete "" delete handle).1

namespace SubjectReachMap

variable (M : MemoryStore σ) (backend : StorageBackend) (K : KnowledgeEraser ν)
  (stores : SubjectReachMap σ ν) (subjectId : String)

def erased : SubjectReachMap σ ν where
  memoryStore := stores.memoryStore.map (Handle.deleted (fun s => M.deleteBySubject s subjectId))
  conversationStore := stores.conversationStore.map
    (Handle.deleted (fun tables => tables.deleteBySubject subjectId))
  spine := stores.spine.map (Handle.deleted (fun tables => tables.deleteBySubject subjectId backend))
  knowledge := stores.knowledge.map (Handle.deleted (fun content => K.erase content subjectId))

def results : List StoreErasureResult :=
  (stores.memoryStore.map (fun handle =>
      (safeDelete "memory" (fun s => M.deleteBySubject s subjectId) handle).2)).toList
    ++ (stores.conversationStore.map (fun handle =>
      (safeDelete "conversations" (fun tables => tables.deleteBySubject subjectId) handle).2)).toList
    ++ (stores.spine.map (fun handle =>
      (safeDelete "spine_storage"
        (fun tables => tables.deleteBySubject subjectId backend) handle).2)).toList
    ++ (stores.knowledge.map (fun handle =>
      (safeDelete "knowledge" (fun content => K.erase content subjectId) handle).2)).toList

end SubjectReachMap

/-! ## Certificates -/

def erasureKind : String := "erasure_tombstone"

def deletionCertificateKind : String := "deletion_certificate"

structure DeletionCertificate where
  subjectId : String
  reason : String
  cryptoShredded : Bool
  keyVersion : Option String
  erasedAt : String
  perStore : List StoreErasureResult := []

namespace DeletionCertificate

variable (certificate : DeletionCertificate)

def complete : Bool := certificate.perStore.all StoreErasureResult.ok

def tombstonePayload : Dict Json := Dict.ofList
  [("subject_id", .str certificate.subjectId), ("reason", .str certificate.reason),
    ("crypto_shredded", .bool certificate.cryptoShredded), ("erased_at", .str certificate.erasedAt)]

def toPayload : Dict Json := Dict.ofList
  [("subject_id", .str certificate.subjectId), ("reason", .str certificate.reason),
    ("crypto_shredded", .bool certificate.cryptoShredded),
    ("key_version", .ofOption certificate.keyVersion), ("erased_at", .str certificate.erasedAt),
    ("complete", .bool certificate.complete),
    ("per_store", .arr (certificate.perStore.map (fun r => .obj [("store", .str r.store),
      ("action", .str r.action), ("deleted", .num r.deleted), ("ok", .bool r.ok),
      ("error", .str r.error)])))]

end DeletionCertificate

/-! ## `erase_subject` -/

/-- What a `RetentionService` works on: the vault with its file, the stores, and the registry. -/
structure RetentionService (κ β σ ν : Type) where
  keys : Option (VaultFile β × SubjectKeyVault κ β) := none
  reach : Option (SubjectReachMap σ ν) := none
  registry : EntityRegistry := {}

/-- The reason of a call, the ids it draws and the clock. -/
structure ErasureCall where
  reason : String := ""
  tombstoneId : String
  certificateId : String
  erasedAt : String
  now : String

namespace RetentionService

variable (M : MemoryStore σ) (backend : StorageBackend) (K : KnowledgeEraser ν)
  (service : RetentionService κ β σ ν) (subjectId : String) (workspaceId : Option String)

variable (now : String)

def destroyed : Option (VaultFile β × SubjectKeyVault κ β) × Bool :=
  match service.keys with
  | none => (none, false)
  | some (file, vault) =>
    let r := vault.destroy file subjectId workspaceId now
    (some r.1, r.2)

/-- The recorded version and whether the key is destroyed, as `erase_subject` carries them on. -/
def shredState : Option String × Bool :=
  match service.keys with
  | none => (none, false)
  | some (file, _) =>
    let recorded := file.erasureState subjectId
    if (service.destroyed subjectId workspaceId now).2 || recorded.2 then (recorded.1, true)
    else (none, false)

def erased : RetentionService κ β σ ν :=
  { service with
    keys := (service.destroyed subjectId workspaceId now).1
    reach := service.reach.map (fun stores => stores.erased M backend K subjectId) }

def certificate (call : ErasureCall) : DeletionCertificate where
  subjectId := subjectId
  reason := call.reason
  cryptoShredded := (service.shredState subjectId workspaceId call.now).2
  keyVersion := (service.shredState subjectId workspaceId call.now).1
  erasedAt := call.erasedAt
  perStore := (service.reach.map (fun stores => stores.results M backend K subjectId)).getD []

def eraseSubject (D : Digests) (call : ErasureCall) :
    RetentionService κ β σ ν × Except RegistryError DeletionCertificate :=
  let after := service.erased M backend K subjectId workspaceId call.now
  let certificate := service.certificate M backend K subjectId workspaceId call
  let tombstone := EntityRecord.create D call.tombstoneId 1 erasureKind
    certificate.tombstonePayload KeyedList.empty call.now
  match after.registry.register tombstone with
  | .error e => (after, .error e)
  | .ok (registry, _) =>
    let record := EntityRecord.create D call.certificateId 1 deletionCertificateKind
      certificate.toPayload KeyedList.empty call.now
    match registry.register record with
    | .error e => ({ after with registry := registry }, .error e)
    | .ok (registry, _) => ({ after with registry := registry }, .ok certificate)

theorem eraseSubject_spec (D : Digests) (call : ErasureCall) :
    (service.eraseSubject M backend K subjectId workspaceId D call).1.keys
        = (service.erased M backend K subjectId workspaceId call.now).keys
      ∧ (service.eraseSubject M backend K subjectId workspaceId D call).1.reach
        = (service.erased M backend K subjectId workspaceId call.now).reach
      ∧ ∀ certificate, (service.eraseSubject M backend K subjectId workspaceId D call).2
          = .ok certificate →
        certificate = service.certificate M backend K subjectId workspaceId call := by
  unfold eraseSubject
  dsimp only
  split
  · exact ⟨rfl, rfl, nofun⟩
  · split
    · exact ⟨rfl, rfl, nofun⟩
    · exact ⟨rfl, rfl, fun _ h => (Except.ok.inj h).symm⟩

end RetentionService

/-! ## What a deletion leaves -/

theorem Handle.deleted_content (delete : σ → σ × Nat) (handle : Handle σ) :
    (handle.deleted delete).content
      = if handle.raises.isSome then handle.content else (delete handle.content).1 := by
  unfold Handle.deleted safeDelete
  cases handle.raises <;> rfl

def MemoryStore.contents (M : MemoryStore σ) (s : σ) :
    (String → Option MemoryRecord) × (String → List MemoryLink) × (String → List MemoryLink) :=
  (M.get s, M.linksFrom s, M.linksTo s)

theorem MemoryStore.contents_deleteBySubject_iff (M : MemoryStore σ) (s : σ) (subjectId : String) :
    M.contents s = M.contents (M.deleteBySubject s subjectId).1
      ↔ ∀ k r, M.get s k = some r → r.subjectId ≠ subjectId := by
  obtain ⟨hfrom, hto⟩ := M.links_deleteBySubject s subjectId
  have hget : M.get s = M.get (M.deleteBySubject s subjectId).1
      ↔ ∀ k r, M.get s k = some r → r.subjectId ≠ subjectId := by
    constructor
    · intro h k r hr
      have hk := congrFun h k
      rw [M.get_deleteBySubject, hr, Option.filter_some] at hk
      split at hk
      · next hne => exact of_decide_eq_true hne
      · cases hk
    · intro h
      funext k
      rw [M.get_deleteBySubject]
      cases hr : M.get s k with
      | none => rfl
      | some r => rw [Option.filter_some, if_pos (decide_eq_true (h k r hr))]
  rw [contents, contents, hfrom, hto, ← hget]
  exact ⟨fun h => congrArg Prod.fst h, fun h => by rw [h]⟩

theorem StorageTables.purge_eq_self_iff (tables : StorageTables) (subjectId : String) :
    tables = tables.purge subjectId ↔ (∀ run ∈ tables.runs.items, run.subjectId ≠ subjectId)
        ∧ ∀ row ∈ tables.recommendations.items, row.subjectId ≠ subjectId := by
  constructor
  · intro h
    have hruns := congrArg (fun tables => tables.runs.items) h
    have hrecommendations := congrArg (fun tables => tables.recommendations.items) h
    exact ⟨fun run hrun => of_decide_eq_true (List.filter_eq_self.1 hruns.symm run hrun),
      fun row hrow => of_decide_eq_true (List.filter_eq_self.1 hrecommendations.symm row hrow)⟩
  · rintro ⟨hruns, hrecommendations⟩
    have hnone : tables.runsOf subjectId = [] :=
      List.filter_eq_nil_iff.2 (fun run hrun => by simpa using hruns run hrun)
    have hthreads : tables.threadIdsOf subjectId = [] := by rw [threadIdsOf, hnone, List.filterMap_nil]
    have htraces : tables.traceIdsOf subjectId = [] := by rw [traceIdsOf, hnone, List.filterMap_nil]
    have hfilter : tables.runs.filter (fun run => run.subjectId ≠ subjectId) = tables.runs :=
      KeyedList.ext (List.filter_eq_self.2 (fun run hrun => decide_eq_true (hruns run hrun)))
    have hfilter' : tables.recommendations.filter (fun row => row.subjectId ≠ subjectId)
        = tables.recommendations :=
      KeyedList.ext (List.filter_eq_self.2
        (fun row hrow => decide_eq_true (hrecommendations row hrow)))
    have hkept : tables.threads.filter (fun row => row.threadId ∉ ([] : List String))
        = tables.threads :=
      KeyedList.ext (List.filter_eq_self.2 (fun row _ => by simp))
    have hkept' : tables.events.filter (fun event => !EventRow.named [] [] event) = tables.events :=
      List.filter_eq_self.2 (fun event _ => by
        unfold EventRow.named
        cases event.threadId <;> cases event.traceId <;> simp)
    rw [purge, hthreads, htraces, hfilter, hfilter', hkept, hkept']

theorem ConversationTables.deleteBySubject_eq_self_iff (tables : ConversationTables)
    (subjectId : String) : tables = (tables.deleteBySubject subjectId).1
      ↔ ∀ row ∈ tables.conversations.items, row.subjectId ≠ some subjectId := by
  constructor
  · intro h row hrow
    have hrows := congrArg (fun tables => tables.conversations.items) h
    exact of_decide_eq_true (List.filter_eq_self.1 hrows.symm row hrow)
  · intro h
    rw [deleteBySubject_of_none h]

namespace SubjectReachMap

variable (M : MemoryStore σ) (backend : StorageBackend) (K : KnowledgeEraser ν)
  (stores stores' : SubjectReachMap σ ν) (subjectId : String)

/-- The stores have the same contents. -/
structure Same : Prop where
  memory : stores.memoryStore.map (fun h => M.contents h.content)
    = stores'.memoryStore.map (fun h => M.contents h.content)
  conversations : stores.conversationStore.map Handle.content
    = stores'.conversationStore.map Handle.content
  spine : stores.spine.map Handle.content = stores'.spine.map Handle.content
  knowledge : stores.knowledge.map Handle.content = stores'.knowledge.map Handle.content

/-- No store that answers has anything that a deletion of the subject deletes. -/
structure Untouched : Prop where
  memory : ∀ h ∈ stores.memoryStore, h.raises = none →
    ∀ k r, M.get h.content k = some r → r.subjectId ≠ subjectId
  conversations : ∀ h ∈ stores.conversationStore, h.raises = none →
    ∀ row ∈ h.content.conversations.items, row.subjectId ≠ some subjectId
  spine : ∀ h ∈ stores.spine, h.raises = none →
    (∀ run ∈ h.content.runs.items, run.subjectId ≠ subjectId)
      ∧ ∀ row ∈ h.content.recommendations.items, row.subjectId ≠ subjectId
  knowledge : ∀ h ∈ stores.knowledge, h.raises = none →
    h.content = (K.erase h.content subjectId).1

/-- Nothing of what the stores had of the subject is left: no run, no thread and no event of one, no
    memory and no link of one, no conversation. -/
structure Cleared : Prop where
  memories : ∀ h ∈ stores'.memoryStore, ∀ k r, M.get h.content k = some r →
    r.subjectId ≠ subjectId
  links : ∀ h ∈ stores.memoryStore, ∀ h' ∈ stores'.memoryStore, ∀ k r,
    M.get h.content k = some r → r.subjectId = subjectId →
      M.linksFrom h'.content k = [] ∧ M.linksTo h'.content k = []
  conversations : ∀ h ∈ stores'.conversationStore, ∀ row ∈ h.content.conversations.items,
    row.subjectId ≠ some subjectId
  messages : ∀ h ∈ stores.conversationStore, ∀ h' ∈ stores'.conversationStore,
    ∀ row ∈ h'.content.messages.items, row.conversationId ∉ h.content.idsOf subjectId
  runs : ∀ h ∈ stores'.spine, ∀ run ∈ h.content.runs.items, run.subjectId ≠ subjectId
  threads : ∀ h ∈ stores.spine, ∀ h' ∈ stores'.spine, ∀ row ∈ h'.content.threads.items,
    row.threadId ∉ h.content.threadIdsOf subjectId
  events : ∀ h ∈ stores.spine, ∀ h' ∈ stores'.spine, ∀ event ∈ h'.content.events,
    EventRow.named (h.content.threadIdsOf subjectId) (h.content.traceIdsOf subjectId) event = false
  memoryObjects : ∀ h ∈ stores'.spine, ∀ row ∈ h.content.memoryObjects.items
    ++ h.content.episodicMemoryObjects.items, row.subjectId ≠ some subjectId

/-- The stores that have something of the subject answer, no memory of the subject has a link, and no
    memory object is the subject's. -/
structure Erasable : Prop where
  memory : ∀ h ∈ stores.memoryStore, ∀ k r, M.get h.content k = some r →
    r.subjectId = subjectId →
      h.raises = none ∧ M.linksFrom h.content k = [] ∧ M.linksTo h.content k = []
  conversations : ∀ h ∈ stores.conversationStore, ∀ row ∈ h.content.conversations.items,
    row.subjectId = some subjectId → h.raises = none
  spine : ∀ h ∈ stores.spine, ∀ run ∈ h.content.runs.items, run.subjectId = subjectId →
    h.raises = none
  memoryObjects : ∀ h ∈ stores.spine, ∀ row ∈ h.content.memoryObjects.items
    ++ h.content.episodicMemoryObjects.items, row.subjectId ≠ some subjectId

variable {M backend K stores stores' subjectId} {delete : σ → σ × Nat} {o : Option (Handle σ)}

theorem map_deleted_iff {γ : Type} {f : σ → γ} :
    o.map (fun h => f h.content) = (o.map (Handle.deleted delete)).map (fun h => f h.content)
      ↔ ∀ h ∈ o, h.raises = none → f h.content = f (delete h.content).1 := by
  cases o with
  | none => simp
  | some h =>
    simp only [Option.map_some, Option.some.injEq, Option.mem_some_iff, forall_eq',
      Handle.deleted_content]
    cases h.raises <;> simp

theorem same_erased_iff :
    stores.Same M (stores.erased M backend K subjectId) ↔ stores.Untouched M K subjectId := by
  constructor
  · rintro ⟨hmemory, hconversations, hspine, hknowledge⟩
    refine ⟨fun h hh hraises => ?_, fun h hh hraises => ?_, fun h hh hraises => ?_,
      (map_deleted_iff (f := id)).1 hknowledge⟩
    · exact (M.contents_deleteBySubject_iff h.content subjectId).1
        (map_deleted_iff.1 hmemory h hh hraises)
    · exact (h.content.deleteBySubject_eq_self_iff subjectId).1
        ((map_deleted_iff (f := id)).1 hconversations h hh hraises)
    · have hsame := (map_deleted_iff (f := id)).1 hspine h hh hraises
      rw [id, id, deleteBySubject_fst] at hsame
      exact (h.content.purge_eq_self_iff subjectId).1 hsame
  · rintro ⟨hmemory, hconversations, hspine, hknowledge⟩
    refine ⟨map_deleted_iff.2 (fun h hh hraises => ?_),
      (map_deleted_iff (f := id)).2 (fun h hh hraises => ?_),
      (map_deleted_iff (f := id)).2 (fun h hh hraises => ?_),
      (map_deleted_iff (f := id)).2 hknowledge⟩
    · exact (M.contents_deleteBySubject_iff h.content subjectId).2 (hmemory h hh hraises)
    · exact (h.content.deleteBySubject_eq_self_iff subjectId).2 (hconversations h hh hraises)
    · rw [id, id, deleteBySubject_fst]
      exact (h.content.purge_eq_self_iff subjectId).2 (hspine h hh hraises)

theorem mem_map_deleted {h h' : Handle σ}
    (hh : h ∈ o) (hh' : h' ∈ o.map (Handle.deleted delete)) : h' = h.deleted delete := by
  obtain ⟨h₀, hmem, rfl⟩ := Option.mem_map.1 hh'
  rw [Option.mem_unique hh hmem]

theorem exists_of_mem_map_deleted {h' : Handle σ}
    (hh' : h' ∈ o.map (Handle.deleted delete)) : ∃ h ∈ o, h' = h.deleted delete := by
  obtain ⟨h, hmem, rfl⟩ := Option.mem_map.1 hh'
  exact ⟨h, hmem, rfl⟩

theorem deleted_of_raises {h : Handle σ} (hraises : h.raises ≠ none) :
    (h.deleted delete).content = h.content := by
  rw [Handle.deleted_content, if_pos (Option.isSome_iff_ne_none.2 hraises)]

theorem deleted_of_answers {h : Handle σ} (hraises : h.raises = none) :
    (h.deleted delete).content = (delete h.content).1 := by
  rw [Handle.deleted_content, hraises]
  rfl

theorem erasable_of_cleared
    (hc : stores.Cleared M (stores.erased M backend K subjectId) subjectId) :
    stores.Erasable M subjectId where
  memory h hh k r hr hs := by
    have hh' := Option.mem_map_of_mem
      (Handle.deleted (fun s => M.deleteBySubject s subjectId)) hh
    have hraises : h.raises = none := by
      by_contra hraises
      exact hc.memories _ hh' k r (by rw [deleted_of_raises hraises]; exact hr) hs
    obtain ⟨hfrom, hto⟩ := hc.links h hh _ hh' k r hr hs
    rw [deleted_of_answers hraises, (M.links_deleteBySubject h.content subjectId).1] at hfrom
    rw [deleted_of_answers hraises, (M.links_deleteBySubject h.content subjectId).2] at hto
    exact ⟨hraises, hfrom, hto⟩
  conversations h hh row hrow hs := by
    by_contra hraises
    have hh' := Option.mem_map_of_mem
      (Handle.deleted (fun tables => ConversationTables.deleteBySubject tables subjectId)) hh
    exact hc.conversations _ hh' row (by rw [deleted_of_raises hraises]; exact hrow) hs
  spine h hh run hrun hs := by
    by_contra hraises
    have hh' := Option.mem_map_of_mem
      (Handle.deleted (fun tables => deleteBySubject tables subjectId backend)) hh
    exact hc.runs _ hh' run (by rw [deleted_of_raises hraises]; exact hrun) hs
  memoryObjects h hh row hrow := by
    have hh' := Option.mem_map_of_mem
      (Handle.deleted (fun tables => deleteBySubject tables subjectId backend)) hh
    refine hc.memoryObjects _ hh' row ?_
    by_cases hraises : h.raises = none
    · rw [deleted_of_answers hraises, deleteBySubject_fst]
      exact hrow
    · rw [deleted_of_raises hraises]
      exact hrow

theorem Erasable.idsOf_of_raises (he : stores.Erasable M subjectId) {h : Handle StorageTables}
    (hh : h ∈ stores.spine) (hraises : h.raises ≠ none) :
    h.content.threadIdsOf subjectId = [] ∧ h.content.traceIdsOf subjectId = [] := by
  have hnone : h.content.runsOf subjectId = [] :=
    List.filter_eq_nil_iff.2 (fun run hrun hs =>
      hraises (he.spine h hh run hrun (of_decide_eq_true hs)))
  rw [StorageTables.threadIdsOf, StorageTables.traceIdsOf, hnone]
  exact ⟨rfl, rfl⟩

theorem cleared_of_erasable (he : stores.Erasable M subjectId) :
    stores.Cleared M (stores.erased M backend K subjectId) subjectId where
  memories h' hh' k r hr hs := by
    obtain ⟨h, hh, rfl⟩ := exists_of_mem_map_deleted hh'
    by_cases hraises : h.raises = none
    · rw [deleted_of_answers hraises, M.get_deleteBySubject] at hr
      exact of_decide_eq_true (Option.filter_eq_some_iff.1 hr).2 hs
    · rw [deleted_of_raises hraises] at hr
      exact hraises (he.memory h hh k r hr hs).1
  links h hh h' hh' k r hr hs := by
    obtain ⟨hraises, hfrom, hto⟩ := he.memory h hh k r hr hs
    rw [mem_map_deleted hh hh', deleted_of_answers hraises,
      (M.links_deleteBySubject h.content subjectId).1,
      (M.links_deleteBySubject h.content subjectId).2]
    exact ⟨hfrom, hto⟩
  conversations h' hh' row hrow hs := by
    obtain ⟨h, hh, rfl⟩ := exists_of_mem_map_deleted hh'
    by_cases hraises : h.raises = none
    · rw [deleted_of_answers hraises] at hrow
      exact of_decide_eq_true (List.mem_filter.1 hrow).2 hs
    · rw [deleted_of_raises hraises] at hrow
      exact hraises (he.conversations h hh row hrow hs)
  messages h hh h' hh' row hrow hid := by
    rw [mem_map_deleted hh hh'] at hrow
    by_cases hraises : h.raises = none
    · rw [deleted_of_answers hraises] at hrow
      exact (ConversationTables.mem_messages_deleteBySubject.1 hrow).2 hid
    · obtain ⟨conversation, hconversation, -⟩ := List.mem_map.1 hid
      obtain ⟨hmem, hs⟩ := List.mem_filter.1 hconversation
      exact hraises (he.conversations h hh conversation hmem (of_decide_eq_true hs))
  runs h' hh' run hrun hs := by
    obtain ⟨h, hh, rfl⟩ := exists_of_mem_map_deleted hh'
    by_cases hraises : h.raises = none
    · rw [deleted_of_answers hraises, deleteBySubject_fst] at hrun
      exact of_decide_eq_true (List.mem_filter.1 hrun).2 hs
    · rw [deleted_of_raises hraises] at hrun
      exact hraises (he.spine h hh run hrun hs)
  threads h hh h' hh' row hrow hid := by
    rw [mem_map_deleted hh hh'] at hrow
    by_cases hraises : h.raises = none
    · rw [deleted_of_answers hraises, deleteBySubject_fst] at hrow
      exact of_decide_eq_true (List.mem_filter.1 hrow).2 hid
    · rw [(he.idsOf_of_raises hh hraises).1] at hid
      cases hid
  events h hh h' hh' event hevent := by
    rw [mem_map_deleted hh hh'] at hevent
    by_cases hraises : h.raises = none
    · rw [deleted_of_answers hraises, deleteBySubject_fst] at hevent
      exact Bool.not_eq_true' _ |>.mp (List.mem_filter.1 hevent).2
    · rw [(he.idsOf_of_raises hh hraises).1, (he.idsOf_of_raises hh hraises).2]
      unfold EventRow.named
      cases event.threadId <;> cases event.traceId <;> simp
  memoryObjects h' hh' row hrow := by
    obtain ⟨h, hh, rfl⟩ := exists_of_mem_map_deleted hh'
    refine he.memoryObjects h hh row ?_
    by_cases hraises : h.raises = none
    · rw [deleted_of_answers hraises, deleteBySubject_fst] at hrow
      exact hrow
    · rw [deleted_of_raises hraises] at hrow
      exact hrow

theorem cleared_erased_iff :
    stores.Cleared M (stores.erased M backend K subjectId) subjectId ↔ stores.Erasable M subjectId :=
  ⟨erasable_of_cleared, cleared_of_erasable⟩

theorem raises_deleted (delete : σ → σ × Nat) (h : Handle σ) : (h.deleted delete).raises = h.raises := by
  unfold Handle.deleted safeDelete
  cases hraises : h.raises with
  | none => rfl
  | some error => exact hraises

theorem untouched_erased : (stores.erased M backend K subjectId).Untouched M K subjectId where
  memory h' hh' hraises k r hr := by
    obtain ⟨h, hh, rfl⟩ := exists_of_mem_map_deleted hh'
    rw [raises_deleted] at hraises
    rw [deleted_of_answers hraises, M.get_deleteBySubject] at hr
    exact of_decide_eq_true (Option.filter_eq_some_iff.1 hr).2
  conversations h' hh' hraises row hrow := by
    obtain ⟨h, hh, rfl⟩ := exists_of_mem_map_deleted hh'
    rw [raises_deleted] at hraises
    rw [deleted_of_answers hraises] at hrow
    exact of_decide_eq_true (List.mem_filter.1 hrow).2
  spine h' hh' hraises := by
    obtain ⟨h, hh, rfl⟩ := exists_of_mem_map_deleted hh'
    rw [raises_deleted] at hraises
    rw [deleted_of_answers hraises, deleteBySubject_fst]
    exact ⟨fun run hrun => of_decide_eq_true (List.mem_filter.1 hrun).2,
      fun row hrow => of_decide_eq_true (List.mem_filter.1 hrow).2⟩
  knowledge h' hh' hraises := by
    obtain ⟨h, hh, rfl⟩ := exists_of_mem_map_deleted hh'
    rw [raises_deleted] at hraises
    rw [deleted_of_answers hraises]
    exact (K.erase_erase h.content subjectId).symm

end SubjectReachMap

/-! ## What an erasure should be -/

namespace RetentionService

variable (M : MemoryStore σ) (backend : StorageBackend) (K : KnowledgeEraser ν)
  (service service' : RetentionService κ β σ ν) (subjectId workspaceId : String)

def keyDestroyed : Bool :=
  service.keys.any (fun keys => (keys.1.row? subjectId).any (fun row => row.shreddedAt.isSome))

def grants : Bool :=
  service.keys.any (fun keys =>
    mayDestroy keys.1 subjectId (some workspaceId)
      || (keys.1.row? subjectId).any (fun row => row.shreddedAt.isSome))

/-- The vault and the stores are the same. -/
structure Unchanged : Prop where
  keys : service.keys = service'.keys
  reach : ∀ stores ∈ service.reach, ∀ stores' ∈ service'.reach, stores.Same M stores'

/-- A refused erasure changes nothing, a granted one leaves nothing of the subject and comes out the
    same a second time, and the certificate tells whether the key is destroyed. -/
structure Meets (call again : ErasureCall) : Prop where
  refused : (service.certificate M backend K subjectId (some workspaceId) call).cryptoShredded = false →
    service.Unchanged M (service.erased M backend K subjectId (some workspaceId) call.now)
  granted : (service.certificate M backend K subjectId (some workspaceId) call).cryptoShredded = true →
    (∀ stores ∈ service.reach,
      ∀ stores' ∈ (service.erased M backend K subjectId (some workspaceId) call.now).reach,
        stores.Cleared M stores' subjectId)
      ∧ ((service.erased M backend K subjectId (some workspaceId) call.now).certificate
          M backend K subjectId (some workspaceId) again).cryptoShredded = true
      ∧ ((service.erased M backend K subjectId (some workspaceId) call.now).certificate
          M backend K subjectId (some workspaceId) again).keyVersion
        = (service.certificate M backend K subjectId (some workspaceId) call).keyVersion
      ∧ (service.erased M backend K subjectId (some workspaceId) call.now).Unchanged M
        ((service.erased M backend K subjectId (some workspaceId) call.now).erased
          M backend K subjectId (some workspaceId) again.now)
  certified : (service.certificate M backend K subjectId (some workspaceId) call).cryptoShredded = true
    ↔ (service.erased M backend K subjectId (some workspaceId) call.now).keyDestroyed subjectId = true

variable {M backend K service subjectId workspaceId}

theorem mayDestroy_of_shredded {file : VaultFile β} {requested : Option String}
    (h : (file.row? subjectId).any (fun row => row.shreddedAt.isSome) = true) :
    mayDestroy file subjectId requested = false := by
  unfold mayDestroy
  cases hrow : file.row? subjectId with
  | none => rfl
  | some row =>
    rw [hrow] at h
    have hlive : row.live? = none := by
      unfold KeyRow.live?
      exact if_pos h
    dsimp only
    rw [hlive]
    rfl

def recordedVersion (service : RetentionService κ β σ ν) (subjectId : String) : Option String :=
  service.keys.bind (fun keys => (keys.1.row? subjectId).map KeyRow.keyVersion)

theorem erasureState_eq (file : VaultFile β) (subjectId : String) :
    file.erasureState subjectId = ((file.row? subjectId).map KeyRow.keyVersion,
      (file.row? subjectId).any (fun row => row.shreddedAt.isSome)) := by
  unfold VaultFile.erasureState
  cases file.row? subjectId <;> rfl

theorem shredState_eq (service : RetentionService κ β σ ν) (subjectId workspaceId now : String) :
    service.shredState subjectId (some workspaceId) now
      = if service.grants subjectId workspaceId then (service.recordedVersion subjectId, true)
        else (none, false) := by
  unfold shredState destroyed grants recordedVersion
  cases service.keys with
  | none => rfl
  | some keys =>
    obtain ⟨file, vault⟩ := keys
    have hdestroy : (vault.destroy file subjectId (some workspaceId) now).2
        = mayDestroy file subjectId (some workspaceId) := by
      unfold destroy
      split
      · next h => exact h.symm
      · next h => exact (Bool.eq_false_iff.2 h).symm
    simp only [erasureState_eq, hdestroy, Option.any_some, Option.bind_some]

variable (M backend K)

theorem keys_erased_of_refused (h : service.grants subjectId workspaceId = false) (now : String) :
    (service.erased M backend K subjectId (some workspaceId) now).keys = service.keys := by
  unfold erased destroyed
  cases hkeys : service.keys with
  | none => rfl
  | some keys =>
    rw [grants, hkeys, Option.any_some, Bool.or_eq_false_iff] at h
    simp only [destroy, h.1, Bool.false_eq_true, if_false]

theorem keys_erased_of_destroyed (h : service.keyDestroyed subjectId = true) (now : String) :
    (service.erased M backend K subjectId (some workspaceId) now).keys = service.keys := by
  unfold erased destroyed
  cases hkeys : service.keys with
  | none => rfl
  | some keys =>
    rw [keyDestroyed, hkeys, Option.any_some] at h
    simp only [destroy, mayDestroy_of_shredded h, Bool.false_eq_true, if_false]

theorem grants_of_destroyed (workspaceId : String) (h : service.keyDestroyed subjectId = true) :
    service.grants subjectId workspaceId = true := by
  unfold keyDestroyed at h
  unfold grants
  cases hkeys : service.keys with
  | none => rw [hkeys] at h; cases h
  | some keys =>
    rw [hkeys, Option.any_some] at h
    rw [Option.any_some, h, Bool.or_true]

theorem keyDestroyed_erased (h : service.grants subjectId workspaceId = true) (now : String) :
    (service.erased M backend K subjectId (some workspaceId) now).keyDestroyed subjectId = true
      ∧ (service.erased M backend K subjectId (some workspaceId) now).recordedVersion subjectId
        = service.recordedVersion subjectId := by
  by_cases hdestroyed : service.keyDestroyed subjectId = true
  · unfold keyDestroyed recordedVersion
    rw [keys_erased_of_destroyed M backend K hdestroyed]
    exact ⟨hdestroyed, rfl⟩
  · unfold grants at h
    unfold keyDestroyed at hdestroyed
    cases hkeys : service.keys with
    | none => rw [hkeys] at h; cases h
    | some keys =>
      obtain ⟨file, vault⟩ := keys
      rw [hkeys, Option.any_some] at h hdestroyed
      have hmay := (Bool.or_eq_true _ _ ▸ h).resolve_right hdestroyed
      have hrow : ∃ row, file.row? subjectId = some row := by
        unfold mayDestroy at hmay
        cases hrow : file.row? subjectId with
        | none => rw [hrow] at hmay; cases hmay
        | some row => exact ⟨row, rfl⟩
      obtain ⟨row, hrow⟩ := hrow
      have hshred : (shredRow file subjectId now).row? subjectId
          = some (row.shred now) := by
        rw [row?_shredRow, if_pos rfl, hrow, Option.map_some]
      have hkeys' : (service.erased M backend K subjectId (some workspaceId) now).keys
          = some (shredRow file subjectId now, vault.forget subjectId) := by
        simp only [erased, destroyed, hkeys, destroy, hmay, if_true]
      rw [keyDestroyed, recordedVersion, recordedVersion, hkeys', hkeys, Option.any_some,
        Option.bind_some, Option.bind_some, hshred, hrow]
      exact ⟨rfl, rfl⟩

theorem mem_reach_erased {workspaceId : Option String} {now : String}
    {stores stores' : SubjectReachMap σ ν} (hstores : stores ∈ service.reach)
    (hstores' : stores' ∈ (service.erased M backend K subjectId workspaceId now).reach) :
    stores' = stores.erased M backend K subjectId := by
  obtain ⟨stores₀, hmem, rfl⟩ := Option.mem_map.1 hstores'
  rw [Option.mem_unique hstores hmem]

theorem reach_erased {workspaceId : Option String} (now : String) {stores : SubjectReachMap σ ν}
    (hstores : stores ∈ service.reach) : stores.erased M backend K subjectId
      ∈ (service.erased M backend K subjectId workspaceId now).reach :=
  Option.mem_map_of_mem _ hstores

theorem unchanged_erased_iff {now : String}
    (hkeys : (service.erased M backend K subjectId (some workspaceId) now).keys = service.keys) :
    service.Unchanged M (service.erased M backend K subjectId (some workspaceId) now)
      ↔ ∀ stores ∈ service.reach, stores.Untouched M K subjectId := by
  constructor
  · rintro ⟨-, hreach⟩ stores hstores
    exact SubjectReachMap.same_erased_iff.1
      (hreach stores hstores _ (reach_erased M backend K now hstores))
  · refine fun huntouched => ⟨hkeys.symm, fun stores hstores stores' hstores' => ?_⟩
    rw [mem_reach_erased M backend K hstores hstores']
    exact SubjectReachMap.same_erased_iff.2 (huntouched stores hstores)

theorem second_call (h : service.grants subjectId workspaceId = true) (call again : ErasureCall) :
    ((service.erased M backend K subjectId (some workspaceId) call.now).certificate
        M backend K subjectId (some workspaceId) again).cryptoShredded = true
      ∧ ((service.erased M backend K subjectId (some workspaceId) call.now).certificate
          M backend K subjectId (some workspaceId) again).keyVersion
        = (service.certificate M backend K subjectId (some workspaceId) call).keyVersion
      ∧ (service.erased M backend K subjectId (some workspaceId) call.now).Unchanged M
        ((service.erased M backend K subjectId (some workspaceId) call.now).erased
          M backend K subjectId (some workspaceId) again.now) := by
  obtain ⟨hdestroyed, hversion⟩ := keyDestroyed_erased M backend K h call.now
  have hgrants := grants_of_destroyed workspaceId hdestroyed
  have hfirst := service.shredState_eq subjectId workspaceId call.now
  have hsecond := (service.erased M backend K subjectId (some workspaceId) call.now).shredState_eq
    subjectId workspaceId again.now
  rw [h, if_pos rfl] at hfirst
  rw [hgrants, if_pos rfl, hversion] at hsecond
  refine ⟨congrArg Prod.snd hsecond, ?_, ?_⟩
  · exact (congrArg Prod.fst hsecond).trans (congrArg Prod.fst hfirst).symm
  · refine (unchanged_erased_iff M backend K
      (keys_erased_of_destroyed M backend K hdestroyed again.now)).2 (fun stores' hstores' => ?_)
    obtain ⟨stores, -, rfl⟩ := Option.mem_map.1 hstores'
    exact SubjectReachMap.untouched_erased

/-- **Erasure.** A call for a workspace does what it should exactly when one that may not destroy the
    subject's key finds nothing of the subject to delete, and one that may finds the stores
    answering, no link on the subject's memories and no memory object of the subject. -/
theorem erase_meets_iff (service : RetentionService κ β σ ν) (subjectId workspaceId : String)
    (call again : ErasureCall) : service.Meets M backend K subjectId workspaceId call again
      ↔ (service.grants subjectId workspaceId = false →
          ∀ stores ∈ service.reach, stores.Untouched M K subjectId)
        ∧ (service.grants subjectId workspaceId = true →
          ∀ stores ∈ service.reach, stores.Erasable M subjectId) := by
  have hstate := service.shredState_eq subjectId workspaceId call.now
  have hcert : (service.certificate M backend K subjectId (some workspaceId) call).cryptoShredded
      = service.grants subjectId workspaceId := by
    rw [certificate, hstate]
    cases service.grants subjectId workspaceId <;> rfl
  have hrefused := fun h : service.grants subjectId workspaceId = false =>
    keys_erased_of_refused M backend K h call.now
  constructor
  · rintro ⟨hunchanged, hgranted, -⟩
    refine ⟨fun h => ?_, fun h stores hstores => ?_⟩
    · exact (unchanged_erased_iff M backend K (hrefused h)).1 (hunchanged (hcert.trans h))
    · exact SubjectReachMap.cleared_erased_iff.1 ((hgranted (hcert.trans h)).1 stores hstores _
        (reach_erased M backend K call.now hstores))
  · rintro ⟨huntouched, herasable⟩
    refine ⟨fun h => ?_, fun h => ?_, ?_⟩
    · have hgrants := hcert.symm.trans h
      exact (unchanged_erased_iff M backend K (hrefused hgrants)).2 (huntouched hgrants)
    · have hgrants := hcert.symm.trans h
      refine ⟨fun stores hstores stores' hstores' => ?_, second_call M backend K hgrants call again⟩
      rw [mem_reach_erased M backend K hstores hstores']
      exact SubjectReachMap.cleared_erased_iff.2 (herasable hgrants stores hstores)
    · rw [hcert]
      constructor
      · exact fun h => (keyDestroyed_erased M backend K h call.now).1
      · intro h
        by_contra hne
        have hkeys := hrefused (Bool.eq_false_iff.2 hne)
        rw [keyDestroyed, hkeys] at h
        exact hne (grants_of_destroyed workspaceId h)

def noKnowledge : KnowledgeEraser Unit where
  erase content _ := (content, 0)
  erase_erase _ _ := rfl

/-- A subject that belongs to workspace `a` and has a memory that is linked to itself. -/
def boundSubject : RetentionService Nat (List Nat) InMemoryMemories Unit where
  keys := some (VaultFile.insertRow {} ⟨"subject", some [7], rawKeyVersion, "t0", none, some "a"⟩,
    { config := {} })
  reach := some { memoryStore := some ⟨
    inMemoryMemoryStore.saveLink
      (inMemoryMemoryStore.save {} { memoryId := "m", subjectId := "subject", createdAt := "t0" })
      { linkId := "l", fromMemoryId := "m", toMemoryId := "m", createdAt := "t0" }, none⟩ }

def heldMemories (service : RetentionService Nat (List Nat) InMemoryMemories Unit) :
    Option (List String × List String) :=
  (service.reach.bind SubjectReachMap.memoryStore).map (fun h =>
    (h.content.records.items.map MemoryRecord.memoryId,
      (h.content.linksFrom "m").map MemoryLink.linkId))

/-- A call for workspace `b` does not destroy the key and deletes the memory; a call for `a` destroys
    the key and leaves the link. -/
theorem erased_though_refused : heldMemories boundSubject = some (["m"], ["l"])
      ∧ (boundSubject.certificate inMemoryMemoryStore .inMemory noKnowledge "subject" (some "b")
          ⟨"", "i1", "i2", "t1", "t1"⟩).cryptoShredded = false
      ∧ heldMemories (boundSubject.erased inMemoryMemoryStore .inMemory noKnowledge "subject"
          (some "b") "t1") = some ([], ["l"])
      ∧ (boundSubject.certificate inMemoryMemoryStore .inMemory noKnowledge "subject" (some "a")
          ⟨"", "i1", "i2", "t1", "t1"⟩).cryptoShredded = true
      ∧ heldMemories (boundSubject.erased inMemoryMemoryStore .inMemory noKnowledge "subject"
          (some "a") "t1") = some ([], ["l"]) :=
  ⟨rfl, rfl, rfl, rfl, rfl⟩

end RetentionService

end Himmy
