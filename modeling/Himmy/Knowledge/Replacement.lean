import Himmy.Knowledge.Ingest

/-! # What storing a batch does

Both stores drop the documents of the incoming sources with their chunks and then add the incoming
documents, whatever their sources: two incoming documents of one source are both added
(`replaced_store`). -/

namespace Himmy

open KeyedList (empty erase items_foldl_put items_filter get?_eq_none_iff items_put_of_none)

/-! ## What a knowledge base holds -/

namespace KnowledgeBase

variable (service : KnowledgeBase) (kbId : String)

def storedDocuments : List KnowledgeDocument :=
  match service.backend with
  | some backend => backend.conn.knowledgeDocuments.items.filter (fun d => d.kbId = kbId)
  | none => ((service.documents.find? kbId).getD empty).items

def storedChunks : List KnowledgeChunk :=
  match service.backend with
  | some backend => backend.conn.knowledgeChunks.items.filter (fun ch => ch.kbId = kbId)
  | none => ((service.chunks.find? kbId).getD empty).items

/-- The identifiers of documents that are taken; the backend's tables are shared. -/
def documentIds : List String :=
  match service.backend with
  | some backend => backend.conn.knowledgeDocuments.items.map KnowledgeDocument.documentId
  | none => (service.storedDocuments kbId).map KnowledgeDocument.documentId

def chunkIds : List String :=
  match service.backend with
  | some backend => backend.conn.knowledgeChunks.items.map KnowledgeChunk.chunkId
  | none => (service.storedChunks kbId).map KnowledgeChunk.chunkId

theorem nodup_storedDocuments :
    ((service.storedDocuments kbId).map KnowledgeDocument.documentId).Nodup := by
  unfold storedDocuments
  split
  · exact (KeyedList.nodup_keys _).sublist (List.filter_sublist.map _)
  · exact KeyedList.nodup_keys _

theorem documentId_mem {d : KnowledgeDocument} (h : d ∈ service.storedDocuments kbId) :
    d.documentId ∈ service.documentIds kbId := by
  unfold documentIds
  split
  · next backend hbackend =>
      simp only [storedDocuments, hbackend] at h
      exact List.mem_map_of_mem (List.mem_of_mem_filter h)
  · exact List.mem_map_of_mem h

end KnowledgeBase

def superseded (created : List KnowledgeDocument) (d : KnowledgeDocument) : Bool :=
  d.sourceUri.isSome && created.any (fun d' => d'.sourceUri = d.sourceUri)

theorem superseded_iff {created : List KnowledgeDocument} {d : KnowledgeDocument} :
    superseded created d = true
      ↔ ∃ source, d.sourceUri = some source ∧ ∃ d' ∈ created, d'.sourceUri = some source := by
  rw [superseded, Bool.and_eq_true, List.any_eq_true, Option.isSome_iff_exists]
  constructor
  · rintro ⟨⟨source, hsource⟩, d', hd', heq⟩
    exact ⟨source, hsource, d', hd', (of_decide_eq_true heq).trans hsource⟩
  · rintro ⟨source, hsource, d', hd', heq⟩
    exact ⟨⟨source, hsource⟩, d', hd', decide_eq_true (heq.trans hsource.symm)⟩

/-- What storing a batch does to what a knowledge base holds: the documents of the incoming sources go
    with their chunks, the incoming ones come. -/
structure Replaced (kbId : String) (created : List KnowledgeDocument) (added : List KnowledgeChunk)
    (before after : KnowledgeBase) : Prop where
  documents : after.storedDocuments kbId
    = (before.storedDocuments kbId).filter (fun d => !superseded created d) ++ created
  chunks : after.storedChunks kbId
    = (before.storedChunks kbId).filter (fun ch => (before.storedDocuments kbId).all
        (fun d => !superseded created d || ch.documentId ≠ d.documentId)) ++ added
  documentIds : ∀ id ∈ after.documentIds kbId,
    id ∈ before.documentIds kbId ∨ ∃ d ∈ created, id = d.documentId
  chunkIds : ∀ id ∈ after.chunkIds kbId,
    id ∈ before.chunkIds kbId ∨ ∃ ch ∈ added, id = ch.chunkId

/-- What a call promises of the batch it stores. -/
structure Storable (service : KnowledgeBase) (kbId : String) (replacedIds : List String)
    (created : List KnowledgeDocument) (chunks : List KnowledgeChunk) : Prop where
  kb : ∀ d ∈ created, d.kbId = kbId
  ids : (created.map KnowledgeDocument.documentId).Nodup
  fresh : ∀ d ∈ created, d.documentId ∉ service.documentIds kbId
  chunkKb : ∀ ch ∈ chunks, ch.kbId = kbId
  chunkIds : (chunks.map KnowledgeChunk.chunkId).Nodup
  chunkFresh : ∀ ch ∈ chunks, ch.chunkId ∉ service.chunkIds kbId
  replaced : service.backend = none → ∀ d ∈ service.storedDocuments kbId,
    d.documentId ∈ replacedIds ↔ superseded created d = true
  owned : ∀ ch ∈ service.storedChunks kbId,
    ∃ d ∈ service.storedDocuments kbId, ch.documentId = d.documentId

/-! ## The dictionaries -/

theorem replaced_storeInMemory {service : KnowledgeBase} {kbId : String} {replacedIds : List String}
    {created : List KnowledgeDocument} {chunks : List KnowledgeChunk}
    (hbackend : service.backend = none) (h : Storable service kbId replacedIds created chunks) :
    Replaced kbId created chunks service (service.storeInMemory kbId replacedIds created chunks) := by
  have hafter : (service.storeInMemory kbId replacedIds created chunks).backend = none := hbackend
  have hdocuments : (service.storeInMemory kbId replacedIds created chunks).storedDocuments kbId
      = (service.storedDocuments kbId).filter (fun d => !superseded created d) ++ created := by
    have hkept : ((replacedIds.foldl erase
        ((service.documents.find? kbId).getD empty)).items)
        = (service.storedDocuments kbId).filter (fun d => !superseded created d) := by
      rw [KeyedList.items_foldl_erase]
      simp only [KnowledgeBase.storedDocuments, hbackend]
      refine List.filter_congr (fun d hd => ?_)
      have hiff := h.replaced hbackend d (by simpa only [KnowledgeBase.storedDocuments, hbackend])
      cases hsuper : superseded created d <;> simp [hiff, hsuper]
    simp only [KnowledgeBase.storedDocuments, KnowledgeBase.storeInMemory,
      Dict.find?_set, if_true, Option.getD_some]
    rw [items_foldl_put _ _ h.ids, hkept]
    · simp only [KnowledgeBase.storedDocuments, hbackend]
    · intro d hd hmem
      rw [hkept] at hmem
      obtain ⟨d', hd', heq⟩ := List.mem_map.1 hmem
      exact h.fresh d hd (heq ▸ service.documentId_mem kbId (List.mem_of_mem_filter hd'))
  have hchunks : (service.storeInMemory kbId replacedIds created chunks).storedChunks kbId
      = (service.storedChunks kbId).filter (fun ch => (service.storedDocuments kbId).all
          (fun d => !superseded created d || ch.documentId ≠ d.documentId)) ++ chunks := by
    have hkept : (replacedIds.foldl
        (fun kept oldId => kept.filter (fun chunk => chunk.documentId ≠ oldId))
        ((service.chunks.find? kbId).getD empty)).items
        = (service.storedChunks kbId).filter (fun ch => (service.storedDocuments kbId).all
            (fun d => !superseded created d || ch.documentId ≠ d.documentId)) := by
      rw [KeyedList.items_foldl_filter (fun oldId (chunk : KnowledgeChunk) =>
        chunk.documentId ≠ oldId)]
      have hstored : service.storedChunks kbId
          = ((service.chunks.find? kbId).getD empty).items := by
        simp only [KnowledgeBase.storedChunks, hbackend]
      rw [← hstored]
      refine List.filter_congr (fun ch hch => ?_)
      obtain ⟨owner, howner, howns⟩ := h.owned ch hch
      rw [Bool.eq_iff_iff, List.all_eq_true, List.all_eq_true]
      simp only [decide_eq_true_eq, Bool.or_eq_true, Bool.not_eq_true']
      constructor
      · intro hkeep d hd
        cases hsuper : superseded created d with
        | false => exact .inl rfl
        | true => exact .inr (hkeep _ ((h.replaced hbackend d hd).2 hsuper))
      · intro hkeep oldId hold heq
        rw [← heq, howns] at hold
        rcases hkeep owner howner with hno | hne
        · rw [(h.replaced hbackend owner howner).1 hold] at hno
          cases hno
        · exact hne howns
    simp only [KnowledgeBase.storedChunks, KnowledgeBase.storeInMemory,
      Dict.find?_set, if_true, Option.getD_some]
    rw [items_foldl_put _ _ h.chunkIds, hkept]
    · simp only [KnowledgeBase.storedChunks, hbackend]
    · intro ch hch hmem
      rw [hkept] at hmem
      obtain ⟨ch', hch', heq⟩ := List.mem_map.1 hmem
      refine h.chunkFresh ch hch ?_
      rw [KnowledgeBase.chunkIds, hbackend]
      exact heq ▸ List.mem_map_of_mem (List.mem_of_mem_filter hch')
  refine ⟨hdocuments, hchunks, ?_, ?_⟩
  · intro id hid
    simp only [KnowledgeBase.documentIds, hafter, hdocuments, List.map_append, List.mem_append] at hid
    rcases hid with hold | hnew
    · left
      simp only [KnowledgeBase.documentIds, hbackend]
      exact (List.filter_sublist.map _).subset hold
    · obtain ⟨d, hd, rfl⟩ := List.mem_map.1 hnew
      exact .inr ⟨d, hd, rfl⟩
  · intro id hid
    simp only [KnowledgeBase.chunkIds, hafter, hchunks, List.map_append, List.mem_append] at hid
    rcases hid with hold | hnew
    · left
      simp only [KnowledgeBase.chunkIds, hbackend]
      exact (List.filter_sublist.map _).subset hold
    · obtain ⟨ch, hch, rfl⟩ := List.mem_map.1 hnew
      exact .inr ⟨ch, hch, rfl⟩

/-! ## The backend -/

namespace SqliteKnowledgeBackend

variable (backend : SqliteKnowledgeBackend) (kbId : String)

def documentRows : List KnowledgeDocument :=
  backend.conn.knowledgeDocuments.items.filter (fun d => d.kbId = kbId)

def chunkRows : List KnowledgeChunk :=
  backend.conn.knowledgeChunks.items.filter (fun ch => ch.kbId = kbId)

/-- The rows that stay when the documents that satisfy `p` are deleted. -/
structure Deleted (p : KnowledgeDocument → Bool) (before after : SqliteKnowledgeBackend) : Prop where
  documents : after.documentRows kbId = (before.documentRows kbId).filter (fun d => !p d)
  chunks : after.chunkRows kbId = (before.chunkRows kbId).filter
    (fun ch => (before.documentRows kbId).all (fun d => !p d || ch.documentId ≠ d.documentId))
  documentIds : after.conn.knowledgeDocuments.items ⊆ before.conn.knowledgeDocuments.items
  chunkIds : after.conn.knowledgeChunks.items ⊆ before.conn.knowledgeChunks.items

variable {backend} {kbId}

theorem rows_foldl_delete (kbId : String) (ids : List String) (b : SqliteKnowledgeBackend) :
    let after := ids.foldl
      (fun b documentId => { b with conn := (b.deleteDocumentRows kbId documentId).1 }) b
    after.documentRows kbId = (b.documentRows kbId).filter (fun d => d.documentId ∉ ids)
      ∧ after.chunkRows kbId = (b.chunkRows kbId).filter (fun ch => ch.documentId ∉ ids)
      ∧ after.conn.knowledgeDocuments.items ⊆ b.conn.knowledgeDocuments.items
      ∧ after.conn.knowledgeChunks.items ⊆ b.conn.knowledgeChunks.items := by
  induction ids generalizing b with
  | nil => simp
  | cons documentId ids ih =>
    obtain ⟨hdocuments, hchunks, hids, hchunkIds⟩ :=
      ih { b with conn := (b.deleteDocumentRows kbId documentId).1 }
    refine ⟨?_, ?_, ?_, ?_⟩
    · rw [List.foldl_cons, hdocuments]
      simp only [documentRows, deleteDocumentRows, items_filter, List.filter_filter]
      refine List.filter_congr (fun d _ => ?_)
      rw [Bool.eq_iff_iff]
      simp only [List.mem_cons, Bool.and_eq_true, decide_eq_true_eq, Bool.not_eq_true',
        Bool.and_eq_false_iff, decide_eq_false_iff_not]
      tauto
    · rw [List.foldl_cons, hchunks]
      simp only [chunkRows, deleteDocumentRows, items_filter, List.filter_filter]
      refine List.filter_congr (fun ch _ => ?_)
      rw [Bool.eq_iff_iff]
      simp only [List.mem_cons, Bool.and_eq_true, decide_eq_true_eq]
      tauto
    · exact fun d hd => List.mem_of_mem_filter (hids hd)
    · exact fun ch hch => List.mem_of_mem_filter (hchunkIds hch)

theorem deleted_deleteSource (b : SqliteKnowledgeBackend) (source : String) :
    Deleted kbId (fun d => d.sourceUri = some source) b (b.deleteSource kbId source) := by
  obtain ⟨hdocuments, hchunks, hids, hchunkIds⟩ :=
    rows_foldl_delete kbId (b.documentsOfSource kbId source) b
  have hmem : ∀ documentId, documentId ∈ b.documentsOfSource kbId source
      ↔ ∃ d ∈ b.documentRows kbId, d.sourceUri = some source ∧ d.documentId = documentId := by
    intro documentId
    simp only [documentsOfSource, documentRows, List.mem_map, List.mem_filter, Bool.and_eq_true,
      decide_eq_true_eq]
    constructor
    · rintro ⟨d, ⟨hd, hkb, hsource⟩, rfl⟩
      exact ⟨d, ⟨hd, hkb⟩, hsource, rfl⟩
    · rintro ⟨d, ⟨hd, hkb⟩, hsource, rfl⟩
      exact ⟨d, ⟨hd, hkb, hsource⟩, rfl⟩
  refine ⟨hdocuments.trans (List.filter_congr (fun d hd => ?_)),
    hchunks.trans (List.filter_congr (fun ch _ => ?_)), hids, hchunkIds⟩
  · rw [Bool.eq_iff_iff]
    simp only [decide_eq_true_eq, Bool.not_eq_true', decide_eq_false_iff_not, hmem]
    refine not_congr ⟨?_, fun h => ⟨d, hd, h, rfl⟩⟩
    rintro ⟨d', hd', hsource, heq⟩
    obtain rfl := KeyedList.eq_of_key_eq _ (List.mem_of_mem_filter hd')
      (List.mem_of_mem_filter hd) heq
    exact hsource
  · rw [Bool.eq_iff_iff, List.all_eq_true]
    simp only [decide_eq_true_eq, Bool.not_eq_true', decide_eq_false_iff_not, Bool.or_eq_true, hmem]
    constructor
    · intro h d hd
      by_cases hsource : d.sourceUri = some source
      · exact .inr (fun heq => h ⟨d, hd, hsource, heq.symm⟩)
      · exact .inl hsource
    · rintro h ⟨d, hd, hsource, heq⟩
      rcases h d hd with hne | hne
      · exact hne hsource
      · exact hne heq.symm

theorem Deleted.trans {p q : KnowledgeDocument → Bool} {b b' b'' : SqliteKnowledgeBackend}
    (h : Deleted kbId p b b') (h' : Deleted kbId q b' b'') :
    Deleted kbId (fun d => p d || q d) b b'' := by
  refine ⟨?_, ?_, fun d hd => h.documentIds (h'.documentIds hd),
    fun ch hch => h.chunkIds (h'.chunkIds hch)⟩
  · rw [h'.documents, h.documents, List.filter_filter]
    exact List.filter_congr (fun d _ => by cases p d <;> cases q d <;> rfl)
  · rw [h'.chunks, h.chunks, h.documents, List.filter_filter]
    refine List.filter_congr (fun ch _ => ?_)
    rw [Bool.eq_iff_iff, Bool.and_eq_true]
    simp only [List.all_eq_true, List.mem_filter, Bool.or_eq_true, Bool.not_eq_true',
      decide_eq_true_eq, Bool.or_eq_false_iff]
    constructor
    · rintro ⟨hq, hp⟩ d hd
      rcases hp d hd with hnp | hne
      · rcases hq d ⟨hd, hnp⟩ with hnq | hne
        · exact .inl ⟨hnp, hnq⟩
        · exact .inr hne
      · exact .inr hne
    · intro hall
      refine ⟨?_, ?_⟩
      · rintro d ⟨hd, -⟩
        exact (hall d hd).imp And.right id
      · intro d hd
        exact (hall d hd).imp And.left id

theorem deleted_foldl_deleteSource (kbId : String) (sources : List String) (b : SqliteKnowledgeBackend) :
    Deleted kbId (fun d => sources.any (fun source => d.sourceUri = some source)) b
      (sources.foldl (fun b source => b.deleteSource kbId source) b) := by
  induction sources generalizing b with
  | nil =>
    refine ⟨by simp, ?_, List.Subset.refl _, List.Subset.refl _⟩
    exact (List.filter_eq_self.2 (by simp)).symm
  | cons source sources ih => exact (deleted_deleteSource b source).trans (ih _)

theorem deleted_congr {p q : KnowledgeDocument → Bool} {b b' : SqliteKnowledgeBackend}
    (h : Deleted kbId p b b') (hpq : p = q) : Deleted kbId q b b' := hpq ▸ h

theorem rows_foldl_insertDocument (created : List KnowledgeDocument) (b : SqliteKnowledgeBackend)
    (hkb : ∀ d ∈ created, d.kbId = kbId) (hids : (created.map KnowledgeDocument.documentId).Nodup)
    (hnew : ∀ d ∈ created,
      d.documentId ∉ b.conn.knowledgeDocuments.items.map KnowledgeDocument.documentId) :
    (created.foldl (fun b d => b.insertDocument kbId d) b).conn.knowledgeDocuments.items
        = b.conn.knowledgeDocuments.items ++ created
      ∧ (created.foldl (fun b d => b.insertDocument kbId d) b).conn.knowledgeChunks
        = b.conn.knowledgeChunks := by
  induction created generalizing b with
  | nil => simp
  | cons d created ih =>
    rw [List.map_cons, List.nodup_cons] at hids
    have hnone : b.conn.knowledgeDocuments.get? d.documentId = none := by
      rw [get?_eq_none_iff]
      intro d' hd' heq
      exact hnew d (List.mem_cons_self ..) (heq ▸ List.mem_map_of_mem hd')
    have hself : { d with kbId } = d := by rw [← hkb d (List.mem_cons_self ..)]
    have hitems : (b.insertDocument kbId d).conn.knowledgeDocuments.items
        = b.conn.knowledgeDocuments.items ++ [d] := by
      simp only [insertDocument, hnone, Option.isSome_none, Bool.false_eq_true, if_false, hself]
      exact items_put_of_none _ _ hnone
    have hchunks : (b.insertDocument kbId d).conn.knowledgeChunks = b.conn.knowledgeChunks := by
      simp only [insertDocument, hnone, Option.isSome_none, Bool.false_eq_true, if_false]
    obtain ⟨hrest, hrestChunks⟩ := ih (b.insertDocument kbId d)
      (fun d' hd' => hkb d' (List.mem_cons_of_mem _ hd')) hids.2 (by
        intro d' hd' hmem
        rw [hitems, List.map_append, List.mem_append] at hmem
        rcases hmem with hold | hlast
        · exact hnew d' (List.mem_cons_of_mem _ hd') hold
        · rw [List.map_singleton, List.mem_singleton] at hlast
          exact hids.1 (hlast ▸ List.mem_map_of_mem hd'))
    rw [List.foldl_cons, hrest, hrestChunks, hitems, hchunks]
    exact ⟨by simp, rfl⟩

theorem rows_foldl_insertChunk (added : List KnowledgeChunk) (b : SqliteKnowledgeBackend)
    (hkb : ∀ ch ∈ added, ch.kbId = kbId) (hids : (added.map KnowledgeChunk.chunkId).Nodup)
    (hnew : ∀ ch ∈ added, ch.chunkId ∉ b.conn.knowledgeChunks.items.map KnowledgeChunk.chunkId) :
    (added.foldl (fun b ch => b.insertChunk kbId ch) b).conn.knowledgeChunks.items
        = b.conn.knowledgeChunks.items ++ added
      ∧ (added.foldl (fun b ch => b.insertChunk kbId ch) b).conn.knowledgeDocuments
        = b.conn.knowledgeDocuments := by
  induction added generalizing b with
  | nil => simp
  | cons ch added ih =>
    rw [List.map_cons, List.nodup_cons] at hids
    have hnone : b.conn.knowledgeChunks.get? ch.chunkId = none := by
      rw [get?_eq_none_iff]
      intro ch' hch' heq
      exact hnew ch (List.mem_cons_self ..) (heq ▸ List.mem_map_of_mem hch')
    have hself : { ch with kbId } = ch := by rw [← hkb ch (List.mem_cons_self ..)]
    have hitems : (b.insertChunk kbId ch).conn.knowledgeChunks.items
        = b.conn.knowledgeChunks.items ++ [ch] := by
      simp only [insertChunk, hnone, Option.isSome_none, Bool.false_eq_true, if_false, hself]
      exact items_put_of_none _ _ hnone
    obtain ⟨hrest, hrestDocuments⟩ := ih (b.insertChunk kbId ch)
      (fun ch' hch' => hkb ch' (List.mem_cons_of_mem _ hch')) hids.2 (by
        intro ch' hch' hmem
        rw [hitems, List.map_append, List.mem_append] at hmem
        rcases hmem with hold | hlast
        · exact hnew ch' (List.mem_cons_of_mem _ hch') hold
        · rw [List.map_singleton, List.mem_singleton] at hlast
          exact hids.1 (hlast ▸ List.mem_map_of_mem hch'))
    rw [List.foldl_cons, hrest, hrestDocuments, hitems]
    exact ⟨by simp, rfl⟩

end SqliteKnowledgeBackend

/-! ## Both -/

theorem replaced_persistDocuments {service : KnowledgeBase} {backend : SqliteKnowledgeBackend}
    {kbId : String} {replacedIds : List String} {created : List KnowledgeDocument}
    {added : List KnowledgeChunk} (hbackend : service.backend = some backend)
    (h : Storable service kbId replacedIds created added) : Replaced kbId created added service
      { service with backend := some (backend.persistDocuments kbId created added) } := by
  obtain ⟨hkept, hkeptChunks, hids, hchunkIds⟩ := SqliteKnowledgeBackend.deleted_congr
    (SqliteKnowledgeBackend.deleted_foldl_deleteSource kbId
      (created.filterMap KnowledgeDocument.sourceUri).dedup backend)
    (show _ = superseded created by
      funext d
      rw [Bool.eq_iff_iff, superseded_iff, List.any_eq_true]
      simp only [List.mem_dedup, List.mem_filterMap, decide_eq_true_eq]
      constructor
      · rintro ⟨source, ⟨d', hd', hsource'⟩, hsource⟩
        exact ⟨source, hsource, d', hd', hsource'⟩
      · rintro ⟨source, hsource, d', hd', hsource'⟩
        exact ⟨source, ⟨d', hd', hsource'⟩, hsource⟩)
  have hfresh : ∀ d ∈ created, d.documentId ∉
      backend.conn.knowledgeDocuments.items.map KnowledgeDocument.documentId := by
    simpa only [KnowledgeBase.documentIds, hbackend] using h.fresh
  have hchunkFresh : ∀ ch ∈ added, ch.chunkId ∉
      backend.conn.knowledgeChunks.items.map KnowledgeChunk.chunkId := by
    simpa only [KnowledgeBase.chunkIds, hbackend] using h.chunkFresh
  set deleted := (created.filterMap KnowledgeDocument.sourceUri).dedup.foldl
    (fun b source => b.deleteSource kbId source) backend with hdeleted
  obtain ⟨hdocuments, hsame⟩ := SqliteKnowledgeBackend.rows_foldl_insertDocument created deleted h.kb
    h.ids (fun d hd hmem => hfresh d hd (List.map_subset _ hids hmem))
  set inserted := created.foldl (fun b d => b.insertDocument kbId d) deleted with hinserted
  obtain ⟨hchunks, hsameDocuments⟩ := SqliteKnowledgeBackend.rows_foldl_insertChunk added inserted
    h.chunkKb h.chunkIds (fun ch hch hmem => hchunkFresh ch hch (by
      rw [hsame] at hmem
      exact List.map_subset _ hchunkIds hmem))
  have hconn : (backend.persistDocuments kbId created added).conn
      = (added.foldl (fun b ch => b.insertChunk kbId ch) inserted).conn := rfl
  have hall : (backend.persistDocuments kbId created added).conn.knowledgeDocuments.items
      = deleted.conn.knowledgeDocuments.items ++ created := by
    rw [hconn, hsameDocuments, hdocuments]
  have hallChunks : (backend.persistDocuments kbId created added).conn.knowledgeChunks.items
      = deleted.conn.knowledgeChunks.items ++ added := by
    rw [hconn, hchunks, hsame]
  have hmine : created.filter (fun d => d.kbId = kbId) = created :=
    List.filter_eq_self.2 (fun d hd => decide_eq_true (h.kb d hd))
  have hmineChunks : added.filter (fun ch => ch.kbId = kbId) = added :=
    List.filter_eq_self.2 (fun ch hch => decide_eq_true (h.chunkKb ch hch))
  refine ⟨?_, ?_, ?_, ?_⟩
  · simp only [KnowledgeBase.storedDocuments, hbackend, hall, List.filter_append, hmine]
    exact congrArg (· ++ created) hkept
  · simp only [KnowledgeBase.storedDocuments, KnowledgeBase.storedChunks, hbackend, hallChunks,
      List.filter_append, hmineChunks]
    exact congrArg (· ++ added) hkeptChunks
  · intro id hid
    simp only [KnowledgeBase.documentIds, hall, List.map_append, List.mem_append] at hid
    rcases hid with hold | hnew
    · left
      simp only [KnowledgeBase.documentIds, hbackend]
      exact List.map_subset _ hids hold
    · obtain ⟨d, hd, rfl⟩ := List.mem_map.1 hnew
      exact .inr ⟨d, hd, rfl⟩
  · intro id hid
    simp only [KnowledgeBase.chunkIds, hallChunks, List.map_append, List.mem_append] at hid
    rcases hid with hold | hnew
    · left
      simp only [KnowledgeBase.chunkIds, hbackend]
      exact List.map_subset _ hchunkIds hold
    · obtain ⟨ch, hch, rfl⟩ := List.mem_map.1 hnew
      exact .inr ⟨ch, hch, rfl⟩

theorem replaced_store {service : KnowledgeBase} {kbId : String} {replacedIds : List String}
    {created : List KnowledgeDocument} {added : List KnowledgeChunk}
    (h : Storable service kbId replacedIds created added) :
    Replaced kbId created added service (service.store kbId replacedIds created added) := by
  cases hbackend : service.backend with
  | none => simpa only [KnowledgeBase.store, hbackend] using replaced_storeInMemory hbackend h
  | some backend =>
    simpa only [KnowledgeBase.store, hbackend] using replaced_persistDocuments hbackend h

end Himmy
