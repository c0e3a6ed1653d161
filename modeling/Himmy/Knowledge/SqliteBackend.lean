import Mathlib.Data.List.Dedup
import Mathlib.Algebra.Order.Ring.Rat
import Himmy.Core.Text
import Himmy.Entities.Records
import Himmy.Storage.InMemory

/-! # The SQLite knowledge backend

Four tables hold the knowledge bases, their documents, the chunks of these and the full-text rows of
the chunks; foreign keys are not enforced. A dense search works on a snapshot of a knowledge base's
chunks, kept in a cache that every backend of a connection shares.

Floats are the rational numbers that finite floats are, and what is computed with them is given: the
cosine, the full-text match and `bm25`, which ranks a row among all rows of the index. -/

namespace Himmy

open KeyedList (empty)

/-! ## Tables -/

structure KnowledgeBaseRecord where
  kbId : String
  workspaceId : String
  clientId : String
  name : String
  vectorDim : Int := 64
  metadata : Dict Json := empty

structure KnowledgeDocument where
  documentId : String
  kbId : String
  title : Option String := none
  sourceUri : Option String := none
  text : Option String := none
  contentHash : String := ""
  metadata : Dict Json := empty

structure KnowledgeChunk where
  chunkId : String
  documentId : String
  kbId : String
  text : Option String := none
  startPos : Int := 0
  endPos : Int := 0
  embedding : List Rat := []
  chunkKind : String := "text"
  metadata : Dict Json := empty

/-- A row of `knowledge_chunks_fts`. -/
structure LexicalRow where
  chunkId : String
  kbId : String
  text : String

/-- The knowledge tables. -/
structure KnowledgeTables where
  knowledgeBases : KeyedList KnowledgeBaseRecord.kbId := empty
  knowledgeDocuments : KeyedList KnowledgeDocument.documentId := empty
  knowledgeChunks : KeyedList KnowledgeChunk.chunkId := empty
  knowledgeChunksFts : List LexicalRow := []

/-! ## Search results -/

structure RetrievedChunk where
  text : Option String
  similarity : Rat
  contextWindow : Option String
  documentId : String
  sourceUri : Option String
  chunkKind : String
  metadata : Dict Json

/-- `_CachedChunk`: a chunk with the columns of its document. -/
structure CachedChunk where
  chunkId : String
  documentId : String
  text : Option String
  startPos : Int
  endPos : Int
  chunkKind : String
  docSourceUri : Option String
  docText : Option String
  embedding : List Rat
  metadata : Dict Json

/-- A row of `knowledge_chunks` joined with its document. -/
def CachedChunk.ofRows (chunk : KnowledgeChunk) (document : KnowledgeDocument) : CachedChunk where
  chunkId := chunk.chunkId
  documentId := chunk.documentId
  text := chunk.text
  startPos := chunk.startPos
  endPos := chunk.endPos
  chunkKind := chunk.chunkKind
  docSourceUri := document.sourceUri
  docText := document.text
  embedding := chunk.embedding
  metadata := chunk.metadata

def window (docText : Option String) (start stop : Int) (fallback : Option String) :
    Option String :=
  match docText with
  | none => fallback
  | some text =>
    let pad := 200
    let s := max 0 (start - pad)
    let e := min (text.toList.length : Int) (stop + pad)
    some (String.ofList ((pySlicePrefix text.toList e).drop s.toNat))

/-- `_row_to_result`, `_cached_to_result`. -/
def CachedChunk.toResult (chunk : CachedChunk) (similarity : Rat) : RetrievedChunk where
  text := chunk.text
  similarity := similarity
  contextWindow := window chunk.docText chunk.startPos chunk.endPos chunk.text
  documentId := chunk.documentId
  sourceUri := chunk.docSourceUri
  chunkKind := chunk.chunkKind
  metadata := ((chunk.metadata.set "chunk_id" (.str chunk.chunkId)).set "start_pos"
    (.num chunk.startPos)).set "end_pos" (.num chunk.endPos)

def metadataGet (metadata : Dict Json) (k : String) : Json := (metadata.find? k).getD .null

def matchesFilters (filters : List (String × Json)) (metadata : Dict Json) : Bool :=
  filters.all (fun kv => (metadataGet metadata kv.1).pyEq kv.2)

/-- What computes with floats, and the full-text index: `none` for a query that does not parse. -/
structure SearchEngine where
  cosine : List Rat → List Rat → Rat
  ftsMatch : String → Option (LexicalRow → Bool)
  bm25 : List LexicalRow → String → LexicalRow → Rat

/-! ## The snapshot cache -/

abbrev Snapshot := KeyedList CachedChunk.chunkId

structure VectorCacheState where
  cache : KeyedList (Prod.fst : String × Snapshot → String) := empty
  gen : Nat := 0
  dataVersion : Option Nat := none

/-- `SqliteKnowledgeBackend`, with the version of the file as its connection reads it. -/
structure SqliteKnowledgeBackend where
  conn : KnowledgeTables := {}
  pragmaDataVersion : Nat := 0
  vecState : VectorCacheState := {}
  vecCacheMaxKbs : Int := 32
  lexicalReady : Bool := true

namespace KnowledgeTables

variable (tables : KnowledgeTables)

/-- `SELECT … FROM knowledge_chunks c JOIN knowledge_documents d ON …` of one chunk. -/
def joined (chunk : KnowledgeChunk) : Option CachedChunk :=
  (tables.knowledgeDocuments.get? chunk.documentId).map (CachedChunk.ofRows chunk)

theorem chunkId_of_joined {chunk : KnowledgeChunk} {cached : CachedChunk}
    (h : tables.joined chunk = some cached) : cached.chunkId = chunk.chunkId := by
  obtain ⟨document, _, rfl⟩ := Option.map_eq_some_iff.1 h
  rfl

theorem nodup_filterMap_joined {rows : List KnowledgeChunk}
    (h : (rows.map KnowledgeChunk.chunkId).Nodup) :
    ((rows.filterMap tables.joined).map CachedChunk.chunkId).Nodup := by
  induction rows with
  | nil => exact List.nodup_nil
  | cons chunk rows ih =>
    rw [List.map_cons, List.nodup_cons] at h
    cases hjoined : tables.joined chunk with
    | none => rw [List.filterMap_cons_none hjoined]; exact ih h.2
    | some cached =>
      rw [List.filterMap_cons_some hjoined, List.map_cons, List.nodup_cons]
      refine ⟨fun hmem => h.1 ?_, ih h.2⟩
      obtain ⟨other, hother, hid⟩ := List.mem_map.1 hmem
      obtain ⟨row, hrow, hjoin⟩ := List.mem_filterMap.1 hother
      rw [tables.chunkId_of_joined hjoin, tables.chunkId_of_joined hjoined] at hid
      exact List.mem_map.2 ⟨row, hrow, hid⟩

end KnowledgeTables

namespace SqliteKnowledgeBackend

variable (backend : SqliteKnowledgeBackend) (kbId : String)

def buildChunkSnapshot : Snapshot :=
  ⟨(backend.conn.knowledgeChunks.items.filter (fun chunk => chunk.kbId = kbId)).filterMap
      backend.conn.joined,
    backend.conn.nodup_filterMap_joined (backend.conn.knowledgeChunks.nodup_keys.sublist
      (List.filter_sublist.map KnowledgeChunk.chunkId))⟩

def dropCacheOnExternalWrite : SqliteKnowledgeBackend :=
  let current := backend.pragmaDataVersion
  match backend.vecState.dataVersion with
  | none => { backend with vecState := { backend.vecState with dataVersion := some current } }
  | some observed =>
    if current ≠ observed then
      { backend with vecState :=
          { backend.vecState with cache := empty, dataVersion := some current } }
    else backend

/-- Store a snapshot as the newest, and drop the oldest ones over the bound. -/
def publish (snapshot : Snapshot) : SqliteKnowledgeBackend :=
  let cache := backend.vecState.cache.replace (kbId, snapshot)
  let surplus := cache.items.length - backend.vecCacheMaxKbs.toNat
  { backend with vecState :=
      { backend.vecState with
        cache := ⟨cache.items.drop surplus,
          cache.nodup_keys.sublist ((List.drop_sublist surplus _).map Prod.fst)⟩
        dataVersion := some (match backend.vecState.dataVersion with
          | none => backend.pragmaDataVersion
          | some observed => max observed backend.pragmaDataVersion) } }

/-- `_cached_chunks`, when nothing commits between the fetch and the publication. -/
def cachedChunks : SqliteKnowledgeBackend × Snapshot :=
  if backend.vecCacheMaxKbs ≤ 0 then (backend, backend.buildChunkSnapshot kbId)
  else
    let current := backend.dropCacheOnExternalWrite
    match current.vecState.cache.get? kbId with
    | some (_, snapshot) =>
      ({ current with vecState :=
          { current.vecState with cache := current.vecState.cache.replace (kbId, snapshot) } },
        snapshot)
    | none =>
      (current.publish kbId (current.buildChunkSnapshot kbId), current.buildChunkSnapshot kbId)

def invalidateVectorCache : SqliteKnowledgeBackend :=
  { backend with vecState :=
      { backend.vecState with cache := backend.vecState.cache.erase kbId } }

end SqliteKnowledgeBackend

/-! ## Searches -/

namespace Snapshot

variable (engine : SearchEngine) (snapshot : Snapshot) (queryVec : List Rat) (topK : Int)
  (filters : List (String × Json))

def scored (keep : Rat → Bool) : List (Rat × CachedChunk) :=
  (snapshot.items.filter (fun chunk => matchesFilters filters chunk.metadata
      && keep (engine.cosine queryVec chunk.embedding))).map
    (fun chunk => (engine.cosine queryVec chunk.embedding, chunk))

/-- `_search_sync` on a snapshot. -/
def search (similarityThreshold : Option Rat) : List RetrievedChunk :=
  let keep : Rat → Bool := fun sim => match similarityThreshold with
    | none => 0 < sim
    | some threshold => threshold ≤ sim
  (pySlicePrefix ((snapshot.scored engine queryVec filters keep).insertionSort
    (fun a b => b.1 ≤ a.1)) topK).map (fun pair => pair.2.toResult pair.1)

/-- `_dense_ranked_sync` on a snapshot. -/
def denseRanked : List (String × Rat) :=
  pySlicePrefix (((snapshot.scored engine queryVec filters (fun sim => 0 < sim)).map
      (fun pair => (pair.2.chunkId, pair.1))).insertionSort
    (fun a b => b.2 < a.2 ∨ b.2 = a.2 ∧ a.1 ≤ b.1)) topK

end Snapshot

/-- `re.findall(r"[A-Za-z0-9]+", query)`. -/
def alphanumericTokens (query : String) : List String :=
  ((query.toList.splitBy (fun a b => a.isAlphanum && b.isAlphanum)).filter
    (fun token => token.all Char.isAlphanum)).map String.ofList

def ftsQuery (query : String) : String :=
  let tokens := alphanumericTokens query
  if tokens = [] then "\"\"" else " OR ".intercalate (tokens.map (fun t => "\"" ++ t ++ "\""))

namespace SqliteKnowledgeBackend

variable (engine : SearchEngine) (backend : SqliteKnowledgeBackend) (kbId : String)

def search (queryVec : List Rat) (topK : Int) (similarityThreshold : Option Rat)
    (filters : List (String × Json)) : SqliteKnowledgeBackend × List RetrievedChunk :=
  ((backend.cachedChunks kbId).1,
    (backend.cachedChunks kbId).2.search engine queryVec topK filters similarityThreshold)

def denseRanked (queryVec : List Rat) (topK : Int) (filters : List (String × Json)) :
    SqliteKnowledgeBackend × List (String × Rat) :=
  ((backend.cachedChunks kbId).1,
    (backend.cachedChunks kbId).2.denseRanked engine queryVec topK filters)

/-- `LIMIT n`: a negative bound is none. -/
def sqlLimit {α : Type} (n : Int) (rows : List α) : List α :=
  if n < 0 then rows else rows.take n.toNat

/-- `SELECT f.chunk_id, bm25(…) … WHERE f.kb_id = ? AND … MATCH ? ORDER BY score ASC LIMIT ?`, the
    scores negated. -/
def lexicalHits (query : String) (pool : Int) : List (String × Rat) :=
  match engine.ftsMatch (ftsQuery query) with
  | none => []
  | some matched =>
    (sqlLimit pool (((backend.conn.knowledgeChunksFts.filter
        (fun row => row.kbId = kbId && matched row)).map (fun row =>
          (row.chunkId, engine.bm25 backend.conn.knowledgeChunksFts (ftsQuery query) row))).insertionSort
      (fun a b => a.2 ≤ b.2))).map (fun hit => (hit.1, -hit.2))

def hitPasses (filters : List (String × Json)) (hit : String × Rat) : Bool :=
  match backend.conn.knowledgeChunks.get? hit.1 with
  | none => false
  | some chunk => matchesFilters filters chunk.metadata

/-- `search_lexical`, `_search_lexical_sync`. -/
def searchLexical (query : String) (topK : Int) (filters : List (String × Json)) :
    List (String × Rat) :=
  if !backend.lexicalReady then []
  else if pyStrip isPySpace query.toList = [] then []
  else if filters = [] then pySlicePrefix (backend.lexicalHits engine kbId query topK) topK
  else
    pySlicePrefix ((backend.lexicalHits engine kbId query (topK * 2)).filter
      (backend.hitPasses filters)) topK

def getChunk (chunkId : String) : Option RetrievedChunk :=
  ((backend.conn.knowledgeChunks.get? chunkId).filter (fun chunk => chunk.kbId = kbId)).bind
    (fun chunk => (backend.conn.joined chunk).map (fun cached => cached.toResult 0))

/-! ## Deletion -/

/-- `_delete_document_rows`: the chunks of the document go whichever knowledge base holds them. -/
def deleteDocumentRows (documentId : String) : KnowledgeTables × Bool :=
  let tables := backend.conn
  let doomed := (tables.knowledgeChunks.items.filter
    (fun chunk => chunk.documentId = documentId)).map KnowledgeChunk.chunkId
  ({ tables with
      knowledgeChunksFts := if backend.lexicalReady then
        tables.knowledgeChunksFts.filter (fun row => row.chunkId ∉ doomed)
        else tables.knowledgeChunksFts
      knowledgeChunks := tables.knowledgeChunks.filter (fun chunk => chunk.documentId ≠ documentId)
      knowledgeDocuments := tables.knowledgeDocuments.filter
        (fun document => !(document.documentId = documentId && document.kbId = kbId)) },
    tables.knowledgeDocuments.items.countP
      (fun document => document.documentId = documentId && document.kbId = kbId) = 1)

/-- `delete_document`, `_delete_document_locked`. -/
def deleteDocument (documentId : String) : SqliteKnowledgeBackend × Bool :=
  let deleted := backend.deleteDocumentRows kbId documentId
  (({ backend with
      conn := deleted.1
      vecState := { backend.vecState with gen := backend.vecState.gen + 1 } } :
        SqliteKnowledgeBackend).invalidateVectorCache kbId, deleted.2)

def deleteChunksForKb : KnowledgeTables :=
  { backend.conn with
    knowledgeChunksFts := if backend.lexicalReady then
      backend.conn.knowledgeChunksFts.filter (fun row => row.kbId ≠ kbId)
      else backend.conn.knowledgeChunksFts
    knowledgeChunks := backend.conn.knowledgeChunks.filter (fun chunk => chunk.kbId ≠ kbId) }

/-- `delete_kb`, `_delete_kb_sync`. -/
def deleteKb : SqliteKnowledgeBackend × Bool :=
  let tables := backend.deleteChunksForKb kbId
  (({ backend with
      conn := { tables with
        knowledgeDocuments :=
          tables.knowledgeDocuments.filter (fun document => document.kbId ≠ kbId)
        knowledgeBases := tables.knowledgeBases.erase kbId }
      vecState := { backend.vecState with gen := backend.vecState.gen + 1 } } :
        SqliteKnowledgeBackend).invalidateVectorCache kbId,
    (tables.knowledgeBases.get? kbId).isSome)

/-! ## Persistence -/

def documentsOfSource (sourceUri : String) : List String :=
  (backend.conn.knowledgeDocuments.items.filter
    (fun document => document.kbId = kbId && document.sourceUri = some sourceUri)).map
      KnowledgeDocument.documentId

def deleteSource (sourceUri : String) : SqliteKnowledgeBackend :=
  (backend.documentsOfSource kbId sourceUri).foldl
    (fun b documentId => { b with conn := (b.deleteDocumentRows kbId documentId).1 }) backend

/-- `INSERT INTO knowledge_documents … ON CONFLICT (document_id) DO NOTHING`. -/
def insertDocument (document : KnowledgeDocument) : SqliteKnowledgeBackend :=
  if (backend.conn.knowledgeDocuments.get? document.documentId).isSome then backend
  else { backend with conn := { backend.conn with
    knowledgeDocuments := backend.conn.knowledgeDocuments.put { document with kbId } } }

/-- `INSERT INTO knowledge_chunks … ON CONFLICT (chunk_id) DO NOTHING`, and the full-text row, which
    has no key. -/
def insertChunk (chunk : KnowledgeChunk) : SqliteKnowledgeBackend :=
  let tables := backend.conn
  { backend with conn := { tables with
      knowledgeChunks :=
        if (tables.knowledgeChunks.get? chunk.chunkId).isSome then tables.knowledgeChunks
        else tables.knowledgeChunks.put { chunk with kbId }
      knowledgeChunksFts :=
        if backend.lexicalReady && chunk.text.any (· ≠ "") then
          tables.knowledgeChunksFts
            ++ [{ chunkId := chunk.chunkId, kbId, text := chunk.text.getD "" }]
        else tables.knowledgeChunksFts } }

/-- The tables that `_persist_documents_sync` commits: the documents of the incoming sources go, then
    the incoming ones are inserted. -/
def persistRows (documents : List KnowledgeDocument) (chunks : List KnowledgeChunk) :
    KnowledgeTables :=
  let sources := (documents.filterMap KnowledgeDocument.sourceUri).dedup
  let deleted := sources.foldl (fun b sourceUri => b.deleteSource kbId sourceUri) backend
  let inserted := documents.foldl (fun b document => b.insertDocument kbId document) deleted
  (chunks.foldl (fun b chunk => b.insertChunk kbId chunk) inserted).conn

/-- `persist_documents`, `_persist_documents_sync`. -/
def persistDocuments (documents : List KnowledgeDocument) (chunks : List KnowledgeChunk) :
    SqliteKnowledgeBackend :=
  ({ backend with
      conn := backend.persistRows kbId documents chunks
      vecState := { backend.vecState with gen := backend.vecState.gen + 1 } } :
        SqliteKnowledgeBackend).invalidateVectorCache kbId

end SqliteKnowledgeBackend

end Himmy
