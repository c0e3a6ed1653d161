import Himmy.Knowledge.SqliteBackend
import Himmy.Library.Transition

/-! # Ingestion

`ingest_documents` looks its inputs up in what the knowledge base holds, embeds those whose content
is new, and stores them in place of the documents of their sources. Calls interleave: each takes its
snapshot, goes through its inputs (reading the backend's documents on the way), waits for the
embedder, and stores, and other calls take their steps in between. -/

namespace Himmy

/-! ## The service -/

/-- `KnowledgeBase`: a backend, or the dictionaries of the in-memory path. -/
structure KnowledgeBase where
  backend : Option SqliteKnowledgeBackend := none
  kbs : KeyedList KnowledgeBaseRecord.kbId := KeyedList.empty
  documents : Dict (KeyedList KnowledgeDocument.documentId) := KeyedList.empty
  chunks : Dict (KeyedList KnowledgeChunk.chunkId) := KeyedList.empty
  /-- The indexes that were built, with the texts in them. -/
  lexical : Dict (List (String × String)) := KeyedList.empty

namespace KnowledgeBase

variable (service : KnowledgeBase) (kbId documentId : String)

def getKb : Option KnowledgeBaseRecord :=
  match service.backend with
  | some backend => backend.conn.knowledgeBases.get? kbId
  | none => service.kbs.get? kbId

end KnowledgeBase

/-! ## Inputs -/

/-- `DocumentInput`; a file with what reading it gives. -/
structure DocumentInput where
  text : Option String := none
  file : Option (String × Except String String) := none
  title : Option String := none
  sourceUri : Option String := none
  metadata : Dict Json := KeyedList.empty

abbrev Triple := Int × Int × String

/-- What an ingestion computes with: the hash, the chunker, `new_uuid` by how many there were before,
    and the fingerprint of the embedder. -/
structure IngestTools where
  contentHash : String → String
  chunk : String → List Triple
  newUuid : Nat → String
  fingerprint : String

namespace DocumentInput

variable (item : DocumentInput)

def source : Option String :=
  match item.sourceUri with
  | some uri => if uri = "" then item.file.map Prod.fst else some uri
  | none => item.file.map Prod.fst

def label : String :=
  pyOr item.title (pyOr item.sourceUri (pyOr (item.file.map Prod.fst) "<text>"))

def materializeText : Except String String :=
  match item.text, item.file with
  | some text, _ => .ok text
  | none, some (_, contents) => contents
  | none, none => .error "DocumentInput has neither text nor file."

end DocumentInput

def IngestTools.triples (tools : IngestTools) (text : String) : List Triple :=
  if pyStrip isPySpace text.toList = [] then [] else tools.chunk text

/-! ## What a call reads and writes -/

namespace KnowledgeBase

variable (service : KnowledgeBase) (kbId : String)

/-- `self._documents.get(kb_id, {})` without a backend. -/
def existing : List KnowledgeDocument :=
  match service.backend with
  | some _ => []
  | none => ((service.documents.find? kbId).getD KeyedList.empty).items

def backendDocumentIdentities : List (Option String × String) :=
  match service.backend with
  | some backend =>
    (backend.conn.knowledgeDocuments.items.filter (fun d => d.kbId = kbId)).map
      (fun d => (d.sourceUri, d.contentHash))
  | none => []

/-- `_backend_get_document`, `get_document`: the first document of the identity. -/
def backendGetDocument (identity : Option String × String) : Option KnowledgeDocument :=
  match service.backend with
  | some backend =>
    backend.conn.knowledgeDocuments.items.find?
      (fun d => d.kbId = kbId && (d.sourceUri, d.contentHash) = identity)
  | none => none

/-- The dictionaries after a call has stored its documents: the superseded ones go first. -/
def storeInMemory (replacedIds : List String) (created : List KnowledgeDocument)
    (chunks : List KnowledgeChunk) : KnowledgeBase :=
  let kept := replacedIds.foldl KeyedList.erase
    ((service.documents.find? kbId).getD KeyedList.empty)
  let keptChunks := replacedIds.foldl
    (fun kept oldId => kept.filter (fun chunk => chunk.documentId ≠ oldId))
    ((service.chunks.find? kbId).getD KeyedList.empty)
  { service with
    documents := service.documents.set kbId (created.foldl KeyedList.put kept)
    chunks := service.chunks.set kbId (chunks.foldl KeyedList.put keptChunks)
    lexical := KeyedList.erase service.lexical kbId }

/-- Store the documents of a call: the backend replaces by source, the dictionaries by the identifiers
    the call collected. -/
def store (replacedIds : List String) (created : List KnowledgeDocument)
    (chunks : List KnowledgeChunk) : KnowledgeBase :=
  match service.backend with
  | some backend =>
    { service with backend := some (backend.persistDocuments kbId created chunks) }
  | none => service.storeInMemory kbId replacedIds created chunks

end KnowledgeBase

/-! ## The plan of a call -/

/-- The local state of `ingest_documents` as it goes through its inputs. -/
structure IngestPlan where
  docs : List DocumentInput
  vectorDim : Int
  byIdentity :
    KeyedList (Prod.fst : (Option String × String) × KnowledgeDocument → Option String × String)
  bySource : Dict KnowledgeDocument
  backendIdentities : List (Option String × String)
  todo : List DocumentInput
  skipped : List String := []
  replacedIds : List String := []
  slots : List (Option KnowledgeDocument) := []
  pending : List (KnowledgeDocument × List Triple) := []

namespace IngestPlan

def start (service : KnowledgeBase) (kbId : String) (vectorDim : Int)
    (docs : List DocumentInput) : IngestPlan where
  docs
  vectorDim
  byIdentity := (service.existing kbId).foldl
    (fun lookup d => lookup.put ((d.sourceUri, d.contentHash), d)) KeyedList.empty
  bySource := ((service.existing kbId).filterMap (fun d => d.sourceUri.map (·, d))).foldl
    (fun lookup entry => lookup.set entry.1 entry.2) KeyedList.empty
  backendIdentities := service.backendDocumentIdentities kbId
  todo := docs

variable (tools : IngestTools) (service : KnowledgeBase) (kbId : String) (plan : IngestPlan)

def noteSource (lookup : Dict KnowledgeDocument) (document : KnowledgeDocument) :
    Dict KnowledgeDocument :=
  match document.sourceUri with
  | some source => lookup.set source document
  | none => lookup

def reuse (document : KnowledgeDocument) : IngestPlan :=
  { plan with slots := plan.slots ++ [some document] }

def reload (identity : Option String × String) (document : KnowledgeDocument) : IngestPlan :=
  { plan with
    slots := plan.slots ++ [some document]
    byIdentity := plan.byIdentity.put (identity, document)
    bySource := match identity.1 with
      | some source => plan.bySource.set source document
      | none => plan.bySource }

def skip (item : DocumentInput) : IngestPlan :=
  { plan with
    slots := plan.slots ++ [none]
    skipped := plan.skipped ++ [item.label] }

def create (document : KnowledgeDocument) (triples : List Triple) : IngestPlan :=
  { plan with
    replacedIds := plan.replacedIds
      ++ ((document.sourceUri.bind plan.bySource.find?).map KnowledgeDocument.documentId).toList
    pending := plan.pending ++ [(document, triples)]
    slots := plan.slots ++ [some document]
    byIdentity := plan.byIdentity.put ((document.sourceUri, document.contentHash), document)
    bySource := noteSource plan.bySource document }

def planItem (documentId : String) (item : DocumentInput) : Except String IngestPlan :=
  match item.materializeText with
  | .error e => .error e
  | .ok text =>
    let identity := (item.source, tools.contentHash text)
    match plan.byIdentity.get? identity with
    | some known => .ok (plan.reuse known.2)
    | none =>
      match if identity ∈ plan.backendIdentities then service.backendGetDocument kbId identity
        else none with
      | some document => .ok (plan.reload identity document)
      | none =>
        if tools.triples text = [] then .ok (plan.skip item)
        else .ok (plan.create
          { documentId, kbId, title := item.title, sourceUri := item.source, text := some text,
            contentHash := tools.contentHash text, metadata := item.metadata }
          (tools.triples text))

def created : List KnowledgeDocument := plan.pending.map Prod.fst

def documents : List KnowledgeDocument := plan.slots.filterMap id

def settle : Except String (List KnowledgeDocument) :=
  if plan.documents ≠ [] then .ok plan.documents
  else if plan.skipped ≠ [] then
    .error ("ingest_documents produced zero chunks for every input ("
      ++ toString plan.skipped.length ++ " empty document(s)); nothing was ingested.")
  else .ok []

def chunkTexts : List (KnowledgeDocument × Triple) :=
  plan.pending.flatMap (fun p => p.2.map (fun triple => (p.1, triple)))

def validateEmbedding (vector : List Rat) : Except String Unit :=
  if vector = [] then
    .error ("Embedder returned an empty embedding vector; refusing to ingest an unretrievable chunk "
      ++ "(broken provider call?).")
  else if (vector.length : Int) ≠ plan.vectorDim then
    .error ("Embedding dim " ++ toString vector.length ++ " != KB vector_dim "
      ++ toString plan.vectorDim ++ ".")
  else if vector.all (· = 0) then
    .error "Embedder returned a zero-norm embedding vector; refusing to ingest an unretrievable chunk."
  else .ok ()

def checkEmbeddings (embeddings : List (List Rat)) : Except String Unit :=
  if embeddings.length ≠ plan.chunkTexts.length then
    .error "Embedder returned a mismatched number of vectors during ingest."
  else embeddings.forM plan.validateEmbedding

/-- `KnowledgeChunk(…)` of a text with its vector, under the identifier of a number. -/
def chunkOf (entry : ((KnowledgeDocument × Triple) × List Rat) × Nat) : KnowledgeChunk where
  chunkId := tools.newUuid entry.2
  documentId := entry.1.1.1.documentId
  kbId
  text := some entry.1.1.2.2.2
  startPos := entry.1.1.2.1
  endPos := entry.1.1.2.2.1
  embedding := entry.1.2
  chunkKind := "text"
  metadata := entry.1.1.1.metadata.set "embedder_fingerprint" (.str tools.fingerprint)

def chunks (uuids : Nat) (embeddings : List (List Rat)) : List KnowledgeChunk :=
  ((plan.chunkTexts.zip embeddings).zipIdx uuids).map (chunkOf tools kbId)

end IngestPlan

/-! ## The system -/

/-- A call of `ingest_documents`. -/
inductive IngestCall where
  | idle
  /-- It goes through its inputs. -/
  | planning (plan : IngestPlan)
  /-- It waits for the embedder. -/
  | embedding (plan : IngestPlan)
  | returned (documents : List KnowledgeDocument)
  | raised (message : String)

def namedInput (tools : IngestTools) (item : DocumentInput) : Option (String × String) :=
  match item.source, item.materializeText with
  | some source, .ok text => if tools.triples text = [] then none else some (source, text)
  | _, _ => none

def named (tools : IngestTools) (docs : List DocumentInput) : List (String × String) :=
  docs.filterMap (namedInput tools)

/-- A knowledge base with the calls on it, how many identifiers were drawn, and the content of the
    last input of each source that has chunks and whose call has returned. -/
structure IngestSystem where
  service : KnowledgeBase
  calls : Nat → IngestCall := fun _ => .idle
  uuids : Nat := 0
  last : String → Option String := fun _ => none

/-- A step of a call. -/
inductive IngestStep where
  | begin (call : Nat) (docs : List DocumentInput)
  | plan (call : Nat)
  | settle (call : Nat)
  | embedded (call : Nat) (embeddings : Except String (List (List Rat)))

namespace IngestSystem

variable (tools : IngestTools) (kbId : String) (s : IngestSystem)

def goto (c : Nat) (call : IngestCall) : IngestSystem :=
  { s with calls := Function.update s.calls c call }

def record (docs : List DocumentInput) : String → Option String :=
  (named tools docs).foldl (fun last input => Function.update last input.1 (some input.2)) s.last

def finish (c : Nat) (plan : IngestPlan) (result : Except String (List KnowledgeDocument)) :
    IngestSystem :=
  match result with
  | .ok documents => { s.goto c (.returned documents) with last := s.record tools plan.docs }
  | .error message => s.goto c (.raised message)

def step : IngestStep → Option IngestSystem
  | .begin c docs =>
    match s.calls c with
    | .idle =>
      match s.service.getKb kbId with
      | some kb => some (s.goto c (.planning (.start s.service kbId kb.vectorDim docs)))
      | none => some (s.goto c (.raised ("KnowledgeBase " ++ (Json.str kbId).pyRepr
          ++ " not found.")))
    | _ => none
  | .plan c =>
    match s.calls c with
    | .planning plan =>
      match plan.todo with
      | item :: todo =>
        match ({ plan with todo } : IngestPlan).planItem tools s.service kbId
            (tools.newUuid s.uuids) item with
        | .ok plan' => some { s.goto c (.planning plan') with uuids := s.uuids + 1 }
        | .error message => some (s.goto c (.raised message))
      | [] => none
    | _ => none
  | .settle c =>
    match s.calls c with
    | .planning plan =>
      if plan.todo ≠ [] then none
      else if plan.pending ≠ [] then some (s.goto c (.embedding plan))
      else some (s.finish tools c plan plan.settle)
    | _ => none
  | .embedded c embeddings =>
    match s.calls c with
    | .embedding plan =>
      match embeddings with
      | .error message => some (s.goto c (.raised message))
      | .ok embeddings =>
        match plan.checkEmbeddings embeddings with
        | .error message => some (s.goto c (.raised message))
        | .ok _ =>
          some { s.finish tools c plan (.ok plan.documents) with
            service := s.service.store kbId plan.replacedIds plan.created
              (plan.chunks tools kbId s.uuids embeddings)
            uuids := s.uuids + plan.chunkTexts.length }
    | _ => none

end IngestSystem

def ingestSystem (tools : IngestTools) (kbId : String) : LTS IngestSystem IngestStep where
  step := IngestSystem.step tools kbId

end Himmy
