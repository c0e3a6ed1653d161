import Himmy.Knowledge.SqliteBackend
import Himmy.Library.CommitLog
import Himmy.Library.Transition

/-! # The snapshot cache under concurrent calls

Searches and mutations of any number of backends over one connection interleave the steps they take
under the write lock and the cache lock, and other connections commit to the file at any time. A log
of the commits tells which state of the tables a snapshot is of.

Alone, the steps of a search make up `_cached_chunks` as `cachedChunks` states it
(`cachedChunks_of_alone`). -/

namespace Himmy

/-! ## What the steps do to the connection and its cache -/

def KnowledgeTables.snapshot (tables : KnowledgeTables) (kbId : String) : Snapshot :=
  ({ conn := tables } : SqliteKnowledgeBackend).buildChunkSnapshot kbId

/-- A mutation of a knowledge base. -/
inductive KnowledgeMutation where
  | persistDocuments (documents : List KnowledgeDocument) (chunks : List KnowledgeChunk)
  | deleteDocument (documentId : String)
  | deleteKb

def KnowledgeMutation.rows (backend : SqliteKnowledgeBackend) (kbId : String) :
    KnowledgeMutation → KnowledgeTables
  | .persistDocuments documents chunks => backend.persistRows kbId documents chunks
  | .deleteDocument documentId => (backend.deleteDocumentRows kbId documentId).1
  | .deleteKb =>
    { backend.deleteChunksForKb kbId with
      knowledgeDocuments :=
        backend.conn.knowledgeDocuments.filter (fun document => document.kbId ≠ kbId)
      knowledgeBases := backend.conn.knowledgeBases.erase kbId }

namespace SqliteKnowledgeBackend

variable (backend : SqliteKnowledgeBackend) (kbId : String)

/-- A commit of this connection, which moves the generation under the write lock. -/
def commitRows (tables : KnowledgeTables) : SqliteKnowledgeBackend :=
  { backend with
    conn := tables
    vecState := { backend.vecState with gen := backend.vecState.gen + 1 } }

def externalCommit (tables : KnowledgeTables) : SqliteKnowledgeBackend :=
  { backend with conn := tables, pragmaDataVersion := backend.pragmaDataVersion + 1 }

/-- What `_drop_cache_on_external_write` does with the version it has read. -/
def checkDataVersion (current : Nat) : SqliteKnowledgeBackend :=
  match backend.vecState.dataVersion with
  | none => { backend with vecState := { backend.vecState with dataVersion := some current } }
  | some observed =>
    if current ≠ observed then
      { backend with vecState :=
          { backend.vecState with cache := KeyedList.empty, dataVersion := some current } }
    else backend

def moveToEnd (snapshot : Snapshot) : SqliteKnowledgeBackend :=
  { backend with vecState :=
      { backend.vecState with cache := backend.vecState.cache.replace (kbId, snapshot) } }

def storeSnapshot (vecCacheMaxKbs : Int) (dataVersion : Nat) (snapshot : Snapshot) :
    SqliteKnowledgeBackend :=
  let cache := backend.vecState.cache.replace (kbId, snapshot)
  let surplus := cache.items.length - vecCacheMaxKbs.toNat
  { backend with vecState :=
      { backend.vecState with
        cache := ⟨cache.items.drop surplus,
          cache.nodup_keys.sublist ((List.drop_sublist surplus _).map Prod.fst)⟩
        dataVersion := some (match backend.vecState.dataVersion with
          | none => dataVersion
          | some observed => max observed dataVersion) } }

theorem buildChunkSnapshot_eq : backend.buildChunkSnapshot kbId = backend.conn.snapshot kbId := rfl

theorem dropCacheOnExternalWrite_eq :
    backend.dropCacheOnExternalWrite = backend.checkDataVersion backend.pragmaDataVersion := rfl

theorem checkDataVersion_frame (current : Nat) :
    (backend.checkDataVersion current).conn = backend.conn
      ∧ (backend.checkDataVersion current).pragmaDataVersion = backend.pragmaDataVersion
      ∧ (backend.checkDataVersion current).vecState.gen = backend.vecState.gen
      ∧ (backend.checkDataVersion current).vecCacheMaxKbs = backend.vecCacheMaxKbs := by
  unfold checkDataVersion
  split
  · exact ⟨rfl, rfl, rfl, rfl⟩
  · split <;> exact ⟨rfl, rfl, rfl, rfl⟩

theorem publish_eq (snapshot : Snapshot) : backend.publish kbId snapshot
      = backend.storeSnapshot kbId backend.vecCacheMaxKbs backend.pragmaDataVersion snapshot := rfl

theorem persistDocuments_eq (documents : List KnowledgeDocument) (chunks : List KnowledgeChunk) :
    backend.persistDocuments kbId documents chunks
      = (backend.commitRows ((KnowledgeMutation.persistDocuments documents chunks).rows backend
          kbId)).invalidateVectorCache kbId := rfl

theorem deleteDocument_eq (documentId : String) : (backend.deleteDocument kbId documentId).1
      = (backend.commitRows ((KnowledgeMutation.deleteDocument documentId).rows backend
          kbId)).invalidateVectorCache kbId := rfl

theorem deleteKb_eq : (backend.deleteKb kbId).1
      = (backend.commitRows (KnowledgeMutation.deleteKb.rows backend
          kbId)).invalidateVectorCache kbId := rfl

end SqliteKnowledgeBackend

/-! ## The system -/

/-- A call of `_cached_chunks` by a backend, with the commits that came before it: those of other
    connections, and those of the mutations that had returned. -/
structure CachedChunksCall where
  kbId : String
  vecCacheMaxKbs : Int
  settled : List Nat

/-- What a thread is about to do. -/
inductive CacheTask where
  | idle
  /-- `_drop_cache_on_external_write` is next. -/
  | begun (call : CachedChunksCall)
  /-- It has read the version, and compares it under the cache lock next. -/
  | versionRead (call : CachedChunksCall) (current : Nat)
  /-- The cache is looked up next. -/
  | checked (call : CachedChunksCall)
  /-- `_build_chunk_snapshot` is next. -/
  | building (call : CachedChunksCall)
  /-- It holds the write lock and has read both versions; the rows are next. -/
  | fetching (call : CachedChunksCall) (gen dataVersion : Nat)
  | built (call : CachedChunksCall) (gen dataVersion : Nat) (snapshot : Snapshot)
  /-- It holds the cache lock, found no snapshot, and compares the generation next. -/
  | publishing (call : CachedChunksCall) (gen dataVersion : Nat) (snapshot : Snapshot)
  /-- It holds the cache lock and compares the version next. -/
  | genMatched (call : CachedChunksCall) (dataVersion : Nat) (snapshot : Snapshot)
  /-- It holds the cache lock and stores the snapshot next. -/
  | versionMatched (call : CachedChunksCall) (dataVersion : Nat) (snapshot : Snapshot)
  /-- The call has returned the snapshot, which the search scores. -/
  | scored (call : CachedChunksCall) (snapshot : Snapshot)
  /-- A mutation has committed, and drops the snapshot of its knowledge base next. -/
  | committed (kbId : String) (commit : Nat)

/-- The connection with its cache, the two locks between steps, the threads, and the commits: the
    author of one is the knowledge base that a mutation names, none for another connection's. -/
structure CacheSystem where
  backend : SqliteKnowledgeBackend
  lock : Option Nat := none
  cacheLock : Option Nat := none
  tasks : Nat → CacheTask := fun _ => .idle
  log : CommitLog (Option String) KnowledgeTables
  settled : List Nat := []

/-- A step of the system. -/
inductive CacheStep where
  | external (tables : KnowledgeTables)
  | search (task : Nat) (kbId : String) (vecCacheMaxKbs : Int)
  | mutate (task : Nat) (kbId : String) (mutation : KnowledgeMutation) (lexicalReady : Bool)
  | advance (task : Nat)
  | finish (task : Nat)

namespace CacheSystem

variable (s : CacheSystem)

def goto (t : Nat) (task : CacheTask) : CacheSystem :=
  { s with tasks := Function.update s.tasks t task }

/-- The next step of a thread; none while it waits for a lock. -/
def advance (t : Nat) : Option CacheSystem :=
  match s.tasks t with
  | .idle => none
  | .begun call =>
    if call.vecCacheMaxKbs ≤ 0 then some (s.goto t (.building call))
    else if s.lock = none then
      some (s.goto t (.versionRead call s.backend.pragmaDataVersion))
    else none
  | .versionRead call current =>
    if s.cacheLock = none then
      some { s.goto t (.checked call) with backend := s.backend.checkDataVersion current }
    else none
  | .checked call =>
    if s.cacheLock = none then
      match s.backend.vecState.cache.get? call.kbId with
      | some (_, snapshot) =>
        some { s.goto t (.scored call snapshot) with
          backend := s.backend.moveToEnd call.kbId snapshot }
      | none => some (s.goto t (.building call))
    else none
  | .building call =>
    if s.lock = none then
      some { s.goto t (.fetching call s.backend.vecState.gen s.backend.pragmaDataVersion) with
        lock := some t }
    else none
  | .fetching call gen dataVersion =>
    some { s.goto t (.built call gen dataVersion (s.backend.buildChunkSnapshot call.kbId)) with
      lock := none }
  | .built call gen dataVersion snapshot =>
    if call.vecCacheMaxKbs ≤ 0 then some (s.goto t (.scored call snapshot))
    else if s.cacheLock = none then
      match s.backend.vecState.cache.get? call.kbId with
      | some (_, existing) =>
        some { s.goto t (.scored call existing) with
          backend := s.backend.moveToEnd call.kbId existing }
      | none =>
        some { s.goto t (.publishing call gen dataVersion snapshot) with cacheLock := some t }
    else none
  | .publishing call gen dataVersion snapshot =>
    if s.lock = none then
      if s.backend.vecState.gen = gen then
        some (s.goto t (.genMatched call dataVersion snapshot))
      else some { s.goto t (.scored call snapshot) with cacheLock := none }
    else none
  | .genMatched call dataVersion snapshot =>
    if s.lock = none then
      if s.backend.pragmaDataVersion = dataVersion then
        some (s.goto t (.versionMatched call dataVersion snapshot))
      else some { s.goto t (.scored call snapshot) with cacheLock := none }
    else none
  | .versionMatched call dataVersion snapshot =>
    some { s.goto t (.scored call snapshot) with
      backend := s.backend.storeSnapshot call.kbId call.vecCacheMaxKbs dataVersion snapshot
      cacheLock := none }
  | .scored .. => none
  | .committed kbId commit =>
    if s.cacheLock = none then
      some { s.goto t .idle with
        backend := s.backend.invalidateVectorCache kbId
        settled := commit :: s.settled }
    else none

def step : CacheStep → Option CacheSystem
  | .external tables =>
    some { s with
      backend := s.backend.externalCommit tables
      log := s.log.commit none tables
      settled := s.log.count :: s.settled }
  | .search t kbId vecCacheMaxKbs =>
    match s.tasks t with
    | .idle => some (s.goto t (.begun { kbId, vecCacheMaxKbs, settled := s.settled }))
    | _ => none
  | .mutate t kbId mutation lexicalReady =>
    match s.tasks t with
    | .idle =>
      if s.lock = none then
        let tables := mutation.rows { s.backend with lexicalReady } kbId
        some { s.goto t (.committed kbId s.log.count) with
          backend := s.backend.commitRows tables
          log := s.log.commit (some kbId) tables }
      else none
    | _ => none
  | .advance t => s.advance t
  | .finish t =>
    match s.tasks t with
    | .scored .. => some (s.goto t .idle)
    | _ => none

end CacheSystem

def cacheSystem : LTS CacheSystem CacheStep where
  step := CacheSystem.step

def CacheSystem.connect (tables : KnowledgeTables) (pragmaDataVersion : Nat) : CacheSystem where
  backend := { conn := tables, pragmaDataVersion }
  log := .start tables none

/-! ## A search alone -/

namespace CacheSystem

variable {s : CacheSystem} {t : Nat} {call : CachedChunksCall}

theorem cachedChunks_of_alone (htask : s.tasks t = .begun call) (hlock : s.lock = none)
    (hcacheLock : s.cacheLock = none) (hmax : s.backend.vecCacheMaxKbs = call.vecCacheMaxKbs) :
    ∃ n, (cacheSystem.exec s (List.replicate n (.advance t))).map
        (fun s' => (s'.backend, s'.tasks t)) = some ((s.backend.cachedChunks call.kbId).1,
          .scored call (s.backend.cachedChunks call.kbId).2) := by
  unfold SqliteKnowledgeBackend.cachedChunks
  by_cases hnone : call.vecCacheMaxKbs ≤ 0
  · -- uncached: begin, fetch, decode, return
    refine ⟨4, ?_⟩
    rw [if_pos (hmax ▸ hnone)]
    simp [LTS.exec, cacheSystem, step, advance, goto, htask, hnone, hlock, List.replicate]
  · obtain ⟨-, hpragma, -, hmax'⟩ :=
      s.backend.checkDataVersion_frame s.backend.pragmaDataVersion
    rw [if_neg (hmax ▸ hnone)]
    simp only [SqliteKnowledgeBackend.dropCacheOnExternalWrite_eq]
    cases hget : (s.backend.checkDataVersion
        s.backend.pragmaDataVersion).vecState.cache.get? call.kbId with
    | some entry =>
      refine ⟨3, ?_⟩
      simp [LTS.exec, cacheSystem, step, advance, goto, htask, hnone, hlock, hcacheLock,
        List.replicate, hget, SqliteKnowledgeBackend.moveToEnd]
    | none =>
      -- the two comparisons before the publication find what the fetch has just read
      refine ⟨9, ?_⟩
      simp [LTS.exec, cacheSystem, step, advance, goto, htask, hnone, hlock, hcacheLock,
        List.replicate, hget, SqliteKnowledgeBackend.publish_eq, hmax', hmax, hpragma]

private def coldCall : CachedChunksCall := { kbId := "k", vecCacheMaxKbs := 32, settled := [] }

/-- A search of a base that is not cached. -/
private def cold : CacheSystem := (connect {} 3).goto 0 (.begun coldCall)

theorem cachedChunks_of_alone_cold :
    ∃ n, (cacheSystem.exec cold (List.replicate n (.advance 0))).map
        (fun s => (s.backend, s.tasks 0)) = some ((cold.backend.cachedChunks coldCall.kbId).1,
          .scored coldCall (cold.backend.cachedChunks coldCall.kbId).2) :=
  cachedChunks_of_alone (s := cold) rfl rfl rfl rfl

end CacheSystem

end Himmy
