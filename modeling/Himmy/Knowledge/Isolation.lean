import Himmy.Knowledge.SqliteBackend
import Himmy.Library.Lists

/-! # Deletions and the other knowledge bases

A deletion in one knowledge base should be invisible in every other. `delete_document` compares the
knowledge base when it deletes the document, not when it deletes the chunks; and `bm25` ranks the rows
of every knowledge base against the whole index, whose rows both deletions remove.

`isolated_iff` says for which states and calls a deletion is invisible. -/

namespace Himmy

open KeyedList (empty get?_erase ext get?_filter mem_of_get? key_of_get? get?_of_mem)

/-! ## What a search sees of a snapshot -/

/-- What a search can tell of a chunk. -/
structure ChunkView where
  chunkId : String
  embedding : List Rat
  filtered : String → String
  result : RetrievedChunk

def CachedChunk.view (chunk : CachedChunk) : ChunkView where
  chunkId := chunk.chunkId
  embedding := chunk.embedding
  filtered := fun k => (metadataGet chunk.metadata k).numbered.canonical
  result := chunk.toResult 0

theorem CachedChunk.find?_toResult (chunk : CachedChunk) (similarity : Rat) :
    (chunk.toResult similarity).metadata.find? "chunk_id" = some (.str chunk.chunkId) := by
  unfold CachedChunk.toResult
  rw [Dict.find?_set_of_ne _ _ (by decide), Dict.find?_set_of_ne _ _ (by decide),
    Dict.find?_set_self]

theorem CachedChunk.chunkId_eq_of_toResult {a b : CachedChunk} {s t : Rat}
    (h : a.toResult s = b.toResult t) : a.chunkId = b.chunkId := by
  have hfind := a.find?_toResult s
  rw [h, b.find?_toResult t] at hfind
  exact (Json.str.inj (Option.some.inj hfind)).symm

def ChunkView.passes (filters : List (String × Json)) (view : ChunkView) : Bool :=
  filters.all (fun kv => view.filtered kv.1 = kv.2.numbered.canonical)

namespace Snapshot

variable (engine : SearchEngine) (snapshot : Snapshot) (queryVec : List Rat) (topK : Int)
  (filters : List (String × Json))

def views : List ChunkView := snapshot.items.map CachedChunk.view

theorem map_scored (keep : Rat → Bool) :
    (snapshot.scored engine queryVec filters keep).map (fun pair => (pair.1, pair.2.view))
      = (snapshot.views.filter (fun view => view.passes filters
            && keep (engine.cosine queryVec view.embedding))).map
          (fun view => (engine.cosine queryVec view.embedding, view)) := by
  rw [scored, views, List.filter_map, List.map_map, List.map_map]
  rfl

theorem search_eq_of_views {s t : Snapshot} (h : s.views = t.views)
    (similarityThreshold : Option Rat) : s.search engine queryVec topK filters similarityThreshold
      = t.search engine queryVec topK filters similarityThreshold := by
  have hviews : ∀ (u : Snapshot) (keep : Rat → Bool),
      (pySlicePrefix ((u.scored engine queryVec filters keep).insertionSort
          (fun a b => b.1 ≤ a.1)) topK).map (fun pair => pair.2.toResult pair.1)
        = (pySlicePrefix (((u.scored engine queryVec filters keep).map
              (fun pair => (pair.1, pair.2.view))).insertionSort (fun a b => b.1 ≤ a.1)) topK).map
            (fun pair => { pair.2.result with similarity := pair.1 }) := by
    intro u keep
    rw [← List.map_insertionSort (fun a b : Rat × CachedChunk => b.1 ≤ a.1) _ _ _
      (fun a _ b _ => Iff.rfl), pySlicePrefix_map, List.map_map]
    rfl
  unfold search
  rw [hviews, hviews, map_scored, map_scored, h]

theorem denseRanked_eq_of_views {s t : Snapshot} (h : s.views = t.views) :
    s.denseRanked engine queryVec topK filters = t.denseRanked engine queryVec topK filters := by
  have hviews : ∀ (u : Snapshot) (keep : Rat → Bool),
      (u.scored engine queryVec filters keep).map (fun pair => (pair.2.chunkId, pair.1))
        = ((u.scored engine queryVec filters keep).map (fun pair => (pair.1, pair.2.view))).map
            (fun pair => (pair.2.chunkId, pair.1)) := by
    intro u keep
    rw [List.map_map]
    rfl
  unfold denseRanked
  rw [hviews, hviews, map_scored, map_scored, h]

theorem mem_search {result : RetrievedChunk} (threshold : Rat)
    (htop : snapshot.items.length ≤ topK.toNat) :
    result ∈ snapshot.search engine queryVec topK filters (some threshold)
      ↔ ∃ chunk ∈ snapshot.items, matchesFilters filters chunk.metadata = true
        ∧ threshold ≤ engine.cosine queryVec chunk.embedding
        ∧ result = chunk.toResult (engine.cosine queryVec chunk.embedding) := by
  have hall : ∀ xs : List (Rat × CachedChunk), xs.length ≤ snapshot.items.length →
      pySlicePrefix xs topK = xs := by
    intro xs hlength
    unfold pySlicePrefix
    split
    · exact List.take_of_length_le (by omega)
    · have hzero : xs = [] := List.length_eq_zero_iff.1 (by omega)
      rw [hzero, List.take_nil]
  have hlength : ∀ keep : Rat → Bool, ((snapshot.scored engine queryVec filters keep).insertionSort
      (fun a b => b.1 ≤ a.1)).length ≤ snapshot.items.length := by
    intro keep
    rw [List.length_insertionSort, scored, List.length_map]
    exact List.length_filter_le _ _
  dsimp only [search]
  rw [hall _ (hlength _), List.mem_map]
  constructor
  · rintro ⟨pair, hpair, rfl⟩
    rw [List.mem_insertionSort, scored, List.mem_map] at hpair
    obtain ⟨chunk, hchunk, rfl⟩ := hpair
    obtain ⟨hmem, hpass⟩ := List.mem_filter.1 hchunk
    simp only [Bool.and_eq_true, decide_eq_true_eq] at hpass
    exact ⟨chunk, hmem, hpass.1, hpass.2, rfl⟩
  · rintro ⟨chunk, hmem, hfilter, hkeep, rfl⟩
    refine ⟨(engine.cosine queryVec chunk.embedding, chunk), ?_, rfl⟩
    rw [List.mem_insertionSort, scored, List.mem_map]
    refine ⟨chunk, List.mem_filter.2 ⟨hmem, ?_⟩, rfl⟩
    simpa only [Bool.and_eq_true, decide_eq_true_eq] using ⟨hfilter, hkeep⟩

/-- The engine that finds the chunks of some embeddings, any row of the full-text index, and scores a
    row with the size of the index. -/
def probe (p : List Rat → Bool) : SearchEngine where
  cosine := fun _ embedding => if p embedding then 1 else 0
  ftsMatch := fun _ => some (fun _ => true)
  bm25 := fun index _ _ => index.length

theorem search_probe_none {n : Nat} (htop : snapshot.items.length ≤ n) :
    snapshot.search (probe (fun _ => false)) queryVec n [] (some 0)
      = snapshot.items.map (fun chunk => chunk.toResult 0) := by
  have hscored : snapshot.scored (probe (fun _ => false)) queryVec []
      (fun sim => decide ((0 : Rat) ≤ sim)) = snapshot.items.map (fun chunk => (0, chunk)) := by
    unfold scored
    rw [List.filter_eq_self.2 (fun chunk _ => by simp [matchesFilters, probe])]
    rfl
  have hsorted : (snapshot.items.map (fun chunk => ((0 : Rat), chunk))).Pairwise
      (fun a b => b.1 ≤ a.1) :=
    List.pairwise_map.2 (List.pairwise_of_forall (fun _ _ => le_refl (0 : Rat)))
  dsimp only [search]
  rw [hscored, hsorted.insertionSort_eq, pySlicePrefix, if_pos (Int.natCast_nonneg _),
    List.take_of_length_le (by simpa using htop), List.map_map]
  rfl

theorem views_eq_of_search {s t : Snapshot}
    (h : ∀ (engine : SearchEngine) (queryVec : List Rat) (topK : Int) (threshold : Rat)
      (filters : List (String × Json)), s.search engine queryVec topK filters (some threshold)
        = t.search engine queryVec topK filters (some threshold)) : s.views = t.views := by
  have hresults : s.items.map (fun chunk => chunk.toResult 0)
      = t.items.map (fun chunk => chunk.toResult 0) := by
    have hsearch := h (probe (fun _ => false)) [] (s.items.length + t.items.length : Nat) 0 []
    rwa [search_probe_none s [] (Nat.le_add_right _ _),
      search_probe_none t [] (Nat.le_add_left _ _)] at hsearch
  have hids : s.items.map CachedChunk.chunkId = t.items.map CachedChunk.chunkId :=
    Lists.map_eq_map_of_imp (fun a b => CachedChunk.chunkId_eq_of_toResult) hresults
  -- the chunk of one snapshot that a probe finds is the chunk of the other
  have hfind : ∀ a ∈ s.items, ∀ b ∈ t.items, a.chunkId = b.chunkId →
      ∀ (p : List Rat → Bool) (filters : List (String × Json)) (threshold : Rat),
        matchesFilters filters a.metadata = true →
        threshold ≤ (probe p).cosine [] a.embedding →
        matchesFilters filters b.metadata = true ∧ threshold ≤ (probe p).cosine [] b.embedding
          ∧ a.toResult ((probe p).cosine [] a.embedding)
            = b.toResult ((probe p).cosine [] b.embedding) := by
    intro a ha b hb hid p filters threshold hfilter hkeep
    have hmem := (mem_search (probe p) s [] (s.items.length + t.items.length : Nat) filters threshold
      (Nat.le_add_right _ _)).2 ⟨a, ha, hfilter, hkeep, rfl⟩
    rw [h, mem_search _ _ _ _ _ _ (Nat.le_add_left _ _)] at hmem
    obtain ⟨b', hb', hfilter', hkeep', hresult⟩ := hmem
    have hb'b : b' = b :=
      t.eq_of_key_eq hb' hb ((CachedChunk.chunkId_eq_of_toResult hresult).symm.trans hid)
    rw [hb'b] at hfilter' hkeep' hresult
    exact ⟨hfilter', hkeep', hresult⟩
  refine Lists.map_eq_map_of_mem (fun a ha b hb hid => ?_) hids
  have hembedding : b.embedding = a.embedding := by
    have hone := (hfind a ha b hb hid (fun e => e = a.embedding) [] 1 rfl (by simp [probe])).2.1
    by_contra hne
    simp only [probe, hne, decide_false, Bool.false_eq_true, if_false] at hone
    exact absurd hone (by decide)
  have hfiltered : ∀ k, a.view.filtered k = b.view.filtered k := by
    intro k
    have hpass := (hfind a ha b hb hid (fun _ => false) [(k, metadataGet a.metadata k)] 0
      (by simp [matchesFilters, Json.pyEq]) (le_refl _)).1
    rw [matchesFilters, List.all_cons, List.all_nil, Bool.and_true] at hpass
    exact (of_decide_eq_true hpass).symm
  have hresult := (hfind a ha b hb hid (fun _ => false) [] 0 rfl (le_refl _)).2.2
  exact (ChunkView.mk.injEq ..).mpr ⟨hid, hembedding.symm, funext hfiltered, hresult⟩

end Snapshot

/-! ## What a deletion should leave -/

/-- `delete_document`, `delete_kb`. -/
inductive Deletion where
  | document (kbId documentId : String)
  | kb (kbId : String)

namespace Deletion

def kbId : Deletion → String
  | document kbId _ => kbId
  | kb kbId => kbId

def run (backend : SqliteKnowledgeBackend) : Deletion → SqliteKnowledgeBackend × Bool
  | document kbId documentId => backend.deleteDocument kbId documentId
  | kb kbId => backend.deleteKb kbId

end Deletion

namespace SqliteKnowledgeBackend

/-- A knowledge base has the same rows, and every search of it the same results. -/
structure SameFor (before after : SqliteKnowledgeBackend) (kbId : String) : Prop where
  record : after.conn.knowledgeBases.get? kbId = before.conn.knowledgeBases.get? kbId
  documents : after.conn.knowledgeDocuments.items.filter (fun document => document.kbId = kbId)
    = before.conn.knowledgeDocuments.items.filter (fun document => document.kbId = kbId)
  chunks : after.conn.knowledgeChunks.items.filter (fun chunk => chunk.kbId = kbId)
    = before.conn.knowledgeChunks.items.filter (fun chunk => chunk.kbId = kbId)
  lexicalRows : after.conn.knowledgeChunksFts.filter (fun row => row.kbId = kbId)
    = before.conn.knowledgeChunksFts.filter (fun row => row.kbId = kbId)
  search : ∀ engine queryVec topK threshold filters,
    (after.search engine kbId queryVec topK threshold filters).2
      = (before.search engine kbId queryVec topK threshold filters).2
  denseRanked : ∀ engine queryVec topK filters,
    (after.denseRanked engine kbId queryVec topK filters).2
      = (before.denseRanked engine kbId queryVec topK filters).2
  searchLexical : ∀ engine query topK filters,
    after.searchLexical engine kbId query topK filters
      = before.searchLexical engine kbId query topK filters
  getChunk : ∀ chunkId, after.getChunk kbId chunkId = before.getChunk kbId chunkId

variable (backend : SqliteKnowledgeBackend)

/-- The deletion is invisible in every other knowledge base, and in all of them when it answers that
    there was no such document. -/
def Isolated (call : Deletion) : Prop :=
  (∀ kbId ≠ call.kbId, backend.SameFor (call.run backend).1 kbId)
    ∧ (∀ kbId documentId, call = .document kbId documentId → (call.run backend).2 = false →
        (call.run backend).1.conn = backend.conn
          ∧ ∀ other, backend.SameFor (call.run backend).1 other)

/-- The snapshot that a search of the knowledge base uses shows what its rows hold. -/
def Fresh (kbId : String) : Prop :=
  (backend.cachedChunks kbId).2.views = (backend.buildChunkSnapshot kbId).views

/-- The rows that a deletion should not meet. For a document: chunks of it in another knowledge base;
    full-text rows of its chunks, unless all full-text rows are of the knowledge base; and, when the
    knowledge base has no such document, chunks of it and a snapshot that is out of date. For a
    knowledge base: chunks of another one in its documents; full-text rows of another one that name
    its chunks; and its own full-text rows, unless there are no others. -/
def Apart : Deletion → Prop
  | .document kbId documentId =>
    (∀ chunk ∈ backend.conn.knowledgeChunks.items, chunk.documentId = documentId →
        chunk.kbId = kbId)
      ∧ (backend.lexicalReady = true → ∀ row ∈ backend.conn.knowledgeChunksFts,
          ∀ chunk ∈ backend.conn.knowledgeChunks.items, chunk.documentId = documentId →
            row.chunkId = chunk.chunkId → ∀ other ∈ backend.conn.knowledgeChunksFts,
              other.kbId = kbId)
      ∧ ((∀ document ∈ backend.conn.knowledgeDocuments.items,
            document.documentId = documentId → document.kbId ≠ kbId) →
          (∀ chunk ∈ backend.conn.knowledgeChunks.items, chunk.documentId ≠ documentId)
            ∧ backend.Fresh kbId)
  | .kb kbId =>
    (∀ document ∈ backend.conn.knowledgeDocuments.items, document.kbId = kbId →
        ∀ chunk ∈ backend.conn.knowledgeChunks.items, chunk.documentId = document.documentId →
          chunk.kbId = kbId)
      ∧ (backend.lexicalReady = true → ∀ row ∈ backend.conn.knowledgeChunksFts,
          ∀ chunk ∈ backend.conn.knowledgeChunks.items, chunk.kbId = kbId →
            row.chunkId = chunk.chunkId → row.kbId = kbId)
      ∧ (backend.lexicalReady = true → ∀ row ∈ backend.conn.knowledgeChunksFts, row.kbId = kbId →
          ∀ other ∈ backend.conn.knowledgeChunksFts, other.kbId = kbId)

/-! ## The cached snapshot -/

/-- The snapshot that `_cached_chunks` finds in the cache. -/
def cachedSnapshot? (kbId : String) : Option Snapshot :=
  if backend.vecCacheMaxKbs ≤ 0 then none
  else if backend.vecState.dataVersion.any (fun observed => backend.pragmaDataVersion ≠ observed)
    then none
  else (backend.vecState.cache.get? kbId).map Prod.snd

theorem cachedChunks_snd (kbId : String) : (backend.cachedChunks kbId).2
      = (backend.cachedSnapshot? kbId).getD (backend.buildChunkSnapshot kbId) := by
  unfold cachedChunks cachedSnapshot?
  split
  · rfl
  · cases hobserved : backend.vecState.dataVersion with
    | none =>
      have hdrop : backend.dropCacheOnExternalWrite = { backend with vecState :=
          { backend.vecState with dataVersion := some backend.pragmaDataVersion } } := by
        simp only [dropCacheOnExternalWrite, hobserved]
      rw [hdrop]
      cases hget : backend.vecState.cache.get? kbId <;> simp [hget, buildChunkSnapshot]
    | some observed =>
      by_cases hne : backend.pragmaDataVersion = observed
      · have hdrop : backend.dropCacheOnExternalWrite = backend := by
          simp only [dropCacheOnExternalWrite, hobserved, ne_eq, hne, not_true_eq_false, if_false]
        rw [hdrop]
        cases hget : backend.vecState.cache.get? kbId <;> simp [hget, hne]
      · have hdrop : backend.dropCacheOnExternalWrite = { backend with vecState :=
            { backend.vecState with
              cache := empty, dataVersion := some backend.pragmaDataVersion } } := by
          simp only [dropCacheOnExternalWrite, hobserved, ne_eq, hne, not_false_eq_true, if_true]
        rw [hdrop]
        simp [hne, buildChunkSnapshot]

theorem cachedSnapshot?_invalidate (kbId other : String) :
    (backend.invalidateVectorCache kbId).cachedSnapshot? other
      = if other = kbId then none else backend.cachedSnapshot? other := by
  by_cases h : other = kbId
  · rw [if_pos h]
    simp [cachedSnapshot?, invalidateVectorCache, get?_erase, h]
  · rw [if_neg h]
    simp only [cachedSnapshot?, invalidateVectorCache, get?_erase, if_neg h]
    rfl

/-! ## What searches read -/

variable {before after : SqliteKnowledgeBackend} {kbId : String}

theorem buildChunkSnapshot_congr
    (hchunks : after.conn.knowledgeChunks.items.filter (fun chunk => chunk.kbId = kbId)
      = before.conn.knowledgeChunks.items.filter (fun chunk => chunk.kbId = kbId))
    (hjoined : ∀ chunk ∈ before.conn.knowledgeChunks.items, chunk.kbId = kbId →
      after.conn.joined chunk = before.conn.joined chunk) :
    after.buildChunkSnapshot kbId = before.buildChunkSnapshot kbId := by
  refine ext ?_
  simp only [buildChunkSnapshot, hchunks]
  refine List.filterMap_congr (fun chunk hchunk => ?_)
  obtain ⟨hmem, hkb⟩ := List.mem_filter.1 hchunk
  exact hjoined chunk hmem (of_decide_eq_true hkb)

theorem get?_chunks_congr
    (hchunks : after.conn.knowledgeChunks.items.filter (fun chunk => chunk.kbId = kbId)
      = before.conn.knowledgeChunks.items.filter (fun chunk => chunk.kbId = kbId))
    (chunkId : String) :
    (after.conn.knowledgeChunks.get? chunkId).filter (fun chunk => chunk.kbId = kbId)
      = (before.conn.knowledgeChunks.get? chunkId).filter (fun chunk => chunk.kbId = kbId) := by
  rw [← get?_filter, ← get?_filter]
  congr 1
  exact ext hchunks

theorem getChunk_of_get? {backend : SqliteKnowledgeBackend} {chunkId : String}
    {chunk : KnowledgeChunk}
    (h : (backend.conn.knowledgeChunks.get? chunkId).filter (fun chunk => chunk.kbId = kbId)
      = some chunk) : backend.getChunk kbId chunkId
      = (backend.conn.joined chunk).map (fun cached => cached.toResult 0) := by
  unfold getChunk
  rw [h, Option.bind_some]

theorem getChunk_congr
    (hchunks : after.conn.knowledgeChunks.items.filter (fun chunk => chunk.kbId = kbId)
      = before.conn.knowledgeChunks.items.filter (fun chunk => chunk.kbId = kbId))
    (hjoined : ∀ chunk ∈ before.conn.knowledgeChunks.items, chunk.kbId = kbId →
      after.conn.joined chunk = before.conn.joined chunk) (chunkId : String) :
    after.getChunk kbId chunkId = before.getChunk kbId chunkId := by
  unfold getChunk
  rw [get?_chunks_congr hchunks]
  cases hget : (before.conn.knowledgeChunks.get? chunkId).filter
      (fun chunk => chunk.kbId = kbId) with
  | none => rfl
  | some chunk =>
    obtain ⟨hsome, hkb⟩ := Option.filter_eq_some_iff.1 hget
    rw [Option.bind_some, Option.bind_some,
      hjoined chunk (mem_of_get? hsome) (of_decide_eq_true hkb)]

theorem search_congr
    (hviews : (after.cachedChunks kbId).2.views = (before.cachedChunks kbId).2.views) :
    (∀ engine queryVec topK threshold filters,
        (after.search engine kbId queryVec topK threshold filters).2
          = (before.search engine kbId queryVec topK threshold filters).2)
      ∧ ∀ engine queryVec topK filters, (after.denseRanked engine kbId queryVec topK filters).2
          = (before.denseRanked engine kbId queryVec topK filters).2 :=
  ⟨fun engine queryVec topK threshold filters =>
      Snapshot.search_eq_of_views engine queryVec topK filters hviews threshold,
    fun engine queryVec topK filters =>
      Snapshot.denseRanked_eq_of_views engine queryVec topK filters hviews⟩

theorem lexicalHits_eq_nil (engine : SearchEngine) {backend : SqliteKnowledgeBackend}
    (h : ∀ row ∈ backend.conn.knowledgeChunksFts, row.kbId ≠ kbId)
    (query : String) (pool : Int) : backend.lexicalHits engine kbId query pool = [] := by
  unfold lexicalHits
  split
  · rfl
  · next matched _ =>
      have hnone : backend.conn.knowledgeChunksFts.filter
          (fun row => row.kbId = kbId && matched row) = [] :=
        List.filter_eq_nil_iff.2 (fun row hrow => by simp [h row hrow])
      rw [hnone]
      unfold sqlLimit
      split <;> simp

theorem exists_row_of_hit {engine : SearchEngine} {backend : SqliteKnowledgeBackend}
    {query : String} {pool : Int} {hit : String × Rat}
    (h : hit ∈ backend.lexicalHits engine kbId query pool) :
    ∃ row ∈ backend.conn.knowledgeChunksFts, row.kbId = kbId ∧ row.chunkId = hit.1 := by
  unfold lexicalHits at h
  split at h
  · cases h
  · obtain ⟨scored, hscored, rfl⟩ := List.mem_map.1 h
    have hmem : scored ∈ (backend.conn.knowledgeChunksFts.filter _).map _ :=
      (List.mem_insertionSort _).1 (by
        unfold sqlLimit at hscored
        split at hscored
        · exact hscored
        · exact List.mem_of_mem_take hscored)
    obtain ⟨row, hrow, rfl⟩ := List.mem_map.1 hmem
    obtain ⟨hrow, hmatched⟩ := List.mem_filter.1 hrow
    simp only [Bool.and_eq_true, decide_eq_true_eq] at hmatched
    exact ⟨row, hrow, hmatched.1, rfl⟩

theorem searchLexical_congr (hready : after.lexicalReady = before.lexicalReady)
    (h : before.lexicalReady = true → (∀ row ∈ after.conn.knowledgeChunksFts, row.kbId ≠ kbId)
          ∧ (∀ row ∈ before.conn.knowledgeChunksFts, row.kbId ≠ kbId)
        ∨ after.conn.knowledgeChunksFts = before.conn.knowledgeChunksFts
          ∧ ∀ row ∈ before.conn.knowledgeChunksFts, row.kbId = kbId →
            after.conn.knowledgeChunks.get? row.chunkId
              = before.conn.knowledgeChunks.get? row.chunkId)
    (engine : SearchEngine) (query : String) (topK : Int) (filters : List (String × Json)) :
    after.searchLexical engine kbId query topK filters
      = before.searchLexical engine kbId query topK filters := by
  unfold searchLexical
  rw [hready]
  cases hlexical : before.lexicalReady with
  | false => rfl
  | true =>
    rcases h hlexical with ⟨hafter, hbefore⟩ | ⟨hindex, hchunks⟩
    · simp only [lexicalHits_eq_nil engine hafter, lexicalHits_eq_nil engine hbefore,
        List.filter_nil]
    · have hhits : ∀ pool, after.lexicalHits engine kbId query pool
          = before.lexicalHits engine kbId query pool := by
        intro pool
        unfold lexicalHits
        rw [hindex]
      simp only [hhits]
      have hfilter : (before.lexicalHits engine kbId query (topK * 2)).filter
            (after.hitPasses filters)
          = (before.lexicalHits engine kbId query (topK * 2)).filter
            (before.hitPasses filters) := by
        refine List.filter_congr (fun hit hhit => ?_)
        obtain ⟨row, hrow, hkb, hid⟩ := exists_row_of_hit hhit
        unfold hitPasses
        rw [← hid, hchunks row hrow hkb]
      rw [hfilter]

def HasRow (backend : SqliteKnowledgeBackend) (kbId : String) (hit : String × Rat) : Prop :=
  (∃ row ∈ backend.conn.knowledgeChunksFts, row.kbId = kbId ∧ row.chunkId = hit.1)
    ∧ hit.2 = -(backend.conn.knowledgeChunksFts.length : Rat)

theorem mem_lexicalHits_probe (p : List Rat → Bool) {backend : SqliteKnowledgeBackend} {pool : Int}
    (hpool : backend.conn.knowledgeChunksFts.length ≤ pool) {hit : String × Rat} :
    hit ∈ backend.lexicalHits (Snapshot.probe p) kbId "a" pool ↔ backend.HasRow kbId hit := by
  have hlimit : ∀ xs : List (String × Rat), xs.length ≤ backend.conn.knowledgeChunksFts.length →
      sqlLimit pool xs = xs := by
    intro xs hlength
    unfold sqlLimit
    split
    · rfl
    · exact List.take_of_length_le (by omega)
  simp only [lexicalHits, Snapshot.probe, Bool.and_true]
  rw [hlimit _ (by
    rw [List.length_insertionSort, List.length_map]
    exact List.length_filter_le _ _), List.mem_map]
  constructor
  · rintro ⟨scored, hscored, rfl⟩
    rw [List.mem_insertionSort, List.mem_map] at hscored
    obtain ⟨row, hrow, rfl⟩ := hscored
    obtain ⟨hrow, hkb⟩ := List.mem_filter.1 hrow
    exact ⟨⟨row, hrow, of_decide_eq_true hkb, rfl⟩, rfl⟩
  · rintro ⟨⟨row, hrow, hkb, hid⟩, hscore⟩
    refine ⟨(row.chunkId, (backend.conn.knowledgeChunksFts.length : Rat)), ?_, ?_⟩
    · rw [List.mem_insertionSort, List.mem_map]
      exact ⟨row, List.mem_filter.2 ⟨hrow, decide_eq_true hkb⟩, rfl⟩
    · exact Prod.ext hid hscore.symm

theorem mem_searchLexical_probe (p : List Rat → Bool) (backend : SqliteKnowledgeBackend)
    (kbId : String) (filters : List (String × Json)) {topK : Nat}
    (htop : backend.conn.knowledgeChunksFts.length ≤ topK) (hit : String × Rat) :
    hit ∈ backend.searchLexical (Snapshot.probe p) kbId "a" topK filters
      ↔ backend.lexicalReady = true ∧ backend.HasRow kbId hit
        ∧ (filters = [] ∨ backend.hitPasses filters hit = true) := by
  have hlength : ∀ pool, (backend.lexicalHits (Snapshot.probe p) kbId "a" pool).length ≤ topK := by
    intro pool
    simp only [lexicalHits, Snapshot.probe, List.length_map]
    refine le_trans ?_ htop
    unfold sqlLimit
    split
    · rw [List.length_insertionSort, List.length_map]
      exact List.length_filter_le _ _
    · refine le_trans (List.length_take_le' _ _) ?_
      rw [List.length_insertionSort, List.length_map]
      exact List.length_filter_le _ _
  have hall : ∀ xs : List (String × Rat), xs.length ≤ topK → pySlicePrefix xs topK = xs := by
    intro xs hxs
    rw [pySlicePrefix, if_pos (Int.natCast_nonneg _), Int.toNat_natCast, List.take_of_length_le hxs]
  have hquery : pyStrip isPySpace "a".toList ≠ [] := by decide
  unfold searchLexical
  cases hready : backend.lexicalReady with
  | false => simp
  | true =>
    simp only [Bool.not_true, Bool.false_eq_true, if_false, if_neg hquery, true_and]
    split
    · next hnil =>
        rw [hall _ (hlength _), mem_lexicalHits_probe p (by omega)]
        simp [hnil]
    · next hne =>
        rw [hall _ (le_trans (List.length_filter_le _ _) (hlength _)), List.mem_filter,
          mem_lexicalHits_probe p (by omega)]
        simp [hne]

/-! ## The frame of a deletion -/

theorem joined_of_filter {p : KnowledgeDocument → Bool} {chunk : KnowledgeChunk}
    (hdocuments : after.conn.knowledgeDocuments = before.conn.knowledgeDocuments.filter p)
    (h : ∀ document ∈ before.conn.knowledgeDocuments.items,
      document.documentId = chunk.documentId → p document = true) :
    after.conn.joined chunk = before.conn.joined chunk := by
  unfold KnowledgeTables.joined
  rw [hdocuments, get?_filter]
  cases hget : before.conn.knowledgeDocuments.get? chunk.documentId with
  | none => rfl
  | some document =>
    rw [Option.filter_some_pos (h document (mem_of_get? hget)
      (key_of_get? hget))]

theorem filter_filter_of_imp {α : Type} {p q : α → Bool} {rows : List α}
    (h : ∀ row ∈ rows, q row = true → p row = true) : (rows.filter p).filter q = rows.filter q := by
  rw [List.filter_filter]
  refine List.filter_congr (fun row hrow => ?_)
  cases hq : q row with
  | false => rfl
  | true => rw [h row hrow hq, Bool.and_self]

theorem sameFor_of_filter (before : SqliteKnowledgeBackend) {keepDocument : KnowledgeDocument → Bool}
    {keepChunk : KnowledgeChunk → Bool} {keepRow : LexicalRow → Bool}
    (hrecord : after.conn.knowledgeBases.get? kbId = before.conn.knowledgeBases.get? kbId)
    (hdocuments : after.conn.knowledgeDocuments
      = before.conn.knowledgeDocuments.filter keepDocument)
    (hchunks : after.conn.knowledgeChunks = before.conn.knowledgeChunks.filter keepChunk)
    (hrows : after.conn.knowledgeChunksFts
      = if before.lexicalReady then before.conn.knowledgeChunksFts.filter keepRow
        else before.conn.knowledgeChunksFts) (hready : after.lexicalReady = before.lexicalReady)
    (hcached : after.cachedSnapshot? kbId = before.cachedSnapshot? kbId)
    (hkeepDocument : ∀ document ∈ before.conn.knowledgeDocuments.items, document.kbId = kbId →
      keepDocument document = true)
    (hkeepChunk : ∀ chunk ∈ before.conn.knowledgeChunks.items, chunk.kbId = kbId →
      keepChunk chunk = true)
    (hkeepJoined : ∀ chunk ∈ before.conn.knowledgeChunks.items, chunk.kbId = kbId →
      ∀ document ∈ before.conn.knowledgeDocuments.items,
        document.documentId = chunk.documentId → keepDocument document = true)
    (hkeepRow : before.lexicalReady = true →
      (∀ row ∈ before.conn.knowledgeChunksFts, row.kbId ≠ kbId)
        ∨ (∀ row ∈ before.conn.knowledgeChunksFts, keepRow row = true)
          ∧ ∀ row ∈ before.conn.knowledgeChunksFts, row.kbId = kbId →
            ∀ chunk ∈ before.conn.knowledgeChunks.items, chunk.chunkId = row.chunkId →
              keepChunk chunk = true) : before.SameFor after kbId := by
  have hchunkRows : after.conn.knowledgeChunks.items.filter (fun chunk => chunk.kbId = kbId)
      = before.conn.knowledgeChunks.items.filter (fun chunk => chunk.kbId = kbId) := by
    rw [hchunks]
    exact filter_filter_of_imp (fun chunk hchunk hkb =>
      hkeepChunk chunk hchunk (of_decide_eq_true hkb))
  have hjoined : ∀ chunk ∈ before.conn.knowledgeChunks.items, chunk.kbId = kbId →
      after.conn.joined chunk = before.conn.joined chunk :=
    fun chunk hchunk hkb => joined_of_filter hdocuments (hkeepJoined chunk hchunk hkb)
  have hviews : (after.cachedChunks kbId).2.views = (before.cachedChunks kbId).2.views := by
    rw [cachedChunks_snd, cachedChunks_snd, hcached, buildChunkSnapshot_congr hchunkRows hjoined]
  have hindex : before.lexicalReady = true →
      (∀ row ∈ after.conn.knowledgeChunksFts, row.kbId ≠ kbId)
          ∧ (∀ row ∈ before.conn.knowledgeChunksFts, row.kbId ≠ kbId)
        ∨ after.conn.knowledgeChunksFts = before.conn.knowledgeChunksFts
          ∧ ∀ row ∈ before.conn.knowledgeChunksFts, row.kbId = kbId →
            after.conn.knowledgeChunks.get? row.chunkId
              = before.conn.knowledgeChunks.get? row.chunkId := by
    intro hlexical
    rw [hrows, hlexical, if_pos rfl]
    rcases hkeepRow hlexical with hnone | ⟨hkeep, hnamed⟩
    · exact Or.inl ⟨fun row hrow => hnone row (List.mem_of_mem_filter hrow), hnone⟩
    · refine Or.inr ⟨List.filter_eq_self.2 hkeep, fun row hrow hkb => ?_⟩
      rw [hchunks, get?_filter]
      cases hget : before.conn.knowledgeChunks.get? row.chunkId with
      | none => rfl
      | some chunk =>
        exact Option.filter_some_pos (hnamed row hrow hkb chunk (mem_of_get? hget)
          (key_of_get? hget))
  refine ⟨hrecord, ?_, hchunkRows, ?_, (search_congr hviews).1, (search_congr hviews).2,
    searchLexical_congr hready hindex, getChunk_congr hchunkRows hjoined⟩
  · rw [hdocuments]
    exact filter_filter_of_imp (fun document hdocument hkb =>
      hkeepDocument document hdocument (of_decide_eq_true hkb))
  · rw [hrows]
    cases hlexical : before.lexicalReady with
    | false => rfl
    | true =>
      rcases hkeepRow hlexical with hnone | ⟨hkeep, _⟩
      · exact filter_filter_of_imp (fun row hrow hkb =>
          absurd (of_decide_eq_true hkb) (hnone row hrow))
      · exact filter_filter_of_imp (fun row hrow _ => hkeep row hrow)

theorem buildChunkSnapshot_of_conn (h : after.conn = before.conn) (kbId : String) :
    after.buildChunkSnapshot kbId = before.buildChunkSnapshot kbId := by
  unfold buildChunkSnapshot
  simp only [h]

theorem sameFor_of_conn (hconn : after.conn = before.conn)
    (hready : after.lexicalReady = before.lexicalReady)
    (hviews : (after.cachedChunks kbId).2.views = (before.cachedChunks kbId).2.views) :
    before.SameFor after kbId where
  record := by rw [hconn]
  documents := by rw [hconn]
  chunks := by rw [hconn]
  lexicalRows := by rw [hconn]
  search := (search_congr hviews).1
  denseRanked := (search_congr hviews).2
  searchLexical := searchLexical_congr hready (fun _ => Or.inr ⟨by rw [hconn], by simp [hconn]⟩)
  getChunk := by simp only [getChunk, hconn, implies_true]

/-! ## A document -/

section Document

variable (backend : SqliteKnowledgeBackend) (kbId documentId : String)

theorem deleteDocument_snd : (backend.deleteDocument kbId documentId).2 = true
      ↔ ∃ document ∈ backend.conn.knowledgeDocuments.items,
        document.documentId = documentId ∧ document.kbId = kbId := by
  show decide (backend.conn.knowledgeDocuments.items.countP
    (fun document => decide (document.documentId = documentId) && decide (document.kbId = kbId)) = 1)
      = true ↔ _
  rw [decide_eq_true_eq, KeyedList.countP_key_eq_one_iff]
  simp only [KeyedList.get?_eq_some_iff, decide_eq_true_eq, and_assoc]

theorem cachedSnapshot?_deleteDocument (other : String) :
    (backend.deleteDocument kbId documentId).1.cachedSnapshot? other
      = if other = kbId then none else backend.cachedSnapshot? other :=
  cachedSnapshot?_invalidate _ kbId other

theorem cachedChunks_deleteDocument :
    ((backend.deleteDocument kbId documentId).1.cachedChunks kbId).2
      = (backend.deleteDocument kbId documentId).1.buildChunkSnapshot kbId := by
  rw [cachedChunks_snd, cachedSnapshot?_deleteDocument, if_pos rfl, Option.getD_none]

theorem sameFor_deleteDocument {backend : SqliteKnowledgeBackend} {kbId documentId other : String}
    (hne : other ≠ kbId) (h : backend.Apart (.document kbId documentId)) :
    backend.SameFor (backend.deleteDocument kbId documentId).1 other := by
  obtain ⟨hchunks, hlexical, _⟩ := h
  have hkept : ∀ chunk ∈ backend.conn.knowledgeChunks.items, chunk.kbId = other →
      chunk.documentId ≠ documentId :=
    fun chunk hchunk hkb hdoc => hne (hkb.symm.trans (hchunks chunk hchunk hdoc))
  refine sameFor_of_filter backend rfl rfl rfl rfl rfl ?_ ?_ ?_ ?_ ?_
  · rw [cachedSnapshot?_deleteDocument, if_neg hne]
  · intro document _ hkb
    simp [hkb, hne]
  · exact fun chunk hchunk hkb => decide_eq_true (hkept chunk hchunk hkb)
  · intro chunk hchunk hkb document _ hid
    simp [hid, hkept chunk hchunk hkb]
  · intro hready
    by_cases hnamed : ∃ row ∈ backend.conn.knowledgeChunksFts,
        ∃ chunk ∈ backend.conn.knowledgeChunks.items,
          chunk.documentId = documentId ∧ row.chunkId = chunk.chunkId
    · obtain ⟨row, hrow, chunk, hchunk, hdoc, hid⟩ := hnamed
      exact Or.inl (fun row' hrow' hkb => hne (hkb.symm.trans
        (hlexical hready row hrow chunk hchunk hdoc hid row' hrow')))
    · refine Or.inr ⟨fun row hrow => ?_, fun row hrow _ chunk hchunk hid => ?_⟩
      · rw [decide_eq_true_eq, List.mem_map]
        rintro ⟨chunk, hchunk, hid⟩
        obtain ⟨hchunk, hdoc⟩ := List.mem_filter.1 hchunk
        exact hnamed ⟨row, hrow, chunk, hchunk, of_decide_eq_true hdoc, hid.symm⟩
      · exact decide_eq_true (fun hdoc => hnamed ⟨row, hrow, chunk, hchunk, hdoc, hid.symm⟩)

theorem conn_deleteDocument {backend : SqliteKnowledgeBackend} {kbId documentId : String}
    (hdocument : ∀ document ∈ backend.conn.knowledgeDocuments.items,
      document.documentId = documentId → document.kbId ≠ kbId)
    (hchunks : ∀ chunk ∈ backend.conn.knowledgeChunks.items, chunk.documentId ≠ documentId) :
    (backend.deleteDocument kbId documentId).1.conn = backend.conn := by
  have hdoomed : backend.conn.knowledgeChunks.items.filter
      (fun chunk => chunk.documentId = documentId) = [] :=
    List.filter_eq_nil_iff.2 (fun chunk hchunk => by simpa using hchunks chunk hchunk)
  have hkeepChunks : backend.conn.knowledgeChunks.filter
      (fun chunk => chunk.documentId ≠ documentId) = backend.conn.knowledgeChunks :=
    ext (List.filter_eq_self.2 (fun chunk hchunk => by simpa using hchunks chunk hchunk))
  have hkeepDocuments : backend.conn.knowledgeDocuments.filter
      (fun document => !(document.documentId = documentId && document.kbId = kbId))
        = backend.conn.knowledgeDocuments :=
    ext (List.filter_eq_self.2 (fun document hmem => by
      by_cases hid : document.documentId = documentId
      · simp [hid, hdocument document hmem hid]
      · simp [hid]))
  show (backend.deleteDocumentRows kbId documentId).1 = backend.conn
  simp only [deleteDocumentRows, hdoomed, hkeepChunks, hkeepDocuments, List.map_nil,
    List.not_mem_nil, not_false_eq_true, decide_true, List.filter_true, ite_self]

theorem isolated_document_of_apart {backend : SqliteKnowledgeBackend} {kbId documentId : String}
    (h : backend.Apart (.document kbId documentId)) :
    backend.Isolated (.document kbId documentId) := by
  refine ⟨fun other hne => sameFor_deleteDocument hne h, ?_⟩
  intro _ _ _ hfalse
  have hdocument : ∀ document ∈ backend.conn.knowledgeDocuments.items,
      document.documentId = documentId → document.kbId ≠ kbId := by
    intro document hmem hid hkb
    have htrue := (backend.deleteDocument_snd kbId documentId).2 ⟨document, hmem, hid, hkb⟩
    exact absurd (hfalse.symm.trans htrue) (by decide)
  obtain ⟨hchunks, hfresh⟩ := h.2.2 hdocument
  have hconn := conn_deleteDocument hdocument hchunks
  refine ⟨hconn, fun other => ?_⟩
  by_cases hne : other = kbId
  · rw [hne]
    refine sameFor_of_conn hconn rfl ?_
    show ((backend.deleteDocument kbId documentId).1.cachedChunks kbId).2.views = _
    rw [cachedChunks_deleteDocument, buildChunkSnapshot_of_conn hconn, hfresh]
  · exact sameFor_deleteDocument hne h

/-- A full-text row that goes changes the scores of every row that stays: `bm25` may depend on the
    size of the index. -/
theorem kbId_eq_of_fts_lt {other : String} (hready : before.lexicalReady = true)
    (hlt : after.conn.knowledgeChunksFts.length < before.conn.knowledgeChunksFts.length)
    (h : before.SameFor after other) :
    ∀ row ∈ before.conn.knowledgeChunksFts, row.kbId ≠ other := by
  intro row hrow hkb
  have hbefore := (mem_searchLexical_probe (fun _ => false) before other [] (le_refl _)
    (row.chunkId, -(before.conn.knowledgeChunksFts.length : Rat))).2
      ⟨hready, ⟨⟨row, hrow, hkb, rfl⟩, rfl⟩, Or.inl rfl⟩
  rw [← h.searchLexical, mem_searchLexical_probe (fun _ => false) _ _ [] hlt.le] at hbefore
  obtain ⟨_, ⟨_, hscore⟩, _⟩ := hbefore
  have hsize := Nat.cast_injective (R := Rat) (neg_injective hscore)
  omega

theorem apart_document_of_isolated {backend : SqliteKnowledgeBackend} {kbId documentId : String}
    (h : backend.Isolated (.document kbId documentId)) :
    backend.Apart (.document kbId documentId) := by
  obtain ⟨hothers, hfalse⟩ := h
  refine ⟨fun chunk hchunk hdoc => ?_, fun hready row hrow chunk hchunk hdoc hid other hother => ?_,
    fun hdocument => ?_⟩
  · by_contra hne
    have hmem : chunk ∈ ((Deletion.document kbId documentId).run
        backend).1.conn.knowledgeChunks.items.filter (fun c => c.kbId = chunk.kbId) := by
      rw [(hothers chunk.kbId hne).chunks]
      exact List.mem_filter.2 ⟨hchunk, decide_eq_true rfl⟩
    have hkept := (List.mem_filter.1 (List.mem_of_mem_filter hmem)).2
    exact of_decide_eq_true hkept hdoc
  · by_contra hne
    refine kbId_eq_of_fts_lt hready ?_ (hothers other.kbId hne) other hother rfl
    show (if backend.lexicalReady then _ else _ : List LexicalRow).length < _
    rw [if_pos hready]
    refine List.length_filter_lt_length_iff_exists.2 ⟨row, hrow, ?_⟩
    simp only [decide_eq_true_eq, not_not]
    exact List.mem_map.2 ⟨chunk, List.mem_filter.2 ⟨hchunk, decide_eq_true hdoc⟩, hid.symm⟩
  · have hanswer : (backend.deleteDocument kbId documentId).2 = false := by
      refine Bool.eq_false_iff.2 (fun htrue => ?_)
      obtain ⟨document, hmem, hid, hkb⟩ := (backend.deleteDocument_snd kbId documentId).1 htrue
      exact hdocument document hmem hid hkb
    obtain ⟨hconn, hsame⟩ := hfalse kbId documentId rfl hanswer
    refine ⟨fun chunk hchunk hdoc => ?_, ?_⟩
    · have hmem : chunk ∈ (backend.deleteDocument kbId documentId).1.conn.knowledgeChunks.items := by
        show chunk ∈ ((Deletion.document kbId documentId).run backend).1.conn.knowledgeChunks.items
        rw [hconn]
        exact hchunk
      exact of_decide_eq_true (List.mem_filter.1 hmem).2 hdoc
    · have hviews := Snapshot.views_eq_of_search (fun engine queryVec topK threshold filters =>
        (hsame kbId).search engine queryVec topK (some threshold) filters)
      unfold Fresh
      rw [← hviews]
      show ((backend.deleteDocument kbId documentId).1.cachedChunks kbId).2.views = _
      rw [cachedChunks_deleteDocument]
      exact congrArg Snapshot.views (buildChunkSnapshot_of_conn hconn kbId)

end Document

/-! ## A knowledge base -/

section KnowledgeBase

theorem cachedSnapshot?_deleteKb (backend : SqliteKnowledgeBackend) (kbId other : String) :
    (backend.deleteKb kbId).1.cachedSnapshot? other
      = if other = kbId then none else backend.cachedSnapshot? other :=
  cachedSnapshot?_invalidate _ kbId other

theorem isolated_kb_of_apart {backend : SqliteKnowledgeBackend} {kbId : String}
    (h : backend.Apart (.kb kbId)) : backend.Isolated (.kb kbId) := by
  obtain ⟨hjoined, hnamed, hindex⟩ := h
  refine ⟨fun other (hne : other ≠ kbId) => ?_, nofun⟩
  refine sameFor_of_filter backend ?_ rfl rfl rfl rfl ?_ ?_ ?_ ?_ ?_
  · show (backend.conn.knowledgeBases.erase kbId).get? other = _
    rw [get?_erase, if_neg hne]
  · show (backend.deleteKb kbId).1.cachedSnapshot? other = _
    rw [cachedSnapshot?_deleteKb, if_neg hne]
  · exact fun document _ hkb => decide_eq_true (fun heq => hne (hkb.symm.trans heq))
  · exact fun chunk _ hkb => decide_eq_true (fun heq => hne (hkb.symm.trans heq))
  · exact fun chunk hchunk hkb document hmem hid => decide_eq_true (fun heq =>
      hne (hkb.symm.trans (hjoined document hmem heq chunk hchunk hid.symm)))
  · intro hready
    by_cases hown : ∃ row ∈ backend.conn.knowledgeChunksFts, row.kbId = kbId
    · obtain ⟨row, hrow, hkb⟩ := hown
      exact Or.inl (fun row' hrow' hother =>
        hne (hother.symm.trans (hindex hready row hrow hkb row' hrow')))
    · refine Or.inr ⟨fun row hrow => decide_eq_true (fun hkb => hown ⟨row, hrow, hkb⟩),
        fun row hrow hother chunk hchunk hid => decide_eq_true (fun hkb => ?_)⟩
      exact hne (hother.symm.trans (hnamed hready row hrow chunk hchunk hkb hid.symm))

theorem apart_kb_of_isolated {backend : SqliteKnowledgeBackend} {kbId : String}
    (h : backend.Isolated (.kb kbId)) : backend.Apart (.kb kbId) := by
  have hothers := h.1
  refine ⟨fun document hmem hkb chunk hchunk hid => ?_,
    fun hready row hrow chunk hchunk hkb hid => ?_, fun hready row hrow hkb other hother => ?_⟩
  · -- the chunk can be read before the deletion, and not after it
    by_contra hne
    have hget := (hothers chunk.kbId hne).getChunk chunk.chunkId
    have hown : (backend.conn.knowledgeChunks.get? chunk.chunkId).filter
        (fun c => c.kbId = chunk.kbId) = some chunk := by
      rw [get?_of_mem _ hchunk]
      exact Option.filter_some_pos (decide_eq_true rfl)
    have hbefore : backend.conn.joined chunk = some (CachedChunk.ofRows chunk document) := by
      rw [KnowledgeTables.joined, hid, get?_of_mem _ hmem, Option.map_some]
    have hafter : ((Deletion.kb kbId).run backend).1.conn.joined chunk = none := by
      show ((backend.conn.knowledgeDocuments.filter (fun d => d.kbId ≠ kbId)).get?
        chunk.documentId).map _ = none
      rw [hid, get?_filter, get?_of_mem _ hmem,
        Option.filter_some_neg (by simpa using hkb), Option.map_none]
    rw [getChunk_of_get? hown,
      getChunk_of_get? ((get?_chunks_congr (hothers chunk.kbId hne).chunks _).trans hown),
      hbefore, hafter] at hget
    cases hget
  · -- a filter that the chunk passes finds its row before the deletion, and not after it
    by_contra hne
    have hpass : matchesFilters [("", metadataGet chunk.metadata "")] chunk.metadata = true := by
      simp [matchesFilters, Json.pyEq]
    have hbefore := (mem_searchLexical_probe (fun _ => false) backend row.kbId
      [("", metadataGet chunk.metadata "")] (le_refl _)
      (row.chunkId, -(backend.conn.knowledgeChunksFts.length : Rat))).2
        ⟨hready, ⟨⟨row, hrow, rfl, rfl⟩, rfl⟩, Or.inr (by
          unfold hitPasses
          rw [hid, get?_of_mem _ hchunk]
          exact hpass)⟩
    have hle : ((Deletion.kb kbId).run backend).1.conn.knowledgeChunksFts.length
        ≤ backend.conn.knowledgeChunksFts.length := by
      show (if backend.lexicalReady then _ else _ : List LexicalRow).length ≤ _
      rw [if_pos hready]
      exact List.length_filter_le _ _
    rw [← (hothers row.kbId hne).searchLexical, mem_searchLexical_probe (fun _ => false) _ _ _ hle]
      at hbefore
    obtain ⟨_, _, hnil | hpasses⟩ := hbefore
    · cases hnil
    · have hgone : ((Deletion.kb kbId).run backend).1.conn.knowledgeChunks.get? row.chunkId = none := by
        show (backend.conn.knowledgeChunks.filter (fun c => c.kbId ≠ kbId)).get? row.chunkId = none
        rw [hid, get?_filter, get?_of_mem _ hchunk,
          Option.filter_some_neg (by simpa using hkb)]
      unfold hitPasses at hpasses
      rw [hgone] at hpasses
      cases hpasses
  · by_contra hne
    refine kbId_eq_of_fts_lt hready ?_ (hothers other.kbId hne) other hother rfl
    show (if backend.lexicalReady then _ else _ : List LexicalRow).length < _
    rw [if_pos hready]
    exact List.length_filter_lt_length_iff_exists.2 ⟨row, hrow, by simpa using hkb⟩

end KnowledgeBase

/-- A deletion is invisible in the other knowledge bases, and one that finds no document changes
    nothing, exactly when it does not meet rows that it should not. -/
theorem isolated_iff (backend : SqliteKnowledgeBackend) (call : Deletion) :
    backend.Isolated call ↔ backend.Apart call := by
  cases call with
  | document kbId documentId => exact ⟨apart_document_of_isolated, isolated_document_of_apart⟩
  | kb kbId => exact ⟨apart_kb_of_isolated, isolated_kb_of_apart⟩

def tenants : SqliteKnowledgeBackend where
  conn := {
    knowledgeBases := ⟨[{ kbId := "a", workspaceId := "w1", clientId := "c", name := "n" },
      { kbId := "b", workspaceId := "w2", clientId := "c", name := "n" }], by decide⟩
    knowledgeDocuments := ⟨[{ documentId := "d", kbId := "a", text := some "t" }], by decide⟩
    knowledgeChunks := ⟨[{ chunkId := "x", documentId := "d", kbId := "a", text := some "t" }],
      by decide⟩
    knowledgeChunksFts := [{ chunkId := "x", kbId := "a", text := "t" }] }

/-- The second one deletes the chunk of the first, and answers that there was no document. -/
theorem tenants_not_isolated : ¬ tenants.Isolated (.document "b" "d") := by
  intro h
  have hchunks := (h.1 "a" (by decide)).chunks
  have hlength := congrArg List.length hchunks
  exact absurd hlength (by decide)

end SqliteKnowledgeBackend

end Himmy
