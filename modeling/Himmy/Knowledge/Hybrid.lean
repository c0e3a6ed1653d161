import Himmy.Knowledge.LexicalFilter
import Mathlib.Algebra.Order.Field.Rat
import Mathlib.Tactic.Linarith

/-! # The hybrid retriever

`HybridRetriever` runs a dense and a lexical leg for each query, fuses their rankings by rank, asks an
optional reranker to reorder the best of them, and keeps the first that have a positive score and can
be hydrated. The legs, the hydrator and the reranker are given; of the reranker the retriever relies on
its contract, that it scores candidates of those it was given, each at most once. -/

namespace Himmy

open Knowledge
open KeyedList (empty)

/-! ## Fusion -/

def addRank (k : Int) (scores : Dict Rat) (entry : String × Nat) : Dict Rat :=
  scores.set entry.1 ((scores.find? entry.1).getD 0 + 1 / ((k : Rat) + entry.2))

def rankScores (k : Int) (rankings : List (List String)) : Dict Rat :=
  rankings.foldl (fun scores ranking => (ranking.zipIdx 1).foldl (addRank k) scores) empty

def reciprocalRankFusion (rankings : List (List String)) (k : Int) :
    Except String (List (String × Rat)) :=
  if k ≤ 0 then .error "RRF k must be a positive integer"
  else .ok ((rankScores k rankings).items.insertionSort BM25Index.Ranks)

theorem find?_addRank {k : Int} (hk : 0 < k) {scores : Dict Rat}
    (h : ∀ id score, scores.find? id = some score → 0 < score) (entry : String × Nat) :
    ∀ id score, (addRank k scores entry).find? id = some score → 0 < score := by
  intro id score hid
  unfold addRank at hid
  rw [Dict.find?_set] at hid
  split_ifs at hid with hkey
  · injection hid with hscore
    have hbefore : 0 ≤ (scores.find? entry.1).getD 0 := by
      cases hfind : scores.find? entry.1 with
      | none => exact le_refl _
      | some before => exact le_of_lt (h _ _ hfind)
    have hrank : (0 : Rat) < (k : Rat) + entry.2 := by
      have hk' : (0 : Rat) < (k : Rat) := by exact_mod_cast hk
      have hn : (0 : Rat) ≤ (entry.2 : Rat) := Nat.cast_nonneg _
      linarith
    rw [← hscore]
    have hdiv : (0 : Rat) < 1 / ((k : Rat) + entry.2) := one_div_pos.2 hrank
    linarith
  · exact h id score hid

theorem find?_rankScores_pos {k : Int} (hk : 0 < k) (rankings : List (List String)) :
    ∀ id score, (rankScores k rankings).find? id = some score → 0 < score := by
  have hranking : ∀ (entries : List (String × Nat)) (scores : Dict Rat),
      (∀ id score, scores.find? id = some score → 0 < score) →
      ∀ id score, (entries.foldl (addRank k) scores).find? id = some score → 0 < score := by
    intro entries
    induction entries with
    | nil =>
      intro scores h
      exact h
    | cons entry entries ih =>
      intro scores h
      exact ih _ (find?_addRank hk h entry)
  have hall : ∀ (rankings : List (List String)) (scores : Dict Rat),
      (∀ id score, scores.find? id = some score → 0 < score) →
      ∀ id score, (rankings.foldl (fun scores ranking =>
        (ranking.zipIdx 1).foldl (addRank k) scores) scores).find? id = some score → 0 < score := by
    intro rankings
    induction rankings with
    | nil =>
      intro scores h
      exact h
    | cons ranking rankings ih =>
      intro scores h
      exact ih _ (hranking _ scores h)
  exact hall rankings _ (by simp [Dict.find?])

/-! ## The configuration -/

/-- `RerankerProtocol`: the chunks that it scores, in its order. -/
structure Reranker where
  rerank : String → List (String × String) → List (String × Rat)
  nodup_rerank : ∀ query candidates, (candidates.map Prod.fst).Nodup →
    ((rerank query candidates).map Prod.fst).Nodup
  rerank_subset : ∀ query candidates, (rerank query candidates).map Prod.fst ⊆ candidates.map Prod.fst

def Reranker.mapScores (f : Rat → Rat) (reranker : Reranker) : Reranker where
  rerank := fun query candidates =>
    (reranker.rerank query candidates).map (fun hit => (hit.1, f hit.2))
  nodup_rerank := fun query candidates h => by
    rw [List.map_map]
    exact reranker.nodup_rerank query candidates h
  rerank_subset := fun query candidates => by
    rw [List.map_map]
    exact reranker.rerank_subset query candidates

/-- `RetrievalConfig`, after its checks. -/
structure RetrievalConfig where
  rrfK : Int := 60
  candidatePool : Int := 50
  rerank : Bool := false
  reranker : Option Reranker := none
  queryRewrite : Bool := false
  rewriter : Option (String → List String) := none
  rrfK_pos : 0 < rrfK
  candidatePool_pos : 0 < candidatePool
  isSome_reranker : rerank = true → reranker.isSome = true
  isSome_rewriter : queryRewrite = true → rewriter.isSome = true

/-- A result, with what the retriever writes into its metadata. -/
structure HybridResult where
  chunk : RetrievedChunk
  denseRank : Option Nat
  denseSim : Option Rat
  lexicalRank : Option Nat
  lexicalScore : Option Rat
  rrfScore : Option Rat
  rerankScore : Option Rat

def HybridResult.chunkId (result : HybridResult) : String :=
  (result.chunk.metadata.str? "chunk_id").getD ""

/-- `HybridRetriever`. A hydrated chunk names itself in its metadata. -/
structure HybridRetriever where
  dense : String → Int → List (String × Rat)
  lexical : String → Int → List (String × Rat)
  hydrate : String → Option RetrievedChunk
  textLookup : String → Option String
  config : RetrievalConfig
  str?_of_hydrate : ∀ chunkId chunk, hydrate chunkId = some chunk →
    chunk.metadata.str? "chunk_id" = some chunkId

/-! ## Retrieval -/

/-- The best rank of each chunk of a leg, and the score there. -/
def noteRanks (ranks : Dict Nat × Dict Rat) (hits : List (String × Rat)) : Dict Nat × Dict Rat :=
  (hits.zipIdx 1).foldl (fun ranks entry =>
    if (ranks.1.find? entry.1.1).all (fun rank => entry.2 < rank) then
      (ranks.1.set entry.1.1 entry.2, ranks.2.set entry.1.1 entry.1.2)
    else ranks) ranks

namespace HybridRetriever

variable (retriever : HybridRetriever) (query : String) (topK : Int) (threshold : Option Rat)

def expandQueries : List String :=
  match retriever.config.rewriter with
  | some rewrite =>
    if retriever.config.queryRewrite then
      if (rewrite query).isEmpty then [query] else rewrite query
    else [query]
  | none => [query]

/-- `_rerank`: the chunks that were scored first, then those without a text or a score. -/
def rerank (reranker : Reranker) (candidateIds : List String) : List String × Dict Rat :=
  let pairs := candidateIds.filterMap (fun cid =>
    ((retriever.textLookup cid).filter (· ≠ "")).map (fun text => (cid, text)))
  if pairs.isEmpty then (candidateIds, empty)
  else
    let reranked := reranker.rerank query pairs
    let scores := Dict.ofList reranked
    (reranked.map Prod.fst ++ candidateIds.filter (fun cid => (scores.find? cid).isNone), scores)

def keep (score : Rat) : Bool :=
  match threshold with
  | none => 0 < score
  | some threshold => threshold ≤ score

/-- The loop of `retrieve` over the ordered candidates. -/
def collect (finalScore : String → Rat) (result : String → RetrievedChunk → HybridResult) :
    List String → List HybridResult → List HybridResult
  | [], results => results
  | cid :: rest, results =>
    if keep threshold (finalScore cid) then
      match retriever.hydrate cid with
      | none => collect finalScore result rest results
      | some chunk =>
        if topK ≤ (results ++ [result cid chunk]).length then results ++ [result cid chunk]
        else collect finalScore result rest (results ++ [result cid chunk])
    else collect finalScore result rest results

def pool : Int := max retriever.config.candidatePool topK

def rankings : List (List String) :=
  (retriever.expandQueries query).flatMap (fun q =>
    [(retriever.dense q (retriever.pool topK)).map Prod.fst,
      (retriever.lexical q (retriever.pool topK)).map Prod.fst])

def ordered (fused : List (String × Rat)) : List String × Dict Rat :=
  match retriever.config.reranker with
  | some reranker =>
    if retriever.config.rerank then
      retriever.rerank query reranker (pySlicePrefix (fused.map Prod.fst) (retriever.pool topK))
    else (fused.map Prod.fst, empty)
  | none => (fused.map Prod.fst, empty)

def retrieve : Except String (List HybridResult) :=
  match reciprocalRankFusion (retriever.rankings query topK) retriever.config.rrfK with
  | .error e => .error e
  | .ok fused =>
    if fused.isEmpty then .ok []
    else
      let queries := retriever.expandQueries query
      let dense := queries.foldl (fun ranks q =>
        noteRanks ranks (retriever.dense q (retriever.pool topK))) (empty, empty)
      let lexical := queries.foldl (fun ranks q =>
        noteRanks ranks (retriever.lexical q (retriever.pool topK))) (empty, empty)
      let rrfScore := Dict.ofList fused
      let ordered := retriever.ordered query topK fused
      .ok (retriever.collect topK threshold
        (fun cid => (ordered.2.find? cid).getD ((rrfScore.find? cid).getD 0))
        (fun cid chunk =>
          { chunk := { chunk with
              similarity := (ordered.2.find? cid).getD ((rrfScore.find? cid).getD 0) }
            denseRank := dense.1.find? cid
            denseSim := dense.2.find? cid
            lexicalRank := lexical.1.find? cid
            lexicalScore := lexical.2.find? cid
            rrfScore := rrfScore.find? cid
            rerankScore := ordered.2.find? cid })
        ordered.1 [])

end HybridRetriever

/-! ## Over SQLite -/

namespace SqliteKnowledgeBackend

theorem str?_of_getChunk {backend : SqliteKnowledgeBackend} {kbId chunkId : String}
    {chunk : RetrievedChunk} (h : backend.getChunk kbId chunkId = some chunk) :
    chunk.metadata.str? "chunk_id" = some chunkId := by
  obtain ⟨row, hrow, hjoined⟩ := Option.bind_eq_some_iff.1 h
  obtain ⟨cached, hcached, rfl⟩ := Option.map_eq_some_iff.1 hjoined
  have hkey : row.chunkId = chunkId :=
    KeyedList.key_of_get? (Option.filter_eq_some_iff.1 hrow).1
  have hid : cached.chunkId = chunkId := (backend.conn.chunkId_of_joined hcached).trans hkey
  unfold CachedChunk.toResult
  rw [Dict.str?_set_of_ne _ _ (by decide), Dict.str?_set_of_ne _ _ (by decide), Dict.str?_set_self, hid]

/-- `_backend_legs`, for the vectors of an embedder. -/
def hybridRetriever (engine : SearchEngine) (backend : SqliteKnowledgeBackend) (kbId : String)
    (embedQuery : String → List Rat) (filters : List (String × Json)) (config : RetrievalConfig) :
    HybridRetriever where
  dense := fun q pool => (backend.denseRanked engine kbId (embedQuery q) pool filters).2
  lexical := fun q pool => backend.searchLexical engine kbId q pool filters
  hydrate := backend.getChunk kbId
  textLookup := fun chunkId => (backend.getChunk kbId chunkId).bind RetrievedChunk.text
  config := config
  str?_of_hydrate := fun _ _ h => str?_of_getChunk h

end SqliteKnowledgeBackend

end Himmy
