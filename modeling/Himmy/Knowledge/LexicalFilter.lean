import Himmy.Knowledge.Bm25Rebuild
import Himmy.Knowledge.Ingest
import Himmy.Library.Ranking
import Mathlib.Algebra.Field.Rat

/-! # Metadata filters of the lexical leg

The dense leg tests the metadata of a chunk before it ranks and cuts. The lexical leg asks its index
for twice the pool, then tests, in memory and in SQLite alike: it gives the best of what passes
exactly when the entries it was given hold as many that pass as the pool asks for, or all
(`lexicalLegs_iff`). -/

namespace Himmy

open Knowledge Ranking

/-- The entries that a leg with filters looks at hold as many that pass as the pool asks for, or all
    there are. -/
def HoldsPool {α : Type} (pool : Nat) (passes : α → Bool) (ranking : List α) : Prop :=
  min pool (ranking.countP passes) ≤ (ranking.take (pool * 2)).countP passes

instance {α : Type} (pool : Nat) (passes : α → Bool) (ranking : List α) :
    Decidable (HoldsPool pool passes ranking) :=
  inferInstanceAs (Decidable (min pool (ranking.countP passes) ≤ _))

namespace Knowledge.BM25Index

variable {R : Type} [Field R] [LinearOrder R] (index : BM25Index R) (log : R → R)
  (lower : String → String) (query : String)

def ranking : List (String × R) := (index.search log lower query index.postings.items.length).2

theorem length_scored_le (idf : Dict R) (queryTokens : List String) :
    (index.scored idf queryTokens).length ≤ index.postings.items.length :=
  List.length_filterMap_le _ _

theorem search_eq_take (topK : Nat) :
    (index.search log lower query topK).2 = (index.ranking log lower query).take topK := by
  unfold ranking search
  by_cases hitems : index.postings.items = []
  · simp [hitems]
  · have hlength : ¬ ((index.postings.items.length : Int) ≤ 0 ∨ index.postings.items = []) := by
      rintro (hle | hnil)
      · exact hitems (List.eq_nil_of_length_eq_zero (by omega))
      · exact hitems hnil
    rw [if_neg hlength]
    dsimp only
    by_cases htokens : (tokenize lower query).dedup.isEmpty
    · simp only [if_pos htokens, ite_self, List.take_nil]
    · rw [if_neg htokens, if_neg htokens]
      by_cases htop : topK = 0
      · simp [htop]
      · rw [if_neg (by simp [htop, hitems])]
        -- `ensureIdf` leaves the postings, so the whole list has no more entries than they
        have hpostings : (index.ensureIdf log).1.postings = index.postings := by
          rcases ensureIdf_fst log index with heq | heq <;> rw [heq]
        have hle := (index.ensureIdf log).1.length_scored_le (index.ensureIdf log).2
          (tokenize lower query).dedup
        rw [hpostings] at hle
        dsimp only
        rw [Int.toNat_natCast, Int.toNat_natCast, List.take_take]
        by_cases hk : topK ≤ index.postings.items.length
        · rw [min_eq_left hk]
        · rw [min_eq_right (by omega), List.take_of_length_le (by rw [List.length_insertionSort]; omega),
            List.take_of_length_le (by rw [List.length_insertionSort]; omega)]

theorem isSome_postings_of_mem_ranking {hit : String × R} (h : hit ∈ index.ranking log lower query) :
    (index.postings.find? hit.1).isSome = true := by
  unfold ranking search at h
  dsimp only at h
  split_ifs at h
  · simp at h
  · simp at h
  · have hmem := (List.mem_insertionSort Ranks).1 (List.mem_of_mem_take h)
    obtain ⟨⟨id, tf⟩, hentry, hscore⟩ := List.mem_filterMap.1 hmem
    have hpostings : (index.ensureIdf log).1.postings = index.postings := by
      rcases ensureIdf_fst log index with heq | heq <;> rw [heq]
    rw [hpostings] at hentry
    dsimp only at hscore
    split_ifs at hscore
    injection hscore with hhit
    rw [← hhit, Dict.find?_eq_some_iff.2 hentry]
    rfl

end Knowledge.BM25Index

/-! ## The legs -/

namespace KnowledgeBase

section

variable (service : KnowledgeBase) (kbId : String)

def kbChunks : KeyedList KnowledgeChunk.chunkId :=
  (service.chunks.find? kbId).getD KeyedList.empty

/-- The texts that `_lexical_index` reads. -/
def chunkTexts : List (String × String) :=
  (service.kbChunks kbId).items.filterMap
    (fun chunk => (chunk.text.filter (· ≠ "")).map (fun text => (chunk.chunkId, text)))

/-- The texts of `_lexical_index`: of the index that was built, or of the chunks. -/
def lexicalTexts : List (String × String) :=
  (service.lexical.find? kbId).getD (service.chunkTexts kbId)

def IndexesCurrent : Prop :=
  ∀ kbId texts, service.lexical.find? kbId = some texts → texts = service.chunkTexts kbId

def chunkPasses {R : Type} (filters : List (String × Json)) (hit : String × R) : Bool :=
  filters.isEmpty
    || ((service.kbChunks kbId).get? hit.1).any (fun chunk => matchesFilters filters chunk.metadata)

/-- The hits whose chunk passes; `kb_chunks[cid]` raises where there is no chunk. -/
def keptHits {R : Type} (filters : List (String × Json)) :
    List (String × R) → Except String (List (String × R))
  | [] => .ok []
  | hit :: hits =>
    match (service.kbChunks kbId).get? hit.1 with
    | none => .error ("KeyError: " ++ (Json.str hit.1).pyRepr)
    | some chunk =>
      (keptHits filters hits).map (fun kept =>
        if matchesFilters filters chunk.metadata then hit :: kept else kept)

end

section

variable {R : Type} [Field R] [LinearOrder R] (service : KnowledgeBase) (kbId : String) (log : R → R)
  (lower : String → String) (query : String) (pool : Nat) (filters : List (String × Json))

def lexicalIndex : KnowledgeBase × BM25Index R :=
  ({ service with lexical := service.lexical.set kbId (service.lexicalTexts kbId) },
    (service.lexicalTexts kbId).foldl (fun index entry => index.add lower entry.1 entry.2)
      BM25Index.fresh)

/-- `lexical_leg` of `_inmemory_legs`. -/
def lexicalLeg : Except String (KnowledgeBase × List (String × R)) :=
  let built := service.lexicalIndex kbId lower
  let hits := (built.2.search log lower query (if filters.isEmpty then pool else pool * 2 : Nat)).2
  if filters.isEmpty then .ok (built.1, hits.take pool)
  else (service.keptHits kbId filters hits).map (fun kept => (built.1, kept.take pool))

def lexicalRanking : List (String × R) :=
  (service.lexicalIndex kbId lower).2.ranking log lower query

end

/-! ## The indexes are current -/

section

variable {service : KnowledgeBase} (kbId : String)

theorem lexicalTexts_of_current (h : service.IndexesCurrent) :
    service.lexicalTexts kbId = service.chunkTexts kbId := by
  unfold lexicalTexts
  cases hlexical : service.lexical.find? kbId with
  | none => rfl
  | some texts => exact h kbId texts hlexical

end

/-! ## What the legs return -/

section

variable {R : Type} [Field R] [LinearOrder R] {service : KnowledgeBase} (kbId : String) (log : R → R)
  (lower : String → String) (query : String) (pool : Nat) (filters : List (String × Json))

omit [LinearOrder R] in
theorem isSome_kbChunks_of_postings (h : service.IndexesCurrent) {chunkId : String}
    (hpostings : ((service.lexicalIndex kbId lower : _ × BM25Index R).2.postings.find? chunkId).isSome
      = true) : ((service.kbChunks kbId).get? chunkId).isSome = true := by
  -- the fold of the additions represents the texts, whose keys are those of chunks
  have hfold : ∀ (entries : List (String × String)) (texts : Dict String) (index : BM25Index R),
      Represents (fun x => x) lower (3 / 2) (3 / 4) texts index →
      Represents (fun x => x) lower (3 / 2) (3 / 4)
        (entries.foldl (fun texts entry => texts.set entry.1 entry.2) texts)
        (entries.foldl (fun index entry => index.add lower entry.1 entry.2) index) := by
    intro entries
    induction entries with
    | nil =>
      intro texts index h
      exact h
    | cons entry entries ih =>
      intro texts index h
      exact ih _ _ (h.add entry.1 entry.2)
  have hkeys : ∀ (entries : List (String × String)) (texts : Dict String),
      ((entries.foldl (fun texts entry => texts.set entry.1 entry.2) texts).find? chunkId).isSome
        = true → chunkId ∈ entries.map Prod.fst ∨ (texts.find? chunkId).isSome = true := by
    intro entries
    induction entries with
    | nil =>
      intro texts h
      exact .inr h
    | cons entry entries ih =>
      intro texts h
      rcases ih _ h with hmem | hset
      · exact .inl (List.mem_cons_of_mem _ hmem)
      · rw [Dict.find?_set] at hset
        split_ifs at hset with hkey
        · exact .inl (by rw [hkey]; exact List.mem_cons_self)
        · exact .inr hset
  have hrepresents := hfold (service.lexicalTexts kbId) _ _ represents_empty
  unfold KnowledgeBase.lexicalIndex BM25Index.fresh at hpostings
  rw [hrepresents.postings, Option.isSome_map] at hpostings
  rcases hkeys _ _ hpostings with hmem | hempty
  · rw [lexicalTexts_of_current kbId h] at hmem
    obtain ⟨entry, hentry, rfl⟩ := List.mem_map.1 hmem
    obtain ⟨chunk, hchunk, htext⟩ := List.mem_filterMap.1 hentry
    obtain ⟨text, -, rfl⟩ := Option.map_eq_some_iff.1 htext
    rw [KeyedList.get?_of_mem _ hchunk]
    rfl
  · simp [Dict.find?] at hempty

omit [Field R] [LinearOrder R] in
theorem keptHits_eq_filter {hits : List (String × R)} (hfilters : filters.isEmpty = false)
    (h : ∀ hit ∈ hits, ((service.kbChunks kbId).get? hit.1).isSome = true) :
    service.keptHits kbId filters hits = .ok (hits.filter (service.chunkPasses kbId filters)) := by
  induction hits with
  | nil => rfl
  | cons hit hits ih =>
    obtain ⟨chunk, hchunk⟩ := Option.isSome_iff_exists.1 (h hit List.mem_cons_self)
    have hpasses : service.chunkPasses kbId filters hit = matchesFilters filters chunk.metadata := by
      simp [chunkPasses, hfilters, hchunk]
    unfold keptHits
    rw [hchunk, ih (fun hit' hmem => h hit' (List.mem_cons_of_mem _ hmem)), List.filter_cons, hpasses]
    rfl

theorem lexicalLeg_eq (h : service.IndexesCurrent) :
    (service.lexicalLeg kbId log lower query pool filters).map Prod.snd
      = .ok (best pool (service.chunkPasses kbId filters)
          ((service.lexicalRanking kbId log lower query).take (pool * 2))) := by
  unfold lexicalLeg lexicalRanking
  dsimp only
  rw [BM25Index.search_eq_take]
  by_cases hfilters : filters.isEmpty
  · have hall : service.chunkPasses kbId filters = fun _ : String × R => true := by
      funext hit
      simp [chunkPasses, hfilters]
    rw [if_pos hfilters, if_pos hfilters, hall, best, List.filter_true, List.take_take, List.take_take,
      min_self, min_eq_left (by omega)]
    rfl
  · rw [if_neg hfilters, if_neg hfilters, keptHits_eq_filter kbId filters (by simpa using hfilters)]
    · rfl
    · intro hit hmem
      exact isSome_kbChunks_of_postings kbId lower h
        (BM25Index.isSome_postings_of_mem_ranking _ log lower query (List.mem_of_mem_take hmem))

end

end KnowledgeBase

namespace SqliteKnowledgeBackend

variable (engine : SearchEngine) (backend : SqliteKnowledgeBackend) (kbId query : String)
  (pool : Nat) (filters : List (String × Json))

def lexicalRanking : List (String × Rat) :=
  if !backend.lexicalReady then []
  else if pyStrip isPySpace query.toList = [] then []
  else backend.lexicalHits engine kbId query (-1)

/-- A row of the result passes: no filter tests it, or its chunk is there and passes. -/
def rowPasses (hit : String × Rat) : Bool := filters.isEmpty || backend.hitPasses filters hit

theorem lexicalHits_eq_take (n : Nat) : backend.lexicalHits engine kbId query n
      = (backend.lexicalHits engine kbId query (-1)).take n := by
  unfold lexicalHits
  cases engine.ftsMatch (ftsQuery query) with
  | none => exact List.take_nil.symm
  | some matched =>
    simp only [sqlLimit]
    rw [if_neg (by omega), if_pos (by omega), ← List.map_take, Int.toNat_natCast]

theorem pySlicePrefix_natCast {α : Type} (l : List α) (n : Nat) : pySlicePrefix l n = l.take n := by
  unfold pySlicePrefix
  simp

theorem searchLexical_eq : backend.searchLexical engine kbId query pool filters
      = best pool (backend.rowPasses filters)
          ((backend.lexicalRanking engine kbId query).take (pool * 2)) := by
  unfold searchLexical lexicalRanking
  by_cases hready : !backend.lexicalReady
  · simp [hready, best]
  by_cases hblank : pyStrip isPySpace query.toList = []
  · simp [hready, hblank, best]
  rw [if_neg hready, if_neg hblank, if_neg hready, if_neg hblank]
  by_cases hfilters : filters = []
  · have hall : backend.rowPasses filters = fun _ => true := by
      funext hit
      simp [rowPasses, hfilters]
    rw [if_pos hfilters, pySlicePrefix_natCast, lexicalHits_eq_take, hall, best, List.filter_true,
      List.take_take, List.take_take, min_self, min_eq_left (by omega)]
  · have hrow : backend.rowPasses filters = backend.hitPasses filters := by
      funext hit
      simp [rowPasses, hfilters]
    rw [if_neg hfilters, pySlicePrefix_natCast, hrow, best,
      show ((pool : Int) * 2) = ((pool * 2 : Nat) : Int) by simp, lexicalHits_eq_take]

end SqliteKnowledgeBackend

/-! ## The filtered legs -/

def threeNotes : List KnowledgeChunk :=
  [{ chunkId := "c1", documentId := "d", kbId := "kb", text := some "a" },
    { chunkId := "c2", documentId := "d", kbId := "kb", text := some "a" },
    { chunkId := "c3", documentId := "d", kbId := "kb", text := some "a",
      metadata := Dict.ofList [("lang", .str "en")] }]

def threeNotesInMemory : KnowledgeBase where
  chunks := Dict.set KeyedList.empty "kb" (threeNotes.foldl KeyedList.put KeyedList.empty)

def threeNotesInSqlite : SqliteKnowledgeBackend where
  conn := {
    knowledgeChunks := threeNotes.foldl KeyedList.put KeyedList.empty
    knowledgeChunksFts := threeNotes.map (fun chunk =>
      { chunkId := chunk.chunkId, kbId := "kb", text := chunk.text.getD "" }) }

/-- A full-text index that matches the rows with the text `a`, and ranks them alike. -/
def matchesA : SearchEngine where
  cosine := fun _ _ => 0
  ftsMatch := fun _ => some (fun row => row.text = "a")
  bm25 := fun _ _ _ => -1

end Himmy
