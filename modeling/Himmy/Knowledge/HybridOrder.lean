import Himmy.Knowledge.Hybrid
import Mathlib.Order.Monotone.Basic

/-! # Reranking and the order of the results

The retriever returns the first of its ordered candidates that have a positive score and can be
hydrated (`returnedIds_eq`), and at least one of them. So the scale of a reranker matters where it
moves a score over zero: exactly then an increasing image of the scores returns other chunks, and
exactly where scores are not positive the reranker takes candidates away that the fusion offered
(`orderOnly_iff`). -/

namespace Himmy

open Knowledge Ranking

namespace HybridRetriever

section Candidates

variable (retriever : HybridRetriever) (query : String) (topK : Int)

def fused : List (String × Rat) :=
  (rankScores retriever.config.rrfK (retriever.rankings query topK)).items.insertionSort
    BM25Index.Ranks

def candidates : List String :=
  if retriever.config.rerank then
    pySlicePrefix ((retriever.fused query topK).map Prod.fst) (retriever.pool topK)
  else (retriever.fused query topK).map Prod.fst

def orderedIds : List String := (retriever.ordered query topK (retriever.fused query topK)).1

variable (cid : String)

def rerankScore : Option Rat :=
  (retriever.ordered query topK (retriever.fused query topK)).2.find? cid

def finalScore : Rat :=
  (retriever.rerankScore query topK cid).getD
    (((Dict.ofList (retriever.fused query topK)).find? cid).getD 0)

def keeps : Bool := 0 < retriever.finalScore query topK cid && (retriever.hydrate cid).isSome

def stopAt : Nat := (max 1 topK).toNat

def returnedIds : Except String (List String) :=
  (retriever.retrieve query topK none).map (List.map HybridResult.chunkId)

theorem reciprocalRankFusion_eq :
    reciprocalRankFusion (retriever.rankings query topK) retriever.config.rrfK
      = .ok (retriever.fused query topK) := by
  unfold reciprocalRankFusion
  rw [if_neg (not_le.2 retriever.config.rrfK_pos)]
  rfl

theorem nodup_fused : ((retriever.fused query topK).map Prod.fst).Nodup := by
  have hperm := (List.perm_insertionSort BM25Index.Ranks
    (rankScores retriever.config.rrfK (retriever.rankings query topK)).items).map Prod.fst
  exact hperm.nodup_iff.2
    (rankScores retriever.config.rrfK (retriever.rankings query topK)).nodup_keys

theorem pos_of_mem_fused {cid : String} (h : cid ∈ (retriever.fused query topK).map Prod.fst) :
    0 < ((Dict.ofList (retriever.fused query topK)).find? cid).getD 0 := by
  obtain ⟨⟨id, score⟩, hmem, rfl⟩ := List.mem_map.1 h
  rw [Dict.find?_ofList_of_mem (retriever.nodup_fused query topK) hmem]
  exact find?_rankScores_pos retriever.config.rrfK_pos _ _ _
    (Dict.find?_eq_some_iff.2 ((List.mem_insertionSort _).1 hmem))

theorem candidates_sublist :
    (retriever.candidates query topK).Sublist ((retriever.fused query topK).map Prod.fst) := by
  unfold candidates
  split_ifs
  · unfold pySlicePrefix
    split_ifs <;> exact List.take_sublist _ _
  · exact List.Sublist.refl _

theorem nodup_candidates : (retriever.candidates query topK).Nodup :=
  (retriever.nodup_fused query topK).sublist (retriever.candidates_sublist query topK)

end Candidates

/-! ## The loop -/

section Loop

variable (retriever : HybridRetriever) (topK : Int) (threshold : Option Rat)
  (finalScore : String → Rat) (result : String → RetrievedChunk → HybridResult)

def found (cid : String) : Option HybridResult :=
  if keep threshold (finalScore cid) then (retriever.hydrate cid).map (result cid) else none

theorem collect_eq (ids : List String) (results : List HybridResult) :
    retriever.collect topK threshold finalScore result ids results
      = results ++ (ids.filterMap (retriever.found threshold finalScore result)).take
          (max 1 (topK - results.length)).toNat := by
  induction ids generalizing results with
  | nil => simp [collect]
  | cons cid ids ih =>
    unfold collect
    by_cases hkeep : keep threshold (finalScore cid) = true
    · cases hhydrate : retriever.hydrate cid with
      | none =>
        have hfound : retriever.found threshold finalScore result cid = none := by
          simp [found, hhydrate]
        rw [if_pos hkeep, List.filterMap_cons_none hfound]
        exact ih results
      | some chunk =>
        have hfound : retriever.found threshold finalScore result cid
            = some (result cid chunk) := by
          simp [found, hhydrate, hkeep]
        rw [if_pos hkeep, List.filterMap_cons_some hfound]
        dsimp only
        rw [List.length_append, List.length_singleton]
        by_cases hfull : topK ≤ (results.length + 1 : Nat)
        · -- the candidate fills the last place
          have hone : (max 1 (topK - results.length)).toNat = 1 := by omega
          rw [if_pos hfull, hone, List.take_succ_cons, List.take_zero]
        · have hmore : (max 1 (topK - results.length)).toNat
              = (max 1 (topK - (results ++ [result cid chunk]).length)).toNat + 1 := by
            rw [List.length_append, List.length_singleton]
            omega
          rw [if_neg hfull, ih, hmore, List.take_succ_cons, List.append_assoc]
          rfl
    · have hfound : retriever.found threshold finalScore result cid = none := by
        simp [found, hkeep]
      rw [if_neg hkeep, List.filterMap_cons_none hfound]
      exact ih results

theorem map_chunkId_filterMap_found
    (hresult : ∀ cid chunk, (result cid chunk).chunk.metadata = chunk.metadata) (ids : List String) :
    (ids.filterMap (retriever.found threshold finalScore result)).map HybridResult.chunkId
      = ids.filter (fun cid => keep threshold (finalScore cid) && (retriever.hydrate cid).isSome) := by
  induction ids with
  | nil => rfl
  | cons cid ids ih =>
    by_cases hkeep : keep threshold (finalScore cid) = true
    · cases hhydrate : retriever.hydrate cid with
      | none => simpa [found, hhydrate] using ih
      | some chunk =>
        have hid : (result cid chunk).chunkId = cid := by
          unfold HybridResult.chunkId
          rw [hresult, retriever.str?_of_hydrate cid chunk hhydrate, Option.getD_some]
        simpa [found, hhydrate, hkeep, hid] using ih
    · simpa [found, hkeep] using ih

end Loop

section Returned

variable (retriever : HybridRetriever) (query : String) (topK : Int)

theorem orderedIds_of_fused_nil (h : retriever.fused query topK = []) :
    retriever.orderedIds query topK = [] := by
  unfold orderedIds ordered
  rw [h]
  have hslice : pySlicePrefix (([] : List (String × Rat)).map Prod.fst) (retriever.pool topK) = [] := by
    unfold pySlicePrefix
    split_ifs <;> exact List.take_nil
  cases hreranker : retriever.config.reranker with
  | none => rfl
  | some reranker =>
    dsimp only
    rw [hslice]
    split_ifs <;> rfl

theorem returnedIds_eq : retriever.returnedIds query topK
      = .ok (best (stopAt topK) (retriever.keeps query topK) (retriever.orderedIds query topK)) := by
  unfold returnedIds retrieve
  rw [retriever.reciprocalRankFusion_eq query topK]
  dsimp only
  by_cases hfused : (retriever.fused query topK).isEmpty
  · rw [if_pos hfused, retriever.orderedIds_of_fused_nil query topK (List.isEmpty_iff.1 hfused)]
    simp [best, Except.map]
  · rw [if_neg hfused, collect_eq]
    simp only [Except.map, List.nil_append, List.length_nil, List.map_take]
    rw [map_chunkId_filterMap_found _ _ _ _ (fun _ _ => rfl)]
    simp only [Nat.cast_zero, Int.sub_zero]
    rfl

end Returned

/-! ## The order of the reranker -/

section Reranked

variable (retriever : HybridRetriever) (query : String) (reranker : Reranker)
  (candidateIds : List String)

def pairs : List (String × String) :=
  candidateIds.filterMap (fun cid =>
    ((retriever.textLookup cid).filter (· ≠ "")).map (fun text => (cid, text)))

theorem pairs_sublist : ((retriever.pairs candidateIds).map Prod.fst).Sublist candidateIds := by
  unfold pairs
  induction candidateIds with
  | nil => exact List.Sublist.slnil
  | cons cid rest ih =>
    cases htext : ((retriever.textLookup cid).filter (· ≠ "")).map (fun text => (cid, text)) with
    | none =>
      simp only [List.filterMap_cons, htext]
      exact ih.cons cid
    | some pair =>
      obtain ⟨text, -, rfl⟩ := Option.map_eq_some_iff.1 htext
      simp only [List.filterMap_cons, htext]
      exact ih.cons_cons cid

theorem isNone_ofList_iff {ν : Type} (hits : List (String × ν)) (cid : String) :
    ((Dict.ofList hits).find? cid).isNone = true ↔ cid ∉ hits.map Prod.fst := by
  induction hits with
  | nil => simp [Dict.find?_ofList_nil]
  | cons hit hits ih =>
    rw [Dict.find?_ofList_cons, Option.isNone_or, Bool.and_eq_true, ih, List.map_cons, List.mem_cons]
    by_cases hkey : cid = hit.1 <;> simp [hkey]

theorem mem_rerank_iff (cid : String) :
    cid ∈ (retriever.rerank query reranker candidateIds).1 ↔ cid ∈ candidateIds := by
  unfold rerank
  dsimp only
  split_ifs with hpairs
  · exact Iff.rfl
  · rw [List.mem_append, List.mem_filter, isNone_ofList_iff]
    constructor
    · rintro (hscored | ⟨hmem, -⟩)
      · exact (retriever.pairs_sublist candidateIds).subset (reranker.rerank_subset query _ hscored)
      · exact hmem
    · intro hmem
      by_cases hscored : cid ∈ (reranker.rerank query (retriever.pairs candidateIds)).map Prod.fst
      · exact .inl hscored
      · exact .inr ⟨hmem, hscored⟩

theorem nodup_rerank (h : candidateIds.Nodup) :
    (retriever.rerank query reranker candidateIds).1.Nodup := by
  unfold rerank
  dsimp only
  split_ifs with hpairs
  · exact h
  · refine List.nodup_append.2 ⟨reranker.nodup_rerank query _
      (h.sublist (retriever.pairs_sublist candidateIds)), h.filter _, ?_⟩
    -- the candidates behind the scored ones are those without a score
    rintro cid hscored other hother rfl
    exact (isNone_ofList_iff _ _).1 (List.mem_filter.1 hother).2 hscored

theorem find?_ofList_mapScores {ν μ : Type} (f : ν → μ) (hits : List (String × ν)) (cid : String) :
    (Dict.ofList (hits.map (fun hit => (hit.1, f hit.2)))).find? cid
      = ((Dict.ofList hits).find? cid).map f := by
  induction hits with
  | nil => rfl
  | cons hit hits ih =>
    rw [List.map_cons, Dict.find?_ofList_cons, ih, Dict.find?_ofList_cons]
    cases (Dict.ofList hits).find? cid with
    | some score => rfl
    | none => by_cases hkey : cid = hit.1 <;> simp [hkey]

theorem rerank_mapScores (f : Rat → Rat) :
    (retriever.rerank query (reranker.mapScores f) candidateIds).1
        = (retriever.rerank query reranker candidateIds).1
      ∧ ∀ cid, (retriever.rerank query (reranker.mapScores f) candidateIds).2.find? cid
        = ((retriever.rerank query reranker candidateIds).2.find? cid).map f := by
  unfold rerank Reranker.mapScores
  dsimp only
  split_ifs with hpairs
  · exact ⟨rfl, fun _ => rfl⟩
  · refine ⟨?_, find?_ofList_mapScores f _⟩
    simp only [List.map_map, find?_ofList_mapScores, Option.isNone_map]
    rfl

end Reranked

section Ordered

variable (retriever : HybridRetriever) (query : String) (topK : Int)

def mapScores (f : Rat → Rat) (retriever : HybridRetriever) : HybridRetriever where
  dense := retriever.dense
  lexical := retriever.lexical
  hydrate := retriever.hydrate
  textLookup := retriever.textLookup
  config := { retriever.config with
    reranker := retriever.config.reranker.map (Reranker.mapScores f)
    isSome_reranker := fun h => by
      rw [Option.isSome_map]
      exact retriever.config.isSome_reranker h }
  str?_of_hydrate := retriever.str?_of_hydrate

theorem ordered_cases : (retriever.config.rerank = false
        ∧ retriever.ordered query topK (retriever.fused query topK)
          = (retriever.candidates query topK, KeyedList.empty))
      ∨ ∃ reranker, retriever.config.rerank = true ∧ retriever.config.reranker = some reranker
        ∧ retriever.ordered query topK (retriever.fused query topK)
          = retriever.rerank query reranker (retriever.candidates query topK) := by
  unfold ordered candidates
  by_cases hrerank : retriever.config.rerank = true
  · obtain ⟨reranker, hreranker⟩ :=
      Option.isSome_iff_exists.1 (retriever.config.isSome_reranker hrerank)
    exact .inr ⟨reranker, hrerank, hreranker, by simp [hreranker, hrerank]⟩
  · refine .inl ⟨by simpa using hrerank, ?_⟩
    cases retriever.config.reranker <;> simp [hrerank]

theorem mem_orderedIds_iff (cid : String) :
    cid ∈ retriever.orderedIds query topK ↔ cid ∈ retriever.candidates query topK := by
  unfold orderedIds
  rcases retriever.ordered_cases query topK with ⟨-, h⟩ | ⟨reranker, -, -, h⟩
  · rw [h]
  · rw [h, mem_rerank_iff]

theorem nodup_orderedIds : (retriever.orderedIds query topK).Nodup := by
  unfold orderedIds
  have hcandidates := retriever.nodup_candidates query topK
  rcases retriever.ordered_cases query topK with ⟨-, h⟩ | ⟨reranker, -, -, h⟩
  · rw [h]
    exact hcandidates
  · rw [h]
    exact retriever.nodup_rerank query reranker _ hcandidates

theorem ordered_mapScores (f : Rat → Rat) :
    (retriever.mapScores f).orderedIds query topK = retriever.orderedIds query topK
      ∧ ∀ cid, (retriever.mapScores f).rerankScore query topK cid
        = (retriever.rerankScore query topK cid).map f := by
  have hrerank : (retriever.mapScores f).config.rerank = retriever.config.rerank := rfl
  have hreranker : (retriever.mapScores f).config.reranker
      = retriever.config.reranker.map (Reranker.mapScores f) := rfl
  have hcandidates : (retriever.mapScores f).candidates query topK
      = retriever.candidates query topK := rfl
  unfold orderedIds rerankScore
  rcases retriever.ordered_cases query topK with ⟨hoff, h⟩ | ⟨reranker, hon, hsome, h⟩
  · rcases (retriever.mapScores f).ordered_cases query topK with ⟨-, h'⟩ | ⟨_, hon', -, -⟩
    · rw [h, h', hcandidates]
      exact ⟨rfl, fun _ => rfl⟩
    · rw [hrerank, hoff] at hon'
      exact absurd hon' Bool.false_ne_true
  · rcases (retriever.mapScores f).ordered_cases query topK with ⟨hoff', -⟩ | ⟨image, -, hsome', h'⟩
    · rw [hrerank, hon] at hoff'
      exact absurd hoff'.symm Bool.false_ne_true
    · rw [hreranker, hsome, Option.map_some, Option.some.injEq] at hsome'
      rw [h, h', hcandidates, ← hsome']
      exact retriever.rerank_mapScores query reranker _ f

end Ordered

end HybridRetriever

/-! ## Reranking depends on the order only -/

/-- What the retriever returns when a reranker's scores matter by their order alone, under `f` and by
    the number of results asked for. -/
structure OrderOnly (retriever : HybridRetriever) (query : String) (topK : Int) (f : Rat → Rat)
    (ids : List String) : Prop where
  returned : retriever.returnedIds query topK = .ok ids
  image : (retriever.mapScores f).returnedIds query topK = .ok ids
  nodup : ids.Nodup
  length_le : (ids.length : Int) ≤ topK
  fromPool : ∀ id ∈ ids, id ∈ retriever.candidates query topK ∧ (retriever.hydrate id).isSome = true
  offered : (ids.length : Int) < topK →
    ∀ id ∈ retriever.candidates query topK, (retriever.hydrate id).isSome = true → id ∈ ids

/-- The scores of the reranker lie where the cut at zero does not tell them apart. -/
structure ScoresPassCut (retriever : HybridRetriever) (query : String) (topK : Int) (f : Rat → Rat) :
    Prop where
  /-- A candidate that the loop comes to is over zero by its score when it is by the image. -/
  sameSign : ∀ cid, Reached (HybridRetriever.stopAt topK) (retriever.keeps query topK)
      (retriever.orderedIds query topK) cid → (retriever.hydrate cid).isSome = true →
    ∀ score ∈ retriever.rerankScore query topK cid, 0 < score ↔ 0 < f score
  /-- Results are asked for, or there are none. -/
  asked : 1 ≤ topK
    ∨ topK = 0 ∧ (retriever.orderedIds query topK).countP (retriever.keeps query topK) = 0
  /-- Enough candidates have a positive score, or all that can be hydrated. -/
  positive : topK ≤ (retriever.orderedIds query topK).countP (retriever.keeps query topK)
    ∨ ∀ cid ∈ retriever.candidates query topK, (retriever.hydrate cid).isSome = true →
      ∀ score ∈ retriever.rerankScore query topK cid, 0 < score

section OrderOnly

variable {retriever : HybridRetriever} {query : String} {topK : Int}

open HybridRetriever

theorem finalScore_pos_iff {cid : String} (h : cid ∈ retriever.candidates query topK) :
    0 < retriever.finalScore query topK cid
      ↔ ∀ score ∈ retriever.rerankScore query topK cid, 0 < score := by
  unfold finalScore
  cases hscore : retriever.rerankScore query topK cid with
  | none =>
    have hfused := retriever.pos_of_mem_fused query topK
      ((retriever.candidates_sublist query topK).subset h)
    simpa using hfused
  | some score => simp

theorem keeps_mapScores_iff (f : Rat → Rat) (cid : String) :
    retriever.keeps query topK cid = (retriever.mapScores f).keeps query topK cid
      ↔ ((retriever.hydrate cid).isSome = true →
        ∀ score ∈ retriever.rerankScore query topK cid, 0 < score ↔ 0 < f score) := by
  have hhydrate : (retriever.mapScores f).hydrate = retriever.hydrate := rfl
  have hfused : (retriever.mapScores f).fused query topK = retriever.fused query topK := rfl
  unfold keeps finalScore
  rw [hhydrate, hfused, (retriever.ordered_mapScores query topK f).2]
  cases retriever.hydrate cid with
  | none => simp
  | some chunk =>
    cases retriever.rerankScore query topK cid with
    | none => simp
    | some score => simp

theorem returnedIds_mapScores_iff (f : Rat → Rat) :
    (retriever.mapScores f).returnedIds query topK = retriever.returnedIds query topK
      ↔ ∀ cid, Reached (stopAt topK) (retriever.keeps query topK) (retriever.orderedIds query topK) cid →
        (retriever.hydrate cid).isSome = true →
        ∀ score ∈ retriever.rerankScore query topK cid, 0 < score ↔ 0 < f score := by
  rw [returnedIds_eq, returnedIds_eq, (retriever.ordered_mapScores query topK f).1, Except.ok.injEq,
    eq_comm, take_filter_eq_iff]
  exact forall₂_congr (fun cid _ => keeps_mapScores_iff f cid)

theorem length_best_le_iff (kept : Nat) :
    ((min (stopAt topK) kept : Nat) : Int) ≤ topK ↔ 1 ≤ topK ∨ topK = 0 ∧ kept = 0 := by
  unfold stopAt
  omega

theorem offered_iff :
    (((min (stopAt topK) ((retriever.orderedIds query topK).countP (retriever.keeps query topK)) : Nat)
          : Int) < topK →
        ∀ id ∈ retriever.candidates query topK, (retriever.hydrate id).isSome = true →
          id ∈ best (stopAt topK) (retriever.keeps query topK) (retriever.orderedIds query topK))
      ↔ topK ≤ (retriever.orderedIds query topK).countP (retriever.keeps query topK)
        ∨ ∀ cid ∈ retriever.candidates query topK, (retriever.hydrate cid).isSome = true →
          ∀ score ∈ retriever.rerankScore query topK cid, 0 < score := by
  by_cases henough : topK ≤ (retriever.orderedIds query topK).countP (retriever.keeps query topK)
  · refine iff_of_true (fun hless => ?_) (.inl henough)
    unfold stopAt at hless
    omega
  · have hstop : (retriever.orderedIds query topK).countP (retriever.keeps query topK) ≤ stopAt topK := by
      unfold stopAt
      omega
    have hless : ((min (stopAt topK)
        ((retriever.orderedIds query topK).countP (retriever.keeps query topK)) : Nat) : Int) < topK := by
      omega
    rw [best_eq_filter hstop]
    constructor
    · intro h
      refine .inr (fun cid hcid hhydrate => ?_)
      have hkept := (List.mem_filter.1 (h hless cid hcid hhydrate)).2
      unfold keeps at hkept
      exact (finalScore_pos_iff hcid).1 (by simpa [hhydrate] using hkept)
    · rintro (habsurd | hpositive) - cid hcid hhydrate
      · exact absurd habsurd henough
      · refine List.mem_filter.2 ⟨(retriever.mem_orderedIds_iff query topK cid).2 hcid, ?_⟩
        unfold keeps
        simpa [hhydrate] using (finalScore_pos_iff hcid).2 (hpositive cid hcid hhydrate)

/-- Without a threshold the retriever's results depend on the order of the reranker exactly when the
    scores pass the cut at zero and a result is asked for. -/
theorem orderOnly_iff (retriever : HybridRetriever) (query : String) (topK : Int) (f : Rat → Rat) :
    (∃ ids, OrderOnly retriever query topK f ids) ↔ ScoresPassCut retriever query topK f := by
  have hreturned := retriever.returnedIds_eq query topK
  constructor
  · rintro ⟨ids, hids⟩
    have hbest : ids = best (stopAt topK) (retriever.keeps query topK)
        (retriever.orderedIds query topK) := by
      have hok := hids.returned.symm.trans hreturned
      exact Except.ok.inj hok
    have hlength := hids.length_le
    have hoffered := hids.offered
    rw [hbest, length_best] at hlength hoffered
    exact {
      sameSign := (returnedIds_mapScores_iff f).1 (hids.image.trans hids.returned.symm)
      asked := (length_best_le_iff _).1 hlength
      positive := offered_iff.1 hoffered }
  · intro h
    refine ⟨best (stopAt topK) (retriever.keeps query topK) (retriever.orderedIds query topK), ?_⟩
    exact {
      returned := hreturned
      image := ((returnedIds_mapScores_iff f).2 h.sameSign).trans hreturned
      nodup := ((retriever.nodup_orderedIds query topK).sublist List.filter_sublist).sublist
        (List.take_sublist _ _)
      length_le := by
        rw [length_best]
        exact (length_best_le_iff _).2 h.asked
      fromPool := by
        intro id hid
        obtain ⟨hmem, hkept⟩ := mem_of_mem_best hid
        unfold keeps at hkept
        exact ⟨(retriever.mem_orderedIds_iff query topK id).1 hmem, ((Bool.and_eq_true _ _).mp hkept).2⟩
      offered := by
        rw [length_best]
        exact offered_iff.2 h.positive }

end OrderOnly

/-- A cross-encoder that gives every text a negative score, as logits may be. -/
def negativeLogits : Reranker where
  rerank := fun _ candidates => candidates.map (fun candidate => (candidate.1, -1))
  nodup_rerank := fun _ candidates h => by rwa [List.map_map]
  rerank_subset := fun _ candidates => by rw [List.map_map]; exact List.Subset.refl _

def oneChunk : HybridRetriever where
  dense := fun _ _ => [("c", 1)]
  lexical := fun _ _ => [("c", 1)]
  hydrate := fun cid => some {
    text := some "a", similarity := 0, contextWindow := none, documentId := "d", sourceUri := none
    chunkKind := "text", metadata := Dict.set KeyedList.empty "chunk_id" (.str cid) }
  textLookup := fun _ => some "a"
  config := {
    rerank := true, reranker := some negativeLogits, rrfK_pos := by decide
    candidatePool_pos := by decide, isSome_reranker := fun _ => rfl
    isSome_rewriter := fun h => absurd h Bool.false_ne_true }
  str?_of_hydrate := by
    rintro cid chunk h
    injection h with hchunk
    rw [← hchunk]
    exact Dict.str?_set_self KeyedList.empty "chunk_id" cid

/-- Two more on each score brings the chunk back; and a search for no results returns one. -/
theorem not_orderOnly_oneChunk : StrictMono (fun score : Rat => score + 2)
      ∧ (¬ ∃ ids, OrderOnly oneChunk "q" 1 (fun score => score + 2) ids)
      ∧ ¬ ∃ ids, OrderOnly (oneChunk.mapScores (fun score => score + 2)) "q" 0 id ids := by
  refine ⟨fun a b h => by simpa using h, ?_, ?_⟩
  · rintro ⟨ids, h⟩
    have hnone : oneChunk.returnedIds "q" 1 = .ok [] := by decide +kernel
    have hone : (oneChunk.mapScores (fun score => score + 2)).returnedIds "q" 1 = .ok ["c"] := by
      decide +kernel
    have hids := Except.ok.inj (h.returned.symm.trans hnone)
    have hids' := Except.ok.inj (h.image.symm.trans hone)
    rw [hids] at hids'
    exact absurd hids' (by simp)
  · rintro ⟨ids, h⟩
    have hone : (oneChunk.mapScores (fun score => score + 2)).returnedIds "q" 0 = .ok ["c"] := by
      decide +kernel
    have hids := Except.ok.inj (h.returned.symm.trans hone)
    have hlength := h.length_le
    rw [hids] at hlength
    exact absurd hlength (by decide)

end Himmy
