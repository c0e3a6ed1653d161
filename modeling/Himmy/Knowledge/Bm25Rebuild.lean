import Himmy.Knowledge.Bm25
import Mathlib.Algebra.BigOperators.Group.List.Basic
import Mathlib.Algebra.Ring.Int.Defs

/-! # The incremental index and a rebuilt one

The statistics of an index say what they say of the texts that it holds (`Represents`), whatever
additions, removals and searches led to it, and the order of the texts plays no part. So the index
and one that is built anew from the same texts answer alike. -/

namespace Himmy.Knowledge

open BM25Index
open KeyedList (get? erase empty get?_map)
open Dict (find? find?_eq_some_iff find?_erase find?_set)

/-! ## Dictionaries up to order -/

variable {ν : Type}

theorem items_perm {d d' : Dict ν} (h : ∀ k, d.find? k = d'.find? k) : d.items.Perm d'.items := by
  refine KeyedList.perm_of_get?_eq (fun k => ?_)
  have hget : ∀ d : Dict ν, get? d k = (d.find? k).map (fun v => (k, v)) := by
    intro d
    unfold find?
    cases hd : get? d k with
    | none => rfl
    | some a => rw [← KeyedList.key_of_get? hd]; rfl
  rw [hget d, hget d', h k]

theorem perm_cons_erase {d : Dict ν} {k : String} {v : ν} (h : d.find? k = some v) :
    d.items.Perm ((k, v) :: (erase d k).items) :=
  KeyedList.perm_cons_erase (KeyedList.get?_of_mem d (find?_eq_some_iff.1 h))

theorem erase_of_find?_eq_none {d : Dict ν} {k : String} (h : d.find? k = none) (k' : String) :
    find? (erase d k) k' = d.find? k' := by
  rw [find?_erase]
  split_ifs with hk
  · rw [hk, h]
  · rfl

theorem items_set_of_find?_eq_none {d : Dict ν} {k : String} (h : d.find? k = none) (v : ν) :
    (d.set k v).items = d.items ++ [(k, v)] :=
  KeyedList.items_put_of_none d (k, v) (Option.map_eq_none_iff.1 h)

theorem find?_ofList_items (d : Dict ν) (k : String) :
    (Dict.ofList d.items).find? k = d.find? k := by
  cases h : d.find? k with
  | some v => exact Dict.find?_ofList_of_mem d.nodup_keys (find?_eq_some_iff.1 h)
  | none =>
    refine Option.eq_none_iff_forall_ne_some.2 (fun v hv => ?_)
    rcases Dict.find?_foldl_set_cases Prod.fst Prod.snd d.items empty hv with
      ⟨e, he, rfl, rfl⟩ | hempty
    · rw [find?_eq_some_iff.2 he] at h
      cases h
    · cases hempty

/-! ## Term frequencies -/

theorem tokenize_ne_nil (lower : String → String) (text : String) : tokenize lower text ≠ [] := by
  unfold tokenize
  dsimp only
  split_ifs with h
  · simp
  · simpa using h

theorem isSome_find?_termFrequencies (tokens : List String) (token : String) :
    ((termFrequencies tokens).find? token).isSome = true ↔ token ∈ tokens := by
  have hfold : ∀ tf : Dict Nat, ((tokens.foldl (fun tf token =>
      tf.set token ((tf.find? token).getD 0 + 1)) tf).find? token).isSome = true
      ↔ token ∈ tokens ∨ (tf.find? token).isSome = true := by
    induction tokens with
    | nil => simp
    | cons t tokens ih =>
      intro tf
      rw [List.foldl_cons, ih, find?_set, List.mem_cons]
      by_cases ht : token = t <;> simp [ht]
  refine (hfold empty).trans (or_iff_left ?_)
  exact Bool.false_ne_true

theorem mem_keys_termFrequencies (tokens : List String) (token : String) :
    token ∈ (termFrequencies tokens).items.map Prod.fst ↔ token ∈ tokens := by
  rw [← isSome_find?_termFrequencies tokens, Option.isSome_iff_exists, List.mem_map]
  constructor
  · rintro ⟨⟨k, n⟩, hmem, rfl⟩
    exact ⟨n, find?_eq_some_iff.2 hmem⟩
  · rintro ⟨n, hn⟩
    exact ⟨(token, n), find?_eq_some_iff.1 hn, rfl⟩

/-- The document frequency of a token that `n` documents have. -/
def ofCount (n : Nat) : Option Int := if n = 0 then none else some n

theorem decrement_ofCount (n : Nat) : decrement (ofCount (n + 1)) = ofCount n := by
  unfold decrement ofCount
  rw [if_neg (Nat.succ_ne_zero n)]
  simp only [Option.getD_some]
  split_ifs <;> first | rfl | omega | (congr 1; omega)

theorem increment_ofCount (n : Nat) : increment (ofCount n) = ofCount (n + 1) := by
  unfold increment ofCount
  rw [if_neg (Nat.succ_ne_zero n)]
  split_ifs with h
  · simp [h]
  · simp

/-! ## What an index holds -/

section Represents

variable {R : Type} [Field R] {log : R → R} {lower : String → String} {k1 b : R}
  {texts : Dict String} {index : BM25Index R}

/-- The statistics are those of the texts, and the table, if there is one, those of the statistics. -/
structure Represents (log : R → R) (lower : String → String) (k1 b : R) (texts : Dict String)
    (index : BM25Index R) : Prop where
  k1 : index.k1 = k1
  b : index.b = b
  postings : ∀ id, index.postings.find? id
    = (texts.find? id).map (fun text => termFrequencies (tokenize lower text))
  lengths : ∀ id, index.lengths.find? id
    = (texts.find? id).map (fun text => ((tokenize lower text).length : Int))
  totalLen : index.totalLen = (texts.items.map (fun e => ((tokenize lower e.2).length : Int))).sum
  docFreq : ∀ token, index.docFreq.find? token
    = ofCount (texts.items.countP (fun e => token ∈ tokenize lower e.2))
  idf : ∀ table ∈ index.idf, table = index.idfTable log

theorem represents_empty : Represents log lower k1 b empty { k1 := k1, b := b } where
  k1 := rfl
  b := rfl
  postings := fun _ => rfl
  lengths := fun _ => rfl
  totalLen := rfl
  docFreq := fun _ => rfl
  idf := by simp

section

variable (h : Represents log lower k1 b texts index)

include h

theorem Represents.congr {texts' : Dict String}
    (hsame : ∀ id, texts.find? id = texts'.find? id) : Represents log lower k1 b texts' index := by
  have hperm := items_perm hsame
  exact {
    k1 := h.k1
    b := h.b
    postings := fun id => by rw [h.postings, hsame]
    lengths := fun id => by rw [h.lengths, hsame]
    totalLen := by rw [h.totalLen, (hperm.map _).sum_eq]
    docFreq := fun token => by rw [h.docFreq, hperm.countP_eq]
    idf := h.idf }

theorem Represents.remove (id : String) :
    Represents log lower k1 b (erase texts id) (index.remove id) := by
  have hpostings := h.postings id
  cases htext : texts.find? id with
  | none =>
    rw [htext] at hpostings
    have hremove : index.remove id = index := by
      unfold BM25Index.remove
      rw [hpostings]
      rfl
    rw [hremove]
    exact h.congr (fun k => (erase_of_find?_eq_none htext k).symm)
  | some text =>
    rw [htext, Option.map_some] at hpostings
    unfold BM25Index.remove
    simp only [hpostings]
    have hperm := perm_cons_erase htext
    have hlength : (index.lengths.find? id).getD 0 = ((tokenize lower text).length : Int) := by
      rw [h.lengths, htext]
      rfl
    exact {
      k1 := h.k1
      b := h.b
      postings := fun k => by
        show find? (erase index.postings id) k = _
        rw [find?_erase, find?_erase, h.postings]
        split_ifs <;> rfl
      lengths := fun k => by
        show find? (erase index.lengths id) k = _
        rw [find?_erase, find?_erase, h.lengths]
        split_ifs <;> rfl
      totalLen := by
        show index.totalLen - (index.lengths.find? id).getD 0 = _
        rw [hlength, h.totalLen, (hperm.map _).sum_eq, List.map_cons, List.sum_cons]
        exact add_sub_cancel_left _ _
      docFreq := fun token => by
        show find? (((termFrequencies (tokenize lower text)).items.map Prod.fst).foldl
          (fun df token => df.alter token decrement) index.docFreq) token = _
        rw [Dict.find?_foldl_alter _ _ (KeyedList.nodup_keys _), h.docFreq, hperm.countP_eq,
          List.countP_cons]
        by_cases hmem : token ∈ tokenize lower text
        · rw [if_pos ((mem_keys_termFrequencies _ _).2 hmem)]
          simpa [hmem] using decrement_ofCount _
        · rw [if_neg (fun hkey => hmem ((mem_keys_termFrequencies _ _).1 hkey))]
          simp [hmem]
      idf := by simp }

theorem Represents.insert {id : String} (hid : texts.find? id = none) (text : String) :
    Represents log lower k1 b (texts.set id text) (index.insert id (tokenize lower text)) := by
  have hempty : (tokenize lower text).isEmpty = false := by
    simpa using tokenize_ne_nil lower text
  unfold BM25Index.insert
  rw [hempty, if_neg Bool.false_ne_true]
  exact {
    k1 := h.k1
    b := h.b
    postings := fun k => by
      rw [find?_set, find?_set, h.postings]
      split_ifs <;> rfl
    lengths := fun k => by
      rw [find?_set, find?_set, h.lengths]
      split_ifs <;> rfl
    totalLen := by
      rw [items_set_of_find?_eq_none hid, List.map_append, List.sum_append, h.totalLen]
      simp
    docFreq := fun token => by
      rw [Dict.find?_foldl_alter _ _ (KeyedList.nodup_keys _), h.docFreq,
        items_set_of_find?_eq_none hid, List.countP_append, List.countP_singleton]
      by_cases hmem : token ∈ tokenize lower text
      · rw [if_pos ((mem_keys_termFrequencies _ _).2 hmem)]
        simpa [hmem] using increment_ofCount _
      · rw [if_neg (fun hkey => hmem ((mem_keys_termFrequencies _ _).1 hkey))]
        simp [hmem]
    idf := by simp }

theorem Represents.add (id text : String) :
    Represents log lower k1 b (texts.set id text) (index.add lower id text) := by
  have hsome : (index.postings.find? id).isSome = (texts.find? id).isSome := by
    rw [h.postings, Option.isSome_map]
  unfold BM25Index.add
  cases htext : texts.find? id with
  | none =>
    rw [hsome, htext, Option.isSome_none, if_neg Bool.false_ne_true]
    exact h.insert htext text
  | some old =>
    rw [hsome, htext, Option.isSome_some, if_pos rfl]
    have hgone : find? (erase texts id) id = none := by
      rw [find?_erase, if_pos rfl]
    refine ((h.remove id).insert hgone text).congr (fun k => ?_)
    rw [find?_set, find?_set, find?_erase]
    split_ifs <;> rfl

theorem ensureIdf_snd : (index.ensureIdf log).2 = index.idfTable log := by
  unfold ensureIdf
  cases htable : index.idf with
  | none => rfl
  | some table => exact h.idf table htable

end

theorem ensureIdf_fst (log : R → R) (index : BM25Index R) :
    (index.ensureIdf log).1 = index ∨ (index.ensureIdf log).1 = { index with idf := some (index.idfTable log) } := by
  unfold ensureIdf
  cases index.idf with
  | none => exact Or.inr rfl
  | some table => exact Or.inl rfl

theorem Represents.ensured (h : Represents log lower k1 b texts index) :
    Represents log lower k1 b texts (index.ensureIdf log).1 := by
  rcases ensureIdf_fst log index with heq | heq
  · rw [heq]
    exact h
  · rw [heq]
    exact ⟨h.k1, h.b, h.postings, h.lengths, h.totalLen, h.docFreq, by simp [idfTable]⟩

theorem Represents.search [LinearOrder R] (h : Represents log lower k1 b texts index) (query : String)
    (topK : Int) : Represents log lower k1 b texts (index.search log lower query topK).1 := by
  unfold BM25Index.search
  dsimp only
  split_ifs
  · exact h
  · exact h
  · exact h.ensured

end Represents

/-! ## Searching -/

section Search

variable {R : Type} [Field R] [LinearOrder R] {log : R → R} {lower : String → String} {k1 b : R}
  {texts : Dict String} {index index' : BM25Index R}

omit [Field R] in
theorem ranks_antisymm {x y : String × R} (hxy : Ranks x y) (hyx : Ranks y x) : x = y := by
  rcases hxy with hxy | ⟨hscore, hxy⟩
  · rcases hyx with hyx | ⟨hscore, -⟩
    · exact absurd hyx (lt_asymm hxy)
    · exact absurd hscore.symm hxy.ne'
  · rcases hyx with hyx | ⟨-, hyx⟩
    · exact absurd hscore hyx.ne
    · exact Prod.ext (le_antisymm hxy hyx) hscore

instance : Std.Antisymm (Ranks (R := R)) := ⟨fun _ _ => ranks_antisymm⟩

instance : Std.Total (Ranks (R := R)) where
  total x y := by
    rcases lt_trichotomy x.2 y.2 with h | h | h
    · exact Or.inr (Or.inl h)
    · rcases le_total x.1 y.1 with hid | hid
      · exact Or.inl (Or.inr ⟨h, hid⟩)
      · exact Or.inr (Or.inr ⟨h.symm, hid⟩)
    · exact Or.inl (Or.inl h)

instance : IsTrans (String × R) Ranks where
  trans x y z hxy hyz := by
    rcases hxy with hxy | ⟨hscore, hxy⟩
    · rcases hyz with hyz | ⟨hscore, -⟩
      · exact Or.inl (hyz.trans hxy)
      · exact Or.inl (hscore ▸ hxy)
    · rcases hyz with hyz | ⟨hscore', hyz⟩
      · exact Or.inl (hscore ▸ hyz)
      · exact Or.inr ⟨hscore.trans hscore', hxy.trans hyz⟩

omit [Field R] in
theorem insertionSort_eq_of_perm {l l' : List (String × R)} (h : l.Perm l') :
    l.insertionSort Ranks = l'.insertionSort Ranks :=
  List.Perm.eq_of_pairwise' (List.pairwise_insertionSort Ranks l) (List.pairwise_insertionSort Ranks l')
    ((List.perm_insertionSort Ranks l).trans (h.trans (List.perm_insertionSort Ranks l').symm))

omit [LinearOrder R] in
theorem Represents.postings_perm (h : Represents log lower k1 b texts index)
    (h' : Represents log lower k1 b texts index') : index.postings.items.Perm index'.postings.items :=
  items_perm (fun id => (h.postings id).trans (h'.postings id).symm)

omit [LinearOrder R] in
theorem find?_idfTable (log : R → R) (index : BM25Index R) (token : String) :
    (index.idfTable log).find? token = (index.docFreq.find? token).map
      (fun df : Int => log (1 + (index.postings.items.length - (df : R) + 1 / 2) / ((df : R) + 1 / 2))) := by
  unfold idfTable find?
  rw [get?_map, Option.map_map, Option.map_map]
  rfl

theorem Represents.tokenScore_eq (h : Represents log lower k1 b texts index)
    (h' : Represents log lower k1 b texts index') {idf idf' : Dict R}
    (hidf : ∀ token, idf.find? token = idf'.find? token) (length : Int) (tf : Dict Nat) :
    index.tokenScore idf length tf = index'.tokenScore idf' length tf := by
  have hperm := h.postings_perm h'
  have havg : index.avgLen = index'.avgLen := by
    unfold avgLen
    rw [h.totalLen, h'.totalLen, hperm.length_eq, hperm.isEmpty_eq]
  funext token
  unfold tokenScore
  rw [h.k1, h'.k1, h.b, h'.b, havg, hidf]

theorem Represents.scored_perm (h : Represents log lower k1 b texts index)
    (h' : Represents log lower k1 b texts index') {idf idf' : Dict R}
    (hidf : ∀ token, idf.find? token = idf'.find? token) (queryTokens : List String) :
    (index.scored idf queryTokens).Perm (index'.scored idf' queryTokens) := by
  unfold scored
  have hlengths : ∀ id, index.lengths.find? id = index'.lengths.find? id := fun id =>
    (h.lengths id).trans (h'.lengths id).symm
  simp only [hlengths, h.tokenScore_eq h' hidf]
  exact (h.postings_perm h').filterMap _

theorem Represents.search_eq (h : Represents log lower k1 b texts index)
    (h' : Represents log lower k1 b texts index') (query : String) (topK : Int) :
    (index.search log lower query topK).2 = (index'.search log lower query topK).2 := by
  have hperm := h.postings_perm h'
  have hnil : index.postings.items = [] ↔ index'.postings.items = [] := by
    rw [← List.length_eq_zero_iff, hperm.length_eq, List.length_eq_zero_iff]
  have htable : ∀ token, (index.idfTable log).find? token = (index'.idfTable log).find? token := by
    intro token
    rw [find?_idfTable, find?_idfTable, h.docFreq, h'.docFreq, hperm.length_eq]
  have hensured := h.ensured
  have hensured' := h'.ensured
  unfold BM25Index.search
  simp only [hnil, ensureIdf_snd h, ensureIdf_snd h']
  split_ifs
  · rfl
  · rfl
  · rw [insertionSort_eq_of_perm (hensured.scored_perm hensured' htable _)]

end Search

/-! ## Runs -/

/-- A call of the index. -/
inductive Op where
  | add (chunkId text : String)
  | remove (chunkId : String)
  | search (query : String) (topK : Int)

section Runs

variable {R : Type} [Field R] [LinearOrder R] (log : R → R) (lower : String → String)

def BM25Index.step (index : BM25Index R) : Op → BM25Index R
  | .add chunkId text => index.add lower chunkId text
  | .remove chunkId => index.remove chunkId
  | .search query topK => (index.search log lower query topK).1

def Op.texts (texts : Dict String) : Op → Dict String
  | .add chunkId text => texts.set chunkId text
  | .remove chunkId => erase texts chunkId
  | .search _ _ => texts

def rebuild (k1 b : R) (texts : Dict String) : BM25Index R :=
  texts.items.foldl (fun index e => index.add lower e.1 e.2) { k1 := k1, b := b }

variable {log lower} {k1 b : R}

theorem Represents.step {texts : Dict String} {index : BM25Index R}
    (h : Represents log lower k1 b texts index) (op : Op) :
    Represents log lower k1 b (op.texts texts) (index.step log lower op) := by
  cases op with
  | add chunkId text => exact h.add chunkId text
  | remove chunkId => exact h.remove chunkId
  | search query topK => exact h.search query topK

theorem Represents.run {texts : Dict String} {index : BM25Index R}
    (h : Represents log lower k1 b texts index) (ops : List Op) :
    Represents log lower k1 b (ops.foldl Op.texts texts) (ops.foldl (BM25Index.step log lower) index) := by
  induction ops generalizing texts index with
  | nil => exact h
  | cons op ops ih => exact ih (h.step op)

omit [LinearOrder R] in
theorem represents_rebuild (log : R → R) (lower : String → String) (k1 b : R) (texts : Dict String) :
    Represents log lower k1 b texts (rebuild lower k1 b texts) := by
  have hfold : ∀ (l : List (String × String)) (d : Dict String) (index : BM25Index R),
      Represents log lower k1 b d index → Represents log lower k1 b
        (l.foldl (fun d e => d.set e.1 e.2) d) (l.foldl (fun index e => index.add lower e.1 e.2) index) := by
    intro l
    induction l with
    | nil => exact fun _ _ h => h
    | cons e l ih => exact fun d index h => ih _ _ (h.add e.1 e.2)
  refine (hfold texts.items empty _ represents_empty).congr (fun id => ?_)
  exact find?_ofList_items texts id

end Runs

/-- After any calls, the index answers as one that is built anew from the texts that are left, and has
    its statistics. -/
theorem run_eq_rebuild {R : Type} [Field R] [LinearOrder R] (log : R → R) (lower : String → String)
    (k1 b : R) (ops : List Op) :
    let index := ops.foldl (BM25Index.step log lower) { k1 := k1, b := b }
    let rebuilt := rebuild lower k1 b (ops.foldl Op.texts empty)
    (∀ query topK, (index.search log lower query topK).2 = (rebuilt.search log lower query topK).2)
      ∧ (∀ token, index.docFreq.find? token = rebuilt.docFreq.find? token)
      ∧ (∀ chunkId, index.lengths.find? chunkId = rebuilt.lengths.find? chunkId)
      ∧ index.totalLen = rebuilt.totalLen := by
  intro index rebuilt
  have h : Represents log lower k1 b (ops.foldl Op.texts empty) index :=
    represents_empty.run ops
  have h' : Represents log lower k1 b (ops.foldl Op.texts empty) rebuilt :=
    represents_rebuild log lower k1 b _
  refine ⟨fun query topK => h.search_eq h' query topK, fun token => ?_, fun chunkId => ?_, ?_⟩
  · rw [h.docFreq, h'.docFreq]
  · rw [h.lengths, h'.lengths]
  · rw [h.totalLen, h'.totalLen]

end Himmy.Knowledge
