import Himmy.Core.Json
import Mathlib.Algebra.Field.Defs
import Mathlib.Data.List.Sort
import Mathlib.Data.String.Basic

/-! # The lexical index

`BM25Index` keeps the term frequencies of each chunk, and beside them statistics of the corpus that
every addition and removal adjusts: the lengths, their sum, and the number of documents with each
token. The table of inverse document frequencies is built at the first search after a change. -/

namespace Himmy

open KeyedList (erase empty map)

namespace Dict

variable {ν : Type}

/-- Put under a key what `g` makes of the value that is there; `none` removes it. -/
def alter (d : Dict ν) (k : String) (g : Option ν → Option ν) : Dict ν :=
  match g (find? d k) with
  | some v => set d k v
  | none => erase d k

theorem find?_erase (d : Dict ν) (k k' : String) :
    find? (erase d k) k' = if k' = k then none else find? d k' := by
  unfold find?
  rw [KeyedList.get?_erase]
  split_ifs <;> rfl

theorem find?_alter (d : Dict ν) (k k' : String) (g : Option ν → Option ν) : find? (alter d k g) k'
      = if k' = k then g (find? d k) else find? d k' := by
  unfold alter
  cases hg : g (find? d k) with
  | none => exact find?_erase d k k'
  | some v => exact find?_set d k k' v

theorem find?_foldl_alter (g : Option ν → Option ν) (keys : List String) (hkeys : keys.Nodup)
    (d : Dict ν) (k : String) : find? (keys.foldl (fun d key => alter d key g) d) k
      = if k ∈ keys then g (find? d k) else find? d k := by
  induction keys generalizing d with
  | nil => simp
  | cons key keys ih =>
    rw [List.nodup_cons] at hkeys
    rw [List.foldl_cons, ih hkeys.2, find?_alter]
    by_cases hk : k = key
    · subst hk
      simp [hkeys.1]
    · simp [hk]

end Dict

namespace Knowledge

/-! ## Tokens -/

/-- A character of `[a-z0-9]`. -/
def isTokenChar (c : Char) : Bool := ('a' ≤ c && c ≤ 'z') || ('0' ≤ c && c ≤ '9')

/-- `re.findall(r"[a-z0-9]+", text)`, where `token` are the last characters read. -/
def findTokens : List Char → List Char → List String
  | [], token => if token.isEmpty then [] else [String.ofList token]
  | c :: cs, token =>
    if isTokenChar c then findTokens cs (token ++ [c])
    else (if token.isEmpty then [] else [String.ofList token]) ++ findTokens cs []

/-- `DeterministicEmbedder._tokenize`, for a `str.lower`. -/
def tokenize (lower : String → String) (text : String) : List String :=
  let tokens := findTokens (lower text).toList []
  if tokens.isEmpty then [lower text] else tokens

def termFrequencies (tokens : List String) : Dict Nat :=
  tokens.foldl (fun tf token => Dict.set tf token ((Dict.find? tf token).getD 0 + 1)) empty

/-! ## The index -/

/-- `BM25Index`, over the scores of a field. -/
structure BM25Index (R : Type) where
  k1 : R
  b : R
  postings : Dict (Dict Nat) := empty
  lengths : Dict Int := empty
  docFreq : Dict Int := empty
  totalLen : Int := 0
  idf : Option (Dict R) := none

namespace BM25Index

def fresh {R : Type} [Field R] : BM25Index R := { k1 := 3 / 2, b := 3 / 4 }

def decrement (n : Option Int) : Option Int :=
  let remaining := n.getD 0 - 1
  if remaining ≤ 0 then none else some remaining

def increment (n : Option Int) : Option Int := some (n.getD 0 + 1)

section

variable {R : Type} (index : BM25Index R)

def remove (chunkId : String) : BM25Index R :=
  match index.postings.find? chunkId with
  | none => index
  | some tf =>
    { index with
      postings := erase index.postings chunkId
      lengths := erase index.lengths chunkId
      totalLen := index.totalLen - (index.lengths.find? chunkId).getD 0
      docFreq := (tf.items.map Prod.fst).foldl (fun df token => df.alter token decrement) index.docFreq
      idf := none }

/-- What `add` does with the tokens of a chunk that is not there. -/
def insert (chunkId : String) (tokens : List String) : BM25Index R :=
  if tokens.isEmpty then index
  else
    let tf := termFrequencies tokens
    { index with
      postings := index.postings.set chunkId tf
      lengths := index.lengths.set chunkId tokens.length
      totalLen := index.totalLen + tokens.length
      docFreq := (tf.items.map Prod.fst).foldl (fun df token => df.alter token increment) index.docFreq
      idf := none }

def add (lower : String → String) (chunkId text : String) : BM25Index R :=
  (if (index.postings.find? chunkId).isSome then index.remove chunkId else index).insert chunkId
    (tokenize lower text)

end

section Search

variable {R : Type} [Field R] [LinearOrder R] (index : BM25Index R)

/-- The inverse document frequencies, for a `math.log`. -/
def idfTable (log : R → R) : Dict R :=
  map index.docFreq
    (fun entry => (entry.1, log (1 + (index.postings.items.length - entry.2 + 1 / 2) / (entry.2 + 1 / 2))))
    (fun _ _ => rfl)

def ensureIdf (log : R → R) : BM25Index R × Dict R :=
  match index.idf with
  | some idf => (index, idf)
  | none => ({ index with idf := some (index.idfTable log) }, index.idfTable log)

def avgLen : R := if index.postings.items.isEmpty then 0 else index.totalLen / index.postings.items.length

def tokenScore (idf : Dict R) (length : Int) (tf : Dict Nat) (token : String) : R :=
  let freq := (tf.find? token).getD 0
  if freq = 0 then 0
  else
    let denom := freq + index.k1
      * (1 - index.b + index.b * (if index.avgLen ≠ 0 then length / index.avgLen else 0))
    if denom ≠ 0 then (idf.find? token).getD 0 * (freq * (index.k1 + 1)) / denom else 0

def scored (idf : Dict R) (queryTokens : List String) : List (String × R) :=
  index.postings.items.filterMap (fun entry =>
    let length := (index.lengths.find? entry.1).getD 0
    let score := (queryTokens.map (index.tokenScore idf length entry.2)).sum
    if 0 < score then some (entry.1, score) else none)

def Ranks (a b : String × R) : Prop := b.2 < a.2 ∨ a.2 = b.2 ∧ a.1 ≤ b.1

instance : DecidableRel (Ranks (R := R)) := fun a b =>
  inferInstanceAs (Decidable (b.2 < a.2 ∨ a.2 = b.2 ∧ a.1 ≤ b.1))

/-- `search`: the index, with its table, and the results. -/
def search (log : R → R) (lower : String → String) (query : String) (topK : Int) :
    BM25Index R × List (String × R) :=
  if topK ≤ 0 ∨ index.postings.items = [] then (index, [])
  else
    let queryTokens := (tokenize lower query).dedup
    if queryTokens.isEmpty then (index, [])
    else
      let ensured := index.ensureIdf log
      (ensured.1, ((ensured.1.scored ensured.2 queryTokens).insertionSort Ranks).take topK.toNat)

end Search

end BM25Index

end Knowledge

end Himmy
