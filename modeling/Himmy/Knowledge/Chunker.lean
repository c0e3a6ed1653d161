import Mathlib.Logic.Relation
import Mathlib.Data.List.Basic
import Himmy.Core.Text

/-! # The window chunker

`SemanticChunker` cuts a text into overlapping windows on natural boundaries. A window that adds
fewer than `min_new_chars` characters to what is covered is skipped, unless it is the last one, which
is folded into the chunk before it. A skipped window leaves a gap: the loop goes on at its end, with
the end of the last chunk where it was. -/

namespace Himmy

/-- A configuration that `SemanticChunker.__init__` accepts. -/
structure SemanticChunker where
  maxChars : Nat
  overlap : Nat
  minNewChars : Nat
  maxChars_pos : 0 < maxChars
  overlap_lt : overlap < maxChars
  minNewChars_pos : 1 ≤ minNewChars

def SemanticChunker.init (maxChars overlap minNewChars : Int) : Except String SemanticChunker :=
  if hmax : maxChars ≤ 0 then .error "max_chars must be positive"
  else if hoverlap : overlap < 0 ∨ maxChars ≤ overlap then
    .error "overlap must be in [0, max_chars)"
  else if hnew : minNewChars < 1 then .error "min_new_chars must be >= 1"
  else .ok
    { maxChars := maxChars.toNat
      overlap := overlap.toNat
      minNewChars := minNewChars.toNat
      maxChars_pos := by omega
      overlap_lt := by omega
      minNewChars_pos := by omega }

theorem SemanticChunker.init_eq_ok (chunker : SemanticChunker) :
    SemanticChunker.init chunker.maxChars chunker.overlap chunker.minNewChars = .ok chunker := by
  have hpos := chunker.maxChars_pos
  have hoverlap := chunker.overlap_lt
  have hnew := chunker.minNewChars_pos
  unfold SemanticChunker.init
  rw [dif_neg (by omega), dif_neg (by omega), dif_neg (by omega)]
  rfl

/-- A `(start, end, text)` triple. -/
structure Chunk where
  start : Nat
  stop : Nat
  text : List Char
  deriving DecidableEq

/-- `text[start:end]`. -/
def slice (text : List Char) (start stop : Nat) : List Char := (text.take stop).drop start

def rfind (sep window : List Char) : Option Nat :=
  (List.range (window.length + 1)).reverse.find? (fun idx => sep.isPrefixOf (window.drop idx))

def separators : List (List Char) := ["\n\n".toList, "\n".toList, ". ".toList, " ".toList]

/-- The locals of `chunk`; `prevEnd` is `none` for -1. -/
structure ChunkState where
  chunks : List Chunk := []
  start : Nat := 0
  prevEnd : Option Nat := none
  deriving DecidableEq

namespace SemanticChunker

variable (chunker : SemanticChunker) (text : List Char)

/-- The loop of `_find_boundary`: the first separator whose last place keeps the window reasonably
    full. -/
def boundary (start : Nat) (window : List Char) : Option Nat :=
  separators.findSome? (fun sep =>
    ((rfind sep window).filter (fun idx => chunker.maxChars / 2 ≤ idx)).map
      (fun idx => start + idx + sep.length))

def findBoundary (start stop : Nat) : Nat :=
  (chunker.boundary start (slice text start stop)).getD stop

def windowEnd (start : Nat) : Nat :=
  let stop := min (start + chunker.maxChars) text.length
  if stop < text.length then chunker.findBoundary text start stop else stop

def tooLittle (s : ChunkState) : Bool :=
  s.prevEnd.any (fun prevEnd => chunker.windowEnd text s.start < prevEnd + chunker.minNewChars)

/-- The body of the loop: it breaks with the chunks, or goes on. -/
def iterate (s : ChunkState) : List Chunk ⊕ ChunkState :=
  let stop := chunker.windowEnd text s.start
  let chunk : Chunk := { start := s.start, stop, text := slice text s.start stop }
  if chunker.tooLittle text s then
    if text.length ≤ stop then
      -- the tail is folded into the last chunk
      match s.chunks.getLast? with
      | some last =>
        .inl (s.chunks.dropLast ++ [{ last with stop, text := slice text last.start stop }])
      | none => .inl (s.chunks ++ [chunk])
    else .inr { s with start := stop }
  else if text.length ≤ stop then .inl (s.chunks ++ [chunk])
  else
    let effectiveOverlap := min chunker.overlap ((stop - s.start) / 2)
    let nextStart := stop - effectiveOverlap
    .inr { chunks := s.chunks ++ [chunk]
           start := if s.start < nextStart then nextStart else stop
           prevEnd := some stop }

/-! ## Windows -/

variable {chunker text}

theorem rfind_spec {sep window : List Char} {idx : Nat} (h : rfind sep window = some idx) :
    sep <+: window.drop idx ∧ idx + sep.length ≤ window.length := by
  unfold rfind at h
  have hbegins : sep <+: window.drop idx := by
    have hfound := List.find?_some h
    exact List.isPrefixOf_iff_prefix.1 hfound
  have hmem : idx < window.length + 1 := by simpa using List.mem_of_find?_eq_some h
  have hlen := hbegins.length_le
  rw [List.length_drop] at hlen
  exact ⟨hbegins, by omega⟩

theorem length_slice (start : Nat) {stop : Nat} (h : stop ≤ text.length) :
    (slice text start stop).length = stop - start := by
  simp [slice, h]

theorem boundary_spec {start boundary : Nat} {window : List Char}
    (h : chunker.boundary start window = some boundary) :
    ∃ sep ∈ separators, ∃ idx, chunker.maxChars / 2 ≤ idx ∧ boundary = start + idx + sep.length
      ∧ sep <+: window.drop idx ∧ idx + sep.length ≤ window.length := by
  obtain ⟨sep, hsep, hmap⟩ := List.exists_of_findSome?_eq_some h
  obtain ⟨idx, hidx, rfl⟩ := Option.map_eq_some_iff.1 hmap
  obtain ⟨hrfind, hhalf⟩ := Option.filter_eq_some_iff.1 hidx
  exact ⟨sep, hsep, idx, of_decide_eq_true hhalf, rfl, rfind_spec hrfind⟩

theorem length_pos_of_mem_separators {sep : List Char} (h : sep ∈ separators) : 0 < sep.length := by
  have hall : ∀ sep ∈ separators, 0 < sep.length := by decide
  exact hall sep h

variable (chunker) in
theorem findBoundary_bounds {start : Nat} (hstop : start + chunker.maxChars ≤ text.length) :
    start + chunker.maxChars / 2 < chunker.findBoundary text start (start + chunker.maxChars)
      ∧ chunker.findBoundary text start (start + chunker.maxChars) ≤ start + chunker.maxChars := by
  have hpos := chunker.maxChars_pos
  unfold findBoundary
  cases hfound : chunker.boundary start (slice text start (start + chunker.maxChars)) with
  | none =>
    rw [Option.getD_none]
    omega
  | some boundary =>
    obtain ⟨sep, hsep, idx, hhalf, rfl, -, hfits⟩ := boundary_spec hfound
    have hlen := length_pos_of_mem_separators hsep
    rw [length_slice start hstop] at hfits
    rw [Option.getD_some]
    omega

variable (chunker) in
theorem windowEnd_bounds {start : Nat} (h : start < text.length) :
    start < chunker.windowEnd text start ∧ chunker.windowEnd text start ≤ text.length
      ∧ chunker.windowEnd text start ≤ start + chunker.maxChars
      ∧ (chunker.windowEnd text start < text.length →
        start + chunker.maxChars / 2 < chunker.windowEnd text start) := by
  have hpos := chunker.maxChars_pos
  unfold windowEnd
  by_cases hinside : min (start + chunker.maxChars) text.length < text.length
  · have hmin : min (start + chunker.maxChars) text.length = start + chunker.maxChars := by omega
    simp only [hmin] at hinside ⊢
    have hboundary := findBoundary_bounds chunker hinside.le
    rw [if_pos hinside]
    omega
  · simp only [if_neg hinside]
    omega

/-! ## The loop -/

theorem lt_start_of_iterate {s s' : ChunkState} (hs : s.start < text.length)
    (h : chunker.iterate text s = .inr s') : s.start < s'.start := by
  have hbounds := windowEnd_bounds chunker hs
  unfold iterate at h
  simp only at h
  split at h
  · split at h
    · split at h <;> cases h
    · cases h
      exact hbounds.1
  · split at h
    · cases h
    · cases h
      show s.start < if _ then _ else _
      split <;> omega

variable (chunker text) in
def chunkLoop (s : ChunkState) : List Chunk :=
  if hs : s.start < text.length then
    match h : chunker.iterate text s with
    | .inl chunks => chunks
    | .inr s' => chunkLoop s'
  else s.chunks
termination_by text.length - s.start
decreasing_by
  have hlt := lt_start_of_iterate hs h
  omega

variable (chunker text) in
def chunk : List Chunk := if text = [] then [] else chunker.chunkLoop text {}

end SemanticChunker

end Himmy
