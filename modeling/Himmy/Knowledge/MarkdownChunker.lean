import Himmy.Library.Cuts
import Himmy.Knowledge.ChunkCoverage

/-! # The heading-aware chunker

`MarkdownAwareChunker` cuts a text into sections in front of every line with a header of a split
level, and windows each section with a `SemanticChunker`, whose offsets it shifts back into the text.
No chunk reaches across such a header. The sections line up without a gap, so what is lost of a text
is what the window chunker drops of one of its sections (`chunk_respects_iff`). -/

namespace Himmy

open SemanticChunker (within_chunk length_slice slices_chunk getElem?_slice keepsText_iff
  exists_drops twoWords)

/-- `text.splitlines(keepends=True)`. -/
def splitLines : List Char → List (List Char)
  | [] => []
  | c :: cs =>
    if isLineBreak c && !(c = '\r' && cs.head? = some '\n') then [c] :: splitLines cs
    else match splitLines cs with
      | [] => [[c]]
      | line :: lines => (c :: line) :: lines

/-- `_HEADER_RE.match(line)`: the number of `#` of the header. -/
def headerLevel (line : List Char) : Option Nat :=
  let hashes := line.takeWhile (· = '#')
  let rest := line.dropWhile (· = '#')
  -- white space must follow the hashes, and something that is not white space must follow that
  if 1 ≤ hashes.length ∧ hashes.length ≤ 6 ∧ rest.head?.any isPySpace ∧ rest.dropWhile isPySpace ≠ []
  then some hashes.length else none

/-- A configuration that `MarkdownAwareChunker.__init__` accepts. -/
structure MarkdownAwareChunker where
  inner : SemanticChunker
  levels : List Nat
  levels_ne : levels ≠ []
  levels_le : ∀ level ∈ levels, 1 ≤ level ∧ level ≤ 6

theorem toNat_levels {headerSplitLevels : List Int}
    (h : ¬ headerSplitLevels.any (fun level => level < 1 || 6 < level)) :
    ∀ level ∈ headerSplitLevels.map Int.toNat, 1 ≤ level ∧ level ≤ 6 := by
  intro level hlevel
  obtain ⟨given, hgiven, rfl⟩ := List.mem_map.1 hlevel
  have hin : ¬ (given < 1 ∨ 6 < given) := by
    intro hout
    exact h (List.any_eq_true.2 ⟨given, hgiven, by simpa using hout⟩)
  omega

def MarkdownAwareChunker.init (maxChars overlap minNewChars : Int) (headerSplitLevels : List Int) :
    Except String MarkdownAwareChunker :=
  if hne : headerSplitLevels = [] then .error "header_split_levels must list at least one level"
  else if hlevels : headerSplitLevels.any (fun level => level < 1 || 6 < level) then
    .error "header_split_levels entries must be in [1, 6]"
  else (SemanticChunker.init maxChars overlap minNewChars).map fun inner =>
    { inner
      levels := headerSplitLevels.map Int.toNat
      levels_ne := fun h => hne (List.map_eq_nil_iff.1 h)
      levels_le := toNat_levels hlevels }

namespace MarkdownAwareChunker

theorem init_eq_ok (chunker : MarkdownAwareChunker) :
    init chunker.inner.maxChars chunker.inner.overlap chunker.inner.minNewChars
      (chunker.levels.map Int.ofNat) = .ok chunker := by
  have hne : chunker.levels.map Int.ofNat ≠ [] := fun h =>
    chunker.levels_ne (List.map_eq_nil_iff.1 h)
  have hlevels : ¬ (chunker.levels.map Int.ofNat).any (fun level => level < 1 || 6 < level) := by
    intro h
    obtain ⟨given, hgiven, hout⟩ := List.any_eq_true.1 h
    obtain ⟨level, hlevel, rfl⟩ := List.mem_map.1 hgiven
    have hin := chunker.levels_le level hlevel
    have hout : (level : Int) < 1 ∨ 6 < (level : Int) := by simpa using hout
    omega
  have hback : (chunker.levels.map Int.ofNat).map Int.toNat = chunker.levels := by
    rw [List.map_map]
    exact List.map_id _
  unfold init
  rw [dif_neg hne, dif_neg hlevels, SemanticChunker.init_eq_ok]
  simp only [Except.map, hback]

variable (chunker : MarkdownAwareChunker)

def qualifies (line : List Char) : Bool := (headerLevel line).any (fun level => level ∈ chunker.levels)

/-- An iteration of the loop of `_split_sections` over the boundaries and the offset. -/
def scanLine (s : List Nat × Nat) (line : List Char) : List Nat × Nat :=
  (if chunker.qualifies line && s.2 ≠ 0 && !s.1.contains s.2 then s.1 ++ [s.2] else s.1,
    s.2 + line.length)

variable (text : List Char)

/-- The `boundaries` of `_split_sections`. -/
def boundaries : List Nat :=
  ((splitLines text).foldl chunker.scanLine ([0], 0)).1 ++ [text.length]

def splitSections : List (Nat × Nat) :=
  (Cuts.spans (chunker.boundaries text)).filter (fun s => s.1 < s.2)

def chunkSection (part : Nat × Nat) : List Chunk :=
  (chunker.inner.chunk (slice text part.1 part.2)).map fun c =>
    { start := part.1 + c.start, stop := part.1 + c.stop
      text := slice text (part.1 + c.start) (part.1 + c.stop) }

def chunk : List Chunk :=
  if text = [] then [] else (chunker.splitSections text).flatMap (chunker.chunkSection text)

end MarkdownAwareChunker

/-! ## Lines -/

theorem flatten_splitLines (text : List Char) : (splitLines text).flatten = text := by
  induction text with
  | nil => rfl
  | cons c cs ih =>
    unfold splitLines
    split
    · rw [List.flatten_cons, ih, List.singleton_append]
    · split
      · next hnone =>
          rw [hnone] at ih
          simp [← ih]
      · next line lines hlines =>
          rw [hlines] at ih
          simp [← ih]

theorem ne_nil_of_mem_splitLines {text line : List Char} (h : line ∈ splitLines text) :
    line ≠ [] := by
  induction text generalizing line with
  | nil => cases h
  | cons c cs ih =>
    unfold splitLines at h
    split at h
    · rcases List.mem_cons.1 h with rfl | h
      · simp
      · exact ih h
    · split at h
      · rw [List.mem_singleton.1 h]
        simp
      · next line' lines hlines =>
          rcases List.mem_cons.1 h with rfl | h
          · simp
          · exact ih (hlines ▸ List.mem_cons_of_mem _ h)

theorem hash_mem_of_headerLevel {line : List Char} (h : headerLevel line ≠ none) : '#' ∈ line := by
  by_contra hnot
  have htake : line.takeWhile (· = '#') = [] := by
    cases line with
    | nil => rfl
    | cons c cs =>
      have hne : c ≠ '#' := fun he => hnot (he ▸ List.mem_cons_self)
      simp [hne]
  simp [headerLevel, htake] at h

namespace MarkdownAwareChunker

variable (chunker : MarkdownAwareChunker)

def HeaderAt (text : List Char) (p : Nat) : Prop :=
  ∃ before line after, splitLines text = before ++ line :: after ∧ before.flatten.length = p
    ∧ chunker.qualifies line = true

def headerStarts : Nat → List (List Char) → List Nat
  | _, [] => []
  | offset, line :: lines =>
    (if chunker.qualifies line then [offset] else []) ++ headerStarts (offset + line.length) lines

variable {chunker} {lines : List (List Char)}

theorem mem_headerStarts {offset p : Nat} :
    p ∈ chunker.headerStarts offset lines ↔ ∃ before line after, lines = before ++ line :: after
      ∧ offset + before.flatten.length = p ∧ chunker.qualifies line = true := by
  induction lines generalizing offset with
  | nil => simp [headerStarts]
  | cons first lines ih =>
    rw [headerStarts, List.mem_append, ih]
    constructor
    · rintro (hfirst | ⟨before, line, after, rfl, rfl, hline⟩)
      · split_ifs at hfirst with hline
        · exact ⟨[], first, lines, rfl, (List.mem_singleton.1 hfirst).symm, hline⟩
        · cases hfirst
      · exact ⟨first :: before, line, after, rfl, by simp [Nat.add_assoc], hline⟩
    · rintro ⟨before, line, after, hlines, rfl, hline⟩
      cases before with
      | nil =>
        obtain ⟨rfl, rfl⟩ := List.cons.inj hlines
        left
        simp [hline]
      | cons x before =>
        obtain ⟨rfl, rfl⟩ := List.cons.inj hlines
        exact Or.inr ⟨before, line, after, rfl, by simp [Nat.add_assoc], hline⟩

theorem pairwise_headerStarts (chunker : MarkdownAwareChunker) (offset : Nat)
    (hne : ∀ line ∈ lines, line ≠ []) : (chunker.headerStarts offset lines).Pairwise (· < ·)
      ∧ ∀ p ∈ chunker.headerStarts offset lines, offset ≤ p ∧ p < offset + lines.flatten.length := by
  induction lines generalizing offset with
  | nil => simp [headerStarts]
  | cons first lines ih =>
    have hpos := List.length_pos_iff.2 (hne first List.mem_cons_self)
    obtain ⟨hpairwise, hbounds⟩ := ih (offset + first.length)
      (fun line hline => hne line (List.mem_cons_of_mem _ hline))
    simp only [headerStarts, List.flatten_cons, List.length_append]
    constructor
    · rw [List.pairwise_append]
      refine ⟨by split_ifs <;> simp, hpairwise, ?_⟩
      intro p hp q hq
      have hq := hbounds q hq
      split_ifs at hp
      · rw [List.mem_singleton.1 hp]
        omega
      · cases hp
    · intro p hp
      rcases List.mem_append.1 hp with hp | hp
      · split_ifs at hp
        · rw [List.mem_singleton.1 hp]
          omega
        · cases hp
      · have hp := hbounds p hp
        omega

theorem foldl_scanLine {bs : List Nat} {offset : Nat}
    (hne : ∀ line ∈ lines, line ≠ []) (hbs : ∀ b ∈ bs, b < offset ∨ b = 0) :
    (lines.foldl chunker.scanLine (bs, offset)).1
      = bs ++ (chunker.headerStarts offset lines).filter (0 < ·) := by
  induction lines generalizing bs offset with
  | nil => simp [headerStarts]
  | cons first lines ih =>
    have hpos := List.length_pos_iff.2 (hne first List.mem_cons_self)
    have hrest : ∀ line ∈ lines, line ≠ [] := fun line hline =>
      hne line (List.mem_cons_of_mem _ hline)
    rw [List.foldl_cons, scanLine]
    by_cases hnew : chunker.qualifies first = true ∧ 0 < offset
    · -- no boundary is as far as the offset
      have hnot : offset ∉ bs := by
        intro hmem
        have hlt := hbs offset hmem
        omega
      have hoffset : offset ≠ 0 := by omega
      rw [if_pos (by simp [hnew.1, hnot, hoffset]), ih hrest]
      · simp [headerStarts, hnew.1, hnew.2]
      · intro b hb
        rcases List.mem_append.1 hb with hb | hb
        · have hb := hbs b hb
          omega
        · rw [List.mem_singleton.1 hb]
          omega
    · have hskip : ¬ (chunker.qualifies first && offset ≠ 0 && !bs.contains offset) = true := by
        simp only [Bool.and_eq_true, decide_eq_true_eq]
        intro h
        exact hnew ⟨h.1.1, Nat.pos_of_ne_zero h.1.2⟩
      rw [if_neg hskip, ih hrest]
      · congr 1
        rw [headerStarts, List.filter_append]
        split_ifs with hline
        · have hzero : offset = 0 := by
            by_contra hne
            exact hnew ⟨hline, Nat.pos_of_ne_zero hne⟩
          simp [hzero]
        · rw [List.filter_nil, List.nil_append]
      · intro b hb
        have hb := hbs b hb
        omega

def innerBoundaries (chunker : MarkdownAwareChunker) (text : List Char) : List Nat :=
  (chunker.headerStarts 0 (splitLines text)).filter (0 < ·)

theorem boundaries_eq (text : List Char) :
    chunker.boundaries text = 0 :: chunker.innerBoundaries text ++ [text.length] := by
  rw [boundaries, foldl_scanLine (fun line hline => ne_nil_of_mem_splitLines hline) (by simp)]
  rfl

theorem mem_boundaries_of_headerAt {text : List Char} {p : Nat} (h : chunker.HeaderAt text p) :
    p ∈ chunker.boundaries text := by
  obtain ⟨before, line, after, hlines, rfl, hline⟩ := h
  have hmem : before.flatten.length ∈ chunker.headerStarts 0 (splitLines text) :=
    mem_headerStarts.2 ⟨before, line, after, hlines, Nat.zero_add _, hline⟩
  rw [boundaries_eq]
  by_cases hzero : before.flatten.length = 0
  · simp [hzero]
  · have hinner : before.flatten.length ∈ chunker.innerBoundaries text :=
      List.mem_filter.2 ⟨hmem, decide_eq_true (Nat.pos_of_ne_zero hzero)⟩
    exact List.mem_append_left _ (List.mem_cons_of_mem _ hinner)

variable {text : List Char}

variable (chunker) in
theorem pairwise_boundaries (hne : text ≠ []) :
    (chunker.boundaries text).Pairwise (· < ·) := by
  obtain ⟨hpairwise, hbounds⟩ := pairwise_headerStarts chunker 0
    (fun line (hline : line ∈ splitLines text) => ne_nil_of_mem_splitLines hline)
  rw [flatten_splitLines, Nat.zero_add] at hbounds
  have hinner : ∀ p ∈ chunker.innerBoundaries text, 0 < p ∧ p < text.length := by
    intro p hp
    obtain ⟨hmem, hpos⟩ := List.mem_filter.1 hp
    exact ⟨of_decide_eq_true hpos, (hbounds p hmem).2⟩
  have hpos := List.length_pos_iff.2 hne
  rw [boundaries_eq, List.cons_append, List.pairwise_cons, List.pairwise_append]
  refine ⟨?_, hpairwise.sublist List.filter_sublist, by simp, ?_⟩
  · intro p hp
    rcases List.mem_append.1 hp with hp | hp
    · exact (hinner p hp).1
    · rwa [List.mem_singleton.1 hp]
  · intro p hp q hq
    rw [List.mem_singleton.1 hq]
    exact (hinner p hp).2

theorem splitSections_eq (hne : text ≠ []) :
    chunker.splitSections text = Cuts.spans (chunker.boundaries text) := by
  rw [splitSections, List.filter_eq_self]
  intro part hpart
  exact decide_eq_true (Cuts.lt_of_mem_spans (pairwise_boundaries chunker hne) hpart)

/-! ## Sections -/

theorem le_of_mem_splitSections (hne : text ≠ []) {part : Nat × Nat}
    (h : part ∈ chunker.splitSections text) : part.1 < part.2 ∧ part.2 ≤ text.length := by
  rw [splitSections_eq hne] at h
  have hpairwise := chunker.pairwise_boundaries hne
  refine ⟨Cuts.lt_of_mem_spans hpairwise h, ?_⟩
  have hmem := (Cuts.mem_of_mem_spans h).2
  rw [boundaries_eq] at hmem hpairwise
  rcases List.mem_append.1 hmem with hmem | hmem
  · exact ((List.pairwise_append.1 hpairwise).2.2 _ hmem _ List.mem_cons_self).le
  · rw [List.mem_singleton.1 hmem]

variable {text : List Char}

variable (chunker) in
theorem exists_section {i : Nat} (h : i < text.length) :
    ∃ part ∈ chunker.splitSections text, part.1 ≤ i ∧ i < part.2 := by
  have hne : text ≠ [] := by
    rintro rfl
    cases h
  rw [splitSections_eq hne, boundaries_eq]
  exact Cuts.exists_span (Nat.zero_le i) h

theorem slice_slice {a b x y : Nat} (h : a + y ≤ b) :
    slice (slice text a b) x y = slice text (a + x) (a + y) := by
  rw [slice, slice, slice, List.take_drop, List.drop_drop, List.take_take, Nat.min_eq_left h]

variable {c : Chunk}

theorem of_mem_chunkSection {part : Nat × Nat} (hstop : part.2 ≤ text.length)
    (h : c ∈ chunker.chunkSection text part) :
    ∃ d ∈ chunker.inner.chunk (slice text part.1 part.2), c.start = part.1 + d.start
      ∧ c.stop = part.1 + d.stop ∧ c.text = d.text ∧ c.text = slice text c.start c.stop
      ∧ c.start < c.stop ∧ c.stop ≤ part.2 := by
  obtain ⟨d, hd, rfl⟩ := List.mem_map.1 h
  obtain ⟨hlt, hle⟩ := within_chunk _ _ d hd
  rw [length_slice part.1 hstop] at hle
  refine ⟨d, hd, rfl, rfl, ?_, rfl, by simpa using hlt, by show part.1 + d.stop ≤ _; omega⟩
  rw [(slices_chunk _ _).1 d hd, slice_slice (by omega)]

theorem mem_chunk (h : c ∈ chunker.chunk text) :
    text ≠ [] ∧ ∃ part ∈ chunker.splitSections text, c ∈ chunker.chunkSection text part := by
  unfold chunk at h
  split_ifs at h with hne
  · cases h
  · exact ⟨hne, List.mem_flatMap.1 h⟩

theorem pairwise_stop_chunk (text : List Char) :
    ((chunker.chunk text).map Chunk.stop).Pairwise (· < ·) := by
  unfold chunk
  split_ifs with hne
  · simp
  rw [List.map_flatMap, List.flatMap, List.pairwise_flatten]
  constructor
  · intro stops hstops
    obtain ⟨part, -, rfl⟩ := List.mem_map.1 hstops
    have hends := (slices_chunk chunker.inner (slice text part.1 part.2)).2
    rw [chunkSection, List.map_map]
    rw [List.pairwise_map] at hends ⊢
    exact hends.imp (fun h => Nat.add_lt_add_left h _)
  · rw [List.pairwise_map, splitSections_eq hne]
    refine (Cuts.pairwise_spans (pairwise_boundaries chunker hne)).imp_of_mem ?_
    intro s t hs ht hle x hx y hy
    rw [← splitSections_eq hne] at hs ht
    obtain ⟨c, hc, rfl⟩ := List.mem_map.1 hx
    obtain ⟨d, hd, rfl⟩ := List.mem_map.1 hy
    obtain ⟨-, -, -, -, -, -, -, hstop⟩ := of_mem_chunkSection (le_of_mem_splitSections hne hs).2 hc
    obtain ⟨e, -, hstart, -, -, -, hlt, -⟩ :=
      of_mem_chunkSection (le_of_mem_splitSections hne ht).2 hd
    omega

/-! ## What the chunks respect -/

/-- What chunks should be to a text: they keep it, each is a nonempty part of it, no header line that
    starts a section is inside one, and without such a line they are those of the window chunker. -/
structure Respects (chunker : MarkdownAwareChunker) (text : List Char) (chunks : List Chunk) :
    Prop where
  keeps : SemanticChunker.KeepsText text chunks
  inside : ∀ c ∈ chunks, c.start < c.stop ∧ c.stop ≤ text.length
  sections : ∀ c ∈ chunks, ∀ p, chunker.HeaderAt text p → ¬ (c.start < p ∧ p < c.stop)
  plain : (∀ p, ¬ chunker.HeaderAt text p) → chunks = chunker.inner.chunk text

theorem not_inside_of_headerAt (hc : c ∈ chunker.chunk text)
    {p : Nat} (hp : chunker.HeaderAt text p) : ¬ (c.start < p ∧ p < c.stop) := by
  rintro ⟨hlow, hhigh⟩
  obtain ⟨hne, part, hpart, hmem⟩ := mem_chunk hc
  obtain ⟨d, -, hstart, -, -, -, -, hstop⟩ :=
    of_mem_chunkSection (le_of_mem_splitSections hne hpart).2 hmem
  rw [splitSections_eq hne] at hpart
  exact Cuts.not_inside (pairwise_boundaries chunker hne) hpart (mem_boundaries_of_headerAt hp)
    ⟨by omega, by omega⟩

theorem chunk_of_plain (h : ∀ p, ¬ chunker.HeaderAt text p) :
    chunker.chunk text = chunker.inner.chunk text := by
  unfold chunk
  split_ifs with hne
  · simp [SemanticChunker.chunk, hne]
  have hinner : chunker.innerBoundaries text = [] := by
    refine List.eq_nil_iff_forall_not_mem.2 (fun p hp => ?_)
    obtain ⟨before, line, after, hlines, hoffset, hline⟩ :=
      mem_headerStarts.1 (List.mem_of_mem_filter hp)
    exact h p ⟨before, line, after, hlines, by omega, hline⟩
  have hwhole : slice text 0 text.length = text := by simp [slice]
  rw [splitSections_eq hne, boundaries_eq, hinner]
  show chunker.chunkSection text (0, text.length) ++ [] = _
  rw [List.append_nil, chunkSection, hwhole]
  refine (List.map_congr_left (fun c hc => ?_)).trans (List.map_id _)
  rw [Nat.zero_add, Nat.zero_add, ← (slices_chunk _ _).1 c hc]
  rfl

theorem keepsText_chunk_iff (text : List Char) : SemanticChunker.KeepsText text (chunker.chunk text)
      ↔ ∀ part ∈ chunker.splitSections text, SemanticChunker.KeepsText
          (slice text part.1 part.2) (chunker.inner.chunk (slice text part.1 part.2)) := by
  by_cases hne : text = []
  · subst hne
    simp only [chunk, if_true, splitSections, boundaries, splitLines, List.foldl_nil]
    refine iff_of_true ⟨by simp, by simp, by simp⟩ ?_
    intro part hpart
    simp [Cuts.spans] at hpart
  constructor
  · intro hkeeps part hpart
    obtain ⟨hslices, hends⟩ := slices_chunk chunker.inner (slice text part.1 part.2)
    refine ⟨hslices, hends, ?_⟩
    intro i c hc hspace
    have hpartBounds := le_of_mem_splitSections hne hpart
    have hi : i < part.2 - part.1 := by
      have hlt := (List.getElem?_eq_some_iff.1 hc).1
      rwa [length_slice part.1 hpartBounds.2] at hlt
    rw [getElem?_slice (by omega)] at hc
    obtain ⟨chunk', hchunk, hlow, hhigh⟩ := hkeeps.covers (part.1 + i) c hc hspace
    obtain ⟨-, other, hother, hmem⟩ := mem_chunk hchunk
    obtain ⟨d, hd, hstart, hstop, -, -, -, hle⟩ :=
      of_mem_chunkSection (le_of_mem_splitSections hne hother).2 hmem
    -- the chunk that has the position belongs to the section that has it
    have hsame : other = part := by
      rw [splitSections_eq hne] at hother hpart
      exact Cuts.span_unique (pairwise_boundaries chunker hne) hother hpart (i := part.1 + i)
        ⟨by omega, by omega⟩ ⟨by omega, by omega⟩
    subst hsame
    exact ⟨d, hd, by omega, by omega⟩
  · intro hparts
    refine ⟨?_, pairwise_stop_chunk text, ?_⟩
    · intro c hc
      obtain ⟨-, part, hpart, hmem⟩ := mem_chunk hc
      obtain ⟨-, -, -, -, -, htext, -⟩ :=
        of_mem_chunkSection (le_of_mem_splitSections hne hpart).2 hmem
      exact htext
    · intro i c hc hspace
      obtain ⟨part, hpart, hlow, hhigh⟩ :=
        chunker.exists_section (List.getElem?_eq_some_iff.1 hc).1
      have hget : (slice text part.1 part.2)[i - part.1]? = some c := by
        rw [getElem?_slice (by omega), show part.1 + (i - part.1) = i by omega, hc]
      obtain ⟨d, hd, hstart, hstop⟩ := (hparts part hpart).covers _ c hget hspace
      have hshifted := List.mem_map_of_mem (f := fun c : Chunk =>
        { start := part.1 + c.start, stop := part.1 + c.stop
          text := slice text (part.1 + c.start) (part.1 + c.stop) : Chunk }) hd
      rw [chunk, if_neg hne]
      refine ⟨_, List.mem_flatMap.2 ⟨part, hpart, hshifted⟩, ?_, ?_⟩
      · show part.1 + d.start ≤ i
        omega
      · show i < part.1 + d.stop
        omega

theorem respects_iff (text : List Char) : chunker.Respects text (chunker.chunk text)
    ↔ SemanticChunker.KeepsText text (chunker.chunk text) := by
  constructor
  · exact Respects.keeps
  · intro hkeeps
    refine ⟨hkeeps, ?_, fun c hc p hp => not_inside_of_headerAt hc hp, chunk_of_plain⟩
    intro c hc
    obtain ⟨hne, part, hpart, hmem⟩ := mem_chunk hc
    have hpartBounds := le_of_mem_splitSections hne hpart
    obtain ⟨-, -, -, -, -, -, hlt, hle⟩ := of_mem_chunkSection hpartBounds.2 hmem
    exact ⟨hlt, hle.trans hpartBounds.2⟩

theorem hash_mem_of_headerAt {p : Nat} (h : chunker.HeaderAt text p) : '#' ∈ text := by
  obtain ⟨before, line, after, hlines, -, hline⟩ := h
  have hheader : headerLevel line ≠ none := by
    intro hnone
    rw [qualifies, hnone] at hline
    cases hline
  rw [← flatten_splitLines text, hlines]
  exact List.mem_flatten_of_mem (List.mem_append_right _ List.mem_cons_self)
    (hash_mem_of_headerLevel hheader)

/-- The chunks of a text are nonempty slices of it in its order, none has a split header inside, and
    they are those of the window chunker where there is no such header. They cover the text exactly
    when the window chunker drops nothing of a section, and a configuration covers every text exactly
    when it asks for no more new characters than a window adds anyway. -/
theorem chunk_respects_iff (chunker : MarkdownAwareChunker) :
    (∀ text, chunker.Respects text (chunker.chunk text) ↔ ∀ part ∈ chunker.splitSections text, ∀ s,
        SemanticChunker.Visits chunker.inner (slice text part.1 part.2) s
          → ¬ SemanticChunker.Drops chunker.inner (slice text part.1 part.2) s)
    ∧ ((∀ text, chunker.Respects text (chunker.chunk text))
      ↔ chunker.inner.minNewChars ≤ chunker.inner.leastNewChars) := by
  have hiff : ∀ text, chunker.Respects text (chunker.chunk text)
      ↔ ∀ part ∈ chunker.splitSections text, ∀ s,
        SemanticChunker.Visits chunker.inner (slice text part.1 part.2) s
          → ¬ SemanticChunker.Drops chunker.inner (slice text part.1 part.2) s := by
    intro text
    rw [respects_iff, keepsText_chunk_iff]
    exact forall₂_congr (fun part _ => keepsText_iff _ _)
  refine ⟨hiff, ?_⟩
  constructor
  · intro hrespects
    by_contra hlt
    -- a text without headers of which the window chunker drops a character
    obtain ⟨m, k, s, hvisits, hdrops⟩ := exists_drops (not_le.1 hlt)
    have hplain : ∀ p, ¬ chunker.HeaderAt (twoWords m k) p := by
      intro p hp
      have hmem := hash_mem_of_headerAt hp
      simp [twoWords] at hmem
    have hkeeps := (hrespects (twoWords m k)).keeps
    rw [chunk_of_plain hplain] at hkeeps
    exact (keepsText_iff _ _).1 hkeeps s hvisits hdrops
  · intro hle text
    rw [hiff]
    intro part _ s hvisits
    exact SemanticChunker.not_drops_of_le hvisits hle

/-! ### A section that is not kept

The second window of the section `"# cdefghijk lmnopqrstu"` adds two characters to the first, and
three are asked for. It is skipped, and with it the `k`. -/

private def wideOverlapHeadings : MarkdownAwareChunker where
  inner :=
    { maxChars := 10, overlap := 9, minNewChars := 3, maxChars_pos := Nat.zero_lt_succ _
      overlap_lt := Nat.lt_succ_self _, minNewChars_pos := Nat.le_add_left _ _ }
  levels := [1, 2, 3]
  levels_ne := List.cons_ne_nil _ _
  levels_le := by simp

private def headedAlphabet : List Char := "preface\n# cdefghijk lmnopqrstu".toList

theorem not_respects_headed :
    ¬ wideOverlapHeadings.Respects headedAlphabet (wideOverlapHeadings.chunk headedAlphabet) := by
  intro hrespects
  have hpart : (8, 30) ∈ wideOverlapHeadings.splitSections headedAlphabet := by decide +kernel
  have hkeeps := (keepsText_chunk_iff headedAlphabet).1 hrespects.keeps (8, 30) hpart
  let second : ChunkState :=
    { chunks := [{ start := 0, stop := 10, text := "# cdefghij".toList }], start := 5
      prevEnd := some 10 }
  have hnext : wideOverlapHeadings.inner.Next (slice headedAlphabet 8 30) {} second :=
    ⟨by decide +kernel, by decide +kernel⟩
  have hwindow : wideOverlapHeadings.inner.windowEnd (slice headedAlphabet 8 30) 5 = 12 := by
    decide +kernel
  refine (keepsText_iff _ _).1 hkeeps second ⟨by decide +kernel, .single hnext⟩
    ⟨10, rfl, ?_, by decide +kernel, 10, 'k', le_rfl, ?_, by decide +kernel, by decide⟩
  · show wideOverlapHeadings.inner.windowEnd (slice headedAlphabet 8 30) 5 < 10 + 3
    omega
  · show 10 < wideOverlapHeadings.inner.windowEnd (slice headedAlphabet 8 30) 5
    omega

end MarkdownAwareChunker

end Himmy
