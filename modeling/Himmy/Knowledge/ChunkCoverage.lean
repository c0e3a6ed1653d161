import Himmy.Knowledge.Chunker

/-! # What a chunker covers

The loop always ends, its chunks are slices of the text, and their ends increase. They cover every
character that is not white space exactly when no iteration drops one: a skipped window must leave
nothing but white space behind the last chunk, unless the whole rest of the text is so short that it
is folded into that chunk (`chunk_keepsText_iff`). -/

namespace Himmy.SemanticChunker

variable {chunker : SemanticChunker} {text : List Char}

/-! ## The iterations -/

def effectiveOverlap (chunker : SemanticChunker) (start stop : Nat) : Nat :=
  min chunker.overlap ((stop - start) / 2)

def windowChunk (chunker : SemanticChunker) (text : List Char) (start : Nat) : Chunk :=
  { start, stop := chunker.windowEnd text start
    text := slice text start (chunker.windowEnd text start) }

/-- What an iteration does. -/
inductive Iterates (chunker : SemanticChunker) (text : List Char) (s : ChunkState) :
    List Chunk ⊕ ChunkState → Prop where
  /-- the last window is folded into the last chunk -/
  | folds {initial : List Chunk} {last : Chunk} {prevEnd : Nat}
      (hprev : s.prevEnd = some prevEnd)
      (hlittle : chunker.windowEnd text s.start < prevEnd + chunker.minNewChars)
      (hend : chunker.windowEnd text s.start = text.length)
      (hchunks : s.chunks = initial ++ [last]) :
      Iterates chunker text s (.inl (initial
        ++ [{ last with stop := text.length, text := slice text last.start text.length }]))
  /-- the window is skipped -/
  | skips {prevEnd : Nat} (hprev : s.prevEnd = some prevEnd)
      (hlittle : chunker.windowEnd text s.start < prevEnd + chunker.minNewChars)
      (hend : chunker.windowEnd text s.start < text.length) :
      Iterates chunker text s (.inr { s with start := chunker.windowEnd text s.start })
  /-- the last window is a chunk -/
  | ends (henough : ∀ prevEnd, s.prevEnd = some prevEnd →
        prevEnd + chunker.minNewChars ≤ chunker.windowEnd text s.start)
      (hend : chunker.windowEnd text s.start = text.length) :
      Iterates chunker text s (.inl (s.chunks ++ [chunker.windowChunk text s.start]))
  /-- the window is a chunk, and the next one overlaps it -/
  | emits (henough : ∀ prevEnd, s.prevEnd = some prevEnd →
        prevEnd + chunker.minNewChars ≤ chunker.windowEnd text s.start)
      (hend : chunker.windowEnd text s.start < text.length) :
      Iterates chunker text s (.inr
        { chunks := s.chunks ++ [chunker.windowChunk text s.start]
          start := chunker.windowEnd text s.start
            - chunker.effectiveOverlap s.start (chunker.windowEnd text s.start)
          prevEnd := some (chunker.windowEnd text s.start) })

def Remembers (s : ChunkState) : Prop :=
  s.chunks = [] ∧ s.prevEnd = none
    ∨ ∃ initial last, s.chunks = initial ++ [last] ∧ s.prevEnd = some last.stop

variable (chunker) in
theorem iterates {s : ChunkState} (hs : s.start < text.length) (h : Remembers s) :
    Iterates chunker text s (chunker.iterate text s) := by
  have hbounds := windowEnd_bounds chunker hs
  unfold iterate
  simp only
  by_cases hlittle : chunker.tooLittle text s = true
  · obtain ⟨prevEnd, hprev, hlt⟩ : ∃ prevEnd, s.prevEnd = some prevEnd
        ∧ chunker.windowEnd text s.start < prevEnd + chunker.minNewChars := by
      simpa [tooLittle, Option.any_eq_true] using hlittle
    rw [if_pos hlittle]
    split
    · next hend =>
        have hend : chunker.windowEnd text s.start = text.length := by omega
        rcases h with ⟨-, hnone⟩ | ⟨initial, last, hchunks, -⟩
        · rw [hprev] at hnone
          cases hnone
        · rw [hchunks, List.getLast?_concat, List.dropLast_concat, hend]
          exact .folds hprev hlt hend hchunks
    · next hend => exact .skips hprev hlt (by omega)
  · have henough : ∀ prevEnd, s.prevEnd = some prevEnd →
        prevEnd + chunker.minNewChars ≤ chunker.windowEnd text s.start := by
      intro prevEnd hprev
      simpa [tooLittle, hprev] using hlittle
    rw [if_neg hlittle]
    split
    · next hend => exact .ends henough (by omega)
    · next hend =>
        have hnext : s.start < chunker.windowEnd text s.start
            - min chunker.overlap ((chunker.windowEnd text s.start - s.start) / 2) := by omega
        rw [if_pos hnext]
        exact .emits henough (by omega)

def Next (chunker : SemanticChunker) (text : List Char) (s s' : ChunkState) : Prop :=
  s.start < text.length ∧ chunker.iterate text s = .inr s'

/-- The states in which the loop of `chunk` begins an iteration. -/
def Visits (chunker : SemanticChunker) (text : List Char) (s : ChunkState) : Prop :=
  text ≠ [] ∧ Relation.ReflTransGen (chunker.Next text) {} s

variable (chunker) in
theorem chunkLoop_ends (s : ChunkState) (hs : s.start < text.length)
    (hstart : ∀ s', Relation.ReflTransGen (chunker.Next text) s s' → s'.start < text.length) :
    ∃ s', Relation.ReflTransGen (chunker.Next text) s s'
      ∧ chunker.iterate text s' = .inl (chunker.chunkLoop text s) := by
  rw [chunkLoop, dif_pos hs]
  split
  · next chunks h => exact ⟨s, .refl, h⟩
  · next s' h =>
      have hnext : chunker.Next text s s' := ⟨hs, h⟩
      have hlt := lt_start_of_iterate hs h
      obtain ⟨t, hreach, hend⟩ := chunkLoop_ends s' (hstart s' (.single hnext))
        (fun t ht => hstart t (.head hnext ht))
      exact ⟨t, .head hnext hreach, hend⟩
termination_by text.length - s.start

variable {s s' : ChunkState}

theorem chunkLoop_of_next (h : chunker.Next text s s') :
    chunker.chunkLoop text s = chunker.chunkLoop text s' := by
  rw [chunkLoop, dif_pos h.1]
  split
  · next chunks h' => cases h.2.symm.trans h'
  · next t h' =>
      cases h.2.symm.trans h'
      rfl

theorem chunkLoop_of_reaches (h : Relation.ReflTransGen (chunker.Next text) s s') :
    chunker.chunkLoop text s = chunker.chunkLoop text s' := by
  induction h with
  | refl => rfl
  | tail _ hnext ih => rw [ih, chunkLoop_of_next hnext]

/-! ## Every iteration -/

/-- What holds whenever an iteration begins. -/
structure Sound (text : List Char) (s : ChunkState) : Prop where
  inside : s.start < text.length
  slices : ∀ c ∈ s.chunks, c.text = slice text c.start c.stop
  ends : (s.chunks.map Chunk.stop).Pairwise (· < ·)
  last : s.chunks = [] ∧ s.prevEnd = none ∧ s.start = 0
    ∨ ∃ initial last, s.chunks = initial ++ [last] ∧ s.prevEnd = some last.stop
      ∧ last.start ≤ s.start ∧ last.start ≤ last.stop ∧ last.stop < text.length

variable {s : ChunkState}

theorem Sound.remembers (h : Sound text s) : Remembers s := by
  rcases h.last with ⟨hchunks, hprev, -⟩ | ⟨initial, last, hchunks, hprev, -⟩
  · exact Or.inl ⟨hchunks, hprev⟩
  · exact Or.inr ⟨initial, last, hchunks, hprev⟩

theorem Sound.last_of_concat (h : Sound text s) {initial : List Chunk}
    {last : Chunk} (hchunks : s.chunks = initial ++ [last]) :
    s.prevEnd = some last.stop ∧ last.start ≤ s.start ∧ last.start ≤ last.stop
      ∧ last.stop < text.length := by
  rcases h.last with ⟨hnil, -⟩ | ⟨initial', last', hchunks', hrest⟩
  · rw [hnil] at hchunks
    simp at hchunks
  · have hsame : last = last' := by
      have heq := hchunks.symm.trans hchunks'
      simpa using congrArg List.getLast? heq
    exact hsame ▸ hrest

theorem Sound.stop_le (h : Sound text s) {c : Chunk} (hc : c ∈ s.chunks) :
    ∃ prevEnd, s.prevEnd = some prevEnd ∧ c.stop ≤ prevEnd := by
  rcases h.last with ⟨hchunks, -⟩ | ⟨initial, last, hchunks, hprev, -⟩
  · rw [hchunks] at hc
    cases hc
  · refine ⟨last.stop, hprev, ?_⟩
    have hends := h.ends
    rw [hchunks, List.map_append, List.pairwise_append] at hends
    rw [hchunks, List.mem_append, List.mem_singleton] at hc
    rcases hc with hc | rfl
    · exact (hends.2.2 c.stop (List.mem_map_of_mem hc) last.stop (by simp)).le
    · exact le_rfl

theorem Sound.ends_concat (h : Sound text s) {stop : Nat}
    (henough : ∀ prevEnd, s.prevEnd = some prevEnd → prevEnd + chunker.minNewChars ≤ stop)
    {c : Chunk} (hc : c.stop = stop) : ((s.chunks ++ [c]).map Chunk.stop).Pairwise (· < ·) := by
  rw [List.map_append, List.pairwise_append]
  refine ⟨h.ends, by simp, ?_⟩
  intro x hx y hy
  obtain ⟨d, hd, rfl⟩ := List.mem_map.1 hx
  obtain ⟨prevEnd, hprev, hle⟩ := h.stop_le hd
  have hpos := chunker.minNewChars_pos
  have hnew := henough prevEnd hprev
  have hy : y = c.stop := by simpa using hy
  omega

theorem Sound.next (h : Sound text s) (hnext : chunker.Next text s s') : Sound text s' := by
  have hbounds := windowEnd_bounds chunker h.inside
  have hiterates := iterates chunker h.inside h.remembers
  rw [hnext.2] at hiterates
  cases hiterates with
  | skips hprev hlittle hend =>
    refine ⟨hend, h.slices, h.ends, ?_⟩
    rcases h.last with ⟨-, hnone, -⟩ | ⟨initial, last, hchunks, hlast, hbehind, hstop⟩
    · rw [hprev] at hnone
      cases hnone
    · exact Or.inr ⟨initial, last, hchunks, hlast, by show _ ≤ chunker.windowEnd text _; omega,
        hstop⟩
  | emits henough hend =>
    have hoverlap : chunker.effectiveOverlap s.start (chunker.windowEnd text s.start)
        ≤ (chunker.windowEnd text s.start - s.start) / 2 := Nat.min_le_right _ _
    refine ⟨by show _ - _ < _; omega, ?_, h.ends_concat henough rfl, Or.inr ?_⟩
    · intro c hc
      rcases List.mem_append.1 hc with hc | hc
      · exact h.slices c hc
      · rw [List.mem_singleton.1 hc]
        rfl
    · exact ⟨s.chunks, _, rfl, rfl, by show _ ≤ _ - _; simp only [windowChunk]; omega,
        hbounds.1.le, hend⟩

theorem sound_begin (h : text ≠ []) : Sound text {} :=
  ⟨List.length_pos_iff.2 h, by simp, by simp, Or.inl ⟨rfl, rfl, rfl⟩⟩

theorem Sound.reaches (h : Sound text s)
    (hreach : Relation.ReflTransGen (chunker.Next text) s s') : Sound text s' := by
  induction hreach with
  | refl => exact h
  | tail _ hnext ih => exact ih.next hnext

/-! ## What is lost and what is kept -/

/-- The chunks of a text keep it: they are slices of it, their ends increase, and every character
    that is not white space is in one of them. -/
structure KeepsText (text : List Char) (chunks : List Chunk) : Prop where
  slices : ∀ c ∈ chunks, c.text = slice text c.start c.stop
  ends : (chunks.map Chunk.stop).Pairwise (· < ·)
  covers : ∀ i c, text[i]? = some c → isPySpace c = false →
    ∃ chunk ∈ chunks, chunk.start ≤ i ∧ i < chunk.stop

/-- The iteration drops a character: the window ends too close behind the last chunk to be one, the
    text does not, and between the two ends there is more than white space. -/
def Drops (chunker : SemanticChunker) (text : List Char) (s : ChunkState) : Prop :=
  ∃ prevEnd, s.prevEnd = some prevEnd
    ∧ chunker.windowEnd text s.start < prevEnd + chunker.minNewChars
    ∧ prevEnd + chunker.minNewChars ≤ text.length
    ∧ ∃ i c, prevEnd ≤ i ∧ i < chunker.windowEnd text s.start ∧ text[i]? = some c
      ∧ isPySpace c = false

def Covered (chunks : List Chunk) (i : Nat) : Prop :=
  ∃ chunk ∈ chunks, chunk.start ≤ i ∧ i < chunk.stop

variable {chunks : List Chunk} {i : Nat}

theorem covered_concat {c : Chunk} :
    Covered (chunks ++ [c]) i ↔ Covered chunks i ∨ c.start ≤ i ∧ i < c.stop := by
  unfold Covered
  simp only [List.mem_append, List.mem_singleton]
  constructor
  · rintro ⟨d, hd | rfl, hi⟩
    · exact Or.inl ⟨d, hd, hi⟩
    · exact Or.inr hi
  · rintro (⟨d, hd, hi⟩ | hi)
    · exact ⟨d, Or.inl hd, hi⟩
    · exact ⟨c, Or.inr rfl, hi⟩

/-- What stands before the start of the window is covered, or will be once the tail is folded. -/
def Kept (chunker : SemanticChunker) (text : List Char) (s : ChunkState) : Prop :=
  ∀ i c, i < s.start → text[i]? = some c → isPySpace c = false →
    Covered s.chunks i
      ∨ ∃ prevEnd, s.prevEnd = some prevEnd ∧ prevEnd ≤ i
        ∧ text.length < prevEnd + chunker.minNewChars

theorem Kept.next (h : Kept chunker text s) (hsound : Sound text s)
    (hdrops : ¬ Drops chunker text s) (hnext : chunker.Next text s s') : Kept chunker text s' := by
  have hbounds := windowEnd_bounds chunker hsound.inside
  have hiterates := iterates chunker hsound.inside hsound.remembers
  rw [hnext.2] at hiterates
  cases hiterates with
  | @skips prevEnd hprev hlittle hend =>
    intro i c hi hc hspace
    rcases hsound.last with ⟨-, hnone, -⟩ | ⟨initial, last, hchunks, hlast, hbehind, -⟩
    · rw [hprev] at hnone
      cases hnone
    · have hstop : prevEnd = last.stop := Option.some.inj (hprev.symm.trans hlast)
      by_cases hbefore : i < s.start
      · exact h i c hbefore hc hspace
      · by_cases hlt : i < prevEnd
        · -- the window begins inside the last chunk
          left
          show Covered s.chunks i
          rw [hchunks, covered_concat]
          exact Or.inr ⟨by omega, by omega⟩
        · right
          refine ⟨prevEnd, hprev, by omega, ?_⟩
          by_contra hlong
          exact hdrops ⟨prevEnd, hprev, hlittle, by omega, i, c, by omega, hi, hc, hspace⟩
  | emits henough hend =>
    intro i c hi hc hspace
    left
    show Covered (s.chunks ++ [chunker.windowChunk text s.start]) i
    rw [covered_concat]
    by_cases hbefore : i < s.start
    · rcases h i c hbefore hc hspace with hcovered | ⟨prevEnd, hprev, -, hshort⟩
      · exact Or.inl hcovered
      · have hle := henough prevEnd hprev
        omega
    · right
      have hi : i < chunker.windowEnd text s.start
          - chunker.effectiveOverlap s.start (chunker.windowEnd text s.start) := hi
      exact ⟨by show s.start ≤ i; omega, by show i < chunker.windowEnd text s.start; omega⟩

theorem Kept.result (h : Kept chunker text s)
    (hsound : Sound text s) (hend : chunker.iterate text s = .inl chunks) :
    ∀ i c, text[i]? = some c → isPySpace c = false → Covered chunks i := by
  have hbounds := windowEnd_bounds chunker hsound.inside
  have hiterates := iterates chunker hsound.inside hsound.remembers
  rw [hend] at hiterates
  intro i c hc hspace
  have hi : i < text.length := (List.getElem?_eq_some_iff.1 hc).1
  cases hiterates with
  | @folds initial last prevEnd hprev hlittle hwhole hchunks =>
    obtain ⟨hlast, hbehind, hstop, -⟩ := hsound.last_of_concat hchunks
    rw [covered_concat]
    by_cases hbefore : i < s.start
    · rcases h i c hbefore hc hspace with hcovered | ⟨prevEnd', hprev', hle, -⟩
      · rw [hchunks, covered_concat] at hcovered
        rcases hcovered with hcovered | hcovered
        · exact Or.inl hcovered
        · exact Or.inr ⟨hcovered.1, hi⟩
      · -- it stands behind the last chunk, which now reaches to the end
        have heq : prevEnd' = last.stop := Option.some.inj (hprev'.symm.trans hlast)
        exact Or.inr ⟨by show last.start ≤ i; omega, hi⟩
    · exact Or.inr ⟨by show last.start ≤ i; omega, hi⟩
  | ends henough hwhole =>
    rw [covered_concat]
    by_cases hbefore : i < s.start
    · rcases h i c hbefore hc hspace with hcovered | ⟨prevEnd, hprev, -, hshort⟩
      · exact Or.inl hcovered
      · have hle := henough prevEnd hprev
        omega
    · exact Or.inr ⟨by show s.start ≤ i; omega, by show i < chunker.windowEnd text s.start; omega⟩

/-- The position is behind the window, no chunk has it, and none will: either the last chunk starts
    behind it, or what follows the last chunk is too long to be folded into it. -/
def Lost (chunker : SemanticChunker) (text : List Char) (i : Nat) (s : ChunkState) : Prop :=
  i < s.start ∧ ¬ Covered s.chunks i
    ∧ ∀ initial last, s.chunks = initial ++ [last] →
      i < last.start ∨ last.stop + chunker.minNewChars ≤ text.length

theorem Drops.lost (h : Drops chunker text s) (hsound : Sound text s)
    (hnext : chunker.Next text s s') : ∃ i c, text[i]? = some c ∧ isPySpace c = false
      ∧ Lost chunker text i s' := by
  obtain ⟨prevEnd, hprev, hlittle, hlong, i, c, hle, hlt, hc, hspace⟩ := h
  refine ⟨i, c, hc, hspace, ?_⟩
  have hiterates := iterates chunker hsound.inside hsound.remembers
  rw [hnext.2] at hiterates
  cases hiterates with
  | skips _ _ hend =>
    refine ⟨hlt, ?_, ?_⟩
    · rintro ⟨chunk, hchunk, -, hi⟩
      obtain ⟨prevEnd', hprev', hstop⟩ := hsound.stop_le hchunk
      have heq : prevEnd' = prevEnd := Option.some.inj (hprev'.symm.trans hprev)
      omega
    · intro initial last hchunks
      right
      have heq := (hsound.last_of_concat hchunks).1
      rw [hprev] at heq
      have heq : prevEnd = last.stop := Option.some.inj heq
      omega
  | emits henough _ =>
    have hle := henough prevEnd hprev
    omega

theorem Lost.next (h : Lost chunker text i s)
    (hsound : Sound text s) (hnext : chunker.Next text s s') : Lost chunker text i s' := by
  have hlt := lt_start_of_iterate hnext.1 hnext.2
  have hiterates := iterates chunker hsound.inside hsound.remembers
  rw [hnext.2] at hiterates
  cases hiterates with
  | skips _ _ _ => exact ⟨h.1.trans hlt, h.2.1, h.2.2⟩
  | emits _ _ =>
    refine ⟨h.1.trans hlt, ?_, ?_⟩
    · show ¬ Covered (s.chunks ++ [chunker.windowChunk text s.start]) i
      rw [covered_concat]
      rintro (hcovered | ⟨hstart, -⟩)
      · exact h.2.1 hcovered
      · exact absurd h.1 (not_lt.2 hstart)
    · intro initial last hchunks
      left
      have hlast : chunker.windowChunk text s.start = last := by
        simpa using congrArg List.getLast? hchunks
      rw [← hlast]
      exact h.1

theorem Lost.reaches (h : Lost chunker text i s)
    (hsound : Sound text s) (hreach : Relation.ReflTransGen (chunker.Next text) s s') :
    Lost chunker text i s' := by
  induction hreach with
  | refl => exact h
  | tail hreach hnext ih => exact ih.next (hsound.reaches hreach) hnext

theorem Lost.result (h : Lost chunker text i s)
    (hsound : Sound text s) (hend : chunker.iterate text s = .inl chunks) : ¬ Covered chunks i := by
  have hiterates := iterates chunker hsound.inside hsound.remembers
  rw [hend] at hiterates
  cases hiterates with
  | @folds initial last prevEnd hprev hlittle hwhole hchunks =>
    have hlast := (hsound.last_of_concat hchunks).1
    rw [hprev] at hlast
    have heq : prevEnd = last.stop := Option.some.inj hlast
    rw [covered_concat]
    rintro (hcovered | ⟨hstart, -⟩)
    · exact h.2.1 (hchunks ▸ covered_concat.2 (Or.inl hcovered))
    · have hstart : last.start ≤ i := hstart
      rcases h.2.2 initial last hchunks with hlt | hlong <;> omega
  | ends _ _ =>
    rw [covered_concat]
    rintro (hcovered | ⟨hstart, -⟩)
    · exact h.2.1 hcovered
    · exact absurd h.1 (not_lt.2 hstart)

/-! ## The chunks of a text -/

theorem Sound.result (h : Sound text s) (hend : chunker.iterate text s = .inl chunks) :
    (∀ c ∈ chunks, c.text = slice text c.start c.stop)
      ∧ (chunks.map Chunk.stop).Pairwise (· < ·) := by
  have hiterates := iterates chunker h.inside h.remembers
  rw [hend] at hiterates
  cases hiterates with
  | @folds initial last _ hprev _ _ hchunks =>
    obtain ⟨-, -, -, hstop⟩ := h.last_of_concat hchunks
    have hends := h.ends
    rw [hchunks, List.map_append, List.pairwise_append] at hends
    constructor
    · intro c hc
      rcases List.mem_append.1 hc with hc | hc
      · exact h.slices c (hchunks ▸ List.mem_append_left _ hc)
      · rw [List.mem_singleton.1 hc]
    · rw [List.map_append, List.pairwise_append]
      refine ⟨hends.1, by simp, ?_⟩
      intro x hx y hy
      have hlt := hends.2.2 x hx last.stop (by simp)
      have hy : y = text.length := by simpa using hy
      omega
  | ends henough _ =>
    refine ⟨?_, h.ends_concat henough rfl⟩
    intro c hc
    rcases List.mem_append.1 hc with hc | hc
    · exact h.slices c hc
    · rw [List.mem_singleton.1 hc]
      rfl

variable (chunker) in
theorem exists_last_iteration (h : text ≠ []) : ∃ s, Visits chunker text s ∧ Sound text s
    ∧ chunker.iterate text s = .inl (chunker.chunk text) := by
  obtain ⟨s, hreach, hend⟩ := chunkLoop_ends chunker {}
    (sound_begin h).inside (fun s hs => ((sound_begin h).reaches hs).inside)
  rw [chunk, if_neg h]
  exact ⟨s, ⟨h, hreach⟩, (sound_begin h).reaches hreach, hend⟩

theorem Sound.within {s s' : ChunkState} (h : Sound text s) (hnext : chunker.Next text s s')
    (hwithin : ∀ c ∈ s.chunks, c.start < c.stop ∧ c.stop ≤ text.length) :
    ∀ c ∈ s'.chunks, c.start < c.stop ∧ c.stop ≤ text.length := by
  have hbounds := windowEnd_bounds chunker h.inside
  have hiterates := iterates chunker h.inside h.remembers
  rw [hnext.2] at hiterates
  cases hiterates with
  | skips _ _ _ => exact hwithin
  | emits _ _ =>
    intro c hc
    rcases List.mem_append.1 hc with hc | hc
    · exact hwithin c hc
    · rw [List.mem_singleton.1 hc]
      exact ⟨hbounds.1, hbounds.2.1⟩

theorem within_chunk (chunker : SemanticChunker) (text : List Char) :
    ∀ c ∈ chunker.chunk text, c.start < c.stop ∧ c.stop ≤ text.length := by
  by_cases hne : text = []
  · simp [chunk, hne]
  obtain ⟨s, ⟨-, hreach⟩, hsound, hend⟩ := exists_last_iteration chunker hne
  have hwithin : ∀ c ∈ s.chunks, c.start < c.stop ∧ c.stop ≤ text.length := by
    clear hend hsound
    induction hreach with
    | refl => simp
    | tail hreach hnext ih => exact ((sound_begin hne).reaches hreach).within hnext ih
  have hbounds := windowEnd_bounds chunker hsound.inside
  have hiterates := iterates chunker hsound.inside hsound.remembers
  rw [hend] at hiterates
  generalize chunker.chunk text = chunks at hiterates
  cases hiterates with
  | @folds initial last _ _ _ _ hchunks =>
    have hlast := hwithin last (hchunks ▸ List.mem_append_right _ List.mem_cons_self)
    intro c hc
    rcases List.mem_append.1 hc with hc | hc
    · exact hwithin c (hchunks ▸ List.mem_append_left _ hc)
    · rw [List.mem_singleton.1 hc]
      exact ⟨hlast.1.trans_le hlast.2, le_rfl⟩
  | ends _ _ =>
    intro c hc
    rcases List.mem_append.1 hc with hc | hc
    · exact hwithin c hc
    · rw [List.mem_singleton.1 hc]
      exact ⟨hbounds.1, hbounds.2.1⟩

variable (chunker text) in
theorem slices_chunk : (∀ c ∈ chunker.chunk text, c.text = slice text c.start c.stop)
    ∧ ((chunker.chunk text).map Chunk.stop).Pairwise (· < ·) := by
  by_cases hne : text = []
  · simp [chunk, hne]
  · obtain ⟨s, -, hsound, hend⟩ := exists_last_iteration chunker hne
    exact hsound.result hend

theorem keepsText_iff (chunker : SemanticChunker) (text : List Char) :
    KeepsText text (chunker.chunk text) ↔ ∀ s, Visits chunker text s → ¬ Drops chunker text s := by
  constructor
  · rintro hkeeps s ⟨hne, hreach⟩ hdrops
    have hsound := (sound_begin hne).reaches hreach
    -- a window that drops a character is not the last
    obtain ⟨s', hnext⟩ : ∃ s', chunker.Next text s s' := by
      have hiterates := iterates chunker hsound.inside hsound.remembers
      obtain ⟨prevEnd, hprev, hlittle, hlong, -⟩ := hdrops
      cases hiter : chunker.iterate text s with
      | inr s' => exact ⟨s', hsound.inside, hiter⟩
      | inl chunks =>
        rw [hiter] at hiterates
        cases hiterates with
        | folds _ _ hend _ => omega
        | ends henough _ =>
          have hle := henough prevEnd hprev
          omega
    obtain ⟨i, c, hc, hspace, hlost⟩ := hdrops.lost hsound hnext
    have hsound' := hsound.next hnext
    obtain ⟨t, hreach', hend⟩ := chunkLoop_ends chunker s' hsound'.inside
      (fun t ht => (hsound'.reaches ht).inside)
    have hresult : chunker.chunk text = chunker.chunkLoop text s' := by
      rw [chunk, if_neg hne]
      exact chunkLoop_of_reaches (hreach.tail hnext)
    exact (hlost.reaches hsound' hreach').result (hsound'.reaches hreach') hend
      (hresult ▸ hkeeps.covers i c hc hspace)
  · intro hdrops
    by_cases hne : text = []
    · rw [chunk, if_pos hne]
      refine ⟨by simp, by simp, ?_⟩
      intro i c hc
      simp [hne] at hc
    · obtain ⟨s, ⟨-, hreach⟩, hsound, hend⟩ := exists_last_iteration chunker hne
      have hkept : Kept chunker text s := by
        clear hend hsound
        induction hreach with
        | refl => exact fun i c hi => absurd hi (Nat.not_lt_zero i)
        | tail hreach hnext ih =>
          exact ih.next ((sound_begin hne).reaches hreach) (hdrops _ ⟨hne, hreach⟩) hnext
      exact ⟨(hsound.result hend).1, (hsound.result hend).2, hkept.result hsound hend⟩

/-! ## Configurations that keep every text -/

/-- The fewest characters, not all of them white space, that a window short of the end of the text
    can add: it reaches past half of the maximum, the overlap takes up to half of it back, and a cut
    right behind the middle is made at a separator. -/
def leastNewChars (chunker : SemanticChunker) : Nat :=
  if chunker.maxChars / 2 ≤ chunker.overlap ∧ 3 ≤ chunker.maxChars then 2
  else chunker.maxChars / 2 + 1 - min chunker.overlap (chunker.maxChars / 2)

theorem prevEnd_le {s : ChunkState} (h : Visits chunker text s) {prevEnd : Nat}
    (hprev : s.prevEnd = some prevEnd) :
    prevEnd ≤ s.start + min chunker.overlap (chunker.maxChars / 2) := by
  obtain ⟨hne, hreach⟩ := h
  induction hreach generalizing prevEnd with
  | refl => cases hprev
  | @tail s s' hreach hnext ih =>
    have hsound := (sound_begin hne).reaches hreach
    have hbounds := windowEnd_bounds chunker hsound.inside
    have hiterates := iterates chunker hsound.inside hsound.remembers
    rw [hnext.2] at hiterates
    cases hiterates with
    | skips _ _ _ =>
      have hle := ih hprev
      show _ ≤ chunker.windowEnd text s.start + _
      omega
    | emits _ _ =>
      have heq : chunker.windowEnd text s.start = prevEnd := Option.some.inj hprev
      show prevEnd ≤ chunker.windowEnd text s.start - min _ _ + _
      omega

theorem getElem?_slice {start stop i : Nat} (h : start + i < stop) :
    (slice text start stop)[i]? = text[start + i]? := by
  rw [slice, List.getElem?_drop, List.getElem?_take_of_lt h]

theorem getElem?_of_prefix_slice {sep : List Char} {start stop idx : Nat}
    (h : sep <+: (slice text start stop).drop idx)
    (hfits : idx + sep.length ≤ stop - start) {k : Nat} (hk : k < sep.length) :
    text[start + idx + k]? = some sep[k] := by
  have hget := List.prefix_iff_getElem?.1 h k hk
  rw [List.getElem?_drop, getElem?_slice (by omega)] at hget
  rw [← hget, Nat.add_assoc]

theorem windowEnd_cases {start : Nat} (h : start + chunker.maxChars < text.length) :
    (∃ sep ∈ separators, ∃ idx, chunker.maxChars / 2 ≤ idx
        ∧ chunker.windowEnd text start = start + idx + sep.length
        ∧ idx + sep.length ≤ chunker.maxChars
        ∧ ∀ k (hk : k < sep.length), text[start + idx + k]? = some sep[k])
      ∨ chunker.boundary start (slice text start (start + chunker.maxChars)) = none
        ∧ chunker.windowEnd text start = start + chunker.maxChars := by
  have hmin : min (start + chunker.maxChars) text.length = start + chunker.maxChars := by omega
  unfold windowEnd findBoundary
  simp only [hmin, if_pos h]
  cases hfound : chunker.boundary start (slice text start (start + chunker.maxChars)) with
  | none => exact Or.inr ⟨rfl, rfl⟩
  | some boundary =>
    obtain ⟨sep, hsep, idx, hhalf, rfl, hbegins, hfits⟩ := boundary_spec hfound
    rw [length_slice start (by omega)] at hfits
    exact Or.inl ⟨sep, hsep, idx, hhalf, rfl, by omega,
      fun k hk => getElem?_of_prefix_slice hbegins hfits hk⟩

theorem windowEnd_lt_imp {start : Nat} (h : chunker.windowEnd text start < text.length) :
    start + chunker.maxChars < text.length := by
  by_contra hnot
  have hmin : min (start + chunker.maxChars) text.length = text.length := by omega
  unfold windowEnd at h
  simp only [hmin, lt_irrefl, if_false] at h

variable (chunker) in
theorem isPySpace_of_windowEnd (start : Nat) {c : Char} (hmax : 3 ≤ chunker.maxChars)
    (hstop : chunker.windowEnd text start = start + chunker.maxChars / 2 + 1)
    (hend : chunker.windowEnd text start < text.length)
    (hc : text[start + chunker.maxChars / 2]? = some c) : isPySpace c = true := by
  rcases windowEnd_cases (windowEnd_lt_imp hend) with
    ⟨sep, hsep, idx, hhalf, hwindow, -, hget⟩ | ⟨-, hwindow⟩
  · have hpos := length_pos_of_mem_separators hsep
    have hidx : idx = chunker.maxChars / 2 := by omega
    have hlen : sep.length = 1 := by omega
    have hone : ∀ sep ∈ separators, sep.length = 1 → sep.all isPySpace = true := by decide
    have hget := hget 0 hpos
    rw [hidx, Nat.add_zero, hc] at hget
    exact List.all_eq_true.1 (hone sep hsep hlen) c (Option.some.inj hget ▸ List.getElem_mem hpos)
  · omega

theorem not_drops_of_le {s : ChunkState} (h : Visits chunker text s)
    (hle : chunker.minNewChars ≤ chunker.leastNewChars) : ¬ Drops chunker text s := by
  rintro ⟨prevEnd, hprev, hlittle, hlong, i, c, hi, hlt, hc, hspace⟩
  have hsound := (sound_begin h.1).reaches h.2
  have hbounds := windowEnd_bounds chunker hsound.inside
  have hhalf := hbounds.2.2.2 (by omega)
  have hback := prevEnd_le h hprev
  unfold leastNewChars at hle
  split at hle
  · next hwide =>
      -- one new character only, and it is the separator the window ends with
      have hstart : s.start + chunker.maxChars / 2 = i := by omega
      have htrue := isPySpace_of_windowEnd chunker s.start
        hwide.2 (by omega) (by omega) (hstart ▸ hc)
      rw [htrue] at hspace
      cases hspace
  · omega

/-! ### A text that is not kept -/

def twoWords (m k : Nat) : List Char := List.replicate m 'a' ++ ' ' :: List.replicate k 'a'

theorem length_twoWords (m k : Nat) : (twoWords m k).length = m + 1 + k := by
  simp [twoWords]
  omega

theorem getElem?_twoWords {m k i : Nat} {c : Char} (h : (twoWords m k)[i]? = some c) :
    c = if i = m then ' ' else 'a' := by
  unfold twoWords at h
  rcases Nat.lt_trichotomy i m with hlt | rfl | hlt
  · rw [List.getElem?_append_left (by simpa using hlt), List.getElem?_replicate] at h
    grind
  · rw [if_pos rfl]
    simpa using h.symm
  · rw [List.getElem?_append_right (by simp; omega), List.length_replicate,
      List.getElem?_cons, if_neg (by omega), List.getElem?_replicate] at h
    grind

theorem separator_twoWords {m k j : Nat} {sep : List Char} (hsep : sep ∈ separators)
    (hget : ∀ l (hl : l < sep.length), (twoWords m k)[j + l]? = some sep[l]) :
    sep = [' '] ∧ j = m := by
  have hchars : sep.all (fun c => c = ' ' ∨ c = 'a') = true := by
    refine List.all_eq_true.2 (fun c hc => decide_eq_true ?_)
    obtain ⟨l, hl, rfl⟩ := List.mem_iff_getElem.1 hc
    have heq := getElem?_twoWords (hget l hl)
    split at heq
    · exact Or.inl heq
    · exact Or.inr heq
  have honly : ∀ sep ∈ separators,
      sep.all (fun c => c = ' ' ∨ c = 'a') = true → sep = [' '] := by decide
  have hspace := honly sep hsep hchars
  subst hspace
  have heq := getElem?_twoWords (hget 0 (by simp))
  refine ⟨rfl, ?_⟩
  by_contra hne
  simp [hne] at heq

variable (chunker) in
theorem windowEnd_twoWords_of_outside {m : Nat} (k start : Nat)
    (hend : start + chunker.maxChars < m + 1 + k)
    (hout : m < start + chunker.maxChars / 2 ∨ start + chunker.maxChars ≤ m) :
    chunker.windowEnd (twoWords m k) start = start + chunker.maxChars := by
  have hlen : start + chunker.maxChars < (twoWords m k).length := by
    rw [length_twoWords]
    omega
  rcases windowEnd_cases hlen with ⟨sep, hsep, idx, hhalf, -, hfits, hget⟩ | ⟨-, hwindow⟩
  · obtain ⟨rfl, hm⟩ := separator_twoWords hsep hget
    simp only [List.length_singleton] at hfits
    omega
  · exact hwindow

variable (chunker) in
theorem windowEnd_twoWords_of_inside {m : Nat} (k start : Nat)
    (hend : start + chunker.maxChars < m + 1 + k) (hhalf : start + chunker.maxChars / 2 ≤ m)
    (hin : m < start + chunker.maxChars) : chunker.windowEnd (twoWords m k) start = m + 1 := by
  have hlen : start + chunker.maxChars < (twoWords m k).length := by
    rw [length_twoWords]
    omega
  rcases windowEnd_cases hlen with ⟨sep, hsep, idx, -, hwindow, -, hget⟩ | ⟨hnone, -⟩
  · obtain ⟨rfl, hm⟩ := separator_twoWords hsep hget
    rw [hwindow, ← hm]
    rfl
  · -- the space is in the second half of the window
    exfalso
    have hspace : (slice (twoWords m k) start (start + chunker.maxChars))[m - start]? = some ' ' := by
      rw [getElem?_slice (by omega), show start + (m - start) = m by omega]
      simp [twoWords]
    have hwindow := length_slice start hlen.le
    have hfind := List.findSome?_eq_none_iff.1 hnone " ".toList (by decide)
    cases hrfind : rfind " ".toList (slice (twoWords m k) start (start + chunker.maxChars)) with
    | none =>
      have hall := List.find?_eq_none.1 hrfind (m - start) (by simp; omega)
      apply hall
      rw [List.isPrefixOf_iff_prefix, List.prefix_iff_getElem?]
      intro l hl
      have hl : l = 0 := by simpa using hl
      subst hl
      rw [List.getElem?_drop, Nat.add_zero, hspace]
      rfl
    | some idx =>
      obtain ⟨hbegins, hfits⟩ := rfind_spec hrfind
      rw [hwindow] at hfits
      have hidx := (separator_twoWords (m := m) (k := k) (by decide)
        (fun l hl => getElem?_of_prefix_slice hbegins hfits hl)).2
      rw [hrfind, Option.filter_some, if_pos (decide_eq_true (by omega))] at hfind
      cases hfind

variable (chunker) in
theorem visits_second {m : Nat} (k : Nat) (hm : chunker.maxChars ≤ m) :
    ∃ s, Visits chunker (twoWords m k) s ∧ s.prevEnd = some chunker.maxChars
      ∧ s.start + min chunker.overlap (chunker.maxChars / 2) = chunker.maxChars := by
  have hne : twoWords m k ≠ [] := by simp [twoWords]
  have hfirst : chunker.windowEnd (twoWords m k) 0 = chunker.maxChars := by
    have hpos := chunker.maxChars_pos
    have hwindow := windowEnd_twoWords_of_outside chunker (m := m) k 0 (by omega) (Or.inr (by omega))
    omega
  have hsound := sound_begin hne
  have hiterates := iterates chunker hsound.inside hsound.remembers
  cases hiter : chunker.iterate (twoWords m k) {} with
  | inl chunks =>
    rw [hiter] at hiterates
    cases hiterates with
    | folds hprev _ _ _ => cases hprev
    | ends _ hend =>
      have hlen := length_twoWords m k
      have hend : chunker.windowEnd (twoWords m k) 0 = _ := hend
      omega
  | inr s =>
    rw [hiter] at hiterates
    have hnext : chunker.Next (twoWords m k) {} s := ⟨hsound.inside, hiter⟩
    refine ⟨s, ⟨hne, .single hnext⟩, ?_⟩
    cases hiterates with
    | skips hprev _ _ => cases hprev
    | emits _ _ =>
      refine ⟨congrArg some hfirst, ?_⟩
      show chunker.windowEnd (twoWords m k) 0
        - min chunker.overlap ((chunker.windowEnd (twoWords m k) 0 - 0) / 2) + _ = _
      rw [hfirst, Nat.sub_zero]
      omega

theorem drops_twoWords {m k : Nat} {s : ChunkState} (hprev : s.prevEnd = some chunker.maxChars)
    (hm : chunker.maxChars < m) (hk : chunker.minNewChars ≤ k)
    (hadds : chunker.maxChars < chunker.windowEnd (twoWords m k) s.start)
    (hlittle : chunker.windowEnd (twoWords m k) s.start < chunker.maxChars + chunker.minNewChars) :
    Drops chunker (twoWords m k) s := by
  have hlen := length_twoWords m k
  have hin : chunker.maxChars < (twoWords m k).length := by omega
  refine ⟨chunker.maxChars, hprev, hlittle, by omega, chunker.maxChars, 'a', le_rfl, hadds, ?_,
    by decide⟩
  have hget := List.getElem?_eq_getElem hin
  rw [hget, getElem?_twoWords hget, if_neg (by omega)]

theorem exists_drops (hlt : chunker.leastNewChars < chunker.minNewChars) :
    ∃ m k s, Visits chunker (twoWords m k) s ∧ Drops chunker (twoWords m k) s := by
  have hpos := chunker.maxChars_pos
  -- a space that cuts the second window as early as more than white space allows
  obtain ⟨m, hm, hwindow⟩ : ∃ m, chunker.maxChars < m ∧ ∀ k start,
      start + min chunker.overlap (chunker.maxChars / 2) = chunker.maxChars →
      chunker.maxChars ≤ k →
      chunker.maxChars < chunker.windowEnd (twoWords m k) start
        ∧ chunker.windowEnd (twoWords m k) start < chunker.maxChars + chunker.minNewChars := by
    unfold leastNewChars at hlt
    by_cases hshort : chunker.overlap < chunker.maxChars / 2
    · refine ⟨chunker.maxChars - chunker.overlap + chunker.maxChars / 2, by omega, ?_⟩
      intro k start hstart hk
      have hcut := windowEnd_twoWords_of_inside chunker k start
        (m := chunker.maxChars - chunker.overlap + chunker.maxChars / 2) (by omega) (by omega)
        (by omega)
      rw [if_neg (by omega)] at hlt
      omega
    · by_cases hlong : 3 ≤ chunker.maxChars
      · refine ⟨chunker.maxChars + 1, by omega, ?_⟩
        intro k start hstart hk
        have hcut := windowEnd_twoWords_of_inside chunker k start
          (m := chunker.maxChars + 1) (by omega) (by omega) (by omega)
        rw [if_pos (by omega)] at hlt
        omega
      · -- the window is too short for a cut
        refine ⟨2 * chunker.maxChars, by omega, ?_⟩
        intro k start hstart hk
        have hcut := windowEnd_twoWords_of_outside chunker k start
          (m := 2 * chunker.maxChars) (by omega) (Or.inr (by omega))
        rw [if_neg (by omega)] at hlt
        omega
  obtain ⟨s, hvisits, hprev, hstart⟩ := visits_second chunker
    (chunker.maxChars + chunker.minNewChars) hm.le
  obtain ⟨hadds, hlittle⟩ := hwindow _ s.start hstart (Nat.le_add_right _ _)
  exact ⟨m, _, s, hvisits, drops_twoWords hprev hm (Nat.le_add_left _ _) hadds hlittle⟩

/-- The loop ends for every text and configuration. It keeps a text exactly when no iteration drops a
    character, and a configuration keeps every text exactly when it asks for no more new characters
    than a window adds anyway. -/
theorem chunk_keepsText_iff (chunker : SemanticChunker) :
    (∀ text, KeepsText text (chunker.chunk text)
      ↔ ∀ s, Visits chunker text s → ¬ Drops chunker text s)
    ∧ ((∀ text, KeepsText text (chunker.chunk text))
      ↔ chunker.minNewChars ≤ chunker.leastNewChars) := by
  refine ⟨keepsText_iff chunker, ?_⟩
  constructor
  · intro hkeeps
    by_contra hlt
    obtain ⟨m, k, s, hvisits, hdrops⟩ := exists_drops (not_le.1 hlt)
    exact (keepsText_iff chunker _).1 (hkeeps (twoWords m k)) s hvisits hdrops
  · intro hle text
    rw [keepsText_iff]
    intro s hvisits
    exact not_drops_of_le hvisits hle

/-! ### A lost character

With windows of ten characters, five of them overlap, that must add three, the window of
`"fghijk "` adds two and is skipped; the next one begins behind it. -/

private def wideOverlap : SemanticChunker :=
  { maxChars := 10, overlap := 9, minNewChars := 3, maxChars_pos := by decide
    overlap_lt := by decide, minNewChars_pos := by decide }

private def alphabet : List Char := "abcdefghijk lmnopqrstu".toList

theorem chunk_loses_character : ¬ KeepsText alphabet (wideOverlap.chunk alphabet) := by
  intro hkeeps
  let second : ChunkState :=
    { chunks := [{ start := 0, stop := 10, text := "abcdefghij".toList }], start := 5
      prevEnd := some 10 }
  have hnext : wideOverlap.Next alphabet {} second := ⟨by decide +kernel, by decide +kernel⟩
  have hwindow : wideOverlap.windowEnd alphabet 5 = 12 := by decide +kernel
  refine (keepsText_iff _ _).1 hkeeps second ⟨by decide +kernel, .single hnext⟩
    ⟨10, rfl, ?_, by decide +kernel, 10, 'k', le_rfl, ?_, by decide +kernel, by decide⟩
  · show wideOverlap.windowEnd alphabet 5 < 10 + 3
    omega
  · show 10 < wideOverlap.windowEnd alphabet 5
    omega

end Himmy.SemanticChunker
