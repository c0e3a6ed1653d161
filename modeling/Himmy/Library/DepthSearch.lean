import Mathlib.Data.List.Nodup
import Mathlib.Data.Nat.Find
import Mathlib.Logic.Function.Iterate

/-! # Breadth-first search with a depth bound

A network says which edges a node has, where an edge leads, and which nodes are accepted. `search`
walks it level by level from an accepted start: a node that is not accepted is neither reached nor
walked through.

After `n` levels the search has reached the nodes at distance at most `n`, each once, its frontier
is the nodes at distance `n`, and it has collected the edges to an accepted node that belong to a
node at distance less than `n` (`atDepth_search`). Edges are told apart by a key. -/

universe u v w

namespace DepthSearch

/-! ## Distance -/

section Distance

variable {N : Type u} (r : N → N → Prop)

/-- There is a walk of `n` steps. -/
def Walk (start : N) : Nat → N → Prop
  | 0, v => v = start
  | n + 1, v => ∃ u, Walk start n u ∧ r u v

/-- The shortest walk has `n` steps. -/
def DistAt (start : N) (n : Nat) (v : N) : Prop := Walk r start n v ∧ ∀ m < n, ¬ Walk r start m v

/-- The node is at distance at most `n`. -/
def Within (start : N) (n : Nat) (v : N) : Prop := ∃ m ≤ n, DistAt r start m v

variable {r} {start v : N} {n : Nat}

theorem distAt_zero_iff : DistAt r start 0 v ↔ v = start := by
  constructor
  · intro h
    exact h.1
  · intro h
    exact ⟨h, fun m hm => absurd hm (Nat.not_lt_zero m)⟩

theorem within_iff : Within r start n v ↔ ∃ m ≤ n, Walk r start m v := by
  constructor
  · rintro ⟨m, hm, hdist⟩
    exact ⟨m, hm, hdist.1⟩
  · rintro ⟨m, hm, hwalk⟩
    classical
    have hex : ∃ k, Walk r start k v := ⟨m, hwalk⟩
    have hle : Nat.find hex ≤ m := Nat.find_min' hex hwalk
    exact ⟨Nat.find hex, by omega, Nat.find_spec hex, fun k hk => Nat.find_min hex hk⟩

theorem distAt_succ_iff : DistAt r start (n + 1) v
    ↔ ¬ Within r start n v ∧ ∃ u, DistAt r start n u ∧ r u v := by
  rw [within_iff]
  constructor
  · rintro ⟨⟨u, hwalk, hstep⟩, hleast⟩
    refine ⟨?_, u, ⟨hwalk, ?_⟩, hstep⟩
    · rintro ⟨m, hm, hwalk'⟩
      exact hleast m (by omega) hwalk'
    · -- a shorter walk to `u` would go on to `v`
      intro m hm hwalk'
      exact hleast (m + 1) (by omega) ⟨u, hwalk', hstep⟩
  · rintro ⟨hnew, u, hdist, hstep⟩
    refine ⟨⟨u, hdist.1, hstep⟩, ?_⟩
    intro m hm hwalk
    exact hnew ⟨m, by omega, hwalk⟩

theorem within_succ_iff : Within r start (n + 1) v
    ↔ Within r start n v ∨ DistAt r start (n + 1) v := by
  constructor
  · rintro ⟨m, hm, hdist⟩
    rcases Nat.lt_succ_iff_lt_or_eq.1 (Nat.lt_succ_of_le hm) with hlt | rfl
    · exact Or.inl ⟨m, by omega, hdist⟩
    · exact Or.inr hdist
  · rintro (⟨m, hm, hdist⟩ | hdist)
    · exact ⟨m, by omega, hdist⟩
    · exact ⟨n + 1, le_rfl, hdist⟩

end Distance

/-! ## Networks -/

/-- The edges of each node, where an edge leads from it, the key of an edge, and the accepted
    nodes. -/
structure Network (N : Type u) (E : Type v) (K : Type w) where
  incident : N → List E
  other : E → N → N
  key : E → K
  accepts : N → Bool
  key_inj : ∀ {u u' : N} {e e' : E}, e ∈ incident u → e' ∈ incident u' → key e = key e' → e = e'

variable {N : Type u} {E : Type v} {K : Type w} (G : Network N E K)

def Network.Adj (u v : N) : Prop := G.accepts v = true ∧ ∃ e ∈ G.incident u, G.other e u = v

/-! ## The search -/

/-- What a search has seen: the nodes it has decided on, those it has reached, the edges it has
    collected, and the nodes to expand next. -/
structure Search (N : Type u) (E : Type v) where
  visited : List N
  reached : List N
  edges : List E := []
  frontier : List N

namespace Network

variable [DecidableEq N] [DecidableEq K] (s : Search N E)

def decideNode (v : N) : Search N E :=
  if v ∈ s.visited then s
  else if G.accepts v then
    { s with visited := v :: s.visited, reached := s.reached ++ [v], frontier := s.frontier ++ [v] }
  else { s with visited := v :: s.visited }

def collect (e : E) (v : N) : Search N E :=
  if v ∈ s.reached ∧ G.key e ∉ s.edges.map G.key then { s with edges := s.edges ++ [e] } else s

def visit (u : N) (s : Search N E) (e : E) : Search N E :=
  G.collect (G.decideNode s (G.other e u)) e (G.other e u)

def expand (u : N) : Search N E := (G.incident u).foldl (G.visit u) s

def level : Search N E := s.frontier.foldl G.expand { s with frontier := [] }

def begin (start : N) : Search N E :=
  { visited := [start], reached := [start], frontier := [start] }

def search (start : N) (n : Nat) : Search N E := G.level^[n] (begin start)

def truncated : Bool :=
  s.frontier.any (fun u => (G.incident u).any (fun e =>
    decide (G.other e u ∉ s.visited) && G.accepts (G.other e u)))

/-! ## What one level does -/

/-- A search at any moment: it has reached the accepted nodes among those it has decided on. -/
structure Settled (s : Search N E) : Prop where
  reached : ∀ v, v ∈ s.reached ↔ v ∈ s.visited ∧ G.accepts v = true
  nodup : s.reached.Nodup
  incident : ∀ e ∈ s.edges, ∃ u, e ∈ G.incident u
  keys : (s.edges.map G.key).Nodup

/-- A search that started from `s₀` and has looked at these edges of these nodes. -/
structure Scanned (s₀ : Search N E) (seen : N → E → Prop) (s : Search N E) : Prop where
  settled : G.Settled s
  visited : ∀ v, v ∈ s.visited ↔ v ∈ s₀.visited ∨ ∃ u e, seen u e ∧ G.other e u = v
  frontier : ∀ v, v ∈ s.frontier ↔ v ∈ s₀.frontier
    ∨ G.accepts v = true ∧ v ∉ s₀.visited ∧ ∃ u e, seen u e ∧ G.other e u = v
  edges : ∀ e, e ∈ s.edges ↔ e ∈ s₀.edges ∨ ∃ u, seen u e ∧ G.accepts (G.other e u) = true

variable {G} {s s₀ : Search N E} {seen : N → E → Prop} {u : N} {e : E}

omit [DecidableEq K] in
theorem mem_visited_decideNode (v w : N) :
    w ∈ (G.decideNode s v).visited ↔ w ∈ s.visited ∨ w = v := by
  unfold decideNode
  split_ifs with hold haccepts
  · constructor
    · exact Or.inl
    · rintro (hw | rfl)
      · exact hw
      · exact hold
  · simp [or_comm]
  · simp [or_comm]

omit [DecidableEq K] in
theorem mem_frontier_decideNode (v w : N) : w ∈ (G.decideNode s v).frontier
      ↔ w ∈ s.frontier ∨ w = v ∧ G.accepts w = true ∧ w ∉ s.visited := by
  unfold decideNode
  split_ifs with hold haccepts
  · constructor
    · exact Or.inl
    · rintro (hw | ⟨rfl, -, hnew⟩)
      · exact hw
      · exact absurd hold hnew
  · rw [List.mem_append, List.mem_singleton]
    constructor
    · rintro (hw | rfl)
      · exact Or.inl hw
      · exact Or.inr ⟨rfl, haccepts, hold⟩
    · rintro (hw | ⟨rfl, -, -⟩)
      · exact Or.inl hw
      · exact Or.inr rfl
  · constructor
    · exact Or.inl
    · rintro (hw | ⟨rfl, haccepts', -⟩)
      · exact hw
      · exact absurd haccepts' haccepts

omit [DecidableEq K] in
theorem edges_decideNode (v : N) : (G.decideNode s v).edges = s.edges := by
  unfold decideNode
  split_ifs <;> rfl

omit [DecidableEq K] in
theorem Settled.decideNode (h : G.Settled s) (v : N) : G.Settled (G.decideNode s v) := by
  unfold Network.decideNode
  split_ifs with hold haccepts
  · exact h
  · refine ⟨?_, ?_, h.incident, h.keys⟩
    · intro w
      rw [List.mem_append, List.mem_singleton, h.reached, List.mem_cons]
      constructor
      · rintro (⟨hw, hacc⟩ | rfl)
        · exact ⟨Or.inr hw, hacc⟩
        · exact ⟨Or.inl rfl, haccepts⟩
      · rintro ⟨rfl | hw, hacc⟩
        · exact Or.inr rfl
        · exact Or.inl ⟨hw, hacc⟩
    · rw [List.nodup_append]
      refine ⟨h.nodup, List.nodup_singleton v, ?_⟩
      rintro w hw x hx rfl
      rw [List.mem_singleton.1 hx] at hw
      exact hold ((h.reached v).1 hw).1
  · refine ⟨?_, h.nodup, h.incident, h.keys⟩
    intro w
    rw [h.reached, List.mem_cons]
    constructor
    · rintro ⟨hw, hacc⟩
      exact ⟨Or.inr hw, hacc⟩
    · rintro ⟨rfl | hw, hacc⟩
      · exact absurd hacc haccepts
      · exact ⟨hw, hacc⟩

theorem mem_edges_collect (h : G.Settled s) (he : e ∈ G.incident u) (v : N) (d : E) :
    d ∈ (G.collect s e v).edges ↔ d ∈ s.edges ∨ d = e ∧ v ∈ s.reached := by
  unfold collect
  split_ifs with hnew
  · rw [List.mem_append, List.mem_singleton]
    constructor
    · rintro (hd | rfl)
      · exact Or.inl hd
      · exact Or.inr ⟨rfl, hnew.1⟩
    · rintro (hd | ⟨rfl, -⟩)
      · exact Or.inl hd
      · exact Or.inr rfl
  · constructor
    · exact Or.inl
    · rintro (hd | ⟨rfl, hv⟩)
      · exact hd
      · -- its key was collected, and the key tells which edge it was
        have hkey : G.key d ∈ s.edges.map G.key := not_not.1 (fun hk => hnew ⟨hv, hk⟩)
        obtain ⟨d', hd', heq⟩ := List.mem_map.1 hkey
        obtain ⟨u', hu'⟩ := h.incident d' hd'
        rwa [← G.key_inj hu' he heq]

theorem Settled.collect (h : G.Settled s) (he : e ∈ G.incident u) (v : N) :
    G.Settled (G.collect s e v) := by
  unfold Network.collect
  split_ifs with hnew
  · refine ⟨h.reached, h.nodup, ?_, ?_⟩
    · intro d hd
      rcases List.mem_append.1 hd with hd | hd
      · exact h.incident d hd
      · exact ⟨u, List.mem_singleton.1 hd ▸ he⟩
    · rw [List.map_append, List.nodup_append]
      refine ⟨h.keys, List.nodup_singleton _, ?_⟩
      rintro k hk k' hk' rfl
      exact hnew.2 (List.mem_singleton.1 hk' ▸ hk)
  · exact h

theorem visited_collect (v : N) : (G.collect s e v).visited = s.visited
    ∧ (G.collect s e v).reached = s.reached ∧ (G.collect s e v).frontier = s.frontier := by
  unfold collect
  split_ifs <;> exact ⟨rfl, rfl, rfl⟩

omit [DecidableEq N] [DecidableEq K] in
theorem Scanned.nil (h : G.Settled s) : G.Scanned s (fun _ _ => False) s := by
  refine ⟨h, ?_, ?_, ?_⟩ <;> simp

omit [DecidableEq N] [DecidableEq K] in
theorem Scanned.congr {seen' : N → E → Prop} (h : G.Scanned s₀ seen s)
    (heq : ∀ u e, seen u e ↔ seen' u e) : G.Scanned s₀ seen' s := by
  have hseen : seen = seen' := by
    funext u e
    exact propext (heq u e)
  exact hseen ▸ h

theorem Scanned.visit (h : G.Scanned s₀ seen s) (he : e ∈ G.incident u) :
    G.Scanned s₀ (fun u' e' => seen u' e' ∨ u' = u ∧ e' = e) (G.visit u s e) := by
  unfold Network.visit
  have hdecided := h.settled.decideNode (G.other e u)
  obtain ⟨hvisited, -, hfrontier⟩ := visited_collect (G := G)
    (s := G.decideNode s (G.other e u)) (e := e) (G.other e u)
  refine ⟨hdecided.collect he _, ?_, ?_, ?_⟩
  · intro v
    rw [hvisited, mem_visited_decideNode, h.visited]
    grind
  · intro v
    rw [hfrontier, mem_frontier_decideNode, h.frontier, h.visited]
    grind
  · intro d
    rw [mem_edges_collect hdecided he, edges_decideNode, h.edges, hdecided.reached,
      mem_visited_decideNode]
    grind

theorem Scanned.expand (h : G.Scanned s₀ seen s) (u : N) :
    G.Scanned s₀ (fun u' e => seen u' e ∨ u' = u ∧ e ∈ G.incident u) (G.expand s u) := by
  unfold Network.expand
  have hlist : ∀ l : List E, (∀ e ∈ l, e ∈ G.incident u) → ∀ {seen s}, G.Scanned s₀ seen s →
      G.Scanned s₀ (fun u' e => seen u' e ∨ u' = u ∧ e ∈ l) (l.foldl (G.visit u) s) := by
    intro l
    induction l with
    | nil =>
      intro _ seen s h
      exact h.congr (by simp)
    | cons e l ih =>
      intro hl seen s h
      rw [List.foldl_cons]
      refine (ih (fun d hd => hl d (List.mem_cons_of_mem e hd))
        (h.visit (hl e List.mem_cons_self))).congr ?_
      intro u' d
      rw [List.mem_cons]
      tauto
  exact hlist _ (fun e he => he) h

theorem scanned_level (h : G.Settled s) :
    G.Scanned { s with frontier := [] } (fun u e => u ∈ s.frontier ∧ e ∈ G.incident u)
      (G.level s) := by
  unfold level
  have hlist : ∀ (l : List N) {seen : N → E → Prop} {t : Search N E},
      G.Scanned { s with frontier := [] } seen t →
      G.Scanned { s with frontier := [] } (fun u e => seen u e ∨ u ∈ l ∧ e ∈ G.incident u)
        (l.foldl G.expand t) := by
    intro l
    induction l with
    | nil =>
      intro seen t h
      exact h.congr (by simp)
    | cons u l ih =>
      intro seen t h
      rw [List.foldl_cons]
      refine (ih (h.expand u)).congr ?_
      intro u' d
      rw [List.mem_cons]
      constructor
      · rintro ((hseen | ⟨rfl, hd⟩) | ⟨hu, hd⟩)
        · exact Or.inl hseen
        · exact Or.inr ⟨Or.inl rfl, hd⟩
        · exact Or.inr ⟨Or.inr hu, hd⟩
      · rintro (hseen | ⟨rfl | hu, hd⟩)
        · exact Or.inl (Or.inl hseen)
        · exact Or.inl (Or.inr ⟨rfl, hd⟩)
        · exact Or.inr ⟨hu, hd⟩
  have hstart : G.Settled { s with frontier := [] } := ⟨h.reached, h.nodup, h.incident, h.keys⟩
  refine (hlist s.frontier (Scanned.nil hstart)).congr ?_
  simp

/-! ## What a search finds -/

/-- The search after `n` levels. -/
structure AtDepth (G : Network N E K) (start : N) (n : Nat) (s : Search N E) : Prop where
  settled : G.Settled s
  reached : ∀ v, v ∈ s.reached ↔ Within G.Adj start n v
  frontier : ∀ v, v ∈ s.frontier ↔ DistAt G.Adj start n v
  edges : ∀ e, e ∈ s.edges ↔ ∃ m < n, ∃ u, DistAt G.Adj start m u ∧ e ∈ G.incident u
    ∧ G.accepts (G.other e u) = true

variable {start : N} {n : Nat}

omit [DecidableEq N] [DecidableEq K] in
theorem AtDepth.notMem_visited_iff (h : AtDepth G start n s) {v : N}
    (haccepts : G.accepts v = true) : v ∉ s.visited ↔ ¬ Within G.Adj start n v := by
  rw [← h.reached, h.settled.reached]
  simp [haccepts]

omit [DecidableEq N] [DecidableEq K] in
theorem AtDepth.distAt_succ_iff (h : AtDepth G start n s) {v : N} :
    DistAt G.Adj start (n + 1) v ↔ G.accepts v = true ∧ v ∉ s.visited
      ∧ ∃ u e, (u ∈ s.frontier ∧ e ∈ G.incident u) ∧ G.other e u = v := by
  rw [DepthSearch.distAt_succ_iff]
  constructor
  · rintro ⟨hnew, u, hdist, haccepts, e, he, hother⟩
    exact ⟨haccepts, (h.notMem_visited_iff haccepts).2 hnew, u, e, ⟨(h.frontier u).2 hdist, he⟩,
      hother⟩
  · rintro ⟨haccepts, hnew, u, e, ⟨hu, he⟩, hother⟩
    exact ⟨(h.notMem_visited_iff haccepts).1 hnew, u, (h.frontier u).1 hu, haccepts, e, he, hother⟩

theorem AtDepth.level (h : AtDepth G start n s) : AtDepth G start (n + 1) (G.level s) := by
  have hscan := scanned_level h.settled
  have hfrontier : ∀ v, v ∈ (G.level s).frontier ↔ DistAt G.Adj start (n + 1) v := by
    intro v
    rw [hscan.frontier, h.distAt_succ_iff]
    exact or_iff_right List.not_mem_nil
  refine ⟨hscan.settled, ?_, hfrontier, ?_⟩
  · intro v
    rw [within_succ_iff, ← h.reached, h.distAt_succ_iff, hscan.settled.reached, hscan.visited,
      h.settled.reached]
    constructor
    · rintro ⟨hold | hnew, haccepts⟩
      · exact Or.inl ⟨hold, haccepts⟩
      · by_cases hold : v ∈ s.visited
        · exact Or.inl ⟨hold, haccepts⟩
        · exact Or.inr ⟨haccepts, hold, hnew⟩
    · rintro (⟨hold, haccepts⟩ | ⟨haccepts, -, hnew⟩)
      · exact ⟨Or.inl hold, haccepts⟩
      · exact ⟨Or.inr hnew, haccepts⟩
  · intro e
    rw [hscan.edges, h.edges]
    constructor
    · rintro (⟨m, hm, hrest⟩ | ⟨u, ⟨hu, he⟩, haccepts⟩)
      · exact ⟨m, by omega, hrest⟩
      · exact ⟨n, by omega, u, (h.frontier u).1 hu, he, haccepts⟩
    · rintro ⟨m, hm, u, hu, he, haccepts⟩
      rcases Nat.lt_succ_iff_lt_or_eq.1 hm with hlt | rfl
      · exact Or.inl ⟨m, hlt, u, hu, he, haccepts⟩
      · exact Or.inr ⟨u, ⟨(h.frontier u).2 hu, he⟩, haccepts⟩

theorem atDepth_search (hstart : G.accepts start = true) (n : Nat) :
    AtDepth G start n (G.search start n) := by
  induction n with
  | zero =>
    refine ⟨⟨?_, List.nodup_singleton start, ?_, List.nodup_nil⟩, ?_, ?_, ?_⟩
    · intro v
      simp only [search, begin, Function.iterate_zero, id_eq, List.mem_singleton]
      constructor
      · rintro rfl
        exact ⟨rfl, hstart⟩
      · exact And.left
    · intro e he
      cases he
    · intro v
      simp [search, begin, Within, distAt_zero_iff]
    · intro v
      simp [search, begin, distAt_zero_iff]
    · intro e
      simp [search, begin]
  | succ n ih =>
    rw [search, Function.iterate_succ_apply']
    exact ih.level

omit [DecidableEq K] in
theorem AtDepth.truncated_iff (h : AtDepth G start n s) :
    G.truncated s = true ↔ ∃ v, DistAt G.Adj start (n + 1) v := by
  simp only [truncated, List.any_eq_true, Bool.and_eq_true, decide_eq_true_eq]
  constructor
  · rintro ⟨u, hu, e, he, hnew, haccepts⟩
    exact ⟨G.other e u, h.distAt_succ_iff.2 ⟨haccepts, hnew, u, e, ⟨hu, he⟩, rfl⟩⟩
  · rintro ⟨v, hdist⟩
    obtain ⟨haccepts, hnew, u, e, ⟨hu, he⟩, rfl⟩ := h.distAt_succ_iff.1 hdist
    exact ⟨u, hu, e, he, hnew, haccepts⟩

theorem iterate_level_of_frontier_nil (h : s.frontier = []) (n : Nat) : G.level^[n] s = s := by
  have hfixed : G.level s = s := by
    unfold Network.level
    rw [h, List.foldl_nil, ← h]
  exact Function.iterate_fixed hfixed n

end Network

end DepthSearch
