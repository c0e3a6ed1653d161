import Himmy.Library.DepthSearch
import Himmy.Memory.Service

/-! # The memory graph

`traverse_memory_graph` walks the links between memories breadth first from one seed, up to a depth.
A memory that the filters of the caller do not accept is neither returned nor walked through, and its
links are left out. `recall` with `max_hops` runs one walk for each hit and appends what the walks
find (`traverse_exact`). -/

namespace Himmy

structure MemoryGraph where
  rootMemoryId : String
  nodes : Dict MemoryRecord
  edges : List MemoryLink
  truncated : Bool

/-- A memory store of either kind. -/
inductive MemoryBackend where
  | inMemory (store : InMemoryMemories)
  | sqlite (store : SqliteMemories)

namespace MemoryBackend

variable (store : MemoryBackend) (memoryId : String)

def get : Option MemoryRecord :=
  match store with
  | inMemory store => inMemoryMemoryStore.get store memoryId
  | sqlite store => sqliteMemoryStore.get store memoryId

def links : KeyedList MemoryLink.linkId :=
  match store with
  | inMemory store => store.links
  | sqlite store => store.memoryLinks

/-- The closure `neighbors` of `_traverse`: `[*links_from, *links_to]`. -/
def neighbors : List MemoryLink :=
  match store with
  | inMemory store =>
    inMemoryMemoryStore.linksFrom store memoryId ++ inMemoryMemoryStore.linksTo store memoryId
  | sqlite store =>
    sqliteMemoryStore.linksFrom store memoryId ++ sqliteMemoryStore.linksTo store memoryId

theorem mem_neighbors (link : MemoryLink) :
    link ∈ store.neighbors memoryId ↔ link ∈ store.links.items
      ∧ (link.fromMemoryId = memoryId ∨ link.toMemoryId = memoryId) := by
  cases store with
  | inMemory store =>
    simp only [neighbors, links, inMemoryMemoryStore, InMemoryMemories.linksFrom,
      InMemoryMemories.linksTo, List.mem_append, List.mem_filter, decide_eq_true_eq]
    tauto
  | sqlite store =>
    simp only [neighbors, links, sqliteMemoryStore, SqliteMemories.linksFrom,
      SqliteMemories.linksTo, List.mem_append, List.mem_filter, decide_eq_true_eq]
    tauto

end MemoryBackend

/-! ## The walk -/

def otherEndpoint (link : MemoryLink) (memoryId : String) : String :=
  if link.fromMemoryId = memoryId then link.toMemoryId else link.fromMemoryId

section Walk

variable (neighbors : String → List MemoryLink) (get : String → Option MemoryRecord)
  (accept : MemoryRecord → Bool) (relations : Option (List String))

def incidentLinks (memoryId : String) : List MemoryLink :=
  match relations with
  | none => neighbors memoryId
  | some relSet => (neighbors memoryId).filter (fun link => link.relation ∈ relSet)

/-- The locals of `traverse_memory_graph`; `frontier` is the next one while a level is walked. -/
structure MemoryWalk where
  nodes : Dict MemoryRecord
  edges : List MemoryLink := []
  seenEdges : List String := []
  visited : List String
  frontier : List String

variable (w : MemoryWalk)

def acceptEndpoint (other : String) : MemoryWalk :=
  if other ∉ w.visited then
    let w := { w with visited := other :: w.visited }
    match (get other).filter accept with
    | some record =>
      { w with nodes := w.nodes.set other record, frontier := w.frontier ++ [other] }
    | none => w
  else w

def traverseLink (mid : String) (w : MemoryWalk) (link : MemoryLink) : MemoryWalk :=
  let other := otherEndpoint link mid
  let w := acceptEndpoint get accept w other
  if (w.nodes.find? other).isSome ∧ link.linkId ∉ w.seenEdges then
    { w with seenEdges := link.linkId :: w.seenEdges, edges := w.edges ++ [link] }
  else w

def traverseMemory (mid : String) : MemoryWalk :=
  (incidentLinks neighbors relations mid).foldl (traverseLink get accept mid) w

def traverseLevels : Nat → MemoryWalk → MemoryWalk
  | 0, w => w
  | n + 1, w =>
    if w.frontier.isEmpty then w
    else traverseLevels n
      (w.frontier.foldl (traverseMemory neighbors get accept relations) { w with frontier := [] })

def isTruncated : Bool :=
  w.frontier.any (fun mid => (incidentLinks neighbors relations mid).any (fun link =>
    decide (otherEndpoint link mid ∉ w.visited) && (get (otherEndpoint link mid)).any accept))

def traverseMemoryGraph (seedMemoryId : String) (maxDepth : Int) : MemoryGraph :=
  match (get seedMemoryId).filter accept with
  | none =>
    { rootMemoryId := seedMemoryId, nodes := KeyedList.empty, edges := [], truncated := false }
  | some seed =>
    let w := traverseLevels neighbors get accept relations (max 0 maxDepth).toNat
      { nodes := Dict.set KeyedList.empty seedMemoryId seed
        visited := [seedMemoryId]
        frontier := [seedMemoryId] }
    { rootMemoryId := seedMemoryId, nodes := w.nodes, edges := w.edges
      truncated := isTruncated neighbors get accept relations w }

end Walk

/-- The filters of `_traverse`. -/
structure TraverseFilters where
  asOf : Option String := none
  activeOnly : Bool := false
  tier : Option String := none
  subjectId : Option String := none

/-- The closure `accept` of `_traverse`. -/
def TraverseFilters.accept (filters : TraverseFilters) (record : MemoryRecord) : Bool :=
  ofSubject filters.subjectId record && passesFilters record filters.activeOnly filters.tier
    && filters.asOf.all (fun asOf => isValidAt record asOf)

def MemoryBackend.traverse (store : MemoryBackend) (seedMemoryId : String) (maxDepth : Int)
    (filters : TraverseFilters) : MemoryGraph :=
  traverseMemoryGraph store.neighbors store.get filters.accept none seedMemoryId maxDepth

/-- The body of the inner loop of `_expand_with_related`, over the ids seen and the hits so far. -/
def appendRelated {Sim : Type} [Zero Sim] (acc : List String × List (MemoryHit Sim))
    (node : String × MemoryRecord) : List String × List (MemoryHit Sim) :=
  if node.1 ∈ acc.1 then acc
  else (node.1 :: acc.1, acc.2 ++ [{ record := node.2, similarity := 0 }])

def MemoryBackend.expandWithRelated {Sim : Type} [Zero Sim] (store : MemoryBackend)
    (hits : List (MemoryHit Sim)) (maxHops : Int) (filters : TraverseFilters) :
    List (MemoryHit Sim) :=
  (hits.foldl (fun acc hit =>
    (store.traverse hit.record.memoryId maxHops filters).nodes.items.foldl appendRelated acc)
    (hits.map (fun h => h.record.memoryId), hits)).2

/-! ## Links between memories -/

section Graph

variable (store : MemoryBackend) (accept : MemoryRecord → Bool)
  (relations : Option (List String))

/-- A stored link of an allowed relation joins two memories, in either direction. -/
def Joins (link : MemoryLink) (u v : String) : Prop :=
  link ∈ store.links.items ∧ (∀ relSet, relations = some relSet → link.relation ∈ relSet)
    ∧ (link.fromMemoryId = u ∧ link.toMemoryId = v ∨ link.toMemoryId = u ∧ link.fromMemoryId = v)

def Accepted (memoryId : String) : Prop :=
  ∃ record, store.get memoryId = some record ∧ accept record = true

def Related (u v : String) : Prop := Accepted store accept v ∧ ∃ link, Joins store relations link u v

def memoryNetwork : DepthSearch.Network String MemoryLink String where
  incident := incidentLinks store.neighbors relations
  other := otherEndpoint
  key := MemoryLink.linkId
  accepts id := (store.get id).any accept
  key_inj := by
    intro u u' link link' h h' heq
    have hlinks : ∀ {u link}, link ∈ incidentLinks store.neighbors relations u →
        link ∈ store.links.items := by
      intro u link hlink
      unfold incidentLinks at hlink
      split at hlink
      · exact ((store.mem_neighbors u link).1 hlink).1
      · exact ((store.mem_neighbors u link).1 (List.mem_filter.1 hlink).1).1
    exact List.inj_on_of_nodup_map store.links.nodup_keys (hlinks h) (hlinks h') heq

variable {store accept relations}

variable (accept) in
theorem joins_iff (link : MemoryLink) (u v : String) : Joins store relations link u v
    ↔ link ∈ (memoryNetwork store accept relations).incident u ∧ otherEndpoint link u = v := by
  have hincident : link ∈ (memoryNetwork store accept relations).incident u
      ↔ link ∈ store.neighbors u ∧ ∀ relSet, relations = some relSet → link.relation ∈ relSet := by
    show link ∈ incidentLinks store.neighbors relations u ↔ _
    unfold incidentLinks
    cases relations <;> simp
  rw [hincident, store.mem_neighbors]
  unfold Joins otherEndpoint
  constructor
  · rintro ⟨hlink, hrelation, ⟨rfl, rfl⟩ | ⟨rfl, rfl⟩⟩
    · exact ⟨⟨⟨hlink, Or.inl rfl⟩, hrelation⟩, if_pos rfl⟩
    · refine ⟨⟨⟨hlink, Or.inr rfl⟩, hrelation⟩, ?_⟩
      split
      · next hloop => exact hloop.symm
      · rfl
  · rintro ⟨⟨⟨hlink, rfl | rfl⟩, hrelation⟩, hother⟩
    · exact ⟨hlink, hrelation, Or.inl ⟨rfl, by rw [← hother, if_pos rfl]⟩⟩
    · refine ⟨hlink, hrelation, Or.inr ⟨rfl, ?_⟩⟩
      rw [← hother]
      split
      · next hloop => exact hloop
      · rfl

theorem accepts_iff (id : String) : (memoryNetwork store accept relations).accepts id = true
    ↔ Accepted store accept id := by
  show (store.get id).any accept = true ↔ _
  rw [Option.any_eq_true]
  rfl

theorem adj_memoryNetwork :
    (memoryNetwork store accept relations).Adj = Related store accept relations := by
  funext u v
  apply propext
  unfold DepthSearch.Network.Adj Related
  rw [accepts_iff]
  constructor
  · rintro ⟨haccepted, link, hlink, hother⟩
    exact ⟨haccepted, link, (joins_iff accept link u v).2 ⟨hlink, hother⟩⟩
  · rintro ⟨haccepted, link, hjoins⟩
    obtain ⟨hlink, hother⟩ := (joins_iff accept link u v).1 hjoins
    exact ⟨haccepted, link, hlink, hother⟩

/-! ## The loop is a search -/

/-- The locals of the walk hold what the search has seen, with the reached records. -/
structure MirrorsSearch (store : MemoryBackend) (accept : MemoryRecord → Bool) (w : MemoryWalk)
    (s : DepthSearch.Search String MemoryLink) : Prop where
  visited : w.visited = s.visited
  edges : w.edges = s.edges
  seenEdges : ∀ k, k ∈ w.seenEdges ↔ k ∈ s.edges.map MemoryLink.linkId
  frontier : w.frontier = s.frontier
  nodes : ∀ id r, w.nodes.find? id = some r ↔ id ∈ s.reached ∧ store.get id = some r
  stored : ∀ id ∈ s.reached, Accepted store accept id

variable {w : MemoryWalk} {s : DepthSearch.Search String MemoryLink}

theorem MirrorsSearch.isSome_iff (h : MirrorsSearch store accept w s) (id : String) :
    (w.nodes.find? id).isSome = true ↔ id ∈ s.reached := by
  rw [Option.isSome_iff_exists]
  constructor
  · rintro ⟨r, hr⟩
    exact ((h.nodes id r).1 hr).1
  · intro hid
    obtain ⟨r, hr, -⟩ := h.stored id hid
    exact ⟨r, (h.nodes id r).2 ⟨hid, hr⟩⟩

theorem mirrorsSearch_begin {seed : MemoryRecord} {seedId : String}
    (hget : store.get seedId = some seed) (haccept : accept seed = true) :
    MirrorsSearch store accept
      { nodes := Dict.set KeyedList.empty seedId seed, visited := [seedId], frontier := [seedId] }
      (DepthSearch.Network.begin seedId) := by
  refine ⟨rfl, rfl, ?_, rfl, ?_, ?_⟩
  · simp [DepthSearch.Network.begin]
  · intro id r
    simp only [DepthSearch.Network.begin, List.mem_singleton]
    rw [Dict.find?_set]
    split
    · next heq => simp [heq, hget]
    · next hne =>
        constructor
        · intro hfind
          cases hfind
        · rintro ⟨heq, -⟩
          exact absurd heq hne
  · intro id hid
    rw [List.mem_singleton.1 hid]
    exact ⟨seed, hget, haccept⟩

section

variable (h : MirrorsSearch store accept w s)

include h

theorem MirrorsSearch.decideNode (other : String) :
    MirrorsSearch store accept (acceptEndpoint store.get accept w other)
      ((memoryNetwork store accept relations).decideNode s other) := by
  unfold acceptEndpoint DepthSearch.Network.decideNode
  rw [h.visited]
  by_cases hold : other ∈ s.visited
  · rw [if_neg (not_not.2 hold), if_pos hold]
    exact h
  · rw [if_pos hold, if_neg hold]
    have haccepts : (memoryNetwork store accept relations).accepts other = true ↔ _ :=
      accepts_iff other
    cases hfilter : (store.get other).filter accept with
    | none =>
      have hnot : ¬ (memoryNetwork store accept relations).accepts other = true := by
        rw [haccepts]
        rintro ⟨r, hr, hacc⟩
        rw [hr, Option.filter_some, if_pos hacc] at hfilter
        cases hfilter
      rw [if_neg hnot]
      exact ⟨rfl, h.edges, h.seenEdges, h.frontier, h.nodes, h.stored⟩
    | some record =>
      obtain ⟨hget, hacc⟩ := Option.filter_eq_some_iff.1 hfilter
      rw [if_pos (haccepts.2 ⟨record, hget, hacc⟩)]
      refine ⟨rfl, h.edges, h.seenEdges, by rw [h.frontier], ?_, ?_⟩
      · intro id r
        show (w.nodes.set other record).find? id = some r ↔ _
        rw [Dict.find?_set, List.mem_append, List.mem_singleton]
        split
        · next heq => simp [heq, hget]
        · next hne => rw [h.nodes, or_iff_left hne]
      · intro id hid
        rcases List.mem_append.1 hid with hid | hid
        · exact h.stored id hid
        · rw [List.mem_singleton.1 hid]
          exact ⟨record, hget, hacc⟩

theorem MirrorsSearch.traverseLink (mid : String) (link : MemoryLink) :
    MirrorsSearch store accept (traverseLink store.get accept mid w link)
      ((memoryNetwork store accept relations).visit mid s link) := by
  have hdecided : MirrorsSearch store accept _
      ((memoryNetwork store accept relations).decideNode s (otherEndpoint link mid)) :=
    h.decideNode (otherEndpoint link mid)
  show MirrorsSearch store accept _ ((memoryNetwork store accept relations).collect
    ((memoryNetwork store accept relations).decideNode s (otherEndpoint link mid)) link
    (otherEndpoint link mid))
  have hkey : (memoryNetwork store accept relations).key = MemoryLink.linkId := rfl
  unfold Himmy.traverseLink DepthSearch.Network.collect
  simp only [hkey, hdecided.isSome_iff, hdecided.seenEdges]
  split
  · refine ⟨hdecided.visited, by rw [hdecided.edges], ?_, hdecided.frontier, hdecided.nodes,
      hdecided.stored⟩
    intro k
    rw [List.mem_cons, hdecided.seenEdges, List.map_append, List.mem_append, List.map_singleton,
      List.mem_singleton]
    exact or_comm
  · exact hdecided

theorem MirrorsSearch.traverseMemory (mid : String) :
    MirrorsSearch store accept (traverseMemory store.neighbors store.get accept relations w mid)
      ((memoryNetwork store accept relations).expand s mid) := by
  unfold Himmy.traverseMemory DepthSearch.Network.expand
  refine List.foldl_rel h ?_
  intro link _ w s h
  exact h.traverseLink mid link

theorem MirrorsSearch.traverseLevels (n : Nat) :
    MirrorsSearch store accept (traverseLevels store.neighbors store.get accept relations n w)
      ((memoryNetwork store accept relations).level^[n] s) := by
  induction n generalizing w s with
  | zero => exact h
  | succ n ih =>
    rw [Himmy.traverseLevels]
    split
    · next hempty =>
        have hnil : s.frontier = [] := by rw [← h.frontier, List.isEmpty_iff.1 hempty]
        rw [DepthSearch.Network.iterate_level_of_frontier_nil hnil]
        exact h
    · rw [Function.iterate_succ_apply]
      apply ih
      unfold DepthSearch.Network.level
      rw [h.frontier]
      refine List.foldl_rel ⟨h.visited, h.edges, h.seenEdges, rfl, h.nodes, h.stored⟩ ?_
      intro mid _ w s h
      exact h.traverseMemory mid

theorem MirrorsSearch.isTruncated : isTruncated store.neighbors store.get accept relations w
      = (memoryNetwork store accept relations).truncated s := by
  unfold Himmy.isTruncated DepthSearch.Network.truncated
  rw [h.frontier, h.visited]
  rfl

end

end Graph

/-! ## What a traversal returns -/

/-- The graph is the part of the memories within a depth of a seed: the accepted memories that are
    reached over accepted ones in at most `depth` links, the links between one reached in fewer and
    one that is returned, and whether an accepted memory lies one link further. -/
structure MemoryGraph.IsPart (graph : MemoryGraph) (store : MemoryBackend)
    (accept : MemoryRecord → Bool) (relations : Option (List String)) (seedId : String)
    (depth : Nat) : Prop where
  nodes : ∀ id r, graph.nodes.find? id = some r ↔ store.get id = some r
    ∧ Accepted store accept seedId
    ∧ DepthSearch.Within (Related store accept relations) seedId depth id
  edges : ∀ link, link ∈ graph.edges ↔ Accepted store accept seedId ∧ ∃ m < depth, ∃ u v,
    DepthSearch.DistAt (Related store accept relations) seedId m u
      ∧ DepthSearch.Within (Related store accept relations) seedId depth v
      ∧ Joins store relations link u v
  distinct : graph.edges.Nodup
  truncated : graph.truncated = true ↔ Accepted store accept seedId
    ∧ ∃ id, DepthSearch.DistAt (Related store accept relations) seedId (depth + 1) id

theorem accepted_iff {store : MemoryBackend} {accept : MemoryRecord → Bool} {id : String} :
    Accepted store accept id ↔ ∃ r, (store.get id).filter accept = some r := by
  unfold Accepted
  simp only [Option.filter_eq_some_iff]

theorem MirrorsSearch.isPart {store : MemoryBackend} {accept : MemoryRecord → Bool}
    {relations : Option (List String)} {seedId : String} {depth : Nat} {w : MemoryWalk}
    {s : DepthSearch.Search String MemoryLink} (h : MirrorsSearch store accept w s)
    (hdepth : (memoryNetwork store accept relations).AtDepth seedId depth s)
    (hseed : Accepted store accept seedId) : MemoryGraph.IsPart
      { rootMemoryId := seedId, nodes := w.nodes, edges := w.edges
        truncated := Himmy.isTruncated store.neighbors store.get accept relations w }
      store accept relations seedId depth := by
  have hadj : (memoryNetwork store accept relations).Adj = Related store accept relations :=
    adj_memoryNetwork
  refine ⟨?_, ?_, ?_, ?_⟩
  · intro id r
    rw [h.nodes, hdepth.reached, hadj, and_comm]
    simp [hseed]
  · intro link
    show link ∈ w.edges ↔ _
    rw [h.edges, hdepth.edges, hadj]
    constructor
    · rintro ⟨m, hm, u, hdist, hlink, haccepts⟩
      have hjoins := (joins_iff accept link u _).2 ⟨hlink, rfl⟩
      refine ⟨hseed, m, hm, u, _, hdist, ?_, hjoins⟩
      exact DepthSearch.within_iff.2
        ⟨m + 1, by omega, u, hdist.1, (accepts_iff _).1 haccepts, link, hjoins⟩
    · rintro ⟨-, m, hm, u, v, hdist, hwithin, hjoins⟩
      obtain ⟨hlink, hother⟩ := (joins_iff accept link u v).1 hjoins
      refine ⟨m, hm, u, hdist, hlink, ?_⟩
      -- what is returned is accepted
      rw [← hadj, ← hdepth.reached, hdepth.settled.reached] at hwithin
      rw [← hother] at hwithin
      exact hwithin.2
  · show w.edges.Nodup
    rw [h.edges]
    exact hdepth.settled.keys.of_map
  · show Himmy.isTruncated store.neighbors store.get accept relations w = true ↔ _
    rw [h.isTruncated, hdepth.truncated_iff, hadj]
    simp [hseed]

theorem isPart_traverseMemoryGraph (store : MemoryBackend) (accept : MemoryRecord → Bool)
    (relations : Option (List String)) (seedId : String) (maxDepth : Int) :
    (traverseMemoryGraph store.neighbors store.get accept relations seedId maxDepth).IsPart store
      accept relations seedId (max 0 maxDepth).toNat := by
  unfold traverseMemoryGraph
  cases hseed : (store.get seedId).filter accept with
  | none =>
    have hnot : ¬ Accepted store accept seedId := by
      rw [accepted_iff, hseed]
      simp
    refine ⟨?_, ?_, List.nodup_nil, ?_⟩
    · intro id r
      have hempty : Dict.find? (KeyedList.empty : Dict MemoryRecord) id = none := rfl
      simp [hnot, hempty]
    · intro link
      simp [hnot]
    · simp [hnot]
  | some seed =>
    obtain ⟨hget, haccept⟩ := Option.filter_eq_some_iff.1 hseed
    have haccepts : (memoryNetwork store accept relations).accepts seedId = true :=
      (accepts_iff seedId).2 ⟨seed, hget, haccept⟩
    exact ((mirrorsSearch_begin hget haccept).traverseLevels _).isPart
      (DepthSearch.Network.atDepth_search haccepts _) ⟨seed, hget, haccept⟩

/-! ## Several seeds -/

section Seeds

variable {Sim : Type} [Zero Sim] {store : MemoryBackend} {filters : TraverseFilters}

theorem foldl_appendRelated (nodes : List (String × MemoryRecord))
    (hkeys : ∀ node ∈ nodes, node.2.memoryId = node.1) (acc : List String × List (MemoryHit Sim)) :
    ∃ extra, (nodes.foldl appendRelated acc).2 = acc.2 ++ extra
      ∧ (∀ id, id ∈ (nodes.foldl appendRelated acc).1
        ↔ id ∈ acc.1 ∨ id ∈ extra.map (fun h => h.record.memoryId))
      ∧ (∀ h ∈ extra, h.similarity = 0 ∧ (h.record.memoryId, h.record) ∈ nodes)
      ∧ (∀ node ∈ nodes, node.1 ∈ (nodes.foldl appendRelated acc).1)
      ∧ (extra.map (fun h => h.record.memoryId)).Nodup
      ∧ ∀ h ∈ extra, h.record.memoryId ∉ acc.1 := by
  induction nodes generalizing acc with
  | nil => exact ⟨[], by simp⟩
  | cons node nodes ih =>
    have hnode := hkeys node List.mem_cons_self
    have hrest := fun n hn => hkeys n (List.mem_cons_of_mem node hn)
    rw [List.foldl_cons]
    by_cases hold : node.1 ∈ acc.1
    · have hstep : appendRelated acc node = acc := if_pos hold
      rw [hstep]
      obtain ⟨extra, hhits, hids, hfrom, hall, hnodup, hnew⟩ := ih hrest acc
      refine ⟨extra, hhits, hids, ?_, ?_, hnodup, hnew⟩
      · intro h hh
        exact ⟨(hfrom h hh).1, List.mem_cons_of_mem node (hfrom h hh).2⟩
      · intro n hn
        rcases List.mem_cons.1 hn with rfl | hn
        · exact (hids _).2 (Or.inl hold)
        · exact hall n hn
    · have hstep : appendRelated acc node
          = (node.1 :: acc.1, acc.2 ++ [{ record := node.2, similarity := 0 }]) := if_neg hold
      rw [hstep]
      obtain ⟨extra, hhits, hids, hfrom, hall, hnodup, hnew⟩ :=
        ih hrest (node.1 :: acc.1, acc.2 ++ [{ record := node.2, similarity := 0 }])
      refine ⟨{ record := node.2, similarity := 0 } :: extra, ?_, ?_, ?_, ?_, ?_, ?_⟩
      · rw [hhits, List.append_assoc, List.singleton_append]
      · intro id
        rw [hids, List.mem_cons, List.map_cons, List.mem_cons, hnode]
        tauto
      · intro h hh
        rcases List.mem_cons.1 hh with rfl | hh
        · exact ⟨rfl, by rw [hnode]; exact List.mem_cons_self⟩
        · exact ⟨(hfrom h hh).1, List.mem_cons_of_mem node (hfrom h hh).2⟩
      · intro n hn
        rcases List.mem_cons.1 hn with rfl | hn
        · exact (hids _).2 (Or.inl List.mem_cons_self)
        · exact hall n hn
      · rw [List.map_cons, List.nodup_cons]
        refine ⟨?_, hnodup⟩
        intro hmem
        obtain ⟨h, hh, heq⟩ := List.mem_map.1 hmem
        exact hnew h hh (List.mem_cons.2 (Or.inl (heq.trans hnode)))
      · intro h hh
        rcases List.mem_cons.1 hh with rfl | hh
        · rw [hnode]
          exact hold
        · exact fun hmem => hnew h hh (List.mem_cons_of_mem _ hmem)

def relatedNodes (store : MemoryBackend) (hits : List (MemoryHit Sim)) (maxHops : Int)
    (filters : TraverseFilters) : List (String × MemoryRecord) :=
  hits.flatMap (fun hit => (store.traverse hit.record.memoryId maxHops filters).nodes.items)

theorem expandWithRelated_eq (hits : List (MemoryHit Sim)) (maxHops : Int) :
    store.expandWithRelated hits maxHops filters
      = ((relatedNodes store hits maxHops filters).foldl appendRelated
        (hits.map (fun h => h.record.memoryId), hits)).2 := by
  unfold MemoryBackend.expandWithRelated relatedNodes
  rw [List.foldl_flatMap]

theorem memoryId_of_get {id : String} {r : MemoryRecord} (h : store.get id = some r) :
    r.memoryId = id := by
  cases store with
  | inMemory store => exact inMemoryMemoryStore.memoryId_of_get h
  | sqlite store => exact sqliteMemoryStore.memoryId_of_get h

omit [Zero Sim] in
theorem mem_relatedNodes_iff (hits : List (MemoryHit Sim)) (maxHops : Int)
    (node : String × MemoryRecord) : node ∈ relatedNodes store hits maxHops filters
      ↔ ∃ hit ∈ hits, store.get node.1 = some node.2
        ∧ Accepted store filters.accept hit.record.memoryId
        ∧ DepthSearch.Within (Related store filters.accept none) hit.record.memoryId
          (max 0 maxHops).toNat node.1 := by
  unfold relatedNodes
  rw [List.mem_flatMap]
  constructor
  · rintro ⟨hit, hhit, hnode⟩
    have hpart := isPart_traverseMemoryGraph store filters.accept none hit.record.memoryId maxHops
    exact ⟨hit, hhit, (hpart.nodes node.1 node.2).1 (Dict.find?_eq_some_iff.2 hnode)⟩
  · rintro ⟨hit, hhit, hreached⟩
    have hpart := isPart_traverseMemoryGraph store filters.accept none hit.record.memoryId maxHops
    exact ⟨hit, hhit, Dict.find?_eq_some_iff.1 ((hpart.nodes node.1 node.2).2 hreached)⟩

end Seeds

/-- The hits, followed by the accepted memories that are reached from one of them, each once. -/
def ExpandsHits {Sim : Type} [Zero Sim] (store : MemoryBackend) (hits : List (MemoryHit Sim))
    (depth : Nat) (filters : TraverseFilters) (expanded : List (MemoryHit Sim)) : Prop :=
  ∃ extra, expanded = hits ++ extra ∧ (extra.map (fun h => h.record.memoryId)).Nodup
    ∧ (∀ h ∈ extra, h.similarity = 0)
    ∧ ∀ r : MemoryRecord, r ∈ extra.map MemoryHit.record
      ↔ store.get r.memoryId = some r ∧ r.memoryId ∉ hits.map (fun h => h.record.memoryId)
        ∧ ∃ hit ∈ hits, Accepted store filters.accept hit.record.memoryId
          ∧ DepthSearch.Within (Related store filters.accept none) hit.record.memoryId depth
            r.memoryId

/-- A traversal is exact for every memory graph, seed, acceptance filter, relation filter and depth,
    and the expansion of a recall for every list of hits. A negative depth counts as 0. -/
theorem traverse_exact {Sim : Type} [Zero Sim] (store : MemoryBackend) (maxDepth : Int) :
    (∀ (accept : MemoryRecord → Bool) (relations : Option (List String)) (seedId : String),
      (traverseMemoryGraph store.neighbors store.get accept relations seedId maxDepth).IsPart store
        accept relations seedId (max 0 maxDepth).toNat)
    ∧ ∀ (filters : TraverseFilters) (hits : List (MemoryHit Sim)),
      ExpandsHits store hits (max 0 maxDepth).toNat filters
        (store.expandWithRelated hits maxDepth filters) := by
  refine ⟨fun accept relations seedId =>
    isPart_traverseMemoryGraph store accept relations seedId maxDepth, ?_⟩
  intro filters hits
  rw [expandWithRelated_eq]
  have hkeys : ∀ node ∈ relatedNodes store hits maxDepth filters, node.2.memoryId = node.1 := by
    intro node hnode
    obtain ⟨-, -, hget, -⟩ := (mem_relatedNodes_iff hits maxDepth node).1 hnode
    exact memoryId_of_get hget
  obtain ⟨extra, hhits, hids, hfrom, hall, hnodup, hnew⟩ := foldl_appendRelated _ hkeys
    (hits.map (fun h => h.record.memoryId), hits)
  refine ⟨extra, hhits, hnodup, fun h hh => (hfrom h hh).1, ?_⟩
  intro r
  constructor
  · intro hr
    obtain ⟨h, hh, rfl⟩ := List.mem_map.1 hr
    obtain ⟨hit, hhit, hget, haccepted, hwithin⟩ :=
      (mem_relatedNodes_iff hits maxDepth _).1 (hfrom h hh).2
    exact ⟨hget, hnew h hh, hit, hhit, haccepted, hwithin⟩
  · rintro ⟨hget, hnot, hit, hhit, haccepted, hwithin⟩
    have hnode := (mem_relatedNodes_iff hits maxDepth (r.memoryId, r)).2
      ⟨hit, hhit, hget, haccepted, hwithin⟩
    rcases (hids _).1 (hall _ hnode) with hold | hmem
    · exact absurd hold hnot
    · obtain ⟨h, hh, heq⟩ := List.mem_map.1 hmem
      obtain ⟨-, -, hget', -⟩ := (mem_relatedNodes_iff hits maxDepth _).1 (hfrom h hh).2
      rw [heq, hget] at hget'
      exact List.mem_map.2 ⟨h, hh, (Option.some.inj hget').symm⟩

/-! ### A depth below 0 -/

def MemoryGraph.NodesWithin (graph : MemoryGraph) (store : MemoryBackend)
    (accept : MemoryRecord → Bool) (seedId : String) (maxDepth : Int) : Prop :=
  ∀ id r, graph.nodes.find? id = some r ↔ store.get id = some r ∧ Accepted store accept seedId
    ∧ ∃ n : Nat, (n : Int) ≤ maxDepth
      ∧ DepthSearch.DistAt (Related store accept none) seedId n id

private def oneMemory : MemoryBackend :=
  .inMemory { records := KeyedList.empty.put { memoryId := "m-1", createdAt := "t0" } }

theorem traverse_negative_depth :
    ¬ (oneMemory.traverse "m-1" (-1) {}).NodesWithin oneMemory (TraverseFilters.accept {}) "m-1"
      (-1) := by
  intro hnodes
  obtain ⟨r, hr⟩ : ∃ r, (oneMemory.traverse "m-1" (-1) {}).nodes.find? "m-1" = some r :=
    Option.isSome_iff_exists.1 (by decide +kernel)
  obtain ⟨-, -, n, hn, -⟩ := (hnodes "m-1" r).1 hr
  omega

end Himmy
