import Himmy.Library.DepthSearch
import Himmy.Entities.SqliteRegistry

/-! # Lineage traces

`trace` walks the links of a registry breadth first from a record, up to a depth. Both registries
have the same loop over their own lookups. A link is stored whether or not there are records under
its two ids, so the walk goes over ids: one without a record is walked through but is not a node of
the result (`trace_exact`). -/

namespace Himmy

open KeyedList (empty)

inductive LineageDirection where
  | out
  | into
  | both
  deriving DecidableEq

structure LineageGraph where
  rootId : String
  nodes : Dict EntityRecord
  edges : List EntityLink
  truncated : Bool

/-- A registry of either kind. The ids of links are fresh uuids; in the table they are the primary
    key. -/
inductive LineageRegistry where
  | inMemory (registry : EntityRegistry) (ids : (registry.links.map EntityLink.linkId).Nodup)
  | sqlite (tables : SpineTables) (ids : (tables.links.map EntityLink.linkId).Nodup)

namespace LineageRegistry

variable (registry : LineageRegistry) (recordId : String)

def get : Option EntityRecord :=
  match registry with
  | inMemory registry _ => registry.get recordId
  | sqlite tables _ => tables.get recordId

def links : List EntityLink :=
  match registry with
  | inMemory registry _ => registry.links
  | sqlite tables _ => tables.links

def linksFrom : List EntityLink :=
  registry.links.filter (fun link => link.fromRecordId = recordId)

def linksTo : List EntityLink :=
  registry.links.filter (fun link => link.toRecordId = recordId)

/-- The loop of `neighbors`: the links of the relation, each id once. -/
def distinctLinks (relation : Option String) (candidates : List EntityLink) : List EntityLink :=
  candidates.foldl (fun result link =>
    if relation.any (fun r => link.relation ≠ r) then result
    else if link.linkId ∈ result.map EntityLink.linkId then result
    else result ++ [link]) []

def neighbors (direction : LineageDirection) (relation : Option String) : List EntityLink :=
  distinctLinks relation
    ((if direction = .out ∨ direction = .both then registry.linksFrom recordId else [])
      ++ (if direction = .into ∨ direction = .both then registry.linksTo recordId else []))

/-! ## The walk -/

def otherEnd (link : EntityLink) (rid : String) : String :=
  if link.fromRecordId = rid then link.toRecordId else link.fromRecordId

/-- The locals of `trace`; `frontier` is the next one while a level is walked. -/
structure TraceWalk where
  nodes : Dict EntityRecord
  edges : List EntityLink := []
  seenEdges : List String := []
  visited : List String
  frontier : List String

/-- The body of the inner loop for a link that is not skipped. -/
def traceLink (rid : String) (w : TraceWalk) (link : EntityLink) : TraceWalk :=
  let w :=
    if link.linkId ∉ w.seenEdges then
      { w with seenEdges := link.linkId :: w.seenEdges, edges := w.edges ++ [link] }
    else w
  let other := otherEnd link rid
  if other ∈ w.visited then w
  else { w with
    visited := other :: w.visited
    nodes := match registry.get other with
      | some record => w.nodes.set other record
      | none => w.nodes
    frontier := w.frontier ++ [other] }

def allowed (relations : Option (List String)) (link : EntityLink) : Bool :=
  relations.all (fun relSet => link.relation ∈ relSet)

def traceRecord (direction : LineageDirection) (relations : Option (List String)) (w : TraceWalk)
    (rid : String) : TraceWalk :=
  (registry.neighbors rid direction none).foldl (fun w link =>
    if allowed relations link then registry.traceLink rid w link else w) w

def traceLevels (direction : LineageDirection) (relations : Option (List String)) :
    Nat → TraceWalk → TraceWalk
  | 0, w => w
  | n + 1, w =>
    if w.frontier.isEmpty then w
    else traceLevels direction relations n
      (w.frontier.foldl (registry.traceRecord direction relations) { w with frontier := [] })

def traceTruncated (direction : LineageDirection) (relations : Option (List String))
    (w : TraceWalk) : Bool :=
  w.frontier.any (fun rid => (registry.neighbors rid direction none).any (fun link =>
    allowed relations link && decide (otherEnd link rid ∉ w.visited)))

def traceStart : TraceWalk :=
  { nodes := match registry.get recordId with
      | some root => Dict.set empty recordId root
      | none => empty
    visited := [recordId]
    frontier := [recordId] }

def trace (maxDepth : Int) (direction : LineageDirection)
    (relations : Option (List String)) : LineageGraph :=
  let w := registry.traceLevels direction relations (max 0 maxDepth).toNat
    (registry.traceStart recordId)
  { rootId := recordId, nodes := w.nodes, edges := w.edges
    truncated := registry.traceTruncated direction relations w }

/-! ## What a trace reads -/

section Congr

variable {registry} {other : LineageRegistry} (hget : registry.get = other.get)
  (hlinks : registry.links = other.links)

include hlinks in
theorem neighbors_congr : registry.neighbors = other.neighbors := by
  funext recordId direction relation
  unfold neighbors linksFrom linksTo
  rw [hlinks]

include hget hlinks in
theorem traceRecord_congr : registry.traceRecord = other.traceRecord := by
  have hlink : registry.traceLink = other.traceLink := by
    funext rid w link
    unfold traceLink
    rw [hget]
  funext direction relations w rid
  unfold traceRecord
  rw [neighbors_congr hlinks, hlink]

include hget hlinks in
theorem trace_congr : registry.trace = other.trace := by
  have hlevels : ∀ direction relations n w,
      registry.traceLevels direction relations n w = other.traceLevels direction relations n w := by
    intro direction relations n
    induction n with
    | zero => exact fun w => rfl
    | succ n ih =>
      intro w
      rw [traceLevels, traceLevels, traceRecord_congr hget hlinks, ih]
  funext recordId maxDepth direction relations
  unfold trace traceTruncated traceStart
  simp only [hlevels, hget, neighbors_congr hlinks]

end Congr

/-! ## Links in a direction -/

/-- A link may be walked from `u` to `v`. -/
def Follows (direction : LineageDirection) (relations : Option (List String)) (link : EntityLink)
    (u v : String) : Prop :=
  link ∈ registry.links ∧ (∀ relSet, relations = some relSet → link.relation ∈ relSet)
    ∧ (direction ≠ .into ∧ link.fromRecordId = u ∧ link.toRecordId = v
      ∨ direction ≠ .out ∧ link.toRecordId = u ∧ link.fromRecordId = v)

/-- Some link may be walked from `u` to `v`. -/
def Leads (direction : LineageDirection) (relations : Option (List String)) (u v : String) : Prop :=
  ∃ link, registry.Follows direction relations link u v

variable {registry} {direction : LineageDirection} {relations : Option (List String)}

theorem nodup_links : (registry.links.map EntityLink.linkId).Nodup := by
  cases registry with
  | inMemory registry ids => exact ids
  | sqlite tables ids => exact ids

theorem linkId_inj {l l' : EntityLink} (h : l ∈ registry.links) (h' : l' ∈ registry.links)
    (heq : l.linkId = l'.linkId) : l = l' :=
  List.inj_on_of_nodup_map nodup_links h h' heq

theorem mem_distinctLinks {candidates : List EntityLink}
    (hmem : ∀ l ∈ candidates, l ∈ registry.links) (l : EntityLink) :
    l ∈ distinctLinks none candidates ↔ l ∈ candidates := by
  have hfold : ∀ (cs result : List EntityLink), (∀ l ∈ cs ++ result, l ∈ registry.links) →
      (l ∈ cs.foldl (fun result link =>
        if (none : Option String).any (fun r => link.relation ≠ r) then result
        else if link.linkId ∈ result.map EntityLink.linkId then result
        else result ++ [link]) result ↔ l ∈ cs ∨ l ∈ result) := by
    intro cs
    induction cs with
    | nil => simp
    | cons c cs ih =>
      intro result hin
      rw [List.foldl_cons]
      simp only [Option.any_none, Bool.false_eq_true, if_false] at ih ⊢
      split
      · next hold =>
          rw [ih result (fun d hd => hin d (by simp at hd ⊢; tauto)), List.mem_cons]
          -- the id is there, so the link is
          obtain ⟨c', hc', heq⟩ := List.mem_map.1 hold
          have hcc : c' = c := linkId_inj (hin c' (by simp [hc'])) (hin c (by simp)) heq
          constructor
          · tauto
          · rintro ((rfl | hl) | hl)
            · exact Or.inr (hcc ▸ hc')
            · exact Or.inl hl
            · exact Or.inr hl
      · rw [ih _ (fun d hd => hin d (by simp at hd ⊢; tauto)), List.mem_cons, List.mem_append,
          List.mem_singleton]
        tauto
  rw [distinctLinks, hfold candidates [] (by simpa using hmem)]
  simp

theorem mem_neighbors (rid : String) (l : EntityLink) :
    l ∈ registry.neighbors rid direction none ↔ l ∈ registry.links
      ∧ (direction ≠ .into ∧ l.fromRecordId = rid ∨ direction ≠ .out ∧ l.toRecordId = rid) := by
  have hfrom : l ∈ registry.linksFrom rid ↔ l ∈ registry.links ∧ l.fromRecordId = rid := by
    simp [linksFrom]
  have hto : l ∈ registry.linksTo rid ↔ l ∈ registry.links ∧ l.toRecordId = rid := by
    simp [linksTo]
  unfold neighbors
  rw [mem_distinctLinks]
  · cases direction <;> simp [hfrom, hto]
    tauto
  · intro l hl
    rw [List.mem_append] at hl
    rcases hl with hl | hl <;> split at hl
    · exact (List.mem_filter.1 hl).1
    · cases hl
    · exact (List.mem_filter.1 hl).1
    · cases hl

/-! ## The loop is a search -/

variable (registry direction relations) in
def network : DepthSearch.Network String EntityLink String where
  incident rid := (registry.neighbors rid direction none).filter (allowed relations)
  other := otherEnd
  key := EntityLink.linkId
  accepts _ := true
  key_inj h h' heq := linkId_inj ((mem_neighbors _ _).1 (List.mem_filter.1 h).1).1
    ((mem_neighbors _ _).1 (List.mem_filter.1 h').1).1 heq

theorem allowed_iff (link : EntityLink) : allowed relations link = true
    ↔ ∀ relSet, relations = some relSet → link.relation ∈ relSet := by
  cases relations <;> simp [allowed]

theorem follows_iff (link : EntityLink) (u v : String) :
    registry.Follows direction relations link u v
      ↔ link ∈ (registry.network direction relations).incident u ∧ otherEnd link u = v := by
  have hincident : link ∈ (registry.network direction relations).incident u
      ↔ link ∈ registry.neighbors u direction none ∧ allowed relations link = true :=
    List.mem_filter
  rw [hincident, mem_neighbors, allowed_iff]
  unfold Follows otherEnd
  constructor
  · rintro ⟨hlink, hallowed, ⟨hdir, rfl, rfl⟩ | ⟨hdir, rfl, rfl⟩⟩
    · exact ⟨⟨⟨hlink, Or.inl ⟨hdir, rfl⟩⟩, hallowed⟩, if_pos rfl⟩
    · refine ⟨⟨⟨hlink, Or.inr ⟨hdir, rfl⟩⟩, hallowed⟩, ?_⟩
      split
      · next hloop => exact hloop.symm
      · rfl
  · rintro ⟨⟨⟨hlink, ⟨hdir, rfl⟩ | ⟨hdir, rfl⟩⟩, hallowed⟩, hother⟩
    · exact ⟨hlink, hallowed, Or.inl ⟨hdir, rfl, by rw [← hother, if_pos rfl]⟩⟩
    · refine ⟨hlink, hallowed, Or.inr ⟨hdir, rfl, ?_⟩⟩
      rw [← hother]
      split
      · next hloop => exact hloop
      · rfl

theorem adj_network :
    (registry.network direction relations).Adj = registry.Leads direction relations := by
  funext u v
  apply propext
  constructor
  · rintro ⟨-, link, hlink, hother⟩
    exact ⟨link, (follows_iff link u v).2 ⟨hlink, hother⟩⟩
  · rintro ⟨link, hfollows⟩
    obtain ⟨hlink, hother⟩ := (follows_iff link u v).1 hfollows
    exact ⟨rfl, link, hlink, hother⟩

/-- The locals of `trace` hold what the search has seen, with the records of the visited ids. -/
structure Mirrors (registry : LineageRegistry) (w : TraceWalk)
    (s : DepthSearch.Search String EntityLink) : Prop where
  visited : w.visited = s.visited
  reached : ∀ v, v ∈ s.reached ↔ v ∈ s.visited
  edges : w.edges = s.edges
  seenEdges : ∀ k, k ∈ w.seenEdges ↔ k ∈ s.edges.map EntityLink.linkId
  frontier : w.frontier = s.frontier
  nodes : ∀ id r, w.nodes.find? id = some r ↔ id ∈ s.visited ∧ registry.get id = some r

variable {w : TraceWalk} {s : DepthSearch.Search String EntityLink}

theorem mirrors_traceStart (recordId : String) :
    registry.Mirrors (registry.traceStart recordId) (DepthSearch.Network.begin recordId) := by
  refine ⟨rfl, fun v => Iff.rfl, rfl, ?_, rfl, ?_⟩
  · simp [traceStart, DepthSearch.Network.begin]
  · intro id r
    simp only [traceStart, DepthSearch.Network.begin, List.mem_singleton]
    cases hget : registry.get recordId with
    | none =>
      constructor
      · intro hfind
        cases hfind
      · rintro ⟨rfl, hr⟩
        exact absurd (hget.symm.trans hr) (by simp)
    | some root =>
      show (Dict.set empty recordId root).find? id = some r ↔ _
      rw [Dict.find?_set]
      split
      · next heq => simp [heq, hget]
      · next hne =>
          constructor
          · intro hfind
            cases hfind
          · rintro ⟨heq, -⟩
            exact absurd heq hne

section

variable (h : registry.Mirrors w s)

include h

theorem Mirrors.collect {rid : String} (link : EntityLink)
    (hreached : otherEnd link rid ∈ s.reached) : registry.Mirrors (if link.linkId ∉ w.seenEdges then
        { w with seenEdges := link.linkId :: w.seenEdges, edges := w.edges ++ [link] }
      else w)
      ((registry.network direction relations).collect s link (otherEnd link rid)) := by
  unfold DepthSearch.Network.collect
  by_cases hseen : link.linkId ∈ w.seenEdges
  · have hkey : link.linkId ∈ s.edges.map EntityLink.linkId := (h.seenEdges _).1 hseen
    rw [if_neg (not_not.2 hseen), if_neg (fun hnew => hnew.2 hkey)]
    exact h
  · have hkey : link.linkId ∉ s.edges.map EntityLink.linkId := fun hk => hseen ((h.seenEdges _).2 hk)
    rw [if_pos hseen, if_pos ⟨hreached, hkey⟩]
    refine ⟨h.visited, h.reached, by rw [h.edges], ?_, h.frontier, h.nodes⟩
    intro k
    rw [List.mem_cons, h.seenEdges, List.map_append, List.mem_append, List.map_singleton,
      List.mem_singleton]
    exact or_comm

theorem Mirrors.decideNode (other : String) : registry.Mirrors (if other ∈ w.visited then w
      else { w with
        visited := other :: w.visited
        nodes := match registry.get other with
          | some record => w.nodes.set other record
          | none => w.nodes
        frontier := w.frontier ++ [other] })
      ((registry.network direction relations).decideNode s other) := by
  unfold DepthSearch.Network.decideNode
  by_cases hold : other ∈ s.visited
  · rw [if_pos (h.visited ▸ hold), if_pos hold]
    exact h
  · rw [if_neg (h.visited ▸ hold), if_neg hold,
      if_pos (show (registry.network direction relations).accepts other = true from rfl)]
    refine ⟨by rw [h.visited], ?_, h.edges, h.seenEdges, by rw [h.frontier], ?_⟩
    · intro v
      rw [List.mem_append, h.reached, List.mem_singleton, List.mem_cons]
      exact or_comm
    · intro id r
      rw [List.mem_cons]
      cases hget : registry.get other with
      | none =>
        show w.nodes.find? id = some r ↔ _
        rw [h.nodes]
        constructor
        · rintro ⟨hid, hr⟩
          exact ⟨Or.inr hid, hr⟩
        · rintro ⟨rfl | hid, hr⟩
          · exact absurd (hget.symm.trans hr) (by simp)
          · exact ⟨hid, hr⟩
      | some record =>
        show (w.nodes.set other record).find? id = some r ↔ _
        rw [Dict.find?_set]
        split
        · next heq => simp [heq, hget]
        · next hne => rw [h.nodes, or_iff_right hne]

theorem Mirrors.traceLink (rid : String) (link : EntityLink) :
    registry.Mirrors (registry.traceLink rid w link)
      ((registry.network direction relations).visit rid s link) := by
  have hdecided : registry.Mirrors _
      ((registry.network direction relations).decideNode s (otherEnd link rid)) :=
    h.decideNode (otherEnd link rid)
  have hreached : otherEnd link rid
      ∈ ((registry.network direction relations).decideNode s (otherEnd link rid)).reached := by
    rw [hdecided.reached, DepthSearch.Network.mem_visited_decideNode]
    exact Or.inr rfl
  have hcollected : registry.Mirrors _ ((registry.network direction relations).visit rid s link) :=
    hdecided.collect link hreached
  convert hcollected using 1
  unfold LineageRegistry.traceLink
  split_ifs <;> simp_all

theorem Mirrors.traceRecord (rid : String) :
    registry.Mirrors (registry.traceRecord direction relations w rid)
      ((registry.network direction relations).expand s rid) := by
  show registry.Mirrors _ (((registry.neighbors rid direction none).filter (allowed relations)).foldl
    ((registry.network direction relations).visit rid) s)
  rw [List.foldl_filter]
  unfold LineageRegistry.traceRecord
  refine List.foldl_rel h ?_
  intro link _ w s h
  split
  · exact h.traceLink rid link
  · exact h

theorem Mirrors.traceLevels (n : Nat) :
    registry.Mirrors (registry.traceLevels direction relations n w)
      ((registry.network direction relations).level^[n] s) := by
  induction n generalizing w s with
  | zero => exact h
  | succ n ih =>
    rw [LineageRegistry.traceLevels]
    split
    · next hempty =>
        -- the code leaves the loop here; the search has nothing to expand
        have hnil : s.frontier = [] := by rw [← h.frontier, List.isEmpty_iff.1 hempty]
        rw [DepthSearch.Network.iterate_level_of_frontier_nil hnil]
        exact h
    · rw [Function.iterate_succ_apply]
      apply ih
      unfold DepthSearch.Network.level
      rw [h.frontier]
      refine List.foldl_rel ⟨h.visited, h.reached, h.edges, h.seenEdges, rfl, h.nodes⟩ ?_
      intro rid _ w s h
      exact h.traceRecord rid

theorem Mirrors.traceTruncated : registry.traceTruncated direction relations w
      = (registry.network direction relations).truncated s := by
  unfold LineageRegistry.traceTruncated DepthSearch.Network.truncated
  rw [h.frontier, h.visited]
  refine congrArg (List.any s.frontier) (funext fun rid => ?_)
  show _ = ((registry.neighbors rid direction none).filter (allowed relations)).any _
  rw [List.any_filter]
  refine congrArg (List.any _) (funext fun link => ?_)
  show _ = (allowed relations link && (decide (otherEnd link rid ∉ s.visited) && true))
  rw [Bool.and_true]

end

end LineageRegistry

/-! ## What a trace returns -/

/-- The graph is the part of the lineage within a depth of an id: the records under the ids at
    distance at most `depth`, the links that may be walked from an id at a smaller distance, and
    whether any id lies one link further. -/
structure LineageGraph.IsPart (graph : LineageGraph) (registry : LineageRegistry)
    (direction : LineageDirection) (relations : Option (List String)) (recordId : String)
    (depth : Nat) : Prop where
  nodes : ∀ id r, graph.nodes.find? id = some r ↔ registry.get id = some r
    ∧ DepthSearch.Within (registry.Leads direction relations) recordId depth id
  edges : ∀ link, link ∈ graph.edges ↔ ∃ m < depth, ∃ u v,
    DepthSearch.DistAt (registry.Leads direction relations) recordId m u
      ∧ registry.Follows direction relations link u v
  distinct : graph.edges.Nodup
  truncated : graph.truncated = true
    ↔ ∃ id, DepthSearch.DistAt (registry.Leads direction relations) recordId (depth + 1) id

theorem LineageRegistry.Mirrors.isPart {registry : LineageRegistry}
    {direction : LineageDirection} {relations : Option (List String)} {recordId : String}
    {depth : Nat} {w : LineageRegistry.TraceWalk} {s : DepthSearch.Search String EntityLink}
    (h : registry.Mirrors w s)
    (hdepth : (registry.network direction relations).AtDepth recordId depth s) : LineageGraph.IsPart
      { rootId := recordId, nodes := w.nodes, edges := w.edges
        truncated := registry.traceTruncated direction relations w }
      registry direction relations recordId depth := by
  have hadj : (registry.network direction relations).Adj = registry.Leads direction relations :=
    LineageRegistry.adj_network
  refine ⟨?_, ?_, ?_, ?_⟩
  · intro id r
    rw [h.nodes, ← h.reached, hdepth.reached, hadj, and_comm]
  · intro link
    show link ∈ w.edges ↔ _
    rw [h.edges, hdepth.edges, hadj]
    constructor
    · rintro ⟨m, hm, u, hdist, hlink, -⟩
      exact ⟨m, hm, u, _, hdist, (LineageRegistry.follows_iff link u _).2 ⟨hlink, rfl⟩⟩
    · rintro ⟨m, hm, u, v, hdist, hfollows⟩
      exact ⟨m, hm, u, hdist, ((LineageRegistry.follows_iff link u v).1 hfollows).1, rfl⟩
  · show w.edges.Nodup
    rw [h.edges]
    exact hdepth.settled.keys.of_map
  · show registry.traceTruncated direction relations w = true ↔ _
    rw [h.traceTruncated, hdepth.truncated_iff, hadj]

/-- A trace is exact for every registry, start, direction, relation filter and depth; a negative
    depth counts as 0, and ids count as reached whether or not there is a record under them. -/
theorem trace_exact (registry : LineageRegistry) (recordId : String) (maxDepth : Int)
    (direction : LineageDirection) (relations : Option (List String)) :
    (registry.trace recordId maxDepth direction relations).IsPart registry direction relations
      recordId (max 0 maxDepth).toNat :=
  ((LineageRegistry.mirrors_traceStart recordId).traceLevels _).isPart
    (DepthSearch.Network.atDepth_search rfl _)

/-! ### Two traces

A record with a link to an id without a record, traced to depth 0, is reported as cut; and a depth
below 0 returns the record itself. -/

/-- `truncated` says that a record lies one link beyond the depth. -/
def LineageGraph.CutAtRecord (graph : LineageGraph) (registry : LineageRegistry)
    (direction : LineageDirection) (relations : Option (List String)) (recordId : String)
    (maxDepth : Int) : Prop :=
  graph.truncated = true ↔ ∃ (n : Nat) (id : String) (r : EntityRecord), (n : Int) = maxDepth + 1
    ∧ registry.get id = some r
    ∧ DepthSearch.DistAt (registry.Leads direction relations) recordId n id

def LineageGraph.NodesWithin (graph : LineageGraph) (registry : LineageRegistry)
    (direction : LineageDirection) (relations : Option (List String)) (recordId : String)
    (maxDepth : Int) : Prop :=
  ∀ id r, graph.nodes.find? id = some r ↔ registry.get id = some r ∧ ∃ n : Nat, (n : Int) ≤ maxDepth
    ∧ DepthSearch.DistAt (registry.Leads direction relations) recordId n id

private def danglingRegistry : EntityRegistry :=
  { records := empty.put
      { recordId := "thread-1", stableId := "t", version := 1, kind := "thread"
        payload := empty, metadata := empty, createdAt := "t0" }
    links := [{ linkId := "l-1", fromRecordId := "thread-1", toRecordId := "persona-1"
                relation := "uses_persona", metadata := empty, createdAt := "t0" }] }

private def danglingLineage : LineageRegistry := .inMemory danglingRegistry (by decide)

theorem trace_counts_dangling_ids :
    ¬ (danglingLineage.trace "thread-1" 0 .both none).CutAtRecord danglingLineage .both none
        "thread-1" 0
      ∧ ¬ (danglingLineage.trace "thread-1" (-1) .both none).NodesWithin danglingLineage .both none
        "thread-1" (-1) := by
  constructor
  · intro hcut
    obtain ⟨n, id, r, hn, hget, hdist⟩ := hcut.1 (by decide +kernel)
    have hid : id = "thread-1" := by
      by_contra hne
      have hput : danglingLineage.get id = _ := KeyedList.get?_put_of_ne empty _ hne
      rw [hput] at hget
      cases hget
    -- the start is at distance 0
    rw [hid] at hdist
    exact hdist.2 0 (by omega) rfl
  · intro hnodes
    obtain ⟨r, hr⟩ : ∃ r, (danglingLineage.trace "thread-1" (-1) .both none).nodes.find? "thread-1"
        = some r := Option.isSome_iff_exists.1 (by decide +kernel)
    obtain ⟨-, n, hn, -⟩ := (hnodes "thread-1" r).1 hr
    omega

end Himmy
