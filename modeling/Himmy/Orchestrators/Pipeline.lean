import Himmy.Core.Text
import Himmy.Orchestrators.GraphResume

/-! # The pipeline of a workflow

`_run_graph` drives a workflow, or a graph team, as a linear state graph with one node for each member:
a node gives its member the prompt of the run and the output of the member before, and writes the
member's own output to the state. After `k` supersteps the first `k` members have completed, and the
frontier is the next one (`AtStep`). -/

namespace Himmy

open KeyedList (empty get?_put_self)

/-- How the turn of a member ends: its output text, a pause on a gated tool, or an exception. -/
inductive MemberTurn
  | answered (outputText : Option String)
  | awaitingApproval (checkpointId : Option String)
  | raised (text : String)

section Build

variable {ω : Type} (turn : ω → String → String → MemberTurn)

def nodePrompt (state : Dict Json) : String :=
  let prior := pyOr (Dict.str? state "last_output") ""
  let basePrompt := pyOr (Dict.str? state "prompt") ""
  if prior = "" then basePrompt else basePrompt ++ "\n\nPrevious step output:\n" ++ prior

/-- `dict(state.get("outputs") or {})`. -/
def outputsOf (state : Dict Json) : Dict Json :=
  match state.find? "outputs" with
  | some (.obj kvs) => Dict.ofList kvs
  | _ => empty

/-- The node of a member, as `_make_node` makes it. -/
def makeNode (name : String) : ω → Dict Json → NodeCall Json := fun w state =>
  match turn w name (nodePrompt state) with
  | .awaitingApproval checkpointId => .interrupted name (checkpointId.getD "")
  | .raised text => .raised text
  | .answered outputText =>
    let text := outputText.getD ""
    let outputs := (outputsOf state).set name (.str text)
    .returned (.mapping (Dict.ofList [("last_output", .str text), ("outputs", .obj outputs.items)]))

def addMembers : List String → Option String → StateGraph ω Json →
    Except GraphError (StateGraph ω Json)
  | [], none, graph => .ok graph
  | [], some last, graph => .ok (graph.addEdge last END)
  | name :: names, prev, graph =>
    match graph.addNode name (makeNode turn name) with
    | .error e => .error e
    | .ok graph => addMembers names (some name) (match prev with
      | none => graph.setEntryPoint name
      | some prev => graph.addEdge prev name)

def buildPipelineGraph (names : List String) : Except GraphError (StateGraph ω Json) :=
  addMembers turn names none { name := "workflow" }

/-- The graph that `_run_graph` compiles. -/
def pipelineGraph (names : List String) : Except GraphError (CompiledStateGraph ω Json) :=
  match buildPipelineGraph turn names with
  | .error e => .error e
  | .ok graph => graph.compile

def pipelineState (prompt : String) : Dict Json :=
  Dict.ofList [("prompt", .str prompt), ("last_output", .str ""), ("outputs", .obj [])]

end Build

/-! ## The graph of a pipeline -/

namespace StateGraph

variable {ω ν : Type} {b b' : StateGraph ω ν} {name : String} {fn : ω → Dict ν → NodeCall ν}

theorem addNode_eq_ok (h : b.addNode name fn = .ok b') : name ≠ END ∧ b.nodes.get? name = none
      ∧ b' = { b with nodes := b.nodes.put { name, fn, maxVisits := none } } := by
  unfold addNode at h
  split at h
  · cases h
  next hreserved =>
  split at h
  · cases h
  next hnew =>
  simp only [reduceCtorEq, if_false] at h
  cases h
  refine ⟨fun hend => hreserved (Or.inr hend), ?_, rfl⟩
  simpa using hnew

theorem find?_addEdge (b : StateGraph ω ν) (start target n : String) :
    (b.addEdge start target).edges.find? n
      = if n = start then some (((b.edges.find? start).getD []) ++ [target])
        else b.edges.find? n := by
  unfold addEdge
  split
  · next hn =>
      subst hn
      exact Dict.find?_set_self _ _ _
  · next hn => exact Dict.find?_set_of_ne _ _ hn

end StateGraph

/-- The nodes of a graph are those of a list, each with one edge to the next of them or to the end. -/
structure Chained {ω ν : Type} (nodes : KeyedList (Node.name : Node ω ν → String))
    (edges : Dict (List String)) (names : List String) : Prop where
  nodup : names.Nodup
  node : ∀ n ∈ names, n ≠ END ∧ ∃ node, nodes.get? n = some node ∧ node.maxVisits = none
  next : ∀ (k : Nat) (n : String), names[k]? = some n →
    edges.find? n = some [(names[k + 1]?).getD END]

section Build

variable {ω : Type} {turn : ω → String → String → MemberTurn}

/-- A pipeline under construction: the members added so far, of which `last` has no edge yet. -/
structure Building (graph : StateGraph ω Json) (done : List String) (last : String) : Prop where
  nodup : (done ++ [last]).Nodup
  node : ∀ n ∈ done ++ [last], n ≠ END ∧ ∃ node, graph.nodes.get? n = some node
    ∧ node.maxVisits = none
  next : ∀ (k : Nat) (n : String), done[k]? = some n →
    graph.edges.find? n = some [((done ++ [last])[k + 1]?).getD END]
  unlinked : ∀ n ∉ done, graph.edges.find? n = none
  entry : graph.entry = (done ++ [last]).head?
  unrouted : graph.conditional = empty

namespace Building

variable {graph graph' : StateGraph ω Json} {done names : List String} {last name : String}

theorem last_not_mem (h : Building graph done last) : last ∉ done := by
  have hdisjoint := (List.nodup_append.1 h.nodup).2.2
  intro hmem
  exact hdisjoint last hmem last (List.mem_singleton_self last) rfl

theorem addMember (h : Building graph done last)
    (hadd : graph.addNode name (makeNode turn name) = .ok graph') :
    Building (graph'.addEdge last name) (done ++ [last]) name := by
  obtain ⟨hname, hnew, rfl⟩ := StateGraph.addNode_eq_ok hadd
  have hfresh : name ∉ done ++ [last] := by
    intro hmem
    obtain ⟨-, node, hnode, -⟩ := h.node name hmem
    rw [hnew] at hnode
    cases hnode
  constructor
  · exact List.nodup_append.2 ⟨h.nodup, List.nodup_singleton name, fun a ha b hb => by
      rw [List.mem_singleton.1 hb]
      rintro rfl
      exact hfresh ha⟩
  · intro n hn
    rcases List.mem_append.1 hn with hn | hn
    · obtain ⟨hend, node, hnode, hcap⟩ := h.node n hn
      refine ⟨hend, node, ?_, hcap⟩
      rw [← hnode]
      exact KeyedList.get?_put_of_ne _ _ (fun he => hfresh (by rw [show n = name from he] at hn; exact hn))
    · obtain rfl := List.mem_singleton.1 hn
      exact ⟨hname, _, get?_put_self graph.nodes ⟨n, makeNode turn n, none⟩, rfl⟩
  · intro k n hn
    rw [StateGraph.find?_addEdge]
    have hlen := (List.getElem?_eq_some_iff.1 hn).1
    rw [List.length_append, List.length_singleton] at hlen
    by_cases hk : k < done.length
    · rw [List.getElem?_append_left hk] at hn
      have hne : n ≠ last := by
        rintro rfl
        exact h.last_not_mem (List.mem_of_getElem? hn)
      rw [if_neg hne]
      have hnext := h.next k n hn
      rw [List.getElem?_append_left (by simp only [List.length_append, List.length_singleton]; omega)]
      exact hnext
    · obtain rfl : k = done.length := by omega
      rw [List.getElem?_append_right (Nat.le_refl _), Nat.sub_self] at hn
      obtain rfl : last = n := Option.some.inj hn
      rw [if_pos rfl, h.unlinked last h.last_not_mem,
        List.getElem?_append_right (by simp only [List.length_append, List.length_singleton]; omega)]
      simp
  · intro n hn
    rw [StateGraph.find?_addEdge, if_neg (fun he => hn (by simp [he]))]
    exact h.unlinked n (fun hd => hn (List.mem_append_left _ hd))
  · rw [List.head?_append_of_ne_nil _ (by simp)]
    exact h.entry
  · exact h.unrouted

theorem finish (h : Building graph done last) :
    Chained (graph.addEdge last END).nodes (graph.addEdge last END).edges (done ++ [last]) := by
  refine ⟨h.nodup, h.node, fun k n hn => ?_⟩
  rw [StateGraph.find?_addEdge]
  have hlen := (List.getElem?_eq_some_iff.1 hn).1
  rw [List.length_append, List.length_singleton] at hlen
  by_cases hk : k < done.length
  · rw [List.getElem?_append_left hk] at hn
    have hne : n ≠ last := by
      rintro rfl
      exact h.last_not_mem (List.mem_of_getElem? hn)
    rw [if_neg hne]
    exact h.next k n hn
  · obtain rfl : k = done.length := by omega
    rw [List.getElem?_append_right (Nat.le_refl _), Nat.sub_self] at hn
    obtain rfl : last = n := Option.some.inj hn
    rw [if_pos rfl, h.unlinked last h.last_not_mem, List.getElem?_eq_none (by simp)]
    rfl

theorem addMembers (h : Building graph done last)
    (hadd : Himmy.addMembers turn names (some last) graph = .ok graph') :
    Chained graph'.nodes graph'.edges (done ++ last :: names)
      ∧ graph'.entry = (done ++ last :: names).head? ∧ graph'.conditional = empty := by
  induction names generalizing graph done last with
  | nil =>
    cases hadd
    exact ⟨h.finish, h.entry, h.unrouted⟩
  | cons name names ih =>
    rw [Himmy.addMembers] at hadd
    cases hnode : graph.addNode name (makeNode turn name) with
    | error e =>
      rw [hnode] at hadd
      cases hadd
    | ok added =>
      rw [hnode] at hadd
      have hrest := ih (h.addMember hnode) hadd
      rwa [List.append_assoc, List.singleton_append] at hrest

end Building

/-- The compiled graph of a pipeline. -/
structure IsPipeline (g : CompiledStateGraph ω Json) (names : List String) : Prop where
  chained : Chained g.nodes g.edges names
  entry : names.head? = some g.entry
  unrouted : g.conditional = empty

theorem isPipeline_of_pipelineGraph {names : List String} {g : CompiledStateGraph ω Json}
    (h : pipelineGraph turn names = .ok g) : IsPipeline g names := by
  unfold pipelineGraph buildPipelineGraph at h
  cases names with
  | nil => cases h
  | cons name names =>
    rw [addMembers] at h
    cases hadd : ({ name := "workflow" } : StateGraph ω Json).addNode name (makeNode turn name) with
    | error e =>
      rw [hadd] at h
      cases h
    | ok added =>
      rw [hadd] at h
      obtain ⟨hname, -, rfl⟩ := StateGraph.addNode_eq_ok hadd
      dsimp only at h
      split at h
      · cases h
      next graph hgraph =>
      have hfirst : Building (ω := ω) ((⟨"workflow", empty.put
          ⟨name, makeNode turn name, none⟩, empty, empty, empty,
          none⟩ : StateGraph ω Json).setEntryPoint name) [] name := by
        refine ⟨List.nodup_singleton name, ?_, ?_, fun n _ => rfl, rfl, rfl⟩
        · intro n hn
          obtain rfl := List.mem_singleton.1 hn
          refine ⟨hname, ⟨n, makeNode turn n, none⟩, ?_, rfl⟩
          exact get?_put_self (empty : KeyedList Node.name)
            ⟨n, makeNode turn n, none⟩
        · intro k n hn
          cases hn
      obtain ⟨hchain, hentry, hunrouted⟩ := hfirst.addMembers hgraph
      unfold StateGraph.compile at h
      simp only [reduceCtorEq, if_false] at h
      split at h
      · cases h
      next entry hentry' =>
      split at h
      next hmem =>
        split at h
        · cases h
        · cases h
          exact ⟨hchain, hentry.symm.trans hentry', hunrouted⟩
      next => cases h

end Build

/-! ## The progress of a pipeline -/

section Progress

variable {ω : Type} {g : CompiledStateGraph ω Json} {names : List String}

/-- The first `k` members have completed, and the next one is to run. -/
structure AtStep (names : List String) (k : Nat) (p : GraphProgress Json) : Prop where
  completed : p.completedNodes = names.take k
  frontier : p.frontier = (names.drop k).take 1
  superstep : p.superstep = k

theorem atStep_fresh (h : IsPipeline g names) (checkpointId : String) (state : Dict Json) :
    AtStep names 0 (g.freshCheckpoint checkpointId state).toGraphProgress := by
  refine ⟨rfl, ?_, rfl⟩
  have hentry := h.entry
  cases names with
  | nil => cases hentry
  | cons name names =>
    obtain rfl : name = g.entry := Option.some.inj hentry
    rfl

theorem AtStep.not_completed {k : Nat} {p : GraphProgress Json} (h : AtStep names k p)
    (hnodup : names.Nodup) {name : String} (hname : name ∈ p.frontier) {j : Nat} (hj : j ≤ k) :
    name ∉ names.take j := by
  intro hmem
  rw [h.frontier] at hname
  have hdrop := List.mem_of_mem_take hname
  have htake := (List.take_subset_take_left names hj) hmem
  rw [← List.take_append_drop k names] at hnodup
  exact (List.nodup_append.1 hnodup).2.2 name htake name hdrop rfl

theorem AtStep.advance (h : IsPipeline g names) {k : Nat} {p p' : GraphProgress Json}
    (hp : AtStep names k p) {w : ω} {tg : TaskGroup}
    (hadv : g.advance w tg none p = .advanced p') : AtStep names (k + 1) p' := by
  unfold CompiledStateGraph.advance at hadv
  split at hadv
  · cases hadv
  next hrun =>
  split at hadv
  · cases hadv
  obtain ⟨name, rest, hdrop⟩ : ∃ name rest, names.drop k = name :: rest := by
    cases hd : names.drop k with
    | nil =>
      rw [hp.frontier, hd] at hrun
      exact absurd rfl hrun
    | cons name rest => exact ⟨name, rest, rfl⟩
  have hk : names[k]? = some name := by
    rw [← List.head?_drop, hdrop]
    rfl
  have hfrontier : p.frontier = [name] := by rw [hp.frontier, hdrop]; rfl
  have hdup : p.frontier.eraseDups = [name] := by rw [hfrontier]; rfl
  dsimp only at hadv
  rw [hdup] at hadv
  split at hadv
  · cases hadv
  · cases hadv
  next deltas targets hstep =>
  simp only [CompiledStateGraph.oversize?, Option.bind_none, CompiledStateGraph.Outline.advanced.injEq]
    at hadv
  subst hadv
  have htargets : targets = [(names[k + 1]?).getD END].filter (· ≠ END) := by
    have hroute : ∀ state, g.route w name state = .ok [(names[k + 1]?).getD END] := by
      intro state
      unfold CompiledStateGraph.route
      rw [h.unrouted, h.chained.next k name hk]
      rfl
    unfold CompiledStateGraph.runSuperstep at hstep
    split at hstep
    · cases hstep
    · cases hgather : g.gather w tg [name] p.state with
      | error e =>
        rw [hgather] at hstep
        cases hstep
      | ok deltas' =>
        rw [hgather] at hstep
        simp only [bind, Except.bind, List.mapM_cons, List.mapM_nil, hroute, pure, Except.pure,
          List.flatten_cons, List.flatten_nil, List.append_nil, Except.ok.injEq, Prod.mk.injEq]
          at hstep
        exact hstep.2.symm
  have hrest : names.drop (k + 1) = rest := by
    rw [← List.drop_drop, hdrop]
    rfl
  refine ⟨?_, ?_, congrArg (· + 1) hp.superstep⟩
  · show p.completedNodes ++ [name] = names.take (k + 1)
    rw [hp.completed, List.take_add_one, hk]
    rfl
  · show targets = (names.drop (k + 1)).take 1
    rw [htargets, hrest]
    have hnext : names[k + 1]? = rest.head? := by rw [← hrest, List.head?_drop]
    rw [hnext]
    cases hr : rest with
    | nil => rfl
    | cons next rest' =>
      have hmem : next ∈ names :=
        List.mem_of_mem_drop (by rw [hrest, hr]; exact List.mem_cons_self)
      have hend := (h.chained.node next hmem).1
      simp [hend]

/-! ## A drive that is not stopped -/

def followed (g : CompiledStateGraph ω Json) :
    List (ω × TaskGroup) → GraphProgress Json → Option (GraphProgress Json)
  | [], p => some p
  | (w, tg) :: answers, p =>
    match g.advance w tg none p with
    | .advanced p' => followed g answers p'
    | .ended _ => none

theorem followed_concat {answers : List (ω × TaskGroup)} {p q q' : GraphProgress Json}
    (h : followed g answers p = some q) {w : ω} {tg : TaskGroup}
    (hadv : g.advance w tg none q = .advanced q') :
    followed g (answers ++ [(w, tg)]) p = some q' := by
  induction answers generalizing p with
  | nil =>
    cases h
    rw [List.nil_append, followed, hadv]
    rfl
  | cons answer answers ih =>
    rw [List.cons_append, followed]
    rw [followed] at h
    cases hstep : g.advance answer.1 answer.2 none p with
    | ended e =>
      rw [hstep] at h
      cases h
    | advanced p' =>
      rw [hstep] at h
      exact ih h

end Progress

end Himmy
