import Mathlib.Data.List.Sort
import Himmy.Core.Json

/-! # State graphs

A `StateGraph` runs a directed graph of nodes over a shared `dict`: in each superstep every node of
the frontier runs on the state of the superstep's start, the deltas they return are merged by the
reducers of their keys, and the routes of the nodes give the next frontier. After each superstep the
progress of the run is saved as a `GraphCheckpoint`; a node that pauses for an approval leaves a
checkpoint that names the paused member, and `spliceMemberResume` brings the resumed member's delta
back into it.

Node functions and routers read, besides the state, a `w : ω` that stands for whatever else they
depend on; a run of pure ones is a run under one `w`. The values of the state are of any type `ν`
with a `None` and a serialized size. -/

namespace Himmy

open KeyedList (empty)

/-! ## The state -/

/-- What the graph asks of the values of its state. -/
class GraphValue (ν : Type) where
  /-- `None`. -/
  pyNone : ν
  /-- `_state_size_bytes`. -/
  stateSizeBytes : Dict ν → Nat

namespace Json

/-- The bytes of a character in `json.dumps(…, ensure_ascii=False)`, encoded as UTF-8. -/
def charSize (c : Char) : Nat :=
  -- `"`, `\`, and the control characters that have a short escape
  if c.toNat ∈ [34, 92, 8, 9, 10, 12, 13] then 2
  else if c.toNat < 32 then 6
  else c.utf8Size

def strSize (s : String) : Nat := s.toList.foldl (fun size c => size + charSize c) 2

mutual

/-- `len(json.dumps(value, ensure_ascii=False).encode("utf-8"))`. -/
def dumpsSize : Json → Nat
  | .null => 4
  | .bool b => if b then 4 else 5
  | .num n => (toString n).length
  | .str s => strSize s
  | .arr xs => 2 + elementsSize xs
  | .obj kvs => 2 + fieldsSize kvs

def elementsSize : List Json → Nat
  | [] => 0
  | x :: xs => x.dumpsSize + (if xs.isEmpty then 0 else 2) + elementsSize xs

def fieldsSize : List (String × Json) → Nat
  | [] => 0
  | (k, x) :: kvs => strSize k + 2 + x.dumpsSize + (if kvs.isEmpty then 0 else 2) + fieldsSize kvs

end

end Json

instance : GraphValue Json where
  pyNone := .null
  stateSizeBytes state := 2 + Json.fieldsSize state.items

/-- A Python number: `bool` is an `int`. -/
def Json.number? : Json → Option Int
  | .num n => some n
  | .bool b => some (if b then 1 else 0)
  | _ => none

def addReducer (existing incoming : Json) : Json :=
  match existing with
  | .null => incoming
  | .arr xs =>
    match incoming with
    | .arr ys => .arr (xs ++ ys)
    | y => .arr (xs ++ [y])
  | _ =>
    match existing.number?, incoming.number? with
    | some a, some b => .num (a + b)
    | _, _ => incoming

/-! ## The graph -/

/-- `recursion_limit`, when `compile` is not given one. -/
def defaultRecursionLimit : Nat := 50

theorem defaultRecursionLimit_pos : 0 < defaultRecursionLimit := by decide

def START : String := "__start__"

/-- `END`: routing a branch to it finishes that branch. -/
def END : String := "__end__"

/-- The errors of a graph and of its run, with the values their texts show. -/
inductive GraphError
  | nodeInterrupt (node memberCheckpointId : String)
  | recursionLimit (limit : Nat) (frontier : List String)
  | maxVisits (node : String) (cap : Nat)
  | stateSize (size limit superstep : Nat)
  | twoPaused (nodes : List String)
  | nodeRaised (node text : String)
  | notDelta (node typeName : String)
  | notTarget (node typeName : String)
  | unknownTarget (node target : String)
  | unknownNode (node : String)
  | unknownPausedNode (node : String)
  | otherGraph (found name : String)
  | noEntry
  | unknownEntry (node : String)
  | unknownEdgeSource (node : String)
  | unknownEdgeTarget (node : String)
  | reservedName (node : String)
  | duplicateNode (node : String)
  | duplicateRouter (node : String)
  | maxVisitsTooSmall
  | maxStateBytesTooSmall
deriving DecidableEq

namespace GraphError

def isRecursion : GraphError → Bool
  | .recursionLimit .. | .maxVisits .. => true
  | _ => false

/-- The paused node and member checkpoint of a `NodeInterrupt`. -/
def interrupt? : GraphError → Option (String × String)
  | .nodeInterrupt node memberCheckpointId => some (node, memberCheckpointId)
  | _ => none

end GraphError

/-- What a node function returns. -/
inductive NodeReturn (ν : Type)
  | none
  | mapping (delta : Dict ν)
  | other (typeName : String)

/-- How a call of a node function ends. -/
inductive NodeCall (ν : Type)
  | returned (raw : NodeReturn ν)
  | interrupted (node memberCheckpointId : String)
  | raised (text : String)

structure Node (ω ν : Type) where
  name : String
  fn : ω → Dict ν → NodeCall ν
  maxVisits : Option Nat := none

/-- What a router returns. -/
inductive RouterDecision
  | none
  | name (target : String)
  | names (targets : List String)
  | other (typeName : String)

/-- `StateGraph`: a graph under construction. -/
structure StateGraph (ω ν : Type) where
  name : String := "graph"
  nodes : KeyedList (Node.name : Node ω ν → String) := empty
  edges : Dict (List String) := empty
  conditional : Dict (ω → Dict ν → RouterDecision) := empty
  reducers : Dict (ν → ν → ν) := empty
  entry : Option String := none

/-- `CompiledStateGraph`, with what `StateGraph.compile` has checked of it. -/
structure CompiledStateGraph (ω ν : Type) where
  name : String
  nodes : KeyedList (Node.name : Node ω ν → String)
  edges : Dict (List String)
  conditional : Dict (ω → Dict ν → RouterDecision)
  reducers : Dict (ν → ν → ν)
  entry : String
  recursionLimit : Nat
  maxStateBytes : Option Nat
  entry_mem : (nodes.get? entry).isSome = true
  edge_mem : ∀ kv ∈ edges.items, (nodes.get? kv.1).isSome = true
    ∧ ∀ target ∈ kv.2, target = END ∨ (nodes.get? target).isSome = true
  recursionLimit_pos : 0 < recursionLimit

namespace StateGraph

variable {ω ν : Type}

variable (b : StateGraph ω ν)

def addNode (name : String) (fn : ω → Dict ν → NodeCall ν)
    (maxVisits : Option Nat := none) : Except GraphError (StateGraph ω ν) :=
  if name = START ∨ name = END then .error (.reservedName name)
  else if (b.nodes.get? name).isSome then .error (.duplicateNode name)
  else if maxVisits = some 0 then .error .maxVisitsTooSmall
  else .ok { b with nodes := b.nodes.put { name, fn, maxVisits } }

def addEdge (start target : String) : StateGraph ω ν :=
  { b with edges := b.edges.set start (((b.edges.find? start).getD []) ++ [target]) }

def addConditionalEdges (start : String)
    (router : ω → Dict ν → RouterDecision) : Except GraphError (StateGraph ω ν) :=
  if (b.conditional.find? start).isSome then .error (.duplicateRouter start)
  else .ok { b with conditional := b.conditional.set start router }

def setEntryPoint (name : String) : StateGraph ω ν :=
  { b with entry := some name }

def setReducer (key : String) (reducer : ν → ν → ν) : StateGraph ω ν :=
  { b with reducers := b.reducers.set key reducer }

def edgeError? : Option GraphError :=
  b.edges.items.findSome? fun kv =>
    if (b.nodes.get? kv.1).isNone then some (.unknownEdgeSource kv.1)
    else (kv.2.find? (fun target => target ≠ END ∧ (b.nodes.get? target).isNone)).map
      .unknownEdgeTarget

theorem edge_mem_of_edgeError? {b : StateGraph ω ν} (h : b.edgeError? = none) :
    ∀ kv ∈ b.edges.items, (b.nodes.get? kv.1).isSome = true
      ∧ ∀ target ∈ kv.2, target = END ∨ (b.nodes.get? target).isSome = true := by
  intro kv hkv
  have hedge := List.findSome?_eq_none_iff.1 h kv hkv
  split at hedge
  · cases hedge
  · next hsource =>
      refine ⟨Option.isSome_iff_ne_none.2 (by simpa using hsource), ?_⟩
      intro target htarget
      have hknown := List.find?_eq_none.1 (Option.map_eq_none_iff.1 hedge) target htarget
      by_cases hend : target = END
      · exact Or.inl hend
      · right
        exact Option.isSome_iff_ne_none.2 (by simpa [hend] using hknown)

/-- `compile`, of the arguments that a run reads. -/
def compile (b : StateGraph ω ν) (recursionLimit : Int := defaultRecursionLimit)
    (maxStateBytes : Option Nat := none) : Except GraphError (CompiledStateGraph ω ν) :=
  if maxStateBytes = some 0 then .error .maxStateBytesTooSmall
  else match b.entry with
  | none => .error .noEntry
  | some entry =>
    if hentry : (b.nodes.get? entry).isSome = true then
      match hedge : b.edgeError? with
      | some e => .error e
      | none => .ok {
          name := b.name, nodes := b.nodes, edges := b.edges, conditional := b.conditional,
          reducers := b.reducers, entry, recursionLimit := (max 1 recursionLimit).toNat,
          maxStateBytes, entry_mem := hentry, edge_mem := edge_mem_of_edgeError? hedge,
          recursionLimit_pos := by omega }
    else .error (.unknownEntry entry)

end StateGraph

/-! ## Checkpoints -/

/-- The lifecycle states of a graph run. -/
inductive GraphStatus
  | running
  | completed
  | interrupted
  | failed
deriving DecidableEq

/-- `GraphCheckpoint.error`. -/
inductive GraphStop
  | cancelled
  | error (e : GraphError)
deriving DecidableEq

/-- How far a run has come: what the superstep loop reads and writes of a checkpoint. -/
structure GraphProgress (ν : Type) where
  state : Dict ν
  frontier : List String
  superstep : Nat := 0
  visitCounts : Dict Nat := empty
  completedNodes : List String := []

structure GraphCheckpoint (ν : Type) extends GraphProgress ν where
  checkpointId : String
  graphName : String
  status : GraphStatus := .running
  pausedNode : String := ""
  memberCheckpointId : String := ""
  error : Option GraphStop := none

structure MemberResumeOutcome (ν : Type) where
  delta : Dict ν := empty
  pausedAgain : Bool := false
  memberCheckpointId : String := ""

/-! ## A superstep -/

/-- The exception group of an `asyncio.TaskGroup`: some of the exceptions its tasks raise, in the
    order in which the tasks end. -/
structure TaskGroup where
  collect : List GraphError → List GraphError
  subperm : ∀ es, (collect es).Subperm es
  nonempty : ∀ es, es ≠ [] → collect es ≠ []

def TaskGroup.all : TaskGroup := ⟨id, fun es => List.Subperm.refl es, fun _ h => h⟩

def raisedBy {α : Type} : Except GraphError α → Option GraphError
  | .error e => some e
  | .ok _ => none

/-- The exception that `_run_superstep` raises for an exception group. -/
def groupError (es : List GraphError) : Option GraphError :=
  match es.filterMap GraphError.interrupt? with
  | [] => es.head?
  | [(node, member)] => some (.nodeInterrupt node member)
  | paused => some (.twoPaused ((paused.map Prod.fst).insertionSort (· ≤ ·)))

namespace CompiledStateGraph

variable {ω ν : Type} [GraphValue ν] (g : CompiledStateGraph ω ν)

/-- `_merge` of one item of a delta. -/
def mergeItem (state : Dict ν) (kv : String × ν) : Dict ν :=
  match g.reducers.find? kv.1, state.find? kv.1 with
  | some reducer, some existing => state.set kv.1 (reducer existing kv.2)
  | some reducer, none => state.set kv.1 (reducer GraphValue.pyNone kv.2)
  | none, _ => state.set kv.1 kv.2

def merge (state delta : Dict ν) : Dict ν := delta.items.foldl g.mergeItem state

def checkTargets (name : String) (candidates : List String) : Except GraphError (List String) :=
  match candidates.find? (fun target => target ≠ END ∧ (g.nodes.get? target).isNone) with
  | some target => .error (.unknownTarget name target)
  | none => .ok candidates

def normalizeTargets (name : String) : RouterDecision → Except GraphError (List String)
  | .none => .ok [END]
  | .name target => g.checkTargets name [target]
  | .names targets => g.checkTargets name targets
  | .other typeName => .error (.notTarget name typeName)

def route (w : ω) (name : String) (state : Dict ν) : Except GraphError (List String) :=
  match g.conditional.find? name with
  | some router => g.normalizeTargets name (router w state)
  | none =>
    match g.edges.find? name with
    | some targets => .ok targets
    | none => .ok [END]

def runNode (w : ω) (state : Dict ν) (name : String) : Except GraphError (Dict ν) :=
  match g.nodes.get? name with
  | none => .error (.unknownNode name)
  | some node =>
    match node.fn w state with
    | .interrupted paused member => .error (.nodeInterrupt paused member)
    | .raised text => .error (.nodeRaised name text)
    | .returned .none => .ok empty
    | .returned (.mapping delta) => .ok delta
    | .returned (.other typeName) => .error (.notDelta name typeName)

def visitError? (visitCounts : Dict Nat) (name : String) : Option GraphError :=
  match g.nodes.get? name with
  | none => some (.unknownNode name)
  | some node =>
    match node.maxVisits with
    | some cap =>
      if cap ≤ (visitCounts.find? name).getD 0 then some (.maxVisits name cap) else none
    | none => none

def gather (w : ω) (tg : TaskGroup) (frontier : List String) (state : Dict ν) :
    Except GraphError (List (Dict ν)) :=
  let results := frontier.map (g.runNode w state)
  match groupError (tg.collect (results.filterMap raisedBy)) with
  | some e => .error e
  | none => .ok (results.filterMap (·.toOption))

def runSuperstep (w : ω) (tg : TaskGroup) (frontier : List String) (p : GraphProgress ν) :
    Except GraphError (List (Dict ν) × List String) :=
  match frontier.findSome? (g.visitError? p.visitCounts) with
  | some e => .error e
  | none => do
    let deltas ← g.gather w tg frontier p.state
    let targets ← frontier.mapM (fun name => g.route w name (deltas.foldl g.merge p.state))
    return (deltas, targets.flatten.filter (· ≠ END))

/-! ### What a superstep raises -/

variable {g} {w : ω} {tg : TaskGroup} {frontier : List String} {p : GraphProgress ν}
  {deltas : List (Dict ν)} {e : GraphError} {node member : String}

omit [GraphValue ν] in
theorem route_error {name : String} {state : Dict ν} (h : g.route w name state = .error e) :
    (∃ typeName, e = .notTarget name typeName) ∨ ∃ target, e = .unknownTarget name target := by
  have hcheck : ∀ candidates, g.checkTargets name candidates = .error e →
      ∃ target, e = .unknownTarget name target := by
    intro candidates hc
    unfold checkTargets at hc
    split at hc
    · next target _ => cases hc; exact ⟨target, rfl⟩
    · cases hc
  unfold route at h
  split at h
  · next router _ =>
      cases hdecision : router w state with
      | none => rw [hdecision] at h; cases h
      | name target => rw [hdecision] at h; exact Or.inr (hcheck _ h)
      | names targets => rw [hdecision] at h; exact Or.inr (hcheck _ h)
      | other typeName => rw [hdecision] at h; cases h; exact Or.inl ⟨typeName, rfl⟩
  · split at h <;> cases h

theorem exists_of_mapM_error {α β : Type} {f : α → Except GraphError β} {l : List α}
    (h : l.mapM f = .error e) : ∃ x ∈ l, f x = .error e := by
  induction l with
  | nil => cases h
  | cons x l ih =>
    rw [List.mapM_cons] at h
    cases hx : f x with
    | error e' =>
      rw [hx] at h
      cases h
      exact ⟨x, List.mem_cons_self, hx⟩
    | ok b =>
      rw [hx] at h
      cases hl : l.mapM f with
      | error e' =>
        rw [hl] at h
        cases h
        obtain ⟨y, hy, hfy⟩ := ih hl
        exact ⟨y, List.mem_cons_of_mem _ hy, hfy⟩
      | ok bs =>
        rw [hl] at h
        cases h

theorem groupError_eq_none_iff {es : List GraphError} : groupError es = none ↔ es = [] := by
  constructor
  · intro h
    unfold groupError at h
    split at h
    · exact List.head?_eq_none_iff.1 h
    · cases h
    · cases h
  · rintro rfl
    rfl

theorem mem_of_groupError {es : List GraphError}
    (h : groupError es = some (.nodeInterrupt node member)) : .nodeInterrupt node member ∈ es := by
  unfold groupError at h
  split at h
  · exact List.mem_of_mem_head? h
  · next n m hone =>
      cases h
      have hmem : (node, member) ∈ es.filterMap GraphError.interrupt? := by simp [hone]
      obtain ⟨e, he, hinterrupt⟩ := List.mem_filterMap.1 hmem
      cases e with
      | nodeInterrupt n m => cases hinterrupt; exact he
      | _ => cases hinterrupt
  · cases h

omit [GraphValue ν] in
theorem runNode_of_gather {state : Dict ν} (h : g.gather w tg frontier state = .ok deltas) :
    frontier.map (g.runNode w state) = deltas.map .ok := by
  have hresults : ∀ results : List (Except GraphError (Dict ν)),
      results.filterMap raisedBy = [] →
      results = (results.filterMap (·.toOption)).map .ok := by
    intro results
    induction results with
    | nil => intro _; rfl
    | cons r results ih =>
      intro hnone
      cases r with
      | error e => cases hnone
      | ok delta =>
        show .ok delta :: results = .ok delta :: _
        rw [← ih hnone]
  unfold gather at h
  dsimp only at h
  split at h
  · cases h
  · next hgroup =>
      cases h
      refine hresults _ ?_
      by_contra hraised
      exact tg.nonempty _ hraised (groupError_eq_none_iff.1 hgroup)

theorem exists_of_interrupted
    (h : g.runSuperstep w tg frontier p = .error (.nodeInterrupt node member)) :
    ∃ name ∈ frontier, g.runNode w p.state name = .error (.nodeInterrupt node member) := by
  unfold runSuperstep at h
  split at h
  · next e hguard =>
      -- the loop guard raises no pause
      obtain ⟨name, -, hname⟩ := List.exists_of_findSome?_eq_some hguard
      cases h
      unfold visitError? at hname
      split at hname
      · cases hname
      · split at hname
        · split at hname <;> cases hname
        · cases hname
  · cases hgather : g.gather w tg frontier p.state with
    | ok deltas =>
      rw [hgather] at h
      cases hroutes : frontier.mapM (fun name => g.route w name (deltas.foldl g.merge p.state)) with
      | ok targets =>
        simp only [bind, Except.bind, hroutes] at h
        cases h
      | error e =>
        simp only [bind, Except.bind, hroutes] at h
        cases h
        obtain ⟨name, -, hname⟩ := exists_of_mapM_error hroutes
        rcases route_error hname with ⟨t, ht⟩ | ⟨t, ht⟩ <;> cases ht
    | error e =>
      rw [hgather] at h
      cases h
      unfold gather at hgather
      dsimp only at hgather
      split at hgather
      · next e hgroup =>
          cases hgather
          have hmem := (tg.subperm _).subset (mem_of_groupError hgroup)
          obtain ⟨r, hr, hraised⟩ := List.mem_filterMap.1 hmem
          obtain ⟨name, hname, rfl⟩ := List.mem_map.1 hr
          refine ⟨name, hname, ?_⟩
          cases hrun : g.runNode w p.state name with
          | ok delta => rw [hrun] at hraised; cases hraised
          | error e => rw [hrun] at hraised; cases hraised; rfl
      · cases hgather

variable (g)

/-! ## The superstep loop -/

/-- The size of a merged state that is over `max_state_bytes`. -/
def oversize? (maxStateBytes : Option Nat) (state : Dict ν) : Option Nat :=
  let size := GraphValue.stateSizeBytes state
  maxStateBytes.bind fun limit => if limit < size then some size else none

/-- `visit_counts[node_name] = visit_counts.get(node_name, 0) + 1`. -/
def countVisit (visitCounts : Dict Nat) (name : String) : Dict Nat :=
  visitCounts.set name ((visitCounts.find? name).getD 0 + 1)

/-- What one iteration of `_run_loop` comes to: the run returns or raises, with the checkpoint it
    saved last, or the loop goes on. Only `raised` has saved no checkpoint. -/
inductive LoopStep (ν : Type)
  | completed (chk : GraphCheckpoint ν)
  | paused (chk : GraphCheckpoint ν)
  | failed (chk : GraphCheckpoint ν) (e : GraphError)
  | raised (e : GraphError)
  | advanced (chk : GraphCheckpoint ν)

def LoopStep.saved? : LoopStep ν → Option (GraphCheckpoint ν)
  | .completed chk | .paused chk | .failed chk _ | .advanced chk => some chk
  | .raised _ => none

def LoopStep.goesOn : LoopStep ν → Bool
  | .advanced _ => true
  | _ => false

/-- One iteration of `_run_loop`. -/
def loopStep (w : ω) (tg : TaskGroup) (maxStateBytes : Option Nat) (chk : GraphCheckpoint ν) :
    LoopStep ν :=
  if chk.frontier = [] then .completed { chk with status := .completed }
  else if g.recursionLimit ≤ chk.superstep then
    let e := .recursionLimit g.recursionLimit chk.frontier
    .failed { chk with status := .failed, error := some (.error e) } e
  else
    let frontier := chk.frontier.eraseDups
    match g.runSuperstep w tg frontier chk.toGraphProgress with
    | .error (.nodeInterrupt node member) => .paused { chk with
        status := .interrupted, pausedNode := node, memberCheckpointId := member, error := none }
    | .error e => .raised e
    | .ok (deltas, nextTargets) =>
      let state := deltas.foldl g.merge chk.state
      match oversize? maxStateBytes state with
      | some size =>
        let e := .stateSize size (maxStateBytes.getD 0) chk.superstep
        .failed { chk with state, status := .failed, error := some (.error e) } e
      | none => .advanced { chk with
          state
          completedNodes := chk.completedNodes ++ frontier
          visitCounts := frontier.foldl countVisit chk.visitCounts
          frontier := nextTargets
          superstep := chk.superstep + 1 }

/-- What an iteration does: what it needs of the checkpoint, and what it comes to. -/
inductive LoopSpec (w : ω) (tg : TaskGroup) (maxStateBytes : Option Nat)
    (chk : GraphCheckpoint ν) : LoopStep ν → Prop
  | completed (hend : chk.frontier = []) :
      LoopSpec w tg maxStateBytes chk (.completed { chk with status := .completed })
  | atLimit (hrun : chk.frontier ≠ []) (hlimit : g.recursionLimit ≤ chk.superstep) :
      LoopSpec w tg maxStateBytes chk (.failed { chk with
        status := .failed
        error := some (.error (.recursionLimit g.recursionLimit chk.frontier)) }
        (.recursionLimit g.recursionLimit chk.frontier))
  | paused {node member : String} (hrun : chk.frontier ≠ [])
      (hlimit : chk.superstep < g.recursionLimit)
      (hstep : g.runSuperstep w tg chk.frontier.eraseDups chk.toGraphProgress
        = .error (.nodeInterrupt node member)) :
      LoopSpec w tg maxStateBytes chk (.paused { chk with
        status := .interrupted, pausedNode := node, memberCheckpointId := member, error := none })
  | raised {e : GraphError} (hrun : chk.frontier ≠ []) (hlimit : chk.superstep < g.recursionLimit)
      (hstep : g.runSuperstep w tg chk.frontier.eraseDups chk.toGraphProgress = .error e)
      (hother : e.interrupt? = none) : LoopSpec w tg maxStateBytes chk (.raised e)
  | oversized {deltas : List (Dict ν)} {nextTargets : List String} {size : Nat}
      (hrun : chk.frontier ≠ []) (hlimit : chk.superstep < g.recursionLimit)
      (hstep : g.runSuperstep w tg chk.frontier.eraseDups chk.toGraphProgress
        = .ok (deltas, nextTargets))
      (hsize : oversize? maxStateBytes (deltas.foldl g.merge chk.state) = some size) :
      LoopSpec w tg maxStateBytes chk (.failed { chk with
        state := deltas.foldl g.merge chk.state
        status := .failed
        error := some (.error (.stateSize size (maxStateBytes.getD 0) chk.superstep)) }
        (.stateSize size (maxStateBytes.getD 0) chk.superstep))
  | advanced {deltas : List (Dict ν)} {nextTargets : List String}
      (hrun : chk.frontier ≠ []) (hlimit : chk.superstep < g.recursionLimit)
      (hstep : g.runSuperstep w tg chk.frontier.eraseDups chk.toGraphProgress
        = .ok (deltas, nextTargets))
      (hsize : oversize? maxStateBytes (deltas.foldl g.merge chk.state) = none) :
      LoopSpec w tg maxStateBytes chk (.advanced { chk with
        state := deltas.foldl g.merge chk.state
        completedNodes := chk.completedNodes ++ chk.frontier.eraseDups
        visitCounts := chk.frontier.eraseDups.foldl countVisit chk.visitCounts
        frontier := nextTargets
        superstep := chk.superstep + 1 })

theorem loopStep_spec (w : ω) (tg : TaskGroup) (maxStateBytes : Option Nat)
    (chk : GraphCheckpoint ν) :
    g.LoopSpec w tg maxStateBytes chk (g.loopStep w tg maxStateBytes chk) := by
  unfold loopStep
  split
  · next hend => exact .completed hend
  · next hrun =>
      split
      · next hlimit => exact .atLimit hrun hlimit
      · next hlimit =>
          have hlt := Nat.lt_of_not_le hlimit
          dsimp only
          split
          · next hstep => exact .paused hrun hlt hstep
          · next e hother hstep =>
              refine .raised hrun hlt hstep ?_
              cases e with
              | nodeInterrupt node member => exact absurd rfl (hother node member)
              | _ => rfl
          · next hstep =>
              split
              · next hsize => exact .oversized hrun hlt hstep hsize
              · next hsize => exact .advanced hrun hlt hstep hsize

/-- How a run ends, with the progress it has made. -/
inductive RunEnd (ν : Type)
  | completed (p : GraphProgress ν)
  | paused (p : GraphProgress ν) (node memberCheckpointId : String)
  | raised (e : GraphError)

/-- `_run_loop`, for `n` iterations at most. -/
def runIterations (w : ω) (tg : TaskGroup) (maxStateBytes : Option Nat) :
    Nat → GraphCheckpoint ν → Option (RunEnd ν)
  | 0, _ => none
  | n + 1, chk =>
    match g.loopStep w tg maxStateBytes chk with
    | .completed chk => some (.completed chk.toGraphProgress)
    | .paused chk => some (.paused chk.toGraphProgress chk.pausedNode chk.memberCheckpointId)
    | .failed _ e => some (.raised e)
    | .raised e => some (.raised e)
    | .advanced chk => runIterations w tg maxStateBytes n chk

/-- `_run_loop`. An iteration that goes on raises the superstep, and none goes on at the limit. -/
def runLoop (w : ω) (tg : TaskGroup) (maxStateBytes : Option Nat) (chk : GraphCheckpoint ν) :
    Option (RunEnd ν) :=
  g.runIterations w tg maxStateBytes (g.recursionLimit - chk.superstep + 1) chk

/-! ## Entering the loop -/

def freshCheckpoint (checkpointId : String) (initialState : Dict ν) : GraphCheckpoint ν :=
  { checkpointId, graphName := g.name, state := initialState, frontier := [g.entry] }

def resolveResume (chk : GraphCheckpoint ν) : Except GraphError (GraphCheckpoint ν) :=
  if chk.graphName ≠ "" ∧ chk.graphName ≠ g.name then .error (.otherGraph chk.graphName g.name)
  else .ok { chk with status := .running }

/-- What `_splice_member_resume` comes to: the member paused again, an exception was raised, or the
    loop is entered. Only `raised` has saved no checkpoint. -/
inductive SpliceStep (ν : Type)
  | pausedAgain (chk : GraphCheckpoint ν)
  | raised (e : GraphError)
  | spliced (chk : GraphCheckpoint ν)

/-- `_splice_member_resume`, given what `resume_member` returned. -/
def spliceMemberResume (w : ω) (chk : GraphCheckpoint ν) (outcome : MemberResumeOutcome ν) :
    SpliceStep ν :=
  let node := chk.pausedNode
  if (g.nodes.get? node).isNone then .raised (.unknownPausedNode node)
  else if outcome.pausedAgain then .pausedAgain { chk with
    status := .interrupted
    memberCheckpointId :=
      if outcome.memberCheckpointId = "" then chk.memberCheckpointId
      else outcome.memberCheckpointId }
  else
    let state := g.merge chk.state outcome.delta
    match g.route w node state with
    | .error e => .raised e
    | .ok targets => .spliced { chk with
        state
        completedNodes := chk.completedNodes ++ [node]
        visitCounts := countVisit chk.visitCounts node
        frontier := targets.filter (· ≠ END)
        superstep := chk.superstep + 1
        pausedNode := ""
        memberCheckpointId := ""
        status := .running }

/-- What a splice does: what it needs of the outcome, and what it comes to. -/
inductive SpliceSpec (w : ω) (chk : GraphCheckpoint ν) (outcome : MemberResumeOutcome ν) :
    SpliceStep ν → Prop
  | raised (e : GraphError) : SpliceSpec w chk outcome (.raised e)
  | pausedAgain (hagain : outcome.pausedAgain = true) :
      SpliceSpec w chk outcome (.pausedAgain { chk with
        status := .interrupted
        memberCheckpointId :=
          if outcome.memberCheckpointId = "" then chk.memberCheckpointId
          else outcome.memberCheckpointId })
  | spliced {targets : List String}
      (hroute : g.route w chk.pausedNode (g.merge chk.state outcome.delta) = .ok targets) :
      SpliceSpec w chk outcome (.spliced { chk with
        state := g.merge chk.state outcome.delta
        completedNodes := chk.completedNodes ++ [chk.pausedNode]
        visitCounts := countVisit chk.visitCounts chk.pausedNode
        frontier := targets.filter (· ≠ END)
        superstep := chk.superstep + 1
        pausedNode := ""
        memberCheckpointId := ""
        status := .running })

theorem spliceMemberResume_spec (w : ω) (chk : GraphCheckpoint ν)
    (outcome : MemberResumeOutcome ν) :
    g.SpliceSpec w chk outcome (g.spliceMemberResume w chk outcome) := by
  unfold spliceMemberResume
  dsimp only
  split
  · exact .raised _
  · split
    · next hagain => exact .pausedAgain hagain
    · split
      · exact .raised _
      · next hroute => exact .spliced hroute

def invokeFresh (w : ω) (tg : TaskGroup) (maxStateBytes : Option Nat) (checkpointId : String)
    (initialState : Dict ν) : Option (RunEnd ν) :=
  g.runLoop w tg maxStateBytes (g.freshCheckpoint checkpointId initialState)

def invokeResume (w : ω) (tg : TaskGroup) (maxStateBytes : Option Nat) (chk : GraphCheckpoint ν)
    (outcome : Option (MemberResumeOutcome ν)) : Option (RunEnd ν) :=
  match g.resolveResume chk with
  | .error e => some (.raised e)
  | .ok chk =>
    match outcome with
    | none => g.runLoop w tg maxStateBytes chk
    | some outcome =>
      if chk.memberCheckpointId = "" then g.runLoop w tg maxStateBytes chk
      else match g.spliceMemberResume w chk outcome with
      | .pausedAgain chk =>
        some (.paused chk.toGraphProgress chk.pausedNode chk.memberCheckpointId)
      | .raised e => some (.raised e)
      | .spliced chk => g.runLoop w tg maxStateBytes chk

end CompiledStateGraph

end Himmy
