import Himmy.Orchestrators.GraphResume

/-! # Pausing a graph node

A node that pauses aborts its superstep, and `spliceMemberResume` makes the superstep up when the
member has been resumed: it merges the member's delta, counts the paused node and routes from it.
The other nodes of the interrupted frontier are in neither the new frontier nor the completed nodes.

The splice makes up the superstep that the node's return would have completed exactly when the
paused node was alone in the frontier and the merged state is within `max_state_bytes`, which the
splice does not check (`pauseUnobserved_iff`). -/

namespace Himmy

open KeyedList (get?_modify key_of_get? empty)

namespace CompiledStateGraph

variable {ω ν : Type}

/-- The graph in which the node `paused` raises `NodeInterrupt`. -/
def pausing (g : CompiledStateGraph ω ν) (paused member : String) : CompiledStateGraph ω ν where
  name := g.name
  nodes := g.nodes.modify
    (fun node => if node.name = paused then
      { node with fn := fun _ _ => .interrupted paused member } else node)
    (fun node => by split <;> rfl)
  edges := g.edges
  conditional := g.conditional
  reducers := g.reducers
  entry := g.entry
  recursionLimit := g.recursionLimit
  maxStateBytes := g.maxStateBytes
  entry_mem := by
    rw [get?_modify, Option.isSome_map]
    exact g.entry_mem
  edge_mem := by
    intro kv hkv
    simp only [get?_modify, Option.isSome_map]
    exact g.edge_mem kv hkv
  recursionLimit_pos := g.recursionLimit_pos

variable {g : CompiledStateGraph ω ν} {w : ω} {paused member : String} {delta : Dict ν}

theorem runNode_pausing_of_ne {name : String} (h : name ≠ paused) (state : Dict ν) :
    (g.pausing paused member).runNode w state name = g.runNode w state name := by
  unfold runNode pausing
  dsimp only
  rw [get?_modify]
  cases hget : g.nodes.get? name with
  | none => rfl
  | some node =>
    have hname : node.name = name := key_of_get? hget
    simp [hname, h]

theorem runNode_pausing_self {state : Dict ν} (h : (g.nodes.get? paused).isSome = true) :
    (g.pausing paused member).runNode w state paused = .error (.nodeInterrupt paused member) := by
  obtain ⟨node, hget⟩ := Option.isSome_iff_exists.1 h
  have hname : node.name = paused := key_of_get? hget
  unfold runNode pausing
  dsimp only
  rw [get?_modify, hget]
  simp [hname]

theorem isSome_of_runNode {state : Dict ν} {name : String} {delta : Dict ν}
    (h : g.runNode w state name = .ok delta) : (g.nodes.get? name).isSome = true := by
  unfold runNode at h
  cases hget : g.nodes.get? name with
  | none => rw [hget] at h; cases h
  | some node => rfl

variable [GraphValue ν] {tg : TaskGroup} {maxStateBytes : Option Nat}
  {chk chk' : GraphCheckpoint ν}

def SpliceStep.outline : SpliceStep ν → Outline ν
  | .pausedAgain chk => .ended (.paused chk.toGraphProgress chk.pausedNode chk.memberCheckpointId)
  | .raised e => .ended (.raised e)
  | .spliced chk => .advanced chk.toGraphProgress

/-- What resuming the checkpoint `chk'`, at which a node paused in the superstep from `chk`, has in
    common with the run in which the node returned its delta. -/
structure PauseUnobserved (g : CompiledStateGraph ω ν) (w : ω) (tg : TaskGroup)
    (maxStateBytes : Option Nat) (chk chk' : GraphCheckpoint ν) (delta : Dict ν) : Prop where
  superstep : (g.spliceMemberResume w chk' { delta }).outline
    = g.advance w tg maxStateBytes chk.toGraphProgress
  outcome : g.invokeResume w tg maxStateBytes chk' (some { delta })
    = g.runLoop w tg maxStateBytes chk

def PausedAlone (g : CompiledStateGraph ω ν) (maxStateBytes : Option Nat)
    (chk : GraphCheckpoint ν) (paused : String) (delta : Dict ν) : Prop :=
  chk.frontier.eraseDups = [paused] ∧ oversize? maxStateBytes (g.merge chk.state delta) = none

theorem pausedAt_of_pausing {deltas : List (Dict ν)} {nextTargets : List String}
    (hdelta : g.runNode w chk.state paused = .ok delta)
    (hdirect : g.runSuperstep w tg chk.frontier.eraseDups chk.toGraphProgress
      = .ok (deltas, nextTargets))
    (hpause : (g.pausing paused member).loopStep w tg maxStateBytes chk = .paused chk') :
    paused ∈ chk.frontier.eraseDups ∧ chk.frontier ≠ [] ∧ chk.superstep < g.recursionLimit
      ∧ chk' = { chk with
        status := .interrupted, pausedNode := paused, memberCheckpointId := member,
        error := none } := by
  have hspec := (g.pausing paused member).loopStep_spec w tg maxStateBytes chk
  rw [hpause] at hspec
  cases hspec with
  | @paused node member' hrun hlimit hstep =>
    obtain ⟨name, hname, hraised⟩ := exists_of_interrupted hstep
    have hself : name = paused := by
      by_contra hne
      -- every other node returns, as it does in the direct superstep
      rw [runNode_pausing_of_ne hne] at hraised
      unfold runSuperstep at hdirect
      split at hdirect
      · cases hdirect
      · cases hgather : g.gather w tg chk.frontier.eraseDups chk.state with
        | error e => rw [hgather] at hdirect; cases hdirect
        | ok ds =>
          have hmem : g.runNode w chk.state name ∈ ds.map Except.ok := by
            rw [← runNode_of_gather hgather]
            exact List.mem_map_of_mem hname
          obtain ⟨d, -, hd⟩ := List.mem_map.1 hmem
          rw [hraised] at hd
          cases hd
    subst hself
    rw [runNode_pausing_self (isSome_of_runNode hdelta)] at hraised
    cases hraised
    exact ⟨hname, hrun, hlimit, rfl⟩

theorem runSuperstep_alone {p : GraphProgress ν} {deltas : List (Dict ν)}
    {nextTargets : List String} (hdelta : g.runNode w p.state paused = .ok delta)
    (h : g.runSuperstep w tg [paused] p = .ok (deltas, nextTargets)) :
    deltas = [delta] ∧ ∃ targets, g.route w paused (g.merge p.state delta) = .ok targets
      ∧ nextTargets = targets.filter (· ≠ END) := by
  unfold runSuperstep at h
  split at h
  · cases h
  · cases hgather : g.gather w tg [paused] p.state with
    | error e => rw [hgather] at h; cases h
    | ok ds =>
      have hds : ds = [delta] := by
        have hmap := runNode_of_gather hgather
        rw [List.map_singleton, hdelta] at hmap
        obtain ⟨d, hd, hok⟩ := List.map_eq_singleton_iff.1 hmap.symm
        cases hok
        exact hd
      subst hds
      rw [hgather] at h
      cases hroute : g.route w paused (g.merge p.state delta) with
      | error e => simp [bind, Except.bind, hroute] at h
      | ok targets =>
        simp only [bind, Except.bind, List.foldl_cons, List.foldl_nil, List.mapM_cons,
          List.mapM_nil, hroute, pure, Except.pure, List.flatten_cons, List.flatten_nil,
          List.append_nil, Except.ok.injEq, Prod.mk.injEq] at h
        exact ⟨h.1.symm, targets, rfl, h.2.symm⟩

theorem outline_splice (w : ω) (chk' : GraphCheckpoint ν) (delta : Dict ν)
    (hnode : (g.nodes.get? chk'.pausedNode).isSome = true) :
    (g.spliceMemberResume w chk' { delta }).outline
      = match g.route w chk'.pausedNode (g.merge chk'.state delta) with
        | .error e => .ended (.raised e)
        | .ok targets => .advanced
          { state := g.merge chk'.state delta
            completedNodes := chk'.completedNodes ++ [chk'.pausedNode]
            visitCounts := countVisit chk'.visitCounts chk'.pausedNode
            frontier := targets.filter (· ≠ END)
            superstep := chk'.superstep + 1 } := by
  unfold spliceMemberResume
  rw [if_neg (by rw [Option.isNone_iff_eq_none]; exact Option.isSome_iff_ne_none.1 hnode)]
  simp only [Bool.false_eq_true, if_false]
  cases g.route w chk'.pausedNode (g.merge chk'.state delta) <;> rfl

omit [GraphValue ν] in
theorem SpliceStep.spliced_of_outline {step : SpliceStep ν} {p : GraphProgress ν}
    (h : step.outline = .advanced p) : ∃ chk, step = .spliced chk ∧ chk.toGraphProgress = p := by
  cases step with
  | spliced chk => cases h; exact ⟨chk, rfl, rfl⟩
  | _ => cases h

theorem invokeResume_of_spliced {outcome : MemberResumeOutcome ν}
    (h : g.spliceMemberResume w chk outcome = .spliced chk') (hname : chk.graphName = g.name)
    (hmember : chk.memberCheckpointId ≠ "") :
    g.invokeResume w tg maxStateBytes chk (some outcome) = g.runLoop w tg maxStateBytes chk' := by
  have hrunning : g.spliceMemberResume w { chk with status := .running } outcome
      = .spliced chk' := h
  unfold invokeResume resolveResume
  rw [if_neg (by simp [hname])]
  dsimp only
  rw [if_neg hmember, hrunning]

theorem advance_of_ok (maxStateBytes : Option Nat) {p : GraphProgress ν}
    {deltas : List (Dict ν)} {nextTargets : List String}
    (hrun : p.frontier ≠ []) (hlimit : p.superstep < g.recursionLimit)
    (h : g.runSuperstep w tg p.frontier.eraseDups p = .ok (deltas, nextTargets)) :
    g.advance w tg maxStateBytes p
      = match oversize? maxStateBytes (deltas.foldl g.merge p.state) with
        | some size => .ended (.raised (.stateSize size (maxStateBytes.getD 0) p.superstep))
        | none => .advanced
          { state := deltas.foldl g.merge p.state
            completedNodes := p.completedNodes ++ p.frontier.eraseDups
            visitCounts := p.frontier.eraseDups.foldl countVisit p.visitCounts
            frontier := nextTargets
            superstep := p.superstep + 1 } := by
  unfold advance
  rw [if_neg hrun, if_neg (Nat.not_le.2 hlimit)]
  cases hsize : oversize? maxStateBytes (deltas.foldl g.merge p.state) with
  | none => simp only [h, hsize]
  | some size => simp only [h, hsize]

/-- **Pausing a node changes nothing exactly when it is alone.** -/
theorem pauseUnobserved_iff (g : CompiledStateGraph ω ν) (w : ω) (tg : TaskGroup)
    (maxStateBytes : Option Nat) (paused member : String) {deltas : List (Dict ν)}
    {nextTargets : List String} (hname : chk.graphName = g.name) (hmember : member ≠ "")
    (hdelta : g.runNode w chk.state paused = .ok delta)
    (hdirect : g.runSuperstep w tg chk.frontier.eraseDups chk.toGraphProgress
      = .ok (deltas, nextTargets))
    (hpause : (g.pausing paused member).loopStep w tg maxStateBytes chk = .paused chk') :
    g.PauseUnobserved w tg maxStateBytes chk chk' delta
      ↔ g.PausedAlone maxStateBytes chk paused delta := by
  obtain ⟨hmem, hrun, hlimit, rfl⟩ := pausedAt_of_pausing hdelta hdirect hpause
  have hadvance := advance_of_ok maxStateBytes hrun hlimit hdirect
  have hsplice := outline_splice w { chk with
    status := .interrupted, pausedNode := paused, memberCheckpointId := member, error := none }
    delta (isSome_of_runNode hdelta)
  dsimp only at hsplice
  constructor
  · rintro ⟨hsame, -⟩
    rw [hadvance, hsplice] at hsame
    cases hroute : g.route w paused (g.merge chk.state delta) with
    | error e =>
      -- a routing error is neither a superstep nor a state that is too large
      rw [hroute] at hsame
      cases hsize : oversize? maxStateBytes (deltas.foldl g.merge chk.state) with
      | none => rw [hsize] at hsame; cases hsame
      | some size =>
        rw [hsize] at hsame
        cases hsame
        rcases route_error hroute with ⟨t, ht⟩ | ⟨t, ht⟩ <;> cases ht
    | ok targets =>
      rw [hroute] at hsame
      cases hsize : oversize? maxStateBytes (deltas.foldl g.merge chk.state) with
      | some size => rw [hsize] at hsame; cases hsame
      | none =>
        rw [hsize] at hsame
        injection hsame with hprogress
        have hnodes := congrArg GraphProgress.completedNodes hprogress
        have halone : chk.frontier.eraseDups = [paused] := (List.append_cancel_left hnodes).symm
        rw [halone] at hdirect
        obtain ⟨rfl, -⟩ := runSuperstep_alone hdelta hdirect
        exact ⟨halone, hsize⟩
  · rintro ⟨halone, hsize⟩
    rw [halone] at hdirect hadvance
    obtain ⟨rfl, targets, hroute, rfl⟩ := runSuperstep_alone hdelta hdirect
    replace hsize : oversize? maxStateBytes ([delta].foldl g.merge chk.state) = none := hsize
    rw [hsize] at hadvance
    rw [hroute] at hsplice
    have hstep := hsplice.trans hadvance.symm
    refine ⟨hstep, ?_⟩
    obtain ⟨next, hspliced, hnext⟩ := SpliceStep.spliced_of_outline hsplice
    rw [invokeResume_of_spliced hspliced hname hmember]
    exact (runLoop_advanced hadvance hnext).symm

/-- Two runs come to the same: the same final state, the same nodes executed as often, the same
    visit counts. -/
def RunEnd.Same : RunEnd ν → RunEnd ν → Prop
  | .completed p, .completed p' => p.state = p'.state
    ∧ p.completedNodes.Perm p'.completedNodes ∧ p.visitCounts = p'.visitCounts
  | e, e' => e = e'

end CompiledStateGraph

/-- Pausing a graph node does not change what the graph computes: at every reachable frontier,
    resuming the pause with the delta the node would have returned comes to what its return would
    have come to. -/
def PauseIsTransparent (ω ν : Type) [GraphValue ν] : Prop :=
  ∀ (g : CompiledStateGraph ω ν) (w : ω) (tg : TaskGroup) (maxStateBytes : Option Nat)
    (checkpointId : String) (initialState : Dict ν) (n : Nat) (chk chk' : GraphCheckpoint ν)
    (paused member : String) (delta : Dict ν),
    g.supersteps w tg maxStateBytes n (g.freshCheckpoint checkpointId initialState) = some chk →
    member ≠ "" → g.runNode w chk.state paused = .ok delta →
    (g.pausing paused member).loopStep w tg maxStateBytes chk = .paused chk' →
    ∃ e e', g.invokeResume w tg maxStateBytes chk' (some { delta }) = some e
      ∧ g.runLoop w tg maxStateBytes chk = some e' ∧ e.Same e'

private def reporter (name : String) : Node Unit Json where
  name := name
  fn := fun _ _ => .returned (.mapping (empty.put (name, .bool true)))

private def fanOut : CompiledStateGraph Unit Json where
  name := "fan-out"
  nodes := ((empty.put (reporter "start")).put (reporter "left")).put (reporter "right")
  edges := empty.put ("start", ["left", "right"])
  conditional := empty
  reducers := empty
  entry := "start"
  recursionLimit := defaultRecursionLimit
  maxStateBytes := none
  entry_mem := rfl
  edge_mem := by decide
  recursionLimit_pos := defaultRecursionLimit_pos

/-- `start` is alone in the first frontier. -/
theorem pauseUnobserved_iff_alone : ∃ chk',
    (fanOut.pausing "start" "m1").loopStep () .all none (fanOut.freshCheckpoint "c1" empty)
        = .paused chk'
      ∧ fanOut.PauseUnobserved () .all none (fanOut.freshCheckpoint "c1" empty) chk'
        (empty.put ("start", .bool true)) := by
  refine ⟨_, rfl, ?_⟩
  exact (fanOut.pauseUnobserved_iff () .all none "start" "m1" rfl (by decide) rfl rfl rfl).2
    ⟨by decide, rfl⟩

/-- `left` pauses beside `right`, which is never executed. -/
theorem not_pauseIsTransparent : ¬ PauseIsTransparent Unit Json := by
  intro h
  obtain ⟨e, e', he, he', hsame⟩ := h fanOut () .all none "c1" empty 1 _ _ "left" "m1" _
    rfl (by decide) rfl rfl
  cases he
  cases he'
  exact absurd hsame.2.1.length_eq (by decide)

end Himmy
