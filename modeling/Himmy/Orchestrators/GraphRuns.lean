import Himmy.Library.Transition
import Himmy.Orchestrators.StateGraph

/-! # The pending member of a graph checkpoint

A caller invokes a graph again and again: fresh, or from any checkpoint it has saved, with a
`resume_member` or without, and each invocation may be cancelled or die. `graphRuns` is the system of
these invocations, with every checkpoint saved; beside each checkpoint it keeps, for the statements
only, the latest pause of its run whose node has not completed since.

A checkpoint saved on a pause names the paused member until the splice clears it, and nothing else
does: a resume without `resume_member` runs the paused node again, and when its superstep completes
the checkpoint still names the member. In the runs in which no superstep completes on such a
checkpoint (`MembersResumed`), a saved checkpoint names a member exactly when one is pending. -/

namespace Himmy

open KeyedList (empty)

/-- A node that paused, and the member checkpoint it paused on. -/
structure PendingMember where
  node : String
  member : String
deriving DecidableEq

/-- A checkpoint and the pending member of its run. -/
structure TrackedCheckpoint (ν : Type) where
  chk : GraphCheckpoint ν
  pending : Option PendingMember

/-- `looping` runs the superstep loop; `closing` has saved its end and emits its last event. -/
inductive InvocationPhase
  | looping
  | closing
deriving DecidableEq

/-- An invocation in progress. -/
structure Invocation (ν : Type) extends TrackedCheckpoint ν where
  maxStateBytes : Option Nat
  phase : InvocationPhase := .looping

/-- Every checkpoint saved, and the invocation in progress. -/
structure GraphRuns (ν : Type) where
  saved : List (TrackedCheckpoint ν) := []
  active : Option (Invocation ν) := none

/-- The events: an invocation begins (with what `resume_member` returns when it is given), runs a
    superstep, is cancelled or times out, ends, or dies. -/
inductive GraphCall (ω ν : Type)
  | fresh (checkpointId : String) (initialState : Dict ν) (maxStateBytes : Option Nat)
  | resume (i : Nat) (checkpointId : Option String) (maxStateBytes : Option Nat) (w : ω)
      (outcome : Option (MemberResumeOutcome ν))
  | superstep (w : ω) (tg : TaskGroup)
  | cancel
  | close
  | crash

namespace GraphRuns

variable {ω ν : Type} [GraphValue ν] (g : CompiledStateGraph ω ν) (s : GraphRuns ν)

def save (t : TrackedCheckpoint ν) (active : Option (Invocation ν)) :
    GraphRuns ν :=
  { saved := s.saved ++ [t], active }

/-- The pending member after one iteration of the loop: a pause sets it, and the completion of its
    node clears it. -/
def pendingAfter (w : ω) (tg : TaskGroup) (t : TrackedCheckpoint ν) : Option PendingMember :=
  if t.chk.frontier = [] ∨ g.recursionLimit ≤ t.chk.superstep then t.pending
  else match g.runSuperstep w tg t.chk.frontier.eraseDups t.chk.toGraphProgress with
  | .error (.nodeInterrupt node member) => some ⟨node, member⟩
  | .error _ => t.pending
  | .ok _ => t.pending.filter (fun p => p.node ∉ t.chk.frontier)

def resolved (chk : GraphCheckpoint ν) : Option String → GraphCheckpoint ν
  | none => chk
  | some checkpointId => { chk with checkpointId }

/-- `invoke(resume=…)` up to the loop. -/
def enter (t : TrackedCheckpoint ν) (maxStateBytes : Option Nat) (w : ω) :
    Option (MemberResumeOutcome ν) → GraphRuns ν
  | none => { s with active := some { t with maxStateBytes } }
  | some outcome =>
    if t.chk.memberCheckpointId = "" then { s with active := some { t with maxStateBytes } }
    else match g.spliceMemberResume w t.chk outcome with
    | .pausedAgain chk => s.save ⟨chk, some ⟨t.chk.pausedNode, outcome.memberCheckpointId⟩⟩ none
    | .raised _ => s
    | .spliced chk =>
      let t' := ⟨chk, t.pending.filter (fun p => p.node ≠ t.chk.pausedNode)⟩
      s.save t' (some { t' with maxStateBytes })

def step : GraphCall ω ν → Option (GraphRuns ν)
  | .fresh checkpointId initialState maxStateBytes =>
    if s.active.isSome then none
    else
      let chk := g.freshCheckpoint checkpointId initialState
      some { s with active := some { chk, pending := none, maxStateBytes } }
  | .resume i checkpointId maxStateBytes w outcome =>
    if s.active.isSome then none
    else s.saved[i]?.map fun t =>
      match g.resolveResume t.chk with
      | .error _ => s
      | .ok chk => enter g s ⟨resolved chk checkpointId, t.pending⟩ maxStateBytes w outcome
  | .superstep w tg => s.active.bind fun inv =>
    if inv.phase = .looping then
      let pending := pendingAfter g w tg inv.toTrackedCheckpoint
      let iteration := g.loopStep w tg inv.maxStateBytes inv.chk
      match iteration.saved? with
      | some chk =>
        let phase := if iteration.goesOn then .looping else .closing
        some (s.save ⟨chk, pending⟩ (some { inv with chk, pending, phase }))
      | none => some { s with active := none }
    else none
  | .cancel => s.active.map fun inv =>
    s.save { inv.toTrackedCheckpoint with
      chk := { inv.chk with status := .interrupted, error := some .cancelled } } none
  | .close => s.active.bind fun inv =>
    if inv.phase = .closing then some { s with active := none } else none
  | .crash => some { s with active := none }

end GraphRuns

def graphRuns {ω ν : Type} [GraphValue ν] (g : CompiledStateGraph ω ν) :
    LTS (GraphRuns ν) (GraphCall ω ν) :=
  ⟨GraphRuns.step g⟩

namespace GraphRuns

variable {ω ν : Type} [GraphValue ν]

/-- A checkpoint names a member exactly when the run waits for one: it is interrupted because the
    node it names paused and has not completed since, and it names the latest pause of that node.
    A checkpoint without a pending member is resumed alike whatever `resume_member` would return. -/
structure NamesPending (g : CompiledStateGraph ω ν) (t : TrackedCheckpoint ν) : Prop where
  named : t.chk.memberCheckpointId ≠ ""
    ↔ t.chk.status = .interrupted ∧ ∃ member, t.pending = some ⟨t.chk.pausedNode, member⟩
  inFrontier : t.chk.memberCheckpointId ≠ "" → t.chk.pausedNode ∈ t.chk.frontier
  latest : t.chk.memberCheckpointId ≠ "" →
    t.pending = some ⟨t.chk.pausedNode, t.chk.memberCheckpointId⟩
  noApproval : t.pending = none → ∀ w tg maxStateBytes outcome,
    g.invokeResume w tg maxStateBytes t.chk (some outcome)
      = g.invokeResume w tg maxStateBytes t.chk none

def pausesAsItself (g : CompiledStateGraph ω ν) (w : ω) (state : Dict ν) (name : String) : Bool :=
  match g.runNode w state name with
  | .error (.nodeInterrupt node member) => node = name && member ≠ ""
  | _ => true

def MembersResumed (g : CompiledStateGraph ω ν) (s : GraphRuns ν) : GraphCall ω ν → Prop
  | .resume _ _ _ _ outcome => ∀ o ∈ outcome, o.pausedAgain = true → o.memberCheckpointId ≠ ""
  | .superstep w tg => ∀ inv ∈ s.active,
      (∀ name ∈ inv.chk.frontier, pausesAsItself g w inv.chk.state name = true)
      ∧ (inv.chk.memberCheckpointId ≠ "" → (g.runSuperstep w tg inv.chk.frontier.eraseDups
          inv.chk.toGraphProgress).toOption.isNone = true)
  | _ => True

instance (g : CompiledStateGraph ω ν) (s : GraphRuns ν) :
    ∀ a : GraphCall ω ν, Decidable (MembersResumed g s a)
  | .resume .. | .superstep .. => by unfold MembersResumed; infer_instance
  | .fresh .. | .cancel | .close | .crash => .isTrue trivial

/-! ## The invariant -/

/-- The checkpoint names the pending member, if there is one, and a pending node is still to run. -/
structure Tracks (g : CompiledStateGraph ω ν) (t : TrackedCheckpoint ν) : Prop where
  unnamed : t.pending = none → t.chk.memberCheckpointId = ""
  named : ∀ p, t.pending = some p → t.chk.pausedNode = p.node ∧ t.chk.memberCheckpointId = p.member
    ∧ p.member ≠ "" ∧ p.node ∈ t.chk.frontier ∧ t.chk.superstep < g.recursionLimit

variable {g : CompiledStateGraph ω ν} {t t' : TrackedCheckpoint ν} {s s' : GraphRuns ν}
  {a : GraphCall ω ν}

namespace Tracks

omit [GraphValue ν] in
theorem pending_eq_none (h : Tracks g t) (hmember : t.chk.memberCheckpointId = "") :
    t.pending = none := by
  cases hp : t.pending with
  | none => rfl
  | some p =>
    obtain ⟨-, hm, hne, -, -⟩ := h.named p hp
    exact absurd (hm.symm.trans hmember) hne

omit [GraphValue ν] in
theorem congr (h : Tracks g t) (hpending : t'.pending = t.pending)
    (hpaused : t'.chk.pausedNode = t.chk.pausedNode)
    (hmember : t'.chk.memberCheckpointId = t.chk.memberCheckpointId)
    (hprogress : t'.chk.toGraphProgress = t.chk.toGraphProgress) : Tracks g t' := by
  constructor
  · intro hp
    rw [hmember]
    exact h.unnamed (hpending.symm.trans hp)
  · intro p hp
    rw [hpaused, hmember, hprogress]
    exact h.named p (hpending.symm.trans hp)

omit [GraphValue ν] in
theorem of_none (hpending : t.pending = none) (hmember : t.chk.memberCheckpointId = "") :
    Tracks g t := by
  constructor
  · intro _
    exact hmember
  · intro p hp
    rw [hpending] at hp
    cases hp

theorem namesPending (h : Tracks g t) (hstatus : t.pending ≠ none → t.chk.status = .interrupted) :
    NamesPending g t := by
  have hlatest : t.chk.memberCheckpointId ≠ "" →
      t.pending = some ⟨t.chk.pausedNode, t.chk.memberCheckpointId⟩ := by
    intro hm
    cases hp : t.pending with
    | none => exact absurd (h.unnamed hp) hm
    | some p =>
      obtain ⟨hnode, hmember, -, -, -⟩ := h.named p hp
      rw [hnode, hmember]
  refine ⟨⟨?_, ?_⟩, ?_, hlatest, ?_⟩
  · intro hm
    have hp := hlatest hm
    exact ⟨hstatus (by simp [hp]), _, hp⟩
  · rintro ⟨-, member, hp⟩
    obtain ⟨-, hmember, hne, -, -⟩ := h.named _ hp
    rw [hmember]
    exact hne
  · intro hm
    exact (h.named _ (hlatest hm)).2.2.2.1
  · intro hp w tg maxStateBytes outcome
    have hm := h.unnamed hp
    unfold CompiledStateGraph.invokeResume CompiledStateGraph.resolveResume
    split
    · rfl
    · next chk hresolve =>
        split at hresolve
        · cases hresolve
        · cases hresolve
          exact if_pos hm

theorem loopStep (h : Tracks g t) {w : ω} {tg : TaskGroup} {maxStateBytes : Option Nat}
    {chk : GraphCheckpoint ν}
    (hpauses : ∀ name ∈ t.chk.frontier, pausesAsItself g w t.chk.state name = true)
    (hresumed : t.chk.memberCheckpointId ≠ "" → (g.runSuperstep w tg t.chk.frontier.eraseDups
        t.chk.toGraphProgress).toOption.isNone = true)
    (hsaved : (g.loopStep w tg maxStateBytes t.chk).saved? = some chk) :
    Tracks g ⟨chk, pendingAfter g w tg t⟩
      ∧ (pendingAfter g w tg t ≠ none → chk.status = .interrupted) := by
  -- a superstep completes only when no member is pending
  have hcompleted : ∀ {result : List (Dict ν) × List String}, t.chk.frontier ≠ [] →
      t.chk.superstep < g.recursionLimit →
      g.runSuperstep w tg t.chk.frontier.eraseDups t.chk.toGraphProgress = .ok result →
      t.chk.memberCheckpointId = "" ∧ pendingAfter g w tg t = none := by
    intro result hrun hlimit hstep
    have hmember : t.chk.memberCheckpointId = "" := by
      by_contra hne
      have hnone := hresumed hne
      rw [hstep] at hnone
      cases hnone
    refine ⟨hmember, ?_⟩
    unfold pendingAfter
    rw [if_neg (by simp [hrun, hlimit]), hstep, h.pending_eq_none hmember]
    rfl
  have hspec := g.loopStep_spec w tg maxStateBytes t.chk
  revert hsaved hspec
  generalize g.loopStep w tg maxStateBytes t.chk = iteration
  intro hsaved hspec
  cases hspec with
  | completed hend =>
    cases hsaved
    have hkept : pendingAfter g w tg t = t.pending := by
      unfold pendingAfter
      rw [if_pos (Or.inl hend)]
    have hnone : t.pending = none := by
      cases hp : t.pending with
      | none => rfl
      | some p =>
        have hmem := (h.named p hp).2.2.2.1
        rw [hend] at hmem
        cases hmem
    rw [hkept, hnone]
    exact ⟨of_none rfl (h.unnamed hnone), fun hne => absurd rfl hne⟩
  | atLimit hrun hlimit =>
    cases hsaved
    have hkept : pendingAfter g w tg t = t.pending := by
      unfold pendingAfter
      rw [if_pos (Or.inr hlimit)]
    have hnone : t.pending = none := by
      cases hp : t.pending with
      | none => rfl
      | some p => exact absurd (h.named p hp).2.2.2.2 (Nat.not_lt.2 hlimit)
    rw [hkept, hnone]
    exact ⟨of_none rfl (h.unnamed hnone), fun hne => absurd rfl hne⟩
  | @paused node member hrun hlimit hstep =>
    cases hsaved
    have hset : pendingAfter g w tg t = some ⟨node, member⟩ := by
      unfold pendingAfter
      rw [if_neg (by simp [hrun, hlimit]), hstep]
    rw [hset]
    -- the pause is that of a node of the frontier, under its own name
    obtain ⟨name, hname, hraised⟩ := CompiledStateGraph.exists_of_interrupted hstep
    have hmem : name ∈ t.chk.frontier := List.mem_eraseDups.1 hname
    have hself := hpauses name hmem
    simp only [pausesAsItself, hraised, Bool.and_eq_true, decide_eq_true_eq] at hself
    obtain ⟨rfl, hne⟩ := hself
    refine ⟨⟨?_, ?_⟩, fun _ => rfl⟩
    · intro hp
      cases hp
    · intro p hp
      cases hp
      exact ⟨rfl, rfl, hne, hmem, hlimit⟩
  | raised hrun hlimit hstep hother => cases hsaved
  | oversized hrun hlimit hstep hsize =>
    cases hsaved
    obtain ⟨hmember, hnone⟩ := hcompleted hrun hlimit hstep
    rw [hnone]
    exact ⟨of_none rfl hmember, fun hne => absurd rfl hne⟩
  | advanced hrun hlimit hstep hsize =>
    cases hsaved
    obtain ⟨hmember, hnone⟩ := hcompleted hrun hlimit hstep
    rw [hnone]
    exact ⟨of_none rfl hmember, fun hne => absurd rfl hne⟩

end Tracks

/-- Every checkpoint saved is tracked and interrupted when a member is pending, and so is that of
    the invocation in progress. -/
structure Sound (g : CompiledStateGraph ω ν) (s : GraphRuns ν) : Prop where
  saved : ∀ t ∈ s.saved, Tracks g t ∧ (t.pending ≠ none → t.chk.status = .interrupted)
  active : ∀ inv, s.active = some inv → Tracks g inv.toTrackedCheckpoint

namespace Sound

omit [GraphValue ν] in
theorem init (g : CompiledStateGraph ω ν) : Sound g {} :=
  ⟨fun _ ht => absurd ht List.not_mem_nil, fun _ h => by cases h⟩

omit [GraphValue ν] in
theorem save (h : Sound g s) (htracks : Tracks g t)
    (hstatus : t.pending ≠ none → t.chk.status = .interrupted) {active : Option (Invocation ν)}
    (hactive : ∀ inv, active = some inv → Tracks g inv.toTrackedCheckpoint) :
    Sound g (s.save t active) := by
  refine ⟨?_, hactive⟩
  intro t' ht'
  rcases List.mem_append.1 ht' with ht' | ht'
  · exact h.saved t' ht'
  · rw [List.mem_singleton.1 ht']
    exact ⟨htracks, hstatus⟩

theorem enter (h : Sound g s) (htracks : Tracks g t) {maxStateBytes : Option Nat} {w : ω}
    {outcome : Option (MemberResumeOutcome ν)}
    (hagain : ∀ o ∈ outcome, o.pausedAgain = true → o.memberCheckpointId ≠ "") :
    Sound g (GraphRuns.enter g s t maxStateBytes w outcome) := by
  have hplain : Sound g { s with active := some { t with maxStateBytes } } := by
    refine ⟨h.saved, ?_⟩
    intro inv hinv
    cases hinv
    exact htracks
  unfold GraphRuns.enter
  cases outcome with
  | none => exact hplain
  | some o =>
    dsimp only
    split
    · exact hplain
    · next hmember =>
        -- the checkpoint names the pending member, so the splice is of its node
        obtain ⟨p, hp⟩ : ∃ p, t.pending = some p := by
          cases hp : t.pending with
          | none => exact absurd (htracks.unnamed hp) hmember
          | some p => exact ⟨p, rfl⟩
        obtain ⟨hnode, hm, hne, hmem, hlimit⟩ := htracks.named p hp
        have hspec := g.spliceMemberResume_spec w t.chk o
        generalize g.spliceMemberResume w t.chk o = splice at hspec
        cases hspec with
        | raised e => exact h
        | pausedAgain ha =>
          refine h.save ⟨?_, ?_⟩ (fun _ => rfl) (fun _ h => by cases h)
          · intro hp
            cases hp
          · intro q hq
            cases hq
            have hid : o.memberCheckpointId ≠ "" := hagain o rfl ha
            exact ⟨rfl, if_neg hid, hid, hnode ▸ hmem, hlimit⟩
        | spliced hroute =>
          have hcleared : t.pending.filter (fun q => q.node ≠ t.chk.pausedNode) = none := by
            rw [hp, hnode]
            simp [Option.filter]
          dsimp only
          rw [hcleared]
          refine h.save (.of_none rfl rfl) (fun hne => absurd rfl hne) ?_
          intro inv hinv
          cases hinv
          exact .of_none rfl rfl

theorem step (h : Sound g s) (hcond : MembersResumed g s a)
    (hstep : GraphRuns.step g s a = some s') : Sound g s' := by
  cases a with
  | fresh checkpointId initialState maxStateBytes =>
    simp only [GraphRuns.step] at hstep
    split at hstep
    · cases hstep
    · cases hstep
      refine ⟨h.saved, ?_⟩
      intro inv hinv
      cases hinv
      exact .of_none rfl rfl
  | resume i checkpointId maxStateBytes w outcome =>
    simp only [GraphRuns.step] at hstep
    split at hstep
    · cases hstep
    · obtain ⟨t, ht, rfl⟩ := Option.map_eq_some_iff.1 hstep
      have htracks := (h.saved t (List.mem_of_getElem? ht)).1
      unfold CompiledStateGraph.resolveResume
      split
      · exact h
      · next chk hresolve =>
          split at hresolve
          · cases hresolve
          · cases hresolve
            have hresolved : Tracks g ⟨resolved { t.chk with status := .running } checkpointId,
                t.pending⟩ := by
              cases checkpointId with
              | none => exact htracks.congr rfl rfl rfl rfl
              | some id => exact htracks.congr rfl rfl rfl rfl
            exact h.enter hresolved hcond
  | superstep w tg =>
    obtain ⟨inv, hinv, hstep⟩ := Option.bind_eq_some_iff.1 hstep
    split at hstep
    · dsimp only at hstep
      split at hstep
      · next chk hsaved =>
          cases hstep
          obtain ⟨hpauses, hresumed⟩ := hcond inv hinv
          obtain ⟨htracks, hstatus⟩ := (h.active inv hinv).loopStep hpauses hresumed hsaved
          refine h.save htracks hstatus ?_
          intro inv' hinv'
          cases hinv'
          exact htracks
      · cases hstep
        exact ⟨h.saved, fun _ h => by cases h⟩
    · cases hstep
  | cancel =>
    obtain ⟨inv, hinv, rfl⟩ := Option.map_eq_some_iff.1 hstep
    have htracks : Tracks g { inv.toTrackedCheckpoint with
        chk := { inv.chk with status := .interrupted, error := some .cancelled } } :=
      (h.active inv hinv).congr rfl rfl rfl rfl
    exact h.save htracks (fun _ => rfl) (fun _ h => by cases h)
  | close =>
    obtain ⟨inv, hinv, hstep⟩ := Option.bind_eq_some_iff.1 hstep
    split at hstep
    · cases hstep
      exact ⟨h.saved, fun _ h => by cases h⟩
    · cases hstep
  | crash =>
    cases hstep
    exact ⟨h.saved, fun _ h => by cases h⟩

end Sound

end GraphRuns

/-- A graph checkpoint names a pending member exactly when a member is pending, in every sequence of
    invocations of the graph. -/
def NamesPendingMember {ω ν : Type} [GraphValue ν] (g : CompiledStateGraph ω ν) : Prop :=
  ∀ as s, (graphRuns g).exec {} as = some s → ∀ t ∈ s.saved, GraphRuns.NamesPending g t

/-- In every run in which no superstep completes on a checkpoint that names a member, the checkpoints
    saved name the pending member and no other. -/
theorem namesPending_of_membersResumed {ω ν : Type} [GraphValue ν] (g : CompiledStateGraph ω ν)
    (as : List (GraphCall ω ν)) {s : GraphRuns ν}
    (hcond : (graphRuns g).AlongRun (GraphRuns.MembersResumed g) {} as)
    (hrun : (graphRuns g).exec {} as = some s) : ∀ t ∈ s.saved, GraphRuns.NamesPending g t := by
  have hsound : GraphRuns.Sound g s :=
    (graphRuns g).exec_invariant (fun _ _ _ h hc hstep => h.step hc hstep) (.init g) hcond hrun
  intro t ht
  exact (hsound.saved t ht).1.namesPending (hsound.saved t ht).2

/-- A node that waits for an approval in the world `true`. -/
private def gated : CompiledStateGraph Bool Json where
  name := "gated"
  nodes := empty.put {
    name := "gate"
    fn := fun waits _ =>
      if waits then .interrupted "gate" "m1"
      else .returned (.mapping (empty.put ("done", .bool true))) }
  edges := empty
  conditional := empty
  reducers := empty
  entry := "gate"
  recursionLimit := defaultRecursionLimit
  maxStateBytes := none
  entry_mem := rfl
  edge_mem := List.forall_mem_nil _
  recursionLimit_pos := defaultRecursionLimit_pos

private def approvedTwice : List (GraphCall Bool Json) :=
  [.fresh "c1" empty none, .superstep true .all, .close,
    .resume 0 none none false (some { pausedAgain := true, memberCheckpointId := "m2" }),
    .resume 1 none none false (some {}), .superstep false .all, .close]

theorem namesPending_of_membersResumed_twice : ∃ s, (graphRuns gated).exec {} approvedTwice = some s
      ∧ ∀ t ∈ s.saved, GraphRuns.NamesPending gated t :=
  ⟨_, rfl, namesPending_of_membersResumed gated approvedTwice (by decide) rfl⟩

/-- The paused run is resumed without a `resume_member`: its node completes, the run is cancelled,
    and the checkpoint saved names the member that is no longer pending. -/
private def resumedPlainly : List (GraphCall Bool Json) :=
  [.fresh "c1" empty none, .superstep true .all, .close, .resume 0 none none false none,
    .superstep false .all, .cancel]

theorem not_namesPendingMember : ¬ NamesPendingMember gated := by
  intro h
  have hnames := h resumedPlainly _ rfl _ (List.mem_of_getElem? (i := 2) rfl)
  obtain ⟨-, member, hpending⟩ := hnames.named.1 (by decide)
  cases hpending

end Himmy
