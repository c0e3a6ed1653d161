import Himmy.Library.Lists
import Himmy.Orchestrators.GraphRuns

/-! # The guards of a graph run

Three guards bound a run: `recursion_limit` its supersteps, `max_visits` the completions of a node,
`max_state_bytes` the size of the merged state. The superstep loop tests each of them before it goes
on. A splice merges a delta, completes a node and advances the run by a superstep as well, and tests
none of them; nor does the loop test the state when it is entered with nothing left to run.

So a run is within its guards when each of its splices would have been admitted by the loop, and no
invocation ends at once on a state over its limit (`withinGuards_of_guarded`). A splice of a member
whose node has completed since is one that the loop need not have admitted: it counts on top. -/

namespace Himmy

open KeyedList (empty)

namespace CompiledStateGraph

variable {ω ν : Type}

/-! ## Counting visits -/

theorem find?_countVisit (visitCounts : Dict Nat) (name name' : String) :
    ((countVisit visitCounts name).find? name').getD 0
      = (visitCounts.find? name').getD 0 + if name' = name then 1 else 0 := by
  unfold countVisit
  by_cases h : name' = name
  · subst h
    simp
  · rw [Dict.find?_set_of_ne _ _ h, if_neg h, Nat.add_zero]

theorem find?_countVisits (names : List String) (visitCounts : Dict Nat) (name : String) :
    ((names.foldl countVisit visitCounts).find? name).getD 0
      = (visitCounts.find? name).getD 0 + names.count name := by
  induction names generalizing visitCounts with
  | nil => simp
  | cons n names ih =>
    rw [List.foldl_cons, ih, find?_countVisit, List.count_cons]
    by_cases h : name = n
    · subst h
      simp
      omega
    · simp [h, Ne.symm h]

variable [GraphValue ν] {g : CompiledStateGraph ω ν}

theorem visitError?_of_runSuperstep {w : ω} {tg : TaskGroup} {frontier : List String}
    {p : GraphProgress ν} {result : List (Dict ν) × List String}
    (h : g.runSuperstep w tg frontier p = .ok result) :
    ∀ name ∈ frontier, g.visitError? p.visitCounts name = none := by
  unfold runSuperstep at h
  split at h
  · cases h
  · next hguard => exact List.findSome?_eq_none_iff.1 hguard

omit [GraphValue ν] in
theorem lt_of_visitError? {visitCounts : Dict Nat} {name : String} {node : Node ω ν} {cap : Nat}
    (h : g.visitError? visitCounts name = none) (hnode : g.nodes.get? name = some node)
    (hcap : node.maxVisits = some cap) : (visitCounts.find? name).getD 0 < cap := by
  unfold visitError? at h
  rw [hnode] at h
  simp only [hcap] at h
  by_contra hle
  rw [if_pos (not_lt.1 hle)] at h
  cases h

theorem pausedAgain_of_spliced {w : ω} {chk chk' : GraphCheckpoint ν}
    {outcome : MemberResumeOutcome ν} (h : g.spliceMemberResume w chk outcome = .spliced chk') :
    outcome.pausedAgain = false := by
  unfold spliceMemberResume at h
  dsimp only at h
  split at h
  · cases h
  · split at h
    · cases h
    · next hreturned => exact Bool.eq_false_iff.2 hreturned

theorem le_of_oversize? {maxStateBytes : Option Nat} {state : Dict ν}
    (h : oversize? maxStateBytes state = none) :
    ∀ limit ∈ maxStateBytes, GraphValue.stateSizeBytes state ≤ limit := by
  intro limit hlimit
  unfold oversize? at h
  rw [hlimit] at h
  by_contra hlt
  simp [not_le.1 hlt] at h

/-- What a run has recorded is within the first two guards, and the visits it counts are the
    completions it has recorded. -/
structure Counted (g : CompiledStateGraph ω ν) (p : GraphProgress ν) : Prop where
  supersteps : p.superstep ≤ g.recursionLimit
  counts : ∀ name, p.completedNodes.count name = (p.visitCounts.find? name).getD 0
  visits : ∀ name node cap, g.nodes.get? name = some node → node.maxVisits = some cap →
    (p.visitCounts.find? name).getD 0 ≤ cap

namespace Counted

variable {p p' : GraphProgress ν}

omit [GraphValue ν] in
theorem start (g : CompiledStateGraph ω ν) (state : Dict ν) (frontier : List String) :
    g.Counted { state, frontier } := by
  refine ⟨Nat.zero_le _, fun _ => rfl, ?_⟩
  intro _ _ cap _ _
  exact Nat.zero_le cap

omit [GraphValue ν] in
theorem advance (h : g.Counted p) {names : List String} (hnodup : names.Nodup)
    (hlimit : p.superstep < g.recursionLimit)
    (hguard : ∀ name ∈ names, (g.nodes.get? name).isSome = true →
      g.visitError? p.visitCounts name = none) (hstep : p'.superstep = p.superstep + 1)
    (hnames : p'.completedNodes = p.completedNodes ++ names)
    (hcounts : p'.visitCounts = names.foldl countVisit p.visitCounts) : g.Counted p' := by
  refine ⟨by omega, ?_, ?_⟩
  · intro name
    rw [hnames, hcounts, List.count_append, h.counts, find?_countVisits]
  · intro name node cap hnode hcap
    rw [hcounts, find?_countVisits]
    by_cases hmem : name ∈ names
    · have hlt := lt_of_visitError? (hguard name hmem (by simp [hnode])) hnode hcap
      have hone := List.nodup_iff_count_le_one.1 hnodup name
      omega
    · rw [List.count_eq_zero_of_not_mem hmem, Nat.add_zero]
      exact h.visits name node cap hnode hcap

end Counted

end CompiledStateGraph

namespace GraphRuns

variable {ω ν : Type} [GraphValue ν]

open CompiledStateGraph (oversize? Counted)

/-! ## The bounds -/

/-- A checkpoint is within the first two guards of its graph: how many supersteps its run has
    completed, and how often each node. -/
structure Bounded (g : CompiledStateGraph ω ν) (chk : GraphCheckpoint ν) : Prop where
  supersteps : chk.superstep ≤ g.recursionLimit
  visits : ∀ node ∈ g.nodes.items, ∀ cap ∈ node.maxVisits,
    chk.completedNodes.count node.name ≤ cap

/-- The runs are within their guards: the checkpoints are, and an invocation that has completed ends
    with a state within the `max_state_bytes` it was given. -/
structure WithinGuards (g : CompiledStateGraph ω ν) (s : GraphRuns ν) : Prop where
  saved : ∀ t ∈ s.saved, Bounded g t.chk
  active : ∀ inv ∈ s.active, Bounded g inv.chk
  completed : ∀ inv ∈ s.active, inv.phase = .closing → inv.chk.status = .completed →
    ∀ limit ∈ inv.maxStateBytes, GraphValue.stateSizeBytes inv.chk.state ≤ limit

/-- The loop has something left to run, or the state is within the limit. -/
def EndsWithin (maxStateBytes : Option Nat) (frontier : List String) (state : Dict ν) : Prop :=
  frontier = [] → oversize? maxStateBytes state = none

variable (g : CompiledStateGraph ω ν)

/-- The loop would have admitted the superstep that a splice makes: the run is below the recursion
    limit, the paused node below its cap, and the merged state within the limit unless the loop goes
    on and tests it. -/
def SpliceAdmitted (maxStateBytes : Option Nat) (w : ω)
    (chk : GraphCheckpoint ν) (outcome : MemberResumeOutcome ν) : Prop :=
  chk.superstep < g.recursionLimit
    ∧ ((g.nodes.get? chk.pausedNode).isSome = true →
      g.visitError? chk.visitCounts chk.pausedNode = none)
    ∧ ∀ targets ∈ (g.route w chk.pausedNode (g.merge chk.state outcome.delta)).toOption,
      EndsWithin maxStateBytes (targets.filter (· ≠ END)) (g.merge chk.state outcome.delta)

/-- A resume makes a superstep that the loop would have admitted, or enters the loop with something
    left to run or a state within its limit. -/
def ResumeGuarded (maxStateBytes : Option Nat) (w : ω)
    (chk : GraphCheckpoint ν) : Option (MemberResumeOutcome ν) → Prop
  | none => EndsWithin maxStateBytes chk.frontier chk.state
  | some outcome =>
    if chk.memberCheckpointId = "" then EndsWithin maxStateBytes chk.frontier chk.state
    else outcome.pausedAgain = false → SpliceAdmitted g maxStateBytes w chk outcome

def Guarded (s : GraphRuns ν) : GraphCall ω ν → Prop
  | .resume i _ maxStateBytes w outcome =>
    ∀ t ∈ s.saved[i]?, ResumeGuarded g maxStateBytes w t.chk outcome
  | _ => True

instance (maxStateBytes : Option Nat) (frontier : List String) (state : Dict ν) :
    Decidable (EndsWithin maxStateBytes frontier state) := by
  unfold EndsWithin
  infer_instance

instance (g : CompiledStateGraph ω ν) (s : GraphRuns ν) :
    ∀ a : GraphCall ω ν, Decidable (Guarded g s a)
  | .resume _ _ _ _ none => by
    unfold Guarded ResumeGuarded
    infer_instance
  | .resume _ _ _ _ (some _) => by
    unfold Guarded ResumeGuarded SpliceAdmitted
    infer_instance
  | .fresh .. | .superstep .. | .cancel | .close | .crash => .isTrue trivial

variable {g : CompiledStateGraph ω ν} {s s' : GraphRuns ν} {a : GraphCall ω ν}

omit [GraphValue ν] in
theorem bounded_of_counted {chk : GraphCheckpoint ν} (h : g.Counted chk.toGraphProgress) :
    Bounded g chk := by
  refine ⟨h.supersteps, ?_⟩
  intro node hnode cap hcap
  rw [h.counts]
  exact h.visits node.name node cap (g.nodes.get?_of_mem hnode) hcap

/-! ## The invariant -/

/-- An invocation that goes on has something left to run or a state within its limit, and one that
    has completed has a state within its limit. -/
structure Within (g : CompiledStateGraph ω ν) (inv : Invocation ν) : Prop where
  counted : g.Counted inv.chk.toGraphProgress
  looping : inv.phase = .looping → EndsWithin inv.maxStateBytes inv.chk.frontier inv.chk.state
  closing : inv.phase = .closing → inv.chk.status = .completed →
    oversize? inv.maxStateBytes inv.chk.state = none

/-- Every checkpoint saved is counted, and the invocation in progress is within its guards. -/
structure Guards (g : CompiledStateGraph ω ν) (s : GraphRuns ν) : Prop where
  saved : ∀ t ∈ s.saved, g.Counted t.chk.toGraphProgress
  active : ∀ inv ∈ s.active, Within g inv

namespace Within

variable {inv : Invocation ν}

theorem of_looping (hphase : inv.phase = .looping) (hcounted : g.Counted inv.chk.toGraphProgress)
    (hends : EndsWithin inv.maxStateBytes inv.chk.frontier inv.chk.state) : Within g inv := by
  refine ⟨hcounted, fun _ => hends, ?_⟩
  intro hclosing
  rw [hphase] at hclosing
  cases hclosing

theorem of_closing (hphase : inv.phase = .closing) (hcounted : g.Counted inv.chk.toGraphProgress)
    (hends : inv.chk.status = .completed → oversize? inv.maxStateBytes inv.chk.state = none) :
    Within g inv := by
  refine ⟨hcounted, ?_, fun _ => hends⟩
  intro hlooping
  rw [hphase] at hlooping
  cases hlooping

theorem loopStep (h : Within g inv) (hphase : inv.phase = .looping) {w : ω} {tg : TaskGroup}
    {chk : GraphCheckpoint ν} (pending : Option PendingMember)
    (hsaved : (g.loopStep w tg inv.maxStateBytes inv.chk).saved? = some chk) :
    Within g { inv with
      chk, pending
      phase := if (g.loopStep w tg inv.maxStateBytes inv.chk).goesOn then .looping
        else .closing } := by
  have hspec := g.loopStep_spec w tg inv.maxStateBytes inv.chk
  generalize g.loopStep w tg inv.maxStateBytes inv.chk = iteration at hspec hsaved
  cases hspec with
  | completed hend =>
    cases hsaved
    exact of_closing rfl h.counted (fun _ => h.looping hphase hend)
  | atLimit hrun hlimit =>
    cases hsaved
    exact of_closing rfl h.counted (fun hstatus => by cases hstatus)
  | paused hrun hlimit hstep =>
    cases hsaved
    exact of_closing rfl h.counted (fun hstatus => by cases hstatus)
  | raised hrun hlimit hstep hother => cases hsaved
  | oversized hrun hlimit hstep hsize =>
    -- the merged state is saved, but nothing is counted
    cases hsaved
    have hcounted := h.counted
    exact of_closing rfl ⟨hcounted.supersteps, hcounted.counts, hcounted.visits⟩
      (fun hstatus => by cases hstatus)
  | advanced hrun hlimit hstep hsize =>
    cases hsaved
    refine of_looping rfl ?_ (fun _ => hsize)
    refine h.counted.advance (Lists.nodup_eraseDups _) hlimit ?_ rfl rfl rfl
    intro name hname _
    exact CompiledStateGraph.visitError?_of_runSuperstep hstep name hname

end Within

namespace Guards

section

variable (h : Guards g s)

include h

variable {t : TrackedCheckpoint ν}

theorem save (ht : g.Counted t.chk.toGraphProgress)
    {active : Option (Invocation ν)} (hactive : ∀ inv ∈ active, Within g inv) :
    Guards g (s.save t active) := by
  refine ⟨?_, hactive⟩
  intro t' ht'
  rcases List.mem_append.1 ht' with ht' | ht'
  · exact h.saved t' ht'
  · rw [List.mem_singleton.1 ht']
    exact ht

theorem saveIdle (ht : g.Counted t.chk.toGraphProgress) : Guards g (s.save t none) := by
  refine h.save ht ?_
  intro inv hinv
  cases hinv

theorem idle : Guards g { s with active := none } :=
  ⟨h.saved, fun _ hinv => by cases hinv⟩

theorem enterLoop (ht : g.Counted t.chk.toGraphProgress)
    {maxStateBytes : Option Nat} (hends : EndsWithin maxStateBytes t.chk.frontier t.chk.state) :
    Guards g { s with active := some { t with maxStateBytes } } := by
  refine ⟨h.saved, ?_⟩
  intro inv hinv
  cases hinv
  exact .of_looping rfl ht hends

theorem enter (ht : g.Counted t.chk.toGraphProgress)
    {maxStateBytes : Option Nat} {w : ω} {outcome : Option (MemberResumeOutcome ν)}
    (hguarded : ResumeGuarded g maxStateBytes w t.chk outcome) :
    Guards g (GraphRuns.enter g s t maxStateBytes w outcome) := by
  unfold GraphRuns.enter
  unfold ResumeGuarded at hguarded
  cases outcome with
  | none => exact h.enterLoop ht hguarded
  | some o =>
    dsimp only at hguarded ⊢
    split
    · next hmember =>
        rw [if_pos hmember] at hguarded
        exact h.enterLoop ht hguarded
    · next hmember =>
        rw [if_neg hmember] at hguarded
        have hspec := g.spliceMemberResume_spec w t.chk o
        generalize hsplice : g.spliceMemberResume w t.chk o = splice at hspec
        cases hspec with
        | raised e => exact h
        | pausedAgain ha => exact h.saveIdle ht
        | @spliced targets hroute =>
          obtain ⟨hlimit, hvisits, hends⟩ :=
            hguarded (CompiledStateGraph.pausedAgain_of_spliced hsplice)
          -- the splice is a superstep of the paused node alone
          have hcounted : g.Counted { t.chk.toGraphProgress with
              state := g.merge t.chk.state o.delta
              completedNodes := t.chk.completedNodes ++ [t.chk.pausedNode]
              visitCounts := CompiledStateGraph.countVisit t.chk.visitCounts t.chk.pausedNode
              frontier := targets.filter (· ≠ END)
              superstep := t.chk.superstep + 1 } := by
            refine ht.advance (List.nodup_singleton t.chk.pausedNode) hlimit ?_ rfl rfl rfl
            intro name hname
            rw [List.mem_singleton.1 hname]
            exact hvisits
          have hwithin := hends targets (by rw [hroute]; rfl)
          refine h.save hcounted ?_
          intro inv hinv
          cases hinv
          exact .of_looping rfl hcounted hwithin

theorem step (hguarded : Guarded g s a) (hstep : GraphRuns.step g s a = some s') : Guards g s' := by
  cases a with
  | fresh checkpointId initialState maxStateBytes =>
    simp only [GraphRuns.step] at hstep
    split at hstep
    · cases hstep
    · cases hstep
      exact h.enterLoop (.start g initialState [g.entry]) (fun hend => by cases hend)
  | resume i checkpointId maxStateBytes w outcome =>
    simp only [GraphRuns.step] at hstep
    split at hstep
    · cases hstep
    · obtain ⟨t, ht, rfl⟩ := Option.map_eq_some_iff.1 hstep
      have hcounted := h.saved t (List.mem_of_getElem? ht)
      have hresolved : ∀ checkpointId, g.Counted
            (resolved { t.chk with status := .running } checkpointId).toGraphProgress
          ∧ ResumeGuarded g maxStateBytes w
            (resolved { t.chk with status := .running } checkpointId) outcome := by
        rintro (_ | id)
        · exact ⟨hcounted, hguarded t ht⟩
        · exact ⟨hcounted, hguarded t ht⟩
      unfold CompiledStateGraph.resolveResume
      split
      · exact h
      · next chk hresolve =>
          split at hresolve
          · cases hresolve
          · cases hresolve
            exact h.enter (hresolved checkpointId).1 (hresolved checkpointId).2
  | superstep w tg =>
    obtain ⟨inv, hinv, hstep⟩ := Option.bind_eq_some_iff.1 hstep
    split at hstep
    · next hphase =>
        dsimp only at hstep
        split at hstep
        · next chk hsaved =>
            cases hstep
            have hwithin := (h.active inv hinv).loopStep hphase
              (pendingAfter g w tg inv.toTrackedCheckpoint) hsaved
            refine h.save hwithin.counted ?_
            intro inv' hinv'
            cases hinv'
            exact hwithin
        · cases hstep
          exact h.idle
    · cases hstep
  | cancel =>
    obtain ⟨inv, hinv, rfl⟩ := Option.map_eq_some_iff.1 hstep
    exact h.saveIdle (h.active inv hinv).counted
  | close =>
    obtain ⟨inv, hinv, hstep⟩ := Option.bind_eq_some_iff.1 hstep
    split at hstep
    · cases hstep
      exact h.idle
    · cases hstep
  | crash =>
    cases hstep
    exact h.idle

theorem withinGuards : WithinGuards g s := by
  constructor
  · intro t ht
    exact bounded_of_counted (h.saved t ht)
  · intro inv hinv
    exact bounded_of_counted (h.active inv hinv).counted
  · intro inv hinv hphase hstatus
    exact CompiledStateGraph.le_of_oversize? ((h.active inv hinv).closing hphase hstatus)

end

end Guards

end GraphRuns

def GuardsBoundRuns {ω ν : Type} [GraphValue ν] (g : CompiledStateGraph ω ν) : Prop :=
  ∀ as s, (graphRuns g).exec {} as = some s → GraphRuns.WithinGuards g s

/-- **The guards bound every run whose resumes are guarded.** -/
theorem withinGuards_of_guarded {ω ν : Type} [GraphValue ν] (g : CompiledStateGraph ω ν)
    (as : List (GraphCall ω ν)) {s : GraphRuns ν}
    (hguarded : (graphRuns g).AlongRun (GraphRuns.Guarded g) {} as)
    (hrun : (graphRuns g).exec {} as = some s) : GraphRuns.WithinGuards g s := by
  have hinit : GraphRuns.Guards g {} :=
    ⟨fun _ ht => absurd ht List.not_mem_nil, fun _ hinv => by cases hinv⟩
  have hguards : GraphRuns.Guards g s :=
    (graphRuns g).exec_invariant (fun _ _ _ h hg hstep => h.step hg hstep) hinit hguarded hrun
  exact hguards.withinGuards

/-- One superstep of one node, which waits for an approval in the world `true`. -/
private def reviewed : CompiledStateGraph Bool Json where
  name := "reviewed"
  nodes := empty.put {
    name := "review"
    fn := fun waits _ =>
      if waits then .interrupted "review" "m1"
      else .returned (.mapping (empty.put ("done", .bool true)))
    maxVisits := some 1 }
  edges := empty
  conditional := empty
  reducers := empty
  entry := "review"
  recursionLimit := 1
  maxStateBytes := none
  entry_mem := rfl
  edge_mem := List.forall_mem_nil _
  recursionLimit_pos := Nat.one_pos

/-- The node pauses, its member is resumed, and the run completes. -/
private def memberReturns (maxStateBytes : Nat) : List (GraphCall Bool Json) :=
  [.fresh "c1" empty (some maxStateBytes), .superstep true .all, .close,
    .resume 0 none (some maxStateBytes) false
      (some { delta := empty.put ("done", .bool true) }),
    .superstep false .all]

theorem withinGuards_of_guarded_approved :
    ∃ s, (graphRuns reviewed).exec {} (memberReturns 20) = some s
      ∧ GraphRuns.WithinGuards reviewed s :=
  ⟨_, rfl, withinGuards_of_guarded reviewed (memberReturns 20) (by decide) rfl⟩

/-- The member's delta makes the state fourteen bytes long, and the run completes. -/
theorem not_guardsBoundRuns : ¬ GuardsBoundRuns reviewed := by
  intro h
  have hwithin := h (memberReturns 10) _ rfl
  have hsize := hwithin.completed _ rfl rfl rfl 10 rfl
  exact absurd hsize (by decide)

/-- A resume without `resume_member` completes the node, at the recursion limit; the checkpoint
    still names the member, and its splice makes a second superstep and a second visit. -/
example : ∃ s t, (graphRuns reviewed).exec {} [.fresh "c1" empty none, .superstep true .all,
      .close, .resume 0 none none false none, .superstep false .all, .cancel,
      .resume 2 none none false (some {})] = some s
    ∧ s.saved.getLast? = some t ∧ t.chk.superstep = 2
    ∧ t.chk.completedNodes = ["review", "review"] :=
  ⟨_, _, rfl, rfl, rfl, rfl⟩

end Himmy
