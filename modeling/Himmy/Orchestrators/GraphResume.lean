import Himmy.Orchestrators.StateGraph

/-! # Durable resume of a graph run

The superstep loop reads and writes the progress of a checkpoint and nothing else of it
(`outline_loopStep`), so what a run comes to is a function of its progress. A checkpoint saved at a
superstep boundary has the progress of that boundary, whatever status and error the stop left on it:
the run that resumes it ends as the run that was not stopped (`runLoop_of_stops`). -/

namespace Himmy

open KeyedList (empty)

namespace CompiledStateGraph

variable {ω ν : Type}

/-! ## A run as a function of its progress -/

/-- An iteration without the fields of the checkpoint that the loop does not read. -/
inductive Outline (ν : Type)
  | ended (e : RunEnd ν)
  | advanced (p : GraphProgress ν)

def LoopStep.outline : LoopStep ν → Outline ν
  | .completed chk => .ended (.completed chk.toGraphProgress)
  | .paused chk => .ended (.paused chk.toGraphProgress chk.pausedNode chk.memberCheckpointId)
  | .failed _ e => .ended (.raised e)
  | .raised e => .ended (.raised e)
  | .advanced chk => .advanced chk.toGraphProgress

variable [GraphValue ν] {g : CompiledStateGraph ω ν} {w : ω} {tg : TaskGroup}
  {maxStateBytes : Option Nat} {chk chk' : GraphCheckpoint ν}

def advance (g : CompiledStateGraph ω ν) (w : ω) (tg : TaskGroup) (maxStateBytes : Option Nat)
    (p : GraphProgress ν) : Outline ν :=
  if p.frontier = [] then .ended (.completed p)
  else if g.recursionLimit ≤ p.superstep then
    .ended (.raised (.recursionLimit g.recursionLimit p.frontier))
  else
    let frontier := p.frontier.eraseDups
    match g.runSuperstep w tg frontier p with
    | .error (.nodeInterrupt node member) => .ended (.paused p node member)
    | .error e => .ended (.raised e)
    | .ok (deltas, nextTargets) =>
      let state := deltas.foldl g.merge p.state
      match oversize? maxStateBytes state with
      | some size => .ended (.raised (.stateSize size (maxStateBytes.getD 0) p.superstep))
      | none => .advanced {
          state
          completedNodes := p.completedNodes ++ frontier
          visitCounts := frontier.foldl countVisit p.visitCounts
          frontier := nextTargets
          superstep := p.superstep + 1 }

theorem outline_loopStep (g : CompiledStateGraph ω ν) (w : ω) (tg : TaskGroup)
    (maxStateBytes : Option Nat) (chk : GraphCheckpoint ν) :
    (g.loopStep w tg maxStateBytes chk).outline
      = g.advance w tg maxStateBytes chk.toGraphProgress := by
  have hspec := g.loopStep_spec w tg maxStateBytes chk
  revert hspec
  generalize g.loopStep w tg maxStateBytes chk = step
  intro hspec
  unfold advance
  cases hspec with
  | completed hend =>
    rw [if_pos hend]
    rfl
  | atLimit hrun hlimit =>
    rw [if_neg hrun, if_pos hlimit]
    rfl
  | paused hrun hlimit hstep =>
    rw [if_neg hrun, if_neg (Nat.not_le.2 hlimit)]
    simp only [hstep]
    rfl
  | @raised e hrun hlimit hstep hother =>
    rw [if_neg hrun, if_neg (Nat.not_le.2 hlimit)]
    simp only [hstep]
    cases e with
    | nodeInterrupt node member => cases hother
    | _ => rfl
  | oversized hrun hlimit hstep hsize =>
    rw [if_neg hrun, if_neg (Nat.not_le.2 hlimit)]
    simp only [hstep, hsize]
    rfl
  | advanced hrun hlimit hstep hsize =>
    rw [if_neg hrun, if_neg (Nat.not_le.2 hlimit)]
    simp only [hstep, hsize]
    rfl

theorem superstep_of_advance {p p' : GraphProgress ν}
    (h : g.advance w tg maxStateBytes p = .advanced p') :
    p.superstep < g.recursionLimit ∧ p'.superstep = p.superstep + 1 := by
  unfold advance at h
  split at h
  · cases h
  split at h
  · cases h
  next hlimit =>
  dsimp only at h
  split at h
  · cases h
  · cases h
  · split at h
    · cases h
    · cases h
      exact ⟨Nat.lt_of_not_le hlimit, rfl⟩

/-- A run from a progress, for `n` supersteps at most. -/
def endOf (g : CompiledStateGraph ω ν) (w : ω) (tg : TaskGroup) (maxStateBytes : Option Nat) :
    Nat → GraphProgress ν → Option (RunEnd ν)
  | 0, _ => none
  | n + 1, p =>
    match g.advance w tg maxStateBytes p with
    | .ended e => some e
    | .advanced p => endOf g w tg maxStateBytes n p

theorem runIterations_eq_endOf (n : Nat) (chk : GraphCheckpoint ν) :
    g.runIterations w tg maxStateBytes n chk = g.endOf w tg maxStateBytes n chk.toGraphProgress := by
  induction n generalizing chk with
  | zero => rfl
  | succ n ih =>
    rw [runIterations, endOf, ← outline_loopStep]
    cases g.loopStep w tg maxStateBytes chk with
    | advanced chk' => exact ih chk'
    | _ => rfl

theorem runLoop_congr (h : chk.toGraphProgress = chk'.toGraphProgress) :
    g.runLoop w tg maxStateBytes chk = g.runLoop w tg maxStateBytes chk' := by
  unfold runLoop
  rw [runIterations_eq_endOf, runIterations_eq_endOf, h]

theorem runLoop_advanced {p : GraphProgress ν}
    (h : g.advance w tg maxStateBytes chk.toGraphProgress = .advanced p)
    (hp : chk'.toGraphProgress = p) :
    g.runLoop w tg maxStateBytes chk = g.runLoop w tg maxStateBytes chk' := by
  obtain ⟨hlt, hsucc⟩ := superstep_of_advance h
  subst hp
  unfold runLoop
  have hfuel : g.recursionLimit - chk.superstep = g.recursionLimit - chk'.superstep + 1 := by omega
  rw [hfuel, runIterations_eq_endOf, runIterations_eq_endOf, endOf, h]

theorem exists_runLoop (g : CompiledStateGraph ω ν) (w : ω) (tg : TaskGroup)
    (maxStateBytes : Option Nat) (chk : GraphCheckpoint ν) :
    ∃ e, g.runLoop w tg maxStateBytes chk = some e := by
  have hend : ∀ (n : Nat) (p : GraphProgress ν), g.recursionLimit - p.superstep < n →
      ∃ e, g.endOf w tg maxStateBytes n p = some e := by
    intro n
    induction n with
    | zero => intro p hn; exact absurd hn (Nat.not_lt_zero _)
    | succ n ih =>
      intro p hn
      rw [endOf]
      cases hadv : g.advance w tg maxStateBytes p with
      | ended e => exact ⟨e, rfl⟩
      | advanced p' =>
        obtain ⟨hlt, hsucc⟩ := superstep_of_advance hadv
        exact ih p' (by omega)
  unfold runLoop
  rw [runIterations_eq_endOf]
  exact hend _ _ (Nat.lt_succ_self _)

/-! ## Stopped and resumed runs -/

def supersteps (g : CompiledStateGraph ω ν) (w : ω) (tg : TaskGroup) (maxStateBytes : Option Nat) :
    Nat → GraphCheckpoint ν → Option (GraphCheckpoint ν)
  | 0, chk => some chk
  | n + 1, chk =>
    match g.loopStep w tg maxStateBytes chk with
    | .advanced chk => supersteps g w tg maxStateBytes n chk
    | _ => none

/-- What stops a run at a superstep boundary: the process dies, the run is cancelled or times out,
    or it has saved its end and stops before it returns. -/
inductive Stop
  | crashed
  | cancelled
  | ending
deriving DecidableEq

/-- The checkpoint saved last when the run from `chk` is stopped after `n` supersteps. -/
def savedAtStop (g : CompiledStateGraph ω ν) (w : ω) (tg : TaskGroup) (maxStateBytes : Option Nat)
    (n : Nat) (stop : Stop) (chk : GraphCheckpoint ν) : Option (GraphCheckpoint ν) :=
  (g.supersteps w tg maxStateBytes n chk).bind fun chk =>
    match stop with
    -- nothing is saved before the first superstep
    | .crashed => if n = 0 then none else some chk
    | .cancelled => some { chk with status := .interrupted, error := some .cancelled }
    | .ending =>
      match g.loopStep w tg maxStateBytes chk with
      | .completed chk => some chk
      | .failed chk (.recursionLimit ..) => some chk
      | _ => none

/-- The checkpoint with which the loop is entered after the stops, each followed by a resume of the
    checkpoint saved last. -/
def resumedAfter (g : CompiledStateGraph ω ν) (w : ω) (tg : TaskGroup)
    (maxStateBytes : Option Nat) : List (Nat × Stop) → GraphCheckpoint ν → Option (GraphCheckpoint ν)
  | [], chk => some chk
  | (n, stop) :: stops, chk =>
    (g.savedAtStop w tg maxStateBytes n stop chk).bind fun saved =>
      (g.resolveResume saved).toOption.bind (resumedAfter g w tg maxStateBytes stops)

theorem runLoop_supersteps {n : Nat} (h : g.supersteps w tg maxStateBytes n chk = some chk') :
    g.runLoop w tg maxStateBytes chk = g.runLoop w tg maxStateBytes chk' := by
  induction n generalizing chk with
  | zero => cases h; rfl
  | succ n ih =>
    rw [supersteps] at h
    cases hstep : g.loopStep w tg maxStateBytes chk with
    | advanced next =>
      rw [hstep] at h
      have hadv := outline_loopStep g w tg maxStateBytes chk
      rw [hstep] at hadv
      rw [runLoop_advanced hadv.symm rfl]
      exact ih h
    | _ =>
      rw [hstep] at h
      cases h

theorem progress_of_savedAtStop {n : Nat} {stop : Stop} {saved : GraphCheckpoint ν}
    (h : g.savedAtStop w tg maxStateBytes n stop chk = some saved) :
    ∃ chk', g.supersteps w tg maxStateBytes n chk = some chk'
      ∧ saved.toGraphProgress = chk'.toGraphProgress ∧ saved.graphName = chk'.graphName := by
  obtain ⟨chk', hrun, h⟩ := Option.bind_eq_some_iff.1 h
  refine ⟨chk', hrun, ?_⟩
  cases stop with
  | crashed =>
    dsimp only at h
    split at h
    · cases h
    · cases h
      exact ⟨rfl, rfl⟩
  | cancelled => cases h; exact ⟨rfl, rfl⟩
  | ending =>
    -- a run that has completed or come to its limit keeps its progress
    have hspec := g.loopStep_spec w tg maxStateBytes chk'
    revert h hspec
    generalize g.loopStep w tg maxStateBytes chk' = step
    intro h hspec
    cases hspec with
    | completed hend => cases h; exact ⟨rfl, rfl⟩
    | atLimit hrun hlimit => cases h; exact ⟨rfl, rfl⟩
    | _ => cases h

omit [GraphValue ν] in
theorem progress_of_resolveResume {resolved saved : GraphCheckpoint ν}
    (h : (g.resolveResume saved).toOption = some resolved) :
    resolved.toGraphProgress = saved.toGraphProgress ∧ resolved.graphName = saved.graphName := by
  unfold resolveResume at h
  split at h
  · cases h
  · cases h
    exact ⟨rfl, rfl⟩

theorem graphName_of_supersteps {n : Nat}
    (h : g.supersteps w tg maxStateBytes n chk = some chk') : chk'.graphName = chk.graphName := by
  induction n generalizing chk with
  | zero => cases h; rfl
  | succ n ih =>
    rw [supersteps] at h
    have hspec := g.loopStep_spec w tg maxStateBytes chk
    revert h hspec
    generalize g.loopStep w tg maxStateBytes chk = step
    intro h hspec
    cases hspec with
    | advanced hrun hlimit hstep hsize =>
      dsimp only at h
      have hname := ih h
      exact hname
    | _ => cases h

theorem runLoop_resumedAfter {stops : List (Nat × Stop)}
    (h : g.resumedAfter w tg maxStateBytes stops chk = some chk') :
    g.runLoop w tg maxStateBytes chk = g.runLoop w tg maxStateBytes chk' := by
  induction stops generalizing chk with
  | nil => cases h; rfl
  | cons cut stops ih =>
    obtain ⟨saved, hsaved, h⟩ := Option.bind_eq_some_iff.1 h
    obtain ⟨resumed, hresolve, h⟩ := Option.bind_eq_some_iff.1 h
    obtain ⟨boundary, hrun, hprogress, -⟩ := progress_of_savedAtStop hsaved
    have hresumed := (progress_of_resolveResume hresolve).1
    calc g.runLoop w tg maxStateBytes chk
        = g.runLoop w tg maxStateBytes boundary := runLoop_supersteps hrun
      _ = g.runLoop w tg maxStateBytes resumed := runLoop_congr (hresumed.trans hprogress).symm
      _ = g.runLoop w tg maxStateBytes chk' := ih h

theorem graphName_of_savedAtStop {n : Nat} {stop : Stop} {saved : GraphCheckpoint ν}
    (h : g.savedAtStop w tg maxStateBytes n stop chk = some saved) :
    saved.graphName = chk.graphName := by
  obtain ⟨chk', hrun, -, hname⟩ := progress_of_savedAtStop h
  exact hname.trans (graphName_of_supersteps hrun)

theorem graphName_of_resumedAfter {stops : List (Nat × Stop)}
    (h : g.resumedAfter w tg maxStateBytes stops chk = some chk') :
    chk'.graphName = chk.graphName := by
  induction stops generalizing chk with
  | nil => cases h; rfl
  | cons cut stops ih =>
    obtain ⟨saved, hsaved, h⟩ := Option.bind_eq_some_iff.1 h
    obtain ⟨resumed, hresolve, h⟩ := Option.bind_eq_some_iff.1 h
    have hresumed := (progress_of_resolveResume hresolve).2
    exact (ih h).trans (hresumed.trans (graphName_of_savedAtStop hsaved))

/-- **Durable resume is transparent.** A run that was stopped at superstep boundaries, and each time
    resumed from the checkpoint saved last, comes to what the run that is not stopped comes to. -/
theorem invokeResume_of_stopped (g : CompiledStateGraph ω ν) (w : ω) (tg : TaskGroup)
    (maxStateBytes : Option Nat) (checkpointId : String) (initialState : Dict ν)
    (stops : List (Nat × Stop)) (n : Nat) (stop : Stop) {chk saved : GraphCheckpoint ν}
    (hstops : g.resumedAfter w tg maxStateBytes stops (g.freshCheckpoint checkpointId initialState)
      = some chk) (hsaved : g.savedAtStop w tg maxStateBytes n stop chk = some saved) :
    ∃ e, g.invokeFresh w tg maxStateBytes checkpointId initialState = some e
      ∧ g.invokeResume w tg maxStateBytes saved none = some e := by
  obtain ⟨e, he⟩ :=
    exists_runLoop g w tg maxStateBytes (g.freshCheckpoint checkpointId initialState)
  obtain ⟨boundary, hrun, hprogress, -⟩ := progress_of_savedAtStop hsaved
  have hname : saved.graphName = g.name :=
    (graphName_of_savedAtStop hsaved).trans (graphName_of_resumedAfter hstops)
  have hresolve : g.resolveResume saved = .ok { saved with status := .running } := by
    simp [resolveResume, hname]
  refine ⟨e, he, ?_⟩
  rw [runLoop_resumedAfter hstops, runLoop_supersteps hrun] at he
  simp only [invokeResume, hresolve]
  rw [← he]
  exact runLoop_congr hprogress

end CompiledStateGraph

private def counter : CompiledStateGraph Unit Json where
  name := "count"
  nodes := empty.put {
    name := "tick", fn := fun _ _ => .returned (.mapping (empty.put ("n", .num 1))) }
  edges := empty
  conditional := empty.put ("tick", fun _ state =>
    match state.find? "n" with
    | some (.num n) => if n < 3 then .name "tick" else .name END
    | _ => .none)
  reducers := empty.put ("n", addReducer)
  entry := "tick"
  recursionLimit := defaultRecursionLimit
  maxStateBytes := none
  entry_mem := rfl
  edge_mem := List.forall_mem_nil _
  recursionLimit_pos := defaultRecursionLimit_pos

/-- A crash after the first superstep and a timeout after the second. -/
theorem invokeResume_of_stopped_counter : ∃ chk saved e,
    counter.resumedAfter () .all none [(1, .crashed)] (counter.freshCheckpoint "c1" empty)
        = some chk ∧ counter.savedAtStop () .all none 1 .cancelled chk = some saved
      ∧ counter.invokeFresh () .all none "c1" empty = some e
      ∧ counter.invokeResume () .all none saved none = some e := by
  obtain ⟨e, hfresh, hresume⟩ := CompiledStateGraph.invokeResume_of_stopped counter () .all none "c1"
    empty [(1, .crashed)] 1 .cancelled rfl rfl
  exact ⟨_, _, e, rfl, rfl, hfresh, hresume⟩

end Himmy
