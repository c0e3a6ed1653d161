import Himmy.Application.CarriedRecords
import Himmy.Orchestrators.Pipeline

/-! # The dispatches of a workflow run

`_dispatch_orchestration_run` reads the `graph_resume_id` from the metadata of the claimed run and hands
it to `_run_graph`, which starts the pipeline of the members afresh without one, and resumes the stored
graph checkpoint with one. The graph saves a checkpoint after each superstep, under an id that a fresh
run makes up and that the metadata of the run is given when the drive ends, as `graph_checkpoint_id`.

`workflow` is the fleet of a run store with the graph checkpoint store beside it, for the drives of one
run. A worker that has lost its lease goes on driving. The supersteps that were saved are kept as
history, which no step reads. -/

namespace Himmy

namespace DriveOutcome

theorem graphResumeId_apply (entry : DriveEntry) (o : DriveOutcome) (run : RunRecord)
    (now : Instant) : (o.apply entry run now).metadata.find? "graph_resume_id"
      = run.metadata.find? "graph_resume_id" := by
  cases o with
  | inferenceFailed result => exact find?_setIf_of_ne _ _ (by decide)
  | succeeded result => exact find?_setIf_of_ne _ _ (by decide)
  | awaitingApproval result checkpointId plan =>
    exact (find?_setIf_of_ne _ _ (by decide)).trans (Dict.find?_set_of_ne _ _ (by decide))
  | orchestrated outcome =>
    have houtcome : (setIf ((run.metadata.set "stopped_reason" outcome.stoppedReason).set "route"
        outcome.route) "graph_checkpoint_id"
          ((orNone outcome.graphCheckpointId).map Json.str)).find? "graph_resume_id"
        = run.metadata.find? "graph_resume_id" := by
      rw [find?_setIf_of_ne _ _ (by decide), Dict.find?_set_of_ne _ _ (by decide),
        Dict.find?_set_of_ne _ _ (by decide)]
    simp only [apply, applyOrchestration]
    split
    · simp only
      rw [Dict.find?_set_of_ne _ _ (by decide), Dict.find?_set_of_ne _ _ (by decide),
        Dict.find?_set_of_ne _ _ (by decide), Dict.find?_set_of_ne _ _ (by decide), houtcome]
    · split
      · exact houtcome
      · exact houtcome
  | _ => rfl

end DriveOutcome

/-- `meta.get("graph_resume_id")`. -/
def RunRecord.graphResumeId (run : RunRecord) : Option String :=
  Dict.str? run.metadata "graph_resume_id"

namespace WorkflowRuns

/-! ## The system -/

/-- A drive of the graph by a worker: the checkpoint in its hands. -/
structure GraphDrive where
  chk : GraphCheckpoint Json
  running : Bool := true
  /-- How many supersteps had been saved when the drive began. -/
  since : Nat

/-- A superstep that was saved: who made it, what the members answered, and what was saved. -/
structure SavedStep (ω : Type) where
  worker : Nat
  answers : ω × TaskGroup
  chk : GraphCheckpoint Json

/-- A run store, the graph checkpoint store, and the drives of the run, by worker. -/
structure Workflow (ω : Type) where
  fleet : Fleet := {}
  graphs : String → Option (GraphCheckpoint Json) := fun _ => none
  drives : Nat → Option GraphDrive := fun _ => none
  /-- The supersteps saved since the enqueue, the earliest first. -/
  saved : List (SavedStep ω) := []

/-- What can happen next. -/
inductive Event (ω : Type)
  | act (now : Instant) (a : Action)
  | enter (i : Nat) (newId : String)
  | superstep (i : Nat) (w : ω) (tg : TaskGroup)
  | cancel (i : Nat)

section System

variable {ω : Type} (g : CompiledStateGraph ω Json) (prompt runId : String)

namespace Workflow

variable (c : Workflow ω)

/-- The checkpoint with which `_run_graph` enters the loop. -/
def entered (run : RunRecord) (newId : String) : Option (GraphCheckpoint Json) :=
  match run.graphResumeId with
  | none => some (g.freshCheckpoint newId (pipelineState prompt))
  | some id => (c.graphs id).bind (fun chk => (g.resolveResume chk).toOption)

/-- `GraphCheckpointStore.save`. -/
def saveGraph (chk : GraphCheckpoint Json) : String → Option (GraphCheckpoint Json) :=
  Function.update c.graphs chk.checkpointId (some chk)

def driving (i : Nat) : Bool :=
  (c.fleet.workers[i]?).any (fun w => w.run.runId = runId && match w.stage with
    | .driving => true
    | _ => false)

def step (cfg : FleetConfig) : Event ω → Option (Workflow ω)
  | .act now a => ((Himmy.fleet cfg).step c.fleet (now, a)).map (fun fleet => { c with fleet })
  | .enter i newId =>
    match c.fleet.workers[i]?, c.drives i with
    | some w, none =>
      if c.driving runId i then
        (c.entered g prompt w.run newId).map (fun chk => { c with
          drives := Function.update c.drives i (some { chk, since := c.saved.length }) })
      else none
    | _, _ => none
  | .superstep i w tg => (c.drives i).bind (fun d =>
    if d.running && c.driving runId i then
      let iteration := g.loopStep w tg none d.chk
      match iteration.saved? with
      | none => some { c with
          drives := Function.update c.drives i (some { d with running := false }) }
      | some chk => some { c with
          graphs := c.saveGraph chk
          drives := Function.update c.drives i (some { d with chk, running := iteration.goesOn })
          saved := if iteration.goesOn then c.saved ++ [⟨i, (w, tg), chk⟩] else c.saved }
    else none)
  | .cancel i => (c.drives i).bind (fun d =>
    if d.running then
      let chk := { d.chk with status := .interrupted, error := some .cancelled }
      some { c with
        graphs := c.saveGraph chk
        drives := Function.update c.drives i (some { d with chk, running := false }) }
    else none)

/-- The progress that was saved last, when the run was enqueued at `base`. -/
def reached (base : GraphProgress Json) : GraphProgress Json :=
  match c.saved.getLast? with
  | some s => s.chk.toGraphProgress
  | none => base

end Workflow

def workflow (cfg : FleetConfig) : LTS (Workflow ω) (Event ω) :=
  ⟨fun c e => c.step g prompt runId cfg e⟩

/-! ## Continuing -/

/-- A dispatch resumes the graph from the superstep that was saved last, and executes no member whose
    superstep was saved. -/
def Continues (base : GraphProgress Json) (c : Workflow ω) : Event ω → Prop
  | .enter i newId => ∀ w ∈ c.fleet.workers[i]?, w.run.runId = runId →
      ∀ chk ∈ c.entered g prompt w.run newId, chk.toGraphProgress = c.reached base
  | .superstep i _ _ => ∀ d ∈ c.drives i, d.running = true → d.chk.toGraphProgress = c.reached base
        ∧ ∀ name ∈ d.chk.frontier, ∀ s ∈ c.saved, name ∉ s.chk.completedNodes
  | _ => True

/-- A dispatch begins before any superstep was saved, or with the record naming the checkpoint to
    resume; and a drive goes on as long as no other drive has saved a superstep. -/
def Linked (c : Workflow ω) : Event ω → Prop
  | .enter i _ => ∀ w ∈ c.fleet.workers[i]?, w.run.runId = runId →
      c.saved = [] ∨ w.run.graphResumeId.isSome = true
  | .superstep i _ _ => ∀ d ∈ c.drives i, ∀ s ∈ c.saved.drop d.since, s.worker = i
  | .cancel i => ∀ d ∈ c.drives i, ∀ s ∈ c.saved.drop d.since, s.worker = i
  | _ => True

/-- The run of `row` was just enqueued at `base`: afresh, or on a stored checkpoint of its graph. -/
structure Workflow.Enqueued (names : List String) (c : Workflow ω) (row : RunRecord)
    (base : GraphProgress Json) : Prop where
  coherent : c.fleet.Coherent
  stored : c.fleet.record row.runId = some row
  workers : ∀ w ∈ c.fleet.workers, w.run.runId ≠ row.runId
  resumes : ∀ ρ ∈ c.fleet.resumes, ρ.run.runId ≠ row.runId
  drives : ∀ i, c.drives i = none
  saved : c.saved = []
  fresh : row.graphResumeId = none →
    base = (g.freshCheckpoint "" (pipelineState prompt)).toGraphProgress
  resumed : ∀ id, row.graphResumeId = some id → ∃ chk, c.graphs id = some chk
    ∧ chk.checkpointId = id ∧ chk.toGraphProgress = base
  begun : ∃ k, AtStep names k base

/-! ## What holds in every state -/

section Runs

variable {g prompt} {names : List String} {row : RunRecord} {base : GraphProgress Json}

theorem forall_update {drives : Nat → Option GraphDrive} {P : Nat → GraphDrive → Prop} {i : Nat}
    {d : GraphDrive} (hnew : P i d) (hold : ∀ j e, j ≠ i → drives j = some e → P j e) :
    ∀ j e, Function.update drives i (some d) j = some e → P j e := by
  intro j e he
  by_cases hji : j = i
  · subst hji
    rw [Function.update_self, Option.some.injEq] at he
    exact he ▸ hnew
  · rw [Function.update_of_ne hji] at he
    exact hold j e hji he

theorem saved_of_loopStep {w : ω} {tg : TaskGroup} {chk chk' : GraphCheckpoint Json}
    (h : (g.loopStep w tg none chk).saved? = some chk') : chk'.checkpointId = chk.checkpointId
      ∧ ((g.loopStep w tg none chk).goesOn = false → chk'.toGraphProgress = chk.toGraphProgress)
      ∧ ((g.loopStep w tg none chk).goesOn = true →
        g.advance w tg none chk.toGraphProgress = .advanced chk'.toGraphProgress) := by
  have hspec := g.loopStep_spec w tg none chk
  have houtline := CompiledStateGraph.outline_loopStep g w tg none chk
  revert h hspec houtline
  generalize g.loopStep w tg none chk = iteration
  intro h hspec houtline
  cases hspec with
  | completed | atLimit | paused =>
    cases h
    exact ⟨rfl, fun _ => rfl, fun hgoes => by cases hgoes⟩
  | raised => cases h
  | oversized _ _ _ hsize => cases hsize
  | advanced =>
    cases h
    exact ⟨rfl, fun hgoes => (by cases hgoes), fun _ => houtline.symm⟩

variable (g names row base)

/-- The supersteps that were saved are those of a drive that was never stopped, and whoever may go on
    stands at the last of them. -/
structure Sound (c : Workflow ω) : Prop where
  coherent : c.fleet.Coherent
  stored : (c.fleet.record row.runId).isSome = true
  carried : c.fleet.Carries row.runId (fun run => run.graphResumeId = row.graphResumeId)
  followed : followed g (c.saved.map SavedStep.answers) base = some (c.reached base)
  reachedAt : ∃ k, AtStep names k (c.reached base)
    ∧ ∀ s ∈ c.saved, ∃ j ≤ k, s.chk.completedNodes = names.take j
  since : ∀ i d, c.drives i = some d → d.since ≤ c.saved.length
  drives : ∀ i d, c.drives i = some d → (∀ s ∈ c.saved.drop d.since, s.worker = i) →
    d.chk.toGraphProgress = c.reached base
  named : ∀ id, row.graphResumeId = some id → ∀ i d, c.drives i = some d → d.chk.checkpointId = id
  stored_graph : ∀ id, row.graphResumeId = some id → ∃ chk, c.graphs id = some chk
    ∧ chk.checkpointId = id ∧ chk.toGraphProgress = c.reached base

variable {g names row base}

theorem sound_of_enqueued {c : Workflow ω} (h : c.Enqueued g prompt names row base) :
    Sound g names row base c := by
  have hreached : c.reached base = base := by rw [Workflow.reached, h.saved]; rfl
  constructor
  · exact h.coherent
  · rw [h.stored]
    rfl
  · refine ⟨fun row' hget => ?_, fun w hw hid => ?_, fun ρ hρ hid => ?_⟩
    · rw [h.stored] at hget
      cases hget
      rfl
    · exact absurd hid (h.workers w hw)
    · exact absurd hid (h.resumes ρ hρ)
  · rw [hreached, h.saved]
    rfl
  · obtain ⟨k, hk⟩ := h.begun
    rw [hreached, h.saved]
    exact ⟨k, hk, fun s hs => by cases hs⟩
  · intro i d hd
    rw [h.drives i] at hd
    cases hd
  · intro i d hd
    rw [h.drives i] at hd
    cases hd
  · intro id _ i d hd
    rw [h.drives i] at hd
    cases hd
  · intro id hid
    rw [hreached]
    exact h.resumed id hid

namespace Sound

variable {c c' : Workflow ω}

section

variable (h : Sound g names row base c)

include h

theorem entered (hfresh : row.graphResumeId = none →
      base = (g.freshCheckpoint "" (pipelineState prompt)).toGraphProgress)
    {i : Nat} {newId : String} {w : Worker} {chk : GraphCheckpoint Json}
    (hw : c.fleet.workers[i]? = some w) (hid : w.run.runId = row.runId)
    (hlinked : Linked row.runId c (.enter i newId))
    (hchk : c.entered g prompt w.run newId = some chk) : chk.toGraphProgress = c.reached base
      ∧ ∀ id, row.graphResumeId = some id → chk.checkpointId = id := by
  have hsame := (h.carried.workers w (List.mem_of_getElem? hw) hid).1
  unfold Workflow.entered at hchk
  rw [hsame] at hchk
  cases hresume : row.graphResumeId with
  | none =>
    rw [hresume] at hchk
    cases hchk
    have hsaved : c.saved = [] := by
      rcases hlinked w hw hid with hnone | hsome
      · exact hnone
      · rw [hsame, hresume] at hsome
        cases hsome
    refine ⟨?_, fun id hnone => by cases hnone⟩
    rw [Workflow.reached, hsaved]
    exact (hfresh hresume).symm
  | some id =>
    rw [hresume] at hchk
    obtain ⟨stored, hstored, hnamed, hprogress⟩ := h.stored_graph id hresume
    dsimp only at hchk
    rw [hstored, Option.bind_some] at hchk
    unfold CompiledStateGraph.resolveResume at hchk
    split at hchk
    · cases hchk
    · cases hchk
      refine ⟨hprogress, fun id' hid' => ?_⟩
      cases hid'
      exact hnamed

theorem continues (hfresh : row.graphResumeId = none →
      base = (g.freshCheckpoint "" (pipelineState prompt)).toGraphProgress)
    (hnodup : names.Nodup) {e : Event ω} (hlinked : Linked row.runId c e) :
    Continues g prompt row.runId base c e := by
  cases e with
  | enter i newId =>
    intro w hw hid chk hchk
    exact (h.entered hfresh hw hid hlinked hchk).1
  | superstep i w tg =>
    intro d hd _
    have hprogress := h.drives i d hd (hlinked d hd)
    refine ⟨hprogress, ?_⟩
    intro name hname s hs
    obtain ⟨k, hk, hsaved⟩ := h.reachedAt
    obtain ⟨j, hj, hcompleted⟩ := hsaved s hs
    rw [hcompleted]
    refine hk.not_completed hnodup ?_ hj
    rw [← hprogress]
    exact hname
  | _ => trivial

theorem save {i : Nat} {d b : GraphDrive} (hd : c.drives i = some d) (hsince : b.since = d.since)
    (hid : b.chk.checkpointId = d.chk.checkpointId)
    (hprogress : b.chk.toGraphProgress = d.chk.toGraphProgress)
    (hsole : ∀ s ∈ c.saved.drop d.since, s.worker = i) : Sound g names row base { c with
      graphs := c.saveGraph b.chk, drives := Function.update c.drives i (some b) } := by
  have hreached := hprogress.trans (h.drives i d hd hsole)
  refine ⟨h.coherent, h.stored, h.carried, h.followed, h.reachedAt, ?_, ?_, ?_, ?_⟩
  · refine forall_update ?_ (fun j e _ he => h.since j e he)
    rw [hsince]
    exact h.since i d hd
  · exact forall_update (fun _ => hreached) (fun j e _ he => h.drives j e he)
  · intro id hresume
    exact forall_update (hid.trans (h.named id hresume i d hd))
      (fun j e _ he => h.named id hresume j e he)
  · intro id hresume
    have hsaved : b.chk.checkpointId = id := hid.trans (h.named id hresume i d hd)
    refine ⟨b.chk, ?_, hsaved, hreached⟩
    rw [← hsaved]
    exact Function.update_self ..

theorem advance (hg : IsPipeline g names) {i : Nat}
    {d b : GraphDrive} {w : ω} {tg : TaskGroup} (hd : c.drives i = some d)
    (hsince : b.since = d.since) (hid : b.chk.checkpointId = d.chk.checkpointId)
    (hadv : g.advance w tg none d.chk.toGraphProgress = .advanced b.chk.toGraphProgress)
    (hsole : ∀ s ∈ c.saved.drop d.since, s.worker = i) : Sound g names row base { c with
      graphs := c.saveGraph b.chk
      drives := Function.update c.drives i (some b)
      saved := c.saved ++ [⟨i, (w, tg), b.chk⟩] } := by
  rw [h.drives i d hd hsole] at hadv
  have hreached : ∀ c' : Workflow ω, c'.saved = c.saved ++ [⟨i, (w, tg), b.chk⟩] →
      c'.reached base = b.chk.toGraphProgress := by
    intro c' hsaved
    rw [Workflow.reached, hsaved, List.getLast?_concat]
  refine ⟨h.coherent, h.stored, h.carried, ?_, ?_, ?_, ?_, ?_, ?_⟩
  · rw [hreached _ rfl, List.map_append]
    exact followed_concat h.followed hadv
  · obtain ⟨k, hk, hsaved⟩ := h.reachedAt
    have hk' := hk.advance hg hadv
    rw [hreached _ rfl]
    refine ⟨k + 1, hk', fun s hs => ?_⟩
    rcases List.mem_append.1 hs with hs | hs
    · obtain ⟨j, hj, hcompleted⟩ := hsaved s hs
      exact ⟨j, Nat.le_succ_of_le hj, hcompleted⟩
    · rw [List.mem_singleton.1 hs]
      exact ⟨k + 1, Nat.le_refl _, hk'.completed⟩
  · rw [List.length_append]
    refine forall_update ?_ (fun j e _ he => Nat.le_add_right_of_le (h.since j e he))
    rw [hsince]
    exact Nat.le_add_right_of_le (h.since i d hd)
  · refine forall_update (fun _ => (hreached _ rfl).symm) (fun j e hji he hown => ?_)
    -- another drive has saved since
    refine absurd (hown ⟨i, (w, tg), b.chk⟩ ?_).symm hji
    rw [List.drop_append_of_le_length (h.since j e he)]
    exact List.mem_append_right _ (List.mem_singleton_self _)
  · intro id hresume
    exact forall_update (hid.trans (h.named id hresume i d hd))
      (fun j e _ he => h.named id hresume j e he)
  · intro id hresume
    have hsaved : b.chk.checkpointId = id := hid.trans (h.named id hresume i d hd)
    refine ⟨b.chk, ?_, hsaved, (hreached _ rfl).symm⟩
    rw [← hsaved]
    exact Function.update_self ..

theorem act {cfg : FleetConfig} {now : Instant} {a : Action}
    {fleet' : Fleet} (hstep : (Himmy.fleet cfg).step c.fleet (now, a) = some fleet') :
    Sound g names row base { c with fleet := fleet' } := by
  have heff := Fleet.effect_of_step h.coherent hstep
  refine ⟨heff.coherent h.coherent, ?_, ?_, h.followed, h.reachedAt, h.since, h.drives, h.named,
    h.stored_graph⟩
  · obtain ⟨row₀, hrow₀⟩ := Option.isSome_iff_exists.1 h.stored
    obtain ⟨row', hrow', -⟩ := heff.persists h.coherent row.runId row₀ hrow₀
    exact Option.isSome_iff_exists.2 ⟨row', hrow'⟩
  · refine h.carried.step h.coherent ?_ h.stored ?_ ?_ hstep
    · intro a b hsame hb
      rw [← hb]
      unfold RunRecord.graphResumeId Dict.str?
      rw [hsame.metadata "graph_resume_id" (by decide) (by decide)]
    · intro i w outcome _ _ _ hrun
      rw [← hrun]
      unfold RunRecord.graphResumeId Dict.str?
      rw [outcome.graphResumeId_apply]
    · intro i ρ outcome run _ _ _ _ hrun
      rw [← hrun]
      unfold RunRecord.graphResumeId Dict.str?
      rw [outcome.graphResumeId_apply]

theorem step (hg : IsPipeline g names) (hfresh : row.graphResumeId = none →
      base = (g.freshCheckpoint "" (pipelineState prompt)).toGraphProgress)
    {cfg : FleetConfig} {e : Event ω} (hlinked : Linked row.runId c e)
    (hstep : (workflow g prompt row.runId cfg).step c e = some c') : Sound g names row base c' := by
  cases e with
  | act now a =>
    obtain ⟨fleet', hfleet, rfl⟩ := Option.map_eq_some_iff.1 hstep
    exact h.act hfleet
  | enter i newId =>
    simp only [workflow, Workflow.step] at hstep
    split at hstep <;> try (cases hstep)
    next w hw hnone =>
    split at hstep <;> try (cases hstep)
    next hdriving =>
    obtain ⟨chk, hchk, rfl⟩ := Option.map_eq_some_iff.1 hstep
    have hid : w.run.runId = row.runId := by
      simp only [Workflow.driving, hw, Option.any_some, Bool.and_eq_true, decide_eq_true_eq]
        at hdriving
      exact hdriving.1
    obtain ⟨hprogress, hnamed⟩ := h.entered hfresh hw hid hlinked hchk
    refine ⟨h.coherent, h.stored, h.carried, h.followed, h.reachedAt, ?_, ?_, ?_, h.stored_graph⟩
    · exact forall_update (Nat.le_refl _) (fun j e _ he => h.since j e he)
    · exact forall_update (fun _ => hprogress) (fun j e _ he => h.drives j e he)
    · intro id hresume
      exact forall_update (hnamed id hresume) (fun j e _ he => h.named id hresume j e he)
  | superstep i w tg =>
    obtain ⟨d, hd, hstep⟩ := Option.bind_eq_some_iff.1 hstep
    split at hstep <;> try (cases hstep)
    have hsole := hlinked d hd
    dsimp only at hstep
    split at hstep
    · cases hstep
      refine ⟨h.coherent, h.stored, h.carried, h.followed, h.reachedAt, ?_, ?_, ?_, h.stored_graph⟩
      · exact forall_update (h.since i d hd) (fun j e _ he => h.since j e he)
      · exact forall_update (h.drives i d hd) (fun j e _ he => h.drives j e he)
      · intro id hresume
        exact forall_update (h.named id hresume i d hd) (fun j e _ he => h.named id hresume j e he)
    next chk hchk =>
      obtain ⟨hsameId, hstays, hgoes⟩ := saved_of_loopStep hchk
      cases hstep
      cases hgoesOn : (g.loopStep w tg none d.chk).goesOn with
      | true =>
        exact h.advance hg (b := { d with chk, running := true }) hd rfl hsameId (hgoes hgoesOn)
          hsole
      | false =>
        exact h.save (b := { d with chk, running := false }) hd rfl hsameId (hstays hgoesOn) hsole
  | cancel i =>
    obtain ⟨d, hd, hstep⟩ := Option.bind_eq_some_iff.1 hstep
    split at hstep <;> try (cases hstep)
    exact h.save (b := ⟨{ d.chk with status := .interrupted, error := some .cancelled }, false, d.since⟩)
      hd rfl rfl rfl (hlinked d hd)

end

end Sound

end Runs

/-! ## The result -/

/-- From the enqueue of a workflow run on, its dispatches go on from the superstep saved last, and the
    progress they reach is that of one drive that was never stopped, as long as each of them begins
    before any superstep was saved or with the checkpoint to resume on record, and no drive goes on
    that another has overtaken. -/
theorem redispatch_continues {turn : ω → String → String → MemberTurn} {names : List String}
    {cfg : FleetConfig} {c c' : Workflow ω} {row : RunRecord} {base : GraphProgress Json}
    {es : List (Event ω)} (hg : pipelineGraph turn names = .ok g)
    (h : c.Enqueued g prompt names row base)
    (hlinked : (workflow g prompt row.runId cfg).AlongRun (Linked row.runId) c es)
    (hrun : (workflow g prompt row.runId cfg).exec c es = some c') :
    (workflow g prompt row.runId cfg).AlongRun (Continues g prompt row.runId base) c es
      ∧ followed g (c'.saved.map SavedStep.answers) base = some (c'.reached base) := by
  have hpipeline := isPipeline_of_pipelineGraph hg
  have hstep : ∀ s e s', Sound g names row base s → Linked row.runId s e →
      (workflow g prompt row.runId cfg).step s e = some s' → Sound g names row base s' :=
    fun s e s' hs hl hstep => hs.step hpipeline h.fresh hl hstep
  constructor
  · refine (workflow g prompt row.runId cfg).alongRun_of_invariant hstep ?_ (sound_of_enqueued h)
      hlinked
    intro s e hs hl
    exact hs.continues h.fresh hpipeline.chained.nodup hl
  · exact ((workflow g prompt row.runId cfg).exec_invariant hstep (sound_of_enqueued h) hlinked
      hrun).followed

/-! ### A workflow of two members whose first worker crashes -/

instance (c : Workflow ω) : (e : Event ω) → Decidable (Linked runId c e)
  | .enter i _ => inferInstanceAs (Decidable (∀ w ∈ c.fleet.workers[i]?, _ → _))
  | .superstep i _ _ => inferInstanceAs (Decidable (∀ d ∈ c.drives i, ∀ s ∈ _, _))
  | .cancel i => inferInstanceAs (Decidable (∀ d ∈ c.drives i, ∀ s ∈ _, _))
  | .act .. => isTrue trivial

end System

def answerName (_ : Unit) (name _ : String) : MemberTurn := .answered (some name)

def pair : CompiledStateGraph Unit Json :=
  (pipelineGraph answerName ["plan", "write"]).toOption.get (by decide +kernel)

theorem pair_eq : pipelineGraph answerName ["plan", "write"] = .ok pair := by
  have hget : ∀ {ε α : Type} (x : Except ε α) (h : x.toOption.isSome = true),
      x = .ok (x.toOption.get h) := by
    intro ε α x h
    cases x with
    | error e => cases h
    | ok a => rfl
  exact hget _ _

variable (resumeId : Option String)

def queuedWorkflow : Workflow Unit where
  fleet := ((fleet {}).exec {} [(0, .create
    { runId := "r", workspaceId := "w", subjectId := "s",
      metadata := Dict.ofList ([("orchestration", Json.str "workflow"),
        ("member_agent_ids", .arr [.str "1", .str "2"])]
        ++ (resumeId.map (fun id => ("graph_resume_id", Json.str id))).toList) })]).getD {}
  graphs := fun id =>
    if some id = resumeId then some (pair.freshCheckpoint id (pipelineState "go")) else none

def workflowRow : RunRecord :=
  ((queuedWorkflow resumeId).fleet.record "r").getD
    { runId := "", workspaceId := "", subjectId := "", createdAt := 0, updatedAt := 0 }

/-- The worker `i` claims the run at `now`, and marks it as running. -/
def dispatches (i : Nat) (now : Instant) : List (Event Unit) :=
  [.act now (.claim "worker" 10 none false 0), .act now (.worker i (.resolveMembers true none)),
    .act now (.worker i .reread), .act now (.worker i .markRunning)]

/-- The first worker saves a superstep and crashes, and the run is handed out again. -/
def redispatched : List (Event Unit) :=
  dispatches 0 1 ++ [.enter 0 "graph-1", .superstep 0 () .all, .act 2 (.worker 0 .crash),
    .act 20 (.reap none)] ++ dispatches 1 21

theorem enqueued_queuedWorkflow
    (hrow : (queuedWorkflow resumeId).fleet.record "r" = some (workflowRow resumeId)
      ∧ (workflowRow resumeId).runId = "r" ∧ (workflowRow resumeId).graphResumeId = resumeId
      ∧ (queuedWorkflow resumeId).fleet.workers.length = 0
      ∧ (queuedWorkflow resumeId).fleet.resumes.length = 0) :
    (queuedWorkflow resumeId).Enqueued pair "go" ["plan", "write"] (workflowRow resumeId)
      (pair.freshCheckpoint "" (pipelineState "go")).toGraphProgress := by
  obtain ⟨hstored, hid, hresume, hworkers, hresumes⟩ := hrow
  rw [List.length_eq_zero_iff] at hworkers hresumes
  constructor
  · refine ⟨fun w hw => ?_, fun ρ hρ => ?_⟩
    · rw [hworkers] at hw
      cases hw
    · rw [hresumes] at hρ
      cases hρ
  · rw [hid]
    exact hstored
  · intro w hw
    rw [hworkers] at hw
    cases hw
  · intro ρ hρ
    rw [hresumes] at hρ
    cases hρ
  · exact fun _ => rfl
  · rfl
  · exact fun _ => rfl
  · intro id hid'
    rw [hresume] at hid'
    refine ⟨pair.freshCheckpoint id (pipelineState "go"), ?_, rfl, rfl⟩
    simp [queuedWorkflow, hid']
  · exact ⟨0, atStep_fresh (isPipeline_of_pipelineGraph pair_eq) _ _⟩

/-- A run that was launched with the checkpoint to resume goes on at its second member. -/
theorem redispatch_continues_resumed :
    (workflow pair "go" (workflowRow (some "graph-0")).runId {}).AlongRun
      (Continues pair "go" (workflowRow (some "graph-0")).runId
        (pair.freshCheckpoint "" (pipelineState "go")).toGraphProgress)
      (queuedWorkflow (some "graph-0"))
      (redispatched ++ [.enter 1 "graph-2", .superstep 1 () .all]) := by
  obtain ⟨c', hrun⟩ : ∃ c', (workflow pair "go" (workflowRow (some "graph-0")).runId {}).exec
      (queuedWorkflow (some "graph-0"))
      (redispatched ++ [.enter 1 "graph-2", .superstep 1 () .all]) = some c' :=
    Option.isSome_iff_exists.1 (by decide +kernel)
  exact (redispatch_continues pair "go" pair_eq
    (enqueued_queuedWorkflow _ ⟨rfl, rfl, rfl, rfl, rfl⟩) (by decide +kernel) hrun).1

/-- A run that was launched without one starts again at its first member. -/
theorem redispatch_restarts : ¬ ∀ (turn : Unit → String → String → MemberTurn) (names : List String)
      (g : CompiledStateGraph Unit Json) (prompt : String) (cfg : FleetConfig) (c : Workflow Unit)
      (row : RunRecord) (base : GraphProgress Json) (es : List (Event Unit)),
      pipelineGraph turn names = .ok g → c.Enqueued g prompt names row base →
      (workflow g prompt row.runId cfg).AlongRun (Continues g prompt row.runId base) c es := by
  intro h
  obtain ⟨c, hc⟩ : ∃ c, (workflow pair "go" (workflowRow none).runId {}).exec (queuedWorkflow none)
      redispatched = some c := Option.isSome_iff_exists.1 (by decide +kernel)
  refine LTS.not_alongRun _ (a := .enter 1 "graph-2") hc ?_
    (h answerName ["plan", "write"] pair "go" {} (queuedWorkflow none) (workflowRow none) _ _ pair_eq
      (enqueued_queuedWorkflow none ⟨rfl, rfl, rfl, rfl, rfl⟩))
  intro hcontinues
  have hfacts : ((workflow pair "go" (workflowRow none).runId {}).exec (queuedWorkflow none)
      redispatched).map (fun c => (c.fleet.workers[1]?).map (fun w =>
        (w.run.runId, (c.entered pair "go" w.run "graph-2").map (fun chk => chk.superstep),
          (c.reached (pair.freshCheckpoint "" (pipelineState "go")).toGraphProgress).superstep)))
      = some (some ("r", some 0, 1)) := by decide +kernel
  rw [hc, Option.map_some, Option.some.injEq, Option.map_eq_some_iff] at hfacts
  obtain ⟨w, hw, hfacts⟩ := hfacts
  simp only [Prod.mk.injEq, Option.map_eq_some_iff] at hfacts
  obtain ⟨hid, ⟨chk, hchk, hzero⟩, hone⟩ := hfacts
  rw [hcontinues w hw (hid.trans (by decide +kernel)) chk hchk, hone] at hzero
  cases hzero

end WorkflowRuns

end Himmy
