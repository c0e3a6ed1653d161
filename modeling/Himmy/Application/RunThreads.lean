import Himmy.Application.CarriedRecords
import Himmy.Runtime.SingleAgent

/-! # The threads of the attempts of a run

`dispatch_claimed_run` loads the thread whose id the claimed record carries, and drives the attempt on
it; a record without a thread id, or whose thread is not stored, is driven on a new thread. The
runtime puts the prompts of the attempt on the thread, and what the model and the tools answer, and
saves the thread when a turn ends or is cancelled. A drive that hands back a result writes the id of
its thread to the record.

`service` is the fleet of a run store with the table of chat threads beside it. The model, the tools
and the compaction are free to leave any messages on a thread (`Event.turn`), and other runs to save
any thread (`Event.elsewhere`). The saves are kept as history, which no step reads. -/

namespace Himmy

open Himmy.Runtime (ChatThread Message TurnConfig runPrompts)

/-! ## The thread of a result -/

namespace DriveOutcome

/-- The id of the thread of the result that a drive of a single agent hands back. -/
def resultThread : DriveOutcome → Option String
  | .inferenceFailed result => some result.threadId
  | .succeeded result => some result.threadId
  | .awaitingApproval result _ _ => some result.threadId
  | _ => none

def isOrchestrated : DriveOutcome → Bool
  | .orchestrated _ => true
  | _ => false

theorem thread_apply (entry : DriveEntry) {o : DriveOutcome} (h : o.isOrchestrated = false)
    (run : RunRecord) (now : Instant) :
    (o.apply entry run now).isOrchestration = run.isOrchestration
      ∧ (o.apply entry run now).threadId = (o.resultThread.map some).getD run.threadId := by
  have hkept : ∀ (key : String) (value : Option Json), "orchestration" ≠ key →
      Dict.str? (setIf run.metadata key value) "orchestration"
        = Dict.str? run.metadata "orchestration" := by
    intro key value hne
    simp only [Dict.str?, find?_setIf_of_ne _ _ hne]
  cases o with
  | orchestrated outcome => cases h
  | inferenceFailed result =>
    refine ⟨?_, rfl⟩
    simp only [RunRecord.isOrchestration, apply,
      hkept _ _ (show "orchestration" ≠ "error_code" by decide)]
  | succeeded result =>
    refine ⟨?_, rfl⟩
    simp only [RunRecord.isOrchestration, apply,
      hkept _ _ (show "orchestration" ≠ "extraction_error" by decide)]
  | awaitingApproval result checkpointId plan =>
    refine ⟨?_, rfl⟩
    simp only [RunRecord.isOrchestration, apply, Dict.str?]
    rw [find?_setIf_of_ne _ _ (by decide), Dict.find?_set_of_ne _ _ (by decide)]
  | _ => exact ⟨rfl, rfl⟩

end DriveOutcome

namespace RunThreads

/-! ## The system -/

/-- The thread of an attempt. -/
structure Drive where
  threadId : String
  thread : ChatThread := {}
  /-- The prompts of the attempt are on the thread. -/
  asked : Bool := false

/-- A run store, the chat threads, and the threads of the attempts, by worker. -/
structure Service where
  fleet : Fleet := {}
  chatThreads : String → Option ChatThread := fun _ => none
  drives : Nat → Option Drive := fun _ => none
  /-- The threads that were saved. -/
  saves : List (String × ChatThread) := []

/-- What can happen next. -/
inductive Event
  | act (now : Instant) (a : Action)
  | load (i : Nat) (newId : String) (readable : Bool)
  | ask (i : Nat) (cfg : TurnConfig) (systemPrompt taskPrompt : String)
  | turn (i : Nat) (messages : List Message)
  | save (i : Nat)
  | elsewhere (threadId : String) (thread : ChatThread)

namespace Service

variable (c : Service)

def turns (threadId : String) : List Message :=
  ((c.chatThreads threadId).map ChatThread.messages).getD []

def turnsOf (threadId : Option String) : List Message :=
  match orNone threadId with
  | some threadId => c.turns threadId
  | none => []

def saveThread (threadId : String) (thread : ChatThread) : Service :=
  { c with
    chatThreads := Function.update c.chatThreads threadId (some thread)
    saves := (threadId, thread) :: c.saves }

/-- The thread of an attempt on `run`: the stored thread of its record, or a new one. A thread that
    cannot be read is as one that is not stored. -/
def driveOf (run : RunRecord) (newId : String) (readable : Bool) : Drive :=
  match orNone run.threadId with
  | some threadId =>
    match if readable then c.chatThreads threadId else none with
    | some thread => { threadId, thread }
    | none => { threadId := newId }
  | none => { threadId := newId }

/-- A task takes this step with a thread only in its hands: a worker marks its run as running once
    it has loaded the thread, and a result is on the thread of the drive. The result of a resume is on
    the thread of the paused run. -/
def allows : Action → Bool
  | .worker i l => (c.fleet.workers[i]?).all (fun w =>
    w.run.isOrchestration || match l with
      | .markRunning => (c.drives i).isSome
      | .finish outcome => !outcome.isOrchestrated
          && outcome.resultThread.all (fun id => (c.drives i).any (fun d => d.threadId = id))
      | _ => true)
  | .resumer i (.finish outcome) => (c.fleet.resumes[i]?).all (fun ρ => match ρ.stage with
      | .background run => run.isOrchestration || (!outcome.isOrchestrated
          && outcome.resultThread.all (fun id => run.threadId = some id))
      | _ => true)
  | _ => true

def step (cfg : FleetConfig) : Event → Option Service
  | .act now a =>
    if c.allows a then
      ((Himmy.fleet cfg).step c.fleet (now, a)).map (fun fleet => { c with fleet })
    else none
  | .load i newId readable =>
    match c.fleet.workers[i]?, c.drives i with
    | some w, none => match w.stage with
      | .waiting =>
        if w.run.isOrchestration || (c.chatThreads newId).isSome then none
        else some { c with
          drives := Function.update c.drives i (some (c.driveOf w.run newId readable)) }
      | _ => none
    | _, _ => none
  | .ask i cfg systemPrompt taskPrompt => (c.drives i).bind (fun d =>
    if d.asked then none
    else some { c with drives := Function.update c.drives i (some { d with
      thread := runPrompts cfg systemPrompt taskPrompt d.thread, asked := true }) })
  | .turn i messages => (c.drives i).bind (fun d =>
    if d.asked then some { c with drives := Function.update c.drives i (some { d with
      thread := { messages, version := d.thread.version + 1 } }) }
    else none)
  | .save i => (c.drives i).map (fun d => c.saveThread d.threadId d.thread)
  | .elsewhere threadId thread => some (c.saveThread threadId thread)

end Service

def service (cfg : FleetConfig) : LTS Service Event := ⟨fun c e => c.step cfg e⟩

/-! ## Where an attempt starts -/

/-- The attempts of `r` start from the turns `base`: a thread that is loaded for `r` holds them, and
    the messages sent to the model first are theirs and the prompts of the attempt. -/
def StartsFrom (r : String) (base : List Message) (c : Service) : Event → Prop
  | .load i newId readable => ∀ w ∈ c.fleet.workers[i]?, w.run.runId = r →
      c.chatThreads newId = none → (c.driveOf w.run newId readable).thread.messages = base
  | .ask i cfg systemPrompt taskPrompt => ∀ w ∈ c.fleet.workers[i]?, w.run.runId = r →
      ∀ d ∈ c.drives i, d.asked = false → (runPrompts cfg systemPrompt taskPrompt d.thread).messages
          = (runPrompts cfg systemPrompt taskPrompt { messages := base }).messages
  | _ => True

/-- When an attempt of `r` loads its thread, the record's thread can be read, and every save of it
    since the enqueue, when the threads held `turns`, has left its turns as they were. -/
def Unsaved (r : String) (turns : String → List Message) (c : Service) : Event → Prop
  | .load i _ readable => ∀ w ∈ c.fleet.workers[i]?, w.run.runId = r → ∀ id ∈ orNone w.run.threadId,
        (readable = true ∨ turns id = []) ∧ ∀ s ∈ c.saves, s.1 = id → s.2.messages = turns id
  | _ => True

/-- The run of `row` was just enqueued. -/
structure Service.Enqueued (c : Service) (row : RunRecord) : Prop where
  coherent : c.fleet.Coherent
  stored : c.fleet.record row.runId = some row
  agent : row.isOrchestration = false
  workers : ∀ w ∈ c.fleet.workers, w.run.runId ≠ row.runId
  resumes : ∀ ρ ∈ c.fleet.resumes, ρ.run.runId ≠ row.runId
  drives : ∀ i, c.fleet.workers.length ≤ i → c.drives i = none
  saves : c.saves = []

/-! ## What holds in every state -/

theorem place_of_effect {cfg : FleetConfig} {f f' : Fleet} {e : Instant × Action}
    (hf : f.Coherent) (h : f.Effect cfg e f') {i : Nat} {w' : Worker}
    (hw' : f'.workers[i]? = some w') :
    (∃ w, f.workers[i]? = some w ∧ w.run.runId = w'.run.runId) ∨ f.workers.length ≤ i := by
  cases h with
  | idle | creates | redrives | loads | resumer => exact Or.inl ⟨w', hw', rfl⟩
  | claims =>
    rw [List.getElem?_append] at hw'
    split at hw'
    · rw [List.getElem?_map, Option.map_eq_some_iff] at hw'
      obtain ⟨w, hw, rfl⟩ := hw'
      obtain ⟨superseded, heq⟩ := w.noteClaim_eq _ _
      exact Or.inl ⟨w, hw, by rw [heq]⟩
    · next hlen =>
        rw [List.length_map] at hlen
        exact Or.inr (Nat.le_of_not_lt hlen)
  | worker hw heff =>
    rcases Parties.getElem?_set_cases hw' with ⟨rfl, rfl⟩ | ⟨-, hold⟩
    · exact Or.inl ⟨_, hw, (heff.sameRun (hf.workers _ (List.mem_of_getElem? hw))).runId.symm⟩
    · exact Or.inl ⟨w', hold, rfl⟩
  | reaps =>
    rw [List.getElem?_map, Option.map_eq_some_iff] at hw'
    obtain ⟨w, hw, rfl⟩ := hw'
    obtain ⟨reaped, heq⟩ := w.noteReap_eq _
    exact Or.inl ⟨w, hw, by rw [heq]⟩

theorem length_le_of_effect {cfg : FleetConfig} {f f' : Fleet} {e : Instant × Action}
    (h : f.Effect cfg e f') : f.workers.length ≤ f'.workers.length := by
  cases h with
  | claims => simp
  | worker => simp
  | reaps => simp
  | _ => exact le_refl _

section Runs

variable (c₀ : Service) (row : RunRecord)

/-- The threads are those of the enqueue, where they were not saved since; and every record and every
    drive of the run is on a thread that held the turns of the run at the enqueue. -/
structure Steady (c : Service) : Prop where
  coherent : c.fleet.Coherent
  stored : (c.fleet.record row.runId).isSome = true
  carried : c.fleet.Carries row.runId (fun run =>
    run.isOrchestration = false ∧ c₀.turnsOf run.threadId = c₀.turnsOf row.threadId)
  unclaimed : ∀ i, c.fleet.workers.length ≤ i → c.drives i = none
  drives : ∀ (i : Nat) (w : Worker) (d : Drive), c.fleet.workers[i]? = some w →
    w.run.runId = row.runId → c.drives i = some d →
    c₀.turnsOf (some d.threadId) = c₀.turnsOf row.threadId
      ∧ (d.asked = false → d.thread.messages = c₀.turnsOf row.threadId)
  turns : ∀ id, (∀ s ∈ c.saves, s.1 = id → s.2.messages = c₀.turns id) → c.turns id = c₀.turns id
  saved : ∀ s ∈ c.saves, (c.chatThreads s.1).isSome = true

variable {c₀ row}

theorem steady_of_enqueued (h : c₀.Enqueued row) : Steady c₀ row c₀ where
  coherent := h.coherent
  stored := by rw [h.stored]; rfl
  carried := by
    refine ⟨fun row' hget => ?_, fun w hw hid => ?_, fun ρ hρ hid => ?_⟩
    · rw [h.stored] at hget
      cases hget
      exact ⟨h.agent, rfl⟩
    · exact absurd hid (h.workers w hw)
    · exact absurd hid (h.resumes ρ hρ)
  unclaimed := h.drives
  drives := fun i w d hw hid => absurd hid (h.workers w (List.mem_of_getElem? hw))
  turns := fun _ _ => rfl
  saved := fun s hs => by rw [h.saves] at hs; cases hs

theorem turns_saveThread (c : Service) (threadId : String) (thread : ChatThread) (id : String) :
    (c.saveThread threadId thread).turns id = if id = threadId then thread.messages else c.turns id := by
  unfold Service.turns Service.saveThread
  by_cases h : id = threadId
  · subst h
    simp
  · simp [h]

namespace Steady

variable {c c' : Service}

section

variable (h : Steady c₀ row c)

include h

theorem saveThread (threadId : String) (thread : ChatThread) :
    Steady c₀ row (c.saveThread threadId thread) where
  coherent := h.coherent
  stored := h.stored
  carried := h.carried
  unclaimed := h.unclaimed
  drives := h.drives
  turns := by
    intro id hsaves
    rw [turns_saveThread]
    split
    · next hid => exact hsaves (threadId, thread) List.mem_cons_self hid.symm
    · exact h.turns id (fun s hs => hsaves s (List.mem_cons_of_mem _ hs))
  saved := by
    intro s hs
    by_cases hid : s.1 = threadId
    · simp [Service.saveThread, hid]
    · simp only [Service.saveThread, Function.update_of_ne hid]
      rcases List.mem_cons.1 hs with rfl | hs
      · exact absurd rfl hid
      · exact h.saved s hs

variable {i : Nat} {w : Worker}

theorem driveOf {newId : String} {readable : Bool}
    (hw : c.fleet.workers[i]? = some w) (hid : w.run.runId = row.runId)
    (hnew : c.chatThreads newId = none)
    (hunsaved : Unsaved row.runId c₀.turns c (.load i newId readable)) :
    c₀.turnsOf (some (c.driveOf w.run newId readable).threadId) = c₀.turnsOf row.threadId
      ∧ (c.driveOf w.run newId readable).thread.messages = c₀.turnsOf row.threadId := by
  have hbase := (h.carried.workers w (List.mem_of_getElem? hw) hid).1.2
  -- nothing was ever saved under the id of a new thread
  have hfresh : c₀.turnsOf (some newId) = [] := by
    have hturns := h.turns newId (fun s hs hs' => by
      have := h.saved s hs
      rw [hs', hnew] at this
      cases this)
    unfold Service.turnsOf
    cases hor : orNone (some newId) with
    | none => rfl
    | some id =>
      obtain rfl : newId = id := by
        rw [orNone_eq_some_iff] at hor
        exact Option.some.inj hor.1
      dsimp only
      rw [← hturns, Service.turns, hnew]
      rfl
  cases hthread : orNone w.run.threadId with
  | none =>
    have hempty : c₀.turnsOf w.run.threadId = [] := by rw [Service.turnsOf, hthread]
    rw [← hbase, hempty]
    simp only [Service.driveOf, hthread]
    exact ⟨hfresh, trivial⟩
  | some id =>
    obtain ⟨hreadable, hsaves⟩ := hunsaved w hw hid id hthread
    have hturns := h.turns id hsaves
    have hid' : c₀.turnsOf w.run.threadId = c₀.turns id := by rw [Service.turnsOf, hthread]
    have hsome : c₀.turnsOf (some id) = c₀.turns id := by
      have := (orNone_eq_some_iff.1 hthread).2
      rw [Service.turnsOf, orNone_eq_some_iff.2 ⟨rfl, this⟩]
    rw [← hbase, hid']
    simp only [Service.driveOf, hthread]
    cases hfound : (if readable then c.chatThreads id else none) with
    | some thread =>
      dsimp only
      refine ⟨hsome, ?_⟩
      cases readable with
      | false => cases hfound
      | true =>
        rw [← hturns, Service.turns, show c.chatThreads id = some thread from hfound]
        rfl
    | none =>
      have hnone : c₀.turns id = [] := by
        cases readable with
        | false => exact hreadable.resolve_left (by simp)
        | true =>
          rw [← hturns, Service.turns, show c.chatThreads id = none from hfound]
          rfl
      dsimp only
      rw [hnone]
      exact ⟨hfresh, rfl⟩

theorem startsFrom {e : Event} (hunsaved : Unsaved row.runId c₀.turns c e) :
    StartsFrom row.runId (c₀.turnsOf row.threadId) c e := by
  cases e with
  | load i newId readable =>
    intro w hw hid hnew
    exact (h.driveOf hw hid hnew hunsaved).2
  | ask i cfg systemPrompt taskPrompt =>
    intro w hw hid d hd hasked
    have hmessages := (h.drives i w d hw hid hd).2 hasked
    obtain ⟨threadId, ⟨messages, version⟩, asked⟩ := d
    obtain rfl : messages = c₀.turnsOf row.threadId := hmessages
    rfl
  | _ => trivial

theorem finish {outcome : DriveOutcome}
    (hw : c.fleet.workers[i]? = some w) (hid : w.run.runId = row.runId)
    (hallows : c.allows (.worker i (.finish outcome)) = true) (now : Instant) :
    (outcome.apply .dispatch w.run now).isOrchestration = false
      ∧ c₀.turnsOf (outcome.apply .dispatch w.run now).threadId = c₀.turnsOf row.threadId := by
  obtain ⟨hagent, hbase⟩ := (h.carried.workers w (List.mem_of_getElem? hw) hid).1
  simp only [Service.allows, hw, Option.all_some, hagent, Bool.false_or, Bool.and_eq_true,
    Bool.not_eq_true'] at hallows
  obtain ⟨hkept, hthread⟩ := outcome.thread_apply .dispatch hallows.1 w.run now
  refine ⟨hkept.trans hagent, ?_⟩
  rw [hthread]
  cases hresult : outcome.resultThread with
  | none => exact hbase
  | some id =>
    have hdrive := hallows.2
    rw [hresult, Option.all_some] at hdrive
    obtain ⟨d, hd, hdid⟩ := (Option.any_eq_true ..).1 hdrive
    have := (h.drives i w d hw hid hd).1
    rwa [of_decide_eq_true hdid] at this

theorem finish_resume {ρ : Resume} {outcome : DriveOutcome}
    {run : RunRecord} (hρ : c.fleet.resumes[i]? = some ρ) (hid : ρ.run.runId = row.runId)
    (hstage : ρ.stage = .background run)
    (hallows : c.allows (.resumer i (.finish outcome)) = true) (now : Instant) :
    (outcome.apply .resume run now).isOrchestration = false
      ∧ c₀.turnsOf (outcome.apply .resume run now).threadId = c₀.turnsOf row.threadId := by
  obtain ⟨hagent, hbase⟩ :=
    (h.carried.resumes ρ (List.mem_of_getElem? hρ) hid).2 run hstage
  simp only [Service.allows, hρ, Option.all_some, hstage, hagent, Bool.false_or, Bool.and_eq_true,
    Bool.not_eq_true'] at hallows
  obtain ⟨hkept, hthread⟩ := outcome.thread_apply .resume hallows.1 run now
  refine ⟨hkept.trans hagent, ?_⟩
  rw [hthread]
  cases hresult : outcome.resultThread with
  | none => exact hbase
  | some id =>
    have hown := hallows.2
    rw [hresult, Option.all_some, decide_eq_true_eq] at hown
    rwa [Option.map_some, Option.getD_some, ← hown]

theorem act {cfg : FleetConfig} {now : Instant} {a : Action} {fleet' : Fleet}
    (hallows : c.allows a = true) (hstep : (Himmy.fleet cfg).step c.fleet (now, a) = some fleet') :
    Steady c₀ row { c with fleet := fleet' } := by
  have heff := Fleet.effect_of_step h.coherent hstep
  have hdrives : ∀ (i : Nat) (w : Worker) (d : Drive), fleet'.workers[i]? = some w →
      w.run.runId = row.runId → c.drives i = some d →
      c₀.turnsOf (some d.threadId) = c₀.turnsOf row.threadId
        ∧ (d.asked = false → d.thread.messages = c₀.turnsOf row.threadId) := by
    intro i w d hw hid hd
    rcases place_of_effect h.coherent heff hw with ⟨w₀, hw₀, hsame⟩ | hnew
    · exact h.drives i w₀ d hw₀ (hsame.trans hid) hd
    · rw [h.unclaimed i hnew] at hd
      cases hd
  constructor
  · exact heff.coherent h.coherent
  · obtain ⟨row₀, hrow₀⟩ := Option.isSome_iff_exists.1 h.stored
    obtain ⟨row', hrow', -⟩ := heff.persists h.coherent row.runId row₀ hrow₀
    exact Option.isSome_iff_exists.2 ⟨row', hrow'⟩
  · refine h.carried.step h.coherent ?_ h.stored ?_ ?_ hstep
    · rintro a b hsame ⟨hagent, hbase⟩
      exact ⟨hsame.isOrchestration.trans hagent, by rw [hsame.threadId]; exact hbase⟩
    · rintro i w outcome rfl hw hid -
      exact h.finish hw hid hallows now
    · rintro i ρ outcome run rfl hρ hid hstage -
      exact h.finish_resume hρ hid hstage hallows now
  · intro i hi
    exact h.unclaimed i ((length_le_of_effect heff).trans hi)
  · exact hdrives
  · exact h.turns
  · exact h.saved

theorem updateDrive {d : Drive} (hw : c.fleet.workers[i]? = some w)
    (hd : w.run.runId = row.runId → c₀.turnsOf (some d.threadId) = c₀.turnsOf row.threadId
      ∧ (d.asked = false → d.thread.messages = c₀.turnsOf row.threadId)) :
    Steady c₀ row { c with drives := Function.update c.drives i (some d) } := by
  refine ⟨h.coherent, h.stored, h.carried, fun j hj => ?_, fun j v e hv hid he => ?_, h.turns,
    h.saved⟩
  · have hlt := (List.getElem?_eq_some_iff.1 hw).1
    have hji : j ≠ i := by
      have hj' : c.fleet.workers.length ≤ j := hj
      omega
    simp only [Function.update_of_ne hji]
    exact h.unclaimed j hj
  · by_cases hji : j = i
    · subst hji
      simp only [Function.update_self, Option.some.injEq] at he
      subst he
      cases hw.symm.trans hv
      exact hd hid
    · simp only [Function.update_of_ne hji] at he
      exact h.drives j v e hv hid he

theorem worker_of_drive {d : Drive} (hd : c.drives i = some d) :
    ∃ w, c.fleet.workers[i]? = some w := by
  by_contra hnone
  have hlen : c.fleet.workers.length ≤ i := by
    rw [← List.getElem?_eq_none_iff]
    exact Option.eq_none_iff_forall_ne_some.2 (fun w hw => hnone ⟨w, hw⟩)
  rw [h.unclaimed i hlen] at hd
  cases hd

theorem step {cfg : FleetConfig} {e : Event}
    (hunsaved : Unsaved row.runId c₀.turns c e) (hstep : (service cfg).step c e = some c') :
    Steady c₀ row c' := by
  cases e with
  | act now a =>
    simp only [service, Service.step] at hstep
    split at hstep <;> try (cases hstep)
    next hallows =>
    obtain ⟨fleet', hfleet, rfl⟩ := Option.map_eq_some_iff.1 hstep
    exact h.act hallows hfleet
  | load i newId readable =>
    simp only [service, Service.step] at hstep
    split at hstep <;> try (cases hstep)
    next w hw hnone =>
    split at hstep <;> try (cases hstep)
    split at hstep <;> cases hstep
    next hguard =>
    simp only [Bool.or_eq_true, not_or, Bool.not_eq_true, Option.isSome_eq_false_iff,
      Option.isNone_iff_eq_none] at hguard
    refine h.updateDrive hw (fun hid => ?_)
    obtain ⟨hthread, hmessages⟩ := h.driveOf hw hid hguard.2 hunsaved
    exact ⟨hthread, fun _ => hmessages⟩
  | ask i cfg systemPrompt taskPrompt =>
    obtain ⟨d, hd, hstep⟩ := Option.bind_eq_some_iff.1 hstep
    split at hstep <;> cases hstep
    obtain ⟨w, hw⟩ := h.worker_of_drive hd
    exact h.updateDrive hw (fun hid => ⟨(h.drives i w d hw hid hd).1, fun hasked => by cases hasked⟩)
  | turn i messages =>
    obtain ⟨d, hd, hstep⟩ := Option.bind_eq_some_iff.1 hstep
    split at hstep <;> cases hstep
    next hasked =>
    obtain ⟨w, hw⟩ := h.worker_of_drive hd
    refine h.updateDrive hw (fun hid => ⟨(h.drives i w d hw hid hd).1, fun hnot => ?_⟩)
    rw [show d.asked = false from hnot] at hasked
    cases hasked
  | save i =>
    obtain ⟨d, -, rfl⟩ := Option.map_eq_some_iff.1 hstep
    exact h.saveThread d.threadId d.thread
  | elsewhere threadId thread =>
    cases hstep
    exact h.saveThread threadId thread

end

end Steady

end Runs

/-! ## The result -/

/-- From its enqueue on, every attempt of a run starts from the turns the run was enqueued on, as long
    as no save has changed the turns of the thread that the record of the run carries. -/
theorem attempts_start_alike {cfg : FleetConfig} {c : Service} {row : RunRecord} {es : List Event}
    (h : c.Enqueued row) (hunsaved : (service cfg).AlongRun (Unsaved row.runId c.turns) c es) :
    (service cfg).AlongRun (StartsFrom row.runId (c.turnsOf row.threadId)) c es := by
  refine (service cfg).alongRun_of_invariant (I := Steady c row) ?_ ?_ (steady_of_enqueued h)
    hunsaved
  · intro s e s' hs hunsaved hstep
    exact hs.step hunsaved hstep
  · intro s e hs hunsaved
    exact hs.startsFrom hunsaved

/-! ### A run that times out, and a run whose answer fails -/

def queued : Service where
  fleet := ((fleet { defaultMaxAttempts := 2 }).exec {} [(0, .create
    { runId := "r", workspaceId := "w", subjectId := "s", inputBlob := some "input" })]).getD {}

def queuedRow : RunRecord :=
  (queued.fleet.record "r").getD
    { runId := "", workspaceId := "", subjectId := "", createdAt := 0, updatedAt := 0 }

/-- An attempt claimed at `now` by the worker `i`: its thread, saved with its prompts on it. -/
def attempt (i : Nat) (now : Instant) (newId : String) : List Event :=
  [.act now (.claim "worker" 10 none false 0), .act now (.worker i (.rehydrate none)),
    .load i newId true, .act now (.worker i .markRunning), .ask i {} "" "go", .save i]

def ends (i : Nat) (now : Instant) (outcome : DriveOutcome) : List Event :=
  [.act now (.worker i (.finish outcome)), .act now (.worker i .readForRetry),
    .act now (.worker i .saveRetry)]

/-- The answer of the model failed: the result of the attempt, on the thread `thread-1`. -/
def unavailable : DriveOutcome :=
  .inferenceFailed { threadId := "thread-1", errorCode := some "PROVIDER_UNAVAILABLE" }

theorem queued_enqueued : queued.Enqueued queuedRow where
  coherent := by
    refine ⟨fun w hw => ?_, fun ρ hρ => ?_⟩
    · cases hw
    · cases hρ
  stored := rfl
  agent := rfl
  workers := fun w hw => by cases hw
  resumes := fun ρ hρ => by cases hρ
  drives := fun _ _ => rfl
  saves := rfl

def CarriesNone (c : Service) : Event → Prop
  | .load i _ _ => ∀ w ∈ c.fleet.workers[i]?, orNone w.run.threadId = none
  | _ => True

instance (c : Service) : (e : Event) → Decidable (CarriesNone c e)
  | .load i _ _ => inferInstanceAs (Decidable (∀ w ∈ c.fleet.workers[i]?, _))
  | .act .. => isTrue trivial
  | .ask .. => isTrue trivial
  | .turn .. => isTrue trivial
  | .save _ => isTrue trivial
  | .elsewhere .. => isTrue trivial

/-- The first attempt times out, and the second one starts from an empty thread as well. -/
theorem attempts_start_alike_timedOut :
    ((service {}).exec queued (attempt 0 1 "thread-1" ++ ends 0 2 (.timedOut 300)
        ++ attempt 1 (seconds 100) "thread-2")).isSome = true
      ∧ (service {}).AlongRun (StartsFrom "r" []) queued
        (attempt 0 1 "thread-1" ++ ends 0 2 (.timedOut 300) ++ attempt 1 (seconds 100) "thread-2") := by
  constructor
  · decide +kernel
  · refine attempts_start_alike queued_enqueued (LTS.AlongRun.mono (C := CarriesNone) ?_ ?_)
    · intro c e hnone
      cases e with
      | load i newId readable =>
        intro w hw _ id hid
        rw [hnone w hw] at hid
        cases hid
      | _ => trivial
    · decide +kernel

/-- The first attempt saves its thread and hands it back with a failed answer; the second attempt is
    driven on that thread. -/
theorem attempt_starts_late :
    ¬ ∀ (cfg : FleetConfig) (c : Service) (row : RunRecord) (es : List Event), c.Enqueued row →
      (service cfg).AlongRun (StartsFrom row.runId (c.turnsOf row.threadId)) c es := by
  intro h
  obtain ⟨c, hc⟩ : ∃ c, (service {}).exec queued (attempt 0 1 "thread-1" ++ ends 0 2 unavailable
      ++ (attempt 1 (seconds 100) "thread-2").take 2) = some c := Option.isSome_iff_exists.1 (by decide +kernel)
  refine (service {}).not_alongRun (a := .load 1 "thread-2" true) hc ?_
    (h {} queued queuedRow _ queued_enqueued)
  intro hstart
  have hlength : ((service {}).exec queued (attempt 0 1 "thread-1" ++ ends 0 2 unavailable
      ++ (attempt 1 (seconds 100) "thread-2").take 2)).map (fun c => (c.fleet.workers[1]?).map (fun w =>
        (w.run.runId, (c.chatThreads "thread-2").isNone,
          (c.driveOf w.run "thread-2" true).thread.messages.length)))
      = some (some ("r", true, 1)) := by decide +kernel
  rw [hc, Option.map_some, Option.some.injEq, Option.map_eq_some_iff] at hlength
  obtain ⟨w, hw, hfacts⟩ := hlength
  simp only [Prod.mk.injEq, Option.isNone_iff_eq_none] at hfacts
  rw [hstart w hw hfacts.1 hfacts.2.1] at hfacts
  cases hfacts.2.2

end RunThreads

end Himmy
