import Himmy.Application.TaskEffects

/-! # What an event of the fleet does

`Fleet.Effect` is the inversion of `Fleet.step`: what each event does to the table of records, to the
tasks and to the history. The records in the hands of the tasks always belong to stored runs
(`Fleet.Coherent`). -/

namespace Himmy

def RunTable.expiredIds (t : RunTable) (now : Instant) (lanes : Option (List String)) :
    List String :=
  (t.items.filter (·.leaseExpired now lanes)).map RunRecord.runId

theorem RunTable.mem_expiredIds {t : RunTable} {now : Instant} {lanes : Option (List String)}
    {runId : String} : runId ∈ t.expiredIds now lanes
      ↔ ∃ row, t.get? runId = some row ∧ row.leaseExpired now lanes = true := by
  simp only [expiredIds, List.mem_map, List.mem_filter]
  constructor
  · rintro ⟨row, ⟨hmem, hexp⟩, rfl⟩
    exact ⟨row, t.get?_of_mem hmem, hexp⟩
  · rintro ⟨row, hget, hexp⟩
    exact ⟨row, ⟨KeyedList.mem_of_get? hget, hexp⟩, KeyedList.key_of_get? hget⟩

/-- What an event does. -/
inductive Fleet.Effect (cfg : FleetConfig) (f : Fleet) : Instant × Action → Fleet → Prop
  | idle {e : Instant × Action} {s' : SqliteRunStore} (hrec : s'.records = f.store.records)
      (htask : (∀ i l, e.2 ≠ .worker i l) ∧ ∀ i l, e.2 ≠ .resumer i l) :
      Effect cfg f e { f with store := s' }
  | creates {now : Instant} {q : RunRequest} {s' : SqliteRunStore} (hnew : f.record q.runId = none)
      (hcap : 0 < cfg.workspaceMaxOutstanding → q.workspaceId ≠ localWorkspace →
        (f.store.countActiveRunsForWorkspace q.workspaceId : Int) < cfg.workspaceMaxOutstanding)
      (hrec : s'.records = f.store.records.put ((q.record cfg now).stamped now)) :
      Effect cfg f (now, .create q) { f with store := s' }
  | claims {now : Instant} {ownerId : String} {lease : Duration} {lanes : Option (List String)}
      {fairness : Bool} {workspaceConcurrency : Int} {run : RunRecord} {s' : SqliteRunStore}
      (hget : f.record run.runId = some run) (hqueued : run.status = .queued)
      (hrec : s'.records
        = f.store.records.put (run.claimedBy ownerId (isoPlusSeconds now lease) now)) :
      Effect cfg f (now, .claim ownerId lease lanes fairness workspaceConcurrency)
        { f with
          store := s',
          workers := f.workers.map (Worker.noteClaim run.runId ownerId) ++
            [Worker.start ownerId lease (run.claimedBy ownerId (isoPlusSeconds now lease) now) now] }
  | worker {now : Instant} {i : Nat} {l : WorkerStep} {w w' : Worker} {s' : SqliteRunStore}
      (hw : f.workers[i]? = some w) (heff : w.Effect f.store.records now l s'.records w') :
      Effect cfg f (now, .worker i l) { f with store := s', workers := f.workers.set i w' }
  | reaps {now : Instant} {lanes : Option (List String)} {s' : SqliteRunStore}
      (hrec : s'.records = f.store.records.requeueExpired now lanes) :
      Effect cfg f (now, .reap lanes)
        { f with
          store := s',
          workers := f.workers.map (Worker.noteReap (f.store.records.expiredIds now lanes)),
          reaps := f.reaps ++ f.store.records.expiredIds now lanes }
  | redrives {now : Instant} {runId : String} {workspaceId : Option String} {row : RunRecord}
      {s' : SqliteRunStore} (hget : f.record runId = some row)
      (hredrivable : row.redrivable workspaceId = true)
      (hrec : s'.records = f.store.records.put (row.redriven now)) :
      Effect cfg f (now, .redrive runId workspaceId) { f with store := s' }
  | loads {now : Instant} {runId actor : String} {approved : Bool} {workspaceId : Option String}
      {run : RunRecord} {target : ResumeTarget} (hget : f.record run.runId = some run)
      (hawaiting : run.status = .awaitingApproval)
      (hload : resumeLoad cfg.resume f.store runId workspaceId = .ok (run, target)) :
      Effect cfg f (now, .resume runId approved workspaceId actor)
        { f with resumes := f.resumes ++ [{ run, approved, actor, target }] }
  | resumer {now : Instant} {i : Nat} {l : ResumeStep} {ρ ρ' : Resume} {s' : SqliteRunStore}
      (hρ : f.resumes[i]? = some ρ)
      (heff : ρ.Effect cfg.resume f.store.records now l s'.records ρ') :
      Effect cfg f (now, .resumer i l) { f with store := s', resumes := f.resumes.set i ρ' }

/-- Every task of the fleet is on a stored run. -/
structure Fleet.Coherent (f : Fleet) : Prop where
  workers : ∀ w ∈ f.workers, w.Coherent f.store.records
  resumes : ∀ ρ ∈ f.resumes, ρ.Coherent f.store.records

theorem createRun_cases (cfg : FleetConfig) (s : SqliteRunStore) (run : RunRecord) (now : Instant) :
    (createRun cfg s run now).1.records = s.records
    ∨ ((createRun cfg s run now).1.records = s.records.put (run.stamped now)
      ∧ (0 < cfg.workspaceMaxOutstanding → run.workspaceId ≠ localWorkspace →
        (s.countActiveRunsForWorkspace run.workspaceId : Int) < cfg.workspaceMaxOutstanding)) := by
  unfold createRun
  split
  · next hcap =>
      rcases s.saveRunIfUnderQuota_cases run hcap.1 now with
        ⟨existing, h, -⟩ | h | ⟨h, -⟩ | ⟨s', h, hrec, hlt⟩
      · rw [h]; exact Or.inl rfl
      · rw [h]; exact Or.inl rfl
      · rw [h]; exact Or.inl rfl
      · rw [h]; exact Or.inr ⟨hrec, fun _ _ => hlt⟩
  · next hcap =>
      rcases s.saveRunIfAbsentByIdempotency_cases run now with
        ⟨existing, h⟩ | h | ⟨s', h, hrec⟩
      · rw [h]; exact Or.inl rfl
      · rw [h]; exact Or.inl rfl
      · rw [h]; exact Or.inr ⟨hrec, fun h₁ h₂ => absurd ⟨h₁, h₂⟩ hcap⟩

variable {e : Instant × Action} {cfg : FleetConfig} {f f' : Fleet}

theorem Fleet.effect_of_step
    (hf : f.Coherent) (h : (fleet cfg).step f e = some f') : f.Effect cfg e f' := by
  obtain ⟨now, a⟩ := e
  cases a with
  | create q =>
    simp only [fleet, Fleet.step] at h
    split at h <;> cases h
    next hnew =>
    have hnone : f.record q.runId = none := by
      rw [Fleet.record, ← f.store.getRun_eq]
      exact Option.not_isSome_iff_eq_none.1 hnew
    rcases createRun_cases cfg f.store (q.record cfg now) now with hrec | ⟨hrec, hcap⟩
    · exact .idle hrec ⟨by simp, by simp⟩
    · exact .creates hnone hcap hrec
  | claim ownerId lease lanes fairness workspaceConcurrency =>
    simp only [fleet, Fleet.step] at h
    rcases f.store.claimNextQueuedRun_cases ownerId lease lanes now fairness
      workspaceConcurrency with hidle | ⟨run, hget, hready, hans, hrec⟩
    · rw [hidle] at h; cases h; exact .idle rfl ⟨by simp, by simp⟩
    · rw [← Prod.mk.eta (p := f.store.claimNextQueuedRun ownerId lease lanes now fairness
        workspaceConcurrency), hans] at h
      cases h
      simp only [RunRecord.claimable, Bool.and_eq_true, decide_eq_true_eq] at hready
      exact .claims hget hready.1.1 hrec
  | worker i l =>
    simp only [fleet, Fleet.step, Option.bind_eq_some_iff, Option.map_eq_some_iff] at h
    obtain ⟨w, hw, ⟨s', w'⟩, hstep, rfl⟩ := h
    exact .worker hw (Worker.effect_of_step (hf.workers w (List.mem_of_getElem? hw)) hstep)
  | reap lanes =>
    simp only [fleet, Fleet.step] at h
    rw [← Prod.mk.eta (p := f.store.requeueExpiredLeases now lanes),
      f.store.requeueExpiredLeases_ids now lanes] at h
    cases h
    exact .reaps (f.store.requeueExpiredLeases_records now lanes)
  | redrive runId workspaceId =>
    simp only [fleet, Fleet.step] at h
    cases h
    have hredrive := f.store.redriveRun_records runId workspaceId now
    rcases KeyedList.updateIf_cases hredrive with ⟨-, row, hget, hp, hrec⟩ | ⟨-, hrec⟩
    · exact .redrives hget hp hrec
    · exact .idle hrec ⟨by simp, by simp⟩
  | resume runId approved workspaceId actor =>
    simp only [fleet, Fleet.step] at h
    split at h <;> cases h
    · next run target hload =>
        obtain ⟨hget, -, hawaiting, -, -⟩ := resumeLoad_eq_ok.1 hload
        exact .loads (by rw [KeyedList.key_of_get? hget]; exact hget) hawaiting hload
    · exact .idle rfl ⟨by simp, by simp⟩
  | resumer i l =>
    simp only [fleet, Fleet.step, Option.bind_eq_some_iff, Option.map_eq_some_iff] at h
    obtain ⟨ρ, hρ, ⟨s', ρ'⟩, hstep, rfl⟩ := h
    exact .resumer hρ (Resume.effect_of_step (hf.resumes ρ (List.mem_of_getElem? hρ)) hstep)

theorem Fleet.Effect.persists
    (hf : f.Coherent) (h : f.Effect cfg e f') : f.store.records.Persists f'.store.records := by
  cases h with
  | idle hrec _ => rw [hrec]; exact RunTable.Persists.refl _
  | creates hnew _ hrec => rw [hrec]; exact RunTable.Persists.put_of_none hnew
  | claims hget _ hrec =>
    rw [hrec]; exact RunTable.Persists.put hget ⟨rfl, rfl, rfl, rfl⟩
  | worker hw heff => exact heff.persists (hf.workers _ (List.mem_of_getElem? hw))
  | reaps hrec => rw [hrec]; exact RunTable.Persists.requeueExpired _ _ _
  | @redrives now _ _ row _ hget _ hrec =>
    rw [hrec]
    have hget' : f.store.records.get? (row.redriven now).runId = some row := by
      rw [RunRecord.runId_redriven, KeyedList.key_of_get? hget]; exact hget
    exact RunTable.Persists.put hget' ⟨rfl, rfl, rfl, rfl⟩
  | loads => exact RunTable.Persists.refl _
  | resumer hρ heff => exact heff.persists (hf.resumes _ (List.mem_of_getElem? hρ))

theorem Worker.Coherent.note {t : RunTable} {w : Worker} (h : w.Coherent t)
    (reaped superseded : Bool) : Worker.Coherent t { w with reaped, superseded } := ⟨h.held, h.deciding⟩

theorem Worker.noteReap_eq (runIds : List String) (w : Worker) :
    ∃ reaped, w.noteReap runIds = { w with reaped } := by
  unfold noteReap; split <;> exact ⟨_, rfl⟩

theorem Worker.noteClaim_eq (runId ownerId : String) (w : Worker) :
    ∃ superseded, w.noteClaim runId ownerId = { w with superseded } := by
  unfold noteClaim; split <;> exact ⟨_, rfl⟩

theorem Fleet.Effect.coherent
    (hf : f.Coherent) (h : f.Effect cfg e f') : f'.Coherent := by
  have hpersists := h.persists hf
  have hworkers := fun w hw => (hf.workers w hw).mono hpersists
  have hresumes := fun ρ hρ => (hf.resumes ρ hρ).mono hpersists
  cases h with
  | idle => exact ⟨hworkers, hresumes⟩
  | creates => exact ⟨hworkers, hresumes⟩
  | redrives => exact ⟨hworkers, hresumes⟩
  | claims hget _ hrec =>
    refine ⟨fun w hw => ?_, hresumes⟩
    rcases List.mem_append.1 hw with hw | hw
    · obtain ⟨w₀, hw₀, rfl⟩ := List.mem_map.1 hw
      obtain ⟨superseded, heq⟩ := w₀.noteClaim_eq _ _
      rw [heq]
      exact (hworkers w₀ hw₀).note _ _
    · rw [List.mem_singleton] at hw
      subst hw
      refine ⟨⟨_, ?_, SameRun.refl _⟩, fun run hrun => by cases hrun⟩
      dsimp only
      rw [hrec]
      exact KeyedList.get?_put_self _ _
  | worker hw heff =>
    refine ⟨fun w hw' => ?_, hresumes⟩
    rcases List.mem_or_eq_of_mem_set hw' with hmem | rfl
    · exact hworkers w hmem
    · exact heff.coherent (hf.workers _ (List.mem_of_getElem? hw))
  | reaps =>
    refine ⟨fun w hw => ?_, hresumes⟩
    obtain ⟨w₀, hw₀, rfl⟩ := List.mem_map.1 hw
    obtain ⟨reaped, heq⟩ := w₀.noteReap_eq _
    rw [heq]
    exact (hworkers w₀ hw₀).note _ _
  | loads hget =>
    refine ⟨hworkers, fun ρ hρ => ?_⟩
    rcases List.mem_append.1 hρ with hρ | hρ
    · exact hresumes ρ hρ
    · rw [List.mem_singleton] at hρ
      subst hρ
      exact ⟨⟨_, hget, SameRun.refl _⟩, fun run hrun => by cases hrun⟩
  | resumer hρ heff =>
    refine ⟨hworkers, fun ρ hρ' => ?_⟩
    rcases List.mem_or_eq_of_mem_set hρ' with hmem | rfl
    · exact hresumes ρ hmem
    · exact heff.coherent (hf.resumes _ (List.mem_of_getElem? hρ))

theorem Fleet.coherent_empty : ({} : Fleet).Coherent :=
  ⟨fun _ h => absurd h List.not_mem_nil, fun _ h => absurd h List.not_mem_nil⟩

end Himmy
