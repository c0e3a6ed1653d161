import Himmy.Application.FleetEffects

/-! # Lease fencing

Once a worker's lease on a run was reaped and the run was claimed by another owner, the worker's
writes should leave the stored row to the new owner. The worker's writes are unconditional upserts,
so this rests on their timing: `leaseFenced_of_current` shows that it holds in every run in which a
worker only writes while the stored attempt is still the one of its own claim. Attempts never fall
while nobody redrives a run, and every claim raises the attempt, so the attempt number is a fencing
token that the store could check and does not. -/

namespace Himmy

/-- The fields of a row that belong to its owner. -/
structure OwnedFields where
  status : RunStatus
  outputText : Option String
  error : Option String
  ownerId : Option String
  leaseExpiresAt : Option Instant
  attempt : Int
deriving DecidableEq

def RunRecord.owned (run : RunRecord) : OwnedFields :=
  { status := run.status, outputText := run.outputText, error := run.error, ownerId := run.ownerId,
    leaseExpiresAt := run.leaseExpiresAt, attempt := run.attempt }

/-- The events of the leased queue: creates, claims, reaps, and the steps of the workers. -/
def Action.ofQueue : Action → Bool
  | .create _ => true
  | .claim .. => true
  | .worker .. => true
  | .reap _ => true
  | _ => false

/-- No step of a superseded worker changes the row of its run, a renewal under the name of the row's
    own owner apart. -/
def LeaseFenced (cfg : FleetConfig) (es : List (Instant × Action)) : Prop :=
  ∀ pre now i l post f f' w, es = pre ++ (now, .worker i l) :: post →
    (fleet cfg).exec {} pre = some f → (fleet cfg).step f (now, .worker i l) = some f' →
    f.workers[i]? = some w → w.superseded = true →
    (l = .heartbeat → (f.record w.run.runId).bind RunRecord.ownerId ≠ some w.ownerId) →
    (f'.record w.run.runId).map RunRecord.owned = (f.record w.run.runId).map RunRecord.owned

/-- A worker that saves a record finds the stored attempt to be the one of its own claim. -/
def WritesCurrent (f : Fleet) (e : Instant × Action) : Prop :=
  match e.2 with
  | .worker i l => ∀ w ∈ f.workers[i]?, w.saves l = true →
      ∀ row ∈ f.record w.run.runId, row.attempt = w.token
  | _ => True

instance (f : Fleet) : ∀ e : Instant × Action, Decidable (WritesCurrent f e)
  | (_, .worker ..) => by unfold WritesCurrent; infer_instance
  | (_, .create _) | (_, .claim ..) | (_, .reap _)
  | (_, .redrive ..) | (_, .resume ..) | (_, .resumer ..) => .isTrue trivial

/-! ## Attempts only grow -/

/-- No run of `t` has fewer attempts in `t'`. -/
def RunTable.Climbs (t t' : RunTable) : Prop :=
  ∀ runId row row', t.get? runId = some row → t'.get? runId = some row' → row.attempt ≤ row'.attempt

namespace RunTable

theorem Climbs.refl (t : RunTable) : t.Climbs t := by
  intro runId row row' h h'
  rw [h] at h'; cases h'; exact le_refl _

theorem Climbs.put {t : RunTable} {rec : RunRecord}
    (h : ∀ row, t.get? rec.runId = some row → row.attempt ≤ rec.attempt) : t.Climbs (t.put rec) := by
  intro runId row row' hget hget'
  rw [KeyedList.get?_put] at hget'
  split at hget'
  · next hid => cases hget'; exact h row (hid ▸ hget)
  · rw [hget] at hget'; cases hget'; exact le_refl _

theorem Climbs.requeueExpired (t : RunTable) (now : Instant) (lanes : Option (List String)) :
    t.Climbs (t.requeueExpired now lanes) := by
  intro runId row row' hget hget'
  rw [get?_requeueExpired, hget] at hget'
  cases hget'
  dsimp only
  split <;> exact le_refl _

end RunTable

/-- The attempts a worker knows of: its claim's, its record's, and the stored one, in that order. -/
structure Worker.Numbered (t : RunTable) (w : Worker) : Prop where
  token_le : w.token ≤ w.run.attempt
  held_le : ∀ row, t.get? w.run.runId = some row → w.run.attempt ≤ row.attempt
  deciding_le : ∀ run, w.stage = .deciding run → w.token ≤ run.attempt
    ∧ ∀ row, t.get? w.run.runId = some row → run.attempt ≤ row.attempt
  superseded_lt : w.superseded = true →
    ∀ row, t.get? w.run.runId = some row → w.token < row.attempt

namespace Worker

theorem Numbered.mono {t t' : RunTable} {w : Worker} (h : w.Numbered t) (hw : w.Coherent t)
    (hclimbs : t.Climbs t') : w.Numbered t' := by
  obtain ⟨row, hget, -⟩ := hw.held
  have hle : ∀ row', t'.get? w.run.runId = some row' → row.attempt ≤ row'.attempt :=
    fun row' hget' => hclimbs _ _ _ hget hget'
  refine ⟨h.token_le, fun row' hget' => (h.held_le row hget).trans (hle row' hget'), ?_, ?_⟩
  · intro run hrun
    obtain ⟨htoken, hrow⟩ := h.deciding_le run hrun
    exact ⟨htoken, fun row' hget' => (hrow row hget).trans (hle row' hget')⟩
  · intro hsuper row' hget'
    exact (h.superseded_lt hsuper row hget).trans_le (hle row' hget')

theorem Effect.numbered {t t' : RunTable} {now : Instant} {w w' : Worker} {l : WorkerStep}
    (heff : w.Effect t now l t' w') (hw : w.Coherent t) (h : w.Numbered t)
    (hcurrent : w.saves l = true → ∀ row, t.get? w.run.runId = some row → row.attempt = w.token) :
    t.Climbs t' ∧ w'.Numbered t' := by
  obtain ⟨row, hget, hrow⟩ := hw.held
  have hheld := h.held_le row hget
  have htoken := h.token_le
  -- a record saved over the row carries the row's attempt
  have hsaved : ∀ rec : RunRecord, rec.runId = w.run.runId → rec.attempt = row.attempt →
      t.Climbs (t.put rec) := fun rec hid hattempt => RunTable.Climbs.put (fun row' hget' => by
    rw [hid, hget] at hget'; cases hget'; omega)
  cases heff with
  | @renews row' _ hget' _ =>
    rw [hget] at hget'; cases hget'
    have hclimbs := hsaved (row.renewed (isoPlusSeconds now w.lease) now) hrow.runId rfl
    have hnumbered := h.mono hw hclimbs
    exact ⟨hclimbs, ⟨hnumbered.1, hnumbered.2, hnumbered.3, hnumbered.4⟩⟩
  | stopsBeating => exact ⟨RunTable.Climbs.refl t, ⟨h.1, h.2, h.3, h.4⟩⟩
  | waits | passes | gives | crashes =>
    exact ⟨RunTable.Climbs.refl t, ⟨h.1, h.2, fun run hrun => (by cases hrun), h.4⟩⟩
  | rereads _ hget' =>
    rw [hget] at hget'; cases hget'
    refine ⟨RunTable.Climbs.refl t, ⟨htoken.trans hheld, fun row' hget' => ?_,
      fun run hrun => (by cases hrun), fun hsuper row' hget' => h.4 hsuper row' ?_⟩⟩
    · dsimp only at hget'
      rw [hrow.runId, hget] at hget'; cases hget'; exact le_refl _
    · dsimp only at hget'
      rw [← hrow.runId]; exact hget'
  | reads _ hget' =>
    rw [hget] at hget'; cases hget'
    refine ⟨RunTable.Climbs.refl t, ⟨h.1, h.2, fun run hrun => ?_, h.4⟩⟩
    cases hrun
    exact ⟨htoken.trans hheld, fun row' hget' => by
      rw [hget] at hget'; cases hget'; exact le_refl _⟩
  | @fails _ error next hstage hnext hsaves hl =>
    have hrowt := hcurrent hsaves row hget
    have hclimbs := hsaved ((w.run.rehydrationFailed error now).stamped now) rfl
      (show w.run.attempt = row.attempt by omega)
    have hnumbered := h.mono hw hclimbs
    refine ⟨hclimbs, ⟨hnumbered.1, hnumbered.2, fun run hrun => ?_, hnumbered.4⟩⟩
    rcases hnext with rfl | rfl <;> cases hrun
  | marks =>
    have hrowt := hcurrent rfl row hget
    have hclimbs := hsaved ((w.run.markedRunning now).stamped now) rfl
      (show w.run.attempt = row.attempt by omega)
    have hnumbered := h.mono hw hclimbs
    exact ⟨hclimbs, ⟨hnumbered.1, hnumbered.2, fun run hrun => (by cases hrun), hnumbered.4⟩⟩
  | @finishes outcome next hstage hnext =>
    have hrowt := hcurrent rfl row hget
    have hclaim := (SameClaim.stamped (outcome.apply .dispatch w.run now) now).trans
      (SameClaim.apply .dispatch outcome w.run now)
    have hclimbs := hsaved ((outcome.apply .dispatch w.run now).stamped now) hclaim.runId
      (by have := hclaim.attempt; omega)
    have hnumbered := h.mono hw hclimbs
    refine ⟨hclimbs, ⟨hclaim.attempt.symm ▸ hnumbered.1, ?_, fun run hrun => ?_, ?_⟩⟩
    · dsimp only
      rw [hclaim.runId, hclaim.attempt]
      exact hnumbered.2
    · rcases hnext with rfl | ⟨-, rfl⟩ <;> cases hrun
    · dsimp only
      rw [hclaim.runId]
      exact hnumbered.4
  | @retries run saved hstage hsave =>
    have hrowt := hcurrent rfl row hget
    obtain ⟨hrunt, hrunrow⟩ := h.deciding_le run hstage
    have hrunle := hrunrow row hget
    have hattempt : saved.attempt = run.attempt := by
      obtain ⟨-, -, ⟨-, rfl⟩ | rfl⟩ := applyRetryPolicy_cases hsave <;> rfl
    have hid : saved.runId = w.run.runId :=
      ((SameRun.of_applyRetryPolicy hsave).trans (hw.deciding run hstage)).runId
    have hclimbs := hsaved (saved.stamped now) hid
      (show saved.attempt = row.attempt by omega)
    have hnumbered := h.mono hw hclimbs
    exact ⟨hclimbs, ⟨hnumbered.1, hnumbered.2, fun run hrun => (by cases hrun), hnumbered.4⟩⟩

end Worker

/-! ## The result -/

/-- The invariant of the runs whose saves are all current. -/
structure Fleet.Fenced (f : Fleet) : Prop where
  coherent : f.Coherent
  numbered : ∀ w ∈ f.workers, w.Numbered f.store.records

theorem Fleet.Fenced.step {cfg : FleetConfig} {f f' : Fleet} {e : Instant × Action}
    (h : f.Fenced) (hqueue : e.2.ofQueue = true) (hcurrent : WritesCurrent f e)
    (hstep : (fleet cfg).step f e = some f') : f'.Fenced := by
  have heff := Fleet.effect_of_step h.coherent hstep
  refine ⟨heff.coherent h.coherent, ?_⟩
  have hold : f.store.records.Climbs f'.store.records →
      ∀ w ∈ f.workers, w.Numbered f'.store.records :=
    fun hclimbs w hw => (h.numbered w hw).mono (h.coherent.workers w hw) hclimbs
  cases heff with
  | idle hrec _ => exact hold (by rw [hrec]; exact RunTable.Climbs.refl _)
  | creates hnew _ hrec =>
    refine hold ?_
    rw [hrec]
    refine RunTable.Climbs.put (fun row hget => ?_)
    cases hnew.symm.trans hget
  | @claims now ownerId lease _ _ _ run s' hget hqueued hrec =>
    have hclimbs : f.store.records.Climbs s'.records := by
      rw [hrec]
      refine RunTable.Climbs.put (fun row hget' => ?_)
      rw [RunRecord.runId_claimedBy] at hget'
      have : some run = some row := hget.symm.trans hget'
      cases this
      show run.attempt ≤ run.attempt + 1
      omega
    have hget' : s'.records.get? run.runId
        = some (run.claimedBy ownerId (isoPlusSeconds now lease) now) := by
      rw [hrec]; exact KeyedList.get?_put_self _ _
    intro w hw
    rcases List.mem_append.1 hw with hw | hw
    · obtain ⟨w₀, hw₀, rfl⟩ := List.mem_map.1 hw
      have hnumbered := hold hclimbs w₀ hw₀
      unfold Worker.noteClaim
      split
      · next hnote =>
          refine ⟨hnumbered.1, hnumbered.2, hnumbered.3, fun _ row hrow => ?_⟩
          -- the claim raised the attempt above the token of every earlier claim
          have hrow' : s'.records.get? w₀.run.runId = some row := hrow
          rw [hnote.1, hget'] at hrow'
          cases hrow'
          have hbefore := h.numbered w₀ hw₀
          have hheld := hbefore.held_le run (by rw [hnote.1]; exact hget)
          have htoken := hbefore.token_le
          show w₀.token < run.attempt + 1
          omega
      · exact hnumbered
    · rw [List.mem_singleton] at hw
      subst hw
      refine ⟨le_refl _, fun row hrow => ?_, fun _ hrun => (by cases hrun),
        fun hsuper => by cases hsuper⟩
      have hrow' : s'.records.get? run.runId = some row := hrow
      rw [hget'] at hrow'
      cases hrow'
      exact le_refl _
  | @worker now i l w w' s' hw heff =>
    have hmem := List.mem_of_getElem? hw
    obtain ⟨hclimbs, hnumbered⟩ := heff.numbered (h.coherent.workers w hmem) (h.numbered w hmem)
      (fun hsaves row hget => hcurrent w hw hsaves row hget)
    intro v hv
    rcases List.mem_or_eq_of_mem_set hv with hv | rfl
    · exact hold hclimbs v hv
    · exact hnumbered
  | reaps hrec =>
    have hclimbs := RunTable.Climbs.requeueExpired f.store.records ‹Instant› ‹Option (List String)›
    rw [← hrec] at hclimbs
    intro w hw
    obtain ⟨w₀, hw₀, rfl⟩ := List.mem_map.1 hw
    obtain ⟨reaped, heq⟩ := w₀.noteReap_eq _
    rw [heq]
    have hnumbered := hold hclimbs w₀ hw₀
    exact ⟨hnumbered.1, hnumbered.2, hnumbered.3, hnumbered.4⟩
  | redrives => cases hqueue
  | loads => cases hqueue
  | resumer => cases hqueue

/-- **Lease fencing.** In every run of the leased queue whose workers only save while the stored
    attempt is the one of their claim, a superseded worker changes nothing. -/
theorem leaseFenced_of_current {cfg : FleetConfig} {es : List (Instant × Action)}
    (hqueue : ∀ e ∈ es, e.2.ofQueue = true) (hcurrent : (fleet cfg).AlongRun WritesCurrent {} es) :
    LeaseFenced cfg es := by
  intro pre now i l post f f' w hes hrun hstep hw hsuper hbeat
  subst hes
  have hstart : ({} : Fleet).Fenced := ⟨Fleet.coherent_empty, fun w hw => absurd hw List.not_mem_nil⟩
  obtain ⟨hf, -, hcur⟩ := (fleet cfg).at_step
    (fun _ _ _ h hC hs => Fleet.Fenced.step h hC.1 hC.2 hs) hstart
    ((LTS.AlongRun.of_forall _ _ hqueue).and hcurrent) hrun
  have hmem := List.mem_of_getElem? hw
  obtain ⟨row, hget, -⟩ := (hf.coherent.workers w hmem).held
  have hlt := (hf.numbered w hmem).superseded_lt hsuper row hget
  have hsaves : w.saves l = false := by
    by_contra hsaves
    have := hcur w hw (by simpa using hsaves) row hget
    omega
  have heff := Fleet.effect_of_step hf.coherent hstep
  cases heff with
  | idle _ htask => exact absurd rfl (htask.1 i l)
  | worker hw' heff =>
    rw [hw] at hw'; cases hw'
    have htable := heff.table_of_not_saves hsaves (fun hl row hget hown => by
      have hne := hbeat hl
      rw [Fleet.record, hget] at hne
      exact hne hown)
    simp only [Fleet.record, htable]

/-- A run is created and claimed, and its worker starts to drive it. -/
private def drivenBy (ownerId : String) (claimedAt : Instant) (i : Nat) : List (Instant × Action) :=
  [(claimedAt, .claim ownerId 10 none false 0), (claimedAt, .worker i (.rehydrate none)),
    (claimedAt, .worker i .markRunning)]

private def createdRun : Instant × Action :=
  (0, .create { runId := "r", workspaceId := "w", subjectId := "s", inputBlob := some "input" })

/-- A worker loses its lease, a second owner claims the run and drives it to its end, and the first
    worker stops. -/
theorem leaseFenced_of_current_secondOwner :
    LeaseFenced {} ([createdRun] ++ drivenBy "a" 1 0 ++ [(20, .reap none)] ++ drivenBy "b" 21 1
      ++ [(22, .worker 1 (.finish (.succeeded { threadId := "t" }))), (23, .worker 0 .crash)]) :=
  leaseFenced_of_current (by decide) (by decide)

/-- The second owner claims the run while the first worker still drives it. -/
private def overtaking : List (Instant × Action) :=
  [createdRun] ++ drivenBy "a" 1 0 ++ [(20, .reap none), (21, .claim "b" 10 none false 0)]

private def overtaken : Fleet := ((fleet {}).exec {} overtaking).getD {}

private def overwriting : Instant × Action := (22, .worker 0 (.finish (.timedOut 300)))

private def overwritten : Fleet := ((fleet {}).step overtaken overwriting).getD {}

/-- The first worker times out after the second owner claimed the run, and overwrites its row. -/
theorem not_leaseFenced : ∃ es, (∀ e ∈ es, Action.ofQueue e.2 = true) ∧ ¬ LeaseFenced {} es := by
  refine ⟨overtaking ++ [overwriting], by decide, fun h => ?_⟩
  have hkept := h overtaking 22 0 (.finish (.timedOut 300)) [] overtaken overwritten
    (overtaken.workers.head (by decide)) rfl rfl rfl rfl (by rfl) (fun hl => by cases hl)
  revert hkept
  decide

end Himmy
