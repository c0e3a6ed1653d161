import Himmy.Storage.Sqlite

/-! # The SQLite store as a table of records

`SqliteRunStore.records` is the table of records that the payload column holds. Because the columns
are in step with the payload, every statement selects rows as if on the records themselves, so each
operation of the store has a specification on `records` alone: a guarded edit of one record
(`KeyedList.updateIf`), a `put`, or the reaper's rewrite of every expired record. Later modules use
these specifications and never the rows. -/

namespace Himmy

/-! ## The guards, on records -/

namespace RunRecord

variable (run : RunRecord)

/-- The guard of `claim_run_for_resume`. -/
def resumable (workspaceId : String) : Bool :=
  run.workspaceId = workspaceId && run.status = .awaitingApproval

/-- The guard of `renew_lease`. -/
def leasedTo (ownerId : String) : Bool :=
  run.ownerId = some ownerId && run.status = .running

/-- What the SQL claim requires of a record: `QUEUED`, due, and in one of the lanes. -/
def claimable (now : Instant) (lanes : Option (List String)) : Bool :=
  run.status = .queued && run.dueAt ≤ now && run.inLanes lanes

@[simp] theorem runId_stamped (now : Instant) : (run.stamped now).runId = run.runId := rfl

@[simp] theorem runId_claimedBy (o : String) (u now : Instant) :
    (run.claimedBy o u now).runId = run.runId := rfl

@[simp] theorem runId_renewed (u now : Instant) : (run.renewed u now).runId = run.runId := rfl

@[simp] theorem runId_requeued (now : Instant) : (run.requeued now).runId = run.runId := rfl

@[simp] theorem runId_redriven (now : Instant) : (run.redriven now).runId = run.runId := rfl

@[simp] theorem runId_resolving (now : Instant) : (run.resolving now).runId = run.runId := rfl

end RunRecord

namespace RunTable

def requeueExpired (t : RunTable) (now : Instant) (lanes : Option (List String)) : RunTable :=
  t.modify (fun r => if r.leaseExpired now lanes then r.requeued now else r)
    (RunRecord.runId_requeuedIf now lanes)

theorem get?_requeueExpired (t : RunTable) (now : Instant) (lanes : Option (List String))
    (runId : String) : (t.requeueExpired now lanes).get? runId
      = (t.get? runId).map (fun r => if r.leaseExpired now lanes then r.requeued now else r) :=
  t.get?_modify _ _ _

theorem requeueExpired_of_none (t : RunTable) (now : Instant) (lanes : Option (List String))
    (h : ∀ r ∈ t.items, r.leaseExpired now lanes = false) : t.requeueExpired now lanes = t := by
  apply KeyedList.ext
  rw [requeueExpired, KeyedList.items_modify]
  exact (List.map_congr_left (fun r hr => by simp [h r hr])).trans (List.map_id _)

end RunTable

namespace SqliteRunStore

def records (s : SqliteRunStore) : RunTable :=
  s.rows.map RunRow.payload (fun row h => (s.inStep row h).runId.symm)

@[simp] theorem records_empty : empty.records = KeyedList.empty := rfl

theorem items_records (s : SqliteRunStore) :
    s.records.items = s.rows.items.map RunRow.payload := rfl

theorem getRun_eq (s : SqliteRunStore) (runId : String) : s.getRun runId = s.records.get? runId :=
  (s.rows.get?_map _ _ _).symm

theorem get?_records_of_mem {s : SqliteRunStore} {row : RunRow} (h : row ∈ s.rows.items) :
    s.records.get? row.runId = some row.payload := by
  rw [(s.inStep row h).runId]
  exact s.records.get?_of_mem (List.mem_map_of_mem h)

theorem countActiveRunsForWorkspace_eq (s : SqliteRunStore) (workspaceId : String) :
    s.countActiveRunsForWorkspace workspaceId
      = s.records.items.countP (fun r => r.workspaceId = workspaceId && r.isActive) := by
  rw [items_records, List.countP_map]
  refine List.countP_congr (fun row h => ?_)
  have hstep := s.inStep row h
  simp [hstep.workspaceId, hstep.status, RunRecord.isActive]

theorem mem_listRuns {s : SqliteRunStore} {status : Option RunStatus} {run : RunRecord} :
    run ∈ s.listRuns none none status
      ↔ s.records.get? run.runId = some run ∧ status.all (· = run.status) = true := by
  simp only [listRuns, List.mem_map, List.mem_insertionSort, List.mem_filter, Option.all_none,
    Bool.true_and]
  constructor
  · rintro ⟨row, ⟨hmem, hstatus⟩, rfl⟩
    rw [(s.inStep row hmem).status] at hstatus
    exact ⟨s.records.get?_of_mem (List.mem_map_of_mem hmem), hstatus⟩
  · rintro ⟨hget, hstatus⟩
    obtain ⟨row, hmem, rfl⟩ := List.mem_map.1 (KeyedList.mem_of_get? hget)
    exact ⟨row, ⟨hmem, by rw [(s.inStep row hmem).status]; exact hstatus⟩, rfl⟩

theorem nodup_listRuns (s : SqliteRunStore) (status : Option RunStatus) :
    ((s.listRuns none none status).map RunRecord.runId).Nodup := by
  unfold listRuns
  refine (((List.perm_insertionSort _ _).map _).map _).nodup_iff.2 ?_
  refine List.Nodup.sublist ((List.filter_sublist.map _).map _) ?_
  exact s.records.nodup_keys

/-! ## Upserts -/

theorem upsert_records {s s' : SqliteRunStore} {run : RunRecord} (h : s.upsert run = some s') :
    s'.records = s.records.put run := by
  unfold upsert at h
  split at h
  · simp at h
  · cases h
    apply KeyedList.ext
    have hpay := s.upsertRow_payload run
    have hid := s.upsertRow_runId run
    cases hrow : s.rows.get? run.runId with
    | none =>
      have hnone : s.records.get? run.runId = none := by
        rw [← getRun_eq, getRun, hrow]; rfl
      rw [KeyedList.items_put_of_none _ _ hnone]
      simp only [items_records]
      rw [KeyedList.items_put_of_none _ _ (by rw [hid]; exact hrow), List.map_append]
      simp [hpay]
    | some old =>
      have hsome : s.records.get? run.runId = some old.payload := by
        rw [← getRun_eq, getRun, hrow]; rfl
      rw [KeyedList.items_put_of_some _ _ _ hsome]
      simp only [items_records]
      rw [KeyedList.items_put_of_some _ _ _ (by rw [hid]; exact hrow), List.map_map,
        List.map_map]
      refine List.map_congr_left (fun row hmem => ?_)
      simp only [Function.comp_apply, hid, ← (s.inStep row hmem).runId]
      split
      · exact hpay
      · rfl

theorem saveRun_records {s s' : SqliteRunStore} {run : RunRecord} {now : Instant}
    (h : s.saveRun run now = some s') : s'.records = s.records.put (run.stamped now) :=
  upsert_records h

theorem upsert_isSome {s : SqliteRunStore} {run old : RunRecord}
    (h : s.records.get? run.runId = some old) (hws : old.workspaceId = run.workspaceId)
    (hkey : old.idempotencyKey = run.idempotencyKey) : ∃ s', s.upsert run = some s' := by
  have hfalse : s.violatesUnique run = false := by
    rw [Bool.eq_false_iff]
    intro hv
    simp only [violatesUnique, Bool.and_eq_true, List.any_eq_true] at hv
    obtain ⟨hsome, row, hrow, ⟨hne, hws'⟩, hkey'⟩ := hv
    simp only [decide_eq_true_eq] at hne hws' hkey'
    obtain ⟨row₀, hrow₀, hpay⟩ := List.mem_map.1 (KeyedList.mem_of_get? h)
    have hstep := s.inStep row₀ hrow₀
    have hid : row.runId = row₀.runId := by
      refine s.uniqueKeys row hrow row₀ hrow₀ ?_ ?_ ?_
      · rw [hws', hstep.workspaceId, hpay, hws]
      · rw [hkey', hstep.idempotencyKey, hpay, hkey]
      · rw [hkey']; exact Option.isSome_iff_ne_none.1 hsome
    rw [hid, hstep.runId, hpay, KeyedList.key_of_get? h] at hne
    exact hne rfl
  unfold upsert
  rw [dif_neg (by simp [hfalse])]
  exact ⟨_, rfl⟩

theorem saveRun_isSome {s : SqliteRunStore} {run old : RunRecord} (now : Instant)
    (h : s.records.get? run.runId = some old) (hws : old.workspaceId = run.workspaceId)
    (hkey : old.idempotencyKey = run.idempotencyKey) : ∃ s', s.saveRun run now = some s' :=
  upsert_isSome h hws hkey

/-! ## Conditional updates -/

variable (s : SqliteRunStore)

theorem update_records {cond : RunRow → Bool} {u : RowUpdate}
    {p : RunRecord → Bool} {f : RunRecord → RunRecord} (hf : ∀ r, (f r).runId = r.runId)
    (hcond : ∀ row ∈ s.rows.items, cond row = p row.payload)
    (hset : ∀ row ∈ s.rows.items, cond row = true → (u.set row).payload = f row.payload) :
    (s.update cond u).1.records
      = s.records.modify (fun r => if p r then f r else r) (fun r => by split <;> simp [hf]) := by
  apply KeyedList.ext
  simp only [items_records, update, KeyedList.items_modify, List.map_map]
  refine List.map_congr_left (fun row hmem => ?_)
  simp only [Function.comp_apply, ← hcond row hmem]
  split
  · next h => exact hset row hmem h
  · rfl

theorem update_where (cond : RunRow → Bool) (u : RowUpdate) (runId : String)
    (p : RunRecord → Bool) (f : RunRecord → RunRecord) (hf : ∀ r, (f r).runId = r.runId)
    (hcond : ∀ row ∈ s.rows.items, cond row = (decide (row.payload.runId = runId) && p row.payload))
    (hset : ∀ row ∈ s.rows.items, cond row = true → (u.set row).payload = f row.payload) :
    ((s.update cond u).1.records, decide ((s.update cond u).2 = 1))
      = s.records.updateIf runId p f := by
  rw [KeyedList.updateIf_eq_modify _ _ _ _ hf]
  refine Prod.ext ?_ ?_
  · exact s.update_records hf hcond hset
  · have hcount : (s.update cond u).2
        = s.records.items.countP (fun r => decide (r.runId = runId) && p r) := by
      rw [items_records, List.countP_map]
      exact List.countP_congr (fun row hmem => by simp [hcond row hmem])
    simp [hcount]

theorem claimRunForResume_records (runId workspaceId : String) (now : Instant) :
    ((s.claimRunForResume runId workspaceId now).1.records,
      (s.claimRunForResume runId workspaceId now).2)
      = s.records.updateIf runId (·.resumable workspaceId) (·.resolving now) := by
  refine s.update_where _ _ _ _ _ (fun _ => rfl) (fun row hmem => ?_) (fun _ _ _ => rfl)
  have hstep := s.inStep row hmem
  simp [RunRecord.resumable, hstep.runId, hstep.workspaceId, hstep.status, Bool.and_assoc]

theorem renewLease_records (runId ownerId : String) (lease : Duration) (now : Instant) :
    ((s.renewLease runId ownerId lease now).1.records, (s.renewLease runId ownerId lease now).2)
      = s.records.updateIf runId (·.leasedTo ownerId)
          (·.renewed (isoPlusSeconds now lease) now) := by
  refine s.update_where _ _ _ _ _ (fun _ => rfl) (fun row hmem => ?_) (fun _ _ _ => rfl)
  have hstep := s.inStep row hmem
  simp [RunRecord.leasedTo, hstep.runId, hstep.ownerId, hstep.status, Bool.and_assoc]

theorem redriveRun_records (runId : String) (workspaceId : Option String) (now : Instant) :
    ((s.redriveRun runId workspaceId now).1.records, (s.redriveRun runId workspaceId now).2)
      = s.records.updateIf runId (·.redrivable workspaceId) (·.redriven now) := by
  refine s.update_where _ _ _ _ _ (fun _ => rfl) (fun row hmem => ?_) (fun _ _ _ => rfl)
  have hstep := s.inStep row hmem
  simp [RunRecord.redrivable, hstep.runId, hstep.workspaceId, hstep.status, Bool.and_assoc]

/-! ## The reaper -/

theorem inLanes_eq {row : RunRow} (h : row.InStep) (lanes : Option (List String)) :
    row.inLanes lanes = row.payload.inLanes lanes := by
  cases lanes with
  | none => rfl
  | some lanes =>
    cases hlane : row.payload.laneKey with
    | none => simp [RunRow.inLanes, RunRecord.inLanes, h.laneKey, hlane]
    | some lane => simp [RunRow.inLanes, RunRecord.inLanes, h.laneKey, hlane]

theorem isExpired_eq {s : SqliteRunStore} {row : RunRow} (h : row ∈ s.rows.items) (now : Instant)
    (lanes : Option (List String)) :
    isExpired now lanes row = row.payload.leaseExpired now lanes := by
  have hstep := s.inStep row h
  unfold isExpired RunRecord.leaseExpired
  rw [hstep.status, hstep.leaseExpiresAt, inLanes_eq hstep]

theorem leaseExpired_no_lane (run : RunRecord) (now : Instant) :
    run.leaseExpired now (some []) = false := by
  unfold RunRecord.leaseExpired RunRecord.inLanes
  cases run.laneKey <;> simp

theorem requeueExpiredLeases_no_lane (s : SqliteRunStore) (now : Instant) :
    s.requeueExpiredLeases now (some []) = (s, []) := by
  simp [requeueExpiredLeases]

theorem requeueExpiredLeases_ids (s : SqliteRunStore) (now : Instant)
    (lanes : Option (List String)) : (s.requeueExpiredLeases now lanes).2
      = (s.records.items.filter (·.leaseExpired now lanes)).map RunRecord.runId := by
  have hids : (s.rows.items.filter (isExpired now lanes)).map RunRow.runId
      = (s.records.items.filter (·.leaseExpired now lanes)).map RunRecord.runId := by
    rw [items_records, List.filter_map, List.map_map]
    rw [List.filter_congr (fun row hmem => isExpired_eq hmem now lanes)]
    exact List.map_congr_left (fun row hmem => (s.inStep row (List.mem_of_mem_filter hmem)).runId)
  by_cases hlanes : lanes = some []
  · subst hlanes
    simp [requeueExpiredLeases_no_lane, leaseExpired_no_lane]
  unfold requeueExpiredLeases
  rw [if_neg hlanes]
  dsimp only
  split
  · next h => rw [← hids, h]
  · exact hids

theorem requeueExpiredLeases_records (s : SqliteRunStore) (now : Instant)
    (lanes : Option (List String)) :
    (s.requeueExpiredLeases now lanes).1.records = s.records.requeueExpired now lanes := by
  by_cases hlanes : lanes = some []
  · subst hlanes
    rw [requeueExpiredLeases_no_lane,
      RunTable.requeueExpired_of_none _ _ _ (fun r _ => leaseExpired_no_lane r now)]
  unfold requeueExpiredLeases
  rw [if_neg hlanes]
  dsimp only
  split
  · next h =>
      rw [RunTable.requeueExpired_of_none]
      intro r hr
      obtain ⟨row, hrow, rfl⟩ := List.mem_map.1 hr
      rw [← isExpired_eq hrow]
      rw [List.map_eq_nil_iff, List.filter_eq_nil_iff] at h
      simpa using h row hrow
  · exact s.update_records (u := setRequeued now) (f := fun r => r.requeued now) (fun _ => rfl)
      (fun row hmem => isExpired_eq hmem now lanes) (fun _ _ _ => rfl)

/-! ## The claim -/

theorem isReady_eq {s : SqliteRunStore} {row : RunRow} (h : row ∈ s.rows.items) (now : Instant)
    (lanes : Option (List String)) : isReady now lanes row = row.payload.claimable now lanes := by
  have hstep := s.inStep row h
  unfold isReady RunRecord.claimable
  rw [hstep.status, hstep.nextAttemptAt, inLanes_eq hstep]
  rfl

def claimTarget (s : SqliteRunStore) (lanes : Option (List String)) (now : Instant)
    (fairness : Bool) (workspaceConcurrency : Int) : Option RunRow :=
  if fairness then s.selectFairTarget lanes now workspaceConcurrency else s.selectTarget lanes now

theorem claimTarget_ready {s : SqliteRunStore} {lanes : Option (List String)} {now : Instant}
    {fairness : Bool} {workspaceConcurrency : Int} {row : RunRow}
    (h : s.claimTarget lanes now fairness workspaceConcurrency = some row) :
    row ∈ s.rows.items ∧ row.payload.claimable now lanes = true := by
  cases fairness with
  | true =>
    have h : s.selectFairTarget lanes now workspaceConcurrency = some row := h
    unfold selectFairTarget at h
    obtain ⟨hmem, hready⟩ := List.mem_filter.1 (List.argmin_mem h)
    rw [Bool.and_eq_true] at hready
    exact ⟨hmem, isReady_eq hmem now lanes ▸ hready.1⟩
  | false =>
    have h : s.selectTarget lanes now = some row := h
    unfold selectTarget at h
    obtain ⟨hmem, hready⟩ := List.mem_filter.1 (List.argmin_mem h)
    exact ⟨hmem, isReady_eq hmem now lanes ▸ hready⟩

variable (s : SqliteRunStore)

theorem claimNextQueuedRun_of_target (ownerId : String) (lease : Duration)
    {lanes : Option (List String)} {now : Instant} {fairness : Bool} {workspaceConcurrency : Int}
    {row : RunRow} (hlanes : lanes ≠ some [])
    (h : s.claimTarget lanes now fairness workspaceConcurrency = some row) :
    let claimed := row.payload.claimedBy ownerId (isoPlusSeconds now lease) now
    (s.claimNextQueuedRun ownerId lease lanes now fairness workspaceConcurrency).1.records
        = s.records.put claimed
      ∧ (s.claimNextQueuedRun ownerId lease lanes now fairness workspaceConcurrency).2
        = some claimed := by
  intro claimed
  obtain ⟨hmem, hready⟩ := claimTarget_ready h
  have hstep := s.inStep row hmem
  have hqueued : row.payload.status = .queued := by
    simp only [RunRecord.claimable, Bool.and_eq_true, decide_eq_true_eq] at hready
    exact hready.1.1
  have htarget : (if fairness = true then s.selectFairTarget lanes now workspaceConcurrency
      else s.selectTarget lanes now) = some row := h
  have hupd := s.update_where (fun r => decide (r.runId = row.runId) && decide (r.status = .queued))
    (setClaimed ownerId (isoPlusSeconds now lease) now (row.attempt + 1)) row.runId
    (fun r => decide (r.status = .queued))
    (fun r => r.claimedBy ownerId (isoPlusSeconds now lease) now) (fun _ => rfl)
    (fun r hr => by simp [(s.inStep r hr).runId, (s.inStep r hr).status])
    (fun r hr hc => by
      simp only [Bool.and_eq_true, decide_eq_true_eq] at hc
      have hrow : r = row := s.rows.eq_of_key_eq hr hmem hc.1
      simp [setClaimed, RunRecord.claimedBy, hrow, hstep.attempt])
  rw [s.records.updateIf_of_pos _ (get?_records_of_mem hmem) (by simp [hqueued])] at hupd
  unfold claimNextQueuedRun
  rw [if_neg hlanes]
  dsimp only
  rw [htarget]
  have hrecords := congrArg Prod.fst hupd
  dsimp only at hrecords ⊢
  refine ⟨hrecords, ?_⟩
  rw [getRun_eq, hrecords, hstep.runId]
  exact KeyedList.get?_put_self _ claimed

theorem claimNextQueuedRun_of_no_target (ownerId : String) (lease : Duration)
    {lanes : Option (List String)} {now : Instant} {fairness : Bool} {workspaceConcurrency : Int}
    (h : lanes = some [] ∨ s.claimTarget lanes now fairness workspaceConcurrency = none) :
    s.claimNextQueuedRun ownerId lease lanes now fairness workspaceConcurrency = (s, none) := by
  unfold claimNextQueuedRun
  split
  · rfl
  · next hlanes =>
      have htarget : (if fairness = true then s.selectFairTarget lanes now workspaceConcurrency
          else s.selectTarget lanes now) = none := h.resolve_left hlanes
      dsimp only
      rw [htarget]

theorem claimNextQueuedRun_cases (ownerId : String) (lease : Duration)
    (lanes : Option (List String)) (now : Instant) (fairness : Bool) (workspaceConcurrency : Int) :
    s.claimNextQueuedRun ownerId lease lanes now fairness workspaceConcurrency = (s, none)
    ∨ ∃ run, s.records.get? run.runId = some run ∧ run.claimable now lanes = true
      ∧ (s.claimNextQueuedRun ownerId lease lanes now fairness workspaceConcurrency).2
          = some (run.claimedBy ownerId (isoPlusSeconds now lease) now)
      ∧ (s.claimNextQueuedRun ownerId lease lanes now fairness workspaceConcurrency).1.records
          = s.records.put (run.claimedBy ownerId (isoPlusSeconds now lease) now) := by
  by_cases hlanes : lanes = some []
  · exact Or.inl (s.claimNextQueuedRun_of_no_target ownerId lease (Or.inl hlanes))
  cases htarget : s.claimTarget lanes now fairness workspaceConcurrency with
  | none => exact Or.inl (s.claimNextQueuedRun_of_no_target ownerId lease (Or.inr htarget))
  | some row =>
    obtain ⟨hmem, hready⟩ := claimTarget_ready htarget
    obtain ⟨hrec, hans⟩ := s.claimNextQueuedRun_of_target ownerId lease hlanes htarget
    have hget := get?_records_of_mem hmem
    rw [(s.inStep row hmem).runId] at hget
    exact Or.inr ⟨row.payload, hget, hready, hans, hrec⟩

/-! ## Creates -/

theorem saveRunIfAbsentByIdempotency_cases (run : RunRecord) (now : Instant) :
    (∃ existing, s.saveRunIfAbsentByIdempotency run now = some (s, existing, false))
    ∨ s.saveRunIfAbsentByIdempotency run now = none
    ∨ ∃ s', s.saveRunIfAbsentByIdempotency run now = some (s', run.stamped now, true)
        ∧ s'.records = s.records.put (run.stamped now) := by
  unfold saveRunIfAbsentByIdempotency
  split
  · next existing _ => exact Or.inl ⟨existing, rfl⟩
  · cases hu : s.upsert (run.stamped now) with
    | none => exact Or.inr (Or.inl rfl)
    | some s' => exact Or.inr (Or.inr ⟨s', rfl, upsert_records hu⟩)

theorem saveRunIfUnderQuota_cases (run : RunRecord) {cap : Int} (hcap : 0 < cap) (now : Instant) :
    (∃ existing, s.saveRunIfUnderQuota run cap now = some (s, existing, true)
      ∧ s.existingByIdempotency run = some existing) ∨ s.saveRunIfUnderQuota run cap now = none
    ∨ (s.saveRunIfUnderQuota run cap now = some (s, run.stamped now, false)
        ∧ cap ≤ s.countActiveRunsForWorkspace run.workspaceId)
    ∨ ∃ s', s.saveRunIfUnderQuota run cap now = some (s', run.stamped now, true)
        ∧ s'.records = s.records.put (run.stamped now)
        ∧ (s.countActiveRunsForWorkspace run.workspaceId : Int) < cap := by
  unfold saveRunIfUnderQuota saveRunIfUnderQuotaSync saveRunIfAbsentByIdempotency
  rw [if_neg (by omega)]
  cases hex : s.existingByIdempotency run with
  | some existing => exact Or.inl ⟨existing, rfl, rfl⟩
  | none =>
    dsimp only
    by_cases hfull : cap ≤ s.countActiveRunsForWorkspace run.workspaceId
    · rw [if_pos hfull]
      exact Or.inr (Or.inr (Or.inl ⟨rfl, hfull⟩))
    · rw [if_neg hfull]
      cases hu : s.upsert (run.stamped now) with
      | none => exact Or.inr (Or.inl (by simp))
      | some s' =>
        exact Or.inr (Or.inr (Or.inr ⟨s', by simp, upsert_records hu, by omega⟩))

end SqliteRunStore

end Himmy
