import Himmy.Library.Transition
import Himmy.Routines.Store

/-! # The per-tenant routine quota

A create counts the enabled routines of its workspace and inserts its row in one transaction, and
clamps the catch-up bound of the row to the tenant ceiling. An edit reads a row, lays the fields of
the request over it and writes the whole row back; it neither counts nor clamps. The system has any
number of requests in flight. `quota_invariant` says which runs keep every tenant within its
bounds. -/

namespace Himmy.Routines

/-! ## The operations of the routines store

The statements that the endpoints and the scheduler run against the table. Each is one statement, or
one transaction, and so one step; an edit is two, a read and a write of the whole row, with anything
in between. -/

def ScheduleKind.text : ScheduleKind → String
  | .daily => "daily"
  | .every => "every"
  | .cron => "cron"
  | .at => "at"

def MissedRunPolicy.text : MissedRunPolicy → String
  | .coalesce => "coalesce"
  | .skip => "skip"
  | .runEach => "run_each"

/-- The parameters of `_upsert_sql`. -/
def Routine.toRow (r : Routine) : Row where
  id := r.id
  name := r.name
  workspaceId := some r.workspaceId
  agentPath := r.agentPath
  agentId := r.agentId
  idempotencyKey := r.idempotencyKey
  prompt := r.prompt
  scheduleKind := r.schedule.kind.text
  scheduleAt := r.schedule.atTime
  scheduleHours := r.schedule.hours
  scheduleExpr := r.schedule.expr
  scheduleAtDatetime := r.schedule.atDatetime
  timezone := r.schedule.timezone
  missedPolicy := some r.schedule.missed.text
  maxCatchup := some r.schedule.maxCatchup
  graceSeconds := some r.schedule.graceSeconds
  overlapPolicy := some "skip"
  nextFireAt := r.nextFireAt
  provider := r.provider
  model := r.model
  deliver := r.deliver
  enabled := if r.enabled then 1 else 0
  createdAt := r.createdAt
  updatedAt := r.updatedAt
  lastRunAt := r.lastRunAt
  lastStatus := r.lastStatus
  lastPreview := some r.lastPreview
  lastError := r.lastError
  lastDelivery := r.lastDelivery

namespace RoutinesTable

variable (table : RoutinesTable)

def upserted (row : Row) : Row :=
  { row with createdAt := ((table.get? row.id).map Row.createdAt).getD row.createdAt }

/-- `upsert`, at a time. -/
def upsert (r : Routine) (now : String) : RoutinesTable :=
  table.put (table.upserted { r with updatedAt := now }.toRow)

/-- `count` of the enabled routines of a workspace. -/
def countEnabled (workspaceId : String) : Nat :=
  table.items.countP (fun row => row.workspaceId = some workspaceId && row.enabled = 1)

/-- `create_routine_if_under_quota`: the count and the insert in one transaction. -/
def createRoutineIfUnderQuota (r : Routine) (cap : Int) (now : String) : RoutinesTable × Bool :=
  if cap ≤ 0 then (table.upsert r now, true)
  else if cap ≤ table.countEnabled r.workspaceId then (table, false)
  else (table.upsert r now, true)

def getRoutine (host : Host) (routineId workspaceId : String) :
    Except RoutineError (Option Routine) :=
  match table.get? routineId with
  | none => .ok none
  | some row => do
    let r ← row.toRoutine host
    .ok (if r.workspaceId = workspaceId then some r else none)

def deleteRoutine (routineId workspaceId : String) : RoutinesTable :=
  table.filter (fun row => !(row.id = routineId && row.workspaceId = some workspaceId))

end RoutinesTable

/-! ## Requests -/

/-- The body of a create. -/
structure CreateRoutineRequest where
  agentId : String
  name : String
  prompt : String
  schedule : Schedule
  provider : Option String := none
  model : Option String := none
  deliver : String := "none"
  enabled : Bool := true
  idempotencyKey : Option String := none
  deriving DecidableEq

/-- The fields of a partial update that were set and count: an explicit null leaves a field that
    cannot be null unchanged. -/
structure UpdatePatch where
  agentId : Option String := none
  name : Option String := none
  prompt : Option String := none
  schedule : Option Schedule := none
  provider : Option (Option String) := none
  model : Option (Option String) := none
  deliver : Option String := none
  enabled : Option Bool := none
  deriving DecidableEq

/-- `routine.model_copy(update=patch)`. -/
def Routine.patched (r : Routine) (patch : UpdatePatch) : Routine :=
  { r with
    agentId := if patch.agentId.isSome then patch.agentId else r.agentId
    name := patch.name.getD r.name
    prompt := patch.prompt.getD r.prompt
    schedule := patch.schedule.getD r.schedule
    provider := patch.provider.getD r.provider
    model := patch.model.getD r.model
    deliver := patch.deliver.getD r.deliver
    enabled := patch.enabled.getD r.enabled }

def CreateRoutineRequest.routine (body : CreateRoutineRequest) (workspaceId id now : String) :
    Routine where
  id := id
  name := body.name
  workspaceId := workspaceId
  agentId := some body.agentId
  idempotencyKey := body.idempotencyKey
  prompt := body.prompt
  schedule := body.schedule
  provider := body.provider
  model := body.model
  deliver := body.deliver
  enabled := body.enabled
  createdAt := now
  updatedAt := now

/-! ## Quotas -/

/-- `HIMMY_TENANT_MAX_ROUTINES` and `HIMMY_TENANT_MAX_CATCHUP`; a bound of 0 is none. -/
structure QuotaConfig where
  maxRoutines : Int
  maxCatchup : Int

def clampTenantCatchup (cfg : QuotaConfig) (r : Routine) : Routine :=
  if r.workspaceId = localWorkspace then r
  else if cfg.maxCatchup ≤ 0 then r
  else if cfg.maxCatchup < r.schedule.maxCatchup then
    { r with schedule := { r.schedule with maxCatchup := cfg.maxCatchup } }
  else r

/-- `create_routine_with_quota`; `none` for `TenantRoutineQuotaExceeded`. -/
def createRoutineWithQuota (cfg : QuotaConfig) (table : RoutinesTable) (r : Routine) (now : String) :
    Option RoutinesTable :=
  if r.workspaceId = localWorkspace then some (table.upsert r now)
  else if cfg.maxRoutines ≤ 0 then some (table.upsert r now)
  else
    match table.createRoutineIfUnderQuota r cfg.maxRoutines now with
    | (table', true) => some table'
    | (_, false) => none

/-- How a create ends. -/
inductive CreateOutcome where
  | failed (e : RoutineError)
  | replayed (r : Routine)
  | refused
  | created (table : RoutinesTable)

def CreateRoutineRequest.stored (body : CreateRoutineRequest) (cfg : QuotaConfig)
    (workspaceId id now : String) : Routine :=
  clampTenantCatchup cfg (body.routine workspaceId id now)

def CreateRoutineRequest.replay (body : CreateRoutineRequest) (host : Host) (table : RoutinesTable)
    (workspaceId : String) : Except RoutineError (Option Routine) :=
  match body.idempotencyKey with
  | none => .ok none
  | some key => (table.list host (some workspaceId)).map
      (fun routines => routines.find? (fun r => r.idempotencyKey = some key))

variable (host : Host) (cfg : QuotaConfig)

def createRoutine (table : RoutinesTable)
    (workspaceId : String) (body : CreateRoutineRequest) (id now : String) : CreateOutcome :=
  match body.replay host table workspaceId with
  | .error e => .failed e
  | .ok (some r) => .replayed r
  | .ok none =>
    match createRoutineWithQuota cfg table (body.stored cfg workspaceId id now) now with
    | some table' => .created table'
    | none => .refused

/-! ## The system -/

/-- The table, and the edits in flight: what each will write. -/
structure QuotaState where
  table : RoutinesTable
  edits : List (Option Routine)

inductive QuotaLabel where
  | create (workspaceId : String) (body : CreateRoutineRequest) (id now : String)
  | editRead (workspaceId routineId : String) (patch : UpdatePatch)
  | editWrite (i : Nat) (now : String)
  | editDrop (i : Nat)
  | delete (workspaceId routineId : String)

def CreateOutcome.table (o : CreateOutcome) (before : RoutinesTable) : RoutinesTable :=
  match o with
  | .created table => table
  | _ => before

/-- One step of some request. The id of a create is a new uuid; an edit that finds no routine, or
    cannot read it, ends with its read. -/
def quotaStep (s : QuotaState) : QuotaLabel → Option QuotaState
  | .create workspaceId body id now =>
    if s.table.get? id = none then
      some { s with table := (createRoutine host cfg s.table workspaceId body id now).table s.table }
    else none
  | .editRead workspaceId routineId patch =>
    match s.table.getRoutine host routineId workspaceId with
    | .ok (some r) => some { s with edits := s.edits ++ [some (r.patched patch)] }
    | _ => some s
  | .editWrite i now =>
    match s.edits[i]? with
    | some (some r) => some { table := s.table.upsert r now, edits := s.edits.set i none }
    | _ => none
  | .editDrop i => some { s with edits := s.edits.set i none }
  | .delete workspaceId routineId =>
    some { s with table := s.table.deleteRoutine routineId workspaceId }

def quotaSystem : LTS QuotaState QuotaLabel :=
  ⟨quotaStep host cfg⟩

def QuotaState.initial : QuotaState := ⟨KeyedList.empty, []⟩

/-! ## The bounds -/

section Bounds

variable (cfg : QuotaConfig)

/-- Every tenant is within its bounds. -/
structure Bounded (table : RoutinesTable) : Prop where
  routines : ∀ workspaceId, workspaceId ≠ localWorkspace → 0 < cfg.maxRoutines →
    table.countEnabled workspaceId ≤ cfg.maxRoutines
  catchup : ∀ row ∈ table.items, row.workspaceId ≠ some localWorkspace → 0 < cfg.maxCatchup →
    ∀ n, row.maxCatchup = some n → n ≤ cfg.maxCatchup

def CreateExact (host : Host) (s : QuotaState) : QuotaLabel → Prop
  | .create workspaceId body id now =>
    match createRoutine host cfg s.table workspaceId body id now with
    | .refused => ¬Bounded cfg (s.table.upsert (body.stored cfg workspaceId id now) now)
    | .created _ => Bounded cfg (s.table.upsert (body.stored cfg workspaceId id now) now)
    | _ => True
  | _ => True

def HasRoom (table : RoutinesTable) (workspaceId : String) : Prop :=
  workspaceId = localWorkspace ∨ cfg.maxRoutines ≤ 0
    ∨ (table.countEnabled workspaceId : Int) < cfg.maxRoutines

def StoredEnabled (table : RoutinesTable) (r : Routine) : Prop :=
  ∃ row, table.get? r.id = some row ∧ row.workspaceId = some r.workspaceId ∧ row.enabled = 1

/-- What a step has to meet: a disabled routine is created where there is room for an enabled one
    (or answers an earlier create), and an edit that enables a routine finds room for it and asks
    for no more catch-up than the ceiling. -/
def Guarded (host : Host) (s : QuotaState) : QuotaLabel → Prop
  | .create workspaceId body _ _ =>
    body.replay host s.table workspaceId = .ok none → body.enabled = false →
      HasRoom cfg s.table workspaceId
  | .editWrite i _ => ∀ r, s.edits[i]? = some (some r) →
    (r.enabled = true → StoredEnabled s.table r ∨ HasRoom cfg s.table r.workspaceId)
      ∧ (r.workspaceId = localWorkspace ∨ cfg.maxCatchup ≤ 0
          ∨ r.schedule.maxCatchup ≤ cfg.maxCatchup)
  | _ => True

end Bounds

/-! ## What an upsert does to the bounds -/

variable {cfg : QuotaConfig} {table : RoutinesTable} {r : Routine} {now : String}

def Row.occupies (workspaceId : String) (row : Row) : Bool :=
  row.workspaceId = some workspaceId && row.enabled = 1

theorem occupies_upserted (table : RoutinesTable) (r : Routine) (now workspaceId : String) :
    (table.upserted { r with updatedAt := now }.toRow).occupies workspaceId
      = (decide (r.workspaceId = workspaceId) && r.enabled) := by
  unfold Row.occupies RoutinesTable.upserted Routine.toRow
  cases r.enabled <;> simp

def occupied (table : RoutinesTable) (id workspaceId : String) : Nat :=
  if (table.get? id).any (Row.occupies workspaceId) then 1 else 0

theorem countEnabled_upsert (table : RoutinesTable) (r : Routine) (now workspaceId : String) :
    (table.upsert r now).countEnabled workspaceId + occupied table r.id workspaceId
      = table.countEnabled workspaceId
        + (if r.workspaceId = workspaceId ∧ r.enabled = true then 1 else 0) := by
  have hnew := occupies_upserted table r now workspaceId
  have hcount : ∀ t : RoutinesTable, t.countEnabled workspaceId
      = t.items.countP (Row.occupies workspaceId) := fun t => rfl
  rw [hcount, hcount, RoutinesTable.upsert, occupied]
  cases hget : table.get? r.id with
  | none =>
    rw [table.countP_put_of_none _ _ hget, hnew]
    simp
  | some row =>
    have hput := table.countP_put_of_some
      (table.upserted ({ r with updatedAt := now } : Routine).toRow) row
      (Row.occupies workspaceId) hget
    rw [hnew] at hput
    simpa using hput

theorem mem_upsert {row : Row} (h : row ∈ (table.upsert r now).items) :
    row ∈ table.items ∨ (row.workspaceId = some r.workspaceId
      ∧ row.maxCatchup = some r.schedule.maxCatchup) := by
  rcases (table.mem_put_iff _ _).1 h with h | ⟨h, -⟩
  · rw [h]
    exact Or.inr ⟨rfl, rfl⟩
  · exact Or.inl h

theorem occupied_eq_one {workspaceId : String} (h : StoredEnabled table r)
    (hws : r.workspaceId = workspaceId) : occupied table r.id workspaceId = 1 := by
  obtain ⟨row, hget, hrow, henabled⟩ := h
  simp [occupied, hget, Row.occupies, hrow, henabled, hws]

theorem occupied_eq_zero (h : ¬StoredEnabled table r) : occupied table r.id r.workspaceId = 0 := by
  unfold occupied
  cases hget : table.get? r.id with
  | none => rfl
  | some row =>
    have hnot : ¬Row.occupies r.workspaceId row = true := by
      intro hocc
      simp only [Row.occupies, Bool.and_eq_true, decide_eq_true_eq] at hocc
      exact h ⟨row, hget, hocc.1, hocc.2⟩
    simp [hnot]

/-- **One upsert.** It keeps the bounds exactly when an enabled routine was stored enabled or finds
    room, and its catch-up bound is within the ceiling. -/
theorem bounded_upsert_iff (h : Bounded cfg table) : Bounded cfg (table.upsert r now) ↔
      (r.enabled = true → StoredEnabled table r ∨ HasRoom cfg table r.workspaceId)
        ∧ (r.workspaceId = localWorkspace ∨ cfg.maxCatchup ≤ 0
            ∨ r.schedule.maxCatchup ≤ cfg.maxCatchup) := by
  constructor
  · intro hafter
    constructor
    · intro henabled
      by_cases hstored : StoredEnabled table r
      · exact Or.inl hstored
      by_cases hlocal : r.workspaceId = localWorkspace
      · exact Or.inr (Or.inl hlocal)
      by_cases hcap : cfg.maxRoutines ≤ 0
      · exact Or.inr (Or.inr (Or.inl hcap))
      have hle := hafter.routines r.workspaceId hlocal (by omega)
      have hcount := countEnabled_upsert table r now r.workspaceId
      rw [occupied_eq_zero hstored, if_pos ⟨rfl, henabled⟩] at hcount
      exact Or.inr (Or.inr (Or.inr (by omega)))
    · by_cases hlocal : r.workspaceId = localWorkspace
      · exact Or.inl hlocal
      by_cases hceil : cfg.maxCatchup ≤ 0
      · exact Or.inr (Or.inl hceil)
      have hmem := (table.mem_put_iff
        (table.upserted ({ r with updatedAt := now } : Routine).toRow) _).2 (Or.inl rfl)
      exact Or.inr (Or.inr (hafter.catchup _ hmem (fun hws => hlocal (Option.some.inj hws))
        (by omega) _ rfl))
  · rintro ⟨hroom, hcatchup⟩
    refine ⟨fun workspaceId hlocal hcap => ?_, fun row hrow hlocal hceil n hn => ?_⟩
    · have hcount := countEnabled_upsert table r now workspaceId
      have hbefore := h.routines workspaceId hlocal hcap
      by_cases hadds : r.workspaceId = workspaceId ∧ r.enabled = true
      · obtain ⟨hws, henabled⟩ := hadds
        rw [if_pos ⟨hws, henabled⟩] at hcount
        rcases hroom henabled with hstored | hlocal' | hcap' | hlt
        · rw [occupied_eq_one hstored hws] at hcount
          omega
        · exact absurd (hws.symm.trans hlocal') hlocal
        · omega
        · rw [hws] at hlt
          omega
      · rw [if_neg hadds] at hcount
        omega
    · rcases mem_upsert hrow with hold | ⟨hws, hnew⟩
      · exact h.catchup row hold hlocal hceil n hn
      · rw [hn] at hnew
        cases hnew
        rcases hcatchup with hlocal' | hceil' | hle
        · rw [hws, hlocal'] at hlocal
          exact absurd rfl hlocal
        · omega
        · exact hle

/-! ## Creates -/

theorem createRoutineWithQuota_of_room (h : HasRoom cfg table r.workspaceId) :
    createRoutineWithQuota cfg table r now = some (table.upsert r now) := by
  unfold createRoutineWithQuota RoutinesTable.createRoutineIfUnderQuota
  rcases h with hlocal | hcap | hlt
  · rw [if_pos hlocal]
  · by_cases hlocal : r.workspaceId = localWorkspace
    · rw [if_pos hlocal]
    · rw [if_neg hlocal, if_pos hcap]
  · by_cases hlocal : r.workspaceId = localWorkspace
    · rw [if_pos hlocal]
    · by_cases hcap : cfg.maxRoutines ≤ 0
      · rw [if_neg hlocal, if_pos hcap]
      · have hnot : ¬cfg.maxRoutines ≤ table.countEnabled r.workspaceId := by omega
        simp [hlocal, hcap, hnot]

theorem createRoutineWithQuota_of_full (h : ¬HasRoom cfg table r.workspaceId) :
    createRoutineWithQuota cfg table r now = none := by
  simp only [HasRoom, not_or] at h
  obtain ⟨hlocal, hcap, hfull⟩ := h
  have hle : cfg.maxRoutines ≤ table.countEnabled r.workspaceId := by omega
  simp [createRoutineWithQuota, RoutinesTable.createRoutineIfUnderQuota, hlocal, hcap, hle]

section Stored

variable {body : CreateRoutineRequest} {workspaceId id : String}

theorem stored_fields (cfg : QuotaConfig) (body : CreateRoutineRequest) (workspaceId id now : String) :
    (body.stored cfg workspaceId id now).id = id
    ∧ (body.stored cfg workspaceId id now).workspaceId = workspaceId
    ∧ (body.stored cfg workspaceId id now).enabled = body.enabled := by
  unfold CreateRoutineRequest.stored clampTenantCatchup
  split
  · exact ⟨rfl, rfl, rfl⟩
  · split
    · exact ⟨rfl, rfl, rfl⟩
    · split <;> exact ⟨rfl, rfl, rfl⟩

theorem stored_catchup : workspaceId = localWorkspace ∨ cfg.maxCatchup ≤ 0
    ∨ (body.stored cfg workspaceId id now).schedule.maxCatchup ≤ cfg.maxCatchup := by
  unfold CreateRoutineRequest.stored clampTenantCatchup
  by_cases hlocal : workspaceId = localWorkspace
  · exact Or.inl hlocal
  by_cases hceil : cfg.maxCatchup ≤ 0
  · exact Or.inr (Or.inl hceil)
  refine Or.inr (Or.inr ?_)
  by_cases hlt : cfg.maxCatchup < body.schedule.maxCatchup
  · simp [CreateRoutineRequest.routine, hlocal, hceil, hlt]
  · have hle : body.schedule.maxCatchup ≤ cfg.maxCatchup := by omega
    simpa [CreateRoutineRequest.routine, hlocal, hceil, hlt] using hle

theorem bounded_stored_iff (body : CreateRoutineRequest) (workspaceId now : String) {id : String}
    (h : Bounded cfg table) (hid : table.get? id = none) :
    Bounded cfg (table.upsert (body.stored cfg workspaceId id now) now) ↔
      (body.enabled = true → HasRoom cfg table workspaceId) := by
  obtain ⟨hsid, hsws, hsen⟩ := stored_fields cfg body workspaceId id now
  have hnew : ¬StoredEnabled table (body.stored cfg workspaceId id now) := by
    rintro ⟨row, hget, -⟩
    rw [hsid, hid] at hget
    cases hget
  rw [bounded_upsert_iff h, hsws, hsen]
  simp only [hnew, false_or]
  exact and_iff_left stored_catchup

end Stored

/-! ## Steps and runs -/

variable {host : Host}

theorem bounded_initial : Bounded cfg QuotaState.initial.table where
  routines := by
    intro workspaceId _ hcap
    have hzero : QuotaState.initial.table.countEnabled workspaceId = 0 := rfl
    omega
  catchup := by
    intro row hrow
    cases hrow

theorem bounded_delete (h : Bounded cfg table) (routineId workspaceId : String) :
    Bounded cfg (table.deleteRoutine routineId workspaceId) where
  routines := by
    intro ws hlocal hcap
    have hbefore := h.routines ws hlocal hcap
    have hle : (table.deleteRoutine routineId workspaceId).countEnabled ws ≤ table.countEnabled ws :=
      List.filter_sublist.countP_le
    omega
  catchup := by
    intro row hrow
    exact h.catchup row (List.mem_of_mem_filter hrow)

theorem guarded_create_iff {s : QuotaState} {workspaceId id now : String}
    {body : CreateRoutineRequest} (h : Bounded cfg s.table) (hid : s.table.get? id = none) :
    Guarded cfg host s (.create workspaceId body id now) ↔
      CreateExact cfg host s (.create workspaceId body id now)
        ∧ Bounded cfg ((createRoutine host cfg s.table workspaceId body id now).table s.table) := by
  unfold Guarded CreateExact createRoutine
  simp only
  cases hreplay : body.replay host s.table workspaceId with
  | error e => simpa [CreateOutcome.table] using h
  | ok found =>
    cases found with
    | some r => simpa [CreateOutcome.table] using h
    | none =>
      have hws : (body.stored cfg workspaceId id now).workspaceId = workspaceId :=
        (stored_fields cfg body workspaceId id now).2.1
      have hbounded := bounded_stored_iff body workspaceId now h hid
      by_cases hroom : HasRoom cfg s.table workspaceId
      · rw [createRoutineWithQuota_of_room (by rw [hws]; exact hroom)]
        simp [CreateOutcome.table, hroom, hbounded]
      · rw [createRoutineWithQuota_of_full (by rw [hws]; exact hroom)]
        simp only [CreateOutcome.table, hbounded, hroom]
        cases body.enabled <;> simp [h]

theorem guarded_iff {s s' : QuotaState} {label : QuotaLabel} (h : Bounded cfg s.table)
    (hstep : (quotaSystem host cfg).step s label = some s') :
    Guarded cfg host s label ↔ CreateExact cfg host s label ∧ Bounded cfg s'.table := by
  cases label with
  | create workspaceId body id now =>
    simp only [quotaSystem, quotaStep] at hstep
    split at hstep
    · next hid =>
        cases hstep
        exact guarded_create_iff h hid
    · cases hstep
  | editRead workspaceId routineId patch =>
    have hsame : s'.table = s.table := by
      simp only [quotaSystem, quotaStep] at hstep
      split at hstep <;> (cases hstep; rfl)
    simpa [Guarded, CreateExact, hsame] using h
  | editWrite i now =>
    simp only [quotaSystem, quotaStep] at hstep
    split at hstep
    · next r hr =>
        cases hstep
        simp [Guarded, CreateExact, hr, bounded_upsert_iff h]
    · cases hstep
  | editDrop i =>
    cases hstep
    simpa [Guarded, CreateExact] using h
  | delete workspaceId routineId =>
    cases hstep
    simpa [Guarded, CreateExact] using bounded_delete h routineId workspaceId

/-- **The quota along a run.** Every tenant stays within its bounds, and creates are refused exactly
    when they would break one, in exactly the runs that create disabled routines only where there is
    room for an enabled one, and whose edits enable a routine only where there is room and stay
    within the catch-up ceiling. -/
theorem quota_invariant (host : Host) (cfg : QuotaConfig) {labels : List QuotaLabel}
    {s : QuotaState} (hrun : (quotaSystem host cfg).exec .initial labels = some s) :
    (quotaSystem host cfg).AlongRun (Guarded cfg host) .initial labels ↔
      (quotaSystem host cfg).AlongRun (CreateExact cfg host) .initial labels
        ∧ ∀ pre post s', labels = pre ++ post →
            (quotaSystem host cfg).exec .initial pre = some s' → Bounded cfg s'.table :=
  LTS.alongRun_iff_kept (I := fun s => Bounded cfg s.table) _
    (fun _ _ _ h hstep => guarded_iff h hstep) bounded_initial hrun

/-- A host that knows no zone and has no `cronsim`. -/
def bareHost : Host where
  cronsim := none
  zoneinfo := fun _ => none
  himmyTz := none
  localKey := none

def everySixHours (enabled : Bool) : CreateRoutineRequest where
  agentId := "agent-1"
  name := "Report"
  prompt := "Report."
  schedule := { kind := .every, hours := some 6 }
  enabled := enabled

def oneRoutine : QuotaConfig := ⟨1, 100⟩

theorem quota_invariant_oneRoutine :
    (quotaSystem bareHost oneRoutine).AlongRun (CreateExact oneRoutine bareHost) .initial
        [.create "acme" (everySixHours true) "r1" "t0", .delete "acme" "r1"]
      ∧ ∀ pre post s', [.create "acme" (everySixHours true) "r1" "t0", .delete "acme" "r1"]
          = pre ++ post → (quotaSystem bareHost oneRoutine).exec .initial pre = some s' →
          Bounded oneRoutine s'.table := by
  have hguarded : (quotaSystem bareHost oneRoutine).AlongRun (Guarded oneRoutine bareHost) .initial
      [.create "acme" (everySixHours true) "r1" "t0", .delete "acme" "r1"] := by
    refine ⟨?_, fun s' _ => ⟨trivial, fun s'' _ => trivial⟩⟩
    intro _ h
    cases h
  exact (quota_invariant bareHost oneRoutine rfl).1 hguarded

/-- A disabled routine is created and then enabled by an edit, beside the one that the cap admits;
    and at the cap a disabled routine is refused. -/
theorem quota_exceeded : ((quotaSystem bareHost oneRoutine).exec .initial
        [.create "acme" (everySixHours false) "r1" "t0", .create "acme" (everySixHours true) "r2" "t1",
          .editRead "acme" "r1" { enabled := some true }, .editWrite 0 "t2"]).map
        (fun s => s.table.countEnabled "acme") = some 2
      ∧ ((quotaSystem bareHost oneRoutine).exec .initial
          [.create "acme" (everySixHours true) "r1" "t0"]).map
          (fun s => match createRoutine bareHost oneRoutine s.table "acme" (everySixHours false) "r2"
              "t1" with
            | .refused => true
            | _ => false) = some true := by
  decide +kernel

end Himmy.Routines
