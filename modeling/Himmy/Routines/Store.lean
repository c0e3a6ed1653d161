import Mathlib.Data.List.Sort
import Mathlib.Data.String.Basic
import Himmy.Library.Sweep
import Himmy.Routines.Schedule

/-! # The routines store

A row is validated by the `Routine` model every time it is read, on the host that reads it:
`Row.toRoutine` raises for a row that the host cannot validate, and `list` raises when any row
does. `Row.Valid` says what a host asks of a row (`exists_toRoutine_eq_ok`). -/

namespace Himmy.Routines

/-- A row of the `routines` table. -/
structure Row where
  id : String
  name : String
  workspaceId : Option String
  agentPath : Option String
  agentId : Option String
  idempotencyKey : Option String
  prompt : String
  scheduleKind : String
  scheduleAt : Option String
  scheduleHours : Option Int
  scheduleExpr : Option String
  scheduleAtDatetime : Option String
  timezone : Option String
  missedPolicy : Option String
  maxCatchup : Option Int
  graceSeconds : Option Int
  overlapPolicy : Option String
  nextFireAt : Option String
  provider : Option String
  model : Option String
  deliver : String
  enabled : Int
  createdAt : String
  updatedAt : String
  lastRunAt : Option String
  lastStatus : Option String
  lastPreview : Option String
  lastError : Option String
  lastDelivery : Option String
  deriving DecidableEq

def parseKind : String → Option ScheduleKind
  | "daily" => some .daily
  | "every" => some .every
  | "cron" => some .cron
  | "at" => some .at
  | _ => none

def parseMissed : String → Option MissedRunPolicy
  | "coalesce" => some .coalesce
  | "skip" => some .skip
  | "run_each" => some .runEach
  | _ => none

/-! ## Validation -/

def require (ok : Bool) (field message : String) : Except RoutineError Unit :=
  if ok then .ok () else .error (.validation field message)

def requireSome {α : Type} (value : Option α) (field message : String) : Except RoutineError α :=
  match value with
  | some a => .ok a
  | none => .error (.validation field message)

/-- `max_length` of an optional text. -/
def maxLength (n : Nat) (text : Option String) : Bool := text.all (fun t => t.length ≤ n)

/-- `not text or not text.strip()`, negated. -/
def notBlank (text : Option String) : Bool :=
  text.any (fun t => !(pyStrip isPySpace t.toList).isEmpty)

def Row.catchup (row : Row) : Int :=
  match row.maxCatchup with
  | some n => if n = 0 then 100 else n
  | none => 100

def Row.fieldsOk (row : Row) : Bool :=
  maxLength 5 row.scheduleAt && row.scheduleHours.all (fun h => 1 ≤ h && h ≤ 168)
    && maxLength 200 row.scheduleExpr && maxLength 64 row.scheduleAtDatetime
    && maxLength 64 row.timezone && (1 ≤ row.catchup && row.catchup ≤ 100000)
    && row.graceSeconds.all (fun s => 0 ≤ s) && pyOr row.overlapPolicy "skip" == "skip"

def Row.asked (row : Row) (kind : ScheduleKind) (missed : MissedRunPolicy) : Schedule :=
  { kind, missed, atTime := row.scheduleAt, hours := row.scheduleHours, expr := row.scheduleExpr,
    atDatetime := row.scheduleAtDatetime, timezone := row.timezone, maxCatchup := row.catchup,
    graceSeconds := row.graceSeconds.getD 900 }

section Host

variable (host : Host)

/-- `Schedule._check_fields`, up to the time zone. -/
def checkKind (s : Schedule) : Except RoutineError Schedule :=
  match s.kind with
  | .daily => do
    require ((s.atTime.bind matchAt).isSome) "schedule" "daily schedule needs at='HH:MM' (24-hour)"
    .ok { s with hours := none }
  | .every => do
    require s.hours.isSome "schedule" "every schedule needs hours (1..168)"
    .ok { s with atTime := none }
  | .cron => do
    require (notBlank s.expr) "schedule"
      "cron schedule needs a non-empty expr (e.g. '30 6 * * *')"
    validateCron host (s.expr.getD "")
    .ok { s with atTime := none, hours := none }
  | .at => do
    require (notBlank s.atDatetime) "schedule" "at schedule needs at_datetime (an ISO-8601 instant)"
    require ((s.atDatetime.bind parseIso).isSome) "schedule"
      ("at_datetime '" ++ s.atDatetime.getD "" ++ "' is not a valid ISO-8601 datetime")
    .ok { s with atTime := none, hours := none }

def Row.toSchedule (row : Row) : Except RoutineError Schedule := do
  let kind ← requireSome (parseKind row.scheduleKind) "kind" "literal_error"
  let missed ← requireSome (parseMissed (pyOr row.missedPolicy "coalesce")) "missed" "literal_error"
  require row.fieldsOk "schedule" "constraint"
  let schedule ← checkKind host (row.asked kind missed)
  match schedule.timezone with
  | some timezone => do
    validateTimezone host timezone
    .ok schedule
  | none => .ok schedule

def truthy (text : Option String) : Bool := (orNone text).isSome

def Row.toRoutine (row : Row) : Except RoutineError Routine := do
  let schedule ← row.toSchedule host
  require (["none", "telegram", "email"].contains row.deliver) "deliver" "literal_error"
  require (truthy row.agentPath != truthy row.agentId) "agent_path"
    ("a routine needs exactly one of agent_path (single-user-local) or "
      ++ "agent_id (workspace-scoped stored agent)")
  .ok
    { id := row.id, name := row.name, workspaceId := pyOr row.workspaceId localWorkspace
      agentPath := row.agentPath, agentId := row.agentId, idempotencyKey := row.idempotencyKey
      prompt := row.prompt, schedule, provider := row.provider, model := row.model
      deliver := row.deliver, enabled := row.enabled != 0, createdAt := row.createdAt
      updatedAt := row.updatedAt, nextFireAt := row.nextFireAt, lastRunAt := row.lastRunAt
      lastStatus := row.lastStatus, lastPreview := pyOr row.lastPreview ""
      lastError := row.lastError, lastDelivery := row.lastDelivery }

/-! ## What a host asks of a row -/

def Row.KindValid (row : Row) : ScheduleKind → Prop
  | .daily => (row.scheduleAt.bind matchAt).isSome = true
  | .every => row.scheduleHours.isSome = true
  | .cron => notBlank row.scheduleExpr = true
      ∧ ∀ sim, host.cronsim = some sim → sim.parse (row.scheduleExpr.getD "") = .ok ()
  | .at => notBlank row.scheduleAtDatetime = true
      ∧ (row.scheduleAtDatetime.bind parseIso).isSome = true

def Row.Valid (row : Row) : Prop :=
  (∃ kind, parseKind row.scheduleKind = some kind ∧ row.KindValid host kind)
    ∧ (∃ missed, parseMissed (pyOr row.missedPolicy "coalesce") = some missed)
    ∧ row.fieldsOk = true
    ∧ (∀ timezone, row.timezone = some timezone → validTz host timezone = true)
    ∧ ["none", "telegram", "email"].contains row.deliver = true
    ∧ truthy row.agentPath ≠ truthy row.agentId

end Host

theorem require_bind_ok {β : Type} {ok : Bool} {field message : String}
    {f : Unit → Except RoutineError β} {b : β} :
    (require ok field message >>= f) = .ok b ↔ ok = true ∧ f () = .ok b := by
  cases ok with
  | true => simp [require, bind, Except.bind]
  | false => simp [require, bind, Except.bind]

theorem requireSome_bind_ok {α β : Type} {value : Option α} {field message : String}
    {f : α → Except RoutineError β} {b : β} :
    (requireSome value field message >>= f) = .ok b ↔ ∃ a, value = some a ∧ f a = .ok b := by
  cases value with
  | some a => simp [requireSome, bind, Except.bind]
  | none => simp [requireSome, bind, Except.bind]

theorem bind_ok {α β ε : Type} {x : Except ε α} {f : α → Except ε β} {b : β} :
    (x >>= f) = .ok b ↔ ∃ a, x = .ok a ∧ f a = .ok b := by
  cases x with
  | ok a => simp [bind, Except.bind]
  | error e => simp [bind, Except.bind]

variable {host : Host}

theorem validateCron_ok {expr : String} : validateCron host expr = .ok () ↔
      ∀ sim, host.cronsim = some sim → sim.parse expr = .ok () := by
  unfold validateCron
  cases hsim : host.cronsim with
  | none => simp
  | some sim =>
    cases hparse : sim.parse expr with
    | ok u => simp [hparse]
    | error e => simp [hparse]

theorem validateTimezone_ok {name : String} :
    validateTimezone host name = .ok () ↔ validTz host name = true := by
  unfold validateTimezone
  split
  · next h => simp [h]
  · next h => simp [h]

theorem checkKind_ok {s s' : Schedule} (h : checkKind host s = .ok s') :
    s'.kind = s.kind ∧ s'.timezone = s.timezone := by
  unfold checkKind at h
  split at h
  · obtain ⟨-, h⟩ := require_bind_ok.1 h
    cases h
    exact ⟨rfl, rfl⟩
  · obtain ⟨-, h⟩ := require_bind_ok.1 h
    cases h
    exact ⟨rfl, rfl⟩
  · obtain ⟨-, h⟩ := require_bind_ok.1 h
    obtain ⟨-, -, h⟩ := bind_ok.1 h
    cases h
    exact ⟨rfl, rfl⟩
  · obtain ⟨-, h⟩ := require_bind_ok.1 h
    obtain ⟨-, h⟩ := require_bind_ok.1 h
    cases h
    exact ⟨rfl, rfl⟩

theorem exists_checkKind {row : Row} {kind : ScheduleKind} {missed : MissedRunPolicy} :
    (∃ s, checkKind host (row.asked kind missed) = .ok s) ↔ row.KindValid host kind := by
  cases kind with
  | daily => simp [checkKind, Row.asked, Row.KindValid, require_bind_ok]
  | every => simp [checkKind, Row.asked, Row.KindValid, require_bind_ok]
  | cron =>
    rw [Row.KindValid, ← validateCron_ok]
    constructor
    · rintro ⟨s, h⟩
      obtain ⟨hblank, h⟩ := require_bind_ok.1 h
      obtain ⟨u, hcron, -⟩ := bind_ok.1 h
      exact ⟨hblank, hcron⟩
    · rintro ⟨hblank, hcron⟩
      exact ⟨_, require_bind_ok.2 ⟨hblank, bind_ok.2 ⟨(), hcron, rfl⟩⟩⟩
  | «at» => simp [checkKind, Row.asked, Row.KindValid, require_bind_ok]

theorem exists_toSchedule {row : Row} : (∃ s, row.toSchedule host = .ok s) ↔
      (∃ kind, parseKind row.scheduleKind = some kind ∧ row.KindValid host kind)
        ∧ (∃ missed, parseMissed (pyOr row.missedPolicy "coalesce") = some missed)
        ∧ row.fieldsOk = true
        ∧ (∀ timezone, row.timezone = some timezone → validTz host timezone = true) := by
  constructor
  · rintro ⟨s, h⟩
    obtain ⟨kind, hkind, h⟩ := requireSome_bind_ok.1 h
    obtain ⟨missed, hmissed, h⟩ := requireSome_bind_ok.1 h
    obtain ⟨hfields, h⟩ := require_bind_ok.1 h
    obtain ⟨checked, hchecked, h⟩ := bind_ok.1 h
    refine ⟨⟨kind, hkind, exists_checkKind.1 ⟨checked, hchecked⟩⟩, ⟨missed, hmissed⟩, hfields, ?_⟩
    intro timezone htz
    have hsame : checked.timezone = row.timezone := (checkKind_ok hchecked).2
    rw [hsame, htz] at h
    obtain ⟨u, hvalid, -⟩ := bind_ok.1 h
    exact validateTimezone_ok.1 hvalid
  · rintro ⟨⟨kind, hkind, hvalid⟩, ⟨missed, hmissed⟩, hfields, htz⟩
    have hexists : ∃ s, checkKind host (row.asked kind missed) = .ok s := exists_checkKind.2 hvalid
    obtain ⟨checked, hchecked⟩ := hexists
    refine ⟨checked, requireSome_bind_ok.2 ⟨kind, hkind, requireSome_bind_ok.2 ⟨missed, hmissed,
      require_bind_ok.2 ⟨hfields, bind_ok.2 ⟨checked, hchecked, ?_⟩⟩⟩⟩⟩
    have hsame : checked.timezone = row.timezone := (checkKind_ok hchecked).2
    split
    · next timezone h =>
        exact bind_ok.2 ⟨(), validateTimezone_ok.2 (htz timezone (by rw [← hsame, h])), rfl⟩
    · rfl

/-- **Readable rows.** A host can read a row exactly when the row is valid there. -/
theorem exists_toRoutine_eq_ok {row : Row} :
    (∃ r, row.toRoutine host = .ok r) ↔ row.Valid host := by
  unfold Row.Valid
  constructor
  · rintro ⟨r, h⟩
    obtain ⟨s, hs, h⟩ := bind_ok.1 h
    obtain ⟨hdeliver, h⟩ := require_bind_ok.1 h
    obtain ⟨hagent, -⟩ := require_bind_ok.1 h
    obtain ⟨hkind, hmissed, hfields, htz⟩ := exists_toSchedule.1 ⟨s, hs⟩
    exact ⟨hkind, hmissed, hfields, htz, hdeliver, bne_iff_ne.1 hagent⟩
  · rintro ⟨hkind, hmissed, hfields, htz, hdeliver, hagent⟩
    obtain ⟨s, hs⟩ := exists_toSchedule.2 ⟨hkind, hmissed, hfields, htz⟩
    exact ⟨_, bind_ok.2 ⟨s, hs, require_bind_ok.2 ⟨hdeliver, require_bind_ok.2
      ⟨bne_iff_ne.2 hagent, rfl⟩⟩⟩⟩

theorem id_of_toRoutine {row : Row} {r : Routine} (h : row.toRoutine host = .ok r) :
    r.id = row.id := by
  obtain ⟨s, -, h⟩ := bind_ok.1 h
  obtain ⟨-, h⟩ := require_bind_ok.1 h
  obtain ⟨-, h⟩ := require_bind_ok.1 h
  cases h
  rfl

/-! ## The table -/

abbrev RoutinesTable := KeyedList Row.id

namespace RoutinesTable

def rows (table : RoutinesTable) (workspaceId : Option String) : List Row :=
  (table.items.filter (fun row => workspaceId.all (fun w => row.workspaceId = some w))).insertionSort
    (fun a b => b.createdAt ≤ a.createdAt)

def list (host : Host) (table : RoutinesTable) (workspaceId : Option String) :
    Except RoutineError (List Routine) :=
  (table.rows workspaceId).mapM (Row.toRoutine host)

theorem mem_rows {table : RoutinesTable} {row : Row} : row ∈ table.rows none ↔ row ∈ table.items := by
  rw [rows, List.mem_insertionSort]
  simp

theorem nodup_rows (table : RoutinesTable) (workspaceId : Option String) :
    ((table.rows workspaceId).map Row.id).Nodup := by
  have hperm := List.perm_insertionSort (fun a b : Row => b.createdAt ≤ a.createdAt)
    (table.items.filter (fun row => workspaceId.all (fun w => row.workspaceId = some w)))
  rw [rows, (hperm.map Row.id).nodup_iff]
  exact table.nodup_keys.sublist (List.filter_sublist.map Row.id)

end RoutinesTable

end Himmy.Routines
