import Himmy.Core.DateTime
import Himmy.Storage.Models

/-! # Routines and when they are due

A routine is a saved prompt that runs on a schedule: daily at a time, every so many hours, by a cron
expression, or once at an instant. The cron iterator is an optional package and the time zones are
those of the host, so both belong to a `Host`. `isDue` and `nextFire` compute in exceptions: what
each call raises is an answer like any other. -/

namespace Himmy.Routines

/-- The exceptions that reading a row and the time arithmetic of its schedule can raise. -/
inductive RoutineError where
  | validation (field message : String)
  | cronUnavailable
  | cronSim (message : String)
  | stopIteration
  | overflow
  | zoneInfoNotFound (key : String)
  deriving DecidableEq

/-! ## The host -/

/-- `zoneinfo.ZoneInfo`: what a zone is ahead of UTC at an instant. -/
structure ZoneInfo where
  key : String
  utcoffset : Int → Int

/-- How the iterator of `cronsim` can fail. -/
inductive CronFailure where
  | raised (message : String)
  | exhausted
  deriving DecidableEq

/-- The `cronsim` package: its parser, and the first occurrence at or after an anchor. -/
structure CronSim where
  parse : String → Except String Unit
  next : String → DateTime → ZoneInfo → Except CronFailure DateTime

/-- What a routine's schedule depends on besides the routine. -/
structure Host where
  cronsim : Option CronSim
  zoneinfo : String → Option ZoneInfo
  himmyTz : Option String
  localKey : Option String

/-- The result of arithmetic that raises `OverflowError`. -/
def orOverflow (dt : Option DateTime) : Except RoutineError DateTime :=
  match dt with
  | some dt => .ok dt
  | none => .error .overflow

def astimezone (dt : DateTime) (zone : ZoneInfo) : Except RoutineError DateTime := do
  let utc ← orOverflow dt.toUtc
  orOverflow (DateTime.ofWall (utc.wall + zone.utcoffset utc.wall) (zone.utcoffset utc.wall))

section Host

variable (host : Host)

def validTz (name : String) : Bool := (host.zoneinfo name).isSome

/-- `default_timezone_name`: `HIMMY_TZ`, else the zone of the host, else UTC. -/
def defaultTimezoneName : String :=
  let env := String.ofList (pyStrip isPySpace (host.himmyTz.getD "").toList)
  if env ≠ "" ∧ validTz host env = true then env
  else
    match host.localKey with
    | some name => if validTz host name then name else "UTC"
    | none => "UTC"

/-- `resolve_zone`: an unresolvable name becomes UTC. -/
def resolveZone (timezone : Option String) : Except RoutineError ZoneInfo :=
  match host.zoneinfo (pyOr timezone (defaultTimezoneName host)) with
  | some zone => .ok zone
  | none =>
    match host.zoneinfo "UTC" with
    | some zone => .ok zone
    | none => .error (.zoneInfoNotFound "UTC")

def validateTimezone (name : String) : Except RoutineError Unit :=
  if validTz host name then .ok ()
  else .error (.validation "schedule" ("timezone '" ++ name ++ "' is not a valid IANA timezone "
    ++ "(e.g. 'Asia/Kathmandu', 'UTC', 'America/New_York')"))

/-- Without `cronsim` every expression is accepted. -/
def validateCron (expr : String) : Except RoutineError Unit :=
  match host.cronsim with
  | none => .ok ()
  | some sim =>
    match sim.parse expr with
    | .ok () => .ok ()
    | .error exc => .error (.validation "schedule"
        ("invalid cron expression '" ++ expr ++ "': " ++ exc))

/-- The first occurrence strictly after an instant, computed in the zone, as UTC. -/
def cronNextFire (expr : String) (after : DateTime) (zone : ZoneInfo) :
    Except RoutineError DateTime :=
  match host.cronsim with
  | none => .error .cronUnavailable
  | some sim => do
    let utc ← orOverflow after.toUtc
    let anchor ← astimezone (← orOverflow (utc.add 1)) zone
    match sim.next expr anchor zone with
    | .ok occ => orOverflow occ.toUtc
    | .error (.raised message) => .error (.cronSim message)
    | .error .exhausted => .error .stopIteration

end Host

/-! ## The data model -/

inductive ScheduleKind where
  | daily
  | every
  | cron
  | at
  deriving DecidableEq

inductive MissedRunPolicy where
  | coalesce
  | skip
  | runEach
  deriving DecidableEq

structure Schedule where
  kind : ScheduleKind
  atTime : Option String := none
  hours : Option Int := none
  expr : Option String := none
  atDatetime : Option String := none
  timezone : Option String := none
  missed : MissedRunPolicy := .coalesce
  maxCatchup : Int := 100
  graceSeconds : Int := 900
  deriving DecidableEq

/-- One scheduled routine, as stored. -/
structure Routine where
  id : String
  name : String
  workspaceId : String := localWorkspace
  agentPath : Option String := none
  agentId : Option String := none
  prompt : String
  schedule : Schedule
  provider : Option String := none
  model : Option String := none
  deliver : String := "none"
  enabled : Bool := true
  idempotencyKey : Option String := none
  createdAt : String
  updatedAt : String
  nextFireAt : Option String := none
  lastRunAt : Option String := none
  lastStatus : Option String := none
  lastPreview : String := ""
  lastError : Option String := none
  lastDelivery : Option String := none
  deriving DecidableEq

/-! ## Due-math -/

/-- The characters that are zero in some script; the nine digits follow each. -/
def zeroDigits : List Nat :=
  [0x30, 0x660, 0x6F0, 0x7C0, 0x966, 0x9E6, 0xA66, 0xAE6, 0xB66, 0xBE6, 0xC66, 0xCE6, 0xD66, 0xDE6,
    0xE50, 0xED0, 0xF20, 0x1040, 0x1090, 0x17E0, 0x1810, 0x1946, 0x19D0, 0x1A80, 0x1A90, 0x1B50,
    0x1BB0, 0x1C40, 0x1C50, 0xA620, 0xA8D0, 0xA900, 0xA9D0, 0xA9F0, 0xAA50, 0xABF0, 0xFF10, 0x104A0,
    0x10D30, 0x11066, 0x110F0, 0x11136, 0x111D0, 0x112F0, 0x11450, 0x114D0, 0x11650, 0x116C0,
    0x11730, 0x118E0, 0x11950, 0x11C50, 0x11D50, 0x11DA0, 0x11F50, 0x16A60, 0x16AC0, 0x16B50,
    0x1D7CE, 0x1D7D8, 0x1D7E2, 0x1D7EC, 0x1D7F6, 0x1E140, 0x1E2F0, 0x1E4F0, 0x1E950, 0x1FBF0]

/-- The value of a character that `\d` matches. -/
def decimalDigit (c : Char) : Option (Fin 10) :=
  zeroDigits.findSome? (fun start =>
    if h : start ≤ c.toNat ∧ c.toNat < start + 10 then some ⟨c.toNat - start, by omega⟩ else none)

def matchHour (h1 h2 : Char) : Option (Fin 24) :=
  if h1 = '0' then (decimalDigit h2).map (fun d => Fin.castLE (by omega) d)
  else if h1 = '1' then (decimalDigit h2).map (fun d => Fin.natAdd 10 d |>.castLE (by omega))
  else if h1 = '2' then
    if h2 = '0' then some 20
    else if h2 = '1' then some 21
    else if h2 = '2' then some 22
    else if h2 = '3' then some 23
    else none
  else none

def matchMinute (m1 m2 : Char) : Option (Fin 60) :=
  match decimalDigit m2 with
  | none => none
  | some unit =>
    if m1 = '0' then some (Fin.castLE (by omega) unit)
    else if m1 = '1' then some ((Fin.natAdd 10 unit).castLE (by omega))
    else if m1 = '2' then some ((Fin.natAdd 20 unit).castLE (by omega))
    else if m1 = '3' then some ((Fin.natAdd 30 unit).castLE (by omega))
    else if m1 = '4' then some ((Fin.natAdd 40 unit).castLE (by omega))
    else if m1 = '5' then some ((Fin.natAdd 50 unit).castLE (by omega))
    else none

/-- `_AT_RE`: `HH:MM`, before the end or a last newline. -/
def matchAt (text : String) : Option (Fin 24 × Fin 60) :=
  let chars := text.toList
  match if chars.getLast? = some '\n' then chars.dropLast else chars with
  | [h1, h2, ':', m1, m2] =>
    match matchHour h1 h2, matchMinute m1 m2 with
    | some hour, some minute => some (hour, minute)
    | _, _ => none
  | _ => none

def parseIso (value : String) : Option DateTime := DateTime.fromisoformat value.toList

def Routine.anchor (r : Routine) : Option DateTime := parseIso (pyOr r.lastRunAt r.createdAt)

section DueMath

variable (host : Host) (r : Routine)

/-- `planned_fire_at`: the next fire of a cron or one-shot routine after an anchor. -/
def plannedFireAt (anchor : DateTime) : Except RoutineError (Option DateTime) :=
  match r.schedule.kind with
  | .cron =>
    match orNone r.schedule.expr with
    | none => .ok none
    | some expr =>
      match resolveZone host r.schedule.timezone with
      | .error e => .error e
      | .ok zone =>
        match cronNextFire host expr anchor zone with
        | .ok planned => .ok (some planned)
        | .error .cronUnavailable => .ok none
        | .error e => .error e
  | .at =>
    match parseIso (r.schedule.atDatetime.getD "") with
    | none => .ok none
    | some instant => do
      let instant ← orOverflow instant.toUtc
      .ok (if anchor.instant < instant.instant then some instant else none)
  | _ => .ok none

variable (now : DateTime)

/-- The most recent occurrence of `HH:MM`, on the clock that `now` shows. -/
def lastOccurrence (time : Fin 24 × Fin 60) : Except RoutineError DateTime :=
  let occurrence := now.replaceTime time.1 time.2
  if now.instant < occurrence.instant then orOverflow (occurrence.add (-usDay)) else .ok occurrence

def nextOccurrence (time : Fin 24 × Fin 60) : Except RoutineError DateTime :=
  let occurrence := now.replaceTime time.1 time.2
  if occurrence.instant ≤ now.instant then orOverflow (occurrence.add usDay) else .ok occurrence

def isDue : Except RoutineError Bool :=
  if r.enabled = false then .ok false
  else
    match r.anchor with
    | none => .ok false
    | some anchor =>
      match r.schedule.kind with
      | .daily =>
        match matchAt (r.schedule.atTime.getD "") with
        | none => .ok false
        | some time => do
          let occurrence ← lastOccurrence now time
          .ok (anchor.instant < occurrence.instant)
      | .every =>
        let hours := r.schedule.hours.getD 0
        if hours ≤ 0 then .ok false
        else do
          let next ← orOverflow (anchor.add (hours * usHour))
          .ok (next.instant ≤ now.instant)
      | _ => do
        match ← plannedFireAt host r anchor with
        | none => .ok false
        | some planned => .ok (planned.instant ≤ now.instant)

/-- `next_fire`: the earliest instant from `now` on at which the routine is due. -/
def nextFire : Except RoutineError (Option DateTime) :=
  if r.enabled = false then .ok none
  else
    match r.anchor with
    | none => .ok none
    | some anchor => do
      let due ← isDue host r now
      if due then .ok (some now)
      else
        match r.schedule.kind with
        | .daily =>
          match matchAt (r.schedule.atTime.getD "") with
          | none => .ok none
          | some time => (nextOccurrence now time).map some
        | .every =>
          let hours := r.schedule.hours.getD 0
          if hours ≤ 0 then .ok none
          else (orOverflow (anchor.add (hours * usHour))).map some
        | _ => plannedFireAt host r anchor

def tickPlannedFireIso : Except RoutineError (Option String) :=
  if r.schedule.kind ∈ [.cron, .at] then
    match r.anchor with
    | none => .ok none
    | some anchor => do
      let planned ← plannedFireAt host r anchor
      .ok (planned.map isoText)
  else .ok none

end DueMath

end Himmy.Routines
