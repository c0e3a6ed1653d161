import Mathlib.Data.List.Basic
import Mathlib.Order.Basic
import Himmy.Core.IpAddress

/-! # Aware datetimes

Python's `datetime` with a time zone attached: the wall clock it shows, in microseconds since the
first instant of year 1, and the offset of that wall clock from UTC. A wall clock lies in the years
1 to 9999, which is a field of the structure; arithmetic that would leave them has no result, where
the source raises `OverflowError`.

`isoformat` writes a datetime and `fromisoformat` reads one; the calendar is the proleptic Gregorian
one, counted in ordinals (`ymd2ord_ord2ymd`). -/

namespace Himmy

/-! ## The calendar -/

namespace Calendar

def isLeap (year : Nat) : Bool := year % 4 == 0 && (year % 100 != 0 || year % 400 == 0)

def daysBeforeYear (year : Nat) : Nat :=
  let y := year - 1
  y * 365 + y / 4 - y / 100 + y / 400

def daysInMonth (leap : Bool) : Nat → Nat
  | 2 => if leap then 29 else 28
  | 4 | 6 | 9 | 11 => 30
  | _ => 31

def daysBeforeMonth (leap : Bool) : Nat → Nat
  | 0 | 1 => 0
  | month + 1 => daysBeforeMonth leap month + daysInMonth leap month

def ymd2ord (date : Nat × Nat × Nat) : Nat :=
  daysBeforeYear date.1 + daysBeforeMonth (isLeap date.1) date.2.1 + date.2.2

/-- The month and day of the `n`-th day of a year, counted from 0: the month is estimated and the
    estimate is exact or one too large. -/
def monthDay (leap : Bool) (n : Nat) : Nat × Nat :=
  let month := (n + 50) / 32
  if daysBeforeMonth leap month > n then (month - 1, n - daysBeforeMonth leap (month - 1) + 1)
  else (month, n - daysBeforeMonth leap month + 1)

/-- The date of an ordinal: 400-year cycles, then 100-year cycles, then 4-year cycles, then
    years. A fifth year of a 4-year cycle (or century of a 400-year cycle) is its last day. -/
def ord2ymd (ordinal : Nat) : Nat × Nat × Nat :=
  let n := ordinal - 1
  let n400 := n / 146097
  let n := n % 146097
  let n100 := n / 36524
  let n := n % 36524
  let n4 := n / 1461
  let n := n % 1461
  let n1 := n / 365
  let n := n % 365
  let year := n400 * 400 + 1 + n100 * 100 + n4 * 4 + n1
  if n1 = 4 ∨ n100 = 4 then (year - 1, 12, 31)
  else (year, monthDay (isLeap year) n)

def maxOrdinal : Nat := 3652059

/-- The dates a `datetime` can have. -/
def IsDate (date : Nat × Nat × Nat) : Prop :=
  (1 ≤ date.1 ∧ date.1 ≤ 9999) ∧ (1 ≤ date.2.1 ∧ date.2.1 ≤ 12)
    ∧ (1 ≤ date.2.2 ∧ date.2.2 ≤ daysInMonth (isLeap date.1) date.2.1)

instance (date : Nat × Nat × Nat) : Decidable (IsDate date) :=
  inferInstanceAs (Decidable ((1 ≤ date.1 ∧ date.1 ≤ 9999) ∧ (1 ≤ date.2.1 ∧ date.2.1 ≤ 12)
    ∧ (1 ≤ date.2.2 ∧ date.2.2 ≤ daysInMonth (isLeap date.1) date.2.1)))

theorem monthDay_spec : ∀ leap : Bool, ∀ n < 365 + leap.toNat,
    (1 ≤ (monthDay leap n).1 ∧ (monthDay leap n).1 ≤ 12)
      ∧ (1 ≤ (monthDay leap n).2 ∧ (monthDay leap n).2 ≤ daysInMonth leap (monthDay leap n).1)
      ∧ daysBeforeMonth leap (monthDay leap n).1 + (monthDay leap n).2 = n + 1 := by
  decide +kernel

theorem isLeap_eq_true {year : Nat} :
    isLeap year = true ↔ year % 4 = 0 ∧ (year % 100 ≠ 0 ∨ year % 400 = 0) := by
  simp [isLeap]

theorem daysBeforeYear_cycles {a b c d : Nat} (hb : b ≤ 3) (hc : c ≤ 24) (hd : d ≤ 3) :
    daysBeforeYear (a * 400 + 1 + b * 100 + c * 4 + d)
      = a * 146097 + b * 36524 + c * 1461 + d * 365 := by
  have h4 : (a * 400 + b * 100 + c * 4 + d) / 4 = a * 100 + b * 25 + c := by omega
  have h100 : (a * 400 + b * 100 + c * 4 + d) / 100 = a * 4 + b := by omega
  have h400 : (a * 400 + b * 100 + c * 4 + d) / 400 = a := by omega
  have hy : a * 400 + 1 + b * 100 + c * 4 + d - 1 = a * 400 + b * 100 + c * 4 + d := by omega
  simp only [daysBeforeYear, hy, h4, h100, h400]
  omega

theorem isLeap_cycles {a b c d : Nat} (hb : b ≤ 3) (hc : c ≤ 24) (hd : d ≤ 3) :
    isLeap (a * 400 + 1 + b * 100 + c * 4 + d) = true ↔ d = 3 ∧ (c ≠ 24 ∨ b = 3) := by
  rw [isLeap_eq_true]
  omega

theorem ord2ymd_year {n : Nat} (h1 : 1 ≤ n) (hn : n ≤ maxOrdinal) :
    (1 ≤ (ord2ymd n).1 ∧ (ord2ymd n).1 ≤ 9999)
      ∧ ∃ d < 365 + (isLeap (ord2ymd n).1).toNat, daysBeforeYear (ord2ymd n).1 + d + 1 = n
        ∧ (ord2ymd n).2 = monthDay (isLeap (ord2ymd n).1) d := by
  unfold maxOrdinal at hn
  unfold ord2ymd
  simp only
  generalize ha : (n - 1) / 146097 = a
  generalize hra : (n - 1) % 146097 = ra
  generalize hb : ra / 36524 = b
  generalize hrb : ra % 36524 = rb
  generalize hc : rb / 1461 = c
  generalize hrc : rb % 1461 = rc
  generalize hd : rc / 365 = d
  generalize hrd : rc % 365 = rd
  have hn' : n = a * 146097 + b * 36524 + c * 1461 + d * 365 + rd + 1 := by omega
  have hb4 : b ≤ 4 := by omega
  have hc24 : c ≤ 24 := by omega
  have hd4 : d ≤ 4 := by omega
  split
  · next hlast =>
      -- the last day of a cycle: the year before it ends with its 366th day
      have hmonth : monthDay true 365 = (12, 31) := by decide
      rcases Nat.lt_or_ge b 4 with hb' | hb'
      · have hd' : d = 4 := by omega
        have hyear : a * 400 + 1 + b * 100 + c * 4 + d - 1 = a * 400 + 1 + b * 100 + c * 4 + 3 := by
          omega
        have hleap : isLeap (a * 400 + 1 + b * 100 + c * 4 + 3) = true :=
          (isLeap_cycles (by omega) hc24 le_rfl).2 ⟨rfl, by omega⟩
        rw [hyear, daysBeforeYear_cycles (by omega) hc24 le_rfl, hleap]
        exact ⟨by omega, 365, by decide, by omega, hmonth.symm⟩
      · have hyear : a * 400 + 1 + b * 100 + c * 4 + d - 1 = a * 400 + 1 + 3 * 100 + 24 * 4 + 3 := by
          omega
        have hleap : isLeap (a * 400 + 1 + 3 * 100 + 24 * 4 + 3) = true :=
          (isLeap_cycles le_rfl le_rfl le_rfl).2 ⟨rfl, Or.inr rfl⟩
        rw [hyear, daysBeforeYear_cycles le_rfl le_rfl le_rfl, hleap]
        exact ⟨by omega, 365, by decide, by omega, hmonth.symm⟩
  · next hinside =>
      have hb3 : b ≤ 3 := by omega
      have hd3 : d ≤ 3 := by omega
      rw [daysBeforeYear_cycles hb3 hc24 hd3]
      exact ⟨by omega, rd, by omega, by omega, rfl⟩

theorem isDate_ord2ymd {n : Nat} (h1 : 1 ≤ n) (hn : n ≤ maxOrdinal) : IsDate (ord2ymd n) := by
  obtain ⟨hyear, d, hd, -, hmonth⟩ := ord2ymd_year h1 hn
  obtain ⟨hm, hday, -⟩ := monthDay_spec _ d hd
  exact ⟨hyear, by rw [hmonth]; exact hm, by rw [hmonth]; exact hday⟩

theorem ymd2ord_ord2ymd {n : Nat} (h1 : 1 ≤ n) (hn : n ≤ maxOrdinal) : ymd2ord (ord2ymd n) = n := by
  obtain ⟨-, d, hd, hbefore, hmonth⟩ := ord2ymd_year h1 hn
  obtain ⟨-, -, hday⟩ := monthDay_spec _ d hd
  rw [ymd2ord, hmonth]
  omega

end Calendar

/-! ## Datetimes -/

def usSecond : Int := 1000000
def usMinute : Int := 60 * usSecond
def usHour : Int := 60 * usMinute
def usDay : Int := 24 * usHour

def maxWall : Int := Calendar.maxOrdinal * usDay

@[ext] structure DateTime where
  wall : Int
  utcoffset : Int
  inRange : 0 ≤ wall ∧ wall < maxWall
  offsetInRange : -usDay < utcoffset ∧ utcoffset < usDay
  deriving DecidableEq

namespace DateTime

def ofWall (wall utcoffset : Int) : Option DateTime :=
  if h : 0 ≤ wall ∧ wall < maxWall then
    if h' : -usDay < utcoffset ∧ utcoffset < usDay then some ⟨wall, utcoffset, h, h'⟩ else none
  else none

variable (dt : DateTime)

theorem ofWall_self : ofWall dt.wall dt.utcoffset = some dt := by
  rw [ofWall, dif_pos dt.inRange, dif_pos dt.offsetInRange]

/-- The point in time, by which aware datetimes are compared. -/
def instant : Int := dt.wall - dt.utcoffset

/-- `dt + timedelta`; the wall clock moves, the offset stays. -/
def add (delta : Int) : Option DateTime := ofWall (dt.wall + delta) dt.utcoffset

/-- `dt.astimezone(UTC)`. -/
def toUtc : Option DateTime := ofWall dt.instant 0

theorem usDay_eq : usDay = 86400000000 := by decide

theorem maxWall_eq : maxWall = 3652059 * 86400000000 := by decide

/-- `dt.replace(hour=…, minute=…, second=0, microsecond=0)`: another time of the same day. -/
def replaceTime (hour : Fin 24) (minute : Fin 60) : DateTime where
  wall := dt.wall - dt.wall % usDay + (hour.val * usHour + minute.val * usMinute)
  utcoffset := dt.utcoffset
  inRange := by
    have hwall := dt.inRange
    have hour := hour.isLt
    have minute := minute.isLt
    rw [maxWall_eq] at hwall ⊢
    simp only [usDay_eq, usHour, usMinute, usSecond]
    omega
  offsetInRange := dt.offsetInRange

theorem ofWall_eq_some {wall utcoffset : Int} {dt : DateTime} :
    ofWall wall utcoffset = some dt ↔ dt.wall = wall ∧ dt.utcoffset = utcoffset := by
  constructor
  · intro h
    unfold ofWall at h
    split at h
    · split at h
      · cases h; exact ⟨rfl, rfl⟩
      · cases h
    · cases h
  · rintro ⟨rfl, rfl⟩
    exact ofWall_self dt

/-! ## Writing -/

/-- The `k` last decimal digits of a number. -/
def padded : Nat → Nat → List Char
  | 0, _ => []
  | k + 1, n => padded k (n / 10) ++ [Nat.digitChar (n % 10)]

/-- `hh:mm:ss`, with the microseconds when there are some. -/
def formatTime (us : Nat) : List Char :=
  let micro := us % 1000000
  let second := us / 1000000
  padded 2 (second / 3600) ++ ':' :: padded 2 (second / 60 % 60) ++ ':' :: padded 2 (second % 60)
    ++ (if micro = 0 then [] else '.' :: padded 6 micro)

/-- `_format_offset`; the seconds are left out when there are none. -/
def formatOffset (us : Nat) : List Char :=
  if us % 60000000 = 0 then
    padded 2 (us / 3600000000) ++ ':' :: padded 2 (us / 60000000 % 60)
  else formatTime us

/-- `dt.isoformat()`. -/
def isoformat : List Char :=
  let date := Calendar.ord2ymd ((dt.wall / usDay).toNat + 1)
  padded 4 date.1 ++ '-' :: padded 2 date.2.1 ++ '-' :: padded 2 date.2.2
    ++ 'T' :: formatTime (dt.wall % usDay).toNat
    ++ (if dt.utcoffset < 0 then '-' else '+') :: formatOffset dt.utcoffset.natAbs

/-! ## Reading -/

open IpAddress (isAsciiDigit decimalOf)

/-- The number in the next `k` characters, which are digits, and what follows. -/
def field (k : Nat) (text : List Char) : Option (Nat × List Char) :=
  if (text.take k).length = k ∧ (text.take k).all isAsciiDigit = true then
    some (decimalOf (text.take k), text.drop k)
  else none

variable (text : List Char)

/-- `_find_isoformat_datetime_separator`: where the date ends. -/
def findSeparator : Nat :=
  let digitAt (i : Nat) : Bool := text[i]?.any isAsciiDigit
  if text.length = 7 then 7
  else if text[4]? = some '-' then
    if text[5]? = some 'W' then
      if text[8]? = some '-' then
        if digitAt 10 then 8 else 10
      else 8
    else 10
  else if text[4]? = some 'W' then
    let idx := 7 + ((text.drop 7).takeWhile isAsciiDigit).length
    if idx < 9 then idx else if idx % 2 = 0 then 7 else 8
  else 8

def isoweek1monday (year : Nat) : Nat :=
  let firstday := Calendar.ymd2ord (year, 1, 1)
  let firstweekday := (firstday + 6) % 7
  if firstweekday > 3 then firstday - firstweekday + 7 else firstday - firstweekday

/-- `_isoweek_to_gregorian`, as an ordinal. -/
def isoweekToOrdinal (year week day : Nat) : Option Nat :=
  let firstWeekday := Calendar.ymd2ord (year, 1, 1) % 7
  if ¬(1 ≤ year ∧ year ≤ 9999) then none
  else if ¬(0 < week ∧ week < 53) ∧
      ¬(week = 53 ∧ (firstWeekday = 4 ∨ (firstWeekday = 3 ∧ Calendar.isLeap year = true))) then none
  else if ¬(0 < day ∧ day < 8) then none
  else
    let ordinal := isoweek1monday year + ((week - 1) * 7 + (day - 1))
    if 1 ≤ ordinal ∧ ordinal ≤ Calendar.maxOrdinal then some ordinal else none

/-- Skip a dash when the date uses them; it may not be there otherwise. -/
def dash (hasSep : Bool) (text : List Char) : Option (List Char) :=
  if (text.head? == some '-') = hasSep then some (if hasSep then text.tail else text) else none

/-- `_parse_isoformat_date`, as an ordinal: `YYYY-MM-DD`, `YYYYMMDD`, `YYYY-Www-D`, `YYYYWwwD` and
    the weeks without a day. -/
def parseDate : Option Nat := do
  let (year, rest) ← field 4 text
  let hasSep := rest.head? == some '-'
  let rest := if hasSep then rest.tail else rest
  if rest.head? = some 'W' then
    let (week, rest) ← field 2 rest.tail
    if rest = [] then isoweekToOrdinal year week 1
    else
      let rest ← dash hasSep rest
      let (day, rest) ← field 1 rest
      if rest = [] then isoweekToOrdinal year week day else none
  else
    let (month, rest) ← field 2 rest
    let rest ← dash hasSep rest
    let (day, rest) ← field 2 rest
    if rest = [] ∧ Calendar.IsDate (year, month, day) then some (Calendar.ymd2ord (year, month, day))
    else none

def parseFraction : List Char → Option Nat
  | [] => some 0
  | mark :: digits =>
    if (mark = '.' ∨ mark = ',') ∧ digits ≠ [] ∧ digits.all isAsciiDigit = true then
      some (decimalOf (digits.take 6) * 10 ^ (6 - (digits.take 6).length))
    else none

/-- `_parse_hh_mm_ss_ff`: `HH`, `HH:MM`, `HHMM`, `HH:MM:SS`, `HHMMSS`, the last two with a
    fraction. -/
def parseClock : Option (Nat × Nat × Nat × Nat) := do
  let (hour, rest) ← field 2 text
  if rest = [] then some (hour, 0, 0, 0)
  else
    let hasSep := rest.head? == some ':'
    let (minute, rest) ← field 2 (if hasSep then rest.tail else rest)
    if rest = [] then some (hour, minute, 0, 0)
    else if hasSep && rest.head? != some ':' then none
    else
      let (second, rest) ← field 2 (if hasSep then rest.tail else rest)
      let micro ← parseFraction rest
      some (hour, minute, second, micro)

/-- Where the offset starts: at the first `-`, or else `+`, or else `Z`. -/
def findOffset : Option Nat :=
  if '-' ∈ text then some (text.idxOf '-')
  else if '+' ∈ text then some (text.idxOf '+')
  else if 'Z' ∈ text then some (text.idxOf 'Z')
  else none

def clockUs (clock : Nat × Nat × Nat × Nat) : Int :=
  clock.1 * usHour + clock.2.1 * usMinute + clock.2.2.1 * usSecond + clock.2.2.2

/-- `_parse_isoformat_time`: the time of the day and, when the text has one, the offset. -/
def parseTime : Option (Int × Option Int) := do
  let time (part : List Char) : Option Int := do
    let clock ← parseClock part
    if clock.1 < 24 ∧ clock.2.1 < 60 ∧ clock.2.2.1 < 60 then some (clockUs clock) else none
  match findOffset text with
  | none => (time text).map (fun us => (us, none))
  | some pos =>
    let us ← time (text.take pos)
    let zone := text.drop (pos + 1)
    if zone = [] ∧ text[pos]? = some 'Z' then some (us, some 0)
    else if zone.length = 0 ∨ zone.length = 1 ∨ zone.length = 3 then none
    else
      let clock ← parseClock zone
      let offset := if text[pos]? = some '-' then -clockUs clock else clockUs clock
      some (us, some offset)

def parseRest (sep : Nat) (text : List Char) : Option (Int × Option Int) :=
  if text.length ≤ sep then some (0, none) else parseTime (text.drop (sep + 1))

/-- `datetime.fromisoformat`, and UTC for a text without an offset. ISO 8601 also has fractions of
    hours and of minutes, which are not supported. -/
def fromisoformat : Option DateTime :=
  if text.length < 7 then none
  else do
    let ordinal ← parseDate (text.take (findSeparator text))
    let time ← parseRest (findSeparator text) text
    ofWall ((ordinal - 1 : Nat) * usDay + time.1) (time.2.getD 0)

/-! ## Reading what was written -/

@[simp] theorem length_padded (k n : Nat) : (padded k n).length = k := by
  induction k generalizing n with
  | zero => rfl
  | succ k ih => simp [padded, ih]

theorem daysInMonth_le (leap : Bool) (month : Nat) : Calendar.daysInMonth leap month ≤ 31 := by
  unfold Calendar.daysInMonth
  split
  · split <;> decide
  all_goals decide

end DateTime

def isoText (dt : DateTime) : String := String.ofList dt.isoformat

end Himmy
