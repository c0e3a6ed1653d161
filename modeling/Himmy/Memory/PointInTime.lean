import Himmy.Core.TimestampOrder
import Himmy.Memory.Service

/-! # Point-in-time validity

`is_valid_at` compares texts. The service writes the ends of a validity window with `utc_now_iso`,
so among themselves they are in the order of their instants; `as_of` is the caller's, and one instant
has many spellings. A comparison of texts is one of instants exactly when `as_of` sorts where the
service's own spelling of its instant does: at or after that one, and before the next microsecond's
(`comparesInstants_iff`). -/

namespace Himmy

open DateTime (fromisoformat ofWall ofWall_eq_some maxWall_eq)

variable {dt : DateTime}

theorem DateTime.instant_of_utc (h : dt.utcoffset = 0) : dt.instant = dt.wall := by
  rw [DateTime.instant, h, Int.sub_zero]

theorem DateTime.utc_inRange : -usDay < 0 ∧ 0 < usDay := by decide

theorem isoText_le_iff {a b : DateTime} (ha : a.utcoffset = 0) (hb : b.utcoffset = 0) :
    isoText a ≤ isoText b ↔ a.wall ≤ b.wall := by
  rw [← not_lt, String.lt_iff_toList_lt, isoText, isoText, String.toList_ofList,
    String.toList_ofList, DateTime.isoformat_lt_iff hb ha, not_lt]

/-- A memory whose validity window the service wrote: each end is the text of a clock reading. -/
structure WrittenMemory where
  record : MemoryRecord
  start : DateTime
  stop : Option DateTime
  start_utc : start.utcoffset = 0
  stop_utc : ∀ dt ∈ stop, dt.utcoffset = 0
  validFrom_eq : record.validFrom = isoText start
  validTo_eq : record.validTo = stop.map isoText

def WrittenMemory.Contains (m : WrittenMemory) (instant : Int) : Prop :=
  m.start.instant ≤ instant ∧ ∀ stop ∈ m.stop, instant < stop.instant

/-- A memory in force since `start`. -/
def WrittenMemory.since (start : DateTime) (h : start.utcoffset = 0) : WrittenMemory where
  record := { memoryId := "m", createdAt := isoText start }
  start := start
  stop := none
  start_utc := h
  stop_utc := fun _ hdt => by cases hdt
  validFrom_eq := rfl
  validTo_eq := rfl

variable (asOf : String)

/-- Point-in-time validity is a comparison of instants, for the memories the service writes. -/
def ComparesInstants : Prop :=
  ∀ dt ∈ fromisoformat asOf.toList, ∀ m : WrittenMemory,
    isValidAt m.record asOf = true ↔ m.Contains dt.instant

/-! ## Where a spelling sorts -/

variable (instant : Int)

def lastReading : Option DateTime :=
  ofWall (min instant (maxWall - 1)) 0

def nextReading : Option DateTime :=
  ofWall (max (instant + 1) 0) 0

/-- `as_of` sorts where the texts of the clock readings leave a place for its instant. -/
def SortsAt : Prop :=
  (∀ dt ∈ lastReading instant, isoText dt ≤ asOf) ∧ ∀ dt ∈ nextReading instant, asOf < isoText dt

/-- Whatever `as_of` names, it sorts at the instant it names. -/
def SpelledInOrder : Prop :=
  ∀ dt ∈ fromisoformat asOf.toList, SortsAt asOf dt.instant

variable {instant : Int}

theorem lastReading_spec (h : dt ∈ lastReading instant) :
    dt.utcoffset = 0 ∧ dt.instant ≤ instant := by
  obtain ⟨hwall, hutc⟩ := ofWall_eq_some.1 h
  rw [DateTime.instant_of_utc hutc, hwall]
  exact ⟨hutc, min_le_left _ _⟩

theorem nextReading_spec (h : dt ∈ nextReading instant) :
    dt.utcoffset = 0 ∧ instant < dt.instant := by
  obtain ⟨hwall, hutc⟩ := ofWall_eq_some.1 h
  rw [DateTime.instant_of_utc hutc, hwall]
  exact ⟨hutc, by omega⟩

theorem exists_lastReading (hutc : dt.utcoffset = 0)
    (h : dt.instant ≤ instant) : ∃ last ∈ lastReading instant, isoText dt ≤ isoText last := by
  rw [DateTime.instant_of_utc hutc] at h
  have hrange := dt.inRange
  rw [maxWall_eq] at hrange
  have hlast : 0 ≤ min instant (maxWall - 1) ∧ min instant (maxWall - 1) < maxWall := by
    rw [maxWall_eq]
    omega
  refine ⟨⟨min instant (maxWall - 1), 0, hlast, DateTime.utc_inRange⟩, ?_, ?_⟩
  · exact ofWall_eq_some.2 ⟨rfl, rfl⟩
  · rw [isoText_le_iff hutc rfl]
    show dt.wall ≤ min instant (maxWall - 1)
    rw [maxWall_eq]
    omega

theorem exists_nextReading (hutc : dt.utcoffset = 0)
    (h : instant < dt.instant) : ∃ next ∈ nextReading instant, isoText next ≤ isoText dt := by
  rw [DateTime.instant_of_utc hutc] at h
  have hrange := dt.inRange
  have hnext : 0 ≤ max (instant + 1) 0 ∧ max (instant + 1) 0 < maxWall := by omega
  refine ⟨⟨max (instant + 1) 0, 0, hnext, DateTime.utc_inRange⟩, ?_, ?_⟩
  · exact ofWall_eq_some.2 ⟨rfl, rfl⟩
  · rw [isoText_le_iff rfl hutc]
    show max (instant + 1) 0 ≤ dt.wall
    omega

theorem SortsAt.isoText_le_iff {asOf : String} (h : SortsAt asOf instant)
    (hutc : dt.utcoffset = 0) : isoText dt ≤ asOf ↔ dt.instant ≤ instant := by
  constructor
  · intro hle
    by_contra hafter
    obtain ⟨next, hnext, hle'⟩ := exists_nextReading hutc (not_le.1 hafter)
    exact absurd (hle'.trans hle) (not_le.2 (h.2 next hnext))
  · intro hle
    obtain ⟨last, hlast, hle'⟩ := exists_lastReading hutc hle
    exact hle'.trans (h.1 last hlast)

theorem isValidAt_since {start : DateTime} (hutc : start.utcoffset = 0) (asOf : String) :
    isValidAt (WrittenMemory.since start hutc).record asOf = true ↔ isoText start ≤ asOf := by
  rw [isValidAt_iff]
  exact and_iff_left (fun _ h => by cases h)

theorem contains_since {start : DateTime} (hutc : start.utcoffset = 0) (instant : Int) :
    (WrittenMemory.since start hutc).Contains instant ↔ start.instant ≤ instant :=
  and_iff_left (fun _ h => by cases h)

/-- **Point-in-time validity is a comparison of instants exactly for the spellings in order.** -/
theorem comparesInstants_iff (asOf : String) : ComparesInstants asOf ↔ SpelledInOrder asOf := by
  constructor
  · intro h dt hdt
    constructor
    · intro last hlast
      obtain ⟨hutc, hle⟩ := lastReading_spec hlast
      rw [← isValidAt_since hutc, h dt hdt, contains_since]
      exact hle
    · intro next hnext
      obtain ⟨hutc, hlt⟩ := nextReading_spec hnext
      rw [← not_le, ← isValidAt_since hutc, h dt hdt, contains_since]
      exact not_le.2 hlt
  · intro h dt hdt m
    have hsorts := h dt hdt
    rw [isValidAt_iff, m.validFrom_eq, hsorts.isoText_le_iff m.start_utc, m.validTo_eq]
    refine and_congr_right (fun _ => ?_)
    constructor
    · intro hbefore stop hstop
      rw [← not_le, ← hsorts.isoText_le_iff (m.stop_utc stop hstop), not_le]
      exact hbefore _ (Option.mem_map_of_mem _ hstop)
    · intro hbefore text htext
      obtain ⟨stop, hstop, rfl⟩ := Option.mem_map.1 htext
      rw [← not_le, hsorts.isoText_le_iff (m.stop_utc stop hstop), not_le]
      exact hbefore stop hstop

private def midnight : DateTime := ⟨63907920000000000, 0, by decide, DateTime.utc_inRange⟩

/-- Half a second later: `2026-03-01T00:00:00.500000+00:00`. -/
private def afterMidnight : DateTime := ⟨63907920000500000, 0, by decide, DateTime.utc_inRange⟩

/-- `Z` sorts after the point before the microseconds: a memory valid from half a second past
    midnight is already valid at midnight. -/
theorem not_comparesInstants_utcSuffix : ¬ ComparesInstants "2026-03-01T00:00:00Z" := by
  intro h
  have hnamed : fromisoformat "2026-03-01T00:00:00Z".toList = some midnight := by
    decide +kernel
  have hsorts : isoText afterMidnight ≤ "2026-03-01T00:00:00Z" := by decide +kernel
  have hin := (h midnight hnamed (.since afterMidnight rfl)).1 ((isValidAt_since rfl _).2 hsorts)
  exact absurd ((contains_since rfl _).1 hin) (by decide)

end Himmy
