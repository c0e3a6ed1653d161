import Himmy.Routines.Scheduler

/-! # When one routine cannot stop another

A tick, the sleep planning and the listing leave no routine out exactly when the host validates
every row and the time arithmetic of every schedule that is looked at succeeds
(`tick_isolated_iff`). `Computable` says when it does, kind by kind: the instants stay within the
years of a datetime, and the cron iterator, when there is one, answers. -/

namespace Himmy.Routines

open Sweep (yields guarded sweep)

/-! ## When the arithmetic of a schedule succeeds -/

section Computable

variable (host : Host) (now : DateTime)

def DailyFits (anchor occurrence : DateTime) : Prop :=
  (now.instant < occurrence.instant → (occurrence.add (-usDay)).isSome = true)
    ∧ (occurrence.instant ≤ now.instant → occurrence.instant ≤ anchor.instant →
        (occurrence.add usDay).isSome = true)

def CronAnswers (expr : String) (timezone : Option String) (anchor : DateTime) : Prop :=
  ∃ zone, resolveZone host timezone = .ok zone ∧
    ∀ sim, host.cronsim = some sim → ∃ utc next start occ, anchor.toUtc = some utc
      ∧ utc.add 1 = some next ∧ astimezone next zone = .ok start
      ∧ sim.next expr start zone = .ok occ ∧ occ.toUtc.isSome = true

/-- The arithmetic that a routine's schedule needs at `now` succeeds. -/
def Computable (r : Routine) : Prop :=
  r.enabled = true → ∀ anchor, r.anchor = some anchor →
    match r.schedule.kind with
    | .daily => ∀ time, matchAt (r.schedule.atTime.getD "") = some time →
        DailyFits now anchor (now.replaceTime time.1 time.2)
    | .every => 0 < r.schedule.hours.getD 0 →
        (anchor.add (r.schedule.hours.getD 0 * usHour)).isSome = true
    | .cron => ∀ expr, orNone r.schedule.expr = some expr →
        CronAnswers host expr r.schedule.timezone anchor
    | .at => ∀ instant, parseIso (r.schedule.atDatetime.getD "") = some instant →
        instant.toUtc.isSome = true

end Computable

variable {host : Host} {now : DateTime} {dt : Option DateTime}

theorem exists_orOverflow : (∃ t, orOverflow dt = .ok t) ↔ dt.isSome = true := by
  cases dt with
  | none => simp [orOverflow]
  | some dt => simp [orOverflow]

theorem exists_map_ok {α β ε : Type} {x : Except ε α} {f : α → β} :
    (∃ b, x.map f = .ok b) ↔ ∃ a, x = .ok a := by
  cases x with
  | ok a => simp [Except.map]
  | error e => simp [Except.map]

theorem orOverflow_ok {t : DateTime} : orOverflow dt = .ok t ↔ dt = some t := by
  cases dt with
  | none => simp [orOverflow]
  | some dt => simp [orOverflow]

theorem orOverflow_error {e : RoutineError} (h : orOverflow dt = .error e) : e = .overflow := by
  cases dt with
  | none => cases h; rfl
  | some dt => cases h

theorem bind_error {α β ε : Type} {x : Except ε α} {f : α → Except ε β} {e : ε}
    (h : (x >>= f) = .error e) : x = .error e ∨ ∃ a, x = .ok a ∧ f a = .error e := by
  cases x with
  | ok a => exact Or.inr ⟨a, rfl, h⟩
  | error e' => cases h; exact Or.inl rfl

theorem astimezone_error {dt : DateTime} {zone : ZoneInfo} {e : RoutineError}
    (h : astimezone dt zone = .error e) : e = .overflow := by
  rcases bind_error h with h | ⟨utc, -, h⟩
  · exact orOverflow_error h
  · exact orOverflow_error h

section Cron

variable {sim : CronSim} {expr : String} {after : DateTime} {zone : ZoneInfo}

theorem cronNextFire_error (hsim : host.cronsim = some sim) {e : RoutineError}
    (h : cronNextFire host expr after zone = .error e) : e ≠ .cronUnavailable := by
  rw [cronNextFire, hsim] at h
  intro he
  rcases bind_error h with h | ⟨utc, -, h⟩
  · rw [orOverflow_error h] at he; cases he
  · rcases bind_error h with h | ⟨next, -, h⟩
    · rw [orOverflow_error h] at he; cases he
    · rcases bind_error h with h | ⟨start, -, h⟩
      · rw [astimezone_error h] at he; cases he
      · split at h
        · rw [orOverflow_error h] at he; cases he
        · cases h; cases he
        · cases h; cases he

theorem exists_cronNextFire (hsim : host.cronsim = some sim) :
    (∃ t, cronNextFire host expr after zone = .ok t) ↔
      ∃ utc next start occ, after.toUtc = some utc ∧ utc.add 1 = some next
        ∧ astimezone next zone = .ok start ∧ sim.next expr start zone = .ok occ
        ∧ occ.toUtc.isSome = true := by
  rw [cronNextFire, hsim]
  constructor
  · rintro ⟨t, h⟩
    obtain ⟨utc, hutc, h⟩ := bind_ok.1 h
    obtain ⟨next, hnext, h⟩ := bind_ok.1 h
    obtain ⟨start, hstart, h⟩ := bind_ok.1 h
    split at h
    · next occ hocc =>
        exact ⟨utc, next, start, occ, orOverflow_ok.1 hutc, orOverflow_ok.1 hnext, hstart, hocc,
          exists_orOverflow.1 ⟨t, h⟩⟩
    · cases h
    · cases h
  · rintro ⟨utc, next, start, occ, hutc, hnext, hstart, hocc, hsome⟩
    obtain ⟨t, ht⟩ := exists_orOverflow.2 hsome
    refine ⟨t, bind_ok.2 ⟨utc, orOverflow_ok.2 hutc, bind_ok.2 ⟨next, orOverflow_ok.2 hnext,
      bind_ok.2 ⟨start, hstart, ?_⟩⟩⟩⟩
    rw [hocc]
    exact ht

end Cron

theorem exists_planned_cron {r : Routine} {anchor : DateTime} (hkind : r.schedule.kind = .cron) :
    (∃ o, plannedFireAt host r anchor = .ok o) ↔ ∀ expr, orNone r.schedule.expr = some expr →
        CronAnswers host expr r.schedule.timezone anchor := by
  unfold plannedFireAt CronAnswers
  rw [hkind]
  simp only
  cases hexpr : orNone r.schedule.expr with
  | none => simp
  | some expr =>
    simp only [Option.some.injEq, forall_eq']
    cases hzone : resolveZone host r.schedule.timezone with
    | error e => simp
    | ok zone =>
      simp only [Except.ok.injEq, exists_eq_left']
      cases hsim : host.cronsim with
      | none => simp [cronNextFire, hsim]
      | some sim =>
        simp only [Option.some.injEq, forall_eq']
        rw [← exists_cronNextFire hsim]
        cases hnext : cronNextFire host expr anchor zone with
        | ok t => simp
        | error e =>
          have hne := cronNextFire_error hsim hnext
          cases e with
          | cronUnavailable => exact absurd rfl hne
          | _ => simp

theorem exists_planned_at {r : Routine} {anchor : DateTime} (hkind : r.schedule.kind = .at) :
    (∃ o, plannedFireAt host r anchor = .ok o) ↔
      ∀ instant, parseIso (r.schedule.atDatetime.getD "") = some instant →
        instant.toUtc.isSome = true := by
  unfold plannedFireAt
  rw [hkind]
  simp only
  cases hparse : parseIso (r.schedule.atDatetime.getD "") with
  | none => simp
  | some instant =>
    simp only [Option.some.injEq, forall_eq']
    rw [← exists_orOverflow]
    constructor
    · rintro ⟨o, h⟩
      obtain ⟨t, ht, -⟩ := bind_ok.1 h
      exact ⟨t, ht⟩
    · rintro ⟨t, ht⟩
      exact ⟨_, bind_ok.2 ⟨t, ht, rfl⟩⟩

/-! ## The two questions about a routine -/

section Kinds

variable {r : Routine} {anchor : DateTime}

theorem nextFire_of_disabled (h : r.enabled = false) : nextFire host r now = .ok none := by
  rw [nextFire, if_pos h]

theorem nextFire_of_no_anchor (h : r.enabled = true) (hanchor : r.anchor = none) :
    nextFire host r now = .ok none := by
  rw [nextFire, if_neg (by simp [h]), hanchor]

theorem exists_nextFire_daily (h : r.enabled = true) (hanchor : r.anchor = some anchor)
    (hkind : r.schedule.kind = .daily) : (∃ o, nextFire host r now = .ok o) ↔
      ∀ time, matchAt (r.schedule.atTime.getD "") = some time →
        DailyFits now anchor (now.replaceTime time.1 time.2) := by
  rw [nextFire, isDue, if_neg (by simp [h]), if_neg (by simp [h]), hanchor, hkind]
  simp only
  cases htime : matchAt (r.schedule.atTime.getD "") with
  | none => simp [bind, Except.bind]
  | some time =>
    simp only [Option.some.injEq, forall_eq', DailyFits, lastOccurrence, nextOccurrence]
    generalize now.replaceTime time.1 time.2 = occurrence
    rcases lt_or_ge now.instant occurrence.instant with hlater | hpast
    · -- the occurrence of today is ahead, and the last one was yesterday
      have hnot : ¬occurrence.instant ≤ now.instant := by omega
      rw [if_pos hlater, if_neg hnot]
      cases hday : occurrence.add (-usDay) with
      | none => simp [orOverflow, bind, Except.bind, hlater]
      | some yesterday =>
        by_cases hdue : anchor.instant < yesterday.instant
        · simp [orOverflow, bind, Except.bind, hdue, hnot]
        · simp [orOverflow, bind, Except.bind, hdue, hnot, Except.map]
    · have hnot : ¬now.instant < occurrence.instant := by omega
      rw [if_neg hnot, if_pos hpast]
      by_cases hdue : anchor.instant < occurrence.instant
      · have hbefore : ¬occurrence.instant ≤ anchor.instant := by omega
        simp [bind, Except.bind, hdue, hnot, hbefore]
      · have hbefore : occurrence.instant ≤ anchor.instant := by omega
        cases hday : occurrence.add usDay with
        | none => simp [orOverflow, bind, Except.bind, hdue, hbefore, hpast, Except.map]
        | some tomorrow => simp [orOverflow, bind, Except.bind, hdue, hnot, Except.map]

theorem exists_nextFire_every (h : r.enabled = true) (hanchor : r.anchor = some anchor)
    (hkind : r.schedule.kind = .every) :
    (∃ o, nextFire host r now = .ok o) ↔ (0 < r.schedule.hours.getD 0 →
      (anchor.add (r.schedule.hours.getD 0 * usHour)).isSome = true) := by
  rw [nextFire, isDue, if_neg (by simp [h]), if_neg (by simp [h]), hanchor, hkind]
  simp only
  by_cases hhours : r.schedule.hours.getD 0 ≤ 0
  · have hnot : ¬0 < r.schedule.hours.getD 0 := by omega
    simp [hhours, hnot, bind, Except.bind]
  · have hpos : 0 < r.schedule.hours.getD 0 := by omega
    rw [if_neg hhours, if_neg hhours]
    cases hnext : anchor.add (r.schedule.hours.getD 0 * usHour) with
    | none => simp [orOverflow, bind, Except.bind, hpos]
    | some next =>
      by_cases hdue : next.instant ≤ now.instant
      · simp [orOverflow, bind, Except.bind, hdue]
      · simp [orOverflow, bind, Except.bind, hdue, Except.map]

theorem exists_nextFire_planned (h : r.enabled = true) (hanchor : r.anchor = some anchor)
    (hkind : r.schedule.kind = .cron ∨ r.schedule.kind = .at) :
    (∃ o, nextFire host r now = .ok o) ↔ ∃ o, plannedFireAt host r anchor = .ok o := by
  rw [nextFire, isDue, if_neg (by simp [h]), if_neg (by simp [h]), hanchor]
  cases hplanned : plannedFireAt host r anchor with
  | error e => rcases hkind with hkind | hkind <;> simp [hkind, hplanned, bind, Except.bind]
  | ok planned =>
    rcases hkind with hkind | hkind
    all_goals
      cases planned with
      | none => simp [hkind, hplanned, bind, Except.bind]
      | some t =>
        by_cases hdue : t.instant ≤ now.instant
        · simp [hkind, hplanned, bind, Except.bind, hdue]
        · simp [hkind, hplanned, bind, Except.bind, hdue]

/-- **Computable schedules.** The next fire of a routine can be computed exactly when the arithmetic
    of its schedule succeeds. -/
theorem exists_nextFire : (∃ o, nextFire host r now = .ok o) ↔ Computable host now r := by
  unfold Computable
  cases henabled : r.enabled with
  | false => simp [nextFire_of_disabled henabled]
  | true =>
    cases hanchor : r.anchor with
    | none => simp [nextFire_of_no_anchor henabled hanchor]
    | some anchor =>
      simp only [forall_const, Option.some.injEq, forall_eq']
      cases hkind : r.schedule.kind with
      | daily => exact exists_nextFire_daily henabled hanchor hkind
      | every => exact exists_nextFire_every henabled hanchor hkind
      | cron =>
        rw [exists_nextFire_planned henabled hanchor (Or.inl hkind)]
        exact exists_planned_cron hkind
      | «at» =>
        rw [exists_nextFire_planned henabled hanchor (Or.inr hkind)]
        exact exists_planned_at hkind

theorem exists_isDue (h : ∃ o, nextFire host r now = .ok o) : ∃ due, isDue host r now = .ok due := by
  obtain ⟨o, h⟩ := h
  cases henabled : r.enabled with
  | false => exact ⟨false, by rw [isDue, if_pos henabled]⟩
  | true =>
    rw [nextFire, if_neg (by simp [henabled])] at h
    cases hanchor : r.anchor with
    | none => exact ⟨false, by rw [isDue, if_neg (by simp [henabled]), hanchor]⟩
    | some anchor =>
      rw [hanchor] at h
      obtain ⟨due, hdue, -⟩ := bind_ok.1 h
      exact ⟨due, hdue⟩

theorem exists_tickPlannedFireIso {due : Bool} (hdue : isDue host r now = .ok due)
    (henabled : r.enabled = true) : ∃ iso, tickPlannedFireIso host r = .ok iso := by
  rw [isDue, if_neg (by simp [henabled])] at hdue
  unfold tickPlannedFireIso
  cases hanchor : r.anchor with
  | none =>
    split
    · exact ⟨none, rfl⟩
    · exact ⟨none, rfl⟩
  | some anchor =>
    rw [hanchor] at hdue
    split
    · next hkind =>
        have hplanned : ∃ o, plannedFireAt host r anchor = .ok o := by
          cases hk : r.schedule.kind with
          | daily => rw [hk] at hkind; simp at hkind
          | every => rw [hk] at hkind; simp at hkind
          | cron => rw [hk] at hdue; obtain ⟨o, ho, -⟩ := bind_ok.1 hdue; exact ⟨o, ho⟩
          | «at» => rw [hk] at hdue; obtain ⟨o, ho, -⟩ := bind_ok.1 hdue; exact ⟨o, ho⟩
        obtain ⟨o, ho⟩ := hplanned
        exact ⟨o.map isoText, bind_ok.2 ⟨o, ho, rfl⟩⟩
    · exact ⟨none, rfl⟩

end Kinds

/-! ## Isolation -/

section Isolated

variable (host : Host) (now : DateTime) (table : RoutinesTable) (running : List String)

def readable (workspaceId : Option String) : List Routine :=
  (table.rows workspaceId).filterMap (fun row => (row.toRoutine host).toOption)

def dueNow (r : Routine) : Bool :=
  r.enabled && !running.contains r.id && yields (fun r => (isDue host r now).map some) r == some true

/-- How long the routines that are not running have to wait for their next fires. -/
def wakeups : List Int := guarded (wakeupOf host now running) (readable host table none)

/-- No row makes the listing, the tick or the sleep planning leave out another. -/
structure Isolated (maxSleep : Int) : Prop where
  listing : ∀ workspaceId, table.list host workspaceId = .ok (readable host table workspaceId)
  raised : (tick host now table running).2 = none
  launched : (tick host now table running).1.map Launch.routineId
    = ((readable host table none).filter (dueNow host now running)).map Routine.id
  sleeping : sleepDelay host now maxSleep table running
    = .ok (clampDelay maxSleep (wakeups host now table running).min?)

end Isolated

variable {table : RoutinesTable} {running : List String} {workspaceId : Option String}

theorem list_eq_readable (h : ∀ row ∈ table.rows workspaceId, ∃ r, row.toRoutine host = .ok r) :
    table.list host workspaceId = .ok (readable host table workspaceId) := by
  obtain ⟨routines, hlist⟩ := Sweep.exists_mapM_eq_ok.2 h
  rw [RoutinesTable.list, hlist, readable, Sweep.eq_filterMap_of_mapM hlist]

theorem mem_rows_of_workspace {row : Row}
    (h : row ∈ table.rows workspaceId) : row ∈ table.items := by
  rw [RoutinesTable.rows, List.mem_insertionSort] at h
  exact List.mem_of_mem_filter h

variable {r : Routine}

theorem mem_readable : r ∈ readable host table workspaceId ↔
      ∃ row ∈ table.rows workspaceId, row.toRoutine host = .ok r := by
  rw [readable, List.mem_filterMap]
  refine exists_congr (fun row => and_congr_right (fun _ => ?_))
  cases row.toRoutine host <;> simp [Except.toOption]

theorem nodup_readable (workspaceId : Option String) :
    ((readable host table workspaceId).map Routine.id).Nodup := by
  have hsub : ∀ rows : List Row,
      ((rows.filterMap (fun row => (row.toRoutine host).toOption)).map Routine.id).Sublist
        (rows.map Row.id) := by
    intro rows
    induction rows with
    | nil => exact List.Sublist.slnil
    | cons row rows ih =>
      cases h : row.toRoutine host with
      | error e => simpa [h, Except.toOption] using ih.cons row.id
      | ok r => simpa [h, Except.toOption, id_of_toRoutine h] using ih.cons_cons row.id
  exact (table.nodup_rows workspaceId).sublist (hsub _)

theorem exists_launchOf (h : r.id ∉ running → ∃ due, isDue host r now = .ok due) :
    ∃ o, launchOf host now running r = .ok o := by
  unfold launchOf
  by_cases hrun : running.contains r.id
  · exact ⟨none, by rw [if_pos hrun]⟩
  · rw [if_neg hrun]
    obtain ⟨due, hdue⟩ := h (by simpa using hrun)
    cases due with
    | false => exact ⟨none, bind_ok.2 ⟨false, hdue, rfl⟩⟩
    | true =>
      have henabled : r.enabled = true := by
        by_contra hdis
        rw [isDue, if_pos (by simpa using hdis)] at hdue
        cases hdue
      obtain ⟨iso, hiso⟩ := exists_tickPlannedFireIso hdue henabled
      exact ⟨some ⟨r.id, r.lastRunAt, iso⟩, bind_ok.2 ⟨true, hdue, by simp [hiso, Except.map]⟩⟩

theorem guarded_launchOf {l : List Routine}
    (h : ∀ r ∈ l, ∃ o, launchOf host now running r = .ok o) :
    (guarded (launchOf host now running) l).map Launch.routineId
      = (l.filter (dueNow host now running)).map Routine.id := by
  induction l with
  | nil => rfl
  | cons r rest ih =>
    have ih := ih (fun r' hr' => h r' (List.mem_cons_of_mem r hr'))
    obtain ⟨o, ho⟩ := h r List.mem_cons_self
    have hyield : (yields (launchOf host now running) r).map Launch.routineId
        = if dueNow host now running r then some r.id else none := by
      unfold yields dueNow yields
      rw [ho]
      unfold launchOf at ho
      by_cases hrun : running.contains r.id
      · rw [if_pos hrun] at ho
        cases ho
        simp [List.contains_iff_mem.1 hrun]
      · rw [if_neg hrun] at ho
        obtain ⟨due, hdue, ho⟩ := bind_ok.1 ho
        cases due with
        | false =>
          cases ho
          simp [hdue, Except.map]
        | true =>
          have henabled : r.enabled = true := by
            by_contra hdis
            rw [isDue, if_pos (by simpa using hdis)] at hdue
            cases hdue
          rw [if_pos rfl] at ho
          cases hiso : tickPlannedFireIso host r with
          | error e => rw [hiso] at ho; cases ho
          | ok iso =>
            rw [hiso] at ho
            cases ho
            have hmem : r.id ∉ running := by simpa using hrun
            simp [hdue, henabled, hmem, Except.map]
    simp only [guarded, List.filterMap_cons, List.filter_cons] at ih hyield ⊢
    cases hy : yields (launchOf host now running) r with
    | none =>
      rw [hy] at hyield
      split at hyield
      · cases hyield
      · next hnot => rw [if_neg hnot]; exact ih
    | some b =>
      rw [hy] at hyield
      split at hyield
      · next hdue =>
          rw [if_pos hdue, List.map_cons, List.map_cons, ih]
          simp only [Option.map_some, Option.some.injEq] at hyield
          rw [hyield]
      · cases hyield

theorem exists_wakeupOf :
    (∃ o, wakeupOf host now running r = .ok o) ↔ (r.id ∉ running → Computable host now r) := by
  rw [← exists_nextFire, wakeupOf]
  by_cases hrun : running.contains r.id
  · simp [List.contains_iff_mem.1 hrun]
  · have hmem : r.id ∉ running := by simpa using hrun
    rw [if_neg hrun, exists_map_ok]
    simp [hmem]

theorem soonestFrom_ok_iff {routines : List Routine} : soonestFrom host now running none routines
        = .ok (guarded (wakeupOf host now running) routines).min?
      ↔ ∀ r ∈ routines, r.id ∉ running → Computable host now r := by
  rw [soonestFrom_eq]
  constructor
  · intro h r hr
    rw [← exists_wakeupOf]
    have hraised : (sweep (wakeupOf host now running) routines).2 = none := by
      generalize sweep (wakeupOf host now running) routines = swept at h ⊢
      obtain ⟨secs, _ | e⟩ := swept
      · rfl
      · cases h
    exact Sweep.raised_eq_none_iff.1 hraised r hr
  · intro h
    rw [Sweep.sweep_of_ok (fun r hr => exists_wakeupOf.2 (h r hr))]
    simp only [foldl_earlier]

/-- **Isolation of routines.** No row makes the listing, the tick or the sleep planning fail for the
    others exactly when the host validates every row and can compute the schedules of the routines
    that are not running. -/
theorem tick_isolated_iff (host : Host) (now : DateTime) (table : RoutinesTable)
    (running : List String) (maxSleep : Int) : Isolated host now table running maxSleep ↔
      (∀ row ∈ table.items, row.Valid host)
        ∧ ∀ row ∈ table.items, ∀ r, row.toRoutine host = .ok r → r.id ∉ running →
            Computable host now r := by
  constructor
  · intro h
    have hread : ∀ row ∈ table.rows none, ∃ r, row.toRoutine host = .ok r :=
      Sweep.exists_mapM_eq_ok.1 ⟨_, h.listing none⟩
    refine ⟨fun row hrow => exists_toRoutine_eq_ok.1 (hread row (RoutinesTable.mem_rows.2 hrow)), ?_⟩
    have hsleep := h.sleeping
    rw [sleepDelay, h.listing none] at hsleep
    have hok : ∃ o, soonestFrom host now running none (readable host table none) = .ok o :=
      exists_map_ok.1 ⟨_, hsleep⟩
    have hraised : ∀ r ∈ readable host table none, ∃ o, wakeupOf host now running r = .ok o := by
      rw [soonestFrom_eq] at hok
      refine Sweep.raised_eq_none_iff.1 ?_
      generalize sweep (wakeupOf host now running) (readable host table none) = swept at hok ⊢
      obtain ⟨secs, _ | e⟩ := swept
      · rfl
      · obtain ⟨o, ho⟩ := hok
        cases ho
    intro row hrow r hr
    exact exists_wakeupOf.1 (hraised r (mem_readable.2 ⟨row, RoutinesTable.mem_rows.2 hrow, hr⟩))
  · rintro ⟨hvalid, hcomp⟩
    have hlist : ∀ workspaceId, table.list host workspaceId
        = .ok (readable host table workspaceId) := fun workspaceId =>
      list_eq_readable (fun row hrow => exists_toRoutine_eq_ok.2 (hvalid row (mem_rows_of_workspace hrow)))
    have hall : ∀ r ∈ readable host table none, r.id ∉ running → Computable host now r := by
      intro r hr
      obtain ⟨row, hrow, hread⟩ := mem_readable.1 hr
      exact hcomp row (RoutinesTable.mem_rows.1 hrow) r hread
    have hlaunch : ∀ r ∈ readable host table none, ∃ o, launchOf host now running r = .ok o :=
      fun r hr => exists_launchOf (fun hrun => exists_isDue (exists_nextFire.2 (hall r hr hrun)))
    have htick : tick host now table running
        = (guarded (launchOf host now running) (readable host table none), none) := by
      rw [tick, hlist none]
      exact (tickFrom_eq_sweep (nodup_readable none)).trans (Sweep.sweep_of_ok hlaunch)
    refine ⟨hlist, by rw [htick], ?_, ?_⟩
    · rw [htick]
      exact guarded_launchOf hlaunch
    · rw [sleepDelay, hlist none, wakeups]
      simp only [soonestFrom_ok_iff.2 hall, Except.map]

/-- A host without `cronsim` that knows UTC. -/
def plainHost : Host where
  cronsim := none
  zoneinfo := fun name => if name = "UTC" then some ⟨"UTC", fun _ => 0⟩ else none
  himmyTz := none
  localKey := none

def dailyRow : Row where
  id := "daily"
  name := "Morning report"
  workspaceId := some "acme"
  agentPath := none
  agentId := some "agent-1"
  idempotencyKey := none
  prompt := "Report."
  scheduleKind := "daily"
  scheduleAt := some "07:00"
  scheduleHours := none
  scheduleExpr := none
  scheduleAtDatetime := none
  timezone := none
  missedPolicy := some "coalesce"
  maxCatchup := some 100
  graceSeconds := some 900
  overlapPolicy := some "skip"
  nextFireAt := none
  provider := none
  model := none
  deliver := "none"
  enabled := 1
  createdAt := "2026-01-01T00:00:00+00:00"
  updatedAt := "2026-01-01T00:00:00+00:00"
  lastRunAt := none
  lastStatus := none
  lastPreview := some ""
  lastError := none
  lastDelivery := none

/-- A newer routine of another tenant, once at an instant whose UTC is before year 1. -/
def onceRow : Row :=
  { dailyRow with
    id := "once", workspaceId := some "globex", scheduleKind := "at", scheduleAt := none
    scheduleAtDatetime := some "0001-01-01T00:00:00+01:00"
    createdAt := "2026-01-02T00:00:00+00:00" }

def twoTenants : RoutinesTable := ⟨[dailyRow, onceRow], by decide⟩

def noon : DateTime := ⟨63903211200000000, 0, by decide, by decide⟩

/-- Both rows are valid, the daily routine is due, and the tick launches nothing. -/
theorem tick_stopped : ¬Isolated plainHost noon twoTenants [] 30000000
    ∧ (readable plainHost twoTenants none).map (fun r => (r.id, dueNow plainHost noon [] r))
      = [("once", false), ("daily", true)]
    ∧ tick plainHost noon twoTenants [] = ([], some .overflow) := by
  have htick : tick plainHost noon twoTenants [] = ([], some .overflow) := by decide +kernel
  refine ⟨?_, by decide +kernel, htick⟩
  intro h
  have hraised := h.raised
  rw [htick] at hraised
  cases hraised

end Himmy.Routines
