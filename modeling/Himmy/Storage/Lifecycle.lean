import Himmy.Storage.Calls

/-! # The life of one run in the leased queue

The abstract model of the queue is the life of a single run: it is created, claimed, renewed, taken
back by the reaper, redriven by an operator, or claimed for a resume, and each of these is possible
only in some states of the run. `runLifecycle` states this as a transition system; `eventOf` reads
off a call and its answer which of these, if any, happened to a given run.

`LeasedQueue.events_exec` is the refinement: on either store, the calls of any number of workers,
projected on one run, are a life of that run that ends in the stored record. -/

namespace Himmy

/-- What can happen to a run in the leased queue. -/
inductive RunEvent
  | created (run : RunRecord)
  | claimed (ownerId : String) (leaseUntil now : Instant)
  | renewed (ownerId : String) (leaseUntil now : Instant)
  | requeued (now : Instant)
  | redriven (now : Instant)
  | resolving (now : Instant)

/-- The life of one run: `none` before it is created. -/
def runLifecycle : LTS (Option RunRecord) RunEvent where
  step
    | none, .created run => some (some run)
    | some run, .claimed ownerId leaseUntil now =>
      if run.status = .queued then some (some (run.claimedBy ownerId leaseUntil now)) else none
    | some run, .renewed ownerId leaseUntil now =>
      if run.leasedTo ownerId then some (some (run.renewed leaseUntil now)) else none
    | some run, .requeued now =>
      if run.leaseExpired now none then some (some (run.requeued now)) else none
    | some run, .redriven now =>
      if run.redrivable none then some (some (run.redriven now)) else none
    | some run, .resolving now =>
      if run.status = .awaitingApproval then some (some (run.resolving now)) else none
    | _, _ => none

/-! ## Facts about a life -/

namespace RunEvent

def releases : RunEvent → Bool
  | .requeued _ => true
  | .redriven _ => true
  | _ => false

def isNew : RunEvent → Prop
  | .created run => run.status = .queued ∧ run.attempt = 0
  | _ => True

end RunEvent

/-- The claims in a life since the run was created or last redriven, on top of `n`. -/
def claimsSince : Int → List RunEvent → Int
  | n, [] => n
  | _, .created _ :: es => claimsSince 0 es
  | n, .claimed .. :: es => claimsSince (n + 1) es
  | _, .redriven _ :: es => claimsSince 0 es
  | n, _ :: es => claimsSince n es

/-- The owner of the latest claim in a life, `o` when there is none. -/
def latestClaimant : Option String → List RunEvent → Option String
  | o, [] => o
  | _, .claimed ownerId _ _ :: es => latestClaimant (some ownerId) es
  | o, _ :: es => latestClaimant o es

namespace runLifecycle

theorem step_none {e : RunEvent} {st : Option RunRecord}
    (h : runLifecycle.step none e = some st) : ∃ run, e = .created run ∧ st = some run := by
  cases e with
  | created run => exact ⟨run, rfl, by simpa [runLifecycle] using h.symm⟩
  | _ => simp [runLifecycle] at h

theorem claimed_of_queued {run : RunRecord} {e : RunEvent} {st : Option RunRecord}
    (h : runLifecycle.step (some run) e = some st) (hq : run.status = .queued) :
    ∃ ownerId leaseUntil now, e = .claimed ownerId leaseUntil now := by
  cases e with
  | claimed ownerId leaseUntil now => exact ⟨ownerId, leaseUntil, now, rfl⟩
  | created run => simp [runLifecycle] at h
  | renewed ownerId leaseUntil now =>
    simp [runLifecycle, RunRecord.leasedTo, hq] at h
  | requeued now => simp [runLifecycle, RunRecord.leaseExpired, hq] at h
  | redriven now => simp [runLifecycle, RunRecord.redrivable, hq] at h
  | resolving now => simp [runLifecycle, hq] at h

theorem queued_running_of_claimed {st st' : Option RunRecord} {ownerId : String}
    {leaseUntil now : Instant}
    (h : runLifecycle.step st (.claimed ownerId leaseUntil now) = some st') :
    ∃ run, st = some run ∧ run.status = .queued
      ∧ st' = some (run.claimedBy ownerId leaseUntil now) := by
  cases st with
  | none => simp [runLifecycle] at h
  | some run =>
    simp only [runLifecycle] at h
    split at h
    · next hq => cases h; exact ⟨run, rfl, hq, rfl⟩
    · cases h

variable {es : List RunEvent} {run : RunRecord}

theorem running_of_no_release {st : Option RunRecord}
    (h : runLifecycle.exec (some run) es = some st) (hr : run.status = .running)
    (hes : ∀ e ∈ es, e.releases = false) : ∃ run', st = some run' ∧ run'.status = .running := by
  induction es generalizing run with
  | nil => rw [LTS.exec_nil] at h; cases h; exact ⟨run, rfl, hr⟩
  | cons e es ih =>
    obtain ⟨st', hstep, hexec⟩ := runLifecycle.exec_cons_eq_some.1 h
    have hrel := hes e (List.mem_cons_self ..)
    have hrest : ∀ e ∈ es, e.releases = false := fun e he => hes e (List.mem_cons_of_mem _ he)
    cases e with
    | created run => simp [runLifecycle] at hstep
    | claimed ownerId leaseUntil now => simp [runLifecycle, hr] at hstep
    | renewed ownerId leaseUntil now =>
      simp only [runLifecycle] at hstep
      split at hstep
      · cases hstep; exact ih hexec hr hrest
      · cases hstep
    | requeued now => simp [RunEvent.releases] at hrel
    | redriven now => simp [RunEvent.releases] at hrel
    | resolving now => simp [runLifecycle, hr] at hstep

/-- **Claims are separated.** Between two claims of a run it was requeued or redriven. -/
theorem claims_separated {st st' : Option RunRecord} {o o' : String} {u t u' t' : Instant}
    (h : runLifecycle.exec st (.claimed o u t :: (es ++ [.claimed o' u' t'])) = some st') :
    ∃ e ∈ es, e.releases = true := by
  by_contra hno
  have hes : ∀ e ∈ es, e.releases = false := fun e he => by
    by_contra hrel
    exact hno ⟨e, he, by simpa using hrel⟩
  obtain ⟨st₁, hclaim, hexec⟩ := runLifecycle.exec_cons_eq_some.1 h
  obtain ⟨run, -, -, rfl⟩ := queued_running_of_claimed hclaim
  obtain ⟨st₂, hmid, hlast⟩ := runLifecycle.exec_append_eq_some.1 hexec
  obtain ⟨run', rfl, hr⟩ := running_of_no_release hmid rfl hes
  obtain ⟨st₃, hclaim', -⟩ := runLifecycle.exec_cons_eq_some.1 hlast
  obtain ⟨run'', hsome, hq, -⟩ := queued_running_of_claimed hclaim'
  cases hsome
  rw [hr] at hq
  cases hq

/-- What ties a record to its life so far: the attempt counter, and the owner while running. -/
def Tied (run : RunRecord) (claims : Int) (claimant : Option String) : Prop :=
  run.attempt = claims ∧ (run.status = .running → run.ownerId = claimant)

theorem tied_exec {run' : RunRecord} {n : Int}
    {o : Option String} (h : runLifecycle.exec (some run) es = some (some run'))
    (htied : Tied run n o) : Tied run' (claimsSince n es) (latestClaimant o es) := by
  induction es generalizing run n o with
  | nil => rw [LTS.exec_nil] at h; cases h; exact htied
  | cons e es ih =>
    obtain ⟨st, hstep, hexec⟩ := runLifecycle.exec_cons_eq_some.1 h
    obtain ⟨hn, ho⟩ := htied
    cases e with
    | created run => simp [runLifecycle] at hstep
    | claimed ownerId leaseUntil now =>
      obtain ⟨run₁, hsome, -, rfl⟩ := queued_running_of_claimed hstep
      cases hsome
      exact ih hexec ⟨by simp [RunRecord.claimedBy, hn], fun _ => rfl⟩
    | renewed ownerId leaseUntil now =>
      simp only [runLifecycle] at hstep
      split at hstep <;> cases hstep
      exact ih hexec ⟨hn, ho⟩
    | requeued now =>
      simp only [runLifecycle] at hstep
      split at hstep <;> cases hstep
      exact ih hexec ⟨hn, fun hr => by simp [RunRecord.requeued] at hr⟩
    | redriven now =>
      simp only [runLifecycle] at hstep
      split at hstep <;> cases hstep
      exact ih hexec ⟨rfl, fun hr => by simp [RunRecord.redriven] at hr⟩
    | resolving now =>
      simp only [runLifecycle] at hstep
      split at hstep <;> cases hstep
      exact ih hexec ⟨hn, fun hr => by simp [RunRecord.resolving] at hr⟩

theorem tied_of_new
    (h : runLifecycle.exec none es = some (some run)) (hnew : ∀ e ∈ es, e.isNew) :
    Tied run (claimsSince 0 es) (latestClaimant none es) := by
  cases es with
  | nil => rw [LTS.exec_nil] at h; cases h
  | cons e es =>
    obtain ⟨st, hstep, hexec⟩ := runLifecycle.exec_cons_eq_some.1 h
    obtain ⟨run₀, rfl, rfl⟩ := step_none hstep
    obtain ⟨hstatus, hattempt⟩ := hnew _ (List.mem_cons_self ..)
    have htied : Tied run (claimsSince 0 es) (latestClaimant none es) :=
      tied_exec hexec ⟨hattempt, fun hr => by rw [hstatus] at hr; cases hr⟩
    exact htied

end runLifecycle

/-! ## What a call does to one run -/

/-- What a call and its answer say happened to the run `runId`. -/
def eventOf (runId : String) : TimedCall → StoreAnswer → Option RunEvent
  | (now, .saveRunIfAbsentByIdempotency run), .created _ b =>
    if b ∧ run.runId = runId then some (.created (run.stamped now)) else none
  | (now, .claimNextQueuedRun ownerId lease _ _ _), .claimed (some run) =>
    if run.runId = runId then some (.claimed ownerId (isoPlusSeconds now lease) now) else none
  | (now, .renewLease renewedId ownerId lease), .flag b =>
    if b ∧ renewedId = runId then some (.renewed ownerId (isoPlusSeconds now lease) now) else none
  | (now, .requeueExpiredLeases _), .requeued runIds =>
    if runId ∈ runIds then some (.requeued now) else none
  | (now, .redriveRun redrivenId _), .flag b =>
    if b ∧ redrivenId = runId then some (.redriven now) else none
  | (now, .claimRunForResume resumedId _), .flag b =>
    if b ∧ resumedId = runId then some (.resolving now) else none
  | _, _ => none

def StoreCall.creates : StoreCall → Option RunRecord
  | .saveRunIfAbsentByIdempotency run => some run
  | _ => none

def StoreCall.isQueueCall : StoreCall → Bool
  | .saveRunIfAbsentByIdempotency _ => true
  | .claimNextQueuedRun .. => true
  | .renewLease .. => true
  | .requeueExpiredLeases _ => true
  | .redriveRun .. => true
  | .claimRunForResume .. => true
  | _ => false

/-- The calls that run enqueuing, dispatchers, reapers and operators make: queue calls only, which
    create new runs under distinct run ids. -/
structure QueueCalls (calls : List TimedCall) : Prop where
  queue : ∀ c ∈ calls, c.2.isQueueCall = true
  distinct : ((calls.filterMap (fun c => c.2.creates)).map RunRecord.runId).Nodup
  new : ∀ run ∈ calls.filterMap (fun c => c.2.creates), run.status = .queued ∧ run.attempt = 0

theorem QueueCalls.of_append {pre post : List TimedCall} (h : QueueCalls (pre ++ post)) :
    QueueCalls pre := by
  refine ⟨fun c hc => h.queue c (List.mem_append_left _ hc), ?_, fun run hrun => h.new run ?_⟩
  · have := h.distinct
    rw [List.filterMap_append, List.map_append] at this
    exact (List.nodup_append.1 this).1
  · rw [List.filterMap_append]
    exact List.mem_append_left _ hrun

namespace LeasedQueue

variable {σ : Type} (Q : LeasedQueue σ)

def reach (calls : List TimedCall) : σ := Q.after Q.empty calls

variable (runId : String) (calls : List TimedCall)

def record : Option RunRecord :=
  (Q.records (Q.reach calls)).get? runId

variable (c : TimedCall)

def eventAt : Option RunEvent :=
  eventOf runId c (Q.step (Q.reach calls) c).2

def events : List RunEvent :=
  (Q.history Q.empty calls).filterMap (fun ca => eventOf runId ca.1 ca.2)

theorem reach_snoc : Q.reach (calls ++ [c]) = (Q.step (Q.reach calls) c).1 := by
  simp [reach, Machine.after_append, Machine.after]

theorem events_snoc :
    Q.events runId (calls ++ [c]) = Q.events runId calls ++ (Q.eventAt runId calls c).toList := by
  simp only [events, Machine.history_append, List.filterMap_append, eventAt, reach,
    Machine.history, List.filterMap_cons, List.filterMap_nil]
  cases eventOf runId c (Q.step (Q.after Q.empty calls) c).2 <;> rfl

/-! ### One call -/

variable {c : TimedCall}

theorem step_event_of_updateIf {s : σ} {k runId : String} {p : RunRecord → Bool}
    {f : RunRecord → RunRecord} {e : RunEvent}
    (h : Prod.map Q.records id (Q.step s c) = Prod.map id .flag ((Q.records s).updateIf k p f))
    (hf : ∀ r, (f r).runId = r.runId)
    (hevent : ∀ b, eventOf runId c (.flag b) = if b ∧ k = runId then some e else none)
    (hlife : ∀ run, p run = true → runLifecycle.step (some run) e = some (some (f run))) :
    match eventOf runId c (Q.step s c).2 with
    | none => (Q.records (Q.step s c).1).get? runId = (Q.records s).get? runId
    | some e => runLifecycle.step ((Q.records s).get? runId) e
        = some ((Q.records (Q.step s c).1).get? runId) := by
  have hrec : Q.records (Q.step s c).1 = ((Q.records s).updateIf k p f).1 := congrArg Prod.fst h
  have hans : (Q.step s c).2 = .flag ((Q.records s).updateIf k p f).2 := congrArg Prod.snd h
  rw [hans, hevent, hrec, KeyedList.get?_updateIf _ _ _ _ hf]
  by_cases hk : k = runId
  · subst hk
    by_cases hb : ((Q.records s).updateIf k p f).2 = true
    · obtain ⟨run, hget, hp⟩ := (KeyedList.updateIf_snd _ _ _ _).1 hb
      simp [hb, hget, hp, hlife run hp]
    · have hno := mt (KeyedList.updateIf_snd _ _ _ _).2 hb
      cases hget : (Q.records s).get? k with
      | none => simp [hb]
      | some run =>
        have hp : p run ≠ true := fun hp => hno ⟨run, hget, hp⟩
        simp [hb, hp]
  · have hk' : ¬ runId = k := fun he => hk he.symm
    simp [hk, hk']

/-- **One call, one event.** A queue call either leaves a run's record, or does to it what the
    run's life allows. -/
theorem step_event (s : σ) (hc : c.2.isQueueCall = true)
    (hfresh : ∀ run, c.2.creates = some run → (Q.records s).get? run.runId = none)
    (runId : String) :
    match eventOf runId c (Q.step s c).2 with
    | none => (Q.records (Q.step s c).1).get? runId = (Q.records s).get? runId
    | some e => runLifecycle.step ((Q.records s).get? runId) e
        = some ((Q.records (Q.step s c).1).get? runId) := by
  obtain ⟨now, call⟩ := c
  cases call with
  | saveRunIfAbsentByIdempotency run =>
    rcases Q.absent s now run with ⟨hrec, hans⟩ | ⟨hrec, hans⟩
    · have hnone : eventOf runId (now, .saveRunIfAbsentByIdempotency run)
          (Q.step s (now, .saveRunIfAbsentByIdempotency run)).2 = none := by
        cases ha : (Q.step s (now, .saveRunIfAbsentByIdempotency run)).2 with
        | created id b =>
          cases b with
          | true => exact absurd ha (hans id)
          | false => simp [eventOf]
        | _ => rfl
      rw [hnone, hrec]
    · rw [hans, hrec]
      have hnone := hfresh run rfl
      by_cases hk : run.runId = runId
      · subst hk
        have hput : ((Q.records s).put (run.stamped now)).get? run.runId
            = some (run.stamped now) := KeyedList.get?_put_self _ (run.stamped now)
        simp [eventOf, hnone, runLifecycle, hput]
      · have hput : ((Q.records s).put (run.stamped now)).get? runId
            = (Q.records s).get? runId :=
          KeyedList.get?_put_of_ne _ _ (fun he => hk he.symm)
        simp [eventOf, hk, hput]
  | claimNextQueuedRun ownerId lease lanes fairness workspaceConcurrency =>
    rcases Q.claim s now ownerId lease lanes fairness workspaceConcurrency with
      ⟨hrec, hans⟩ | ⟨run, hget, hq, hans, hrec⟩
    · rw [hans, hrec]; rfl
    · rw [hans, hrec]
      by_cases hk : run.runId = runId
      · subst hk
        have hput : ((Q.records s).put
            (run.claimedBy ownerId (isoPlusSeconds now lease) now)).get? run.runId
            = some (run.claimedBy ownerId (isoPlusSeconds now lease) now) :=
          KeyedList.get?_put_self _ (run.claimedBy ownerId (isoPlusSeconds now lease) now)
        simp [eventOf, hget, runLifecycle, hq, hput]
      · have hput : ((Q.records s).put
            (run.claimedBy ownerId (isoPlusSeconds now lease) now)).get? runId
            = (Q.records s).get? runId :=
          KeyedList.get?_put_of_ne _ _ (fun he => hk he.symm)
        simp [eventOf, hk, hput]
  | renewLease renewedId ownerId lease =>
    exact Q.step_event_of_updateIf (Q.renew s now renewedId ownerId lease) (fun _ => rfl)
      (fun _ => rfl) (fun run hp => by simp [runLifecycle, hp])
  | requeueExpiredLeases lanes =>
    by_cases hlanes : lanes = some []
    · subst hlanes
      obtain ⟨hrec, hans⟩ := Q.requeue_no_lane s now
      rw [hans, hrec]
      simp [eventOf]
    · obtain ⟨hrec, hans⟩ := Q.requeue s now lanes hlanes
      rw [hans, hrec, RunTable.get?_requeueExpired]
      have hmem : runId ∈ (((Q.records s).items.filter (·.leaseExpired now lanes)).map
          RunRecord.runId) ↔ ∃ run, (Q.records s).get? runId = some run
            ∧ run.leaseExpired now lanes = true := by
        simp only [List.mem_map, List.mem_filter]
        constructor
        · rintro ⟨run, ⟨hmem, hexp⟩, rfl⟩
          exact ⟨run, (Q.records s).get?_of_mem hmem, hexp⟩
        · rintro ⟨run, hget, hexp⟩
          exact ⟨run, ⟨KeyedList.mem_of_get? hget, hexp⟩, KeyedList.key_of_get? hget⟩
      by_cases hex : ∃ run, (Q.records s).get? runId = some run
          ∧ run.leaseExpired now lanes = true
      · obtain ⟨run, hget, hexp⟩ := hex
        have hexp' : run.leaseExpired now none = true := by
          simp only [RunRecord.leaseExpired, Bool.and_eq_true] at hexp ⊢
          exact ⟨hexp.1, rfl⟩
        simp only [eventOf, hmem.2 ⟨run, hget, hexp⟩, if_true]
        simp [hget, runLifecycle, hexp, hexp']
      · simp only [eventOf, mt hmem.1 hex, if_false]
        cases hget : (Q.records s).get? runId with
        | none => rfl
        | some run =>
          have hexp : run.leaseExpired now lanes ≠ true := fun h => hex ⟨run, hget, h⟩
          simp [hexp]
  | redriveRun redrivenId workspaceId =>
    refine Q.step_event_of_updateIf (Q.redrive s now redrivenId workspaceId) (fun _ => rfl)
      (fun _ => rfl) (fun run hp => ?_)
    have hp' : run.redrivable none = true := by
      simp only [RunRecord.redrivable, Bool.and_eq_true] at hp ⊢
      exact ⟨rfl, hp.2⟩
    simp [runLifecycle, hp']
  | claimRunForResume resumedId workspaceId =>
    refine Q.step_event_of_updateIf (Q.resume s now resumedId workspaceId) (fun _ => rfl)
      (fun _ => rfl) (fun run hp => ?_)
    simp only [RunRecord.resumable, Bool.and_eq_true, decide_eq_true_eq] at hp
    simp [runLifecycle, hp.2]
  | saveRun run => simp [StoreCall.isQueueCall] at hc
  | saveRunIfOwner run ownerId => simp [StoreCall.isQueueCall] at hc
  | saveRunIfUnderQuota run cap => simp [StoreCall.isQueueCall] at hc
  | pruneRuns olderThan keepLast => simp [StoreCall.isQueueCall] at hc

/-! ### Every sequence of calls -/

def createdIds : List String :=
  (calls.filterMap (fun c => c.2.creates)).map RunRecord.runId

theorem creates_of_eventOf {runId : String} {ans : StoreAnswer} {new : RunRecord}
    (h : eventOf runId c ans = some (.created new)) :
    ∃ run, c.2.creates = some run ∧ run.runId = runId ∧ new = run.stamped c.1 := by
  unfold eventOf at h
  split at h <;> (try split at h) <;> cases h
  next hk => exact ⟨_, rfl, hk.2, rfl⟩

variable {calls : List TimedCall}

theorem fresh_of_stored_created {c : TimedCall} (h : QueueCalls (calls ++ [c]))
    (hstored : ∀ runId run, Q.record runId calls = some run → runId ∈ createdIds calls) :
    ∀ run, c.2.creates = some run → (Q.records (Q.reach calls)).get? run.runId = none := by
  intro run hrun
  cases hget : (Q.records (Q.reach calls)).get? run.runId with
  | none => rfl
  | some old =>
    have hmem := hstored run.runId old hget
    have hdistinct := h.distinct
    rw [List.filterMap_append, List.map_append] at hdistinct
    exact absurd rfl ((List.nodup_append.1 hdistinct).2.2 run.runId hmem run.runId
      (by simp [hrun]))

theorem stored_created (h : QueueCalls calls) (runId : String)
    (run : RunRecord) (hrec : Q.record runId calls = some run) : runId ∈ createdIds calls := by
  induction calls using List.reverseRecOn generalizing runId run with
  | nil => simp [record, reach, Machine.after, Q.records_empty] at hrec
  | append_singleton calls c ih =>
    have hc := h.queue c (List.mem_append_right _ (List.mem_singleton_self c))
    have hstored := ih h.of_append
    have hstep := Q.step_event (Q.reach calls) hc (Q.fresh_of_stored_created h hstored) runId
    rw [record, Q.reach_snoc] at hrec
    rw [createdIds, List.filterMap_append, List.map_append, List.mem_append]
    cases hold : Q.record runId calls with
    | some old => exact Or.inl (hstored runId old hold)
    | none =>
      rw [record] at hold
      rw [hold, hrec] at hstep
      cases hev : eventOf runId c (Q.step (Q.reach calls) c).2 with
      | none => rw [hev] at hstep; cases hstep
      | some e =>
        rw [hev] at hstep
        obtain ⟨new, rfl, -⟩ := runLifecycle.step_none hstep
        obtain ⟨run', hcreates, hid, -⟩ := creates_of_eventOf hev
        exact Or.inr (by simp [hcreates, hid])

/-- **Refinement.** The calls of the leased queue, projected on one run, are a life of the run that
    ends in its stored record. -/
theorem events_exec (h : QueueCalls calls) (runId : String) :
    runLifecycle.exec none (Q.events runId calls) = some (Q.record runId calls) := by
  induction calls using List.reverseRecOn with
  | nil => simp [events, Machine.history, record, reach, Machine.after, Q.records_empty]
  | append_singleton calls c ih =>
    have hc := h.queue c (List.mem_append_right _ (List.mem_singleton_self c))
    have hfresh := Q.fresh_of_stored_created h (Q.stored_created h.of_append)
    have hstep := Q.step_event (Q.reach calls) hc hfresh runId
    rw [Q.events_snoc, LTS.exec_append_eq_some]
    refine ⟨Q.record runId calls, ih h.of_append, ?_⟩
    rw [eventAt, record, record, Q.reach_snoc]
    cases hev : eventOf runId c (Q.step (Q.reach calls) c).2 with
    | none => rw [hev] at hstep; simp [hstep]
    | some e =>
      rw [hev] at hstep
      exact runLifecycle.exec_cons_eq_some.2 ⟨_, hstep, rfl⟩

end LeasedQueue

end Himmy
