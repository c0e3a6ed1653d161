import Himmy.Storage.Lifecycle

/-! # At most one holder

What the leased queue promises about who holds a run, for every sequence of creates, claims,
renewals, reaps, redrives and resume claims by any number of workers: a run becomes `RUNNING` only
by being handed to one claimant, it is handed out again only after its lease expired and was taken
back or after an operator redrove it, only the latest claimant can renew the lease, and `attempt`
counts the claims. The clock may show anything at any call. -/

namespace Himmy

namespace LeasedQueue

variable {σ : Type} (Q : LeasedQueue σ)

/-- What the store answers to `c` after `calls`. -/
def answer (calls : List TimedCall) (c : TimedCall) : StoreAnswer := (Q.step (Q.reach calls) c).2

variable (runId : String) (calls : List TimedCall)

def status : Option RunStatus :=
  (Q.record runId calls).map RunRecord.status

/-- `c` is a claim by `ownerId` that is answered with the run. -/
def HandsOut (runId ownerId : String) (calls : List TimedCall) (c : TimedCall) : Prop :=
  ∃ now lease lanes fairness workspaceConcurrency run,
    c = (now, .claimNextQueuedRun ownerId lease lanes fairness workspaceConcurrency)
      ∧ Q.answer calls c = .claimed (some run) ∧ run.runId = runId

/-- `c` is a reap that returns the run, whose stored lease has expired by then. -/
def TakesBack (c : TimedCall) : Prop :=
  ∃ now lanes runIds run deadline, c = (now, .requeueExpiredLeases lanes)
    ∧ Q.answer calls c = .requeued runIds ∧ runId ∈ runIds
    ∧ Q.record runId calls = some run ∧ run.leaseExpiresAt = some deadline ∧ deadline ≤ now

/-- `c` is a successful redrive of the run. -/
def Redrives (c : TimedCall) : Prop :=
  ∃ now workspaceId, c = (now, .redriveRun runId workspaceId) ∧ Q.answer calls c = .flag true

/-- At most one worker holds the run `runId` at any point of `calls`. -/
structure AtMostOneHolder (calls : List TimedCall) (runId : String) : Prop where
  /-- A call takes the run from `QUEUED` to `RUNNING` exactly when it hands it to its caller. -/
  transition : ∀ pre c post, calls = pre ++ c :: post →
    ((Q.status runId pre = some .queued ∧ Q.status runId (pre ++ [c]) = some .running)
      ↔ ∃ ownerId, Q.HandsOut runId ownerId pre c)
  /-- Between two hand-outs the expired lease was taken back, or the run was redriven. -/
  separated : ∀ pre c mid c' post ownerId ownerId', calls = pre ++ c :: (mid ++ c' :: post) →
    Q.HandsOut runId ownerId pre c → Q.HandsOut runId ownerId' (pre ++ c :: mid) c' →
    ∃ mid₁ d mid₂, mid = mid₁ ++ d :: mid₂
      ∧ (Q.TakesBack runId (pre ++ c :: mid₁) d ∨ Q.Redrives runId (pre ++ c :: mid₁) d)
  /-- A renewal succeeds only for the owner of the latest claim. -/
  renewal : ∀ pre now ownerId lease post,
    calls = pre ++ (now, .renewLease runId ownerId lease) :: post →
    Q.answer pre (now, .renewLease runId ownerId lease) = .flag true →
    latestClaimant none (Q.events runId pre) = some ownerId
  /-- `attempt` is the number of claims since the run was created or last redriven. -/
  attempt : ∀ run, Q.record runId calls = some run →
    run.attempt = claimsSince 0 (Q.events runId calls)

/-! ## Events and calls -/

theorem handsOut_iff (runId ownerId : String) (calls : List TimedCall) (c : TimedCall) :
    Q.HandsOut runId ownerId calls c
      ↔ ∃ leaseUntil now, Q.eventAt runId calls c = some (.claimed ownerId leaseUntil now) := by
  constructor
  · rintro ⟨now, lease, lanes, fairness, workspaceConcurrency, run, rfl, hans, hid⟩
    rw [answer] at hans
    exact ⟨isoPlusSeconds now lease, now, by simp [eventAt, hans, eventOf, hid]⟩
  · rintro ⟨leaseUntil, now, h⟩
    unfold eventAt eventOf at h
    split at h <;> (try split at h) <;> cases h
    case h_2.isTrue.refl lease lanes fairness workspaceConcurrency run hid hans =>
        exact ⟨now, lease, lanes, fairness, workspaceConcurrency, run, rfl, hans, hid⟩

variable {calls : List TimedCall} {c : TimedCall}

theorem releases_cases {runId : String} {e : RunEvent}
    (h : Q.eventAt runId calls c = some e) (hrel : e.releases = true)
    (hlife : ∃ st, runLifecycle.step (Q.record runId calls) e = some st) :
    Q.TakesBack runId calls c ∨ Q.Redrives runId calls c := by
  obtain ⟨st, hlife⟩ := hlife
  unfold eventAt eventOf at h
  split at h <;> (try split at h) <;> cases h <;> try (cases hrel; done)
  case h_4 now lanes runIds hans hmem =>
      refine Or.inl ?_
      cases hrec : Q.record runId calls with
      | none => rw [hrec] at hlife; simp [runLifecycle] at hlife
      | some run =>
        rw [hrec] at hlife
        simp only [runLifecycle] at hlife
        split at hlife
        · next hexp =>
            simp only [RunRecord.leaseExpired, Bool.and_eq_true] at hexp
            cases hlease : run.leaseExpiresAt with
            | none => simp [hlease] at hexp
            | some deadline =>
              have hle : deadline ≤ now := by simpa [hlease] using hexp.1.2
              exact ⟨now, lanes, runIds, run, deadline, rfl, hans, hmem, hrec, hlease, hle⟩
        · cases hlife
  case h_5 now redrivenId workspaceId b hans hk =>
      obtain ⟨hb, rfl⟩ := hk
      exact Or.inr ⟨now, workspaceId, rfl, by rw [answer, hans]; simp [hb]⟩

theorem record_snoc (h : QueueCalls (calls ++ [c])) (runId : String) :
    match Q.eventAt runId calls c with
    | none => Q.record runId (calls ++ [c]) = Q.record runId calls
    | some e => runLifecycle.step (Q.record runId calls) e
        = some (Q.record runId (calls ++ [c])) := by
  have hc := h.queue c (List.mem_append_right _ (List.mem_singleton_self c))
  have hfresh := Q.fresh_of_stored_created h (Q.stored_created h.of_append)
  have hstep := Q.step_event (Q.reach calls) hc hfresh runId
  rw [← Q.reach_snoc] at hstep
  exact hstep

def eventsFrom (runId : String) (s : σ) (calls : List TimedCall) : List RunEvent :=
  (Q.history s calls).filterMap (fun ca => eventOf runId ca.1 ca.2)

theorem events_append (runId : String) (pre post : List TimedCall) : Q.events runId (pre ++ post)
      = Q.events runId pre ++ Q.eventsFrom runId (Q.reach pre) post := by
  simp [events, eventsFrom, reach, Machine.history_append, List.filterMap_append]

theorem exists_call_of_mem_eventsFrom {runId : String} {pre mid : List TimedCall} {e : RunEvent}
    (h : e ∈ Q.eventsFrom runId (Q.reach pre) mid) :
    ∃ mid₁ d mid₂, mid = mid₁ ++ d :: mid₂ ∧ Q.eventAt runId (pre ++ mid₁) d = some e := by
  induction mid generalizing pre with
  | nil => simp [eventsFrom, Machine.history] at h
  | cons d mid ih =>
    have hsplit : Q.eventsFrom runId (Q.reach pre) (d :: mid)
        = (Q.eventAt runId pre d).toList ++ Q.eventsFrom runId (Q.reach (pre ++ [d])) mid := by
      simp only [eventsFrom, Machine.history, List.filterMap_cons, eventAt, Q.reach_snoc]
      cases eventOf runId d (Q.step (Q.reach pre) d).2 <;> rfl
    rw [hsplit, List.mem_append, Option.mem_toList] at h
    rcases h with h | h
    · exact ⟨[], d, mid, rfl, by simpa using h⟩
    · obtain ⟨mid₁, d', mid₂, rfl, hd'⟩ := ih h
      exact ⟨d :: mid₁, d', mid₂, rfl, by simpa using hd'⟩

theorem isNew_of_mem_events (h : QueueCalls calls) (runId : String) :
    ∀ e ∈ Q.events runId calls, e.isNew := by
  intro e he
  have he' : e ∈ Q.eventsFrom runId (Q.reach []) calls := he
  obtain ⟨mid₁, d, mid₂, rfl, hd⟩ := Q.exists_call_of_mem_eventsFrom he'
  cases e with
  | created new =>
    obtain ⟨run, hcreates, -, rfl⟩ := creates_of_eventOf hd
    exact h.new run (List.mem_filterMap.2 ⟨d, by simp, hcreates⟩)
  | _ => trivial

/-! ## The result -/

theorem transition_of_queueCalls {pre : List TimedCall}
    (h : QueueCalls (pre ++ [c])) (runId : String) :
    (Q.status runId pre = some .queued ∧ Q.status runId (pre ++ [c]) = some .running)
      ↔ ∃ ownerId, Q.HandsOut runId ownerId pre c := by
  have hstep := Q.record_snoc h runId
  constructor
  · rintro ⟨hq, hr⟩
    obtain ⟨run, hrun, hstatus⟩ := Option.map_eq_some_iff.1 hq
    cases hev : Q.eventAt runId pre c with
    | none =>
      rw [hev] at hstep
      rw [status, hstep, ← status, hq] at hr
      cases hr
    | some e =>
      rw [hev, hrun] at hstep
      obtain ⟨ownerId, leaseUntil, now, rfl⟩ :=
        runLifecycle.claimed_of_queued hstep hstatus
      exact ⟨ownerId, (Q.handsOut_iff _ _ _ _).2 ⟨leaseUntil, now, hev⟩⟩
  · rintro ⟨ownerId, hout⟩
    obtain ⟨leaseUntil, now, hev⟩ := (Q.handsOut_iff _ _ _ _).1 hout
    rw [hev] at hstep
    obtain ⟨run, hrun, hq, hrun'⟩ := runLifecycle.queued_running_of_claimed hstep
    exact ⟨by rw [status, hrun, Option.map_some, hq], by rw [status, hrun']; rfl⟩

theorem separated_of_queueCalls {pre mid : List TimedCall} {c c' : TimedCall}
    (h : QueueCalls (pre ++ c :: (mid ++ [c']))) {runId ownerId ownerId' : String}
    (hc : Q.HandsOut runId ownerId pre c) (hc' : Q.HandsOut runId ownerId' (pre ++ c :: mid) c') :
    ∃ mid₁ d mid₂, mid = mid₁ ++ d :: mid₂
      ∧ (Q.TakesBack runId (pre ++ c :: mid₁) d ∨ Q.Redrives runId (pre ++ c :: mid₁) d) := by
  obtain ⟨u, t, hev⟩ := (Q.handsOut_iff _ _ _ _).1 hc
  obtain ⟨u', t', hev'⟩ := (Q.handsOut_iff _ _ _ _).1 hc'
  have hsplit : pre ++ c :: (mid ++ [c']) = (pre ++ [c] ++ mid) ++ [c'] := by simp
  have hpre : pre ++ c :: mid = pre ++ [c] ++ mid := by simp
  rw [hpre] at hev'
  have hexec := Q.events_exec h runId
  rw [hsplit, events_snoc, events_append, events_snoc, hev, hev'] at hexec
  simp only [Option.toList_some, List.append_assoc, List.cons_append, List.nil_append] at hexec
  obtain ⟨st, -, hlife⟩ := runLifecycle.exec_append_eq_some.1 hexec
  obtain ⟨e, he, hrel⟩ := runLifecycle.claims_separated hlife
  obtain ⟨mid₁, d, mid₂, rfl, hd⟩ := Q.exists_call_of_mem_eventsFrom he
  have hpre₁ : pre ++ c :: mid₁ = pre ++ [c] ++ mid₁ := by simp
  refine ⟨mid₁, d, mid₂, rfl, ?_⟩
  rw [hpre₁]
  have hd' : QueueCalls ((pre ++ [c] ++ mid₁ ++ [d]) ++ (mid₂ ++ [c'])) := by simpa using h
  have hstep := Q.record_snoc hd'.of_append runId
  rw [hd] at hstep
  exact Q.releases_cases hd hrel ⟨_, hstep⟩

theorem renewal_of_queueCalls {pre : List TimedCall} {now : Instant} {runId ownerId : String}
    {lease : Duration} (h : QueueCalls (pre ++ [(now, .renewLease runId ownerId lease)]))
    (hans : Q.answer pre (now, .renewLease runId ownerId lease) = .flag true) :
    latestClaimant none (Q.events runId pre) = some ownerId := by
  have hstep := Q.record_snoc h runId
  have hev : Q.eventAt runId pre (now, .renewLease runId ownerId lease)
      = some (.renewed ownerId (isoPlusSeconds now lease) now) := by
    rw [answer] at hans
    simp [eventAt, hans, eventOf]
  rw [hev] at hstep
  cases hrec : Q.record runId pre with
  | none => rw [hrec] at hstep; simp [runLifecycle] at hstep
  | some run =>
    rw [hrec] at hstep
    simp only [runLifecycle] at hstep
    split at hstep
    · next hleased =>
        simp only [RunRecord.leasedTo, Bool.and_eq_true, decide_eq_true_eq] at hleased
        have hexec := Q.events_exec h.of_append runId
        rw [hrec] at hexec
        have htied := runLifecycle.tied_of_new hexec (Q.isNew_of_mem_events h.of_append runId)
        rw [← htied.2 hleased.2, hleased.1]
    · cases hstep

theorem atMostOneHolder_of_queueCalls (h : QueueCalls calls)
    (runId : String) : Q.AtMostOneHolder calls runId where
  transition pre c post hcalls := by
    have h' : QueueCalls ((pre ++ [c]) ++ post) := by simpa [hcalls] using h
    exact Q.transition_of_queueCalls h'.of_append runId
  separated pre c mid c' post ownerId ownerId' hcalls hc hc' := by
    have h' : QueueCalls ((pre ++ c :: (mid ++ [c'])) ++ post) := by simpa [hcalls] using h
    exact Q.separated_of_queueCalls h'.of_append hc hc'
  renewal pre now ownerId lease post hcalls hans := by
    have h' : QueueCalls ((pre ++ [(now, .renewLease runId ownerId lease)]) ++ post) := by
      simpa [hcalls] using h
    exact Q.renewal_of_queueCalls h'.of_append hans
  attempt run hrec := by
    have hexec := Q.events_exec h runId
    rw [hrec] at hexec
    exact (runLifecycle.tied_of_new hexec (Q.isNew_of_mem_events h runId)).1

end LeasedQueue

/-- **At most one holder, on both stores.** -/
theorem atMostOneHolder {calls : List TimedCall} (h : QueueCalls calls) (runId : String) :
    inMemoryQueue.AtMostOneHolder calls runId ∧ sqliteQueue.AtMostOneHolder calls runId :=
  ⟨inMemoryQueue.atMostOneHolder_of_queueCalls h runId,
    sqliteQueue.atMostOneHolder_of_queueCalls h runId⟩

def handedOver : List TimedCall :=
  [(0, .saveRunIfAbsentByIdempotency
      { runId := "r", workspaceId := "w", subjectId := "s", createdAt := 0, updatedAt := 0 }),
    (1, .claimNextQueuedRun "a" 10 none false 0), (5, .renewLease "r" "a" 10),
    (20, .requeueExpiredLeases none), (21, .claimNextQueuedRun "b" 10 none true 1),
    (22, .renewLease "r" "a" 10)]

theorem atMostOneHolder_handedOver :
    latestClaimant none (sqliteQueue.events "r" handedOver) = some "b"
      ∧ claimsSince 0 (inMemoryQueue.events "r" handedOver) = 2
      ∧ inMemoryQueue.AtMostOneHolder handedOver "r" ∧ sqliteQueue.AtMostOneHolder handedOver "r" :=
  ⟨by decide, by decide, atMostOneHolder ⟨by decide, by decide, by decide⟩ "r"⟩

end Himmy
