import Himmy.Inference.Values

/-! # The in-memory event log

`InMemoryEventLog` keeps its events in append order, and besides the events of each thread and of each
trace. A filtered read goes over the bucket of the thread or the trace it names; a delete drops the
named buckets, and makes again those that held an event it drops. `event_log_exact`: the buckets never
change an answer. -/

namespace Himmy

/-- `RunEvent`, as far as the log reads it; its type is the value of the type. -/
structure LoggedEvent where
  eventId : String
  eventType : String
  traceId : Option String := none
  threadId : Option String := none
  workspaceId : Option String := none
  payload : Dict Value := KeyedList.empty

/-- The arguments of `list_events`; `eventType` is normalized. -/
structure EventQuery where
  threadId : Option String := none
  traceId : Option String := none
  eventType : Option String := none
  toolName : Option String := none
  workspaceId : Option String := none
  limit : Option Int := none
  newestFirst : Bool := false

namespace EventQuery

variable (q : EventQuery)

def usesTool (tool : String) (e : LoggedEvent) : Bool :=
  match e.payload.find? "tool_name" with
  | some (.str t) => t = tool
  | _ => false

def accepts (e : LoggedEvent) : Bool :=
  q.threadId.all (fun t => e.threadId = some t) && q.traceId.all (fun t => e.traceId = some t)
    && q.eventType.all (fun t => e.eventType = t) && q.toolName.all (fun t => usesTool t e)
    && q.workspaceId.all (fun w => e.workspaceId = some w)

def cut (found : List LoggedEvent) : List LoggedEvent :=
  let found := if q.newestFirst then found.reverse else found
  match q.limit with
  | none => found
  | some limit => found.take (max 0 limit).toNat

def answer (events : List LoggedEvent) : List LoggedEvent := q.cut (events.filter q.accepts)

end EventQuery

def LoggedEvent.named (threadIds traceIds : List String) (e : LoggedEvent) : Bool :=
  e.threadId.any (· ∈ threadIds) || e.traceId.any (· ∈ traceIds)

/-! ## The log -/

abbrev EventBuckets := Dict (List LoggedEvent)

namespace EventBuckets

variable (b : EventBuckets)

def bucket (key : String) : List LoggedEvent := (b.find? key).getD []

/-- `buckets.setdefault(key, []).append(event)`, of an event that has a key. -/
def add (key : Option String) (e : LoggedEvent) : EventBuckets :=
  match key with
  | none => b
  | some key => b.set key (b.bucket key ++ [e])

def dropped (keys : List String) : List String :=
  keys.filter (fun key => (b.find? key).isSome)

/-- The other keys of the events in the named buckets, apart from those that are named too. -/
def siblings (keys otherKeys : List String) (other : LoggedEvent → Option String) : List String :=
  ((b.dropped keys).flatMap b.bucket).filterMap
    (fun e => (other e).filter (fun key => key ∉ otherKeys))

def repaired (keys siblings : List String) (field : LoggedEvent → Option String)
    (events : List LoggedEvent) : EventBuckets :=
  siblings.foldl (fun b key => b.set key (events.filter (fun e => field e = some key)))
    ((b.dropped keys).foldl (fun b key => b.erase key) b)

end EventBuckets

structure InMemoryEventLog where
  events : List LoggedEvent := []
  byThread : EventBuckets := KeyedList.empty
  byTrace : EventBuckets := KeyedList.empty

namespace InMemoryEventLog

variable (log : InMemoryEventLog)

def appendEvent (e : LoggedEvent) : InMemoryEventLog where
  events := log.events ++ [e]
  byThread := log.byThread.add e.threadId e
  byTrace := log.byTrace.add e.traceId e

def candidates (q : EventQuery) : List LoggedEvent :=
  match q.threadId, q.traceId with
  | some threadId, _ => log.byThread.bucket threadId
  | none, some traceId => log.byTrace.bucket traceId
  | none, none => log.events

def listEvents (q : EventQuery) : List LoggedEvent :=
  q.cut ((log.candidates q).filter q.accepts)

def deleteEvents (threadIds traceIds : List String) : InMemoryEventLog × Nat :=
  let events := log.events.filter (fun e => !e.named threadIds traceIds)
  let siblingTraces := log.byThread.siblings threadIds traceIds (·.traceId)
  let siblingThreads := log.byTrace.siblings traceIds threadIds (·.threadId)
  ({ events
     byThread := log.byThread.repaired threadIds siblingThreads (·.threadId) events
     byTrace := log.byTrace.repaired traceIds siblingTraces (·.traceId) events },
    log.events.length - events.length)

end InMemoryEventLog

/-! ## The buckets of a stream -/

namespace EventBuckets

def Of (b : EventBuckets) (field : LoggedEvent → Option String) (events : List LoggedEvent) : Prop :=
  ∀ key, b.bucket key = events.filter (fun e => field e = some key)

variable {b : EventBuckets} {field other : LoggedEvent → Option String} {events : List LoggedEvent}

theorem bucket_set (b : EventBuckets) (key key' : String) (es : List LoggedEvent) :
    (EventBuckets.bucket (b.set key es) key') = if key' = key then es else b.bucket key' := by
  unfold bucket
  rw [Dict.find?_set]
  split <;> rfl

theorem Of.add (h : b.Of field events) (e : LoggedEvent) :
    (b.add (field e) e).Of field (events ++ [e]) := by
  intro key
  rw [List.filter_append, ← h key]
  unfold EventBuckets.add
  split
  · next hnone => simp [hnone]
  · next key' hkey =>
      rw [bucket_set]
      split
      · next hsame =>
          subst hsame
          simp [hkey]
      · next hne =>
          have hother : ¬ field e = some key := by
            rw [hkey]
            exact fun he => hne (Option.some.inj he).symm
          simp [hother]

theorem bucket_foldl_erase (keys : List String) (b : EventBuckets) (key : String) :
    EventBuckets.bucket (keys.foldl (fun b key => b.erase key) b) key
      = if key ∈ keys then [] else b.bucket key := by
  induction keys generalizing b with
  | nil => rfl
  | cons k keys ih =>
    rw [List.foldl_cons, ih]
    have herase : EventBuckets.bucket (KeyedList.erase b k) key
        = if key = k then [] else b.bucket key := by
      unfold bucket Dict.find?
      rw [KeyedList.get?_erase]
      split <;> rfl
    rw [herase]
    by_cases hkeys : key ∈ keys
    · simp [hkeys]
    · simp [hkeys]

theorem bucket_foldl_set (f : String → List LoggedEvent) (keys : List String) (b : EventBuckets)
    (key : String) : EventBuckets.bucket (keys.foldl (fun b key => b.set key (f key)) b) key
      = if key ∈ keys then f key else b.bucket key := by
  induction keys generalizing b with
  | nil => rfl
  | cons k keys ih =>
    rw [List.foldl_cons, ih, bucket_set]
    by_cases hkeys : key ∈ keys
    · simp [hkeys]
    · by_cases hk : key = k
      · simp [hk]
      · simp [hkeys, hk]

theorem mem_dropped (b : EventBuckets) (keys : List String) {key : String} (hkey : key ∈ keys)
    (h : b.bucket key ≠ []) : key ∈ b.dropped keys := by
  refine List.mem_filter.2 ⟨hkey, ?_⟩
  unfold bucket at h
  rcases hfind : b.find? key with - | es
  · rw [hfind] at h
    exact absurd rfl h
  · rfl

theorem bucket_repaired (b : EventBuckets) (keys siblings : List String) (events : List LoggedEvent)
    (key : String) : (b.repaired keys siblings field events).bucket key
      = if key ∈ siblings then events.filter (fun e => field e = some key)
        else if key ∈ keys then [] else b.bucket key := by
  unfold repaired
  rw [bucket_foldl_set, bucket_foldl_erase]
  by_cases hkeys : key ∈ keys
  · by_cases hbucket : b.bucket key = []
    · simp [hkeys, hbucket]
    · simp [hkeys, mem_dropped b keys hkeys hbucket]
  · have hnot : key ∉ b.dropped keys := fun hmem => hkeys (List.mem_of_mem_filter hmem)
    simp [hkeys, hnot]

theorem mem_siblings {b' : EventBuckets} (h : b'.Of other events) {keys otherKeys : List String}
    {e : LoggedEvent} (he : e ∈ events) {t key : String} (ht : other e = some t) (hdropped : t ∈ otherKeys)
    (hkey : field e = some key) (hkept : key ∉ keys) : key ∈ b'.siblings otherKeys keys field := by
  have hbucket : e ∈ b'.bucket t := by
    rw [h t]
    exact List.mem_filter.2 ⟨he, by simp [ht]⟩
  refine List.mem_filterMap.2 ⟨e, List.mem_flatMap.2 ⟨t, ?_, hbucket⟩, ?_⟩
  · exact mem_dropped b' otherKeys hdropped (List.ne_nil_of_mem hbucket)
  · rw [hkey, Option.filter_some, if_pos (by simpa using hkept)]

theorem Of.repaired {b' : EventBuckets} (h : b.Of field events) (h' : b'.Of other events)
    (keys otherKeys : List String) (drops : LoggedEvent → Bool) (hdrops : ∀ e, drops e = true
      ↔ (∃ k ∈ keys, field e = some k) ∨ ∃ k ∈ otherKeys, other e = some k) :
    (b.repaired keys (b'.siblings otherKeys keys field) field (events.filter (fun e => !drops e))).Of
      field (events.filter (fun e => !drops e)) := by
  intro key
  rw [bucket_repaired]
  split
  · rfl
  · next hsiblings =>
      split
      · next hkeys =>
          -- every event of a named key is dropped
          rw [eq_comm, List.filter_eq_nil_iff]
          intro e he hkey
          have hdropped := (hdrops e).2 (.inl ⟨key, hkeys, of_decide_eq_true hkey⟩)
          have hkept := (List.mem_filter.1 he).2
          rw [hdropped] at hkept
          cases hkept
      · next hkeys =>
          -- no event of the key is dropped, or it were a sibling
          rw [h key, List.filter_filter]
          refine List.filter_congr ?_
          intro e he
          by_cases hkey : field e = some key
          · have hkept : drops e = false := by
              rw [← Bool.not_eq_true, hdrops]
              rintro (⟨k, hk, hfield⟩ | ⟨t, ht, hother⟩)
              · rw [hkey, Option.some.injEq] at hfield
                exact hkeys (hfield ▸ hk)
              · exact hsiblings (mem_siblings h' he hother ht hkey hkeys)
            simp [hkey, hkept]
          · simp [hkey]

end EventBuckets

/-! ## The log over a history -/

theorem LoggedEvent.named_iff (threadIds traceIds : List String) (e : LoggedEvent) :
    e.named threadIds traceIds = true
      ↔ (∃ k ∈ threadIds, e.threadId = some k) ∨ ∃ k ∈ traceIds, e.traceId = some k := by
  simp only [LoggedEvent.named, Bool.or_eq_true, Option.any_eq_true, decide_eq_true_eq]
  constructor
  · rintro (⟨k, hk, hmem⟩ | ⟨k, hk, hmem⟩)
    · exact .inl ⟨k, hmem, hk⟩
    · exact .inr ⟨k, hmem, hk⟩
  · rintro (⟨k, hmem, hk⟩ | ⟨k, hmem, hk⟩)
    · exact .inl ⟨k, hk, hmem⟩
    · exact .inr ⟨k, hk, hmem⟩

namespace InMemoryEventLog

/-- The buckets are those of the stream. -/
structure Indexed (log : InMemoryEventLog) : Prop where
  byThread : log.byThread.Of (·.threadId) log.events
  byTrace : log.byTrace.Of (·.traceId) log.events

variable {log : InMemoryEventLog}

theorem Indexed.empty : Indexed {} := ⟨fun _ => rfl, fun _ => rfl⟩

theorem Indexed.appendEvent (h : Indexed log) (e : LoggedEvent) : Indexed (log.appendEvent e) :=
  ⟨h.byThread.add e, h.byTrace.add e⟩

theorem Indexed.deleteEvents (h : Indexed log) (threadIds traceIds : List String) :
    Indexed (log.deleteEvents threadIds traceIds).1 := by
  refine ⟨h.byThread.repaired h.byTrace threadIds traceIds _ (LoggedEvent.named_iff _ _), ?_⟩
  refine h.byTrace.repaired h.byThread traceIds threadIds _ ?_
  intro e
  rw [LoggedEvent.named_iff, or_comm]

theorem Indexed.listEvents (h : Indexed log) (q : EventQuery) :
    log.listEvents q = q.answer log.events := by
  unfold InMemoryEventLog.listEvents EventQuery.answer candidates
  have haccepts : ∀ {field : LoggedEvent → Option String} {key : String},
      (∀ e, q.accepts e = true → field e = some key) →
      (log.events.filter (fun e => field e = some key)).filter q.accepts
        = log.events.filter q.accepts := by
    intro field key hfield
    rw [List.filter_filter]
    refine List.filter_congr ?_
    intro e _
    by_cases haccept : q.accepts e = true
    · simp [haccept, hfield e haccept]
    · simp [haccept]
  rcases hthread : q.threadId with - | threadId
  · rcases htrace : q.traceId with - | traceId
    · rfl
    · dsimp only
      rw [h.byTrace traceId, haccepts]
      intro e he
      simp only [EventQuery.accepts, htrace, Option.all_some, Bool.and_eq_true] at he
      exact of_decide_eq_true he.1.1.1.2
  · dsimp only
    rw [h.byThread threadId, haccepts]
    intro e he
    simp only [EventQuery.accepts, hthread, Option.all_some, Bool.and_eq_true] at he
    exact of_decide_eq_true he.1.1.1.1

theorem deleteEvents_snd (log : InMemoryEventLog) (threadIds traceIds : List String) :
    (log.deleteEvents threadIds traceIds).2
      = log.events.countP (fun e => e.named threadIds traceIds) := by
  show log.events.length - (log.events.filter (fun e => !e.named threadIds traceIds)).length = _
  have hsplit := List.length_eq_countP_add_countP
    (fun e => LoggedEvent.named threadIds traceIds e) (l := log.events)
  have hkept : (log.events.filter (fun e => !e.named threadIds traceIds)).length
      = log.events.countP (fun e => ¬ e.named threadIds traceIds = true) := by
    rw [← List.countP_eq_length_filter]
    exact List.countP_congr (fun e _ => by simp)
  omega

/-- A call that changes the log. -/
inductive EventCall where
  | appendEvent (e : LoggedEvent)
  | deleteEvents (threadIds traceIds : List String)

def afterCall (log : InMemoryEventLog) : EventCall → InMemoryEventLog
  | .appendEvent e => log.appendEvent e
  | .deleteEvents threadIds traceIds => (log.deleteEvents threadIds traceIds).1

def surviving (calls : List EventCall) : List LoggedEvent :=
  calls.foldl (fun events call => match call with
    | .appendEvent e => events ++ [e]
    | .deleteEvents threadIds traceIds => events.filter (fun e => !e.named threadIds traceIds)) []

theorem indexed_foldl (calls : List EventCall) : (calls.foldl afterCall {}).events = surviving calls
    ∧ Indexed (calls.foldl afterCall {}) := by
  induction calls using List.reverseRecOn with
  | nil => exact ⟨rfl, Indexed.empty⟩
  | append_singleton calls call ih =>
    obtain ⟨hevents, hindexed⟩ := ih
    rw [List.foldl_append, surviving, List.foldl_append, ← surviving, ← hevents]
    cases call with
    | appendEvent e => exact ⟨rfl, hindexed.appendEvent e⟩
    | deleteEvents threadIds traceIds => exact ⟨rfl, hindexed.deleteEvents threadIds traceIds⟩

/-- **The indexes never change an answer.** After every sequence of calls, every read is the filtered
    stream of the surviving events, reversed and cut, and a delete removes the named events and returns
    their number. -/
theorem event_log_exact (calls : List EventCall) (q : EventQuery) (threadIds traceIds : List String) :
    let log := calls.foldl afterCall {}
    log.events = surviving calls
      ∧ log.listEvents q = q.answer (surviving calls)
      ∧ (log.deleteEvents threadIds traceIds).1.events
        = (surviving calls).filter (fun e => !e.named threadIds traceIds)
      ∧ (log.deleteEvents threadIds traceIds).2
        = (surviving calls).countP (fun e => e.named threadIds traceIds) := by
  obtain ⟨hevents, hindexed⟩ := indexed_foldl calls
  dsimp only
  refine ⟨hevents, ?_, ?_, ?_⟩
  · rw [hindexed.listEvents, hevents]
  · rw [← hevents]
    rfl
  · rw [← hevents]
    exact deleteEvents_snd _ threadIds traceIds

end InMemoryEventLog

end Himmy
