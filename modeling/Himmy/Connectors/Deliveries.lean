import Himmy.Connectors.Webhook

/-! # Webhook deliveries

Any number of deliveries run through `handle_webhook` at once. `Deliveries.system` is their
interleaving: a delivery arrives and passes the gate, enters the section of `run_once_async` that
reserves its id, takes a token and starts the handler, the handler ends, and the last section gives
the reservation back and answers. A delivery without an id goes from the gate to the throttle and
from the handler to its answer.

`Sound` says what a step may do: the handler starts for what the gate has to admit, it completes for
an id that is not remembered and that no other delivery is working for, and a delivery is
acknowledged as a duplicate only of another one of its source and id. -/

namespace Himmy.Connectors

open WebhookInboundConnector (duplicateAck admits_of_gate deliver_deduplicated)
open RateLimiter (asLimiter)

/-- How `await self._handler(...)` ends. -/
inductive HandlerEnd
  | returned (reply : String)
  | connectorError
  | otherError

/-- Where a delivery stands; `keyed` says that it runs inside `run_once_async`. -/
inductive DeliveryStage
  | entering
  | starting (keyed : Bool)
  | running (keyed : Bool)
  | succeeded (reply : String)
  | failed (connectorError : Bool)
  | answered (response : WebhookResponse)
  | raised
deriving DecidableEq

/-- A delivery, with the clock reading of its gate; `completed` says that its handler has
    returned. -/
structure Delivery where
  body : List UInt8
  headers : List (String × String)
  received : Rat
  msg : Option InboundMessage := none
  id : String := ""
  stage : DeliveryStage
  completed : Bool := false

namespace Delivery

variable (c : Delivery)

def source : Option String := c.msg.map InboundMessage.senderId

def holds : Option String :=
  match c.stage with
  | .starting true | .running true | .succeeded _ | .failed _ => some c.id
  | _ => none

def isRunning : Bool :=
  match c.stage with
  | .running _ => true
  | _ => false

def isPending : Bool :=
  match c.stage with
  | .entering | .starting _ | .running _ => true
  | _ => false

def hasSucceeded : Bool :=
  match c.stage with
  | .succeeded _ => true
  | _ => false

def acked : Bool :=
  match c.stage with
  | .answered response => response.deduplicated
  | _ => false

/-- An exception leaves the guarded call, or the whole of `handle_webhook`. -/
def fail (keyed connectorError : Bool) : DeliveryStage :=
  if keyed then .failed connectorError else .raised

end Delivery

namespace WebhookInboundConnector

variable (connector : WebhookInboundConnector) (H : Hashlib) (P : Parsers)

def receive (body : List UInt8) (headers : List (String × String)) (received : Rat) : Delivery :=
  match connector.gate H P body headers received with
  | .answered response => { body, headers, received, stage := .answered response }
  | .raised => { body, headers, received, stage := .raised }
  | .admitted msg id =>
    { body, headers, received, msg := some msg, id
      stage := if id = "" then .starting false else .entering }

def afterHandler (c : Delivery) (keyed : Bool) : HandlerEnd → Delivery
  | .returned reply =>
    { c with
      stage := if keyed then .succeeded reply else .answered (connector.deliver reply)
      completed := true }
  | .connectorError => { c with stage := Delivery.fail keyed true }
  | .otherError => { c with stage := Delivery.fail keyed false }

end WebhookInboundConnector

/-- The store, the limiter and the deliveries. -/
structure Deliveries (τ : Type) where
  store : IdempotencyStore String
  limiter : τ
  deliveries : List Delivery := []

/-- A delivery arrives, or takes its next step. -/
inductive DeliveryStep
  | receive (body : List UInt8) (headers : List (String × String)) (now : Rat)
  | enter (i : Nat)
  | throttle (i : Nat) (now : Rat)
  | finish (i : Nat) (how : HandlerEnd)
  | settle (i : Nat)

namespace Deliveries

variable {τ : Type} (connector : WebhookInboundConnector) (H : Hashlib) (P : Parsers)
  (L : Option (Limiter τ))

def throttle (limiter : τ) (c : Delivery) (now : Rat) : τ × Bool :=
  match L with
  | none => (limiter, true)
  | some L => L.check limiter (c.source.getD "") now

/-- The `i`-th delivery moves. -/
def put (s : Deliveries τ) (i : Nat) (c : Delivery) (store : IdempotencyStore String) :
    Deliveries τ :=
  { s with store, deliveries := s.deliveries.set i c }

def step (s : Deliveries τ) : DeliveryStep → Option (Deliveries τ)
  | .receive body headers now =>
    some { s with deliveries := s.deliveries ++ [connector.receive H P body headers now] }
  | .enter i => s.deliveries[i]?.bind fun c =>
    match c.stage with
    | .entering =>
      match s.store.entry c.id with
      | .reserved => some (s.put i { c with stage := .starting true } (s.store.reserve c.id))
      | _ =>
        some (s.put i { c with stage := .answered duplicateAck } s.store)
    | _ => none
  | .throttle i now => s.deliveries[i]?.bind fun c =>
    match c.stage with
    | .starting keyed =>
      let checked := throttle L s.limiter c now
      let stage := if checked.2 then .running keyed else Delivery.fail keyed true
      some { s.put i { c with stage } s.store with limiter := checked.1 }
    | _ => none
  | .finish i how => s.deliveries[i]?.bind fun c =>
    match c.stage with
    | .running keyed => some (s.put i (connector.afterHandler c keyed how) s.store)
    | _ => none
  | .settle i => s.deliveries[i]?.bind fun c =>
    match c.stage with
    | .succeeded reply =>
      some (s.put i { c with stage := .answered (connector.deliver reply) }
        ((s.store.discard c.id).remember c.id reply))
    | .failed connectorError =>
      let stage := if connectorError then .answered duplicateAck else .raised
      some (s.put i { c with stage } (s.store.discard c.id))
    | _ => none

def system : LTS (Deliveries τ) DeliveryStep := ⟨step connector H P L⟩

/-! ## What a step can do -/

/-- The moves of a delivery, with the store that they leave. -/
inductive Moves (s : Deliveries τ) (i : Nat) (c : Delivery) :
    DeliveryStep → Delivery → IdempotencyStore String → Prop
  | duplicate : c.stage = .entering → s.store.entry c.id ≠ .reserved →
      Moves s i c (.enter i) { c with stage := .answered duplicateAck } s.store
  | reserve : c.stage = .entering → s.store.entry c.id = .reserved →
      Moves s i c (.enter i) { c with stage := .starting true } (s.store.reserve c.id)
  | start {keyed : Bool} {now : Rat} : c.stage = .starting keyed →
      (throttle L s.limiter c now).2 = true →
      Moves s i c (.throttle i now) { c with stage := .running keyed } s.store
  | refuse {keyed : Bool} {now : Rat} : c.stage = .starting keyed →
      (throttle L s.limiter c now).2 = false →
      Moves s i c (.throttle i now) { c with stage := Delivery.fail keyed true } s.store
  | finish {keyed : Bool} {how : HandlerEnd} : c.stage = .running keyed →
      Moves s i c (.finish i how) (connector.afterHandler c keyed how) s.store
  | record {reply : String} : c.stage = .succeeded reply →
      Moves s i c (.settle i) { c with stage := .answered (connector.deliver reply) }
        ((s.store.discard c.id).remember c.id reply)
  | acknowledge : c.stage = .failed true →
      Moves s i c (.settle i) { c with stage := .answered duplicateAck }
        (s.store.discard c.id)
  | release : c.stage = .failed false →
      Moves s i c (.settle i) { c with stage := .raised } (s.store.discard c.id)

variable {connector H P L}

theorem step_cases {s s' : Deliveries τ} {a : DeliveryStep}
    (h : step connector H P L s a = some s') :
    (∃ body headers now, a = .receive body headers now ∧ s'.store = s.store
      ∧ s'.deliveries = s.deliveries ++ [connector.receive H P body headers now])
    ∨ ∃ i c c', s.deliveries[i]? = some c ∧ s'.deliveries = s.deliveries.set i c'
      ∧ Moves connector L s i c a c' s'.store := by
  cases a with
  | receive body headers now =>
    cases h
    exact Or.inl ⟨body, headers, now, rfl, rfl, rfl⟩
  | enter i =>
    obtain ⟨c, hi, h⟩ := Option.bind_eq_some_iff.1 h
    split at h
    · next hstage =>
        split at h
        · next hentry =>
            cases h
            exact Or.inr ⟨i, c, _, hi, rfl, .reserve hstage hentry⟩
        · next hentry =>
            cases h
            exact Or.inr ⟨i, c, _, hi, rfl, .duplicate hstage hentry⟩
    · cases h
  | throttle i now =>
    obtain ⟨c, hi, h⟩ := Option.bind_eq_some_iff.1 h
    split at h
    · next keyed hstage =>
        cases h
        refine Or.inr ⟨i, c, _, hi, rfl, ?_⟩
        cases hchecked : (throttle L s.limiter c now).2 with
        | true => exact .start hstage hchecked
        | false => exact .refuse hstage hchecked
    · cases h
  | finish i how =>
    obtain ⟨c, hi, h⟩ := Option.bind_eq_some_iff.1 h
    split at h
    · next keyed hstage =>
        cases h
        exact Or.inr ⟨i, c, _, hi, rfl, .finish hstage⟩
    · cases h
  | settle i =>
    obtain ⟨c, hi, h⟩ := Option.bind_eq_some_iff.1 h
    split at h
    · next reply hstage =>
        cases h
        exact Or.inr ⟨i, c, _, hi, rfl, .record hstage⟩
    · next connectorError hstage =>
        cases h
        refine Or.inr ⟨i, c, _, hi, rfl, ?_⟩
        cases connectorError with
        | true => exact .acknowledge hstage
        | false => exact .release hstage
    · cases h

/-! ## Soundness -/

section Soundness

variable (connector H P L)

/-- What has to hold of a delivery whose handler starts, completes, or that is acknowledged as a
    duplicate, in a step from a state. -/
structure SoundFor (s : Deliveries τ) (i : Nat) (c' : Delivery) : Prop where
  starts : c'.isRunning = true → (∀ c, s.deliveries[i]? = some c → c.isRunning = false) →
    ∃ msg, c'.msg = some msg ∧ connector.Admits H P c'.body c'.headers c'.received msg
  completes : c'.hasSucceeded = true →
    (∀ c, s.deliveries[i]? = some c → c.hasSucceeded = false) →
    s.store.result? c'.id = none
      ∧ ∀ (j : Nat) (d : Delivery), i ≠ j → s.deliveries[j]? = some d → d.holds ≠ some c'.id
  acks : c'.acked = true → (∀ c, s.deliveries[i]? = some c → c.acked = false) →
    ∃ (j : Nat) (d : Delivery), i ≠ j ∧ s.deliveries[j]? = some d ∧ d.source = c'.source
      ∧ d.id = c'.id ∧ (d.completed = true ∨ d.holds = some d.id)

def Sound (s : Deliveries τ) (a : DeliveryStep) : Prop :=
  ∀ s', step connector H P L s a = some s' →
    ∀ (i : Nat) (c' : Delivery), s'.deliveries[i]? = some c' → SoundFor connector H P s i c'

/-- A delivery finds its id used by its own source only, a delivery with an id gets its token, and
    its handler raises no `ConnectorError`. -/
def Undisturbed (s : Deliveries τ) : DeliveryStep → Prop
  | .enter i => ∀ c ∈ s.deliveries[i]?, ∀ d ∈ s.deliveries, d.id = c.id → d.source = c.source
  | .throttle i now => ∀ c ∈ s.deliveries[i]?, c.stage = .starting true →
      (throttle L s.limiter c now).2 = true
  | .finish i .connectorError => ∀ c ∈ s.deliveries[i]?, c.stage ≠ .running true
  | _ => True

instance Undisturbed.decidable (s : Deliveries τ) (a : DeliveryStep) :
    Decidable (Undisturbed L s a) :=
  match a with
  | .receive .. => inferInstanceAs (Decidable True)
  | .enter i => inferInstanceAs (Decidable (∀ c ∈ s.deliveries[i]?, ∀ d ∈ s.deliveries,
      d.id = c.id → d.source = c.source))
  | .throttle i now => inferInstanceAs (Decidable (∀ c ∈ s.deliveries[i]?,
      c.stage = .starting true → (throttle L s.limiter c now).2 = true))
  | .finish _ (.returned _) => inferInstanceAs (Decidable True)
  | .finish i .connectorError =>
    inferInstanceAs (Decidable (∀ c ∈ s.deliveries[i]?, c.stage ≠ .running true))
  | .finish _ .otherError => inferInstanceAs (Decidable True)
  | .settle _ => inferInstanceAs (Decidable True)

/-- The reservations are those of the deliveries, a remembered id is one that completed and that
    nobody works for, and what may still start was admitted. -/
structure Deduplicated (s : Deliveries τ) : Prop where
  reserved : Reserved Delivery.holds s.store.inflight s.deliveries
  remembered : ∀ k r, s.store.result? k = some r → k ∉ s.store.inflight
    ∧ ∃ (j : Nat) (d : Delivery), s.deliveries[j]? = some d ∧ d.id = k ∧ d.completed = true
  admitted : ∀ (i : Nat) (c : Delivery), s.deliveries[i]? = some c → c.isPending = true →
    c.completed = false
      ∧ ∃ msg, c.msg = some msg ∧ connector.Admits H P c.body c.headers c.received msg
  finished : ∀ (i : Nat) (c : Delivery), s.deliveries[i]? = some c → c.hasSucceeded = true →
    c.completed = true
  unrefused : ∀ (i : Nat) (c : Delivery), s.deliveries[i]? = some c → c.stage ≠ .failed true

end Soundness

theorem soundFor_of_same {s : Deliveries τ} {i : Nat} {c : Delivery}
    (hi : s.deliveries[i]? = some c) : SoundFor connector H P s i c := by
  constructor
  · intro h hbefore
    rw [hbefore c hi] at h
    cases h
  · intro h hbefore
    rw [hbefore c hi] at h
    cases h
  · intro h hbefore
    rw [hbefore c hi] at h
    cases h

section Receive

variable (connector H P)

theorem receive_cases (body : List UInt8) (headers : List (String × String)) (received : Rat) :
    ((connector.receive H P body headers received).isPending = false
        ∧ (connector.receive H P body headers received).acked = false)
      ∨ ∃ msg, (connector.receive H P body headers received).msg = some msg
        ∧ connector.Admits H P body headers received msg
        ∧ (connector.receive H P body headers received).acked = false := by
  unfold WebhookInboundConnector.receive
  split
  · next response hgate =>
      exact Or.inl ⟨rfl, WebhookInboundConnector.not_deduplicated_of_gate hgate⟩
  · exact Or.inl ⟨rfl, rfl⟩
  · next msg id hgate =>
      refine Or.inr ⟨msg, rfl, admits_of_gate hgate, ?_⟩
      simp only [Delivery.acked]
      split
      · next hstage => split at hstage <;> cases hstage
      · rfl

theorem receive_fields (body : List UInt8) (headers : List (String × String)) (received : Rat) :
    (connector.receive H P body headers received).holds = none
      ∧ (connector.receive H P body headers received).isRunning = false
      ∧ (connector.receive H P body headers received).hasSucceeded = false
      ∧ (connector.receive H P body headers received).completed = false
      ∧ (connector.receive H P body headers received).body = body
      ∧ (connector.receive H P body headers received).headers = headers
      ∧ (connector.receive H P body headers received).received = received
      ∧ (connector.receive H P body headers received).stage ≠ .failed true := by
  unfold WebhookInboundConnector.receive
  split
  · exact ⟨rfl, rfl, rfl, rfl, rfl, rfl, rfl, by simp⟩
  · exact ⟨rfl, rfl, rfl, rfl, rfl, rfl, rfl, by simp⟩
  · next msg id hgate =>
      by_cases hid : id = ""
      · simp [hid, Delivery.holds, Delivery.isRunning, Delivery.hasSucceeded]
      · simp [hid, Delivery.holds, Delivery.isRunning, Delivery.hasSucceeded]

end Receive

/-- What the end of a handler leaves of a delivery. -/
structure AfterHandler (c c' : Delivery) : Prop where
  id : c'.id = c.id
  completed : c.completed = true → c'.completed = true
  holds : c'.holds = c.holds
  ended : c'.isPending = false
  succeeded : c'.hasSucceeded = true → c'.completed = true
  unrefused : c'.stage ≠ .failed true

theorem afterHandler_cases (connector : WebhookInboundConnector) {s : Deliveries τ} {i : Nat}
    {c : Delivery} {keyed : Bool} {how : HandlerEnd} (hquiet : Undisturbed L s (.finish i how))
    (hi : s.deliveries[i]? = some c) (hstage : c.stage = .running keyed) :
    AfterHandler c (connector.afterHandler c keyed how) := by
  cases how with
  | returned reply =>
    cases keyed with
    | true => constructor <;> simp [WebhookInboundConnector.afterHandler, Delivery.holds,
        Delivery.isPending, hstage]
    | false => constructor <;> simp [WebhookInboundConnector.afterHandler, Delivery.holds,
        Delivery.isPending, hstage]
  | connectorError =>
    cases keyed with
    | true => exact absurd hstage (hquiet c hi)
    | false => constructor <;> simp [WebhookInboundConnector.afterHandler, Delivery.fail,
        Delivery.holds, Delivery.isPending, Delivery.hasSucceeded, hstage]
  | otherError =>
    cases keyed with
    | true => constructor <;> simp [WebhookInboundConnector.afterHandler, Delivery.fail,
        Delivery.holds, Delivery.isPending, Delivery.hasSucceeded, hstage]
    | false => constructor <;> simp [WebhookInboundConnector.afterHandler, Delivery.fail,
        Delivery.holds, Delivery.isPending, Delivery.hasSucceeded, hstage]

namespace Deduplicated

variable {s s' : Deliveries τ}

section

variable (h : Deduplicated connector H P s)

include h

theorem receive {body : List UInt8}
    {headers : List (String × String)} {received : Rat} (hstore : s'.store = s.store)
    (hnew : s'.deliveries = s.deliveries ++ [connector.receive H P body headers received]) :
    Deduplicated connector H P s' := by
  obtain ⟨hholds, hrunning, hsucceeded, hcompleted, hbody, hheaders, hreceived, hfailed⟩ :=
    receive_fields connector H P body headers received
  constructor
  · rw [hstore, hnew]
    exact h.reserved.join hholds
  · intro k r hr
    rw [hstore] at hr ⊢
    obtain ⟨hfree, j, d, hj, hd⟩ := h.remembered k r hr
    refine ⟨hfree, j, d, ?_, hd⟩
    rw [hnew, List.getElem?_append_left (List.getElem?_eq_some_iff.1 hj).1]
    exact hj
  · intro i c hi hpending
    rw [hnew] at hi
    rcases Parties.getElem?_concat_cases hi with hi | rfl
    · exact h.admitted i c hi hpending
    · refine ⟨hcompleted, ?_⟩
      rcases receive_cases connector H P body headers received with
        ⟨hnot, -⟩ | ⟨msg, hmsg, hadmits, -⟩
      · rw [hnot] at hpending
        cases hpending
      · rw [hbody, hheaders, hreceived]
        exact ⟨msg, hmsg, hadmits⟩
  · intro i c hi hdone
    rw [hnew] at hi
    rcases Parties.getElem?_concat_cases hi with hi | rfl
    · exact h.finished i c hi hdone
    · rw [hsucceeded] at hdone
      cases hdone
  · intro i c hi
    rw [hnew] at hi
    rcases Parties.getElem?_concat_cases hi with hi | rfl
    · exact h.unrefused i c hi
    · exact hfailed

theorem of_move {i : Nat} {c c' : Delivery}
    (hi : s.deliveries[i]? = some c) (hset : s'.deliveries = s.deliveries.set i c')
    (hreserved : Reserved Delivery.holds s'.store.inflight s'.deliveries)
    (hremembered : ∀ k r, s'.store.result? k = some r → k ∉ s'.store.inflight
      ∧ ((c'.id = k ∧ c'.completed = true) ∨ ∃ r', s.store.result? k = some r'))
    (hkept : c'.id = c.id ∧ (c.completed = true → c'.completed = true))
    (hpending : c'.isPending = true → c.isPending = true ∧ c'.completed = c.completed
      ∧ c'.msg = c.msg ∧ c'.body = c.body ∧ c'.headers = c.headers ∧ c'.received = c.received)
    (hfinished : c'.hasSucceeded = true → c'.completed = true)
    (hunrefused : c'.stage ≠ .failed true) : Deduplicated connector H P s' := by
  constructor
  · exact hreserved
  · intro k r hr
    obtain ⟨hfree, hnow | ⟨r', hr'⟩⟩ := hremembered k r hr
    · exact ⟨hfree, i, c', by rw [hset]; exact Parties.getElem?_set_of_some hi, hnow⟩
    · obtain ⟨-, j, d, hj, hid, hcompleted⟩ := h.remembered k r' hr'
      refine ⟨hfree, j, ?_⟩
      by_cases hij : i = j
      · subst hij
        rw [hi] at hj
        cases hj
        exact ⟨c', by rw [hset]; exact Parties.getElem?_set_of_some hi, hkept.1.trans hid,
          hkept.2 hcompleted⟩
      · exact ⟨d, by rw [hset, List.getElem?_set_ne hij]; exact hj, hid, hcompleted⟩
  · intro j d hj hd
    rw [hset] at hj
    rcases Parties.getElem?_set_cases hj with ⟨rfl, rfl⟩ | ⟨-, hold⟩
    · obtain ⟨hbefore, hsame, hmsg, hbody, hheaders, hreceived⟩ := hpending hd
      rw [hsame, hmsg, hbody, hheaders, hreceived]
      exact h.admitted i c hi hbefore
    · exact h.admitted j d hold hd
  · intro j d hj hdone
    rw [hset] at hj
    rcases Parties.getElem?_set_cases hj with ⟨rfl, rfl⟩ | ⟨-, hold⟩
    · exact hfinished hdone
    · exact h.finished j d hold hdone
  · intro j d hj
    rw [hset] at hj
    rcases Parties.getElem?_set_cases hj with ⟨rfl, rfl⟩ | ⟨-, hold⟩
    · exact hunrefused
    · exact h.unrefused j d hold

variable {a : DeliveryStep}

theorem move {i : Nat} {c c' : Delivery}
    (hquiet : Undisturbed L s a) (hi : s.deliveries[i]? = some c)
    (hset : s'.deliveries = s.deliveries.set i c')
    (hmove : Moves connector L s i c a c' s'.store) : Deduplicated connector H P s' := by
  generalize hstore : s'.store = store at hmove
  cases hmove with
  | duplicate hstage hentry =>
    refine h.of_move hi hset ?_ ?_ ⟨rfl, id⟩ (fun h => by cases h) (fun h => by cases h) (by simp)
    · rw [hset, hstore]
      exact h.reserved.keep hi (by simp [Delivery.holds, hstage])
    · intro k r hr
      rw [hstore] at hr ⊢
      exact ⟨(h.remembered k r hr).1, Or.inr ⟨r, hr⟩⟩
  | reserve hstage hentry =>
    obtain ⟨hnone, hfree⟩ := s.store.entry_eq_reserved_iff.1 hentry
    refine h.of_move hi hset ?_ ?_ ⟨rfl, id⟩ ?_ (fun h => by cases h) (by simp)
    · rw [hset, hstore]
      exact h.reserved.enter hi (by simp [Delivery.holds, hstage]) hfree rfl
    · intro k r hr
      rw [hstore] at hr ⊢
      have hr : s.store.result? k = some r := hr
      refine ⟨?_, Or.inr ⟨r, hr⟩⟩
      have hk : k ≠ c.id := by
        rintro rfl
        rw [hnone] at hr
        cases hr
      simp [IdempotencyStore.reserve, hk, (h.remembered k r hr).1]
    · intro _
      exact ⟨by simp [Delivery.isPending, hstage], rfl, rfl, rfl, rfl, rfl⟩
  | @start keyed now hstage hchecked =>
    refine h.of_move hi hset ?_ ?_ ⟨rfl, id⟩ ?_ (fun h => by cases h) (by simp)
    · rw [hset, hstore]
      refine h.reserved.keep hi ?_
      cases keyed <;> simp [Delivery.holds, hstage]
    · intro k r hr
      rw [hstore] at hr ⊢
      exact ⟨(h.remembered k r hr).1, Or.inr ⟨r, hr⟩⟩
    · intro _
      exact ⟨by simp [Delivery.isPending, hstage], rfl, rfl, rfl, rfl, rfl⟩
  | @refuse keyed now hstage hchecked =>
    -- Only a delivery without an id is refused a token here.
    cases keyed with
    | true =>
      rw [hquiet c hi hstage] at hchecked
      cases hchecked
    | false =>
      refine h.of_move hi hset ?_ ?_ ⟨rfl, id⟩ (fun h => by cases h) (fun h => by cases h)
        (by simp [Delivery.fail])
      · rw [hset, hstore]
        exact h.reserved.keep hi (by simp [Delivery.holds, Delivery.fail, hstage])
      · intro k r hr
        rw [hstore] at hr ⊢
        exact ⟨(h.remembered k r hr).1, Or.inr ⟨r, hr⟩⟩
  | @finish keyed how hstage =>
    have hafter := afterHandler_cases connector hquiet hi hstage
    refine h.of_move hi hset ?_ ?_ ⟨hafter.id, hafter.completed⟩ ?_ ?_ hafter.unrefused
    · rw [hset, hstore]
      exact h.reserved.keep hi hafter.holds
    · intro k r hr
      rw [hstore] at hr ⊢
      exact ⟨(h.remembered k r hr).1, Or.inr ⟨r, hr⟩⟩
    · intro hpending
      rw [hafter.ended] at hpending
      cases hpending
    · exact hafter.succeeded
  | @record reply hstage =>
    have hdone : c.completed = true :=
      h.finished i c hi (by simp [Delivery.hasSucceeded, hstage])
    refine h.of_move hi hset ?_ ?_ ⟨rfl, id⟩ (fun h => by cases h) (fun h => by cases h) (by simp)
    · rw [hset, hstore]
      exact h.reserved.leave hi (by simp [Delivery.holds, hstage]) rfl
    · intro k r hr
      rw [hstore] at hr ⊢
      rw [IdempotencyStore.inflight_remember]
      by_cases hk : k = c.id
      · exact ⟨by simp [IdempotencyStore.discard, hk], Or.inl ⟨hk.symm, hdone⟩⟩
      · have hold : s.store.result? k = some r :=
          (s.store.discard c.id).result?_of_remember hk hr
        refine ⟨?_, Or.inr ⟨r, hold⟩⟩
        simp [IdempotencyStore.discard, (h.remembered k r hold).1]
  | acknowledge hstage => exact absurd hstage (h.unrefused i c hi)
  | release hstage =>
    refine h.of_move hi hset ?_ ?_ ⟨rfl, id⟩ (fun h => by cases h) (fun h => by cases h) (by simp)
    · rw [hset, hstore]
      exact h.reserved.leave hi (by simp [Delivery.holds, hstage]) rfl
    · intro k r hr
      rw [hstore] at hr ⊢
      rw [IdempotencyStore.result?_discard] at hr
      refine ⟨?_, Or.inr ⟨r, hr⟩⟩
      simp [IdempotencyStore.discard, (h.remembered k r hr).1]

theorem step (hquiet : Undisturbed L s a)
    (hstep : Deliveries.step connector H P L s a = some s') : Deduplicated connector H P s' := by
  rcases step_cases hstep with ⟨body, headers, now, -, hstore, hnew⟩ | ⟨i, c, c', hi, hset, hmove⟩
  · exact h.receive hstore hnew
  · exact h.move hquiet hi hset hmove

theorem exists_other {i : Nat} {c : Delivery}
    (hquiet : Undisturbed L s (.enter i)) (hi : s.deliveries[i]? = some c)
    (hstage : c.stage = .entering) (hentry : s.store.entry c.id ≠ .reserved) :
    ∃ (j : Nat) (d : Delivery), i ≠ j ∧ s.deliveries[j]? = some d ∧ d.source = c.source
      ∧ d.id = c.id ∧ (d.completed = true ∨ d.holds = some d.id) := by
  cases hcase : s.store.entry c.id with
  | reserved => exact absurd hcase hentry
  | cached r =>
    obtain ⟨-, j, d, hj, hid, hcompleted⟩ :=
      h.remembered c.id r (s.store.entry_eq_cached_iff.1 hcase)
    refine ⟨j, d, ?_, hj, hquiet c hi d (List.mem_of_getElem? hj) hid, hid, Or.inl hcompleted⟩
    rintro rfl
    rw [hi] at hj
    cases hj
    have hpending : c.isPending = true := by simp [Delivery.isPending, hstage]
    rw [(h.admitted i c hi hpending).1] at hcompleted
    cases hcompleted
  | inFlight =>
    obtain ⟨-, hmem⟩ := s.store.entry_eq_inFlight_iff.1 hcase
    obtain ⟨j, d, hj, hholds⟩ := (h.reserved.mem_iff c.id).1 hmem
    have hid : d.id = c.id := by
      unfold Delivery.holds at hholds
      split at hholds <;> simp_all
    refine ⟨j, d, ?_, hj, hquiet c hi d (List.mem_of_getElem? hj) hid, hid,
      Or.inr (by rw [hid]; exact hholds)⟩
    rintro rfl
    rw [hi] at hj
    cases hj
    simp [Delivery.holds, hstage] at hholds

theorem soundFor_move {i : Nat} {c c' : Delivery}
    {store : IdempotencyStore String} (hquiet : Undisturbed L s a)
    (hi : s.deliveries[i]? = some c) (hmove : Moves connector L s i c a c' store) :
    SoundFor connector H P s i c' := by
  cases hmove with
  | duplicate hstage hentry =>
    refine ⟨(fun h => by cases h), (fun h => by cases h), fun _ _ => ?_⟩
    obtain ⟨j, d, hij, hj, hsource, hid, hd⟩ := h.exists_other hquiet hi hstage hentry
    exact ⟨j, d, hij, hj, hsource, hid, hd⟩
  | reserve hstage hentry => exact ⟨(fun h => by cases h), (fun h => by cases h), (fun h => by cases h)⟩
  | start hstage hchecked =>
    refine ⟨fun _ _ => ?_, (fun h => by cases h), (fun h => by cases h)⟩
    exact (h.admitted i c hi (by simp [Delivery.isPending, hstage])).2
  | @refuse keyed now hstage hchecked =>
    cases keyed with
    | true =>
      rw [hquiet c hi hstage] at hchecked
      cases hchecked
    | false => exact ⟨(fun h => by cases h), (fun h => by cases h), (fun h => by cases h)⟩
  | @finish keyed how hstage =>
    have hafter := afterHandler_cases connector hquiet hi hstage
    refine ⟨fun hrunning _ => ?_, fun hdone _ => ?_, fun hacked _ => ?_⟩
    · have hended := hafter.ended
      unfold Delivery.isRunning at hrunning
      split at hrunning
      · next hstage' => simp [Delivery.isPending, hstage'] at hended
      · cases hrunning
    · -- The handler returned inside the guarded call, so the delivery holds its id.
      have hholds : c.holds = some c.id := by
        rw [← hafter.holds, ← hafter.id]
        unfold Delivery.hasSucceeded at hdone
        split at hdone
        · next hstage' => simp [Delivery.holds, hstage']
        · cases hdone
      rw [hafter.id]
      constructor
      · cases hresult : s.store.result? c.id with
        | none => rfl
        | some r =>
          exact absurd ((h.reserved.mem_iff c.id).2 ⟨i, c, hi, hholds⟩)
            (h.remembered c.id r hresult).1
      · intro j d hij hj hd
        exact hij (h.reserved.apart i j c d c.id hi hj hholds hd)
    · exfalso
      revert hacked
      cases how <;> cases keyed <;>
        simp [WebhookInboundConnector.afterHandler, Delivery.acked, Delivery.fail,
          deliver_deduplicated]
  | record hstage =>
    refine ⟨(fun h => by cases h), (fun h => by cases h), fun hacked _ => ?_⟩
    simp [Delivery.acked, deliver_deduplicated] at hacked
  | acknowledge hstage => exact absurd hstage (h.unrefused i c hi)
  | release hstage => exact ⟨(fun h => by cases h), (fun h => by cases h), (fun h => by cases h)⟩

theorem sound (a : DeliveryStep) (hquiet : Undisturbed L s a) : Sound connector H P L s a := by
  intro s' hstep j d hj
  rcases step_cases hstep with ⟨body, headers, now, -, -, hnew⟩ | ⟨i, c, c', hi, hset, hmove⟩
  · rw [hnew] at hj
    rcases Parties.getElem?_concat_cases hj with hj | rfl
    · exact soundFor_of_same hj
    · obtain ⟨-, hrunning, hsucceeded, -⟩ := receive_fields connector H P body headers now
      have hacked : (connector.receive H P body headers now).acked = false := by
        rcases receive_cases connector H P body headers now with ⟨-, hacked⟩ | ⟨-, -, -, hacked⟩
        · exact hacked
        · exact hacked
      constructor
      · intro h
        rw [hrunning] at h
        cases h
      · intro h
        rw [hsucceeded] at h
        cases h
      · intro h
        rw [hacked] at h
        cases h
  · rw [hset] at hj
    rcases Parties.getElem?_set_cases hj with ⟨rfl, rfl⟩ | ⟨-, hold⟩
    · exact h.soundFor_move hquiet hi hmove
    · exact soundFor_of_same hold

end

end Deduplicated

/-! ## Runs -/

def init (store : IdempotencyStore String) (limiter : τ) : Deliveries τ := { store, limiter }

theorem deduplicated_init {store : IdempotencyStore String} (hdone : store.done = KeyedList.empty)
    (hinflight : store.inflight = []) (limiter : τ) :
    Deduplicated connector H P (init store limiter) := by
  constructor
  · simp only [init, hinflight]
    exact Reserved.nil
  · intro k r hr
    have hnone : store.result? k = none := by
      rw [IdempotencyStore.result?, hdone, KeyedList.get?_empty, Option.map_none]
    rw [show (init store limiter).store = store from rfl, hnone] at hr
    cases hr
  · intro i c hi
    simp [init] at hi
  · intro i c hi
    simp [init] at hi
  · intro i c hi
    simp [init] at hi

section Runs

variable (connector H P L)

/-- In a run in which an id is used by one source only, deliveries with an id get their token and
    their handlers raise no `ConnectorError`, every step is sound, and no two deliveries in flight
    have one id. -/
theorem deliveries_run_once {store : IdempotencyStore String} (hdone : store.done = KeyedList.empty)
    (hinflight : store.inflight = []) {limiter : τ} {steps : List DeliveryStep} {s : Deliveries τ}
    (hrun : (system connector H P L).exec (init store limiter) steps = some s)
    (hquiet : (system connector H P L).AlongRun (Undisturbed L) (init store limiter) steps) :
    (system connector H P L).AlongRun (Sound connector H P L) (init store limiter) steps
      ∧ Apart Delivery.holds s.deliveries := by
  have hinit : Deduplicated connector H P (init store limiter) :=
    deduplicated_init hdone hinflight limiter
  have hstep : ∀ (s : Deliveries τ) a s', Deduplicated connector H P s → Undisturbed L s a →
      (system connector H P L).step s a = some s' → Deduplicated connector H P s' :=
    fun s a s' h hq hs => h.step hq hs
  constructor
  · exact LTS.alongRun_of_invariant _ hstep (fun s a h hq => h.sound a hq) hinit hquiet
  · exact (LTS.exec_invariant _ hstep hinit hquiet hrun).reserved.apart

/-- The `i`-th delivery is acknowledged as a duplicate, and no other one has its source and id. -/
def ackedAlone (s s' : Deliveries τ) (i : Nat) : Bool :=
  s.deliveries[i]?.any (fun c => !c.acked) && s'.deliveries[i]?.any (fun c' =>
    c'.acked && (s.deliveries.zipIdx.all fun (d, j) =>
      j = i || d.source ≠ c'.source || d.id ≠ c'.id))

theorem not_sound_of_ackedAlone {s s' : Deliveries τ} {a : DeliveryStep} {i : Nat}
    (hstep : step connector H P L s a = some s') (h : ackedAlone s s' i = true) :
    ¬ Sound connector H P L s a := by
  intro hsound
  simp only [ackedAlone, Bool.and_eq_true, Option.any_eq_true] at h
  obtain ⟨⟨c, hc, hnot⟩, c', hc', hacked, halone⟩ := h
  have hbefore : ∀ d, s.deliveries[i]? = some d → d.acked = false := by
    intro d hd
    rw [hc] at hd
    cases hd
    simpa using hnot
  obtain ⟨j, d, hij, hj, hsource, hid, -⟩ := (hsound s' hstep i c' hc').acks hacked hbefore
  have hd := List.all_eq_true.1 halone (d, j) (List.mem_zipIdx_iff_getElem?.2 hj)
  simp [hsource, hid, Ne.symm hij] at hd

/-- The last step of a run acknowledges a delivery that has no other one of its source and id. -/
def endsAckedAlone (s : Deliveries τ) (steps : List DeliveryStep) (a : DeliveryStep) (i : Nat) :
    Bool :=
  ((system connector H P L).exec s steps).any fun t =>
    (step connector H P L t a).any fun t' => ackedAlone t t' i

theorem not_alongRun_of_endsAckedAlone {s : Deliveries τ} {steps : List DeliveryStep}
    {a : DeliveryStep} {i : Nat} (h : endsAckedAlone connector H P L s steps a i = true) :
    ¬ (system connector H P L).AlongRun (Sound connector H P L) s (steps ++ [a]) := by
  obtain ⟨t, ht, h⟩ := (Option.any_eq_true ..).1 h
  obtain ⟨t', ht', h⟩ := (Option.any_eq_true ..).1 h
  exact LTS.not_alongRun _ ht (not_sound_of_ackedAlone connector H P L ht' h)

end Runs

/-! ### Three bodies -/

/-- Two bodies of the source `ci`, and one of the source `cd` with the id of the first. -/
def ciBody : String := "\x7b\"source\":\"ci\",\"text\":\"go\",\"id\":\"1\"\x7d"
def nextBody : String := "\x7b\"source\":\"ci\",\"text\":\"go\",\"id\":\"2\"\x7d"
def cdBody : String := "\x7b\"source\":\"cd\",\"text\":\"go\",\"id\":\"1\"\x7d"

/-- The digests of the bodies with the key `s`. -/
def digests : Hashlib where
  hmacSha256 _ message :=
    if message = encode ciBody then
      "8822d79e39f8972b3b57d6223012242485743c9daaa47b32a5978c3c4e7370bc"
    else if message = encode nextBody then
      "52e613ef17ead9f24a1382502f74d3bd24f2b67827b708f72e37c9b20e3f2edb"
    else "8246dec06e959fd840802ae04bf269a0d3dcfb3f61e6bb6a4cbb6cc1eae95436"
  sha256 _ := ""

def parsers : Parsers where
  int _ := none
  loads body :=
    if body = encode ciBody then
      some (.dict [("source", .str "ci"), ("text", .str "go"), ("id", .str "1")])
    else if body = encode nextBody then
      some (.dict [("source", .str "ci"), ("text", .str "go"), ("id", .str "2")])
    else some (.dict [("source", .str "cd"), ("text", .str "go"), ("id", .str "1")])

def twoSources : WebhookInboundConnector := { secret := "s", allowed := ["ci", "cd"] }

def signed (body : String) : DeliveryStep :=
  .receive (encode body)
    [("x-himmy-signature", "sha256=" ++ digests.hmacSha256 (encode "s") (encode body))] 0

def oneToken : RateLimiter := { refillPerSec := 1, capacity := 1 }

def redelivered : List DeliveryStep :=
  [signed ciBody, .enter 0, .throttle 0 0, .finish 0 (.returned "done"), .settle 0, signed ciBody,
    .enter 1]

theorem deliveries_run_once_redelivered :
    (system twoSources digests parsers (some asLimiter)).AlongRun
        (Sound twoSources digests parsers (some asLimiter)) (init {} oneToken) redelivered
      ∧ ∃ s, (system twoSources digests parsers (some asLimiter)).exec
          (init {} oneToken) redelivered = some s ∧ Apart Delivery.holds s.deliveries := by
  obtain ⟨s, hrun⟩ := Option.isSome_iff_exists.1 (show ((system twoSources digests parsers
    (some asLimiter)).exec (init {} oneToken) redelivered).isSome = true by
      decide +kernel)
  have h := deliveries_run_once twoSources digests parsers (some asLimiter) rfl rfl hrun
    (by decide +kernel)
  exact ⟨h.1, s, hrun, h.2⟩

/-- A throttled delivery, one whose handler raises a `ConnectorError`, and one whose id another
    source has used are acknowledged as duplicates, though no other one of their source and id was
    handled or is in flight. -/
theorem acknowledged_unhandled : ¬ (system twoSources digests parsers (some asLimiter)).AlongRun
        (Sound twoSources digests parsers (some asLimiter)) (init {} oneToken)
        ([signed ciBody, .enter 0, .throttle 0 0, signed nextBody, .enter 1, .throttle 1 0]
          ++ [.settle 1])
      ∧ ¬ (system twoSources digests parsers (none : Option (Limiter Unit))).AlongRun
        (Sound twoSources digests parsers none) (init {} ())
        ([signed ciBody, .enter 0, .throttle 0 0, .finish 0 .connectorError] ++ [.settle 0])
      ∧ ¬ (system twoSources digests parsers (none : Option (Limiter Unit))).AlongRun
        (Sound twoSources digests parsers none) (init {} ())
        ([signed ciBody, .enter 0, .throttle 0 0, .finish 0 (.returned "done"), .settle 0,
          signed cdBody] ++ [.enter 1]) := by
  refine ⟨?_, ?_, ?_⟩
  · exact not_alongRun_of_endsAckedAlone _ _ _ _ (i := 1) (by decide +kernel)
  · exact not_alongRun_of_endsAckedAlone _ _ _ _ (i := 0) (by decide +kernel)
  · exact not_alongRun_of_endsAckedAlone _ _ _ _ (i := 1) (by decide +kernel)

end Deliveries

end Himmy.Connectors
