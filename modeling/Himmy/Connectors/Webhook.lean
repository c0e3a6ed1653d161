import Himmy.Library.Reservation
import Himmy.Connectors.Sdk
import Himmy.Inference.Values

/-! # The webhook connector

`handle_webhook` passes a delivery through a gate (size, signature, payload, source) and runs the
agent for it. A delivery with an id runs inside `run_once_async` of the connector's
`IdempotencyStore`: the throttle and the handler are the guarded call, and every `ConnectorError`
that comes out is taken for a duplicate. A delivery without an id runs unguarded. -/

namespace Himmy.Connectors

/-! ## The gate -/

/-- `int(text)` and `json.loads(body.decode())`, which may fail. -/
structure Parsers where
  int : String → Option Int
  loads : List UInt8 → Option Value

structure InboundMessage where
  senderId : String
  text : String
  raw : List (String × Value)

/-- What `handle_webhook` returns. -/
structure WebhookResponse where
  ok : Bool
  handled : Option Bool := none
  reason : Option String := none
  reply : Option String := none
  accepted : Bool := false
  deduplicated : Bool := false
deriving DecidableEq

/-- `WebhookInboundConnector`; `callback` says that a result callback is set. -/
structure WebhookInboundConnector where
  secret : String
  allowed : List String
  signatureHeader : String := "X-Himmy-Signature"
  signaturePrefix : String := "sha256="
  timestampHeader : String := "X-Himmy-Timestamp"
  maxSkew : Int := 300
  requireTimestamp : Bool := false
  textField : String := "text"
  sourceField : String := "source"
  idField : String := "id"
  maxBodyBytes : Nat := 262144
  callback : Bool := false
  ackOnly : Bool := false

def headerLookup (headers : List (String × String)) (name : String) : Option String :=
  if name = "" then none
  else (headers.find? (fun header => pyLower header.1 = pyLower name)).map Prod.snd

/-- Where the gate leaves a delivery: it is answered, `compare_digest` raised, or the agent is to run
    for a message under a delivery id, the empty one for a delivery without. -/
inductive Gated
  | answered (response : WebhookResponse)
  | raised
  | admitted (msg : InboundMessage) (deliveryId : String)

namespace WebhookInboundConnector

variable (connector : WebhookInboundConnector) (H : Hashlib) (P : Parsers) (body : List UInt8)

variable (headers : List (String × String))

/-- The bytes that the signature is over; none when the timestamp is missing, malformed or stale. -/
def signedMaterial (now : Rat) : Option (List UInt8) :=
  match headerLookup headers connector.timestampHeader with
  | none => if connector.requireTimestamp then none else some body
  | some ts => (P.int ts).bind fun stamp =>
    if connector.maxSkew < (now - stamp).abs then none else some (encode (ts ++ ".") ++ body)

/-- `verify_webhook`; `none` is the error of `compare_digest`. -/
def verifyWebhook (now : Rat) : Option Bool :=
  if connector.secret = "" then some false
  else match headerLookup headers connector.signatureHeader with
    | none => some false
    | some provided =>
      if provided = "" then some false
      else match connector.signedMaterial P body headers now with
        | none => some false
        | some material =>
          verifyHmacSignature H connector.secret material provided connector.signaturePrefix

/-- `is_allowed`, where an empty list allows nobody. -/
def isAllowed (senderId : String) : Bool := connector.allowed.contains senderId

def parseWebhook : Option InboundMessage :=
  match P.loads body with
  | some (.dict payload) =>
    match payload.lookup connector.sourceField, payload.lookup connector.textField with
    | some (.str source), some (.str text) =>
      if source = "" ∨ text = "" then none
      else some { senderId := source, text, raw := payload }
    | _, _ => none
  | _ => none

def deliveryId (msg : InboundMessage) (body : List UInt8) (headers : List (String × String)) :
    String :=
  let ofPayload := match msg.raw.lookup connector.idField with
    | some id => if id.truthy then id.pyStr else ""
    | none => ""
  if ofPayload = "" ∧ connector.requireTimestamp then
    match headerLookup headers connector.timestampHeader with
    | some ts => "ts:" ++ H.sha256 (encode (ts ++ ".") ++ body)
    | none => ""
  else ofPayload

def gate (now : Rat) : Gated :=
  if connector.maxBodyBytes < body.length then
    .answered { ok := false, reason := some "payload too large" }
  else match connector.verifyWebhook H P body headers now with
    | none => .raised
    | some false => .answered { ok := false, reason := some "invalid signature" }
    | some true =>
      match connector.parseWebhook P body with
      | none => .answered { ok := true, handled := some false }
      | some msg =>
        if connector.isAllowed msg.senderId then
          .admitted msg (connector.deliveryId H msg body headers)
        else .answered { ok := false, reason := some "source not allowed" }

def deliver (reply : String) : WebhookResponse :=
  if connector.callback then
    { ok := true, handled := some (reply ≠ ""), accepted := true
      reply := if connector.ackOnly then none else some reply }
  else { ok := true, handled := some (reply ≠ ""), reply := some reply }

def duplicateAck : WebhookResponse := { ok := true, handled := some false, deduplicated := true }

/-- What a delivery has to show for the agent to run: a signature that is the digest of the exact
    bytes received, with the timestamp when one is sent and then within the skew, and a source on
    the allow-list. -/
structure Admits (body : List UInt8) (headers : List (String × String)) (now : Rat)
    (msg : InboundMessage) : Prop where
  signed : ∃ provided, headerLookup headers connector.signatureHeader = some provided
    ∧ ∃ material, candidate provided connector.signaturePrefix
        = H.hmacSha256 (encode connector.secret) material
      ∧ ((headerLookup headers connector.timestampHeader = none
          ∧ connector.requireTimestamp = false ∧ material = body)
        ∨ ∃ ts stamp, headerLookup headers connector.timestampHeader = some ts
          ∧ P.int ts = some stamp ∧ (now - stamp).abs ≤ connector.maxSkew
          ∧ material = encode (ts ++ ".") ++ body)
  parsed : connector.parseWebhook P body = some msg
  listed : msg.senderId ∈ connector.allowed

variable {connector H P} {headers : List (String × String)}

theorem signedMaterial_eq_some {body material : List UInt8}
    {now : Rat} (h : connector.signedMaterial P body headers now = some material) :
    (headerLookup headers connector.timestampHeader = none
        ∧ connector.requireTimestamp = false ∧ material = body)
      ∨ ∃ ts stamp, headerLookup headers connector.timestampHeader = some ts
        ∧ P.int ts = some stamp ∧ (now - stamp).abs ≤ connector.maxSkew
        ∧ material = encode (ts ++ ".") ++ body := by
  unfold signedMaterial at h
  split at h
  · next hts =>
      split at h
      · cases h
      · next hrequire =>
          cases h
          exact Or.inl ⟨hts, by simpa using hrequire, rfl⟩
  · next ts hts =>
      obtain ⟨stamp, hstamp, h⟩ := Option.bind_eq_some_iff.1 h
      split at h
      · cases h
      · next hskew =>
          cases h
          exact Or.inr ⟨ts, stamp, hts, hstamp, Rat.not_lt.1 hskew, rfl⟩

variable {body : List UInt8}

theorem signed_of_verifyWebhook {now : Rat}
    (h : connector.verifyWebhook H P body headers now = some true) :
    ∃ provided, headerLookup headers connector.signatureHeader = some provided
      ∧ ∃ material, connector.signedMaterial P body headers now = some material
        ∧ candidate provided connector.signaturePrefix
          = H.hmacSha256 (encode connector.secret) material := by
  unfold verifyWebhook at h
  split at h
  · cases h
  · split at h
    · cases h
    · next provided hprovided =>
        split at h
        · cases h
        · split at h
          · cases h
          · next material hmaterial =>
              exact ⟨provided, hprovided, material, hmaterial, eq_of_verifyHmacSignature h⟩

theorem admits_of_gate {now : Rat} {msg : InboundMessage} {id : String}
    (h : connector.gate H P body headers now = .admitted msg id) :
    connector.Admits H P body headers now msg := by
  unfold gate at h
  split at h
  · cases h
  · split at h
    · cases h
    · cases h
    · next hverify =>
        split at h
        · cases h
        · next msg' hparse =>
            split at h
            · next hallowed =>
                cases h
                obtain ⟨provided, hprovided, material, hmaterial, hdigest⟩ :=
                  signed_of_verifyWebhook hverify
                refine ⟨⟨provided, hprovided, material, hdigest, ?_⟩, hparse, ?_⟩
                · exact signedMaterial_eq_some hmaterial
                · simpa [isAllowed] using hallowed
            · cases h

theorem not_deduplicated_of_gate {now : Rat} {response : WebhookResponse}
    (h : connector.gate H P body headers now = .answered response) :
    response.deduplicated = false := by
  unfold gate at h
  split at h
  · cases h
    rfl
  · split at h
    · cases h
    · cases h
      rfl
    · split at h
      · cases h
        rfl
      · split at h
        · cases h
        · cases h
          rfl

theorem deliver_deduplicated (reply : String) : (connector.deliver reply).deduplicated = false := by
  unfold deliver
  split <;> rfl

end WebhookInboundConnector

end Himmy.Connectors
