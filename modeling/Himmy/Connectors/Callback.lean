import Himmy.Connectors.Webhook

/-! # The result callback of the webhook connector

`sign_webhook_body` and `verify_webhook` agree on what is signed: the body, after the timestamp when
there is one. The result callback signs the body after a timestamp, and `GuardedCallbackPoster` sends
no timestamp, so that its receiver verifies the body alone. -/

namespace Himmy.Connectors

def material (body : List UInt8) : Option String → List UInt8
  | none => body
  | some timestamp => encode (timestamp ++ ".") ++ body

def signWebhookBody (H : Hashlib) (secret : String) (body : List UInt8) (timestamp : Option String) :
    String :=
  "sha256=" ++ H.hmacSha256 (encode secret) (material body timestamp)

/-- A request: its body and its headers. -/
structure Request where
  body : List UInt8
  headers : List (String × String)

/-- `int(x)` of a float. -/
def pyTrunc (x : Rat) : Int := if 0 ≤ x then x.floor else x.ceil

/-- `GuardedCallbackPoster._post`, where `dumps` is `json.dumps(payload, separators=(",", ":")).encode()`. -/
def post (dumps : Value → List UInt8) (payload : List (String × Value)) (signature : String) :
    Request where
  body := dumps (.dict payload)
  headers := [("Content-Type", "application/json; charset=utf-8"), ("X-Himmy-Signature", signature)]

def WebhookInboundConnector.postResult (connector : WebhookInboundConnector) (H : Hashlib)
    (dumps : Value → List UInt8) (msg : InboundMessage) (reply : String) (clock : Rat) : Request :=
  let deliveryId := match msg.raw.lookup connector.idField with
    | some id => if id.truthy then id.pyStr else ""
    | none => ""
  let payload := [("source", .str msg.senderId), ("id", .str deliveryId), ("reply", .str reply)]
  let ts := toString (pyTrunc clock)
  post dumps payload (signWebhookBody H connector.secret (dumps (.dict payload)) (some ts))

def receiverOf (secret : String) (maxSkew : Int) (requireTimestamp : Bool) :
    WebhookInboundConnector :=
  { secret, allowed := [], maxSkew, requireTimestamp }

/-! ## What is assumed of the digests and of the readers -/

/-- A digest is a hexadecimal text, and says what it was made of. -/
structure Digests (H : Hashlib) : Prop where
  hex : ∀ key message, ∀ c ∈ (H.hmacSha256 key message).toList, c ∈ "0123456789abcdef".toList
  nonempty : ∀ key message, H.hmacSha256 key message ≠ ""
  injective : ∀ key, Function.Injective (H.hmacSha256 key)

def isJsonSpace (byte : UInt8) : Bool := byte ∈ [32, 9, 10, 13]

/-- The text of an integer has no point, and begins after blanks with no brace; the text of a JSON
    object begins after blanks with one. -/
structure Reads (P : Parsers) : Prop where
  point : ∀ {text n}, P.int text = some n → 46 ∉ encode text
  digit : ∀ {text n}, P.int text = some n →
    ∃ byte rest, (encode text).dropWhile isJsonSpace = byte :: rest ∧ byte ≠ 123
  brace : ∀ {body kvs}, P.loads body = some (.dict kvs) →
    (body.dropWhile isJsonSpace).head? = some 123

/-- `json.loads(body)` is a `dict`. -/
def IsObject (P : Parsers) (body : List UInt8) : Prop := ∃ kvs, P.loads body = some (.dict kvs)

def Timely (P : Parsers) (receiver : WebhookInboundConnector) (now : Rat) : Option String → Prop
  | none => receiver.requireTimestamp = false
  | some timestamp => ∃ stamp, P.int timestamp = some stamp ∧ (now - stamp).abs ≤ receiver.maxSkew

/-! ## Signing and verifying -/

theorem encode_append (a b : String) : encode (a ++ b) = encode a ++ encode b := by
  simp [encode]

theorem encode_point : encode "." = [46] := by decide +kernel

theorem encode_injective : Function.Injective encode := by
  intro a b h
  have hbytes : a.toByteArray = b.toByteArray := ByteArray.ext (Array.toList_inj.1 h)
  exact String.toByteArray_inj.1 hbytes

theorem pyStrip_eq_self {p : Char → Bool} {text : List Char} (h : ∀ c ∈ text, p c = false) :
    pyStrip p text = text := by
  have hself : ∀ l : List Char, (∀ c ∈ l, p c = false) → l.dropWhile p = l := by
    intro l hl
    induction l with
    | nil => rfl
    | cons c l => simp [hl c List.mem_cons_self]
  rw [pyStrip, hself text h, hself _ (fun c hc => h c (List.mem_reverse.1 hc)), List.reverse_reverse]

section Agreement

variable {H : Hashlib} {P : Parsers} {secret : String} {body body' : List UInt8} {maxSkew : Int}
  {requireTimestamp : Bool} {headers : List (String × String)} {now : Rat}
  {timestamp timestamp' : Option String}

theorem candidate_signWebhookBody (hH : Digests H) :
    candidate (signWebhookBody H secret body timestamp) "sha256="
      = H.hmacSha256 (encode secret) (material body timestamp) := by
  have hhex := hH.hex (encode secret) (material body timestamp)
  unfold candidate signWebhookBody
  generalize H.hmacSha256 (encode secret) (material body timestamp) = digest at hhex
  have hspaces : ∀ l : List Char, l.all (fun c => !isPySpace c) = true →
      ∀ c ∈ l, isPySpace c = false := by simp
  have hstrip : pyStrip isPySpace ("sha256=" ++ digest).toList = "sha256=".toList ++ digest.toList := by
    rw [String.toList_append]
    refine pyStrip_eq_self fun c hc => ?_
    rcases List.mem_append.1 hc with hc | hc
    · exact hspaces _ (by decide) c hc
    · exact hspaces _ (by decide) c (hhex c hc)
  rw [hstrip]
  simp

theorem signedMaterial_receiverOf :
    (receiverOf secret maxSkew requireTimestamp).signedMaterial P body headers now
        = some (material body (headerLookup headers "X-Himmy-Timestamp"))
      ↔ Timely P (receiverOf secret maxSkew requireTimestamp) now
          (headerLookup headers "X-Himmy-Timestamp") := by
  unfold WebhookInboundConnector.signedMaterial
  rw [show (receiverOf secret maxSkew requireTimestamp).timestampHeader = "X-Himmy-Timestamp" from rfl]
  cases headerLookup headers "X-Himmy-Timestamp" with
  | none => cases requireTimestamp <;> simp [Timely, material, receiverOf]
  | some ts =>
    cases hstamp : P.int ts with
    | none => simp [Timely, hstamp]
    | some stamp => simp [Timely, hstamp, material]

theorem append_eq_signWebhookBody_iff {text : String} :
    "sha256=" ++ text = signWebhookBody H secret body timestamp
      ↔ text = H.hmacSha256 (encode secret) (material body timestamp) := by
  simp [signWebhookBody]

theorem compareDigest_self (hH : Digests H) (key message : List UInt8) :
    compareDigest (H.hmacSha256 key message) (H.hmacSha256 key message) = some true := by
  have hascii : ∀ l : List Char, l.all (fun c => c.toNat < 128) = true → ∀ c ∈ l, c.toNat < 128 := by
    simp
  unfold compareDigest
  rw [if_pos, decide_eq_true rfl]
  rw [List.all_append, Bool.and_self, List.all_eq_true]
  exact fun c hc => by simpa using hascii _ (by decide) c (hH.hex key message c hc)

theorem verifyWebhook_iff (hH : Digests H) :
    (receiverOf secret maxSkew requireTimestamp).verifyWebhook H P body headers now = some true
      ↔ secret ≠ "" ∧ Timely P (receiverOf secret maxSkew requireTimestamp) now
            (headerLookup headers "X-Himmy-Timestamp")
          ∧ ∃ provided, headerLookup headers "X-Himmy-Signature" = some provided
            ∧ "sha256=" ++ candidate provided "sha256="
              = signWebhookBody H secret body (headerLookup headers "X-Himmy-Timestamp") := by
  simp only [append_eq_signWebhookBody_iff]
  constructor
  · intro h
    obtain ⟨provided, hprovided, material', hmaterial, hdigest⟩ :=
      WebhookInboundConnector.signed_of_verifyWebhook h
    have hsecret : secret ≠ "" := by
      rintro rfl
      cases h
    have htimely : Timely P (receiverOf secret maxSkew requireTimestamp) now
          (headerLookup headers "X-Himmy-Timestamp")
        ∧ material' = material body (headerLookup headers "X-Himmy-Timestamp") := by
      rcases WebhookInboundConnector.signedMaterial_eq_some hmaterial with
        ⟨hts, hrequire, rfl⟩ | ⟨ts, stamp, hts, hstamp, hskew, rfl⟩
      · rw [show headerLookup headers "X-Himmy-Timestamp" = none from hts]
        exact ⟨hrequire, rfl⟩
      · rw [show headerLookup headers "X-Himmy-Timestamp" = some ts from hts]
        exact ⟨⟨stamp, hstamp, hskew⟩, rfl⟩
    exact ⟨hsecret, htimely.1, provided, hprovided, htimely.2 ▸ hdigest⟩
  · rintro ⟨hsecret, htimely, provided, hprovided, hcandidate⟩
    have hne : provided ≠ "" := by
      rintro rfl
      exact hH.nonempty _ _ hcandidate.symm
    unfold WebhookInboundConnector.verifyWebhook
    have hsecret' : (receiverOf secret maxSkew requireTimestamp).secret ≠ "" := hsecret
    rw [if_neg hsecret']
    rw [show (receiverOf secret maxSkew requireTimestamp).signatureHeader = "X-Himmy-Signature" from rfl]
    simp only [hprovided, if_neg hne, signedMaterial_receiverOf.2 htimely]
    rw [verifyHmacSignature, if_neg (not_or.2 ⟨hne, hsecret'⟩)]
    exact (congrArg _ hcandidate).trans (compareDigest_self hH _ _)

theorem not_isObject_of_int (hP : Reads P) {ts : String} {stamp : Int} (hstamp : P.int ts = some stamp)
    (rest : List UInt8) : ¬ IsObject P (material rest (some ts)) := by
  rintro ⟨kvs, hloads⟩
  obtain ⟨byte, tail, hdigit, hbyte⟩ := hP.digit hstamp
  have hhead := hP.brace hloads
  rw [material, encode_append, List.append_assoc, List.dropWhile_append, hdigit] at hhead
  exact hbyte (by simpa using hhead)

theorem material_some_inj (hP : Reads P) {ts ts' : String} (hts : (P.int ts).isSome)
    (hts' : (P.int ts').isSome) (h : material body (some ts) = material body' (some ts')) :
    ts = ts' ∧ body = body' := by
  have hpoint : ∀ {text : String}, (P.int text).isSome → ∀ byte ∈ encode text, byte ≠ 46 := by
    intro text htext byte hmem heq
    obtain ⟨n, hn⟩ := Option.isSome_iff_exists.1 htext
    exact hP.point hn (heq ▸ hmem)
  rw [material, material, encode_append, encode_append, encode_point, List.append_assoc,
    List.append_assoc] at h
  obtain ⟨henc, htail⟩ := PrefixCode.append_inj_of_class (hpoint hts) (hpoint hts') (by simp)
    (by simp) h
  exact ⟨encode_injective henc, by simpa using htail⟩

theorem eq_of_accepted (hH : Digests H) (hP : Reads P)
    (hprovided : headerLookup headers "X-Himmy-Signature"
      = some (signWebhookBody H secret body timestamp))
    (hsigned : ∀ ts ∈ timestamp, (P.int ts).isSome) (hbody : timestamp = none → IsObject P body)
    (hbody' : IsObject P body')
    (h : (receiverOf secret maxSkew requireTimestamp).verifyWebhook H P body' headers now = some true) :
    headerLookup headers "X-Himmy-Timestamp" = timestamp ∧ body' = body := by
  obtain ⟨-, htimely, provided, hprovided', hcandidate⟩ := (verifyWebhook_iff hH).1 h
  obtain rfl := Option.some.inj (hprovided.symm.trans hprovided')
  rw [append_eq_signWebhookBody_iff, candidate_signWebhookBody hH] at hcandidate
  have hmaterial := hH.injective _ hcandidate
  revert htimely hmaterial
  generalize headerLookup headers "X-Himmy-Timestamp" = received
  intro htimely hmaterial
  cases timestamp with
  | none =>
    cases received with
    | none => exact ⟨rfl, hmaterial.symm⟩
    | some ts =>
      obtain ⟨stamp, hstamp, -⟩ := htimely
      have hobject := hbody rfl
      rw [show body = _ from hmaterial] at hobject
      exact absurd hobject (not_isObject_of_int hP hstamp body')
  | some ts =>
    obtain ⟨stamp, hstamp⟩ := Option.isSome_iff_exists.1 (hsigned ts rfl)
    cases received with
    | none =>
      rw [show body' = _ from hmaterial.symm] at hbody'
      exact absurd hbody' (not_isObject_of_int hP hstamp body)
    | some ts' =>
      obtain ⟨stamp', hstamp', -⟩ := htimely
      obtain ⟨rfl, rfl⟩ := material_some_inj hP (hsigned ts rfl) (by simp [hstamp']) hmaterial
      exact ⟨rfl, rfl⟩

end Agreement

def CallbackAccepted (H : Hashlib) (P : Parsers) (dumps : Value → List UInt8)
    (connector : WebhookInboundConnector) (maxSkew : Int) (requireTimestamp : Bool)
    (msg : InboundMessage) (reply : String) (clock now : Rat) : Prop :=
  let request := connector.postResult H dumps msg reply clock
  (receiverOf connector.secret maxSkew requireTimestamp).verifyWebhook H P request.body request.headers
    now = some true

theorem not_callbackAccepted {H : Hashlib} (hH : Digests H) (P : Parsers) (dumps : Value → List UInt8)
    (connector : WebhookInboundConnector) (maxSkew : Int) (requireTimestamp : Bool)
    (msg : InboundMessage) (reply : String) (clock now : Rat) :
    ¬ CallbackAccepted H P dumps connector maxSkew requireTimestamp msg reply clock now := by
  intro h
  obtain ⟨-, -, provided, hprovided, hcandidate⟩ := (verifyWebhook_iff hH).1 h
  unfold WebhookInboundConnector.postResult post at hprovided hcandidate
  dsimp only at hprovided hcandidate
  generalize dumps _ = body at hprovided hcandidate
  -- no header of the request is a timestamp
  have hname : pyLower "Content-Type" ≠ pyLower "X-Himmy-Timestamp"
      ∧ pyLower "X-Himmy-Signature" ≠ pyLower "X-Himmy-Timestamp"
      ∧ pyLower "Content-Type" ≠ pyLower "X-Himmy-Signature" := by decide +kernel
  simp only [headerLookup, List.find?_cons, hname, decide_false, List.find?_nil] at hprovided hcandidate
  obtain rfl : _ = provided := by simpa using hprovided
  rw [append_eq_signWebhookBody_iff, candidate_signWebhookBody hH] at hcandidate
  have hlength := congrArg List.length (hH.injective _ hcandidate)
  simp [material, encode_append, encode_point] at hlength
  omega

/-- **No receiver of a result callback accepts it.** A delivery is accepted exactly when its signature
    is the one of its timestamp and its body, so a signature of another timestamp is not. -/
theorem callback_signature {H : Hashlib} (hH : Digests H) {P : Parsers} (hP : Reads P) (secret : String)
    (maxSkew : Int) (requireTimestamp : Bool) (now : Rat) : (∀ dumps connector msg reply clock,
        ¬ CallbackAccepted H P dumps connector maxSkew requireTimestamp msg reply clock now)
      ∧ (∀ body headers,
        (receiverOf secret maxSkew requireTimestamp).verifyWebhook H P body headers now = some true
          ↔ secret ≠ "" ∧ Timely P (receiverOf secret maxSkew requireTimestamp) now
                (headerLookup headers "X-Himmy-Timestamp")
              ∧ ∃ provided, headerLookup headers "X-Himmy-Signature" = some provided
                ∧ "sha256=" ++ candidate provided "sha256="
                  = signWebhookBody H secret body (headerLookup headers "X-Himmy-Timestamp"))
      ∧ ∀ body body' headers timestamp,
        headerLookup headers "X-Himmy-Signature" = some (signWebhookBody H secret body timestamp) →
        (∀ ts ∈ timestamp, (P.int ts).isSome) → (timestamp = none → IsObject P body) →
        IsObject P body' →
        (receiverOf secret maxSkew requireTimestamp).verifyWebhook H P body' headers now = some true →
        headerLookup headers "X-Himmy-Timestamp" = timestamp ∧ body' = body :=
  ⟨fun dumps connector msg reply clock =>
      not_callbackAccepted hH P dumps connector maxSkew requireTimestamp msg reply clock now,
    fun _ _ => verifyWebhook_iff hH,
    fun _ _ _ _ hprovided hsigned hbody hbody' h => eq_of_accepted hH hP hprovided hsigned hbody hbody' h⟩

/-! ### A callback at the time 17 -/

def hexByte (byte : UInt8) : List Char := [(byte.toNat / 16).digitChar, (byte.toNat % 16).digitChar]

theorem flatMap_hexByte_injective {a b : List UInt8} (h : a.flatMap hexByte = b.flatMap hexByte) :
    a = b := by
  have hdigit : ∀ m < 16, ∀ n < 16, Nat.digitChar m = Nat.digitChar n → m = n := by decide
  induction a generalizing b with
  | nil =>
    cases b with
    | nil => rfl
    | cons y b => simp [hexByte] at h
  | cons x a ih =>
    cases b with
    | nil => simp [hexByte] at h
    | cons y b =>
      simp only [List.flatMap_cons, hexByte, List.cons_append, List.nil_append, List.cons.injEq] at h
      obtain ⟨hhigh, hlow, hrest⟩ := h
      have hx := x.toNat_lt
      have hy := y.toNat_lt
      have hhigh := hdigit _ (by omega) _ (by omega) hhigh
      have hlow := hdigit _ (by omega) _ (by omega) hlow
      have hbyte : x = y := UInt8.toNat_inj.1 (by omega)
      rw [hbyte, ih hrest]

def spelledOut : Hashlib where
  hmacSha256 _ message := String.ofList ('0' :: message.flatMap hexByte)
  sha256 message := String.ofList (message.flatMap hexByte)

theorem digests_spelledOut : Digests spelledOut where
  hex key message c hc := by
    have hdigit : ∀ n < 16, Nat.digitChar n ∈ "0123456789abcdef".toList := by decide
    rw [spelledOut, String.toList_ofList] at hc
    rcases List.mem_cons.1 hc with rfl | hc
    · exact hdigit 0 (by decide)
    · obtain ⟨byte, -, hc⟩ := List.mem_flatMap.1 hc
      have hbyte := byte.toNat_lt
      rcases List.mem_pair.1 hc with rfl | rfl
      · exact hdigit _ (by omega)
      · exact hdigit _ (by omega)
  nonempty key message h := by simp [spelledOut, String.ext_iff] at h
  injective key := by
    intro a b h
    exact flatMap_hexByte_injective (by simpa [spelledOut, String.ext_iff] using h)

def seventeen : Parsers where
  int text := if text = "17" then some 17 else none
  loads body := if body = [123, 125] then some (.dict []) else none

theorem reads_seventeen : Reads seventeen := by
  have hint : ∀ {text n}, seventeen.int text = some n → text = "17" := by
    intro text n h
    by_contra hne
    simp [seventeen, hne] at h
  have hseventeen : encode "17" = [49, 55] := by decide +kernel
  refine ⟨fun h => ?_, fun h => ?_, fun {body kvs} h => ?_⟩
  · rw [hint h, hseventeen]
    decide
  · rw [hint h, hseventeen]
    exact ⟨49, [55], by decide, by decide⟩
  · by_cases hbody : body = [123, 125]
    · rw [hbody]
      decide
    · simp [seventeen, hbody] at h

/-- The deliverer of the source `ci`. -/
def deliverer : WebhookInboundConnector := { secret := "s", allowed := ["ci"], callback := true }

theorem callback_signature_seventeen :
    ¬ CallbackAccepted spelledOut seventeen (fun _ => [123, 125]) deliverer 300 false ⟨"ci", "go", []⟩
        "done" 17 17 ∧ (receiverOf "s" 300 false).verifyWebhook spelledOut seventeen [123, 125]
        [("x-himmy-signature", signWebhookBody spelledOut "s" [123, 125] none),
          ("x-himmy-timestamp", "17")] 17 ≠ some true := by
  obtain ⟨hcallback, -, hagree⟩ :=
    callback_signature digests_spelledOut reads_seventeen "s" 300 false 17
  refine ⟨hcallback _ _ _ _ _, fun h => ?_⟩
  have hts := (hagree [123, 125] [123, 125] _ none (by decide +kernel) (by simp) (fun _ => ⟨[], rfl⟩)
    ⟨[], rfl⟩ h).1
  exact absurd hts (by decide +kernel)

/-- A callback within the skew of its receiver, which has the same secret. -/
theorem not_callbackAccepted_seventeen :
    ¬ CallbackAccepted spelledOut seventeen (fun _ => [123, 125]) deliverer 300 false ⟨"ci", "go", []⟩
      "done" 17 17 :=
  not_callbackAccepted digests_spelledOut _ _ _ _ _ _ _ _ _

end Himmy.Connectors
