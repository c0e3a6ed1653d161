import Himmy.Library.Transition
import Himmy.Entities.Registry
import Himmy.Storage.Encryption

/-! # The consent gate of the registry

`ConsentAwareRegistry` stands before a registry: `register` asks for the subject's consent and
encrypts what is listed for the kind of the record, and every other method goes to the inner
registry by attribute delegation. `new_version` is one of these: it creates a record and registers it
on the inner registry, past the gate.

`gateKept_iff_guarded` says for which calls the gate keeps what it is for. -/

namespace Himmy

open FieldEncryptor (messagesOf seals_encryptFields seals_encryptMessage)

def messagesContentField : String := "messages[].content"

inductive Effect where
  | allow
  | ephemeral
  | deny
  deriving DecidableEq

structure Decision where
  effect : Effect
  reason : String := ""

/-- `SecurityEvent`, as `_audit_deny` makes it. -/
structure SecurityEvent where
  eventType : String := "consent_denied_persist"
  outcome : String := "deny"
  /-- the subject of the actor, if there is one -/
  subject : Option String
  resource : String
  action : String := "register"
  detail : String

/-- What a `ConsentAwareRegistry` is constructed with. -/
structure ConsentConfig where
  gatedKinds : List String
  subjectExtractor : EntityRecord → Option String
  /-- the encryptor of each subject's key, for each generation of the key -/
  vault : Option (String → Nat → FieldEncryptor)
  encryptedFieldsFor : String → List String
  audit : Bool

/-- What the collaborators of the gate answer during a call. -/
structure ConsentEnv where
  /-- the decision for a subject at purpose RETAIN -/
  decider : String → Decision
  /-- the generation of a subject's key; the vault may raise -/
  generation : String → Option Nat
  /-- the clock -/
  createdAt : String

/-- The calls of a registry. -/
inductive RegistryCall where
  | register (record : EntityRecord)
  | newVersion (call : NewVersion)
  | link (link : EntityLink)
  /-- a method that reads -/
  | read

/-- A call, with what the collaborators answer during it. -/
structure ConsentCall where
  env : ConsentEnv
  call : RegistryCall

/-- What a call through the gate raises. -/
inductive ConsentError where
  | registry (e : RegistryError)
  /-- the vault has no key for the subject -/
  | vault

/-- The inner registry, and the security events. -/
structure ConsentAwareRegistry where
  inner : EntityRegistry := {}
  events : List SecurityEvent := []

namespace ConsentConfig

variable (cfg : ConsentConfig)

def subject? (record : EntityRecord) : Option String :=
  (cfg.subjectExtractor record).filter (fun subject => subject ≠ "")

def topLevel (fields : List String) : List String :=
  fields.filter (fun field => field ≠ messagesContentField)

def encryptListed (e : FieldEncryptor) (fields : List String) (payload : Dict Json)
    (subject : String) : Dict Json :=
  let payload := e.encryptFields subject payload (topLevel fields).zipIdx
  if messagesContentField ∈ fields then
    e.encryptThreadPayload payload (topLevel fields).length subject
  else payload

def encrypt (D : Digests) (env : ConsentEnv) (record : EntityRecord) (subject : String) :
    Option EntityRecord :=
  let fields := cfg.encryptedFieldsFor record.kind
  match cfg.vault with
  | none => some record
  | some vault =>
    if fields.isEmpty then some record
    else do
      let generation ← env.generation subject
      let payload := encryptListed (vault subject generation) fields record.payload subject
      return EntityRecord.create D record.stableId record.version record.kind payload
        record.metadata env.createdAt

end ConsentConfig

namespace ConsentAwareRegistry

variable (D : Digests) (cfg : ConsentConfig) (gate : ConsentAwareRegistry)

def auditDeny (subject kind reason : String) : ConsentAwareRegistry :=
  if cfg.audit then
    { gate with events := gate.events ++ [{
        subject := if subject = "" then none else some subject, resource := kind
        detail := reason }] }
  else gate

/-- `self._inner.register(record)`. -/
def registerInner (record : EntityRecord) :
    ConsentAwareRegistry × Except ConsentError EntityRecord :=
  match gate.inner.register record with
  | .ok (inner, stored) => ({ gate with inner }, .ok stored)
  | .error e => (gate, .error (.registry e))

def register (env : ConsentEnv) (record : EntityRecord) :
    ConsentAwareRegistry × Except ConsentError EntityRecord :=
  if record.kind ∉ cfg.gatedKinds then gate.registerInner record
  else match cfg.subject? record with
    | none => (gate.auditDeny cfg "" record.kind "unresolved subject", .ok record)
    | some subject =>
      let decision := env.decider subject
      if decision.effect ≠ .allow then
        (gate.auditDeny cfg subject record.kind decision.reason, .ok record)
      else match cfg.encrypt D env record subject with
        | none => (gate, .error .vault)
        | some encrypted => gate.registerInner encrypted

/-- `new_version`, by `__getattr__`. -/
def newVersion (call : NewVersion) : ConsentAwareRegistry × Except ConsentError EntityRecord :=
  match gate.inner.newVersion D call with
  | .ok (inner, stored) => ({ gate with inner }, .ok stored)
  | .error e => (gate, .error (.registry e))

variable (c : ConsentCall)

def perform : ConsentAwareRegistry :=
  match c.call with
  | .register record => (gate.register D cfg c.env record).1
  | .newVersion call => (gate.newVersion D call).1
  | .link link => { gate with inner := gate.inner.link link }
  | .read => gate

/-! ## What reaches the inner registry -/

def submitted : Option EntityRecord :=
  match c.call with
  | .register record => some record
  | .newVersion call => some (call.record D (gate.inner.currentVersion call.stableId + 1))
  | .link _ => none
  | .read => none

def offered : Option EntityRecord :=
  match c.call with
  | .register record =>
    if record.kind ∉ cfg.gatedKinds then some record
    else (cfg.subject? record).bind fun subject =>
      if (c.env.decider subject).effect ≠ .allow then none
      else cfg.encrypt D c.env record subject
  | .newVersion call =>
    let current := gate.inner.currentVersion call.stableId
    if (call.expectedVersion.filter (fun expected => expected ≠ current)).isSome then none
    else some (call.record D (current + 1))
  | .link _ => none
  | .read => none

def insertInto (registry : EntityRegistry) (record : EntityRecord) :
    KeyedList EntityRecord.recordId :=
  if (registry.get record.recordId).isNone then registry.records.put record else registry.records

theorem records_registerInner (record : EntityRecord) :
    (gate.registerInner record).1.inner.records = insertInto gate.inner record := by
  unfold registerInner insertInto
  cases hget : gate.inner.get record.recordId with
  | none =>
    obtain ⟨registry', hregister, hrecords⟩ := EntityRegistry.register_of_none hget
    rw [hregister]
    exact hrecords
  | some existing =>
    cases hregister : gate.inner.register record with
    | error e => rfl
    | ok result =>
      obtain ⟨registry', stored⟩ := result
      rcases EntityRegistry.register_cases hregister with rfl | ⟨hnone, -⟩
      · rfl
      · rw [hget] at hnone
        cases hnone

theorem inner_auditDeny (subject kind reason : String) :
    (gate.auditDeny cfg subject kind reason).inner = gate.inner := by
  unfold auditDeny
  split <;> rfl

theorem records_perform : (gate.perform D cfg c).inner.records =
      match gate.offered D cfg c with
      | some record => insertInto gate.inner record
      | none => gate.inner.records := by
  obtain ⟨env, call⟩ := c
  cases call with
  | register record =>
    simp only [perform, register, offered]
    by_cases hkind : record.kind ∉ cfg.gatedKinds
    · simp only [if_pos hkind]
      exact gate.records_registerInner record
    · simp only [if_neg hkind]
      cases cfg.subject? record with
      | none => exact congrArg EntityRegistry.records (inner_auditDeny cfg gate _ _ _)
      | some subject =>
        by_cases hallow : (env.decider subject).effect ≠ .allow
        · simp only [Option.bind_some, if_pos hallow]
          exact congrArg EntityRegistry.records (inner_auditDeny cfg gate _ _ _)
        · simp only [Option.bind_some, if_neg hallow]
          cases cfg.encrypt D env record subject with
          | none => rfl
          | some encrypted => exact gate.records_registerInner encrypted
  | newVersion call =>
    simp only [perform, newVersion, offered, EntityRegistry.newVersion]
    cases call.expectedVersion.filter
        (fun expected => expected ≠ gate.inner.currentVersion call.stableId) with
    | some expected => rfl
    | none => exact gate.records_registerInner _
  | link link => rfl
  | read => rfl

end ConsentAwareRegistry

/-! ## Texts listed for encryption -/

namespace ConsentConfig

variable (cfg : ConsentConfig)

def TextAt (fields : List String) (payload : Dict Json) (text : String) : Prop :=
  (∃ field ∈ fields, field ≠ messagesContentField ∧ payload.find? field = some (.str text))
    ∨ (messagesContentField ∈ fields ∧ ∃ message ∈ messagesOf payload,
        FieldEncryptor.messageContent message = some (.str text))

def Listed (record : EntityRecord) (text : String) : Prop :=
  cfg.vault.isSome = true ∧ record.kind ∈ cfg.gatedKinds
    ∧ TextAt (cfg.encryptedFieldsFor record.kind) record.payload text

def Sealed (text : String) : Prop :=
  ∃ vault subject generation draw aad plaintext, cfg.vault = some vault
    ∧ text = (vault subject generation).encrypt draw aad plaintext

variable (e : FieldEncryptor)

theorem find?_encryptListed (fields : List String) (payload : Dict Json)
    (subject field text : String) :
    (encryptListed e fields payload subject).find? field = some (.str text)
      ↔ (e.encryptFields subject payload (topLevel fields).zipIdx).find? field
        = some (.str text) := by
  unfold encryptListed
  simp only
  split
  · exact FieldEncryptor.find?_encryptThreadPayload _ _ _ _ _
  · rfl

theorem messagesOf_encryptListed {fields : List String} (payload : Dict Json)
    (subject : String) (hmem : messagesContentField ∈ fields) :
    messagesOf (encryptListed e fields payload subject) = (messagesOf payload).mapIdx
        (fun k m => e.encryptMessage ((topLevel fields).length + k) subject m) := by
  unfold encryptListed
  simp only [if_pos hmem]
  rw [FieldEncryptor.messagesOf_encryptThreadPayload, FieldEncryptor.messagesOf_encryptFields]

theorem textAt_encrypted_iff (fields : List String) (payload : Dict Json)
    (subject : String) {P : String → Prop} (hP : ∀ draw aad s, P (e.encrypt draw aad s)) :
    (∀ text, TextAt fields (encryptListed e fields payload subject) text → P text)
      ↔ ∀ text, TextAt fields payload text → isEncrypted text = true → P text := by
  constructor
  · -- a text with the marker is still there
    rintro hall text (⟨field, hmem, hne, htext⟩ | ⟨hmem, message, hmessage, htext⟩) hmark
    · refine hall text (Or.inl ⟨field, hmem, hne, (find?_encryptListed e fields payload subject field text).2 ?_⟩)
      rw [(seals_encryptFields e subject payload (topLevel fields).zipIdx
        field).1.eq_of_isEncrypted htext hmark, htext]
    · obtain ⟨k, hk, hget⟩ := List.mem_iff_getElem.1 hmessage
      refine hall text (Or.inr ⟨hmem,
        e.encryptMessage ((topLevel fields).length + k) subject message, ?_, ?_⟩)
      · rw [messagesOf_encryptListed e payload subject hmem, List.mem_iff_getElem]
        exact ⟨k, by simpa using hk, by simp [hget]⟩
      · rw [(seals_encryptMessage e subject _ message).1.eq_of_isEncrypted htext hmark, htext]
  · -- a text that is there was there with the marker, or is a token now
    rintro hall text (⟨field, hmem, hne, htext⟩ | ⟨hmem, message, hmessage, htext⟩)
    · rw [find?_encryptListed] at htext
      have hspec := seals_encryptFields e subject payload
        (topLevel fields).zipIdx field
      rcases hspec.1.text htext with hold | ⟨s, draw, rfl⟩
      · refine hall text (Or.inl ⟨field, hmem, hne, hold⟩) (hspec.2 text htext ?_)
        simp [topLevel, hmem, hne]
      · exact hP draw subject s
    · rw [messagesOf_encryptListed e payload subject hmem, List.mem_mapIdx] at hmessage
      obtain ⟨k, hk, rfl⟩ := hmessage
      have hspec := seals_encryptMessage e subject
        ((topLevel fields).length + k) (messagesOf payload)[k]
      rcases hspec.1.text htext with hold | ⟨s, draw, rfl⟩
      · exact hall text (Or.inr ⟨hmem, _, List.getElem_mem hk, hold⟩) (hspec.2 text htext)
      · exact hP draw subject s

variable {cfg} {D : Digests} {env : ConsentEnv} {record encrypted : EntityRecord} {subject : String}

theorem sealed_encrypt_iff (h : cfg.encrypt D env record subject = some encrypted) :
    encrypted.kind = record.kind ∧ ((∀ text, cfg.Listed encrypted text → cfg.Sealed text)
        ↔ ∀ text, cfg.Listed record text → isEncrypted text = true → cfg.Sealed text) := by
  unfold encrypt at h
  simp only at h
  split at h
  · next hvault =>
      cases h
      have hnone : ∀ text, ¬ cfg.Listed record text := by
        rintro text ⟨hsome, -⟩
        rw [hvault] at hsome
        cases hsome
      exact ⟨rfl, fun _ text hl => (hnone text hl).elim, fun _ text hl => (hnone text hl).elim⟩
  · next vault hvault =>
      split at h
      · next hfields =>
          cases h
          have hnone : ∀ text, ¬ cfg.Listed record text := by
            rintro text ⟨-, -, htext⟩
            rw [List.isEmpty_iff.1 hfields] at htext
            rcases htext with ⟨field, hfield, -⟩ | ⟨hfield, -⟩ <;> cases hfield
          exact ⟨rfl, fun _ text hl => (hnone text hl).elim, fun _ text hl => (hnone text hl).elim⟩
      · obtain ⟨generation, -, h⟩ := Option.bind_eq_some_iff.1 h
        cases h
        refine ⟨rfl, ?_⟩
        have htokens := textAt_encrypted_iff (vault subject generation)
          (cfg.encryptedFieldsFor record.kind) record.payload subject (P := cfg.Sealed)
          (fun draw aad s => ⟨vault, subject, generation, draw, aad, s, hvault, rfl⟩)
        constructor
        · rintro hall text ⟨hsome, hkind, htext⟩ hmark
          exact htokens.1 (fun t ht => hall t ⟨hsome, hkind, ht⟩) text htext hmark
        · rintro hall text ⟨hsome, hkind, htext⟩
          exact htokens.2 (fun t ht hmark => hall t ⟨hsome, hkind, ht⟩ hmark) text htext

end ConsentConfig

namespace ConsentAwareRegistry

variable (D : Digests) (cfg : ConsentConfig)

/-! ## What the gate is for -/

def Entered (gate gate' : ConsentAwareRegistry) (record : EntityRecord) : Prop :=
  record ∈ gate'.inner.records.items ∧ record ∉ gate.inner.records.items

def GateKept (gate gate' : ConsentAwareRegistry) (c : ConsentCall) : Prop :=
  (∀ record, Entered gate gate' record → record.kind ∈ cfg.gatedKinds →
      ∀ handed subject, gate.submitted D c = some handed → cfg.subject? handed = some subject →
        (c.env.decider subject).effect = .allow)
    ∧ ∀ record ∈ gate'.inner.records.items, ∀ text, cfg.Listed record text → cfg.Sealed text

/-- The calls that the gate keeps what it is for: a new record of a gated kind comes in through
    `register` without listed texts that only look like tokens, or is one that `new_version` may
    pass on as it is. -/
def Guarded (gate : ConsentAwareRegistry) (c : ConsentCall) : Prop :=
  ∀ record, gate.offered D cfg c = some record → gate.inner.get record.recordId = none →
    record.kind ∈ cfg.gatedKinds →
    match c.call with
    | .register handed => ∀ text, cfg.Listed handed text → isEncrypted text = true → cfg.Sealed text
    | .newVersion _ =>
      (∀ subject, cfg.subject? record = some subject → (c.env.decider subject).effect = .allow)
        ∧ ∀ text, cfg.Listed record text → cfg.Sealed text
    | .link _ => True
    | .read => True

def consentRegistry : LTS ConsentAwareRegistry ConsentCall where
  step gate c := some (gate.perform D cfg c)

variable {D cfg} {gate : ConsentAwareRegistry} {c : ConsentCall} {record : EntityRecord}

theorem entered_iff : Entered gate (gate.perform D cfg c) record ↔
    gate.offered D cfg c = some record ∧ gate.inner.get record.recordId = none := by
  unfold Entered
  rw [records_perform]
  cases hoffered : gate.offered D cfg c with
  | none => simp
  | some offered =>
    unfold insertInto
    simp only
    split
    · next hfree =>
        rw [Option.isNone_iff_eq_none] at hfree
        rw [KeyedList.mem_put_iff]
        constructor
        · rintro ⟨rfl | ⟨hold, -⟩, hnew⟩
          · exact ⟨rfl, hfree⟩
          · exact (hnew hold).elim
        · rintro ⟨hsame, hget⟩
          cases hsame
          exact ⟨Or.inl rfl, fun hold => (gate.inner.records.get?_eq_none_iff _).1 hget _ hold rfl⟩
    · next hknown =>
        constructor
        · rintro ⟨hold, hnew⟩
          exact (hnew hold).elim
        · rintro ⟨hsame, hget⟩
          cases hsame
          rw [hget] at hknown
          exact (hknown rfl).elim

theorem mem_perform_iff : record ∈ (gate.perform D cfg c).inner.records.items ↔
    record ∈ gate.inner.records.items ∨ Entered gate (gate.perform D cfg c) record := by
  constructor
  · intro hmem
    by_cases hold : record ∈ gate.inner.records.items
    · exact Or.inl hold
    · exact Or.inr ⟨hmem, hold⟩
  · rintro (hold | hentered)
    · rw [records_perform]
      cases gate.offered D cfg c with
      | none => exact hold
      | some offered =>
        unfold insertInto
        simp only
        split
        · next hfree =>
            rw [Option.isNone_iff_eq_none] at hfree
            rw [KeyedList.items_put_of_none _ _ hfree]
            exact List.mem_append_left _ hold
        · exact hold
    · exact hentered.1

theorem offered_register {env : ConsentEnv} {handed : EntityRecord}
    (h : gate.offered D cfg ⟨env, .register handed⟩ = some record)
    (hkind : record.kind ∈ cfg.gatedKinds) :
    ∃ subject, cfg.subject? handed = some subject ∧ (env.decider subject).effect = .allow
      ∧ cfg.encrypt D env handed subject = some record := by
  simp only [offered] at h
  split at h
  · next hungated =>
      cases h
      exact (hungated hkind).elim
  · obtain ⟨subject, hsubject, h⟩ := Option.bind_eq_some_iff.1 h
    split at h
    · cases h
    · next hallow => exact ⟨subject, hsubject, not_not.1 hallow, h⟩

theorem offered_newVersion {env : ConsentEnv} {call : NewVersion}
    (h : gate.offered D cfg ⟨env, .newVersion call⟩ = some record) :
    gate.submitted D ⟨env, .newVersion call⟩ = some record := by
  simp only [offered] at h
  split at h
  · cases h
  · exact h

def AllSealed (cfg : ConsentConfig) (gate : ConsentAwareRegistry) : Prop :=
  ∀ record ∈ gate.inner.records.items, ∀ text, cfg.Listed record text → cfg.Sealed text

theorem gateKept_iff (hsealed : AllSealed cfg gate) :
    GateKept D cfg gate (gate.perform D cfg c) c ↔ Guarded D cfg gate c := by
  obtain ⟨env, call⟩ := c
  constructor
  · rintro ⟨hallowed, hall⟩ record hoffered hfree hkind
    have hentered := entered_iff.2 ⟨hoffered, hfree⟩
    have htexts := hall record hentered.1
    cases call with
    | register handed =>
      obtain ⟨subject, -, -, hencrypt⟩ := offered_register hoffered hkind
      exact (ConsentConfig.sealed_encrypt_iff hencrypt).2.1 htexts
    | newVersion call =>
      exact ⟨fun subject => hallowed record hentered hkind record subject
        (offered_newVersion hoffered), htexts⟩
    | link link => trivial
    | read => trivial
  · intro hguarded
    constructor
    · intro record hentered hkind handed subject hhanded hsubject
      obtain ⟨hoffered, hfree⟩ := entered_iff.1 hentered
      cases call with
      | register given =>
        cases hhanded
        obtain ⟨subject', hsubject', hallow, -⟩ := offered_register hoffered hkind
        rw [hsubject] at hsubject'
        cases hsubject'
        exact hallow
      | newVersion call =>
        have hsame := offered_newVersion hoffered
        rw [hhanded] at hsame
        cases hsame
        exact (hguarded record hoffered hfree hkind).1 subject hsubject
      | link link => cases hoffered
      | read => cases hoffered
    · intro record hmem text hlisted
      rcases mem_perform_iff.1 hmem with hold | hentered
      · exact hsealed record hold text hlisted
      · obtain ⟨hoffered, hfree⟩ := entered_iff.1 hentered
        have hkind := hlisted.2.1
        have hcond := hguarded record hoffered hfree hkind
        cases call with
        | register handed =>
          obtain ⟨subject, -, -, hencrypt⟩ := offered_register hoffered hkind
          exact (ConsentConfig.sealed_encrypt_iff hencrypt).2.2 hcond text hlisted
        | newVersion call => exact hcond.2 text hlisted
        | link link => cases hoffered
        | read => cases hoffered

/-- Over every sequence of calls and every history of decisions, the gate keeps what it is for exactly
    when every call is guarded. -/
theorem gateKept_iff_guarded (D : Digests) (cfg : ConsentConfig) (calls : List ConsentCall) :
    (consentRegistry D cfg).AlongRun (fun gate c => GateKept D cfg gate (gate.perform D cfg c) c) {}
        calls ↔ (consentRegistry D cfg).AlongRun (fun gate c => Guarded D cfg gate c) {} calls := by
  have hrun : ∀ gate : ConsentAwareRegistry, AllSealed cfg gate →
      ((consentRegistry D cfg).AlongRun
          (fun gate c => GateKept D cfg gate (gate.perform D cfg c) c) gate calls
        ↔ (consentRegistry D cfg).AlongRun (fun gate c => Guarded D cfg gate c) gate calls) := by
    induction calls with
    | nil => exact fun gate _ => Iff.rfl
    | cons c calls ih =>
      intro gate hsealed
      constructor
      · rintro ⟨hkept, hrest⟩
        refine ⟨(gateKept_iff hsealed).1 hkept, fun gate' hstep => ?_⟩
        cases hstep
        exact (ih _ hkept.2).1 (hrest _ rfl)
      · rintro ⟨hguarded, hrest⟩
        have hkept := (gateKept_iff (D := D) hsealed).2 hguarded
        refine ⟨hkept, fun gate' hstep => ?_⟩
        cases hstep
        exact (ih _ hkept.2).2 (hrest _ rfl)
  exact hrun {} (fun record hmem => by cases hmem)

/-! ### Past the gate

The subject of a message has not consented; `new_version` stores it, in clear. -/

def GateCannotBeBypassed (D : Digests) : Prop :=
  ∀ cfg calls, (consentRegistry D cfg).AlongRun
    (fun gate c => GateKept D cfg gate (gate.perform D cfg c) c) {} calls

private def messageGate : ConsentConfig :=
  { gatedKinds := ["message"]
    subjectExtractor := fun record => Dict.str? record.metadata "subject_id"
    vault := some (fun _ _ => { keyVersion := "LOCAL", blob := fun _ _ _ => "c2VhbGVk" })
    encryptedFieldsFor := fun kind => if kind = "message" then ["content"] else []
    audit := true }

private def versionedMessage : ConsentCall :=
  { env := { decider := fun _ => { effect := .deny }, generation := fun _ => some 0
             createdAt := "t0" }
    call := .newVersion {
      stableId := "m-1", kind := "message"
      payload := Dict.set KeyedList.empty "content" (.str "in clear")
      metadata := Dict.set KeyedList.empty "subject_id" (.str "alice")
      expectedVersion := none, createdAt := "t0" } }

theorem not_gateCannotBeBypassed : ¬ GateCannotBeBypassed codeDigests := by
  intro h
  obtain ⟨hkept, -⟩ := h messageGate [versionedMessage]
  have hallowed := hkept.1 _ (entered_iff.2 ⟨rfl, rfl⟩) (by decide) _ "alice" rfl rfl
  exact absurd hallowed (by decide)

end ConsentAwareRegistry

end Himmy
