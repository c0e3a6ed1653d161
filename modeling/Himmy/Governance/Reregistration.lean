import Himmy.Entities.JsonEquality
import Himmy.Governance.ConsentRegistry

/-! # Registering a record again

The registry is content-addressed: the identical record comes back, other content under its id is
refused. The gate encrypts before it registers, and every encryption draws a fresh nonce, so what it
registers the second time is other content whenever it has something to seal. -/

namespace Himmy

open EntityRecord (create sameContent)

namespace Dict

variable {ν : Type}

theorem keys_set_of_find? {d : Dict ν} {k : String} {v : ν} (w : ν) (h : d.find? k = some v) :
    (d.set k w).items.map Prod.fst = d.items.map Prod.fst := by
  obtain ⟨kv, hget, -⟩ := Option.map_eq_some_iff.1 h
  rw [set, KeyedList.items_put_of_some _ _ _ hget, List.map_map]
  refine List.map_congr_left (fun a _ => ?_)
  rw [Function.comp_apply]
  split
  · next hk => exact hk.symm
  · rfl

theorem set_find?_self {d : Dict ν} {k : String} {v : ν} (h : d.find? k = some v) :
    d.set k v = d := by
  obtain ⟨kv, hget, hv⟩ := Option.map_eq_some_iff.1 h
  refine KeyedList.ext ?_
  rw [set, KeyedList.items_put_of_some _ _ _ hget]
  refine (List.map_congr_left (fun a ha => ?_)).trans (List.map_id _)
  split
  · next hk =>
      have hsame := KeyedList.get?_of_mem d ha
      rw [hk] at hsame
      rw [hsame] at hget
      cases hget
      exact Prod.ext hk.symm hv.symm
  · rfl

end Dict

namespace FieldEncryptor

variable (e : FieldEncryptor) {aad : String}

/-! ## What an encryption leaves as it is -/

theorem encryptFields_eq_self {data : Dict Json} {fields : List (String × Nat)}
    (h : ∀ field ∈ fields.map Prod.fst, ∀ s, data.find? field = some (.str s) →
      isEncrypted s = true) : e.encryptFields aad data fields = data := by
  unfold encryptFields
  induction fields with
  | nil => rfl
  | cons field fields ih =>
    have hfirst : e.encryptField aad data field = data := by
      unfold encryptField
      split
      · next s hs => rw [if_pos (h field.1 List.mem_cons_self s hs)]
      · rfl
    rw [List.foldl_cons, hfirst]
    exact ih (fun field' hmem => h field' (List.mem_cons_of_mem _ hmem))

variable {draw : Nat}

theorem encryptMessage_eq_self {message : Json}
    (h : ∀ s, messageContent message = some (.str s) → isEncrypted s = true) :
    e.encryptMessage draw aad message = message := by
  unfold encryptMessage
  split
  · next kvs =>
      split
      · next s hs => rw [if_pos (h s hs)]
      · rfl
  · rfl

theorem encryptThreadPayload_eq_self {payload : Dict Json} {threadId : String}
    (h : ∀ message ∈ messagesOf payload, ∀ s, messageContent message = some (.str s) →
      isEncrypted s = true) : e.encryptThreadPayload payload draw threadId = payload := by
  unfold encryptThreadPayload
  split
  · next messages hmessages =>
      have hsame : messages.mapIdx (fun k m => e.encryptMessage (draw + k) threadId m)
          = messages := by
        refine List.ext_getElem (by simp) (fun k hk hk' => ?_)
        rw [List.getElem_mapIdx]
        exact e.encryptMessage_eq_self (h _ (by simp [messagesOf, hmessages]))
      rw [hsame]
      exact Dict.set_find?_self hmessages
  · rfl

/-! ## What an encryption keeps of the shape -/

theorem keys_encryptFields (data : Dict Json) (fields : List (String × Nat)) :
    (e.encryptFields aad data fields).items.map Prod.fst = data.items.map Prod.fst := by
  unfold encryptFields
  induction fields generalizing data with
  | nil => rfl
  | cons field fields ih =>
    rw [List.foldl_cons, ih]
    unfold encryptField
    split
    · next s hs =>
        split
        · rfl
        · exact Dict.keys_set_of_find? _ hs
    · rfl

theorem keys_encryptThreadPayload (payload : Dict Json) (draw : Nat) (threadId : String) :
    (e.encryptThreadPayload payload draw threadId).items.map Prod.fst
      = payload.items.map Prod.fst := by
  unfold encryptThreadPayload
  split
  · next messages hmessages => exact Dict.keys_set_of_find? _ hmessages
  · rfl

theorem find?_messages_of_mem {payload : Dict Json} {message : Json}
    (h : message ∈ messagesOf payload) :
    payload.find? "messages" = some (.arr (messagesOf payload)) := by
  unfold messagesOf at h ⊢
  split at h
  · next messages hmessages => exact hmessages
  · cases h

/-! ## Texts that two encryptions seal -/

theorem member?_of_map_eq {kvs kvs' : List (String × Json)} (key : String)
    (h : kvs.map (fun kv => (kv.1, kv.2.pyData)) = kvs'.map (fun kv => (kv.1, kv.2.pyData))) :
    (Json.member? kvs key).map Json.pyData = (Json.member? kvs' key).map Json.pyData := by
  have hfind : ∀ kvs : List (String × Json), (Json.member? kvs key).map Json.pyData
      = ((kvs.map (fun kv => (kv.1, kv.2.pyData))).find? (fun kv => kv.1 = key)).map Prod.snd := by
    intro kvs
    rw [List.find?_map, Json.member?, Option.map_map, Option.map_map]
    rfl
  rw [hfind, hfind, h]

theorem keys_setMember (kvs : List (String × Json)) (key : String) (value : Json) :
    (Json.setMember kvs key value).map Prod.fst = kvs.map Prod.fst := by
  rw [Json.setMember, List.map_map]
  refine List.map_congr_left (fun kv _ => ?_)
  rw [Function.comp_apply]
  split
  · next hk => exact hk.symm
  · rfl

theorem encryptMessage_of_plain {kvs : List (String × Json)} {s : String}
    (hs : Json.member? kvs "content" = some (.str s)) (hplain : isEncrypted s = false) :
    e.encryptMessage draw aad (.obj kvs)
      = .obj (Json.setMember kvs "content" (.str (e.encrypt draw aad s))) := by
  unfold encryptMessage
  simp only [hs, hplain, Bool.false_eq_true, if_false]

variable {e} {e' : FieldEncryptor}

def Apart (e e' : FieldEncryptor) : Prop :=
  ∀ draw draw' aad s s', e.encrypt draw aad s ≠ e'.encrypt draw' aad s'

theorem isEncrypted_of_message (hapart : e.Apart e') {draw draw' : Nat} {message : Json}
    (h : (e.encryptMessage draw aad message).pyData = (e'.encryptMessage draw' aad message).pyData)
    {s : String} (hs : messageContent message = some (.str s)) : isEncrypted s = true := by
  by_contra hmark
  rw [Bool.not_eq_true] at hmark
  obtain ⟨kvs, rfl⟩ : ∃ kvs, message = .obj kvs := by
    unfold messageContent at hs
    split at hs
    · next kvs => exact ⟨kvs, rfl⟩
    · cases hs
  rw [e.encryptMessage_of_plain hs hmark, e'.encryptMessage_of_plain hs hmark] at h
  have hdata := member?_of_map_eq "content"
    (Json.pyData_obj_inj (by rw [keys_setMember, keys_setMember]) h)
  have hsome : (Json.member? kvs "content").isSome = true := Option.isSome_iff_exists.2 ⟨_, hs⟩
  rw [member?_setMember _ hsome, member?_setMember _ hsome, Option.map_some, Option.map_some] at hdata
  exact hapart _ _ _ _ _ (Json.pyData_str_inj (Option.some.inj hdata))

end FieldEncryptor

namespace ConsentConfig

variable (cfg : ConsentConfig)

def SealsNothing (record : EntityRecord) : Prop :=
  ∀ text, cfg.Listed record text → isEncrypted text = true

def Asks (record : EntityRecord) : Prop :=
  cfg.vault.isSome = true ∧ (cfg.encryptedFieldsFor record.kind).isEmpty = false

/-- The gate during a call, which draws from a random source of its own. -/
def drawing (vault : String → Nat → FieldEncryptor) : ConsentConfig :=
  { cfg with vault := cfg.vault.map (fun _ => vault) }

variable {fields : List String} {payload : Dict Json} (e : FieldEncryptor)

theorem encryptListed_eq_self
    {subject : String} (h : ∀ text, TextAt fields payload text → isEncrypted text = true) :
    encryptListed e fields payload subject = payload := by
  have hfields : e.encryptFields subject payload (topLevel fields).zipIdx = payload := by
    refine e.encryptFields_eq_self (fun field hmem s hs => ?_)
    rw [List.zipIdx_map_fst, topLevel, List.mem_filter, decide_eq_true_eq] at hmem
    exact h s (Or.inl ⟨field, hmem.1, hmem.2, hs⟩)
  unfold encryptListed
  simp only [hfields]
  split
  · next hmem =>
      exact e.encryptThreadPayload_eq_self (fun message hmessage s hs =>
        h s (Or.inr ⟨hmem, message, hmessage, hs⟩))
  · rfl

theorem keys_encryptListed (fields : List String) (payload : Dict Json)
    (subject : String) :
    (encryptListed e fields payload subject).items.map Prod.fst = payload.items.map Prod.fst := by
  unfold encryptListed
  simp only
  split
  · rw [e.keys_encryptThreadPayload, e.keys_encryptFields]
  · exact e.keys_encryptFields _ _

theorem find?_encryptListed_of_plain
    (subject : String) {field text : String} (hmem : field ∈ fields)
    (hne : field ≠ messagesContentField) (htext : payload.find? field = some (.str text))
    (hplain : isEncrypted text = false) :
    ∃ draw, (encryptListed e fields payload subject).find? field
      = some (.str (e.encrypt draw subject text)) := by
  obtain ⟨hseals, hmark⟩ := FieldEncryptor.seals_encryptFields e subject payload
    (topLevel fields).zipIdx field
  rcases hseals with hsame | ⟨s, draw, hold, -, hnew⟩
  · have hmarked := hmark text (hsame.trans htext) (by simp [topLevel, hmem, hne])
    rw [hplain] at hmarked
    cases hmarked
  · rw [htext] at hold
    cases hold
    exact ⟨draw, (find?_encryptListed _ _ _ _ _ _).2 hnew⟩

theorem isEncrypted_of_pyData {e e' : FieldEncryptor} (hapart : e.Apart e')
    {subject : String}
    (h : (Json.obj (encryptListed e fields payload subject).items).pyData
      = (Json.obj (encryptListed e' fields payload subject).items).pyData) :
    ∀ text, TextAt fields payload text → isEncrypted text = true := by
  have hdata : ∀ key, ((encryptListed e fields payload subject).find? key).map Json.pyData
      = ((encryptListed e' fields payload subject).find? key).map Json.pyData := fun key =>
    FieldEncryptor.member?_of_map_eq key
      (Json.pyData_obj_inj (by rw [keys_encryptListed, keys_encryptListed]) h)
  rintro text (⟨field, hmem, hne, htext⟩ | ⟨hmem, message, hmessage, htext⟩)
  · by_contra hmark
    rw [Bool.not_eq_true] at hmark
    obtain ⟨draw, hnew⟩ := find?_encryptListed_of_plain e subject hmem hne htext hmark
    obtain ⟨draw', hnew'⟩ := find?_encryptListed_of_plain e' subject hmem hne htext hmark
    have htokens := hdata field
    rw [hnew, hnew', Option.map_some, Option.map_some] at htokens
    exact hapart _ _ _ _ _ (Json.pyData_str_inj (Option.some.inj htokens))
  · obtain ⟨k, hk, hget⟩ := List.mem_iff_getElem.1 hmessage
    have hlists : ∀ e : FieldEncryptor, (encryptListed e fields payload subject).find? "messages"
        = some (.arr ((FieldEncryptor.messagesOf payload).mapIdx
          (fun k m => e.encryptMessage ((topLevel fields).length + k) subject m))) := by
      intro e
      rw [← messagesOf_encryptListed e payload subject hmem]
      have hthere : e.encryptMessage ((topLevel fields).length + k) subject message
          ∈ FieldEncryptor.messagesOf (encryptListed e fields payload subject) := by
        rw [messagesOf_encryptListed e payload subject hmem, List.mem_iff_getElem]
        exact ⟨k, by simpa using hk, by simp [hget]⟩
      exact FieldEncryptor.find?_messages_of_mem hthere
    have hmessages := hdata "messages"
    rw [hlists e, hlists e', Option.map_some, Option.map_some] at hmessages
    have hall := congrArg (fun l => l[k]?) (Json.pyData_arr_inj (Option.some.inj hmessages))
    simp only [List.getElem?_map, List.getElem?_mapIdx, List.getElem?_eq_getElem hk, hget,
      Option.map_some] at hall
    exact FieldEncryptor.isEncrypted_of_message hapart (Option.some.inj hall) htext

variable {cfg : ConsentConfig} {D : Digests} {env : ConsentEnv} {record encrypted : EntityRecord}
  {subject : String} {vault : String → Nat → FieldEncryptor}

theorem encrypt_cases (h : (cfg.drawing vault).encrypt D env record subject = some encrypted) :
    (¬ cfg.Asks record ∧ encrypted = record)
      ∨ (cfg.Asks record ∧ ∃ generation, env.generation subject = some generation
        ∧ encrypted = create D record.stableId record.version record.kind
          (encryptListed (vault subject generation) (cfg.encryptedFieldsFor record.kind)
            record.payload subject) record.metadata env.createdAt) := by
  unfold encrypt drawing at h
  unfold Asks
  cases hvault : cfg.vault with
  | none =>
    rw [hvault] at h
    exact Or.inl ⟨by simp, (Option.some.inj h).symm⟩
  | some v =>
    simp only [hvault, Option.map_some] at h
    split at h
    · next hfields => exact Or.inl ⟨by simp [hfields], (Option.some.inj h).symm⟩
    · next hfields =>
        obtain ⟨generation, hgeneration, h⟩ := Option.bind_eq_some_iff.1 h
        exact Or.inr ⟨⟨rfl, by simpa using hfields⟩, generation, hgeneration,
          (Option.some.inj h).symm⟩

theorem encrypt_isSome_iff : ((cfg.drawing vault).encrypt D env record subject).isSome = true
    ↔ (cfg.Asks record → (env.generation subject).isSome = true) := by
  unfold encrypt drawing Asks
  cases hvault : cfg.vault with
  | none => simp
  | some v =>
    simp only [Option.map_some, Option.isSome_some, true_and]
    split
    · next hfields => simp [hfields]
    · next hfields => cases hkey : env.generation subject <;> simp [hfields]

end ConsentConfig

namespace EntityRegistry

variable {registry registry' : EntityRegistry} {record stored : EntityRecord}

theorem register_of_get (h : registry.get record.recordId = some stored)
    (hsame : stored.sameContent record = true) :
    registry.register record = .ok (registry, stored) := by
  unfold register
  rw [h]
  simp only [hsame, if_true]

theorem get_of_register (h : registry.register record = .ok (registry', stored)) :
    registry'.get record.recordId = some stored ∧ stored.sameContent record = true := by
  unfold register at h
  split at h
  · next existing hget =>
      split at h
      · next hsame =>
          cases h
          exact ⟨hget, hsame⟩
      · cases h
  · cases h
    refine ⟨KeyedList.get?_put_self _ _, ?_⟩
    rw [sameContent, Json.pyEq_refl, Json.pyEq_refl]
    rfl

end EntityRegistry

namespace ConsentAwareRegistry

variable (D : Digests) (cfg : ConsentConfig) (vaults : Nat → String → Nat → FieldEncryptor)

/-- The calls of a history, from the `n`-th on; each has a random source of its own. -/
def performAll : Nat → ConsentAwareRegistry → List ConsentCall → ConsentAwareRegistry
  | _, gate, [] => gate
  | n, gate, c :: calls => performAll (n + 1) (gate.perform D (cfg.drawing (vaults n)) c) calls

def Idempotent (gate : ConsentAwareRegistry)
    (outcome : ConsentAwareRegistry × Except ConsentError EntityRecord) : Prop :=
  (∃ stored, outcome.2 = .ok stored) ∧ outcome.1.inner = gate.inner

variable {D cfg vaults} {gate : ConsentAwareRegistry} {env : ConsentEnv}
  {record encrypted stored : EntityRecord} {subject : String}

theorem get_perform {c : ConsentCall} {id : String} (h : gate.inner.get id = some stored) :
    (gate.perform D cfg c).inner.get id = some stored := by
  unfold EntityRegistry.get at h ⊢
  rw [records_perform]
  cases gate.offered D cfg c with
  | none => exact h
  | some offered =>
    unfold insertInto EntityRegistry.get
    simp only
    split
    · next hfree =>
        rw [KeyedList.get?_put_of_ne _ _ (fun hid => ?_), h]
        rw [← hid, h] at hfree
        cases hfree
    · exact h

theorem get_performAll {n : Nat} {id : String} (calls : List ConsentCall)
    (h : gate.inner.get id = some stored) :
    (performAll D cfg vaults n gate calls).inner.get id = some stored := by
  induction calls generalizing n gate with
  | nil => exact h
  | cons c calls ih => exact ih (get_perform h)

theorem registerInner_of_register {inner : EntityRegistry}
    (h : gate.inner.register record = .ok (inner, stored)) :
    gate.registerInner record = ({ gate with inner }, .ok stored) := by
  unfold registerInner
  rw [h]

theorem get_of_registerInner (h : (gate.registerInner record).2 = .ok stored) :
    (gate.registerInner record).1.inner.get record.recordId = some stored
      ∧ stored.sameContent record = true := by
  unfold registerInner at h ⊢
  split at h
  · next inner accepted hregister =>
      cases h
      exact EntityRegistry.get_of_register hregister
  · cases h

theorem idempotent_registerInner_iff (h : gate.inner.get record.recordId = some stored) :
    Idempotent gate (gate.registerInner record) ↔ stored.sameContent record = true := by
  constructor
  · rintro ⟨⟨accepted, haccepted⟩, hinner⟩
    obtain ⟨hget, hsame⟩ := get_of_registerInner haccepted
    rw [hinner, h] at hget
    cases hget
    exact hsame
  · intro hsame
    rw [registerInner_of_register (EntityRegistry.register_of_get h hsame)]
    exact ⟨⟨stored, rfl⟩, rfl⟩

theorem register_of_allow (hkind : record.kind ∈ cfg.gatedKinds)
    (hsubject : cfg.subject? record = some subject)
    (hallow : (env.decider subject).effect = .allow) :
    gate.register D cfg env record = ((cfg.encrypt D env record subject).elim (gate, .error .vault)
      gate.registerInner) := by
  unfold register
  rw [if_neg (not_not.2 hkind), hsubject]
  simp only [hallow, ne_eq, not_true, if_false]
  cases cfg.encrypt D env record subject <;> rfl

theorem sameContent_again_iff {vault vault' : String → Nat → FieldEncryptor}
    (hapart : ∀ g g', (vault subject g).Apart (vault' subject g')) {env' : ConsentEnv}
    {encrypted' : EntityRecord} (hkind : record.kind ∈ cfg.gatedKinds)
    (h : (cfg.drawing vault).encrypt D env record subject = some encrypted)
    (h' : (cfg.drawing vault').encrypt D env' record subject = some encrypted')
    (hsame : stored.sameContent encrypted = true) : encrypted'.recordId = encrypted.recordId
      ∧ (stored.sameContent encrypted' = true ↔ cfg.SealsNothing record) := by
  rcases ConsentConfig.encrypt_cases h with ⟨hasks, rfl⟩ | ⟨hasks, g, -, rfl⟩
  · rcases ConsentConfig.encrypt_cases h' with ⟨-, rfl⟩ | ⟨hasks', -⟩
    · refine ⟨rfl, fun _ text hlisted => (hasks ⟨hlisted.1, ?_⟩).elim, fun _ => hsame⟩
      -- a kind without fields lists no text
      cases hfields : cfg.encryptedFieldsFor encrypted'.kind with
      | nil =>
        have htext := hlisted.2.2
        rw [hfields] at htext
        rcases htext with ⟨field, hfield, -⟩ | ⟨hfield, -⟩ <;> cases hfield
      | cons field fields => rfl
    · exact (hasks hasks').elim
  · rcases ConsentConfig.encrypt_cases h' with ⟨hasks', -⟩ | ⟨-, g', -, rfl⟩
    · exact (hasks' hasks).elim
    · refine ⟨rfl, ?_, ?_⟩
      · intro hsame' text hlisted
        rw [sameContent, Bool.and_eq_true] at hsame hsame'
        exact ConsentConfig.isEncrypted_of_pyData (hapart g g')
          (Json.pyEq_of_pyEq hsame.1 hsame'.1) text hlisted.2.2
      · intro hnothing
        have hplain : ∀ text, ConsentConfig.TextAt (cfg.encryptedFieldsFor record.kind)
            record.payload text → isEncrypted text = true := fun text htext =>
          hnothing text ⟨hasks.1, hkind, htext⟩
        simpa only [sameContent, create,
          ConsentConfig.encryptListed_eq_self _ hplain] using hsame

/-- **Registering a record again**, after any history of calls: when its subject allows it and the
    first registration was accepted, the second one succeeds and changes nothing exactly when the
    record has no listed text to seal, and the vault has the key that it is asked for. -/
theorem idempotent_again_iff (D : Digests) (cfg : ConsentConfig)
    (vaults : Nat → String → Nat → FieldEncryptor)
    (hfresh : ∀ i j, i ≠ j → ∀ subject g g', (vaults i subject g).Apart (vaults j subject g'))
    (before between : List ConsentCall) {env env' : ConsentEnv} {record stored : EntityRecord}
    {subject : String} (hkind : record.kind ∈ cfg.gatedKinds)
    (hsubject : cfg.subject? record = some subject) (hallow : (env.decider subject).effect = .allow)
    (hallow' : (env'.decider subject).effect = .allow)
    (hfirst : ((performAll D cfg vaults 0 {} before).register D
      (cfg.drawing (vaults before.length)) env record).2 = .ok stored) :
    let gate := performAll D cfg vaults (before.length + 1)
      ((performAll D cfg vaults 0 {} before).register D (cfg.drawing (vaults before.length)) env
        record).1 between
    Idempotent gate (gate.register D
        (cfg.drawing (vaults (before.length + 1 + between.length))) env' record)
      ↔ cfg.SealsNothing record
        ∧ (cfg.Asks record → (env'.generation subject).isSome = true) := by
  intro gate
  have hregister : ∀ (gate : ConsentAwareRegistry) (n : Nat) (env : ConsentEnv),
      (env.decider subject).effect = .allow →
      gate.register D (cfg.drawing (vaults n)) env record
        = (((cfg.drawing (vaults n)).encrypt D env record subject).elim (gate, .error .vault)
          gate.registerInner) :=
    fun gate n env hallow => register_of_allow (by exact hkind) (by exact hsubject) hallow
  -- what the first registration stored is still there
  obtain ⟨encrypted, hencrypt⟩ : ∃ encrypted,
      (cfg.drawing (vaults before.length)).encrypt D env record subject = some encrypted := by
    rw [hregister _ _ _ hallow] at hfirst
    cases hencrypt : (cfg.drawing (vaults before.length)).encrypt D env record subject with
    | none =>
      rw [hencrypt] at hfirst
      cases hfirst
    | some encrypted => exact ⟨encrypted, rfl⟩
  rw [hregister _ _ _ hallow, hencrypt, Option.elim_some] at hfirst
  obtain ⟨hget, hsame⟩ := get_of_registerInner hfirst
  have hthere : gate.inner.get encrypted.recordId = some stored := by
    refine get_performAll between ?_
    rw [hregister _ _ _ hallow, hencrypt, Option.elim_some]
    exact hget
  -- the second registration encrypts again
  have hkey : ((cfg.drawing (vaults (before.length + 1 + between.length))).encrypt D env' record
      subject).isSome = true ↔ (cfg.Asks record → (env'.generation subject).isSome = true) :=
    ConsentConfig.encrypt_isSome_iff
  rw [hregister _ _ _ hallow', ← hkey]
  cases hencrypt' : (cfg.drawing (vaults (before.length + 1 + between.length))).encrypt D env'
      record subject with
  | none =>
    rw [Option.elim_none]
    constructor
    · rintro ⟨⟨accepted, haccepted⟩, -⟩
      cases haccepted
    · rintro ⟨-, hsome⟩
      cases hsome
  | some encrypted' =>
    obtain ⟨hid, hiff⟩ := sameContent_again_iff (hfresh _ _ (by omega) subject) hkind hencrypt
      hencrypt' hsame
    rw [Option.elim_some, idempotent_registerInner_iff (by rw [hid]; exact hthere), hiff]
    simp

/-! ### Two registrations of one message

The message is in clear. The second registration seals it under another nonce, and the inner registry
refuses the other content. -/

/-- Registering a record again succeeds and changes nothing. -/
def ReregistrationIdempotent (D : Digests) : Prop :=
  ∀ (cfg : ConsentConfig) (vaults : Nat → String → Nat → FieldEncryptor),
    (∀ i j, i ≠ j → ∀ subject g g', (vaults i subject g).Apart (vaults j subject g')) →
    ∀ (before between : List ConsentCall) (env env' : ConsentEnv) (record stored : EntityRecord)
      (subject : String), record.kind ∈ cfg.gatedKinds → cfg.subject? record = some subject →
      (env.decider subject).effect = .allow → (env'.decider subject).effect = .allow →
      (env'.generation subject).isSome = true →
      ((performAll D cfg vaults 0 {} before).register D (cfg.drawing (vaults before.length)) env
        record).2 = .ok stored →
      Idempotent (performAll D cfg vaults (before.length + 1)
          ((performAll D cfg vaults 0 {} before).register D (cfg.drawing (vaults before.length)) env
            record).1 between)
        ((performAll D cfg vaults (before.length + 1)
          ((performAll D cfg vaults 0 {} before).register D (cfg.drawing (vaults before.length)) env
            record).1 between).register D
          (cfg.drawing (vaults (before.length + 1 + between.length))) env' record)

private def sealingGate : ConsentConfig :=
  { gatedKinds := ["message"]
    subjectExtractor := fun record => Dict.str? record.metadata "subject_id"
    vault := some (fun _ _ => { keyVersion := "LOCAL", blob := fun _ _ _ => "" })
    encryptedFieldsFor := fun kind => if kind = "message" then ["content"] else []
    audit := true }

private def countedVault (n : Nat) : String → Nat → FieldEncryptor := fun _ _ =>
  { keyVersion := "LOCAL", blob := fun _ _ _ => String.ofList (List.replicate n 'A') }

private theorem apart_countedVault : ∀ i j, i ≠ j → ∀ subject g g',
    (countedVault i subject g).Apart (countedVault j subject g') := by
  intro i j hij subject g g' draw draw' aad s s' h
  have hlengths := congrArg (fun t => t.toList.length) h
  simp only [FieldEncryptor.encrypt, countedVault, String.toList_append, String.toList_ofList,
    List.length_append, List.length_replicate] at hlengths
  omega

private def consenting : ConsentEnv :=
  { decider := fun _ => { effect := .allow }, generation := fun _ => some 0, createdAt := "t0" }

private def clearMessage (content : String) : EntityRecord :=
  create codeDigests "m-1" 1 "message"
    (Dict.set KeyedList.empty "content" (.str content))
    (Dict.set KeyedList.empty "subject_id" (.str "alice")) "t0"

theorem idempotent_again_iff_token :
    let record := clearMessage "himmy:enc:v1:LOCAL:c2VhbGVk"
    let first := (({} : ConsentAwareRegistry).register codeDigests
      (sealingGate.drawing (countedVault 0)) consenting record).1
    Idempotent first (first.register codeDigests (sealingGate.drawing (countedVault 1)) consenting
        record)
      ↔ sealingGate.SealsNothing record
        ∧ (sealingGate.Asks record → (consenting.generation "alice").isSome = true) :=
  idempotent_again_iff codeDigests sealingGate countedVault apart_countedVault [] []
    (by decide) rfl rfl rfl rfl

theorem not_reregistrationIdempotent : ¬ ReregistrationIdempotent codeDigests := by
  intro h
  obtain ⟨⟨stored, hstored⟩, -⟩ := h sealingGate countedVault apart_countedVault [] [] consenting
    consenting (clearMessage "in clear") _ "alice" (by decide) rfl rfl rfl rfl rfl
  have hok := (congrArg Except.toBool hstored).trans (b := true) rfl
  revert hok
  decide +kernel

end ConsentAwareRegistry

end Himmy
