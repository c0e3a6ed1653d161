import Himmy.Core.Json

/-! # Field encryption

`FieldEncryptor` turns a text into a token, and `RecordCipher` and `StorePayloadCipher` apply it to
the fields of a payload and to the messages of a thread. The AEAD, the wrapping of the data key and
base64 are a parameter of the encryptor; the frame of a token and the choice of what is encrypted are
the code's.

A text that starts with the marker of a token is taken for one and stays as it is
(`seals_encryptFields`). -/

namespace Himmy

def encPrefix : String := "himmy:enc:v1:"

/-- `FieldEncryptor.is_encrypted` of a text. -/
def isEncrypted (value : String) : Bool := encPrefix.toList.isPrefixOf value.toList

/-- `FieldEncryptor` of one key. -/
structure FieldEncryptor where
  keyVersion : String
  /-- base64 of the wrapped data key, the nonce and the ciphertext of a text under associated data, at
      a draw of the random source -/
  blob : Nat → String → String → String

namespace FieldEncryptor

variable (e : FieldEncryptor)

def encrypt (draw : Nat) (aad plaintext : String) : String :=
  encPrefix ++ e.keyVersion ++ ":" ++ e.blob draw aad plaintext

theorem isEncrypted_encrypt (draw : Nat) (aad plaintext : String) :
    isEncrypted (e.encrypt draw aad plaintext) = true := by
  simp [isEncrypted, encrypt, String.toList_append, List.append_assoc]

/-- The body of the loop of `encrypt_fields`. -/
def encryptField (aad : String) (out : Dict Json) (field : String × Nat) : Dict Json :=
  match out.find? field.1 with
  | some (.str s) => if isEncrypted s then out else out.set field.1 (.str (e.encrypt field.2 aad s))
  | _ => out

/-- `RecordCipher.encrypt_fields`, with the draw for each field. -/
def encryptFields (aad : String) (data : Dict Json) (fields : List (String × Nat)) : Dict Json :=
  fields.foldl (e.encryptField aad) data

end FieldEncryptor

/-- `message.get(key)` of a dictionary inside a JSON value. -/
def Json.member? (kvs : List (String × Json)) (key : String) : Option Json :=
  (kvs.find? (fun kv => kv.1 = key)).map Prod.snd

def Json.setMember (kvs : List (String × Json)) (key : String) (value : Json) :
    List (String × Json) :=
  kvs.map (fun kv => if kv.1 = key then (key, value) else kv)

namespace FieldEncryptor

variable (e : FieldEncryptor)

def encryptMessage (draw : Nat) (aad : String) : Json → Json
  | .obj kvs =>
    match Json.member? kvs "content" with
    | some (.str s) =>
      if isEncrypted s then .obj kvs
      else .obj (Json.setMember kvs "content" (.str (e.encrypt draw aad s)))
    | _ => .obj kvs
  | message => message

/-- `StorePayloadCipher.encrypt_thread_payload`; the messages draw one after another. -/
def encryptThreadPayload (payload : Dict Json) (draw : Nat) (threadId : String) : Dict Json :=
  match payload.find? "messages" with
  | some (.arr messages) =>
    payload.set "messages"
      (.arr (messages.mapIdx (fun k message => e.encryptMessage (draw + k) threadId message)))
  | _ => payload

/-! ## What is left as it is, and what becomes a token -/

/-- The value that was there, or the token of the text that was there without the marker. -/
def Seals (aad : String) (old new : Option Json) : Prop :=
  new = old ∨ ∃ s draw, old = some (.str s) ∧ isEncrypted s = false
    ∧ new = some (.str (e.encrypt draw aad s))

variable {e} {aad : String} {old mid new : Option Json}

theorem Seals.eq_of_isEncrypted {s : String} (h : e.Seals aad old new) (hold : old = some (.str s))
    (hs : isEncrypted s = true) : new = old := by
  rcases h with hsame | ⟨t, draw, ht, hplain, -⟩
  · exact hsame
  · rw [hold] at ht
    cases ht
    rw [hs] at hplain
    cases hplain

theorem Seals.trans (h : e.Seals aad old mid) (h' : e.Seals aad mid new) : e.Seals aad old new := by
  rcases h with hsame | ⟨s, draw, hold, hplain, hmid⟩
  · rwa [hsame] at h'
  · have hnew := h'.eq_of_isEncrypted hmid (e.isEncrypted_encrypt draw aad s)
    exact Or.inr ⟨s, draw, hold, hplain, hnew.trans hmid⟩

theorem Seals.text (h : e.Seals aad old new) {t : String} (hnew : new = some (.str t)) :
    old = some (.str t) ∨ ∃ s draw, t = e.encrypt draw aad s := by
  rcases h with hsame | ⟨s, draw, -, -, htoken⟩
  · exact Or.inl (hsame ▸ hnew)
  · rw [hnew] at htoken
    cases htoken
    exact Or.inr ⟨s, draw, rfl⟩

theorem seals_encryptField (e : FieldEncryptor) (aad : String) (out : Dict Json) (field : String × Nat) (key : String) :
    e.Seals aad (out.find? key) ((e.encryptField aad out field).find? key)
      ∧ ∀ s, (e.encryptField aad out field).find? key = some (.str s) → key = field.1 →
          isEncrypted s = true := by
  unfold encryptField
  split
  · next s hs =>
      split
      · next hmark =>
          refine ⟨Or.inl rfl, fun t ht hkey => ?_⟩
          rw [hkey, hs] at ht
          cases ht
          exact hmark
      · next hplain =>
          by_cases hkey : key = field.1
          · subst hkey
            rw [Dict.find?_set_self]
            refine ⟨Or.inr ⟨s, field.2, hs, by simpa using hplain, rfl⟩, fun t ht _ => ?_⟩
            cases ht
            exact e.isEncrypted_encrypt field.2 aad s
          · rw [Dict.find?_set_of_ne _ _ hkey]
            exact ⟨Or.inl rfl, fun _ _ h => (hkey h).elim⟩
  · next hnot =>
      refine ⟨Or.inl rfl, fun t ht hkey => ?_⟩
      rw [hkey] at ht
      exact (hnot t ht).elim

theorem seals_encryptFields (e : FieldEncryptor) (aad : String) (data : Dict Json) (fields : List (String × Nat)) (key : String) :
    e.Seals aad (data.find? key) ((e.encryptFields aad data fields).find? key)
      ∧ ∀ s, (e.encryptFields aad data fields).find? key = some (.str s) →
          key ∈ fields.map Prod.fst → isEncrypted s = true := by
  unfold encryptFields
  induction fields generalizing data with
  | nil => exact ⟨Or.inl rfl, fun s _ hmem => by cases hmem⟩
  | cons field fields ih =>
    obtain ⟨hfirst, hmark⟩ := seals_encryptField e aad data field key
    obtain ⟨hrest, hlisted⟩ := ih (e.encryptField aad data field)
    refine ⟨hfirst.trans hrest, fun s hs hmem => ?_⟩
    rcases List.mem_cons.1 hmem with hkey | hmem
    · rcases hrest.text hs with hmid | ⟨t, draw, rfl⟩
      · exact hmark s hmid hkey
      · exact e.isEncrypted_encrypt draw aad t
    · exact hlisted s hs hmem

def messageContent : Json → Option Json
  | .obj kvs => Json.member? kvs "content"
  | _ => none

theorem member?_setMember {kvs : List (String × Json)} {key : String} (value : Json)
    (h : (Json.member? kvs key).isSome = true) :
    Json.member? (Json.setMember kvs key value) key = some value := by
  induction kvs with
  | nil => cases h
  | cons kv kvs ih =>
    by_cases hkey : kv.1 = key
    · simp [Json.member?, Json.setMember, hkey]
    · have htail : (Json.member? kvs key).isSome = true := by
        simpa [Json.member?, hkey] using h
      have hrest := ih htail
      simpa [Json.member?, Json.setMember, hkey] using hrest

theorem seals_encryptMessage (e : FieldEncryptor) (aad : String) (draw : Nat) (message : Json) :
    e.Seals aad (messageContent message) (messageContent (e.encryptMessage draw aad message))
      ∧ ∀ s, messageContent (e.encryptMessage draw aad message) = some (.str s) →
          isEncrypted s = true := by
  cases message with
  | obj kvs =>
    unfold encryptMessage
    simp only
    split
    · next s hs =>
        split
        · next hmark =>
            refine ⟨Or.inl rfl, fun t ht => ?_⟩
            rw [messageContent, hs] at ht
            cases ht
            exact hmark
        · next hplain =>
            have hset := member?_setMember (Json.str (e.encrypt draw aad s))
              (Option.isSome_iff_exists.2 ⟨_, hs⟩)
            refine ⟨Or.inr ⟨s, draw, hs, by simpa using hplain, hset⟩, fun t ht => ?_⟩
            rw [messageContent, hset] at ht
            cases ht
            exact e.isEncrypted_encrypt draw aad s
    · next hnot => exact ⟨Or.inl rfl, fun t ht => (hnot t ht).elim⟩
  | null => exact ⟨Or.inl rfl, fun s hs => by cases hs⟩
  | bool b => exact ⟨Or.inl rfl, fun s hs => by cases hs⟩
  | num n => exact ⟨Or.inl rfl, fun s hs => by cases hs⟩
  | str t => exact ⟨Or.inl rfl, fun s hs => by cases hs⟩
  | arr xs => exact ⟨Or.inl rfl, fun s hs => by cases hs⟩

def messagesOf (payload : Dict Json) : List Json :=
  match payload.find? "messages" with
  | some (.arr messages) => messages
  | _ => []

theorem messagesOf_encryptThreadPayload (payload : Dict Json) (draw : Nat) (threadId : String) :
    messagesOf (e.encryptThreadPayload payload draw threadId)
      = (messagesOf payload).mapIdx (fun k m => e.encryptMessage (draw + k) threadId m) := by
  unfold encryptThreadPayload
  split
  · next messages hmessages => simp [messagesOf, hmessages]
  · next hnot =>
      have hnil : messagesOf payload = [] := by
        unfold messagesOf
        split
        · next messages hmessages => exact (hnot messages hmessages).elim
        · rfl
      rw [hnil]
      rfl

theorem find?_encryptThreadPayload (payload : Dict Json) (draw : Nat) (threadId key s : String) :
    (e.encryptThreadPayload payload draw threadId).find? key = some (.str s)
      ↔ payload.find? key = some (.str s) := by
  unfold encryptThreadPayload
  split
  · next messages hmessages =>
      by_cases hkey : key = "messages"
      · subst hkey
        rw [Dict.find?_set_self, hmessages]
        simp
      · rw [Dict.find?_set_of_ne _ _ hkey]
  · rfl

theorem messagesOf_encryptFields (data : Dict Json) (fields : List (String × Nat)) :
    messagesOf (e.encryptFields aad data fields) = messagesOf data := by
  unfold messagesOf
  rcases (seals_encryptFields e aad data fields "messages").1 with
    hsame | ⟨s, draw, hold, -, hnew⟩
  · rw [hsame]
  · rw [hold, hnew]

end FieldEncryptor

end Himmy
