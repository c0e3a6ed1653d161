import Himmy.Library.Base64
import Himmy.Storage.Encryption

/-! # Tokens, and the rotation of the key that wraps

A token is the marker, the version of the key that wraps, `:` and base64 of a blob: the length of the
wrapped data key, the wrapped data key, the nonce and the ciphertext. Tokens of an older format have no
version, and their blob holds the nonce of the wrapping apart from the wrapped key. The two are told
apart by the `:`, which is no letter of base64.

`rotate_kek` wraps the data key with another key and leaves the nonce and the ciphertext
(`framed_and_rotated`). -/

namespace Himmy

open Base64 (encode)

def localVersion : String := "LOCAL"

/-- What a call on a token raises. -/
inductive TokenError where
  /-- `not a himmy ciphertext token` -/
  | notToken
  /-- `binascii.Error`, or the text is not ASCII -/
  | base64
  /-- the blob is empty -/
  | index
  /-- `key_version must not contain ':' (token delimiter)` -/
  | separator
  /-- `wrapped DEK too large to frame` -/
  | tooLarge
  /-- the provider does not unwrap the key -/
  | unwrap
  /-- `InvalidTag` -/
  | invalidTag
  | utf8
  deriving DecidableEq

namespace Token

abbrev Bytes := List UInt8

/-- AES-GCM: the ciphertext of a plaintext under a key, a nonce and associated data. -/
structure Aead where
  encrypt : Bytes → Bytes → Bytes → Bytes → Bytes
  /-- `none` is `InvalidTag` -/
  decrypt : Bytes → Bytes → Bytes → Bytes → Option Bytes
  decrypt_encrypt : ∀ key nonce plaintext aad,
    decrypt key nonce (encrypt key nonce plaintext aad) aad = some plaintext

/-- `KekProvider` for data keys, which are of 256 bits; a wrapping draws from the random source. The
    version has no `:`, and a wrapped key has 255 bytes at most. -/
structure KekProvider where
  wrapDek : Nat → Bytes → Bytes × String
  /-- `none` when the provider raises -/
  unwrapDek : Bytes → String → Option Bytes
  unwrap_wrap : ∀ draw dek, dek.length = 32 →
    unwrapDek (wrapDek draw dek).1 (wrapDek draw dek).2 = some dek
  version : ∀ draw dek, ':' ∉ (wrapDek draw dek).2.toList
  size : ∀ draw dek, dek.length = 32 → (wrapDek draw dek).1.length ≤ 255

/-! ## The format -/

variable (token : String)

def afterPrefix : Except TokenError (List Char) :=
  if isEncrypted token then .ok (token.toList.drop encPrefix.toList.length) else .error .notToken

def isLegacyToken : Except TokenError Bool := do
  let rest ← afterPrefix token
  return ':' ∉ rest

/-- `base64.urlsafe_b64decode`. -/
def b64decode (text : List Char) : Except TokenError Bytes :=
  match Base64.decode text with
  | some bytes => .ok bytes
  | none => .error .base64

def parseToken : Except TokenError (String × Bytes) := do
  let rest ← afterPrefix token
  if ':' ∈ rest then
    let blob ← b64decode (rest.drop ((rest.takeWhile (fun c => c ≠ ':')).length + 1))
    return (String.ofList (rest.takeWhile (fun c => c ≠ ':')), blob)
  else
    let blob ← b64decode rest
    return (localVersion, blob)

/-- `_split_blob`: the wrapped data key, the nonce and the ciphertext. -/
def splitBlob (blob : Bytes) (legacy : Bool) : Except TokenError (Bytes × Bytes × Bytes) :=
  match blob with
  | [] => .error .index
  | len :: rest =>
    let edekLen := len.toNat
    if legacy then
      let wrapNonce := rest.take 12
      let rest := rest.drop 12
      .ok (wrapNonce ++ rest.take edekLen, (rest.drop edekLen).take 12, (rest.drop edekLen).drop 12)
    else .ok (rest.take edekLen, (rest.drop edekLen).take 12, (rest.drop edekLen).drop 12)

def assembleToken (keyVersion : String) (wrappedDek dataNonce ciphertext : Bytes) :
    Except TokenError String :=
  if ':' ∈ keyVersion.toList then .error .separator
  else if 255 < wrappedDek.length then .error .tooLarge
  else
    let blob := UInt8.ofNat wrappedDek.length :: (wrappedDek ++ dataNonce ++ ciphertext)
    .ok (encPrefix ++ keyVersion ++ ":" ++ String.ofList (encode blob))

def legacyToken (wrapNonce wrappedDek dataNonce ciphertext : Bytes) : String :=
  encPrefix ++ String.ofList (encode
    (UInt8.ofNat wrappedDek.length :: (wrapNonce ++ wrappedDek ++ dataNonce ++ ciphertext)))

/-- The first three lines of `decrypt` and of `rotate_kek`: the version and the parts of the blob. -/
def openToken : Except TokenError (String × Bytes × Bytes × Bytes) := do
  let legacy ← isLegacyToken token
  let (keyVersion, blob) ← parseToken token
  let (wrappedDek, dataNonce, ciphertext) ← splitBlob blob legacy
  return (keyVersion, wrappedDek, dataNonce, ciphertext)

/-- `self._provider.unwrap_dek(wrapped_dek, key_version)`. -/
def unwrap (provider : KekProvider) (wrappedDek : Bytes) (keyVersion : String) :
    Except TokenError Bytes :=
  match provider.unwrapDek wrappedDek keyVersion with
  | some dek => .ok dek
  | none => .error .unwrap

/-- `plaintext.encode("utf-8")`. -/
def utf8 (text : String) : Bytes := text.toByteArray.data.toList

variable (bytes : Bytes)

/-- `.decode("utf-8")`. -/
def ofUtf8 : Except TokenError String :=
  match String.fromUTF8? ⟨bytes.toArray⟩ with
  | some text => .ok text
  | none => .error .utf8

def encrypt (aead : Aead) (provider : KekProvider) (draw : Nat) (dek dataNonce : Bytes)
    (plaintext : String) (aad : Bytes) : Except TokenError String :=
  let ciphertext := aead.encrypt dek dataNonce (utf8 plaintext) aad
  let (wrappedDek, keyVersion) := provider.wrapDek draw dek
  assembleToken keyVersion wrappedDek dataNonce ciphertext

def decrypt (aead : Aead) (provider : KekProvider) (token : String) (aad : Bytes) :
    Except TokenError String := do
  let (keyVersion, wrappedDek, dataNonce, ciphertext) ← openToken token
  let dek ← unwrap provider wrappedDek keyVersion
  match aead.decrypt dek dataNonce ciphertext aad with
  | some plaintext => ofUtf8 plaintext
  | none => .error .invalidTag

/-- `rotate_kek`, to a provider that draws from the random source. -/
def rotateKek (provider newProvider : KekProvider) (draw : Nat) (token : String) :
    Except TokenError String := do
  let (keyVersion, wrappedDek, dataNonce, ciphertext) ← openToken token
  let dek ← unwrap provider wrappedDek keyVersion
  let (newWrapped, newVersion) := newProvider.wrapDek draw dek
  assembleToken newVersion newWrapped dataNonce ciphertext

def rotateAll (provider : KekProvider) (token : String) :
    List (KekProvider × Nat) → Except TokenError (KekProvider × String)
  | [] => .ok (provider, token)
  | (newProvider, draw) :: rest => do
      let token ← rotateKek provider newProvider draw token
      rotateAll newProvider token rest

/-! ## Tokens are told apart and read back -/

theorem afterPrefix_append (text : String) : afterPrefix (encPrefix ++ text) = .ok text.toList := by
  have hmarked : isEncrypted (encPrefix ++ text) = true := by
    simp [isEncrypted, String.toList_append]
  rw [afterPrefix, if_pos hmarked, String.toList_append, List.drop_left]

theorem separator_notMem_encode : ':' ∉ encode bytes :=
  Base64.notMem_encode (by decide) (by decide) bytes

theorem b64decode_encode : b64decode (encode bytes) = .ok bytes := by
  rw [b64decode, Base64.decode_encode]

theorem toNat_length {bytes : Bytes} (h : bytes.length ≤ 255) :
    (UInt8.ofNat bytes.length).toNat = bytes.length := by
  rw [UInt8.toNat_ofNat']
  omega

theorem openToken_of {token keyVersion : String} {legacy : Bool}
    {blob wrappedDek dataNonce ciphertext : Bytes} (hlegacy : isLegacyToken token = .ok legacy)
    (hparse : parseToken token = .ok (keyVersion, blob))
    (hsplit : splitBlob blob legacy = .ok (wrappedDek, dataNonce, ciphertext)) :
    openToken token = .ok (keyVersion, wrappedDek, dataNonce, ciphertext) := by
  simp only [openToken, hlegacy, hparse, hsplit, bind, Except.bind, pure, Except.pure]

section Versioned

variable {keyVersion : String} {wrappedDek dataNonce ciphertext : Bytes}

theorem assembled (hversion : ':' ∉ keyVersion.toList) (hwrapped : wrappedDek.length ≤ 255)
    (hnonce : dataNonce.length = 12) :
    ∃ token, assembleToken keyVersion wrappedDek dataNonce ciphertext = .ok token
      ∧ isLegacyToken token = .ok false
      ∧ openToken token = .ok (keyVersion, wrappedDek, dataNonce, ciphertext) := by
  let blob := UInt8.ofNat wrappedDek.length :: (wrappedDek ++ dataNonce ++ ciphertext)
  have hafter : afterPrefix (encPrefix ++ keyVersion ++ ":" ++ String.ofList (encode blob))
      = .ok (keyVersion.toList ++ ':' :: encode blob) := by
    rw [String.append_assoc, String.append_assoc, afterPrefix_append]
    simp
  have hlegacy : isLegacyToken (encPrefix ++ keyVersion ++ ":" ++ String.ofList (encode blob))
      = .ok false := by
    rw [isLegacyToken, hafter]
    simp [Except.bind, bind, pure, Except.pure]
  have hversionPart : (keyVersion.toList ++ ':' :: encode blob).takeWhile (fun c => c ≠ ':')
      = keyVersion.toList := by
    rw [List.takeWhile_append_of_pos (fun c hc => by
      simpa using fun h : c = ':' => hversion (h ▸ hc))]
    simp
  have hparse : parseToken (encPrefix ++ keyVersion ++ ":" ++ String.ofList (encode blob))
      = .ok (keyVersion, blob) := by
    have hblobPart : (keyVersion.toList ++ ':' :: encode blob).drop
        (keyVersion.toList.length + 1) = encode blob := by
      simp [List.drop_append]
    have hmem : ':' ∈ keyVersion.toList ++ ':' :: encode blob := by simp
    rw [parseToken, hafter]
    show (if ':' ∈ keyVersion.toList ++ ':' :: encode blob then _ else _) = _
    rw [if_pos hmem, hversionPart, hblobPart, b64decode_encode, String.ofList_toList]
    rfl
  refine ⟨_, ?_, hlegacy, ?_⟩
  · rw [assembleToken, if_neg hversion, if_neg (by omega)]
  · refine openToken_of hlegacy hparse ?_
    simp only [splitBlob, blob, Bool.false_eq_true, if_false, toNat_length hwrapped,
      List.append_assoc, List.take_left, List.drop_left]
    rw [← hnonce, List.take_left, List.drop_left]

end Versioned

theorem opened_legacy {wrapNonce wrappedDek dataNonce ciphertext : Bytes}
    (hwrap : wrapNonce.length = 12) (hwrapped : wrappedDek.length ≤ 255)
    (hnonce : dataNonce.length = 12) :
    isLegacyToken (legacyToken wrapNonce wrappedDek dataNonce ciphertext) = .ok true
      ∧ openToken (legacyToken wrapNonce wrappedDek dataNonce ciphertext)
        = .ok (localVersion, wrapNonce ++ wrappedDek, dataNonce, ciphertext) := by
  let blob := UInt8.ofNat wrappedDek.length
    :: (wrapNonce ++ wrappedDek ++ dataNonce ++ ciphertext)
  have hafter : afterPrefix (legacyToken wrapNonce wrappedDek dataNonce ciphertext)
      = .ok (encode blob) := by
    rw [legacyToken, afterPrefix_append, String.toList_ofList]
  have hnone := separator_notMem_encode blob
  have hlegacy : isLegacyToken (legacyToken wrapNonce wrappedDek dataNonce ciphertext)
      = .ok true := by
    rw [isLegacyToken, hafter]
    simp [Except.bind, bind, pure, Except.pure, hnone]
  have hparse : parseToken (legacyToken wrapNonce wrappedDek dataNonce ciphertext)
      = .ok (localVersion, blob) := by
    rw [parseToken, hafter]
    show (if ':' ∈ encode blob then _ else _) = _
    rw [if_neg hnone, b64decode_encode]
    rfl
  refine ⟨hlegacy, openToken_of hlegacy hparse ?_⟩
  have htake : (wrapNonce ++ (wrappedDek ++ (dataNonce ++ ciphertext))).take 12 = wrapNonce := by
    rw [← hwrap, List.take_left]
  have hdrop : (wrapNonce ++ (wrappedDek ++ (dataNonce ++ ciphertext))).drop 12
      = wrappedDek ++ (dataNonce ++ ciphertext) := by
    rw [← hwrap, List.drop_left]
  simp only [splitBlob, blob, if_true, toNat_length hwrapped, List.append_assoc, htake, hdrop,
    List.take_left, List.drop_left]
  rw [← hnonce, List.take_left, List.drop_left]

/-! ## Rotations -/

def Holds (provider : KekProvider) (token : String) (dek dataNonce ciphertext : Bytes) : Prop :=
  ∃ keyVersion wrappedDek, openToken token = .ok (keyVersion, wrappedDek, dataNonce, ciphertext)
    ∧ provider.unwrapDek wrappedDek keyVersion = some dek

section Rotation

variable {aead : Aead} {provider newProvider : KekProvider} {token plaintext : String} {draw : Nat}
  {dek dataNonce ciphertext aad : Bytes}

theorem holds_assembled (provider : KekProvider) (draw : Nat) (hdek : dek.length = 32)
    (hnonce : dataNonce.length = 12) (ciphertext : Bytes) :
    ∃ token, assembleToken (provider.wrapDek draw dek).2 (provider.wrapDek draw dek).1 dataNonce
        ciphertext = .ok token ∧ Holds provider token dek dataNonce ciphertext := by
  have hframed : ∃ token, assembleToken (provider.wrapDek draw dek).2 (provider.wrapDek draw dek).1
      dataNonce ciphertext = .ok token ∧ isLegacyToken token = .ok false
        ∧ openToken token = .ok ((provider.wrapDek draw dek).2, (provider.wrapDek draw dek).1,
          dataNonce, ciphertext) :=
    assembled (provider.version draw dek) (provider.size draw dek hdek) hnonce
  obtain ⟨token, htoken, -, hopen⟩ := hframed
  exact ⟨token, htoken, _, _, hopen, provider.unwrap_wrap draw dek hdek⟩

theorem holds_encrypt (hdek : dek.length = 32) (hnonce : dataNonce.length = 12)
    (h : encrypt aead provider draw dek dataNonce plaintext aad = .ok token) :
    Holds provider token dek dataNonce (aead.encrypt dek dataNonce (utf8 plaintext) aad) := by
  obtain ⟨token', htoken, hholds⟩ := holds_assembled provider draw hdek hnonce
    (aead.encrypt dek dataNonce (utf8 plaintext) aad)
  have hsame : (Except.ok token' : Except TokenError String) = .ok token := htoken.symm.trans h
  cases hsame
  exact hholds

theorem holds_legacy {wrapNonce wrappedDek : Bytes} (hwrap : wrapNonce.length = 12)
    (hwrapped : wrappedDek.length ≤ 255) (hnonce : dataNonce.length = 12)
    (hkey : provider.unwrapDek (wrapNonce ++ wrappedDek) localVersion = some dek) :
    Holds provider (legacyToken wrapNonce wrappedDek dataNonce ciphertext) dek dataNonce
      ciphertext :=
  ⟨_, _, (opened_legacy hwrap hwrapped hnonce).2, hkey⟩

theorem holds_rotateKek (hdek : dek.length = 32) (hnonce : dataNonce.length = 12)
    (h : Holds provider token dek dataNonce ciphertext) (newProvider : KekProvider) (draw : Nat) :
    ∃ token', rotateKek provider newProvider draw token = .ok token'
      ∧ Holds newProvider token' dek dataNonce ciphertext := by
  obtain ⟨keyVersion, wrappedDek, hopen, hkey⟩ := h
  obtain ⟨token', htoken, hholds⟩ := holds_assembled newProvider draw hdek hnonce ciphertext
  refine ⟨token', ?_, hholds⟩
  rw [← htoken]
  simp only [rotateKek, hopen, unwrap, hkey, bind, Except.bind]

theorem holds_rotateAll (hdek : dek.length = 32) (hnonce : dataNonce.length = 12)
    (h : Holds provider token dek dataNonce ciphertext) (rotations : List (KekProvider × Nat)) :
    ∃ provider' token', rotateAll provider token rotations = .ok (provider', token')
      ∧ provider' = (rotations.map Prod.fst).getLastD provider
      ∧ Holds provider' token' dek dataNonce ciphertext := by
  induction rotations generalizing provider token with
  | nil => exact ⟨provider, token, rfl, rfl, h⟩
  | cons rotation rotations ih =>
    obtain ⟨newProvider, draw⟩ := rotation
    obtain ⟨token', hrotate, hholds⟩ := holds_rotateKek hdek hnonce h newProvider draw
    obtain ⟨last, token'', hrun, hlast, hend⟩ := ih hholds
    refine ⟨last, token'', ?_, ?_, hend⟩
    · simp only [rotateAll, hrotate, bind, Except.bind]
      exact hrun
    · rw [hlast, List.map_cons, List.getLastD_cons]

theorem ofUtf8_utf8 (text : String) : ofUtf8 (utf8 text) = .ok text := by
  have hvalid : (ByteArray.mk (utf8 text).toArray) = text.toByteArray := by
    simp [utf8]
  rw [ofUtf8, hvalid, String.fromUTF8?, dif_pos text.isValidUTF8]
  rfl

theorem decrypt_of_holds (h : Holds provider token dek dataNonce
    (aead.encrypt dek dataNonce (utf8 plaintext) aad)) :
    decrypt aead provider token aad = .ok plaintext := by
  obtain ⟨keyVersion, wrappedDek, hopen, hkey⟩ := h
  simp only [decrypt, hopen, unwrap, hkey, aead.decrypt_encrypt, bind, Except.bind, ofUtf8_utf8]

end Rotation

/-- A token that `encrypt` has made, or one of the older format whose key the provider unwraps. -/
def Made (aead : Aead) (provider : KekProvider) (dek dataNonce : Bytes) (plaintext : String)
    (aad : Bytes) (token : String) : Prop :=
  (∃ draw, encrypt aead provider draw dek dataNonce plaintext aad = .ok token)
    ∨ ∃ wrapNonce wrappedDek : Bytes, wrapNonce.length = 12 ∧ wrappedDek.length ≤ 255
      ∧ provider.unwrapDek (wrapNonce ++ wrappedDek) localVersion = some dek
      ∧ token = legacyToken wrapNonce wrappedDek dataNonce
        (aead.encrypt dek dataNonce (utf8 plaintext) aad)

/-- **The two formats are told apart and read back, and rotations keep the plaintext.** -/
theorem framed_and_rotated (aead : Aead) :
    (∀ (keyVersion : String) (wrappedDek dataNonce ciphertext : Bytes), ':' ∉ keyVersion.toList →
      wrappedDek.length ≤ 255 → dataNonce.length = 12 →
      ∃ token, assembleToken keyVersion wrappedDek dataNonce ciphertext = .ok token
        ∧ isLegacyToken token = .ok false
        ∧ openToken token = .ok (keyVersion, wrappedDek, dataNonce, ciphertext))
    ∧ (∀ wrapNonce wrappedDek dataNonce ciphertext : Bytes, wrapNonce.length = 12 →
      wrappedDek.length ≤ 255 → dataNonce.length = 12 →
      isLegacyToken (legacyToken wrapNonce wrappedDek dataNonce ciphertext) = .ok true
        ∧ openToken (legacyToken wrapNonce wrappedDek dataNonce ciphertext)
          = .ok (localVersion, wrapNonce ++ wrappedDek, dataNonce, ciphertext))
    ∧ ∀ (provider : KekProvider) (dek dataNonce aad : Bytes) (plaintext token : String),
      dek.length = 32 → dataNonce.length = 12 →
      Made aead provider dek dataNonce plaintext aad token →
      ∀ rotations : List (KekProvider × Nat), ∃ provider' token',
        rotateAll provider token rotations = .ok (provider', token')
          ∧ provider' = (rotations.map Prod.fst).getLastD provider
          ∧ (∃ keyVersion wrappedDek, openToken token' = .ok (keyVersion, wrappedDek, dataNonce,
            aead.encrypt dek dataNonce (utf8 plaintext) aad))
          ∧ decrypt aead provider' token' aad = .ok plaintext := by
  refine ⟨fun _ _ _ _ hversion hwrapped hnonce => assembled hversion hwrapped hnonce,
    fun _ _ _ _ hwrap hwrapped hnonce => opened_legacy hwrap hwrapped hnonce, ?_⟩
  intro provider dek dataNonce aad plaintext token hdek hnonce hmade rotations
  have hholds : Holds provider token dek dataNonce
      (aead.encrypt dek dataNonce (utf8 plaintext) aad) := by
    rcases hmade with ⟨draw, hencrypt⟩ | ⟨wrapNonce, wrappedDek, hwrap, hwrapped, hkey, rfl⟩
    · exact holds_encrypt hdek hnonce hencrypt
    · exact holds_legacy hwrap hwrapped hnonce hkey
  obtain ⟨provider', token', hrun, hlast, hend⟩ := holds_rotateAll hdek hnonce hholds rotations
  obtain ⟨keyVersion, wrappedDek, hopen, -⟩ := id hend
  exact ⟨provider', token', hrun, hlast, ⟨keyVersion, wrappedDek, hopen⟩, decrypt_of_holds hend⟩

/-! ### A token of the older format, rotated twice -/

private def clearAead : Aead where
  encrypt _ _ plaintext _ := plaintext
  decrypt _ _ ciphertext _ := some ciphertext
  decrypt_encrypt _ _ _ _ := rfl

private def foldedProvider (n : Nat) : KekProvider where
  wrapDek draw dek :=
    (List.replicate 12 (UInt8.ofNat draw) ++ dek, String.ofList (List.replicate n 'v'))
  unwrapDek wrappedDek _ := some (wrappedDek.drop 12)
  unwrap_wrap draw dek _ := congrArg some
    (List.drop_left' (List.length_replicate (a := UInt8.ofNat draw)))
  version draw dek := by simp
  size draw dek hdek := by
    rw [List.length_append, List.length_replicate, hdek]
    omega

theorem framed_and_rotated_legacy : ∃ provider' token',
      rotateAll (foldedProvider 0) (legacyToken (List.replicate 12 7) (List.replicate 32 1)
          (List.replicate 12 9) (utf8 "clear")) [(foldedProvider 1, 3), (foldedProvider 2, 4)]
        = .ok (provider', token') ∧ provider' = foldedProvider 2
      ∧ (∃ keyVersion wrappedDek, openToken token' = .ok (keyVersion, wrappedDek,
        List.replicate 12 9, utf8 "clear")) ∧ decrypt clearAead provider' token' [] = .ok "clear" :=
  (framed_and_rotated clearAead).2.2 (foldedProvider 0) (List.replicate 32 1)
    (List.replicate 12 9) [] "clear" _ (by decide) (by decide)
    (Or.inr ⟨List.replicate 12 7, List.replicate 32 1, by decide, by decide, rfl, rfl⟩)
    [(foldedProvider 1, 3), (foldedProvider 2, 4)]

end Token

end Himmy
