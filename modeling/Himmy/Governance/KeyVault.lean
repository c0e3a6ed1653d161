import Himmy.Core.Json
import Himmy.Core.Text

/-! # The subject-key vault

`SubjectKeyVault` keeps one key for each subject in a file that any number of vaults share. A row
holds its key sealed under the key of its workspace or of the process, or raw; how it was sealed is
recorded by a version. Each vault has providers of its own and a cache of the keys it has opened. -/

namespace Himmy

/-- An authenticated cipher: a key opens what it sealed, and nothing that another one sealed. -/
structure Aead (κ β : Type) where
  encrypt : κ → Nat → β → β
  decrypt : κ → β → Option β
  decrypt_encrypt : ∀ kek nonce key, decrypt kek (encrypt kek nonce key) = some key
  decrypt_other : ∀ {kek kek'}, kek ≠ kek' → ∀ nonce key,
    decrypt kek' (encrypt kek nonce key) = none

def tagAead : Aead Nat (List Nat) where
  encrypt kek nonce key := kek :: nonce :: key
  decrypt kek wrapped :=
    match wrapped with
    | tag :: _ :: key => if tag = kek then some key else none
    | _ => none
  decrypt_encrypt kek nonce key := by simp
  decrypt_other hne nonce key := by simp [hne]

def rawKeyVersion : String := "RAW"

/-- `KekProvider`: the key it holds, and its version. -/
structure KekProvider (κ : Type) where
  kek : κ
  keyVersion : String
  ne_raw : keyVersion ≠ rawKeyVersion

/-- The providers of a vault: of the process, and of the workspaces. -/
structure VaultConfig (κ : Type) where
  metaKek : Option (KekProvider κ) := none
  workspaceKek : Option (String → KekProvider κ) := none

/-- A row of `subject_keys`. -/
structure KeyRow (β : Type) where
  subjectId : String
  wrappedDek : Option β
  keyVersion : String
  createdAt : String
  shreddedAt : Option String := none
  workspaceId : Option String

/-- The vault file. -/
structure VaultFile (β : Type) where
  subjectKeys : KeyedList (KeyRow.subjectId (β := β)) := KeyedList.empty
  disabledWorkspaces : List String := []

/-- `SubjectKeyVault`: its providers and its cache. -/
structure SubjectKeyVault (κ β : Type) where
  config : VaultConfig κ
  cache : Dict β := KeyedList.empty

/-- What the calls of a vault raise. -/
inductive VaultError where
  /-- `WorkspaceShredded` -/
  | workspaceShredded (workspaceId : String)
  /-- `subject … is bound to workspace … but was requested under …` -/
  | boundElsewhere (subjectId stored requested : String)
  /-- `subject key was wrapped under meta-KEK version … but no meta-KEK is configured` -/
  | noMetaKek (keyVersion : String)
  /-- the wrapped key was not sealed under this key -/
  | invalidTag
  /-- `IntegrityError`: the subject has a row by now -/
  | integrity (subjectId : String)
  /-- `subject … has no key (erased?)` -/
  | noKey (subjectId : String)

/-- The draws of a mint: the key, the nonce that seals it, and the clock. -/
structure Mint (β : Type) where
  key : β
  nonce : Nat
  now : String

variable {κ β : Type}

def KeyRow.live? (row : KeyRow β) : Option β :=
  if row.shreddedAt.isSome then none else row.wrappedDek

/-- The row of a subject after `destroy`. -/
def KeyRow.shred (now : String) (row : KeyRow β) : KeyRow β :=
  { row with wrappedDek := none, shreddedAt := some now }

/-- The row of a subject after `_remint_locked`. -/
def KeyRow.reactivate (wrapped : β) (keyVersion now : String) (workspaceId : Option String)
    (row : KeyRow β) : KeyRow β :=
  { row with
    wrappedDek := some wrapped, keyVersion := keyVersion, createdAt := now, shreddedAt := none,
    workspaceId := workspaceId }

namespace VaultFile

variable (file : VaultFile β) (subjectId : String)

def row? : Option (KeyRow β) := file.subjectKeys.get? subjectId

def workspaceOf : Option String :=
  (file.row? subjectId).bind KeyRow.workspaceId

def updateRow (f : KeyRow β → KeyRow β) : VaultFile β :=
  { file with subjectKeys := (file.subjectKeys.updateIf subjectId (fun _ => true) f).1 }

def insertRow (row : KeyRow β) : VaultFile β := { file with subjectKeys := file.subjectKeys.put row }

theorem row?_updateRow {f : KeyRow β → KeyRow β} (hf : ∀ row, (f row).subjectId = row.subjectId)
    (subjectId other : String) : (file.updateRow subjectId f).row? other
      = if other = subjectId then (file.row? subjectId).map f else file.row? other := by
  rw [row?, updateRow, KeyedList.get?_updateIf _ _ _ _ hf]
  rfl

theorem row?_insertRow (row : KeyRow β) (other : String) : (file.insertRow row).row? other
      = if other = row.subjectId then some row else file.row? other :=
  file.subjectKeys.get?_put row other

/-- `_mark_workspace_disabled`. -/
def disable (workspaceId : String) : VaultFile β :=
  { file with disabledWorkspaces :=
      if workspaceId ∈ file.disabledWorkspaces then file.disabledWorkspaces
      else file.disabledWorkspaces ++ [workspaceId] }

def erasureState : Option String × Bool :=
  match file.row? subjectId with
  | none => (none, false)
  | some row => (some row.keyVersion, row.shreddedAt.isSome)

end VaultFile

/-! ## Wrapping -/

namespace VaultConfig

variable (A : Aead κ β) (config : VaultConfig κ) (file : VaultFile β)

def workspaceKekFor (workspaceId : Option String) : Except VaultError (Option (KekProvider κ)) :=
  match config.workspaceKek, workspaceId with
  | some provider, some w =>
    if w ∈ file.disabledWorkspaces then .error (.workspaceShredded w)
    else .ok (some (provider w))
  | _, _ => .ok none

def wrap (key : β) (workspaceId : Option String) (nonce : Nat) : Except VaultError (β × String) :=
  match config.workspaceKekFor file workspaceId with
  | .error e => .error e
  | .ok (some provider) => .ok (A.encrypt provider.kek nonce key, provider.keyVersion)
  | .ok none => match config.metaKek with
      | none => .ok (key, rawKeyVersion)
      | some provider => .ok (A.encrypt provider.kek nonce key, provider.keyVersion)

def unwrapDek (provider : KekProvider κ) (wrapped : β) : Except VaultError β :=
  match A.decrypt provider.kek wrapped with
  | some key => .ok key
  | none => .error .invalidTag

def unwrap (wrapped : β) (keyVersion : String) (workspaceId : Option String) :
    Except VaultError β :=
  if keyVersion = rawKeyVersion then .ok wrapped
  else match config.workspaceKekFor file workspaceId with
    | .error e => .error e
    | .ok (some provider) => unwrapDek A provider wrapped
    | .ok none => match config.metaKek with
        | none => .error (.noMetaKek keyVersion)
        | some provider => unwrapDek A provider wrapped

def providerFor (workspaceId : Option String) : Option (KekProvider κ) :=
  match config.workspaceKek, workspaceId with
  | some provider, some w => some (provider w)
  | _, _ => config.metaKek

def Keeps (provider : Option (KekProvider κ)) (wrapped : β) (keyVersion : String) (key : β) : Prop :=
  match provider with
  | none => keyVersion = rawKeyVersion ∧ wrapped = key
  | some provider => keyVersion = provider.keyVersion
      ∧ ∃ nonce, wrapped = A.encrypt provider.kek nonce key

variable {A config file} {key wrapped : β} {keyVersion : String} {workspaceId : Option String}

theorem workspaceKekFor_of_open (config : VaultConfig κ)
    (hopen : ∀ w, workspaceId = some w → w ∉ file.disabledWorkspaces) :
    ∃ found, config.workspaceKekFor file workspaceId = .ok found := by
  unfold workspaceKekFor
  cases config.workspaceKek with
  | none => exact ⟨_, rfl⟩
  | some provider =>
    cases workspaceId with
    | none => exact ⟨_, rfl⟩
    | some w => exact ⟨_, if_neg (hopen w rfl)⟩

theorem wrap_eq (nonce : Nat) : config.wrap A file key workspaceId nonce
      = match config.workspaceKekFor file workspaceId with
        | .error e => .error e
        | .ok _ => match config.providerFor workspaceId with
            | none => .ok (key, rawKeyVersion)
            | some provider => .ok (A.encrypt provider.kek nonce key, provider.keyVersion) := by
  unfold wrap workspaceKekFor providerFor
  cases config.workspaceKek with
  | none => rfl
  | some provider =>
    cases workspaceId with
    | none => rfl
    | some w => by_cases hw : w ∈ file.disabledWorkspaces <;> simp only [hw, if_true, if_false]

theorem wrap_of_open (A : Aead κ β) (config : VaultConfig κ)
    (hopen : ∀ w, workspaceId = some w → w ∉ file.disabledWorkspaces) (key : β) (nonce : Nat) :
    ∃ wrapped keyVersion, config.wrap A file key workspaceId nonce = .ok (wrapped, keyVersion) := by
  obtain ⟨found, hfound⟩ := workspaceKekFor_of_open config hopen
  rw [wrap_eq, hfound]
  cases config.providerFor workspaceId <;> exact ⟨_, _, rfl⟩

theorem keeps_of_wrap {nonce : Nat}
    (h : config.wrap A file key workspaceId nonce = .ok (wrapped, keyVersion)) :
    Keeps A (config.providerFor workspaceId) wrapped keyVersion key := by
  rw [wrap_eq] at h
  split at h
  · cases h
  · cases hprovider : config.providerFor workspaceId with
    | none => rw [hprovider] at h; cases h; exact ⟨rfl, rfl⟩
    | some provider => rw [hprovider] at h; cases h; exact ⟨rfl, nonce, rfl⟩

theorem unwrapDek_ok_iff (provider : KekProvider κ) {kek : κ} {nonce : Nat} {got : β} :
    unwrapDek A provider (A.encrypt kek nonce key) = .ok got ↔ provider.kek = kek ∧ got = key := by
  unfold unwrapDek
  by_cases hkek : provider.kek = kek
  · rw [hkek, A.decrypt_encrypt]
    constructor
    · intro h
      cases h
      exact ⟨rfl, rfl⟩
    · rintro ⟨-, rfl⟩
      rfl
  · rw [A.decrypt_other (fun h => hkek h.symm)]
    exact ⟨nofun, fun h => absurd h.1 hkek⟩

theorem unwrap_of_ne_raw (hversion : keyVersion ≠ rawKeyVersion) :
    config.unwrap A file wrapped keyVersion workspaceId
      = match config.workspaceKekFor file workspaceId with
        | .error e => .error e
        | .ok _ => match config.providerFor workspaceId with
            | none => .error (.noMetaKek keyVersion)
            | some provider => unwrapDek A provider wrapped := by
  unfold unwrap workspaceKekFor providerFor
  rw [if_neg hversion]
  cases config.workspaceKek with
  | none => rfl
  | some provider =>
    cases workspaceId with
    | none => rfl
    | some w => by_cases hw : w ∈ file.disabledWorkspaces <;> simp only [hw, if_true, if_false]

theorem eq_of_unwrap {provider : Option (KekProvider κ)} {got : β}
    (hkeeps : Keeps A provider wrapped keyVersion key)
    (h : config.unwrap A file wrapped keyVersion workspaceId = .ok got) :
    got = key ∧ (provider = none
      ∨ (config.providerFor workspaceId).map KekProvider.kek = provider.map KekProvider.kek) := by
  cases provider with
  | none =>
    obtain ⟨hraw, rfl⟩ := hkeeps
    rw [unwrap, if_pos hraw] at h
    cases h
    exact ⟨rfl, Or.inl rfl⟩
  | some provider =>
    obtain ⟨rfl, nonce, rfl⟩ := hkeeps
    rw [unwrap_of_ne_raw provider.ne_raw] at h
    split at h
    · cases h
    · split at h
      · cases h
      · next opener hopener =>
          obtain ⟨hkek, rfl⟩ := (unwrapDek_ok_iff opener).1 h
          exact ⟨rfl, Or.inr (by rw [hopener, Option.map_some, Option.map_some, hkek])⟩

theorem unwrap_of_keeps {provider : Option (KekProvider κ)}
    (hkeeps : Keeps A provider wrapped keyVersion key)
    (hopen : ∀ w, workspaceId = some w → w ∉ file.disabledWorkspaces) (hsame : provider = none
      ∨ (config.providerFor workspaceId).map KekProvider.kek = provider.map KekProvider.kek) :
    config.unwrap A file wrapped keyVersion workspaceId = .ok key := by
  cases provider with
  | none =>
    obtain ⟨hraw, rfl⟩ := hkeeps
    rw [unwrap, if_pos hraw]
  | some provider =>
    obtain ⟨rfl, nonce, rfl⟩ := hkeeps
    have hkek := hsame.resolve_left (by simp)
    obtain ⟨opener, hopener, hkek⟩ := Option.map_eq_some_iff.1 hkek
    obtain ⟨found, hfound⟩ := workspaceKekFor_of_open config hopen
    rw [unwrap_of_ne_raw provider.ne_raw, hfound, hopener]
    exact (unwrapDek_ok_iff opener).2 ⟨hkek, rfl⟩

end VaultConfig

/-! ## Calls -/

def assertSameWorkspace (subjectId : String) : Option String → Option String →
    Except VaultError Unit
  | some stored, some requested =>
    if requested ≠ stored then .error (.boundElsewhere subjectId stored requested) else .ok ()
  | _, _ => .ok ()

@[simp] theorem assertSameWorkspace_none (subjectId : String) (stored : Option String) :
    assertSameWorkspace subjectId stored none = .ok () := by
  cases stored <;> rfl

/-- What `key_for` has found before it does anything. -/
inductive KeyRead (β : Type) where
  | cached (key : β) (requested : Option String)
  | live (wrapped : β) (keyVersion : String) (workspaceId : Option String)
  | shredded (workspaceId : Option String)
  | absent (workspaceId : Option String)

def KeyRead.mints : KeyRead β → Bool
  | .cached .. | .live .. => false
  | .shredded _ | .absent _ => true

namespace SubjectKeyVault

variable (A : Aead κ β) (vault : SubjectKeyVault κ β) (file : VaultFile β) (subjectId : String)

variable (requested : Option String)

def readCache : Option (KeyRead β) :=
  (vault.cache.find? subjectId).map (fun key => .cached key requested)

/-- The row, as `key_for` finds it under the lock. -/
def readRow : Except VaultError (KeyRead β) :=
  match file.row? subjectId with
  | none => .ok (.absent requested)
  | some row =>
    match assertSameWorkspace subjectId row.workspaceId requested with
    | .error e => .error e
    | .ok _ => match row.live? with
        | some wrapped => .ok (.live wrapped row.keyVersion row.workspaceId)
        | none => .ok (.shredded ((orNone requested).or row.workspaceId))

def remember (key : β) : SubjectKeyVault κ β :=
  { vault with cache := vault.cache.set subjectId key }

variable (mint : Mint β)

/-- `_remint_locked`. -/
def remint (workspaceId : Option String) :
    Except VaultError (VaultFile β × SubjectKeyVault κ β × β) :=
  match vault.config.wrap A file mint.key workspaceId mint.nonce with
  | .error e => .error e
  | .ok (wrapped, keyVersion) =>
    .ok (file.updateRow subjectId (KeyRow.reactivate wrapped keyVersion mint.now workspaceId),
      vault.remember subjectId mint.key, mint.key)

/-- The rest of `key_for`, with what it has found. -/
def finishKey : KeyRead β →
    Except VaultError (VaultFile β × SubjectKeyVault κ β × β)
  | .cached key requested =>
    match assertSameWorkspace subjectId (file.workspaceOf subjectId) requested with
    | .error e => .error e
    | .ok _ => .ok (file, vault, key)
  | .live wrapped keyVersion workspaceId =>
    match vault.config.unwrap A file wrapped keyVersion workspaceId with
    | .error e => .error e
    | .ok key => .ok (file, vault.remember subjectId key, key)
  | .shredded workspaceId => vault.remint A file subjectId mint workspaceId
  | .absent workspaceId =>
    match vault.config.wrap A file mint.key workspaceId mint.nonce with
    | .error e => .error e
    | .ok (wrapped, keyVersion) =>
      if (file.row? subjectId).isSome then .error (.integrity subjectId)
      else
        .ok (file.insertRow ⟨subjectId, some wrapped, keyVersion, mint.now, none, workspaceId⟩,
          vault.remember subjectId mint.key, mint.key)

/-- `key_for`, when nothing comes between its steps. -/
def keyFor : Except VaultError (VaultFile β × SubjectKeyVault κ β × β) :=
  match vault.readCache subjectId requested with
  | some read => vault.finishKey A file subjectId mint read
  | none => match readRow file subjectId requested with
      | .error e => .error e
      | .ok read => vault.finishKey A file subjectId mint read

def has : Bool :=
  (vault.cache.find? subjectId).isSome
    || ((file.row? subjectId).bind KeyRow.live?).isSome

/-- The checks of `destroy`. -/
def mayDestroy : Bool :=
  match file.row? subjectId with
  | none => false
  | some row => row.live?.isSome && requested.all (fun w => row.workspaceId = some w)

/-- The file after `destroy`. -/
def shredRow (now : String) : VaultFile β :=
  file.updateRow subjectId (KeyRow.shred now)

/-- The vault after `destroy`. -/
def forget : SubjectKeyVault κ β := { vault with cache := vault.cache.erase subjectId }

/-- `destroy`, when nothing comes between its steps. -/
def destroy (now : String) : (VaultFile β × SubjectKeyVault κ β) × Bool :=
  if mayDestroy file subjectId requested then
    ((shredRow file subjectId now, vault.forget subjectId), true)
  else ((file, vault), false)

def subjectsInWorkspace (workspaceId : String) : List String :=
  (file.subjectKeys.items.filter
    (fun row => row.live?.isSome && decide (row.workspaceId = some workspaceId))).map
      KeyRow.subjectId

/-! ## What the calls do -/

variable {A vault file subjectId} {vault' : SubjectKeyVault κ β} {file' : VaultFile β}

@[simp] theorem find?_remember (key : β) (other : String) :
    (vault.remember subjectId key).cache.find? other
      = if other = subjectId then some key else vault.cache.find? other :=
  vault.cache.find?_set ..

@[simp] theorem find?_forget (other : String) : (vault.forget subjectId).cache.find? other
      = if other = subjectId then none else vault.cache.find? other := by
  rw [forget, Dict.find?, KeyedList.get?_erase]
  split <;> rfl

theorem row?_shredRow (now other : String) : (shredRow file subjectId now).row? other
      = if other = subjectId then (file.row? subjectId).map (KeyRow.shred now)
        else file.row? other :=
  file.row?_updateRow (f := KeyRow.shred now) (fun _ => rfl) subjectId other

theorem live?_shredRow {now : String} {row : KeyRow β}
    (h : (shredRow file subjectId now).row? subjectId = some row) : row.live? = none := by
  rw [row?_shredRow, if_pos rfl] at h
  obtain ⟨row, -, rfl⟩ := Option.map_eq_some_iff.1 h
  rfl

theorem readRow_cases {requested : Option String} {read : KeyRead β}
    (h : readRow file subjectId requested = .ok read) :
    (∃ row wrapped, file.row? subjectId = some row ∧ row.live? = some wrapped
        ∧ read = .live wrapped row.keyVersion row.workspaceId)
      ∨ (file.row? subjectId).bind KeyRow.live? = none ∧ read.mints = true
        ∧ ((file.row? subjectId).isSome ∨ ∃ workspaceId, read = .absent workspaceId) := by
  unfold readRow at h
  split at h
  · next hrow =>
      cases h
      rw [hrow]
      exact Or.inr ⟨rfl, rfl, Or.inr ⟨requested, rfl⟩⟩
  · next row hrow =>
      split at h
      · cases h
      · split at h
        · next wrapped hlive => cases h; exact Or.inl ⟨row, wrapped, hrow, hlive, rfl⟩
        · next hlive =>
            cases h
            rw [hrow]
            exact Or.inr ⟨hlive, rfl, Or.inl rfl⟩

end SubjectKeyVault

def KeyRow.Holds (A : Aead κ β) (provider : Option (KekProvider κ)) (workspaceId : Option String)
    (key : β) (row : KeyRow β) : Prop :=
  row.workspaceId = workspaceId
    ∧ ∃ wrapped, row.live? = some wrapped ∧ VaultConfig.Keeps A provider wrapped row.keyVersion key

namespace SubjectKeyVault

variable {A : Aead κ β} {vault vault' : SubjectKeyVault κ β} {file file' : VaultFile β}
  {subjectId : String}

/-- A call that draws a key for a workspace leaves its row holding it, and no other row touched. -/
structure Mints (A : Aead κ β) (file : VaultFile β) (subjectId : String)
    (provider : Option (KekProvider κ)) (workspaceId : Option String) (key : β)
    (file' : VaultFile β) : Prop where
  others : ∀ other, other ≠ subjectId → file'.row? other = file.row? other
  present : (file.row? subjectId).isSome → (file'.row? subjectId).isSome
  holds : ∀ row, file'.row? subjectId = some row → row.Holds A provider workspaceId key
  disabled : file'.disabledWorkspaces = file.disabledWorkspaces

theorem remint_ok {mint : Mint β} {workspaceId : Option String} {key : β}
    (h : vault.remint A file subjectId mint workspaceId = .ok (file', vault', key)) :
    key = mint.key ∧ vault' = vault.remember subjectId key
      ∧ Mints A file subjectId (vault.config.providerFor workspaceId) workspaceId key file' := by
  unfold remint at h
  split at h
  · cases h
  · next wrapped keyVersion hwrap =>
      cases h
      have hupdate := file.row?_updateRow
        (f := KeyRow.reactivate wrapped keyVersion mint.now workspaceId) (fun _ => rfl) subjectId
      refine ⟨rfl, rfl, fun other hne => ?_, fun hsome => ?_, fun row hrow => ?_, rfl⟩
      · rw [hupdate, if_neg hne]
      · rw [hupdate, if_pos rfl, Option.isSome_map]
        exact hsome
      · rw [hupdate, if_pos rfl] at hrow
        obtain ⟨row, -, rfl⟩ := Option.map_eq_some_iff.1 hrow
        exact ⟨rfl, wrapped, rfl, VaultConfig.keeps_of_wrap hwrap⟩

theorem finishKey_cases {mint : Mint β} {read : KeyRead β} {key : β}
    (h : vault.finishKey A file subjectId mint read = .ok (file', vault', key)) :
    (∃ requested, read = .cached key requested ∧ file' = file ∧ vault' = vault)
      ∨ (∃ wrapped keyVersion workspaceId, read = .live wrapped keyVersion workspaceId
          ∧ vault.config.unwrap A file wrapped keyVersion workspaceId = .ok key
          ∧ file' = file ∧ vault' = vault.remember subjectId key)
      ∨ (∃ workspaceId, (read = .shredded workspaceId
            ∨ read = .absent workspaceId ∧ (file'.row? subjectId).isSome)
          ∧ key = mint.key ∧ vault' = vault.remember subjectId key
          ∧ Mints A file subjectId (vault.config.providerFor workspaceId) workspaceId key file') := by
  cases read with
  | cached key requested =>
    simp only [finishKey] at h
    split at h
    · cases h
    · cases h
      exact Or.inl ⟨requested, rfl, rfl, rfl⟩
  | live wrapped keyVersion workspaceId =>
    simp only [finishKey] at h
    split at h
    · cases h
    · next hunwrap =>
        cases h
        exact Or.inr (Or.inl ⟨wrapped, keyVersion, workspaceId, rfl, hunwrap, rfl, rfl⟩)
  | shredded workspaceId =>
    exact Or.inr (Or.inr ⟨workspaceId, Or.inl rfl, remint_ok h⟩)
  | absent workspaceId =>
    simp only [finishKey] at h
    split at h
    · cases h
    · next wrapped keyVersion hwrap =>
        split at h
        · cases h
        · cases h
          have hrow : (file.insertRow
              ⟨subjectId, some wrapped, keyVersion, mint.now, none, workspaceId⟩).row? subjectId
              = some ⟨subjectId, some wrapped, keyVersion, mint.now, none, workspaceId⟩ := by
            rw [VaultFile.row?_insertRow, if_pos rfl]
          have hpresent := Option.isSome_of_eq_some hrow
          refine Or.inr (Or.inr ⟨workspaceId, Or.inr ⟨rfl, hpresent⟩, rfl, rfl, fun other hne => ?_,
            fun _ => hpresent, fun row hrow' => ?_, rfl⟩)
          · rw [VaultFile.row?_insertRow, if_neg hne]
          · rw [hrow] at hrow'
            cases hrow'
            exact ⟨rfl, wrapped, rfl, VaultConfig.keeps_of_wrap hwrap⟩

variable {requested : Option String}

theorem keyFor_cases {mint : Mint β} {key : β}
    (h : vault.keyFor A file subjectId requested mint = .ok (file', vault', key)) :
    (vault.cache.find? subjectId = some key ∧ file' = file ∧ vault' = vault)
      ∨ (∃ row wrapped, file.row? subjectId = some row ∧ row.live? = some wrapped
          ∧ vault.config.unwrap A file wrapped row.keyVersion row.workspaceId = .ok key
          ∧ file' = file ∧ vault' = vault.remember subjectId key)
      ∨ (∃ workspaceId, (file.row? subjectId).bind KeyRow.live? = none
          ∧ (file'.row? subjectId).isSome ∧ vault' = vault.remember subjectId key
          ∧ Mints A file subjectId (vault.config.providerFor workspaceId) workspaceId key file') := by
  unfold keyFor at h
  split at h
  · next read hread =>
      obtain ⟨cached, hcached, rfl⟩ := Option.map_eq_some_iff.1 hread
      rcases finishKey_cases h with
        ⟨_, hsame, rfl, rfl⟩ | ⟨_, _, _, hsame, -⟩ | ⟨_, hsame | ⟨hsame, -⟩, -⟩ <;> cases hsame
      exact Or.inl ⟨hcached, rfl, rfl⟩
  · split at h
    · cases h
    · next read hread =>
        rcases readRow_cases hread with ⟨row, wrapped, hrow, hlive, rfl⟩ | ⟨hlive, hmints, hkind⟩
        · rcases finishKey_cases h with ⟨_, hsame, -⟩ | ⟨_, _, _, hsame, hunwrap, rfl, rfl⟩
              | ⟨_, hsame | ⟨hsame, -⟩, -⟩ <;> cases hsame
          exact Or.inr (Or.inl ⟨row, wrapped, hrow, hlive, hunwrap, rfl, rfl⟩)
        · rcases finishKey_cases h with
            ⟨_, rfl, -⟩ | ⟨_, _, _, rfl, -⟩ | ⟨workspaceId, hread, -, hvault, hmint⟩
          · cases hmints
          · cases hmints
          · have hpresent : (file'.row? subjectId).isSome := by
              rcases hread with rfl | ⟨-, hpresent⟩
              · rcases hkind with hsome | ⟨_, hsame⟩
                · exact hmint.present hsome
                · cases hsame
              · exact hpresent
            exact Or.inr (Or.inr ⟨workspaceId, hlive, hpresent, hvault, hmint⟩)

variable (mint : Mint β)

theorem keyFor_of_absent
    (hcache : vault.cache.find? subjectId = none) (hrow : file.row? subjectId = none)
    (hopen : ∀ w, requested = some w → w ∉ file.disabledWorkspaces) :
    ∃ row, row.subjectId = subjectId
      ∧ row.Holds A (vault.config.providerFor requested) requested mint.key
      ∧ vault.keyFor A file subjectId requested mint
        = .ok (file.insertRow row, vault.remember subjectId mint.key, mint.key) := by
  obtain ⟨wrapped, keyVersion, hwrap⟩ :=
    VaultConfig.wrap_of_open A vault.config hopen mint.key mint.nonce
  refine ⟨⟨subjectId, some wrapped, keyVersion, mint.now, none, requested⟩, rfl,
    ⟨rfl, wrapped, rfl, VaultConfig.keeps_of_wrap hwrap⟩, ?_⟩
  simp only [keyFor, readCache, readRow, finishKey, hcache, hrow, hwrap, Option.map_none,
    Option.isSome_none, Bool.false_eq_true, if_false]

theorem keyFor_of_live {row : KeyRow β} {wrapped : β}
    (hcache : vault.cache.find? subjectId = none) (hrow : file.row? subjectId = some row)
    (hlive : row.live? = some wrapped)
    (hsame : assertSameWorkspace subjectId row.workspaceId requested = .ok ()) :
    vault.keyFor A file subjectId requested mint
      = match vault.config.unwrap A file wrapped row.keyVersion row.workspaceId with
        | .error e => .error e
        | .ok key => .ok (file, vault.remember subjectId key, key) := by
  simp only [keyFor, readCache, readRow, finishKey, hcache, hrow, hlive, hsame, Option.map_none]

theorem keyFor_of_cached {key : β} (hcache : vault.cache.find? subjectId = some key)
    (hsame : assertSameWorkspace subjectId (file.workspaceOf subjectId) requested = .ok ()) :
    vault.keyFor A file subjectId requested mint = .ok (file, vault, key) := by
  simp only [keyFor, readCache, finishKey, hcache, hsame, Option.map_some]

end SubjectKeyVault

end Himmy
