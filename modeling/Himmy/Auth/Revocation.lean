import Mathlib.Algebra.Order.Field.Rat
import Mathlib.Tactic.Linarith
import Himmy.Auth.Rbac

/-! # API keys and the file of the revoked ones

Every authentication consults the revocation list, which reads its file again when the file looks
different, and looks at it at most once in `statInterval`. While the file cannot be read the list
that was read last stays in force. -/

namespace Himmy.Auth

/-- What the server finds at the path of the list: a failure of `stat`, or a fingerprint and what
    reading and parsing the file come to. -/
abbrev RevocationFile := Except String ((Int × Int × Int) × Except String Json)

def revokedIds : Json → List String
  | .arr items => items.map Json.pyStr
  | .obj fields =>
    match (fields.lookup "revoked").getD (.arr []) with
    | .arr items => items.map Json.pyStr
    | _ => []
  | _ => []

structure RevocationList where
  statInterval : Rat := 0
  fingerprint : Option (Int × Int × Int) := none
  revoked : List String := []
  everLoaded : Bool := false
  lastError : Option String := none
  lastStatAt : Rat := 0

namespace RevocationList

/-- `_refresh`, and whether the list can be trusted. -/
def refresh (l : RevocationList) (file : RevocationFile) (now : Rat) : RevocationList × Bool :=
  if 0 < l.statInterval ∧ l.everLoaded = true ∧ l.lastError = none
      ∧ now - l.lastStatAt < l.statInterval then (l, true)
  else
    let l := { l with lastStatAt := now }
    match file with
    | .error message => ({ l with lastError := some message }, false)
    | .ok (fingerprint, content) =>
      if l.fingerprint = some fingerprint ∧ l.everLoaded = true then (l, true)
      else
        match content with
        | .error message => ({ l with lastError := some message }, false)
        | .ok raw =>
          ({ l with
              fingerprint := some fingerprint, revoked := revokedIds raw
              everLoaded := true, lastError := none }, true)

/-- `is_revoked` of a list with a file; `none` where it raises. -/
def isRevoked (l : RevocationList) (failClosed : Bool) (file : RevocationFile) (now : Rat)
    (keyId : String) :
    RevocationList × Option Bool :=
  let out := l.refresh file now
  (out.1, if !out.2 && failClosed then none else some (out.1.revoked.contains keyId))

end RevocationList

structure KeyRecord where
  keyId : String
  keyHash : String
  principal : Principal
  expiresAt : Option Rat := none
  disabled : Bool := false

/-- `AuthError`s of `authenticate`. -/
inductive AuthError
  | missing | disabled | expired | unavailable | revoked | invalid
  deriving DecidableEq

structure ApiKeyAuthenticator where
  records : List KeyRecord
  revocations : RevocationList
  failClosed : Bool

namespace ApiKeyAuthenticator

/-- `authenticate`, of a request with the hash of its key; `epoch` is the time of the lifecycle
    gates, and `now` that of the list. -/
def authenticate (a : ApiKeyAuthenticator) (file : RevocationFile) (epoch now : Rat)
    (provided : Option String) :
    ApiKeyAuthenticator × Except AuthError Principal :=
  match provided with
  | none => (a, .error .missing)
  | some providedHash =>
    match a.records.find? (providedHash = ·.keyHash) with
    | none => (a, .error .invalid)
    | some record =>
      if record.disabled = true then (a, .error .disabled)
      else if record.expiresAt.any (· ≤ epoch) = true then (a, .error .expired)
      else
        let out := a.revocations.isRevoked a.failClosed file now record.keyId
        ({ a with revocations := out.1 },
          match out.2 with
          | none => .error .unavailable
          | some true => .error .revoked
          | some false => .ok record.principal)

/-- A request: its clocks, and the hash of its key. -/
structure Attempt where
  epoch : Rat
  now : Rat
  provided : Option String

/-- The authenticator after requests, while the file changes with the clock. -/
def after (file : Rat → RevocationFile) : ApiKeyAuthenticator → List Attempt → ApiKeyAuthenticator
  | a, [] => a
  | a, q :: requests => after file (a.authenticate (file q.now) q.epoch q.now q.provided).1 requests

end ApiKeyAuthenticator

/-! ## A revoked key -/

/-- What a list remembers at a time: what it read under the fingerprint that it has, and, as long as
    it has seen no error, that the file had this fingerprint when it was looked at last. -/
structure Remembers (file : Rat → RevocationFile) (l : RevocationList) (now : Rat) : Prop where
  read : l.everLoaded = true → ∃ time fingerprint raw, file time = .ok (fingerprint, .ok raw)
    ∧ l.fingerprint = some fingerprint ∧ l.revoked = revokedIds raw
  clock : l.everLoaded = true → l.lastStatAt ≤ now
  seen : l.everLoaded = true → l.lastError = none → ∃ fingerprint content,
    l.fingerprint = some fingerprint ∧ file l.lastStatAt = .ok (fingerprint, content)

/-- Two readable states of the file with one fingerprint revoke the same keys. -/
def Identified (file : Rat → RevocationFile) : Prop :=
  ∀ time time' fingerprint raw raw', file time = .ok (fingerprint, .ok raw) →
    file time' = .ok (fingerprint, .ok raw') → revokedIds raw = revokedIds raw'

variable {file : Rat → RevocationFile} {l : RevocationList} {now : Rat} {keyId : String}

theorem Remembers.refresh (h : Remembers file l now) {time : Rat} (hle : time ≤ now) :
    Remembers file (l.refresh (file time) time).1 now := by
  unfold RevocationList.refresh
  split
  · exact h
  · dsimp only
    split
    · exact ⟨h.read, fun _ => hle, nofun⟩
    · next fingerprint content hfile =>
        split
        · next hsame => exact ⟨h.read, fun _ => hle, fun _ _ =>
            ⟨fingerprint, content, hsame.1, hfile⟩⟩
        · split
          · exact ⟨h.read, fun _ => hle, nofun⟩
          · next raw =>
              exact ⟨fun _ => ⟨time, fingerprint, raw, hfile, rfl, rfl⟩, fun _ => hle,
                fun _ _ => ⟨fingerprint, _, rfl, hfile⟩⟩

/-- The file revokes the key, and has done so for as long as it may not have been looked at. -/
def Lists (file : Rat → RevocationFile) (statInterval now : Rat) (keyId : String) : Prop :=
  ∀ time, time = now ∨ now - statInterval < time ∧ time ≤ now →
    ∃ fingerprint raw, file time = .ok (fingerprint, .ok raw) ∧ keyId ∈ revokedIds raw

theorem Remembers.lists (h : Remembers file l now) (hfile : Identified file)
    (hlists : Lists file l.statInterval now keyId) :
    (l.refresh (file now) now).2 = true ∧ keyId ∈ (l.refresh (file now) now).1.revoked := by
  -- what was read under a fingerprint that the file has at a time at which it revokes the key
  have hread : ∀ time fingerprint content, (time = now ∨ now - l.statInterval < time ∧ time ≤ now) →
      file time = .ok (fingerprint, content) → l.everLoaded = true
        → l.fingerprint = some fingerprint →
      keyId ∈ l.revoked := by
    intro time fingerprint content htime hcontent hload hsame
    obtain ⟨fingerprint', raw, hraw, hmem⟩ := hlists time htime
    cases hcontent.symm.trans hraw
    obtain ⟨time', fingerprint'', raw', hraw', hsame', hrevoked⟩ := h.read hload
    cases hsame.symm.trans hsame'
    rw [hrevoked, hfile time' time _ raw' raw hraw' hraw]
    exact hmem
  obtain ⟨fingerprint, raw, hnow, hmem⟩ := hlists now (.inl rfl)
  unfold RevocationList.refresh
  split
  · next hthrottled =>
      obtain ⟨-, hload, herror, hrecent⟩ := hthrottled
      obtain ⟨fingerprint', content, hsame, hseen⟩ := h.seen hload herror
      exact ⟨rfl, hread _ _ _ (.inr ⟨by linarith, h.clock hload⟩) hseen hload hsame⟩
  · rw [hnow]
    dsimp only
    split
    · next hsame => exact ⟨rfl, hread now fingerprint _ (.inl rfl) hnow hsame.2 hsame.1⟩
    · exact ⟨rfl, hmem⟩

theorem refresh_mem (h : keyId ∈ l.revoked)
    (hmay : ∀ fingerprint raw, file now = .ok (fingerprint, .ok raw) → keyId ∈ revokedIds raw) :
    keyId ∈ (l.refresh (file now) now).1.revoked := by
  unfold RevocationList.refresh
  split
  · exact h
  · dsimp only
    split
    · exact h
    · next fingerprint content hfile =>
        split
        · exact h
        · split
          · exact h
          · next raw => exact hmay fingerprint raw hfile

theorem refresh_statInterval (l : RevocationList) (f : RevocationFile) (now : Rat) :
    (l.refresh f now).1.statInterval = l.statInterval := by
  unfold RevocationList.refresh
  split
  · rfl
  · dsimp only
    split
    · rfl
    · split
      · rfl
      · split <;> rfl

namespace ApiKeyAuthenticator

variable {a : ApiKeyAuthenticator} {record : KeyRecord} {requests : List Attempt}

theorem authenticate_cases (a : ApiKeyAuthenticator) (f : RevocationFile) (epoch now : Rat)
    (provided : Option String) :
    (a.authenticate f epoch now provided).1 = a
      ∨ (a.authenticate f epoch now provided).1
        = { a with revocations := (a.revocations.refresh f now).1 } := by
  unfold authenticate
  split
  · exact .inl rfl
  · split
    · exact .inl rfl
    · split
      · exact .inl rfl
      · split
        · exact .inl rfl
        · exact .inr rfl

theorem authenticate_refused {epoch : Rat} {providedHash : String}
    (hrecord : a.records.find? (providedHash = ·.keyHash) = some record)
    (hmem : record.keyId ∈ (a.revocations.refresh (file now) now).1.revoked) :
    ∃ e, (a.authenticate (file now) epoch now (some providedHash)).2 = .error e := by
  have hcontains : (a.revocations.refresh (file now) now).1.revoked.contains record.keyId = true :=
    List.contains_iff_mem.2 hmem
  unfold authenticate
  simp only [hrecord, RevocationList.isRevoked, hcontains]
  split
  · exact ⟨_, rfl⟩
  · split
    · exact ⟨_, rfl⟩
    · cases !(a.revocations.refresh (file now) now).2 && a.failClosed <;> exact ⟨_, rfl⟩

theorem mem_of_refused {epoch : Rat} {provided : Option String}
    (hrefused : (a.authenticate (file now) epoch now provided).2 = .error .revoked) :
    ∃ providedHash record, provided = some providedHash
      ∧ a.records.find? (providedHash = ·.keyHash) = some record
      ∧ record.keyId ∈ (a.authenticate (file now) epoch now provided).1.revocations.revoked := by
  unfold authenticate at hrefused ⊢
  split at hrefused
  · cases hrefused
  · next providedHash =>
      split at hrefused
      · cases hrefused
      · next record hrecord =>
          split at hrefused
          · cases hrefused
          · next hdisabled =>
              split at hrefused
              · cases hrefused
              · next hexpired =>
                  refine ⟨providedHash, record, rfl, hrecord, ?_⟩
                  simp only [if_neg hdisabled, if_neg hexpired]
                  simp only [RevocationList.isRevoked] at hrefused ⊢
                  split at hrefused <;> simp_all

theorem after_keeps {P : RevocationList → Prop}
    (hstep : ∀ q ∈ requests, ∀ l, P l → P (l.refresh (file q.now) q.now).1) (h : P a.revocations) :
    P (a.after file requests).revocations ∧ (a.after file requests).records = a.records := by
  induction requests generalizing a with
  | nil => exact ⟨h, rfl⟩
  | cons q requests ih =>
    have hrest := fun q' hq' => hstep q' (List.mem_cons_of_mem _ hq')
    rw [after]
    rcases authenticate_cases a (file q.now) q.epoch q.now q.provided with hsame | hsame
    · rw [hsame]
      exact ih hrest h
    · rw [hsame]
      exact ih hrest (hstep q List.mem_cons_self _ h)

/-- **A revocation takes effect.** Once the file has revoked a key for the time between two looks at
    it, no request with the key is accepted, whatever requests came before and whatever the file was
    then. -/
theorem revoked_refused (hfile : Identified file) {statInterval : Rat}
    (hfresh : a.revocations = { statInterval }) (hrequests : ∀ q ∈ requests, q.now ≤ now)
    {providedHash : String}
    (hrecord : a.records.find? (providedHash = ·.keyHash) = some record)
    (hlists : Lists file statInterval now record.keyId) (epoch : Rat) :
    ∃ e, ((a.after file requests).authenticate (file now) epoch now (some providedHash)).2
      = .error e := by
  obtain ⟨⟨hremembers, hinterval⟩, hrecords⟩ := after_keeps (a := a)
    (P := fun l => Remembers file l now ∧ l.statInterval = statInterval)
    (fun q hq l h => ⟨h.1.refresh (hrequests q hq), (refresh_statInterval ..).trans h.2⟩)
    (by rw [hfresh]; exact ⟨⟨nofun, nofun, nofun⟩, rfl⟩)
  exact authenticate_refused (hrecords ▸ hrecord) (hremembers.lists hfile (hinterval ▸ hlists)).2

/-- **A failure of the file revives no key.** A key that was refused as revoked is refused as long
    as every later state of the file revokes it or cannot be read. -/
theorem revoked_stays_refused {q : Attempt}
    (hrefused : (a.authenticate (file q.now) q.epoch q.now q.provided).2 = .error .revoked)
    (hfile : ∀ record ∈ a.records, ∀ time, q.now ≤ time → ∀ fingerprint raw,
      file time = .ok (fingerprint, .ok raw) → q.provided = some record.keyHash
        → record.keyId ∈ revokedIds raw)
    (hrequests : ∀ q' ∈ requests, q.now ≤ q'.now) (hnow : q.now ≤ now) (epoch : Rat) :
    ∃ e, ((a.after file (q :: requests)).authenticate (file now) epoch now q.provided).2
      = .error e := by
  obtain ⟨opened, since, provided⟩ := q
  dsimp only at hrefused hfile hrequests hnow ⊢
  obtain ⟨providedHash, record, rfl, hrecord, hmem⟩ := mem_of_refused hrefused
  have hhash : providedHash = record.keyHash := by simpa using List.find?_some hrecord
  have hmay : ∀ time, since ≤ time → ∀ fingerprint raw, file time = .ok (fingerprint, .ok raw) →
      record.keyId ∈ revokedIds raw := fun time htime fingerprint raw hraw =>
    hfile record (List.mem_of_find?_eq_some hrecord) time htime fingerprint raw hraw
      (congrArg some hhash)
  obtain ⟨hrevoked, hrecords⟩ := after_keeps (P := fun l => record.keyId ∈ l.revoked)
    (fun q hq l h => refresh_mem h (hmay q.now (hrequests q hq))) hmem
  have hsame : (a.authenticate (file since) opened since (some providedHash)).1.records
    = a.records := by
    rcases authenticate_cases a (file since) opened since (some providedHash) with hsame | hsame <;>
      rw [hsame]
  exact authenticate_refused ((congrArg _ (hrecords.trans hsame)).trans hrecord)
    (refresh_mem hrevoked (hmay now hnow))

/-- A file that revokes a key, and after two seconds cannot be read. -/
private def leakedFile (time : Rat) : RevocationFile :=
  if time < 2 then .ok ((1, 5, 0), .ok (.arr [.str "k"])) else .error "cannot stat"

private def leakedKey : ApiKeyAuthenticator where
  records := [{ keyId := "k", keyHash := "h", principal := { subject := "alice" } }]
  revocations := {}
  failClosed := false

private theorem leakedFile_eq {time : Rat} {fingerprint : Int × Int × Int} {raw : Json}
    (h : leakedFile time = .ok (fingerprint, .ok raw)) : raw = .arr [.str "k"] := by
  unfold leakedFile at h
  split at h <;> cases h
  rfl

theorem revoked_refused_leaked :
    ∃ e, ((leakedKey.after leakedFile [⟨0, 0, some "h"⟩]).authenticate (leakedFile 1) 0 1
      (some "h")).2 = .error e := by
  refine revoked_refused (fun time time' fingerprint raw raw' hraw hraw' => ?_) rfl ?_ rfl
    (fun time htime => ?_) 0
  · rw [leakedFile_eq hraw, leakedFile_eq hraw']
  · norm_num
  · have hone : time = 1 := htime.elim id fun h => by linarith
    rw [hone]
    exact ⟨(1, 5, 0), .arr [.str "k"], by norm_num [leakedFile], by simp [revokedIds, Json.pyStr]⟩

theorem revoked_stays_refused_unreadable :
    ∃ e, ((leakedKey.after leakedFile [⟨0, 1, some "h"⟩]).authenticate (leakedFile 3) 0 3
      (some "h")).2 = .error e := by
  refine revoked_stays_refused (q := ⟨0, 1, some "h"⟩) rfl ?_ (fun _ h => by cases h)
    (by norm_num) 0
  intro record hrecord time htime fingerprint raw hraw _
  obtain rfl := List.mem_singleton.1 hrecord
  rw [leakedFile_eq hraw]
  simp [revokedIds, Json.pyStr]

end ApiKeyAuthenticator

end Himmy.Auth
