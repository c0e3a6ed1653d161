import Himmy.Core.Ids
import Himmy.Library.KeyedList

/-! # The trigger dedup ledger

Inbound deliveries are deduplicated by a ledger with one row for each `(scope, key)`: a row without
a result is the in-flight lease of a worker that runs the handler, a row with one is a completed
delivery remembered until it expires. `TriggerDedupStore` is the protocol the backends implement,
with what each call does to what the ledger says of a key; `inMemoryTriggerDedupStore` and
`sqliteTriggerDedupStore` are its implementations, which answer alike because both meet it. -/

namespace Himmy

open KeyedList (get?_put get? key_of_get? get?_filter mem_of_get?)

/-- The result of a `try_claim` attempt. -/
inductive ClaimOutcome
  | won
  | done
  | inFlight
deriving DecidableEq, Repr

/-- The outcome of a claim and the stored result when the row is completed. -/
structure DedupClaim where
  outcome : ClaimOutcome
  result : Option String := none
deriving DecidableEq

/-- `(scope, key)`. -/
abbrev DedupKey := String × String

/-- What a row says of its key. -/
structure DedupEntry where
  result : Option String
  expiresAt : Option Instant
deriving DecidableEq

namespace DedupEntry

variable (e : DedupEntry) (now : Instant)

/-- `expires is None or expires > now_iso`. -/
def live : Bool := e.expiresAt.all (· > now)

/-- `expires_at IS NOT NULL AND expires_at <= now_iso`. -/
def expired : Bool := e.expiresAt.any (· ≤ now)

theorem expired_eq_not_live : e.expired now = !e.live now := by
  unfold expired live
  cases e.expiresAt with
  | none => rfl
  | some t =>
    show decide (t ≤ now) = !decide (t > now)
    by_cases h : t ≤ now
    · simp [h, Int.not_lt.2 h]
    · simp [h, Int.not_le.1 h]

/-- The in-flight lease that ends at `deadline`. -/
def inFlight (deadline : Instant) : DedupEntry := ⟨none, some deadline⟩

@[simp] theorem live_mk (result : Option String) (t now : Instant) :
    live ⟨result, some t⟩ now = decide (now < t) := rfl

@[simp] theorem live_inFlight (t now : Instant) : (inFlight t).live now = decide (now < t) := rfl

end DedupEntry

/-- The answer to a claim of a key of which the ledger says `e`. -/
def DedupClaim.of (e : Option DedupEntry) (now : Instant) : DedupClaim :=
  match e with
  | none => { outcome := .won }
  | some e =>
    if e.live now then
      match e.result with
      | some result => { outcome := .done, result := some result }
      | none => { outcome := .inFlight }
    else { outcome := .won }

theorem DedupClaim.of_won_iff {e : Option DedupEntry} {now : Instant} :
    (DedupClaim.of e now).outcome = .won ↔ ∀ row, e = some row → row.live now = false := by
  unfold DedupClaim.of
  cases e with
  | none => simp
  | some e =>
    cases hlive : e.live now with
    | false => simp [hlive]
    | true => cases hres : e.result <;> simp [hlive, hres]

/-! ## The protocol -/

/-- The durable TTL compare-and-set surface of a storage backend, and what its calls do to the
    ledger. -/
structure TriggerDedupStore (σ : Type) where
  empty : σ
  entry : σ → DedupKey → Option DedupEntry
  tryClaim : σ → DedupKey → Duration → Instant → σ × DedupClaim
  complete : σ → DedupKey → String → Duration → Instant → σ
  release : σ → DedupKey → σ
  sweep : σ → Instant → σ × Nat
  entry_empty : ∀ k, entry empty k = none
  answer_tryClaim : ∀ s k lease now, (tryClaim s k lease now).2 = DedupClaim.of (entry s k) now
  entry_tryClaim : ∀ s k lease now k', entry (tryClaim s k lease now).1 k'
    = if k' = k ∧ (DedupClaim.of (entry s k) now).outcome = .won
      then some (.inFlight (isoPlusSeconds now lease)) else entry s k'
  entry_complete : ∀ s k result ttl now k', entry (complete s k result ttl now) k'
    = if k' = k then some ⟨some result, some (isoPlusSeconds now ttl)⟩ else entry s k'
  entry_release : ∀ s k k', entry (release s k) k'
    = if k' = k then (entry s k).filter (fun e => e.result.isSome) else entry s k'
  entry_sweep : ∀ s now k, entry (sweep s now).1 k = (entry s k).filter (fun e => e.live now)

/-! ## In memory -/

/-- `InMemoryTriggerDedupStore._rows`. -/
abbrev InMemoryDedup := KeyedList (Prod.fst : DedupKey × DedupEntry → DedupKey)

namespace InMemoryDedup

variable (s : InMemoryDedup) (k : DedupKey)

/-- `self._rows.get((scope, key))`. -/
def entry : Option DedupEntry := (s.get? k).map Prod.snd

variable (lease : Duration) (now : Instant)

def tryClaim : InMemoryDedup × DedupClaim :=
  let claimed := (s.put (k, ⟨none, some (isoPlusSeconds now lease)⟩), { outcome := .won })
  match s.entry k with
  | none => claimed
  | some row =>
    if row.live now then
      match row.result with
      | some result => (s, { outcome := .done, result := some result })
      | none => (s, { outcome := .inFlight })
    else claimed

def complete (result : String) (ttl : Duration) (now : Instant) : InMemoryDedup :=
  s.put (k, ⟨some result, some (isoPlusSeconds now ttl)⟩)

def release : InMemoryDedup :=
  match s.entry k with
  | none => s
  | some row => if row.result = none then s.filter (fun kv => kv.1 ≠ k) else s

def sweep : InMemoryDedup × Nat :=
  let doomed := (s.items.filter (fun kv => kv.2.expired now)).map Prod.fst
  (s.filter (fun kv => kv.1 ∉ doomed), doomed.length)

theorem entry_put (k k' : DedupKey) (e : DedupEntry) :
    entry (s.put (k, e)) k' = if k' = k then some e else entry s k' := by
  unfold entry
  rw [get?_put]
  split <;> rfl

theorem answer_tryClaim :
    (tryClaim s k lease now).2 = DedupClaim.of (entry s k) now := by
  unfold tryClaim DedupClaim.of
  cases s.entry k with
  | none => rfl
  | some row =>
    cases hlive : row.live now with
    | false => simp [hlive]
    | true => cases hres : row.result <;> simp [hlive, hres]

theorem entry_tryClaim (k' : DedupKey) :
    entry (tryClaim s k lease now).1 k' = if k' = k ∧ (DedupClaim.of (entry s k) now).outcome = .won
        then some (.inFlight (isoPlusSeconds now lease)) else entry s k' := by
  unfold tryClaim DedupClaim.of
  cases s.entry k with
  | none => simp [entry_put, DedupEntry.inFlight]
  | some row =>
    cases hlive : row.live now with
    | false => simp [hlive, entry_put, DedupEntry.inFlight]
    | true => cases hres : row.result <;> simp [hlive, hres]

theorem entry_release (k k' : DedupKey) : entry (release s k) k'
      = if k' = k then (entry s k).filter (fun e => e.result.isSome) else entry s k' := by
  unfold release
  by_cases hk : k' = k
  · subst hk
    cases hget : get? s k' with
    | none => simp [entry, hget]
    | some kv =>
      have hkv : kv.1 = k' := key_of_get? hget
      cases hres : kv.2.result with
      | none => simp [entry, get?_filter, hget, hres, Option.filter, hkv]
      | some result => simp [entry, hget, hres, Option.filter]
  · rw [if_neg hk]
    split
    · rfl
    split
    · unfold entry
      rw [get?_filter]
      cases hget : get? s k' with
      | none => rfl
      | some kv =>
        have hkv : kv.1 = k' := key_of_get? hget
        simp [Option.filter, hkv, hk]
    · rfl

theorem entry_sweep (k : DedupKey) :
    entry (sweep s now).1 k = (entry s k).filter (fun e => e.live now) := by
  unfold sweep entry
  dsimp only
  rw [get?_filter]
  cases hget : get? s k with
  | none => rfl
  | some kv =>
    -- a row is doomed exactly when it is expired: no other row has its key
    have hdoomed : kv.1 ∈ (s.items.filter (fun kv => kv.2.expired now)).map Prod.fst
        ↔ kv.2.live now = false := by
      rw [List.mem_map]
      constructor
      · rintro ⟨other, hother, hkey⟩
        obtain ⟨hmem, hexp⟩ := List.mem_filter.1 hother
        rw [s.eq_of_key_eq hmem (mem_of_get? hget) hkey] at hexp
        rw [DedupEntry.expired_eq_not_live] at hexp
        simpa using hexp
      · intro hdead
        refine ⟨kv, List.mem_filter.2 ⟨mem_of_get? hget, ?_⟩, rfl⟩
        rw [DedupEntry.expired_eq_not_live, hdead]
        rfl
    cases hlive : kv.2.live now with
    | true => simp [Option.filter, hdoomed, hlive]
    | false => simp [Option.filter, hdoomed, hlive]

end InMemoryDedup

def inMemoryTriggerDedupStore : TriggerDedupStore InMemoryDedup where
  empty := KeyedList.empty
  entry := InMemoryDedup.entry
  tryClaim := InMemoryDedup.tryClaim
  complete := InMemoryDedup.complete
  release := InMemoryDedup.release
  sweep := InMemoryDedup.sweep
  entry_empty _ := rfl
  answer_tryClaim := InMemoryDedup.answer_tryClaim
  entry_tryClaim := InMemoryDedup.entry_tryClaim
  entry_complete s k _ _ _ k' := InMemoryDedup.entry_put s k k' _
  entry_release := InMemoryDedup.entry_release
  entry_sweep := InMemoryDedup.entry_sweep

/-! ## In SQLite -/

/-- A row of `trigger_dedup`. -/
structure TriggerDedupRow where
  scope : String
  key : String
  result : Option String
  expiresAt : Option Instant
  createdAt : Instant

namespace TriggerDedupRow

def primaryKey (row : TriggerDedupRow) : DedupKey := (row.scope, row.key)

def toEntry (row : TriggerDedupRow) : DedupEntry := ⟨row.result, row.expiresAt⟩

end TriggerDedupRow

/-- The table `trigger_dedup`. -/
abbrev SqliteDedup := KeyedList TriggerDedupRow.primaryKey

namespace SqliteDedup

variable (s : SqliteDedup) (k : DedupKey)

/-- `SELECT result, expires_at FROM trigger_dedup WHERE scope = ? AND key = ?`. -/
def entry : Option DedupEntry :=
  (s.get? k).map TriggerDedupRow.toEntry

/-- `INSERT OR REPLACE INTO trigger_dedup`. -/
def insertOrReplace (e : DedupEntry) (now : Instant) : SqliteDedup :=
  s.put { scope := k.1, key := k.2, result := e.result, expiresAt := e.expiresAt, createdAt := now }

variable (lease : Duration) (now : Instant)

/-- `_dedup_try_claim_sync`. -/
def tryClaim : SqliteDedup × DedupClaim :=
  let leaseUntil := isoPlusSeconds now lease
  let claimed := (s.insertOrReplace k ⟨none, some leaseUntil⟩ now, { outcome := .won })
  match s.get? k with
  | none => claimed
  | some row =>
    if row.expiresAt.all (· > now) then
      match row.result with
      | some result => (s, { outcome := .done, result := some result })
      | none => (s, { outcome := .inFlight })
    else claimed

/-- `_dedup_complete_sync`. -/
def complete (result : String) (ttl : Duration) (now : Instant) : SqliteDedup :=
  s.insertOrReplace k ⟨some result, some (isoPlusSeconds now ttl)⟩ now

/-- `_dedup_release_sync`: `DELETE … WHERE scope = ? AND key = ? AND result IS NULL`. -/
def release : SqliteDedup :=
  s.filter (fun row => !(row.primaryKey = k && row.result.isNone))

/-- `_dedup_sweep_sync`: `DELETE … WHERE expires_at IS NOT NULL AND expires_at <= ?`, and the
    cursor's `rowcount`. -/
def sweep : SqliteDedup × Nat :=
  (s.filter (fun row => !row.toEntry.expired now),
    s.items.countP (fun row => row.toEntry.expired now))

theorem entry_insertOrReplace (k k' : DedupKey) (e : DedupEntry) (now : Instant) :
    entry (s.insertOrReplace k e now) k' = if k' = k then some e else entry s k' := by
  unfold entry insertOrReplace
  rw [get?_put]
  by_cases hk : k' = k
  · simp [TriggerDedupRow.primaryKey, TriggerDedupRow.toEntry, hk]
  · simp [TriggerDedupRow.primaryKey, hk]

theorem answer_tryClaim :
    (tryClaim s k lease now).2 = DedupClaim.of (entry s k) now := by
  unfold tryClaim DedupClaim.of entry
  cases get? s k with
  | none => rfl
  | some row =>
    show _ = if row.expiresAt.all (· > now) = true then _ else _
    dsimp only
    split
    · show _ = match row.result with | some result => _ | none => _
      cases row.result <;> rfl
    · rfl

theorem entry_tryClaim (k' : DedupKey) :
    entry (tryClaim s k lease now).1 k' = if k' = k ∧ (DedupClaim.of (entry s k) now).outcome = .won
        then some (.inFlight (isoPlusSeconds now lease)) else entry s k' := by
  rw [← answer_tryClaim s k lease now]
  unfold tryClaim
  cases get? s k with
  | none => simp [entry_insertOrReplace, DedupEntry.inFlight]
  | some row =>
    dsimp only
    split
    · cases hres : row.result <;> simp
    · simp [entry_insertOrReplace, DedupEntry.inFlight]

theorem entry_filter (p : TriggerDedupRow → Bool) (k : DedupKey) :
    entry (s.filter p) k = ((s.get? k).filter p).map TriggerDedupRow.toEntry := by
  show (get? (s.filter p) k).map _ = _
  rw [get?_filter]

theorem entry_release (k k' : DedupKey) : entry (release s k) k'
      = if k' = k then (entry s k).filter (fun e => e.result.isSome) else entry s k' := by
  unfold release
  rw [entry_filter]
  cases hget : get? s k' with
  | none =>
    split
    · next hk => simp [entry, ← hk, hget]
    · simp [entry, hget]
  | some row =>
    have hrow : row.primaryKey = k' := key_of_get? hget
    split
    · next hk =>
        cases hres : row.result <;>
          simp [entry, ← hk, hget, Option.filter, hrow, hres, TriggerDedupRow.toEntry]
    · next hk => simp [entry, hget, Option.filter, hrow, hk]

theorem entry_sweep (k : DedupKey) :
    entry (sweep s now).1 k = (entry s k).filter (fun e => e.live now) := by
  unfold sweep
  rw [entry_filter]
  unfold entry
  cases get? s k with
  | none => rfl
  | some row =>
    cases hlive : row.toEntry.live now <;>
      simp [Option.filter, DedupEntry.expired_eq_not_live, hlive]

end SqliteDedup

/-- `SqliteStorageService`'s dedup methods. -/
def sqliteTriggerDedupStore : TriggerDedupStore SqliteDedup where
  empty := KeyedList.empty
  entry := SqliteDedup.entry
  tryClaim := SqliteDedup.tryClaim
  complete := SqliteDedup.complete
  release := SqliteDedup.release
  sweep := SqliteDedup.sweep
  entry_empty _ := rfl
  answer_tryClaim := SqliteDedup.answer_tryClaim
  entry_tryClaim := SqliteDedup.entry_tryClaim
  entry_complete s k _ _ now k' := SqliteDedup.entry_insertOrReplace s k k' _ now
  entry_release := SqliteDedup.entry_release
  entry_sweep := SqliteDedup.entry_sweep

end Himmy
