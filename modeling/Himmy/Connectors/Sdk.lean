import Mathlib.Algebra.Order.Ring.Rat
import Himmy.Library.Retry
import Himmy.Core.Text
import Himmy.Entities.Integrity

/-! # The connector SDK: rate limits, retries, idempotency keys and signatures

`RateLimiter` has one token bucket a key, the least recently used first; tokens and clock readings
are exact numbers. `IdempotencyStore` remembers the results of completed keys, the newest `max_done` of them, and the
keys whose call is in flight. Its methods take the lock for a few short sections; each section is
one function here. `RetryPolicy.run` repeats a call on the exceptions of `retry_on`, an idempotent
one at most `attempts` times and any other once. -/

namespace Himmy.Connectors

/-! ## Rate limits -/

/-- A limiter: `check` of a key at a clock reading, which tells whether a token was there. -/
structure Limiter (τ : Type) where
  check : τ → String → Rat → τ × Bool

/-- `RateLimiter`; a bucket has its tokens and the reading of its last refill. -/
structure RateLimiter where
  refillPerSec : Rat
  capacity : Rat
  maxKeys : Nat := 4096
  buckets : KeyedList (Prod.fst : String × Rat × Rat → String) := KeyedList.empty

namespace RateLimiter

variable (limiter : RateLimiter)

def dropFull (full : Rat × Rat → Bool) : Nat → List (String × Rat × Rat) → List (String × Rat × Rat)
  | 0, buckets => buckets
  | _ + 1, [] => []
  | surplus + 1, bucket :: buckets =>
    if full bucket.2 then dropFull full surplus buckets
    else bucket :: dropFull full (surplus + 1) buckets

theorem dropFull_sublist (full : Rat × Rat → Bool) (surplus : Nat)
    (buckets : List (String × Rat × Rat)) : (dropFull full surplus buckets).Sublist buckets := by
  induction buckets generalizing surplus with
  | nil => cases surplus <;> exact List.Sublist.refl _
  | cons bucket buckets ih =>
    cases surplus with
    | zero => exact List.Sublist.refl _
    | succ surplus =>
      rw [dropFull]
      split
      · exact (ih surplus).cons bucket
      · exact (ih (surplus + 1)).cons_cons bucket

/-- `_evict_locked`. -/
def evict : RateLimiter :=
  let surplus := limiter.buckets.items.length - limiter.maxKeys
  let kept : KeyedList (Prod.fst : String × Rat × Rat → String) :=
    ⟨dropFull (fun bucket => limiter.capacity ≤ bucket.1) surplus limiter.buckets.items,
      limiter.buckets.nodup_keys.sublist ((dropFull_sublist _ surplus _).map Prod.fst)⟩
  { limiter with buckets := kept.trim limiter.maxKeys }

def check (key : String) (now : Rat) : RateLimiter × Bool :=
  let (tokens, last) := match limiter.buckets.get? key with
    | some bucket => bucket.2
    | none => (limiter.capacity, now)
  let tokens := min limiter.capacity (tokens + (now - last) * limiter.refillPerSec)
  if tokens < 1 then
    (evict { limiter with buckets := limiter.buckets.replace (key, tokens, now) }, false)
  else
    (evict { limiter with buckets := limiter.buckets.replace (key, tokens - 1, now) }, true)

def asLimiter : Limiter RateLimiter := ⟨check⟩

end RateLimiter

/-! ## Retries -/

/-- `RetryPolicy`; `retryOn` tells the exceptions of `retry_on`. -/
structure RetryPolicy (ε : Type) where
  attempts : Nat := 1
  retryOn : ε → Bool := fun _ => false
  attempts_pos : 1 ≤ attempts := by decide

namespace RetryPolicy

variable {ε ρ σ : Type} (policy : RetryPolicy ε)

def maxAttempts (idempotent : Bool) : Nat := if idempotent then policy.attempts else 1

def caught : Except ε ρ → Bool
  | .ok _ => false
  | .error e => policy.retryOn e

/-- `run`, for a call that changes a state and is told which attempt it is. -/
def run (call : Nat → σ → Except ε ρ × σ) (idempotent : Bool) (s : σ) : Except ε ρ × σ :=
  retry policy.caught call (policy.maxAttempts idempotent - 1) 0 s

def again (idempotent : Bool) (attempt : Nat) (e : ε) : Bool :=
  policy.retryOn e && decide (attempt + 1 < policy.maxAttempts idempotent)

end RetryPolicy

/-! ## Idempotency keys -/

/-- `IdempotencyStore`: `_done`, oldest first, and `_inflight`. -/
structure IdempotencyStore (ρ : Type) where
  maxDone : Nat := 8192
  done : KeyedList (Prod.fst : String × ρ → String) := KeyedList.empty
  inflight : List String := []
  maxDone_pos : 0 < maxDone := by exact Nat.zero_lt_succ _
  length_done_le : done.items.length ≤ maxDone := by exact Nat.zero_le _

/-- How the first section of `run_once` ends: with the cached result, by raising that the key is in
    flight, or with the key reserved. -/
inductive Entry (ρ : Type)
  | cached (result : ρ)
  | inFlight
  | reserved
deriving DecidableEq

namespace IdempotencyStore

variable {ρ : Type} (store : IdempotencyStore ρ)

variable (key : String)

def result? : Option ρ := (store.done.get? key).map Prod.snd

def entry : Entry ρ :=
  match store.result? key with
  | some result => .cached result
  | none => if key ∈ store.inflight then .inFlight else .reserved

/-- `_inflight.add(key)`. -/
def reserve : IdempotencyStore ρ := { store with inflight := key :: store.inflight }

def discard : IdempotencyStore ρ :=
  { store with inflight := store.inflight.filter (· ≠ key) }

/-- `_remember_locked`. -/
def remember (result : ρ) : IdempotencyStore ρ :=
  { store with
    done := (store.done.replace (key, result)).trim store.maxDone
    length_done_le := KeyedList.length_trim_le _ _ }

def seen : Bool := (store.result? key).isSome

def evicted (after : IdempotencyStore ρ) (key : String) : Bool :=
  store.seen key && !after.seen key

@[simp] theorem result?_reserve (key k : String) :
    (store.reserve key).result? k = store.result? k := rfl

@[simp] theorem result?_discard (key k : String) :
    (store.discard key).result? k = store.result? k := rfl

@[simp] theorem inflight_remember (key : String) (result : ρ) :
    (store.remember key result).inflight = store.inflight := rfl

theorem result?_remember_self (key : String) (result : ρ) :
    (store.remember key result).result? key = some result := by
  simp only [result?, remember,
    KeyedList.get?_trim_replace_self store.done (key, result) store.maxDone_pos, Option.map_some]

theorem result?_of_remember {key k : String} {result r : ρ} (hk : k ≠ key)
    (h : (store.remember key result).result? k = some r) : store.result? k = some r := by
  obtain ⟨a, hget, hr⟩ := Option.map_eq_some_iff.1 h
  have hold := KeyedList.get?_of_get?_trim hget
  rw [KeyedList.get?_replace, if_neg hk] at hold
  rw [result?, hold, Option.map_some, hr]

variable {key : String}

theorem entry_eq_cached_iff {r : ρ} :
    store.entry key = .cached r ↔ store.result? key = some r := by
  unfold entry
  cases store.result? key with
  | none => simp only [reduceCtorEq, iff_false]; split <;> simp
  | some result => simp

theorem entry_eq_inFlight_iff :
    store.entry key = .inFlight ↔ store.result? key = none ∧ key ∈ store.inflight := by
  unfold entry
  cases store.result? key with
  | none => simp
  | some result => simp

theorem entry_eq_reserved_iff :
    store.entry key = .reserved ↔ store.result? key = none ∧ key ∉ store.inflight := by
  unfold entry
  cases store.result? key with
  | none => simp
  | some result => simp

end IdempotencyStore

/-! ## Signatures -/

/-- The digests of the standard library: `hmac.new(key, message, sha256).hexdigest()` and
    `sha256(message).hexdigest()`. -/
structure Hashlib where
  hmacSha256 : List UInt8 → List UInt8 → String
  sha256 : List UInt8 → String

def encode (text : String) : List UInt8 := text.toUTF8.data.toList

/-- The provided signature without blanks around it and without the scheme marker. -/
def candidate (provided scheme : String) : String :=
  let stripped := pyStrip isPySpace provided.toList
  if scheme ≠ "" && scheme.toList.isPrefixOf stripped then
    String.ofList (stripped.drop scheme.toList.length)
  else String.ofList stripped

/-- `verify_hmac_signature` with SHA-256; `none` is the error of `compare_digest`. -/
def verifyHmacSignature (H : Hashlib) (secret : String) (body : List UInt8) (provided scheme : String) :
    Option Bool :=
  if provided = "" ∨ secret = "" then some false
  else compareDigest (H.hmacSha256 (encode secret) body) (candidate provided scheme)

theorem eq_of_verifyHmacSignature {H : Hashlib} {secret provided scheme : String}
    {body : List UInt8} (h : verifyHmacSignature H secret body provided scheme = some true) :
    candidate provided scheme = H.hmacSha256 (encode secret) body := by
  unfold verifyHmacSignature compareDigest at h
  split at h
  · cases h
  · split at h
    · exact (of_decide_eq_true (Option.some.inj h)).symm
    · cases h

end Himmy.Connectors
