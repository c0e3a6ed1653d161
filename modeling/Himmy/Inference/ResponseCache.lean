import Mathlib.Data.List.MinMax
import Himmy.Inference.Cache
import Himmy.Library.Transition

/-! # The response cache

`InMemoryTTLCache` keeps the successful responses under their keys until they expire. Whatever calls
were made before, a response that it returns was stored for a request with the same key
(`stored_of_hit`). -/

namespace Himmy

inductive InferenceStatus where
  | success
  | failed
  deriving DecidableEq

/-- `InferenceResponse`, whose content is a parameter. -/
structure InferenceResponse (ρ : Type) where
  status : InferenceStatus
  content : ρ

variable {ρ : Type}

/-- `InMemoryTTLCache`: the responses with their expiry. -/
structure InMemoryTTLCache (ρ : Type) where
  ttl : Nat
  maxEntries : Nat
  store : Dict (Nat × InferenceResponse ρ) := KeyedList.empty

namespace InMemoryTTLCache

variable (cache : InMemoryTTLCache ρ)

/-- `get`, at an instant. -/
def get (key : String) (now : Nat) : InMemoryTTLCache ρ × Option (InferenceResponse ρ) :=
  match cache.store.find? key with
  | none => (cache, none)
  | some (expiresAt, response) =>
    if expiresAt ≤ now then ({ cache with store := cache.store.erase key }, none)
    else (cache, some response)

/-- The store with room for the key: the entry that expires first goes. Without any entry `min`
    raises. -/
def evict (key : String) : Option (Dict (Nat × InferenceResponse ρ)) :=
  if cache.maxEntries ≤ cache.store.items.length ∧ cache.store.find? key = none then
    (cache.store.items.argmin (fun entry => entry.2.1)).map
      (fun oldest => cache.store.erase oldest.1)
  else some cache.store

/-- `set`, at an instant. -/
def set (key : String) (response : InferenceResponse ρ) (now : Nat) : InMemoryTTLCache ρ :=
  if response.status ≠ .success then cache
  else match cache.evict key with
    | some store => { cache with store := store.set key (now + cache.ttl, response) }
    | none => cache

variable {cache} {entry : String × Nat × InferenceResponse ρ} {key : String}

theorem mem_get {now : Nat}
    (h : entry ∈ (cache.get key now).1.store.items) : entry ∈ cache.store.items := by
  unfold get at h
  split at h
  · exact h
  · split at h
    · exact ((KeyedList.mem_erase_iff _ _ _).1 h).1
    · exact h

theorem hit_mem {now : Nat} {response : InferenceResponse ρ}
    (h : (cache.get key now).2 = some response) :
    ∃ expiresAt, (key, expiresAt, response) ∈ cache.store.items := by
  unfold get at h
  split at h
  · cases h
  · next expiresAt stored hfind =>
    split at h
    · cases h
    · cases h
      exact ⟨expiresAt, Dict.find?_eq_some_iff.1 hfind⟩

theorem mem_evict {store : Dict (Nat × InferenceResponse ρ)} (hevict : cache.evict key = some store)
    (h : entry ∈ store.items) : entry ∈ cache.store.items := by
  unfold evict at hevict
  split at hevict
  · obtain ⟨oldest, -, rfl⟩ := Option.map_eq_some_iff.1 hevict
    exact ((KeyedList.mem_erase_iff _ _ _).1 h).1
  · cases hevict
    exact h

theorem mem_set {response : InferenceResponse ρ} {now : Nat}
    (h : entry ∈ (cache.set key response now).store.items) :
    entry ∈ cache.store.items ∨ (entry.1 = key ∧ entry.2.2 = response) := by
  unfold set at h
  split at h
  · exact Or.inl h
  · split at h
    · next store hevict =>
        rcases (KeyedList.mem_put_iff _ _ _).1 h with rfl | ⟨hmem, -⟩
        · exact Or.inr ⟨rfl, rfl⟩
        · exact Or.inl (mem_evict hevict hmem)
    · exact Or.inl h

end InMemoryTTLCache

/-! ## The calls of the service -/

/-- A call of the cache: before a request is sent, and with its response. -/
inductive CacheCall (ρ : Type) where
  | lookup (request : InferenceRequest) (now : Nat)
  | store (request : InferenceRequest) (response : InferenceResponse ρ) (now : Nat)

def cacheCalls (D : Digests) :
    Machine (InMemoryTTLCache ρ) (CacheCall ρ) (Option (InferenceResponse ρ)) where
  step cache
    | .lookup request now => cache.get (request.computeCacheKey D) now
    | .store request response now => (cache.set (request.computeCacheKey D) response now, none)

def CacheCall.Stores (D : Digests) (entry : String × Nat × InferenceResponse ρ) : CacheCall ρ → Prop
  | .lookup _ _ => False
  | .store request response _ =>
    request.computeCacheKey D = entry.1 ∧ response = entry.2.2

theorem stored_of_hit (D : Digests) {cache : InMemoryTTLCache ρ}
    (hempty : cache.store = KeyedList.empty) {calls : List (CacheCall ρ)}
    {request : InferenceRequest} {now : Nat} {response : InferenceResponse ρ}
    (hhit : ((cacheCalls D).step ((cacheCalls D).after cache calls) (.lookup request now)).2
      = some response) : ∃ request' now', CacheCall.store request' response now' ∈ calls
      ∧ request'.computeCacheKey D = request.computeCacheKey D := by
  obtain ⟨expiresAt, hmem⟩ := InMemoryTTLCache.hit_mem hhit
  have hstep : ∀ (c : InMemoryTTLCache ρ) (call : CacheCall ρ) entry,
      entry ∈ ((cacheCalls D).step c call).1.store.items →
        entry ∈ c.store.items ∨ call.Stores D entry := by
    intro c call entry hentry
    cases call with
    | lookup request now => exact Or.inl (InMemoryTTLCache.mem_get hentry)
    | store request response now =>
      rcases InMemoryTTLCache.mem_set hentry with hmem | ⟨hkey, hresponse⟩
      · exact Or.inl hmem
      · exact Or.inr ⟨hkey.symm, hresponse.symm⟩
  rcases Machine.provenance (fun (c : InMemoryTTLCache ρ) entry => entry ∈ c.store.items)
    (fun call entry => CacheCall.Stores D entry call) hstep hmem with
    hstart | ⟨call, hcall, hstores⟩
  · rw [hempty] at hstart
    cases hstart
  · cases call with
    | lookup request now => exact hstores.elim
    | store request' response' now' =>
      obtain ⟨hkey, rfl⟩ := hstores
      exact ⟨request', now', hcall, hkey⟩

end Himmy
