import Himmy.Inference.ResponseCache

/-! # The response cache and its principals

The scope joins the components of a principal by `|`, each with its name. Two requests of different
principals have one key exactly when they ask the same and the pieces of their scopes between the
separators are the same (`cacheKey_samePrincipal_iff`). -/

namespace Himmy

namespace InferenceRequest

def SamePrincipal (r r' : InferenceRequest) : Prop :=
  ∀ key ∈ cacheScopeMetadataKeys, r.scopeComponent key = r'.scopeComponent key

def scopePieces (r : InferenceRequest) : List (List Char) :=
  (r.scopeParts.map String.toList).flatMap (List.splitOn '|')

def Confused (r r' : InferenceRequest) : Prop :=
  ¬ SamePrincipal r r' ∧ SameSurface r r' ∧ r.scopePieces = r'.scopePieces

def PlainScope (r : InferenceRequest) : Prop :=
  ∀ key ∈ cacheScopeMetadataKeys, ∀ value, r.scopeComponent key = some value →
    '|' ∉ value.toList

variable {r r' : InferenceRequest}

theorem scopePieces_eq_nil_iff : r.scopePieces = [] ↔ r.scopeParts = [] := by
  constructor
  · intro h
    cases hparts : r.scopeParts with
    | nil => rfl
    | cons part parts =>
      rw [scopePieces, hparts, List.map_cons, List.flatMap_cons, List.append_eq_nil_iff] at h
      exact absurd h.1 (List.splitOn_ne_nil _ _)
  · intro h
    rw [scopePieces, h]
    rfl

theorem deriveCacheScope_eq_iff :
    r.deriveCacheScope = r'.deriveCacheScope ↔ r.scopePieces = r'.scopePieces := by
  unfold deriveCacheScope
  by_cases h : r.scopeParts = []
  · rw [if_pos h, scopePieces_eq_nil_iff.2 h, eq_comm, eq_comm (a := []), scopePieces_eq_nil_iff]
    by_cases h' : r'.scopeParts = []
    · simp [h']
    · simp [h']
  · by_cases h' : r'.scopeParts = []
    · rw [if_neg h, if_pos h', scopePieces_eq_nil_iff.2 h', scopePieces_eq_nil_iff]
      simp [h]
    · rw [if_neg h, if_neg h', Option.some.injEq, ← String.toList_inj, String.toList_intercalate,
        String.toList_intercalate]
      exact PrefixCode.intercalate_eq_iff '|' (by simpa using h) (by simpa using h')

theorem part_inj {key key' value value' : String} (hkey : key ∈ cacheScopeMetadataKeys)
    (hkey' : key' ∈ cacheScopeMetadataKeys) (h : key ++ "=" ++ value = key' ++ "=" ++ value') :
    key = key' ∧ value = value' := by
  have hkeys : ∀ k ∈ cacheScopeMetadataKeys, '=' ∉ k.toList := by decide
  have hplain : ∀ k ∈ cacheScopeMetadataKeys, ∀ c ∈ k.toList, c ≠ '=' :=
    fun k hk c hc heq => hkeys k hk (heq ▸ hc)
  have hchars := congrArg String.toList h
  rw [String.toList_append, String.toList_append, String.toList_append, String.toList_append,
    List.append_assoc, List.append_assoc] at hchars
  obtain ⟨hkeys, hvalues⟩ := PrefixCode.append_inj_of_class (hplain key hkey) (hplain key' hkey')
    (by simp) (by simp) hchars
  exact ⟨String.toList_inj.1 hkeys, String.toList_inj.1 (List.cons.inj hvalues).2⟩

theorem mem_scopeParts {key value : String} (hkey : key ∈ cacheScopeMetadataKeys) :
    key ++ "=" ++ value ∈ r.scopeParts ↔ r.scopeComponent key = some value := by
  rw [scopeParts, List.mem_filterMap]
  constructor
  · rintro ⟨key', hkey', hpart⟩
    obtain ⟨value', hvalue', heq⟩ := Option.map_eq_some_iff.1 hpart
    obtain ⟨rfl, rfl⟩ := part_inj hkey' hkey heq
    exact hvalue'
  · intro h
    exact ⟨key, hkey, by rw [h, Option.map_some]⟩

theorem samePrincipal_of_scopeParts (h : r.scopeParts = r'.scopeParts) : SamePrincipal r r' := by
  intro key hkey
  ext value
  rw [← mem_scopeParts hkey, ← mem_scopeParts hkey, h]

theorem plain_scopeParts (h : PlainScope r) : ∀ part ∈ r.scopeParts, '|' ∉ part.toList := by
  intro part hpart hbar
  obtain ⟨key, hkey, hmap⟩ := List.mem_filterMap.1 hpart
  obtain ⟨value, hvalue, rfl⟩ := Option.map_eq_some_iff.1 hmap
  have hplain : ∀ k ∈ cacheScopeMetadataKeys, '|' ∉ k.toList := by decide
  rw [String.toList_append, String.toList_append, List.mem_append, List.mem_append] at hbar
  rcases hbar with (hbar | hbar) | hbar
  · exact hplain key hkey hbar
  · exact absurd hbar (by decide)
  · exact h key hkey value hvalue hbar

theorem not_confused_of_plain (h : PlainScope r) (h' : PlainScope r') : ¬ Confused r r' := by
  rintro ⟨hne, -, hpieces⟩
  have hparts : ∀ r : InferenceRequest, PlainScope r → r.scopePieces = r.scopeParts.map String.toList :=
    fun r h => PrefixCode.flatMap_splitOn_of_not_mem (by simpa using plain_scopeParts h)
  rw [hparts r h, hparts r' h'] at hpieces
  exact hne (samePrincipal_of_scopeParts
    (List.map_injective_iff.2 (fun _ _ hst => String.toList_injective hst) hpieces))

/-- **Principals.** Two requests with one key are made for the same principal, unless they are
    confused; and so is the request for which a response was stored that the cache returns. -/
theorem cacheKey_samePrincipal_iff (D : Digests) : (∀ r r' : InferenceRequest,
      (r.computeCacheKey D = r'.computeCacheKey D → SamePrincipal r r') ↔ ¬ Confused r r')
    ∧ (∀ r r' : InferenceRequest, PlainScope r → PlainScope r' → ¬ Confused r r')
    ∧ ∀ (ρ : Type) (cache : InMemoryTTLCache ρ) (calls : List (CacheCall ρ)) (r : InferenceRequest)
        (now : Nat) (response : InferenceResponse ρ), cache.store = KeyedList.empty →
      ((cacheCalls D).step ((cacheCalls D).after cache calls) (.lookup r now)).2 = some response →
      ∃ r' now', CacheCall.store r' response now' ∈ calls
        ∧ (¬ Confused r' r → SamePrincipal r' r) := by
  have hpairs : ∀ r r' : InferenceRequest,
      (r.computeCacheKey D = r'.computeCacheKey D → SamePrincipal r r') ↔ ¬ Confused r r' := by
    intro r r'
    rw [computeCacheKey_eq_iff, deriveCacheScope_eq_iff]
    constructor
    · rintro h ⟨hne, hsame⟩
      exact hne (h hsame)
    · intro h hsame
      by_contra hne
      exact h ⟨hne, hsame⟩
  refine ⟨hpairs, fun r r' => not_confused_of_plain, ?_⟩
  intro ρ cache calls r now response hempty hhit
  obtain ⟨r', now', hstored, hkey⟩ := stored_of_hit D hempty hhit
  exact ⟨r', now', hstored, fun hplain => (hpairs r' r).2 hplain hkey⟩

/-! ### A tenant whose name contains the separator -/

def ask (metadata : List (String × String)) : InferenceRequest :=
  { messages := [{ role := "user", content := "balance?" }]
    metadata := Dict.ofList (metadata.map (fun kv => (kv.1, .str kv.2))) }

theorem sameSurface_ask (metadata metadata' : List (String × String)) :
    SameSurface (ask metadata) (ask metadata') :=
  ⟨rfl, rfl, rfl, rfl, rfl, rfl, List.Perm.refl _, fun _ _ => rfl, rfl⟩

theorem cacheKey_meets :
    (ask [("tenant_id", "acme"), ("workspace_id", "eu")]).computeCacheKey codeDigests
        = (ask [("tenant_id", "acme|workspace_id=eu")]).computeCacheKey codeDigests
      ∧ ¬ SamePrincipal (ask [("tenant_id", "acme"), ("workspace_id", "eu")])
        (ask [("tenant_id", "acme|workspace_id=eu")]) := by
  constructor
  · exact (computeCacheKey_eq_iff codeDigests _ _).2 ⟨sameSurface_ask _ _, by decide⟩
  · intro h
    exact absurd (h "tenant_id" (by decide)) (by decide)

theorem plainScope_ask {tenant : String} (h : '|' ∉ tenant.toList) :
    PlainScope (ask [("tenant_id", tenant)]) := by
  intro key hkey value hvalue
  have hfind : (ask [("tenant_id", tenant)]).metadata.find? key
      = if key = "tenant_id" then some (.str tenant) else none := by
    simp [ask, Dict.find?_ofList_cons, Dict.find?_ofList_nil]
  rw [scopeComponent, hfind] at hvalue
  split at hvalue
  · cases hvalue
  · cases hvalue
  · cases hvalue
  · next value' _ _ heq =>
    split at heq
    · cases heq
      cases hvalue
      exact h
    · cases heq

theorem hit_of_store (D : Digests) {ρ : Type} {cache : InMemoryTTLCache ρ}
    (hempty : cache.store = KeyedList.empty) (hroom : 0 < cache.maxEntries) (r : InferenceRequest)
    (content : ρ) {now now' : Nat} (hlive : now' < now + cache.ttl) :
    ((cacheCalls D).step ((cacheCalls D).after cache [.store r ⟨.success, content⟩ now])
      (.lookup r now')).2 = some ⟨.success, content⟩ := by
  have hevict : cache.evict (r.computeCacheKey D) = some cache.store := by
    rw [InMemoryTTLCache.evict, if_neg]
    rintro ⟨hfull, -⟩
    rw [hempty, KeyedList.items_empty, List.length_nil] at hfull
    omega
  simp [cacheCalls, Machine.after, InMemoryTTLCache.set, hevict, InMemoryTTLCache.get,
    Nat.not_le.2 hlive]

/-- Two tenants with plain names have two keys, and a hit of the first was stored for it. -/
theorem cacheKey_samePrincipal_plain : (ask [("tenant_id", "acme")]).computeCacheKey codeDigests
        ≠ (ask [("tenant_id", "globex")]).computeCacheKey codeDigests
      ∧ ∃ r' now', CacheCall.store r' ⟨.success, "42"⟩ now'
          ∈ [CacheCall.store (ask [("tenant_id", "acme")]) ⟨.success, "42"⟩ 0]
        ∧ SamePrincipal r' (ask [("tenant_id", "acme")]) := by
  obtain ⟨hpairs, hplain, hhits⟩ := cacheKey_samePrincipal_iff codeDigests
  have hacme : PlainScope (ask [("tenant_id", "acme")]) := plainScope_ask (by decide)
  have hglobex : PlainScope (ask [("tenant_id", "globex")]) := plainScope_ask (by decide)
  constructor
  · intro hkey
    have hsame := (hpairs _ _).2 (hplain _ _ hacme hglobex) hkey
    exact absurd (hsame "tenant_id" (by decide)) (by decide)
  · obtain ⟨r', now', hstored, hsame⟩ := hhits String { ttl := 300, maxEntries := 1024 }
      [.store (ask [("tenant_id", "acme")]) ⟨.success, "42"⟩ 0] (ask [("tenant_id", "acme")]) 1
      ⟨.success, "42"⟩ rfl (hit_of_store codeDigests rfl (by decide) _ _ (by decide))
    have hr' : r' = ask [("tenant_id", "acme")] := by
      cases List.mem_singleton.1 hstored
      rfl
    exact ⟨r', now', hstored, hsame (hplain _ _ (hr' ▸ hacme) hacme)⟩

end InferenceRequest

end Himmy
