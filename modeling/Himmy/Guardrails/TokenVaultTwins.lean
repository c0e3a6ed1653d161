import Himmy.Guardrails.TokenVault
import Himmy.Library.Recency

/-! # The two token vaults are one cache

Both backends refine a list of pairs, the least recently used first: a use moves the pair of a value
to the end, and the first pairs are dropped over the capacity. As long as distinct values have distinct
tokens, a vault over one answers as over the other, and holds the values that the calls used last
(`runVault_agree`). -/

namespace Himmy

open Recency
open TokenVaultBackend (logged restore)

/-! ## The pairs by their last use -/

/-- Pairs of a value and its token, the least recently used first. -/
abbrev VaultPairs := List (String × String)

namespace VaultPairs

def use (capacity : Option Nat) (pair : String × String) (pairs : VaultPairs) : VaultPairs :=
  keepLast capacity (pairs.filter (fun other => other.1 ≠ pair.1) ++ [pair])

def backend (capacity : Option Nat) : TokenVaultBackend VaultPairs where
  getToken := fun value pairs =>
    .ok ((pairs.find? (fun pair => pair.1 = value)).elim (none, pairs)
      (fun pair => (some pair.2, use capacity pair pairs)))
  getValue := fun token pairs =>
    .ok ((pairs.find? (fun pair => pair.2 = token)).elim (none, pairs)
      (fun pair => (some pair.1, use capacity pair pairs)))
  store := fun value token pairs => .ok (use capacity (value, token) pairs)

/-- Each value and each token is there once, within the capacity. -/
structure Held (capacity : Option Nat) (pairs : VaultPairs) : Prop where
  values : (pairs.map Prod.fst).Nodup
  tokens : (pairs.map Prod.snd).Nodup
  bounded : ∀ n ∈ capacity, pairs.length ≤ n

variable {capacity : Option Nat} {pairs : VaultPairs} {pair : String × String}

variable {other : String × String}

theorem Held.eq_of_value (h : Held capacity pairs) (hpair : pair ∈ pairs)
    (hother : other ∈ pairs) (hvalue : other.1 = pair.1) : other = pair :=
  List.inj_on_of_nodup_map h.values hother hpair hvalue

theorem Held.eq_of_token (h : Held capacity pairs) (hpair : pair ∈ pairs)
    (hother : other ∈ pairs) (htoken : other.2 = pair.2) : other = pair :=
  List.inj_on_of_nodup_map h.tokens hother hpair htoken

theorem use_of_mem (h : Held capacity pairs) (hpair : pair ∈ pairs) :
    use capacity pair pairs = pairs.filter (fun other => other.1 ≠ pair.1) ++ [pair] := by
  refine keepLast_of_length_le (fun n hn => ?_)
  have hless : (pairs.filter (fun other => other.1 ≠ pair.1)).length < pairs.length :=
    List.length_filter_lt_length_iff_exists.2 ⟨pair, hpair, by simp⟩
  have hbound := h.bounded n hn
  rw [List.length_append, List.length_singleton]
  omega

theorem use_of_notMem (hvalue : pair.1 ∉ pairs.map Prod.fst) :
    use capacity pair pairs = keepLast capacity (pairs ++ [pair]) := by
  have hall : pairs.filter (fun other => other.1 ≠ pair.1) = pairs := by
    refine List.filter_eq_self.2 (fun other hother => ?_)
    simp only [ne_eq, decide_eq_true_eq]
    rintro hsame
    exact hvalue (List.mem_map.2 ⟨other, hother, hsame⟩)
  rw [use, hall]

theorem mem_of_mem_use (h : other ∈ use capacity pair pairs) : other = pair ∨ other ∈ pairs := by
  rcases List.mem_append.1 ((keepLast_sublist capacity _).subset h) with hold | hnew
  · exact .inr (List.mem_filter.1 hold).1
  · exact .inl (List.mem_singleton.1 hnew)

theorem Held.use (h : Held capacity pairs)
    (hfresh : ∀ other ∈ pairs, other.2 = pair.2 → other.1 = pair.1) :
    Held capacity (VaultPairs.use capacity pair pairs) where
  values := by
    refine List.Nodup.sublist ((keepLast_sublist capacity _).map Prod.fst) ?_
    rw [List.map_append, List.map_singleton, List.nodup_append]
    refine ⟨h.values.sublist (List.filter_sublist.map _), List.nodup_singleton _, ?_⟩
    intro value hvalue other hother heq
    obtain ⟨kept, hkept, rfl⟩ := List.mem_map.1 hvalue
    have hne : kept.1 ≠ pair.1 := by simpa using (List.mem_filter.1 hkept).2
    exact hne (heq.trans (List.mem_singleton.1 hother))
  tokens := by
    refine List.Nodup.sublist ((keepLast_sublist capacity _).map Prod.snd) ?_
    rw [List.map_append, List.map_singleton, List.nodup_append]
    refine ⟨h.tokens.sublist (List.filter_sublist.map _), List.nodup_singleton _, ?_⟩
    intro token htoken other hother heq
    obtain ⟨kept, hkept, rfl⟩ := List.mem_map.1 htoken
    have hne : kept.1 ≠ pair.1 := by simpa using (List.mem_filter.1 hkept).2
    exact hne (hfresh kept (List.mem_filter.1 hkept).1 (heq.trans (List.mem_singleton.1 hother)))
  bounded := by
    rintro n rfl
    exact length_keepLast_le n _

theorem map_fst_use {uses : List String} (h : mostRecent capacity uses = pairs.map Prod.fst) :
    mostRecent capacity (uses ++ [pair.1]) = (use capacity pair pairs).map Prod.fst := by
  have hfilter : (pairs.map Prod.fst).filter (· ≠ pair.1)
      = (pairs.filter (fun other => other.1 ≠ pair.1)).map Prod.fst := by
    rw [List.filter_map]
    rfl
  rw [mostRecent_append, h, use, keepLast_map, List.map_append, hfilter]
  rfl

/-- A backend does with its state what the pairs by their last use do. A pair is stored only when
    neither its value nor its token is there. -/
structure RefinedBy {σ : Type} (capacity : Option Nat) (impl : TokenVaultBackend σ)
    (rel : σ → VaultPairs → Prop) : Prop where
  getToken_none : ∀ {s pairs value}, Held capacity pairs → rel s pairs →
    value ∉ pairs.map Prod.fst → impl.getToken value s = .ok (none, s)
  getToken_some : ∀ {s pairs pair}, Held capacity pairs → rel s pairs → pair ∈ pairs →
    ∃ s', impl.getToken pair.1 s = .ok (some pair.2, s') ∧ rel s' (use capacity pair pairs)
  getValue_none : ∀ {s pairs token}, Held capacity pairs → rel s pairs →
    token ∉ pairs.map Prod.snd → impl.getValue token s = .ok (none, s)
  getValue_some : ∀ {s pairs pair}, Held capacity pairs → rel s pairs → pair ∈ pairs →
    ∃ s', impl.getValue pair.2 s = .ok (some pair.1, s') ∧ rel s' (use capacity pair pairs)
  store : ∀ {s pairs} (pair : String × String), Held capacity pairs → rel s pairs →
    pair.1 ∉ pairs.map Prod.fst →
    pair.2 ∉ pairs.map Prod.snd →
    ∃ s', impl.store pair.1 pair.2 s = .ok s' ∧ rel s' (use capacity pair pairs)

end VaultPairs

/-! ## In memory -/

namespace InMemoryTokenVault

open VaultPairs

/-- The ordered dictionary holds the pairs, and the reverse one their values. -/
structure Represents (capacity : Option Nat) (vault : InMemoryTokenVault) (pairs : VaultPairs) :
    Prop where
  maxEntries : vault.maxEntries = capacity.map (fun n : Nat => (n : Int))
  items : vault.tokensByValue.items = pairs
  reverse : ∀ value token, vault.valuesByToken.find? token = some value ↔ (value, token) ∈ pairs

variable {capacity : Option Nat} {vault : InMemoryTokenVault} {pairs : VaultPairs}
  {pair : String × String}

theorem Represents.find?_eq (h : Represents capacity vault pairs) (value token : String) :
    vault.tokensByValue.find? value = some token ↔ (value, token) ∈ pairs := by
  rw [Dict.find?_eq_some_iff, h.items]

theorem Represents.find?_eq_none (h : Represents capacity vault pairs) {value : String}
    (hvalue : value ∉ pairs.map Prod.fst) : vault.tokensByValue.find? value = none := by
  refine Option.eq_none_iff_forall_ne_some.2 (fun token htoken => hvalue ?_)
  exact List.mem_map.2 ⟨(value, token), (h.find?_eq value token).1 htoken, rfl⟩

theorem Represents.reverse_eq_none (h : Represents capacity vault pairs) {token : String}
    (htoken : token ∉ pairs.map Prod.snd) : vault.valuesByToken.find? token = none := by
  refine Option.eq_none_iff_forall_ne_some.2 (fun value hvalue => htoken ?_)
  exact List.mem_map.2 ⟨(value, token), (h.reverse value token).1 hvalue, rfl⟩

theorem items_replace (d : Dict String) (pair : String × String) :
    (KeyedList.replace d pair).items = d.items.filter (fun other => other.1 ≠ pair.1) ++ [pair] := by
  unfold KeyedList.replace
  rw [KeyedList.items_put_of_none]
  · rfl
  · rw [KeyedList.get?_erase, if_pos rfl]

theorem Represents.moveToEnd (h : Represents capacity vault pairs) (hheld : Held capacity pairs)
    (hpair : pair ∈ pairs) :
    ∃ moved, vault.moveToEnd pair.1 = .ok moved ∧ Represents capacity moved (use capacity pair pairs) := by
  have hfind := (h.find?_eq pair.1 pair.2).2 hpair
  refine ⟨{ vault with tokensByValue := vault.tokensByValue.replace (pair.1, pair.2) }, ?_, ?_⟩
  · unfold InMemoryTokenVault.moveToEnd
    rw [hfind]
  · rw [use_of_mem hheld hpair]
    refine ⟨h.maxEntries, ?_, ?_⟩
    · dsimp only
      rw [items_replace, h.items]
    · intro value token
      rw [h.reverse, List.mem_append, List.mem_filter, List.mem_singleton]
      constructor
      · intro hmem
        by_cases hsame : value = pair.1
        · exact .inr (hheld.eq_of_value hpair hmem hsame)
        · exact .inl ⟨hmem, by simpa using hsame⟩
      · rintro (⟨hmem, -⟩ | rfl)
        · exact hmem
        · exact hpair

theorem evict_spec (n fuel : Nat) (h : Represents capacity vault pairs)
    (htokens : (pairs.map Prod.snd).Nodup) (hvalues : (pairs.map Prod.fst).Nodup)
    (hfuel : pairs.length ≤ fuel) :
    ∃ left, vault.evict n fuel = .ok left ∧ Represents capacity left (keepLast (some n) pairs) := by
  induction fuel generalizing vault pairs with
  | zero =>
    have hnil : pairs = [] := List.eq_nil_of_length_eq_zero (by omega)
    subst hnil
    refine ⟨vault, ?_, by simpa [keepLast] using h⟩
    unfold evict
    rw [if_pos (by rw [h.items]; simp)]
  | succ fuel ih =>
    unfold evict
    by_cases hle : (vault.tokensByValue.items.length : Int) ≤ n
    · rw [if_pos hle]
      rw [h.items] at hle
      refine ⟨vault, rfl, ?_⟩
      rw [keepLast_of_length_le (by rintro m hm; injection hm with hm; omega)]
      exact h
    · rw [if_neg hle]
      rw [h.items] at hle
      cases hpairs : pairs with
      | nil => simp [hpairs] at hle
      | cons oldest rest =>
        subst hpairs
        rw [List.map_cons, List.nodup_cons] at htokens hvalues
        have hrest : keepLast (some n) (oldest :: rest) = keepLast (some n) rest := by
          rw [← List.singleton_append]
          refine keepLast_append (fun _ => ⟨n, rfl, ?_⟩)
          simp only [List.length_cons] at hle
          omega
        rw [h.items, hrest]
        refine ih ⟨h.maxEntries, ?_, ?_⟩ htokens.2 hvalues.2 (by simpa using hfuel)
        · dsimp only [KeyedList.erase, KeyedList.filter]
          rw [h.items, List.filter_cons_of_neg (by simp), List.filter_eq_self]
          intro other hother
          simp only [ne_eq, decide_eq_true_eq]
          intro hsame
          exact hvalues.1 (List.mem_map.2 ⟨other, hother, hsame⟩)
        · intro value token
          have hreverse := h.reverse value token
          rw [List.mem_cons] at hreverse
          unfold Dict.find? at hreverse ⊢
          dsimp only
          rw [KeyedList.get?_erase]
          split_ifs with htoken
          · refine iff_of_false (by simp) (fun hmem => htokens.1 ?_)
            exact List.mem_map.2 ⟨(value, token), hmem, htoken⟩
          · rw [hreverse]
            refine ⟨fun hmem => hmem.resolve_left (fun heq => htoken ?_), .inr⟩
            rw [← heq]

theorem represents_fresh (capacity : Option Nat) : Represents capacity (fresh capacity) [] where
  maxEntries := rfl
  items := rfl
  reverse := by simp [fresh, Dict.find?]

theorem refinedBy : RefinedBy capacity backend (Represents capacity) where
  getToken_none := by
    intro vault pairs value hheld h hvalue
    change vault.getToken value = _
    unfold getToken
    rw [h.find?_eq_none hvalue]
  getToken_some := by
    intro vault pairs pair hheld h hpair
    obtain ⟨moved, hmoved, hrepresents⟩ := h.moveToEnd hheld hpair
    refine ⟨moved, ?_, hrepresents⟩
    change vault.getToken pair.1 = _
    unfold getToken
    rw [(h.find?_eq pair.1 pair.2).2 hpair]
    dsimp only
    rw [hmoved]
    rfl
  getValue_none := by
    intro vault pairs token hheld h htoken
    change vault.getValue token = _
    unfold getValue
    rw [h.reverse_eq_none htoken]
  getValue_some := by
    intro vault pairs pair hheld h hpair
    obtain ⟨moved, hmoved, hrepresents⟩ := h.moveToEnd hheld hpair
    refine ⟨moved, ?_, hrepresents⟩
    change vault.getValue pair.2 = _
    unfold getValue
    rw [(h.reverse pair.1 pair.2).2 hpair]
    dsimp only
    rw [hmoved]
    rfl
  store := by
    intro vault pairs pair hheld h hvalue htoken
    change ∃ s', vault.store pair.1 pair.2 = .ok s' ∧ _
    have hitems : (vault.tokensByValue.set pair.1 pair.2).items = pairs ++ [pair] := by
      rw [← h.items]
      exact KeyedList.items_put_of_none _ _ (Option.map_eq_none_iff.1 (h.find?_eq_none hvalue))
    have hall : pairs.filter (fun other => other.1 ≠ pair.1) = pairs := by
      refine List.filter_eq_self.2 (fun other hother => ?_)
      simp only [ne_eq, decide_eq_true_eq]
      exact fun hsame => hvalue (List.mem_map.2 ⟨other, hother, hsame⟩)
    -- the pair is last already when the dictionary moves it to the end
    have hstored : Represents capacity
        { tokensByValue := (vault.tokensByValue.set pair.1 pair.2).replace (pair.1, pair.2)
          valuesByToken := vault.valuesByToken.set pair.2 pair.1
          maxEntries := vault.maxEntries } (pairs ++ [pair]) := by
      refine ⟨h.maxEntries, ?_, ?_⟩
      · dsimp only
        rw [items_replace, hitems, List.filter_append, hall, List.filter_cons_of_neg (by simp)]
        simp
      · intro value token
        dsimp only
        rw [Dict.find?_set, List.mem_append, List.mem_singleton]
        split_ifs with hsame
        · rw [Option.some.injEq]
          constructor
          · rintro rfl
            exact .inr (by rw [hsame])
          · rintro (hmem | hpair)
            · exact absurd (List.mem_map.2 ⟨(value, token), hmem, hsame⟩) htoken
            · rw [← hpair]
        · rw [h.reverse]
          refine ⟨.inl, fun hmem => hmem.resolve_right (fun hpair => hsame ?_)⟩
          rw [← hpair]
    have hfind : (vault.tokensByValue.set pair.1 pair.2).find? pair.1 = some pair.2 :=
      Dict.find?_set_self _ _ _
    unfold store
    unfold InMemoryTokenVault.moveToEnd
    dsimp only
    rw [hfind, use_of_notMem hvalue]
    dsimp only
    have htokens : ((pairs ++ [pair]).map Prod.snd).Nodup := by
      rw [List.map_append, List.map_singleton]
      exact List.nodup_append.2 ⟨hheld.tokens, List.nodup_singleton _, by
        rintro a ha b hb rfl
        exact htoken (List.mem_singleton.1 hb ▸ ha)⟩
    have hvalues : ((pairs ++ [pair]).map Prod.fst).Nodup := by
      rw [List.map_append, List.map_singleton]
      exact List.nodup_append.2 ⟨hheld.values, List.nodup_singleton _, by
        rintro a ha b hb rfl
        exact hvalue (List.mem_singleton.1 hb ▸ ha)⟩
    cases hcapacity : capacity with
    | none =>
      have hnone : vault.maxEntries = none := by rw [h.maxEntries, hcapacity]; rfl
      rw [hnone] at hstored ⊢
      rw [hcapacity] at hstored
      exact ⟨_, rfl, hstored⟩
    | some n =>
      have hsome : vault.maxEntries = some (n : Int) := by rw [h.maxEntries, hcapacity]; rfl
      rw [hsome] at hstored ⊢
      rw [hcapacity] at hstored
      refine evict_spec n _ hstored htokens hvalues ?_
      rw [hstored.items]

end InMemoryTokenVault

/-! ## Over SQLite -/

namespace SqliteTokenVault

open VaultPairs

def pairOf (row : TokenRow) : String × String := (row.value, row.token)

/-- The rows by their sequence numbers are the pairs. -/
structure Represents (capacity : Option Nat) (vault : SqliteTokenVault) (pairs : VaultPairs) : Prop where
  maxEntries : vault.maxEntries = capacity.map (fun n : Nat => (n : Int))
  rows : ∃ rows : List TokenRow, rows.Perm vault.tokenVault.items
    ∧ rows.Pairwise (fun a b => a.seq < b.seq) ∧ rows.map pairOf = pairs

variable {capacity : Option Nat} {vault : SqliteTokenVault} {pairs : VaultPairs}
  {pair : String × String}

theorem seq_lt_nextSeq {row : TokenRow} (h : row ∈ vault.tokenVault.items) :
    row.seq < vault.nextSeq := by
  have hmem : row.seq ∈ vault.tokenVault.items.map TokenRow.seq := List.mem_map.2 ⟨row, h, rfl⟩
  unfold nextSeq
  cases hmax : (vault.tokenVault.items.map TokenRow.seq).max? with
  | none =>
    rw [List.max?_eq_none_iff] at hmax
    rw [hmax] at hmem
    exact absurd hmem List.not_mem_nil
  | some greatest =>
    have hle := (List.max?_eq_some_iff.1 hmax).2 row.seq hmem
    simp only [Option.getD_some]
    omega

theorem insertionSort_eq {rows : List TokenRow} (hperm : rows.Perm vault.tokenVault.items)
    (hseq : rows.Pairwise (fun a b => a.seq < b.seq)) :
    vault.tokenVault.items.insertionSort (fun a b => a.seq ≤ b.seq) = rows := by
  have : Std.Total (fun a b : TokenRow => a.seq ≤ b.seq) := ⟨fun a b => by omega⟩
  have : IsTrans TokenRow (fun a b => a.seq ≤ b.seq) := ⟨fun a b c hab hbc => by omega⟩
  have hsorted := List.pairwise_insertionSort (fun a b : TokenRow => a.seq ≤ b.seq)
    vault.tokenVault.items
  have hsame := (List.perm_insertionSort (fun a b : TokenRow => a.seq ≤ b.seq)
    vault.tokenVault.items).trans hperm.symm
  refine List.Perm.eq_of_pairwise (fun a b ha hb hab hba => ?_) hsorted
    (hseq.imp (fun h => le_of_lt h)) hsame
  by_contra hne
  have hdiffer : a.seq ≠ b.seq := List.Pairwise.forall_of_forall_of_flip
    (R := fun a b : TokenRow => a ≠ b → a.seq ≠ b.seq) (fun x _ hx => absurd rfl hx)
    (hseq.imp (fun h _ => by omega)) (hseq.imp (fun h _ => by omega)) (hsame.subset ha) hb hne
  omega

theorem filter_pairOf (rows : List TokenRow) (value : String) :
    (rows.filter (fun row => row.value ≠ value)).map pairOf
      = (rows.map pairOf).filter (fun other => other.1 ≠ value) := by
  rw [List.filter_map]
  rfl

section

variable (h : Represents capacity vault pairs)

include h

theorem Represents.touch (hheld : Held capacity pairs) (hpair : pair ∈ pairs) :
    Represents capacity (vault.touch pair.1) (use capacity pair pairs) := by
  obtain ⟨rows, hperm, hseq, hpairs⟩ := h.rows
  obtain ⟨row, hrow, hrowPair⟩ := List.mem_map.1 (hpairs ▸ hpair)
  have hvalue : row.value = pair.1 := congrArg Prod.fst hrowPair
  obtain ⟨before, after, hsplit⟩ := List.append_of_mem hrow
  -- the other rows have other values, and are left as they are
  have hvalues : (rows.map TokenRow.value).Nodup := by
    have hfst : pairs.map Prod.fst = rows.map TokenRow.value := by
      rw [← hpairs, List.map_map]
      rfl
    rw [← hfst]
    exact hheld.values
  have hother : ∀ other ∈ before ++ after, other.value ≠ pair.1 := by
    intro other hmem hsame
    rw [hsplit, List.map_append, List.map_cons] at hvalues
    have hnotMem := (List.nodup_middle.1 hvalues).notMem
    rw [← List.map_append] at hnotMem
    exact hnotMem (List.mem_map.2 ⟨other, hmem, hsame.trans hvalue.symm⟩)
  have hfilter : rows.filter (fun row => row.value ≠ pair.1) = before ++ after := by
    rw [hsplit, List.filter_append, List.filter_cons_of_neg (by simp [hvalue]), ← List.filter_append]
    exact List.filter_eq_self.2 (fun other hmem => by simpa using hother other hmem)
  rw [use_of_mem hheld hpair]
  refine ⟨h.maxEntries, before ++ after ++ [{ row with seq := vault.nextSeq }], ?_, ?_, ?_⟩
  · have hmap : ∀ l : List TokenRow, (∀ other ∈ l, other.value ≠ pair.1) →
        l.map (fun row => if row.value = pair.1 then { row with seq := vault.nextSeq } else row) = l := by
      intro l hl
      refine (List.map_congr_left (fun other hmem => ?_)).trans (List.map_id l)
      rw [if_neg (hl other hmem)]
      rfl
    refine List.Perm.trans ?_ (hperm.map _)
    rw [hsplit, List.map_append, List.map_cons, if_pos hvalue,
      hmap before (fun other hmem => hother other (List.mem_append_left _ hmem)),
      hmap after (fun other hmem => hother other (List.mem_append_right _ hmem)), List.append_assoc]
    exact List.Perm.append_left before (List.perm_append_singleton _ _)
  · rw [List.pairwise_append]
    refine ⟨hfilter ▸ hseq.sublist List.filter_sublist, List.pairwise_singleton _ _, ?_⟩
    intro other hmem newest hnewest
    rw [List.mem_singleton.1 hnewest]
    refine seq_lt_nextSeq (hperm.subset ?_)
    rw [← hfilter] at hmem
    exact (List.mem_filter.1 hmem).1
  · rw [← hpairs, ← filter_pairOf, hfilter, List.map_append, List.map_singleton]
    exact congrArg _ (congrArg (fun p => [p]) hrowPair)

theorem Represents.evictIfNeeded (hvalues : (pairs.map Prod.fst).Nodup) :
    Represents capacity vault.evictIfNeeded (keepLast capacity pairs) := by
  obtain ⟨rows, hperm, hseq, hpairs⟩ := h.rows
  have hlength : rows.length = pairs.length := by rw [← hpairs, List.length_map]
  have hmax := h.maxEntries
  unfold SqliteTokenVault.evictIfNeeded
  cases capacity with
  | none =>
  rw [hmax]
  exact h
  | some n =>
  rw [hmax]
  dsimp only [Option.map_some]
  rw [← hperm.length_eq]
  by_cases hfits : (rows.length : Int) - n ≤ 0
  · rw [if_pos hfits, keepLast_of_length_le (by rintro m hm; injection hm with hm; omega)]
    exact h
  · rw [if_neg hfits, insertionSort_eq hperm hseq]
    have hoverflow : ((rows.length : Int) - n).toNat = rows.length - n := by omega
    have hnodup : (rows.map TokenRow.value).Nodup := by
      have hfst : pairs.map Prod.fst = rows.map TokenRow.value := by
        rw [← hpairs, List.map_map]
        rfl
      rw [← hfst]
      exact hvalues
    refine ⟨rfl, rows.drop (rows.length - n), ?_, hseq.sublist (List.drop_sublist _ _), ?_⟩
    · refine List.Perm.trans (List.Perm.of_eq ?_) (hperm.filter _)
      rw [hoverflow]
      have hsplit := List.take_append_drop (rows.length - n) rows
      conv_rhs => rw [← hsplit]
      rw [List.filter_append, List.filter_eq_nil_iff.2, List.nil_append, List.filter_eq_self.2]
      · intro row hrow
        rw [← hsplit, List.map_append, List.nodup_append] at hnodup
        simp only [decide_eq_true_eq]
        intro hdoomed
        rw [hsplit] at hdoomed
        exact hnodup.2.2 _ hdoomed _ (List.mem_map.2 ⟨row, hrow, rfl⟩) rfl
      · intro row hrow
        simp only [decide_eq_true_eq, not_not]
        rw [hsplit]
        exact List.mem_map.2 ⟨row, hrow, rfl⟩
    · rw [List.map_drop, hpairs, keepLast_some, hlength]

theorem Represents.store (hheld : Held capacity pairs)
    (hvalue : pair.1 ∉ pairs.map Prod.fst) (htoken : pair.2 ∉ pairs.map Prod.snd) :
    Represents capacity (vault.store pair.1 pair.2) (use capacity pair pairs) := by
  obtain ⟨rows, hperm, hseq, hpairs⟩ := h.rows
  have hnew : ∀ row ∈ vault.tokenVault.items, row.value ≠ pair.1 ∧ row.token ≠ pair.2 := by
    intro row hrow
    have hmem : pairOf row ∈ pairs := hpairs ▸ List.mem_map.2 ⟨row, hperm.mem_iff.2 hrow, rfl⟩
    exact ⟨fun hsame => hvalue (List.mem_map.2 ⟨_, hmem, hsame⟩),
      fun hsame => htoken (List.mem_map.2 ⟨_, hmem, hsame⟩)⟩
  have hall : (vault.tokenVault.filter (fun row => row.value ≠ pair.1 && row.token ≠ pair.2)).items
      = vault.tokenVault.items := by
    rw [KeyedList.items_filter]
    exact List.filter_eq_self.2 (fun row hrow => by simpa using hnew row hrow)
  have hput : ((vault.tokenVault.filter (fun row => row.value ≠ pair.1 && row.token ≠ pair.2)).put
      { value := pair.1, token := pair.2, seq := vault.nextSeq }).items
      = vault.tokenVault.items ++ [{ value := pair.1, token := pair.2, seq := vault.nextSeq }] := by
    rw [KeyedList.items_put_of_none, hall]
    rw [KeyedList.get?_eq_none_iff, hall]
    exact fun row hrow => (hnew row hrow).1
  have hstored : Represents capacity
      ({ vault with
        tokenVault := (vault.tokenVault.filter
          (fun row => row.value ≠ pair.1 && row.token ≠ pair.2)).put
            { value := pair.1, token := pair.2, seq := vault.nextSeq } } : SqliteTokenVault)
      (pairs ++ [pair]) := by
    refine ⟨h.maxEntries, rows ++ [{ value := pair.1, token := pair.2, seq := vault.nextSeq }],
      ?_, ?_, ?_⟩
    · rw [hput]
      exact hperm.append_right _
    · rw [List.pairwise_append]
      refine ⟨hseq, List.pairwise_singleton _ _, fun row hrow newest hnewest => ?_⟩
      rw [List.mem_singleton.1 hnewest]
      exact seq_lt_nextSeq (hperm.subset hrow)
    · rw [List.map_append, hpairs]
      rfl
  rw [use_of_notMem hvalue]
  refine hstored.evictIfNeeded ?_
  rw [List.map_append, List.map_singleton]
  exact List.nodup_append.2 ⟨hheld.values, List.nodup_singleton _, by
    rintro a ha b hb rfl
    exact hvalue (List.mem_singleton.1 hb ▸ ha)⟩

theorem Represents.get?_eq (hpair : pair ∈ pairs) :
    ∃ row, vault.tokenVault.get? pair.1 = some row ∧ pairOf row = pair := by
  obtain ⟨rows, hperm, -, hpairs⟩ := h.rows
  obtain ⟨row, hrow, hrowPair⟩ := List.mem_map.1 (hpairs ▸ hpair)
  refine ⟨row, (KeyedList.get?_eq_some_iff _ _ _).2 ⟨hperm.subset hrow, ?_⟩, hrowPair⟩
  exact congrArg Prod.fst hrowPair

theorem Represents.mem_pairs {row : TokenRow}
    (hrow : row ∈ vault.tokenVault.items) : pairOf row ∈ pairs := by
  obtain ⟨rows, hperm, -, hpairs⟩ := h.rows
  exact hpairs ▸ List.mem_map.2 ⟨row, hperm.mem_iff.2 hrow, rfl⟩

theorem Represents.getToken_none {value : String}
    (hvalue : value ∉ pairs.map Prod.fst) : vault.getToken value = (none, vault) := by
  unfold getToken
  have hnone : vault.tokenVault.get? value = none := by
    refine (KeyedList.get?_eq_none_iff _ _).2 (fun row hrow hsame => hvalue ?_)
    exact List.mem_map.2 ⟨pairOf row, h.mem_pairs hrow, hsame⟩
  rw [hnone]

theorem Represents.getToken_some (hpair : pair ∈ pairs) :
    vault.getToken pair.1 = (some pair.2, vault.touch pair.1) := by
  obtain ⟨row, hrow, hrowPair⟩ := h.get?_eq hpair
  unfold getToken
  rw [hrow, ← hrowPair]
  rfl

theorem Represents.getValue_none {token : String}
    (htoken : token ∉ pairs.map Prod.snd) : vault.getValue token = (none, vault) := by
  unfold getValue
  have hnone : vault.tokenVault.items.find? (fun row => row.token = token) = none := by
    refine List.find?_eq_none.2 (fun row hrow => ?_)
    simp only [decide_eq_true_eq]
    exact fun hsame => htoken (List.mem_map.2 ⟨pairOf row, h.mem_pairs hrow, hsame⟩)
  rw [hnone]

theorem Represents.getValue_some (hheld : Held capacity pairs)
    (hpair : pair ∈ pairs) : vault.getValue pair.2 = (some pair.1, vault.touch pair.1) := by
  unfold getValue
  obtain ⟨row, hget, hrowPair⟩ := h.get?_eq hpair
  have hsome : (vault.tokenVault.items.find? (fun row => row.token = pair.2)).isSome = true := by
    have htoken : row.token = pair.2 := congrArg Prod.snd hrowPair
    exact List.find?_isSome.2 ⟨row, KeyedList.mem_of_get? hget, by simpa using htoken⟩
  obtain ⟨found, hfound⟩ := Option.isSome_iff_exists.1 hsome
  have htoken : found.token = pair.2 := by simpa using List.find?_some hfound
  have hsame : pairOf found = pair :=
    hheld.eq_of_token hpair (h.mem_pairs (List.mem_of_find?_eq_some hfound)) htoken
  have hfoundValue : found.value = pair.1 := congrArg Prod.fst hsame
  rw [hfound]
  dsimp only
  rw [hfoundValue]

theorem Represents.getToken_eq_some_iff (value token : String) :
    (vault.getToken value).1 = some token ↔ (value, token) ∈ pairs := by
  constructor
  · intro hget
    by_cases hvalue : value ∈ pairs.map Prod.fst
    · obtain ⟨pair, hpair, rfl⟩ := List.mem_map.1 hvalue
      rw [h.getToken_some hpair, Option.some.injEq] at hget
      rw [← hget]
      exact hpair
    · rw [h.getToken_none hvalue] at hget
      cases hget
  · intro hpair
    rw [h.getToken_some hpair]

theorem Represents.getValue_eq_some_iff (hheld : Held capacity pairs) (value token : String) :
    (vault.getValue token).1 = some value ↔ (value, token) ∈ pairs := by
  constructor
  · intro hget
    by_cases htoken : token ∈ pairs.map Prod.snd
    · obtain ⟨pair, hpair, rfl⟩ := List.mem_map.1 htoken
      rw [h.getValue_some hheld hpair, Option.some.injEq] at hget
      rw [← hget]
      exact hpair
    · rw [h.getValue_none htoken] at hget
      cases hget
  · intro hpair
    rw [h.getValue_some hheld hpair]

theorem Represents.values_eq : vault.values = pairs.map Prod.fst := by
  obtain ⟨rows, hperm, hseq, hpairs⟩ := h.rows
  unfold values
  rw [insertionSort_eq hperm hseq, ← hpairs, List.map_map]
  rfl

theorem Represents.length_eq : vault.tokenVault.items.length = pairs.length := by
  obtain ⟨rows, hperm, -, hpairs⟩ := h.rows
  rw [← hperm.length_eq, ← hpairs, List.length_map]

end

theorem represents_fresh (capacity : Option Nat) : Represents capacity (fresh capacity) [] where
  maxEntries := rfl
  rows := ⟨[], List.Perm.refl _, List.Pairwise.nil, rfl⟩

theorem refinedBy : RefinedBy capacity backend (Represents capacity) where
  getToken_none := by
    intro vault pairs value hheld h hvalue
    exact congrArg Except.ok (h.getToken_none hvalue)
  getToken_some := by
    intro vault pairs pair hheld h hpair
    exact ⟨vault.touch pair.1, congrArg Except.ok (h.getToken_some hpair), h.touch hheld hpair⟩
  getValue_none := by
    intro vault pairs token hheld h htoken
    exact congrArg Except.ok (h.getValue_none htoken)
  getValue_some := by
    intro vault pairs pair hheld h hpair
    exact ⟨vault.touch pair.1, congrArg Except.ok (h.getValue_some hheld hpair), h.touch hheld hpair⟩
  store := by
    intro vault pairs pair hheld h hvalue htoken
    exact ⟨vault.store pair.1 pair.2, rfl, h.store hheld hvalue htoken⟩

end SqliteTokenVault

/-! ## The vaults -/

section Run

open VaultPairs

variable {σ : Type} {capacity : Option Nat} {impl : TokenVaultBackend σ} {rel : σ → VaultPairs → Prop}
  {upper digest : String → String} {calls : List TokenCall}

/-- What holds between the states of a run over a backend and of one over the pairs, both with the
    values that were used. -/
structure VaultsInStep (rel : σ → VaultPairs → Prop) (capacity : Option Nat) (upper digest : String → String)
    (calls : List TokenCall) (s : σ × List String) (t : VaultPairs × List String) : Prop where
  rel : rel s.1 t.1
  uses : s.2 = t.2
  held : Held capacity t.1
  issued : ∀ pair ∈ t.1, ∃ label, .tokenize label pair.1 ∈ calls
    ∧ pair.2 = tokenText upper digest label pair.1
  recent : mostRecent capacity t.2 = t.1.map Prod.fst

def VaultsAgree {ρ : Type} (rel : σ → VaultPairs → Prop) (capacity : Option Nat)
    (upper digest : String → String) (calls : List TokenCall)
    (r : Except String (ρ × σ × List String)) (r' : Except String (ρ × VaultPairs × List String)) :
    Prop :=
  ∃ answer s t, r = .ok (answer, s) ∧ r' = .ok (answer, t)
    ∧ VaultsInStep rel capacity upper digest calls s t

variable {pair : String × String}

theorem VaultsInStep.use {s : σ × List String} {t : VaultPairs × List String} {s' : σ}
    (h : VaultsInStep rel capacity upper digest calls s t)
    (hrel : rel s' (VaultPairs.use capacity pair t.1))
    (hfresh : ∀ other ∈ t.1, other.2 = pair.2 → other.1 = pair.1)
    (hissued : ∃ label, .tokenize label pair.1 ∈ calls ∧ pair.2 = tokenText upper digest label pair.1) :
    VaultsInStep rel capacity upper digest calls (s', s.2 ++ [pair.1])
      (VaultPairs.use capacity pair t.1, t.2 ++ [pair.1]) where
  rel := hrel
  uses := by rw [h.uses]
  held := h.held.use hfresh
  issued := by
    intro other hother
    rcases mem_of_mem_use hother with rfl | hmem
    · exact hissued
    · exact h.issued other hmem
  recent := map_fst_use h.recent

theorem VaultsInStep.use_of_mem {s : σ × List String} {t : VaultPairs × List String} {s' : σ}
    (h : VaultsInStep rel capacity upper digest calls s t) (hpair : pair ∈ t.1)
    (hrel : rel s' (VaultPairs.use capacity pair t.1)) :
    VaultsInStep rel capacity upper digest calls (s', s.2 ++ [pair.1])
      (VaultPairs.use capacity pair t.1, t.2 ++ [pair.1]) :=
  h.use hrel (fun _ hother htoken => congrArg Prod.fst (h.held.eq_of_token hpair hother htoken))
    (h.issued pair hpair)

theorem find?_fst_eq {pairs : VaultPairs} (h : Held capacity pairs)
    (hpair : pair ∈ pairs) : pairs.find? (fun other => other.1 = pair.1) = some pair := by
  have hsome : (pairs.find? (fun other => other.1 = pair.1)).isSome = true :=
    List.find?_isSome.2 ⟨pair, hpair, by simp⟩
  obtain ⟨found, hfound⟩ := Option.isSome_iff_exists.1 hsome
  rw [hfound, h.eq_of_value hpair (List.mem_of_find?_eq_some hfound)
    (by simpa using List.find?_some hfound)]

theorem find?_snd_eq {pairs : VaultPairs} (h : Held capacity pairs)
    (hpair : pair ∈ pairs) : pairs.find? (fun other => other.2 = pair.2) = some pair := by
  have hsome : (pairs.find? (fun other => other.2 = pair.2)).isSome = true :=
    List.find?_isSome.2 ⟨pair, hpair, by simp⟩
  obtain ⟨found, hfound⟩ := Option.isSome_iff_exists.1 hsome
  rw [hfound, h.eq_of_token hpair (List.mem_of_find?_eq_some hfound)
    (by simpa using List.find?_some hfound)]

section

variable (himpl : RefinedBy capacity impl rel)

include himpl

variable {t : VaultPairs × List String} {s : σ × List String}

theorem vaultsAgree_getValue
    (h : VaultsInStep rel capacity upper digest calls s t) (token : String) :
    VaultsAgree rel capacity upper digest calls (impl.logged.getValue token s)
      ((VaultPairs.backend capacity).logged.getValue token t) := by
  unfold logged VaultPairs.backend
  dsimp only
  by_cases htoken : token ∈ t.1.map Prod.snd
  · obtain ⟨pair, hpair, rfl⟩ := List.mem_map.1 htoken
    obtain ⟨s', hs', hrel⟩ := himpl.getValue_some h.held h.rel hpair
    rw [hs', find?_snd_eq h.held hpair]
    exact ⟨_, _, _, rfl, rfl, h.use_of_mem hpair hrel⟩
  · have hnone : t.1.find? (fun pair => pair.2 = token) = none := by
      refine List.find?_eq_none.2 (fun pair hpair => ?_)
      simp only [decide_eq_true_eq]
      exact fun hsame => htoken (List.mem_map.2 ⟨pair, hpair, hsame⟩)
    rw [himpl.getValue_none h.held h.rel htoken, hnone]
    refine ⟨none, (s.1, s.2 ++ []), (t.1, t.2 ++ []), rfl, rfl, ?_⟩
    simpa using h

theorem vaultsAgree_tokenize (h : VaultsInStep rel capacity upper digest calls s t)
    (hdistinct : ∀ label value label' value', .tokenize label value ∈ calls →
      .tokenize label' value' ∈ calls →
      tokenText upper digest label value = tokenText upper digest label' value' → value = value')
    {label value : String} (hcall : .tokenize label value ∈ calls) :
    VaultsAgree rel capacity upper digest calls (impl.logged.tokenize upper digest label value s)
      ((VaultPairs.backend capacity).logged.tokenize upper digest label value t) := by
  unfold TokenVaultBackend.tokenize logged VaultPairs.backend
  dsimp only
  by_cases hvalue : value ∈ t.1.map Prod.fst
  · obtain ⟨pair, hpair, rfl⟩ := List.mem_map.1 hvalue
    obtain ⟨s', hs', hrel⟩ := himpl.getToken_some h.held h.rel hpair
    rw [hs', find?_fst_eq h.held hpair]
    exact ⟨_, _, _, rfl, rfl, h.use_of_mem hpair hrel⟩
  · have hnone : t.1.find? (fun pair => pair.1 = value) = none := by
      refine List.find?_eq_none.2 (fun pair hpair => ?_)
      simp only [decide_eq_true_eq]
      exact fun hsame => hvalue (List.mem_map.2 ⟨pair, hpair, hsame⟩)
    -- a value with the same token would be the value itself
    have hfresh : ∀ other ∈ t.1, other.2 = tokenText upper digest label value → other.1 = value := by
      intro other hother htoken
      obtain ⟨label', hcall', hissued⟩ := h.issued other hother
      exact hdistinct label' other.1 label value hcall' hcall (hissued.symm.trans htoken)
    have htoken : tokenText upper digest label value ∉ t.1.map Prod.snd := by
      intro hmem
      obtain ⟨other, hother, hsame⟩ := List.mem_map.1 hmem
      exact hvalue (List.mem_map.2 ⟨other, hother, hfresh other hother hsame⟩)
    have hstore : ∃ s', impl.store value (tokenText upper digest label value) s.1 = .ok s'
        ∧ rel s' (VaultPairs.use capacity (value, tokenText upper digest label value) t.1) :=
      himpl.store (value, tokenText upper digest label value) h.held h.rel hvalue htoken
    obtain ⟨s', hs', hrel⟩ := hstore
    rw [himpl.getToken_none h.held h.rel hvalue, hnone]
    simp only [Option.elim_none, Except.map]
    rw [hs']
    exact ⟨_, _, _, rfl, rfl, h.use hrel hfresh ⟨label, hcall, rfl⟩⟩

theorem vaultsAgree_restore (pieces : List (Char ⊕ String))
    (h : VaultsInStep rel capacity upper digest calls s t) :
    VaultsAgree rel capacity upper digest calls (impl.logged.restore pieces s)
      ((VaultPairs.backend capacity).logged.restore pieces t) := by
  induction pieces generalizing s t with
  | nil => exact ⟨_, _, _, rfl, rfl, h⟩
  | cons piece pieces ih =>
    cases piece with
    | inl c =>
      obtain ⟨answer, s', t', hs', ht', h'⟩ := ih h
      refine ⟨String.singleton c ++ answer, s', t', ?_, ?_, h'⟩
      · simp only [restore, hs', Except.map]
      · simp only [restore, ht', Except.map]
    | inr token =>
      obtain ⟨value, s₁, t₁, hs₁, ht₁, h₁⟩ := vaultsAgree_getValue himpl h token
      obtain ⟨answer, s', t', hs', ht', h'⟩ := ih h₁
      refine ⟨value.getD token ++ answer, s', t', ?_, ?_, h'⟩
      · simp only [restore, hs₁, hs', Except.map]
      · simp only [restore, ht₁, ht', Except.map]

theorem vaultsAgree_runVault
    (hdistinct : ∀ label value label' value', .tokenize label value ∈ calls →
      .tokenize label' value' ∈ calls →
      tokenText upper digest label value = tokenText upper digest label' value' → value = value')
    {left : List TokenCall} (hleft : left ⊆ calls)
    (h : VaultsInStep rel capacity upper digest calls s t) :
    VaultsAgree rel capacity upper digest calls (runVault impl.logged upper digest left s)
      (runVault (VaultPairs.backend capacity).logged upper digest left t) := by
  induction left generalizing s t with
  | nil => exact ⟨_, _, _, rfl, rfl, h⟩
  | cons call left ih =>
    have hanswer : VaultsAgree rel capacity upper digest calls (call.answer impl.logged upper digest s)
        (call.answer (VaultPairs.backend capacity).logged upper digest t) := by
      cases call with
      | tokenize label value => exact vaultsAgree_tokenize himpl h hdistinct (hleft List.mem_cons_self)
      | detokenize text => exact vaultsAgree_restore himpl _ h
    obtain ⟨text, s₁, t₁, hs₁, ht₁, h₁⟩ := hanswer
    obtain ⟨texts, s', t', hs', ht', h'⟩ :=
      ih (fun other hother => hleft (List.mem_cons_of_mem _ hother)) h₁
    refine ⟨text :: texts, s', t', ?_, ?_, h'⟩
    · simp only [runVault, hs₁, hs', Except.map]
    · simp only [runVault, ht₁, ht', Except.map]

end

theorem held_nil (capacity : Option Nat) : Held capacity [] where
  values := List.nodup_nil
  tokens := List.nodup_nil
  bounded := fun n _ => Nat.zero_le n

theorem vaultsInStep_nil {s : σ} (hrel : rel s []) : VaultsInStep rel capacity upper digest calls (s, []) ([], []) where
  rel := hrel
  uses := rfl
  held := held_nil capacity
  issued := by simp
  recent := mostRecent_nil capacity

end Run

/-- For every capacity and every sequence of calls in which distinct values have distinct tokens, the
    two vaults answer alike, and hold the values that were used last, the least recently used first and
    no more than the capacity. A value leads to a token in each exactly when the token leads back. -/
theorem runVault_agree (upper digest : String → String) (capacity : Option Nat) (calls : List TokenCall)
    (hdistinct : ∀ label value label' value', .tokenize label value ∈ calls →
      .tokenize label' value' ∈ calls →
      tokenText upper digest label value = tokenText upper digest label' value' → value = value') :
    ∃ texts uses inMemory sqlite, runVault InMemoryTokenVault.backend.logged upper digest calls
          (InMemoryTokenVault.fresh capacity, []) = .ok (texts, inMemory, uses)
      ∧ runVault SqliteTokenVault.backend.logged upper digest calls
          (SqliteTokenVault.fresh capacity, []) = .ok (texts, sqlite, uses)
      ∧ inMemory.values = mostRecent capacity uses ∧ sqlite.values = mostRecent capacity uses
      ∧ (∀ n ∈ capacity, inMemory.tokensByValue.items.length ≤ n
        ∧ sqlite.tokenVault.items.length ≤ n) ∧ ∀ value token,
        (inMemory.tokensByValue.find? value = some token
          ↔ inMemory.valuesByToken.find? token = some value)
        ∧ ((sqlite.getToken value).1 = some token ↔ (sqlite.getValue token).1 = some value) := by
  obtain ⟨texts, s, t, hs, ht, hstep⟩ := vaultsAgree_runVault InMemoryTokenVault.refinedBy hdistinct
    (List.Subset.refl calls) (vaultsInStep_nil (InMemoryTokenVault.represents_fresh capacity))
  obtain ⟨texts', s', t', hs', ht', hstep'⟩ := vaultsAgree_runVault SqliteTokenVault.refinedBy hdistinct
    (List.Subset.refl calls) (vaultsInStep_nil (SqliteTokenVault.represents_fresh capacity))
  -- the runs over the pairs are one run
  obtain ⟨rfl, rfl⟩ := Prod.mk.inj (Except.ok.inj (ht.symm.trans ht'))
  refine ⟨texts, t.2, s.1, s'.1, ?_, ?_, ?_, ?_, fun n hn => ⟨?_, ?_⟩, fun value token => ⟨?_, ?_⟩⟩
  · rw [← hstep.uses]
    exact hs
  · rw [← hstep'.uses]
    exact hs'
  · rw [hstep.recent]
    exact congrArg _ hstep.rel.items
  · rw [hstep'.recent]
    exact hstep'.rel.values_eq
  · rw [hstep.rel.items]
    exact hstep.held.bounded n hn
  · rw [hstep'.rel.length_eq]
    exact hstep'.held.bounded n hn
  · rw [hstep.rel.find?_eq, hstep.rel.reverse]
  · rw [hstep'.rel.getToken_eq_some_iff, hstep'.rel.getValue_eq_some_iff hstep'.held]

/-- Two values, of which a vault of one entry forgets the first. -/
theorem runVault_agree_two : ∃ texts uses inMemory sqlite,
      runVault InMemoryTokenVault.backend.logged String.toUpper
          (fun value => if value = "a" then "ca978112ca1b" else "3e23e8160039")
          [.tokenize "email" "a", .tokenize "email" "b", .detokenize "[EMAIL:ca978112ca1b]"]
          (InMemoryTokenVault.fresh (some 1), []) = .ok (texts, inMemory, uses)
      ∧ runVault SqliteTokenVault.backend.logged String.toUpper
          (fun value => if value = "a" then "ca978112ca1b" else "3e23e8160039")
          [.tokenize "email" "a", .tokenize "email" "b", .detokenize "[EMAIL:ca978112ca1b]"]
          (SqliteTokenVault.fresh (some 1), []) = .ok (texts, sqlite, uses)
      ∧ inMemory.values = mostRecent (some 1) uses ∧ sqlite.values = mostRecent (some 1) uses := by
  have hdistinct : ∀ label value label' value',
      TokenCall.tokenize label value ∈ [TokenCall.tokenize "email" "a", .tokenize "email" "b",
        .detokenize "[EMAIL:ca978112ca1b]"] →
      TokenCall.tokenize label' value' ∈ [TokenCall.tokenize "email" "a", .tokenize "email" "b",
        .detokenize "[EMAIL:ca978112ca1b]"] →
      tokenText String.toUpper (fun value => if value = "a" then "ca978112ca1b" else "3e23e8160039")
          label value
        = tokenText String.toUpper
          (fun value => if value = "a" then "ca978112ca1b" else "3e23e8160039") label' value' →
      value = value' := by
    intro label value label' value' h h' heq
    simp only [List.mem_cons, TokenCall.tokenize.injEq, reduceCtorEq, List.not_mem_nil, or_false] at h h'
    rcases h with ⟨rfl, rfl⟩ | ⟨rfl, rfl⟩ <;> rcases h' with ⟨rfl, rfl⟩ | ⟨rfl, rfl⟩
    · rfl
    · exact absurd heq (by decide +kernel)
    · exact absurd heq (by decide +kernel)
    · rfl
  obtain ⟨texts, uses, inMemory, sqlite, h, h', hvalues, hvalues', -⟩ :=
    runVault_agree _ _ (some 1) _ hdistinct
  exact ⟨texts, uses, inMemory, sqlite, h, h', hvalues, hvalues'⟩

end Himmy
