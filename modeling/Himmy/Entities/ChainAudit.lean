import Himmy.Entities.AuditChain
import Himmy.Entities.Integrity
import Mathlib.Order.Bounds.Basic

/-! # Signed audit chains

`export_audit_chain` signs the tip of a hash chain over an ordered list of records, and
`verify_audit_chain` walks a live list against the entries of the bundle, position by position. The
tip decides the verdict; the walk only says where and how the two lists differ.

An id is classified at the first differing position that carries it. When both sides carry it there,
its content was edited in place; otherwise it has moved, or is on one side only
(`audit_chain_localizes`). A record that was moved and edited therefore counts as reordered. -/

namespace Himmy

variable (D : Digests)

/-! ## Bundles -/

structure ChainEntry where
  recordId : String
  contentHash : String
  prevHash : String
  chainHash : String

structure AuditChainBundle where
  bundleVersion : Nat := 1
  entries : List ChainEntry
  tipHash : String
  signature : String
  algorithm : String := "HMAC-SHA256"

/-- What a flagged id is reported as. -/
inductive Divergence where
  | tampered
  | reordered
  | missing
  | added
  deriving DecidableEq

structure ChainVerificationResult where
  ok : Bool
  signatureValid : Bool
  chainIntact : Bool
  firstBreakIndex : Option Nat
  tamperedRecordIds : List String
  reorderedRecordIds : List String
  missingRecordIds : List String
  addedRecordIds : List String

/-- The loop of `export_audit_chain`: the entries and the last hash. -/
def chainEntries (prev : String) : List EntityRecord → List ChainEntry × String
  | [] => ([], prev)
  | record :: records =>
    let leaf := record.contentHash D
    let chained := chainStep D prev leaf
    let rest := chainEntries chained records
    (⟨record.recordId, leaf, prev, chained⟩ :: rest.1, rest.2)

def exportAuditChain (records : List EntityRecord) (secret : String) : AuditChainBundle :=
  let chain := chainEntries D (chainGenesisHash D) records
  { entries := chain.1, tipHash := chain.2, signature := sign D chain.2 secret }

/-! ## The walk -/

/-- What is flagged at one position, in the order of the code; the position diverged when anything
    is. -/
def positionFlags (bundleIds liveIds : List String) (entry : Option ChainEntry)
    (pair : Option (String × String)) : List (String × Divergence) :=
  match entry, pair with
  | some entry, some (rid, leaf) =>
    if rid = entry.recordId then
      if leaf ≠ entry.contentHash then [(rid, .tampered)] else []
    else
      [(rid, if rid ∈ bundleIds then .reordered else .added),
        (entry.recordId, if entry.recordId ∈ liveIds then .reordered else .missing)]
  | none, some (rid, _) => [(rid, if rid ∈ bundleIds then .reordered else .added)]
  | some entry, none =>
    [(entry.recordId, if entry.recordId ∈ liveIds then .reordered else .missing)]
  | none, none => []

/-- The locals of the walk; the four buckets are one list, each id with its bucket. -/
structure ChainWalk where
  flags : List (String × Divergence) := []
  firstBreak : Option Nat := none

def flag (flags : List (String × Divergence)) (f : String × Divergence) :
    List (String × Divergence) :=
  if f.1 ∈ flags.map Prod.fst then flags else flags ++ [f]

def ChainWalk.step (raised : List (String × Divergence)) (w : ChainWalk) (i : Nat) : ChainWalk :=
  { flags := raised.foldl flag w.flags
    firstBreak := if !raised.isEmpty && w.firstBreak.isNone then some i else w.firstBreak }

/-- The positions below `n`. -/
def chainWalk (raised : Nat → List (String × Divergence)) (n : Nat) : ChainWalk :=
  (List.range n).foldl (fun w i => w.step (raised i) i) {}

def bucket (kind : Divergence) (flags : List (String × Divergence)) : List String :=
  (flags.filter (fun f => f.2 = kind)).map Prod.fst

/-- `verify_audit_chain`; `none` is the error of `compare_digest`. -/
def verifyAuditChain (bundle : AuditChainBundle) (records : List EntityRecord) (secret : String) :
    Option ChainVerificationResult := do
  let signatureValid ← compareDigest bundle.signature (sign D bundle.tipHash secret)
  let live := records.map (fun r => (r.recordId, r.contentHash D))
  let liveTip := live.foldl (fun tip pair => chainStep D tip pair.2) (chainGenesisHash D)
  let chainIntact : Bool := decide (liveTip = bundle.tipHash)
  let bundleIds := bundle.entries.map ChainEntry.recordId
  let liveIds := live.map Prod.fst
  let walk := chainWalk (fun i => positionFlags bundleIds liveIds bundle.entries[i]? live[i]?)
    (max bundle.entries.length live.length)
  return {
    ok := signatureValid && chainIntact
    signatureValid
    chainIntact
    firstBreakIndex := walk.firstBreak
    tamperedRecordIds := bucket .tampered walk.flags
    reorderedRecordIds := bucket .reordered walk.flags
    missingRecordIds := bucket .missing walk.flags
    addedRecordIds := bucket .added walk.flags }

/-! ## The exported chain -/

def fingerprints (records : List EntityRecord) : List (String × String) :=
  records.map (fun r => (r.recordId, r.contentHash D))

theorem fingerprints_chainEntries (prev : String) (records : List EntityRecord) :
    (chainEntries D prev records).1.map (fun e => (e.recordId, e.contentHash))
      = fingerprints D records := by
  induction records generalizing prev with
  | nil => rfl
  | cons record records ih => simp [chainEntries, fingerprints, ih]

theorem tip_chainEntries (prev : String) (records : List EntityRecord) :
    (chainEntries D prev records).2
      = (auditChain D).hashFrom prev (records.map EntityRecord.contentText) := by
  induction records generalizing prev with
  | nil => rfl
  | cons record records ih =>
    simp only [chainEntries, List.map_cons, ChainHash.hashFrom_cons]
    exact ih _

theorem foldl_chainStep (prev : String) (records : List EntityRecord) :
    (fingerprints D records).foldl (fun tip pair => chainStep D tip pair.2) prev
      = (auditChain D).hashFrom prev (records.map EntityRecord.contentText) := by
  induction records generalizing prev with
  | nil => rfl
  | cons record records ih =>
    simp only [fingerprints, List.map_cons, List.foldl_cons, ChainHash.hashFrom_cons]
    exact ih _

theorem tip_eq_iff (records live : List EntityRecord) :
    (auditChain D).hashFrom (chainGenesisHash D) (live.map EntityRecord.contentText)
        = (auditChain D).hashFrom (chainGenesisHash D) (records.map EntityRecord.contentText)
      ↔ live.map (EntityRecord.contentHash D) = records.map (EntityRecord.contentHash D) := by
  have hmap : ∀ l : List EntityRecord, l.map (EntityRecord.contentHash D)
      = (l.map EntityRecord.contentText).map D.sha256 := by
    intro l
    simp [EntityRecord.contentHash]
  rw [hmap, hmap]
  constructor
  · intro htip
    rw [(auditChain D).hashFrom_genesis_inj htip]
  · intro hhashes
    rw [List.map_injective_iff.2 D.collisionFree hhashes]

/-! ## What the walk collects -/

section Walk

variable {raised : Nat → List (String × Divergence)}

theorem chainWalk_succ (n : Nat) :
    chainWalk raised (n + 1) = (chainWalk raised n).step (raised n) n := by
  simp [chainWalk, List.range_succ]

/-- The id is flagged first at position `i`, in this bucket. -/
def FirstRaised (raised : Nat → List (String × Divergence)) (i : Nat) (f : String × Divergence) :
    Prop :=
  f ∈ raised i ∧ ∀ j < i, f.1 ∉ (raised j).map Prod.fst

theorem nodup_foldl_flag (fs flags : List (String × Divergence))
    (h : (flags.map Prod.fst).Nodup) : ((fs.foldl flag flags).map Prod.fst).Nodup := by
  induction fs generalizing flags with
  | nil => exact h
  | cons f fs ih =>
    apply ih
    unfold flag
    split
    · exact h
    · next hnew => 
        rw [List.map_append, List.nodup_append]
        refine ⟨h, List.nodup_singleton _, ?_⟩
        rintro x hx y hy rfl
        exact hnew (List.mem_singleton.1 hy ▸ hx)

theorem mem_foldl_flag {fs flags : List (String × Divergence)} (hnodup : (fs.map Prod.fst).Nodup)
    (f : String × Divergence) :
    f ∈ fs.foldl flag flags ↔ f ∈ flags ∨ f ∈ fs ∧ f.1 ∉ flags.map Prod.fst := by
  induction fs generalizing flags with
  | nil => simp
  | cons g fs ih =>
    rw [List.map_cons, List.nodup_cons] at hnodup
    rw [List.foldl_cons, ih hnodup.2]
    have hg : ∀ h ∈ fs, h.1 ≠ g.1 := by
      intro h hh heq
      exact hnodup.1 (heq ▸ List.mem_map_of_mem hh)
    unfold flag
    split
    · next hold =>
        constructor
        · rintro (hmem | ⟨hmem, hnew⟩)
          · exact Or.inl hmem
          · exact Or.inr ⟨List.mem_cons_of_mem g hmem, hnew⟩
        · rintro (hmem | ⟨hmem, hnew⟩)
          · exact Or.inl hmem
          · rcases List.mem_cons.1 hmem with rfl | hmem
            · exact absurd hold hnew
            · exact Or.inr ⟨hmem, hnew⟩
    · next hfresh =>
        constructor
        · rintro (hmem | ⟨hmem, hnew⟩)
          · rcases List.mem_append.1 hmem with hmem | hmem
            · exact Or.inl hmem
            · rw [List.mem_singleton.1 hmem]
              exact Or.inr ⟨List.mem_cons_self, hfresh⟩
          · refine Or.inr ⟨List.mem_cons_of_mem g hmem, fun hold => hnew ?_⟩
            rw [List.map_append]
            exact List.mem_append_left _ hold
        · rintro (hmem | ⟨hmem, hnew⟩)
          · exact Or.inl (List.mem_append_left _ hmem)
          · rcases List.mem_cons.1 hmem with rfl | hmem
            · exact Or.inl (List.mem_append_right _ (List.mem_singleton.2 rfl))
            · refine Or.inr ⟨hmem, ?_⟩
              intro hold
              rw [List.map_append, List.mem_append] at hold
              rcases hold with hold | hold
              · exact hnew hold
              · exact hg f hmem (List.mem_singleton.1 hold)

theorem nodup_chainWalk (n : Nat) : ((chainWalk raised n).flags.map Prod.fst).Nodup := by
  induction n with
  | zero => simp [chainWalk]
  | succ n ih =>
    rw [chainWalk_succ]
    exact nodup_foldl_flag _ _ ih

theorem mem_chainWalk_iff (hnodup : ∀ i, ((raised i).map Prod.fst).Nodup) (n : Nat)
    (f : String × Divergence) :
    f ∈ (chainWalk raised n).flags ↔ ∃ i < n, FirstRaised raised i f := by
  induction n generalizing f with
  | zero => simp [chainWalk]
  | succ n ih =>
    -- an id is flagged before position `n` exactly when some earlier position raises it
    have hids : f.1 ∈ (chainWalk raised n).flags.map Prod.fst
        ↔ ∃ j < n, f.1 ∈ (raised j).map Prod.fst := by
      constructor
      · intro hmem
        obtain ⟨g, hg, heq⟩ := List.mem_map.1 hmem
        obtain ⟨j, hj, hraised⟩ := (ih g).1 hg
        exact ⟨j, hj, heq ▸ List.mem_map_of_mem hraised.1⟩
      · intro hex
        classical
        obtain ⟨j, ⟨hj, hmem⟩, hleast⟩ :
            ∃ j, (j < n ∧ f.1 ∈ (raised j).map Prod.fst)
              ∧ ∀ k < j, ¬ (k < n ∧ f.1 ∈ (raised k).map Prod.fst) :=
          ⟨Nat.find hex, Nat.find_spec hex, fun k hk => Nat.find_min hex hk⟩
        obtain ⟨g, hg, heq⟩ := List.mem_map.1 hmem
        have hfirst : FirstRaised raised j g :=
          ⟨hg, fun k hk hmem' => hleast k hk ⟨by omega, heq ▸ hmem'⟩⟩
        exact heq ▸ List.mem_map_of_mem ((ih g).2 ⟨j, hj, hfirst⟩)
    rw [chainWalk_succ]
    show f ∈ (raised n).foldl flag (chainWalk raised n).flags ↔ _
    rw [mem_foldl_flag (hnodup n), ih, hids]
    constructor
    · rintro (⟨i, hi, hfirst⟩ | ⟨hmem, hnew⟩)
      · exact ⟨i, by omega, hfirst⟩
      · exact ⟨n, by omega, hmem, fun j hj hold => hnew ⟨j, hj, hold⟩⟩
    · rintro ⟨i, hi, hfirst⟩
      rcases Nat.lt_succ_iff_lt_or_eq.1 hi with hlt | rfl
      · exact Or.inl ⟨i, hlt, hfirst⟩
      · refine Or.inr ⟨hfirst.1, ?_⟩
        rintro ⟨j, hj, hmem⟩
        exact hfirst.2 j hj hmem

theorem firstBreak_chainWalk (n : Nat) :
    (chainWalk raised n).firstBreak = (List.range n).find? (fun i => !(raised i).isEmpty) := by
  induction n with
  | zero => rfl
  | succ n ih =>
    rw [chainWalk_succ, List.range_succ, List.find?_append, ← ih]
    cases hb : (chainWalk raised n).firstBreak <;> cases hr : (raised n).isEmpty <;>
      simp [ChainWalk.step, hb, hr]

end Walk

/-! ## Where two lists differ -/

section Positions

variable (signed live : List (String × String)) (i : Nat)

/-- The lists differ at a position: in the id, in the hash, or because one has ended. -/
def DiffersAt : Prop := signed[i]? ≠ live[i]?

variable (rid : String)

def OccursAt : Prop :=
  rid ∈ (signed[i]?).map Prod.fst ∨ rid ∈ (live[i]?).map Prod.fst

def FirstDiffersAt : Prop :=
  DiffersAt signed live i ∧ OccursAt signed live i rid
    ∧ ∀ j < i, DiffersAt signed live j → ¬ OccursAt signed live j rid

def InPlaceAt : Prop :=
  rid ∈ (signed[i]?).map Prod.fst ∧ rid ∈ (live[i]?).map Prod.fst

instance (i : Nat) (rid : String) : Decidable (InPlaceAt signed live i rid) :=
  inferInstanceAs (Decidable (_ ∧ _))

def kindAt : Divergence :=
  if InPlaceAt signed live i rid then .tampered
  else if rid ∉ live.map Prod.fst then .missing
  else if rid ∉ signed.map Prod.fst then .added
  else .reordered

variable {signed live} {i : Nat} {rid : String}

theorem mem_ids {l : List (String × String)}
    (h : rid ∈ (l[i]?).map Prod.fst) : rid ∈ l.map Prod.fst := by
  rw [Option.mem_map] at h
  obtain ⟨pair, hpair, rfl⟩ := h
  exact List.mem_map_of_mem (List.mem_of_getElem? hpair)

theorem exists_mem_ids {l : List (String × String)} (h : rid ∈ l.map Prod.fst) :
    ∃ i : Nat, rid ∈ (l[i]?).map Prod.fst := by
  obtain ⟨pair, hpair, rfl⟩ := List.mem_map.1 h
  obtain ⟨i, hi⟩ := List.mem_iff_getElem?.1 hpair
  exact ⟨i, by simp [hi]⟩

theorem mem_positionFlags_iff {entries : List ChainEntry}
    (hentries : entries.map (fun e => (e.recordId, e.contentHash)) = signed) (i : Nat)
    (rid : String) (kind : Divergence) :
    (rid, kind) ∈ positionFlags (signed.map Prod.fst) (live.map Prod.fst) entries[i]? live[i]?
      ↔ (DiffersAt signed live i ∧ OccursAt signed live i rid)
        ∧ kind = kindAt signed live i rid := by
  have hsigned : signed[i]? = (entries[i]?).map (fun e => (e.recordId, e.contentHash)) := by
    rw [← hentries, List.getElem?_map]
  have hin : ∀ e, entries[i]? = some e → e.recordId ∈ signed.map Prod.fst := by
    intro e he
    exact mem_ids (i := i) (by simp [hsigned, he])
  have hlive : ∀ pair, live[i]? = some pair → pair.1 ∈ live.map Prod.fst := by
    intro pair hpair
    exact mem_ids (i := i) (by simp [hpair])
  simp only [DiffersAt, OccursAt, kindAt, InPlaceAt, positionFlags, hsigned]
  rcases he : entries[i]? with _ | e <;> rcases hp : live[i]? with _ | ⟨lid, leaf⟩
  · simp
  · -- only the live list reaches the position
    have hmem := hlive _ hp
    simp only [List.mem_singleton, Prod.mk.injEq, Option.map_none, Option.map_some, Option.mem_def,
      Option.some.injEq, ne_eq, reduceCtorEq, not_false_eq_true, false_or, true_and, false_and,
      ↓reduceIte, ite_not]
    constructor
    · rintro ⟨rfl, rfl⟩
      exact ⟨rfl, by rw [if_pos hmem]⟩
    · rintro ⟨rfl, hkind⟩
      rw [if_pos hmem] at hkind
      exact ⟨rfl, hkind⟩
  · -- only the signed list does
    have hmem := hin _ he
    simp only [List.mem_singleton, Prod.mk.injEq, Option.map_none, Option.map_some, Option.mem_def,
      Option.some.injEq, ne_eq, reduceCtorEq, not_false_eq_true, or_false, true_and, and_false,
      ↓reduceIte, ite_not]
    constructor
    · rintro ⟨rfl, rfl⟩
      exact ⟨rfl, by rw [if_pos hmem]⟩
    · rintro ⟨rfl, hkind⟩
      rw [if_pos hmem] at hkind
      exact ⟨rfl, hkind⟩
  · have hmem := hlive _ hp
    have hmem' := hin _ he
    by_cases hid : lid = e.recordId
    · -- the same id: a flag when the hashes differ
      simp only [hid, ↓reduceIte, ne_eq, ite_not, List.mem_ite_nil_left, List.mem_singleton,
        Prod.mk.injEq, Option.map_some, Option.some.injEq, true_and, Option.mem_def, or_self,
        and_self]
      grind
    · simp only [hid, ↓reduceIte, List.mem_cons, Prod.mk.injEq, List.not_mem_nil, or_false,
        Option.map_some, ne_eq, Option.some.injEq, Option.mem_def, ite_not]
      grind

theorem nodup_positionFlags (bundleIds liveIds : List String) (entry : Option ChainEntry)
    (pair : Option (String × String)) :
    ((positionFlags bundleIds liveIds entry pair).map Prod.fst).Nodup := by
  rcases entry with _ | e <;> rcases pair with _ | ⟨rid, leaf⟩ <;> simp only [positionFlags]
  · simp
  · simp
  · simp
  · split
    · split <;> simp
    · next hid => simp [hid]

theorem exists_occursAt (h : DiffersAt signed live i) : ∃ rid, OccursAt signed live i rid := by
  unfold DiffersAt at h
  unfold OccursAt
  rcases hs : signed[i]? with _ | e
  · rcases hl : live[i]? with _ | pair
    · exact absurd (hs.trans hl.symm) h
    · exact ⟨pair.1, Or.inr (by simp)⟩
  · exact ⟨e.1, Or.inl (by simp)⟩

theorem DiffersAt.lt (h : DiffersAt signed live i) : i < max signed.length live.length := by
  by_contra hge
  have hs : signed[i]? = none := List.getElem?_eq_none (by omega)
  have hl : live[i]? = none := List.getElem?_eq_none (by omega)
  exact h (hs.trans hl.symm)

theorem differsAt_of_notMem (h : rid ∈ (signed[i]?).map Prod.fst)
    (hnot : rid ∉ live.map Prod.fst) : DiffersAt signed live i := by
  intro heq
  rw [heq] at h
  exact hnot (mem_ids h)

theorem DiffersAt.symm (h : DiffersAt signed live i) : DiffersAt live signed i :=
  fun heq => h heq.symm

theorem exists_firstDiffersAt (hdiffers : DiffersAt signed live i)
    (hoccurs : OccursAt signed live i rid) : ∃ j, FirstDiffersAt signed live j rid := by
  classical
  have hex : ∃ j, DiffersAt signed live j ∧ OccursAt signed live j rid := ⟨i, hdiffers, hoccurs⟩
  have hspec := Nat.find_spec hex
  refine ⟨Nat.find hex, hspec.1, hspec.2, ?_⟩
  intro j hj hd ho
  exact Nat.find_min hex hj ⟨hd, ho⟩

theorem isGreatest_commonPrefix {k : Nat} (hk : DiffersAt signed live k)
    (hbefore : ∀ i < k, ¬ DiffersAt signed live i) :
    IsGreatest {n | ∃ common, common <+: signed ∧ common <+: live ∧ common.length = n} k := by
  have heq : ∀ i < k, signed[i]? = live[i]? := fun i hi => not_not.1 (hbefore i hi)
  have hnone : ∀ {l l' : List (String × String)}, (∀ i < k, l[i]? = l'[i]?) → l[k]? ≠ l'[k]? →
      k ≤ l.length := by
    intro l l' heq hk
    by_contra hlt
    -- both lists end before `k`
    have hend : l'[l.length]? = none := by
      rw [← heq l.length (by omega)]
      exact List.getElem?_eq_none le_rfl
    have hlen : l'.length ≤ l.length := List.getElem?_eq_none_iff.1 hend
    exact hk ((List.getElem?_eq_none (by omega)).trans (List.getElem?_eq_none (by omega)).symm)
  have hlen : k ≤ signed.length := hnone heq hk
  have hlen' : k ≤ live.length := hnone (fun i hi => (heq i hi).symm) hk.symm
  constructor
  · refine ⟨signed.take k, List.take_prefix k signed, ?_, by simp [hlen]⟩
    have htake : signed.take k = live.take k := by
      apply List.ext_getElem?
      intro i
      by_cases hi : i < k
      · rw [List.getElem?_take_of_lt hi, List.getElem?_take_of_lt hi, heq i hi]
      · rw [List.getElem?_eq_none (by simp; omega), List.getElem?_eq_none (by simp; omega)]
    exact htake ▸ List.take_prefix k live
  · rintro n ⟨common, hsigned, hlive, rfl⟩
    by_contra hgt
    have hlt : k < common.length := by omega
    apply hk
    rw [List.prefix_iff_getElem?.1 hsigned k hlt, List.prefix_iff_getElem?.1 hlive k hlt]

end Positions

/-! ## The report -/

/-- What a result says of the differences between two lists. -/
structure ChainVerificationResult.Localizes (result : ChainVerificationResult)
    (signed live : List (String × String)) : Prop where
  unbroken : signed = live → result.firstBreakIndex = none
  broken : signed ≠ live → ∃ k, result.firstBreakIndex = some k
    ∧ IsGreatest {n | ∃ common, common <+: signed ∧ common <+: live ∧ common.length = n} k
  reportedOnce : (result.tamperedRecordIds ++ result.reorderedRecordIds ++ result.missingRecordIds
    ++ result.addedRecordIds).Nodup
  reported : ∀ rid, rid ∈ result.tamperedRecordIds ++ result.reorderedRecordIds
      ++ result.missingRecordIds ++ result.addedRecordIds
    ↔ ∃ i, DiffersAt signed live i ∧ OccursAt signed live i rid
  missing : ∀ rid, rid ∈ result.missingRecordIds
    ↔ rid ∈ signed.map Prod.fst ∧ rid ∉ live.map Prod.fst
  added : ∀ rid, rid ∈ result.addedRecordIds
    ↔ rid ∈ live.map Prod.fst ∧ rid ∉ signed.map Prod.fst
  tampered : ∀ rid, rid ∈ result.tamperedRecordIds
    ↔ ∃ i, FirstDiffersAt signed live i rid ∧ InPlaceAt signed live i rid
  reordered : ∀ rid, rid ∈ result.reorderedRecordIds
    ↔ rid ∈ signed.map Prod.fst ∧ rid ∈ live.map Prod.fst
      ∧ ∃ i, FirstDiffersAt signed live i rid ∧ ¬ InPlaceAt signed live i rid

theorem mem_bucket_iff {kind : Divergence} {flags : List (String × Divergence)} {rid : String} :
    rid ∈ bucket kind flags ↔ (rid, kind) ∈ flags := by
  unfold bucket
  constructor
  · intro h
    obtain ⟨f, hf, rfl⟩ := List.mem_map.1 h
    obtain ⟨hmem, hkind⟩ := List.mem_filter.1 hf
    rw [← of_decide_eq_true hkind]
    exact hmem
  · intro h
    exact List.mem_map.2 ⟨(rid, kind), List.mem_filter.2 ⟨h, decide_eq_true rfl⟩, rfl⟩

theorem perm_buckets (flags : List (String × Divergence)) :
    (bucket .tampered flags ++ bucket .reordered flags ++ bucket .missing flags
      ++ bucket .added flags).Perm (flags.map Prod.fst) := by
  induction flags with
  | nil => exact List.Perm.refl _
  | cons f flags ih =>
    obtain ⟨rid, kind⟩ := f
    have hcons : ∀ k : Divergence, bucket k ((rid, kind) :: flags)
        = if kind = k then rid :: bucket k flags else bucket k flags := by
      intro k
      unfold bucket
      by_cases h : kind = k <;> simp [h]
    simp only [hcons, List.map_cons]
    cases kind with
    | tampered => simpa using ih.cons rid
    | reordered =>
      simp only [List.append_assoc, reduceCtorEq, if_false, if_true] at ih ⊢
      exact List.perm_middle.trans (ih.cons rid)
    | missing =>
      simp only [reduceCtorEq, if_false, if_true] at ih ⊢
      rw [List.append_assoc, List.cons_append]
      refine List.perm_middle.trans (List.Perm.cons rid ?_)
      rwa [← List.append_assoc]
    | added =>
      simp only [reduceCtorEq, if_false, if_true] at ih ⊢
      exact List.perm_middle.trans (ih.cons rid)

section Report

variable {signed live : List (String × String)} {entries : List ChainEntry}
  (hentries : entries.map (fun e => (e.recordId, e.contentHash)) = signed)

/-- The walk of `verify_audit_chain` over these lists. -/
def auditWalk (entries : List ChainEntry) (live : List (String × String)) : ChainWalk :=
  chainWalk (fun i => positionFlags (entries.map ChainEntry.recordId) (live.map Prod.fst)
    entries[i]? live[i]?) (max entries.length live.length)

include hentries

theorem ids_entries : entries.map ChainEntry.recordId = signed.map Prod.fst := by
  rw [← hentries, List.map_map]
  rfl

theorem firstRaised_positionFlags_iff (i : Nat) (rid : String) (kind : Divergence) :
    FirstRaised (fun i => positionFlags (signed.map Prod.fst) (live.map Prod.fst) entries[i]?
        live[i]?) i (rid, kind)
      ↔ FirstDiffersAt signed live i rid ∧ kind = kindAt signed live i rid := by
  have hraised : ∀ j, rid ∈ (positionFlags (signed.map Prod.fst) (live.map Prod.fst) entries[j]?
      live[j]?).map Prod.fst ↔ DiffersAt signed live j ∧ OccursAt signed live j rid := by
    intro j
    constructor
    · intro h
      obtain ⟨f, hf, rfl⟩ := List.mem_map.1 h
      exact ((mem_positionFlags_iff hentries j f.1 f.2).1 hf).1
    · intro h
      exact List.mem_map_of_mem (f := Prod.fst)
        ((mem_positionFlags_iff hentries j rid _).2 ⟨h, rfl⟩)
  unfold FirstRaised FirstDiffersAt
  simp only [hraised, mem_positionFlags_iff hentries]
  constructor
  · rintro ⟨⟨⟨hdiffers, hoccurs⟩, hkind⟩, hfirst⟩
    exact ⟨⟨hdiffers, hoccurs, fun j hj hd ho => hfirst j hj ⟨hd, ho⟩⟩, hkind⟩
  · rintro ⟨⟨hdiffers, hoccurs, hfirst⟩, hkind⟩
    exact ⟨⟨⟨hdiffers, hoccurs⟩, hkind⟩, fun j hj h => hfirst j hj h.1 h.2⟩

theorem mem_auditWalk_iff (rid : String) (kind : Divergence) :
    (rid, kind) ∈ (auditWalk entries live).flags
      ↔ ∃ i, FirstDiffersAt signed live i rid ∧ kind = kindAt signed live i rid := by
  unfold auditWalk
  rw [ids_entries hentries, mem_chainWalk_iff (fun i => nodup_positionFlags _ _ _ _)]
  have hlength : entries.length = signed.length := by rw [← hentries, List.length_map]
  constructor
  · rintro ⟨i, -, hfirst⟩
    exact ⟨i, (firstRaised_positionFlags_iff hentries i rid kind).1 hfirst⟩
  · rintro ⟨i, hfirst⟩
    exact ⟨i, hlength ▸ hfirst.1.1.lt, (firstRaised_positionFlags_iff hentries i rid kind).2 hfirst⟩

variable (live) in
theorem positionFlags_eq_nil_iff (i : Nat) :
    positionFlags (signed.map Prod.fst) (live.map Prod.fst) entries[i]? live[i]? = []
      ↔ ¬ DiffersAt signed live i := by
  constructor
  · intro hnil hdiffers
    obtain ⟨rid, hoccurs⟩ := exists_occursAt hdiffers
    have hmem := (mem_positionFlags_iff hentries i rid _).2 ⟨⟨hdiffers, hoccurs⟩, rfl⟩
    rw [hnil] at hmem
    cases hmem
  · intro hnot
    rw [List.eq_nil_iff_forall_not_mem]
    intro f hf
    exact hnot ((mem_positionFlags_iff hentries i f.1 f.2).1 hf).1.1

theorem firstBreak_auditWalk : (signed = live → (auditWalk entries live).firstBreak = none)
      ∧ (signed ≠ live → ∃ k, (auditWalk entries live).firstBreak = some k
        ∧ DiffersAt signed live k ∧ ∀ i < k, ¬ DiffersAt signed live i) := by
  unfold auditWalk
  rw [ids_entries hentries, firstBreak_chainWalk]
  constructor
  · intro heq
    rw [List.find?_range_eq_none]
    intro i _
    have hnil := (positionFlags_eq_nil_iff live hentries i).2 (fun h => h (by rw [heq]))
    simp [hnil]
  · intro hne
    have hex : ∃ i, DiffersAt signed live i := by
      by_contra hnone
      exact hne (List.ext_getElem? (fun i => not_not.1 (not_exists.1 hnone i)))
    have hlength : entries.length = signed.length := by rw [← hentries, List.length_map]
    classical
    refine ⟨Nat.find hex, ?_, Nat.find_spec hex, fun i hi => Nat.find_min hex hi⟩
    rw [List.find?_range_eq_some]
    refine ⟨?_, ?_, ?_⟩
    · have hnot := mt (positionFlags_eq_nil_iff live hentries (Nat.find hex)).1
        (not_not.2 (Nat.find_spec hex))
      simpa using hnot
    · exact List.mem_range.2 (hlength ▸ (Nat.find_spec hex).lt)
    · intro i hi
      have hnil := (positionFlags_eq_nil_iff live hentries i).2 (Nat.find_min hex hi)
      simp [hnil]

omit hentries in
theorem kindAt_eq_tampered_iff {i : Nat} {rid : String} :
    kindAt signed live i rid = .tampered ↔ InPlaceAt signed live i rid := by
  unfold kindAt
  split_ifs <;> simp_all

omit hentries in
theorem kindAt_eq_missing_iff {i : Nat} {rid : String} :
    kindAt signed live i rid = .missing ↔ rid ∉ live.map Prod.fst := by
  unfold kindAt
  split
  · next h => simpa using mem_ids h.2
  · split_ifs <;> simp_all

omit hentries in
theorem kindAt_eq_added_iff {i : Nat} {rid : String} (h : OccursAt signed live i rid) :
    kindAt signed live i rid = .added ↔ rid ∉ signed.map Prod.fst := by
  unfold kindAt
  split
  · next h => simpa using mem_ids h.1
  · split
    · next hmissing =>
        rcases h with h | h
        · simpa using mem_ids h
        · exact absurd (mem_ids h) hmissing
    · split_ifs <;> simp_all

omit hentries in
theorem kindAt_eq_reordered_iff {i : Nat} {rid : String} :
    kindAt signed live i rid = .reordered ↔ rid ∈ signed.map Prod.fst ∧ rid ∈ live.map Prod.fst
      ∧ ¬ InPlaceAt signed live i rid := by
  unfold kindAt
  split_ifs <;> simp_all

theorem localizes_auditWalk {result : ChainVerificationResult}
    (hbreak : result.firstBreakIndex = (auditWalk entries live).firstBreak)
    (htampered : result.tamperedRecordIds = bucket .tampered (auditWalk entries live).flags)
    (hreordered : result.reorderedRecordIds = bucket .reordered (auditWalk entries live).flags)
    (hmissing : result.missingRecordIds = bucket .missing (auditWalk entries live).flags)
    (hadded : result.addedRecordIds = bucket .added (auditWalk entries live).flags) :
    result.Localizes signed live := by
  have hperm := perm_buckets (auditWalk entries live).flags
  rw [← htampered, ← hreordered, ← hmissing, ← hadded] at hperm
  have hmem : ∀ rid kind, rid ∈ bucket kind (auditWalk entries live).flags
      ↔ ∃ i, FirstDiffersAt signed live i rid ∧ kind = kindAt signed live i rid := by
    intro rid kind
    rw [mem_bucket_iff, mem_auditWalk_iff hentries]
  refine ⟨?_, ?_, ?_, ?_, ?_, ?_, ?_, ?_⟩
  · intro heq
    rw [hbreak, (firstBreak_auditWalk hentries).1 heq]
  · intro hne
    obtain ⟨k, hk, hdiffers, hbefore⟩ := (firstBreak_auditWalk hentries).2 hne
    exact ⟨k, hbreak.trans hk, isGreatest_commonPrefix hdiffers hbefore⟩
  · exact hperm.nodup_iff.2 (nodup_chainWalk _)
  · intro rid
    rw [hperm.mem_iff, List.mem_map]
    constructor
    · rintro ⟨f, hf, rfl⟩
      obtain ⟨i, hfirst, -⟩ := (mem_auditWalk_iff hentries f.1 f.2).1 hf
      exact ⟨i, hfirst.1, hfirst.2.1⟩
    · rintro ⟨i, hdiffers, hoccurs⟩
      obtain ⟨j, hfirst⟩ := exists_firstDiffersAt hdiffers hoccurs
      exact ⟨(rid, _), (mem_auditWalk_iff hentries rid _).2 ⟨j, hfirst, rfl⟩, rfl⟩
  · intro rid
    rw [hmissing, hmem]
    constructor
    · rintro ⟨i, hfirst, hkind⟩
      have hnot := kindAt_eq_missing_iff.1 hkind.symm
      rcases hfirst.2.1 with hin | hin
      · exact ⟨mem_ids hin, hnot⟩
      · exact absurd (mem_ids hin) hnot
    · rintro ⟨hin, hnot⟩
      obtain ⟨i, hi⟩ := exists_mem_ids hin
      obtain ⟨j, hfirst⟩ := exists_firstDiffersAt (differsAt_of_notMem hi hnot) (Or.inl hi)
      exact ⟨j, hfirst, (kindAt_eq_missing_iff.2 hnot).symm⟩
  · intro rid
    rw [hadded, hmem]
    constructor
    · rintro ⟨i, hfirst, hkind⟩
      have hnot := (kindAt_eq_added_iff hfirst.2.1).1 hkind.symm
      rcases hfirst.2.1 with hin | hin
      · exact absurd (mem_ids hin) hnot
      · exact ⟨mem_ids hin, hnot⟩
    · rintro ⟨hin, hnot⟩
      obtain ⟨i, hi⟩ := exists_mem_ids hin
      obtain ⟨j, hfirst⟩ := exists_firstDiffersAt (differsAt_of_notMem hi hnot).symm (Or.inr hi)
      exact ⟨j, hfirst, ((kindAt_eq_added_iff hfirst.2.1).2 hnot).symm⟩
  · intro rid
    rw [htampered, hmem]
    constructor
    · rintro ⟨i, hfirst, hkind⟩
      exact ⟨i, hfirst, kindAt_eq_tampered_iff.1 hkind.symm⟩
    · rintro ⟨i, hfirst, hplace⟩
      exact ⟨i, hfirst, (kindAt_eq_tampered_iff.2 hplace).symm⟩
  · intro rid
    rw [hreordered, hmem]
    constructor
    · rintro ⟨i, hfirst, hkind⟩
      obtain ⟨hsigned, hlive, hplace⟩ := kindAt_eq_reordered_iff.1 hkind.symm
      exact ⟨hsigned, hlive, i, hfirst, hplace⟩
    · rintro ⟨hsigned, hlive, i, hfirst, hplace⟩
      exact ⟨i, hfirst, (kindAt_eq_reordered_iff.2 ⟨hsigned, hlive, hplace⟩).symm⟩

end Report

theorem compareDigest_sign (secret text : String) :
    compareDigest (sign D text secret) (sign D text secret) = some true := by
  have hascii : (sign D text secret).toList.all (fun c => c.toNat < 128) = true := by
    rw [List.all_eq_true]
    intro c hc
    exact decide_eq_true (lt_of_isHexDigit (List.all_eq_true.1 (D.hmacHex secret _) c hc))
  rw [compareDigest, if_pos (by rw [List.all_append, hascii, Bool.and_self]), decide_eq_true rfl]

variable (records live : List EntityRecord)

theorem verifyAuditChain_exportAuditChain (secret : String) :
    ∃ result, verifyAuditChain D (exportAuditChain D records secret) live secret = some result
      ∧ result.ok = decide
        ((fingerprints D live).foldl (fun tip pair => chainStep D tip pair.2) (chainGenesisHash D)
          = (chainEntries D (chainGenesisHash D) records).2)
      ∧ result.Localizes (fingerprints D records) (fingerprints D live) := by
  have hentries := fingerprints_chainEntries D (chainGenesisHash D) records
  unfold verifyAuditChain exportAuditChain
  rw [compareDigest_sign]
  exact ⟨_, rfl, Bool.true_and _, localizes_auditWalk hentries rfl rfl rfl rfl rfl⟩

/-- The verdict is the equality of the content hashes, position by position, and the report locates
    every difference. -/
theorem audit_chain_localizes (secret : String) :
    ∃ result, verifyAuditChain D (exportAuditChain D records secret) live secret = some result
      ∧ (result.ok = true
        ↔ live.map (EntityRecord.contentHash D) = records.map (EntityRecord.contentHash D))
      ∧ result.Localizes (fingerprints D records) (fingerprints D live) := by
  obtain ⟨result, hverify, hok, hlocal⟩ :=
    verifyAuditChain_exportAuditChain D records live secret
  refine ⟨result, hverify, ?_, hlocal⟩
  rw [hok, decide_eq_true_eq, foldl_chainStep, tip_chainEntries, tip_eq_iff]

/-! ### A record that is moved and edited

Two approvals are exported; in the live list the second stands first, over another amount. -/

/-- An id on both sides is reported as tampered exactly when its content hash differs. -/
def TamperedIffEdited (result : ChainVerificationResult) : Prop :=
  ∀ r ∈ records, ∀ l ∈ live, r.recordId = l.recordId →
    (r.recordId ∈ result.tamperedRecordIds ↔ r.contentHash D ≠ l.contentHash D)

private def orderApproval (order : String) (amount : Int) : EntityRecord :=
  { recordId := order, stableId := order, version := 1, kind := "approval"
    payload := Dict.set KeyedList.empty "amount" (.num amount), metadata := KeyedList.empty
    createdAt := "t0" }

theorem moved_edit_reported_reordered : ¬ ∀ result, verifyAuditChain codeDigests
        (exportAuditChain codeDigests [orderApproval "o-1" 1, orderApproval "o-2" 2] "secret")
        [orderApproval "o-2" 9, orderApproval "o-1" 1] "secret" = some result →
      TamperedIffEdited codeDigests [orderApproval "o-1" 1, orderApproval "o-2" 2]
        [orderApproval "o-2" 9, orderApproval "o-1" 1] result := by
  intro h
  obtain ⟨result, hverify, -, hlocal⟩ := verifyAuditChain_exportAuditChain codeDigests
    [orderApproval "o-1" 1, orderApproval "o-2" 2] [orderApproval "o-2" 9, orderApproval "o-1" 1]
    "secret"
  have hedited : (orderApproval "o-2" 2).contentHash codeDigests
      ≠ (orderApproval "o-2" 9).contentHash codeDigests := by
    intro heq
    exact absurd (codeDigests.collisionFree heq) (by decide)
  have htampered := (h result hverify (orderApproval "o-2" 2) (by simp) (orderApproval "o-2" 9)
    (by simp) rfl).2 hedited
  obtain ⟨i, hfirst, hplace⟩ := (hlocal.tampered "o-2").1 htampered
  -- the id stands at position 1 on one side and at position 0 on the other
  match i with
  | 0 => exact absurd hplace.1 (by simp [fingerprints, orderApproval])
  | 1 => exact absurd hplace.2 (by simp [fingerprints, orderApproval])
  | i + 2 => exact absurd hplace.1 (by simp [fingerprints])

end Himmy
