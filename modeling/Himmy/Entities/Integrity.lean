import Himmy.Entities.Records

/-! # Signed audit bundles

`export_audit_bundle` freezes a graph into a map from ids to content hashes, a Merkle root over the
hashes, and a signature of the root. `verify_audit_bundle` checks the signature against the stored
root and the live graph against the stored maps; it does not recompute the root from the maps. The
maps are therefore not bound by the signature: whoever edits a record can edit its hash in the
bundle.

A bundle proves a graph exactly when nobody has touched its maps, or it is rejected whatever the
graph is (`verifiedBundle_iff`). -/

namespace Himmy

open KeyedList (empty)

variable (D : Digests)

/-! ## The Merkle root -/

/-- The next level of the tree; an odd node is paired with itself. -/
def merklePairs : List String → List String
  | [] => []
  | [left] => [D.sha256 (left ++ left)]
  | left :: right :: level => D.sha256 (left ++ right) :: merklePairs level

theorem length_merklePairs (level : List String) :
    (merklePairs D level).length = (level.length + 1) / 2 := by
  fun_induction merklePairs D level with
  | case1 => rfl
  | case2 left => simp
  | case3 left right level ih =>
    simp only [List.length_cons, ih]
    omega

/-- The loop of `_merkle_root`. -/
def merkleReduce (level : List String) : String :=
  if 1 < level.length then merkleReduce (merklePairs D level) else level.headD ""
termination_by level.length
decreasing_by
  rw [length_merklePairs]
  omega

def merkleRoot (leaves : List String) : String :=
  if leaves = [] then D.sha256 "" else merkleReduce D (leaves.insertionSort (· ≤ ·))

/-! ## Bundles -/

structure AuditBundle where
  bundleVersion : Nat := 1
  records : Dict String := empty
  links : Dict String := empty
  merkleRoot : String := ""
  signature : String := ""
  algorithm : String := "HMAC-SHA256"

structure VerificationResult where
  ok : Bool
  signatureValid : Bool
  tamperedRecordIds : List String
  missingRecordIds : List String
  addedRecordIds : List String
  tamperedLinkIds : List String
  missingLinkIds : List String
  addedLinkIds : List String

def sign (merkleRoot secret : String) : String := D.hmac secret merkleRoot

variable (records : List EntityRecord)

def recordHashes : Dict String :=
  records.foldl (fun hashes r => hashes.set r.recordId (r.contentHash D)) empty

def linkHashes (links : List EntityLink) : Dict String :=
  links.foldl (fun hashes l => hashes.set l.linkId (l.linkHash D)) empty

def exportAuditBundle (links : List EntityLink) (secret : String) : AuditBundle :=
  let recordMap := recordHashes D records
  let linkMap := linkHashes D links
  let root := merkleRoot D (recordMap.items.map Prod.snd ++ linkMap.items.map Prod.snd)
  { records := recordMap, links := linkMap, merkleRoot := root, signature := sign D root secret }

variable (bundle live : Dict String)

def tamperedIds : List String :=
  (bundle.items.filter (fun kv => (live.find? kv.1).any (· ≠ kv.2))).map Prod.fst

def missingIds : List String :=
  (bundle.items.filter (fun kv => (live.find? kv.1).isNone)).map Prod.fst

def addedIds : List String := missingIds live bundle

/-- `hmac.compare_digest` on texts, which raises on a text that is not ASCII. -/
def compareDigest (a b : String) : Option Bool :=
  if (a.toList ++ b.toList).all (fun c => c.toNat < 128) then some (a = b) else none

/-- `verify_audit_bundle`; `none` is the error of `compare_digest`. -/
def verifyAuditBundle (bundle : AuditBundle) (records : List EntityRecord)
    (links : List EntityLink) (secret : String) : Option VerificationResult := do
  let signatureValid ← compareDigest bundle.signature (sign D bundle.merkleRoot secret)
  let liveRecords := recordHashes D records
  let liveLinks := linkHashes D links
  let tamperedRecords := tamperedIds bundle.records liveRecords
  let missingRecords := missingIds bundle.records liveRecords
  let addedRecords := addedIds bundle.records liveRecords
  let tamperedLinks := tamperedIds bundle.links liveLinks
  let missingLinks := missingIds bundle.links liveLinks
  let addedLinks := addedIds bundle.links liveLinks
  return {
    ok := signatureValid && !([tamperedRecords, missingRecords, addedRecords, tamperedLinks,
      missingLinks, addedLinks].any (fun ids => !ids.isEmpty))
    signatureValid
    tamperedRecordIds := tamperedRecords
    missingRecordIds := missingRecords
    addedRecordIds := addedRecords
    tamperedLinkIds := tamperedLinks
    missingLinkIds := missingLinks
    addedLinkIds := addedLinks }

/-! ## What a verdict says -/

def Agree (d e : Dict String) : Prop := ∀ id, d.find? id = e.find? id

variable {d e : Dict String}

theorem Agree.symm (h : Agree d e) : Agree e d := fun id => (h id).symm

theorem Agree.trans {d e f : Dict String} (h : Agree d e) (h' : Agree e f) : Agree d f :=
  fun id => (h id).trans (h' id)

theorem missingIds_eq_nil_iff :
    missingIds d e = [] ↔ ∀ id hash, d.find? id = some hash → (e.find? id).isSome = true := by
  simp only [missingIds, List.map_eq_nil_iff, List.filter_eq_nil_iff, Option.isNone_iff_eq_none,
    ← ne_eq, ← Option.isSome_iff_ne_none]
  constructor
  · intro h id hash hfind
    exact h _ (Dict.find?_eq_some_iff.1 hfind)
  · intro h kv hkv
    exact h kv.1 kv.2 (Dict.find?_eq_some_iff.2 hkv)

theorem tamperedIds_eq_nil_iff : tamperedIds d e = [] ↔
      ∀ id hash live, d.find? id = some hash → e.find? id = some live → live = hash := by
  simp only [tamperedIds, List.map_eq_nil_iff, List.filter_eq_nil_iff, Option.any_eq_true,
    decide_eq_true_eq, not_exists, not_and, not_not]
  constructor
  · intro h id hash live hfind hlive
    exact h _ (Dict.find?_eq_some_iff.1 hfind) live hlive
  · intro h kv hkv live hlive
    exact h kv.1 kv.2 live (Dict.find?_eq_some_iff.2 hkv) hlive

theorem agree_iff : Agree d e ↔ tamperedIds d e = [] ∧ missingIds d e = [] ∧ addedIds d e = [] := by
  rw [addedIds, tamperedIds_eq_nil_iff, missingIds_eq_nil_iff, missingIds_eq_nil_iff]
  constructor
  · intro h
    refine ⟨?_, ?_, ?_⟩
    · intro id hash live hfind hlive
      rw [← h id, hfind] at hlive
      exact (Option.some.inj hlive).symm
    · intro id hash hfind
      rw [← h id, hfind, Option.isSome_some]
    · intro id hash hfind
      rw [h id, hfind, Option.isSome_some]
  · rintro ⟨htampered, hmissing, hadded⟩ id
    cases hfind : d.find? id with
    | some hash =>
      obtain ⟨live, hlive⟩ := Option.isSome_iff_exists.1 (hmissing id hash hfind)
      rw [hlive, htampered id hash live hfind hlive]
    | none =>
      cases hlive : e.find? id with
      | none => rfl
      | some live => simpa [hfind] using hadded id live hlive

variable (secret : String) (b : AuditBundle)

def SignatureValid : Prop :=
  compareDigest b.signature (sign D b.merkleRoot secret) = some true

theorem signatureValid_of_eq {secret : String} {b : AuditBundle}
    (h : b.signature = sign D b.merkleRoot secret) : SignatureValid D secret b := by
  have hascii : (sign D b.merkleRoot secret).toList.all (fun c => c.toNat < 128) = true := by
    rw [List.all_eq_true]
    intro c hc
    exact decide_eq_true (lt_of_isHexDigit (List.all_eq_true.1 (D.hmacHex secret _) c hc))
  unfold SignatureValid compareDigest
  rw [h, if_pos (by rw [List.all_append, hascii, Bool.and_self]), decide_eq_true rfl]

/-- `verify_audit_bundle` reports `ok`. -/
def Verifies (live : List EntityRecord) (liveLinks : List EntityLink) : Prop :=
  ∃ result, verifyAuditBundle D b live liveLinks secret = some result ∧ result.ok = true

theorem verifies_iff (live : List EntityRecord) (liveLinks : List EntityLink) :
    Verifies D secret b live liveLinks ↔ SignatureValid D secret b
      ∧ Agree b.records (recordHashes D live) ∧ Agree b.links (linkHashes D liveLinks) := by
  unfold Verifies SignatureValid verifyAuditBundle
  rw [agree_iff, agree_iff]
  cases compareDigest b.signature (sign D b.merkleRoot secret) with
  | none => simp
  | some valid => simp [and_assoc]

/-! ## What a verified bundle proves -/

/-- The live graph has the ids and the content hashes of the exported one. -/
def SameHashes (records live : List EntityRecord) (links liveLinks : List EntityLink) : Prop :=
  Agree (recordHashes D records) (recordHashes D live)
    ∧ Agree (linkHashes D links) (linkHashes D liveLinks)

def Unforged (records : List EntityRecord) (links : List EntityLink) (b : AuditBundle) : Prop :=
  SignatureValid D secret b → b.merkleRoot = (exportAuditBundle D records links secret).merkleRoot

def BundleProvesGraph : Prop :=
  ∀ secret records links b live liveLinks, Unforged D secret records links b →
    Verifies D secret b live liveLinks → SameHashes D records live links liveLinks

def MapsKept (links : List EntityLink) (b : AuditBundle) : Prop :=
  Agree b.records (recordHashes D records) ∧ Agree b.links (linkHashes D links)

def Realized : Prop :=
  (∀ kv ∈ b.records.items, ∃ r : EntityRecord, r.contentHash D = kv.2)
    ∧ ∀ kv ∈ b.links.items, ∃ l : EntityLink, l.linkHash D = kv.2

theorem agree_foldl_set {α : Type} (key hash : α → String) (d : Dict String)
    (f : String × String → α) (hkey : ∀ kv, key (f kv) = kv.1)
    (hhash : ∀ kv ∈ d.items, hash (f kv) = kv.2) :
    Agree d ((d.items.map f).foldl (fun d a => d.set (key a) (hash a)) empty) := by
  have hkeys : (d.items.map f).map key = d.items.map Prod.fst := by
    rw [List.map_map]
    exact List.map_congr_left (fun kv _ => hkey kv)
  have hnodup : ((d.items.map f).map key).Nodup := hkeys ▸ d.nodup_keys
  intro id
  cases hfind : d.find? id with
  | some h =>
    have hmem := Dict.find?_eq_some_iff.1 hfind
    have hset := Dict.find?_foldl_set_of_mem key hash hnodup empty
      (List.mem_map_of_mem (f := f) hmem)
    rw [hkey, hhash _ hmem] at hset
    exact hset.symm
  | none =>
    symm
    rw [Option.eq_none_iff_forall_ne_some]
    intro h hset
    rcases Dict.find?_foldl_set_cases key hash _ _ hset with ⟨a, ha, hk, -⟩ | hempty
    · obtain ⟨kv, hkv, rfl⟩ := List.mem_map.1 ha
      have hd : d.find? kv.1 = some kv.2 := Dict.find?_eq_some_iff.2 hkv
      rw [← hkey, hk, hfind] at hd
      cases hd
    · cases hempty

theorem exists_recordHashes {d : Dict String}
    (h : ∀ kv ∈ d.items, ∃ r : EntityRecord, r.contentHash D = kv.2) :
    ∃ live, Agree d (recordHashes D live) := by
  have hex : ∀ kv : String × String, ∃ r : EntityRecord, r.recordId = kv.1
      ∧ (kv ∈ d.items → r.contentHash D = kv.2) := by
    intro kv
    by_cases hkv : kv ∈ d.items
    · obtain ⟨r, hr⟩ := h kv hkv
      -- the content hash does not read the record id
      exact ⟨{ r with recordId := kv.1 }, rfl, fun _ => hr⟩
    · exact ⟨⟨kv.1, "", 0, "", empty, empty, ""⟩, rfl, fun hmem => (hkv hmem).elim⟩
  choose f hf using hex
  exact ⟨_, agree_foldl_set EntityRecord.recordId (EntityRecord.contentHash D) d f
    (fun kv => (hf kv).1) (fun kv hkv => (hf kv).2 hkv)⟩

theorem exists_linkHashes {d : Dict String}
    (h : ∀ kv ∈ d.items, ∃ l : EntityLink, l.linkHash D = kv.2) :
    ∃ live, Agree d (linkHashes D live) := by
  have hex : ∀ kv : String × String, ∃ l : EntityLink, l.linkId = kv.1
      ∧ (kv ∈ d.items → l.linkHash D = kv.2) := by
    intro kv
    by_cases hkv : kv ∈ d.items
    · obtain ⟨l, hl⟩ := h kv hkv
      exact ⟨{ l with linkId := kv.1 }, rfl, fun _ => hl⟩
    · exact ⟨⟨kv.1, "", "", "", empty, ""⟩, rfl, fun hmem => (hkv hmem).elim⟩
  choose f hf using hex
  exact ⟨_, agree_foldl_set EntityLink.linkId (EntityLink.linkHash D) d f
    (fun kv => (hf kv).1) (fun kv hkv => (hf kv).2 hkv)⟩

theorem realized_of_agree {b : AuditBundle} {live : List EntityRecord} {liveLinks : List EntityLink}
    (hrecords : Agree b.records (recordHashes D live))
    (hlinks : Agree b.links (linkHashes D liveLinks)) : Realized D b := by
  constructor
  · intro kv hkv
    have hfind := hrecords kv.1
    rw [Dict.find?_eq_some_iff.2 hkv] at hfind
    rcases Dict.find?_foldl_set_cases EntityRecord.recordId (EntityRecord.contentHash D) _ _
      hfind.symm with ⟨r, -, -, hr⟩ | hempty
    · exact ⟨r, hr⟩
    · cases hempty
  · intro kv hkv
    have hfind := hlinks kv.1
    rw [Dict.find?_eq_some_iff.2 hkv] at hfind
    rcases Dict.find?_foldl_set_cases EntityLink.linkId (EntityLink.linkHash D) _ _
      hfind.symm with ⟨l, -, -, hl⟩ | hempty
    · exact ⟨l, hl⟩
    · cases hempty

/-- A bundle proves the exported graph exactly when its maps are the exported ones or nothing can
    verify against it: its signature is not valid, or its maps are the hashes of no graph. -/
theorem verifiedBundle_iff (secret : String) (records : List EntityRecord)
    (links : List EntityLink) (b : AuditBundle) :
    (∀ live liveLinks, Verifies D secret b live liveLinks →
        SameHashes D records live links liveLinks)
      ↔ ¬ SignatureValid D secret b ∨ MapsKept D records links b ∨ ¬ Realized D b := by
  constructor
  · intro hproves
    by_cases hsig : SignatureValid D secret b
    · by_cases hreal : Realized D b
      · obtain ⟨live, hlive⟩ := exists_recordHashes D hreal.1
        obtain ⟨liveLinks, hliveLinks⟩ := exists_linkHashes D hreal.2
        obtain ⟨hr, hl⟩ := hproves live liveLinks
          ((verifies_iff D secret b live liveLinks).2 ⟨hsig, hlive, hliveLinks⟩)
        exact Or.inr (Or.inl ⟨hlive.trans hr.symm, hliveLinks.trans hl.symm⟩)
      · exact Or.inr (Or.inr hreal)
    · exact Or.inl hsig
  · intro hcond live liveLinks hverifies
    obtain ⟨hsig, hlive, hliveLinks⟩ := (verifies_iff D secret b live liveLinks).1 hverifies
    rcases hcond with hnot | ⟨hr, hl⟩ | hnot
    · exact (hnot hsig).elim
    · exact ⟨hr.symm.trans hlive, hl.symm.trans hliveLinks⟩
    · exact (hnot (realized_of_agree D hlive hliveLinks)).elim

/-! ### An edit hidden by editing the bundle

An approval over 1 is exported; then the amount becomes 9 in the live graph, and the hash of the
record is replaced in the bundle, whose root and signature stay as they were. -/

private def approval (amount : Int) : EntityRecord :=
  { recordId := "r-1", stableId := "order-1", version := 1, kind := "approval"
    payload := Dict.set empty "amount" (.num amount), metadata := empty
    createdAt := "t0" }

private def editedBundle : AuditBundle :=
  { exportAuditBundle codeDigests [approval 1] [] "secret" with
    records := recordHashes codeDigests [approval 9] }

private theorem contentHash_approval :
    (approval 1).contentHash codeDigests ≠ (approval 9).contentHash codeDigests := by
  intro h
  have htext := codeDigests.collisionFree h
  exact absurd htext (by decide)

theorem not_bundleProvesGraph : ¬ BundleProvesGraph codeDigests := by
  intro hproves
  have hverifies : Verifies codeDigests "secret" editedBundle [approval 9] [] :=
    (verifies_iff codeDigests "secret" editedBundle _ _).2
      ⟨signatureValid_of_eq codeDigests rfl, fun _ => rfl, fun _ => rfl⟩
  have hsame := hproves "secret" [approval 1] [] editedBundle [approval 9] [] (fun _ => rfl)
    hverifies
  have hid := hsame.1 "r-1"
  rw [recordHashes, recordHashes] at hid
  exact contentHash_approval (Option.some.inj hid)

end Himmy
