import Himmy.Library.Lists
import Himmy.Entities.Projection
import Himmy.Entities.Registry

/-! # The version chains of the in-memory registry

A registry is sound when its records carry the ids that their kind, stable id and version give, and
the chain of a stable id lists its records by version. Registrations keep this, and a `new_version`
that expects the latest version of a sound registry always succeeds: it appends to its chain. -/

namespace Himmy

namespace EntityRegistry

variable (registry : EntityRegistry)

def getHistory (stableId : String) : List EntityRecord :=
  (registry.byStableId.find? stableId).getD []

/-- What registrations keep of a registry. -/
structure Sound (D : Digests) (registry : EntityRegistry) : Prop where
  recordId : ∀ {r}, r ∈ registry.records.items →
    r.recordId = EntityRecord.recordIdFor D r.stableId r.version r.kind
  mem_history : ∀ {r stableId}, r ∈ registry.getHistory stableId ↔
    r ∈ registry.records.items ∧ r.stableId = stableId
  sorted : ∀ stableId, (registry.getHistory stableId).Pairwise (fun r s => r.version ≤ s.version)

variable {registry} {registry' : EntityRegistry} {D : Digests} {record : EntityRecord}

theorem sound_empty (D : Digests) : Sound D {} where
  recordId h := by cases h
  mem_history := by
    intro r stableId
    simp [getHistory, Dict.find?, KeyedList.empty, KeyedList.get?]
  sorted _ := List.Pairwise.nil

theorem getLatest_eq (stableId : String) :
    registry.getLatest stableId = (registry.getHistory stableId).getLast? := by
  unfold getLatest getHistory
  cases registry.byStableId.find? stableId with
  | none => rfl
  | some versions => rfl

theorem le_currentVersion {stableId : String} {r : EntityRecord}
    (hsorted : (registry.getHistory stableId).Pairwise (fun r s => r.version ≤ s.version))
    (hr : r ∈ registry.getHistory stableId) : r.version ≤ registry.currentVersion stableId := by
  unfold currentVersion
  rw [getLatest_eq]
  cases hlast : (registry.getHistory stableId).getLast? with
  | none =>
    rw [List.getLast?_eq_none_iff] at hlast
    rw [hlast] at hr
    cases hr
  | some latest =>
    obtain ⟨init, hinit⟩ := List.getLast?_eq_some_iff.1 hlast
    rw [hinit] at hr hsorted
    rcases List.mem_append.1 hr with hr | hr
    · exact (List.pairwise_append.1 hsorted).2.2 r hr latest (List.mem_singleton_self _)
    · rw [List.mem_singleton.1 hr]

theorem Sound.le_currentVersion (h : Sound D registry) {stableId : String} {r : EntityRecord}
    (hr : r ∈ registry.getHistory stableId) : r.version ≤ registry.currentVersion stableId :=
  EntityRegistry.le_currentVersion (h.sorted stableId) hr

/-- The registry after an insertion, through what its methods read. -/
structure Inserted (registry : EntityRegistry) (record : EntityRecord)
    (registry' : EntityRegistry) : Prop where
  free : registry.get record.recordId = none
  records : registry'.records.items = registry.records.items ++ [record]
  own : registry'.getHistory record.stableId
    = (registry.getHistory record.stableId ++ [record]).mergeSort (fun r s => r.version ≤ s.version)
  others : ∀ stableId ≠ record.stableId,
    registry'.getHistory stableId = registry.getHistory stableId

theorem register_inserted {stored : EntityRecord}
    (h : registry.register record = .ok (registry', stored)) :
    registry' = registry ∨ (Inserted registry record registry' ∧ stored = record) := by
  unfold register at h
  split at h
  · split at h <;> cases h
    exact Or.inl rfl
  · next hnone =>
      cases h
      refine Or.inr ⟨⟨hnone, KeyedList.items_put_of_none _ _ hnone, ?_, fun stableId hne => ?_⟩, rfl⟩
      · simp only [getHistory, Dict.find?_set_self, Option.getD_some]
      · simp only [getHistory, Dict.find?_set_of_ne _ _ hne]

theorem register_free (h : registry.get record.recordId = none) :
    ∃ registry', registry.register record = .ok (registry', record)
      ∧ Inserted registry record registry' := by
  obtain ⟨registry', hregister, hrecords⟩ := register_of_none h
  refine ⟨registry', hregister, ?_⟩
  rcases register_inserted hregister with rfl | ⟨hinserted, -⟩
  · have hget := congrArg (fun l => KeyedList.get? l record.recordId) hrecords
    simp only [KeyedList.get?_put_self] at hget
    rw [EntityRegistry.get, hget] at h
    cases h
  · exact hinserted

theorem mem_mergeSort_concat (versions : List EntityRecord) (r : EntityRecord) :
    r ∈ (versions ++ [record]).mergeSort (fun r s => r.version ≤ s.version)
      ↔ r ∈ versions ∨ r = record := by
  rw [List.mem_mergeSort, List.mem_append, List.mem_singleton]

theorem Inserted.sound (h : Inserted registry record registry') (hsound : Sound D registry)
    (hid : record.recordId
      = EntityRecord.recordIdFor D record.stableId record.version record.kind) :
    Sound D registry' where
  recordId {r} hr := by
    rw [h.records] at hr
    rcases List.mem_append.1 hr with hr | hr
    · exact hsound.recordId hr
    · rw [List.mem_singleton.1 hr, hid]
  mem_history {r stableId} := by
    rw [h.records, List.mem_append, List.mem_singleton]
    by_cases hstable : stableId = record.stableId
    · subst hstable
      rw [h.own, mem_mergeSort_concat, hsound.mem_history]
      constructor
      · rintro (⟨hr, hstable⟩ | rfl)
        · exact ⟨Or.inl hr, hstable⟩
        · exact ⟨Or.inr rfl, rfl⟩
      · rintro ⟨hr | rfl, hstable⟩
        · exact Or.inl ⟨hr, hstable⟩
        · exact Or.inr rfl
    · rw [h.others stableId hstable, hsound.mem_history]
      constructor
      · rintro ⟨hr, hs⟩
        exact ⟨Or.inl hr, hs⟩
      · rintro ⟨hr | rfl, hs⟩
        · exact ⟨hr, hs⟩
        · exact absurd hs.symm hstable
  sorted stableId := by
    by_cases hstable : stableId = record.stableId
    · subst hstable
      rw [h.own]
      exact Lists.pairwise_mergeSort (r := fun r s : EntityRecord => r.version ≤ s.version)
        Int.le_trans (fun _ _ => Int.le_total _ _) (registry.getHistory record.stableId ++ [record])
    · rw [h.others stableId hstable]
      exact hsound.sorted stableId

/-- **Appending a version.** On a sound registry a `new_version` that expects the latest version, or
    none in particular, appends the next one to its chain. -/
theorem Sound.newVersion (huuid : Function.Injective D.uuid5) (h : Sound D registry)
    {call : NewVersion} (hexpected : ∀ expected, call.expectedVersion = some expected →
      expected = registry.currentVersion call.stableId) : ∃ registry', registry.newVersion D call
        = .ok (registry', call.record D (registry.currentVersion call.stableId + 1))
      ∧ Inserted registry (call.record D (registry.currentVersion call.stableId + 1)) registry'
      ∧ Sound D registry' ∧ registry'.getHistory call.stableId = registry.getHistory call.stableId
        ++ [call.record D (registry.currentVersion call.stableId + 1)] := by
  have hfree : registry.get (call.record D (registry.currentVersion call.stableId + 1)).recordId
      = none := by
    cases hget : registry.get
        (call.record D (registry.currentVersion call.stableId + 1)).recordId with
    | none => rfl
    | some r =>
      have hmem := KeyedList.mem_of_get? hget
      have hid := (h.recordId hmem).symm.trans (KeyedList.key_of_get? hget)
      obtain ⟨-, hstable, hversion⟩ := recordIdFor_inj huuid hid
      have hle := h.le_currentVersion (h.mem_history.2 ⟨hmem, hstable⟩)
      omega
  obtain ⟨registry', hregister, hinserted⟩ := register_free hfree
  refine ⟨registry', ?_, hinserted, hinserted.sound h rfl, ?_⟩
  · have hfilter : call.expectedVersion.filter
        (fun expected => expected ≠ registry.currentVersion call.stableId) = none := by
      rw [Option.filter_eq_none_iff]
      intro expected hsome
      simp [hexpected expected hsome]
    simp only [EntityRegistry.newVersion, hfilter, hregister]
  · have hown := hinserted.own
    rw [List.mergeSort_of_pairwise] at hown
    · exact hown
    · refine List.pairwise_append.2 ⟨(h.sorted _).imp decide_eq_true, List.pairwise_singleton _ _, ?_⟩
      intro r hr s hs
      rw [List.mem_singleton.1 hs, decide_eq_true_eq]
      exact Int.le_of_lt (Int.lt_add_one_of_le (h.le_currentVersion hr))

end EntityRegistry

end Himmy
