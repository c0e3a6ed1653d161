import Himmy.Governance.ConsentLedger

/-! # What a consent chain depends on

The history and the decision of a workspace, subject and purpose are read from the chain that their
stable id selects. A run of ledger calls is compared with the run of only those calls that are made
for one key: when no call writes a key that is confused with it, and none withdraws its purpose
without a workspace while only workspaces have consent for it, the two runs leave the same chain
(`history_isolated`). -/

namespace Himmy

open EntityRegistry

/-- A call of the ledger, with its clock readings. -/
inductive LedgerCall where
  | set (call : SetCall) (draws : SetDraws)
  | withdraw (call : WithdrawCall) (draws : Purpose → SetDraws)

namespace ConsentLedger

variable (D : Digests)

def perform (registry : EntityRegistry) : LedgerCall → EntityRegistry
  | .set call draws =>
    match ConsentLedger.set D registry call draws with
    | .ok (registry', _) => registry'
    | .error _ => registry
  | .withdraw call draws => (ConsentLedger.withdraw D registry call draws).1

def ledgerCalls : LTS EntityRegistry LedgerCall where
  step registry call := some (perform D registry call)

def writes (registry : EntityRegistry) : LedgerCall → List ConsentKey
  | .set call _ => [⟨call.workspaceId, call.subjectId, call.purpose.value⟩]
  | .withdraw call _ =>
    match withdrawnPurposes D registry call with
    | .ok purposes => purposes.map (fun p => ⟨call.workspaceId, call.subjectId, p.value⟩)
    | .error _ => []

end ConsentLedger

def LedgerCall.isFor (key : ConsentKey) : LedgerCall → Bool
  | .set call _ => key = ⟨call.workspaceId, call.subjectId, call.purpose.value⟩
  | .withdraw call _ => key.workspaceId = call.workspaceId && key.subjectId = call.subjectId
      && call.purpose.all (fun p => p.value = key.purpose)

namespace ConsentLedger

variable {D : Digests} {registry : EntityRegistry}

/-! ## One `set` -/

/-- The record that a `set` appends to a sound registry. -/
def setRecord (D : Digests) (registry : EntityRegistry) (call : SetCall) (draws : SetDraws) :
    EntityRecord :=
  let record := call.record draws.recordedAt
  let current := registry.currentVersion (consentStableId D record.key)
  (record.versionCall D current (draws.createdAt (maxConsentRetry - 1))).record D (current + 1)

/-- What a `set` leaves. -/
structure Appended (D : Digests) (registry : EntityRegistry) (call : SetCall) (draws : SetDraws)
    (registry' : EntityRegistry) : Prop where
  sound : Sound D registry'
  own : registry'.getHistory (consentStableId D (call.record draws.recordedAt).key)
    = registry.getHistory (consentStableId D (call.record draws.recordedAt).key)
      ++ [setRecord D registry call draws]
  others : ∀ stableId ≠ consentStableId D (call.record draws.recordedAt).key,
    registry'.getHistory stableId = registry.getHistory stableId
  records : registry'.records.items = registry.records.items ++ [setRecord D registry call draws]

theorem newVersion_appended (huuid : Function.Injective D.uuid5) (hsound : Sound D registry)
    (call : SetCall) (draws : SetDraws) :
    ∃ registry', registry.newVersion D ((call.record draws.recordedAt).versionCall D
        (registry.currentVersion (consentStableId D (call.record draws.recordedAt).key))
        (draws.createdAt (maxConsentRetry - 1))) = .ok (registry', setRecord D registry call draws)
      ∧ Appended D registry call draws registry' := by
  generalize hrecord : call.record draws.recordedAt = record
  generalize hversionCall : record.versionCall D (registry.currentVersion
    (consentStableId D record.key)) (draws.createdAt (maxConsentRetry - 1)) = versionCall
  have hstable : versionCall.stableId = consentStableId D record.key := by
    rw [← hversionCall, ConsentRecord.stableId_versionCall]
  have hset : setRecord D registry call draws
      = versionCall.record D (registry.currentVersion versionCall.stableId + 1) := by
    rw [setRecord, hrecord, hversionCall, hstable]
  have hexpected : ∀ expected, versionCall.expectedVersion = some expected →
      expected = registry.currentVersion versionCall.stableId := by
    intro expected h
    rw [← hversionCall] at h
    rw [hstable]
    exact (Option.some.inj h).symm
  obtain ⟨registry', hnew, hinserted, hsound', hown⟩ := hsound.newVersion huuid hexpected
  rw [← hset] at hnew hinserted hown
  rw [hstable] at hown
  have hothers := hinserted.others
  have hownStable : (setRecord D registry call draws).stableId = consentStableId D record.key := by
    rw [hset, NewVersion.record, EntityRecord.create, hstable]
  rw [hownStable] at hothers
  refine ⟨registry', hnew, hsound', ?_, ?_, hinserted.records⟩
  · rw [hrecord, hown]
  · rw [hrecord]
    exact hothers

theorem set_appended (huuid : Function.Injective D.uuid5) (hsound : Sound D registry)
    (call : SetCall) (draws : SetDraws) : ∃ registry', ConsentLedger.set D registry call draws
        = .ok (registry', setRecord D registry call draws)
      ∧ Appended D registry call draws registry' := by
  obtain ⟨registry', hnew, happended⟩ := newVersion_appended huuid hsound call draws
  refine ⟨registry', ?_, happended⟩
  rw [maxConsentRetry] at hnew
  rw [ConsentLedger.set, maxConsentRetry, attempts, hnew]

/-! ## The records of a ledger -/

/-- The spine record keeps a consent record. -/
structure Holds (D : Digests) (r : EntityRecord) (record : ConsentRecord) : Prop where
  kind_eq : r.kind = consentKind
  stableId_eq : r.stableId = consentStableId D record.key
  payload_eq : r.payload = record.payload
  metadata_eq : r.metadata = record.metadata

theorem holds_setRecord (registry : EntityRegistry) (call : SetCall) (draws : SetDraws) :
    Holds D (setRecord D registry call draws) (call.record draws.recordedAt) := by
  constructor <;>
    rw [setRecord, NewVersion.record, EntityRecord.create, ConsentRecord.versionCall]

theorem Holds.validate_eq {r : EntityRecord} {record : ConsentRecord} (h : Holds D r record) :
    ConsentRecord.validate r.payload = some record := by
  rw [h.payload_eq, ConsentRecord.validate_payload]

theorem Holds.purposeValue_eq {r : EntityRecord} {record : ConsentRecord} (h : Holds D r record) :
    purposeValue r = record.purpose.value := by
  have hne : record.purpose.value ≠ "" := by cases record.purpose <;> decide
  rw [purposeValue, h.metadata_eq]
  simp [ConsentRecord.metadata, Dict.find?_ofList_cons, Dict.find?_ofList_nil, Option.filter,
    Json.truthy, hne, Json.pyStr]

def Ledgered (D : Digests) (registry : EntityRegistry) (P : ConsentKey → Prop) : Prop :=
  ∀ r ∈ registry.records.items, ∃ record, Holds D r record ∧ P record.key

variable {P : ConsentKey → Prop} {registry' : EntityRegistry}

theorem Appended.ledgered {call : SetCall} {draws : SetDraws}
    (h : Appended D registry call draws registry')
    (hledgered : Ledgered D registry P) (hkey : P (call.record draws.recordedAt).key) :
    Ledgered D registry' P := by
  intro r hr
  rw [h.records] at hr
  rcases List.mem_append.1 hr with hr | hr
  · exact hledgered r hr
  · rw [List.mem_singleton.1 hr]
    exact ⟨_, holds_setRecord registry call draws, hkey⟩

theorem Holds.passes_purposeFilter_iff {r : EntityRecord} {record : ConsentRecord}
    (h : Holds D r record) {subjectId : String} {workspaceId : Option String} :
    (r.kind = consentKind && (purposeFilter subjectId workspaceId).all
        (fun f => r.metadata.str? f.1 = some f.2)) = true
      ↔ record.subjectId = subjectId ∧ ∀ w, workspaceId = some w → record.workspaceId = some w := by
  have hsubject : r.metadata.str? "subject_id" = some record.subjectId := by
    rw [h.metadata_eq]
    simp [ConsentRecord.metadata, Dict.str?, Dict.find?_ofList_cons, Dict.find?_ofList_nil]
  have hworkspace : r.metadata.str? "workspace_id" = record.workspaceId := by
    rw [h.metadata_eq]
    cases hw : record.workspaceId <;>
      simp [ConsentRecord.metadata, Dict.str?, Dict.find?_ofList_cons, Dict.find?_ofList_nil, hw,
        Json.ofOption]
  cases workspaceId with
  | none => simp [purposeFilter, h.kind_eq, hsubject]
  | some w => simp [purposeFilter, h.kind_eq, hsubject, hworkspace]

theorem mem_purposeValues (h : Ledgered D registry P) {subjectId : String}
    {workspaceId : Option String} {value : String} :
    value ∈ purposeValues registry subjectId workspaceId ↔ ∃ r ∈ registry.records.items,
      ∃ record, Holds D r record ∧ P record.key ∧ record.subjectId = subjectId
        ∧ (∀ w, workspaceId = some w → record.workspaceId = some w)
        ∧ record.purpose.value = value := by
  unfold purposeValues EntityRegistry.query
  simp only [List.mem_eraseDups, List.mem_filter, List.mem_map]
  constructor
  · rintro ⟨⟨r, ⟨hr, hfilter⟩, rfl⟩, -⟩
    obtain ⟨record, hholds, hP⟩ := h r hr
    obtain ⟨hsubject, hworkspace⟩ := hholds.passes_purposeFilter_iff.1 hfilter
    exact ⟨r, hr, record, hholds, hP, hsubject, hworkspace, hholds.purposeValue_eq.symm⟩
  · rintro ⟨r, hr, record, hholds, -, hsubject, hworkspace, rfl⟩
    refine ⟨⟨r, ⟨hr, hholds.passes_purposeFilter_iff.2 ⟨hsubject, hworkspace⟩⟩,
      hholds.purposeValue_eq⟩, ?_⟩
    cases record.purpose <;> decide

theorem purposesFor_eq (h : Ledgered D registry P) (subjectId : String)
    (workspaceId : Option String) :
    ∃ purposes, purposesFor registry subjectId workspaceId = .ok purposes ∧ purposes.Nodup
      ∧ ∀ p : Purpose, p ∈ purposes ↔ p.value ∈ purposeValues registry subjectId workspaceId := by
  have hmapM : ∀ values : List String, (∀ v ∈ values, ∃ p : Purpose, p.value = v) →
      ∃ purposes, values.mapM Purpose.ofValue = some purposes
        ∧ purposes.map Purpose.value = values := by
    intro values hvalues
    induction values with
    | nil => exact ⟨[], rfl, rfl⟩
    | cons v values ih =>
      obtain ⟨p, rfl⟩ := hvalues v (List.mem_cons_self ..)
      obtain ⟨purposes, hpurposes, hmap⟩ := ih (fun w hw => hvalues w (List.mem_cons_of_mem _ hw))
      exact ⟨p :: purposes, by simp [hpurposes], by simp [hmap]⟩
  obtain ⟨purposes, hpurposes, hmap⟩ := hmapM (purposeValues registry subjectId workspaceId)
    (fun v hv => by
      obtain ⟨r, -, record, -, -, -, -, hvalue⟩ := (mem_purposeValues h).1 hv
      exact ⟨_, hvalue⟩)
  refine ⟨purposes, by rw [purposesFor, hpurposes], ?_, fun p => ?_⟩
  · have hnodup : (purposeValues registry subjectId workspaceId).Nodup := Lists.nodup_eraseDups _
    rw [← hmap] at hnodup
    exact hnodup.of_map _
  · rw [← hmap, List.mem_map]
    constructor
    · exact fun hp => ⟨p, hp, rfl⟩
    · rintro ⟨q, hq, hvalue⟩
      rwa [Purpose.value_injective hvalue] at hq

/-! ## The chain of a key -/

theorem consentStableId_ne (huuid : Function.Injective D.uuid5) {key key' : ConsentKey}
    (hne : key ≠ key') (hplain : ¬ ConsentKey.Confused key key') :
    consentStableId D key ≠ consentStableId D key' :=
  fun h => hplain ⟨hne, (consentStableId_eq_iff huuid).1 h⟩

theorem currentVersion_congr {stableId : String}
    (h : registry'.getHistory stableId = registry.getHistory stableId) :
    registry'.currentVersion stableId = registry.currentVersion stableId := by
  rw [currentVersion, currentVersion, getLatest_eq, getLatest_eq, h]

theorem setRecord_congr {call : SetCall} {draws : SetDraws}
    (h : registry'.getHistory (consentStableId D (call.record draws.recordedAt).key)
      = registry.getHistory (consentStableId D (call.record draws.recordedAt).key)) :
    setRecord D registry' call draws = setRecord D registry call draws := by
  rw [setRecord, setRecord, currentVersion_congr h]

variable (call : WithdrawCall)

def keyFor (purpose : Purpose) : ConsentKey :=
  ⟨call.workspaceId, call.subjectId, purpose.value⟩

theorem keyFor_injective : Function.Injective (keyFor call) := by
  intro p q h
  exact Purpose.value_injective (congrArg ConsentKey.purpose h)

theorem key_record_setCall (purpose : Purpose) (recordedAt : String) :
    ((call.setCall purpose).record recordedAt).key = keyFor call purpose := by
  rw [WithdrawCall.setCall, SetCall.record, ConsentRecord.key, keyFor]

variable {key : ConsentKey} {purposes : List Purpose} {call : WithdrawCall}

theorem setAll_spec (huuid : Function.Injective D.uuid5)
    (draws : Purpose → SetDraws) (hnodup : purposes.Nodup)
    (hsound : Sound D registry) (hledgered : Ledgered D registry P)
    (hP : ∀ p ∈ purposes, P (keyFor call p))
    (hplain : ∀ p ∈ purposes, ¬ ConsentKey.Confused (keyFor call p) key) :
    Sound D (setAll D call draws registry purposes).1
      ∧ Ledgered D (setAll D call draws registry purposes).1 P
      ∧ ((∀ p ∈ purposes, keyFor call p ≠ key) →
        (setAll D call draws registry purposes).1.getHistory (consentStableId D key)
          = registry.getHistory (consentStableId D key)) ∧ ∀ p ∈ purposes, keyFor call p = key →
        (setAll D call draws registry purposes).1.getHistory (consentStableId D key)
          = registry.getHistory (consentStableId D key)
            ++ [setRecord D registry (call.setCall p) (draws p)] := by
  induction purposes generalizing registry with
  | nil => exact ⟨hsound, hledgered, fun _ => rfl, fun p hp => by cases hp⟩
  | cons q purposes ih =>
    obtain ⟨registry', hset, happended⟩ := set_appended huuid hsound (call.setCall q) (draws q)
    have hq := key_record_setCall call q (draws q).recordedAt
    obtain ⟨hqnot, hnodup⟩ := List.nodup_cons.1 hnodup
    have hledgered' := happended.ledgered hledgered
      (by rw [hq]; exact hP q (List.mem_cons_self ..))
    obtain ⟨hsoundAll, hledgeredAll, hothers, hown⟩ := ih hnodup happended.sound hledgered'
      (fun p hp => hP p (List.mem_cons_of_mem _ hp))
      (fun p hp => hplain p (List.mem_cons_of_mem _ hp))
    have hfst : (setAll D call draws registry (q :: purposes)).1
        = (setAll D call draws registry' purposes).1 := by
      rw [setAll, hset]
    have hkept : keyFor call q ≠ key →
        registry'.getHistory (consentStableId D key) = registry.getHistory (consentStableId D key) := by
      intro hne
      refine happended.others _ ?_
      rw [hq]
      exact (consentStableId_ne huuid hne (hplain q (List.mem_cons_self ..))).symm
    rw [hfst]
    refine ⟨hsoundAll, hledgeredAll, fun hne => ?_, fun p hp hkey => ?_⟩
    · rw [hothers (fun p hp => hne p (List.mem_cons_of_mem _ hp)),
        hkept (hne q (List.mem_cons_self ..))]
    · rcases List.mem_cons.1 hp with rfl | hp
      · have hnone : ∀ p' ∈ purposes, keyFor call p' ≠ key := fun p' hp' hkey' =>
          hqnot (keyFor_injective call (hkey'.trans hkey.symm) ▸ hp')
        have happ := happended.own
        rw [hq, hkey] at happ
        rw [hothers hnone, happ]
      · have hne : keyFor call q ≠ key := fun hkey' =>
          hqnot (keyFor_injective call (hkey'.trans hkey.symm) ▸ hp)
        rw [hown p hp hkey, hkept hne, setRecord_congr]
        rw [key_record_setCall, hkey]
        exact hkept hne

/-! ## Two runs -/

/-- A call writes no key that is confused with the key, and withdraws the purpose for the key only
    when the key has a record. -/
structure Separate (D : Digests) (key : ConsentKey) (registry : EntityRegistry)
    (call : LedgerCall) : Prop where
  plain : ∀ k ∈ writes D registry call, ¬ ConsentKey.Confused k key
  recorded : ∀ w draws, call = .withdraw w draws → key ∈ writes D registry call →
    registry.getHistory (consentStableId D key) ≠ []

/-- The registry of a run, and that of the calls for the key alone. -/
structure SameChain (D : Digests) (key : ConsentKey) (r r₀ : EntityRegistry) : Prop where
  sound : Sound D r
  sound₀ : Sound D r₀
  ledgered : Ledgered D r (fun k => ¬ ConsentKey.Confused k key)
  ledgered₀ : Ledgered D r₀ (fun k => k = key)
  history : r.getHistory (consentStableId D key) = r₀.getHistory (consentStableId D key)

theorem sameChain_empty (D : Digests) (key : ConsentKey) : SameChain D key {} {} :=
  ⟨sound_empty D, sound_empty D, (fun _ hr => nomatch hr), (fun _ hr => nomatch hr), rfl⟩

theorem latest_eq (hsound : Sound D registry)
    (hledgered : Ledgered D registry P) (key : ConsentKey) :
    ∃ existing, latest D registry key = .ok existing
      ∧ (existing.isSome = true ↔ registry.getHistory (consentStableId D key) ≠ []) := by
  unfold latest
  rw [getLatest_eq]
  cases hlast : (registry.getHistory (consentStableId D key)).getLast? with
  | none => exact ⟨none, rfl, by simpa using List.getLast?_eq_none_iff.1 hlast⟩
  | some r =>
    have hmem := List.mem_of_getLast? hlast
    obtain ⟨record, hholds, -⟩ := hledgered r (hsound.mem_history.1 hmem).1
    refine ⟨some record, by simp only [hholds.validate_eq], ?_⟩
    simp only [Option.isSome_some, true_iff]
    exact List.ne_nil_of_mem hmem

theorem withdrawnPurposes_eq (hsound : Sound D registry)
    (hledgered : Ledgered D registry P) (call : WithdrawCall) :
    ∃ purposes, withdrawnPurposes D registry call = .ok purposes ∧ purposes.Nodup
      ∧ ∀ p, p ∈ purposes ↔ (∀ q, call.purpose = some q → p = q
          ∧ registry.getHistory (consentStableId D (keyFor call q)) ≠ []) ∧ (call.purpose = none →
          p.value ∈ purposeValues registry call.subjectId call.workspaceId) := by
  unfold withdrawnPurposes
  cases call.purpose with
  | none =>
    obtain ⟨purposes, hpurposes, hnodup, hmem⟩ := purposesFor_eq hledgered call.subjectId
      call.workspaceId
    exact ⟨purposes, hpurposes, hnodup, fun p => by simp [hmem]⟩
  | some q =>
    obtain ⟨existing, hlatest, hsome⟩ := latest_eq hsound hledgered (keyFor call q)
    rw [keyFor] at hlatest
    simp only [hlatest, Except.map]
    by_cases hexists : existing.isSome = true
    · refine ⟨[q], by rw [if_pos hexists], List.nodup_singleton q, fun p => ?_⟩
      simp [hsome.1 hexists]
    · refine ⟨[], by rw [if_neg hexists], List.nodup_nil, fun p => ?_⟩
      have hempty : registry.getHistory (consentStableId D (keyFor call q)) = [] :=
        not_not.1 (fun hne => hexists (hsome.2 hne))
      simp [hempty]

theorem mem_withdrawn_of_history (hsound : Sound D registry) (hledgered : Ledgered D registry P)
    (hown : ∀ k, P k → consentStableId D k = consentStableId D key → k = key)
    {draws : Purpose → SetDraws} (hfor : LedgerCall.isFor key (.withdraw call draws) = true)
    (hpurposes : withdrawnPurposes D registry call = .ok purposes)
    (hhistory : registry.getHistory (consentStableId D key) ≠ []) {p : Purpose}
    (hp : keyFor call p = key) : p ∈ purposes := by
  obtain ⟨purposes', hpurposes', -, hmem⟩ := withdrawnPurposes_eq hsound hledgered call
  rw [hpurposes] at hpurposes'
  cases hpurposes'
  refine (hmem p).2 ⟨fun q hq => ?_, fun hnone => ?_⟩
  · have hvalue : q.value = key.purpose := by
      simp only [LedgerCall.isFor, hq, Option.all_some, Bool.and_eq_true, decide_eq_true_eq] at hfor
      exact hfor.2
    have hpq : p = q := Purpose.value_injective (by rw [hvalue, ← hp, keyFor])
    rw [← hpq, hp]
    exact ⟨rfl, hhistory⟩
  · obtain ⟨r, hr⟩ := List.exists_mem_of_ne_nil _ hhistory
    obtain ⟨hitem, hstable⟩ := hsound.mem_history.1 hr
    obtain ⟨record, hholds, hP⟩ := hledgered r hitem
    have hkey : record.key = key := hown _ hP (by rw [← hholds.stableId_eq, hstable])
    rw [← hp, ConsentRecord.key, keyFor] at hkey
    obtain ⟨hworkspace, hsubject, hvalue⟩ := ConsentKey.mk.inj hkey
    exact (mem_purposeValues hledgered).2 ⟨r, hitem, record, hholds, hP, hsubject,
      fun w hw => by rw [hworkspace, hw], hvalue⟩

theorem keyFor_of_withdrawn (hsound : Sound D registry)
    (hledgered : Ledgered D registry (fun k => k = key))
    {draws : Purpose → SetDraws} (hfor : LedgerCall.isFor key (.withdraw call draws) = true)
    (hpurposes : withdrawnPurposes D registry call = .ok purposes)
    {p : Purpose} (hp : p ∈ purposes) :
    keyFor call p = key ∧ registry.getHistory (consentStableId D key) ≠ [] := by
  obtain ⟨purposes', hpurposes', -, hmem⟩ := withdrawnPurposes_eq hsound hledgered call
  rw [hpurposes] at hpurposes'
  cases hpurposes'
  obtain ⟨hsome, hnone⟩ := (hmem p).1 hp
  simp only [LedgerCall.isFor, Bool.and_eq_true, decide_eq_true_eq] at hfor
  obtain ⟨⟨hworkspace, hsubject⟩, hpurpose⟩ := hfor
  have hkeyFor : p.value = key.purpose → keyFor call p = key := by
    intro hvalue
    rw [keyFor, hvalue, ← hworkspace, ← hsubject]
  cases hcall : call.purpose with
  | some q =>
    obtain ⟨rfl, hhistory⟩ := hsome q hcall
    rw [hcall, Option.all_some, decide_eq_true_eq] at hpurpose
    rw [hkeyFor hpurpose] at hhistory
    exact ⟨hkeyFor hpurpose, hhistory⟩
  | none =>
    obtain ⟨r, hitem, record, hholds, hkey, -, -, hvalue⟩ :=
      (mem_purposeValues hledgered).1 (hnone hcall)
    refine ⟨hkeyFor (by rw [← hvalue, ← hkey, ConsentRecord.key]), ?_⟩
    exact List.ne_nil_of_mem (hsound.mem_history.2 ⟨hitem, by rw [hholds.stableId_eq, hkey]⟩)

theorem withdraw_spec (huuid : Function.Injective D.uuid5)
    (hsound : Sound D registry) (hledgered : Ledgered D registry P) (draws : Purpose → SetDraws)
    (hpurposes : withdrawnPurposes D registry call = .ok purposes)
    (hP : ∀ p ∈ purposes, P (keyFor call p))
    (hplain : ∀ p ∈ purposes, ¬ ConsentKey.Confused (keyFor call p) key) :
    Sound D (perform D registry (.withdraw call draws))
      ∧ Ledgered D (perform D registry (.withdraw call draws)) P
      ∧ ((∀ p ∈ purposes, keyFor call p ≠ key) →
        (perform D registry (.withdraw call draws)).getHistory (consentStableId D key)
          = registry.getHistory (consentStableId D key)) ∧ ∀ p ∈ purposes, keyFor call p = key →
        (perform D registry (.withdraw call draws)).getHistory (consentStableId D key)
          = registry.getHistory (consentStableId D key)
            ++ [setRecord D registry (call.setCall p) (draws p)] := by
  obtain ⟨purposes', hpurposes', hnodup, -⟩ := withdrawnPurposes_eq hsound hledgered call
  rw [hpurposes] at hpurposes'
  cases hpurposes'
  have hperform : perform D registry (.withdraw call draws)
      = (setAll D call draws registry purposes).1 := by
    rw [perform, withdraw, hpurposes]
  rw [hperform]
  exact setAll_spec huuid draws hnodup hsound hledgered hP hplain

variable {r r₀ : EntityRegistry}

theorem SameChain.skip (huuid : Function.Injective D.uuid5)
    (h : SameChain D key r r₀) {call : LedgerCall}
    (hseparate : Separate D key r call) (hfor : call.isFor key = false) :
    SameChain D key (perform D r call) r₀ := by
  cases call with
  | set call draws =>
    obtain ⟨r', hset, happended⟩ := set_appended huuid h.sound call draws
    have hkey : (call.record draws.recordedAt).key
        = ⟨call.workspaceId, call.subjectId, call.purpose.value⟩ := by
      rw [SetCall.record, ConsentRecord.key]
    have hplain := hseparate.plain _ (List.mem_singleton_self _)
    have hne : (call.record draws.recordedAt).key ≠ key := by
      rw [hkey]
      intro heq
      simp [LedgerCall.isFor, heq] at hfor
    rw [← hkey] at hplain
    rw [show perform D r (.set call draws) = r' by rw [perform, hset]]
    refine ⟨happended.sound, h.sound₀, happended.ledgered h.ledgered hplain, h.ledgered₀, ?_⟩
    rw [happended.others _ (consentStableId_ne huuid hne hplain).symm, h.history]
  | withdraw call draws =>
    obtain ⟨purposes, hpurposes, -, hmem⟩ := withdrawnPurposes_eq h.sound h.ledgered call
    have hplain : ∀ p ∈ purposes, ¬ ConsentKey.Confused (keyFor call p) key := fun p hp =>
      hseparate.plain _ (by rw [writes, hpurposes]; exact List.mem_map.2 ⟨p, hp, rfl⟩)
    obtain ⟨hsound, hledgered, hother, -⟩ := withdraw_spec huuid h.sound h.ledgered draws hpurposes
      hplain hplain
    refine ⟨hsound, h.sound₀, hledgered, h.ledgered₀, ?_⟩
    rw [hother (fun p hp hkey => ?_), h.history]
    have hfor' : LedgerCall.isFor key (.withdraw call draws) = true := by
      rw [← hkey]
      simp only [LedgerCall.isFor, keyFor, decide_true, Bool.true_and]
      cases hpurpose : call.purpose with
      | none => rfl
      | some q => simp [((hmem p).1 hp).1 q hpurpose]
    rw [hfor'] at hfor
    cases hfor

theorem SameChain.keep (huuid : Function.Injective D.uuid5)
    (h : SameChain D key r r₀) {call : LedgerCall}
    (hseparate : Separate D key r call) (hfor : call.isFor key = true) :
    SameChain D key (perform D r call) (perform D r₀ call) := by
  cases call with
  | set call draws =>
    obtain ⟨r', hset, happended⟩ := set_appended huuid h.sound call draws
    obtain ⟨r₀', hset₀, happended₀⟩ := set_appended huuid h.sound₀ call draws
    have hkey : (call.record draws.recordedAt).key = key := by
      rw [SetCall.record, ConsentRecord.key, ← of_decide_eq_true hfor]
    have hplain : ¬ ConsentKey.Confused (call.record draws.recordedAt).key key :=
      fun hconfused => hconfused.1 hkey
    have hsame : setRecord D r call draws = setRecord D r₀ call draws :=
      setRecord_congr (by rw [hkey, h.history])
    have hown := happended.own
    have hown₀ := happended₀.own
    rw [hkey] at hown hown₀
    rw [show perform D r (.set call draws) = r' by rw [perform, hset],
      show perform D r₀ (.set call draws) = r₀' by rw [perform, hset₀]]
    refine ⟨happended.sound, happended₀.sound, happended.ledgered h.ledgered hplain,
      happended₀.ledgered h.ledgered₀ hkey, ?_⟩
    rw [hown, hown₀, h.history, hsame]
  | withdraw call draws =>
    obtain ⟨purposes, hpurposes, -, -⟩ := withdrawnPurposes_eq h.sound h.ledgered call
    obtain ⟨purposes₀, hpurposes₀, -, -⟩ := withdrawnPurposes_eq h.sound₀ h.ledgered₀ call
    have hplain : ∀ p ∈ purposes, ¬ ConsentKey.Confused (keyFor call p) key := fun p hp =>
      hseparate.plain _ (by rw [writes, hpurposes]; exact List.mem_map.2 ⟨p, hp, rfl⟩)
    have hkeys₀ : ∀ p ∈ purposes₀, keyFor call p = key := fun p hp =>
      (keyFor_of_withdrawn h.sound₀ h.ledgered₀ hfor hpurposes₀ hp).1
    obtain ⟨hsound, hledgered, hother, hown⟩ := withdraw_spec huuid h.sound h.ledgered draws
      hpurposes hplain hplain
    obtain ⟨hsound₀, hledgered₀, hother₀, hown₀⟩ := withdraw_spec huuid h.sound₀ h.ledgered₀ draws
      hpurposes₀ hkeys₀ (fun p hp hconfused => hconfused.1 (hkeys₀ p hp))
    refine ⟨hsound, hsound₀, hledgered, hledgered₀, ?_⟩
    by_cases hwithdrawn : ∃ p ∈ purposes, keyFor call p = key
    · obtain ⟨p, hp, hkey⟩ := hwithdrawn
      have hhistory := hseparate.recorded call draws rfl
        (by rw [writes, hpurposes]; exact List.mem_map.2 ⟨p, hp, hkey⟩)
      have hp₀ : p ∈ purposes₀ := by
        refine mem_withdrawn_of_history h.sound₀ h.ledgered₀ (fun k hk _ => hk) hfor hpurposes₀ ?_
          hkey
        rw [← h.history]
        exact hhistory
      rw [hown p hp hkey, hown₀ p hp₀ hkey, h.history, setRecord_congr]
      rw [key_record_setCall, hkey, h.history]
    · have hnone : ∀ p ∈ purposes, keyFor call p ≠ key := fun p hp hkey =>
        hwithdrawn ⟨p, hp, hkey⟩
      rw [hother hnone, h.history, hother₀]
      intro p hp₀ hkey
      refine hnone p ?_ hkey
      refine mem_withdrawn_of_history h.sound h.ledgered (fun k hk hid => ?_) hfor hpurposes ?_ hkey
      · exact not_not.1 (fun hne => consentStableId_ne huuid hne hk hid)
      · rw [h.history]
        exact (keyFor_of_withdrawn h.sound₀ h.ledgered₀ hfor hpurposes₀ hp₀).2

/-! ## Isolation -/

theorem reads_congr
    (h : r.getHistory (consentStableId D key) = r₀.getHistory (consentStableId D key)) :
    history D r key = history D r₀ key ∧ state D r key = state D r₀ key := by
  constructor
  · rw [history, history, h]
  · rw [state, state, getLatest_eq, getLatest_eq, h]

/-- A run leaves the key as the run of the calls for the key leaves it. -/
structure Isolated (D : Digests) (workspaceId : Option String) (subjectId : String)
    (purpose : Purpose) (r r₀ : EntityRegistry) : Prop where
  history_eq : history D r ⟨workspaceId, subjectId, purpose.value⟩
    = history D r₀ ⟨workspaceId, subjectId, purpose.value⟩
  decision_eq : ∀ policy surface, decision D r policy workspaceId subjectId purpose surface
    = decision D r₀ policy workspaceId subjectId purpose surface

/-- **Consent chains.** Two keys have one chain only when they are one key, unless they are
    confused; and a run of calls that are separate from a key leaves it as the calls for it do. -/
theorem consentChains_apart (huuid : Function.Injective D.uuid5) :
    (∀ key key' : ConsentKey, (consentStableId D key = consentStableId D key' → key = key')
      ↔ ¬ ConsentKey.Confused key key')
    ∧ ∀ (workspaceId : Option String) (subjectId : String) (purpose : Purpose)
        (calls : List LedgerCall) (r : EntityRegistry), (ledgerCalls D).exec {} calls = some r →
      (ledgerCalls D).AlongRun (Separate D ⟨workspaceId, subjectId, purpose.value⟩) {} calls →
      ∃ r₀, (ledgerCalls D).exec {}
          (calls.filter (LedgerCall.isFor ⟨workspaceId, subjectId, purpose.value⟩)) = some r₀
        ∧ Isolated D workspaceId subjectId purpose r r₀ := by
  refine ⟨fun key key' => ?_, fun workspaceId subjectId purpose calls r hrun hseparate => ?_⟩
  · rw [consentStableId_eq_iff huuid]
    constructor
    · exact fun h hconfused => hconfused.1 (h hconfused.2)
    · exact fun h hpieces => not_not.1 (fun hne => h ⟨hne, hpieces⟩)
  · have hkeep : ∀ s s₀ call s', SameChain D ⟨workspaceId, subjectId, purpose.value⟩ s s₀ →
        Separate D ⟨workspaceId, subjectId, purpose.value⟩ s call →
        LedgerCall.isFor ⟨workspaceId, subjectId, purpose.value⟩ call = true →
        (ledgerCalls D).step s call = some s' →
        ∃ s₀', (ledgerCalls D).step s₀ call = some s₀'
          ∧ SameChain D ⟨workspaceId, subjectId, purpose.value⟩ s' s₀' := by
      intro s s₀ call s' hR hC hfor hstep
      cases hstep
      exact ⟨_, rfl, hR.keep huuid hC hfor⟩
    have hskip : ∀ s s₀ call s', SameChain D ⟨workspaceId, subjectId, purpose.value⟩ s s₀ →
        Separate D ⟨workspaceId, subjectId, purpose.value⟩ s call →
        LedgerCall.isFor ⟨workspaceId, subjectId, purpose.value⟩ call = false →
        (ledgerCalls D).step s call = some s' →
        SameChain D ⟨workspaceId, subjectId, purpose.value⟩ s' s₀ := by
      intro s s₀ call s' hR hC hfor hstep
      cases hstep
      exact hR.skip huuid hC hfor
    obtain ⟨r₀, hrun₀, hsame⟩ := LTS.exec_filter (ledgerCalls D) hkeep hskip (sameChain_empty D _)
      hseparate hrun
    obtain ⟨hhistory, hstate⟩ := reads_congr hsame.history
    exact ⟨r₀, hrun₀, hhistory, fun policy surface => by rw [decision, decision, hstate]⟩

/-! ### A tenant whose name contains the separator -/

/-- The subject `eu|bob` of `acme`, and the subject `bob` of `acme|eu`, have one chain. -/
theorem consentChains_meet : consentStableId codeDigests ⟨some "acme", "eu|bob", "retain"⟩
        = consentStableId codeDigests ⟨some "acme|eu", "bob", "retain"⟩
      ∧ (⟨some "acme", "eu|bob", "retain"⟩ : ConsentKey) ≠ ⟨some "acme|eu", "bob", "retain"⟩ :=
  ⟨(consentStableId_eq_iff hexText_injective).2 (by decide), by decide⟩

def grantIn (workspaceId : String) : LedgerCall :=
  .set { subjectId := "bob", purpose := .retain, state := .granted, workspaceId := some workspaceId }
    { recordedAt := "2026-01-01", createdAt := fun _ => "2026-01-01" }

theorem separate_grantIn {workspaceId : String} (h : '|' ∉ workspaceId.toList)
    (registry : EntityRegistry) :
    Separate codeDigests ⟨some "acme", "bob", "retain"⟩ registry (grantIn workspaceId) where
  plain k hk := by
    rw [grantIn, writes] at hk
    rw [List.mem_singleton.1 hk]
    refine ConsentKey.not_confused_of_plain (fun p hp => ?_) (by decide)
    rcases List.mem_cons.1 hp with rfl | hp
    · exact h
    · have hothers : ∀ p ∈ ["bob", "retain"], '|' ∉ p.toList := by decide
      exact hothers p hp
  recorded w draws hcall := by cases hcall

/-- Two tenants with plain names. -/
theorem consentChains_apart_plain : consentStableId codeDigests ⟨some "acme", "bob", "retain"⟩
        ≠ consentStableId codeDigests ⟨some "globex", "bob", "retain"⟩
      ∧ ∃ r r₀, (ledgerCalls codeDigests).exec {} [grantIn "acme", grantIn "globex"] = some r
        ∧ (ledgerCalls codeDigests).exec {} [grantIn "acme"] = some r₀
        ∧ Isolated codeDigests (some "acme") "bob" .retain r r₀ := by
  obtain ⟨hpairs, hruns⟩ := consentChains_apart hexText_injective (D := codeDigests)
  constructor
  · intro heq
    exact absurd ((hpairs _ _).2
      (ConsentKey.not_confused_of_plain (by decide) (by decide)) heq) (by decide)
  · obtain ⟨r₀, hrun₀, hisolated⟩ := hruns (some "acme") "bob" .retain
      [grantIn "acme", grantIn "globex"] _ rfl
      ⟨separate_grantIn (by decide) _, fun _ _ => ⟨separate_grantIn (by decide) _, fun _ _ => trivial⟩⟩
    exact ⟨_, r₀, rfl, hrun₀, hisolated⟩

end ConsentLedger

end Himmy
