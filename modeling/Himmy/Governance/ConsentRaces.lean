import Himmy.Governance.ConsentIsolation
import Mathlib.Data.String.Basic

/-! # Concurrent consent writers, and the latest consent

A `set` reads the latest version and then appends the next one, and starts over when another writer
was there first. Any number of writers interleave these steps; a withdrawal is a writer of several
`set`s, one after another. What a call returned is in the history under a version of its own, and
the decision looks at the state of the version with the highest number, but neither at its
`expires_at` nor, when nothing is recorded, at anything but the defaults
(`decision_latestValid_iff`). -/

namespace Himmy

open EntityRegistry

/-! ## Writers -/

/-- A call of the ledger; `grant` and `deny` are `set`s. -/
inductive ConsentWrite where
  | set (call : SetCall)
  | withdraw (call : WithdrawCall)

/-- A `set` under way: its call and clock reading, the attempts left, and the version it read. -/
structure SetAttempt where
  call : SetCall
  recordedAt : String
  left : Nat
  expected : Option Int := none

/-- What a `set` returned. -/
structure SetReturn where
  call : SetCall
  recordedAt : String
  stored : EntityRecord

/-- A call under way: its `set`s to come, the current one, and what the others returned. -/
structure ConsentWriter where
  todo : List SetCall
  current : Option SetAttempt := none
  returned : List SetReturn := []
  raised : Bool := false

def ConsentWrite.sets (D : Digests) (registry : EntityRegistry) :
    ConsentWrite → Except ConsentLedgerError (List SetCall)
  | .set call => .ok [call]
  | .withdraw call =>
    (ConsentLedger.withdrawnPurposes D registry call).map (List.map call.setCall)

namespace ConsentWriter

/-- The next `set` makes its record. -/
def start (w : ConsentWriter) (recordedAt : String) : Option ConsentWriter :=
  match w.raised, w.current, w.todo with
  | false, none, call :: todo =>
    some { w with todo, current := some { call, recordedAt, left := maxConsentRetry } }
  | _, _, _ => none

def read (D : Digests) (registry : EntityRegistry) (w : ConsentWriter) : Option ConsentWriter :=
  match w.current with
  | some { call, recordedAt, left, expected := none } =>
    let current := registry.currentVersion (consentStableId D (call.record recordedAt).key)
    some { w with current := some { call, recordedAt, left, expected := some current } }
  | _ => none

/-- An attempt calls `new_version`: it returns the record, or another writer was there first. -/
def write (D : Digests) (registry : EntityRegistry) (w : ConsentWriter) (createdAt : String) :
    Option (EntityRegistry × ConsentWriter) :=
  match w.current with
  | some { call, recordedAt, left, expected := some expected } =>
    match registry.newVersion D ((call.record recordedAt).versionCall D expected createdAt) with
    | .ok (registry', stored) =>
      some (registry', { w with
        current := none
        returned := w.returned ++ [{ call, recordedAt, stored }] })
    | .error _ =>
      if left ≤ 1 then some (registry, { w with current := none, raised := true })
      else some (registry, { w with
        current := some { call, recordedAt, left := left - 1 } })
  | _ => none

end ConsentWriter

/-- The registry and its writers. -/
structure ConsentRaces where
  registry : EntityRegistry := {}
  writers : List ConsentWriter := []

/-- A step of a writer. -/
inductive RaceStep where
  | begin (call : ConsentWrite)
  | start (i : Nat) (recordedAt : String)
  | read (i : Nat)
  | write (i : Nat) (createdAt : String)

namespace ConsentRaces

variable (D : Digests) (s : ConsentRaces)

def step : RaceStep → Option ConsentRaces
  | .begin call =>
    match call.sets D s.registry with
    | .ok todo => some { s with writers := s.writers ++ [{ todo }] }
    | .error _ => some s
  | .start i recordedAt => do
      let w ← s.writers[i]?
      let w' ← w.start recordedAt
      return { s with writers := s.writers.set i w' }
  | .read i => do
      let w ← s.writers[i]?
      let w' ← w.read D s.registry
      return { s with writers := s.writers.set i w' }
  | .write i createdAt => do
      let w ← s.writers[i]?
      let (registry, w') ← w.write D s.registry createdAt
      return { registry, writers := s.writers.set i w' }

def races : LTS ConsentRaces RaceStep where
  step := step D

def returns : List SetReturn := s.writers.flatMap ConsentWriter.returned

variable {D} {s} {s' : ConsentRaces}

/-! ## What a step does -/

/-- A `set` that returns has appended its record to the chain of its key. -/
structure Written (D : Digests) (registry : EntityRegistry) (done : SetReturn)
    (registry' : EntityRegistry) : Prop where
  holds : ConsentLedger.Holds D done.stored (done.call.record done.recordedAt)
  inserted : Inserted registry done.stored registry'
  recordId : done.stored.recordId
    = EntityRecord.recordIdFor D done.stored.stableId done.stored.version done.stored.kind

theorem holds_versionCall (record : ConsentRecord) (expected version : Int) (createdAt : String) :
    ConsentLedger.Holds D ((record.versionCall D expected createdAt).record D version) record := by
  constructor <;> rw [NewVersion.record, EntityRecord.create, ConsentRecord.versionCall]

variable {w w' : ConsentWriter}

theorem write_cases (huuid : Function.Injective D.uuid5) {registry registry' : EntityRegistry}
    (hsound : Sound D registry) {createdAt : String}
    (h : w.write D registry createdAt = some (registry', w')) :
    (registry' = registry ∧ w'.returned = w.returned)
      ∨ ∃ done, Written D registry done registry' ∧ w'.returned = w.returned ++ [done] := by
  unfold ConsentWriter.write at h
  split at h
  · next call recordedAt left expected hcurrent =>
      generalize hcall : (call.record recordedAt).versionCall D expected createdAt = versionCall at h
      split at h
      · next registry'' stored hnew =>
          cases h
          right
          have hstable : versionCall.stableId = consentStableId D (call.record recordedAt).key := by
            rw [← hcall, ConsentRecord.stableId_versionCall]
          have hexpected : ∀ e, versionCall.expectedVersion = some e →
              e = registry.currentVersion versionCall.stableId := by
            intro e he
            by_contra hne
            simp [EntityRegistry.newVersion, he, Option.filter, hne] at hnew
          obtain ⟨registry₁, hnew₁, hinserted, -, -⟩ := hsound.newVersion huuid hexpected
          rw [hnew₁] at hnew
          cases hnew
          refine ⟨⟨call, recordedAt, _⟩, ⟨?_, hinserted, rfl⟩, rfl⟩
          rw [← hcall]
          exact holds_versionCall _ _ _ _
      · left
        split at h <;> cases h <;> exact ⟨rfl, rfl⟩
  · cases h

theorem returned_of_start {recordedAt : String}
    (h : w.start recordedAt = some w') : w'.returned = w.returned := by
  unfold ConsentWriter.start at h
  split at h <;> cases h
  rfl

theorem returned_of_read {registry : EntityRegistry}
    (h : w.read D registry = some w') : w'.returned = w.returned := by
  unfold ConsentWriter.read at h
  split at h <;> cases h
  rfl

theorem returns_set {i : Nat} (hw : s.writers[i]? = some w) (h : w'.returned = w.returned) :
    ((s.writers.set i w').flatMap ConsentWriter.returned).Perm (returns s) := by
  have hperm := Parties.flatMap_set_perm (f := ConsentWriter.returned) (l := []) hw (by simpa using h)
  rwa [List.append_nil] at hperm

theorem step_cases (huuid : Function.Injective D.uuid5) (hsound : Sound D s.registry)
    {a : RaceStep} (h : step D s a = some s') :
    (s'.registry = s.registry ∧ (returns s').Perm (returns s))
      ∨ ∃ done, Written D s.registry done s'.registry
        ∧ (returns s').Perm (returns s ++ [done]) := by
  cases a with
  | begin call =>
    left
    simp only [step] at h
    split at h <;> cases h
    · refine ⟨rfl, ?_⟩
      simp [returns]
    · exact ⟨rfl, List.Perm.refl _⟩
  | start i recordedAt =>
    obtain ⟨w, hw, h⟩ := Option.bind_eq_some_iff.1 h
    obtain ⟨w', hstart, h⟩ := Option.bind_eq_some_iff.1 h
    cases h
    exact Or.inl ⟨rfl, returns_set hw (returned_of_start hstart)⟩
  | read i =>
    obtain ⟨w, hw, h⟩ := Option.bind_eq_some_iff.1 h
    obtain ⟨w', hread, h⟩ := Option.bind_eq_some_iff.1 h
    cases h
    exact Or.inl ⟨rfl, returns_set hw (returned_of_read hread)⟩
  | write i createdAt =>
    obtain ⟨w, hw, h⟩ := Option.bind_eq_some_iff.1 h
    obtain ⟨⟨registry, w'⟩, hwrite, h⟩ := Option.bind_eq_some_iff.1 h
    cases h
    rcases write_cases huuid hsound hwrite with ⟨rfl, hreturned⟩ | ⟨done, hwritten, hreturned⟩
    · exact Or.inl ⟨rfl, returns_set hw hreturned⟩
    · exact Or.inr ⟨done, hwritten, Parties.flatMap_set_perm hw hreturned⟩

/-! ## What every run keeps -/

/-- The registry is a ledger of consent records, and what was returned is in it, each under an id of
    its own. -/
structure Kept (D : Digests) (s : ConsentRaces) : Prop where
  sound : Sound D s.registry
  ledgered : ConsentLedger.Ledgered D s.registry (fun _ => True)
  stored : ∀ done ∈ returns s, done.stored ∈ s.registry.records.items
    ∧ ConsentLedger.Holds D done.stored (done.call.record done.recordedAt)
  apart : ((returns s).map (fun done => done.stored.recordId)).Nodup

theorem kept_empty (D : Digests) : Kept D {} :=
  ⟨sound_empty D, (fun _ hr => nomatch hr), (fun _ hr => nomatch hr), List.nodup_nil⟩

theorem step_kept (huuid : Function.Injective D.uuid5) (hkept : Kept D s) {a : RaceStep}
    (h : step D s a = some s') : Kept D s' := by
  rcases step_cases huuid hkept.sound h with ⟨hregistry, hreturns⟩ | ⟨done, hwritten, hreturns⟩
  · constructor
    · rw [hregistry]
      exact hkept.sound
    · rw [hregistry]
      exact hkept.ledgered
    · intro done hdone
      rw [hregistry]
      exact hkept.stored done (hreturns.mem_iff.1 hdone)
    · exact (hreturns.map _).nodup_iff.2 hkept.apart
  · have hitems := hwritten.inserted.records
    constructor
    · exact hwritten.inserted.sound hkept.sound hwritten.recordId
    · intro r hr
      rw [hitems, List.mem_append, List.mem_singleton] at hr
      rcases hr with hr | rfl
      · exact hkept.ledgered r hr
      · exact ⟨_, hwritten.holds, trivial⟩
    · intro done' hdone'
      have hmem := hreturns.mem_iff.1 hdone'
      rw [List.mem_append, List.mem_singleton] at hmem
      rw [hitems, List.mem_append, List.mem_singleton]
      rcases hmem with hmem | rfl
      · obtain ⟨hitem, hholds⟩ := hkept.stored done' hmem
        exact ⟨Or.inl hitem, hholds⟩
      · exact ⟨Or.inr rfl, hwritten.holds⟩
    · -- the id of the new record was free, so no earlier return has it
      refine (hreturns.map _).nodup_iff.2 ?_
      rw [List.map_append, List.map_cons, List.map_nil, List.nodup_append]
      refine ⟨hkept.apart, List.nodup_singleton _, ?_⟩
      rintro id hid _ hnew rfl
      obtain ⟨done', hdone', rfl⟩ := List.mem_map.1 hid
      have hitem := (hkept.stored done' hdone').1
      have hnone := (KeyedList.get?_eq_none_iff _ _).1 hwritten.inserted.free
      exact hnone _ hitem (List.mem_singleton.1 hnew)

theorem run_kept (huuid : Function.Injective D.uuid5) {steps : List RaceStep}
    (hrun : (races D).exec {} steps = some s) : Kept D s :=
  (races D).exec_invariant (C := fun _ _ => True) (I := Kept D)
    (fun _ _ _ hkept _ hstep => step_kept huuid hkept hstep) (kept_empty D)
    (LTS.AlongRun.of_forall _ _ (D := fun _ => True) (fun _ _ => trivial)) hrun

theorem Kept.mem_history (h : Kept D s) {done : SetReturn} (hdone : done ∈ returns s) :
    done.stored ∈ s.registry.getHistory
      (consentStableId D (done.call.record done.recordedAt).key) := by
  obtain ⟨hitem, hholds⟩ := h.stored done hdone
  exact h.sound.mem_history.2 ⟨hitem, hholds.stableId_eq⟩

theorem Kept.version_ne (h : Kept D s) : (returns s).Pairwise (fun done done' =>
    done.stored.stableId = done'.stored.stableId → done.stored.version ≠ done'.stored.version) := by
  have happart := List.pairwise_map.1 h.apart
  refine (List.pairwise_iff_forall_sublist.2 fun {done done'} hsub hstable hversion => ?_)
  have hne := List.pairwise_iff_forall_sublist.1 happart hsub
  obtain ⟨hitem, hholds⟩ := h.stored done (hsub.subset (List.mem_cons_self ..))
  obtain ⟨hitem', hholds'⟩ := h.stored done' (hsub.subset (by simp))
  refine hne ?_
  rw [h.sound.recordId hitem, h.sound.recordId hitem', hstable, hversion, hholds.kind_eq,
    hholds'.kind_eq]

end ConsentRaces

/-! ## The latest consent -/

namespace ConsentLedger

section Latest

variable (D : Digests) (registry : EntityRegistry)

def Highest (key : ConsentKey) (r : EntityRecord) (record : ConsentRecord) : Prop :=
  r ∈ registry.getHistory (consentStableId D key)
    ∧ (∀ r' ∈ registry.getHistory (consentStableId D key), r'.version ≤ r.version)
    ∧ ConsentRecord.validate r.payload = some record

variable {τ : Type} [LinearOrder τ] (read : String → τ) (instant : τ)

/-- The latest version is granted, and its expiry, when present, is later than the instant. -/
def LatestValid (key : ConsentKey) : Prop :=
  ∃ r record, Highest D registry key r record ∧ record.state = .granted
    ∧ ∀ expiresAt, record.expiresAt = some expiresAt → instant < read expiresAt

def LatestExpired (key : ConsentKey) : Prop :=
  ∃ r record, Highest D registry key r record ∧ record.state = .granted
    ∧ ∃ expiresAt, record.expiresAt = some expiresAt ∧ read expiresAt ≤ instant

def AllowedUnrecorded (policy : ConsentPolicy) (purpose : Purpose) (key : ConsentKey) : Prop :=
  policy.defaults.effectFor purpose = .allow
    ∧ ∀ r record, Highest D registry key r record → record.state = .unknown

end Latest

variable {D : Digests} {registry : EntityRegistry} {P : ConsentKey → Prop}

theorem eq_of_version_eq (hsound : Sound D registry) (hledgered : Ledgered D registry P)
    {stableId : String} {r r' : EntityRecord} (hr : r ∈ registry.getHistory stableId)
    (hr' : r' ∈ registry.getHistory stableId) (hversion : r.version = r'.version) : r = r' := by
  obtain ⟨hitem, hstable⟩ := hsound.mem_history.1 hr
  obtain ⟨hitem', hstable'⟩ := hsound.mem_history.1 hr'
  obtain ⟨_, hholds, -⟩ := hledgered r hitem
  obtain ⟨_, hholds', -⟩ := hledgered r' hitem'
  refine KeyedList.eq_of_key_eq _ hitem hitem' ?_
  rw [hsound.recordId hitem, hsound.recordId hitem', hstable, hstable', hversion, hholds.kind_eq,
    hholds'.kind_eq]

theorem Highest.unique (hsound : Sound D registry) (hledgered : Ledgered D registry P)
    {key : ConsentKey} {r r' : EntityRecord} {record record' : ConsentRecord}
    (h : Highest D registry key r record) (h' : Highest D registry key r' record') :
    record = record' := by
  obtain ⟨hr, hhighest, hvalidate⟩ := h
  obtain ⟨hr', hhighest', hvalidate'⟩ := h'
  have hsame := eq_of_version_eq hsound hledgered hr hr'
    (Int.le_antisymm (hhighest' r hr) (hhighest r' hr'))
  rw [hsame, hvalidate'] at hvalidate
  exact (Option.some.inj hvalidate).symm

theorem state_cases (hsound : Sound D registry) (hledgered : Ledgered D registry P)
    (key : ConsentKey) :
    (registry.getHistory (consentStableId D key) = [] ∧ state D registry key = .ok .unknown)
      ∨ ∃ r record, Highest D registry key r record ∧ state D registry key = .ok record.state := by
  unfold state
  rw [getLatest_eq]
  cases hlast : (registry.getHistory (consentStableId D key)).getLast? with
  | none => exact Or.inl ⟨List.getLast?_eq_none_iff.1 hlast, rfl⟩
  | some r =>
    have hmem := List.mem_of_getLast? hlast
    obtain ⟨record, hholds, -⟩ := hledgered r (hsound.mem_history.1 hmem).1
    refine Or.inr ⟨r, record, ⟨hmem, fun r' hr' => ?_, hholds.validate_eq⟩, ?_⟩
    · have hle := hsound.le_currentVersion hr'
      rwa [currentVersion, getLatest_eq, hlast] at hle
    · simp [hholds.payload_eq, ConsentRecord.payload, Dict.str?, Dict.find?_ofList_cons,
        Dict.find?_ofList_nil]

section Decision

variable {τ : Type} [LinearOrder τ] {read : String → τ} {instant : τ} {record : ConsentRecord}

variable {key : ConsentKey} {r : EntityRecord}

theorem latestValid_iff (hsound : Sound D registry) (hledgered : Ledgered D registry P)
    (h : Highest D registry key r record) :
    LatestValid D registry read instant key ↔ record.state = .granted
      ∧ ∀ expiresAt, record.expiresAt = some expiresAt → instant < read expiresAt := by
  constructor
  · rintro ⟨r', record', h', hvalid⟩
    rwa [h.unique hsound hledgered h']
  · exact fun hvalid => ⟨r, record, h, hvalid⟩

theorem latestExpired_iff (hsound : Sound D registry) (hledgered : Ledgered D registry P)
    (h : Highest D registry key r record) :
    LatestExpired D registry read instant key ↔ record.state = .granted
      ∧ ∃ expiresAt, record.expiresAt = some expiresAt ∧ read expiresAt ≤ instant := by
  constructor
  · rintro ⟨r', record', h', hexpired⟩
    rwa [h.unique hsound hledgered h']
  · exact fun hexpired => ⟨r, record, h, hexpired⟩

theorem allowedUnrecorded_iff (hsound : Sound D registry) (hledgered : Ledgered D registry P)
    {policy : ConsentPolicy}
    {purpose : Purpose} (h : Highest D registry key r record) :
    AllowedUnrecorded D registry policy purpose key
      ↔ policy.defaults.effectFor purpose = .allow ∧ record.state = .unknown := by
  constructor
  · rintro ⟨heffect, hunknown⟩
    exact ⟨heffect, hunknown r record h⟩
  · rintro ⟨heffect, hunknown⟩
    exact ⟨heffect, fun r' record' h' => by rw [h'.unique hsound hledgered h, hunknown]⟩

/-- **The decision.** On a ledger, the decision of a governed policy allows only a valid latest
    consent exactly when the latest consent is not an expired grant and no default allows what is
    not recorded. -/
theorem decision_spec (hsound : Sound D registry) (hledgered : Ledgered D registry P)
    {policy : ConsentPolicy} (hgoverned : policy.governed = true) (workspaceId : Option String)
    (subjectId : String) (purpose : Purpose) (surface : Option String) :
    ∃ d, decision D registry policy workspaceId subjectId purpose surface = .ok d
      ∧ ((d.effect = .allow → LatestValid D registry read instant
            ⟨workspaceId, subjectId, purpose.value⟩)
        ↔ ¬ LatestExpired D registry read instant ⟨workspaceId, subjectId, purpose.value⟩
          ∧ ¬ AllowedUnrecorded D registry policy purpose
            ⟨workspaceId, subjectId, purpose.value⟩) := by
  unfold decision
  rcases state_cases hsound hledgered ⟨workspaceId, subjectId, purpose.value⟩ with
    ⟨hempty, hstate⟩ | ⟨r, record, hhighest, hstate⟩
  · refine ⟨_, by rw [hstate]; rfl, ?_⟩
    have hnone : ∀ r record,
        ¬ Highest D registry ⟨workspaceId, subjectId, purpose.value⟩ r record := by
      rintro r record ⟨hr, -⟩
      rw [hempty] at hr
      cases hr
    simp [ConsentPolicy.decide, hgoverned, effectForState, LatestValid, LatestExpired,
      AllowedUnrecorded, hnone]
  · refine ⟨_, by rw [hstate]; rfl, ?_⟩
    rw [latestValid_iff hsound hledgered hhighest, latestExpired_iff hsound hledgered hhighest,
      allowedUnrecorded_iff hsound hledgered hhighest]
    simp only [ConsentPolicy.decide, hgoverned, if_true]
    cases record.state with
    | granted => simp [effectForState]
    | denied => simp [effectForState]
    | withdrawn => simp [effectForState]
    | unknown => simp [effectForState]

end Decision

end ConsentLedger

namespace ConsentRaces

open ConsentLedger

variable {D : Digests} {s : ConsentRaces}

/-- **The latest valid consent.** After every run of the writers, what was returned is in the history
    under its own version; and a governed decision allows only a valid latest consent, unless the
    latest consent is an expired grant or a default allows what is not recorded. -/
theorem decision_latestValid_iff (huuid : Function.Injective D.uuid5) {steps : List RaceStep}
    (hrun : (races D).exec {} steps = some s) :
    (∀ done ∈ returns s, Holds D done.stored (done.call.record done.recordedAt)
        ∧ done.stored ∈ s.registry.getHistory
          (consentStableId D (done.call.record done.recordedAt).key))
    ∧ (returns s).Pairwise (fun done done' =>
        done.stored.stableId = done'.stored.stableId → done.stored.version ≠ done'.stored.version)
    ∧ ∀ (τ : Type) [LinearOrder τ] (read : String → τ) (instant : τ) (policy : ConsentPolicy)
        (workspaceId : Option String) (subjectId : String) (purpose : Purpose)
        (surface : Option String), policy.governed = true →
      ∃ d, decision D s.registry policy workspaceId subjectId purpose surface = .ok d
        ∧ ((d.effect = .allow → LatestValid D s.registry read instant
              ⟨workspaceId, subjectId, purpose.value⟩)
          ↔ ¬ LatestExpired D s.registry read instant ⟨workspaceId, subjectId, purpose.value⟩
            ∧ ¬ AllowedUnrecorded D s.registry policy purpose
              ⟨workspaceId, subjectId, purpose.value⟩) := by
  have hkept := run_kept huuid hrun
  refine ⟨fun done hdone => ⟨(hkept.stored done hdone).2, hkept.mem_history hdone⟩,
    hkept.version_ne, fun τ _ read instant policy workspaceId subjectId purpose surface hgoverned => ?_⟩
  exact decision_spec hkept.sound hkept.ledgered hgoverned workspaceId subjectId purpose surface

/-! ### A grant that has expired -/

theorem lone_set (huuid : Function.Injective D.uuid5) {registry : EntityRegistry}
    (hsound : Sound D registry) (call : SetCall) (draws : SetDraws) :
    ∃ registry', ConsentLedger.set D registry call draws
        = .ok (registry', setRecord D registry call draws)
      ∧ Appended D registry call draws registry'
      ∧ (races D).exec { registry } [.begin (.set call), .start 0 draws.recordedAt, .read 0,
          .write 0 (draws.createdAt (maxConsentRetry - 1))]
        = some { registry := registry', writers := [{ todo := [], returned :=
            [⟨call, draws.recordedAt, setRecord D registry call draws⟩] }] } := by
  obtain ⟨registry', hnew, happended⟩ := newVersion_appended huuid hsound call draws
  refine ⟨registry', ?_, happended, ?_⟩
  · rw [maxConsentRetry] at hnew
    rw [ConsentLedger.set, maxConsentRetry, attempts, hnew]
  · let attempt : SetAttempt := { call, recordedAt := draws.recordedAt, left := maxConsentRetry }
    let current := registry.currentVersion (consentStableId D (call.record draws.recordedAt).key)
    let w : ConsentWriter := { todo := [call] }
    refine (races D).exec_cons_eq_some.2 ⟨⟨registry, [w]⟩, rfl, ?_⟩
    refine (races D).exec_cons_eq_some.2
      ⟨⟨registry, [{ w with todo := [], current := some attempt }]⟩, rfl, ?_⟩
    refine (races D).exec_cons_eq_some.2 ⟨⟨registry,
      [{ w with todo := [], current := some { attempt with expected := some current } }]⟩, rfl, ?_⟩
    refine (races D).exec_cons_eq_some.2 ⟨_, ?_, rfl⟩
    simp [races, step, ConsentWriter.write, attempt, current, w, hnew]

variable (expiresAt : Option String)

/-- A grant of `bob` until an instant. -/
def grantUntil : SetCall :=
  { subjectId := "bob", purpose := .retain, state := .granted, expiresAt }

def newYear : SetDraws := { recordedAt := "2026-01-01", createdAt := fun _ => "2026-01-01" }

def grantSteps : List RaceStep :=
  [.begin (.set (grantUntil expiresAt)), .start 0 "2026-01-01", .read 0, .write 0 "2026-01-01"]

theorem granted_run : ∃ s r, (races codeDigests).exec {} (grantSteps expiresAt) = some s
      ∧ Highest codeDigests s.registry ⟨none, "bob", "retain"⟩ r
          ((grantUntil expiresAt).record "2026-01-01")
      ∧ ∀ surface, ∃ d, decision codeDigests s.registry { governed := true } none "bob" .retain
          surface = .ok d ∧ d.effect = .allow := by
  obtain ⟨registry', -, happended, hrun⟩ := lone_set hexText_injective
    (sound_empty codeDigests) (grantUntil expiresAt) newYear
  have hkept := run_kept hexText_injective hrun
  have hkey : ((grantUntil expiresAt).record newYear.recordedAt).key
      = ⟨none, "bob", "retain"⟩ := rfl
  have hown := happended.own
  rw [hkey] at hown
  have hhighest : Highest codeDigests registry' ⟨none, "bob", "retain"⟩
      (setRecord codeDigests {} (grantUntil expiresAt) newYear)
      ((grantUntil expiresAt).record "2026-01-01") := by
    refine ⟨?_, fun r' hr' => ?_, (holds_setRecord _ _ _).validate_eq⟩
    · rw [hown]
      exact List.mem_append_right _ (List.mem_singleton_self _)
    · rw [hown] at hr'
      have hr'' : r' = setRecord codeDigests {} (grantUntil expiresAt) newYear :=
        List.mem_singleton.1 hr'
      rw [hr'']
  refine ⟨_, _, hrun, hhighest, fun surface => ?_⟩
  rcases state_cases hkept.sound hkept.ledgered ⟨none, "bob", "retain"⟩ with
    ⟨hempty, -⟩ | ⟨r, record, hr, hstate⟩
  · rw [hown] at hempty
    exact absurd hempty (List.append_ne_nil_of_right_ne_nil _ (List.cons_ne_nil _ _))
  · refine ⟨_, by rw [decision, show Purpose.value .retain = "retain" from rfl, hstate]; rfl, ?_⟩
    rw [hr.unique hkept.sound hkept.ledgered hhighest]
    rfl

/-- A grant until the end of 2020 allows in 2026. -/
theorem not_latestValid_expired :
    ∃ s, (races codeDigests).exec {} (grantSteps (some "2020-12-31")) = some s
      ∧ (∃ d, decision codeDigests s.registry { governed := true } none "bob" .retain none = .ok d
        ∧ d.effect = .allow)
      ∧ ¬ LatestValid codeDigests s.registry id "2026-01-01" ⟨none, "bob", "retain"⟩ := by
  obtain ⟨s, r, hrun, hhighest, hdecision⟩ := granted_run (some "2020-12-31")
  have hkept := run_kept hexText_injective hrun
  refine ⟨s, hrun, hdecision none, ?_⟩
  rw [latestValid_iff hkept.sound hkept.ledgered hhighest]
  rintro ⟨-, hlater⟩
  have hlt := hlater "2020-12-31" rfl
  revert hlt
  decide

theorem decision_latestValid_grant : ∃ s, (races codeDigests).exec {} (grantSteps none) = some s
      ∧ LatestValid codeDigests s.registry id "2026-01-01" ⟨none, "bob", "retain"⟩ := by
  obtain ⟨s, r, hrun, hhighest, hdecision⟩ := granted_run none
  have hkept := run_kept hexText_injective hrun
  obtain ⟨-, -, hdecisions⟩ := decision_latestValid_iff hexText_injective hrun
  obtain ⟨d, hd, hiff⟩ := hdecisions String id "2026-01-01" { governed := true } none "bob" .retain
    none rfl
  obtain ⟨d', hd', hallow⟩ := hdecision none
  refine ⟨s, hrun, hiff.2 ⟨?_, ?_⟩ ?_⟩
  · rw [show Purpose.value .retain = "retain" from rfl,
      latestExpired_iff hkept.sound hkept.ledgered hhighest]
    rintro ⟨-, _, hexpires, -⟩
    cases hexpires
  · rw [show Purpose.value .retain = "retain" from rfl,
      allowedUnrecorded_iff hkept.sound hkept.ledgered hhighest]
    rintro ⟨-, hunknown⟩
    cases hunknown
  · rw [hd] at hd'
    cases hd'
    exact hallow

end ConsentRaces

end Himmy
