import Mathlib.Data.String.Basic
import Himmy.Library.Windows
import Himmy.Entities.ChainRuns
import Himmy.Entities.Lineage
import Himmy.Entities.MetadataFilter
import Himmy.Entities.Versions

/-! # The two registries

`EntityRegistry` is the in-memory twin of `SqliteEntityRegistry`. The same calls are made on an
empty one of each; `twins` answers with what both come to. Where SQLite leaves the order of rows
open, an arrangement gives it.

The calls come to the same, and the reads show the same, as long as a version of a stable id is
registered under one id only and fits in an INTEGER, a registration raises only when nothing is
buffered, and a filter is plain (`twins_agree`). -/

namespace Himmy

/-! ## Reads -/

namespace EntityRegistry

variable (registry : EntityRegistry)

def queryBy (q : EntityQuery) : List EntityRecord :=
  registry.records.items.filter (fun r => q.selectsColumns r && q.selectsMetadata r)

/-- The records that `list_recent_by_kind` sorts. -/
def recentMatches (kind : String) (filters : Dict Json) : List EntityRecord :=
  registry.records.items.filter
    (fun r => r.kind = kind && filters.items.all (metadataEquals r.metadata))

/-- `list_recent_by_kind`; the sort is stable. -/
def listRecentByKind (kind : String) (limit : Int) (filters : Dict Json) : List EntityRecord :=
  if limit ≤ 0 then []
  else ((registry.recentMatches kind filters).mergeSort
    (fun r s => s.createdAt ≤ r.createdAt)).take limit.toNat

end EntityRegistry

namespace SpineTables

variable (tables : SpineTables) (o : Windows.Arrangement EntityRecord)

def select (p : EntityRecord → Bool) : List EntityRecord :=
  o.arrange ((tables.records.map SpineRow.record).filter p)

def getHistory (stableId : String) : List EntityRecord :=
  (tables.select o (fun r => r.stableId = stableId)).mergeSort (fun r s => r.version ≤ s.version)

def getLatest (stableId : String) : Option EntityRecord :=
  ((tables.select o (fun r => r.stableId = stableId)).mergeSort
    (fun r s => s.version ≤ r.version)).head?

def queryBy (q : EntityQuery) : List EntityRecord :=
  ((tables.select o q.selectsColumns).mergeSort (fun r s => r.version ≤ s.version)).filter
    q.selectsMetadata

/-- `list_recent_by_kind`; `none` when it raises. -/
def listRecentByKind (J : JsonFunctions) (kind : String) (limit : Int) (filters : Dict Json) :
    Option (List EntityRecord) :=
  if limit ≤ 0 then some []
  else match bindClauses filters.items with
  | none => none
  | some clauses =>
    let rows := tables.select o (fun r => r.kind = kind)
    if !fitsInteger limit || rows.any (fun r => (J.clausesHold r.metadata clauses).isNone) then none
    else some (((rows.filter (fun r => J.clausesHold r.metadata clauses = some true)).mergeSort
      (fun r s => s.createdAt ≤ r.createdAt)).take limit.toNat)

end SpineTables

/-! ## Calls -/

/-- The calls that write. -/
inductive TwinCall where
  | register (record : EntityRecord)
  | newVersion (call : NewVersion)
  | link (link : EntityLink)

/-- What a call comes to. -/
inductive TwinAnswer where
  | raised
  | record (record : EntityRecord)
  | link (link : EntityLink)

variable (D : Digests) (registry : EntityRegistry)

def EntityRegistry.perform : TwinCall → EntityRegistry × TwinAnswer
  | .register record =>
    match registry.register record with
    | .ok (registry', stored) => (registry', .record stored)
    | .error _ => (registry, .raised)
  | .newVersion call =>
    match registry.newVersion D call with
    | .ok (registry', stored) => (registry', .record stored)
    | .error _ => (registry, .raised)
  | .link link => (registry.link link, .link link)

def SpineFile.performOnly (f : SpineFile) (call : TwinCall) : SpineFile × TwinAnswer :=
  match f.registryAt 0, call with
  | none, _ => (f, .raised)
  | some registry, .register record =>
    match f.register D 0 registry record with
    | (f', .ok stored) => (f', .record stored)
    | (f', .error _) => (f', .raised)
  | some registry, .newVersion call =>
    match f.newVersion D 0 registry call with
    | (f', .ok stored) => (f', .record stored)
    | (f', .error _) => (f', .raised)
  | some registry, .link link =>
    match f.link 0 registry link with
    | (f', .ok link) => (f', .link link)
    | (f', .error _) => (f', .raised)

abbrev Twins := EntityRegistry × SpineFile

def twins : Machine Twins TwinCall (TwinAnswer × TwinAnswer) where
  step s call :=
    (((s.1.perform D call).1, (s.2.performOnly D call).1),
      ((s.1.perform D call).2, (s.2.performOnly D call).2))

def emptyTwins (registerBuffer : Nat) (dbChain : Bool) : Twins :=
  ({}, ({} : SpineFile).openRegistry D registerBuffer dbChain)

def twinTables (s : Twins) : SpineTables := s.2.view 0

/-! ## Agreement -/

/-- The reads show the same on both; `list_recent_by_kind` does for the filters of a kind. -/
structure ReadsAgree (J : JsonFunctions) (plain : String → Int → Dict Json → Prop) (s : Twins) :
    Prop where
  get : ∀ recordId, (twinTables s).get recordId = s.1.get recordId
  latest : ∀ o stableId, (twinTables s).getLatest o stableId = s.1.getLatest stableId
  history : ∀ o stableId, (twinTables s).getHistory o stableId = s.1.getHistory stableId
  query : ∀ o q, ((twinTables s).queryBy o q).Perm (s.1.queryBy q)
  recent : ∀ o kind limit filters, plain kind limit filters →
    ∃ rs, (twinTables s).listRecentByKind o J kind limit filters = some rs
      ∧ rs.Perm (s.1.listRecentByKind kind limit filters)
      ∧ rs.map EntityRecord.createdAt
        = (s.1.listRecentByKind kind limit filters).map EntityRecord.createdAt
  trace : ∀ ids ids' recordId maxDepth direction relations,
    (LineageRegistry.sqlite (twinTables s) ids').trace recordId maxDepth direction relations
      = (LineageRegistry.inMemory s.1 ids).trace recordId maxDepth direction relations

/-- The window does not end between records of one instant, whose order is open. -/
def EntityRegistry.WindowClear (kind : String) (limit : Int) (filters : Dict Json) : Prop :=
  Windows.CutsBetween EntityRecord.createdAt limit.toNat
    ((registry.recentMatches kind filters).mergeSort (fun r s => s.createdAt ≤ r.createdAt))

instance (registry : EntityRegistry) (kind : String) (limit : Int) (filters : Dict Json) :
    Decidable (registry.WindowClear kind limit filters) :=
  inferInstanceAs (Decidable (Windows.CutsBetween _ _ _))

/-- A filter that both registries test alike on the records of the kind, with a clear window. -/
structure FiltersPlain (J : JsonFunctions) (registry : EntityRegistry) (kind : String) (limit : Int)
    (filters : Dict Json) : Prop where
  fits : fitsInteger limit = true
  values : ∀ kv ∈ filters.items, bindable kv.2 = true
  clauses : ∀ r ∈ registry.records.items, r.kind = kind → ∀ kv ∈ filters.items,
    ClausePlain J r.metadata kv
  cut : registry.WindowClear kind limit filters

/-- The version is the first of its stable id with its number, and SQLite can store it. -/
def FreshVersion (record : EntityRecord) : Prop :=
  fitsInteger record.version = true
    ∧ ∀ r ∈ registry.records.items, r.stableId = record.stableId → r.version ≠ record.version

/-- A registration that inserts is of a fresh version, one that raises finds nothing buffered, and a
    new version fits in an INTEGER; the drawn id of a link is new. -/
def TwinGuard (s : Twins) : TwinCall → Prop
  | .register record =>
    match s.1.get record.recordId with
    | none => FreshVersion s.1 record
    | some stored => stored.sameContent record = true
      ∨ ∀ registry ∈ s.2.registryAt 0, registry.pending = 0
  | .newVersion call =>
    let record := call.record D (s.1.currentVersion call.stableId + 1)
    s.1.get record.recordId = none → fitsInteger record.version = true
  | .link link => link.linkId ∉ s.1.links.map EntityLink.linkId

/-! ## The in-memory registry -/

namespace EntityRegistry

/-- The chain of a stable id has its records by version, and no version twice. -/
structure Versioned (registry : EntityRegistry) : Prop where
  history : ∀ stableId, (registry.getHistory stableId).Perm
    (registry.records.items.filter (fun r => r.stableId = stableId))
  sorted : ∀ stableId, (registry.getHistory stableId).Pairwise (fun r s => r.version ≤ s.version)
  distinct : registry.records.items.Pairwise
    (fun r s => r.stableId = s.stableId → r.version ≠ s.version)

variable {registry registry' : EntityRegistry} {record : EntityRecord}

theorem versioned_empty : Versioned {} where
  history _ := List.Perm.refl _
  sorted _ := List.Pairwise.nil
  distinct := List.Pairwise.nil

theorem Inserted.versioned (h : Inserted registry record registry') (hv : Versioned registry)
    (hfresh : ∀ r ∈ registry.records.items, r.stableId = record.stableId →
      r.version ≠ record.version) : Versioned registry' where
  history stableId := by
    rw [h.records, List.filter_append]
    by_cases hstable : stableId = record.stableId
    · subst hstable
      rw [h.own]
      refine (List.mergeSort_perm _ _).trans ?_
      have hone : [record].filter (fun r => r.stableId = record.stableId) = [record] := by simp
      rw [hone]
      exact (hv.history _).append_right _
    · rw [h.others stableId hstable, List.filter_cons_of_neg (by simpa using Ne.symm hstable)]
      simpa using hv.history stableId
  sorted stableId := by
    by_cases hstable : stableId = record.stableId
    · subst hstable
      rw [h.own]
      exact Lists.pairwise_mergeSort (r := fun r s : EntityRecord => r.version ≤ s.version)
        Int.le_trans (fun _ _ => Int.le_total _ _) _
    · rw [h.others stableId hstable]
      exact hv.sorted stableId
  distinct := by
    rw [h.records]
    refine List.pairwise_append.2 ⟨hv.distinct, List.pairwise_singleton _ _, ?_⟩
    intro r hr s hs
    rw [List.mem_singleton.1 hs]
    exact hfresh r hr

theorem register_of_some {stored : EntityRecord} (h : registry.get record.recordId = some stored) :
    (stored.sameContent record = true → registry.register record = .ok (registry, stored))
      ∧ (stored.sameContent record = false → ∃ e, registry.register record = .error e) := by
  unfold register
  rw [h]
  constructor
  · intro hsame
    exact if_pos hsame
  · intro hsame
    exact ⟨_, if_neg (by simp [hsame])⟩

theorem links_register {stored : EntityRecord}
    (h : registry.register record = .ok (registry', stored)) : registry'.links = registry.links := by
  unfold register at h
  split at h
  · split at h <;> cases h
    rfl
  · cases h
    rfl

namespace Versioned

section

variable (h : Versioned registry)

include h

theorem mem_history {r : EntityRecord} {stableId : String} :
    r ∈ registry.getHistory stableId ↔ r ∈ registry.records.items ∧ r.stableId = stableId := by
  rw [(h.history stableId).mem_iff, List.mem_filter, decide_eq_true_iff]

theorem strict (stableId : String) :
    (registry.getHistory stableId).Pairwise (fun r s => r.version < s.version) := by
  have hne : (registry.getHistory stableId).Pairwise (fun r s => r.version ≠ s.version) := by
    refine ((h.history stableId).pairwise_iff (fun hrs => Ne.symm hrs)).2 ?_
    refine (h.distinct.filter _).imp_of_mem ?_
    intro r s hr hs hrs
    have hstable := of_decide_eq_true (List.mem_filter.1 hr).2
    have hstable' := of_decide_eq_true (List.mem_filter.1 hs).2
    exact hrs (hstable.trans hstable'.symm)
  exact ((h.sorted stableId).and hne).imp (fun hrs => lt_of_le_of_ne hrs.1 hrs.2)

theorem eq_history {stableId : String} {l : List EntityRecord}
    (hperm : l.Perm (registry.records.items.filter (fun r => r.stableId = stableId)))
    (hsorted : l.Pairwise (fun r s => r.version ≤ s.version)) :
    l = registry.getHistory stableId := by
  have hto := hperm.trans (h.history stableId).symm
  refine List.Perm.eq_of_pairwise ?_ hsorted (h.sorted stableId) hto
  intro r s hr hs hrs hsr
  have hversions : ((registry.getHistory stableId).map EntityRecord.version).Nodup :=
    List.pairwise_map.2 ((h.strict stableId).imp ne_of_lt)
  exact List.inj_on_of_nodup_map hversions (hto.mem_iff.1 hr) hs (le_antisymm hrs hsr)

theorem latestVersion_eq {tables : SpineTables}
    (hrecords : tables.records.map SpineRow.record = registry.records.items) (stableId : String) :
    tables.latestVersion stableId = registry.currentVersion stableId := by
  have hmem : ∀ r, r ∈ registry.records.items.filter (fun r => r.stableId = stableId)
      ↔ r ∈ registry.getHistory stableId := fun r => (h.history stableId).mem_iff.symm
  unfold SpineTables.latestVersion
  rw [hrecords]
  cases hlast : (registry.getHistory stableId).getLast? with
  | none =>
    have hperm := h.history stableId
    rw [List.getLast?_eq_none_iff.1 hlast] at hperm
    rw [hperm.symm.eq_nil, currentVersion, getLatest_eq, hlast]
    rfl
  | some latest =>
    have hcurrent : registry.currentVersion stableId = latest.version := by
      rw [currentVersion, getLatest_eq, hlast]
    have hmax : ((registry.records.items.filter (fun r => r.stableId = stableId)).map
        EntityRecord.version).max? = some latest.version := by
      rw [List.max?_eq_some_iff]
      constructor
      · exact List.mem_map_of_mem ((hmem latest).2 (List.mem_of_getLast? hlast))
      · intro version hversion
        obtain ⟨r, hr, rfl⟩ := List.mem_map.1 hversion
        rw [← hcurrent]
        exact le_currentVersion (h.sorted stableId) ((hmem r).1 hr)
    rw [hmax, hcurrent]
    rfl

theorem fresh_next (stableId : String) : ∀ r ∈ registry.records.items, r.stableId = stableId →
      r.version ≠ registry.currentVersion stableId + 1 := by
  intro r hr hstable
  have hle := le_currentVersion (h.sorted stableId) (h.mem_history.2 ⟨hr, hstable⟩)
  omega

end

end Versioned

end EntityRegistry

/-! ## The SQLite registry -/

namespace SpineFile

/-- The only registry of the file; a transaction is its own, and open only while rows are
    buffered. -/
structure Alone (f : SpineFile) (registry : SqliteEntityRegistry) : Prop where
  here : f.registryAt 0 = some registry
  writer : ∀ w ∈ f.writer, w.1 = 0
  settled : registry.pending = 0 → f.writer = none

variable {f : SpineFile} {registry registry' : SqliteEntityRegistry}

theorem writer_commit (hwriter : ∀ w ∈ f.writer, w.1 = 0) : (f.commit 0).writer = none := by
  unfold commit
  cases hw : f.writer with
  | none => exact hw
  | some w =>
    have hzero : w.1 = 0 := hwriter w hw
    simp [hzero]

theorem registryAt_commit (f : SpineFile) (i j : Nat) :
    (f.commit i).registryAt j = f.registryAt j := by
  rw [registryAt, registryAt, registries_commit]

theorem alone_commitLocked (hhere : f.registryAt 0 = some registry)
    (hwriter : ∀ w ∈ f.writer, w.1 = 0) (registry' : SqliteEntityRegistry) :
    (f.commitLocked 0 registry').Alone { registry' with pending := 0 } := by
  have hnone := writer_commit hwriter
  refine ⟨?_, ?_, fun _ => hnone⟩
  · exact registryAt_setRegistry_self ((f.registryAt_commit 0 0).trans hhere) _
  · intro w hw
    have hw : w ∈ (f.commit 0).writer := hw
    rw [hnone] at hw
    cases hw

theorem alone_countPending (hhere : f.registryAt 0 = some registry)
    (hwriter : ∀ w ∈ f.writer, w.1 = 0) (registry' : SqliteEntityRegistry) :
    ∃ registry'', (f.countPending 0 registry').Alone registry'' := by
  unfold countPending
  simp only
  split
  · exact ⟨_, alone_commitLocked hhere hwriter _⟩
  · refine ⟨_, registryAt_setRegistry_self hhere _, hwriter, ?_⟩
    intro hpending
    cases hpending

theorem Alone.flush (h : f.Alone registry) :
    (f.flush 0 registry).Alone { registry with pending := 0 }
      ∧ (f.flush 0 registry).view 0 = f.view 0 := by
  unfold SpineFile.flush
  split
  · next hpending =>
      have hsame : { registry with pending := 0 } = registry := by rw [← hpending]
      rw [hsame]
      exact ⟨h, rfl⟩
  · exact ⟨alone_commitLocked h.here h.writer registry, f.view_commit_self 0⟩

theorem Alone.undo (h : f.Alone registry) (hpending : registry.pending = 0) :
    ∃ registry', (f.undo D 0 registry).Alone registry' ∧ (f.undo D 0 registry).view 0 = f.view 0 := by
  have hnone := h.settled hpending
  have hback : f.rollback 0 = f := by
    unfold rollback
    rw [hnone]
    rfl
  have hundo : f.undo D 0 registry = f.setRegistry 0
      ({ registry with pending := 0 }.resetChainTip D (f.view 0)) := by
    unfold SpineFile.undo
    simp only [hback]
  rw [hundo]
  exact ⟨_, ⟨registryAt_setRegistry_self h.here _, h.writer, fun _ => hnone⟩, rfl⟩

theorem view_insertRow_eq (f : SpineFile) (registry : SqliteEntityRegistry) (row : SpineRow) :
    (f.insertRow D 0 registry row).view 0
      = { f.view 0 with records := (f.view 0).records ++ [row] } := by
  unfold insertRow
  rw [view_setRegistry, view_write, if_pos rfl]

theorem registryAt_insertRow (h : f.Alone registry) (registry' : SqliteEntityRegistry)
    (row : SpineRow) :
    (f.insertRow D 0 registry' row).registryAt 0 = some (registry'.advance D row) :=
  registryAt_setRegistry_self (f := f.write 0 _) h.here _

theorem writer_insertRow (f : SpineFile) (registry : SqliteEntityRegistry) (row : SpineRow) :
    ∀ w ∈ (f.insertRow D 0 registry row).writer, w.1 = 0 := by
  intro w hw
  cases hw
  rfl

theorem Alone.insertRow_commit (h : f.Alone registry) (row : SpineRow) :
    ((f.insertRow D 0 registry row).commit 0).Alone (registry.advance D row) := by
  have hnone := writer_commit (writer_insertRow D f registry row)
  refine ⟨?_, ?_, fun _ => hnone⟩
  · rw [registryAt_commit]
    exact registryAt_insertRow D h registry row
  · intro w hw
    rw [hnone] at hw
    cases hw

theorem view_link (f : SpineFile) (tables : SpineTables) (registry : SqliteEntityRegistry) :
    ((f.write 0 tables).commitLocked 0 registry).view 0 = tables := by
  unfold commitLocked
  rw [view_setRegistry, view_commit_self, view_write, if_pos rfl]

/-! ### What a call comes to -/

section Calls

variable {i : Nat} {record stored : EntityRecord} {row : SpineRow} {e : SpineError}
  {call : NewVersion}

theorem register_of_error
    (h : insertRecord D registry (f.view i) (f.lockedFor i) record = .error e) :
    f.register D i registry record = (f.undo D i registry, .error e) := by
  rw [register, h]

theorem register_of_stored
    (h : insertRecord D registry (f.view i) (f.lockedFor i) record = .ok (stored, none)) :
    f.register D i registry record = (f.countPending i registry, .ok stored) := by
  rw [register, h]

theorem register_of_row
    (h : insertRecord D registry (f.view i) (f.lockedFor i) record = .ok (stored, some row)) :
    f.register D i registry record
      = ((f.insertRow D i registry row).countPending i (registry.advance D row), .ok stored) := by
  rw [register, h]

variable (hwriter : (f.flush i registry).writer = none)

include hwriter

theorem newVersion_of_error
    (h : insertVersion D { registry with pending := 0 } ((f.flush i registry).view i) call
      = .error e) :
    f.newVersion D i registry call
      = ((f.flush i registry).undo D i { registry with pending := 0 }, .error e) := by
  rw [newVersion]
  simp only [hwriter, h]
  rfl

theorem newVersion_of_stored
    (h : insertVersion D { registry with pending := 0 } ((f.flush i registry).view i) call
      = .ok (stored, none)) :
    f.newVersion D i registry call = (f.flush i registry, .ok stored) := by
  rw [newVersion]
  simp only [hwriter, h]
  rfl

theorem newVersion_of_row
    (h : insertVersion D { registry with pending := 0 } ((f.flush i registry).view i) call
      = .ok (stored, some row)) :
    f.newVersion D i registry call
      = (((f.flush i registry).insertRow D i { registry with pending := 0 } row).commit i,
        .ok stored) := by
  rw [newVersion]
  simp only [hwriter, h]
  rfl

end Calls

end SpineFile

/-! ## The relation -/

/-- The registries hold the same records and links, and nothing but the buffered rows is open. -/
structure InStep (s : Twins) : Prop where
  alone : ∃ registry, s.2.Alone registry
  records : (twinTables s).records.map SpineRow.record = s.1.records.items
  links : (twinTables s).links = s.1.links
  versioned : s.1.Versioned
  linkIds : (s.1.links.map EntityLink.linkId).Nodup

namespace InStep

variable {s : Twins}

theorem empty (registerBuffer : Nat) (dbChain : Bool) :
    InStep (emptyTwins D registerBuffer dbChain) where
  alone := ⟨_, rfl, (fun _ hw => by cases hw), fun _ => rfl⟩
  records := rfl
  links := rfl
  versioned := EntityRegistry.versioned_empty
  linkIds := List.nodup_nil

theorem get_eq (h : InStep s) (recordId : String) :
    (twinTables s).get recordId = s.1.get recordId := by
  unfold SpineTables.get EntityRegistry.get KeyedList.get?
  rw [← h.records, List.find?_map]
  rfl

theorem insertRecord_eq (h : InStep s) (registry : SqliteEntityRegistry) (record : EntityRecord) :
    (∀ stored, s.1.get record.recordId = some stored → stored.sameContent record = true →
      insertRecord D registry (twinTables s) false record = .ok (stored, none))
    ∧ (∀ stored, s.1.get record.recordId = some stored → stored.sameContent record = false →
      ∃ e, insertRecord D registry (twinTables s) false record = .error e)
    ∧ (s.1.get record.recordId = none → FreshVersion s.1 record →
      insertRecord D registry (twinTables s) false record
        = .ok (record, some (registry.newRow D record))) := by
  unfold insertRecord
  rw [h.get_eq]
  refine ⟨?_, ?_, ?_⟩
  · intro stored hget hsame
    rw [hget]
    exact if_pos hsame
  · intro stored hget hsame
    rw [hget]
    exact ⟨_, if_neg (by rw [← Bool.not_eq_true] at hsame; exact hsame)⟩
  · rintro hget ⟨hfits, hfresh⟩
    rw [hget]
    have htaken : (twinTables s).records.any (fun row => row.record.stableId = record.stableId
        && row.record.kind = record.kind && row.record.version = record.version) = false := by
      rw [List.any_eq_false]
      intro row hrow
      have hmem : row.record ∈ s.1.records.items := by
        rw [← h.records]
        exact List.mem_map_of_mem hrow
      intro hsame
      simp only [Bool.and_eq_true, decide_eq_true_eq] at hsame
      exact hfresh row.record hmem hsame.1.1 hsame.2
    simp [hfits, htaken]

variable {f : SpineFile}

theorem of_view (h : InStep s) (halone : ∃ registry, f.Alone registry)
    (hview : f.view 0 = s.2.view 0) : InStep (s.1, f) where
  alone := halone
  records := by
    show (f.view 0).records.map SpineRow.record = s.1.records.items
    rw [hview]
    exact h.records
  links := by
    show (f.view 0).links = s.1.links
    rw [hview]
    exact h.links
  versioned := h.versioned
  linkIds := h.linkIds

theorem inserted (h : InStep s) {record : EntityRecord} {registry' : EntityRegistry}
    (hregister : s.1.register record = .ok (registry', record))
    (hinserted : s.1.Inserted record registry') (hfresh : FreshVersion s.1 record)
    (halone : ∃ registry, f.Alone registry) (registry : SqliteEntityRegistry) (hview : f.view 0
      = { s.2.view 0 with records := (s.2.view 0).records ++ [registry.newRow D record] }) :
    InStep (registry', f) where
  alone := halone
  records := by
    show (f.view 0).records.map SpineRow.record = registry'.records.items
    rw [hview, hinserted.records, ← h.records, List.map_append]
    rfl
  links := by
    show (f.view 0).links = registry'.links
    rw [hview, EntityRegistry.links_register hregister]
    exact h.links
  versioned := hinserted.versioned h.versioned hfresh.2
  linkIds := by
    rw [EntityRegistry.links_register hregister]
    exact h.linkIds

theorem lockedFor_eq {registry : SqliteEntityRegistry} (h : f.Alone registry) :
    f.lockedFor 0 = false := by
  unfold SpineFile.lockedFor
  cases hw : f.writer with
  | none => rfl
  | some w =>
    have hzero := h.writer w hw
    simp [hzero]

theorem register (h : InStep s) {record : EntityRecord}
    (hguard : TwinGuard D s (.register record)) : InStep ((twins D).step s (.register record)).1
      ∧ ((twins D).step s (.register record)).2.1 = ((twins D).step s (.register record)).2.2 := by
  obtain ⟨registry, halone⟩ := h.alone
  obtain ⟨hsame, hother, hnew⟩ := h.insertRecord_eq D registry record
  have hlocked := lockedFor_eq halone
  simp only [twins, EntityRegistry.perform, SpineFile.performOnly, halone.here]
  simp only [TwinGuard] at hguard
  cases hget : s.1.get record.recordId with
  | some stored =>
    rw [hget] at hguard
    obtain ⟨hkept, hraises⟩ := EntityRegistry.register_of_some hget
    cases hcontent : stored.sameContent record with
    | true =>
      have hstored := hsame stored hget hcontent
      rw [← hlocked] at hstored
      rw [hkept hcontent, SpineFile.register_of_stored D hstored]
      exact ⟨h.of_view (SpineFile.alone_countPending halone.here halone.writer registry)
        (s.2.view_countPending_self 0 registry), rfl⟩
    | false =>
      obtain ⟨e, he⟩ := hraises hcontent
      obtain ⟨e', he'⟩ := hother stored hget hcontent
      rw [← hlocked] at he'
      rw [he, SpineFile.register_of_error D he']
      have hpending : registry.pending = 0 := by
        rcases hguard with hcontent' | hpending
        · rw [hcontent] at hcontent'
          cases hcontent'
        · exact hpending registry halone.here
      obtain ⟨registry', halone', hview⟩ := halone.undo D hpending
      exact ⟨h.of_view ⟨registry', halone'⟩ hview, rfl⟩
  | none =>
    rw [hget] at hguard
    obtain ⟨registry', hok, hinserted⟩ := EntityRegistry.register_free hget
    have hrow := hnew hget hguard
    rw [← hlocked] at hrow
    rw [hok, SpineFile.register_of_row D hrow]
    refine ⟨h.inserted D hok hinserted hguard (SpineFile.alone_countPending
      (SpineFile.registryAt_insertRow D halone registry _)
      (SpineFile.writer_insertRow D s.2 registry _) _) registry ?_, rfl⟩
    rw [SpineFile.view_countPending_self, SpineFile.view_insertRow_eq]

theorem flush (h : InStep s) {registry : SqliteEntityRegistry} (halone : s.2.Alone registry) :
    InStep (s.1, s.2.flush 0 registry) :=
  h.of_view ⟨_, halone.flush.1⟩ halone.flush.2

theorem newVersion (h : InStep s) {call : NewVersion} (hguard : TwinGuard D s (.newVersion call)) :
    InStep ((twins D).step s (.newVersion call)).1 ∧ ((twins D).step s (.newVersion call)).2.1
        = ((twins D).step s (.newVersion call)).2.2 := by
  obtain ⟨registry, halone⟩ := h.alone
  have hflushed := h.flush halone
  obtain ⟨hflush, -⟩ := halone.flush
  have hwriter := hflush.settled rfl
  have hcurrent : (twinTables (s.1, s.2.flush 0 registry)).latestVersion call.stableId
      = s.1.currentVersion call.stableId := h.versioned.latestVersion_eq hflushed.records _
  obtain ⟨registry', halone', hundo⟩ := hflush.undo D rfl
  have hraised : InStep (s.1, (s.2.flush 0 registry).undo D 0 { registry with pending := 0 }) :=
    hflushed.of_view ⟨registry', halone'⟩ hundo
  have hversion : insertVersion D { registry with pending := 0 } ((s.2.flush 0 registry).view 0) call
      = insertVersion D { registry with pending := 0 }
        (twinTables (s.1, s.2.flush 0 registry)) call := rfl
  simp only [twins, EntityRegistry.perform, SpineFile.performOnly, halone.here,
    EntityRegistry.newVersion]
  simp only [insertVersion, hcurrent] at hversion
  cases hexpected : call.expectedVersion.filter
      (fun expected => expected ≠ s.1.currentVersion call.stableId) with
  | some expected =>
    rw [hexpected] at hversion
    rw [SpineFile.newVersion_of_error D hwriter hversion]
    exact ⟨hraised, rfl⟩
  | none =>
    rw [hexpected] at hversion
    have hrecord : (call.record D (s.1.currentVersion call.stableId + 1)).stableId = call.stableId
        ∧ (call.record D (s.1.currentVersion call.stableId + 1)).version
          = s.1.currentVersion call.stableId + 1 := ⟨rfl, rfl⟩
    simp only [TwinGuard] at hguard
    generalize call.record D (s.1.currentVersion call.stableId + 1) = record
      at hguard hrecord hversion
    obtain ⟨hsame, hother, hinsert⟩ := hflushed.insertRecord_eq D { registry with pending := 0 }
      record
    cases hget : s.1.get record.recordId with
    | some stored =>
      obtain ⟨hkept, hraises⟩ := EntityRegistry.register_of_some hget
      cases hcontent : stored.sameContent record with
      | true =>
        have hstored := hversion.trans (hsame stored hget hcontent)
        rw [hkept hcontent, SpineFile.newVersion_of_stored D hwriter hstored]
        exact ⟨hflushed, rfl⟩
      | false =>
        obtain ⟨e, he⟩ := hraises hcontent
        obtain ⟨e', he'⟩ := hother stored hget hcontent
        rw [he, SpineFile.newVersion_of_error D hwriter (hversion.trans he')]
        exact ⟨hraised, rfl⟩
    | none =>
      have hfresh : FreshVersion s.1 record := by
        refine ⟨hguard hget, ?_⟩
        intro r hr hstable
        rw [hrecord.2]
        exact h.versioned.fresh_next call.stableId r hr (hstable.trans hrecord.1)
      obtain ⟨registry'', hok, hinserted⟩ := EntityRegistry.register_free hget
      rw [hok, SpineFile.newVersion_of_row D hwriter (hversion.trans (hinsert hget hfresh))]
      have halone' := hflush.insertRow_commit D
        (SqliteEntityRegistry.newRow D { registry with pending := 0 } record)
      refine ⟨hflushed.inserted D hok hinserted hfresh ⟨_, halone'⟩
        { registry with pending := 0 } ?_, rfl⟩
      rw [SpineFile.view_commit_self, SpineFile.view_insertRow_eq]

theorem link (h : InStep s) {link : EntityLink} (hguard : TwinGuard D s (.link link)) :
    InStep ((twins D).step s (.link link)).1
      ∧ ((twins D).step s (.link link)).2.1 = ((twins D).step s (.link link)).2.2 := by
  obtain ⟨registry, halone⟩ := h.alone
  have hfresh : (s.2.view 0).links.any (fun l => l.linkId = link.linkId) = false := by
    rw [List.any_eq_false]
    intro l hl hsame
    refine hguard ?_
    rw [← h.links]
    exact List.mem_map.2 ⟨l, hl, of_decide_eq_true hsame⟩
  have hlink : s.2.link 0 registry link
      = ((s.2.write 0 { s.2.view 0 with links := (s.2.view 0).links ++ [link] }).commitLocked 0
        registry, .ok link) := by
    rw [SpineFile.link, lockedFor_eq halone]
    simp only [hfresh]
    rfl
  simp only [twins, EntityRegistry.perform, SpineFile.performOnly, halone.here, hlink]
  have hview := SpineFile.view_link s.2
    { s.2.view 0 with links := (s.2.view 0).links ++ [link] } registry
  have halone' := SpineFile.alone_commitLocked
    (f := s.2.write 0 { s.2.view 0 with links := (s.2.view 0).links ++ [link] }) halone.here
    (fun w hw => by cases hw; rfl) registry
  refine ⟨⟨⟨_, halone'⟩, ?_, ?_, ?_, ?_⟩, trivial⟩
  · simp only [twinTables, hview]
    exact h.records
  · simp only [twinTables, hview]
    exact congrArg (· ++ [link]) h.links
  · exact ⟨h.versioned.history, h.versioned.sorted, h.versioned.distinct⟩
  · show ((s.1.links ++ [link]).map EntityLink.linkId).Nodup
    rw [List.map_append, List.nodup_append]
    refine ⟨h.linkIds, List.nodup_singleton _, ?_⟩
    intro a ha b hb
    rintro rfl
    rw [List.map_singleton, List.mem_singleton] at hb
    subst hb
    exact hguard ha

theorem step (h : InStep s) {call : TwinCall} (hguard : TwinGuard D s call) :
    InStep ((twins D).step s call).1
      ∧ ((twins D).step s call).2.1 = ((twins D).step s call).2.2 := by
  cases call with
  | register record => exact h.register D hguard
  | newVersion call => exact h.newVersion D hguard
  | link link => exact h.link D hguard

/-! ## What the reads show -/

variable (h : InStep s) (o : Windows.Arrangement EntityRecord)

include h

theorem select_perm (p : EntityRecord → Bool) :
    ((twinTables s).select o p).Perm (s.1.records.items.filter p) := by
  unfold SpineTables.select
  rw [h.records]
  exact o.perm _

theorem history_eq (stableId : String) :
    (twinTables s).getHistory o stableId = s.1.getHistory stableId := by
  refine h.versioned.eq_history ((List.mergeSort_perm _ _).trans (h.select_perm o _)) ?_
  exact Lists.pairwise_mergeSort (r := fun r s : EntityRecord => r.version ≤ s.version)
    Int.le_trans (fun _ _ => Int.le_total _ _) _

theorem latest_eq (stableId : String) :
    (twinTables s).getLatest o stableId = s.1.getLatest stableId := by
  have hchain : ((((twinTables s).select o (fun r => r.stableId = stableId)).mergeSort
      (fun r s => s.version ≤ r.version)).reverse) = s.1.getHistory stableId := by
    refine h.versioned.eq_history ((List.reverse_perm _).trans
      ((List.mergeSort_perm _ _).trans (h.select_perm o _))) ?_
    rw [List.pairwise_reverse]
    exact Lists.pairwise_mergeSort (r := fun r s : EntityRecord => s.version ≤ r.version)
      (fun hrs hst => Int.le_trans hst hrs) (fun _ _ => Int.le_total _ _) _
  rw [EntityRegistry.getLatest_eq, ← hchain, List.getLast?_reverse]
  rfl

theorem query_perm (q : EntityQuery) : ((twinTables s).queryBy o q).Perm (s.1.queryBy q) := by
  unfold SpineTables.queryBy EntityRegistry.queryBy
  refine (((List.mergeSort_perm _ _).trans (h.select_perm o _)).filter _).trans ?_
  rw [List.filter_filter]
  simp only [Bool.and_comm]
  exact List.Perm.refl _

theorem recent_eq {J : JsonFunctions} {kind : String} {limit : Int} {filters : Dict Json}
    (hplain : 0 < limit → FiltersPlain J s.1 kind limit filters) :
    ∃ rs, (twinTables s).listRecentByKind o J kind limit filters = some rs
      ∧ rs.Perm (s.1.listRecentByKind kind limit filters) ∧ rs.map EntityRecord.createdAt
        = (s.1.listRecentByKind kind limit filters).map EntityRecord.createdAt := by
  unfold SpineTables.listRecentByKind EntityRegistry.listRecentByKind
  by_cases hlimit : limit ≤ 0
  · rw [if_pos hlimit, if_pos hlimit]
    exact ⟨[], rfl, List.Perm.refl _, rfl⟩
  · rw [if_neg hlimit, if_neg hlimit]
    obtain ⟨hfits, hvalues, hclauses, hcut⟩ := hplain (by omega)
    obtain ⟨clauses, hbind, hhold⟩ := clausesHold_of_plain J hvalues
    have hrows : ∀ r ∈ (twinTables s).select o (fun r => r.kind = kind),
        J.clausesHold r.metadata clauses = some (filters.items.all (metadataEquals r.metadata)) := by
      intro r hr
      obtain ⟨hmem, hkind⟩ := List.mem_filter.1 ((h.select_perm o _).mem_iff.1 hr)
      exact hhold r.metadata (hclauses r hmem (of_decide_eq_true hkind))
    have hnone : ((twinTables s).select o (fun r => r.kind = kind)).any
        (fun r => (J.clausesHold r.metadata clauses).isNone) = false := by
      rw [List.any_eq_false]
      intro r hr
      rw [hrows r hr]
      exact Bool.false_ne_true
    have hfilter : (((twinTables s).select o (fun r => r.kind = kind)).filter
        (fun r => J.clausesHold r.metadata clauses = some true)).Perm
        (s.1.recentMatches kind filters) := by
      have hsame : ((twinTables s).select o (fun r => r.kind = kind)).filter
          (fun r => J.clausesHold r.metadata clauses = some true)
          = ((twinTables s).select o (fun r => r.kind = kind)).filter
            (fun r => filters.items.all (metadataEquals r.metadata)) := by
        refine List.filter_congr ?_
        intro r hr
        rw [hrows r hr]
        cases filters.items.all (metadataEquals r.metadata) <;> rfl
      rw [hsame]
      refine ((h.select_perm o _).filter _).trans ?_
      unfold EntityRegistry.recentMatches
      rw [List.filter_filter]
      simp only [Bool.and_comm]
      exact List.Perm.refl _
    simp only [hbind, hfits, hnone, Bool.not_true, Bool.or_false, Bool.false_eq_true, if_false]
    let newer (r s : EntityRecord) : Bool := s.createdAt ≤ r.createdAt
    have hsorted := ((List.mergeSort_perm _ newer).trans hfilter).trans
      (List.mergeSort_perm _ newer).symm
    have hkeys := Windows.map_eq_of_perm hsorted
      (Windows.falling_mergeSort EntityRecord.createdAt _)
      (Windows.falling_mergeSort EntityRecord.createdAt _)
    refine ⟨_, rfl, ?_, ?_⟩
    · exact (Windows.take_perm hsorted.symm (Windows.falling_mergeSort EntityRecord.createdAt _)
        (Windows.falling_mergeSort EntityRecord.createdAt _) hcut).symm
    · rw [List.map_take, List.map_take, hkeys]

theorem readsAgree (J : JsonFunctions) : ReadsAgree J (fun kind limit filters =>
    0 < limit → FiltersPlain J s.1 kind limit filters) s where
  get := h.get_eq
  latest := h.latest_eq
  history := h.history_eq
  query := h.query_perm
  recent o _ _ _ hplain := h.recent_eq o hplain
  trace ids ids' recordId maxDepth direction relations := by
    have hcongr : (LineageRegistry.sqlite (twinTables s) ids').trace
        = (LineageRegistry.inMemory s.1 ids).trace :=
      LineageRegistry.trace_congr (funext h.get_eq) h.links
    rw [hcongr]

end InStep

/-! ## Whole runs -/

/-- The two registries are observably equal: after the same calls they have given the same answers
    and show the same, whatever the filter; which records of one instant a window shows is open. -/
def TwinsObservablyEqual (D : Digests) (J : JsonFunctions) : Prop :=
  ∀ registerBuffer dbChain calls,
    let s := (twins D).after (emptyTwins D registerBuffer dbChain) calls
    (∀ answer ∈ (twins D).answers (emptyTwins D registerBuffer dbChain) calls,
      answer.1 = answer.2)
    ∧ ReadsAgree J s.1.WindowClear s

theorem twins_agree (D : Digests) (J : JsonFunctions) (registerBuffer : Nat) (dbChain : Bool)
    (calls : List TwinCall)
    (hguard : (twins D).AlongRun (TwinGuard D) (emptyTwins D registerBuffer dbChain) calls) :
    let s := (twins D).after (emptyTwins D registerBuffer dbChain) calls
    (∀ answer ∈ (twins D).answers (emptyTwins D registerBuffer dbChain) calls,
      answer.1 = answer.2)
    ∧ ReadsAgree J (fun kind limit filters => 0 < limit → FiltersPlain J s.1 kind limit filters)
      s := by
  have hempty := InStep.empty D registerBuffer dbChain
  constructor
  · exact Machine.answers_invariant (P := fun answer => answer.1 = answer.2)
      (fun _ _ h hguard => h.step D hguard) hempty hguard
  · have hafter : InStep ((twins D).after (emptyTwins D registerBuffer dbChain) calls) :=
      Machine.after_invariant (fun _ _ h hguard => (h.step D hguard).1) hempty hguard
    exact hafter.readsAgree J

def taggedRecord (tag : String) : EntityRecord where
  recordId := "r-1"
  stableId := "s-1"
  version := 1
  kind := "run"
  payload := KeyedList.empty
  metadata := Dict.set KeyedList.empty tag (.str "x")
  createdAt := "2026-01-01T00:00:00+00:00"

def plainJson : JsonFunctions where
  labelMatches label key := label = key
  labelMatches_plain _ _ _ := decide_eq_true_iff
  subscript _ _ := none
  text s := s
  text_eq _ _ := rfl
  render := Json.canonical
  realEq m n := m = n

theorem twins_agree_registered :
    let calls := [TwinCall.register (taggedRecord "status")]
    let s := (twins codeDigests).after (emptyTwins codeDigests 1 false) calls
    (∀ answer ∈ (twins codeDigests).answers (emptyTwins codeDigests 1 false) calls,
      answer.1 = answer.2)
    ∧ ReadsAgree plainJson
      (fun kind limit filters => 0 < limit → FiltersPlain plainJson s.1 kind limit filters) s :=
  twins_agree codeDigests plainJson 1 false [.register (taggedRecord "status")]
    ⟨⟨by decide, fun _ hr => absurd hr List.not_mem_nil⟩, trivial⟩

/-- A key with a dot is a path of two labels to SQLite, and finds nothing. -/
theorem not_twinsObservablyEqual : ¬ TwinsObservablyEqual codeDigests plainJson := by
  intro hequal
  obtain ⟨-, hreads⟩ := hequal 1 false [.register (taggedRecord "a.b")]
  let s := (twins codeDigests).after (emptyTwins codeDigests 1 false)
    [.register (taggedRecord "a.b")]
  let filters : Dict Json := Dict.set KeyedList.empty "a.b" (.str "x")
  obtain ⟨rs, hrs, hperm, -⟩ := hreads.recent ⟨id, fun _ => List.Perm.refl _⟩ "run" 10 filters
    (by decide +kernel)
  have hsqlite : ((twinTables s).listRecentByKind ⟨id, fun _ => List.Perm.refl _⟩ plainJson "run" 10
      filters).map List.length = some 0 := by decide +kernel
  have hmemory : (s.1.listRecentByKind "run" 10 filters).length = 1 := by decide +kernel
  have hlength : rs.length = 0 := Option.some.inj ((congrArg (Option.map List.length) hrs).symm.trans
    hsqlite)
  rw [hperm.length_eq] at hlength
  exact absurd (hmemory.symm.trans hlength) (by decide)

end Himmy
