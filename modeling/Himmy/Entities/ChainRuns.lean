import Himmy.Entities.SqliteRegistry

/-! # Runs of the registries over one file

Each registry keeps the tip of the chain it believes in, and a row is inserted under that tip,
whatever other registries have committed meanwhile. The verification of the file therefore reports
`ok` in every state of a run exactly when every row that is inserted goes under the hash of the last
row there (`chainOk_iff_current`). -/

namespace Himmy

open SqliteEntityRegistry (newRow advance resetChainTip opened)

variable (D : Digests)

/-! ## Chained tables -/

variable (tables : SpineTables)

def SpineTables.IsChain : Prop :=
  (auditChain D).Chained Prod.fst chainedText (chainGenesisHash D) tables.chained

def SpineTables.lastHash : String :=
  (auditChain D).hashFrom (chainGenesisHash D) (tables.chained.map chainedText)

/-- `verify_db_chain` over the rows reports `ok`. -/
def SpineTables.VerifiesOk : Prop :=
  ∃ result, verifyDbChain D (tables.records.map SpineRow.toDbChainRow) = some result
    ∧ result.ok = true

theorem SpineTables.verifiesOk_iff :
    tables.VerifiesOk D ↔ (auditChain D).Intact Prod.fst chainedText tables.chained := by
  obtain ⟨result, hresult, hok⟩ := verifyDbChain_spec D (tables.records.map SpineRow.toDbChainRow)
  constructor
  · rintro ⟨result', hresult', hok'⟩
    rw [hresult] at hresult'
    rw [← Option.some.inj hresult'] at hok'
    exact hok.1 hok'
  · intro hintact
    exact ⟨result, hresult, hok.2 hintact⟩

theorem SpineTables.IsChain.verifiesOk {tables : SpineTables} (h : tables.IsChain D) :
    tables.VerifiesOk D :=
  (tables.verifiesOk_iff D).2 ⟨_, List.Perm.refl _, h⟩

theorem SpineTables.chained_congr {tables tables' : SpineTables}
    (h : tables.records = tables'.records) : tables.chained = tables'.chained := by
  unfold SpineTables.chained
  rw [h]

section Append

variable {tables tables' : SpineTables} (registry : SqliteEntityRegistry) (record : EntityRecord)

theorem SpineTables.chained_append_newRow
    (h : tables'.records = tables.records ++ [registry.newRow D record]) : tables'.chained
      = tables.chained ++ if registry.dbChain then [(registry.chainTip, record)] else [] := by
  unfold SpineTables.chained
  rw [h, List.map_append, chainedRows, List.filterMap_append]
  cases hchain : registry.dbChain with
  | true => simp [chainedRows, newRow, SpineRow.toDbChainRow, hchain]
  | false => simp [chainedRows, newRow, SpineRow.toDbChainRow, hchain]

theorem SpineTables.IsChain.verifiesOk_newRow_iff (ht : tables.IsChain D)
    (h : tables'.records = tables.records ++ [registry.newRow D record]) :
    tables'.VerifiesOk D ↔ (registry.dbChain = true → registry.chainTip = tables.lastHash D) := by
  rw [verifiesOk_iff, chained_append_newRow D registry record h]
  cases hchain : registry.dbChain with
  | true =>
    simp only [if_true, true_imp_iff]
    exact ChainHash.intact_concat_iff ht (registry.chainTip, record)
  | false =>
    simp only [Bool.false_eq_true, if_false, List.append_nil, false_imp_iff, iff_true]
    exact ⟨_, List.Perm.refl _, ht⟩

theorem SpineTables.IsChain.newRow (ht : tables.IsChain D)
    (h : tables'.records = tables.records ++ [registry.newRow D record])
    (htip : registry.dbChain = true → registry.chainTip = tables.lastHash D) :
    tables'.IsChain D := by
  unfold IsChain
  rw [chained_append_newRow D registry record h]
  cases hchain : registry.dbChain with
  | true =>
    simp only [if_true]
    exact (ChainHash.chained_concat _ _ _ _ _ _).2 ⟨ht, htip hchain⟩
  | false =>
    simp only [Bool.false_eq_true, if_false, List.append_nil]
    exact ht

theorem SpineTables.advance_newRow_chainTip
    (h : tables'.records = tables.records ++ [registry.newRow D record])
    (htip : registry.dbChain = true → registry.chainTip = tables.lastHash D)
    (hchain : registry.dbChain = true) :
    (registry.advance D (registry.newRow D record)).chainTip = tables'.lastHash D := by
  unfold lastHash
  rw [chained_append_newRow D registry record h, if_pos hchain, List.map_append, List.map_singleton,
    ChainHash.hashFrom_concat, ← lastHash, ← htip hchain]
  simp [advance, newRow, hchain, chainedText,
    step_auditChain]

end Append

theorem recomputeCommittedTip_eq {tables : SpineTables} (ht : tables.IsChain D) :
    recomputeCommittedTip D tables = tables.lastHash D := by
  have hnodup : (tables.chained.reverse.map Prod.fst).Nodup := by
    rw [List.map_reverse, List.nodup_reverse]
    exact ChainHash.Chained.nodup_prev ht
  have hwalk : ∀ l t : List ChainedRow, tables.chained = l ++ t →
      followTip D tables.chained t.length
          ((auditChain D).hashFrom (chainGenesisHash D) (l.map chainedText))
        = tables.lastHash D := by
    intro l t
    induction t generalizing l with
    | nil =>
      intro hsplit
      rw [List.append_nil] at hsplit
      rw [SpineTables.lastHash, hsplit]
      rfl
    | cons row t ih =>
      intro hsplit
      have hprev : row.1 = (auditChain D).hashFrom (chainGenesisHash D) (l.map chainedText) := by
        have hchained : (auditChain D).Chained Prod.fst chainedText (chainGenesisHash D)
            (l ++ row :: t) := hsplit ▸ ht
        exact hchained.prev_eq
      have hmem : row ∈ tables.chained.reverse := by
        simp [hsplit]
      have hfind := ChainHash.follow_of_mem hnodup hmem
      rw [ChainHash.follow, hprev] at hfind
      rw [List.length_cons, followTip, hfind]
      have hnext := ih (l ++ [row]) (by rw [hsplit, List.append_assoc]; rfl)
      rw [List.map_append, List.map_singleton, ChainHash.hashFrom_concat] at hnext
      exact hnext
  exact hwalk [] tables.chained rfl

/-! ## What the connections see

Everything but an `INSERT` into the records leaves each connection with records that some connection
saw before: a commit shows them to all, and a rollback shows again what was committed. -/

namespace SpineFile

variable {f g h : SpineFile} {i : Nat}

/-- The records that a connection sees in `g` are the records that one saw in `f`. -/
def Shows (g f : SpineFile) : Prop := ∀ j, ∃ k, (g.view j).records = (f.view k).records

theorem Shows.refl (f : SpineFile) : f.Shows f := fun j => ⟨j, rfl⟩

theorem Shows.trans (hgf : g.Shows f) (hhg : h.Shows g) : h.Shows f := by
  intro j
  obtain ⟨k, hk⟩ := hhg j
  obtain ⟨l, hl⟩ := hgf k
  exact ⟨l, hk.trans hl⟩

theorem exists_view_eq_tables (f : SpineFile) : ∃ k, f.view k = f.tables := by
  unfold view
  cases f.writer with
  | none => exact ⟨0, rfl⟩
  | some w => exact ⟨w.1 + 1, if_neg (by omega)⟩

theorem view_setRegistry (f : SpineFile) (i j : Nat) (registry : SqliteEntityRegistry) :
    (f.setRegistry i registry).view j = f.view j := rfl

theorem view_write (f : SpineFile) (i j : Nat) (tables : SpineTables) :
    (f.write i tables).view j = if i = j then tables else f.tables := rfl

theorem shows_setRegistry (f : SpineFile) (i : Nat) (registry : SqliteEntityRegistry) :
    (f.setRegistry i registry).Shows f := fun j => ⟨j, rfl⟩

theorem shows_write {tables : SpineTables} (hrecords : tables.records = (f.view i).records) :
    (f.write i tables).Shows f := by
  intro j
  rw [view_write]
  split
  · exact ⟨i, hrecords⟩
  · obtain ⟨k, hk⟩ := f.exists_view_eq_tables
    exact ⟨k, by rw [hk]⟩

variable (f : SpineFile)

variable (i : Nat)

theorem commit_cases : f.commit i = f
      ∨ ∃ tables, f.writer = some (i, tables) ∧ f.commit i = { f with tables, writer := none } := by
  unfold commit
  split
  · next j tables hwriter =>
      split
      · next hij => exact Or.inr ⟨tables, by rw [hwriter, hij], rfl⟩
      · exact Or.inl rfl
  · exact Or.inl rfl

theorem shows_commit : (f.commit i).Shows f := by
  rcases f.commit_cases i with hcommit | ⟨tables, hwriter, hcommit⟩
  · rw [hcommit]
    exact Shows.refl f
  · rw [hcommit]
    intro j
    exact ⟨i, by simp [view, hwriter]⟩

theorem view_commit_self : (f.commit i).view i = f.view i := by
  rcases f.commit_cases i with hcommit | ⟨tables, hwriter, hcommit⟩
  · rw [hcommit]
  · rw [hcommit]
    simp [view, hwriter]

theorem shows_rollback : (f.rollback i).Shows f := by
  unfold rollback
  split
  · intro j
    obtain ⟨k, hk⟩ := f.exists_view_eq_tables
    exact ⟨k, by rw [hk]; rfl⟩
  · exact Shows.refl f

theorem shows_commitLocked (registry : SqliteEntityRegistry) :
    (f.commitLocked i registry).Shows f :=
  (f.shows_commit i).trans (shows_setRegistry _ _ _)

theorem shows_countPending (registry : SqliteEntityRegistry) :
    (f.countPending i registry).Shows f := by
  unfold countPending
  simp only
  split
  · exact shows_commitLocked _ _ _
  · exact shows_setRegistry _ _ _

theorem view_countPending_self (registry : SqliteEntityRegistry) :
    (f.countPending i registry).view i = f.view i := by
  unfold countPending
  simp only
  split
  · exact f.view_commit_self i
  · rfl

theorem shows_flush (registry : SqliteEntityRegistry) : (f.flush i registry).Shows f := by
  unfold flush
  split
  · exact Shows.refl f
  · exact shows_commitLocked _ _ _

theorem shows_undo (registry : SqliteEntityRegistry) : (f.undo D i registry).Shows f :=
  (f.shows_rollback i).trans (shows_setRegistry _ _ _)

theorem shows_drop : (f.drop i).Shows f := by
  intro j
  exact f.shows_rollback i j

/-! ## Insertions -/

theorem view_insertRow (i j : Nat) (registry : SqliteEntityRegistry) (row : SpineRow) :
    (∃ k, ((f.insertRow D i registry row).view j).records = (f.view k).records)
      ∨ ((f.insertRow D i registry row).view j).records = (f.view i).records ++ [row] := by
  unfold insertRow
  rw [view_setRegistry, view_write]
  split
  · exact Or.inr rfl
  · obtain ⟨k, hk⟩ := f.exists_view_eq_tables
    exact Or.inl ⟨k, by rw [hk]⟩

theorem view_insertRow_self (i : Nat) (registry : SqliteEntityRegistry) (row : SpineRow) :
    ((f.insertRow D i registry row).view i).records = (f.view i).records ++ [row] := by
  unfold insertRow
  rw [view_setRegistry, view_write, if_pos rfl]

end SpineFile

theorem insertRecord_eq_row {registry : SqliteEntityRegistry} {tables : SpineTables} {locked : Bool}
    {record stored : EntityRecord} {row : SpineRow}
    (h : insertRecord D registry tables locked record = .ok (stored, some row)) :
    row = registry.newRow D record := by
  unfold insertRecord at h
  split at h
  · split at h <;> cases h
  · split at h
    · cases h
    · split at h <;> cases h
      rfl

theorem insertVersion_eq_row {registry : SqliteEntityRegistry} {tables : SpineTables}
    {call : NewVersion} {stored : EntityRecord} {row : SpineRow}
    (h : insertVersion D registry tables call = .ok (stored, some row)) :
    ∃ record, row = registry.newRow D record := by
  unfold insertVersion at h
  simp only at h
  split at h
  · cases h
  · exact ⟨_, insertRecord_eq_row D h⟩

/-- The registry whose call inserts a row in the step, with the tables that the row goes into. -/
def SpineFile.inserter (f : SpineFile) : SpineAction → Option (SqliteEntityRegistry × SpineTables)
  | .call i (.register record) => (f.registryAt i).bind fun registry =>
    match insertRecord D registry (f.view i) (f.lockedFor i) record with
    | .ok (_, some _) => some (registry, f.view i)
    | _ => none
  | .call i (.newVersion call) => (f.registryAt i).bind fun registry =>
    let f := f.flush i registry
    let registry := { registry with pending := 0 }
    if f.writer.isSome then none
    else match insertVersion D registry (f.view i) call with
      | .ok (_, some _) => some (registry, f.view i)
      | _ => none
  | _ => none

namespace SpineFile

variable {f g h : SpineFile} {i : Nat} {registry : SqliteEntityRegistry} {tables : SpineTables}

/-- In `g` a registry has put a new row into tables that a connection saw in `f`; the other
    connections see what one saw in `f`. -/
def Inserts (g f : SpineFile) (registry : SqliteEntityRegistry) (tables : SpineTables) : Prop :=
  ∃ record, (∃ k, tables.records = (f.view k).records)
    ∧ (∃ j, (g.view j).records = tables.records ++ [registry.newRow D record])
    ∧ ∀ j, (∃ k, (g.view j).records = (f.view k).records)
        ∨ (g.view j).records = tables.records ++ [registry.newRow D record]

theorem Inserts.of_shows (hinserts : g.Inserts D h registry tables) (hs : h.Shows f) :
    g.Inserts D f registry tables := by
  obtain ⟨record, ⟨k, hk⟩, hnew, hall⟩ := hinserts
  obtain ⟨l, hl⟩ := hs k
  refine ⟨record, ⟨l, hk.trans hl⟩, hnew, ?_⟩
  intro j
  rcases hall j with ⟨k, hk⟩ | hrow
  · obtain ⟨l, hl⟩ := hs k
    exact Or.inl ⟨l, hk.trans hl⟩
  · exact Or.inr hrow

theorem inserts_of_insertRow {record : EntityRecord} {row : SpineRow}
    (hrow : row = registry.newRow D record) {next : SqliteEntityRegistry}
    (hshows : g.Shows (f.insertRow D i next row))
    (hself : (g.view i).records = ((f.insertRow D i next row).view i).records) :
    g.Inserts D f registry (f.view i) := by
  subst hrow
  refine ⟨record, ⟨i, rfl⟩, ⟨i, hself.trans (f.view_insertRow_self D i next _)⟩, ?_⟩
  intro j
  obtain ⟨k, hk⟩ := hshows j
  rcases f.view_insertRow D i k next (registry.newRow D record) with ⟨l, hl⟩ | hnew
  · exact Or.inl ⟨l, hk.trans hl⟩
  · exact Or.inr (hk.trans hnew)

theorem register_cases (hregistry : f.registryAt i = some registry) (record : EntityRecord) :
    (f.inserter D (.call i (.register record)) = none ∧ (f.register D i registry record).1.Shows f)
      ∨ ∃ registry' tables, f.inserter D (.call i (.register record)) = some (registry', tables)
          ∧ (f.register D i registry record).1.Inserts D f registry' tables := by
  unfold inserter register
  simp only [hregistry, Option.bind_some]
  cases hinsert : insertRecord D registry (f.view i) (f.lockedFor i) record with
  | error e => exact Or.inl ⟨rfl, shows_undo D f i registry⟩
  | ok stored =>
    obtain ⟨stored, row⟩ := stored
    cases row with
    | none => exact Or.inl ⟨rfl, shows_countPending f i registry⟩
    | some row =>
      refine Or.inr ⟨registry, f.view i, rfl, ?_⟩
      exact inserts_of_insertRow D (insertRecord_eq_row D hinsert)
        (shows_countPending _ i _) (congrArg SpineTables.records (view_countPending_self _ i _))

theorem newVersion_cases (hregistry : f.registryAt i = some registry) (call : NewVersion) :
    (f.inserter D (.call i (.newVersion call)) = none ∧ (f.newVersion D i registry call).1.Shows f)
      ∨ ∃ registry' tables, f.inserter D (.call i (.newVersion call)) = some (registry', tables)
          ∧ (f.newVersion D i registry call).1.Inserts D f registry' tables := by
  have hflush := shows_flush f i registry
  unfold inserter newVersion
  simp only [hregistry, Option.bind_some]
  by_cases hwriter : (f.flush i registry).writer.isSome = true
  · simp only [if_pos hwriter]
    exact Or.inl ⟨trivial, hflush⟩
  · simp only [if_neg hwriter]
    cases hinsert : insertVersion D { registry with pending := 0 } ((f.flush i registry).view i)
        call with
    | error e => exact Or.inl ⟨rfl, hflush.trans (shows_undo D _ i _)⟩
    | ok stored =>
      obtain ⟨stored, row⟩ := stored
      cases row with
      | none => exact Or.inl ⟨rfl, hflush⟩
      | some row =>
        obtain ⟨record, hrow⟩ := insertVersion_eq_row D hinsert
        refine Or.inr ⟨_, _, rfl, ?_⟩
        exact (inserts_of_insertRow D hrow (shows_commit _ i)
          (congrArg SpineTables.records (view_commit_self _ i))).of_shows D hflush

theorem shows_link (f : SpineFile) (i : Nat) (registry : SqliteEntityRegistry) (link : EntityLink) :
    (f.link i registry link).1.Shows f := by
  unfold SpineFile.link
  simp only
  split
  · exact Shows.refl f
  · split
    · exact shows_write rfl
    · have hwrite : (f.write i { f.view i with links := (f.view i).links ++ [link] }).Shows f :=
        shows_write rfl
      exact hwrite.trans (shows_commitLocked _ i registry)

theorem step_cases {a : SpineAction} (hstep : (spineFile D).step f a = some g) :
    (f.inserter D a = none ∧ g.Shows f)
      ∨ ∃ registry tables, f.inserter D a = some (registry, tables)
          ∧ g.Inserts D f registry tables := by
  cases a with
  | openRegistry registerBuffer dbChain =>
    cases hstep
    exact Or.inl ⟨rfl, fun j => ⟨j, rfl⟩⟩
  | call i call =>
    obtain ⟨registry, hregistry, rfl⟩ := Option.map_eq_some_iff.1 hstep
    cases call with
    | register record => exact register_cases D hregistry record
    | newVersion call => exact newVersion_cases D hregistry call
    | link link => exact Or.inl ⟨rfl, shows_link f i registry link⟩
    | flush => exact Or.inl ⟨rfl, shows_flush f i registry⟩
  | fails i =>
    obtain ⟨registry, -, rfl⟩ := Option.map_eq_some_iff.1 hstep
    exact Or.inl ⟨rfl, shows_undo D f i registry⟩
  | failsTwice i =>
    obtain ⟨registry, -, rfl⟩ := Option.map_eq_some_iff.1 hstep
    exact Or.inl ⟨rfl, (shows_rollback f i).trans (shows_setRegistry _ _ _)⟩
  | linkFails i link =>
    obtain ⟨registry, -, rfl⟩ := Option.map_eq_some_iff.1 hstep
    refine Or.inl ⟨rfl, ?_⟩
    split
    · exact Shows.refl f
    · exact shows_write rfl
  | rolledBack i =>
    obtain ⟨registry, -, rfl⟩ := Option.map_eq_some_iff.1 hstep
    exact Or.inl ⟨rfl, shows_rollback f i⟩
  | close i =>
    obtain ⟨registry, -, rfl⟩ := Option.map_eq_some_iff.1 hstep
    exact Or.inl ⟨rfl, (shows_flush f i registry).trans (shows_drop _ i)⟩
  | crash i =>
    obtain ⟨registry, -, rfl⟩ := Option.map_eq_some_iff.1 hstep
    exact Or.inl ⟨rfl, shows_drop f i⟩

theorem step_of_inserter {a : SpineAction} (h : f.inserter D a = some (registry, tables)) :
    ∃ g, (spineFile D).step f a = some g := by
  cases a with
  | call i call =>
    cases call with
    | register record =>
      obtain ⟨registry, hregistry, -⟩ := Option.bind_eq_some_iff.1 h
      exact ⟨_, Option.map_eq_some_iff.2 ⟨registry, hregistry, rfl⟩⟩
    | newVersion call =>
      obtain ⟨registry, hregistry, -⟩ := Option.bind_eq_some_iff.1 h
      exact ⟨_, Option.map_eq_some_iff.2 ⟨registry, hregistry, rfl⟩⟩
    | link link => cases h
    | flush => cases h
  | openRegistry registerBuffer dbChain => cases h
  | fails i => cases h
  | failsTwice i => cases h
  | linkFails i link => cases h
  | rolledBack i => cases h
  | close i => cases h
  | crash i => cases h

/-! ## No false alarm -/

/-- `verify_db_chain` reports `ok` on what any connection sees. -/
def ChainOk (f : SpineFile) : Prop := ∀ i, (f.view i).VerifiesOk D

def Current (f : SpineFile) (a : SpineAction) : Prop :=
  ∀ registry tables, f.inserter D a = some (registry, tables) → registry.dbChain = true →
    registry.chainTip = tables.lastHash D

/-- The rows that each connection sees are a chain in their order. -/
def IsChain (f : SpineFile) : Prop := ∀ i, (f.view i).IsChain D

theorem IsChain.chainOk (hf : f.IsChain D) : f.ChainOk D := fun i => (hf i).verifiesOk D

theorem isChain_of_records {tables tables' : SpineTables} (h : tables.IsChain D)
    (hrecords : tables'.records = tables.records) : tables'.IsChain D := by
  unfold SpineTables.IsChain
  rw [SpineTables.chained_congr hrecords]
  exact h

theorem IsChain.shows (hf : f.IsChain D) (hs : g.Shows f) : g.IsChain D := by
  intro j
  obtain ⟨k, hk⟩ := hs j
  exact isChain_of_records D (hf k) hk

theorem IsChain.step (hf : f.IsChain D) {a : SpineAction} (hc : f.Current D a)
    (hstep : (spineFile D).step f a = some g) : g.IsChain D := by
  rcases step_cases D hstep with ⟨-, hs⟩ | ⟨registry, tables, hinserter, hinserts⟩
  · exact hf.shows D hs
  · obtain ⟨record, ⟨k, hk⟩, -, hall⟩ := hinserts
    have ht := isChain_of_records D (hf k) hk
    intro j
    rcases hall j with ⟨l, hl⟩ | hnew
    · exact isChain_of_records D (hf l) hl
    · exact ht.newRow D registry record hnew (hc registry tables hinserter)

theorem IsChain.current (hf : f.IsChain D) {a : SpineAction}
    (hok : ∀ g, (spineFile D).step f a = some g → g.ChainOk D) : f.Current D a := by
  intro registry tables hinserter
  obtain ⟨g, hstep⟩ := step_of_inserter D hinserter
  rcases step_cases D hstep with ⟨hnone, -⟩ | ⟨registry', tables', hinserter', hinserts⟩
  · rw [hnone] at hinserter
    cases hinserter
  · rw [hinserter] at hinserter'
    cases hinserter'
    obtain ⟨record, ⟨k, hk⟩, ⟨j, hj⟩, -⟩ := hinserts
    have ht := isChain_of_records D (hf k) hk
    exact (ht.verifiesOk_newRow_iff D registry record hj).1 (hok g hstep j)

theorem isChain_init : ({} : SpineFile).IsChain D := fun _ => trivial

/-- Every state of a run verifies exactly when every row that is chained in the run goes under the
    hash of the last row. -/
theorem chainOk_iff_current (actions : List SpineAction) :
    (spineFile D).AlongRun (fun f a => ∀ g, (spineFile D).step f a = some g → g.ChainOk D) {} actions
      ↔ (spineFile D).AlongRun (fun f a => f.Current D a) {} actions := by
  have hrun : ∀ f : SpineFile, f.IsChain D →
      ((spineFile D).AlongRun (fun f a => ∀ g, (spineFile D).step f a = some g → g.ChainOk D) f
          actions
        ↔ (spineFile D).AlongRun (fun f a => f.Current D a) f actions) := by
    induction actions with
    | nil => exact fun f _ => Iff.rfl
    | cons a actions ih =>
      intro f hf
      constructor
      · rintro ⟨hok, hrest⟩
        have hc := hf.current D hok
        exact ⟨hc, fun g hstep => (ih g (hf.step D hc hstep)).1 (hrest g hstep)⟩
      · rintro ⟨hc, hrest⟩
        exact ⟨fun g hstep => (hf.step D hc hstep).chainOk D,
          fun g hstep => (ih g (hf.step D hc hstep)).2 (hrest g hstep)⟩
  exact hrun {} (isChain_init D)

def ChainOn : SpineAction → Prop
  | .openRegistry _ dbChain => dbChain = true
  | _ => True

/-- However the registries interleave and fail, the file that is left verifies. -/
def RaisesNoFalseAlarm : Prop :=
  ∀ actions f, (∀ a ∈ actions, ChainOn a) → (spineFile D).exec {} actions = some f →
    f.tables.VerifiesOk D

private def reportRecord (id : String) : EntityRecord :=
  { recordId := id, stableId := id, version := 1, kind := "report", payload := KeyedList.empty
    metadata := KeyedList.empty, createdAt := "t0" }

private def freshRegistry : SqliteEntityRegistry :=
  { registerBuffer := 1, dbChain := true, chainTip := chainGenesisHash codeDigests }

/-- The file after two registries, opened on it while it was empty, have registered a record each. -/
private def forkedFile : SpineFile :=
  let first := freshRegistry.newRow codeDigests (reportRecord "r-1")
  let second := freshRegistry.newRow codeDigests (reportRecord "r-2")
  { tables := { records := [first] ++ [second] }
    registries := [some (freshRegistry.advance codeDigests first),
      some (freshRegistry.advance codeDigests second)] }

theorem not_raisesNoFalseAlarm : ¬ RaisesNoFalseAlarm codeDigests := by
  intro h
  have hok := h [.openRegistry 1 true, .openRegistry 1 true, .call 0 (.register (reportRecord "r-1")),
    .call 1 (.register (reportRecord "r-2"))] forkedFile
    (by simp [ChainOn]) rfl
  have hempty : ({} : SpineTables).IsChain codeDigests := trivial
  have hfirst : SpineTables.IsChain codeDigests
      { records := [freshRegistry.newRow codeDigests (reportRecord "r-1")] } :=
    hempty.newRow codeDigests freshRegistry (reportRecord "r-1") rfl (fun _ => rfl)
  have htip := (hfirst.verifiesOk_newRow_iff codeDigests freshRegistry (reportRecord "r-2") rfl).1
    hok rfl
  exact (auditChain codeDigests).step_ne_genesis _ _ htip.symm

/-! ## One registry at a time -/

/-- The only open registry: the transaction is its own, and its tip is that of the rows it sees. -/
structure SoleAt (f : SpineFile) (i : Nat) (registry : SqliteEntityRegistry) : Prop where
  here : f.registryAt i = some registry
  only : ∀ j, j ≠ i → f.registryAt j = none
  writer : ∀ w, f.writer = some w → w.1 = i
  tip : registry.dbChain = true → registry.chainTip = (f.view i).lastHash D

theorem registryAt_setRegistry_of_ne (f : SpineFile) {i j : Nat} (registry : SqliteEntityRegistry)
    (hij : j ≠ i) : (f.setRegistry i registry).registryAt j = f.registryAt j := by
  simp only [registryAt, setRegistry, List.getElem?_set_ne (Ne.symm hij)]

theorem registryAt_setRegistry_self {registry : SqliteEntityRegistry}
    (hregistry : f.registryAt i = some registry) (registry' : SqliteEntityRegistry) :
    (f.setRegistry i registry').registryAt i = some registry' := by
  have hlt : i < f.registries.length := by
    by_contra hge
    rw [registryAt, List.getElem?_eq_none (not_lt.1 hge)] at hregistry
    cases hregistry
  simp only [registryAt, setRegistry, List.getElem?_set_self hlt, Option.join_some]

theorem SoleAt.setRegistry (hf : f.SoleAt D i registry) (hregistries : g.registries = f.registries)
    (hwriter : ∀ w, g.writer = some w → w.1 = i) {registry' : SqliteEntityRegistry}
    (htip : registry'.dbChain = true → registry'.chainTip = (g.view i).lastHash D) :
    (g.setRegistry i registry').SoleAt D i registry' := by
  have hall : ∀ j, g.registryAt j = f.registryAt j := by
    intro j
    rw [registryAt, registryAt, hregistries]
  refine ⟨?_, ?_, hwriter, htip⟩
  · exact registryAt_setRegistry_self ((hall i).trans hf.here) registry'
  · intro j hij
    rw [registryAt_setRegistry_of_ne g registry' hij, hall, hf.only j hij]

theorem lastHash_congr {tables tables' : SpineTables} (h : tables'.records = tables.records) :
    tables'.lastHash D = tables.lastHash D := by
  unfold SpineTables.lastHash
  rw [SpineTables.chained_congr h]

theorem registries_commit (f : SpineFile) (i : Nat) : (f.commit i).registries = f.registries := by
  rcases f.commit_cases i with hcommit | ⟨tables, -, hcommit⟩
  · rw [hcommit]
  · rw [hcommit]

theorem registries_rollback (f : SpineFile) (i : Nat) :
    (f.rollback i).registries = f.registries := by
  unfold rollback
  split <;> rfl

theorem SoleAt.commit (hf : f.SoleAt D i registry) : (f.commit i).SoleAt D i registry := by
  have hall : ∀ j, (f.commit i).registryAt j = f.registryAt j := by
    intro j
    rw [registryAt, registryAt, registries_commit]
  refine ⟨(hall i).trans hf.here, fun j hij => (hall j).trans (hf.only j hij), ?_, ?_⟩
  · intro w hw
    rcases f.commit_cases i with hcommit | ⟨tables, -, hcommit⟩
    · rw [hcommit] at hw
      exact hf.writer w hw
    · rw [hcommit] at hw
      cases hw
  · rw [view_commit_self]
    exact hf.tip

theorem SoleAt.writer_rollback (hf : f.SoleAt D i registry) : (f.rollback i).writer = none := by
  unfold rollback
  cases hwriter : f.writer with
  | none => simp [hwriter]
  | some w => simp [hf.writer w hwriter]

theorem SoleAt.commitLocked (hf : f.SoleAt D i registry) :
    (f.commitLocked i registry).SoleAt D i { registry with pending := 0 } :=
  (hf.commit D).setRegistry D rfl (hf.commit D).writer (hf.commit D).tip

def LeavesSole (g : SpineFile) (i : Nat) (dbChain : Bool) : Prop :=
  ∃ registry, g.SoleAt D i registry ∧ registry.dbChain = dbChain

theorem SoleAt.countPending (hf : f.SoleAt D i registry) :
    (f.countPending i registry).LeavesSole D i registry.dbChain := by
  unfold SpineFile.countPending
  simp only
  split
  · exact ⟨_, (hf.commit D).setRegistry D rfl (hf.commit D).writer (hf.commit D).tip, rfl⟩
  · exact ⟨_, hf.setRegistry D rfl hf.writer hf.tip, rfl⟩

theorem SoleAt.flush (hf : f.SoleAt D i registry) :
    (f.flush i registry).SoleAt D i { registry with pending := 0 } := by
  unfold SpineFile.flush
  split
  · next hzero =>
      have hsame : { registry with pending := 0 } = registry := by rw [← hzero]
      rw [hsame]
      exact hf
  · exact hf.commitLocked D

theorem dbChain_advance (registry : SqliteEntityRegistry) (row : SpineRow) :
    (registry.advance D row).dbChain = registry.dbChain := by
  unfold advance
  split <;> rfl

theorem dbChain_resetChainTip (registry : SqliteEntityRegistry) (tables : SpineTables) :
    (registry.resetChainTip D tables).dbChain = registry.dbChain := by
  unfold resetChainTip
  split <;> rfl

section

variable (hf : f.SoleAt D i registry)

include hf

theorem SoleAt.insertRow (record : EntityRecord) :
    (f.insertRow D i registry (registry.newRow D record)).SoleAt D i
      (registry.advance D (registry.newRow D record)) := by
  refine hf.setRegistry D (g := f.write i
    { f.view i with records := (f.view i).records ++ [registry.newRow D record] }) rfl
    (fun w hw => ?_) (fun hchain => ?_)
  · cases hw
    rfl
  · rw [dbChain_advance] at hchain
    refine SpineTables.advance_newRow_chainTip D registry record ?_ hf.tip hchain
    exact f.view_insertRow_self D i registry _

theorem SoleAt.undo (hchain : f.IsChain D) :
    (f.undo D i registry).LeavesSole D i registry.dbChain := by
  refine ⟨_, hf.setRegistry D (f.registries_rollback i) (fun w hw => ?_) (fun hon => ?_),
    dbChain_resetChainTip D _ _⟩
  · rw [hf.writer_rollback] at hw
    cases hw
  · rw [dbChain_resetChainTip] at hon
    unfold resetChainTip
    rw [if_pos hon]
    exact recomputeCommittedTip_eq D ((hchain.shows D (f.shows_rollback i)) i)

theorem SoleAt.register (hchain : f.IsChain D) (record : EntityRecord) :
    (f.register D i registry record).1.LeavesSole D i registry.dbChain := by
  unfold SpineFile.register
  cases hinsert : insertRecord D registry (f.view i) (f.lockedFor i) record with
  | error e => exact hf.undo D hchain
  | ok stored =>
    obtain ⟨stored, row⟩ := stored
    cases row with
    | none => exact hf.countPending D
    | some row =>
      have hrow := insertRecord_eq_row D hinsert
      subst hrow
      have hleaves := (hf.insertRow D record).countPending D
      rwa [dbChain_advance] at hleaves

theorem SoleAt.newVersion (hchain : f.IsChain D) (call : NewVersion) :
    (f.newVersion D i registry call).1.LeavesSole D i registry.dbChain := by
  have hflush := hf.flush D
  have hflushed := hchain.shows D (shows_flush f i registry)
  unfold SpineFile.newVersion
  simp only
  split
  · exact ⟨_, hflush, rfl⟩
  · cases hinsert : insertVersion D { registry with pending := 0 } ((f.flush i registry).view i)
        call with
    | error e => exact hflush.undo D hflushed
    | ok stored =>
      obtain ⟨stored, row⟩ := stored
      cases row with
      | none => exact ⟨_, hflush, rfl⟩
      | some row =>
        obtain ⟨record, rfl⟩ := insertVersion_eq_row D hinsert
        exact ⟨_, (hflush.insertRow D record).commit D, dbChain_advance D _ _⟩

theorem SoleAt.write
    (hrecords : tables.records = (f.view i).records) : (f.write i tables).SoleAt D i registry := by
  refine ⟨hf.here, hf.only, fun w hw => ?_, fun hchain => ?_⟩
  · cases hw
    rfl
  · rw [view_write, if_pos rfl, lastHash_congr D hrecords]
    exact hf.tip hchain

theorem SoleAt.link (link : EntityLink) :
    (f.link i registry link).1.LeavesSole D i registry.dbChain := by
  unfold SpineFile.link
  simp only
  split
  · exact ⟨_, hf, rfl⟩
  · split
    · exact ⟨_, hf.write D rfl, rfl⟩
    · have hwrite : (f.write i { f.view i with links := (f.view i).links ++ [link] }).SoleAt D i
          registry := hf.write D rfl
      exact ⟨_, hwrite.commitLocked D, rfl⟩

theorem SoleAt.perform (hchain : f.IsChain D) (call : SpineCall) :
    (f.perform D i registry call).LeavesSole D i registry.dbChain := by
  cases call with
  | register record => exact hf.register D hchain record
  | newVersion call => exact hf.newVersion D hchain call
  | link link => exact hf.link D link
  | flush => exact ⟨_, hf.flush D, rfl⟩

theorem SoleAt.inserter {call : SpineCall}
    {inserter : SqliteEntityRegistry} (h : f.inserter D (.call i call) = some (inserter, tables)) :
    inserter.dbChain = registry.dbChain
      ∧ (inserter.dbChain = true → inserter.chainTip = tables.lastHash D) := by
  cases call with
  | register record =>
    obtain ⟨reg, hreg, h⟩ := Option.bind_eq_some_iff.1 h
    rw [hf.here] at hreg
    cases hreg
    split at h <;> cases h
    exact ⟨rfl, hf.tip⟩
  | newVersion call =>
    obtain ⟨reg, hreg, h⟩ := Option.bind_eq_some_iff.1 h
    rw [hf.here] at hreg
    cases hreg
    simp only at h
    split at h
    · cases h
    · split at h <;> cases h
      exact ⟨rfl, (hf.flush D).tip⟩
  | link link => cases h
  | flush => cases h

theorem SoleAt.current (call : SpineCall) : f.Current D (.call i call) :=
  fun _ _ h => (hf.inserter D h).2

end

/-- No registry is open. -/
structure Closed (f : SpineFile) : Prop where
  none_open : ∀ j, f.registryAt j = none
  no_writer : f.writer = none

theorem Closed.openRegistry (hf : f.Closed) (hchain : f.IsChain D) (registerBuffer : Nat)
    (dbChain : Bool) : (f.openRegistry D registerBuffer dbChain).SoleAt D f.registries.length
      (opened D f.tables registerBuffer dbChain) := by
  refine ⟨?_, ?_, ?_, ?_⟩
  · simp only [registryAt, SpineFile.openRegistry, List.getElem?_concat_length]
    rfl
  · intro j hj
    have hnone := hf.none_open j
    simp only [registryAt, SpineFile.openRegistry] at hnone ⊢
    rcases Nat.lt_or_ge j f.registries.length with hlt | hge
    · rw [List.getElem?_append_left hlt, hnone]
    · rw [List.getElem?_eq_none (by simp; omega)]
      rfl
  · intro w hw
    have hnone : f.writer = some w := hw
    rw [hf.no_writer] at hnone
    cases hnone
  · intro hon
    have hview : (f.openRegistry D registerBuffer dbChain).view f.registries.length = f.tables := by
      have hwriter : (f.openRegistry D registerBuffer dbChain).writer = none := hf.no_writer
      rw [view, hwriter]
      rfl
    have htables : f.tables.IsChain D := by
      obtain ⟨k, hk⟩ := f.exists_view_eq_tables
      exact hk ▸ hchain k
    have hdb : dbChain = true := hon
    rw [hview]
    simp only [opened, hdb, if_true]
    exact recomputeCommittedTip_eq D htables

theorem SoleAt.drop (hf : f.SoleAt D i registry) : (f.drop i).Closed := by
  refine ⟨fun j => ?_, hf.writer_rollback⟩
  by_cases hij : j = i
  · subst hij
    simp only [SpineFile.drop, registryAt, List.getElem?_set_self']
    cases f.registries[j]? <;> rfl
  · have hnone := hf.only j hij
    simp only [SpineFile.drop, registryAt, List.getElem?_set_ne (Ne.symm hij)] at hnone ⊢
    exact hnone

end SpineFile

end Himmy
