import Himmy.Entities.ChainRuns

/-! # Changes to the record table outside the registry

What `verify_db_chain` reports after one change to a table that registries have written one after
another. Each row is vouched for by its successor, through the hash of its content and the hash it
declares; the id, the date and the stored content hash are not in it. A row with a successor can
therefore not be deleted, nor changed in what the chain covers, without a report, and a change of
anything else goes unreported (`tampering_reported`). -/

namespace Himmy

variable (D : Digests)

namespace SpineFile

variable {f g : SpineFile} {i : Nat} {registry : SqliteEntityRegistry}

/-! ## The tables of sessions -/

/-- The rows that each connection sees are a chain, and all of them are in it. -/
structure Linked (f : SpineFile) : Prop where
  chain : f.IsChain D
  all : ∀ i, ∀ row ∈ (f.view i).records, row.prevHash.isSome = true

theorem Linked.shows (hf : f.Linked D) (hs : g.Shows f) : g.Linked D := by
  refine ⟨hf.chain.shows D hs, fun j row hrow => ?_⟩
  obtain ⟨k, hk⟩ := hs j
  exact hf.all k row (hk ▸ hrow)

theorem Linked.perform (hf : f.Linked D) (hsole : f.SoleAt D i registry)
    (hon : registry.dbChain = true) (call : SpineCall) :
    (f.perform D i registry call).Linked D := by
  have hstep : (spineFile D).step f (.call i call) = some (f.perform D i registry call) :=
    Option.map_eq_some_iff.2 ⟨registry, hsole.here, rfl⟩
  refine ⟨hf.chain.step D (hsole.current D call) hstep, fun j row hrow => ?_⟩
  rcases step_cases D hstep with ⟨-, hs⟩ | ⟨inserter, tables, hinserter, hinserts⟩
  · exact (hf.shows D hs).all j row hrow
  · obtain ⟨record, ⟨k, hk⟩, -, hall⟩ := hinserts
    rcases hall j with ⟨l, hl⟩ | hnew
    · exact hf.all l row (hl ▸ hrow)
    · rw [hnew, hk] at hrow
      rcases List.mem_append.1 hrow with hrow | hrow
      · exact hf.all k row hrow
      · have hchain := (hsole.inserter D hinserter).1.trans hon
        rw [List.mem_singleton.1 hrow]
        simp [SqliteEntityRegistry.newRow, hchain]

theorem exec_calls (calls : List SpineCall) (hf : f.Linked D) (hsole : f.SoleAt D i registry)
    (hon : registry.dbChain = true) :
    ∃ g, (spineFile D).exec f (calls.map (.call i)) = some g ∧ g.Linked D
      ∧ g.LeavesSole D i true := by
  induction calls generalizing f registry with
  | nil => exact ⟨f, rfl, hf, registry, hsole, hon⟩
  | cons call calls ih =>
    obtain ⟨registry', hsole', hchain⟩ := hsole.perform D hf.chain call
    obtain ⟨g, hrun, hg⟩ := ih (hf.perform D hsole hon call) hsole' (hchain.trans hon)
    refine ⟨g, (spineFile D).exec_cons_eq_some.2 ⟨_, ?_, hrun⟩, hg⟩
    exact Option.map_eq_some_iff.2 ⟨registry, hsole.here, rfl⟩

theorem session_spec (hclosed : f.Closed) (hf : f.Linked D) (registerBuffer : Nat)
    (calls : List SpineCall) :
    (f.session D registerBuffer calls).Closed ∧ (f.session D registerBuffer calls).Linked D := by
  have hopen := hclosed.openRegistry D hf.chain registerBuffer true
  have hlinked : (f.openRegistry D registerBuffer true).Linked D := hf.shows D (fun j => ⟨j, rfl⟩)
  obtain ⟨g, hrun, hg, registry, hsole, -⟩ := exec_calls D calls hlinked hopen rfl
  have hexec : (spineFile D).exec f (.openRegistry registerBuffer true
      :: calls.map (.call f.registries.length) ++ [.close f.registries.length])
      = some ((g.flush f.registries.length registry).drop f.registries.length) := by
    rw [List.cons_append]
    refine (spineFile D).exec_cons_eq_some.2 ⟨_, rfl, ?_⟩
    refine (spineFile D).exec_append_eq_some.2 ⟨g, hrun, ?_⟩
    exact (spineFile D).exec_cons_eq_some.2
      ⟨_, Option.map_eq_some_iff.2 ⟨registry, hsole.here, rfl⟩, rfl⟩
  have hsession : f.session D registerBuffer calls
      = (g.flush f.registries.length registry).drop f.registries.length := by
    unfold session
    simp only [hexec, Option.getD_some]
  rw [hsession]
  exact ⟨(hsole.flush D).drop D, hg.shows D ((shows_flush g _ registry).trans (shows_drop _ _))⟩

end SpineFile

def sessionRows (sessions : List (Nat × List SpineCall)) : List SpineRow :=
  (spineSessions D sessions).tables.records

theorem sessionRows_spec (sessions : List (Nat × List SpineCall)) :
    SpineTables.IsChain D { records := sessionRows D sessions }
      ∧ ∀ row ∈ sessionRows D sessions, row.prevHash.isSome = true := by
  have hsessions : ∀ (sessions : List (Nat × List SpineCall)) (f : SpineFile), f.Closed →
      f.Linked D → (sessions.foldl (fun f s => f.session D s.1 s.2) f).Linked D := by
    intro sessions
    induction sessions with
    | nil => exact fun f _ hf => hf
    | cons session sessions ih =>
      intro f hclosed hf
      obtain ⟨hclosed', hf'⟩ := SpineFile.session_spec D hclosed hf session.1 session.2
      exact ih _ hclosed' hf'
  have hinit : ({} : SpineFile).Closed := ⟨fun j => by simp [SpineFile.registryAt], rfl⟩
  have hlinked : (spineSessions D sessions).Linked D := hsessions sessions {} hinit
    ⟨SpineFile.isChain_init D, fun i row hrow => by cases hrow⟩
  obtain ⟨k, hk⟩ := (spineSessions D sessions).exists_view_eq_tables
  constructor
  · exact SpineFile.isChain_of_records D (hlinked.chain k) (by rw [hk]; rfl)
  · intro row hrow
    exact hlinked.all k row (by rw [hk]; exact hrow)

/-! ## Changes -/

/-- A change to one row of the table; the columns of an edited row may not read back as a record. -/
inductive Tampering where
  | delete (k : Nat)
  | edit (k : Nat) (row : Option SpineRow)

def Tampering.position : Tampering → Nat
  | delete k => k
  | edit k _ => k

variable (rows : List SpineRow)

def Tampering.apply : Tampering → List (Option SpineRow)
  | delete k => (rows.eraseIdx k).map some
  | edit k row => (rows.map some).set k row

/-- `db_chain_rows`, which raises on a row that does not read back. -/
def dbChainRows (rows : List (Option SpineRow)) : Option (List DbChainRow) :=
  rows.mapM (fun row => row.map SpineRow.toDbChainRow)

def ReportsOk (rows : List (Option SpineRow)) : Prop :=
  ∃ chainRows result, dbChainRows rows = some chainRows
    ∧ verifyDbChain D chainRows = some result ∧ result.ok = true

/-- The change is one to what the chain covers: the deletion of a row before the last, columns that do
    not read back, another predecessor (a last row may also lose its own), or, before the last row,
    another content. -/
def Tampering.BreaksChain : Tampering → Prop
  | delete k => k + 1 < rows.length
  | edit k none => k < rows.length
  | edit k (some row) => ∃ old, rows[k]? = some old ∧
      (row.prevHash ≠ old.prevHash ∧ (k + 1 < rows.length ∨ row.prevHash ≠ none)
        ∨ row.record.contentText ≠ old.record.contentText ∧ k + 1 < rows.length)

theorem dbChainRows_map_some :
    dbChainRows (rows.map some) = some (rows.map SpineRow.toDbChainRow) := by
  unfold dbChainRows
  induction rows with
  | nil => rfl
  | cons row rows ih => simp [ih]

theorem dbChainRows_eq_none {rows : List (Option SpineRow)} (h : none ∈ rows) :
    dbChainRows rows = none := by
  unfold dbChainRows
  induction rows with
  | nil => cases h
  | cons row rows ih =>
    cases row with
    | none => simp
    | some row =>
      have hrows := ih ((List.mem_cons.1 h).resolve_left (by simp))
      simp [hrows]

def chainedOf : List ChainedRow := chainedRows (rows.map SpineRow.toDbChainRow)

theorem chainedOf_append (rows rows' : List SpineRow) :
    chainedOf (rows ++ rows') = chainedOf rows ++ chainedOf rows' := by
  simp [chainedOf, chainedRows]

theorem chainedOf_cons_of_some {row : SpineRow} {prev : String} (h : row.prevHash = some prev)
    (rows : List SpineRow) : chainedOf (row :: rows) = (prev, row.record) :: chainedOf rows := by
  simp [chainedOf, chainedRows, SpineRow.toDbChainRow, h]

theorem chainedOf_cons_of_none {row : SpineRow} (h : row.prevHash = none) (rows : List SpineRow) :
    chainedOf (row :: rows) = chainedOf rows := by
  simp [chainedOf, chainedRows, SpineRow.toDbChainRow, h]

theorem chainedOf_eq_nil_iff {rows : List SpineRow}
    (hall : ∀ row ∈ rows, row.prevHash.isSome = true) : chainedOf rows = [] ↔ rows = [] := by
  cases rows with
  | nil => simp [chainedOf, chainedRows]
  | cons row rows =>
    obtain ⟨prev, hprev⟩ := Option.isSome_iff_exists.1 (hall row List.mem_cons_self)
    simp [chainedOf_cons_of_some hprev]

theorem reportsOk_map_some_iff :
    ReportsOk D (rows.map some) ↔ (auditChain D).Intact Prod.fst chainedText (chainedOf rows) := by
  refine Iff.trans ?_ (SpineTables.verifiesOk_iff D { records := rows })
  unfold ReportsOk
  rw [dbChainRows_map_some]
  constructor
  · rintro ⟨chainRows, result, hrows, hresult⟩
    cases hrows
    exact ⟨result, hresult⟩
  · rintro ⟨result, hresult⟩
    exact ⟨_, result, rfl, hresult⟩

/-! ### Changes to a table whose rows are all chained -/

section Changes

variable {l t : List SpineRow} {row : SpineRow}
  (hchain : SpineTables.IsChain D { records := l ++ row :: t })
  (hall : ∀ r ∈ l ++ row :: t, r.prevHash.isSome = true)

include hchain hall

theorem chained_split : ∃ prev, row.prevHash = some prev
    ∧ (auditChain D).Chained Prod.fst chainedText (chainGenesisHash D)
        (chainedOf l ++ (prev, row.record) :: chainedOf t) ∧ (chainedOf t = [] ↔ t = []) := by
  obtain ⟨prev, hprev⟩ := Option.isSome_iff_exists.1 (hall row (by simp))
  refine ⟨prev, hprev, ?_, chainedOf_eq_nil_iff (fun r hr => hall r (by simp [hr]))⟩
  rw [← chainedOf_cons_of_some hprev, ← chainedOf_append]
  exact hchain

theorem reportsOk_erase_iff : ReportsOk D ((l ++ t).map some) ↔ t = [] := by
  obtain ⟨prev, -, hsplit, hnil⟩ := chained_split D hchain hall
  rw [reportsOk_map_some_iff, chainedOf_append, ← hnil]
  exact ChainHash.intact_erase_iff hsplit

theorem reportsOk_replace_iff (row' : SpineRow) : ReportsOk D ((l ++ row' :: t).map some) ↔
    (row'.prevHash = row.prevHash ∧ (t = [] ∨ row'.record.contentText = row.record.contentText))
      ∨ (row'.prevHash = none ∧ t = []) := by
  obtain ⟨prev, hprev, hsplit, hnil⟩ := chained_split D hchain hall
  rw [reportsOk_map_some_iff, chainedOf_append]
  cases hprev' : row'.prevHash with
  | none =>
    rw [chainedOf_cons_of_none hprev', ← hnil, hprev]
    simp only [reduceCtorEq, false_and, true_and, false_or]
    exact ChainHash.intact_erase_iff hsplit
  | some prev' =>
    rw [chainedOf_cons_of_some hprev', ← hnil, hprev]
    simp only [Option.some.injEq, reduceCtorEq, false_and, or_false]
    exact ChainHash.intact_replace_iff hsplit (prev', row'.record)

end Changes

private theorem keeps_iff {same last text gone : Prop} (h : same → ¬ gone) :
    same ∧ (last ∨ text) ∨ gone ∧ last ↔ ¬ (¬ same ∧ (¬ last ∨ ¬ gone) ∨ ¬ text ∧ ¬ last) := by
  by_cases hsame : same
  · have hgone := h hsame
    by_cases hlast : last <;> simp [hsame, hlast, hgone]
  · by_cases hlast : last <;> simp [hsame, hlast]

theorem reportsOk_apply_iff {rows : List SpineRow}
    (hchain : SpineTables.IsChain D { records := rows })
    (hall : ∀ r ∈ rows, r.prevHash.isSome = true) (tampering : Tampering)
    (hk : tampering.position < rows.length) :
    ReportsOk D (tampering.apply rows) ↔ ¬ tampering.BreaksChain rows := by
  obtain ⟨l, row, t, hrows, hlen⟩ : ∃ l row t, rows = l ++ row :: t ∧ l.length = tampering.position :=
    ⟨rows.take tampering.position, rows[tampering.position], rows.drop (tampering.position + 1),
      by simp, by simp; omega⟩
  subst hrows
  have hlast : tampering.position + 1 < (l ++ row :: t).length ↔ t ≠ [] := by
    rw [List.length_append, List.length_cons, ← hlen, ne_eq, ← List.length_eq_zero_iff]
    omega
  cases tampering with
  | delete k =>
    simp only [Tampering.position] at hlen hlast
    have happly : (Tampering.delete k).apply (l ++ row :: t) = (l ++ t).map some := by
      simp [Tampering.apply, ← hlen, List.eraseIdx_append_of_length_le]
    rw [happly, reportsOk_erase_iff D hchain hall, Tampering.BreaksChain, hlast, not_not]
  | edit k row' =>
    simp only [Tampering.position] at hlen hlast hk
    have happly : (Tampering.edit k row').apply (l ++ row :: t)
        = l.map some ++ row' :: t.map some := by
      simp [Tampering.apply, ← hlen]
    have hget : (l ++ row :: t)[k]? = some row := by
      simp [← hlen]
    rw [happly]
    cases row' with
    | none =>
      simp only [Tampering.BreaksChain, hk, not_true_eq_false, iff_false]
      rintro ⟨chainRows, result, hnone, -⟩
      rw [dbChainRows_eq_none (by simp)] at hnone
      cases hnone
    | some row' =>
      have hmap : l.map some ++ some row' :: t.map some = (l ++ row' :: t).map some := by simp
      rw [hmap, reportsOk_replace_iff D hchain hall row']
      simp only [Tampering.BreaksChain, hget, hlast, Option.some.injEq, exists_eq_left']
      refine keeps_iff (fun hprev hnone => ?_)
      have hsome := hall row (by simp)
      rw [← hprev, hnone] at hsome
      cases hsome

/-- In a table that registries have written one after another, every change that breaks the chain is
    reported, and before the last row no other change is. -/
theorem tampering_reported (sessions : List (Nat × List SpineCall)) (tampering : Tampering) :
    (tampering.BreaksChain (sessionRows D sessions) →
        ¬ ReportsOk D (tampering.apply (sessionRows D sessions)))
      ∧ (tampering.position + 1 < (sessionRows D sessions).length →
          ¬ tampering.BreaksChain (sessionRows D sessions) →
          ReportsOk D (tampering.apply (sessionRows D sessions))) := by
  obtain ⟨hchain, hall⟩ := sessionRows_spec D sessions
  constructor
  · intro hbreaks hok
    have hk : tampering.position < (sessionRows D sessions).length := by
      cases tampering with
      | delete k => exact Nat.lt_of_succ_lt hbreaks
      | edit k row =>
        cases row with
        | none => exact hbreaks
        | some row =>
          obtain ⟨old, hold, -⟩ := hbreaks
          exact (List.getElem?_eq_some_iff.1 hold).1
    exact (reportsOk_apply_iff D hchain hall tampering hk).1 hok hbreaks
  · intro hk hnot
    exact (reportsOk_apply_iff D hchain hall tampering (Nat.lt_of_succ_lt hk)).2 hnot

/-! ### A change that goes unreported

The date of a record is not in its content hash, and so not in the chain. -/

def Tampering.Changes (rows : List SpineRow) : Tampering → Prop
  | delete k => k < rows.length
  | edit k row => ∃ old, rows[k]? = some old ∧ row ≠ some old

def DetectsEveryTampering : Prop :=
  ∀ sessions (tampering : Tampering), tampering.Changes (sessionRows D sessions) →
    ¬ ReportsOk D (tampering.apply (sessionRows D sessions))

private def auditRecord (id createdAt : String) : EntityRecord :=
  { recordId := id, stableId := id, version := 1, kind := "audit", payload := KeyedList.empty
    metadata := KeyedList.empty, createdAt }

private def auditSessions : List (Nat × List SpineCall) :=
  [(1, [.register (auditRecord "r-1" "t1"), .register (auditRecord "r-2" "t2")])]

private def firstAuditRow (createdAt : String) : SpineRow :=
  { record := auditRecord "r-1" createdAt
    contentHash := (auditRecord "r-1" "t1").contentHash codeDigests
    prevHash := some (chainGenesisHash codeDigests) }

private theorem getElem?_auditSessions :
    (sessionRows codeDigests auditSessions)[0]? = some (firstAuditRow "t1") := rfl

theorem not_detectsEveryTampering : ¬ DetectsEveryTampering codeDigests := by
  intro h
  have hne : some (firstAuditRow "t9") ≠ some (firstAuditRow "t1") := by
    intro heq
    have hdate := congrArg (fun row => row.record.createdAt) (Option.some.inj heq)
    exact absurd hdate (by decide)
  refine h auditSessions (.edit 0 (some (firstAuditRow "t9")))
    ⟨_, getElem?_auditSessions, hne⟩ ?_
  obtain ⟨hchain, hall⟩ := sessionRows_spec codeDigests auditSessions
  refine (reportsOk_apply_iff codeDigests hchain hall _ (by decide)).2 ?_
  rintro ⟨old, hold, hbreaks⟩
  rw [getElem?_auditSessions] at hold
  cases hold
  rcases hbreaks with ⟨hprev, -⟩ | ⟨htext, -⟩
  · exact hprev rfl
  · exact htext rfl

end Himmy
