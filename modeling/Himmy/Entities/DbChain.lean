import Himmy.Entities.AuditChain

/-! # Verification of the chain in the database

`verify_db_chain` reads the rows of the record table in any order: it looks for two rows that declare
one predecessor, for a head, and then follows the stored hashes from the genesis value. Rows without
a stored hash are left out.

The loop always ends, and what it decides is that the chained rows are, in some order, a chain
(`verifyDbChain_spec`). -/

namespace Himmy

structure DbChainRow where
  record : EntityRecord
  prevHash : Option String

/-- The reasons of a failed verification. -/
inductive ChainBreak where
  /-- `fork: {rows} rows declare prev_hash {prev}… (a chained row was duplicated or a prev_hash
      forged)` -/
  | fork (rows : Nat) (prev : String)
  /-- `no chain head: no row links to the genesis hash (head deleted/mutated)` -/
  | noHead
  /-- `chain breaks after {visited}/{chained} rows: a row's recomputed hash does not match its
      successor's prev_hash (in-place mutation or deletion); first unreachable row {orphan}` -/
  | unreached (visited chained : Nat) (orphan : Option String)

structure DbChainVerification where
  ok : Bool
  chained : Nat
  tipHash : String
  brokenAtRecordId : Option String := none
  reason : Option ChainBreak := none
  unchainedRecordIds : List String := []

abbrev ChainedRow := String × EntityRecord

def chainedText (row : ChainedRow) : String := row.2.contentText

/-- `[r for r in rows if r.prev_hash is not None]`. -/
def chainedRows (rows : List DbChainRow) : List ChainedRow :=
  rows.filterMap (fun r => r.prevHash.map (fun prev => (prev, r.record)))

/-- `by_prev`: the chained rows by the hash they declare. -/
def byPrev (chained : List ChainedRow) : Dict (List ChainedRow) :=
  chained.foldl (fun index row => index.set row.1 ((index.find? row.1).getD [] ++ [row]))
    KeyedList.empty

/-- `by_prev[cursor][0]`. -/
def nextRow (index : Dict (List ChainedRow)) (cursor : String) : Option ChainedRow :=
  (index.find? cursor).bind List.head?

variable (D : Digests)

/-- `verify_db_chain`; `none` is a walk that does not end. -/
def verifyDbChain (rows : List DbChainRow) : Option DbChainVerification :=
  let chained := chainedRows rows
  let unchained := (rows.filter (fun r => r.prevHash.isNone)).map (fun r => r.record.recordId)
  if chained.isEmpty then
    some { ok := true, chained := 0, tipHash := chainGenesisHash D
           unchainedRecordIds := unchained }
  else
    let index := byPrev chained
    match index.items.find? (fun group => 1 < group.2.length) with
    | some (prev, group) =>
      some { ok := false, chained := chained.length, tipHash := chainGenesisHash D
             brokenAtRecordId := group[1]?.map (fun row => row.2.recordId)
             reason := some (.fork group.length prev), unchainedRecordIds := unchained }
    | none =>
      if ((index.find? (chainGenesisHash D)).getD []).isEmpty then
        some { ok := false, chained := chained.length, tipHash := chainGenesisHash D
               reason := some .noHead, unchainedRecordIds := unchained }
      else do
        -- a chained row is met once at most, so the loop looks at most once more than there are rows
        let visited ← (auditChain D).walk chainedText (nextRow index) (chained.length + 1)
          (chainGenesisHash D)
        let cursor := (auditChain D).hashFrom (chainGenesisHash D) (visited.map chainedText)
        if visited.length ≠ chained.length then
          let reached := visited.map (fun row => row.2.recordId)
          let orphan := (chained.map (fun row => row.2.recordId)).find? (fun id => id ∉ reached)
          return {
            ok := false, chained := chained.length, tipHash := cursor
            brokenAtRecordId := visited.getLast?.map (fun row => row.2.recordId)
            reason := some (.unreached visited.length chained.length orphan)
            unchainedRecordIds := unchained }
        else
          return {
            ok := true, chained := chained.length, tipHash := cursor
            unchainedRecordIds := unchained }

/-! ## The index -/

variable (chained : List ChainedRow)

def declaring (prev : String) : List ChainedRow :=
  chained.filter (fun row => row.1 = prev)

theorem find?_byPrev (prev : String) : (byPrev chained).find? prev =
      if declaring chained prev = [] then none else some (declaring chained prev) := by
  have hfold : ∀ (chained : List ChainedRow) (index : Dict (List ChainedRow)),
      (chained.foldl (fun index row => index.set row.1 ((index.find? row.1).getD [] ++ [row]))
        index).find? prev
      = if declaring chained prev = [] then index.find? prev
        else some ((index.find? prev).getD [] ++ declaring chained prev) := by
    intro chained
    induction chained with
    | nil => intro index; rfl
    | cons row chained ih =>
      intro index
      rw [List.foldl_cons, ih, Dict.find?_set]
      by_cases hrow : row.1 = prev
      · have hcons : declaring (row :: chained) prev = row :: declaring chained prev := by
          simp [declaring, hrow]
        rw [hcons, if_pos hrow.symm, hrow, if_neg (List.cons_ne_nil _ _)]
        by_cases hnil : declaring chained prev = []
        · simp [hnil]
        · simp [hnil]
      · have hcons : declaring (row :: chained) prev = declaring chained prev := by
          simp [declaring, hrow]
        rw [hcons, if_neg (Ne.symm hrow)]
  rw [byPrev, hfold]
  rfl

theorem nextRow_byPrev : nextRow (byPrev chained) = ChainHash.follow Prod.fst chained := by
  funext prev
  rw [nextRow, find?_byPrev, ChainHash.follow, ← List.head?_filter]
  split
  · next h => rw [declaring] at h; rw [h]; rfl
  · rfl

theorem find?_items_byPrev_eq_none_iff :
    (byPrev chained).items.find? (fun group => 1 < group.2.length) = none
      ↔ (chained.map Prod.fst).Nodup := by
  have hcount : ∀ prev, (declaring chained prev).length = (chained.map Prod.fst).count prev := by
    intro prev
    rw [declaring, ← List.countP_eq_length_filter, List.count, List.countP_map]
    rfl
  rw [List.find?_eq_none, List.nodup_iff_count_le_one]
  constructor
  · intro h prev
    rw [← hcount]
    by_cases hnil : declaring chained prev = []
    · simp [hnil]
    · have hfind := find?_byPrev chained prev
      rw [if_neg hnil] at hfind
      simpa using h _ (Dict.find?_eq_some_iff.1 hfind)
  · intro h group hgroup
    have hfind := find?_byPrev chained group.1
    rw [Dict.find?_eq_some_iff.2 hgroup] at hfind
    split at hfind
    · cases hfind
    · rw [Option.some.inj hfind, hcount]
      simpa using h group.1

/-! ## The verdict -/

/-- The chained rows are, in some order, a chain from the genesis value. -/
def IntactRows (rows : List DbChainRow) : Prop :=
  (auditChain D).Intact Prod.fst chainedText (chainedRows rows)

theorem verifyDbChain_spec (rows : List DbChainRow) :
    ∃ result, verifyDbChain D rows = some result ∧ (result.ok = true ↔ IntactRows D rows) := by
  obtain ⟨visited, hvisits, hlen⟩ := (auditChain D).exists_visits Prod.fst chainedText
    (chainedRows rows)
  have hintact := (auditChain D).intact_iff_visits hvisits
  rw [← find?_items_byPrev_eq_none_iff] at hintact
  have hwalk : (auditChain D).walk chainedText (nextRow (byPrev (chainedRows rows)))
      ((chainedRows rows).length + 1) (chainGenesisHash D) = some visited := by
    rw [nextRow_byPrev]
    exact ((auditChain D).walk_eq_some_iff _ _ _ _).2 ⟨hvisits, by omega⟩
  unfold IntactRows verifyDbChain
  by_cases hempty : (chainedRows rows).isEmpty = true
  · have hrows := List.isEmpty_iff.1 hempty
    refine ⟨_, if_pos hempty, ?_⟩
    rw [hrows] at hlen hintact ⊢
    have hvisited := List.eq_nil_of_length_eq_zero (Nat.le_zero.1 hlen)
    rw [hintact, hvisited]
    simp [byPrev]
  · simp only [if_neg hempty]
    cases hfork : (byPrev (chainedRows rows)).items.find? (fun group => 1 < group.2.length) with
    | some group => exact ⟨_, rfl, by simp [hintact, hfork]⟩
    | none =>
      rw [hfork] at hintact
      by_cases hheads :
          (((byPrev (chainedRows rows)).find? (chainGenesisHash D)).getD []).isEmpty = true
      · -- without a head the walk visits nothing
        have hnil : declaring (chainedRows rows) (chainGenesisHash D) = [] := by
          rw [find?_byPrev, List.isEmpty_iff] at hheads
          by_contra hne
          rw [if_neg hne] at hheads
          exact hne hheads
        have hfollow : ChainHash.follow Prod.fst (chainedRows rows) (chainGenesisHash D) = none := by
          rw [← nextRow_byPrev, nextRow, find?_byPrev, if_pos hnil]
          rfl
        have hvisited := hvisits.unique (m := []) hfollow
        refine ⟨_, if_pos hheads, ?_⟩
        rw [hintact, hvisited]
        have hpos : (chainedRows rows).length ≠ 0 := by
          rw [ne_eq, List.length_eq_zero_iff]
          simpa using hempty
        simp only [Bool.false_eq_true, false_iff, not_and]
        intro _ hlen
        exact hpos hlen.symm
      · simp only [if_neg hheads, hwalk]
        by_cases hall : visited.length = (chainedRows rows).length
        · refine ⟨_, if_neg (not_not.2 hall), ?_⟩
          simp [hintact, hall]
        · refine ⟨_, if_pos hall, ?_⟩
          simp [hintact, hall]

end Himmy
