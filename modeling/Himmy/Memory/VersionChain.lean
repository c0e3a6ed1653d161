import Himmy.Memory.Calls

/-! # The versions of a fact on the spine

The successive states of a fact are the memories that are remembered under its stable id and the
moves of its memories between tiers. The spine holds the history of a fact when each state has its
record there, under versions that increase strictly, and a `supersedes` link from each version to
the one before it. The callers choose the versions: 1 when a fact starts, 2 for whatever comes
later. So a fact has its history on the spine as long as its first change is an UPDATE and its
last. -/

namespace Himmy

open MemoryRecord (spineId recordId_toRecord toRecord)

namespace EntityRegistry

/-- Every record and every link of a registry is one of a later one. -/
structure Grows (registry registry' : EntityRegistry) : Prop where
  records : ∀ {recordId record}, registry.get recordId = some record →
    registry'.get recordId = some record
  links : ∀ {link}, link ∈ registry.links → link ∈ registry'.links

theorem Grows.refl (registry : EntityRegistry) : Grows registry registry := ⟨id, id⟩

theorem Grows.trans {r r' r'' : EntityRegistry} (h : Grows r r') (h' : Grows r' r'') : Grows r r'' :=
  ⟨h'.records ∘ h.records, h'.links ∘ h.links⟩

theorem Grows.link (registry : EntityRegistry) (link : EntityLink) :
    Grows registry (registry.link link) :=
  ⟨id, List.mem_append_left _⟩

end EntityRegistry

open EntityRegistry

namespace MemoryService

/-! ## What a registration leaves -/

variable (registry : EntityRegistry) (record : EntityRecord)

theorem get_tryRegister (recordId : String) : (tryRegister registry record).get recordId
      = (registry.get recordId).or (if recordId = record.recordId then some record else none) := by
  cases hget : registry.get record.recordId with
  | none =>
    obtain ⟨registry', hregister, hrecords⟩ := register_of_none hget
    rw [tryRegister, hregister]
    simp only [EntityRegistry.get, hrecords, KeyedList.get?_put]
    split
    · next hid =>
        subst hid
        rw [show registry.records.get? record.recordId = none from hget]
        rfl
    · simp
  | some existing =>
    have hsame : tryRegister registry record = registry := by
      by_cases hcontent : existing.sameContent record = true <;>
        simp [tryRegister, register, hget, hcontent]
    rw [hsame]
    split
    · next hid => rw [hid, hget]; rfl
    · simp

theorem links_tryRegister : (tryRegister registry record).links = registry.links := by
  unfold tryRegister register
  split
  · next h =>
      split at h
      · split at h <;> cases h
        rfl
      · cases h
        rfl
  · rfl

theorem grows_tryRegister : Grows registry (tryRegister registry record) where
  records h := by rw [get_tryRegister, h]; rfl
  links h := by rwa [links_tryRegister]

section Service

variable {σ : Type} (S : MemoryStore σ) (D : Digests) (cfg : MemoryConfig) (m : MemoryService σ)

theorem grows_emit (event : AuditEvent D) : Grows m.registry (m.emit D cfg event).registry := by
  unfold emit
  split
  · exact grows_tryRegister _ _
  · exact .refl _

theorem grows_emitConsolidated (event : AuditEvent D) :
    Grows m.registry (m.emitConsolidated D cfg event).registry := by
  unfold emitConsolidated
  split
  · exact grows_tryRegister _ _
  · exact .refl _

theorem grows_projectFact (record : MemoryRecord) (version : Int) (recordedAt : String) :
    Grows m.registry (m.projectFact D cfg record version recordedAt).registry := by
  unfold projectFact
  split
  · exact grows_tryRegister _ _
  · exact .refl _

theorem grows_remember (call : RememberCall) (draws : RememberDraws D) :
    Grows m.registry (m.remember S D cfg call draws).1.registry :=
  (grows_projectFact D cfg (m.saved S _ _) _ _ _).trans (grows_emit D cfg _ _)

theorem grows_linkSupersede (newId oldId : String) (draws : ConsolidateDraws D) :
    Grows m.registry (m.linkSupersede S D cfg newId oldId draws).registry := by
  unfold linkSupersede
  split
  · split
    · exact (Grows.link _ _).trans (Grows.link _ _)
    · exact .refl _
  · exact .refl _

theorem grows_linkInvalidation (oldId : String) (newId : Option String)
    (draws : ConsolidateDraws D) :
    Grows m.registry (m.linkInvalidation S D cfg oldId newId draws).registry := by
  unfold linkInvalidation
  split
  · split
    · exact Grows.link _ _
    · exact .refl _
  · exact .refl _

end Service

/-! ## The history of a fact -/

def newState : MemoryWrite → Option MemoryRecord
  | .remembered record | .promoted _ record => some record
  | .invalidated .. | .linked .. => none

section History

variable (D : Digests)

def newStates (journal : List MemoryWrite) : List MemoryRecord := journal.filterMap newState

def statesOf (states : List MemoryRecord) (factId : String) : List MemoryRecord :=
  states.filter (fun r => r.factId D = factId)

variable (registry : EntityRegistry)

def Projected (state : MemoryRecord) (version : Int) : Prop :=
  ∃ recordedAt, registry.get (state.spineId D version) = some (state.toRecord D version recordedAt)

def Superseded (older newer : MemoryRecord × Int) : Prop :=
  ∃ link ∈ registry.links, link.fromRecordId = newer.1.spineId D newer.2
    ∧ link.toRecordId = older.1.spineId D older.2 ∧ link.relation = "supersedes"

def HoldsHistory (states : List MemoryRecord) : Prop :=
  ∃ versions : List Int, List.Forall₂ (Projected D registry) states versions
    ∧ versions.Pairwise (· < ·) ∧ (states.zip versions).IsChain (Superseded D registry)

def HoldsAll (states : List MemoryRecord) : Prop :=
  ∀ factId, HoldsHistory D registry (statesOf D states factId)

variable {D} {registry registry' : EntityRegistry} {states : List MemoryRecord}

theorem HoldsHistory.grows (hgrows : Grows registry registry') (h : HoldsHistory D registry states) :
    HoldsHistory D registry' states := by
  obtain ⟨versions, hprojected, hincreasing, hlinked⟩ := h
  refine ⟨versions, hprojected.imp (fun state version ⟨recordedAt, hget⟩ => ?_), hincreasing,
    hlinked.imp (fun older newer ⟨link, hmem, hlink⟩ => ?_)⟩
  · exact ⟨recordedAt, hgrows.records hget⟩
  · exact ⟨link, hgrows.links hmem, hlink⟩

theorem HoldsAll.grows (hgrows : Grows registry registry') (h : HoldsAll D registry states) :
    HoldsAll D registry' states :=
  fun factId => (h factId).grows hgrows

theorem statesOf_concat (states : List MemoryRecord) (state : MemoryRecord) (factId : String) :
    statesOf D (states ++ [state]) factId
      = statesOf D states factId ++ if state.factId D = factId then [state] else [] := by
  unfold statesOf
  rw [List.filter_append, List.filter_singleton]
  simp

theorem HoldsAll.start {state : MemoryRecord} {version : Int} (h : HoldsAll D registry states)
    (hgrows : Grows registry registry') (hnone : statesOf D states (state.factId D) = [])
    (hprojected : Projected D registry' state version) :
    HoldsAll D registry' (states ++ [state]) := by
  intro factId
  rw [statesOf_concat]
  split
  · next hfact =>
      subst hfact
      rw [hnone]
      exact ⟨[version], .cons hprojected .nil, List.pairwise_singleton _ _, by simp⟩
  · rw [List.append_nil]
    exact (h factId).grows hgrows

theorem HoldsAll.superseded {first state : MemoryRecord} (h : HoldsAll D registry states)
    (hgrows : Grows registry registry') (hone : statesOf D states (state.factId D) = [first])
    (hfirst : Projected D registry' first 1) (hsecond : Projected D registry' state 2)
    (hlinked : Superseded D registry' (first, 1) (state, 2)) :
    HoldsAll D registry' (states ++ [state]) := by
  intro factId
  rw [statesOf_concat]
  split
  · next hfact =>
      subst hfact
      rw [hone]
      exact ⟨[1, 2], .cons hfirst (.cons hsecond .nil), by simp, by simpa using hlinked⟩
  · rw [List.append_nil]
    exact (h factId).grows hgrows

end History

/-! ## What the calls project -/

section Calls

variable {σ Sim : Type} [LinearOrder Sim] [Zero Sim] {S : MemoryStore σ} {D : Digests}
  {cfg : MemoryConfig} {E : Embedder Sim} {ccfg : ConsolidatorConfig Sim} {m : MemoryService σ}

def FreeVersion (D : Digests) (registry : EntityRegistry) (state : MemoryRecord) (version : Int) :
    Prop :=
  registry.get (state.spineId D version) = none

theorem get_tryRegister_event (huuid : Function.Injective D.uuid5) (registry : EntityRegistry)
    (state : MemoryRecord) (version : Int) (event : AuditEvent D) :
    (tryRegister registry event.record).get (state.spineId D version)
      = registry.get (state.spineId D version) := by
  rw [get_tryRegister, if_neg, Option.or_none]
  intro hid
  rw [event.recordId_eq, spineId, event.kind_eq] at hid
  exact absurd (recordIdFor_inj huuid hid).1 (by decide)

omit [LinearOrder Sim] [Zero Sim] in
theorem FreeVersion.emit (huuid : Function.Injective D.uuid5) {state : MemoryRecord} {version : Int}
    (h : FreeVersion D m.registry state version) (event : AuditEvent D) :
    FreeVersion D (m.emit D cfg event).registry state version := by
  unfold MemoryService.emit
  split
  · exact (get_tryRegister_event huuid _ _ _ event).trans h
  · exact h

theorem projected_projectFact (hcfg : cfg.serviceRegistry = true) {state : MemoryRecord}
    {version : Int} (h : FreeVersion D m.registry state version) (recordedAt : String) :
    Projected D (m.projectFact D cfg state version recordedAt).registry state version := by
  refine ⟨recordedAt, ?_⟩
  rw [projectFact, if_pos hcfg]
  simp only
  rw [get_tryRegister, h, recordId_toRecord, if_pos rfl]
  rfl

theorem projected_remember (hcfg : cfg.serviceRegistry = true) (call : RememberCall)
    (draws : RememberDraws D) (h : FreeVersion D m.registry
      (call.record draws.memoryId draws.createdAt) call.projectVersion) :
    Projected D (m.remember S D cfg call draws).1.registry
      (call.record draws.memoryId draws.createdAt) call.projectVersion := by
  obtain ⟨recordedAt, hget⟩ := projected_projectFact (m := m.saved S _ (.remembered _)) hcfg h
    draws.recordedAt
  exact ⟨recordedAt, (grows_emit D cfg _ draws.event).records hget⟩

theorem factId_freshRecord {decision : ConsolidationDecision} {call : ConsolidateCall}
    {draws : ConsolidateDraws D} {old : MemoryRecord} (hid : old.memoryId ≠ "") :
    (freshRecord D decision call (some old.stableValue) draws).factId D = old.factId D := by
  have hvalue : old.stableValue ≠ "" := pyOr_ne_blank _ hid
  have hsame : (freshRecord D decision call (some old.stableValue) draws).stableValue
      = old.stableValue := pyOr_some hvalue _
  simp only [MemoryRecord.factId, stableIdFor, hsame, if_neg hvalue]

@[simp] theorem spineId_closed (old : MemoryRecord) (validTo : String)
    (supersededBy : Option String) (version : Int) :
    (old.closed validTo supersededBy).spineId D version = old.spineId D version := by
  rw [spineId, spineId]
  rfl

theorem spineId_of_factId {r r' : MemoryRecord} (h : r.factId D = r'.factId D) (version : Int) :
    r.spineId D version = r'.spineId D version := by
  rw [spineId, spineId, h]

omit [LinearOrder Sim] [Zero Sim] in
theorem superseded_linkSupersede (hcfg : cfg.consolidatorRegistry = true) {new old : MemoryRecord}
    {newId oldId : String} (hnew : S.get m.store newId = some new)
    (hold : S.get m.store oldId = some old) (draws : ConsolidateDraws D) :
    Superseded D (m.linkSupersede S D cfg newId oldId draws).registry (old, 1) (new, 2) := by
  rw [linkSupersede, if_pos hcfg]
  simp only [get, hnew, hold]
  exact ⟨_, List.mem_append_left _ (List.mem_append_right _ (List.mem_singleton_self _)), rfl, rfl,
    rfl⟩

variable {draws : ConsolidateDraws D}

omit [LinearOrder Sim] [Zero Sim] in
theorem projected_supersede (hservice : cfg.serviceRegistry = true)
    (hconsolidator : cfg.consolidatorRegistry = true) {old new : MemoryRecord}
    (hold : S.get m.store old.memoryId = some old)
    (hfresh : S.get m.store draws.remember.memoryId = none) (text : String) (call : ConsolidateCall)
    (hnew : new = (freshFact call text (some old.stableValue) 2).record draws.remember.memoryId
      draws.remember.createdAt) (hfree : FreeVersion D m.registry new 2) :
    Grows m.registry (m.supersede S D cfg old text call draws).1.registry
      ∧ Projected D (m.supersede S D cfg old text call draws).1.registry new 2
      ∧ Superseded D (m.supersede S D cfg old text call draws).1.registry (old, 1) (new, 2) := by
  have hne : new.memoryId ≠ old.memoryId := by
    intro h
    rw [hnew, RememberCall.memoryId_record] at h
    rw [h, hold] at hfresh
    cases hfresh
  obtain ⟨hgetnew, hgetold⟩ := get_superseded S m.store draws.now hne
  have hstore := m.store_remember S D cfg (freshFact call text (some old.stableValue) 2)
    draws.remember
  rw [← hnew] at hstore
  rw [← hstore] at hgetnew hgetold
  have hremembered := projected_remember (S := S) (m := m) hservice
    (freshFact call text (some old.stableValue) 2) draws.remember (by rw [← hnew]; exact hfree)
  rw [← hnew] at hremembered
  rw [m.supersede_eq S D cfg hold hfresh text call hnew]
  have hgrows := grows_linkSupersede S D cfg
    ((m.remember S D cfg (freshFact call text (some old.stableValue) 2) draws.remember).1.saved S
      (old.closed draws.now (some new.memoryId))
      (.invalidated old (old.closed draws.now (some new.memoryId)))) new.memoryId old.memoryId draws
  obtain ⟨link, hmem, hfrom, hto, hrelation⟩ := superseded_linkSupersede hconsolidator
    (m := (m.remember S D cfg (freshFact call text (some old.stableValue) 2)
      draws.remember).1.saved S (old.closed draws.now (some new.memoryId))
        (.invalidated old (old.closed draws.now (some new.memoryId)))) hgetnew hgetold draws
  obtain ⟨recordedAt, hget⟩ := hremembered
  exact ⟨(grows_remember S D cfg m _ draws.remember).trans hgrows, ⟨recordedAt, hgrows.records hget⟩,
    link, hmem, hfrom, by rw [hto, spineId_closed], hrelation⟩

theorem grows_recalled {m₀ : MemoryService σ} (hm₀ : m₀ = m ∨ m₀ = m.emit D cfg draws.recalled) :
    Grows m.registry m₀.registry ∧ m₀.store = m.store := by
  rcases hm₀ with rfl | rfl
  · exact ⟨.refl _, rfl⟩
  · exact ⟨grows_emit D cfg m _, store_emit ..⟩

theorem FreeVersion.recalled (huuid : Function.Injective D.uuid5) {m₀ : MemoryService σ}
    (hm₀ : m₀ = m ∨ m₀ = m.emit D cfg draws.recalled)
    {state : MemoryRecord} {version : Int} (h : FreeVersion D m.registry state version) :
    FreeVersion D m₀.registry state version := by
  rcases hm₀ with rfl | rfl
  · exact h
  · exact h.emit huuid _

variable {data : Option (Dict Json)} {call : ConsolidateCall} {decision : ConsolidationDecision}

theorem consolidate_added (huuid : Function.Injective D.uuid5) (hservice : cfg.serviceRegistry = true)
    (hdecision : m.decided S E ccfg call data = decision)
    (haction : decision.action = .add ∨ decision.action = .update)
    (htarget : target S m.store decision = none)
    (hfree : FreeVersion D m.registry (freshRecord D decision call none draws) 1) :
    Grows m.registry (m.consolidate S D cfg E ccfg call data draws).1.registry
      ∧ Projected D (m.consolidate S D cfg E ccfg call data draws).1.registry
        (freshRecord D decision call none draws) 1 := by
  obtain ⟨m₀, similarity, hm₀, heq⟩ := m.consolidate_eq S D cfg E ccfg call data draws
  obtain ⟨hrecalled, hstore⟩ := grows_recalled hm₀
  rw [heq, hdecision, m₀.apply_added S D cfg similarity call draws haction (by rw [hstore, htarget])]
  have hemitted := grows_emitConsolidated D cfg
    (m₀.addFact S D cfg (pyOr decision.newText call.candidateText) call draws).1 draws.consolidated
  obtain ⟨recordedAt, hget⟩ := projected_remember (S := S) hservice (m := m₀)
    (freshFact call (pyOr decision.newText call.candidateText) none 1) draws.remember
    (hfree.recalled huuid hm₀)
  exact ⟨(hrecalled.trans (grows_remember S D cfg m₀ _ _)).trans hemitted,
    recordedAt, hemitted.records hget⟩

theorem consolidate_superseded (huuid : Function.Injective D.uuid5)
    (hservice : cfg.serviceRegistry = true) (hconsolidator : cfg.consolidatorRegistry = true)
    {old : MemoryRecord}
    (hdecision : m.decided S E ccfg call data = decision) (haction : decision.action = .update)
    (htarget : target S m.store decision = some old)
    (hfresh : S.get m.store draws.remember.memoryId = none)
    (hfree : FreeVersion D m.registry (freshRecord D decision call (some old.stableValue) draws) 2) :
    Grows m.registry (m.consolidate S D cfg E ccfg call data draws).1.registry
      ∧ Projected D (m.consolidate S D cfg E ccfg call data draws).1.registry
        (freshRecord D decision call (some old.stableValue) draws) 2
      ∧ Superseded D (m.consolidate S D cfg E ccfg call data draws).1.registry (old, 1)
        (freshRecord D decision call (some old.stableValue) draws, 2) := by
  obtain ⟨m₀, similarity, hm₀, heq⟩ := m.consolidate_eq S D cfg E ccfg call data draws
  obtain ⟨hrecalled, hstore⟩ := grows_recalled hm₀
  rw [← hstore] at htarget hfresh
  rw [heq, hdecision, m₀.apply_superseded S D cfg similarity call draws haction htarget hfresh]
  obtain ⟨hgrows, ⟨recordedAt, hget⟩, link, hmem, hlink⟩ := projected_supersede hservice
    hconsolidator (get_of_target S htarget) hfresh (pyOr decision.newText call.candidateText) call
    rfl (hfree.recalled huuid hm₀)
  have hemitted := grows_emitConsolidated D cfg
    (m₀.supersede S D cfg old (pyOr decision.newText call.candidateText) call draws).1
    draws.consolidated
  exact ⟨(hrecalled.trans hgrows).trans hemitted, ⟨recordedAt, hemitted.records hget⟩, link,
    hemitted.links hmem, hlink⟩

theorem consolidate_other
    (hdecision : m.decided S E ccfg call data = decision) (hadd : decision.action ≠ .add)
    (hupdate : decision.action ≠ .update) :
    Grows m.registry (m.consolidate S D cfg E ccfg call data draws).1.registry := by
  obtain ⟨m₀, similarity, hm₀, heq⟩ := m.consolidate_eq S D cfg E ccfg call data draws
  obtain ⟨hrecalled, hstore⟩ := grows_recalled hm₀
  refine hrecalled.trans ?_
  rw [heq, hdecision]
  refine Grows.trans ?_ (grows_emitConsolidated D cfg _ _)
  cases haction : decision.action with
  | add => exact absurd haction hadd
  | update => exact absurd haction hupdate
  | noop =>
    rw [m₀.apply_noop S D cfg similarity call draws haction]
    exact .refl _
  | delete =>
    cases htarget : target S m₀.store decision with
    | none =>
      rw [m₀.apply_delete_none S D cfg similarity call draws haction htarget]
      exact .refl _
    | some old =>
      rw [m₀.apply_delete_some S D cfg similarity call draws haction htarget]
      exact grows_linkInvalidation S D cfg (m₀.saved S _ _) _ _ _

/-! ## Runs in which every fact has its history -/

def Starts (D : Digests) (m : MemoryService σ) (record : MemoryRecord) (version : Int) : Prop :=
  statesOf D (newStates m.journal) (record.factId D) = [] ∧ FreeVersion D m.registry record version

def HasOnlyFirst (D : Digests) (m : MemoryService σ) (old : MemoryRecord) : Prop :=
  ∃ first, statesOf D (newStates m.journal) (old.factId D) = [first]
    ∧ Projected D m.registry first 1 ∧ FreeVersion D m.registry old 2

def KeepsChain (S : MemoryStore σ) (E : Embedder Sim) (ccfg : ConsolidatorConfig Sim)
    (m : MemoryService σ) : MemoryCall D Sim → Prop
  | .remember call draws =>
    Starts D m (call.record draws.memoryId draws.createdAt) call.projectVersion
  | .consolidate call data draws =>
    match target S m.store (m.decided S E ccfg call data),
        (m.decided S E ccfg call data).action with
    | none, .add | none, .update =>
      Starts D m (freshRecord D (m.decided S E ccfg call data) call none draws) 1
    | some old, .update => HasOnlyFirst D m old
    | _, _ => True
  | .promote memoryId tier _ _ =>
    ∀ record, S.get m.store memoryId = some record → tier ∈ memoryTiers → record.tier = tier
  | _ => True

/-- What the runs keep: every fact has its history on the spine, and no memory has a blank id. -/
structure HoldsEvery (S : MemoryStore σ) (D : Digests) (m : MemoryService σ) : Prop where
  history : HoldsAll D m.registry (newStates m.journal)
  named : S.get m.store "" = none

theorem newStates_append (journal writes : List MemoryWrite) :
    newStates (journal ++ writes) = newStates journal ++ newStates writes :=
  List.filterMap_append

@[simp] theorem newStates_invalidationLinks (closed : MemoryRecord) :
    newStates (invalidationLinks cfg closed) = [] := by
  unfold invalidationLinks
  split <;> rfl

@[simp] theorem newStates_supersedeLinks (new closed : MemoryRecord) :
    newStates (supersedeLinks cfg new closed) = [] := by
  unfold supersedeLinks
  split <;> rfl

theorem named_save {store : σ} {record : MemoryRecord} (h : S.get store "" = none)
    (hid : record.memoryId ≠ "") : S.get (S.save store record) "" = none := by
  rw [S.get_save, if_neg (fun h => hid h.symm), h]

theorem HoldsEvery.consolidate (huuid : Function.Injective D.uuid5)
    (hservice : cfg.serviceRegistry = true) (hconsolidator : cfg.consolidatorRegistry = true)
    (h : HoldsEvery S D m) (hid : draws.remember.memoryId ≠ "")
    (hfresh : S.get m.store draws.remember.memoryId = none)
    (hchain : KeepsChain S E ccfg m (.consolidate call data draws)) :
    HoldsEvery S D (m.consolidate S D cfg E ccfg call data draws).1 := by
  obtain ⟨writes, heffect, hjournal⟩ := m.consolidate_effect S D cfg E ccfg call data hfresh
  generalize hdecision : m.decided S E ccfg call data = decision at heffect
  generalize hstore : (m.consolidate S D cfg E ccfg call data draws).1.store = store' at heffect
  simp only [KeepsChain, hdecision] at hchain
  cases heffect with
  | nothing htarget hadd hupdate =>
    refine ⟨?_, by rw [hstore, h.named]⟩
    rw [hjournal, List.append_nil]
    exact h.history.grows (consolidate_other hdecision hadd hupdate)
  | added htarget haction =>
    have hstarts : Starts D m (freshRecord D decision call none draws) 1 := by
      rcases haction with haction | haction <;> simpa [htarget, haction] using hchain
    obtain ⟨hgrows, hprojected⟩ := consolidate_added huuid hservice hdecision haction htarget
      hstarts.2
    refine ⟨?_, by rw [hstore]; exact named_save h.named hid⟩
    rw [hjournal, newStates_append]
    exact h.history.start hgrows hstarts.1 hprojected
  | @closed old htarget haction =>
    have hold := get_of_target S htarget
    have hne : old.memoryId ≠ "" := fun hblank => by rw [hblank, h.named] at hold; cases hold
    refine ⟨?_, by rw [hstore]; exact named_save h.named hne⟩
    have hwrites : newStates (.invalidated old (old.closed draws.now none)
        :: invalidationLinks cfg (old.closed draws.now none)) = [] :=
      newStates_invalidationLinks _
    rw [hjournal, newStates_append, hwrites, List.append_nil]
    exact h.history.grows (consolidate_other hdecision (by simp [haction]) (by simp [haction]))
  | @superseded old new htarget haction hnew =>
    have hold := get_of_target S htarget
    have hne : old.memoryId ≠ "" := fun hblank => by rw [hblank, h.named] at hold; cases hold
    have hfact : new.factId D = old.factId D := by
      rw [hnew]
      exact factId_freshRecord hne
    obtain ⟨first, hone, hfirst, hfree⟩ : HasOnlyFirst D m old := by
      simpa [htarget, haction] using hchain
    have hfreeNew : FreeVersion D m.registry new 2 := by
      unfold FreeVersion
      rw [spineId_of_factId hfact, hfree]
    rw [hnew] at hfreeNew
    obtain ⟨hgrows, hsecond, hlinked⟩ := consolidate_superseded huuid hservice hconsolidator
      hdecision haction htarget hfresh hfreeNew
    rw [← hnew] at hsecond hlinked
    refine ⟨?_, ?_⟩
    · have hwrites : newStates (.remembered new
          :: .invalidated old (old.closed draws.now (some new.memoryId))
          :: supersedeLinks cfg new (old.closed draws.now (some new.memoryId))) = [new] :=
        congrArg (new :: ·) (newStates_supersedeLinks _ _)
      have hfirstFact : first.factId D = old.factId D := by
        have hmem : first ∈ statesOf D (newStates m.journal) (old.factId D) := by simp [hone]
        simpa using (List.mem_filter.1 hmem).2
      obtain ⟨recordedAt, hget⟩ := hfirst
      obtain ⟨link, hmem, hfrom, hto, hrelation⟩ := hlinked
      rw [hjournal, newStates_append, hwrites]
      refine h.history.superseded hgrows (by rw [hfact, hone]) ⟨recordedAt, hgrows.records hget⟩
        hsecond ⟨link, hmem, hfrom, ?_, hrelation⟩
      rw [hto, spineId_of_factId hfirstFact]
    · rw [hstore]
      exact named_save (named_save h.named (by rw [hnew]; exact hid)) hne

theorem HoldsEvery.step (huuid : Function.Injective D.uuid5) (hservice : cfg.serviceRegistry = true)
    (hconsolidator : cfg.consolidatorRegistry = true) {m' : MemoryService σ} (h : HoldsEvery S D m)
    {call : MemoryCall D Sim} (hchain : KeepsChain S E ccfg m call)
    (hstep : (memoryCalls S D cfg E ccfg).step m call = some m') : HoldsEvery S D m' := by
  obtain ⟨hfresh, rfl⟩ := step_memoryCalls hstep
  cases call with
  | remember call draws =>
    obtain ⟨hid, -⟩ := freshId_iff.1 hfresh
    refine ⟨?_, by rw [perform, store_remember]; exact named_save h.named hid⟩
    rw [perform, journal_remember, newStates_append]
    exact h.history.start (grows_remember S D cfg m call draws) hchain.1
      (projected_remember hservice call draws hchain.2)
  | consolidate call data draws =>
    obtain ⟨hid, hfresh⟩ := freshId_iff.1 hfresh
    exact h.consolidate huuid hservice hconsolidator hid hfresh hchain
  | invalidate memoryId validTo supersededBy =>
    rcases invalidate_cases S m memoryId validTo supersededBy with
      ⟨-, hsame⟩ | ⟨record, hget, hsaved⟩
    · rw [perform, hsame]
      exact h
    · rw [perform, hsaved]
      have hne : record.memoryId ≠ "" := fun hblank => by
        rw [← S.memoryId_of_get hget, hblank, h.named] at hget
        cases hget
      refine ⟨?_, named_save h.named hne⟩
      rw [saved, newStates_append]
      exact (List.append_nil _).symm ▸ h.history
  | promote memoryId tier recordedAt event =>
    rcases promote_cases S D cfg m memoryId tier recordedAt event
      with hsame | ⟨record, hget, htier, hmoved, -⟩
    · rw [perform, hsame]
      exact h
    · exact absurd (hchain record hget htier) hmoved
  | «recall» call event =>
    obtain ⟨m₀, hrecall, hm₀⟩ := m.recall_eq S D cfg E ccfg.minSimilarity call event
    rw [perform, hrecall]
    rcases hm₀ with rfl | rfl
    · exact h
    · exact ⟨by rw [journal_emit]; exact h.history.grows (grows_emit D cfg m event),
        by rw [store_emit, h.named]⟩
  | registered record => exact ⟨h.history.grows (grows_tryRegister _ record), h.named⟩
  | linked link => exact ⟨h.history.grows (Grows.link _ link), h.named⟩

end Calls

/-! ### A memory that moves twice -/

section Moves

variable (D : Digests)

def workFact : RememberCall where
  text := "works at the port"
  subjectId := "alice"

/-- The draws of `workFact`. -/
def workDraws : RememberDraws D where
  memoryId := "m-1"
  createdAt := "2026-01-01"
  recordedAt := "2026-01-01"
  event := spineEvent D "e-1"

def movesTwice : List (MemoryCall D Percent) := [
  .remember workFact (workDraws D),
  .promote "m-1" "core" "2026-01-02" (spineEvent D "e-2"),
  .promote "m-1" "archival" "2026-01-03" (spineEvent D "e-3")]

def workMemory : MemoryRecord := workFact.record "m-1" "2026-01-01"

/-- A service that has not been used, with the registry that it is attached to. -/
def unusedService : MemoryService InMemoryMemories := { store := {} }

/-- The registry of the service after the two moves: the second one registers nothing. -/
def movedRegistry : EntityRegistry :=
  let registry := tryRegister (tryRegister {} (workMemory.toRecord D 1 "2026-01-01"))
    (spineEvent D "e-1").record
  let registry := tryRegister (tryRegister registry
    ((workMemory.movedTo "core").toRecord D 2 "2026-01-02")) (spineEvent D "e-2").record
  tryRegister (tryRegister registry
    ((workMemory.movedTo "archival").toRecord D 2 "2026-01-03")) (spineEvent D "e-3").record

theorem exec_movesTwice : ∃ m, (memoryCalls inMemoryMemoryStore D ⟨true, true⟩ lengthEmbedder
      { dupThreshold := ⟨95⟩, updateThreshold := ⟨80⟩ }).exec unusedService (movesTwice D) = some m
    ∧ m.registry = movedRegistry D
    ∧ newStates m.journal
      = [workMemory, workMemory.movedTo "core", workMemory.movedTo "archival"] :=
  ⟨_, rfl, rfl, rfl⟩

variable {D}

theorem get_tryRegister_fact (huuid : Function.Injective D.uuid5) (registry : EntityRegistry)
    {state state' : MemoryRecord} (hfact : state'.factId D = state.factId D) (version : Int)
    (recordedAt : String) (version' : Int) :
    (tryRegister registry (state.toRecord D version recordedAt)).get (state'.spineId D version')
      = (registry.get (state'.spineId D version')).or
        (if version' = version then some (state.toRecord D version recordedAt) else none) := by
  rw [get_tryRegister, recordId_toRecord]
  by_cases hversion : version' = version
  · rw [if_pos hversion, if_pos (by rw [hversion, spineId_of_factId hfact])]
  · rw [if_neg hversion, if_neg]
    intro hid
    exact hversion (recordIdFor_inj huuid hid).2.2

theorem get_movedRegistry (huuid : Function.Injective D.uuid5) (version : Int) :
    (movedRegistry D).get ((workMemory.movedTo "archival").spineId D version)
      = if version = 1 then some (workMemory.toRecord D 1 "2026-01-01")
        else if version = 2 then some ((workMemory.movedTo "core").toRecord D 2 "2026-01-02")
        else none := by
  have hblank : ∀ recordId, ({} : EntityRegistry).get recordId = none := fun _ => rfl
  have hcore : (workMemory.movedTo "archival").factId D = (workMemory.movedTo "core").factId D := rfl
  have hwork : (workMemory.movedTo "archival").factId D = workMemory.factId D := rfl
  simp only [movedRegistry, get_tryRegister_event huuid, get_tryRegister_fact huuid _ hcore,
    get_tryRegister_fact huuid _ hwork, get_tryRegister_fact huuid _ rfl, hblank]
  by_cases hone : version = 1
  · simp [hone]
  · by_cases htwo : version = 2
    · simp [htwo]
    · simp [hone, htwo]

theorem not_projected_movedTwice (huuid : Function.Injective D.uuid5) (version : Int) :
    ¬ Projected D (movedRegistry D) (workMemory.movedTo "archival") version := by
  rintro ⟨recordedAt, hget⟩
  rw [get_movedRegistry huuid] at hget
  have htier : ∀ state : MemoryRecord, ∀ v at',
      (state.toRecord D v at').metadata.find? "tier" = some (.str state.tier) := by
    intro state v at'
    rw [toRecord, project, EntityRecord.create]
    rfl
  split at hget
  · have h := congrArg (fun r => r.metadata.find? "tier") (Option.some.inj hget)
    simp only [htier, Option.some.injEq, Json.str.injEq] at h
    exact absurd h (by decide)
  · split at hget
    · have h := congrArg (fun r => r.metadata.find? "tier") (Option.some.inj hget)
      simp only [htier, Option.some.injEq, Json.str.injEq] at h
      exact absurd h (by decide)
    · cases hget

end Moves

end MemoryService

end Himmy
