import Himmy.Memory.Service

/-! # Memory consolidation

`MemoryConsolidator` decides for a candidate fact between ADD, UPDATE, DELETE and NOOP, by a
similarity rule or by a model, and applies the decision: an UPDATE remembers the new value under the
semantic identity of the old one and closes the old one, a DELETE closes its target. The target is
whatever memory the decision names (`decideWithLlm`), and it is looked up by its id alone. -/

namespace Himmy

inductive ConsolidationAction where
  | add
  | update
  | delete
  | noop
  deriving DecidableEq

/-- A decision for a candidate. -/
structure ConsolidationDecision where
  action : ConsolidationAction
  targetId : Option String
  newText : Option String
  reason : String

structure ConsolidationResult (Sim : Type) where
  action : ConsolidationAction
  record : Option MemoryRecord
  targetId : Option String
  reason : String
  similarity : Sim

/-- The arguments of `consolidate`. -/
structure ConsolidateCall where
  candidateText : String
  subjectId : String := "default"
  kind : String := "semantic"
  source : String := "llm_extracted"
  tier : String := "recall"

/-- What a `consolidate` draws: the clock when a memory is closed, what `remember` draws, the ids
    and clocks of two spine links, and the other events. -/
structure ConsolidateDraws (D : Digests) where
  now : String
  remember : RememberDraws D
  supersedes : String × String
  invalidatedBy : String × String
  recalled : AuditEvent D
  consolidated : AuditEvent D

/-- What a `MemoryConsolidator` is constructed with, beside the registry. -/
structure ConsolidatorConfig (Sim : Type) where
  dupThreshold : Sim
  updateThreshold : Sim
  topK : Nat := 5
  useLlm : Bool := false
  /-- `min_similarity` of the memory service -/
  minSimilarity : Option Sim := none

/-! ## Decisions -/

section Decisions

variable {Sim : Type} [LinearOrder Sim] (E : Embedder Sim) (ccfg : ConsolidatorConfig Sim)

def decideOffline (candidateText : String) (top : Option (MemoryHit Sim)) : ConsolidationDecision :=
  match top with
  | none => ⟨.add, none, some candidateText, "no related memory exists"⟩
  | some hit =>
    if ccfg.dupThreshold ≤ hit.similarity then
      ⟨.noop, some hit.record.memoryId, none,
        "near-duplicate of existing fact (sim=" ++ E.format hit.similarity ++ ")"⟩
    else if ccfg.updateThreshold ≤ hit.similarity then
      ⟨.update, some hit.record.memoryId, some candidateText,
        "supersedes a closely-related fact (sim=" ++ E.format hit.similarity ++ ")"⟩
    else
      ⟨.add, none, some candidateText, "distinct fact (sim=" ++ E.format hit.similarity ++ ")"⟩

end Decisions

def actionOf (text : String) : ConsolidationAction :=
  if text = "ADD" then .add
  else if text = "UPDATE" then .update
  else if text = "DELETE" then .delete
  else .noop

/-- `str(value) if value else None`. -/
def strIfTruthy (value : Option Json) : Option String :=
  (value.filter Json.truthy).map Json.pyStr

/-- The decision of `_decide_with_llm` for the structured output of the model, which is a dictionary
    or something else. -/
def decideWithLlm (data : Option (Dict Json)) : ConsolidationDecision :=
  match data with
  | none => ⟨.noop, none, none, "model returned no structured decision"⟩
  | some data =>
    { action := actionOf (pyUpper (((data.find? "action").getD (.str "NOOP")).pyStr))
      targetId := strIfTruthy (data.find? "target_memory_id")
      newText := strIfTruthy (data.find? "new_text")
      reason := pyOr (some ((data.find? "reason").getD (.str "")).pyStr) "llm decision" }

/-! ## Applying a decision -/

namespace MemoryService

variable {σ Sim : Type} (S : MemoryStore σ) (D : Digests) (cfg : MemoryConfig)
  (m : MemoryService σ)

/-- `self._registry.link(…)` between versions of two memories; a draw is the id of the link and the
    clock. -/
def linkSpine (src dst : MemoryRecord) (srcVersion dstVersion : Int) (relation : String)
    (draw : String × String) : MemoryService σ :=
  { m with
    registry := m.registry.link {
      linkId := draw.1, fromRecordId := src.spineId D srcVersion
      toRecordId := dst.spineId D dstVersion, relation, metadata := KeyedList.empty
      createdAt := draw.2 }
    journal := m.journal ++ [.linked src dst relation] }

def linkSupersede (newId oldId : String) (draws : ConsolidateDraws D) : MemoryService σ :=
  if cfg.consolidatorRegistry then
    match m.get S newId, m.get S oldId with
    | some new, some old =>
      (m.linkSpine D new old 2 1 "supersedes" draws.supersedes).linkSpine D old new 1 2
        "invalidated_by" draws.invalidatedBy
    | _, _ => m
  else m

def linkInvalidation (oldId : String) (newId : Option String) (draws : ConsolidateDraws D) :
    MemoryService σ :=
  if cfg.consolidatorRegistry then
    match m.get S oldId, m.get S (newId.getD oldId) with
    | some old, some target =>
      m.linkSpine D old target 1 1 "invalidated_by" draws.invalidatedBy
    | _, _ => m
  else m

/-- The fact that `_apply` remembers. -/
def freshFact (call : ConsolidateCall) (text : String) (stableKey : Option String)
    (projectVersion : Int) : RememberCall where
  text
  subjectId := call.subjectId
  kind := call.kind
  tier := call.tier
  source := call.source
  stableKey
  projectVersion

def supersede (old : MemoryRecord) (text : String) (call : ConsolidateCall)
    (draws : ConsolidateDraws D) : MemoryService σ × MemoryRecord :=
  let (m, new) := m.remember S D cfg (freshFact call text (some old.stableValue) 2) draws.remember
  let (m, _) := m.invalidate S old.memoryId draws.now (some new.memoryId)
  (m.linkSupersede S D cfg new.memoryId old.memoryId draws, new)

def addFact (text : String) (call : ConsolidateCall) (draws : ConsolidateDraws D) :
    MemoryService σ × MemoryRecord :=
  m.remember S D cfg (freshFact call text none 1) draws.remember

def apply (decision : ConsolidationDecision) (similarity : Sim) (call : ConsolidateCall)
    (draws : ConsolidateDraws D) : MemoryService σ × ConsolidationResult Sim :=
  let text := pyOr decision.newText call.candidateText
  let add :=
    let (m, new) := m.addFact S D cfg text call draws
    (m, ⟨.add, some new, none, decision.reason, similarity⟩)
  match decision.action with
  | .noop => (m, ⟨.noop, none, decision.targetId, decision.reason, similarity⟩)
  | .delete =>
    match decision.targetId.bind (m.get S) with
    | none => (m, ⟨.noop, none, none, "no target to delete", similarity⟩)
    | some target =>
      let (m, invalidated) := m.invalidate S target.memoryId draws.now none
      let m := m.linkInvalidation S D cfg target.memoryId none draws
      (m, ⟨.delete, invalidated, some target.memoryId, decision.reason, similarity⟩)
  | .update =>
    match decision.targetId.bind (m.get S) with
    | none => add
    | some old =>
      let (m, new) := m.supersede S D cfg old text call draws
      (m, ⟨.update, some new, some old.memoryId, decision.reason, similarity⟩)
  | .add => add

/-- `_emit_consolidated`, as far as the registry sees it. -/
def emitConsolidated (event : AuditEvent D) : MemoryService σ :=
  if cfg.consolidatorRegistry then { m with registry := tryRegister m.registry event.record }
  else m

variable [LinearOrder Sim] [Zero Sim] (E : Embedder Sim) (ccfg : ConsolidatorConfig Sim)

variable (call : ConsolidateCall)

def consolidateRecall : RecallCall Sim where
  query := call.candidateText
  subjectId := call.subjectId
  topK := ccfg.topK
  activeOnly := true

/-- `consolidate`; `data` is the structured output of the model. -/
def consolidate (data : Option (Dict Json))
    (draws : ConsolidateDraws D) : MemoryService σ × ConsolidationResult Sim :=
  let (m, hits) := m.recall S D cfg E ccfg.minSimilarity (consolidateRecall ccfg call)
    draws.recalled
  let top := hits.head?
  let decision := if ccfg.useLlm then decideWithLlm data
    else decideOffline E ccfg call.candidateText top
  let (m, result) := m.apply S D cfg decision ((top.map MemoryHit.similarity).getD 0) call draws
  (m.emitConsolidated D cfg draws.consolidated, result)

/-! ## What a call does to the store -/

/-- The decision that `consolidate` applies. -/
def decided (data : Option (Dict Json)) : ConsolidationDecision :=
  if ccfg.useLlm then decideWithLlm data
  else decideOffline E ccfg call.candidateText
    (m.hits S E ccfg.minSimilarity (consolidateRecall ccfg call)).head?

def target (store : σ) (decision : ConsolidationDecision) : Option MemoryRecord :=
  match decision.action with
  | .update | .delete => decision.targetId.bind (S.get store)
  | .add | .noop => none

def supersedeLinks (new closed : MemoryRecord) : List MemoryWrite :=
  if cfg.consolidatorRegistry then
    [.linked new closed "supersedes", .linked closed new "invalidated_by"]
  else []

def invalidationLinks (closed : MemoryRecord) : List MemoryWrite :=
  if cfg.consolidatorRegistry then [.linked closed closed "invalidated_by"] else []

def freshRecord (decision : ConsolidationDecision) (call : ConsolidateCall)
    (stableKey : Option String) (draws : ConsolidateDraws D) : MemoryRecord :=
  (freshFact call (pyOr decision.newText call.candidateText) stableKey 1).record
    draws.remember.memoryId draws.remember.createdAt

/-- What an applied decision does: the store after it, and what it adds to the journal. -/
inductive DecisionEffect (store : σ) (decision : ConsolidationDecision) (call : ConsolidateCall)
    (draws : ConsolidateDraws D) : σ → List MemoryWrite → Prop
  | nothing : target S store decision = none → decision.action ≠ .add →
      decision.action ≠ .update → DecisionEffect store decision call draws store []
  | added : target S store decision = none →
      decision.action = .add ∨ decision.action = .update →
      DecisionEffect store decision call draws
        (S.save store (freshRecord D decision call none draws))
        [.remembered (freshRecord D decision call none draws)]
  | closed {old : MemoryRecord} : target S store decision = some old →
      decision.action = .delete →
      DecisionEffect store decision call draws (S.save store (old.closed draws.now none))
        (.invalidated old (old.closed draws.now none)
          :: invalidationLinks cfg (old.closed draws.now none))
  | superseded {old new : MemoryRecord} : target S store decision = some old →
      decision.action = .update → new = freshRecord D decision call (some old.stableValue) draws →
      DecisionEffect store decision call draws
        (S.save (S.save store new) (old.closed draws.now (some new.memoryId)))
        (.remembered new :: .invalidated old (old.closed draws.now (some new.memoryId))
          :: supersedeLinks cfg new (old.closed draws.now (some new.memoryId)))

section Effects

omit [LinearOrder Sim] [Zero Sim]

@[simp] theorem store_emitConsolidated (event : AuditEvent D) :
    (m.emitConsolidated D cfg event).store = m.store := by
  unfold emitConsolidated
  split <;> rfl

@[simp] theorem journal_emitConsolidated (event : AuditEvent D) :
    (m.emitConsolidated D cfg event).journal = m.journal := by
  unfold emitConsolidated
  split <;> rfl

@[simp] theorem store_linkSpine (src dst : MemoryRecord) (srcVersion dstVersion : Int)
    (relation : String) (draw : String × String) :
    (m.linkSpine D src dst srcVersion dstVersion relation draw).store = m.store := rfl

@[simp] theorem journal_linkSpine (src dst : MemoryRecord) (srcVersion dstVersion : Int)
    (relation : String) (draw : String × String) :
    (m.linkSpine D src dst srcVersion dstVersion relation draw).journal
      = m.journal ++ [.linked src dst relation] := rfl

theorem linkSupersede_of_get {newId oldId : String} {new old : MemoryRecord}
    (hnew : S.get m.store newId = some new) (hold : S.get m.store oldId = some old)
    (draws : ConsolidateDraws D) : (m.linkSupersede S D cfg newId oldId draws).store = m.store
      ∧ (m.linkSupersede S D cfg newId oldId draws).journal
        = m.journal ++ supersedeLinks cfg new old := by
  unfold linkSupersede supersedeLinks
  split
  · simp [get, hnew, hold]
  · simp

theorem linkInvalidation_of_get {oldId : String} {old : MemoryRecord}
    (hold : S.get m.store oldId = some old) (draws : ConsolidateDraws D) :
    (m.linkInvalidation S D cfg oldId none draws).store = m.store
      ∧ (m.linkInvalidation S D cfg oldId none draws).journal
        = m.journal ++ invalidationLinks cfg old := by
  unfold linkInvalidation invalidationLinks
  split
  · simp [get, hold]
  · simp

variable {old new : MemoryRecord}

theorem supersede_eq (hold : S.get m.store old.memoryId = some old)
    {draws : ConsolidateDraws D} (hfresh : S.get m.store draws.remember.memoryId = none)
    (text : String) (call : ConsolidateCall)
    (hnew : new = (freshFact call text (some old.stableValue) 2).record draws.remember.memoryId
      draws.remember.createdAt) : m.supersede S D cfg old text call draws
      = ((((m.remember S D cfg (freshFact call text (some old.stableValue) 2)
            draws.remember).1.saved S (old.closed draws.now (some new.memoryId))
          (.invalidated old (old.closed draws.now (some new.memoryId)))).linkSupersede S D cfg
            new.memoryId old.memoryId draws), new) := by
  have hne : old.memoryId ≠ draws.remember.memoryId := by
    intro h
    rw [h, hfresh] at hold
    cases hold
  have hold' : S.get (m.remember S D cfg (freshFact call text (some old.stableValue) 2)
      draws.remember).1.store old.memoryId = some old := by
    rw [store_remember, S.get_save, RememberCall.memoryId_record, if_neg hne, hold]
  unfold supersede
  simp only [snd_remember, ← hnew, invalidate_of_get _ _ hold']

theorem get_superseded (store : σ) (validTo : String) (hne : new.memoryId ≠ old.memoryId) :
    S.get (S.save (S.save store new) (old.closed validTo (some new.memoryId))) new.memoryId
        = some new
      ∧ S.get (S.save (S.save store new) (old.closed validTo (some new.memoryId))) old.memoryId
        = some (old.closed validTo (some new.memoryId)) := by
  simp [S.get_save, hne]

theorem supersede_effect (hold : S.get m.store old.memoryId = some old)
    {draws : ConsolidateDraws D} (hfresh : S.get m.store draws.remember.memoryId = none)
    (text : String) (call : ConsolidateCall)
    (hnew : new = (freshFact call text (some old.stableValue) 2).record draws.remember.memoryId
      draws.remember.createdAt) : (m.supersede S D cfg old text call draws).1.store
        = S.save (S.save m.store new) (old.closed draws.now (some new.memoryId))
      ∧ (m.supersede S D cfg old text call draws).1.journal = m.journal ++
        (.remembered new :: .invalidated old (old.closed draws.now (some new.memoryId))
          :: supersedeLinks cfg new (old.closed draws.now (some new.memoryId))) := by
  have hne : new.memoryId ≠ old.memoryId := by
    intro h
    rw [hnew, RememberCall.memoryId_record] at h
    rw [h, hold] at hfresh
    cases hfresh
  obtain ⟨hgetnew, hgetold⟩ := get_superseded S m.store draws.now hne
  have hstore := m.store_remember S D cfg (freshFact call text (some old.stableValue) 2)
    draws.remember
  have hjournal := m.journal_remember S D cfg (freshFact call text (some old.stableValue) 2)
    draws.remember
  rw [← hnew] at hstore hjournal
  rw [← hstore] at hgetnew hgetold
  rw [m.supersede_eq S D cfg hold hfresh text call hnew]
  obtain ⟨hlinked, hlinks⟩ := linkSupersede_of_get S D cfg
    ((m.remember S D cfg (freshFact call text (some old.stableValue) 2) draws.remember).1.saved S
      (old.closed draws.now (some new.memoryId))
      (.invalidated old (old.closed draws.now (some new.memoryId)))) hgetnew hgetold draws
  constructor
  · rw [hlinked, saved, hstore]
  · rw [hlinks, saved, hjournal, List.append_assoc, List.append_assoc]
    rfl

variable {decision : ConsolidationDecision} {store : σ}

theorem target_update (h : decision.action = .update) :
    target S store decision = decision.targetId.bind (S.get store) := by
  rw [target, h]

theorem target_delete (h : decision.action = .delete) :
    target S store decision = decision.targetId.bind (S.get store) := by
  rw [target, h]

theorem get_of_target {old : MemoryRecord}
    (h : target S store decision = some old) : S.get store old.memoryId = some old := by
  unfold target at h
  split at h
  · obtain ⟨k, -, hk⟩ := Option.bind_eq_some_iff.1 h
    rwa [S.memoryId_of_get hk]
  · obtain ⟨k, -, hk⟩ := Option.bind_eq_some_iff.1 h
    rwa [S.memoryId_of_get hk]
  · cases h
  · cases h

section Apply

variable (similarity : Sim) (call : ConsolidateCall) (draws : ConsolidateDraws D)
  {decision : ConsolidationDecision}

theorem apply_noop (haction : decision.action = .noop) :
    m.apply S D cfg decision similarity call draws
      = (m, ⟨.noop, none, decision.targetId, decision.reason, similarity⟩) := by
  simp only [apply, haction]

theorem apply_delete_none (haction : decision.action = .delete)
    (htarget : target S m.store decision = none) : m.apply S D cfg decision similarity call draws
      = (m, ⟨.noop, none, none, "no target to delete", similarity⟩) := by
  rw [target_delete _ haction] at htarget
  have hget : decision.targetId.bind (m.get S) = none := htarget
  simp only [apply, haction, hget]

theorem apply_delete_some {old : MemoryRecord} (haction : decision.action = .delete)
    (htarget : target S m.store decision = some old) :
    m.apply S D cfg decision similarity call draws = ((m.saved S (old.closed draws.now none)
            (.invalidated old (old.closed draws.now none))).linkInvalidation S D cfg old.memoryId
          none draws,
        ⟨.delete, some (old.closed draws.now none), some old.memoryId, decision.reason,
          similarity⟩) := by
  have hold := get_of_target S htarget
  rw [target_delete _ haction] at htarget
  have hget : decision.targetId.bind (m.get S) = some old := htarget
  simp only [apply, haction, hget, invalidate_of_get S m hold]

theorem apply_added (haction : decision.action = .add ∨ decision.action = .update)
    (htarget : target S m.store decision = none) : m.apply S D cfg decision similarity call draws
      = ((m.addFact S D cfg (pyOr decision.newText call.candidateText) call draws).1,
        ⟨.add, some (freshRecord D decision call none draws), none, decision.reason,
          similarity⟩) := by
  rcases haction with haction | haction
  · simp only [apply, haction]
    rfl
  · rw [target_update _ haction] at htarget
    have hget : decision.targetId.bind (m.get S) = none := htarget
    simp only [apply, haction, hget]
    rfl

theorem apply_superseded {old : MemoryRecord} (haction : decision.action = .update)
    (htarget : target S m.store decision = some old)
    (hfresh : S.get m.store draws.remember.memoryId = none) :
    m.apply S D cfg decision similarity call draws
      = ((m.supersede S D cfg old (pyOr decision.newText call.candidateText) call draws).1,
        ⟨.update, some (freshRecord D decision call (some old.stableValue) draws),
          some old.memoryId, decision.reason, similarity⟩) := by
  have hold := get_of_target S htarget
  rw [target_update _ haction] at htarget
  have hget : decision.targetId.bind (m.get S) = some old := htarget
  simp only [apply, haction, hget]
  rw [m.supersede_eq S D cfg hold hfresh _ call rfl]
  rfl

theorem apply_effect (hfresh : S.get m.store draws.remember.memoryId = none)
    (decision : ConsolidationDecision) :
    ∃ writes, DecisionEffect S D cfg m.store decision call draws
        (m.apply S D cfg decision similarity call draws).1.store writes
      ∧ (m.apply S D cfg decision similarity call draws).1.journal = m.journal ++ writes := by
  have hadded : (decision.action = .add ∨ decision.action = .update) →
      target S m.store decision = none → ∃ writes,
      DecisionEffect S D cfg m.store decision call draws
        (m.apply S D cfg decision similarity call draws).1.store writes
      ∧ (m.apply S D cfg decision similarity call draws).1.journal = m.journal ++ writes := by
    intro haction htarget
    refine ⟨[.remembered (freshRecord D decision call none draws)], ?_, ?_⟩
    · rw [m.apply_added S D cfg similarity call draws haction htarget, addFact, store_remember]
      exact DecisionEffect.added htarget haction
    · rw [m.apply_added S D cfg similarity call draws haction htarget, addFact, journal_remember]
      rfl
  cases haction : decision.action with
  | noop =>
    have htarget : target S m.store decision = none := by rw [target, haction]
    rw [m.apply_noop S D cfg similarity call draws haction]
    exact ⟨[], DecisionEffect.nothing htarget (by simp [haction]) (by simp [haction]),
      (List.append_nil _).symm⟩
  | add => exact hadded (Or.inl haction) (by rw [target, haction])
  | delete =>
    cases htarget : target S m.store decision with
    | none =>
      rw [m.apply_delete_none S D cfg similarity call draws haction htarget]
      exact ⟨[], DecisionEffect.nothing htarget (by simp [haction]) (by simp [haction]),
        (List.append_nil _).symm⟩
    | some old =>
      rw [m.apply_delete_some S D cfg similarity call draws haction htarget]
      have hclosed : S.get (m.saved S (old.closed draws.now none)
          (.invalidated old (old.closed draws.now none))).store old.memoryId
          = some (old.closed draws.now none) := by
        simp [saved, S.get_save]
      obtain ⟨hstore, hjournal⟩ := linkInvalidation_of_get S D cfg _ hclosed draws
      refine ⟨.invalidated old (old.closed draws.now none)
        :: invalidationLinks cfg (old.closed draws.now none), ?_, ?_⟩
      · rw [hstore]
        exact DecisionEffect.closed htarget haction
      · rw [hjournal, saved, List.append_assoc]
        rfl
  | update =>
    cases htarget : target S m.store decision with
    | none => exact hadded (Or.inr haction) htarget
    | some old =>
      have hold := get_of_target S htarget
      obtain ⟨hstore, hjournal⟩ := m.supersede_effect S D cfg hold hfresh
        (pyOr decision.newText call.candidateText) call rfl
      rw [m.apply_superseded S D cfg similarity call draws haction htarget hfresh]
      exact ⟨_, hstore ▸ DecisionEffect.superseded htarget haction rfl, hjournal⟩

end Apply

end Effects

variable (call : ConsolidateCall) (data : Option (Dict Json))

theorem consolidate_eq (draws : ConsolidateDraws D) :
    ∃ m₀ similarity, (m₀ = m ∨ m₀ = m.emit D cfg draws.recalled)
      ∧ m.consolidate S D cfg E ccfg call data draws
        = (((m₀.apply S D cfg (m.decided S E ccfg call data) similarity call
              draws).1.emitConsolidated D cfg draws.consolidated),
          (m₀.apply S D cfg (m.decided S E ccfg call data) similarity call draws).2) := by
  obtain ⟨m₀, hrecall, hm₀⟩ := m.recall_eq S D cfg E ccfg.minSimilarity
    (consolidateRecall ccfg call) draws.recalled
  refine ⟨m₀, ((m.hits S E ccfg.minSimilarity
    (consolidateRecall ccfg call)).head?.map MemoryHit.similarity).getD 0, hm₀, ?_⟩
  simp only [consolidate, hrecall, decided]

theorem consolidate_effect
    {draws : ConsolidateDraws D} (hfresh : S.get m.store draws.remember.memoryId = none) :
    ∃ writes, DecisionEffect S D cfg m.store (m.decided S E ccfg call data) call draws
        (m.consolidate S D cfg E ccfg call data draws).1.store writes
      ∧ (m.consolidate S D cfg E ccfg call data draws).1.journal = m.journal ++ writes := by
  obtain ⟨m₀, similarity, hm₀, heq⟩ := m.consolidate_eq S D cfg E ccfg call data draws
  have hsame : m₀.store = m.store ∧ m₀.journal = m.journal := by
    rcases hm₀ with rfl | rfl <;> simp
  rw [← hsame.1] at hfresh
  obtain ⟨writes, heffect, hjournal⟩ := m₀.apply_effect S D cfg similarity call draws hfresh
    (m.decided S E ccfg call data)
  rw [hsame.1] at heffect
  rw [hsame.2] at hjournal
  rw [heq]
  exact ⟨writes, by simpa using heffect, by simpa using hjournal⟩

theorem consolidate_updated
    {draws : ConsolidateDraws D} (hfresh : S.get m.store draws.remember.memoryId = none)
    (hupdate : (m.consolidate S D cfg E ccfg call data draws).2.action = .update) :
    ∃ old, target S m.store (m.decided S E ccfg call data) = some old
      ∧ (m.decided S E ccfg call data).action = .update
      ∧ (m.consolidate S D cfg E ccfg call data draws).2.targetId = some old.memoryId
      ∧ (m.consolidate S D cfg E ccfg call data draws).2.record
        = some (freshRecord D (m.decided S E ccfg call data) call (some old.stableValue) draws) := by
  obtain ⟨m₀, similarity, hm₀, heq⟩ := m.consolidate_eq S D cfg E ccfg call data draws
  have hstore : m₀.store = m.store := by rcases hm₀ with rfl | rfl <;> simp
  rw [← hstore] at hfresh ⊢
  rw [heq] at hupdate ⊢
  generalize m.decided S E ccfg call data = decision at hupdate ⊢
  cases haction : decision.action with
  | noop =>
    rw [m₀.apply_noop S D cfg similarity call draws haction] at hupdate
    cases hupdate
  | add =>
    rw [m₀.apply_added S D cfg similarity call draws (Or.inl haction)
      (by rw [target, haction])] at hupdate
    cases hupdate
  | delete =>
    cases htarget : target S m₀.store decision with
    | none =>
      rw [m₀.apply_delete_none S D cfg similarity call draws haction htarget] at hupdate
      cases hupdate
    | some old =>
      rw [m₀.apply_delete_some S D cfg similarity call draws haction htarget] at hupdate
      cases hupdate
  | update =>
    cases htarget : target S m₀.store decision with
    | none =>
      rw [m₀.apply_added S D cfg similarity call draws (Or.inr haction) htarget] at hupdate
      cases hupdate
    | some old =>
      refine ⟨old, rfl, rfl, ?_⟩
      rw [m₀.apply_superseded S D cfg similarity call draws haction htarget hfresh]
      exact ⟨rfl, rfl⟩

theorem target_of_offline {call : ConsolidateCall} {data : Option (Dict Json)} {old : MemoryRecord}
    (hoffline : ccfg.useLlm = false)
    (h : target S m.store (m.decided S E ccfg call data) = some old) :
    old.subjectId = call.subjectId ∧ old.validTo = none := by
  rw [decided, hoffline, if_neg Bool.false_ne_true] at h
  have hhit : ∀ hit, (m.hits S E ccfg.minSimilarity (consolidateRecall ccfg call)).head? = some hit →
      S.get m.store hit.record.memoryId = some hit.record
        ∧ hit.record.subjectId = call.subjectId ∧ hit.record.validTo = none := by
    intro hit hhead
    have hmem := m.record_mem_candidates S E (List.mem_of_mem_head? hhead)
    simp only [candidates, consolidateRecall, S.mem_list, ofSubject, passesFilters] at hmem
    simpa using hmem
  unfold decideOffline at h
  split at h
  · cases h
  · next hit hhead =>
      obtain ⟨hget, hsubject, hopen⟩ := hhit hit hhead
      split at h
      · cases h
      · split at h
        · have : some hit.record = some old := hget.symm.trans h
          cases this
          exact ⟨hsubject, hopen⟩
        · cases h

/-! ### An embedder and draws -/

/-- A similarity in percent. -/
structure Percent where
  value : Nat

instance : LinearOrder Percent :=
  @LinearOrder.lift' Percent Nat Nat.instLinearOrder Percent.value
    (fun a b h => by cases a; cases b; cases h; rfl)

instance : Zero Percent := ⟨⟨0⟩⟩

def lengthEmbedder : Embedder Percent where
  similarity _ text := ⟨text.length⟩
  format n := toString n.value

def spineEvent (D : Digests) (eventId : String) : AuditEvent D where
  record := EntityRecord.create D eventId 1 "run_event" KeyedList.empty KeyedList.empty "2026-01-01"
  kind_eq := rfl
  recordId_eq := rfl

/-- What a call draws whose clock reads `now` throughout. -/
def drawsAt (D : Digests) (memoryId now : String) : ConsolidateDraws D where
  now
  remember := { memoryId, createdAt := now, recordedAt := now, event := spineEvent D "e-1" }
  supersedes := ("l-1", now)
  invalidatedBy := ("l-2", now)
  recalled := spineEvent D "e-2"
  consolidated := spineEvent D "e-3"

end MemoryService

end Himmy
