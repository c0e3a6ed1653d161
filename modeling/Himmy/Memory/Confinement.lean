import Himmy.Memory.Consolidation

/-! # Whose memories a consolidation touches

A consolidation for a subject is confined when every memory it writes or links is of that subject,
and every memory of the others is as it was. The memory that a decision of the model closes is
looked up by its id alone, so a call is confined exactly when the decision does not name a stored
memory of another subject for an UPDATE or a DELETE. -/

namespace Himmy

def MemoryWrite.memories : MemoryWrite → List MemoryRecord
  | .remembered record => [record]
  | .invalidated old new | .promoted old new => [old, new]
  | .linked src dst _ => [src, dst]

def MemoryWrite.Concerns (subjectId : String) (write : MemoryWrite) : Prop :=
  ∀ r ∈ write.memories, r.subjectId = subjectId

namespace MemoryService

variable {σ Sim : Type} (S : MemoryStore σ) (D : Digests) (cfg : MemoryConfig)

/-- A call that led from `m` to `m'` stayed with the memories of a subject. -/
structure Confined (m m' : MemoryService σ) (subjectId : String) : Prop where
  writes : ∃ writes, m'.journal = m.journal ++ writes ∧ ∀ w ∈ writes, w.Concerns subjectId
  others : ∀ k, (S.get m'.store k).filter (fun r => r.subjectId ≠ subjectId)
    = (S.get m.store k).filter (fun r => r.subjectId ≠ subjectId)
  memoryLinks : S.linksFrom m'.store = S.linksFrom m.store ∧ S.linksTo m'.store = S.linksTo m.store

def NamesForeign (m : MemoryService σ) (subjectId : String) (decision : ConsolidationDecision) :
    Prop :=
  ∃ old, target S m.store decision = some old ∧ old.subjectId ≠ subjectId

variable {S D cfg} {m : MemoryService σ} {decision : ConsolidationDecision}
  {call : ConsolidateCall} {draws : ConsolidateDraws D} {subjectId : String}

theorem filter_get_save {store : σ} {record : MemoryRecord} (hrecord : record.subjectId = subjectId)
    (hreplaced : ∀ r, S.get store record.memoryId = some r → r.subjectId = subjectId) (k : String) :
    (S.get (S.save store record) k).filter (fun r => r.subjectId ≠ subjectId)
      = (S.get store k).filter (fun r => r.subjectId ≠ subjectId) := by
  rw [S.get_save]
  split
  · next hk =>
      subst hk
      cases hold : S.get store record.memoryId with
      | none => simp [Option.filter, hrecord]
      | some r => simp [Option.filter, hrecord, hreplaced r hold]
  · rfl

@[simp] theorem memoryId_freshRecord (stableKey : Option String) :
    (freshRecord D decision call stableKey draws).memoryId = draws.remember.memoryId := rfl

@[simp] theorem subjectId_freshRecord (stableKey : Option String) :
    (freshRecord D decision call stableKey draws).subjectId = call.subjectId := rfl

theorem filter_get_fresh {store : σ} {record : MemoryRecord}
    (hrecord : record.subjectId = subjectId) (hfresh : S.get store record.memoryId = none)
    (k : String) : (S.get (S.save store record) k).filter (fun r => r.subjectId ≠ subjectId)
      = (S.get store k).filter (fun r => r.subjectId ≠ subjectId) :=
  filter_get_save hrecord (fun r hr => absurd (hfresh.symm.trans hr) (by simp)) k

theorem links_save_save (store : σ) (r r' : MemoryRecord) :
    S.linksFrom (S.save (S.save store r) r') = S.linksFrom store
      ∧ S.linksTo (S.save (S.save store r) r') = S.linksTo store := by
  rw [(S.links_save _ r').1, (S.links_save _ r').2]
  exact S.links_save store r

theorem concerns_invalidationLinks {closed : MemoryRecord}
    (hclosed : closed.subjectId = subjectId) :
    ∀ w ∈ invalidationLinks cfg closed, w.Concerns subjectId := by
  unfold invalidationLinks
  split <;> simp [MemoryWrite.Concerns, MemoryWrite.memories, hclosed]

theorem concerns_supersedeLinks {new closed : MemoryRecord}
    (hnew : new.subjectId = subjectId) (hclosed : closed.subjectId = subjectId) :
    ∀ w ∈ supersedeLinks cfg new closed, w.Concerns subjectId := by
  unfold supersedeLinks
  split <;> simp [MemoryWrite.Concerns, MemoryWrite.memories, hnew, hclosed]

theorem confined_of_effect {m' : MemoryService σ} {writes : List MemoryWrite}
    (hfresh : S.get m.store draws.remember.memoryId = none)
    (htarget : ∀ old, target S m.store decision = some old → old.subjectId = call.subjectId)
    (heffect : DecisionEffect S D cfg m.store decision call draws m'.store writes)
    (hjournal : m'.journal = m.journal ++ writes) : Confined S m m' call.subjectId := by
  generalize hstore : m'.store = store' at heffect
  cases heffect with
  | nothing =>
    exact ⟨⟨[], hjournal, by simp⟩, fun k => by rw [hstore], by rw [hstore]; exact ⟨rfl, rfl⟩⟩
  | added =>
    refine ⟨⟨_, hjournal, by simp [MemoryWrite.Concerns, MemoryWrite.memories]⟩, fun k => ?_, ?_⟩
    · rw [hstore]
      exact filter_get_fresh rfl hfresh k
    · rw [hstore]
      exact S.links_save _ _
  | @closed old hold =>
    have hsubject := htarget old hold
    refine ⟨⟨_, hjournal, ?_⟩, fun k => ?_, ?_⟩
    · refine List.forall_mem_cons.2 ⟨?_, concerns_invalidationLinks (by simp [hsubject])⟩
      simp [MemoryWrite.Concerns, MemoryWrite.memories, hsubject]
    · rw [hstore]
      refine filter_get_save (by simp [hsubject]) (fun r hr => ?_) k
      rw [MemoryRecord.memoryId_closed, get_of_target S hold] at hr
      cases hr
      exact hsubject
    · rw [hstore]
      exact S.links_save _ _
  | @superseded old new hold _ hnew =>
    have hsubject := htarget old hold
    have hnewSubject : new.subjectId = call.subjectId := by rw [hnew]; rfl
    have hnewId : S.get m.store new.memoryId = none := by rw [hnew]; exact hfresh
    refine ⟨⟨_, hjournal, ?_⟩, fun k => ?_, ?_⟩
    · refine List.forall_mem_cons.2 ⟨?_, List.forall_mem_cons.2 ⟨?_,
        concerns_supersedeLinks hnewSubject (by simp [hsubject])⟩⟩
      · simp [MemoryWrite.Concerns, MemoryWrite.memories, hnewSubject]
      · simp [MemoryWrite.Concerns, MemoryWrite.memories, hsubject]
    · rw [hstore, filter_get_save (by simp [hsubject]) (fun r hr => ?_) k,
        filter_get_fresh hnewSubject hnewId k]
      rw [MemoryRecord.memoryId_closed, S.get_save] at hr
      split at hr
      · cases hr
        exact hnewSubject
      · rw [get_of_target S hold] at hr
        cases hr
        exact hsubject
    · rw [hstore]
      exact links_save_save _ _ _

theorem concerns_target_of_effect {store' : σ} {writes : List MemoryWrite} {old : MemoryRecord}
    (heffect : DecisionEffect S D cfg m.store decision call draws store' writes)
    (htarget : target S m.store decision = some old)
    (hconcerns : ∀ w ∈ writes, w.Concerns call.subjectId) : old.subjectId = call.subjectId := by
  cases heffect with
  | nothing hnone => rw [hnone] at htarget; cases htarget
  | added hnone => rw [hnone] at htarget; cases htarget
  | closed hold =>
    rw [hold] at htarget
    cases htarget
    exact hconcerns _ (List.mem_cons_self ..) old (List.mem_cons_self ..)
  | superseded hold =>
    rw [hold] at htarget
    cases htarget
    exact hconcerns _ (List.mem_cons_of_mem _ (List.mem_cons_self ..)) old (List.mem_cons_self ..)

variable [LinearOrder Sim] [Zero Sim] {E : Embedder Sim} {ccfg : ConsolidatorConfig Sim}

theorem not_confined_of_foreign {data : Option (Dict Json)}
    (hfresh : S.get m.store draws.remember.memoryId = none) (hllm : ccfg.useLlm = true)
    (hforeign : NamesForeign S m call.subjectId (decideWithLlm data)) :
    ¬ Confined S m (m.consolidate S D cfg E ccfg call data draws).1 call.subjectId := by
  rintro hconfined
  obtain ⟨old, hold, hne⟩ := hforeign
  obtain ⟨writes, heffect, hjournal⟩ := m.consolidate_effect S D cfg E ccfg call data hfresh
  obtain ⟨writes', hjournal', hconcerns⟩ := hconfined.writes
  cases List.append_cancel_left (hjournal.symm.trans hjournal')
  rw [decided, hllm, if_pos rfl] at heffect
  exact hne (concerns_target_of_effect heffect hold hconcerns)

/-- **Confinement.** A consolidation is confined to its subject exactly when it is decided by the
    similarity rule, or by a model that names no stored memory of another subject. -/
theorem consolidate_confined_iff (call : ConsolidateCall)
    (data : Option (Dict Json)) (draws : ConsolidateDraws D)
    (hfresh : S.get m.store draws.remember.memoryId = none) :
    Confined S m (m.consolidate S D cfg E ccfg call data draws).1 call.subjectId
      ↔ ccfg.useLlm = false ∨ ¬ NamesForeign S m call.subjectId (decideWithLlm data) := by
  constructor
  · intro hconfined
    cases hllm : ccfg.useLlm with
    | false => exact Or.inl rfl
    | true => exact Or.inr (fun hforeign => not_confined_of_foreign hfresh hllm hforeign hconfined)
  · intro hown
    obtain ⟨writes, heffect, hjournal⟩ := m.consolidate_effect S D cfg E ccfg call data hfresh
    refine confined_of_effect hfresh (fun old hold => ?_) heffect hjournal
    cases hllm : ccfg.useLlm with
    | false => exact (m.target_of_offline S E ccfg hllm hold).1
    | true =>
      rw [decided, hllm, if_pos rfl] at hold
      rcases hown with hoffline | hnone
      · rw [hllm] at hoffline
        cases hoffline
      · exact not_not.1 (fun hne => hnone ⟨old, hold, hne⟩)

/-! ### A decision that names a memory of another subject -/

def bobsMemories : MemoryService InMemoryMemories where
  store := inMemoryMemoryStore.save {}
    { memoryId := "m-1", subjectId := "bob", text := "likes tea", createdAt := "2026-01-01" }

def modelDecides : ConsolidatorConfig Percent where
  dupThreshold := ⟨95⟩
  updateThreshold := ⟨80⟩
  useLlm := true

/-- The model deletes the memory `m-1`. -/
def deleteDecision : Option (Dict Json) :=
  some (Dict.ofList [("action", .str "DELETE"), ("target_memory_id", .str "m-1")])

theorem bobs_target : ∃ old, target inMemoryMemoryStore bobsMemories.store
    (decideWithLlm deleteDecision) = some old ∧ old.subjectId = "bob" :=
  ⟨_, rfl, rfl⟩

/-- A call for `alice` closes the memory of `bob`. -/
theorem not_confined_foreign_delete : ¬ Confined inMemoryMemoryStore bobsMemories
      (bobsMemories.consolidate inMemoryMemoryStore codeDigests ⟨false, false⟩ lengthEmbedder
        modelDecides { candidateText := "likes tea", subjectId := "alice" } deleteDecision
        (drawsAt codeDigests "m-2" "2026-01-02")).1 "alice" := by
  refine not_confined_of_foreign rfl rfl ?_
  obtain ⟨old, hold, hsubject⟩ := bobs_target
  exact ⟨old, hold, by rw [hsubject]; decide⟩

/-- A call for `bob` with the same decision. -/
theorem consolidate_confined_iff_own : Confined inMemoryMemoryStore bobsMemories
      (bobsMemories.consolidate inMemoryMemoryStore codeDigests ⟨false, false⟩ lengthEmbedder
        modelDecides { candidateText := "likes tea", subjectId := "bob" } deleteDecision
        (drawsAt codeDigests "m-2" "2026-01-02")).1 "bob" := by
  refine (consolidate_confined_iff _ _ _ rfl).2 (Or.inr ?_)
  rintro ⟨old, hold, hforeign⟩
  obtain ⟨old', hold', hsubject⟩ := bobs_target
  rw [hold] at hold'
  cases hold'
  exact hforeign hsubject

end MemoryService

end Himmy
