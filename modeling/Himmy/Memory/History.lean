import Himmy.Memory.Calls

/-! # What the past of the memories keeps

A memory is closed by `invalidate` and by an UPDATE or DELETE of the consolidator, at an instant that
is given or read from the clock. A call is orderly when it closes no memory that is closed, closes at
no instant that is past, and closes the old version of an UPDATE at the instant where the new one
begins. In a run of orderly calls what was valid at a past instant stays so (`Keeps`), and a recall
as of that instant ranks the same versions. -/

namespace Himmy

open MemoryCall (readings)

def MemoryRecord.version (record : MemoryRecord) : MemoryRecord :=
  { record with tier := "recall", validTo := none, supersededBy := none }

namespace MemoryRecord

variable (record : MemoryRecord)

@[simp] theorem version_closed (validTo : String) (supersededBy : Option String) :
    (record.closed validTo supersededBy).version = record.version := rfl

@[simp] theorem version_movedTo (tier : String) : (record.movedTo tier).version = record.version :=
  rfl

variable {record} {record' : MemoryRecord}

theorem eq_of_version {β : Type} (f : MemoryRecord → β) (hf : ∀ r, f r.version = f r)
    (h : record.version = record'.version) : f record = f record' := by
  rw [← hf record, h, hf]

theorem validFrom_of_version (h : record.version = record'.version) :
    record.validFrom = record'.validFrom :=
  eq_of_version validFrom (fun _ => rfl) h

/-- The memory later: the same version, closed where it was closed, or else not in the past. -/
structure Continues (clock : String) (record record' : MemoryRecord) : Prop where
  version_eq : record'.version = record.version
  closed : ∀ t, record.validTo = some t → record'.validTo = some t
  opened : ∀ t, record.validTo = none → record'.validTo = some t → clock ≤ t

theorem Continues.refl (clock : String) (record : MemoryRecord) : Continues clock record record :=
  ⟨rfl, fun _ h => h, fun t hnone hsome => by rw [hnone] at hsome; cases hsome⟩

theorem Continues.trans {clock clock' : String} {r r' r'' : MemoryRecord} (hle : clock ≤ clock')
    (h : Continues clock r r') (h' : Continues clock' r' r'') : Continues clock r r'' where
  version_eq := h'.version_eq.trans h.version_eq
  closed t ht := h'.closed t (h.closed t ht)
  opened t hnone hsome := by
    cases hmid : r'.validTo with
    | none => exact le_trans hle (h'.opened t hmid hsome)
    | some t' =>
      rw [h'.closed t' hmid] at hsome
      cases hsome
      exact h.opened t hnone hmid

theorem Continues.isValidAt_eq {clock asOf : String} (h : Continues clock record record')
    (hpast : asOf < clock) : isValidAt record' asOf = isValidAt record asOf := by
  rw [Bool.eq_iff_iff, isValidAt_iff, isValidAt_iff, validFrom_of_version h.version_eq]
  refine and_congr_right (fun _ => ?_)
  cases hto : record.validTo with
  | some t => rw [h.closed t hto]
  | none =>
    constructor
    · rintro - t ⟨⟩
    · intro _ t ht
      exact lt_of_lt_of_le hpast (h.opened t hto ht)

end MemoryRecord

def MemoryHit.scoredVersion {Sim : Type} (hit : MemoryHit Sim) : MemoryRecord × Sim :=
  (hit.record.version, hit.similarity)

namespace MemoryService

variable {σ Sim : Type} (S : MemoryStore σ)

/-- The memories at one moment and at a later one. -/
structure Keeps (clock : String) (store store' : σ) : Prop where
  kept : ∀ {k r}, S.get store k = some r →
    ∃ r', S.get store' k = some r' ∧ MemoryRecord.Continues clock r r'
  begun : ∀ {k r'}, S.get store' k = some r' → S.get store k = none → clock ≤ r'.validFrom

variable {S} {clock clock' : String} {store store' store'' : σ}

theorem Keeps.refl (clock : String) (store : σ) : Keeps S clock store store :=
  ⟨fun h => ⟨_, h, .refl clock _⟩, fun hsome hnone => by rw [hnone] at hsome; cases hsome⟩

theorem Keeps.trans (hle : clock ≤ clock') (h : Keeps S clock store store')
    (h' : Keeps S clock' store' store'') : Keeps S clock store store'' where
  kept hr := by
    obtain ⟨r', hr', hcontinues⟩ := h.kept hr
    obtain ⟨r'', hr'', hcontinues'⟩ := h'.kept hr'
    exact ⟨r'', hr'', hcontinues.trans hle hcontinues'⟩
  begun {k r''} hr'' hnone := by
    cases hr' : S.get store' k with
    | none => exact le_trans hle (h'.begun hr'' hr')
    | some r' =>
      obtain ⟨s, hs, hcontinues⟩ := h'.kept hr'
      rw [hr''] at hs
      cases hs
      rw [MemoryRecord.validFrom_of_version hcontinues.version_eq]
      exact h.begun hr' hnone

theorem Keeps.save {record : MemoryRecord}
    (hold : ∀ r, S.get store record.memoryId = some r → MemoryRecord.Continues clock r record)
    (hnew : S.get store record.memoryId = none → clock ≤ record.validFrom) :
    Keeps S clock store (S.save store record) where
  kept {k r} hr := by
    by_cases hk : k = record.memoryId
    · subst hk
      exact ⟨record, by rw [S.get_save, if_pos rfl], hold r hr⟩
    · exact ⟨r, by rw [S.get_save, if_neg hk, hr], .refl clock r⟩
  begun {k r'} hr' hnone := by
    rw [S.get_save] at hr'
    split at hr'
    · next hk =>
        cases hr'
        subst hk
        exact hnew hnone
    · rw [hnone] at hr'
      cases hr'

theorem Keeps.get_filter {asOf : String} (h : Keeps S clock store store') (hpast : asOf < clock)
    (k : String) : ((S.get store' k).filter (fun r => isValidAt r asOf)).map MemoryRecord.version
      = ((S.get store k).filter (fun r => isValidAt r asOf)).map MemoryRecord.version := by
  cases hr : S.get store k with
  | some r =>
    obtain ⟨r', hr', hcontinues⟩ := h.kept hr
    rw [hr']
    simp only [Option.filter, hcontinues.isValidAt_eq hpast]
    split
    · simp [hcontinues.version_eq]
    · rfl
  | none =>
    cases hr' : S.get store' k with
    | none => rfl
    | some r' =>
      have hbegun := h.begun hr' hr
      have hinvalid : isValidAt r' asOf = false := by
        rw [Bool.eq_false_iff, Ne, isValidAt_iff]
        exact fun hvalid => absurd (lt_of_lt_of_le hpast hbegun) (not_lt.2 hvalid.1)
      simp [Option.filter, hinvalid]

/-! ## What a recall ranks -/

/-- A recall reads the memories as of an instant, and none for its tier or because it is open. -/
structure ReadsPast (call : RecallCall Sim) (asOf : String) : Prop where
  asOf_eq : call.asOf = some asOf
  tier_eq : call.tier = none
  activeOnly_eq : call.activeOnly = false

variable {m m' : MemoryService σ} {call : RecallCall Sim} {asOf : String}

theorem mem_candidates_of_readsPast (hpast : ReadsPast call asOf) {r : MemoryRecord} :
    r ∈ m.candidates S call ↔ r.subjectId = call.subjectId
      ∧ (S.get m.store r.memoryId).filter (fun r => isValidAt r asOf) = some r := by
  rw [candidates, hpast.asOf_eq, hpast.tier_eq, hpast.activeOnly_eq]
  simp only [filterAsOf, List.mem_filter, S.mem_list, ofSubject, passesFilters,
    Option.filter_eq_some_iff]
  simp
  tauto

theorem mem_map_version_candidates (hpast : ReadsPast call asOf) {v : MemoryRecord} :
    v ∈ (m.candidates S call).map MemoryRecord.version ↔ v.subjectId = call.subjectId
      ∧ ((S.get m.store v.memoryId).filter (fun r => isValidAt r asOf)).map MemoryRecord.version
        = some v := by
  constructor
  · intro hv
    obtain ⟨r, hr, rfl⟩ := List.mem_map.1 hv
    obtain ⟨hsubject, hget⟩ := (mem_candidates_of_readsPast hpast).1 hr
    exact ⟨hsubject, Option.map_eq_some_iff.2 ⟨r, hget, rfl⟩⟩
  · rintro ⟨hsubject, hget⟩
    obtain ⟨r, hr, rfl⟩ := Option.map_eq_some_iff.1 hget
    exact List.mem_map.2 ⟨r, (mem_candidates_of_readsPast hpast).2 ⟨hsubject, hr⟩, rfl⟩

theorem nodup_map_version_candidates (hpast : ReadsPast call asOf) :
    ((m.candidates S call).map MemoryRecord.version).Nodup := by
  refine List.Nodup.map_on (fun r hr r' hr' h => ?_) ?_
  · have hid := MemoryRecord.eq_of_version MemoryRecord.memoryId (fun _ => rfl) h
    have hget := ((mem_candidates_of_readsPast hpast).1 hr).2
    rw [hid, ((mem_candidates_of_readsPast hpast).1 hr').2] at hget
    exact (Option.some.inj hget).symm
  · rw [candidates, hpast.asOf_eq]
    exact (S.nodup_list _ _ _ _).filter _

theorem Keeps.candidates_perm (h : Keeps S clock m.store m'.store) (hclock : asOf < clock)
    (hpast : ReadsPast call asOf) : ((m'.candidates S call).map MemoryRecord.version).Perm
      ((m.candidates S call).map MemoryRecord.version) := by
  refine (List.perm_ext_iff_of_nodup (nodup_map_version_candidates hpast)
    (nodup_map_version_candidates hpast)).2 (fun v => ?_)
  rw [mem_map_version_candidates hpast, mem_map_version_candidates hpast, h.get_filter hclock]

section Hits

variable [LinearOrder Sim] [Zero Sim] {E : Embedder Sim} {minSimilarity : Option Sim}

omit [Zero Sim] in
theorem map_scoredVersion_ranking (m : MemoryService σ) (call : RecallCall Sim) :
    ((m.ranking S E call).map MemoryHit.scoredVersion).Perm
      (((m.candidates S call).map MemoryRecord.version).map
        (fun v => (v, E.similarity call.query v.text))) := by
  refine ((List.mergeSort_perm _ _).map _).trans (List.Perm.of_eq ?_)
  simp only [scored, List.map_map]
  rfl

/-- A recall as of a past instant gives the same scores later, and the same versions unless its cap
    cuts the ranking. -/
structure RecallsSame (S : MemoryStore σ) (E : Embedder Sim) (minSimilarity : Option Sim)
    (call : RecallCall Sim) (m m' : MemoryService σ) : Prop where
  ranked : ((m'.candidates S call).map MemoryRecord.version).Perm
    ((m.candidates S call).map MemoryRecord.version)
  scores : (m'.hits S E minSimilarity call).map MemoryHit.similarity
    = (m.hits S E minSimilarity call).map MemoryHit.similarity
  versions : (m.candidates S call).length ≤ call.topK →
    ((m'.hits S E minSimilarity call).map MemoryHit.scoredVersion).Perm
      ((m.hits S E minSimilarity call).map MemoryHit.scoredVersion)

omit [Zero Sim] in
theorem map_similarity_ranking (hranked : ((m'.candidates S call).map MemoryRecord.version).Perm
      ((m.candidates S call).map MemoryRecord.version)) :
    (m'.ranking S E call).map MemoryHit.similarity
      = (m.ranking S E call).map MemoryHit.similarity := by
  have hsorted : ∀ m : MemoryService σ, ((m.ranking S E call).map MemoryHit.similarity).Pairwise
      (fun a b => b ≤ a) := fun m => List.pairwise_map.2 (m.sorted_ranking S E call)
  have hscores : ∀ m : MemoryService σ, (m.ranking S E call).map MemoryHit.similarity
      = ((m.ranking S E call).map MemoryHit.scoredVersion).map Prod.snd := fun m => by
    rw [List.map_map]
    rfl
  refine List.Perm.eq_of_pairwise (fun a b _ _ hab hba => le_antisymm hba hab) (hsorted m')
    (hsorted m) ?_
  rw [hscores, hscores]
  exact ((map_scoredVersion_ranking m' call).trans ((hranked.map _).trans
    (map_scoredVersion_ranking m call).symm)).map _

omit [Zero Sim] in
theorem length_ranking (m : MemoryService σ) (call : RecallCall Sim) :
    (m.ranking S E call).length = (m.candidates S call).length := by
  simp [ranking, scored]

theorem map_scoredVersion_hits (m : MemoryService σ) {call : RecallCall Sim}
    (hcap : (m.candidates S call).length ≤ call.topK) :
    (m.hits S E minSimilarity call).map MemoryHit.scoredVersion
      = ((m.ranking S E call).map MemoryHit.scoredVersion).filter
        (fun p => floorKeeps minSimilarity call p.2) := by
  have hle : call.topK ≤ hitCap call := by
    unfold hitCap
    split
    · exact le_max_right _ _
    · exact le_rfl
    · exact le_rfl
  have hlength := List.length_filter_le
    (fun h => floorKeeps minSimilarity call h.similarity) (m.ranking S E call)
  rw [length_ranking] at hlength
  rw [hits_eq, List.take_of_length_le (by omega), List.filter_map]
  rfl

theorem RecallsSame.of_ranked (hranked : ((m'.candidates S call).map MemoryRecord.version).Perm
      ((m.candidates S call).map MemoryRecord.version)) :
    RecallsSame S E minSimilarity call m m' where
  ranked := hranked
  scores := by
    have hscores : ∀ m : MemoryService σ, (m.hits S E minSimilarity call).map MemoryHit.similarity
        = (((m.ranking S E call).map MemoryHit.similarity).filter
          (floorKeeps minSimilarity call)).take (hitCap call) := fun m => by
      rw [hits_eq, List.map_take, List.filter_map]
      rfl
    rw [hscores, hscores, map_similarity_ranking hranked]
  versions hcap := by
    have hcap' : (m'.candidates S call).length ≤ call.topK := by
      have hlength := hranked.length_eq
      simp only [List.length_map] at hlength
      omega
    rw [map_scoredVersion_hits m hcap, map_scoredVersion_hits m' hcap']
    exact ((map_scoredVersion_ranking m' call).trans ((hranked.map _).trans
      (map_scoredVersion_ranking m call).symm)).filter _

end Hits

/-! ## Runs of orderly calls -/

section Runs

variable [LinearOrder Sim] [Zero Sim] {D : Digests} {cfg : MemoryConfig} {E : Embedder Sim}
  {ccfg : ConsolidatorConfig Sim}

/-- A memory may be closed at an instant: it is open and the instant is not past, or it is closed
    already at that instant. -/
def MayClose (clock validTo : String) (record : MemoryRecord) : Prop :=
  (record.validTo = none ∧ clock ≤ validTo) ∨ record.validTo = some validTo

/-- A call closes no closed memory anew, closes none in the past, and lets the new version of an
    UPDATE begin where the old one ends. -/
def Orderly (S : MemoryStore σ) (E : Embedder Sim) (ccfg : ConsolidatorConfig Sim)
    (s : MemoryService σ × String) : MemoryCall D Sim → Prop
  | .invalidate memoryId validTo _ =>
    ∀ r, S.get s.1.store memoryId = some r → MayClose s.2 validTo r
  | .consolidate call data draws =>
    ∀ r, target S s.1.store (s.1.decided S E ccfg call data) = some r →
      MayClose s.2 draws.now r
        ∧ ((s.1.decided S E ccfg call data).action = .update →
          draws.now = draws.remember.createdAt)
  | _ => True

theorem MayClose.continues {validTo : String} {record : MemoryRecord}
    (h : MayClose clock validTo record) (supersededBy : Option String) :
    MemoryRecord.Continues clock record (record.closed validTo supersededBy) where
  version_eq := rfl
  closed t ht := by
    rcases h with ⟨hopen, -⟩ | hclosed
    · rw [hopen] at ht
      cases ht
    · rw [hclosed] at ht
      cases ht
      rfl
  opened t hnone ht := by
    rcases h with ⟨-, hle⟩ | hclosed
    · cases ht
      exact hle
    · rw [hclosed] at hnone
      cases hnone

theorem Keeps.save_closed {old : MemoryRecord} {validTo : String} (supersededBy : Option String)
    (hold : S.get store old.memoryId = some old) (hclose : MayClose clock validTo old) :
    Keeps S clock store (S.save store (old.closed validTo supersededBy)) := by
  refine Keeps.save (fun r hr => ?_) (fun hnone => ?_)
  · rw [MemoryRecord.memoryId_closed, hold] at hr
    cases hr
    exact hclose.continues supersededBy
  · rw [MemoryRecord.memoryId_closed, hold] at hnone
    cases hnone

theorem Keeps.save_fresh {record : MemoryRecord} (hfresh : S.get store record.memoryId = none)
    (hle : clock ≤ record.validFrom) : Keeps S clock store (S.save store record) :=
  Keeps.save (fun r hr => absurd (hfresh.symm.trans hr) (by simp)) (fun _ => hle)

theorem keeps_of_effect {decision : ConsolidationDecision} {call : ConsolidateCall}
    {draws : ConsolidateDraws D} {writes : List MemoryWrite}
    (heffect : DecisionEffect S D cfg store decision call draws store' writes)
    (hfresh : S.get store draws.remember.memoryId = none) (hle : clock ≤ draws.remember.createdAt)
    (hclose : ∀ r, target S store decision = some r → MayClose clock draws.now r) :
    Keeps S clock store store' := by
  cases heffect with
  | nothing => exact .refl clock store
  | added => exact .save_fresh hfresh hle
  | closed hold => exact .save_closed none (get_of_target S hold) (hclose _ hold)
  | @superseded old new hold _ hnew =>
    have hid : new.memoryId = draws.remember.memoryId := by rw [hnew]; rfl
    have hbegins : new.validFrom = draws.remember.createdAt := by rw [hnew]; rfl
    have hget := get_of_target S hold
    have hne : old.memoryId ≠ new.memoryId := by
      intro h
      rw [h, hid, hfresh] at hget
      cases hget
    refine .trans le_rfl (.save_fresh (by rw [hid, hfresh]) (by rw [hbegins]; exact hle))
      (.save_closed _ ?_ (hclose old hold))
    rw [S.get_save, if_neg hne, hget]

variable {s t : MemoryService σ × String}

theorem keeps_of_step {call : MemoryCall D Sim}
    (hstep : ((memoryCalls S D cfg E ccfg).clocked readings).step s call = some t)
    (horderly : Orderly S E ccfg s call) : Keeps S s.2 s.1.store t.1.store ∧ s.2 ≤ t.2 := by
  obtain ⟨hclock, hcall, -⟩ := (LTS.clocked_step_eq_some _).1 hstep
  obtain ⟨hfresh, ht⟩ := step_memoryCalls hcall
  refine ⟨?_, LTS.clock_le_of_step _ hstep⟩
  have hreading : ∀ c ∈ call.readings, s.2 ≤ c := (List.pairwise_cons.1 hclock).1
  rw [ht]
  cases call with
  | remember call draws =>
    rw [perform, store_remember]
    exact .save_fresh (freshId_iff.1 hfresh).2 (hreading draws.createdAt (by simp [readings]))
  | consolidate call data draws =>
    obtain ⟨writes, heffect, -⟩ := s.1.consolidate_effect S D cfg E ccfg call data
      (freshId_iff.1 hfresh).2
    exact keeps_of_effect heffect (freshId_iff.1 hfresh).2
      (hreading draws.remember.createdAt (by simp [readings]))
      (fun r hr => (horderly r hr).1)
  | invalidate memoryId validTo supersededBy =>
    rcases invalidate_cases S s.1 memoryId validTo supersededBy with
      ⟨-, hsame⟩ | ⟨record, hget, hsaved⟩
    · rw [perform, hsame]
      exact .refl _ _
    · rw [perform, hsaved]
      have hid := S.memoryId_of_get hget
      exact .save_closed supersededBy (by rw [hid, hget]) (horderly record hget)
  | promote memoryId tier recordedAt event =>
    rcases promote_cases S D cfg s.1 memoryId tier recordedAt event
      with hsame | ⟨record, hget, -, -, hsaved⟩
    · rw [perform, hsame]
      exact .refl _ _
    · rw [perform, hsaved, store_emit, store_projectFact]
      have hid := S.memoryId_of_get hget
      refine .save (fun r hr => ?_) (fun hnone => ?_)
      · rw [MemoryRecord.memoryId_movedTo, hid, hget] at hr
        cases hr
        exact ⟨rfl, fun _ h => h, fun t hnone hsome => by
          rw [MemoryRecord.validTo_movedTo, hnone] at hsome
          cases hsome⟩
      · rw [MemoryRecord.memoryId_movedTo, hid, hget] at hnone
        cases hnone
  | «recall» call event =>
    rw [perform, store_recall]
    exact .refl _ _
  | registered record => exact .refl _ _
  | linked link => exact .refl _ _

theorem keeps_of_exec {calls : List (MemoryCall D Sim)}
    (hrun : ((memoryCalls S D cfg E ccfg).clocked readings).exec s calls = some t)
    (horderly : ((memoryCalls S D cfg E ccfg).clocked readings).AlongRun
      (Orderly S E ccfg) s calls) : Keeps S s.2 s.1.store t.1.store ∧ s.2 ≤ t.2 := by
  refine LTS.exec_invariant _ (I := fun t => Keeps S s.2 s.1.store t.1.store ∧ s.2 ≤ t.2)
    (fun t call t' hI hC hstep => ?_) ⟨.refl _ _, le_rfl⟩ horderly hrun
  obtain ⟨hkeeps, hle⟩ := keeps_of_step hstep hC
  exact ⟨hI.1.trans hI.2 hkeeps, hI.2.trans hle⟩

theorem update_meets {call : ConsolidateCall}
    {data : Option (Dict Json)} {draws : ConsolidateDraws D} {new : MemoryRecord} {oldId : String}
    (hstep : ((memoryCalls S D cfg E ccfg).clocked readings).step s
      (.consolidate call data draws) = some t)
    (horderly : Orderly S E ccfg s (.consolidate call data draws))
    (hupdate : (s.1.consolidate S D cfg E ccfg call data draws).2.action = .update)
    (hrecord : (s.1.consolidate S D cfg E ccfg call data draws).2.record = some new)
    (htargetId : (s.1.consolidate S D cfg E ccfg call data draws).2.targetId = some oldId) :
    S.get t.1.store new.memoryId = some new
      ∧ ∃ old, S.get t.1.store oldId = some old ∧ old.validTo = some new.validFrom := by
  obtain ⟨-, hcall, -⟩ := (LTS.clocked_step_eq_some _).1 hstep
  obtain ⟨hfresh, ht⟩ := step_memoryCalls hcall
  have hfresh := (freshId_iff.1 hfresh).2
  obtain ⟨old, hold, haction, hid, hnew⟩ :=
    s.1.consolidate_updated S D cfg E ccfg call data hfresh hupdate
  rw [hrecord] at hnew
  rw [htargetId] at hid
  cases hnew
  cases hid
  obtain ⟨writes, heffect, -⟩ := s.1.consolidate_effect S D cfg E ccfg call data hfresh
  rw [ht, perform]
  generalize (s.1.consolidate S D cfg E ccfg call data draws).1.store = store' at heffect ⊢
  cases heffect with
  | nothing hnone => rw [hold] at hnone; cases hnone
  | added hnone => rw [hold] at hnone; cases hnone
  | closed _ hdelete => rw [haction] at hdelete; cases hdelete
  | @superseded old' new hold' _ hnew =>
    rw [hold] at hold'
    cases hold'
    subst hnew
    have hne : draws.remember.memoryId ≠ old.memoryId := by
      intro h
      have hget := get_of_target S hold
      rw [← h, hfresh] at hget
      cases hget
    generalize hnew : freshRecord D (s.1.decided S E ccfg call data) call (some old.stableValue)
      draws = new
    have hid : new.memoryId = draws.remember.memoryId := by rw [← hnew]; rfl
    obtain ⟨hgetnew, hgetold⟩ := get_superseded S s.1.store draws.now (hid ▸ hne)
    refine ⟨hgetnew, _, hgetold, ?_⟩
    rw [MemoryRecord.validTo_closed, (horderly old hold).2 haction, ← hnew]
    rfl

/-- What a run of calls leaves of the past. -/
structure PastImmutable (S : MemoryStore σ) (D : Digests) (cfg : MemoryConfig) (E : Embedder Sim)
    (ccfg : ConsolidatorConfig Sim) (s : MemoryService σ × String)
    (calls : List (MemoryCall D Sim)) (t : MemoryService σ × String) : Prop where
  /-- a memory that is closed stays closed at the same instant -/
  closed : ∀ {k r validTo}, S.get s.1.store k = some r → r.validTo = some validTo →
    ∃ r', S.get t.1.store k = some r' ∧ r'.validTo = some validTo
  /-- the windows of the two versions of every UPDATE of the run meet -/
  meets : ∀ {pre post call data draws u new oldId},
    calls = pre ++ .consolidate call data draws :: post →
    ((memoryCalls S D cfg E ccfg).clocked readings).exec s pre = some u →
    (u.1.consolidate S D cfg E ccfg call data draws).2.action = .update →
    (u.1.consolidate S D cfg E ccfg call data draws).2.record = some new →
    (u.1.consolidate S D cfg E ccfg call data draws).2.targetId = some oldId →
    ∃ old new', S.get t.1.store oldId = some old ∧ S.get t.1.store new.memoryId = some new'
      ∧ old.validTo = some new'.validFrom
  /-- a recall as of an instant that was past before the run -/
  recalls : ∀ {asOf call}, asOf < s.2 → ReadsPast call asOf →
    RecallsSame S E ccfg.minSimilarity call s.1 t.1

end Runs

/-! ### A memory that is closed, and closed again -/

def homeFact : MemoryRecord where
  memoryId := "m-1"
  subjectId := "alice"
  text := "lives in Rome"
  createdAt := "2026-01-01"

def onThirdDay (record : MemoryRecord) : MemoryService InMemoryMemories × String :=
  ({ store := inMemoryMemoryStore.save {} record }, "2026-01-03")

def similarityDecides : ConsolidatorConfig Percent where
  dupThreshold := ⟨95⟩
  updateThreshold := ⟨80⟩

def endsOnFourthDay : MemoryCall codeDigests Percent := .invalidate "m-1" "2026-01-04" none

theorem exec_endsOnFourthDay (record : MemoryRecord) :
    ((memoryCalls inMemoryMemoryStore codeDigests ⟨false, false⟩ lengthEmbedder
      similarityDecides).clocked readings).exec (onThirdDay record) [endsOnFourthDay]
      = some ((onThirdDay record).1.perform inMemoryMemoryStore codeDigests ⟨false, false⟩
        lengthEmbedder similarityDecides endsOnFourthDay, "2026-01-03") := rfl

end MemoryService

end Himmy
