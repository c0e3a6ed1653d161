import Himmy.Knowledge.Replacement

/-! # What a plan knows

A call of `ingest_documents` plans over a snapshot while others store. Its plan is related to the
documents of the sources that its batch names, which no other call in flight touches, so that it stays
true of what the others store (`PlanOk.frame`). Each input keeps the relation, when the batch names
each source with one content (`PlanOk.planItem`). -/

namespace Himmy

open KeyedList (mem_of_get? key_of_get? mem_put_iff get?_put)

/-! ## Batches -/

variable (tools : IngestTools)

def OneContent (docs : List DocumentInput) : Prop :=
  ∀ x ∈ named tools docs, ∀ y ∈ named tools docs, x.1 = y.1 → x.2 = y.2

theorem named_append (docs more : List DocumentInput) :
    named tools (docs ++ more) = named tools docs ++ named tools more :=
  List.filterMap_append ..

theorem mem_named_append {tools : IngestTools} {docs : List DocumentInput} {item : DocumentInput}
    {x : String × String} :
    x ∈ named tools (docs ++ [item]) ↔ x ∈ named tools docs ∨ namedInput tools item = some x := by
  simp [named]

theorem namedInput_eq_some {tools : IngestTools} {item : DocumentInput} {text : String}
    (htext : item.materializeText = .ok text) {x : String × String} : namedInput tools item = some x
      ↔ item.source = some x.1 ∧ text = x.2 ∧ tools.triples text ≠ [] := by
  obtain ⟨source, content⟩ := x
  unfold namedInput
  rw [htext]
  cases item.source with
  | none => simp
  | some s =>
    by_cases hblank : tools.triples text = []
    · simp [hblank]
    · simp [hblank]

/-! ## What a plan knows -/

def Ingested (d : KnowledgeDocument) : Prop :=
  ∃ text, d.text = some text ∧ d.contentHash = tools.contentHash text ∧ tools.triples text ≠ []

/-- The document of a source and a content that is, or will be, stored when the call returns: it is
    new, or it is stored and nothing new is of its source. -/
def Final (stored : List KnowledgeDocument) (plan : IngestPlan) (source text : String)
    (d : KnowledgeDocument) : Prop :=
  d.sourceUri = some source ∧ d.text = some text
    ∧ (d ∈ plan.created ∨ d ∈ stored ∧ ∀ d' ∈ plan.created, d'.sourceUri ≠ some source)

/-- A plan that has gone through the inputs `done`, over the stored documents. -/
structure PlanOk (tools : IngestTools) (kbId : String) (inMemory : Prop)
    (stored : List KnowledgeDocument) (done : List DocumentInput) (plan : IngestPlan) : Prop where
  docs : plan.docs = done ++ plan.todo
  oneContent : OneContent tools plan.docs
  /-- Every document that is looked up is under its own identity. -/
  sound : ∀ e ∈ plan.byIdentity.items,
    e.1 = (e.2.sourceUri, e.2.contentHash) ∧ Ingested tools e.2
  known : ∀ x ∈ named tools plan.docs, ∀ e,
    plan.byIdentity.get? (some x.1, tools.contentHash x.2) = some e → Final stored plan x.1 x.2 e.2
  seen : ∀ x ∈ named tools done,
    (plan.byIdentity.get? (some x.1, tools.contentHash x.2)).isSome
  slots : ∀ d ∈ plan.documents, ∀ source, d.sourceUri = some source →
    ∃ text, (source, text) ∈ named tools done ∧ Final stored plan source text d
  pending : ∀ p ∈ plan.pending, p.1.kbId = kbId ∧ ∃ text, p.1.text = some text
    ∧ p.1.contentHash = tools.contentHash text ∧ p.2 = tools.triples text ∧ p.2 ≠ []
    ∧ ∀ source, p.1.sourceUri = some source → (source, text) ∈ named tools done
  one : ∀ d ∈ plan.created, ∀ d' ∈ plan.created, ∀ source,
    d.sourceUri = some source → d'.sourceUri = some source → d = d'
  ids : (plan.created.map KnowledgeDocument.documentId).Nodup
  /-- Without a backend the superseded documents are those of the new documents' sources. -/
  replaced : inMemory → ∀ d ∈ stored, superseded plan.created d = true →
    d.documentId ∈ plan.replacedIds
  replacedOnly : inMemory → ∀ id ∈ plan.replacedIds, ∃ d ∈ stored, d.documentId = id
    ∧ superseded plan.created d = true
  bySource : inMemory → ∀ x ∈ named tools plan.docs, (∀ y ∈ named tools done, y.1 ≠ x.1) →
    ∀ d, plan.bySource.find? x.1 = some d ↔ d ∈ stored ∧ d.sourceUri = some x.1

variable {tools : IngestTools} {kbId : String} {inMemory : Prop}
  {stored stored' : List KnowledgeDocument} {done : List DocumentInput} {plan plan' : IngestPlan}

theorem PlanOk.frame (h : PlanOk tools kbId inMemory stored done plan)
    (hsame : ∀ x ∈ named tools plan.docs, ∀ d, d.sourceUri = some x.1 →
      (d ∈ stored' ↔ d ∈ stored)) : PlanOk tools kbId inMemory stored' done plan := by
  have hdone : ∀ x ∈ named tools done, x ∈ named tools plan.docs := by
    intro x hx
    rw [h.docs, named_append]
    exact List.mem_append_left _ hx
  have hfinal : ∀ x ∈ named tools plan.docs, ∀ d, Final stored plan x.1 x.2 d →
      Final stored' plan x.1 x.2 d := by
    rintro x hx d ⟨hsource, htext, hnew | ⟨hold, hnone⟩⟩
    · exact ⟨hsource, htext, .inl hnew⟩
    · exact ⟨hsource, htext, .inr ⟨(hsame x hx d hsource).2 hold, hnone⟩⟩
  have hsuper : ∀ d, superseded plan.created d = true → (d ∈ stored' ↔ d ∈ stored) := by
    intro d hd
    obtain ⟨source, hsource, d', hd', hsource'⟩ := superseded_iff.1 hd
    obtain ⟨p, hp, rfl⟩ := List.mem_map.1 hd'
    obtain ⟨-, text, -, -, -, -, hnamed⟩ := h.pending p hp
    exact hsame _ (hdone _ (hnamed source hsource')) d hsource
  refine { h with known := ?_, slots := ?_, replaced := ?_, replacedOnly := ?_, bySource := ?_ }
  · intro x hx e he
    exact hfinal x hx e.2 (h.known x hx e he)
  · intro d hd source hsource
    obtain ⟨text, hnamed, hd⟩ := h.slots d hd source hsource
    exact ⟨text, hnamed, hfinal _ (hdone _ hnamed) d hd⟩
  · intro hmem d hd hd'
    exact h.replaced hmem d ((hsuper d hd').1 hd) hd'
  · intro hmem id hid
    obtain ⟨d, hd, heq, hd'⟩ := h.replacedOnly hmem id hid
    exact ⟨d, (hsuper d hd').2 hd, heq, hd'⟩
  · intro hmem x hx hnew d
    rw [h.bySource hmem x hx hnew d]
    constructor
    · rintro ⟨hd, hsource⟩
      exact ⟨(hsame x hx d hsource).2 hd, hsource⟩
    · rintro ⟨hd, hsource⟩
      exact ⟨(hsame x hx d hsource).1 hd, hsource⟩

/-! ## Planning -/

theorem Ingested.text_eq (hhash : Function.Injective tools.contentHash) {d : KnowledgeDocument}
    (h : Ingested tools d) {text : String} (heq : d.contentHash = tools.contentHash text) :
    d.text = some text ∧ tools.triples text ≠ [] := by
  obtain ⟨text', htext, hcontent, htriples⟩ := h
  obtain rfl := hhash (hcontent.symm.trans heq)
  exact ⟨htext, htriples⟩

theorem existing_subset (service : KnowledgeBase) (kbId : String) :
    service.existing kbId ⊆ service.storedDocuments kbId := by
  intro d hd
  unfold KnowledgeBase.existing at hd
  unfold KnowledgeBase.storedDocuments
  split at hd
  · exact absurd hd (List.not_mem_nil)
  · next hnone => simpa only [hnone] using hd

theorem existing_of_memory {service : KnowledgeBase} (h : service.backend = none) (kbId : String) :
    service.existing kbId = service.storedDocuments kbId := by
  simp only [KnowledgeBase.existing, KnowledgeBase.storedDocuments, h]

theorem planOk_start (hhash : Function.Injective tools.contentHash) {service : KnowledgeBase}
    {docs : List DocumentInput} (hone : OneContent tools docs)
    (hstored : ∀ d ∈ service.storedDocuments kbId, Ingested tools d)
    (hsources : ∀ d ∈ service.storedDocuments kbId, ∀ d' ∈ service.storedDocuments kbId,
      ∀ source, d.sourceUri = some source → d'.sourceUri = some source → d = d') (vectorDim : Int) :
    PlanOk tools kbId (service.backend = none) (service.storedDocuments kbId) []
      (.start service kbId vectorDim docs) := by
  have hentry : ∀ e ∈ (IngestPlan.start service kbId vectorDim docs).byIdentity.items,
      e.2 ∈ service.storedDocuments kbId ∧ e.1 = (e.2.sourceUri, e.2.contentHash) := by
    intro e he
    rcases KeyedList.mem_foldl_put _ _ _ he with hnil | ⟨d, hd, rfl⟩
    · exact absurd hnil (List.not_mem_nil)
    · exact ⟨existing_subset service kbId hd, rfl⟩
  refine ⟨rfl, hone, ?_, ?_, nofun, nofun, nofun, nofun, List.nodup_nil, ?_, nofun, ?_⟩
  · intro e he
    exact ⟨(hentry e he).2, hstored e.2 (hentry e he).1⟩
  · intro x _ e he
    obtain ⟨hd, hkey⟩ := hentry e (mem_of_get? he)
    have hidentity := (key_of_get? he).symm.trans hkey
    rw [Prod.mk.injEq] at hidentity
    exact ⟨hidentity.1.symm, ((hstored e.2 hd).text_eq hhash hidentity.2.symm).1, .inr ⟨hd, nofun⟩⟩
  · intro _ d _ hsuper
    obtain ⟨_, _, _, hnew, _⟩ := superseded_iff.1 hsuper
    exact absurd hnew (List.not_mem_nil)
  · intro hmemory x _ _ d
    have hsound : ∀ d, (IngestPlan.start service kbId vectorDim docs).bySource.find? x.1 = some d →
        d ∈ service.storedDocuments kbId ∧ d.sourceUri = some x.1 := by
      intro d hd
      rcases Dict.find?_foldl_set_cases _ _ _ _ hd with ⟨entry, hentry, hkey, hval⟩ | hnil
      · obtain ⟨d', hd', hmap⟩ := List.mem_filterMap.1 hentry
        obtain ⟨source, hsource, rfl⟩ := Option.map_eq_some_iff.1 hmap
        cases hkey
        cases hval
        exact ⟨existing_subset service kbId hd', hsource⟩
      · cases hnil
    constructor
    · exact hsound d
    · rintro ⟨hd, hsource⟩
      have hsome : ((IngestPlan.start service kbId vectorDim docs).bySource.find? x.1).isSome := by
        refine Dict.isSome_find?_foldl_set _ _ _ _ (.inl ⟨(x.1, d), ?_, rfl⟩)
        rw [existing_of_memory hmemory]
        exact List.mem_filterMap.2 ⟨d, hd, by rw [hsource]; rfl⟩
      obtain ⟨d', hd'⟩ := Option.isSome_iff_exists.1 hsome
      obtain ⟨hmem, hsource'⟩ := hsound d' hd'
      rw [hd', hsources d' hmem d hd x.1 hsource' hsource]

variable {item : DocumentInput} {todo : List DocumentInput} {text : String}

section

variable (h : PlanOk tools kbId inMemory stored done plan)

include h

theorem PlanOk.named_of_done {x : String × String}
    (hx : x ∈ named tools done) : x ∈ named tools plan.docs := by
  rw [h.docs, named_append]
  exact List.mem_append_left _ hx

theorem PlanOk.named_of_item (htodo : plan.todo = item :: todo) {x : String × String}
    (hx : namedInput tools item = some x) : x ∈ named tools plan.docs := by
  rw [h.docs, htodo, named_append]
  exact List.mem_append_right _ (List.mem_filterMap.2 ⟨item, List.mem_cons_self .., hx⟩)

theorem PlanOk.keep
    (htodo : plan.todo = item :: todo) (hdocs : plan'.docs = plan.docs) (htodo' : plan'.todo = todo)
    (hpending : plan'.pending = plan.pending) (hreplaced : plan'.replacedIds = plan.replacedIds)
    (hbySource : inMemory → plan'.bySource = plan.bySource)
    (hsound : ∀ e ∈ plan'.byIdentity.items, e ∈ plan.byIdentity.items
      ∨ e.1 = (e.2.sourceUri, e.2.contentHash) ∧ Ingested tools e.2)
    (hknown : ∀ x ∈ named tools plan.docs, ∀ e,
      plan'.byIdentity.get? (some x.1, tools.contentHash x.2) = some e →
        plan.byIdentity.get? (some x.1, tools.contentHash x.2) = some e
          ∨ Final stored plan x.1 x.2 e.2) (hseen : ∀ x : String × String,
      (plan.byIdentity.get? (some x.1, tools.contentHash x.2)).isSome
          ∨ namedInput tools item = some x →
        (plan'.byIdentity.get? (some x.1, tools.contentHash x.2)).isSome)
    (hslots : ∀ d ∈ plan'.documents, d ∈ plan.documents ∨ ∀ source, d.sourceUri = some source →
        ∃ text, namedInput tools item = some (source, text) ∧ Final stored plan source text d) :
    PlanOk tools kbId inMemory stored (done ++ [item]) plan' := by
  have hcreated : plan'.created = plan.created := congrArg (List.map Prod.fst) hpending
  have hfinal : ∀ source text d, Final stored plan source text d → Final stored plan' source text d := by
    intro source text d hd
    unfold Final
    rw [hcreated]
    exact hd
  refine ⟨?_, hdocs ▸ h.oneContent, ?_, ?_, ?_, ?_, ?_, hcreated ▸ h.one, hcreated ▸ h.ids,
    by rw [hcreated, hreplaced]; exact h.replaced, by rw [hcreated, hreplaced]; exact h.replacedOnly,
    ?_⟩
  · rw [hdocs, htodo', h.docs, htodo, List.append_assoc]
    rfl
  · intro e he
    rcases hsound e he with hold | hnew
    · exact h.sound e hold
    · exact hnew
  · intro x hx e he
    rw [hdocs] at hx
    rcases hknown x hx e he with hold | hnew
    · exact hfinal _ _ _ (h.known x hx e hold)
    · exact hfinal _ _ _ hnew
  · intro x hx
    rcases mem_named_append.1 hx with hdone | hitem
    · exact hseen x (.inl (h.seen x hdone))
    · exact hseen x (.inr hitem)
  · intro d hd source hsource
    rcases hslots d hd with hold | hnew
    · obtain ⟨text, hnamed, hd⟩ := h.slots d hold source hsource
      exact ⟨text, mem_named_append.2 (.inl hnamed), hfinal _ _ _ hd⟩
    · obtain ⟨text, hnamed, hd⟩ := hnew source hsource
      exact ⟨text, mem_named_append.2 (.inr hnamed), hfinal _ _ _ hd⟩
  · intro p hp
    rw [hpending] at hp
    obtain ⟨hkb, text, htext, hcontent, htriples, hne, hnamed⟩ := h.pending p hp
    exact ⟨hkb, text, htext, hcontent, htriples, hne,
      fun source hsource => mem_named_append.2 (.inl (hnamed source hsource))⟩
  · intro hmem x hx hnew d
    rw [hdocs] at hx
    rw [hbySource hmem]
    exact h.bySource hmem x hx (fun y hy => hnew y (mem_named_append.2 (.inl hy))) d

end

theorem Ingested.named (hhash : Function.Injective tools.contentHash) {d : KnowledgeDocument}
    (h : Ingested tools d) (htext : item.materializeText = .ok text)
    (hidentity : (item.source, tools.contentHash text) = (d.sourceUri, d.contentHash)) :
    d.text = some text ∧ ∀ source, d.sourceUri = some source →
      namedInput tools item = some (source, text) := by
  rw [Prod.mk.injEq] at hidentity
  obtain ⟨hdtext, htriples⟩ := h.text_eq hhash hidentity.2.symm
  exact ⟨hdtext, fun source hsource =>
    (namedInput_eq_some htext).2 ⟨hidentity.1.trans hsource, rfl, htriples⟩⟩

theorem documents_append (plan : IngestPlan) (slot : Option KnowledgeDocument) :
    ({ plan with slots := plan.slots ++ [slot] } : IngestPlan).documents
      = plan.documents ++ slot.toList := by
  cases slot <;> simp [IngestPlan.documents]

section

variable (h : PlanOk tools kbId inMemory stored done plan)

include h

theorem PlanOk.reuse
    (hhash : Function.Injective tools.contentHash) (htodo : plan.todo = item :: todo)
    (htext : item.materializeText = .ok text) {e : (Option String × String) × KnowledgeDocument}
    (hget : plan.byIdentity.get? (item.source, tools.contentHash text) = some e) :
    PlanOk tools kbId inMemory stored (done ++ [item])
      (({ plan with todo } : IngestPlan).reuse e.2) := by
  obtain ⟨hkey, hingested⟩ := h.sound e (mem_of_get? hget)
  obtain ⟨-, hnamed⟩ := hingested.named hhash htext ((key_of_get? hget).symm.trans hkey)
  refine h.keep htodo rfl rfl rfl rfl (fun _ => rfl) (fun _ => .inl) (fun _ _ _ => .inl) ?_ ?_
  · rintro x (hold | hitem)
    · exact hold
    · obtain ⟨hsource, rfl, -⟩ := (namedInput_eq_some htext).1 hitem
      have hsome : (plan.byIdentity.get? (some x.1, tools.contentHash x.2)).isSome := by
        rw [← hsource, hget]
        rfl
      exact hsome
  · intro d hd
    rw [IngestPlan.reuse, documents_append] at hd
    rcases List.mem_append.1 hd with hold | hnew
    · exact .inl hold
    · obtain rfl : d = e.2 := by simpa using hnew
      right
      intro source hsource
      refine ⟨text, hnamed source hsource, ?_⟩
      have hidentity : (item.source, tools.contentHash text) = (some source, tools.contentHash text) := by
        rw [((namedInput_eq_some htext).1 (hnamed source hsource)).1]
      exact h.known _ (h.named_of_item htodo (hnamed source hsource)) e (hidentity ▸ hget)

theorem PlanOk.skip (htodo : plan.todo = item :: todo) (htext : item.materializeText = .ok text)
    (hblank : tools.triples text = []) : PlanOk tools kbId inMemory stored (done ++ [item])
      (({ plan with todo } : IngestPlan).skip item) := by
  refine h.keep htodo rfl rfl rfl rfl (fun _ => rfl) (fun _ => .inl) (fun _ _ _ => .inl) ?_ ?_
  · rintro x (hold | hitem)
    · exact hold
    · exact absurd hblank ((namedInput_eq_some htext).1 hitem).2.2
  · intro d hd
    left
    simpa [IngestPlan.skip, IngestPlan.documents] using hd

theorem PlanOk.unplanned {x : String × String} (hx : x ∈ named tools plan.docs)
    (hnone : plan.byIdentity.get? (some x.1, tools.contentHash x.2) = none) :
    (∀ y ∈ named tools done, y.1 ≠ x.1) ∧ ∀ d ∈ plan.created, d.sourceUri ≠ some x.1 := by
  have hdone : ∀ y ∈ named tools done, y.1 ≠ x.1 := by
    intro y hy heq
    have hcontent := h.oneContent y (h.named_of_done hy) x hx heq
    have hsome := h.seen y hy
    rw [heq, hcontent, hnone] at hsome
    cases hsome
  refine ⟨hdone, ?_⟩
  intro d hd hsource
  obtain ⟨p, hp, rfl⟩ := List.mem_map.1 hd
  obtain ⟨-, content, -, -, -, -, hnamed⟩ := h.pending p hp
  exact hdone _ (hnamed x.1 hsource) rfl

theorem PlanOk.reload (hhash : Function.Injective tools.contentHash) (hbackend : ¬ inMemory)
    (htodo : plan.todo = item :: todo) (htext : item.materializeText = .ok text)
    (hnone : plan.byIdentity.get? (item.source, tools.contentHash text) = none)
    {d : KnowledgeDocument} (hd : d ∈ stored) (hingested : Ingested tools d)
    (hidentity : (item.source, tools.contentHash text) = (d.sourceUri, d.contentHash)) :
    PlanOk tools kbId inMemory stored (done ++ [item])
      (({ plan with todo } : IngestPlan).reload (item.source, tools.contentHash text) d) := by
  obtain ⟨hdtext, hnamed⟩ := hingested.named hhash htext hidentity
  have hfinal : ∀ source, d.sourceUri = some source → Final stored plan source text d := by
    intro source hsource
    refine ⟨hsource, hdtext, .inr ⟨hd, ?_⟩⟩
    have hitem := hnamed source hsource
    have hitemSource := ((namedInput_eq_some htext).1 hitem).1
    exact (h.unplanned (h.named_of_item htodo hitem) (hitemSource ▸ hnone)).2
  refine h.keep htodo rfl rfl rfl rfl (fun hmem => absurd hmem hbackend) ?_ ?_ ?_ ?_
  · intro e he
    rcases (mem_put_iff ..).1 he with rfl | hold
    · exact .inr ⟨hidentity, hingested⟩
    · exact .inl hold.1
  · intro x hx e he
    simp only [IngestPlan.reload, get?_put] at he
    split at he
    · next hkey =>
        cases he
        rw [hidentity, Prod.mk.injEq] at hkey
        obtain ⟨hsource, hcontent⟩ := hkey
        obtain rfl : text = x.2 :=
          hhash ((Prod.mk.inj hidentity).2.trans hcontent.symm)
        exact .inr (hfinal x.1 hsource.symm)
    · exact .inl he
  · intro x hx
    simp only [IngestPlan.reload, get?_put]
    split
    · rfl
    · next hne =>
        rcases hx with hold | hitem
        · exact hold
        · obtain ⟨hsource, rfl, -⟩ := (namedInput_eq_some htext).1 hitem
          exact absurd (by rw [hsource]) hne
  · intro d' hd'
    rcases List.mem_append.1 (show d' ∈ plan.documents ++ [d] by
      simpa [IngestPlan.reload, IngestPlan.documents] using hd') with hold | hnew
    · exact .inl hold
    · obtain rfl := List.mem_singleton.1 hnew
      exact .inr (fun source hsource => ⟨text, hnamed source hsource, hfinal source hsource⟩)

end

theorem superseded_append {created : List KnowledgeDocument} {d d' : KnowledgeDocument} :
    superseded (created ++ [d]) d' = true ↔ superseded created d' = true
        ∨ ∃ source, d'.sourceUri = some source ∧ d.sourceUri = some source := by
  simp only [superseded_iff, List.mem_append, List.mem_singleton]
  constructor
  · rintro ⟨source, hsource, c, hc | rfl, hcsource⟩
    · exact .inl ⟨source, hsource, c, hc, hcsource⟩
    · exact .inr ⟨source, hsource, hcsource⟩
  · rintro (⟨source, hsource, c, hc, hcsource⟩ | ⟨source, hsource, hd⟩)
    · exact ⟨source, hsource, c, .inl hc, hcsource⟩
    · exact ⟨source, hsource, d, .inr rfl, hd⟩

theorem PlanOk.create (h : PlanOk tools kbId inMemory stored done plan)
    (htodo : plan.todo = item :: todo) (htext : item.materializeText = .ok text)
    (hnone : plan.byIdentity.get? (item.source, tools.contentHash text) = none)
    (hchunks : tools.triples text ≠ []) {d : KnowledgeDocument} (hkb : d.kbId = kbId)
    (hsource : d.sourceUri = item.source) (hdtext : d.text = some text)
    (hcontent : d.contentHash = tools.contentHash text)
    (hfresh : ∀ d' ∈ plan.created, d'.documentId ≠ d.documentId) :
    PlanOk tools kbId inMemory stored (done ++ [item])
      (({ plan with todo } : IngestPlan).create d (tools.triples text)) := by
  have hnamed : ∀ source, d.sourceUri = some source → namedInput tools item = some (source, text) :=
    fun source hs => (namedInput_eq_some htext).2 ⟨hsource.symm.trans hs, rfl, hchunks⟩
  -- nothing of the input's source has been planned before it
  have hfirst : ∀ source, d.sourceUri = some source →
      (∀ y ∈ named tools done, y.1 ≠ source) ∧ ∀ d' ∈ plan.created, d'.sourceUri ≠ some source := by
    intro source hs
    refine h.unplanned (h.named_of_item htodo (hnamed source hs)) ?_
    rw [← hs, hsource]
    exact hnone
  have hcreated : (({ plan with todo } : IngestPlan).create d (tools.triples text)).created
      = plan.created ++ [d] := by simp [IngestPlan.create, IngestPlan.created]
  have hdocuments : (({ plan with todo } : IngestPlan).create d (tools.triples text)).documents
      = plan.documents ++ [d] := by simp [IngestPlan.create, IngestPlan.documents]
  have hnew : ∀ source, d.sourceUri = some source →
      Final stored (({ plan with todo } : IngestPlan).create d (tools.triples text)) source text d :=
    fun source hs => ⟨hs, hdtext, .inl (by rw [hcreated]; simp)⟩
  have hold : ∀ source content d', d.sourceUri ≠ some source → Final stored plan source content d' →
      Final stored (({ plan with todo } : IngestPlan).create d (tools.triples text)) source content d' := by
    rintro source content d' hne ⟨hs, ht, hmade | ⟨hd', hothers⟩⟩
    · exact ⟨hs, ht, .inl (by rw [hcreated]; exact List.mem_append_left _ hmade)⟩
    · refine ⟨hs, ht, .inr ⟨hd', ?_⟩⟩
      intro c hc
      rw [hcreated] at hc
      rcases List.mem_append.1 hc with hc | hc
      · exact hothers c hc
      · rwa [List.mem_singleton.1 hc]
  refine ⟨?_, h.oneContent, ?_, ?_, ?_, ?_, ?_, ?_, ?_, ?_, ?_, ?_⟩
  · exact h.docs.trans (by rw [htodo, List.append_assoc]; rfl)
  · intro e he
    rcases (mem_put_iff ..).1 he with rfl | hkept
    · exact ⟨rfl, text, hdtext, hcontent, hchunks⟩
    · exact h.sound e hkept.1
  · intro x hx e he
    simp only [IngestPlan.create, get?_put] at he
    split at he
    · next hkey =>
        cases he
        have hs : d.sourceUri = some x.1 := (Prod.mk.inj hkey).1.symm
        obtain rfl : text = x.2 :=
          h.oneContent _ (h.named_of_item htodo (hnamed _ hs)) x hx rfl
        exact hnew x.1 hs
    · next hne =>
        refine hold x.1 x.2 e.2 ?_ (h.known x hx e he)
        intro hs
        have heq := h.oneContent _ (h.named_of_item htodo (hnamed _ hs)) x hx rfl
        exact hne (by rw [hs, hcontent, ← heq])
  · intro x hx
    simp only [IngestPlan.create, get?_put]
    split
    · rfl
    · next hne =>
        rcases mem_named_append.1 hx with hdone | hitem
        · exact h.seen x hdone
        · obtain ⟨hs, rfl, -⟩ := (namedInput_eq_some htext).1 hitem
          exact absurd (by rw [hsource, hs, hcontent]) hne
  · intro d' hd' source hs
    rw [hdocuments] at hd'
    rcases List.mem_append.1 hd' with hd' | hd'
    · obtain ⟨content, hx, hfinal⟩ := h.slots d' hd' source hs
      refine ⟨content, mem_named_append.2 (.inl hx), hold _ _ _ ?_ hfinal⟩
      intro hds
      exact (hfirst source hds).1 _ hx rfl
    · obtain rfl := List.mem_singleton.1 hd'
      exact ⟨text, mem_named_append.2 (.inr (hnamed source hs)), hnew source hs⟩
  · intro p hp
    rcases List.mem_append.1 hp with hp | hp
    · obtain ⟨hpkb, content, hptext, hphash, hptriples, hpne, hpnamed⟩ := h.pending p hp
      exact ⟨hpkb, content, hptext, hphash, hptriples, hpne,
        fun source hs => mem_named_append.2 (.inl (hpnamed source hs))⟩
    · obtain rfl := List.mem_singleton.1 hp
      exact ⟨hkb, text, hdtext, hcontent, rfl, hchunks,
        fun source hs => mem_named_append.2 (.inr (hnamed source hs))⟩
  · intro c hc c' hc' source hs hs'
    rw [hcreated] at hc hc'
    rcases List.mem_append.1 hc with hc | hc <;> rcases List.mem_append.1 hc' with hc' | hc'
    · exact h.one c hc c' hc' source hs hs'
    · rw [List.mem_singleton.1 hc'] at hs'
      exact absurd hs ((hfirst source hs').2 c hc)
    · rw [List.mem_singleton.1 hc] at hs
      exact absurd hs' ((hfirst source hs).2 c' hc')
    · rw [List.mem_singleton.1 hc, List.mem_singleton.1 hc']
  · rw [hcreated, List.map_append, List.nodup_append]
    refine ⟨h.ids, List.nodup_singleton _, ?_⟩
    rintro id hid id' hid' rfl
    obtain ⟨c, hc, rfl⟩ := List.mem_map.1 hid
    exact hfresh c hc (List.mem_singleton.1 hid')
  · intro hmem c hc hsuper
    rw [hcreated, superseded_append] at hsuper
    refine List.mem_append.2 ?_
    rcases hsuper with hsuper | ⟨source, hcs, hs⟩
    · exact .inl (h.replaced hmem c hc hsuper)
    · have hfind := (h.bySource hmem _ (h.named_of_item htodo (hnamed source hs))
        (hfirst source hs).1 c).2 ⟨hc, hcs⟩
      right
      rw [hs, Option.bind_some, hfind]
      simp
  · intro hmem id hid
    simp only [hcreated, superseded_append]
    rcases List.mem_append.1 hid with hid | hid
    · obtain ⟨c, hc, heq, hsuper⟩ := h.replacedOnly hmem id hid
      exact ⟨c, hc, heq, .inl hsuper⟩
    · rw [Option.mem_toList, Option.map_eq_some_iff] at hid
      obtain ⟨c, hfind, heq⟩ := hid
      obtain ⟨source, hs, hfind⟩ := Option.bind_eq_some_iff.1 hfind
      obtain ⟨hc, hcs⟩ := (h.bySource hmem _ (h.named_of_item htodo (hnamed source hs))
        (hfirst source hs).1 c).1 hfind
      exact ⟨c, hc, heq, .inr ⟨source, hcs, hs⟩⟩
  · intro hmem x hx hlater c
    have hkeep : (({ plan with todo } : IngestPlan).create d (tools.triples text)).bySource.find? x.1
        = plan.bySource.find? x.1 := by
      simp only [IngestPlan.create, IngestPlan.noteSource]
      split
      · next source hs =>
          refine Dict.find?_set_of_ne _ _ ?_
          intro heq
          exact hlater _ (mem_named_append.2 (.inr (hnamed source hs))) heq.symm
      · rfl
    rw [hkeep]
    exact h.bySource hmem x hx (fun y hy => hlater y (mem_named_append.2 (.inl hy))) c

theorem getDocument_spec {service : KnowledgeBase} {identity : Option String × String}
    {d : KnowledgeDocument} (h : service.backendGetDocument kbId identity = some d) :
    service.backend ≠ none ∧ d ∈ service.storedDocuments kbId
      ∧ identity = (d.sourceUri, d.contentHash) := by
  unfold KnowledgeBase.backendGetDocument at h
  split at h
  · next backend hbackend =>
      have hmem := List.mem_of_find?_eq_some h
      have hp := List.find?_some h
      rw [Bool.and_eq_true, decide_eq_true_eq, decide_eq_true_eq] at hp
      refine ⟨by rw [hbackend]; simp, ?_, hp.2.symm⟩
      simp only [KnowledgeBase.storedDocuments, hbackend]
      exact List.mem_filter.2 ⟨hmem, decide_eq_true hp.1⟩
  · cases h

/-- **One input.** A plan that goes through one more input knows what it did before, of one more
    input, and has at most one more document, under the identifier it was given. -/
theorem PlanOk.planItem {service : KnowledgeBase} {documentId : String}
    (h : PlanOk tools kbId (service.backend = none) (service.storedDocuments kbId) done plan)
    (hhash : Function.Injective tools.contentHash)
    (hstored : ∀ d ∈ service.storedDocuments kbId, Ingested tools d)
    (htodo : plan.todo = item :: todo) (hfresh : ∀ d ∈ plan.created, d.documentId ≠ documentId)
    (hplan : ({ plan with todo } : IngestPlan).planItem tools service kbId documentId item
      = .ok plan') :
    PlanOk tools kbId (service.backend = none) (service.storedDocuments kbId) (done ++ [item]) plan'
      ∧ plan'.docs = plan.docs
      ∧ ∀ d ∈ plan'.created, d ∈ plan.created ∨ d.documentId = documentId := by
  unfold IngestPlan.planItem at hplan
  split at hplan
  · cases hplan
  · next text htext =>
      dsimp only at hplan
      split at hplan
      · next known hget =>
          cases hplan
          exact ⟨h.reuse hhash htodo htext hget, rfl, fun _ => .inl⟩
      · next hnone =>
          split at hplan
          · next d hreload =>
              cases hplan
              split at hreload
              · obtain ⟨hbackend, hd, hidentity⟩ := getDocument_spec hreload
                exact ⟨h.reload hhash hbackend htodo htext hnone hd (hstored d hd) hidentity, rfl,
                  fun _ => .inl⟩
              · cases hreload
          · split at hplan
            · next hblank =>
                cases hplan
                exact ⟨h.skip htodo htext hblank, rfl, fun _ => .inl⟩
            · next hchunks =>
                cases hplan
                refine ⟨h.create htodo htext hnone hchunks rfl rfl rfl rfl hfresh, rfl, ?_⟩
                intro d hd
                simp only [IngestPlan.create, IngestPlan.created, List.map_append, List.map_cons,
                  List.map_nil, List.mem_append, List.mem_singleton] at hd
                rcases hd with hd | rfl
                · exact .inl hd
                · exact .inr rfl

/-! ## The chunks of a plan -/

theorem chunkTexts_of_mem {pending : List (KnowledgeDocument × List Triple)}
    (hids : (pending.map (fun p => p.1.documentId)).Nodup)
    {p : KnowledgeDocument × List Triple} (hp : p ∈ pending) :
    ((pending.flatMap (fun q => q.2.map (fun triple => (q.1, triple)))).filter
      (fun entry => entry.1.documentId = p.1.documentId)).map Prod.snd = p.2 := by
  induction pending with
  | nil => cases hp
  | cons q pending ih =>
    rw [List.map_cons, List.nodup_cons] at hids
    rw [List.flatMap_cons, List.filter_append, List.map_append]
    rcases List.mem_cons.1 hp with rfl | hp
    · have hmine : (p.2.map (fun triple => (p.1, triple))).filter
          (fun entry => entry.1.documentId = p.1.documentId)
          = p.2.map (fun triple => (p.1, triple)) := by
        refine List.filter_eq_self.2 ?_
        intro entry hentry
        obtain ⟨triple, -, rfl⟩ := List.mem_map.1 hentry
        exact decide_eq_true rfl
      have hothers : (pending.flatMap (fun q => q.2.map (fun triple => (q.1, triple)))).filter
          (fun entry => entry.1.documentId = p.1.documentId) = [] := by
        refine List.filter_eq_nil_iff.2 ?_
        intro entry hentry heq
        obtain ⟨q, hq, hentry⟩ := List.mem_flatMap.1 hentry
        obtain ⟨triple, -, rfl⟩ := List.mem_map.1 hentry
        exact hids.1 (of_decide_eq_true heq ▸ List.mem_map.2 ⟨q, hq, rfl⟩)
      rw [hmine, hothers]
      simp [Function.comp_def]
    · have hfirst : (q.2.map (fun triple => (q.1, triple))).filter
          (fun entry => entry.1.documentId = p.1.documentId) = [] := by
        refine List.filter_eq_nil_iff.2 ?_
        intro entry hentry heq
        obtain ⟨triple, -, rfl⟩ := List.mem_map.1 hentry
        exact hids.1 (of_decide_eq_true heq ▸ List.mem_map.2 ⟨p, hp, rfl⟩)
      rw [hfirst, ih hids.2 hp]
      rfl

def KnowledgeChunk.triple (chunk : KnowledgeChunk) : Triple :=
  (chunk.startPos, chunk.endPos, chunk.text.getD "")

variable {uuids : Nat} {embeddings : List (List Rat)}

theorem chunkIds_chunks (hlength : embeddings.length = plan.chunkTexts.length) :
    (plan.chunks tools kbId uuids embeddings).map KnowledgeChunk.chunkId
      = (List.range' uuids plan.chunkTexts.length).map tools.newUuid := by
  have hcomp : KnowledgeChunk.chunkId ∘ IngestPlan.chunkOf tools kbId
      = tools.newUuid ∘ (Prod.snd : ((KnowledgeDocument × Triple) × List Rat) × Nat → Nat) := rfl
  rw [IngestPlan.chunks, List.map_map, hcomp, ← List.map_map, List.zipIdx_map_snd,
    List.length_zip, hlength, Nat.min_self]

theorem documentId_chunks {ch : KnowledgeChunk} (h : ch ∈ plan.chunks tools kbId uuids embeddings) :
    ch.kbId = kbId ∧ ∃ d ∈ plan.created, ch.documentId = d.documentId := by
  obtain ⟨⟨⟨⟨d, triple⟩, vector⟩, i⟩, hentry, rfl⟩ := List.mem_map.1 h
  have hzip : ((d, triple), vector) ∈ plan.chunkTexts.zip embeddings := by
    have hmem := List.mem_map_of_mem (f := Prod.fst) hentry
    rwa [List.zipIdx_map_fst] at hmem
  obtain ⟨p, hp, hd⟩ := List.mem_flatMap.1 (List.of_mem_zip hzip).1
  obtain ⟨triple', -, heq⟩ := List.mem_map.1 hd
  cases heq
  exact ⟨rfl, p.1, List.mem_map_of_mem hp, rfl⟩

theorem triples_chunks (hlength : embeddings.length = plan.chunkTexts.length)
    (hids : (plan.created.map KnowledgeDocument.documentId).Nodup)
    {p : KnowledgeDocument × List Triple} (hp : p ∈ plan.pending) :
    ((plan.chunks tools kbId uuids embeddings).filter
      (fun ch => ch.documentId = p.1.documentId)).map KnowledgeChunk.triple = p.2 := by
  have hids : (plan.pending.map (fun q => q.1.documentId)).Nodup := by
    simpa only [IngestPlan.created, List.map_map, Function.comp_def] using hids
  have hfst : ((plan.chunkTexts.zip embeddings).zipIdx uuids).map (fun entry => entry.1.1)
      = plan.chunkTexts := by
    have hcomp : (fun entry : ((KnowledgeDocument × Triple) × List Rat) × Nat => entry.1.1)
        = Prod.fst ∘ Prod.fst := rfl
    rw [hcomp, ← List.map_map, List.zipIdx_map_fst, List.map_fst_zip hlength.ge]
  have hpull : ∀ entries : List (((KnowledgeDocument × Triple) × List Rat) × Nat),
      ((entries.map (IngestPlan.chunkOf tools kbId)).filter
          (fun ch => ch.documentId = p.1.documentId)).map KnowledgeChunk.triple
        = ((entries.map (fun entry => entry.1.1)).filter
            (fun entry => entry.1.documentId = p.1.documentId)).map Prod.snd := by
    intro entries
    rw [List.filter_map, List.map_map, List.filter_map, List.map_map]
    rfl
  rw [IngestPlan.chunks, hpull, hfst]
  exact chunkTexts_of_mem hids hp

/-! ## What a finished plan stores -/

theorem PlanOk.final (h : PlanOk tools kbId inMemory stored done plan) (htodo : plan.todo = [])
    {x : String × String} (hx : x ∈ named tools plan.docs) : ∃ d, Final stored plan x.1 x.2 d := by
  have hdone : x ∈ named tools done := by
    rwa [h.docs, htodo, List.append_nil] at hx
  obtain ⟨e, he⟩ := Option.isSome_iff_exists.1 (h.seen x hdone)
  exact ⟨e.2, h.known x hx e he⟩

theorem replaced_refl (kbId : String) (service : KnowledgeBase) :
    Replaced kbId [] [] service service := by
  have hnone : ∀ d, superseded [] d = false := by
    intro d
    simp [superseded]
  refine ⟨?_, ?_, fun _ => .inl, fun _ => .inl⟩
  · simp [hnone]
  · rw [List.append_nil]
    exact (List.filter_eq_self.2 (by simp [hnone])).symm

variable {before after : KnowledgeBase} {added : List KnowledgeChunk} {d : KnowledgeDocument}

theorem Replaced.mem_iff {created : List KnowledgeDocument}
    (h : Replaced kbId created added before after) : d ∈ after.storedDocuments kbId
      ↔ d ∈ before.storedDocuments kbId ∧ superseded created d = false ∨ d ∈ created := by
  rw [h.documents, List.mem_append, List.mem_filter, Bool.not_eq_true']

theorem Final.mem_replaced
    (h : Replaced kbId plan.created added before after) {source text : String}
    (hd : Final (before.storedDocuments kbId) plan source text d) :
    d ∈ after.storedDocuments kbId := by
  obtain ⟨hsource, -, hnew | ⟨hold, hnone⟩⟩ := hd
  · exact h.mem_iff.2 (.inr hnew)
  · refine h.mem_iff.2 (.inl ⟨hold, ?_⟩)
    rw [Bool.eq_false_iff, Ne, superseded_iff]
    rintro ⟨source', hsource', d', hd', heq⟩
    obtain rfl : source' = source := Option.some.inj (hsource'.symm.trans hsource)
    exact hnone d' hd' heq

theorem returned_stored (h : PlanOk tools kbId inMemory (before.storedDocuments kbId) done plan)
    (hreplaced : Replaced kbId plan.created added before after)
    (hd : d ∈ plan.documents) (hsource : d.sourceUri ≠ none) : d ∈ after.storedDocuments kbId := by
  obtain ⟨source, hsource⟩ := Option.ne_none_iff_exists'.1 hsource
  obtain ⟨text, -, hfinal⟩ := h.slots d hd source hsource
  exact hfinal.mem_replaced hreplaced

end Himmy
