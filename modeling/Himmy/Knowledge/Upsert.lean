import Himmy.Knowledge.IngestPlan

/-! # Upserts by source

A batch that names one source with two contents stores both documents (`ingest_twoContents`). When no
batch does, and calls in flight at one time name no common source, every history leaves one document
of each source that was named: the one of its last content, with its chunks (`ingest_upserts`). -/

namespace Himmy

def IngestCall.inFlight : IngestCall → Option IngestPlan
  | .planning plan | .embedding plan => some plan
  | _ => none

namespace IngestSystem

def Meets (tools : IngestTools) (s : IngestSystem) : IngestStep → Prop
  | .begin _ docs =>
    OneContent tools docs
      ∧ ∀ c plan, (s.calls c).inFlight = some plan →
        ∀ x ∈ named tools docs, ∀ y ∈ named tools plan.docs, x.1 ≠ y.1
  | _ => True

/-- The invariant of the system. -/
structure Upserting (tools : IngestTools) (kbId : String) (s : IngestSystem) : Prop where
  ingested : ∀ d ∈ s.service.storedDocuments kbId, Ingested tools d
  one : ∀ d ∈ s.service.storedDocuments kbId, ∀ d' ∈ s.service.storedDocuments kbId,
    ∀ source, d.sourceUri = some source → d'.sourceUri = some source → d = d'
  owned : ∀ ch ∈ s.service.storedChunks kbId,
    ∃ d ∈ s.service.storedDocuments kbId, ch.documentId = d.documentId
  chunks : ∀ d ∈ s.service.storedDocuments kbId, ∀ text, d.text = some text →
    ((s.service.storedChunks kbId).filter (fun ch => ch.documentId = d.documentId)).map
      KnowledgeChunk.triple = tools.triples text
  last : ∀ source text, s.last source = some text →
    ∃ d ∈ s.service.storedDocuments kbId, d.sourceUri = some source ∧ d.text = some text
  onlyLast : ∀ d ∈ s.service.storedDocuments kbId, ∀ source, d.sourceUri = some source →
    s.last source = d.text
  plans : ∀ c plan, (s.calls c).inFlight = some plan →
    ∃ done, PlanOk tools kbId (s.service.backend = none) (s.service.storedDocuments kbId) done plan
  embedding : ∀ c plan, s.calls c = .embedding plan → plan.todo = []
  apart : ∀ c c' plan plan', c ≠ c' → (s.calls c).inFlight = some plan →
    (s.calls c').inFlight = some plan' →
    ∀ x ∈ named tools plan.docs, ∀ y ∈ named tools plan'.docs, x.1 ≠ y.1
  documentIds : ∀ i, s.uuids ≤ i → tools.newUuid i ∉ s.service.documentIds kbId
  chunkIds : ∀ i, s.uuids ≤ i → tools.newUuid i ∉ s.service.chunkIds kbId
  drawn : ∀ c plan, (s.calls c).inFlight = some plan → ∀ d ∈ plan.created,
    d.documentId ∉ s.service.documentIds kbId ∧ ∃ i < s.uuids, d.documentId = tools.newUuid i
  drawnApart : ∀ c c' plan plan', c ≠ c' → (s.calls c).inFlight = some plan →
    (s.calls c').inFlight = some plan' →
    ∀ d ∈ plan.created, ∀ d' ∈ plan'.created, d.documentId ≠ d'.documentId

variable {tools : IngestTools} {kbId : String} {s s' : IngestSystem} {c : Nat} {plan : IngestPlan}

/-! ## The record of the last contents -/

theorem foldl_update_of_not_mem (inputs : List (String × String)) (last : String → Option String)
    {source : String} (h : ∀ x ∈ inputs, x.1 ≠ source) :
    (inputs.foldl (fun (last : String → Option String) x =>
      Function.update last x.1 (some x.2)) last) source = last source := by
  induction inputs generalizing last with
  | nil => rfl
  | cons x inputs ih =>
    rw [List.foldl_cons, ih _ (fun y hy => h y (List.mem_cons_of_mem _ hy))]
    exact Function.update_of_ne (h x (List.mem_cons_self ..)).symm _ _

theorem foldl_update_of_mem {inputs : List (String × String)} (last : String → Option String)
    (hone : ∀ x ∈ inputs, ∀ y ∈ inputs, x.1 = y.1 → x.2 = y.2) {x : String × String}
    (hx : x ∈ inputs) : (inputs.foldl (fun (last : String → Option String) x =>
      Function.update last x.1 (some x.2)) last) x.1 = some x.2 := by
  induction inputs generalizing last x with
  | nil => cases hx
  | cons y inputs ih =>
    rw [List.foldl_cons]
    by_cases hlater : ∃ z ∈ inputs, z.1 = x.1
    · obtain ⟨z, hz, heq⟩ := hlater
      have hcontent : z.2 = x.2 := hone z (List.mem_cons_of_mem _ hz) x hx heq
      rw [← heq, ← hcontent]
      exact ih _ (fun a ha b hb => hone a (List.mem_cons_of_mem _ ha) b
        (List.mem_cons_of_mem _ hb)) hz
    · rw [foldl_update_of_not_mem _ _ (fun z hz heq => hlater ⟨z, hz, heq⟩)]
      rcases List.mem_cons.1 hx with rfl | hx
      · exact Function.update_self ..
      · exact absurd ⟨x, hx, rfl⟩ hlater

/-! ## Steps that store nothing -/

theorem Upserting.goto (h : Upserting tools kbId s) (c : Nat) (call : IngestCall) {uuids : Nat}
    (hle : s.uuids ≤ uuids) (hplan : ∀ plan, call.inFlight = some plan →
      (∃ done, PlanOk tools kbId (s.service.backend = none) (s.service.storedDocuments kbId) done
          plan) ∧ (∀ d ∈ plan.created, d.documentId ∉ s.service.documentIds kbId
          ∧ ∃ i < uuids, d.documentId = tools.newUuid i)
        ∧ ∀ c' plan', c' ≠ c → (s.calls c').inFlight = some plan' →
          (∀ x ∈ named tools plan.docs, ∀ y ∈ named tools plan'.docs, x.1 ≠ y.1)
            ∧ ∀ d ∈ plan.created, ∀ d' ∈ plan'.created, d.documentId ≠ d'.documentId)
    (hembedding : ∀ plan, call = .embedding plan → plan.todo = []) :
    Upserting tools kbId { s.goto c call with uuids := uuids } := by
  have hcalls : ∀ c' : Nat, ({ s.goto c call with uuids := uuids } : IngestSystem).calls c'
      = if c' = c then call else s.calls c' := fun c' => Function.update_apply ..
  refine ⟨h.ingested, h.one, h.owned, h.chunks, h.last, h.onlyLast, ?_, ?_, ?_,
    fun i hi => h.documentIds i (hle.trans hi), fun i hi => h.chunkIds i (hle.trans hi), ?_, ?_⟩
  · intro c' plan' hflight
    rw [hcalls] at hflight
    split at hflight
    · exact (hplan plan' hflight).1
    · exact h.plans c' plan' hflight
  · intro c' plan' hcall
    rw [hcalls] at hcall
    split at hcall
    · exact hembedding plan' hcall
    · exact h.embedding c' plan' hcall
  · intro c₁ c₂ plan₁ plan₂ hne h₁ h₂ x hx y hy
    rw [hcalls] at h₁ h₂
    split at h₁ <;> split at h₂
    · next heq₁ heq₂ => exact absurd (heq₁.trans heq₂.symm) hne
    · next heq₂ => exact ((hplan plan₁ h₁).2.2 c₂ plan₂ heq₂ h₂).1 x hx y hy
    · next heq₁ _ => exact (((hplan plan₂ h₂).2.2 c₁ plan₁ heq₁ h₁).1 y hy x hx).symm
    · exact h.apart c₁ c₂ plan₁ plan₂ hne h₁ h₂ x hx y hy
  · intro c' plan' hflight d hd
    rw [hcalls] at hflight
    split at hflight
    · exact (hplan plan' hflight).2.1 d hd
    · obtain ⟨hfresh, i, hi, hid⟩ := h.drawn c' plan' hflight d hd
      exact ⟨hfresh, i, hi.trans_le hle, hid⟩
  · intro c₁ c₂ plan₁ plan₂ hne h₁ h₂ d hd d' hd'
    rw [hcalls] at h₁ h₂
    split at h₁ <;> split at h₂
    · next heq₁ heq₂ => exact absurd (heq₁.trans heq₂.symm) hne
    · next heq₂ => exact ((hplan plan₁ h₁).2.2 c₂ plan₂ heq₂ h₂).2 d hd d' hd'
    · next heq₁ _ => exact (((hplan plan₂ h₂).2.2 c₁ plan₁ heq₁ h₁).2 d' hd' d hd).symm
    · exact h.drawnApart c₁ c₂ plan₁ plan₂ hne h₁ h₂ d hd d' hd'

/-! ## Calls that return -/

/-- **A call returns.** What it stores keeps the invariant: its sources have the documents of its
    inputs, and the others what they had. -/
theorem Upserting.finish (h : Upserting tools kbId s)
    (huuid : Function.Injective tools.newUuid) (hflight : (s.calls c).inFlight = some plan)
    (htodo : plan.todo = []) (added : List KnowledgeChunk) {service : KnowledgeBase} {uuids : Nat}
    (hle : s.uuids ≤ uuids) (hbackend : service.backend = none ↔ s.service.backend = none)
    (hreplaced : Replaced kbId plan.created added s.service service) (hadded : ∀ p ∈ plan.pending,
      (added.filter (fun ch => ch.documentId = p.1.documentId)).map KnowledgeChunk.triple = p.2)
    (haddedOwned : ∀ ch ∈ added, ∃ d ∈ plan.created, ch.documentId = d.documentId)
    (haddedIds : ∀ ch ∈ added, ∃ i < uuids, ch.chunkId = tools.newUuid i)
    (documents : List KnowledgeDocument) :
    Upserting tools kbId { s.goto c (.returned documents) with
      service := service, uuids := uuids, last := s.record tools plan.docs } := by
  obtain ⟨done, hplan⟩ := h.plans c plan hflight
  have hmem := fun {d : KnowledgeDocument} => hreplaced.mem_iff (d := d)
  have hcreatedSource : ∀ d ∈ plan.created, ∀ source, d.sourceUri = some source →
      ∃ x ∈ named tools plan.docs, x.1 = source ∧ d.text = some x.2 := by
    intro d hd source hsource
    obtain ⟨p, hp, rfl⟩ := List.mem_map.1 hd
    obtain ⟨-, text, htext, -, -, -, hnamed⟩ := hplan.pending p hp
    exact ⟨(source, text), hplan.named_of_done (hnamed source hsource), rfl, htext⟩
  have hother : ∀ source, (∀ x ∈ named tools plan.docs, x.1 ≠ source) →
      ∀ d, d.sourceUri = some source →
        (d ∈ service.storedDocuments kbId ↔ d ∈ s.service.storedDocuments kbId) := by
    intro source hsource d hd
    rw [hmem]
    constructor
    · rintro (⟨hold, -⟩ | hnew)
      · exact hold
      · obtain ⟨x, hx, heq, -⟩ := hcreatedSource d hnew source hd
        exact absurd heq (hsource x hx)
    · intro hold
      refine .inl ⟨hold, ?_⟩
      rw [Bool.eq_false_iff, Ne, superseded_iff]
      rintro ⟨source', hsource', d', hd', heq⟩
      obtain rfl : source' = source := Option.some.inj (hsource'.symm.trans hd)
      obtain ⟨x, hx, hxs, -⟩ := hcreatedSource d' hd' source' heq
      exact hsource x hx hxs
  have hone : ∀ d ∈ service.storedDocuments kbId, ∀ d' ∈ service.storedDocuments kbId,
      ∀ source, d.sourceUri = some source → d'.sourceUri = some source → d = d' := by
    intro d hd d' hd' source hs hs'
    rcases hmem.1 hd with ⟨hold, hkept⟩ | hnew <;> rcases hmem.1 hd' with ⟨hold', hkept'⟩ | hnew'
    · exact h.one d hold d' hold' source hs hs'
    · have hsuper := superseded_iff.2 ⟨source, hs, d', hnew', hs'⟩
      rw [hkept] at hsuper
      cases hsuper
    · have hsuper := superseded_iff.2 ⟨source, hs', d, hnew, hs⟩
      rw [hkept'] at hsuper
      cases hsuper
    · exact hplan.one d hnew d' hnew' source hs hs'
  -- a source of the batch has the document of its content, any other what it had
  have hrecord : ∀ source, (∃ x ∈ named tools plan.docs, x.1 = source
        ∧ s.record tools plan.docs source = some x.2
        ∧ ∃ d ∈ service.storedDocuments kbId, d.sourceUri = some source ∧ d.text = some x.2)
      ∨ (∀ x ∈ named tools plan.docs, x.1 ≠ source)
        ∧ s.record tools plan.docs source = s.last source := by
    intro source
    by_cases hsource : ∃ x ∈ named tools plan.docs, x.1 = source
    · obtain ⟨x, hx, rfl⟩ := hsource
      obtain ⟨d, hd⟩ := hplan.final htodo hx
      exact .inl ⟨x, hx, rfl, foldl_update_of_mem s.last hplan.oneContent hx, d,
        hd.mem_replaced hreplaced, hd.1, hd.2.1⟩
    · have hnone : ∀ x ∈ named tools plan.docs, x.1 ≠ source :=
        fun x hx heq => hsource ⟨x, hx, heq⟩
      exact .inr ⟨hnone, foldl_update_of_not_mem _ _ hnone⟩
  have hidsNew : ∀ i, uuids ≤ i → ∀ d ∈ plan.created, tools.newUuid i ≠ d.documentId := by
    intro i hi d hd heq
    obtain ⟨-, j, hj, hid⟩ := h.drawn c plan hflight d hd
    have hsame : i = j := huuid (heq.trans hid)
    omega
  have hcalls : ∀ c' plan', ((Function.update s.calls c (.returned documents)) c').inFlight
      = some plan' → c' ≠ c ∧ (s.calls c').inFlight = some plan' := by
    intro c' plan' hc'
    rw [Function.update_apply] at hc'
    split at hc'
    · cases hc'
    · next hne => exact ⟨hne, hc'⟩
  refine ⟨?_, hone, ?_, ?_, ?_, ?_, ?_, ?_, ?_, ?_, ?_, ?_, ?_⟩
  · intro d hd
    rcases hmem.1 hd with ⟨hold, -⟩ | hnew
    · exact h.ingested d hold
    · obtain ⟨p, hp, rfl⟩ := List.mem_map.1 hnew
      obtain ⟨-, text, htext, hcontent, htriples, hne, -⟩ := hplan.pending p hp
      exact ⟨text, htext, hcontent, htriples ▸ hne⟩
  · intro ch hch
    rw [hreplaced.chunks] at hch
    rcases List.mem_append.1 hch with hold | hnew
    · obtain ⟨hold, hkept⟩ := List.mem_filter.1 hold
      obtain ⟨d, hd, howns⟩ := h.owned ch hold
      refine ⟨d, hmem.2 (.inl ⟨hd, ?_⟩), howns⟩
      have hd := List.all_eq_true.1 hkept d hd
      simpa [howns] using hd
    · obtain ⟨d, hd, howns⟩ := haddedOwned ch hnew
      exact ⟨d, hmem.2 (.inr hd), howns⟩
  · intro d hd text htext
    simp only [hreplaced.chunks, List.filter_append, List.map_append]
    rcases hmem.1 hd with ⟨hold, hkept⟩ | hnew
    · have hmine : (s.service.storedChunks kbId).filter (fun ch => (s.service.storedDocuments kbId).all
            (fun d => !superseded plan.created d || ch.documentId ≠ d.documentId)
            && ch.documentId = d.documentId)
          = (s.service.storedChunks kbId).filter (fun ch => ch.documentId = d.documentId) := by
        refine List.filter_congr (fun ch _ => ?_)
        rw [Bool.eq_iff_iff, Bool.and_eq_true, List.all_eq_true]
        simp only [decide_eq_true_eq, Bool.or_eq_true, Bool.not_eq_true']
        refine ⟨And.right, fun howns => ⟨fun d' hd' => ?_, howns⟩⟩
        by_cases heq : ch.documentId = d'.documentId
        · have hsame := List.inj_on_of_nodup_map (s.service.nodup_storedDocuments kbId) hold hd'
            (howns.symm.trans heq)
          exact .inl (hsame ▸ hkept)
        · exact .inr heq
      have hnone : added.filter (fun ch => ch.documentId = d.documentId) = [] := by
        refine List.filter_eq_nil_iff.2 ?_
        intro ch hch heq
        obtain ⟨d', hd', howns⟩ := haddedOwned ch hch
        refine (h.drawn c plan hflight d' hd').1 ?_
        rw [← howns, of_decide_eq_true heq]
        exact s.service.documentId_mem kbId hold
      rw [List.filter_filter, hnone, List.map_nil, List.append_nil]
      simp only [Bool.and_comm (decide (_ = d.documentId))]
      rw [hmine]
      exact h.chunks d hold text htext
    · obtain ⟨p, hp, rfl⟩ := List.mem_map.1 hnew
      obtain ⟨-, text', htext', -, htriples, -, -⟩ := hplan.pending p hp
      obtain rfl : text' = text := Option.some.inj (htext'.symm.trans htext)
      have hnone : ((s.service.storedChunks kbId).filter (fun ch => (s.service.storedDocuments kbId).all
          (fun d => !superseded plan.created d || ch.documentId ≠ d.documentId))).filter
          (fun ch => ch.documentId = p.1.documentId) = [] := by
        refine List.filter_eq_nil_iff.2 ?_
        intro ch hch heq
        obtain ⟨d', hd', howns⟩ := h.owned ch (List.mem_of_mem_filter hch)
        refine (h.drawn c plan hflight p.1 hnew).1 ?_
        rw [← of_decide_eq_true heq, howns]
        exact s.service.documentId_mem kbId hd'
      rw [hnone, List.map_nil, List.nil_append, hadded p hp, htriples]
  · intro source text hlast
    rcases hrecord source with ⟨x, -, -, hx, d, hd⟩ | ⟨hnone, hsame⟩
    · cases hx.symm.trans hlast
      exact ⟨d, hd⟩
    · obtain ⟨d, hd, hsource, htext⟩ := h.last source text (hsame.symm.trans hlast)
      exact ⟨d, (hother source hnone d hsource).2 hd, hsource, htext⟩
  · intro d hd source hsource
    rcases hrecord source with ⟨x, -, -, hx, d', hd', hsource', htext'⟩ | ⟨hnone, hsame⟩
    · rw [hone d hd d' hd' source hsource hsource']
      exact hx.trans htext'.symm
    · exact hsame.trans (h.onlyLast d ((hother source hnone d hsource).1 hd) source hsource)
  · intro c' plan' hc'
    obtain ⟨hne, hc'⟩ := hcalls c' plan' hc'
    obtain ⟨done', hplan'⟩ := h.plans c' plan' hc'
    refine ⟨done', ?_⟩
    rw [show (service.backend = none) = (s.service.backend = none) from propext hbackend]
    refine hplan'.frame ?_
    intro x hx d hd
    exact hother x.1 (fun y hy => h.apart c c' plan plan' hne.symm hflight hc' y hy x hx) d hd
  · intro c' plan' hc'
    have hstate : Function.update s.calls c (.returned documents) c' = .embedding plan' := hc'
    have hne : c' ≠ c := (hcalls c' plan' (by rw [hstate]; rfl)).1
    exact h.embedding c' plan' ((Function.update_of_ne hne ..).symm.trans hstate)
  · intro c₁ c₂ plan₁ plan₂ hne h₁ h₂
    exact h.apart c₁ c₂ plan₁ plan₂ hne (hcalls c₁ plan₁ h₁).2 (hcalls c₂ plan₂ h₂).2
  · intro i hi hid
    rcases hreplaced.documentIds _ hid with hold | ⟨d, hd, heq⟩
    · exact h.documentIds i (hle.trans hi) hold
    · exact hidsNew i hi d hd heq
  · intro i hi hid
    rcases hreplaced.chunkIds _ hid with hold | ⟨ch, hch, heq⟩
    · exact h.chunkIds i (hle.trans hi) hold
    · obtain ⟨j, hj, hchunk⟩ := haddedIds ch hch
      have hsame : i = j := huuid (heq.trans hchunk)
      have hi : uuids ≤ i := hi
      omega
  · intro c' plan' hc' d hd
    obtain ⟨hne, hc'⟩ := hcalls c' plan' hc'
    obtain ⟨hfresh, i, hi, hid⟩ := h.drawn c' plan' hc' d hd
    refine ⟨?_, i, hi.trans_le hle, hid⟩
    intro hmem'
    rcases hreplaced.documentIds _ hmem' with hold | ⟨d', hd', heq⟩
    · exact hfresh hold
    · exact h.drawnApart c c' plan plan' hne.symm hflight hc' d' hd' d hd heq.symm
  · intro c₁ c₂ plan₁ plan₂ hne h₁ h₂
    exact h.drawnApart c₁ c₂ plan₁ plan₂ hne (hcalls c₁ plan₁ h₁).2 (hcalls c₂ plan₂ h₂).2

/-! ## The steps -/

theorem backend_store (service : KnowledgeBase) (replacedIds : List String)
    (created : List KnowledgeDocument) (added : List KnowledgeChunk) :
    (service.store kbId replacedIds created added).backend = none ↔ service.backend = none := by
  unfold KnowledgeBase.store
  split
  · next hbackend => simp [hbackend]
  · next hbackend => exact iff_of_true hbackend hbackend

theorem Upserting.storable (h : Upserting tools kbId s) (huuid : Function.Injective tools.newUuid)
    (hflight : (s.calls c).inFlight = some plan) {embeddings : List (List Rat)}
    (hlength : embeddings.length = plan.chunkTexts.length) :
    Storable s.service kbId plan.replacedIds plan.created
      (plan.chunks tools kbId s.uuids embeddings) := by
  obtain ⟨done, hplan⟩ := h.plans c plan hflight
  refine ⟨?_, hplan.ids, fun d hd => (h.drawn c plan hflight d hd).1,
    fun ch hch => (documentId_chunks hch).1, ?_, ?_, ?_, h.owned⟩
  · intro d hd
    obtain ⟨p, hp, rfl⟩ := List.mem_map.1 hd
    exact (hplan.pending p hp).1
  · rw [chunkIds_chunks hlength]
    exact List.Nodup.map huuid (List.nodup_range' 1)
  · intro ch hch hmem
    have hid : ch.chunkId ∈ (List.range' s.uuids plan.chunkTexts.length).map tools.newUuid := by
      rw [← chunkIds_chunks hlength]
      exact List.mem_map_of_mem hch
    obtain ⟨i, hi, heq⟩ := List.mem_map.1 hid
    rw [← heq] at hmem
    exact h.chunkIds i (List.mem_range'_1.1 hi).1 hmem
  · intro hmemory d hd
    constructor
    · intro hid
      obtain ⟨d', hd', heq, hsuper⟩ := hplan.replacedOnly hmemory _ hid
      rwa [List.inj_on_of_nodup_map (s.service.nodup_storedDocuments kbId) hd hd' heq.symm]
    · exact hplan.replaced hmemory d hd

theorem length_of_checkEmbeddings {embeddings : List (List Rat)} {u : Unit}
    (h : plan.checkEmbeddings embeddings = .ok u) : embeddings.length = plan.chunkTexts.length := by
  unfold IngestPlan.checkEmbeddings at h
  split at h
  · cases h
  · next heq => exact not_ne_iff.1 heq

section

variable (h : Upserting tools kbId s)

include h

theorem Upserting.raise (c : Nat) (message : String) :
    Upserting tools kbId (s.goto c (.raised message)) := by
  refine h.goto c (.raised message) le_rfl ?_ ?_ <;> intro plan hplan <;> cases hplan

theorem Upserting.begin (hhash : Function.Injective tools.contentHash)
    {docs : List DocumentInput} (hmeets : Meets tools s (.begin c docs)) (vectorDim : Int) :
    Upserting tools kbId (s.goto c (.planning (.start s.service kbId vectorDim docs))) := by
  refine h.goto c (.planning (.start s.service kbId vectorDim docs)) le_rfl ?_ ?_
  · intro plan hplan
    cases hplan
    refine ⟨⟨[], planOk_start hhash hmeets.1 h.ingested h.one vectorDim⟩, ?_, ?_⟩
    · intro d hd
      cases hd
    · intro c' plan' _ hflight
      refine ⟨fun x hx y hy => hmeets.2 c' plan' hflight x hx y hy, ?_⟩
      intro d hd
      cases hd
  · intro plan hplan
    cases hplan

theorem Upserting.planItem
    (hhash : Function.Injective tools.contentHash) (huuid : Function.Injective tools.newUuid)
    (hcall : s.calls c = .planning plan) {item : DocumentInput} {todo : List DocumentInput}
    (htodo : plan.todo = item :: todo) {plan' : IngestPlan}
    (hplan : ({ plan with todo } : IngestPlan).planItem tools s.service kbId (tools.newUuid s.uuids)
      item = .ok plan') :
    Upserting tools kbId { s.goto c (.planning plan') with uuids := s.uuids + 1 } := by
  have hflight : (s.calls c).inFlight = some plan := by
    rw [hcall]
    rfl
  obtain ⟨done, hok⟩ := h.plans c plan hflight
  have hfresh : ∀ d ∈ plan.created, d.documentId ≠ tools.newUuid s.uuids := by
    intro d hd heq
    obtain ⟨-, i, hi, hid⟩ := h.drawn c plan hflight d hd
    have hsame : i = s.uuids := huuid (hid.symm.trans heq)
    omega
  obtain ⟨hok', hdocs, hcreated⟩ := hok.planItem hhash h.ingested htodo hfresh hplan
  refine h.goto c (.planning plan') (Nat.le_succ _) ?_ ?_
  · intro plan'' hsame
    cases hsame
    refine ⟨⟨_, hok'⟩, ?_, ?_⟩
    · intro d hd
      rcases hcreated d hd with hold | hnew
      · obtain ⟨hnot, i, hi, hid⟩ := h.drawn c plan hflight d hold
        exact ⟨hnot, i, Nat.lt_succ_of_lt hi, hid⟩
      · exact ⟨hnew ▸ h.documentIds s.uuids le_rfl, s.uuids, Nat.lt_succ_self _, hnew⟩
    · intro c' other hne hother
      refine ⟨?_, ?_⟩
      · rw [hdocs]
        exact h.apart c c' plan other hne.symm hflight hother
      · intro d hd d' hd'
        rcases hcreated d hd with hold | hnew
        · exact h.drawnApart c c' plan other hne.symm hflight hother d hold d' hd'
        · -- the identifier that has just been drawn is none of the earlier ones
          obtain ⟨-, i, hi, hid⟩ := h.drawn c' other hother d' hd'
          intro heq
          have hsame : s.uuids = i := huuid (hnew.symm.trans (heq.trans hid))
          omega
  · intro plan'' hsame
    cases hsame

theorem Upserting.step (hhash : Function.Injective tools.contentHash)
    (huuid : Function.Injective tools.newUuid) {a : IngestStep} (hmeets : Meets tools s a)
    (hstep : s.step tools kbId a = some s') : Upserting tools kbId s' := by
  cases a with
  | begin c docs =>
    simp only [IngestSystem.step] at hstep
    split at hstep
    · split at hstep
      · next kb _ =>
          cases hstep
          exact h.begin hhash hmeets kb.vectorDim
      · cases hstep
        exact h.raise c _
    · cases hstep
  | plan c =>
    simp only [IngestSystem.step] at hstep
    split at hstep
    · next plan hcall =>
        split at hstep
        · next item todo htodo =>
            split at hstep
            · next plan' hplan =>
                cases hstep
                exact h.planItem hhash huuid hcall htodo hplan
            · cases hstep
              exact h.raise c _
        · cases hstep
    · cases hstep
  | settle c =>
    simp only [IngestSystem.step] at hstep
    split at hstep
    · next plan hcall =>
        have hflight : (s.calls c).inFlight = some plan := by
          rw [hcall]
          rfl
        split at hstep
        · cases hstep
        · next htodo =>
            split at hstep
            · cases hstep
              refine h.goto c (.embedding plan) le_rfl ?_ ?_
              · intro plan' hsame
                cases hsame
                exact ⟨h.plans c plan hflight, h.drawn c plan hflight,
                  fun c' other hne hother =>
                    ⟨h.apart c c' plan other hne.symm hflight hother,
                      h.drawnApart c c' plan other hne.symm hflight hother⟩⟩
              · intro plan' hsame
                cases hsame
                exact not_ne_iff.1 htodo
            · next hpending =>
                have hpending : plan.pending = [] := not_ne_iff.1 hpending
                have hcreated : plan.created = [] := by rw [IngestPlan.created, hpending]; rfl
                cases hstep
                unfold IngestSystem.finish
                split
                · next documents _ =>
                    refine h.finish huuid hflight (not_ne_iff.1 htodo) [] le_rfl Iff.rfl
                      ?_ ?_ ?_ ?_ documents
                    · rw [hcreated]
                      exact replaced_refl kbId s.service
                    · rw [hpending]
                      intro p hp
                      cases hp
                    · intro ch hch
                      cases hch
                    · intro ch hch
                      cases hch
                · exact h.raise c _
    · cases hstep
  | embedded c embeddings =>
    simp only [IngestSystem.step] at hstep
    split at hstep
    · next plan hcall =>
        have hflight : (s.calls c).inFlight = some plan := by
          rw [hcall]
          rfl
        split at hstep
        · cases hstep
          exact h.raise c _
        · split at hstep
          · cases hstep
            exact h.raise c _
          · next vectors _ hcheck =>
              cases hstep
              have hlength := length_of_checkEmbeddings hcheck
              obtain ⟨done, hok⟩ := h.plans c plan hflight
              refine h.finish huuid hflight (h.embedding c plan hcall) _ (Nat.le_add_right _ _)
                (backend_store ..) (replaced_store (h.storable huuid hflight hlength))
                (fun p hp => triples_chunks hlength hok.ids hp)
                (fun ch hch => (documentId_chunks hch).2) ?_ plan.documents
              intro ch hch
              have hid : ch.chunkId
                  ∈ (List.range' s.uuids plan.chunkTexts.length).map tools.newUuid := by
                rw [← chunkIds_chunks hlength]
                exact List.mem_map_of_mem hch
              obtain ⟨i, hi, heq⟩ := List.mem_map.1 hid
              exact ⟨i, (List.mem_range'_1.1 hi).2, heq.symm⟩
    · cases hstep

theorem Upserting.returned (huuid : Function.Injective tools.newUuid)
    {a : IngestStep} (hstep : s.step tools kbId a = some s') {documents : List KnowledgeDocument}
    (hnow : s'.calls c = .returned documents) (hbefore : s.calls c ≠ .returned documents) :
    ∀ d ∈ documents, d.sourceUri ≠ none → d ∈ s'.service.storedDocuments kbId := by
  have hgoto : ∀ (c' : Nat) (call : IngestCall),
      Function.update s.calls c' call c = .returned documents → c = c' ∧ call = .returned documents := by
    intro c' call hupdate
    rw [Function.update_apply] at hupdate
    split at hupdate
    · next heq => exact ⟨heq, hupdate⟩
    · exact absurd hupdate hbefore
  cases a with
  | begin c' docs =>
    simp only [IngestSystem.step] at hstep
    split at hstep
    · split at hstep <;> cases hstep <;> cases (hgoto c' _ hnow).2
    · cases hstep
  | plan c' =>
    simp only [IngestSystem.step] at hstep
    split at hstep
    · split at hstep
      · split at hstep <;> cases hstep <;> cases (hgoto c' _ hnow).2
      · cases hstep
    · cases hstep
  | settle c' =>
    simp only [IngestSystem.step] at hstep
    split at hstep
    · next plan hcall =>
        obtain ⟨done, hok⟩ := h.plans c' plan (by rw [hcall]; rfl)
        split at hstep
        · cases hstep
        · split at hstep
          · cases hstep
            cases (hgoto c' _ hnow).2
          · next hpending =>
              have hcreated : plan.created = [] := by
                rw [IngestPlan.created, not_ne_iff.1 hpending]
                rfl
              cases hstep
              unfold IngestSystem.finish at hnow ⊢
              split at hnow
              · next result hsettle =>
                  cases (hgoto c' _ hnow).2
                  intro d hd hsource
                  have hd : d ∈ plan.documents := by
                    unfold IngestPlan.settle at hsettle
                    split at hsettle
                    · cases hsettle
                      exact hd
                    · split at hsettle <;> cases hsettle
                      cases hd
                  have hreplaced : Replaced kbId plan.created [] s.service s.service := by
                    rw [hcreated]
                    exact replaced_refl kbId s.service
                  exact returned_stored hok hreplaced hd hsource
              · cases (hgoto c' _ hnow).2
    · cases hstep
  | embedded c' embeddings =>
    simp only [IngestSystem.step] at hstep
    split at hstep
    · next plan hcall =>
        have hflight : (s.calls c').inFlight = some plan := by
          rw [hcall]
          rfl
        split at hstep
        · cases hstep
          cases (hgoto c' _ hnow).2
        · split at hstep
          · cases hstep
            cases (hgoto c' _ hnow).2
          · next vectors _ hcheck =>
              cases hstep
              cases (hgoto c' _ hnow).2
              obtain ⟨done, hok⟩ := h.plans c' plan hflight
              intro d hd hsource
              exact returned_stored hok (replaced_store
                (h.storable huuid hflight (length_of_checkEmbeddings hcheck))) hd hsource
    · cases hstep

end

/-! ## Histories -/

/-- A knowledge base that holds nothing, in a store that uses none of the identifiers to come. -/
structure NewKb (tools : IngestTools) (kbId : String) (service : KnowledgeBase) : Prop where
  documents : service.storedDocuments kbId = []
  chunks : service.storedChunks kbId = []
  documentIds : ∀ i, tools.newUuid i ∉ service.documentIds kbId
  chunkIds : ∀ i, tools.newUuid i ∉ service.chunkIds kbId

theorem upserting_new {service : KnowledgeBase} (h : NewKb tools kbId service) :
    Upserting tools kbId { service } := by
  have hnone : ∀ d, d ∉ service.storedDocuments kbId := by
    intro d hd
    rw [h.documents] at hd
    cases hd
  refine ⟨fun d hd => absurd hd (hnone d), fun d hd => absurd hd (hnone d), ?_,
    fun d hd => absurd hd (hnone d), ?_, fun d hd => absurd hd (hnone d), ?_, ?_, ?_,
    fun i _ => h.documentIds i, fun i _ => h.chunkIds i, ?_, ?_⟩
  · intro ch hch
    rw [h.chunks] at hch
    cases hch
  all_goals intros; contradiction

/-- **Upserts.** In every history of calls on a new knowledge base, in memory or over the SQLite
    backend, in which each batch names a source with one content and calls in flight at one time name
    no common source: each source has exactly one stored document once an input of it with chunks has
    returned, that of the last such input, and none before; the stored chunks are those of the stored
    documents; and a call that returns returns stored documents, for the inputs with a source. -/
theorem ingest_upserts (hhash : Function.Injective tools.contentHash)
    (huuid : Function.Injective tools.newUuid) {service : KnowledgeBase}
    (hnew : NewKb tools kbId service) {steps : List IngestStep}
    (hmeets : (ingestSystem tools kbId).AlongRun (Meets tools) { service } steps)
    (hrun : (ingestSystem tools kbId).exec { service } steps = some s) :
    (∀ source text, s.last source = some text → ∃ d,
        (s.service.storedDocuments kbId).filter (fun d => d.sourceUri = some source) = [d]
          ∧ d.text = some text
          ∧ ((s.service.storedChunks kbId).filter (fun ch => ch.documentId = d.documentId)).map
              KnowledgeChunk.triple = tools.triples text) ∧ (∀ source, s.last source = none →
          ∀ d ∈ s.service.storedDocuments kbId, d.sourceUri ≠ some source)
      ∧ (∀ ch ∈ s.service.storedChunks kbId,
          ∃ d ∈ s.service.storedDocuments kbId, ch.documentId = d.documentId)
      ∧ ∀ a s' c documents, s.step tools kbId a = some s' → s'.calls c = .returned documents →
          s.calls c ≠ .returned documents →
            ∀ d ∈ documents, d.sourceUri ≠ none → d ∈ s'.service.storedDocuments kbId := by
  have h : Upserting tools kbId s :=
    (ingestSystem tools kbId).exec_invariant (fun _ _ _ hI hC hstep => hI.step hhash huuid hC hstep)
      (upserting_new hnew) hmeets hrun
  refine ⟨?_, ?_, h.owned, fun a s' c documents hstep hnow hbefore =>
    h.returned huuid hstep hnow hbefore⟩
  · intro source text hlast
    obtain ⟨d, hd, hsource, htext⟩ := h.last source text hlast
    refine ⟨d, ?_, htext, h.chunks d hd text htext⟩
    have hmem : d ∈ (s.service.storedDocuments kbId).filter (fun d => d.sourceUri = some source) :=
      List.mem_filter.2 ⟨hd, decide_eq_true hsource⟩
    have hnodup := (List.Nodup.of_map _ (s.service.nodup_storedDocuments kbId)).filter
      (fun d => decide (d.sourceUri = some source))
    by_contra hne
    rcases (hnodup.ne_singleton_iff d).1 hne with hnil | ⟨d', hd', hother⟩
    · rw [hnil] at hmem
      cases hmem
    · obtain ⟨hd', hsource'⟩ := List.mem_filter.1 hd'
      exact hother (h.one d' hd' d hd source (of_decide_eq_true hsource') hsource)
  · intro source hlast d hd hsource
    have htext := h.onlyLast d hd source hsource
    obtain ⟨text, hsome, -, -⟩ := h.ingested d hd
    rw [hlast, hsome] at htext
    cases htext

def plainTools : IngestTools where
  contentHash := id
  chunk := fun text => [(0, text.length, text)]
  newUuid := fun i => String.ofList (List.replicate i 'u')
  fingerprint := "plain"

def newRecord : KnowledgeBaseRecord where
  kbId := "k"
  workspaceId := "w"
  clientId := "c"
  name := "n"
  vectorDim := 1

def newInMemory : KnowledgeBase where
  kbs := KeyedList.empty.put newRecord

def newInSqlite : KnowledgeBase where
  backend := some { conn := { knowledgeBases := newInMemory.kbs } }

def oneCall (docs : List DocumentInput) (vectors : Nat) : List IngestStep :=
  .begin 0 docs :: (List.replicate docs.length (.plan 0)
    ++ [.settle 0, .embedded 0 (.ok (List.replicate vectors [1]))])

def repeated : List DocumentInput :=
  [{ text := some "a", sourceUri := some "s" }, { text := some "a", sourceUri := some "s" },
    { text := some "b", sourceUri := some "t" }]

theorem ingest_upserts_repeated :
    ∃ s, (ingestSystem plainTools "k").exec { service := newInSqlite } (oneCall repeated 2) = some s
      ∧ ∃ d, (s.service.storedDocuments "k").filter (fun d => d.sourceUri = some "s") = [d]
        ∧ d.text = some "a" := by
  have hmeets : (ingestSystem plainTools "k").AlongRun (Meets plainTools) { service := newInSqlite }
      (oneCall repeated 2) := by
    refine ⟨⟨?_, ?_⟩, fun s' _ => ?_⟩
    · unfold OneContent
      decide
    · intro c plan hflight
      cases hflight
    · refine (LTS.AlongRun.of_forall _ s' (D := fun a => (a matches .begin ..) = false) ?_).mono ?_
      · decide
      · intro s a ha
        cases a with
        | begin c docs => cases ha
        | plan | settle | embedded => trivial
  have hnew : NewKb plainTools "k" newInSqlite := ⟨rfl, rfl, nofun, nofun⟩
  have huuid : Function.Injective plainTools.newUuid := by
    intro i j heq
    simpa [plainTools] using congrArg String.length heq
  refine ⟨_, rfl, ?_⟩
  obtain ⟨d, hd, htext, -⟩ := (ingest_upserts (fun _ _ => id) huuid hnew hmeets rfl).1 "s" "a" rfl
  exact ⟨d, hd, htext⟩

def twoContents : List DocumentInput :=
  [{ text := some "a", sourceUri := some "s" }, { text := some "b", sourceUri := some "s" }]

def StoresBoth (service : KnowledgeBase) : Prop :=
  ∃ s, (ingestSystem plainTools "k").exec { service } (oneCall twoContents 2) = some s
    ∧ s.last "s" = some "b"
    ∧ ((s.service.storedDocuments "k").filter (fun d => d.sourceUri = some "s")).map
        KnowledgeDocument.text = [some "a", some "b"]

theorem ingest_twoContents : StoresBoth newInMemory ∧ StoresBoth newInSqlite := by
  refine ⟨⟨_, rfl, rfl, ?_⟩, _, rfl, rfl, ?_⟩
  · decide
  · decide

end IngestSystem

end Himmy
