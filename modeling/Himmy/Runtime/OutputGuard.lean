import Himmy.Runtime.Streaming

/-! # What leaves the runtime of a blocked answer

An answer leaves in the result of a turn, in the messages of the thread and their metadata, and in
the deltas of a stream. That a blocked answer does not leave is a statement about two responses
which differ in their answers only: when both are blocked and the same text is shown for them,
nothing that leaves tells them apart. The structured payload of an answer is not guarded, and is
hidden here before what leaves is compared. -/

namespace Himmy.Guardrails.GuardrailPipeline

variable {gs : List Guardrail} {g : Guardrail} {text stage : String}

theorem inspect_concat (gs : List Guardrail) (g : Guardrail) (text stage : String) :
    (⟨gs ++ [g]⟩ : GuardrailPipeline).inspect text stage
      = inspectNext stage ((⟨gs⟩ : GuardrailPipeline).inspect text stage) g := by
  simp [inspect]

theorem replaced_of_blocked (hblocked : ((⟨gs⟩ : GuardrailPipeline).inspect text stage).allowed = false)
    (hreplacement : ((⟨gs⟩ : GuardrailPipeline).inspect text stage).blockReplacement = true) :
    ∃ before g after, gs = before ++ g :: after ∧
      let given := ((⟨before⟩ : GuardrailPipeline).inspect text stage).text
      let replacement := (g.inspect given stage).text
      (g.inspect given stage).allowed = false ∧ replacement ≠ given ∧
        ((⟨after⟩ : GuardrailPipeline).inspect replacement stage).allowed = true ∧
        ((⟨gs⟩ : GuardrailPipeline).inspect text stage).text
          = ((⟨after⟩ : GuardrailPipeline).inspect replacement stage).text := by
  induction gs using List.reverseRecOn with
  | nil => exact absurd hblocked (by simp [inspect])
  | append_singleton gs g ih =>
    rw [inspect_concat] at hblocked hreplacement ⊢
    cases hnext : (g.inspect ((⟨gs⟩ : GuardrailPipeline).inspect text stage).text stage).allowed with
    | false =>
      -- the last guardrail is the one that blocks
      refine ⟨gs, g, [], rfl, hnext, ?_, rfl, rfl⟩
      simpa [inspectNext, hnext] using hreplacement
    | true =>
      simp only [inspectNext, hnext, Bool.and_true, if_true] at hblocked hreplacement
      obtain ⟨before, g', after, rfl, hblocks, hne, hallowed, htext⟩ := ih hblocked hreplacement
      refine ⟨before, g', after ++ [g], by simp, hblocks, hne, ?_, ?_⟩
      · rw [inspect_concat]
        simp only [inspectNext, ← htext, hnext, hallowed, Bool.and_true]
      · rw [inspect_concat]
        simp only [inspectNext, ← htext]

end Himmy.Guardrails.GuardrailPipeline

namespace Himmy.Runtime

open Himmy.Guardrails

/-! ## Without the structured payload -/

def InferenceResponse.hideStructured (response : InferenceResponse) : InferenceResponse :=
  { response with outputStructured := .null }

def RunResult.hideStructured (result : RunResult) : RunResult :=
  { result with outputStructured := .null }

def StreamDelta.hideStructured (delta : StreamDelta) : StreamDelta :=
  { delta with response := delta.response.map InferenceResponse.hideStructured }

/-- Messages that differ in the structured payload of their metadata only. -/
structure Message.SameApart (m m' : Message) : Prop where
  role : m.role = m'.role
  content : m.content = m'.content
  metadata : ∀ key, key ≠ "output_structured" → m.metadata.find? key = m'.metadata.find? key

/-- Threads whose messages differ in structured payloads only. -/
structure ChatThread.SameApart (thread thread' : ChatThread) : Prop where
  messages : List.Forall₂ Message.SameApart thread.messages thread'.messages
  version : thread.version = thread'.version

/-- Turns whose results and threads differ in structured payloads only. -/
structure SameApart (turn turn' : RunResult × ChatThread) : Prop where
  result : turn.1.hideStructured = turn'.1.hideStructured
  thread : turn.2.SameApart turn'.2

theorem Message.SameApart.rfl {m : Message} : m.SameApart m := ⟨.refl _, .refl _, fun _ _ => .refl _⟩

theorem ChatThread.sameApart_append {m m' : Message} (h : m.SameApart m') (thread : ChatThread) :
    (thread.append [m]).SameApart (thread.append [m']) where
  messages := List.rel_append (List.forall₂_same.2 (fun _ _ => Message.SameApart.rfl))
    (.cons h .nil)
  version := .refl _

theorem ChatThread.SameApart.bump {thread thread' : ChatThread} (h : thread.SameApart thread') :
    thread.bump.SameApart thread'.bump := ⟨h.messages, congrArg (· + 1) h.version⟩

/-! ## Two answers -/

def InferenceResponse.SameButAnswer (response response' : InferenceResponse) : Prop :=
  ∃ text structured,
    response' = { response with outputText := text, outputStructured := structured }

/-- Two answers that a pipeline blocks and for which another text is shown, the same one. -/
structure BlockedAlike (pipeline : GuardrailPipeline) (raw raw' : String) : Prop where
  blocked : (pipeline.inspect raw "output").allowed = false
  blocked' : (pipeline.inspect raw' "output").allowed = false
  shown : applyGuardrail (some pipeline) "output" raw = applyGuardrail (some pipeline) "output" raw'
  withheld : applyGuardrail (some pipeline) "output" raw ≠ raw
  withheld' : applyGuardrail (some pipeline) "output" raw' ≠ raw'

def ShownForBlocked (pipeline : GuardrailPipeline) (raw shown : String) : Prop :=
  shown = outputBlockPlaceholder ∨
    ∃ before g after, pipeline.guardrails = before ++ g :: after ∧
      let given := ((⟨before⟩ : GuardrailPipeline).inspect raw "output").text
      let replacement := (g.inspect given "output").text
      (g.inspect given "output").allowed = false ∧ replacement ≠ given ∧
        ((⟨after⟩ : GuardrailPipeline).inspect replacement "output").allowed = true ∧
        shown = ((⟨after⟩ : GuardrailPipeline).inspect replacement "output").text

theorem shownForBlocked_applyGuardrail {pipeline : GuardrailPipeline} {raw : String}
    (h : (pipeline.inspect raw "output").allowed = false) :
    ShownForBlocked pipeline raw (applyGuardrail (some pipeline) "output" raw) := by
  cases hreplacement : (pipeline.inspect raw "output").blockReplacement with
  | false => exact .inl (by simp [applyGuardrail, h, hreplacement])
  | true =>
    have hshown : applyGuardrail (some pipeline) "output" raw
        = (pipeline.inspect raw "output").text := by
      simp [applyGuardrail, h, hreplacement]
    rw [hshown]
    exact .inr (GuardrailPipeline.replaced_of_blocked h hreplacement)

section Turns

variable {cfg : TurnConfig} {response response' : InferenceResponse}

theorem find?_turnMetadata (h : response.SameButAnswer response') (traceId : String)
    (rest : List (String × Value)) {key : String} (hkey : key ≠ "output_structured") :
    (Dict.ofList (response.turnMetadata traceId ++ rest)).find? key
      = (Dict.ofList (response'.turnMetadata traceId ++ rest)).find? key := by
  obtain ⟨text, structured, rfl⟩ := h
  rw [Dict.find?_ofList_append, Dict.find?_ofList_append]
  simp only [InferenceResponse.turnMetadata, Dict.find?_ofList_cons, Dict.find?_ofList_nil,
    if_neg hkey]
  rfl

/-- Two responses that differ in their answers only, with one text shown for both of them, which
    corrects both or none. -/
structure AnsweredAlike (cfg : TurnConfig) (response response' : InferenceResponse) : Prop where
  same : response.SameButAnswer response'
  shown : cfg.guardOutput response.answerText = cfg.guardOutput response'.answerText
  mark : InferenceResponse.guardedMark response.answerText (cfg.guardOutput response.answerText)
    = InferenceResponse.guardedMark response'.answerText (cfg.guardOutput response'.answerText)

theorem sameApart_finishRun (h : AnsweredAlike cfg response response') (thread : ChatThread)
    (isNewThread : Bool) : SameApart (finishRun cfg response thread isNewThread)
      (finishRun cfg response' thread isNewThread) := by
  have hmessage : Message.SameApart
      (response.runMessage cfg.traceId (cfg.guardOutput response.answerText))
      (response'.runMessage cfg.traceId (cfg.guardOutput response'.answerText)) := by
    refine ⟨rfl, by rw [InferenceResponse.runMessage, h.shown]; rfl, fun key hkey => ?_⟩
    simp only [InferenceResponse.runMessage, h.mark, List.append_assoc]
    rw [find?_turnMetadata h.same _ _ hkey]
    obtain ⟨text, structured, rfl⟩ := h.same
    rfl
  obtain ⟨text, structured, rfl⟩ := h.same
  have hthread := ChatThread.sameApart_append hmessage
    (appendToolMessages cfg.cap cfg.traceId response thread)
  refine ⟨?_, ?_⟩
  · simp only [finishRun, h.shown]
    rfl
  · cases isNewThread with
    | true => exact hthread
    | false => exact hthread.bump

theorem sameApart_finishContinue (h : AnsweredAlike cfg response response') (thread : ChatThread) :
    SameApart (finishContinue cfg response thread) (finishContinue cfg response' thread) := by
  have hmessage : Message.SameApart
      (response.continueMessage cfg.traceId (cfg.guardOutput response.answerText))
      (response'.continueMessage cfg.traceId (cfg.guardOutput response'.answerText)) := by
    refine ⟨rfl, by rw [InferenceResponse.continueMessage, h.shown]; rfl, fun key hkey => ?_⟩
    simp only [InferenceResponse.continueMessage, h.mark]
    rw [find?_turnMetadata h.same _ _ hkey]
  obtain ⟨text, structured, rfl⟩ := h.same
  have hthread := ChatThread.sameApart_append hmessage
    (appendToolMessages cfg.cap cfg.traceId response thread)
  refine ⟨?_, hthread.bump⟩
  simp only [finishContinue, h.shown]
  rfl

theorem continuationDeltas_eq {result result' : RunResult}
    (h : result.hideStructured = result'.hideStructured) (turn : Nat) :
    continuationDeltas turn result = continuationDeltas turn result' := by
  have hhidden : ∀ result : RunResult,
      continuationDeltas turn result = continuationDeltas turn result.hideStructured := fun _ => rfl
  rw [hhidden, h, ← hhidden]

theorem BlockedAlike.answeredAlike {pipeline : GuardrailPipeline} {raw raw' : String}
    (h : BlockedAlike pipeline raw raw') (hcfg : cfg.outputGuardrail = some pipeline)
    (hsame : response.SameButAnswer response') (hraw : response.answerText = some raw)
    (hraw' : response'.answerText = some raw') : AnsweredAlike cfg response response' where
  same := hsame
  shown := by simp only [hraw, hraw', TurnConfig.guardOutput, hcfg, Option.map_some, h.shown]
  mark := by
    simp only [hraw, hraw', TurnConfig.guardOutput, hcfg, Option.map_some,
      InferenceResponse.guardedMark, Option.some.injEq]
    rw [if_neg h.withheld.symm, if_neg h.withheld'.symm]

end Turns

section Streams

variable {cfg : TurnConfig} {pipeline : GuardrailPipeline} {response response' : InferenceResponse}

theorem streamAnswer_eq (hcfg : cfg.outputGuardrail = some pipeline) (response : InferenceResponse) :
    streamAnswer cfg response
      = applyGuardrail (some pipeline) "output" (response.outputText.getD "") := by
  simp [streamAnswer, TurnConfig.guardOutput, hcfg]

variable (hcfg : cfg.outputGuardrail = some pipeline) (hsame : response.SameButAnswer response')
  (h : BlockedAlike pipeline (response.outputText.getD "") (response'.outputText.getD ""))

include hcfg hsame h

theorem finishStream_eq (thread : ChatThread) :
    finishStream cfg response thread = finishStream cfg response' thread := by
  have hid : response.requestId = response'.requestId := by
    obtain ⟨text, structured, rfl⟩ := hsame
    rfl
  simp only [finishStream, streamAnswer_eq hcfg, InferenceResponse.streamMessage, hid, h.shown]
  simp only [InferenceResponse.guardedMark, Option.some.injEq]
  rw [if_neg (h.shown ▸ h.withheld.symm), if_neg h.withheld'.symm]

theorem lastDeltas_eq (requestId : String) {pieces pieces' : List String}
    (hpieces : pieces.length = pieces'.length) :
    (lastDeltas cfg (finalDelta requestId pieces response) response).map StreamDelta.hideStructured
      = (lastDeltas cfg (finalDelta requestId pieces' response') response').map
          StreamDelta.hideStructured := by
  have hhidden : ∀ shown, InferenceResponse.hideStructured { response with outputText := shown }
      = InferenceResponse.hideStructured { response' with outputText := shown } := by
    obtain ⟨text, structured, rfl⟩ := hsame
    exact fun _ => rfl
  have hwithheld : applyGuardrail (some pipeline) "output" (response'.outputText.getD "")
      ≠ response.outputText.getD "" := h.shown ▸ h.withheld
  simp only [lastDeltas, streamAnswer_eq hcfg, h.shown, finalDelta, hpieces, if_neg hwithheld,
    if_neg h.withheld']
  cases cfg.bufferOutput <;>
    simp only [StreamDelta.hideStructured, hhidden, if_true, Bool.false_eq_true, if_false,
      List.map_cons, List.map_nil, List.map_append, Option.map_some, Option.map_none]

end Streams

variable (suppresses : Bool)

def withhold : Guardrail where
  name := "blocklist"
  inspect text _ := { allowed := false, text := text }
  suppressesOutputContent := suppresses

def withholding : TurnConfig where
  outputGuardrail := some ⟨[withhold suppresses]⟩

def answered (text : Option String) (structured : Value) : InferenceResponse where
  requestId := "request-1"
  status := .success
  outputText := text
  outputStructured := structured

theorem blockedAlike_withhold {raw raw' : String}
    (h : raw ≠ outputBlockPlaceholder) (h' : raw' ≠ outputBlockPlaceholder) :
    BlockedAlike ⟨[withhold suppresses]⟩ raw raw' := by
  have hshown : ∀ text, applyGuardrail (some ⟨[withhold suppresses]⟩) "output" text
      = outputBlockPlaceholder := by
    intro text
    simp [applyGuardrail, GuardrailPipeline.inspect, GuardrailPipeline.inspectNext, withhold]
  exact ⟨rfl, rfl, by rw [hshown, hshown], by rw [hshown]; exact h.symm,
    by rw [hshown]; exact h'.symm⟩

end Himmy.Runtime
