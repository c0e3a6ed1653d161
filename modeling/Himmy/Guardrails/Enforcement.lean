import Himmy.Guardrails.Pipeline

/-! # What is put in place of a blocked text

Whether a block supplied a replacement is one flag of the pipeline, and the last guardrail that
blocks sets it. An earlier one may have left the text as it is, and guardrails behind the last one
rewrite the replacement. So a block is enforced exactly when the last guardrail that blocks leaves
its text alone, and the placeholder is shown, or when what is left of its replacement passes every
guardrail that blocked (`enforced_iff`). -/

namespace Himmy.Guardrails

section

variable (stage : String)

def rewriteAll (gs : List Guardrail) (text : String) : String :=
  gs.foldl (fun text g => (g.inspect text stage).text) text

def blockers : List Guardrail → String → List Guardrail
  | [], _ => []
  | g :: gs, text =>
    let verdict := g.inspect text stage
    if verdict.allowed then blockers gs verdict.text else g :: blockers gs verdict.text

/-- A block: the text that reached the guardrail, what it made of it, and the guardrails behind. -/
structure Block where
  given : String
  made : String
  behind : List Guardrail

def lastBlock : List Guardrail → String → Option Block
  | [], _ => none
  | g :: gs, text =>
    let verdict := g.inspect text stage
    (lastBlock gs verdict.text).or
      (if verdict.allowed then none else some { given := text, made := verdict.text, behind := gs })

def placeholder : String := if stage = "input" then inputBlockPlaceholder else outputBlockPlaceholder

/-- What is returned when a guardrail blocks is the placeholder, or a text that none of those which
    blocked would block; when none blocks, it is what all of them make of the text. -/
def Enforced (gs : List Guardrail) (text : String) : Prop :=
  let returned := applyGuardrail (some ⟨gs⟩) stage text
  (blockers stage gs text ≠ [] → returned = placeholder stage
      ∨ ∀ g ∈ blockers stage gs text, (g.inspect returned stage).allowed = true)
    ∧ (blockers stage gs text = [] → returned = rewriteAll stage gs text)

end

section

variable {stage : String}

theorem lastBlock_eq_none_iff {gs : List Guardrail} {text : String} :
    lastBlock stage gs text = none ↔ blockers stage gs text = [] := by
  induction gs generalizing text with
  | nil => simp [lastBlock, blockers]
  | cons g gs ih =>
    rw [lastBlock, blockers, Option.or_eq_none_iff, ih]
    split_ifs <;> simp

theorem rewriteAll_of_lastBlock {gs : List Guardrail} {text : String} {b : Block}
    (h : lastBlock stage gs text = some b) :
    rewriteAll stage gs text = rewriteAll stage b.behind b.made := by
  induction gs generalizing text with
  | nil => simp [lastBlock] at h
  | cons g gs ih =>
    rw [lastBlock, Option.or_eq_some_iff] at h
    rcases h with h | ⟨-, h⟩
    · exact ih h
    · split_ifs at h
      cases h
      rfl

variable (gs : List Guardrail)

variable (stage) in
theorem foldl_inspectNext (verdict : GuardrailVerdict) :
    let final := gs.foldl (GuardrailPipeline.inspectNext stage) verdict
    final.text = rewriteAll stage gs verdict.text
      ∧ final.allowed = (verdict.allowed && (blockers stage gs verdict.text).isEmpty)
      ∧ final.blockReplacement = (lastBlock stage gs verdict.text).elim verdict.blockReplacement
          (fun b => decide (b.made ≠ b.given)) := by
  induction gs generalizing verdict with
  | nil => simp [rewriteAll, blockers, lastBlock]
  | cons g gs ih =>
    obtain ⟨htext, hallowed, hreplacement⟩ := ih (GuardrailPipeline.inspectNext stage verdict g)
    refine ⟨htext, ?_, ?_⟩
    · rw [List.foldl_cons, hallowed, blockers]
      simp only [GuardrailPipeline.inspectNext]
      split_ifs with hg <;> simp [hg]
    · rw [List.foldl_cons, hreplacement, lastBlock]
      simp only [GuardrailPipeline.inspectNext]
      cases lastBlock stage gs (g.inspect verdict.text stage).text with
      | some b => rfl
      | none => split_ifs <;> rfl

theorem inspect_allowed (text : String) :
    ((⟨gs⟩ : GuardrailPipeline).inspect text stage).allowed = (blockers stage gs text).isEmpty := by
  have h := (foldl_inspectNext stage gs { text := text }).2.1
  exact h.trans (Bool.true_and _)

theorem inspect_text (text : String) :
    ((⟨gs⟩ : GuardrailPipeline).inspect text stage).text = rewriteAll stage gs text :=
  (foldl_inspectNext stage gs { text := text }).1

variable {gs : List Guardrail} {text : String}

theorem inspect_blockReplacement {b : Block}
    (h : lastBlock stage gs text = some b) :
    ((⟨gs⟩ : GuardrailPipeline).inspect text stage).blockReplacement = decide (b.made ≠ b.given) := by
  have hfinal := (foldl_inspectNext stage gs { text := text }).2.2
  rw [h] at hfinal
  exact hfinal

theorem applyGuardrail_of_allowed
    (h : blockers stage gs text = []) :
    applyGuardrail (some ⟨gs⟩) stage text = rewriteAll stage gs text := by
  have hallowed : ((⟨gs⟩ : GuardrailPipeline).inspect text stage).allowed = true := by
    rw [inspect_allowed, h]
    rfl
  simp only [applyGuardrail, hallowed, if_true, inspect_text]

theorem applyGuardrail_of_blocked {b : Block}
    (h : lastBlock stage gs text = some b) : applyGuardrail (some ⟨gs⟩) stage text
      = if b.made = b.given then placeholder stage else rewriteAll stage b.behind b.made := by
  have hblocked : ((⟨gs⟩ : GuardrailPipeline).inspect text stage).allowed = false := by
    rw [inspect_allowed, List.isEmpty_eq_false_iff]
    intro hnil
    rw [lastBlock_eq_none_iff.2 hnil] at h
    cases h
  simp only [applyGuardrail, hblocked, inspect_blockReplacement h, inspect_text,
    rewriteAll_of_lastBlock h, placeholder]
  by_cases hmade : b.made = b.given <;> simp [hmade]

/-- A block is enforced exactly when the last guardrail that blocks leaves its text alone, or what the
    ones behind it leave of its replacement passes every guardrail that blocked. -/
theorem enforced_iff (gs : List Guardrail) (text : String) :
    Enforced stage gs text ↔ ∀ b ∈ lastBlock stage gs text, b.made = b.given
      ∨ rewriteAll stage b.behind b.made = placeholder stage
      ∨ ∀ g ∈ blockers stage gs text, (g.inspect (rewriteAll stage b.behind b.made) stage).allowed = true := by
  unfold Enforced
  cases hlast : lastBlock stage gs text with
  | none =>
    have hnil := lastBlock_eq_none_iff.1 hlast
    simp [hnil, applyGuardrail_of_allowed hnil]
  | some b =>
    have hne : blockers stage gs text ≠ [] := by
      intro hnil
      rw [lastBlock_eq_none_iff.2 hnil] at hlast
      cases hlast
    rw [applyGuardrail_of_blocked hlast]
    by_cases hmade : b.made = b.given
    · simp [hne, hmade]
    · simp [hne, hmade]

end

private def blocklist : Guardrail where
  name := "blocklist"
  inspect := fun text _ => { allowed := !("bomb".toList.isPrefixOf text.toList), text := text }

private def withholding : Guardrail where
  name := "withholding"
  inspect := fun text _ =>
    if text = "bomb 4111" then { allowed := false, text := "bomb [card]" } else { text := text }

/-- The flag of the second block hides that the first one supplied no replacement: the text that the
    blocklist blocked is returned. -/
theorem not_enforced_blocklist : ¬ Enforced "output" [blocklist, withholding] "bomb 4111"
    ∧ applyGuardrail (some ⟨[blocklist, withholding]⟩) "output" "bomb 4111" = "bomb [card]" := by
  have hreturned : applyGuardrail (some ⟨[blocklist, withholding]⟩) "output" "bomb 4111" = "bomb [card]" := by
    decide +kernel
  refine ⟨fun h => ?_, hreturned⟩
  have hblockers : blockers "output" [blocklist, withholding] "bomb 4111" = [blocklist, withholding] := rfl
  have henforced := h.1
  rw [hreturned, hblockers] at henforced
  rcases henforced (List.cons_ne_nil _ _) with hplaceholder | hpass
  · exact absurd hplaceholder (by decide +kernel)
  · exact absurd (hpass blocklist List.mem_cons_self) (by decide +kernel)

end Himmy.Guardrails
