import Mathlib.Data.List.Basic

/-! # Guardrail pipelines

A guardrail inspects a text and returns a verdict: the text, possibly another one, and whether it is
allowed. A pipeline hands the text from one guardrail to the next and blocks when one of them does.
The runtime never lets a blocked text through: it puts in its place what the last guardrail that
blocked made of the text, when that is another text, and a placeholder otherwise. -/

namespace Himmy.Guardrails

/-- `GuardrailVerdict`, apart from its triggers. -/
structure GuardrailVerdict where
  allowed : Bool := true
  text : String := ""
  reasons : List String := []
  flags : List String := []
  blockReplacement : Bool := false

/-- `Guardrail`. The stage is what the runtime passes as the context. -/
structure Guardrail where
  name : String
  inspect : String → String → GuardrailVerdict
  /-- `suppresses_output_content()`, where the guardrail has it -/
  suppressesOutputContent : Bool := false

structure GuardrailPipeline where
  guardrails : List Guardrail

namespace GuardrailPipeline

variable (pipeline : GuardrailPipeline)

def suppressesOutputContent : Bool :=
  pipeline.guardrails.any Guardrail.suppressesOutputContent

def inspectNext (stage : String) (verdict : GuardrailVerdict) (guardrail : Guardrail) :
    GuardrailVerdict :=
  let next := guardrail.inspect verdict.text stage
  { allowed := verdict.allowed && next.allowed
    text := next.text
    reasons := verdict.reasons ++ next.reasons
    flags := verdict.flags ++ next.flags
    blockReplacement :=
      if next.allowed then verdict.blockReplacement else next.text ≠ verdict.text }

def inspect (text stage : String) : GuardrailVerdict :=
  pipeline.guardrails.foldl (inspectNext stage) { text := text }

end GuardrailPipeline

def inputBlockPlaceholder : String :=
  "[blocked: this message was withheld by an input guardrail and not delivered]"

def outputBlockPlaceholder : String :=
  "I can't share that response: it was withheld by an output guardrail because it "
    ++ "contained blocked content."

def applyGuardrail (guardrail : Option GuardrailPipeline) (stage text : String) : String :=
  match guardrail with
  | none => text
  | some pipeline =>
    let verdict := pipeline.inspect text stage
    if verdict.allowed then verdict.text
    else if verdict.blockReplacement then verdict.text
    else if stage = "input" then inputBlockPlaceholder
    else outputBlockPlaceholder

end Himmy.Guardrails
