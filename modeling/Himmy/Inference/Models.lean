import Himmy.Inference.Values

/-! # Inference requests

The request of a model call, as far as the response cache and the providers read it. -/

namespace Himmy

inductive ResponseFormat where
  | text
  | jsonObject
  | structuredOutput
  | autoTools
  | workflow
  | tool
  deriving DecidableEq

def ResponseFormat.value : ResponseFormat → String
  | .text => "TEXT"
  | .jsonObject => "JSON_OBJECT"
  | .structuredOutput => "STRUCTURED_OUTPUT"
  | .autoTools => "AUTO_TOOLS"
  | .workflow => "WORKFLOW"
  | .tool => "TOOL"

theorem ResponseFormat.value_injective : Function.Injective ResponseFormat.value := by
  intro f g h
  revert h
  cases f <;> cases g <;> decide

structure InferenceMessage where
  role : String
  content : String := ""
  metadata : Dict Value := KeyedList.empty
  toolCallId : Option String := none
  name : Option String := none

def InferenceMessage.metadataOr (m : InferenceMessage) (value : Option String) (k : String) :
    Option Value :=
  match orNone value with
  | some s => some (.str s)
  | none => (m.metadata.find? k).filter Value.truthy

/-- `_tool_use_block`: the tool call that a tool message answers. -/
def InferenceMessage.toolUseBlock (m : InferenceMessage) : Option Value :=
  (m.metadataOr m.toolCallId "tool_call_id").map fun callId =>
    .dict [
      ("type", .str "tool_use"),
      ("id", .str callId.pyStr),
      ("name", (m.metadataOr m.name "tool_name").getD (.str "")),
      ("input", match m.metadata.find? "tool_args" with
        | some (.dict args) => .dict args
        | _ => .dict [])]

structure BoundTool where
  name : String
  description : String := ""
  argsJsonSchema : Dict Value := KeyedList.empty

structure WorkflowDefinition where
  steps : List String := []
  deriving DecidableEq

structure WorkflowState where
  definition : WorkflowDefinition
  currentStep : Int := 0
  deriving DecidableEq

/-- `workflow.model_dump()`. -/
def WorkflowState.dump (workflow : WorkflowState) : Value := .dict [
  ("definition", .dict [("steps", .list (workflow.definition.steps.map .str))]),
  ("current_step", .int workflow.currentStep)]

structure InferenceRequest where
  modelKey : String := "default"
  messages : List InferenceMessage := []
  responseFormat : Option ResponseFormat := none
  outputJsonSchema : Option (Dict Value) := none
  workflow : Option WorkflowState := none
  generationParams : Dict Value := KeyedList.empty
  seed : Option Int := none
  routeOverride : Option String := none
  metadata : Dict Value := KeyedList.empty
  boundTools : List BoundTool := []
  toolNamesOverride : Option (List String) := none

end Himmy
