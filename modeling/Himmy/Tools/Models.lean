import Himmy.Inference.Values

/-! # Tool definitions

The catalog entry of a tool, as far as the execution of a call reads it, the answer of a policy
hook, and the normalized result of a call. -/

namespace Himmy.Tools

inductive ToolBackendKind where
  | «local»
  | http
  deriving DecidableEq

inductive HttpPaginationMode where
  | none
  | cursor
  | page
  | linkHeader
  deriving DecidableEq

structure HttpPaginationConfig where
  mode : HttpPaginationMode := .none
  itemsPath : String := ""
  cursorPath : String := ""
  maxPages : Int := 20

/-- `HttpToolConfig`, apart from what its requests are made of. -/
structure HttpToolConfig where
  method : String := "GET"
  egressAllowHosts : List String := []
  allowPrivateHosts : Bool := false
  pagination : HttpPaginationConfig := {}
  idempotencyArg : Option String := none

/-- The value of a retry hint, as `float(value)` reads it. -/
inductive HintNumber where
  | finite (q : Rat)
  /-- an infinity, or no number, of which there is no `int` -/
  | nonFinite
  /-- `float(value)` raises `TypeError` or `ValueError` -/
  | unreadable

structure ToolDefinition where
  name : String
  kind : ToolBackendKind
  argsJsonSchema : Dict Value := KeyedList.empty
  outputJsonSchema : Option (Dict Value) := none
  requiresApproval : Bool := false
  readOnly : Option Bool := none
  readOnlyAuthoritative : Bool := false
  retryHints : Dict HintNumber := KeyedList.empty
  httpConfig : Option HttpToolConfig := none

structure ToolInvocation where
  toolCallId : String
  toolName : String
  args : Dict Value := KeyedList.empty
  metadata : Dict Value := KeyedList.empty

structure ToolPolicyDecision where
  allow : Bool := true
  reason : Option String := none
  transformedArgs : Option (Dict Value) := none

inductive ToolErrorCode where
  | notFound
  | policyBlocked
  | capabilityDenied
  | timeout
  | rateLimited
  | providerUnavailable
  | invalidRequest
  | outputValidation
  | executionError
  | unknown
  deriving DecidableEq

def ToolErrorCode.value : ToolErrorCode → String
  | .notFound => "NOT_FOUND"
  | .policyBlocked => "POLICY_BLOCKED"
  | .capabilityDenied => "CAPABILITY_DENIED"
  | .timeout => "TIMEOUT"
  | .rateLimited => "RATE_LIMITED"
  | .providerUnavailable => "PROVIDER_UNAVAILABLE"
  | .invalidRequest => "INVALID_REQUEST"
  | .outputValidation => "OUTPUT_VALIDATION"
  | .executionError => "EXECUTION_ERROR"
  | .unknown => "UNKNOWN"

theorem ToolErrorCode.value_injective : Function.Injective ToolErrorCode.value := by
  intro a b h
  cases a <;> cases b <;> first | rfl | exact absurd h (by decide)

def retryableToolCodes : List ToolErrorCode := [.rateLimited, .timeout, .providerUnavailable]

structure ToolDispatchError where
  code : ToolErrorCode
  message : String

structure ToolExecutionResult where
  toolCallId : String
  toolName : String
  outcome : String
  result : Value := .null
  errorCode : Option ToolErrorCode := none
  errorMessage : Option String := none

/-! ## `_RetryPolicy` -/

/-- `_num(key, default)`, of which `int` is taken: no number when that raises. -/
def hintInt (hints : Dict HintNumber) (key : String) (default : Int) : Option Int :=
  match hints.find? key with
  | none => some default
  | some .unreadable => some default
  | some .nonFinite => none
  | some (.finite q) => some (q.num.tdiv q.den)

/-- `_RetryPolicy.from_hints(hints).max_attempts`. -/
def maxAttempts (hints : Dict HintNumber) : Option Nat :=
  let attempts :=
    if (hints.find? "max_attempts").isSome then hintInt hints "max_attempts" 1
    else if (hints.find? "max_retries").isSome then (hintInt hints "max_retries" 0).map (· + 1)
    else some 1
  attempts.map (fun n => (max 1 n).toNat)

end Himmy.Tools
