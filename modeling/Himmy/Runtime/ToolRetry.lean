import Himmy.Runtime.Turn
import Himmy.Tools.Requests

/-! # The retries of a tool call

The runtime wraps the executor of the tool service, which retries for itself, in a retry of its own.
Each retry starts from the requests that the ones before have sent, so what a request ended in
before another one followed it is an invariant of both loops. -/

namespace Himmy.Runtime

open Himmy.Tools

/-! ## The wrapped executor -/

def resultMetadata (res : Tools.ToolExecutionResult) : Dict Value :=
  Dict.set (Dict.set KeyedList.empty "error_code"
      ((res.errorCode.map (fun code => Value.str code.value)).getD .null))
    "error_message" (Value.ofOption res.errorMessage)

def returnRecord (res : Tools.ToolExecutionResult) : ToolReturnRecord where
  toolCallId := res.toolCallId
  toolName := res.toolName
  content := res.result
  outcome := res.outcome
  metadata := resultMetadata res

/-- The tool service of a runtime, and the ids and the name check that the runtime adds. -/
structure ToolRuntime where
  service : ToolService
  newUuid : Nat → String := fun _ => ""
  classifyParallelSafe : String → Bool := fun _ => false

namespace ToolRuntime

variable (runtime : ToolRuntime) (upstream : Upstream) (toolName : String)

def toolExecutor (args : Dict Value) (call sent : Nat) :
    Option ToolReturnRecord × Nat :=
  let invocation : ToolInvocation :=
    { toolCallId := runtime.newUuid call, toolName := toolName, args := args }
  let out := runtime.service.executeInvocation upstream call invocation sent
  (out.1.map returnRecord, out.2)

def toolIsReadOnly : Bool :=
  match runtime.service.registry toolName with
  | none => false
  | some definition =>
    if definition.readOnlyAuthoritative then definition.readOnly.getD false
    else if definition.httpConfig.isSome then false
    else if definition.readOnly = some false then false
    else runtime.classifyParallelSafe toolName

def transientToolCodes : List String := retryableToolCodes.map ToolErrorCode.value

def executeAgain : Option ToolReturnRecord → Bool
  | none => false
  | some record =>
    match record.metadata.find? "error_code" with
    | some (.str code) =>
      record.outcome = "failed" && code ∈ transientToolCodes
        && (code ≠ ToolErrorCode.timeout.value || runtime.toolIsReadOnly toolName)
    | _ => false

def defaultToolRetryAttempts : Nat := 2

/-- The extra attempts that `tool_retry_attempts` allows. -/
def toolRetries : Option Int → Nat
  | none => defaultToolRetryAttempts
  | some attempts => (max 0 attempts).toNat

/-- A call of the executor that `wrap_executor_with_retry` returns. -/
def executeWithRetry (toolRetryAttempts : Option Int) (toolName : String) (args : Dict Value) :
    Option ToolReturnRecord × Nat :=
  retry (runtime.executeAgain toolName) (runtime.toolExecutor upstream toolName args)
    (toolRetries toolRetryAttempts) 0 0

end ToolRuntime

/-! ## The requests of a wrapped call -/

theorem code_of_finished {service : ToolService} {call : Nat} {definition : ToolDefinition}
    {invocation : ToolInvocation} {raw : Value} {code : ToolErrorCode}
    (h : (service.finished call definition invocation raw).errorCode = some code) :
    code ∉ retryableToolCodes := by
  unfold ToolService.finished at h
  dsimp only at h
  split at h
  · rw [← Option.some.inj h]
    simp [retryableToolCodes]
  · split at h
    · rw [← Option.some.inj h]
      simp [retryableToolCodes]
    · cases h

theorem code_of_executeAgain {runtime : ToolRuntime} {toolName : String}
    {res : Tools.ToolExecutionResult} (h : runtime.executeAgain toolName (some (returnRecord res)) = true) :
    ∃ code ∈ retryableToolCodes, res.errorCode = some code ∧
      (code = .timeout → runtime.toolIsReadOnly toolName = true) := by
  have hfind : (returnRecord res).metadata.find? "error_code"
      = some ((res.errorCode.map (fun code => Value.str code.value)).getD .null) := by
    rw [returnRecord, resultMetadata, Dict.find?_set_of_ne _ _ (by decide), Dict.find?_set_self]
  simp only [ToolRuntime.executeAgain, hfind] at h
  cases hcode : res.errorCode with
  | none => simp [hcode] at h
  | some code =>
    simp only [hcode, Option.map_some, Option.getD_some, Bool.and_eq_true, Bool.or_eq_true,
      decide_eq_true_eq, ToolRuntime.transientToolCodes, List.mem_map] at h
    obtain ⟨⟨-, other, hother, hvalue⟩, htimeout⟩ := h
    obtain rfl := ToolErrorCode.value_injective hvalue
    refine ⟨other, hother, rfl, ?_⟩
    rintro rfl
    exact htimeout.resolve_left (fun hne => hne rfl)

/-- The ends of a request that another request may follow, when the runtime has `retries`. -/
def MayBeFollowed (service : ToolService) (definition : ToolDefinition) (cfg : HttpToolConfig)
    (retries : Nat) (e : RequestEnd) : Prop :=
  e.code = some .rateLimited
    ∨ (e.code = some .timeout ∧ definition.readOnlyAuthoritative = true
        ∧ definition.readOnly = some true)
    ∨ LeadsOn service cfg e
    ∨ (e.code = some .providerUnavailable ∧ 0 < retries)

section Calls

variable {runtime : ToolRuntime} {toolName : String} {args : Dict Value}
  {definition : ToolDefinition} {cfg : HttpToolConfig}

/-- The arguments of no execution of the call carry an idempotency key. -/
def NoKey (runtime : ToolRuntime) (toolName : String) (args : Dict Value)
    (definition : ToolDefinition) (cfg : HttpToolConfig) : Prop :=
  ∀ call dispatched, runtime.service.admitted call definition
      { toolCallId := runtime.newUuid call, toolName := toolName, args := args } = .ok dispatched →
    carriesKey cfg dispatched = false

section

variable (hdef : runtime.service.registry toolName = some definition)

include hdef

theorem readOnly_of_toolIsReadOnly
    (hcfg : definition.httpConfig = some cfg) (h : runtime.toolIsReadOnly toolName = true) :
    definition.readOnlyAuthoritative = true ∧ definition.readOnly = some true := by
  simp only [ToolRuntime.toolIsReadOnly, hdef, hcfg, Option.isSome_some] at h
  split_ifs at h with hauth
  refine ⟨hauth, ?_⟩
  cases hread : definition.readOnly with
  | none => simp [hread] at h
  | some b => simpa [hread] using h

theorem mayBeFollowed_of_retryable (hcfg : definition.httpConfig = some cfg) {code : ToolErrorCode}
    (hcode : code ∈ retryableToolCodes)
    (htimeout : code = .timeout → runtime.toolIsReadOnly toolName = true) {retries : Nat}
    (hretries : 0 < retries) {e : RequestEnd} (he : e.code = some code) :
    MayBeFollowed runtime.service definition cfg retries e := by
  simp only [retryableToolCodes, List.mem_cons, List.not_mem_nil, or_false] at hcode
  rcases hcode with rfl | rfl | rfl
  · exact Or.inl he
  · exact Or.inr (Or.inl ⟨he, readOnly_of_toolIsReadOnly hdef hcfg (htimeout rfl)⟩)
  · exact Or.inr (Or.inr (Or.inr ⟨he, hretries⟩))

theorem followed_toolExecutor
    (hkind : definition.kind = .http) (hcfg : definition.httpConfig = some cfg)
    (hmethod : pyUpper cfg.method ∉ safeHttpMethods)
    (hkey : NoKey runtime toolName args definition cfg) (upstream : Upstream) (retries call : Nat)
    {sent : Nat}
    (h : AllFollowed (MayBeFollowed runtime.service definition cfg retries) upstream sent) :
    let out := runtime.toolExecutor upstream toolName args call sent
    (∀ i, i + 1 < out.2 → MayBeFollowed runtime.service definition cfg retries (upstream i)) ∧
      (runtime.executeAgain toolName out.1 = true → 0 < retries →
        AllFollowed (MayBeFollowed runtime.service definition cfg retries) upstream out.2) := by
  have hstay : ∀ i, i + 1 < sent →
      MayBeFollowed runtime.service definition cfg retries (upstream i) :=
    fun i hi => h i (by omega)
  simp only [ToolRuntime.toolExecutor, ToolService.executeInvocation, hdef]
  cases hadmitted : runtime.service.admitted call definition
      { toolCallId := runtime.newUuid call, toolName := toolName, args := args } with
  | error failure => exact ⟨hstay, fun _ _ => h⟩
  | ok dispatched =>
    dsimp only
    cases maxAttempts definition.retryHints with
    | none => exact ⟨hstay, fun _ _ => h⟩
    | some attempts =>
      dsimp only
      have hanswered := answered_dispatchWithRetry runtime.service definition cfg dispatched
        attempts hkind hcfg hmethod (hkey call dispatched hadmitted) (fun e => Or.inl)
        (fun e he hauth hread => Or.inr (Or.inl ⟨he, hauth, hread⟩))
        (fun e he => Or.inr (Or.inr (Or.inl he))) h
      cases hraw : (dispatchWithRetry runtime.service upstream definition dispatched attempts
          sent).1 with
      | ok raw =>
        refine ⟨hanswered.earlier, fun hagain _ => ?_⟩
        obtain ⟨code, hretry, hcode, -⟩ := code_of_executeAgain hagain
        exact absurd hretry (code_of_finished hcode)
      | error e =>
        refine ⟨hanswered.earlier, fun hagain hretries => ?_⟩
        obtain ⟨code, hretry, hcode, htimeout⟩ := code_of_executeAgain hagain
        obtain rfl : e.code = code := Option.some.inj hcode
        exact hanswered.allFollowed hraw hretry (fun r hr =>
          mayBeFollowed_of_retryable hdef hcfg hretry htimeout hretries hr)

/-- Of a call of an HTTP tool whose method is not safe, with no idempotency key, every request but
    the last ended in a rate limit, in the timeout of a tool whose author asserts that it only reads,
    in a page that leads to the next one, or, when the runtime retries, in an unavailable
    provider. -/
theorem mayBeFollowed_of_sent
    (hkind : definition.kind = .http) (hcfg : definition.httpConfig = some cfg)
    (hmethod : pyUpper cfg.method ∉ safeHttpMethods)
    (hkey : NoKey runtime toolName args definition cfg) (upstream : Upstream)
    (toolRetryAttempts : Option Int) {i j : Nat} (hij : i < j)
    (hj : j < (runtime.executeWithRetry upstream toolRetryAttempts toolName args).2) :
    MayBeFollowed runtime.service definition cfg (ToolRuntime.toolRetries toolRetryAttempts)
      (upstream i) := by
  have hexecutor := followed_toolExecutor hdef hkind hcfg hmethod hkey upstream
  suffices hearlier : ∀ i, i + 1 < (runtime.executeWithRetry upstream toolRetryAttempts toolName
      args).2 → MayBeFollowed runtime.service definition cfg
        (ToolRuntime.toolRetries toolRetryAttempts) (upstream i) from hearlier i (by omega)
  unfold ToolRuntime.executeWithRetry
  cases ToolRuntime.toolRetries toolRetryAttempts with
  | zero => exact (hexecutor 0 0 allFollowed_zero).1
  | succ retries =>
    refine retry_rule
      (P := fun _ sent => AllFollowed
        (MayBeFollowed runtime.service definition cfg (retries + 1)) upstream sent)
      (Q := fun _ sent => ∀ i, i + 1 < sent →
        MayBeFollowed runtime.service definition cfg (retries + 1) (upstream i)) ?_ ?_ _ allFollowed_zero
    · intro call sent h
      exact (hexecutor (retries + 1) call h).1
    · intro call sent h hagain
      exact (hexecutor (retries + 1) call h).2 hagain retries.succ_pos

end

end Calls

/-- `POST /search`, which its author asserts to only read, or does not. -/
def searchTool (asserted : Bool) (pagination : HttpPaginationConfig) : ToolDefinition where
  name := "search"
  kind := .http
  readOnly := some asserted
  readOnlyAuthoritative := asserted
  httpConfig := some { method := "POST", pagination := pagination }

def searchRuntime (asserted : Bool) (pagination : HttpPaginationConfig) : ToolRuntime where
  service :=
    { registry := fun name =>
        if name = "search" then some (searchTool asserted pagination) else none }

def limitedOnce : Upstream
  | 0 => .response { statusCode := 429 }
  | _ => .response { statusCode := 200 }

theorem mayBeFollowed_of_sent_search :
    1 < ((searchRuntime false {}).executeWithRetry limitedOnce none "search" KeyedList.empty).2 ∧
      MayBeFollowed (searchRuntime false {}).service (searchTool false {}) { method := "POST" } 2
        (limitedOnce 0) := by
  have hsent : 1 < ((searchRuntime false {}).executeWithRetry limitedOnce none "search"
      KeyedList.empty).2 := by decide
  exact ⟨hsent, mayBeFollowed_of_sent rfl rfl rfl (by decide) (fun _ _ _ => rfl) limitedOnce none
    Nat.zero_lt_one hsent⟩

def SentOnce (runtime : ToolRuntime) (upstream : Upstream) (toolRetryAttempts : Option Int)
    (toolName : String) (args : Dict Value) : Prop :=
  ∀ i j, i < j → j < (runtime.executeWithRetry upstream toolRetryAttempts toolName args).2 →
    (upstream i).code = some .rateLimited

/-- A search that is asserted to only read is sent again when it times out, a paginated one after
    each page that is not empty, and any search when the provider is unavailable. -/
theorem search_not_sentOnce :
    ¬ SentOnce (searchRuntime true {}) (fun _ => .timedOut "ReadTimeout") none "search"
        KeyedList.empty ∧ ¬ SentOnce (searchRuntime false { mode := .page })
        (fun _ => .response { statusCode := 200, json := some (.list [.null]) }) none "search"
        KeyedList.empty ∧
      ¬ SentOnce (searchRuntime false {}) (fun _ => .response { statusCode := 503 }) none "search"
        KeyedList.empty := by
  refine ⟨fun h => ?_, fun h => ?_, fun h => ?_⟩
  · exact absurd (h 0 1 Nat.zero_lt_one (by decide)) (by decide)
  · exact absurd (h 0 1 Nat.zero_lt_one (by decide)) (by decide)
  · exact absurd (h 0 1 Nat.zero_lt_one (by decide)) (by decide)

end Himmy.Runtime
