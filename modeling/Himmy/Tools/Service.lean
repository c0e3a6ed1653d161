import Himmy.Library.Retry
import Himmy.Tools.Models

/-! # The tool service

`_execute_invocation` of the tool service: the gates, the dispatch with its bounded retry, and what
becomes of the answer. An upstream is what it makes of each request that reaches it, in the order
in which they are sent; every function that sends requests takes the number of those sent so far
and returns the number after it. The waits between attempts take time and nothing else. -/

namespace Himmy.Tools

/-- An HTTP response, as far as it is read. -/
structure HttpResponse where
  statusCode : Nat
  /-- `response.json()`, where it does not raise -/
  json : Option Value := none
  text : String := ""
  link : String := ""
  location : String := ""

/-- What a request ends in. -/
inductive RequestEnd where
  /-- the pinned transport refuses to connect -/
  | refused (message : String)
  /-- `httpx.TimeoutException` -/
  | timedOut (exception : String)
  /-- the deadline of the dispatch passes while the request is under way -/
  | deadline
  /-- another `httpx.HTTPError`, such as a connection that breaks -/
  | failed (exception : String)
  | raised (message : String)
  | response (response : HttpResponse)

abbrev Upstream := Nat → RequestEnd

/-- `ToolService`, with what is not its own code: the schema validation, the URL and SSRF guards,
    the local handlers and the hooks, which may answer otherwise each time they are called. -/
structure ToolService where
  registry : String → Option ToolDefinition
  handlerFor : String → Option (Dict Value → Except ToolDispatchError Value) := fun _ => none
  /-- the effective authorizer, when there is one, allows the definition -/
  authorizes : ToolDefinition → Bool := fun _ => true
  lenientArgs : Bool := false
  coerceLenientArgs : Dict Value → Dict Value → Dict Value := fun args _ => args
  validateAgainstSchema : Value → Dict Value → Option String := fun _ _ => none
  schemaHint : Dict Value → String := fun _ => ""
  preHook : Option (Nat → ToolInvocation → ToolDefinition → Except String ToolPolicyDecision)
    := none
  postHook : Option (Nat → ToolExecutionResult → ToolDefinition → Except String (Option Value))
    := none
  /-- the effective timeout of a tool, with one decimal -/
  timeoutText : ToolDefinition → String := fun _ => "15.0"
  /-- the URL of a call, or why it is refused -/
  requestUrl : HttpToolConfig → Dict Value → Except String String := fun _ _ => .ok ""
  linkTargetAllowed : String → String → List String → Bool := fun _ _ _ => true
  guardUrl : String → HttpToolConfig → Except String Unit := fun _ _ => .ok ()

def quoted (text : String) : String := (Value.str text).pyRepr

/-! ## HTTP requests -/

def httpRequest (timeoutMessage : String) : RequestEnd → Except ToolDispatchError HttpResponse
  | .refused message => .error ⟨.invalidRequest, message⟩
  | .timedOut exception => .error ⟨.timeout, "request timed out: " ++ exception⟩
  | .deadline => .error ⟨.timeout, timeoutMessage⟩
  | .failed exception => .error ⟨.providerUnavailable, "request failed: " ++ exception⟩
  | .raised message => .error ⟨.executionError, message⟩
  | .response r =>
    let status := toString r.statusCode
    if r.statusCode = 429 then .error ⟨.rateLimited, "upstream returned " ++ status⟩
    else if 500 ≤ r.statusCode then .error ⟨.providerUnavailable, "upstream returned " ++ status⟩
    else if 300 ≤ r.statusCode && r.statusCode < 400 then
      .error ⟨.invalidRequest, "upstream returned a redirect (" ++ status ++ ")"
        ++ (if r.location = "" then "" else " to " ++ r.location)
        ++ "; point the tool's base_url/path at the final location"⟩
    else if 400 ≤ r.statusCode then .error ⟨.invalidRequest, "upstream returned " ++ status⟩
    else .ok r

def payload (r : HttpResponse) : Value := r.json.getD (.dict [("text", .str r.text)])

/-- `current[segment]` of a dictionary that has it. -/
def member (segment : String) : Value → Option Value
  | .dict kvs => (kvs.find? (fun kv => kv.1 = segment)).map Prod.snd
  | _ => none

def dig (data : Value) (dottedPath : String) : Value :=
  if dottedPath = "" then data
  else (((dottedPath.toList.splitOn '.').map String.ofList).foldl
    (fun current segment => current.bind (member segment)) (some data)).getD .null

def nextLink (linkHeader : String) : Option String :=
  (linkHeader.toList.splitOn ',').findSome? (fun part =>
    match part.splitOn ';' with
    | first :: attrs =>
      let target := pyStrip isPySpace (pyStrip (fun c => c = '<' || c = '>') (pyStrip isPySpace first))
      let isNext (attr : List Char) : Bool :=
        let attr := pyStrip isPySpace attr
        let key := pyStrip isPySpace (attr.takeWhile (· ≠ '='))
        let value := (attr.dropWhile (· ≠ '=')).drop 1
        pyLower (String.ofList key) = "rel"
          && pyStrip (· = '"') (pyStrip isPySpace value) = "next".toList
      if target ≠ [] && attrs.any isNext then some (String.ofList target) else none
    | [] => none)

section Requests

variable (service : ToolService) (definition : ToolDefinition) (cfg : HttpToolConfig)
  (upstream : Upstream)

def timeoutMessage : String :=
  "tool " ++ quoted definition.name ++ " exceeded " ++ service.timeoutText definition
    ++ "s timeout"

def sendRequest (sent : Nat) : Except ToolDispatchError HttpResponse × Nat :=
  (httpRequest (timeoutMessage service definition) (upstream sent), sent + 1)

def httpSingle (sent : Nat) : Except ToolDispatchError Value × Nat :=
  let out := sendRequest service definition upstream sent
  (out.1.map payload, out.2)

def collect (r : HttpResponse) (collected : List Value) : List Value :=
  match dig (payload r) cfg.pagination.itemsPath with
  | .list items => collected ++ items
  | .null => collected
  | item => collected ++ [item]

def nextPage (r : HttpResponse) (url : String) : Except ToolDispatchError (Option String) :=
  match cfg.pagination.mode with
  | .none => .ok none
  | .cursor =>
    .ok (if (dig (payload r) cfg.pagination.cursorPath).truthy then some url else none)
  | .page =>
    match dig (payload r) cfg.pagination.itemsPath with
    | .list (_ :: _) => .ok (some url)
    | _ => .ok none
  | .linkHeader =>
    match nextLink r.link with
    | none => .ok none
    | some link =>
      if !service.linkTargetAllowed link url cfg.egressAllowHosts then
        .error ⟨.invalidRequest, "pagination Link target refused: cross-host rel=\"next\" "
          ++ "is not same-origin and not on the egress allow-list"⟩
      else match service.guardUrl link cfg with
        | .error message =>
          .error ⟨.invalidRequest, "pagination Link target refused: " ++ message⟩
        | .ok () => .ok (some link)

/-- What `_http_paginated` returns. -/
def pagesResult (collected : List Value) (pagesFetched : Nat) : Value :=
  .dict [("items", .list collected), ("page_count", .int pagesFetched)]

/-- The loop of `_http_paginated`, with the pages that it may still fetch. -/
def httpPages : Nat → String → List Value → Nat → Nat → Except ToolDispatchError Value × Nat
  | 0, _, collected, fetched, sent => (.ok (pagesResult collected fetched), sent)
  | pages + 1, url, collected, fetched, sent =>
    match sendRequest service definition upstream sent with
    | (.error e, sent) => (.error e, sent)
    | (.ok r, sent) =>
      let collected := collect cfg r collected
      match nextPage service cfg r url with
      | .error e => (.error e, sent)
      | .ok none => (.ok (pagesResult collected (fetched + 1)), sent)
      | .ok (some url) => httpPages pages url collected (fetched + 1) sent

def httpPaginated (url : String) (sent : Nat) : Except ToolDispatchError Value × Nat :=
  httpPages service definition cfg upstream (max 1 cfg.pagination.maxPages).toNat url [] 0 sent

end Requests

/-! ## Dispatch -/

def allowedHttpMethods : List String := ["GET", "POST", "PUT", "PATCH", "DELETE", "HEAD", "OPTIONS"]

def safeHttpMethods : List String := ["GET", "HEAD", "OPTIONS"]

def carriesKey (cfg : HttpToolConfig) (args : Dict Value) : Bool :=
  match orNone cfg.idempotencyArg with
  | some arg => ((args.find? arg).getD .null).truthy
  | none => false

section Dispatch

variable (service : ToolService) (upstream : Upstream)

variable (definition : ToolDefinition) (args : Dict Value) (sent : Nat)

def dispatchHttp : Except ToolDispatchError Value × Nat :=
  match definition.httpConfig with
  | none =>
    (.error ⟨.invalidRequest, "HTTP tool " ++ quoted definition.name ++ " has no http_config"⟩, sent)
  | some cfg =>
    let method := pyUpper cfg.method
    if method ∉ allowedHttpMethods then
      (.error ⟨.invalidRequest, "HTTP method " ++ quoted method ++ " is not allowed"⟩, sent)
    else match service.requestUrl cfg args with
      | .error message => (.error ⟨.invalidRequest, message⟩, sent)
      | .ok url =>
        if cfg.pagination.mode = .none then httpSingle service definition upstream sent
        else httpPaginated service definition cfg upstream url sent

/-- `_dispatch_local`, which sends no request. -/
def dispatchLocal : Except ToolDispatchError Value × Nat :=
  match service.handlerFor definition.name with
  | none =>
    (.error ⟨.executionError, "no local handler registered for " ++ quoted definition.name⟩, sent)
  | some handler => (handler args, sent)

def dispatch : Except ToolDispatchError Value × Nat :=
  if definition.kind = .local then dispatchLocal service definition args sent
  else dispatchHttp service upstream definition args sent

def isRetrySafe (code : ToolErrorCode) (args : Dict Value) : Bool :=
  match definition.httpConfig with
  | none => true
  | some cfg =>
    if carriesKey cfg args then true
    else if code = .timeout then
      definition.readOnlyAuthoritative && definition.readOnly = some true
    else if pyUpper cfg.method ∈ safeHttpMethods then true
    else code = .rateLimited

def dispatchAgain : Except ToolDispatchError Value → Bool
  | .ok _ => false
  | .error e => e.code ∈ retryableToolCodes && isRetrySafe definition e.code args

def dispatchWithRetry (attempts sent : Nat) : Except ToolDispatchError Value × Nat :=
  retry (dispatchAgain definition args) (fun _ => dispatch service upstream definition args)
    (attempts - 1) 0 sent

end Dispatch

/-! ## `_execute_invocation` -/

/-- The result of a call that failed, or was denied. -/
structure Failure where
  code : ToolErrorCode
  message : String
  outcome : String := "failed"

def fail (invocation : ToolInvocation) (failure : Failure) : ToolExecutionResult where
  toolCallId := invocation.toolCallId
  toolName := invocation.toolName
  outcome := failure.outcome
  errorCode := some failure.code
  errorMessage := some failure.message

/-- `schema and schema.get("type") == "object"`. -/
def describesObject (schema : Dict Value) : Bool :=
  match schema.find? "type" with
  | some (.str type) => type = "object"
  | _ => false

namespace ToolService

variable (service : ToolService) (upstream : Upstream)

def checkArgs (definition : ToolDefinition) (before : String) (after : Dict Value → String)
    (args : Dict Value) : Except Failure (Dict Value) :=
  if describesObject definition.argsJsonSchema then
    match service.validateAgainstSchema (.dict args.items) definition.argsJsonSchema with
    | some reason =>
      .error { code := .invalidRequest,
               message := before ++ reason ++ after definition.argsJsonSchema }
    | none => .ok args
  else .ok args

def validated (definition : ToolDefinition) (invocation : ToolInvocation) :
    Except Failure (Dict Value) :=
  if definition.requiresApproval
      && !((invocation.metadata.find? "approved").getD .null).truthy then
    .error { code := .policyBlocked, outcome := "denied",
             message := "tool " ++ quoted definition.name
               ++ " requires approval (no approval granted)" }
  else if !service.authorizes definition then
    .error { code := .capabilityDenied, outcome := "denied",
             message := "tool " ++ quoted definition.name
               ++ " is not permitted for this caller (missing tool capability)" }
  else
    let args :=
      if describesObject definition.argsJsonSchema && service.lenientArgs then
        service.coerceLenientArgs invocation.args definition.argsJsonSchema
      else invocation.args
    service.checkArgs definition "args failed schema validation: "
      (fun schema => ". " ++ service.schemaHint schema) args

variable (call : Nat)

/-- What stands before the dispatch: the arguments that are dispatched, or the failure. -/
def admitted (definition : ToolDefinition) (invocation : ToolInvocation) :
    Except Failure (Dict Value) :=
  match service.validated definition invocation with
  | .error failure => .error failure
  | .ok args =>
    match service.preHook with
    | none => .ok args
    | some preHook =>
      match preHook call invocation definition with
      | .error message => .error { code := .executionError, message := message }
      | .ok decision =>
        if !decision.allow then
          .error { code := .policyBlocked, outcome := "denied",
                   message := pyOr decision.reason "blocked by policy" }
        else match decision.transformedArgs with
          | none => .ok args
          | some transformed =>
            service.checkArgs definition "transformed args failed schema validation: "
              (fun _ => "") transformed

def finished (definition : ToolDefinition) (invocation : ToolInvocation)
    (raw : Value) : ToolExecutionResult :=
  let result : ToolExecutionResult :=
    { toolCallId := invocation.toolCallId, toolName := invocation.toolName, outcome := "success",
      result := raw }
  let transformed : Except String Value :=
    match service.postHook with
    | none => .ok raw
    | some postHook => (postHook call result definition).map (·.getD raw)
  match transformed with
  | .error message =>
    fail invocation { code := .executionError,
                      message := "post-execution hook raised: " ++ message }
  | .ok output =>
    match definition.outputJsonSchema.bind (service.validateAgainstSchema output) with
    | some reason =>
      fail invocation { code := .outputValidation,
                        message := "output failed schema validation: " ++ reason }
    | none => { result with result := output }

/-- `_execute_invocation`: no result when an exception leaves it. -/
def executeInvocation (invocation : ToolInvocation) (sent : Nat) :
    Option ToolExecutionResult × Nat :=
  match service.registry invocation.toolName with
  | none =>
    (some (fail invocation { code := .notFound,
                             message := "tool " ++ quoted invocation.toolName
                               ++ " is not registered" }), sent)
  | some definition =>
    match service.admitted call definition invocation with
    | .error failure => (some (fail invocation failure), sent)
    | .ok args =>
      match maxAttempts definition.retryHints with
      | none => (none, sent)
      | some attempts =>
        let out := dispatchWithRetry service upstream definition args attempts sent
        match out.1 with
        | .error e => (some (fail invocation { code := e.code, message := e.message }), out.2)
        | .ok raw => (some (service.finished call definition invocation raw), out.2)

end ToolService

end Himmy.Tools
