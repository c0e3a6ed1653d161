import Himmy.Tools.Service

/-! # The requests of a call

Which requests of a dispatch come before another one. `Follow` says of an end of a request that
another request may be sent after it; every loop of the service is started when all requests so far
are such, and leaves an answer of which all requests but the last are, and the last too unless it
ended in the error that is the answer. -/

namespace Himmy.Tools

/-! ## What a request ends in -/

def RequestEnd.code (e : RequestEnd) : Option ToolErrorCode :=
  match httpRequest "" e with
  | .error err => some err.code
  | .ok _ => none

theorem RequestEnd.code_of_error {message : String} {e : RequestEnd} {err : ToolDispatchError}
    (h : httpRequest message e = .error err) : e.code = some err.code := by
  cases e with
  | response r =>
    have hsame : httpRequest "" (.response r) = httpRequest message (.response r) := rfl
    rw [RequestEnd.code, hsame, h]
  | refused | timedOut | deadline | failed | raised =>
    simp only [httpRequest, Except.error.injEq] at h
    subst h
    rfl

theorem RequestEnd.eq_response_of_ok {message : String} {e : RequestEnd} {r : HttpResponse}
    (h : httpRequest message e = .ok r) : e = .response r := by
  cases e with
  | response r' =>
    simp only [httpRequest] at h
    split_ifs at h
    exact congrArg RequestEnd.response (Except.ok.inj h)
  | refused | timedOut | deadline | failed | raised => simp only [httpRequest, reduceCtorEq] at h

def LeadsOn (service : ToolService) (cfg : HttpToolConfig) (e : RequestEnd) : Prop :=
  cfg.pagination.mode ≠ .none ∧ 1 < cfg.pagination.maxPages ∧
    ∃ r url next, e = .response r ∧ nextPage service cfg r url = .ok (some next)

/-! ## Requests that may be followed -/

section Follow

variable (Follow : RequestEnd → Prop) (upstream : Upstream)

/-- Another request may follow all of the first `sent` ones. -/
def AllFollowed (sent : Nat) : Prop := ∀ i < sent, Follow (upstream i)

/-- All requests but the last may be followed, and the last one too unless it ended in the error
    that is the answer, or the answer is none to retry. -/
structure Answered {α : Type} (answer : Except ToolDispatchError α) (sent : Nat) : Prop where
  earlier : ∀ i, i + 1 < sent → Follow (upstream i)
  last : ∀ e, answer = .error e → e.code ∈ retryableToolCodes → ∀ i, i + 1 = sent →
    Follow (upstream i) ∨ (upstream i).code = some e.code

end Follow

section Follow

variable {Follow : RequestEnd → Prop} {upstream : Upstream} {α : Type}

theorem allFollowed_zero : AllFollowed Follow upstream 0 := fun i hi => absurd hi i.not_lt_zero

variable {sent : Nat}

theorem AllFollowed.answered (h : AllFollowed Follow upstream sent)
    (answer : Except ToolDispatchError α) : Answered Follow upstream answer sent where
  earlier i hi := h i (by omega)
  last e _ _ i hi := Or.inl (h i (by omega))

theorem AllFollowed.succ (h : AllFollowed Follow upstream sent)
    (hlast : Follow (upstream sent)) : AllFollowed Follow upstream (sent + 1) := by
  intro i hi
  rcases Nat.lt_succ_iff_lt_or_eq.1 hi with hi | rfl
  · exact h i hi
  · exact hlast

theorem AllFollowed.error (h : AllFollowed Follow upstream sent) {message : String}
    {e : ToolDispatchError} (he : httpRequest message (upstream sent) = .error e) :
    Answered Follow upstream (.error e : Except ToolDispatchError α) (sent + 1) where
  earlier i hi := h i (by omega)
  last e' he' _ i hi := by
    obtain rfl := Except.error.inj he'
    obtain rfl : i = sent := by omega
    exact Or.inr (RequestEnd.code_of_error he)

theorem AllFollowed.settled (h : AllFollowed Follow upstream sent)
    {answer : Except ToolDispatchError α}
    (hcode : ∀ e, answer = .error e → e.code ∉ retryableToolCodes) :
    Answered Follow upstream answer (sent + 1) where
  earlier i hi := h i (by omega)
  last e he hretry _ _ := absurd hretry (hcode e he)

theorem Answered.allFollowed {answer : Except ToolDispatchError α}
    (h : Answered Follow upstream answer sent) {e : ToolDispatchError}
    (he : answer = .error e) (hcode : e.code ∈ retryableToolCodes)
    (hfollow : ∀ r : RequestEnd, r.code = some e.code → Follow r) :
    AllFollowed Follow upstream sent := by
  intro i hi
  rcases Nat.lt_or_eq_of_le (Nat.succ_le_of_lt hi) with hlt | heq
  · exact h.earlier i hlt
  · exact (h.last e he hcode i heq).elim id (hfollow _)

variable (service : ToolService) (definition : ToolDefinition) (cfg : HttpToolConfig) {sent : Nat}

theorem answered_httpSingle (h : AllFollowed Follow upstream sent) :
    Answered Follow upstream (httpSingle service definition upstream sent).1
      (httpSingle service definition upstream sent).2 := by
  unfold httpSingle sendRequest
  cases he : httpRequest (timeoutMessage service definition) (upstream sent) with
  | error e => exact h.error he
  | ok r => exact h.settled nofun

theorem code_of_nextPage_error {r : HttpResponse} {url : String} {e : ToolDispatchError}
    (h : nextPage service cfg r url = .error e) : e.code = .invalidRequest := by
  unfold nextPage at h
  split at h
  · cases h
  · cases h
  · split at h <;> cases h
  · split at h
    · cases h
    · split_ifs at h
      · rw [← Except.error.inj h]
      · split at h
        · rw [← Except.error.inj h]
        · cases h

theorem answered_httpPages (pages : Nat) (url : String) (collected : List Value)
    (fetched : Nat)
    (hfollow : 1 < pages → ∀ r url next, nextPage service cfg r url = .ok (some next) →
      Follow (.response r)) (h : AllFollowed Follow upstream sent) : Answered Follow upstream
      (httpPages service definition cfg upstream pages url collected fetched sent).1
      (httpPages service definition cfg upstream pages url collected fetched sent).2 := by
  induction pages generalizing url collected fetched sent with
  | zero => exact h.answered _
  | succ pages ih =>
    rw [httpPages, sendRequest]
    cases he : httpRequest (timeoutMessage service definition) (upstream sent) with
    | error e => exact h.error he
    | ok r =>
      dsimp only
      have hresponse := RequestEnd.eq_response_of_ok he
      cases hnext : nextPage service cfg r url with
      | error e =>
        refine h.settled (fun e' he' => ?_)
        rw [← Except.error.inj he', code_of_nextPage_error service cfg hnext]
        decide
      | ok next =>
        cases next with
        | none => exact h.settled nofun
        | some next =>
          dsimp only
          cases pages with
          | zero => exact h.settled nofun
          | succ pages =>
            refine ih next _ _ (fun _ => hfollow (by omega)) (h.succ ?_)
            rw [hresponse]
            exact hfollow (by omega) r url next hnext

theorem answered_dispatchHttp (args : Dict Value)
    (hcfg : definition.httpConfig = some cfg) (hfollow : ∀ e, LeadsOn service cfg e → Follow e)
    (h : AllFollowed Follow upstream sent) :
    Answered Follow upstream (dispatchHttp service upstream definition args sent).1
      (dispatchHttp service upstream definition args sent).2 := by
  simp only [dispatchHttp, hcfg]
  by_cases hmethod : pyUpper cfg.method ∈ allowedHttpMethods
  · rw [if_neg (not_not.2 hmethod)]
    cases service.requestUrl cfg args with
    | error message => exact h.answered _
    | ok url =>
      dsimp only
      by_cases hmode : cfg.pagination.mode = .none
      · rw [if_pos hmode]
        exact answered_httpSingle service definition h
      · rw [if_neg hmode]
        refine answered_httpPages service definition cfg _ url [] 0 (fun hpages => ?_) h
        intro r url next hnext
        exact hfollow _ ⟨hmode, by omega, r, url, next, rfl, hnext⟩
  · rw [if_pos hmethod]
    exact h.answered _

/-! ## The retries of the service -/

theorem code_of_dispatchAgain {args : Dict Value} {answer : Except ToolDispatchError Value}
    (hcfg : definition.httpConfig = some cfg)
    (hmethod : pyUpper cfg.method ∉ safeHttpMethods) (hkey : carriesKey cfg args = false)
    (h : dispatchAgain definition args answer = true) :
    ∃ e, answer = .error e ∧ (e.code = .rateLimited
      ∨ (e.code = .timeout ∧ definition.readOnlyAuthoritative = true
          ∧ definition.readOnly = some true)) := by
  cases answer with
  | ok raw => nomatch h
  | error e =>
    refine ⟨e, rfl, ?_⟩
    simp only [dispatchAgain, isRetrySafe, hcfg, hkey, Bool.and_eq_true] at h
    by_cases htimeout : e.code = .timeout
    · exact Or.inr ⟨htimeout, by simpa [htimeout] using h.2⟩
    · exact Or.inl (by simpa [htimeout, hmethod] using h.2)

theorem answered_dispatchWithRetry (args : Dict Value) (attempts : Nat)
    (hkind : definition.kind = .http) (hcfg : definition.httpConfig = some cfg)
    (hmethod : pyUpper cfg.method ∉ safeHttpMethods) (hkey : carriesKey cfg args = false)
    (hrate : ∀ e : RequestEnd, e.code = some .rateLimited → Follow e)
    (htimeout : ∀ e : RequestEnd, e.code = some .timeout →
      definition.readOnlyAuthoritative = true → definition.readOnly = some true → Follow e)
    (hleads : ∀ e, LeadsOn service cfg e → Follow e) (h : AllFollowed Follow upstream sent) :
    Answered Follow upstream (dispatchWithRetry service upstream definition args attempts sent).1
      (dispatchWithRetry service upstream definition args attempts sent).2 := by
  have hdispatch : dispatch service upstream definition args
      = dispatchHttp service upstream definition args := by
    funext sent
    rw [dispatch, hkind, if_neg nofun]
  unfold dispatchWithRetry
  rw [hdispatch]
  refine retry_rule (P := fun _ sent => AllFollowed Follow upstream sent)
    (Q := fun answer sent => Answered Follow upstream answer sent) ?_ ?_ _ h
  · intro _ sent h
    exact answered_dispatchHttp service definition cfg args hcfg hleads h
  · intro _ sent h hagain
    obtain ⟨e, he, hcode⟩ := code_of_dispatchAgain definition cfg hcfg hmethod hkey hagain
    have hanswered := answered_dispatchHttp service definition cfg args hcfg hleads h
    rcases hcode with hcode | ⟨hcode, hauth, hread⟩
    · refine hanswered.allFollowed he (by rw [hcode]; decide) (fun r hr => hrate r ?_)
      rw [hr, hcode]
    · refine hanswered.allFollowed he (by rw [hcode]; decide)
        (fun r hr => htimeout r ?_ hauth hread)
      rw [hr, hcode]

end Follow

end Himmy.Tools
