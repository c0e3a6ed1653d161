import Himmy.Toolkit.Net
import Himmy.Tools.Service

/-! # The requests of a paginated tool

The loop of `_http_paginated` with the requests it sends. The credentials are among the headers, and
every request has the headers; where they go is decided by the URL of the next page, which with
`Link` headers is the upstream's choice. -/

namespace Himmy.Tools

open Himmy.Url Himmy.Toolkit
open KeyedList (empty)

/-! ## The gate of a link -/

variable (unicode : UnicodeData)

/-- `_link_target_allowed`, or the `ValueError` of a URL or a port that is malformed. -/
def linkTargetAllowed (link originUrl : String) (allowHosts : List String) : Except String Bool :=
  match urlsplit unicode link with
  | .error message => .error message
  | .ok target =>
    if target.scheme = [] || target.netloc = [] then .ok false
    else if allowHosts ≠ [] then
      match target.hostname unicode with
      | none => .ok false
      | some host => .ok (hostAllowed unicode host allowHosts)
    else match urlsplit unicode originUrl with
      | .error message => .error message
      | .ok origin =>
        if unicode.lower target.scheme = unicode.lower origin.scheme
            && unicode.lower ((target.hostname unicode).getD [])
              = unicode.lower ((origin.hostname unicode).getD []) then
          match target.port, origin.port with
          | .error message, _ => .error message
          | .ok _, .error message => .error message
          | .ok port, .ok originPort => .ok (port = originPort)
        else .ok false

def SameOrigin (url origin : String) : Prop :=
  ∃ parts parts' port, urlsplit unicode url = .ok parts ∧ urlsplit unicode origin = .ok parts'
    ∧ unicode.lower parts.scheme = unicode.lower parts'.scheme
    ∧ unicode.lower ((parts.hostname unicode).getD []) = unicode.lower ((parts'.hostname unicode).getD [])
    ∧ parts.port = .ok port ∧ parts'.port = .ok port

theorem SameOrigin.trans {unicode : UnicodeData} {a b c : String}
    (hab : SameOrigin unicode a b) (hbc : SameOrigin unicode b c) : SameOrigin unicode a c := by
  obtain ⟨pa, pb, port, ha, hb, hscheme, hhost, hport, hport'⟩ := hab
  obtain ⟨pb', pc, port', hb', hc, hscheme', hhost', hport'', hport'''⟩ := hbc
  rw [hb, Except.ok.injEq] at hb'
  subst hb'
  rw [hport', Except.ok.injEq] at hport''
  subst hport''
  exact ⟨pa, pc, port, ha, hc, hscheme.trans hscheme', hhost.trans hhost', hport, hport'''⟩

def ListedHost (url : String) (allowHosts : List String) : Prop :=
  ∃ parts host, urlsplit unicode url = .ok parts ∧ parts.hostname unicode = some host
    ∧ HostMatches unicode host allowHosts

theorem sameOrigin_of_allowed {unicode : UnicodeData} {link originUrl : String}
    (h : linkTargetAllowed unicode link originUrl [] = .ok true) :
    SameOrigin unicode link originUrl := by
  unfold linkTargetAllowed at h
  cases hlink : urlsplit unicode link with
  | error message => rw [hlink] at h; cases h
  | ok target =>
    cases horigin : urlsplit unicode originUrl with
    | error message =>
      simp only [hlink, horigin, ne_eq, not_true_eq_false, if_false] at h
      split at h <;> cases h
    | ok origin =>
      simp only [hlink, horigin, ne_eq, not_true_eq_false, if_false] at h
      split at h
      · cases h
      · split at h
        · next hsame =>
            rw [Bool.and_eq_true, decide_eq_true_eq, decide_eq_true_eq] at hsame
            cases hport : target.port with
            | error message => simp [hport] at h
            | ok port =>
              cases hport' : origin.port with
              | error message => simp [hport, hport'] at h
              | ok originPort =>
                simp only [hport, hport', Except.ok.injEq, decide_eq_true_eq] at h
                subst h
                exact ⟨target, origin, port, hlink, horigin, hsame.1, hsame.2, hport, hport'⟩
        · cases h

theorem listedHost_of_allowed {unicode : UnicodeData} {link originUrl : String}
    {allowHosts : List String} (hlist : allowHosts ≠ [])
    (h : linkTargetAllowed unicode link originUrl allowHosts = .ok true) :
    ListedHost unicode link allowHosts := by
  unfold linkTargetAllowed at h
  cases hlink : urlsplit unicode link with
  | error message => rw [hlink] at h; cases h
  | ok target =>
    simp only [hlink, hlist, ne_eq, not_false_eq_true, if_true] at h
    split at h
    · cases h
    · cases hhost : target.hostname unicode with
      | none => simp [hhost] at h
      | some host =>
        simp only [hhost, Except.ok.injEq] at h
        exact ⟨target, host, hlink, hhost, hostAllowed_iff.1 h⟩

/-! ## The loop -/

/-- A request, with its headers. -/
structure PageRequest where
  method : String
  url : String
  params : Dict Value
  body : Dict Value
  headers : Dict String

/-- What stays the same over the pages of a call. -/
structure PageCall where
  unicode : UnicodeData
  cfg : HttpToolConfig
  cursorParam : String := "cursor"
  pageParam : String := "page"
  method : String := "GET"
  body : Dict Value := empty
  headers : Dict String := empty
  /-- the message of a dispatch that exceeds its timeout -/
  timeoutMessage : String := ""

/-- The variables of the loop. -/
structure PageState where
  nextUrl : String
  params : Dict Value
  pageNum : Int := 1
  collected : List Value := []
  pagesFetched : Nat := 0

/-- What ends the loop early: an error of the dispatch, or another exception. -/
inductive PageError where
  | dispatch (e : ToolDispatchError)
  | raised (message : String)

namespace PageCall

variable (call : PageCall)

def pageParams (st : PageState) : Dict Value :=
  if call.cfg.pagination.mode = .page then st.params.set call.pageParam (.int st.pageNum)
  else st.params

def request (st : PageState) : PageRequest :=
  { method := call.method, url := st.nextUrl, params := call.pageParams st, body := call.body,
    headers := call.headers }

def collected (r : HttpResponse) (st : PageState) : PageState :=
  { st with params := call.pageParams st, collected := collect call.cfg r st.collected,
            pagesFetched := st.pagesFetched + 1 }

def linkChecked (link nextUrl : String) : Except PageError Unit :=
  match linkTargetAllowed call.unicode link nextUrl call.cfg.egressAllowHosts with
  | .error message => .error (.raised message)
  | .ok false =>
    .error (.dispatch ⟨.invalidRequest, "pagination Link target refused: cross-host rel=\"next\" "
      ++ "is not same-origin and not on the egress allow-list"⟩)
  | .ok true =>
    let allowHosts :=
      if call.cfg.egressAllowHosts = [] then none else some call.cfg.egressAllowHosts
    match guardUrl call.unicode call.cfg.allowPrivateHosts allowHosts false .osError link with
    | .ok _ => .ok ()
    | .error (.security message) =>
      .error (.dispatch ⟨.invalidRequest, "pagination Link target refused: " ++ message⟩)
    | .error (.value message) => .error (.raised message)
    | .error .index => .error (.raised "list index out of range")

def advanced (r : HttpResponse) (st : PageState) : Except PageError (Option PageState) :=
  match call.cfg.pagination.mode with
  | .none => .ok none
  | .cursor =>
    let cursor := dig (payload r) call.cfg.pagination.cursorPath
    .ok (if cursor.truthy then some { st with params := st.params.set call.cursorParam cursor }
      else none)
  | .page =>
    match dig (payload r) call.cfg.pagination.itemsPath with
    | .list (_ :: _) => .ok (some { st with pageNum := st.pageNum + 1 })
    | _ => .ok none
  | .linkHeader =>
    match nextLink r.link with
    | none => .ok none
    | some link =>
      match call.linkChecked link st.nextUrl with
      | .error e => .error e
      | .ok () => .ok (some { st with nextUrl := link, params := empty })

/-- The loop of `_http_paginated`, with the pages that it may still fetch: the requests, and what it
    returns. -/
def pages (upstream : Upstream) : Nat → PageState → Nat → List PageRequest × Except PageError Value
  | 0, st, _ => ([], .ok (pagesResult st.collected st.pagesFetched))
  | left + 1, st, sent =>
    match httpRequest call.timeoutMessage (upstream sent) with
    | .error e => ([call.request st], .error (.dispatch e))
    | .ok r =>
      match call.advanced r (call.collected r st) with
      | .error e => ([call.request st], .error e)
      | .ok none =>
        let done := call.collected r st
        ([call.request st], .ok (pagesResult done.collected done.pagesFetched))
      | .ok (some next) =>
        let rest := pages upstream left next (sent + 1)
        (call.request st :: rest.1, rest.2)

/-- `_http_paginated`. -/
def paginated (upstream : Upstream) (url : String) (baseParams : Dict Value) :
    List PageRequest × Except PageError Value :=
  call.pages upstream (max 1 call.cfg.pagination.maxPages).toNat
    { nextUrl := url, params := baseParams } 0

/-! ## One page -/

variable {call}

def records (call : PageCall) (r : HttpResponse) : List Value :=
  match dig (payload r) call.cfg.pagination.itemsPath with
  | .list items => items
  | .null => []
  | item => [item]

@[simp] theorem collected_pagesFetched (r : HttpResponse) (st : PageState) :
    (call.collected r st).pagesFetched = st.pagesFetched + 1 := rfl

@[simp] theorem collected_records (r : HttpResponse) (st : PageState) :
    (call.collected r st).collected = st.collected ++ call.records r := by
  unfold collected collect records
  dsimp only
  cases dig (payload r) call.cfg.pagination.itemsPath <;> simp

/-- A URL that the call may go on to from a page. -/
structure Onward (call : PageCall) (next page : String) : Prop where
  /-- an absolute http or https URL without credentials of its own -/
  plain : ∃ parts, urlsplit call.unicode next = .ok parts
    ∧ (parts.scheme = "http".toList ∨ parts.scheme = "https".toList)
    ∧ parts.userinfo = ([], [])
  unlisted : call.cfg.egressAllowHosts = [] → SameOrigin call.unicode next page
  listed : call.cfg.egressAllowHosts ≠ [] →
    ListedHost call.unicode next call.cfg.egressAllowHosts

theorem onward_of_linkChecked {link page : String}
    (h : call.linkChecked link page = .ok ()) : Onward call link page := by
  unfold linkChecked at h
  split at h
  · cases h
  · cases h
  · next hallowed =>
      dsimp only at h
      split at h
      · next hguard =>
          obtain ⟨-, parts, host, hparts, hscheme, huser, -, -⟩ := guardUrl_ok hguard
          refine ⟨⟨parts, hparts, hscheme, huser⟩, ?_, ?_⟩
          · intro hlist
            exact sameOrigin_of_allowed (hlist ▸ hallowed)
          · intro hlist
            exact listedHost_of_allowed hlist hallowed
      all_goals cases h

theorem advanced_some {r : HttpResponse} {st next : PageState}
    (h : call.advanced r st = .ok (some next)) :
    next.collected = st.collected ∧ next.pagesFetched = st.pagesFetched
      ∧ (next.nextUrl = st.nextUrl ∨ Onward call next.nextUrl st.nextUrl) := by
  unfold advanced at h
  split at h
  · cases h
  · dsimp only at h
    split at h
    · cases h
      exact ⟨rfl, rfl, .inl rfl⟩
    · cases h
  · split at h
    · cases h
      exact ⟨rfl, rfl, .inl rfl⟩
    · cases h
  · split at h
    · cases h
    · split at h
      · cases h
      · next hchecked =>
          cases h
          exact ⟨rfl, rfl, .inr (onward_of_linkChecked hchecked)⟩

/-! ## Runs -/

/-- The URL is where the credentials of a call to `origin` may go. -/
structure Trusted (call : PageCall) (origin url : String) : Prop where
  plain : url = origin ∨ ∃ parts, urlsplit call.unicode url = .ok parts
    ∧ (parts.scheme = "http".toList ∨ parts.scheme = "https".toList)
    ∧ parts.userinfo = ([], [])
  unlisted : call.cfg.egressAllowHosts = [] → url = origin ∨ SameOrigin call.unicode url origin
  listed : call.cfg.egressAllowHosts ≠ [] →
    url = origin ∨ ListedHost call.unicode url call.cfg.egressAllowHosts

theorem Trusted.onward {origin url next : String} (h : Trusted call origin url)
    (hnext : next = url ∨ Onward call next url) : Trusted call origin next := by
  rcases hnext with rfl | hnext
  · exact h
  · refine ⟨.inr hnext.plain, ?_, ?_⟩
    · intro hlist
      rcases h.unlisted hlist with rfl | hsame
      · exact .inr (hnext.unlisted hlist)
      · exact .inr ((hnext.unlisted hlist).trans hsame)
    · intro hlist
      exact .inr (hnext.listed hlist)

variable (upstream : Upstream) (left : Nat)

theorem length_pages (st : PageState) (sent : Nat) :
    (call.pages upstream left st sent).1.length ≤ left := by
  induction left generalizing st sent with
  | zero => simp [pages]
  | succ left ih =>
    rw [pages]
    split
    · simp
    · split
      · simp
      · simp
      · next next _ =>
          have hrest := ih next (sent + 1)
          simp only [List.length_cons]
          omega

theorem trusted_of_mem_pages {origin : String}
    {st : PageState} (hst : Trusted call origin st.nextUrl) (sent : Nat) :
    ∀ request ∈ (call.pages upstream left st sent).1,
      request.headers = call.headers ∧ Trusted call origin request.url := by
  induction left generalizing st sent with
  | zero => simp [pages]
  | succ left ih =>
    have hfirst : (call.request st).headers = call.headers
        ∧ Trusted call origin (call.request st).url := ⟨rfl, hst⟩
    rw [pages]
    split
    · simpa using hfirst
    · split
      · simpa using hfirst
      · simpa using hfirst
      · next next hnext =>
          have hrest := ih (hst.onward (advanced_some hnext).2.2) (sent + 1)
          intro request hrequest
          rcases List.mem_cons.1 hrequest with rfl | hrequest
          · exact hfirst
          · exact hrest request hrequest

theorem pages_ok (st : PageState) (sent : Nat) {value : Value}
    (h : (call.pages upstream left st sent).2 = .ok value) : ∃ answers : List HttpResponse,
      answers.length = (call.pages upstream left st sent).1.length ∧ (∀ i r, answers[i]? = some r →
          httpRequest call.timeoutMessage (upstream (sent + i)) = .ok r)
      ∧ value = pagesResult (st.collected ++ answers.flatMap call.records)
          (st.pagesFetched + answers.length) := by
  induction left generalizing st sent with
  | zero =>
    rw [pages] at h ⊢
    cases h
    exact ⟨[], rfl, by simp, by simp⟩
  | succ left ih =>
    rw [pages] at h ⊢
    split at h
    · cases h
    · next r hr =>
        split at h
        · cases h
        · next hnone =>
            cases h
            refine ⟨[r], by simp, ?_, ?_⟩
            · intro i r' hi
              obtain ⟨rfl, rfl⟩ : i = 0 ∧ r' = r := by
                cases i with
                | zero => exact ⟨rfl, (Option.some.inj hi).symm⟩
                | succ i => simp at hi
              exact hr
            · simp
        · next next hnext =>
            obtain ⟨answers, hlength, hanswers, hvalue⟩ := ih next (sent + 1) h
            obtain ⟨hcollected, hfetched, -⟩ := advanced_some hnext
            refine ⟨r :: answers, by simp [hlength], ?_, ?_⟩
            · intro i r' hi
              cases i with
              | zero =>
                cases hi
                exact hr
              | succ i =>
                have hlater := hanswers i r' hi
                rwa [show sent + (i + 1) = sent + 1 + i from by omega]
            · rw [hvalue, hcollected, hfetched, collected_records, collected_pagesFetched,
                List.flatMap_cons, List.append_assoc, List.length_cons, Nat.add_right_comm,
                Nat.add_assoc]

/-- **Pagination.** A paginated call sends at most as many requests as it may fetch pages. Every
    request has the headers of the call and goes to its URL or to an absolute http
    or https URL: of the same origin without an allow-list, with a host on the list with one. What is
    returned holds the records of the pages fetched, in order, each page answering one request. -/
theorem paginated_confined (call : PageCall) (upstream : Upstream) (url : String)
    (baseParams : Dict Value) : ((call.paginated upstream url baseParams).1.length : Int)
        ≤ max 1 call.cfg.pagination.maxPages
    ∧ (∀ request ∈ (call.paginated upstream url baseParams).1,
        request.headers = call.headers ∧ Trusted call url request.url)
    ∧ ∀ value, (call.paginated upstream url baseParams).2 = .ok value →
        ∃ answers : List HttpResponse,
          answers.length = (call.paginated upstream url baseParams).1.length
          ∧ (∀ i r, answers[i]? = some r → httpRequest call.timeoutMessage (upstream i) = .ok r)
          ∧ value = pagesResult (answers.flatMap call.records) answers.length := by
  have hstart : Trusted call url url := ⟨.inl rfl, fun _ => .inl rfl, fun _ => .inl rfl⟩
  refine ⟨?_, trusted_of_mem_pages upstream _ hstart 0, ?_⟩
  · have hlength : (call.paginated upstream url baseParams).1.length
        ≤ (max 1 call.cfg.pagination.maxPages).toNat := length_pages upstream _ _ 0
    omega
  · intro value hvalue
    obtain ⟨answers, hlength, hanswers, hresult⟩ := pages_ok upstream _ _ 0 hvalue
    refine ⟨answers, hlength, ?_, by simpa using hresult⟩
    intro i r hi
    simpa using hanswers i r hi

def listedCall : PageCall where
  unicode := asciiData
  cfg := { egressAllowHosts := ["a.example"],
           pagination := { mode := .linkHeader, itemsPath := "items" } }
  headers := Dict.ofList [("Authorization", "Bearer s3cret")]

/-- An upstream whose first page links to its own plain http address. -/
def downgrading : Upstream := fun i =>
  .response
    { statusCode := 200, json := some (.dict [("items", .list [.int i])]),
      link := if i = 0 then "<http://a.example/2>; rel=\"next\"" else "" }

theorem urls_downgrading :
    ((listedCall.paginated downgrading "https://a.example/1" empty).1.map (·.url))
      = ["https://a.example/1", "http://a.example/2"] := by
  decide

def Secure (unicode : UnicodeData) (url : String) : Prop :=
  ∃ parts, urlsplit unicode url = .ok parts ∧ parts.scheme = "https".toList

/-- With an allow-list, a call over https may go on over plain http, with its headers. -/
theorem paginated_downgrade :
    ¬ ∀ (call : PageCall) (upstream : Upstream) (url : String) (baseParams : Dict Value),
      Secure call.unicode url → ∀ request ∈ (call.paginated upstream url baseParams).1,
          request.headers = call.headers → Secure call.unicode request.url := by
  intro hclaim
  have hsecure : Secure asciiData "https://a.example/1" := ⟨_, rfl, rfl⟩
  have hmem : "http://a.example/2"
      ∈ (listedCall.paginated downgrading "https://a.example/1" empty).1.map (·.url) := by
    rw [urls_downgrading]
    simp
  obtain ⟨request, hrequest, hurl⟩ := List.mem_map.1 hmem
  have hstart : Trusted listedCall "https://a.example/1" "https://a.example/1" :=
    ⟨.inl rfl, fun _ => .inl rfl, fun _ => .inl rfl⟩
  have hheaders := (trusted_of_mem_pages downgrading _ hstart 0 request hrequest).1
  obtain ⟨parts, hparts, hscheme⟩ := hclaim listedCall downgrading _ _ hsecure request hrequest hheaders
  rw [hurl] at hparts
  cases hparts
  revert hscheme
  decide

/-- Two pages, with their records in order. -/
theorem paginated_confined_twoPages :
    (∀ request ∈ (listedCall.paginated downgrading "https://a.example/1" empty).1,
      Trusted listedCall "https://a.example/1" request.url)
    ∧ ∃ answers : List HttpResponse, answers.length = 2 ∧ pagesResult [.int 0, .int 1] 2
        = pagesResult (answers.flatMap listedCall.records) answers.length := by
  obtain ⟨-, htrusted, hresult⟩ :=
    paginated_confined listedCall downgrading "https://a.example/1" empty
  refine ⟨fun request hrequest => (htrusted request hrequest).2, ?_⟩
  obtain ⟨answers, hlength, -, hvalue⟩ := hresult (pagesResult [.int 0, .int 1] 2) rfl
  refine ⟨answers, ?_, hvalue⟩
  rw [hlength, ← List.length_map (f := (·.url)), urls_downgrading]
  rfl

end PageCall

/-! ## The tool service -/

section Service

variable (service : ToolService) (definition : ToolDefinition) (upstream : Upstream)

/-- The gate and the guard of the service are those of the call, on links on which neither raises
    an exception of another kind. -/
structure SameChecks (call : PageCall) : Prop where
  message : call.timeoutMessage = timeoutMessage service definition
  links : ∀ link page,
    call.linkChecked link page =
      if !service.linkTargetAllowed link page call.cfg.egressAllowHosts then
        .error (.dispatch ⟨.invalidRequest, "pagination Link target refused: cross-host rel=\"next\" "
          ++ "is not same-origin and not on the egress allow-list"⟩)
      else match service.guardUrl link call.cfg with
        | .error message =>
          .error (.dispatch ⟨.invalidRequest, "pagination Link target refused: " ++ message⟩)
        | .ok () => .ok ()

def served {α : Type} : Except PageError α → Except ToolDispatchError α
  | .ok value => .ok value
  | .error (.dispatch e) => .error e
  | .error (.raised message) => .error ⟨.executionError, message⟩

theorem nextPage_eq {call : PageCall} (h : SameChecks service definition call) (r : HttpResponse)
    (st : PageState) : nextPage service call.cfg r st.nextUrl
      = (served (call.advanced r st)).map (Option.map PageState.nextUrl) := by
  unfold nextPage PageCall.advanced
  cases call.cfg.pagination.mode with
  | none => rfl
  | cursor =>
    dsimp only
    cases (dig (payload r) call.cfg.pagination.cursorPath).truthy <;> rfl
  | page =>
    dsimp only
    cases dig (payload r) call.cfg.pagination.itemsPath with
    | list items => cases items <;> rfl
    | _ => rfl
  | linkHeader =>
    dsimp only
    cases nextLink r.link with
    | none => rfl
    | some link =>
      dsimp only
      rw [h.links]
      by_cases hallowed : service.linkTargetAllowed link st.nextUrl call.cfg.egressAllowHosts = true
      · cases hguard : service.guardUrl link call.cfg with
        | error message => simp [hallowed, served, Except.map]
        | ok _ => simp [hallowed, served, Except.map]
      · simp [hallowed, served, Except.map]

theorem httpPages_eq {call : PageCall} (h : SameChecks service definition call) (left : Nat)
    (st : PageState) (sent : Nat) :
    httpPages service definition call.cfg upstream left st.nextUrl st.collected st.pagesFetched sent
      = (served (call.pages upstream left st sent).2,
          sent + (call.pages upstream left st sent).1.length) := by
  induction left generalizing st sent with
  | zero => rfl
  | succ left ih =>
    rw [httpPages, PageCall.pages, sendRequest, ← h.message]
    cases httpRequest call.timeoutMessage (upstream sent) with
    | error e => rfl
    | ok r =>
      have hnext := nextPage_eq service definition h r (call.collected r st)
      dsimp only
      rw [show st.nextUrl = (call.collected r st).nextUrl from rfl, hnext]
      cases hadvanced : call.advanced r (call.collected r st) with
      | error e => cases e <;> rfl
      | ok next =>
        cases next with
        | none => rfl
        | some next =>
          obtain ⟨hcollected, hfetched, -⟩ := PageCall.advanced_some hadvanced
          have hrest := ih next (sent + 1)
          rw [hcollected, hfetched] at hrest
          simp only [served, Except.map, Option.map_some, List.length_cons]
          rw [show sent + ((call.pages upstream left next (sent + 1)).1.length + 1)
            = sent + 1 + (call.pages upstream left next (sent + 1)).1.length from by omega]
          exact hrest

end Service

end Himmy.Tools
