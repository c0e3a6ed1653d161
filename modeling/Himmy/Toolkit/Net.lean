import Himmy.Core.Json
import Himmy.Core.Url
import Mathlib.Data.List.Basic

/-! # Outbound requests

The check of a URL before a request, and the check of a host when a connection is made. What the
resolver answers is an argument of each lookup, so that no two lookups of a name need agree. -/

def Labels.Within {α : Type*} (sep : α) (name domain : List α) : Prop :=
  name = domain ∨ sep :: domain <:+ name

namespace Himmy.Toolkit

open Himmy.Url

/-- What a lookup or a check raises. -/
inductive NetError where
  /-- `ToolSecurityError` -/
  | security (message : String)
  | value (message : String)
  | index

/-- What `socket.getaddrinfo` answers: the addresses, an `OSError`, or another error. -/
inductive Lookup where
  | addresses (ips : List (List Char))
  | osError
  | raised (message : String)

def quoted (text : List Char) : String := (Json.str (String.ofList text)).pyRepr

/-! ## The allow-list -/

def rstripDots (text : List Char) : List Char := (text.reverse.dropWhile (· = '.')).reverse

variable (unicode : UnicodeData)

/-- The host as `_host_allowed` compares it. -/
def hostName (host : List Char) : List Char :=
  rstripDots (unicode.lower host)

/-- An entry of the allow-list as `_host_allowed` compares it. -/
def entryName (entry : String) : List Char :=
  rstripDots ((pyStrip isPySpace (unicode.lower entry.toList)).dropWhile (fun c => c = '*' || c = '.'))

def hostAllowed (host : List Char) (allowHosts : List String) : Bool :=
  allowHosts.any (fun entry =>
    let allowed := entryName unicode entry
    allowed ≠ [] && (hostName unicode host = allowed
      || ('.' :: allowed).isSuffixOf (hostName unicode host)))

def HostMatches (host : List Char) (allowHosts : List String) : Prop :=
  ∃ entry ∈ allowHosts, entryName unicode entry ≠ []
    ∧ Labels.Within '.' (hostName unicode host) (entryName unicode entry)

theorem hostAllowed_iff {unicode : UnicodeData} {host : List Char} {allowHosts : List String} :
    hostAllowed unicode host allowHosts = true ↔ HostMatches unicode host allowHosts := by
  simp [hostAllowed, HostMatches, Labels.Within]

def offAllowList (unicode : UnicodeData) (host : List Char) : Option (List String) → Bool
  | none => false
  | some allow => !hostAllowed unicode host allow

theorem offAllowList_eq_false_iff {unicode : UnicodeData} {host : List Char}
    {allowHosts : Option (List String)} : offAllowList unicode host allowHosts = false
      ↔ ∀ allow ∈ allowHosts, HostMatches unicode host allow := by
  cases allowHosts with
  | none => simp [offAllowList]
  | some allow => simp [offAllowList, hostAllowed_iff]

/-! ## Addresses -/

def isBlockedIp (ip : List Char) : Except NetError Bool :=
  match IpAddress.ofText ip with
  | some address => .ok address.isSpecial
  | none => .error (.value (quoted ip ++ " does not appear to be an IPv4 or IPv6 address"))

def notPublic (host ip : List Char) : String :=
  "host " ++ quoted host ++ " resolves to a non-public address (" ++ String.ofList ip ++ ")"

/-- The loop of `_validate_resolved_ips` over the candidates. -/
def validateIps (host : List Char) : List (List Char) → Except NetError Unit
  | [] => .ok ()
  | ip :: rest =>
    match isBlockedIp ip with
    | .error e => .error e
    | .ok true => .error (.security (notPublic host ip))
    | .ok false => validateIps host rest

def candidates (host : List Char) (lookup : Lookup) : Except NetError (List (List Char)) :=
  match IpAddress.ofText host with
  | some _ => .ok [host]
  | none =>
    match lookup with
    | .addresses ips => .ok ips
    | .osError => .error (.security ("could not resolve host " ++ quoted host))
    | .raised message => .error (.value message)

def validateResolvedIps (host : List Char) (lookup : Lookup) :
    Except NetError (List (List Char)) := do
  let ips ← candidates host lookup
  validateIps host ips
  return ips

/-! ## The checks -/

/-- The checks of `guard_url` once the URL has a host. -/
def guardHost (unicode : UnicodeData) (allowPrivate : Bool) (allowHosts : Option (List String))
    (resolve : Bool) (lookup : Lookup) (parts : SplitResult) (host : List Char) :
    Except NetError Unit :=
  if offAllowList unicode host allowHosts then
    .error (.security ("host " ++ quoted host ++ " is not in the egress allow-list"))
  else if allowPrivate || !resolve then .ok ()
  else match parts.port with
    | .error message => .error (.value message)
    | .ok _ => (validateResolvedIps host lookup).map (fun _ => ())

/-- `guard_url`, which returns the URL it accepts. -/
def guardUrl (unicode : UnicodeData) (allowPrivate : Bool) (allowHosts : Option (List String))
    (resolve : Bool) (lookup : Lookup) (url : String) : Except NetError String :=
  match urlsplit unicode url with
  | .error message => .error (.value message)
  | .ok parts =>
    if ¬ (parts.scheme = "http".toList ∨ parts.scheme = "https".toList) then
      .error (.security ("unsupported URL scheme " ++ quoted parts.scheme
        ++ " (expected http/https)"))
    else if ¬ (parts.userinfo.1 = [] ∧ parts.userinfo.2 = []) then
      .error (.security "URL must not contain embedded credentials")
    else match parts.hostname unicode with
      | none => .error (.security "URL has no host")
      | some host =>
        (guardHost unicode allowPrivate allowHosts resolve lookup parts host).map (fun _ => url)

/-- `_pin_connect_target`: the address that is dialled. -/
def pinConnectTarget (unicode : UnicodeData) (host : List Char) (allowHosts : Option (List String))
    (lookup : Lookup) : Except NetError (List Char) :=
  match IpAddress.ofText host with
  | none =>
    if offAllowList unicode host allowHosts then
      .error (.security ("host " ++ quoted host ++ " is not in the egress allow-list"))
    else match validateResolvedIps host lookup with
      | .error e => .error e
      | .ok [] => .error .index
      | .ok (ip :: _) => .ok ip
  | some _ =>
    -- a literal address is not compared with the allow-list
    match isBlockedIp host with
    | .error e => .error e
    | .ok true => .error (.security (notPublic host host))
    | .ok false => .ok host

/-! ## What a check that succeeds says -/

def Vetted (ip : List Char) : Prop := isBlockedIp ip = .ok false

theorem vetted_of_validateIps {host : List Char} {ips : List (List Char)}
    (h : validateIps host ips = .ok ()) : ∀ ip ∈ ips, Vetted ip := by
  induction ips with
  | nil => simp
  | cons ip rest ih =>
    rw [validateIps] at h
    split at h
    · cases h
    · cases h
    · next hip =>
        intro ip' hmem
        rcases List.mem_cons.1 hmem with rfl | hmem
        · exact hip
        · exact ih h ip' hmem

theorem vetted_of_validateResolvedIps {host : List Char} {lookup : Lookup}
    {ips : List (List Char)} (h : validateResolvedIps host lookup = .ok ips) :
    ∀ ip ∈ ips, Vetted ip := by
  unfold validateResolvedIps at h
  cases hcandidates : candidates host lookup with
  | error e => rw [hcandidates] at h; cases h
  | ok found =>
    cases hvalid : validateIps host found with
    | error e => rw [hcandidates] at h; simp [hvalid, bind, Except.bind] at h
    | ok checked =>
      rw [hcandidates] at h
      simp only [hvalid, bind, Except.bind, pure, Except.pure, Except.ok.injEq] at h
      exact h ▸ vetted_of_validateIps hvalid

theorem vetted_of_pinConnectTarget {unicode : UnicodeData} {host : List Char}
    {allowHosts : Option (List String)} {lookup : Lookup} {ip : List Char}
    (h : pinConnectTarget unicode host allowHosts lookup = .ok ip) : Vetted ip := by
  unfold pinConnectTarget at h
  split at h
  · split_ifs at h
    split at h
    · cases h
    · cases h
    · next hvalid =>
        cases h
        exact vetted_of_validateResolvedIps hvalid ip List.mem_cons_self
  · split at h
    · cases h
    · cases h
    · next hvetted =>
        cases h
        exact hvetted

theorem guardHost_ok {unicode : UnicodeData} {allowPrivate resolve : Bool}
    {allowHosts : Option (List String)} {lookup : Lookup} {parts : SplitResult} {host : List Char}
    (h : guardHost unicode allowPrivate allowHosts resolve lookup parts host = .ok ()) :
    (∀ allow ∈ allowHosts, HostMatches unicode host allow)
    ∧ (allowPrivate = false → resolve = true →
        ∃ ips, validateResolvedIps host lookup = .ok ips ∧ ∀ ip ∈ ips, Vetted ip) := by
  unfold guardHost at h
  split at h
  · cases h
  · next hoff =>
      refine ⟨offAllowList_eq_false_iff.1 (Bool.eq_false_iff.2 hoff), ?_⟩
      intro hprivate hresolve
      rw [if_neg (by simp [hprivate, hresolve])] at h
      split at h
      · cases h
      · cases hvalid : validateResolvedIps host lookup with
        | error e => rw [hvalid] at h; cases h
        | ok ips => exact ⟨ips, rfl, vetted_of_validateResolvedIps hvalid⟩

theorem guardUrl_ok {unicode : UnicodeData} {allowPrivate resolve : Bool}
    {allowHosts : Option (List String)} {lookup : Lookup} {url accepted : String}
    (h : guardUrl unicode allowPrivate allowHosts resolve lookup url = .ok accepted) :
    accepted = url ∧ ∃ parts host, urlsplit unicode url = .ok parts
      ∧ (parts.scheme = "http".toList ∨ parts.scheme = "https".toList)
      ∧ parts.userinfo = ([], []) ∧ parts.hostname unicode = some host
      ∧ guardHost unicode allowPrivate allowHosts resolve lookup parts host = .ok () := by
  unfold guardUrl at h
  cases hparts : urlsplit unicode url with
  | error message => rw [hparts] at h; cases h
  | ok parts =>
    simp only [hparts] at h
    split at h
    · cases h
    · next hscheme =>
        split at h
        · cases h
        · next huser =>
            rw [Decidable.not_not] at hscheme huser
            cases hhost : parts.hostname unicode with
            | none => rw [hhost] at h; cases h
            | some host =>
              cases hguard : guardHost unicode allowPrivate allowHosts resolve lookup parts host with
              | error e => simp only [hhost, hguard] at h; cases h
              | ok checked =>
                simp only [hhost, hguard] at h
                cases h
                exact ⟨rfl, parts, host, rfl, hscheme, Prod.ext huser.1 huser.2, hhost, hguard⟩

end Himmy.Toolkit
