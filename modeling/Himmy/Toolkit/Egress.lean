import Himmy.Toolkit.Net

/-! # What a client dials

A client is built with the egress settings, and dials for each connection that the HTTP library
makes, on whatever host it asks for. The pinned transport dials an address that it has vetted itself,
so no answer of the resolver leads inside; the allow-list it compares with names only. -/

namespace Himmy.Toolkit

open Himmy.Url

/-- A client, as `build_pinned_transport` makes its transport. -/
structure Client where
  allowPrivate : Bool := false
  allowHosts : Option (List String) := none

/-- A connection that is asked for, with what the resolver answers at that time. -/
structure Connection where
  host : List Char
  lookup : Lookup

namespace Connection

def Literal (c : Connection) : Prop := (IpAddress.ofText c.host).isSome

instance (c : Connection) : Decidable c.Literal := inferInstanceAs (Decidable (_ = true))

end Connection

/-- The addresses that may be dialled for a connection. Without pinning the resolver decides. -/
def Client.dials (unicode : UnicodeData) (client : Client) (c : Connection) : List (List Char) :=
  if client.allowPrivate then
    match candidates c.host c.lookup with
    | .ok ips => ips
    | .error _ => []
  else match pinConnectTarget unicode c.host client.allowHosts c.lookup with
    | .ok ip => [ip]
    | .error _ => []

section Dials

variable {unicode : UnicodeData} {client : Client} {c : Connection}

section

variable (hprivate : client.allowPrivate = false)

include hprivate

theorem vetted_of_mem_dials {ip : List Char} (h : ip ∈ client.dials unicode c) : Vetted ip := by
  unfold Client.dials at h
  rw [hprivate, if_neg Bool.false_ne_true] at h
  split at h
  · next hpin =>
      rw [List.mem_singleton.1 h]
      exact vetted_of_pinConnectTarget hpin
  · cases h

theorem dials_name (hname : ¬ c.Literal)
    (hoff : offAllowList unicode c.host client.allowHosts = true) :
    client.dials unicode c = [] := by
  unfold Client.dials pinConnectTarget
  rw [Connection.Literal, Bool.not_eq_true, Option.isSome_eq_false_iff, Option.isNone_iff_eq_none]
    at hname
  simp [hprivate, hname, hoff]

theorem dials_literal (hliteral : c.Literal) :
    client.dials unicode c = [c.host] ↔ Vetted c.host := by
  obtain ⟨address, haddress⟩ := Option.isSome_iff_exists.1 hliteral
  have hblocked : isBlockedIp c.host = .ok address.isSpecial := by
    simp [isBlockedIp, haddress]
  unfold Client.dials pinConnectTarget Vetted
  rw [hprivate, if_neg Bool.false_ne_true]
  simp only [haddress, hblocked]
  cases address.isSpecial <;> simp

theorem dials_literal_of_not_vetted (hliteral : c.Literal)
    (hvetted : ¬ Vetted c.host) : client.dials unicode c = [] := by
  obtain ⟨address, haddress⟩ := Option.isSome_iff_exists.1 hliteral
  have hblocked : isBlockedIp c.host = .ok address.isSpecial := by
    simp [isBlockedIp, haddress]
  rw [Vetted, hblocked, Except.ok.injEq, Bool.not_eq_false] at hvetted
  unfold Client.dials pinConnectTarget
  simp [hprivate, haddress, hblocked, hvetted]

end

end Dials

/-! ## Confinement -/

variable (unicode : UnicodeData) (client : Client) (c : Connection)

/-- The connection dials public addresses only, unless private ones are allowed, and only when its
    host matches the allow-list, if there is one. -/
def Keeps : Prop :=
  ∀ ip ∈ client.dials unicode c,
    (client.allowPrivate = false → Vetted ip)
    ∧ ∀ allow ∈ client.allowHosts, HostMatches unicode c.host allow

/-- The host of the connection matches the allow-list, or the transport pins and the host is a name
    or an address inside, or the resolver has no address for a name. -/
def Confined : Prop :=
  (∀ allow ∈ client.allowHosts, HostMatches unicode c.host allow)
  ∨ (client.allowPrivate = false ∧ (¬ c.Literal ∨ ¬ Vetted c.host))
  ∨ (client.allowPrivate = true ∧ ¬ c.Literal ∧ ∀ ips, c.lookup = .addresses ips → ips = [])

theorem keeps_iff :
    Keeps unicode client c ↔ Confined unicode client c := by
  by_cases hallow : ∀ allow ∈ client.allowHosts, HostMatches unicode c.host allow
  · exact ⟨fun _ => .inl hallow,
      fun _ ip hip => ⟨fun hprivate => vetted_of_mem_dials hprivate hip, hallow⟩⟩
  -- off the allow-list, nothing may be dialled
  have hkeeps : Keeps unicode client c ↔ client.dials unicode c = [] := by
    constructor
    · intro h
      refine List.eq_nil_iff_forall_not_mem.2 (fun ip hip => hallow (h ip hip).2)
    · intro h ip hip
      rw [h] at hip
      cases hip
  rw [hkeeps, Confined]
  simp only [hallow, false_or]
  have hoff : offAllowList unicode c.host client.allowHosts = true := by
    rw [← Bool.not_eq_false, offAllowList_eq_false_iff]
    exact hallow
  cases hprivate : client.allowPrivate with
  | false =>
    simp only [true_and, Bool.false_eq_true, false_and, or_false]
    by_cases hliteral : c.Literal
    · simp only [hliteral, not_true_eq_false, false_or]
      constructor
      · intro hnil hvetted
        rw [(dials_literal hprivate hliteral).2 hvetted] at hnil
        cases hnil
      · exact dials_literal_of_not_vetted hprivate hliteral
    · simp [hliteral, dials_name hprivate hliteral hoff]
  | true =>
    simp only [Bool.true_eq_false, false_and, true_and, false_or]
    unfold Client.dials Connection.Literal candidates
    rw [hprivate, if_pos rfl]
    cases IpAddress.ofText c.host with
    | some address => simp
    | none =>
      cases c.lookup with
      | addresses ips => simp
      | osError => simp
      | raised message => simp

/-- **Egress.** In every run of a client, every connection keeps to the settings exactly when every
    one is confined. No address inside is dialled unless private ones are allowed. The connection of
    a URL that has been guarded is confined when the HTTP library connects to the host of the URL. -/
theorem run_keeps_iff (client : Client) : (∀ run : List Connection,
      (∀ c ∈ run, Keeps unicode client c) ↔ ∀ c ∈ run, Confined unicode client c)
    ∧ (client.allowPrivate = false →
        ∀ run : List Connection, ∀ c ∈ run, ∀ ip ∈ client.dials unicode c, Vetted ip)
    ∧ ∀ (resolve : Bool) (lookup : Lookup) (url accepted : String) (c : Connection),
        guardUrl unicode client.allowPrivate client.allowHosts resolve lookup url = .ok accepted →
        (∀ parts, urlsplit unicode url = .ok parts → parts.hostname unicode = some c.host) →
        Confined unicode client c := by
  refine ⟨?_, ?_, ?_⟩
  · intro run
    simp only [keeps_iff]
  · intro hprivate run c _ ip hip
    exact vetted_of_mem_dials hprivate hip
  · intro resolve lookup url accepted c hguard hhost
    obtain ⟨-, parts, host, hparts, -, -, hname, hchecked⟩ := guardUrl_ok hguard
    rw [hhost parts hparts, Option.some.injEq] at hname
    exact .inl (hname ▸ (guardHost_ok hchecked).1)

def listedClient : Client := { allowHosts := some ["example.com"] }

def strayConnection : Connection := ⟨"8.8.8.8".toList, .osError⟩

def listedConnection : Connection :=
  ⟨"api.example.com".toList, .addresses ["93.184.216.34".toList, "93.184.216.35".toList]⟩

/-- The guard refuses the URL of an address that is not on the allow-list; a connection to the
    address is made. -/
theorem stray_dialled : ¬ (∀ (unicode : UnicodeData) (client : Client) (run : List Connection),
        ∀ c ∈ run, Keeps unicode client c)
    ∧ guardUrl asciiData listedClient.allowPrivate listedClient.allowHosts true .osError
          "https://8.8.8.8/"
        = .error (.security "host '8.8.8.8' is not in the egress allow-list") := by
  constructor
  · intro hclaim
    have hkeeps := hclaim asciiData listedClient [strayConnection] strayConnection (by simp)
    have hdialled : "8.8.8.8".toList ∈ listedClient.dials asciiData strayConnection := by
      decide
    have hmatch := (hkeeps _ hdialled).2 ["example.com"] rfl
    rw [← hostAllowed_iff] at hmatch
    revert hmatch
    decide
  · rfl

/-- Two connections of one client: the allowed name, with two addresses, and again. -/
theorem run_keeps_listed :
    (∀ c ∈ [listedConnection, listedConnection], Keeps asciiData listedClient c)
    ∧ listedClient.dials asciiData listedConnection = ["93.184.216.34".toList] := by
  obtain ⟨hrun, -, -⟩ := run_keeps_iff asciiData listedClient
  have hlisted : Confined asciiData listedClient listedConnection := by
    refine .inl (fun allow hallow => ?_)
    cases hallow
    rw [← hostAllowed_iff]
    decide
  refine ⟨(hrun _).2 ?_, by decide⟩
  simpa using hlisted

end Himmy.Toolkit
