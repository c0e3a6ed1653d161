import Himmy.Library.Transition
import Mathlib.Logic.Function.Basic

/-! # Which node runs the scheduler

Nodes that share a Postgres database contend for one advisory lock: the node whose session holds it
ticks the routines, every other one follows. The server frees the lock when the session ends, and a
watchdog on each node asks from time to time whether the node's own session is still there, or bids
for the lock again. The awaits of `refresh` are steps of their own, so that the steps of the nodes,
the ends of sessions and the deaths of processes interleave in every order. -/

namespace Himmy.Leadership

inductive Mode
  | singleNode | postgresLease | follower
  deriving DecidableEq

/-- Where the watchdog of a node is; `contending` has what `was_leader` was. -/
inductive Phase
  | down | idle | checking | demoting | unlocked | contending (was : Bool) | stopping
  deriving DecidableEq

def Phase.keeps : Phase → Bool
  | .idle | .checking | .demoting => true
  | _ => false

/-- A process with its `SchedulerLeadership`; `active` says that its scheduler ticks. -/
structure Node where
  isLeader : Bool := false
  mode : Mode := .follower
  pgHandle : Option Nat := none
  active : Bool := false
  phase : Phase := .down

/-- The nodes and the server: the session that holds the lock, those that have ended, and the number
    of those that were opened. -/
structure Cluster where
  nodes : Nat → Node := fun _ => {}
  lock : Option Nat := none
  ended : List Nat := []
  opened : Nat := 0

/-- What `try_acquire_scheduler_leader` comes to. One that raises may leave a session behind that
    holds the lock. -/
inductive Reply
  | granted | refused | raised (leaked : Bool)

inductive Label
  | start (n : Nat) (reply : Reply)
  | refresh (n : Nat)
  | check (n : Nat) (held : Bool)
  | unlock (n : Nat) (freed : Bool)
  | demote (n : Nat)
  | contend (n : Nat) (reply : Reply)
  | stop (n : Nat) (reply : Reply)
  | release (n : Nat) (freed : Bool)
  | drop (session : Nat)
  | crash (n : Nat)

namespace Cluster

variable (s : Cluster)

def put (n : Nat) (node : Node) : Cluster := { s with nodes := Function.update s.nodes n node }

def take : Cluster := { s with lock := some s.opened, opened := s.opened + 1 }

def free (session : Option Nat) : Cluster :=
  { s with lock := if s.lock = session then none else s.lock }

def endSession (session : Nat) : Cluster :=
  { s.free (some session) with ended := session :: s.ended }

/-- `pg_try_advisory_lock` on a session of its own, and the handle that is returned; `none` where
    the server does not answer so. -/
def tryAcquire : Reply → Option (Cluster × Option Nat)
  | .granted => if s.lock = none then some (s.take, some s.opened) else none
  | .refused => if s.lock = none then none else some (s, none)
  | .raised true => if s.lock = none then some (s.take, none) else none
  | .raised false => some (s, none)

/-- `release_scheduler_leader`, which may leave the session with its lock. -/
def releaseLeader (handle : Option Nat) (freed : Bool) : Cluster :=
  if freed = true ∧ handle.isSome = true then s.free handle else s

end Cluster

/-- The watchdog after a `refresh`: it starts or stops the scheduler. -/
def Node.settle (node : Node) (was : Bool) : Node :=
  { node with
    active :=
      if node.isLeader && !was then true else if !node.isLeader && was then false else node.active
    phase := .idle }

/-- The node that `_acquire_postgres` makes. -/
def Node.bid (handle : Option Nat) : Reply → Node
  | .granted =>
    { isLeader := true, mode := .postgresLease, pgHandle := handle, active := true, phase := .idle }
  | .refused => { phase := .idle }
  | .raised _ => { isLeader := true, mode := .singleNode, active := true, phase := .idle }

/-- The node after the bid of a `refresh`. -/
def Node.rebid (node : Node) (handle : Option Nat) : Reply → Node
  | .granted => { node with isLeader := true, mode := .postgresLease, pgHandle := handle }
  | .refused => { node with isLeader := false, mode := .follower }
  | .raised _ => node

def step (s : Cluster) : Label → Option Cluster
  | .start n reply =>
    if (s.nodes n).phase = .down then
      (s.tryAcquire reply).map fun out => out.1.put n (.bid out.2 reply)
    else none
  | .refresh n =>
    let node := s.nodes n
    if node.phase = .idle ∧ node.mode ≠ .singleNode then
      some (s.put n { node with phase := if node.isLeader then .checking else .contending false })
    else none
  | .check n held =>
    let node := s.nodes n
    if node.phase = .checking ∧ (held = true → ∃ c ∈ node.pgHandle, c ∉ s.ended) then
      some (s.put n { node with phase := if held then .idle else .demoting })
    else none
  | .unlock n freed =>
    let node := s.nodes n
    if node.phase = .demoting then
      some ((s.releaseLeader node.pgHandle freed).put n { node with phase := .unlocked })
    else none
  | .demote n =>
    let node := s.nodes n
    if node.phase = .unlocked then
      some (s.put n { node with
        isLeader := false, mode := .follower, pgHandle := none, phase := .contending true })
    else none
  | .contend n reply =>
    let node := s.nodes n
    match node.phase with
    | .contending was =>
      (s.tryAcquire reply).map fun out => out.1.put n ((node.rebid out.2 reply).settle was)
    | _ => none
  | .stop n reply =>
    let node := s.nodes n
    match node.phase with
    | .down | .stopping => none
    | .contending _ =>
      -- the bid is cancelled, and its session is left behind
      (s.tryAcquire reply).map fun out => out.1.put n
        { node with active := false, phase := .stopping }
    | _ => some (s.put n { node with active := false, phase := .stopping })
  | .release n freed =>
    let node := s.nodes n
    if node.phase = .stopping then
      some ((s.releaseLeader node.pgHandle freed).put n
        { node with pgHandle := none, phase := .down })
    else none
  | .drop session => if session < s.opened then some (s.endSession session) else none
  | .crash n =>
    some (((s.nodes n).pgHandle.elim s s.endSession).put n {})

def cluster : LTS Cluster Label := ⟨step⟩

/-! ## What holds of the nodes in every run -/

/-- The node ticks under a lease of its own. -/
structure Node.Leads (node : Node) : Prop where
  isLeader : node.isLeader = true
  mode : node.mode = .postgresLease
  handle : node.pgHandle.isSome = true
  active : node.active = true

structure Node.Follows (node : Node) : Prop where
  isLeader : node.isLeader = false
  mode : node.mode = .follower
  handle : node.pgHandle = none

/-- The scheduler of a node ticks as long as the node takes itself for a leader, up to the end of
    the `refresh` that demotes it. -/
def Node.Ok (node : Node) : Prop :=
  match node.phase with
  | .down => node.pgHandle = none ∧ node.active = false
  | .stopping => node.active = false
  | .idle => node.Leads ∨ (node.Follows ∧ node.active = false)
      ∨ (node.isLeader = true ∧ node.mode = .singleNode ∧ node.pgHandle = none ∧ node.active = true)
  | .checking | .demoting | .unlocked => node.Leads
  | .contending was => node.Follows ∧ node.active = was

theorem Node.Ok.of_handle {node : Node} {c : Nat} (hok : node.Ok) (h : node.pgHandle = some c) :
    node.Leads ∨ node.phase = .stopping := by
  unfold Node.Ok at hok
  split at hok
  · rw [hok.1] at h
    cases h
  · next hphase => exact .inr hphase
  · rcases hok with hleads | ⟨hfollows, -⟩ | ⟨-, -, hnone, -⟩
    · exact .inl hleads
    · rw [hfollows.handle] at h
      cases h
    · rw [hnone] at h
      cases h
  · exact .inl hok
  · exact .inl hok
  · exact .inl hok
  · rw [hok.1.handle] at h
    cases h

/-! ## What a step does -/

def Reply.proper : Reply → Bool
  | .raised leaked => !leaked
  | _ => true

/-- The step leaves no session behind that holds the lock and that no node has. -/
def Label.proper : Label → Bool
  | .start _ reply | .contend _ reply => reply.proper
  | .stop _ .granted => false
  | .stop _ reply => reply.proper
  | .unlock _ freed | .release _ freed => freed
  | _ => true

/-- What a step does to a node and to the server; a `proper` one leaves no session behind that holds
    the lock and that no node has. -/
inductive Effect (s : Cluster) (proper : Bool) : Cluster → Prop
  | alone {n : Nat} {node : Node} (hok : node.Ok) (hsame : node.pgHandle = (s.nodes n).pgHandle)
      (hkeeps : node.phase.keeps = true → (s.nodes n).phase.keeps = true)
      (hphase : node.phase ≠ .unlocked) :
      Effect s proper (s.put n node)
  | forgot {n : Nat} {node : Node} (hok : node.Ok) (hnone : node.pgHandle = none)
      (hold : (s.nodes n).pgHandle = none ∨ (s.nodes n).phase = .unlocked) :
      Effect s proper (s.put n node)
  | released {n : Nat} {node : Node} (freed : Bool) (hfreed : proper = true → freed = true)
      (hok : node.Ok) (hhandle : node.pgHandle = none
        ∨ node.pgHandle = (s.nodes n).pgHandle ∧ node.phase.keeps = false) :
      Effect s proper ((s.releaseLeader (s.nodes n).pgHandle freed).put n node)
  | taken {n : Nat} {node : Node} (hfree : s.lock = none) (hok : node.Ok)
      (hhandle : node.pgHandle = none ∨ node.pgHandle = some s.opened)
      (hproper : proper = true → node.pgHandle = some s.opened ∧ node.phase ≠ .unlocked) :
      Effect s proper (s.take.put n node)
  | ended {n : Nat} {node : Node} {session : Nat} (hsession : session < s.opened) (hok : node.Ok)
      (hhandle : node.pgHandle = none ∧ (s.nodes n).pgHandle = some session
        ∨ node = s.nodes n) :
      Effect s proper ((s.endSession session).put n node)

variable {s t : Cluster} {n : Nat} {node : Node}

theorem Effect.bid {reply : Reply} {out : Cluster × Option Nat} {f : Option Nat → Reply → Node}
    (hout : s.tryAcquire reply = some out) (hnone : (s.nodes n).pgHandle = none)
    (hwon : ∀ c, (f (some c) .granted).Ok ∧ (f (some c) .granted).pgHandle = some c
      ∧ (f (some c) .granted).phase ≠ .unlocked)
    (hlost : ∀ reply, reply ≠ .granted → (f none reply).Ok ∧ (f none reply).pgHandle = none) :
    Effect s reply.proper (out.1.put n (f out.2 reply)) := by
  rcases reply with _ | _ | _ | _
  · obtain ⟨hfree, hout⟩ := Option.ite_none_right_eq_some.1 hout
    cases hout
    obtain ⟨hok, hhandle, hphase⟩ := hwon s.opened
    exact .taken hfree hok (.inr hhandle) fun _ => ⟨hhandle, hphase⟩
  · obtain ⟨-, hout⟩ := Option.ite_none_left_eq_some.1 hout
    cases hout
    obtain ⟨hok, hhandle⟩ := hlost .refused nofun
    exact .forgot hok hhandle (.inl hnone)
  · cases hout
    obtain ⟨hok, hhandle⟩ := hlost (.raised false) nofun
    exact .forgot hok hhandle (.inl hnone)
  · obtain ⟨hfree, hout⟩ := Option.ite_none_right_eq_some.1 hout
    cases hout
    obtain ⟨hok, hhandle⟩ := hlost (.raised true) nofun
    exact .taken hfree hok (.inl hhandle) nofun

theorem step_effect (hoks : ∀ n, (s.nodes n).Ok)
    (hhandles : ∀ n c, (s.nodes n).pgHandle = some c → c < s.opened)
    {a : Label} (hstep : step s a = some t) : Effect s a.proper t := by
  cases a with
  | start n reply =>
    obtain ⟨hphase, hstep⟩ := Option.ite_none_right_eq_some.1 hstep
    obtain ⟨out, hout, rfl⟩ := Option.map_eq_some_iff.1 hstep
    have hok := hoks n
    rw [Node.Ok, hphase] at hok
    refine .bid hout hok.1 (fun c => ⟨.inl ⟨rfl, rfl, rfl, rfl⟩, rfl, nofun⟩) fun reply hne => ?_
    rcases reply with _ | _ | _
    · exact absurd rfl hne
    · exact ⟨.inr (.inl ⟨⟨rfl, rfl, rfl⟩, rfl⟩), rfl⟩
    · exact ⟨.inr (.inr ⟨rfl, rfl, rfl, rfl⟩), rfl⟩
  | refresh n =>
    obtain ⟨⟨hphase, hmode⟩, hstep⟩ := Option.ite_none_right_eq_some.1 hstep
    cases hstep
    have hok := hoks n
    rw [Node.Ok, hphase] at hok
    refine .alone ?_ rfl (fun _ => by rw [hphase]; rfl) (by dsimp only; split <;> nofun)
    rcases hok with hleads | ⟨hfollows, hactive⟩ | ⟨-, hsingle, -⟩
    · simp only [hleads.isLeader, if_true]
      exact ⟨rfl, hleads.2, hleads.3, hleads.4⟩
    · simp only [hfollows.isLeader, Bool.false_eq_true, if_false]
      exact ⟨⟨rfl, hfollows.2, hfollows.3⟩, hactive⟩
    · exact absurd hsingle hmode
  | check n held =>
    obtain ⟨⟨hphase, -⟩, hstep⟩ := Option.ite_none_right_eq_some.1 hstep
    cases hstep
    have hok := hoks n
    rw [Node.Ok, hphase] at hok
    refine .alone ?_ rfl (fun _ => by rw [hphase]; rfl) (by dsimp only; split <;> nofun)
    cases held with
    | true => exact .inl ⟨hok.1, hok.2, hok.3, hok.4⟩
    | false => exact ⟨hok.1, hok.2, hok.3, hok.4⟩
  | unlock n freed =>
    obtain ⟨hphase, hstep⟩ := Option.ite_none_right_eq_some.1 hstep
    cases hstep
    have hok := hoks n
    rw [Node.Ok, hphase] at hok
    exact .released freed id ⟨hok.1, hok.2, hok.3, hok.4⟩ (.inr ⟨rfl, rfl⟩)
  | demote n =>
    obtain ⟨hphase, hstep⟩ := Option.ite_none_right_eq_some.1 hstep
    cases hstep
    have hok := hoks n
    rw [Node.Ok, hphase] at hok
    exact .forgot ⟨⟨rfl, rfl, rfl⟩, hok.active⟩ rfl (.inr hphase)
  | contend n reply =>
    simp only [step] at hstep
    split at hstep
    · next was hphase =>
        obtain ⟨out, hout, rfl⟩ := Option.map_eq_some_iff.1 hstep
        have hok := hoks n
        rw [Node.Ok, hphase] at hok
        obtain ⟨hfollows, hactive⟩ := hok
        refine .bid (f := fun handle reply => ((s.nodes n).rebid handle reply).settle was) hout
          hfollows.handle
          (fun c => ⟨.inl ⟨rfl, rfl, rfl, ?_⟩, rfl, nofun⟩) fun reply hne => ?_
        · cases was <;> simp [Node.settle, Node.rebid, hactive]
        · rcases reply with _ | _ | _
          · exact absurd rfl hne
          · refine ⟨.inr (.inl ⟨⟨rfl, rfl, hfollows.handle⟩, ?_⟩), hfollows.handle⟩
            cases was <;> simp [Node.settle, Node.rebid, hactive]
          · refine ⟨.inr (.inl ⟨⟨hfollows.1, hfollows.2, hfollows.3⟩, ?_⟩), hfollows.handle⟩
            cases was <;> simp [Node.settle, Node.rebid, hactive, hfollows.isLeader]
    · cases hstep
  | stop n reply =>
    simp only [step] at hstep
    split at hstep
    · cases hstep
    · cases hstep
    · next was hphase =>
        obtain ⟨out, hout, rfl⟩ := Option.map_eq_some_iff.1 hstep
        have hok := hoks n
        rw [Node.Ok, hphase] at hok
        rcases reply with _ | _ | _ | _
        · obtain ⟨hfree, hout⟩ := Option.ite_none_right_eq_some.1 hout
          cases hout
          exact .taken hfree rfl (.inl hok.1.handle) nofun
        · obtain ⟨-, hout⟩ := Option.ite_none_left_eq_some.1 hout
          cases hout
          exact .forgot rfl hok.1.handle (.inl hok.1.handle)
        · cases hout
          exact .forgot rfl hok.1.handle (.inl hok.1.handle)
        · obtain ⟨hfree, hout⟩ := Option.ite_none_right_eq_some.1 hout
          cases hout
          exact .taken hfree rfl (.inl hok.1.handle) nofun
    · cases hstep
      exact .alone rfl rfl (fun hkeeps => by cases hkeeps) nofun
  | release n freed =>
    obtain ⟨hphase, hstep⟩ := Option.ite_none_right_eq_some.1 hstep
    cases hstep
    have hok := hoks n
    rw [Node.Ok, hphase] at hok
    exact .released freed id ⟨rfl, hok⟩ (.inl rfl)
  | drop session =>
    obtain ⟨hsession, hstep⟩ := Option.ite_none_right_eq_some.1 hstep
    cases hstep
    have hsame : (s.endSession session).put 0 (s.nodes 0) = s.endSession session := by
      show ({ s.endSession session with nodes := Function.update s.nodes 0 (s.nodes 0) } : Cluster)
        = _
      rw [Function.update_eq_self]
      rfl
    exact hsame ▸ .ended hsession (hoks 0) (.inr rfl)
  | crash n =>
    cases hstep
    cases hhandle : (s.nodes n).pgHandle with
    | none => exact .forgot ⟨rfl, rfl⟩ rfl (.inl hhandle)
    | some session => exact .ended (hhandles n session hhandle) ⟨rfl, rfl⟩ (.inl ⟨rfl, hhandle⟩)

/-! ## Safety -/

/-- A session that has not ended keeps its lock until its node gives it up. -/
structure Safe (s : Cluster) : Prop where
  ok : ∀ n, (s.nodes n).Ok
  ended : ∀ c ∈ s.ended, c < s.opened
  lock : ∀ c, s.lock = some c → c < s.opened ∧ c ∉ s.ended
  handle : ∀ n c, (s.nodes n).pgHandle = some c → c < s.opened
  held : ∀ n c, (s.nodes n).pgHandle = some c → c ∉ s.ended → (s.nodes n).phase.keeps = true →
    s.lock = some c
  distinct : ∀ n m c, (s.nodes n).pgHandle = some c → (s.nodes m).pgHandle = some c → n = m

theorem nodes_put (n : Nat) (node : Node) (hnodes : t.nodes = s.nodes) (m : Nat) :
    (t.put n node).nodes m = if m = n then node else s.nodes m := by
  rw [← hnodes]
  exact Function.update_apply ..

theorem Safe.put (h : Safe s) (hnodes : t.nodes = s.nodes) (hopened : s.opened ≤ t.opened)
    (hended : ∀ c ∈ t.ended, c < t.opened) (hlater : ∀ c ∈ s.ended, c ∈ t.ended)
    (hlock : ∀ c, t.lock = some c → c < t.opened ∧ c ∉ t.ended)
    (hkeep : ∀ c, s.lock = some c → c ∉ t.ended → (s.nodes n).pgHandle ≠ some c → t.lock = some c)
    (hok : node.Ok)
    (hself : ∀ c, node.pgHandle = some c → c < t.opened
      ∧ (c ∉ t.ended → node.phase.keeps = true → t.lock = some c)
      ∧ ∀ m, m ≠ n → (s.nodes m).pgHandle ≠ some c) :
    Safe (t.put n node) := by
  have hnode := nodes_put n node hnodes
  refine ⟨fun m => ?_, hended, hlock, fun m c hc => ?_, fun m c hc hlive hphase => ?_,
    fun m k c hm hk => ?_⟩
  · rw [hnode]
    split
    · exact hok
    · exact h.ok m
  · rw [hnode] at hc
    split at hc
    · exact (hself c hc).1
    · exact Nat.lt_of_lt_of_le (h.handle m c hc) hopened
  · rw [hnode] at hc hphase
    split at hc
    · next hmn => exact (hself c hc).2.1 hlive (by rwa [if_pos hmn] at hphase)
    · next hmn =>
        rw [if_neg hmn] at hphase
        have hlock := h.held m c hc (fun hend => hlive (hlater c hend)) hphase
        exact hkeep c hlock hlive fun hn => hmn (h.distinct m n c hc hn)
  · rw [hnode] at hm hk
    split at hm <;> split at hk
    · next hmn hkn => rw [hmn, hkn]
    · next hmn hkn => exact absurd hk ((hself c hm).2.2 k hkn)
    · next hmn hkn => exact absurd hm ((hself c hk).2.2 m hmn)
    · exact h.distinct m k c hm hk

theorem Safe.set (h : Safe s) (hok : node.Ok)
    (hhandle : node.pgHandle = none ∨ node.pgHandle = (s.nodes n).pgHandle
      ∧ (node.phase.keeps = true → (s.nodes n).phase.keeps = true)) :
    Safe (s.put n node) := by
  refine h.put rfl (Nat.le_refl _) h.ended (fun c hc => hc) h.lock (fun c hc _ _ => hc) hok
    fun c hc => ?_
  rcases hhandle with hnone | ⟨hsame, hphase⟩
  · rw [hnone] at hc
    cases hc
  · rw [hsame] at hc
    exact ⟨h.handle n c hc, fun hlive hkeeps => h.held n c hc hlive (hphase hkeeps),
      fun m hm hmc => hm (h.distinct m n c hmc hc)⟩

theorem Cluster.lock_free {session : Option Nat} {c : Nat} :
    (s.free session).lock = some c ↔ s.lock = some c ∧ some c ≠ session := by
  show (if s.lock = session then none else s.lock) = some c ↔ _
  split
  · next h =>
      rw [h]
      exact ⟨fun hc => (by cases hc), fun hc => absurd hc.1.symm hc.2⟩
  · next h =>
      refine ⟨fun hc => ⟨hc, ?_⟩, And.left⟩
      rw [← hc]
      exact h

theorem Safe.releaseLeader (h : Safe s) (freed : Bool) (hok : node.Ok)
    (hhandle : node.pgHandle = none
      ∨ node.pgHandle = (s.nodes n).pgHandle ∧ node.phase.keeps = false) :
    Safe ((s.releaseLeader (s.nodes n).pgHandle freed).put n node) := by
  have hself : ∀ lock c, node.pgHandle = some c → c < s.opened
      ∧ (c ∉ s.ended → node.phase.keeps = true → lock = some c)
      ∧ ∀ m, m ≠ n → (s.nodes m).pgHandle ≠ some c := by
    intro lock c hc
    rcases hhandle with hnone | ⟨hsame, hphase⟩
    · rw [hnone] at hc
      cases hc
    · rw [hsame] at hc
      refine ⟨h.handle n c hc, fun _ hkeeps => ?_, fun m hm hmc => hm (h.distinct m n c hmc hc)⟩
      rw [hphase] at hkeeps
      cases hkeeps
  unfold Cluster.releaseLeader
  split
  · exact h.put rfl (Nat.le_refl _) h.ended (fun c hc => hc)
      (fun c hc => h.lock c (Cluster.lock_free.1 hc).1)
      (fun c hc _ hne => Cluster.lock_free.2 ⟨hc, hne.symm⟩) hok (hself _)
  · exact h.put rfl (Nat.le_refl _) h.ended (fun c hc => hc) h.lock (fun c hc _ _ => hc) hok (hself _)

theorem Safe.take (h : Safe s) (hfree : s.lock = none) (hok : node.Ok)
    (hhandle : node.pgHandle = none ∨ node.pgHandle = some s.opened) :
    Safe (s.take.put n node) := by
  have hnew : ∀ c ∈ s.ended, c < s.opened + 1 := fun c hc => Nat.lt_succ_of_lt (h.ended c hc)
  refine h.put rfl (Nat.le_succ _) hnew (fun c hc => hc) (fun c hc => ?_) (fun c hc _ _ => ?_) hok
    fun c hc => ?_
  · cases hc
    exact ⟨Nat.lt_succ_self _, fun hend => Nat.lt_irrefl _ (h.ended _ hend)⟩
  · rw [hfree] at hc
    cases hc
  · rcases hhandle with hnone | hsession
    · rw [hnone] at hc
      cases hc
    · rw [hsession] at hc
      cases hc
      exact ⟨Nat.lt_succ_self _, fun _ _ => rfl, fun m _ hmc => Nat.lt_irrefl _ (h.handle m _ hmc)⟩

theorem Safe.endSession (h : Safe s) {session : Nat} (hsession : session < s.opened) (hok : node.Ok)
    (hhandle : node.pgHandle = none ∧ (s.nodes n).pgHandle = some session ∨ node = s.nodes n) :
    Safe ((s.endSession session).put n node) := by
  have hlive : ∀ c, c ∉ session :: s.ended → c ∉ s.ended ∧ some c ≠ some session := by
    intro c hc
    rw [List.mem_cons, not_or] at hc
    exact ⟨hc.2, fun he => hc.1 (Option.some.inj he)⟩
  refine h.put rfl (Nat.le_refl _) ?_ (fun c hc => List.mem_cons_of_mem _ hc) (fun c hc => ?_)
    (fun c hc hend _ => Cluster.lock_free.2 ⟨hc, (hlive c hend).2⟩) hok fun c hc => ?_
  · intro c hc
    rcases List.mem_cons.1 hc with rfl | hc
    · exact hsession
    · exact h.ended c hc
  · obtain ⟨hc, hne⟩ := Cluster.lock_free.1 hc
    obtain ⟨hlt, hend⟩ := h.lock c hc
    exact ⟨hlt, List.not_mem_cons_of_ne_of_not_mem (fun he => hne (congrArg some he)) hend⟩
  · rcases hhandle with ⟨hnone, -⟩ | rfl
    · rw [hnone] at hc
      cases hc
    · refine ⟨h.handle n c hc, fun hend hne => ?_, fun m hm hmc => hm (h.distinct m n c hmc hc)⟩
      exact Cluster.lock_free.2 ⟨h.held n c hc (hlive c hend).1 hne, (hlive c hend).2⟩

theorem Effect.safe {proper : Bool} (h : Safe s) (heff : Effect s proper t) : Safe t := by
  cases heff with
  | alone hok hsame hkeeps => exact h.set hok (.inr ⟨hsame, hkeeps⟩)
  | forgot hok hnone => exact h.set hok (.inl hnone)
  | released freed _ hok hhandle => exact h.releaseLeader freed hok hhandle
  | taken hfree hok hhandle => exact h.take hfree hok hhandle
  | ended hsession hok hhandle => exact h.endSession hsession hok hhandle

/-- The scheduler of the node ticks although no lease of the node's is in force: its first bid
    raised, its session has ended, or a `refresh` is about to demote it. -/
def Detached (s : Cluster) (node : Node) : Prop :=
  node.mode = .singleNode ∨ (∃ c ∈ node.pgHandle, c ∈ s.ended) ∨ node.phase = .unlocked
    ∨ node.phase = .contending true

theorem safe_init : Safe {} where
  ok _ := ⟨rfl, rfl⟩
  ended c hc := by cases hc
  lock c hc := by cases hc
  handle n c hc := by cases hc
  held n c hc := by cases hc
  distinct n m c hc := by cases hc

theorem exec_safe {as : List Label} (hrun : cluster.exec {} as = some s) : Safe s :=
  cluster.exec_invariant (C := fun _ _ => True)
    (fun _ _ _ h _ hstep => (step_effect h.ok h.handle hstep).safe h) safe_init
    (.of_forall _ _ fun _ _ => trivial) hrun

theorem Safe.ticking (h : Safe s) {n : Nat} (hactive : (s.nodes n).active = true)
    (hlease : ¬ Detached s (s.nodes n)) :
    ∃ c, (s.nodes n).pgHandle = some c ∧ s.lock = some c := by
  simp only [Detached, not_or, not_exists, not_and] at hlease
  obtain ⟨hmode, hlive, hunlocked, hcontending⟩ := hlease
  have hok := h.ok n
  have hholds : (s.nodes n).Leads → (s.nodes n).phase.keeps = true →
      ∃ c, (s.nodes n).pgHandle = some c ∧ s.lock = some c := by
    intro hleads hkeeps
    obtain ⟨c, hc⟩ := Option.isSome_iff_exists.1 hleads.handle
    exact ⟨c, hc, h.held n c hc (hlive c hc) hkeeps⟩
  cases hphase : (s.nodes n).phase with
  | idle =>
    rw [Node.Ok, hphase] at hok
    rcases hok with hleads | ⟨-, hnot⟩ | ⟨-, hsingle, -⟩
    · exact hholds hleads (by rw [hphase]; rfl)
    · rw [hnot] at hactive
      cases hactive
    · exact absurd hsingle hmode
  | checking | demoting =>
    rw [Node.Ok, hphase] at hok
    exact hholds hok (by rw [hphase]; rfl)
  | unlocked => exact absurd hphase hunlocked
  | contending was =>
    rw [Node.Ok, hphase] at hok
    rw [hok.2] at hactive
    exact absurd (hactive ▸ hphase) hcontending
  | down =>
    rw [Node.Ok, hphase] at hok
    rw [hok.2] at hactive
    cases hactive
  | stopping =>
    rw [Node.Ok, hphase] at hok
    rw [hok] at hactive
    cases hactive

/-- **One node ticks under the lease.** In every order of steps, a scheduler that ticks and is not
    detached has the session that holds the lock, and of two that tick one at least is detached. -/
theorem ticking_exclusive {as : List Label} (hrun : cluster.exec {} as = some s) :
    (∀ n, (s.nodes n).active = true → ¬ Detached s (s.nodes n) →
        ∃ c, (s.nodes n).pgHandle = some c ∧ s.lock = some c)
      ∧ ∀ n m, n ≠ m → (s.nodes n).active = true → (s.nodes m).active = true →
        Detached s (s.nodes n) ∨ Detached s (s.nodes m) := by
  have hsafe := exec_safe hrun
  refine ⟨fun n => hsafe.ticking, fun n m hnm hn hm => ?_⟩
  by_contra hnot
  rw [not_or] at hnot
  obtain ⟨c, hc, hlock⟩ := hsafe.ticking hn hnot.1
  obtain ⟨c', hc', hlock'⟩ := hsafe.ticking hm hnot.2
  cases hlock.symm.trans hlock'
  exact hnm (hsafe.distinct n m c hc hc')

/-- The second node takes over when the session or the process of the first has ended. -/
private def takeover (ending : Label) : List Label :=
  [.start 0 .granted, .start 1 .refused, ending, .refresh 1, .contend 1 .granted]

theorem ticking_exclusive_overlap : ∃ s, cluster.exec {} (takeover (.drop 0)) = some s
    ∧ (s.nodes 0).active = true ∧ (s.nodes 1).active = true
    ∧ (Detached s (s.nodes 0) ∨ Detached s (s.nodes 1)) := by
  have hrun : cluster.exec {} (takeover (.drop 0)) = some _ := rfl
  exact ⟨_, hrun, rfl, rfl, (ticking_exclusive hrun).2 0 1 (by decide) rfl rfl⟩

/-! ## Failover -/

/-- The lock is held by the session of a node that has not given it up. -/
def Owned (s : Cluster) : Prop :=
  ∀ c, s.lock = some c → ∃ n, (s.nodes n).pgHandle = some c ∧ (s.nodes n).phase ≠ .unlocked

theorem Owned.put (h : Owned s) (hnodes : t.nodes = s.nodes)
    (hlock : ∀ c, t.lock = some c → node.pgHandle = some c ∧ node.phase ≠ .unlocked
      ∨ s.lock = some c ∧ ((s.nodes n).pgHandle ≠ some c ∨ (s.nodes n).phase = .unlocked)) :
    Owned (t.put n node) := by
  have hnode := nodes_put n node hnodes
  intro c hc
  rcases hlock c hc with hself | ⟨hold, hnot⟩
  · exact ⟨n, by rwa [hnode, if_pos rfl]⟩
  · obtain ⟨m, hm, hphase⟩ := h c hold
    have hmn : m ≠ n := by
      rintro rfl
      exact hnot.elim (fun hne => hne hm) fun hunlocked => hphase hunlocked
    exact ⟨m, by rw [hnode, if_neg hmn]; exact ⟨hm, hphase⟩⟩

theorem Owned.set (h : Owned s) (hsame : node.pgHandle = (s.nodes n).pgHandle)
    (hphase : node.phase ≠ .unlocked) :
    Owned (s.put n node) := by
  refine h.put rfl fun c hc => ?_
  by_cases hn : (s.nodes n).pgHandle = some c
  · exact .inl ⟨hsame.trans hn, hphase⟩
  · exact .inr ⟨hc, .inl hn⟩

theorem Owned.releaseLeader (h : Owned s) :
    Owned ((s.releaseLeader (s.nodes n).pgHandle true).put n node) := by
  unfold Cluster.releaseLeader
  split
  · refine h.put rfl fun c hc => ?_
    obtain ⟨hold, hne⟩ := Cluster.lock_free.1 hc
    exact .inr ⟨hold, .inl hne.symm⟩
  · next hnone =>
      refine h.put rfl fun c hc => .inr ⟨hc, .inl fun hsome => hnone ?_⟩
      rw [hsome]
      exact ⟨rfl, rfl⟩

theorem Effect.owned (h : Owned s) (heff : Effect s true t) : Owned t := by
  cases heff with
  | alone _ hsame _ hphase => exact h.set hsame hphase
  | @forgot n _ _ hnone hold =>
    refine h.put rfl fun c hc => .inr ⟨hc, hold.imp_left fun hnone => ?_⟩
    rw [hnone]
    nofun
  | released freed hfreed => exact hfreed rfl ▸ h.releaseLeader
  | taken _ _ _ hproper =>
    refine h.put rfl fun c hc => .inl ?_
    cases hc
    exact hproper rfl
  | @ended n _ _ _ _ hhandle =>
    refine h.put rfl fun c hc => ?_
    obtain ⟨hold, hne⟩ := Cluster.lock_free.1 hc
    rcases hhandle with ⟨-, hsession⟩ | rfl
    · exact .inr ⟨hold, .inl (by rw [hsession]; exact hne.symm)⟩
    · by_cases hself : (s.nodes n).pgHandle = some c ∧ (s.nodes n).phase ≠ .unlocked
      · exact .inl hself
      · exact .inr ⟨hold, (Decidable.not_and_iff_not_or_not.1 hself).imp_right Decidable.not_not.1⟩

/-- **Failover.** As long as no session is left behind with the lock, the lock is free for the next
    bid, or a node whose session has not ended has it, which leads or is about to stop. -/
theorem failover {as : List Label} (hproper : ∀ a ∈ as, a.proper = true)
    (hrun : cluster.exec {} as = some s) :
    s.lock = none ∨ ∃ n c, (s.nodes n).pgHandle = some c ∧ s.lock = some c ∧ c ∉ s.ended
      ∧ ((s.nodes n).Leads ∨ (s.nodes n).phase = .stopping) := by
  obtain ⟨hsafe, howned⟩ := cluster.exec_invariant (I := fun s => Safe s ∧ Owned s)
    (C := fun _ (a : Label) => a.proper = true)
    (fun _ _ _ h hproper hstep =>
      have heff := step_effect h.1.ok h.1.handle hstep
      ⟨heff.safe h.1, (hproper ▸ heff).owned h.2⟩)
    ⟨safe_init, fun c hc => by cases hc⟩ (.of_forall _ _ hproper) hrun
  cases hlock : s.lock with
  | none => exact .inl rfl
  | some c =>
    obtain ⟨n, hn, hphase⟩ := howned c hlock
    exact .inr ⟨n, c, hn, rfl, (hsafe.lock c hlock).2, (hsafe.ok n).of_handle hn⟩

theorem failover_crashed : ∃ s, cluster.exec {} (takeover (.crash 0)) = some s
    ∧ (s.lock = none ∨ ∃ n c, (s.nodes n).pgHandle = some c ∧ s.lock = some c ∧ c ∉ s.ended
      ∧ ((s.nodes n).Leads ∨ (s.nodes n).phase = .stopping)) := by
  have hrun : cluster.exec {} (takeover (.crash 0)) = some _ := rfl
  exact ⟨_, hrun, failover (by decide) hrun⟩

end Himmy.Leadership
