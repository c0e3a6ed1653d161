import Himmy.Orchestrators.Pipeline

/-! # The members of a pipeline

`_member_specs` names the members of a stored team: the first member of a name keeps it, and the
`k`-th is named after it with the suffix `-k`, which is not compared with the names still to come.
The names are the nodes of the pipeline, and each superstep takes the turn of the next of them
(`turnsTaken_eq`). -/

namespace Himmy

open CompiledStateGraph (gather runNode visitError? route runSuperstep advance mergeItem
  runNode_of_gather)

/-- What `_member_specs` reads of a stored agent: its id, and the name of its sanitized spec. -/
structure AgentDefRecord where
  agentId : String
  specName : String

def AgentDefRecord.base (record : AgentDefRecord) : String := pyOr (some record.specName) record.agentId

def suffixed (base : String) (k : Nat) : String := base ++ "-" ++ toString k

def nextName (seen : Dict Nat) (base : String) : String × Dict Nat :=
  match seen.find? base with
  | some k => (suffixed base (k + 1), seen.set base (k + 1))
  | none => (base, seen.set base 1)

/-- The loop of `_member_specs`. -/
def nameMembers : Dict Nat → List AgentDefRecord → List (String × AgentDefRecord)
  | _, [] => []
  | seen, record :: records =>
    ((nextName seen record.base).1, record) :: nameMembers (nextName seen record.base).2 records

variable (members : List AgentDefRecord)

def memberSpecs : List (String × AgentDefRecord) :=
  nameMembers KeyedList.empty members

def memberNames : List String := (memberSpecs members).map Prod.fst

/-! ## The names -/

theorem toList_suffixed (base : String) (k : Nat) :
    (suffixed base k).toList = base.toList ++ '-' :: Nat.toDigits 10 k := by
  simp [suffixed, String.toList_append]

theorem dash_notMem_toDigits (k : Nat) : '-' ∉ Nat.toDigits 10 k := fun h =>
  absurd (Nat.isDigit_of_mem_toDigits (by decide) (by decide) h) (by decide)

theorem suffixed_inj {b b' : String} {k k' : Nat} (h : suffixed b k = suffixed b' k') :
    b = b' ∧ k = k' := by
  have hlist := congrArg String.toList h
  rw [toList_suffixed, toList_suffixed] at hlist
  -- the last dash of a suffixed name is the one before the number
  have hlast : ∀ {as digits digits' : List Char}, '-' ∉ digits →
      '-' :: digits = as ++ '-' :: digits' → as = [] := by
    intro as digits digits' hdigits has
    cases as with
    | nil => rfl
    | cons c as =>
      obtain ⟨-, has⟩ := List.cons.inj has
      exact absurd (by simp [has]) hdigits
  have hbase : b.toList = b'.toList := by
    rcases List.append_eq_append_iff.1 hlist with ⟨as, hb, has⟩ | ⟨as, hb, has⟩
    · simpa [hlast (dash_notMem_toDigits k) has] using hb.symm
    · simpa [hlast (dash_notMem_toDigits k') has] using hb
  rw [hbase] at hlist
  exact ⟨String.toList_inj.1 hbase,
    toDigits_injective (List.cons.inj (List.append_cancel_left hlist)).2⟩

theorem suffixed_ne_self (b : String) (k : Nat) : suffixed b k ≠ b := by
  intro h
  have hlen := congrArg (fun s => s.toList.length) h
  simp [toList_suffixed] at hlen

theorem suffixed_unreserved (b : String) (k : Nat) : suffixed b k ≠ START ∧ suffixed b k ≠ END := by
  have hdash : '-' ∈ (suffixed b k).toList := by simp [toList_suffixed]
  constructor <;> intro h <;> rw [h] at hdash <;> exact absurd hdash (by decide)

/-- The name of a member whose base is `base`, after members of these bases. -/
def nameAfter (past : List String) (base : String) : String :=
  if base ∈ past then suffixed base (past.count base + 1) else base

def namesAfter : List String → List String → List String
  | _, [] => []
  | past, base :: bases => nameAfter past base :: namesAfter (past ++ [base]) bases

theorem names_nameMembers {seen : Dict Nat} {past : List String}
    (hseen : ∀ b, seen.find? b = if b ∈ past then some (past.count b) else none)
    (records : List AgentDefRecord) :
    (nameMembers seen records).map Prod.fst = namesAfter past (records.map AgentDefRecord.base) := by
  induction records generalizing seen past with
  | nil => rfl
  | cons record records ih =>
    have hnext : nextName seen record.base
        = (nameAfter past record.base, seen.set record.base (past.count record.base + 1)) := by
      unfold nextName nameAfter
      by_cases hin : record.base ∈ past
      · simp [hseen, hin]
      · simp [hseen, hin, List.count_eq_zero_of_not_mem hin]
    simp only [nameMembers, List.map_cons, namesAfter, hnext]
    congr 1
    refine ih fun b => ?_
    rw [Dict.find?_set]
    by_cases hb : b = record.base
    · simp [hb]
    · simp [hb, hseen, Ne.symm hb]

theorem memberNames_eq : memberNames members = namesAfter [] (members.map AgentDefRecord.base) :=
  names_nameMembers (fun _ => rfl) members

theorem map_snd_memberSpecs : (memberSpecs members).map Prod.snd = members := by
  unfold memberSpecs
  generalize (KeyedList.empty : Dict Nat) = seen
  induction members generalizing seen with
  | nil => rfl
  | cons record records ih => simp [nameMembers, ih]

variable {past bases : List String}

theorem getElem?_namesAfter {i : Nat} {b : String}
    (hi : bases[i]? = some b) (hnew : b ∉ past ++ bases.take i) :
    (namesAfter past bases)[i]? = some b := by
  induction bases generalizing past i with
  | nil => cases hi
  | cons base bases ih =>
    cases i with
    | zero =>
      obtain rfl : base = b := Option.some.inj hi
      simp only [List.take_zero, List.append_nil] at hnew
      simp [namesAfter, nameAfter, hnew]
    | succ i =>
      show (namesAfter (past ++ [base]) bases)[i]? = some b
      refine ih hi ?_
      simpa [List.append_assoc] using hnew

theorem mem_namesAfter {n : String} : n ∈ namesAfter past bases ↔ (n ∈ bases ∧ n ∉ past)
      ∨ ∃ b k, 2 ≤ k ∧ past.count b < k ∧ k ≤ (past ++ bases).count b ∧ n = suffixed b k := by
  induction bases generalizing past with
  | nil =>
    constructor
    · intro h
      cases h
    · rintro (⟨h, -⟩ | ⟨b, k, -, hlt, hle, -⟩)
      · cases h
      · rw [List.append_nil] at hle
        omega
  | cons base bases ih =>
    rw [namesAfter, List.mem_cons, ih, List.append_assoc, List.singleton_append]
    have hcount : ∀ b, (past ++ [base]).count b = past.count b + if base = b then 1 else 0 := by
      intro b
      simp [List.count_append, List.count_cons]
    have hall : base ∈ past → 1 ≤ past.count base := fun h => List.one_le_count_iff.2 h
    have hself : past.count base + 1 ≤ (past ++ base :: bases).count base := by
      simp [List.count_append]
    constructor
    · rintro (rfl | ⟨hmem, hnew⟩ | ⟨b, k, h2, hlt, hle, rfl⟩)
      · unfold nameAfter
        split
        · next hin => exact .inr ⟨base, _, by have := hall hin; omega, Nat.lt_succ_self _, hself, rfl⟩
        · next hnew => exact .inl ⟨List.mem_cons_self, hnew⟩
      · exact .inl ⟨List.mem_cons_of_mem _ hmem, fun h => hnew (List.mem_append_left _ h)⟩
      · rw [hcount] at hlt
        exact .inr ⟨b, k, h2, by omega, hle, rfl⟩
    · rintro (⟨hmem, hnew⟩ | ⟨b, k, h2, hlt, hle, rfl⟩)
      · by_cases hn : n = base
        · subst hn
          exact .inl (if_neg hnew).symm
        · refine .inr (.inl ⟨(List.mem_cons.1 hmem).resolve_left hn, ?_⟩)
          simp [hnew, hn]
      · by_cases hk : base = b ∧ k = past.count b + 1
        · obtain ⟨rfl, rfl⟩ := hk
          left
          rw [nameAfter, if_pos (List.one_le_count_iff.1 (by omega))]
        · refine .inr (.inr ⟨b, k, h2, ?_, hle, rfl⟩)
          rw [hcount]
          split
          · next hb => have : k ≠ past.count b + 1 := fun h => hk ⟨hb, h⟩; omega
          · omega

def Unclashed (bases : List String) : Prop :=
  ∀ b k, 2 ≤ k → k ≤ bases.count b → suffixed b k ∉ bases

theorem nodup_namesAfter (h : Unclashed (past ++ bases)) : (namesAfter past bases).Nodup := by
  induction bases generalizing past with
  | nil => exact List.nodup_nil
  | cons base bases ih =>
    rw [namesAfter, List.nodup_cons]
    refine ⟨fun hmem => ?_, ih (by simpa using h)⟩
    rw [mem_namesAfter, List.append_assoc, List.singleton_append] at hmem
    unfold nameAfter at hmem
    split at hmem
    · next hin =>
        have hone : 1 ≤ past.count base := List.one_le_count_iff.2 hin
        rcases hmem with ⟨hmem, -⟩ | ⟨b, k, -, hlt, -, heq⟩
        · refine h base (past.count base + 1) (by omega) ?_ (by simp [hmem])
          simp only [List.count_append, List.count_cons_self]
          omega
        · obtain ⟨rfl, rfl⟩ := suffixed_inj heq
          simp [List.count_append] at hlt
    · rcases hmem with ⟨-, hnew⟩ | ⟨b, k, h2, -, hle, heq⟩
      · exact hnew (by simp)
      · exact h b k h2 hle (by simp [← heq])

theorem suffixed_notMem_of_nodup (h : (namesAfter past bases).Nodup)
    {b : String} {k : Nat} (h2 : 2 ≤ k) (hlt : past.count b < k)
    (hle : k ≤ (past ++ bases).count b) (hpast : suffixed b k ∉ past) : suffixed b k ∉ bases := by
  induction bases generalizing past with
  | nil => exact List.not_mem_nil
  | cons base bases ih =>
    rw [namesAfter, List.nodup_cons, mem_namesAfter, List.append_assoc, List.singleton_append,
      not_or] at h
    obtain ⟨⟨hfirst, hlater⟩, hrest⟩ := h
    intro hmem
    have hcount : (past ++ [base]).count b = past.count b + if base = b then 1 else 0 := by
      simp [List.count_append, List.count_cons]
    by_cases hhead : base = suffixed b k
    · -- the member that keeps the name comes first
      subst hhead
      refine hlater ⟨b, k, h2, ?_, hle, if_neg hpast⟩
      rw [hcount, if_neg (suffixed_ne_self b k)]
      exact hlt
    · have htail := (List.mem_cons.1 hmem).resolve_left (Ne.symm hhead)
      have hpast' : suffixed b k ∉ past ++ [base] := by simp [hpast, Ne.symm hhead]
      by_cases hk : base = b ∧ k = past.count b + 1
      · -- the member that is given the name comes first
        obtain ⟨rfl, rfl⟩ := hk
        have hname : nameAfter past base = suffixed base (past.count base + 1) :=
          if_pos (List.one_le_count_iff.1 (by omega))
        exact hfirst (by rw [hname]; exact ⟨htail, hpast'⟩)
      · refine ih hrest ?_ (by simpa using hle) hpast' htail
        rw [hcount]
        split
        · next hb => have : k ≠ past.count b + 1 := fun h => hk ⟨hb, h⟩; omega
        · omega

theorem nodup_memberNames_iff :
    (memberNames members).Nodup ↔ Unclashed (members.map AgentDefRecord.base) := by
  rw [memberNames_eq]
  constructor
  · intro h b k h2 hle
    exact suffixed_notMem_of_nodup h h2 (by simp; omega) hle List.not_mem_nil
  · exact fun h => nodup_namesAfter h

/-! ## The graph of the names -/

section Build

variable {ω : Type} {turn : ω → String → String → MemberTurn} {graph : StateGraph ω Json}
  {done : List String}

/-- A graph whose nodes are these members. -/
structure Grown (turn : ω → String → String → MemberTurn) (graph : StateGraph ω Json)
    (done : List String) : Prop where
  node : ∀ n, graph.nodes.get? n = if n ∈ done then some ⟨n, makeNode turn n, none⟩ else none
  edge : ∀ n targets, graph.edges.find? n = some targets →
    n ∈ done ∧ ∀ target ∈ targets, target = END ∨ target ∈ done
  reducers : graph.reducers = KeyedList.empty

namespace Grown

section

variable (h : Grown turn graph done)

include h

theorem addEdge {start target : String} (hstart : start ∈ done)
    (htarget : target = END ∨ target ∈ done) : Grown turn (graph.addEdge start target) done := by
  refine ⟨h.node, fun n targets hn => ?_, h.reducers⟩
  rw [StateGraph.find?_addEdge] at hn
  split at hn
  · next heq =>
      subst heq
      cases hn
      refine ⟨hstart, fun t ht => ?_⟩
      rcases List.mem_append.1 ht with hold | hnew
      · cases hfind : graph.edges.find? n with
        | none => simp [hfind] at hold
        | some targets => exact (h.edge n targets hfind).2 t (by simpa [hfind] using hold)
      · rwa [List.mem_singleton.1 hnew]
  · exact h.edge n targets hn

theorem addNode {name : String} (hnew : name ∉ done) (hname : name ≠ START ∧ name ≠ END) :
    ∃ graph', graph.addNode name (makeNode turn name) = .ok graph'
      ∧ Grown turn graph' (done ++ [name]) := by
  have hfree : graph.nodes.get? name = none := by rw [h.node, if_neg hnew]
  refine ⟨{ graph with nodes := graph.nodes.put ⟨name, makeNode turn name, none⟩ }, ?_, ?_⟩
  · simp [StateGraph.addNode, hname, hfree]
  · refine ⟨fun n => ?_, fun n targets hn => ?_, h.reducers⟩
    · simp only [KeyedList.get?_put, h.node, List.mem_append, List.mem_singleton]
      by_cases hn : n = name
      · subst hn
        simp
      · simp [hn]
    · obtain ⟨hmem, htargets⟩ := h.edge n targets hn
      exact ⟨List.mem_append_left _ hmem,
        fun t ht => (htargets t ht).imp_right (List.mem_append_left _)⟩

theorem setEntryPoint (name : String) :
    Grown turn (graph.setEntryPoint name) done := ⟨h.node, h.edge, h.reducers⟩

theorem addMembers (names : List String) (prev : Option String)
    (hprev : ∀ last ∈ prev, last ∈ done) (hnodup : (done ++ names).Nodup)
    (hnames : ∀ n ∈ names, n ≠ START ∧ n ≠ END) :
    ∃ graph', Himmy.addMembers turn names prev graph = .ok graph'
      ∧ Grown turn graph' (done ++ names) := by
  induction names generalizing graph done prev with
  | nil =>
    rw [List.append_nil]
    cases prev with
    | none => exact ⟨graph, rfl, h⟩
    | some last => exact ⟨_, rfl, h.addEdge (hprev last rfl) (Or.inl rfl)⟩
  | cons name names ih =>
    have hfresh : name ∉ done := fun hmem =>
      (List.nodup_append.1 hnodup).2.2 name hmem name List.mem_cons_self rfl
    obtain ⟨added, hadd, hgrown⟩ := h.addNode hfresh (hnames name List.mem_cons_self)
    rw [Himmy.addMembers, hadd, List.append_cons]
    rw [List.append_cons] at hnodup
    have hself : name ∈ done ++ [name] := by simp
    cases prev with
    | none =>
      exact ih (hgrown.setEntryPoint name) _ (by simp) hnodup
        (fun n hn => hnames n (List.mem_cons_of_mem _ hn))
    | some last =>
      exact ih (hgrown.addEdge (List.mem_append_left _ (hprev last rfl)) (Or.inr hself)) _
        (by simp) hnodup (fun n hn => hnames n (List.mem_cons_of_mem _ hn))

theorem edgeError? : graph.edgeError? = none := by
  have hnode : ∀ n ∈ done, (graph.nodes.get? n).isNone = false := by
    intro n hn
    rw [h.node, if_pos hn]
    rfl
  refine List.findSome?_eq_none_iff.2 fun kv hkv => ?_
  obtain ⟨hsource, htargets⟩ := h.edge kv.1 kv.2 (Dict.find?_eq_some_iff.2 hkv)
  rw [hnode kv.1 hsource]
  simp only [Bool.false_eq_true, if_false, Option.map_eq_none_iff, List.find?_eq_none]
  intro target ht
  rcases htargets target ht with rfl | hmem
  · simp
  · simp [hnode target hmem]

end

end Grown

/-- A run of the pipeline of these names starts from this graph. -/
structure Compiled (turn : ω → String → String → MemberTurn) (names : List String)
    (g : CompiledStateGraph ω Json) : Prop where
  pipeline : IsPipeline g names
  node : ∀ n ∈ names, g.nodes.get? n = some ⟨n, makeNode turn n, none⟩
  reducers : g.reducers = KeyedList.empty
  limit : g.recursionLimit = defaultRecursionLimit

variable {names : List String}

theorem entry_addMembers {last : String} {graph' : StateGraph ω Json}
    (h : addMembers turn names (some last) graph = .ok graph') : graph'.entry = graph.entry := by
  induction names generalizing graph last with
  | nil =>
    cases h
    rfl
  | cons name names ih =>
    rw [addMembers] at h
    split at h
    · cases h
    · next added hadd =>
        obtain ⟨-, -, rfl⟩ := StateGraph.addNode_eq_ok hadd
        rw [ih h]
        rfl

theorem unreserved_of_addMembers {prev : Option String}
    {graph' : StateGraph ω Json} (h : addMembers turn names prev graph = .ok graph') :
    ∀ n ∈ names, n ≠ START ∧ n ≠ END := by
  induction names generalizing graph prev with
  | nil => exact fun n hn => by cases hn
  | cons name names ih =>
    rw [addMembers] at h
    split at h
    · cases h
    · next added hadd =>
        intro n hn
        rcases List.mem_cons.1 hn with rfl | hn
        · unfold StateGraph.addNode at hadd
          split at hadd
          · cases hadd
          · next hname => exact not_or.1 hname
        · exact ih h n hn

theorem compile_eq_ok {entry : String} (hentry : graph.entry = some entry)
    (hmem : (graph.nodes.get? entry).isSome = true) (hedge : graph.edgeError? = none) :
    ∃ g, graph.compile = .ok g ∧ g.nodes = graph.nodes ∧ g.reducers = graph.reducers
      ∧ g.recursionLimit = defaultRecursionLimit := by
  unfold StateGraph.compile
  rw [if_neg (by simp)]
  split
  · next hnone => rw [hentry] at hnone; cases hnone
  next entry' hsome =>
  obtain rfl : entry = entry' := Option.some.inj (hentry.symm.trans hsome)
  rw [dif_pos hmem]
  split
  · next hfound => rw [hedge] at hfound; cases hfound
  · exact ⟨_, rfl, rfl, rfl, rfl⟩

theorem exists_pipelineGraph (turn : ω → String → String → MemberTurn)
    (hne : names ≠ []) (hnodup : names.Nodup) (hnames : ∀ n ∈ names, n ≠ START ∧ n ≠ END) :
    ∃ g, pipelineGraph turn names = .ok g ∧ Compiled turn names g := by
  obtain ⟨name, rest, rfl⟩ := List.exists_cons_of_ne_nil hne
  have hempty : Grown turn ({ name := "workflow" } : StateGraph ω Json) [] :=
    ⟨fun _ => rfl, nofun, rfl⟩
  obtain ⟨first, hadd, hfirst⟩ := hempty.addNode List.not_mem_nil (hnames name List.mem_cons_self)
  obtain ⟨graph, hbuild, hgrown⟩ := (hfirst.setEntryPoint name).addMembers rest (some name)
    (by simp) hnodup (fun n hn => hnames n (List.mem_cons_of_mem _ hn))
  obtain ⟨g, hcompile, hnodes, hreducers, hlimit⟩ := compile_eq_ok (entry_addMembers hbuild)
    (by rw [hgrown.node]; simp) hgrown.edgeError?
  have hok : pipelineGraph turn (name :: rest) = .ok g := by
    rw [pipelineGraph, buildPipelineGraph, addMembers, hadd]
    simp only [hbuild, hcompile]
  refine ⟨g, hok, isPipeline_of_pipelineGraph hok, fun n hn => ?_, ?_, hlimit⟩
  · rw [hnodes, hgrown.node, if_pos (by simpa using hn)]
  · rw [hreducers, hgrown.reducers]

end Build

/-! ## The turns of a run -/

/-- `_node_prompt`, of the prompt of the run and the output of the step before. -/
def stepPrompt (prompt prior : String) : String :=
  if prior = "" then prompt else prompt ++ "\n\nPrevious step output:\n" ++ prior

def threaded (answer : String → String → MemberTurn) (prompt : String) :
    List String → String → List (String × String)
  | [], _ => []
  | name :: names, prior =>
    (name, stepPrompt prompt prior) ::
      match answer name (stepPrompt prompt prior) with
      | .answered text => threaded answer prompt names (text.getD "")
      | _ => []

def turnsTaken {ω : Type} (g : CompiledStateGraph ω Json) (w : ω) (tg : TaskGroup) :
    Nat → GraphProgress Json → List (String × String)
  | 0, _ => []
  | n + 1, p =>
    if g.recursionLimit ≤ p.superstep then []
    else p.frontier.eraseDups.map (fun name => (name, nodePrompt p.state)) ++
      match g.advance w tg none p with
      | .ended _ => []
      | .advanced p' => turnsTaken g w tg n p'

section Turns

variable {ω : Type} {turn : ω → String → String → MemberTurn} {names : List String}
  {g : CompiledStateGraph ω Json} {w : ω} {tg : TaskGroup}

/-- The state between two members. -/
structure Between (prompt prior : String) (state : Dict Json) : Prop where
  prompt : Dict.str? state "prompt" = some prompt
  prior : Dict.str? state "last_output" = some prior

theorem Between.nodePrompt {prompt prior : String} {state : Dict Json}
    (h : Between prompt prior state) : nodePrompt state = stepPrompt prompt prior := by
  have hor : ∀ s : String, pyOr (some s) "" = s := by
    intro s
    by_cases hs : s = ""
    · subst hs
      rfl
    · exact pyOr_some hs ""
  rw [Himmy.nodePrompt, h.prompt, h.prior, hor, hor]
  rfl

theorem gather_singleton {name : String} {state delta : Dict Json}
    (h : g.runNode w state name = .ok delta) : g.gather w tg [name] state = .ok [delta] := by
  have hnone : tg.collect [] = [] := List.subperm_nil.1 (tg.subperm [])
  have hraised : [g.runNode w state name].filterMap raisedBy = [] := by rw [h]; rfl
  have hdelta : [g.runNode w state name].filterMap (·.toOption) = [delta] := by rw [h]; rfl
  simp only [gather, List.map_cons, List.map_nil, hraised, hdelta, hnone]
  rfl

variable {p : GraphProgress Json}

theorem AtStep.frontier_eq {k : Nat} (hp : AtStep names k p) {name : String}
    (hk : names[k]? = some name) : p.frontier = [name] := by
  obtain ⟨hlt, hget⟩ := List.getElem?_eq_some_iff.1 hk
  rw [hp.frontier, List.drop_eq_getElem_cons hlt, hget]
  rfl

def memberDelta (state : Dict Json) (name text : String) : Dict Json :=
  Dict.ofList [("last_output", .str text), ("outputs", .obj ((outputsOf state).set name (.str text)).items)]

theorem runNode_eq (h : Compiled turn names g) {name : String} (hname : name ∈ names)
    {prompt prior : String} {state : Dict Json} (hstate : Between prompt prior state) :
    g.runNode w state name = match turn w name (stepPrompt prompt prior) with
      | .awaitingApproval checkpointId => .error (.nodeInterrupt name (checkpointId.getD ""))
      | .raised text => .error (.nodeRaised name text)
      | .answered text => .ok (memberDelta state name (text.getD "")) := by
  simp only [runNode, h.node name hname, makeNode, hstate.nodePrompt]
  cases turn w name (stepPrompt prompt prior) <;> rfl

theorem advance_answered (h : Compiled turn names g) (tg : TaskGroup) {k : Nat}
    (hp : AtStep names k p) {name prompt prior : String} (hk : names[k]? = some name)
    (hlimit : k < g.recursionLimit) (hstate : Between prompt prior p.state) {text : Option String}
    (hturn : turn w name (stepPrompt prompt prior) = .answered text) :
    ∃ p', g.advance w tg none p = .advanced p' ∧ Between prompt (text.getD "") p'.state := by
  have hmem := List.mem_of_getElem? hk
  have hrun := runNode_eq (w := w) h hmem hstate
  rw [hturn] at hrun
  have hguard : [name].findSome? (g.visitError? p.visitCounts) = none := by
    simp [visitError?, h.node name hmem]
  have hroute : ∀ state, g.route w name state = .ok [(names[k + 1]?).getD END] := by
    intro state
    unfold route
    rw [h.pipeline.unrouted, h.pipeline.chained.next k name hk]
    rfl
  have hstep : g.runSuperstep w tg [name] p = .ok ([memberDelta p.state name (text.getD "")],
      [(names[k + 1]?).getD END].filter (· ≠ END)) := by
    unfold runSuperstep
    rw [hguard]
    simp [gather_singleton hrun, hroute, bind, Except.bind, pure, Except.pure]
  have hdup : p.frontier.eraseDups = [name] := by rw [hp.frontier_eq hk]; rfl
  unfold advance
  rw [if_neg (by simp [hp.frontier_eq hk]), if_neg (by rw [hp.superstep]; omega)]
  simp only [hdup, hstep]
  refine ⟨_, rfl, ?_⟩
  -- the graph has no reducers, so the items of the delta replace those of the state
  have hset : ∀ state kv, g.mergeItem state kv = state.set kv.1 kv.2 := by
    intro state kv
    unfold mergeItem
    rw [h.reducers]
    rfl
  have hmerge : ∀ (state : Dict Json) (a b : Json),
      g.merge state (Dict.ofList [("last_output", a), ("outputs", b)])
        = (state.set "last_output" a).set "outputs" b := by
    intro state a b
    rw [← hset state ("last_output", a), ← hset _ ("outputs", b)]
    rfl
  simp only [List.foldl_cons, List.foldl_nil, memberDelta, hmerge]
  have hprompt := hstate.prompt
  unfold Dict.str? at hprompt
  constructor
  · simpa [Dict.str?, Dict.find?_set] using hprompt
  · simp [Dict.str?, Dict.find?_set]

theorem advance_stopped (h : Compiled turn names g) (tg : TaskGroup) (p' : GraphProgress Json) {k : Nat}
    (hp : AtStep names k p) {name prompt prior : String} (hk : names[k]? = some name)
    (hstate : Between prompt prior p.state)
    (hturn : ∀ text, turn w name (stepPrompt prompt prior) ≠ .answered text) :
    g.advance w tg none p ≠ .advanced p' := by
  intro hadv
  have hrun := runNode_eq (w := w) h (List.mem_of_getElem? hk) hstate
  have hdup : p.frontier.eraseDups = [name] := by rw [hp.frontier_eq hk]; rfl
  obtain ⟨deltas, targets, hstep⟩ : ∃ deltas targets,
      g.runSuperstep w tg [name] p = .ok (deltas, targets) := by
    unfold advance at hadv
    split at hadv
    · cases hadv
    split at hadv
    · cases hadv
    dsimp only at hadv
    rw [hdup] at hadv
    split at hadv
    · cases hadv
    · cases hadv
    · next deltas targets hstep => exact ⟨deltas, targets, hstep⟩
  obtain ⟨gathered, hgather⟩ : ∃ gathered, g.gather w tg [name] p.state = .ok gathered := by
    unfold runSuperstep at hstep
    split at hstep
    · cases hstep
    · cases hgather : g.gather w tg [name] p.state with
      | error e => rw [hgather] at hstep; cases hstep
      | ok gathered => exact ⟨gathered, rfl⟩
  have hok := runNode_of_gather hgather
  rw [List.map_cons, hrun] at hok
  cases hanswer : turn w name (stepPrompt prompt prior) with
  | answered text => exact hturn text hanswer
  | _ =>
    rw [hanswer] at hok
    cases gathered with
    | nil => cases hok
    | cons delta gathered => cases (List.cons.inj hok).1

theorem turnsTaken_eq (h : Compiled turn names g) (w : ω) (tg : TaskGroup) {k n : Nat}
    (hp : AtStep names k p) {prompt prior : String} (hstate : Between prompt prior p.state)
    (hn : g.recursionLimit < n + k) : turnsTaken g w tg n p
      = (threaded (turn w) prompt (names.drop k) prior).take (g.recursionLimit - k) := by
  induction n generalizing k p prior with
  | zero =>
    rw [Nat.sub_eq_zero_of_le (by omega), List.take_zero]
    rfl
  | succ n ih =>
    rw [turnsTaken]
    by_cases hlimit : g.recursionLimit ≤ p.superstep
    · rw [hp.superstep] at hlimit
      rw [if_pos (by rwa [hp.superstep]), Nat.sub_eq_zero_of_le hlimit, List.take_zero]
    rw [if_neg hlimit]
    rw [hp.superstep] at hlimit
    cases hk : names[k]? with
    | none =>
      have hdone : names.drop k = [] := List.drop_eq_nil_iff.2 (List.getElem?_eq_none_iff.1 hk)
      have hfrontier : p.frontier = [] := by rw [hp.frontier, hdone]; rfl
      simp [hdone, threaded, hfrontier, advance]
    | some name =>
      obtain ⟨hlt, hget⟩ := List.getElem?_eq_some_iff.1 hk
      obtain ⟨m, hm⟩ : ∃ m, g.recursionLimit - k = m + 1 := ⟨g.recursionLimit - k - 1, by omega⟩
      have hdup : p.frontier.eraseDups = [name] := by rw [hp.frontier_eq hk]; rfl
      rw [List.drop_eq_getElem_cons hlt, hget, threaded, hm, List.take_succ_cons, hdup,
        hstate.nodePrompt, List.map_cons, List.map_nil, List.singleton_append]
      congr 1
      by_cases hturn : ∃ text, turn w name (stepPrompt prompt prior) = .answered text
      · obtain ⟨text, hturn⟩ := hturn
        obtain ⟨p', hadv, hstate'⟩ := advance_answered h tg hp hk (by omega) hstate hturn
        simp only [hadv, hturn]
        rw [ih (hp.advance h.pipeline hadv) hstate' (by omega)]
        congr 1
        omega
      · have hend := fun p' => advance_stopped h tg p' hp hk hstate
          (fun text ht => hturn ⟨text, ht⟩)
        cases hadv : g.advance w tg none p with
        | advanced p' => exact absurd hadv (hend p')
        | ended e =>
          cases hanswer : turn w name (stepPrompt prompt prior) with
          | answered text => exact absurd ⟨text, hanswer⟩ hturn
          | _ => simp

end Turns

theorem between_pipelineState (prompt : String) : Between prompt "" (pipelineState prompt) := by
  constructor <;> simp [Dict.str?, pipelineState, Dict.find?_ofList_cons, Dict.find?_ofList_nil]

theorem length_threaded_le (answer : String → String → MemberTurn) (prompt : String)
    (names : List String) (prior : String) :
    (threaded answer prompt names prior).length ≤ names.length := by
  induction names generalizing prior with
  | nil => exact Nat.le_refl 0
  | cons name names ih =>
    rw [threaded, List.length_cons, List.length_cons]
    refine Nat.succ_le_succ ?_
    split
    · exact ih _
    · exact Nat.zero_le _

theorem length_threaded {answer : String → String → MemberTurn}
    (h : ∀ name prompt, ∃ text, answer name prompt = .answered text) (prompt : String)
    (names : List String) (prior : String) :
    (threaded answer prompt names prior).length = names.length := by
  induction names generalizing prior with
  | nil => rfl
  | cons name names ih =>
    obtain ⟨text, htext⟩ := h name (stepPrompt prompt prior)
    simp only [threaded, htext, List.length_cons, ih]

/-! ## Every member takes part -/

theorem length_memberNames (members : List AgentDefRecord) :
    (memberNames members).length = members.length := by
  have hlen := congrArg List.length (map_snd_memberSpecs members)
  simpa [memberNames] using hlen

theorem unreserved_memberNames_iff (members : List AgentDefRecord) :
    (∀ n ∈ memberNames members, n ≠ START ∧ n ≠ END)
      ↔ ∀ record ∈ members, record.base ≠ START ∧ record.base ≠ END := by
  simp only [memberNames_eq, mem_namesAfter]
  constructor
  · intro h record hrecord
    exact h _ (Or.inl ⟨List.mem_map_of_mem hrecord, List.not_mem_nil⟩)
  · rintro h n (⟨hmem, -⟩ | ⟨b, k, -, -, -, rfl⟩)
    · obtain ⟨record, hrecord, rfl⟩ := List.mem_map.1 hmem
      exact h record hrecord
    · exact suffixed_unreserved b k

/-- The names of these members are distinct, the first of a name keeps it, and a run of their pipeline
    takes the turn of each once, in order, with the prompt and the output of the one before. -/
structure TakesPartOnce (members : List AgentDefRecord) : Prop where
  order : (memberSpecs members).map Prod.snd = members
  nodup : (memberNames members).Nodup
  first : ∀ i record, members[i]? = some record →
    record.base ∉ (members.take i).map AgentDefRecord.base →
    (memberNames members)[i]? = some record.base
  turns : ∀ {ω : Type} (turn : ω → String → String → MemberTurn),
    ∃ g, pipelineGraph turn (memberNames members) = .ok g ∧
      ∀ (w : ω) (tg : TaskGroup) (checkpointId prompt : String),
        turnsTaken g w tg (g.recursionLimit + 1)
            (g.freshCheckpoint checkpointId (pipelineState prompt)).toGraphProgress
          = threaded (turn w) prompt (memberNames members) ""

/-- The members of a pipeline whose names come out distinct, are no names of the graph's own, and are
    no more than its recursion limit. -/
structure Distinguished (members : List AgentDefRecord) : Prop where
  nonempty : members ≠ []
  within : members.length ≤ defaultRecursionLimit
  unreserved : ∀ record ∈ members, record.base ≠ START ∧ record.base ≠ END
  unclashed : Unclashed (members.map AgentDefRecord.base)

theorem takesPartOnce_iff (members : List AgentDefRecord) :
    TakesPartOnce members ↔ Distinguished members := by
  constructor
  · intro h
    obtain ⟨g, hok, hturns⟩ := h.turns (fun (_ : Unit) _ _ => .answered none)
    have hne : memberNames members ≠ [] := by
      intro hnil
      rw [hnil] at hok
      cases hok
    have hnames : ∀ n ∈ memberNames members, n ≠ START ∧ n ≠ END := by
      unfold pipelineGraph buildPipelineGraph at hok
      split at hok
      · cases hok
      · next graph hgraph => exact unreserved_of_addMembers hgraph
    obtain ⟨g', hok', hcompiled⟩ := exists_pipelineGraph (fun (_ : Unit) _ _ => .answered none) hne
      h.nodup hnames
    obtain rfl : g = g' := Except.ok.inj (hok.symm.trans hok')
    have hclash := (nodup_memberNames_iff members).1 h.nodup
    refine ⟨?_, ?_, (unreserved_memberNames_iff members).1 hnames, hclash⟩
    · rintro rfl
      exact hne rfl
    · -- a run of members that all answer is cut at the recursion limit
      have hrun := turnsTaken_eq hcompiled () TaskGroup.all
        (atStep_fresh hcompiled.pipeline "" (pipelineState "")) (between_pipelineState "")
        (n := g.recursionLimit + 1) (by omega)
      rw [hturns, List.drop_zero, Nat.sub_zero] at hrun
      have hlen := congrArg List.length hrun
      rw [List.length_take, length_threaded (fun _ _ => ⟨none, rfl⟩), length_memberNames,
        hcompiled.limit] at hlen
      omega
  · intro h
    have hlen := length_memberNames members
    have hnodup := (nodup_memberNames_iff members).2 h.unclashed
    refine ⟨map_snd_memberSpecs members, hnodup, fun i record hi hnew => ?_, fun turn => ?_⟩
    · rw [memberNames_eq]
      exact getElem?_namesAfter (by simp [hi]) (by simpa [List.map_take] using hnew)
    · have hne : memberNames members ≠ [] := by
        intro hnil
        rw [hnil] at hlen
        exact h.nonempty (List.length_eq_zero_iff.1 hlen.symm)
      obtain ⟨g, hok, hcompiled⟩ := exists_pipelineGraph turn hne hnodup 
        ((unreserved_memberNames_iff members).2 h.unreserved)
      refine ⟨g, hok, fun w tg checkpointId prompt => ?_⟩
      have hrun := turnsTaken_eq hcompiled w tg
        (atStep_fresh hcompiled.pipeline checkpointId (pipelineState prompt))
        (between_pipelineState prompt) (n := g.recursionLimit + 1) (by omega)
      rw [hrun, List.drop_zero, Nat.sub_zero]
      refine List.take_of_length_le ?_
      have hle := length_threaded_le (turn w) prompt (memberNames members) ""
      have := h.within
      rw [hcompiled.limit]
      omega

/-- Two agents named `a` and one named `a-2`. -/
theorem not_takesPartOnce : ¬ TakesPartOnce [⟨"1", "a"⟩, ⟨"2", "a"⟩, ⟨"3", "a-2"⟩] := by
  intro h
  exact absurd h.nodup (by decide +kernel)

end Himmy
