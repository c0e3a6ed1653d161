import Himmy.Runtime.Turn

/-! # The execution of tool calls

A provider that emits tool calls executes them too, and pairs every call with its return. A call whose
name is nearly that of a bound tool is executed under the name of the tool; the close matches of a name
are those of `difflib`. -/

namespace Himmy

open Himmy.Runtime

/-- `str.lower`, and the names that `difflib` finds close to a name: those to suggest, and whether one
    of them is close enough to stand for it. -/
structure NameMatcher where
  lower : String → String
  closeMatches : String → List String → List String
  confident : String → String → Bool

structure NameResolution where
  name : Option String
  autoCorrected : Bool := false
  original : String := ""
  suggestions : List String := []

variable (matcher : NameMatcher)

def resolveToolName (name : String) (available : List String) : NameResolution :=
  if name ∈ available then { name := some name, original := name }
  else match available.reverse.find? (fun a => matcher.lower a = matcher.lower name) with
    | some real => { name := some real, autoCorrected := true, original := name }
    | none =>
      let close := matcher.closeMatches name available
      match close.filter (matcher.confident name) with
      | [one] => { name := some one, autoCorrected := true, original := name, suggestions := close }
      | _ => { name := none, original := name, suggestions := close }

def unknownToolMessage (resolution : NameResolution) (available : List String) : String :=
  let quoted := resolution.suggestions.map (fun s => "'" ++ s ++ "'")
  " ".intercalate (["Unknown tool '" ++ resolution.original ++ "'."]
    ++ (match quoted with
      | [] => []
      | [one] => ["Did you mean " ++ one ++ "?"]
      | _ => ["Did you mean one of: " ++ ", ".intercalate quoted ++ "?"])
    ++ ["Available tools: " ++ (if available = [] then "(none)" else ", ".intercalate available)
      ++ ". Call one of these exactly by name."])

/-- A `ToolExecutor`: the tool that it executes, its arguments, and the return. -/
def ToolExecutor := String → Dict Value → ToolReturnRecord

def runOneToolCall (available : List String) (executor : Option ToolExecutor)
    (call : ToolCallRecord) : ToolReturnRecord :=
  let resolution := resolveToolName matcher call.toolName available
  match resolution.name, executor with
  | some tool, some executor =>
    let ret := { executor tool call.args with toolCallId := call.toolCallId }
    if tool = call.toolName then ret
    else { ret with toolName := tool, metadata := ret.metadata.set "repaired_from" (.str call.toolName) }
  | _, _ =>
    let message := unknownToolMessage resolution available
    { toolCallId := call.toolCallId, toolName := call.toolName, content := .str message,
      outcome := "failed",
      metadata := (Dict.set (Dict.set KeyedList.empty "error_code" (.str "UNKNOWN_TOOL")) "error_message"
        (.str message)).set "suggestions" (.list (resolution.suggestions.map .str)) }

/-- `_execute_tool_calls`: the returns, in the order of the calls. -/
def executeToolCalls (available : List String)
    (executor : Option ToolExecutor) (calls : List ToolCallRecord) : List ToolReturnRecord :=
  calls.map (runOneToolCall matcher available executor)

end Himmy

/-! ## Batches of tool calls

`_execute_tool_calls` serves the calls that only read, as long as they follow each other, as one
concurrent batch, and every other call alone. The executor has a state, which its calls read and
change. What the event loop makes of a batch is a `Schedule`, the order in which its calls are
served; no number of tasks at a time leads to an order that is not one of these. Whatever the
schedule, the calls come out as if they were made one after another. -/

namespace Himmy.ToolBatches

open Himmy.Runtime

/-! ### Recorded runs -/

/-- What a part of the run returns or raises, the state that it leaves, and the places of the calls
    that it served, each with the state that the call found. -/
structure Served (σ ε α : Type) where
  answer : Except ε α
  state : σ
  log : List (Nat × σ)

namespace Served

variable {σ ε α β : Type}

def andThen (o : Served σ ε α) (f : α → σ → Served σ ε β) : Served σ ε β :=
  match o.answer with
  | .ok a => ⟨(f a o.state).answer, (f a o.state).state, o.log ++ (f a o.state).log⟩
  | .error e => ⟨.error e, o.state, o.log⟩

def map (f : α → β) (o : Served σ ε α) : Served σ ε β := ⟨o.answer.map f, o.state, o.log⟩

theorem andThen_assoc {γ : Type} (o : Served σ ε α) (f : α → σ → Served σ ε β)
    (g : β → σ → Served σ ε γ) :
    (o.andThen f).andThen g = o.andThen fun a s => (f a s).andThen g := by
  unfold andThen
  cases o.answer with
  | error e => rfl
  | ok a =>
    dsimp only
    cases (f a o.state).answer <;> simp

theorem map_andThen {γ : Type} (o : Served σ ε α) (f : α → σ → Served σ ε β) (g : β → γ) :
    (o.andThen f).map g = o.andThen fun a s => (f a s).map g := by
  unfold andThen
  cases o.answer <;> rfl

theorem andThen_map {γ : Type} (o : Served σ ε α) (f : α → β) (g : β → σ → Served σ ε γ) :
    (o.map f).andThen g = o.andThen fun a s => g (f a) s := by
  unfold andThen map
  cases o.answer <;> rfl

theorem map_map {γ : Type} (o : Served σ ε α) (f : α → β) (g : β → γ) :
    (o.map f).map g = o.map (g ∘ f) := by
  unfold map
  cases o.answer <;> rfl

end Served

/-! ### The calls -/

/-- A bound tool with what it declares of its effects. -/
structure DeclaredTool extends BoundTool where
  readOnly : Option Bool := none
  readOnlyAuthoritative : Bool := true
  sequential : Bool := false

/-- What `_execute_tool_calls` runs with: `classifyParallelSafe` is the test of a tool's name, and
    `parallelism` the value of `HIMMY_TOOL_PARALLELISM`. -/
structure ToolSession (σ ε : Type) where
  boundTools : List DeclaredTool
  executor : Option (String → Dict Value → σ → Except ε ToolReturnRecord × σ)
  parallelism : Int
  matcher : NameMatcher
  classifyParallelSafe : String → Bool

abbrev Placed := ToolCallRecord × Nat

/-- The order in which the event loop serves the calls of a batch. -/
structure Schedule where
  order : List Placed → List Placed
  perm : ∀ batch, (order batch).Perm batch

/-- The results of a batch: the earliest failure in the order of the calls is raised. -/
def collect {ε α : Type} : List (Except ε α) → Except ε (List α)
  | [] => .ok []
  | .error e :: _ => .error e
  | .ok a :: rest => (collect rest).map (a :: ·)

namespace ToolSession

variable {σ ε : Type} (session : ToolSession σ ε)

def byName : Dict DeclaredTool :=
  session.boundTools.foldl (fun tools tool => tools.set tool.name tool) KeyedList.empty

def available : List String := session.byName.items.map Prod.fst

def isParallelSafe (tool : DeclaredTool) : Bool :=
  if tool.sequential then false
  else if tool.readOnly = some false then false
  else if tool.readOnly = some true ∧ tool.readOnlyAuthoritative = true then true
  else session.classifyParallelSafe tool.name

/-- The bound tool that a call is for, after the repair of its name. -/
def toolFor (call : ToolCallRecord) : Option String :=
  (resolveToolName session.matcher call.toolName session.available).name

def isParallel (call : ToolCallRecord) : Bool :=
  if session.parallelism ≤ 1 ∨ session.executor.isNone = true then false
  else ((session.toolFor call).bind session.byName.find?).any session.isParallelSafe

def runOneToolCall (call : Placed) (s : σ) : Served σ ε ToolReturnRecord :=
  match session.toolFor call.1, session.executor with
  | some tool, some executor =>
    let out := executor tool call.1.args s
    ⟨out.1.map fun ret => Himmy.runOneToolCall session.matcher session.available
        (some fun _ _ => ret) call.1, out.2, [(call.2, s)]⟩
  | _, _ =>
    ⟨.ok (Himmy.runOneToolCall session.matcher session.available none call.1), s, [(call.2, s)]⟩

/-- The tasks of a batch in the order in which they are served: their results, the state that they
    leave and the log. -/
def serveAll : List Placed → σ → List (Nat × Except ε ToolReturnRecord) × σ × List (Nat × σ)
  | [], s => ([], s, [])
  | call :: rest, s =>
    let out := session.runOneToolCall call s
    let later := serveAll rest out.state
    ((call.2, out.answer) :: later.1, later.2.1, out.log ++ later.2.2)

def flush (schedule : Schedule) (batch : List Placed) (s : σ) :
    Served σ ε (List ToolReturnRecord) :=
  match batch with
  | [] => ⟨.ok [], s, []⟩
  | [call] => (session.runOneToolCall call s).map fun ret => [ret]
  | batch =>
    let out := session.serveAll (schedule.order batch) s
    ⟨collect (batch.filterMap fun call => out.1.lookup call.2), out.2.1, out.2.2⟩

def walk (schedule : Schedule) : List Placed → List Placed → σ → Served σ ε (List ToolReturnRecord)
  | batch, [], s => session.flush schedule batch s
  | batch, call :: rest, s =>
    if session.isParallel call.1 then walk schedule (batch ++ [call]) rest s
    else (session.flush schedule batch s).andThen fun returns s =>
      (session.runOneToolCall call s).andThen fun ret s =>
        (walk schedule [] rest s).map fun later => returns ++ ret :: later

def executeToolCalls (schedule : Schedule) (calls : List ToolCallRecord) (s : σ) :
    Served σ ε (List ToolReturnRecord) :=
  session.walk schedule [] calls.zipIdx s

/-! ### One call after another -/

/-- The calls made one after another, up to the first that raises. -/
def serially : List Placed → σ → Served σ ε (List ToolReturnRecord)
  | [], s => ⟨.ok [], s, []⟩
  | call :: rest, s =>
    (session.runOneToolCall call s).andThen fun ret s => (serially rest s).map (ret :: ·)

/-- The executor only reads the state when it executes a tool that may join a batch. -/
def ReadsOnly : Prop :=
  ∀ executor ∈ session.executor, ∀ name tool, session.byName.find? name = some tool →
    session.isParallelSafe tool = true → ∀ args s, (executor name args s).2 = s

/-- A run of the calls in batches comes to what the serial one comes to. Where no call raises, both
    serve every call once, in the same states. Where one does, the batches serve besides what the
    serial run serves some calls that follow it in its batch, and no call from the next barrier on. -/
structure AsSerial {α : Type} (calls : List Placed) (batched serial : Served σ ε α) : Prop where
  answer : batched.answer = serial.answer
  state : batched.state = serial.state
  returned : ∀ a, serial.answer = .ok a →
    batched.log.Perm serial.log ∧ serial.log.map Prod.fst = calls.map Prod.snd
  raised : ∀ e, serial.answer = .error e → ∃ before failed reads rest,
    calls = before ++ failed :: (reads ++ rest)
      ∧ serial.log.map Prod.fst = (before ++ [failed]).map Prod.snd
      ∧ batched.log.Perm (serial.log ++ reads.map fun call => (call.2, serial.state))
      ∧ (∀ call ∈ reads, session.isParallel call.1 = true)
      ∧ (session.isParallel failed.1 = false → reads = [])

/-! ### A batch -/

variable {session} {calls calls' : List Placed} {call : Placed} {s : σ}

theorem runOneToolCall_log : (session.runOneToolCall call s).log = [(call.2, s)] := by
  unfold runOneToolCall
  split <;> rfl

theorem runOneToolCall_id {ret : ToolReturnRecord}
    (h : (session.runOneToolCall call s).answer = .ok ret) :
    ret.toolCallId = call.1.toolCallId := by
  have hid : ∀ executor,
      (Himmy.runOneToolCall session.matcher session.available executor call.1).toolCallId
      = call.1.toolCallId := by
    intro executor
    simp only [Himmy.runOneToolCall]
    split
    · split <;> rfl
    · rfl
  unfold runOneToolCall at h
  split at h
  · next tool executor _ _ =>
      dsimp only at h
      cases hout : (executor tool call.1.args s).1 with
      | error e =>
        rw [hout] at h
        cases h
      | ok r =>
        rw [hout] at h
        cases h
        exact hid _
  · cases h
    exact hid none

theorem runOneToolCall_reads (hreads : session.ReadsOnly)
    (hcall : session.isParallel call.1 = true) :
    (session.runOneToolCall call s).state = s := by
  unfold isParallel at hcall
  split at hcall
  · cases hcall
  · obtain ⟨tool, htool, hsafe⟩ := (Option.any_eq_true _ _).1 hcall
    obtain ⟨name, hname, hfind⟩ := Option.bind_eq_some_iff.1 htool
    unfold runOneToolCall
    split
    · next name' executor hname' hexecutor =>
        rw [hname] at hname'
        cases hname'
        exact hreads executor hexecutor name tool hfind hsafe call.1.args s
    · rfl

theorem serveAll_reads (hreads : session.ReadsOnly)
    (hcalls : ∀ call ∈ calls, session.isParallel call.1 = true) :
    session.serveAll calls s
      = (calls.map fun call => (call.2, (session.runOneToolCall call s).answer), s,
      calls.map fun call => (call.2, s)) := by
  induction calls with
  | nil => rfl
  | cons call calls ih =>
    rw [serveAll, runOneToolCall_reads hreads (hcalls call List.mem_cons_self),
      ih fun c hc => hcalls c (List.mem_cons_of_mem _ hc), runOneToolCall_log]
    rfl

theorem lookup_map {β : Type} (f : Placed → β) (hnodup : (calls.map Prod.snd).Nodup)
    (hcall : call ∈ calls) :
    (calls.map fun call => (call.2, f call)).lookup call.2 = some (f call) := by
  induction calls with
  | nil => cases hcall
  | cons c calls ih =>
    rw [List.map_cons, List.nodup_cons] at hnodup
    rw [List.map_cons, List.lookup_cons]
    rcases List.mem_cons.1 hcall with rfl | hcall
    · simp
    · have hne : (call.2 == c.2) = false := by
        simpa using fun he : call.2 = c.2 => hnodup.1 (he ▸ List.mem_map_of_mem hcall)
      rw [hne]
      exact ih hnodup.2 hcall

theorem AsSerial.map {α β : Type} {batched serial : Served σ ε α}
    (h : session.AsSerial calls batched serial)
    (f : α → β) : session.AsSerial calls (batched.map f) (serial.map f) := by
  obtain ⟨hanswer, hstate, hok, herror⟩ := h
  refine ⟨by simp [Served.map, hanswer], hstate, fun b hb => ?_, fun e he => ?_⟩
  · cases hall : serial.answer with
    | error e => simp [Served.map, hall, Except.map] at hb
    | ok a => exact hok a hall
  · cases hall : serial.answer with
    | error e' => exact herror e' hall
    | ok a => simp [Served.map, hall, Except.map] at he

theorem AsSerial.andThen {α β : Type} {batched serial : Served σ ε α}
    (h : session.AsSerial calls batched serial)
    {f g : α → σ → Served σ ε β} (hnext : ∀ a s, session.AsSerial calls' (f a s) (g a s)) :
    session.AsSerial (calls ++ calls') (batched.andThen f) (serial.andThen g) := by
  obtain ⟨hanswer, hstate, hok, herror⟩ := h
  unfold Served.andThen
  rw [hanswer, hstate]
  cases hall : serial.answer with
  | error e =>
    refine ⟨rfl, rfl, fun a ha => ?_, fun e' _ => ?_⟩
    · cases ha
    · obtain ⟨before, failed, reads, rest, hsplit, hplaces, hperm, hparallel, hbarrier⟩ :=
        herror e hall
      exact ⟨before, failed, reads, rest ++ calls', by simp [hsplit], hplaces, hperm, hparallel,
        hbarrier⟩
  | ok a =>
    obtain ⟨hperm, hplaces⟩ := hok a hall
    obtain ⟨hanswer', hstate', hok', herror'⟩ := hnext a serial.state
    refine ⟨hanswer', hstate', fun b hb => ?_, fun e he => ?_⟩
    · obtain ⟨hperm', hplaces'⟩ := hok' b hb
      exact ⟨hperm.append hperm', by simp [hplaces, hplaces']⟩
    · obtain ⟨before, failed, reads, rest, hsplit, hplaces', hperm', hparallel, hbarrier⟩ :=
        herror' e he
      refine ⟨calls ++ before, failed, reads, rest, by simp [hsplit], ?_, ?_, hparallel, hbarrier⟩
      · simp [hplaces, hplaces']
      · rw [List.append_assoc]
        exact hperm.append hperm'

theorem serially_reads (hreads : session.ReadsOnly)
    (hcalls : ∀ call ∈ calls, session.isParallel call.1 = true)
    {log : List (Nat × σ)} (hlog : log.Perm (calls.map fun call => (call.2, s))) :
    session.AsSerial calls ⟨collect (calls.map fun call => (session.runOneToolCall call s).answer),
      s, log⟩
      (session.serially calls s) := by
  induction calls generalizing log with
  | nil =>
    refine ⟨rfl, rfl, fun a h => ⟨hlog, rfl⟩, fun e h => ?_⟩
    cases h
  | cons call calls ih =>
    have hrest : ∀ c ∈ calls, session.isParallel c.1 = true := fun c hc =>
      hcalls c (List.mem_cons_of_mem _ hc)
    have hstate : (session.runOneToolCall call s).state = s :=
      runOneToolCall_reads hreads (hcalls call List.mem_cons_self)
    have hone : (session.runOneToolCall call s).log = [(call.2, s)] := runOneToolCall_log
    obtain ⟨hanswer, hend, hok, herror⟩ := ih hrest (.refl _)
    rw [serially, Served.andThen, hstate, hone]
    cases hhead : (session.runOneToolCall call s).answer with
    | error e =>
      refine ⟨by simp [collect, hhead], rfl, fun a h => ?_, fun e' _ => ?_⟩
      · cases h
      · exact ⟨[], call, calls, [], by simp, rfl, hlog, hrest, by simp [hcalls]⟩
    | ok ret =>
      have hserial : (session.serially calls s).answer
          = collect (calls.map fun call => (session.runOneToolCall call s).answer) :=
        hanswer.symm
      refine ⟨?_, hend, fun a h => ?_, fun e h => ?_⟩
      · simp only [List.map_cons, collect, hhead, Served.map, hserial]
      · simp only [Served.map] at h
        cases hall : (session.serially calls s).answer with
        | error e =>
          rw [hall] at h
          cases h
        | ok rets =>
          obtain ⟨hperm, hplaces⟩ := hok rets hall
          exact ⟨hlog.trans (.cons _ hperm), by simp [Served.map, hplaces]⟩
      · simp only [Served.map] at h
        cases hall : (session.serially calls s).answer with
        | error e' =>
          obtain ⟨before, failed, reads, rest, hsplit, hplaces, hperm, hparallel, hbarrier⟩ :=
            herror e' hall
          refine ⟨call :: before, failed, reads, rest, by rw [hsplit]; rfl, ?_, ?_, hparallel,
            hbarrier⟩
          · simp [Served.map, hplaces]
          · exact hlog.trans (.cons _ hperm)
        | ok rets =>
          rw [hall] at h
          cases h

theorem asSerial_one : session.AsSerial [call] (session.runOneToolCall call s)
    (session.runOneToolCall call s) := by
  have hlog : (session.runOneToolCall call s).log = [(call.2, s)] := runOneToolCall_log
  refine ⟨rfl, rfl, fun a _ => ⟨.refl _, by rw [hlog]; rfl⟩, fun e _ => ?_⟩
  exact ⟨[], call, [], [], rfl, by rw [hlog]; rfl, by simp, by simp, fun _ => rfl⟩

theorem flush_asSerial (hreads : session.ReadsOnly) (schedule : Schedule)
    (hcalls : ∀ call ∈ calls, session.isParallel call.1 = true)
    (hnodup : (calls.map Prod.snd).Nodup) :
    session.AsSerial calls (session.flush schedule calls s) (session.serially calls s) := by
  unfold flush
  split
  · exact serially_reads hreads hcalls (.refl _)
  · next call =>
      have hone : session.serially [call] s
          = (session.runOneToolCall call s).map fun ret => [ret] := by
        simp only [serially, Served.andThen, Served.map]
        cases (session.runOneToolCall call s).answer <;> simp [Except.map]
      rw [hone]
      exact asSerial_one.map _
  · have hserved := serveAll_reads (s := s) hreads
      (fun c hc => hcalls c ((schedule.perm calls).mem_iff.1 hc) : ∀ call ∈ schedule.order calls, _)
    have hresults : (calls.filterMap fun call =>
          (session.serveAll (schedule.order calls) s).1.lookup call.2)
        = calls.map fun call => (session.runOneToolCall call s).answer := by
      refine (List.filterMap_congr fun call hcall => ?_).trans
        (congrFun List.filterMap_eq_map calls)
      rw [hserved]
      exact lookup_map _ (((schedule.perm calls).map _).nodup_iff.2 hnodup)
        ((schedule.perm calls).mem_iff.2 hcall)
    dsimp only
    rw [hresults, hserved]
    exact serially_reads hreads hcalls ((schedule.perm calls).map _)

/-! ### The run -/

theorem serially_ids {returns : List ToolReturnRecord}
    (h : (session.serially calls s).answer = .ok returns) :
    returns.map (·.toolCallId) = calls.map (·.1.toolCallId) := by
  induction calls generalizing s returns with
  | nil =>
    cases h
    rfl
  | cons call calls ih =>
    rw [serially, Served.andThen] at h
    cases hone : (session.runOneToolCall call s).answer with
    | error e =>
      rw [hone] at h
      cases h
    | ok ret =>
      rw [hone] at h
      cases hrest : (session.serially calls (session.runOneToolCall call s).state).answer with
      | error e => simp [Served.map, hrest, Except.map] at h
      | ok later =>
        simp only [Served.map, hrest, Except.map, Except.ok.injEq] at h
        subst h
        rw [List.map_cons, List.map_cons, runOneToolCall_id hone, ih hrest]

theorem serially_append (l l' : List Placed) (s : σ) : session.serially (l ++ l') s
    = (session.serially l s).andThen fun returns s =>
      (session.serially l' s).map (returns ++ ·) := by
  induction l generalizing s with
  | nil =>
    have hid : ∀ o : Served σ ε (List ToolReturnRecord), o = o.map fun later => [] ++ later := by
      intro o
      simp only [Served.map, List.nil_append]
      cases o with
      | mk answer state log => cases answer <;> rfl
    exact hid _
  | cons call l ih =>
    simp only [List.cons_append, serially, ih, Served.map_andThen, Served.andThen_assoc,
      Served.andThen_map, Served.map_map]
    rfl

theorem walk_asSerial (hreads : session.ReadsOnly) (schedule : Schedule) (batch rest : List Placed)
    (s : σ) (hbatch : ∀ call ∈ batch, session.isParallel call.1 = true)
    (hnodup : ((batch ++ rest).map Prod.snd).Nodup) :
    session.AsSerial (batch ++ rest) (session.walk schedule batch rest s)
      (session.serially (batch ++ rest) s) := by
  induction rest generalizing batch s with
  | nil =>
    rw [List.append_nil] at hnodup ⊢
    exact flush_asSerial hreads schedule hbatch hnodup
  | cons call rest ih =>
    rw [walk]
    split
    · next hcall =>
        rw [List.append_cons] at hnodup ⊢
        refine ih (batch ++ [call]) s (fun c hc => ?_) hnodup
        rcases List.mem_append.1 hc with hc | hc
        · exact hbatch c hc
        · rw [List.mem_singleton.1 hc]
          exact hcall
    · rw [serially_append]
      rw [List.map_append] at hnodup
      have hflush := flush_asSerial (s := s) hreads schedule hbatch hnodup.of_append_left
      refine hflush.andThen fun returns s => ?_
      have hrest : (([] ++ rest).map Prod.snd).Nodup := (List.nodup_cons.1 hnodup.of_append_right).2
      have hserial : (session.serially (call :: rest) s).map (returns ++ ·)
          = (session.runOneToolCall call s).andThen fun ret s =>
            (session.serially rest s).map fun later => returns ++ ret :: later := by
        simp only [serially, Served.map_andThen, Served.map_map]
        rfl
      rw [hserial]
      exact asSerial_one.andThen fun ret s => (ih [] s (by simp) hrest).map _

theorem serially_stateless {executor : ToolExecutor}
    (hexecutor : session.executor = some fun tool args s => (.ok (executor tool args), s)) :
    (session.serially calls s).answer
      = .ok (Himmy.executeToolCalls session.matcher session.available (some executor) (calls.map Prod.fst)) := by
  have hone : ∀ call : Placed, session.runOneToolCall call s
      = ⟨.ok (Himmy.runOneToolCall session.matcher session.available (some executor) call.1), s,
        [(call.2, s)]⟩ := by
    intro call
    unfold runOneToolCall
    rw [hexecutor]
    cases htool : session.toolFor call.1 with
    | none =>
      simp only [Himmy.runOneToolCall, show (resolveToolName _ _ _).name = none from htool]
    | some tool =>
      simp only [Himmy.runOneToolCall, show (resolveToolName _ _ _).name = some tool from htool]
      rfl
  induction calls with
  | nil => rfl
  | cons call calls ih =>
    rw [serially, hone, Served.andThen]
    simp only [Served.map, ih]
    rfl

/-- **Batched calls come out as if they were made one after another.** -/
theorem executeToolCalls_asSerial (hreads : session.ReadsOnly) (schedule : Schedule)
    (calls : List ToolCallRecord) (s : σ) :
    session.AsSerial calls.zipIdx (session.executeToolCalls schedule calls s)
      (session.serially calls.zipIdx s)
      ∧ ∀ returns, (session.executeToolCalls schedule calls s).answer = .ok returns →
        returns.map (·.toolCallId) = calls.map (·.toolCallId) := by
  have hplaces : (calls.zipIdx.map Prod.snd).Nodup := by
    rw [List.zipIdx_map_snd]
    exact List.nodup_range'
  have hserial := walk_asSerial hreads schedule [] calls.zipIdx s (by simp) hplaces
  refine ⟨hserial, fun returns h => ?_⟩
  calc returns.map (·.toolCallId)
      = (calls.zipIdx.map Prod.fst).map (·.toolCallId) := by
        rw [serially_ids (hserial.answer.symm.trans h), List.map_map]
        rfl
    _ = calls.map (·.toolCallId) := by rw [List.zipIdx_map_fst]

/-- A counter that `read` returns and `add` raises. -/
private def counter : ToolSession Nat String where
  boundTools := [{ name := "read", readOnly := some true },
    { name := "add", readOnly := some false }]
  executor := some fun tool _ n =>
    (.ok { toolCallId := "", toolName := tool, content := .int n },
      if tool = "add" then n + 1 else n)
  parallelism := 8
  matcher := ⟨id, fun _ _ => [], fun _ _ => false⟩
  classifyParallelSafe := fun _ => false

theorem executeToolCalls_asSerial_counter :
    let calls : List ToolCallRecord :=
      [⟨"1", "read", KeyedList.empty⟩, ⟨"2", "read", KeyedList.empty⟩,
      ⟨"3", "add", KeyedList.empty⟩, ⟨"4", "read", KeyedList.empty⟩]
    let batched := counter.executeToolCalls ⟨List.reverse, List.reverse_perm⟩ calls 0
    counter.AsSerial calls.zipIdx batched (counter.serially calls.zipIdx 0)
      ∧ ∀ returns, batched.answer = .ok returns → returns.map (·.toolCallId)
        = ["1", "2", "3", "4"] := by
  refine executeToolCalls_asSerial ?_ _ _ _
  rintro executor ⟨⟩ name tool hfind hsafe args n
  by_cases hname : name = "add"
  · subst hname
    cases hfind
    cases hsafe
  · exact if_neg hname

end ToolSession

end Himmy.ToolBatches
