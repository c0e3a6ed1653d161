import Himmy.Knowledge.CacheSystem

/-! # Coherence of the snapshot cache

A publication moves the observed version forward and keeps the other knowledge bases' snapshots, so
that the next search cannot tell that they are older (`stale_scored`). Where every publication finds
the cache empty or the observed version its own, and no mutation changes the chunks of another
knowledge base, every search scores a snapshot at least as new as what was committed before it began
(`scored_fresh`). -/

namespace Himmy

open CommitLog (count_commit tally_commit author_commit_count start tally)

namespace CacheTask

def HoldsCacheLock : CacheTask → Prop
  | .publishing .. | .genMatched .. | .versionMatched .. => True
  | _ => False

/-- A search that looks for a cached snapshot after its version check. -/
def pastCheck : CacheTask → Option CachedChunksCall
  | .checked call | .building call | .fetching call .. | .built call .. =>
    if call.vecCacheMaxKbs ≤ 0 then none else some call
  | _ => none

end CacheTask

namespace CacheSystem

/-! ## What a snapshot, and a version, have seen -/

variable (log : CommitLog (Option String) KnowledgeTables)

/-- How many of the first `n` commits other connections made, and how many this one. -/
abbrev foreign (n : Nat) : Nat :=
  log.tally (· = none) n

abbrev own (n : Nat) : Nat :=
  log.tally (· ≠ none) n

/-- The version is at least what the pragma was after every commit of another connection that came
    before the search. -/
def Floor (base : Nat) (log : CommitLog (Option String) KnowledgeTables) (call : CachedChunksCall)
    (version : Nat) : Prop :=
  ∀ i ∈ call.settled, log.author i = none → base + foreign log (i + 1) ≤ version

/-- The snapshot is of a state after every commit before the search that another connection made or
    that named its knowledge base. -/
def Served (call : CachedChunksCall) (snapshot : Snapshot) : Prop :=
  ∃ n ≤ log.count, snapshot = (log.state n).snapshot call.kbId
    ∧ ∀ i ∈ call.settled, log.author i = none ∨ log.author i = some call.kbId → i < n

def Dated (base : Nat) (log : CommitLog (Option String) KnowledgeTables) (call : CachedChunksCall)
    (gen version n : Nat) : Prop :=
  n ≤ log.count ∧ gen = own log n ∧ version = base + foreign log n ∧ ∀ i ∈ call.settled, i < n

def Fetched (base : Nat) (log : CommitLog (Option String) KnowledgeTables) (call : CachedChunksCall)
    (gen version : Nat) (snapshot : Snapshot) : Prop :=
  ∃ m n, Dated base log call gen version m ∧ m ≤ n ∧ n ≤ log.count
    ∧ snapshot = (log.state n).snapshot call.kbId

variable {base : Nat} {log log' : CommitLog (Option String) KnowledgeTables}
  {call : CachedChunksCall} {gen version n : Nat} {snapshot : Snapshot}

theorem Floor.mono (h : Floor base log call version) (hlog : log.Before log')
    (hlt : ∀ i ∈ call.settled, i < log.count) : Floor base log' call version := by
  intro i hi hauthor
  rw [hlog.author i (hlt i hi)] at hauthor
  rw [foreign, hlog.tally _ (hlt i hi)]
  exact h i hi hauthor

theorem Served.mono (h : Served log call snapshot) (hlog : log.Before log')
    (hlt : ∀ i ∈ call.settled, i < log.count) : Served log' call snapshot := by
  obtain ⟨n, hn, hsnapshot, hseen⟩ := h
  refine ⟨n, hn.trans hlog.count, by rw [hlog.state n hn]; exact hsnapshot, ?_⟩
  intro i hi hauthor
  rw [hlog.author i (hlt i hi)] at hauthor
  exact hseen i hi hauthor

theorem Dated.mono (h : Dated base log call gen version n) (hlog : log.Before log') :
    Dated base log' call gen version n := by
  obtain ⟨hn, hgen, hversion, hseen⟩ := h
  exact ⟨hn.trans hlog.count, by rw [own, hlog.tally _ hn]; exact hgen,
    by rw [foreign, hlog.tally _ hn]; exact hversion, hseen⟩

theorem Fetched.mono (h : Fetched base log call gen version snapshot) (hlog : log.Before log') :
    Fetched base log' call gen version snapshot := by
  obtain ⟨m, n, hdated, hmn, hn, hsnapshot⟩ := h
  exact ⟨m, n, hdated.mono hlog, hmn, hn.trans hlog.count,
    by rw [hlog.state n hn]; exact hsnapshot⟩

theorem Fetched.served (h : Fetched base log call gen version snapshot) :
    Served log call snapshot := by
  obtain ⟨m, n, ⟨-, -, -, hseen⟩, hmn, hn, hsnapshot⟩ := h
  exact ⟨n, hn, hsnapshot, fun i hi _ => (hseen i hi).trans_le hmn⟩

/-! ## The invariant -/

/-- A cached snapshot is of a state of the observed version, after every returned mutation of its
    knowledge base. -/
def Entry (base : Nat) (s : CacheSystem) (kbId : String) (snapshot : Snapshot) : Prop :=
  ∃ n ≤ s.log.count, snapshot = (s.log.state n).snapshot kbId
    ∧ s.backend.vecState.dataVersion = some (base + foreign s.log n)
    ∧ ∀ i ∈ s.settled, s.log.author i = some kbId → i < n

/-- The cached snapshots, if any, are as new as every commit of another connection before the
    search. -/
def CacheFloor (base : Nat) (s : CacheSystem) (call : CachedChunksCall) : Prop :=
  ∀ e ∈ s.backend.vecState.cache.items, ∀ observed,
    s.backend.vecState.dataVersion = some observed → Floor base s.log call observed

def Waiting (base : Nat) (s : CacheSystem) (call : CachedChunksCall) : Prop :=
  call.settled ⊆ s.settled ∧ (0 < call.vecCacheMaxKbs → CacheFloor base s call)

def TaskOk (base : Nat) (s : CacheSystem) : CacheTask → Prop
  | .idle => True
  | .begun call => call.settled ⊆ s.settled
  | .versionRead call current =>
    call.settled ⊆ s.settled ∧ 0 < call.vecCacheMaxKbs ∧ Floor base s.log call current
      ∧ current ≤ s.backend.pragmaDataVersion
  | .checked call => 0 < call.vecCacheMaxKbs ∧ Waiting base s call
  | .building call => Waiting base s call
  | .fetching call gen version =>
    Waiting base s call ∧ ∃ n, Dated base s.log call gen version n
  | .built call gen version snapshot =>
    Waiting base s call ∧ Fetched base s.log call gen version snapshot
  | .publishing call gen version snapshot =>
    call.settled ⊆ s.settled ∧ Fetched base s.log call gen version snapshot
  | .genMatched call version snapshot =>
    call.settled ⊆ s.settled ∧ ∃ gen, Fetched base s.log call gen version snapshot
      ∧ ∀ i ∈ s.settled, s.log.author i ≠ none → own s.log (i + 1) ≤ gen
  | .versionMatched call version snapshot =>
    call.settled ⊆ s.settled ∧ Served s.log call snapshot
      ∧ (∃ n ≤ s.log.count, snapshot = (s.log.state n).snapshot call.kbId
        ∧ version = base + foreign s.log n
        ∧ ∀ i ∈ s.settled, s.log.author i ≠ none → i < n)
      ∧ ∀ observed, s.backend.vecState.dataVersion = some observed → observed ≤ version
  | .scored call snapshot => call.settled ⊆ s.settled ∧ Served s.log call snapshot
  | .committed kbId commit => commit < s.log.count ∧ s.log.author commit = some kbId

/-- The connection, its counters and its cache agree with the commits. -/
structure Shared (base : Nat) (s : CacheSystem) : Prop where
  conn : s.backend.conn = s.log.current
  pragma : s.backend.pragmaDataVersion = base + foreign s.log s.log.count
  gen : s.backend.vecState.gen = own s.log s.log.count
  settled : ∀ i ∈ s.settled, i < s.log.count
  observed : ∀ observed, s.backend.vecState.dataVersion = some observed →
    observed ≤ s.backend.pragmaDataVersion
  entries : ∀ e ∈ s.backend.vecState.cache.items, Entry base s e.1 e.2
  confined : ∀ i < s.log.count, ∀ kbId, s.log.author i = some kbId →
    ∀ kbId' ≠ kbId, (s.log.state (i + 1)).snapshot kbId' = (s.log.state i).snapshot kbId'

/-- The invariant of the system. -/
structure Coherent (base : Nat) (s : CacheSystem) : Prop where
  shared : Shared base s
  tasks : ∀ t, TaskOk base s (s.tasks t)
  locks : ∀ t, (s.tasks t).HoldsCacheLock → s.cacheLock = some t
  /-- A snapshot about to be stored is as new as what any waiting search needs. -/
  matched : ∀ t call version snapshot, s.tasks t = .versionMatched call version snapshot →
    ∀ t' call', (s.tasks t').pastCheck = some call' → Floor base s.log call' version

/-! ## Steps keep what is known of the other threads -/

variable {s s' : CacheSystem} {task : CacheTask} {t : Nat}

theorem Waiting.mono (h : Waiting base s call) (hsettled : s.settled ⊆ s'.settled)
    (hfloor : 0 < call.vecCacheMaxKbs → call.settled ⊆ s.settled →
      CacheFloor base s call → CacheFloor base s' call) : Waiting base s' call :=
  ⟨List.Subset.trans h.1 hsettled, fun hpos => hfloor hpos h.1 (h.2 hpos)⟩

/-- What is known of a thread stays known when the log goes on, the cache keeps the floor of the
    thread's search, and, while the thread holds the cache lock, no mutation returns and the observed
    version stays. -/
theorem TaskOk.mono (h : TaskOk base s task) (hlog : s.log.Before s'.log)
    (hlt : ∀ i ∈ s.settled, i < s.log.count) (hsettled : s.settled ⊆ s'.settled)
    (hpragma : s.backend.pragmaDataVersion ≤ s'.backend.pragmaDataVersion)
    (hfloor : ∀ call, task.pastCheck = some call → call.settled ⊆ s.settled →
      CacheFloor base s call → CacheFloor base s' call) (hheld : task.HoldsCacheLock →
      (∀ i ∈ s'.settled, s'.log.author i ≠ none → i ∈ s.settled)
        ∧ s'.backend.vecState.dataVersion = s.backend.vecState.dataVersion) :
    TaskOk base s' task := by
  have hpast : ∀ call : CachedChunksCall, 0 < call.vecCacheMaxKbs →
      (if call.vecCacheMaxKbs ≤ 0 then none else some call) = some call := by
    intro call hpos
    rw [if_neg (by omega)]
  have hknown : ∀ {call : CachedChunksCall}, call.settled ⊆ s.settled →
      ∀ i ∈ call.settled, i < s.log.count := fun hsub i hi => hlt i (hsub hi)
  cases task with
  | idle => trivial
  | begun call => exact List.Subset.trans h hsettled
  | versionRead call current =>
    obtain ⟨hsub, hpos, hmin, hcurrent⟩ := h
    exact ⟨List.Subset.trans hsub hsettled, hpos, hmin.mono hlog (hknown hsub), hcurrent.trans hpragma⟩
  | checked call => exact ⟨h.1, h.2.mono hsettled (fun hpos => hfloor call (hpast call hpos))⟩
  | building call => exact Waiting.mono h hsettled (fun hpos => hfloor call (hpast call hpos))
  | fetching call gen version =>
    obtain ⟨hwait, n, hdated⟩ := h
    exact ⟨hwait.mono hsettled (fun hpos => hfloor call (hpast call hpos)), n, hdated.mono hlog⟩
  | built call gen version snapshot =>
    exact ⟨h.1.mono hsettled (fun hpos => hfloor call (hpast call hpos)), h.2.mono hlog⟩
  | publishing call gen version snapshot => exact ⟨List.Subset.trans h.1 hsettled, h.2.mono hlog⟩
  | genMatched call version snapshot =>
    obtain ⟨hsub, gen, hfetched, hown⟩ := h
    refine ⟨List.Subset.trans hsub hsettled, gen, hfetched.mono hlog, ?_⟩
    intro i hi hauthor
    have hmem := (hheld trivial).1 i hi hauthor
    rw [hlog.author i (hlt i hmem)] at hauthor
    rw [own, hlog.tally _ (hlt i hmem)]
    exact hown i hmem hauthor
  | versionMatched call version snapshot =>
    obtain ⟨hsub, hserved, ⟨n, hn, hsnapshot, hversion, hown⟩, hobserved⟩ := h
    refine ⟨List.Subset.trans hsub hsettled, hserved.mono hlog (hknown hsub),
      ⟨n, hn.trans hlog.count, ?_, ?_, ?_⟩, ?_⟩
    · rw [hlog.state n hn]
      exact hsnapshot
    · rw [foreign, hlog.tally _ hn]
      exact hversion
    · intro i hi hauthor
      have hmem := (hheld trivial).1 i hi hauthor
      rw [hlog.author i (hlt i hmem)] at hauthor
      exact hown i hmem hauthor
    · rw [(hheld trivial).2]
      exact hobserved
  | scored call snapshot => exact ⟨List.Subset.trans h.1 hsettled, h.2.mono hlog (hknown h.1)⟩
  | committed kbId commit =>
    exact ⟨h.1.trans_le hlog.count, by rw [hlog.author _ h.1]; exact h.2⟩

theorem TaskOk.pastCheck (h : TaskOk base s task) (hpast : task.pastCheck = some call) :
    0 < call.vecCacheMaxKbs ∧ Waiting base s call := by
  have hcases : ∀ other : CachedChunksCall,
      (if other.vecCacheMaxKbs ≤ 0 then none else some other) = some call →
        other = call ∧ 0 < call.vecCacheMaxKbs := by
    intro other hother
    split at hother
    · exact absurd hother (by simp)
    · next hpos =>
        cases hother
        exact ⟨rfl, by omega⟩
  cases task with
  | checked other =>
    obtain ⟨rfl, hpos⟩ := hcases other hpast
    exact ⟨hpos, h.2⟩
  | building other =>
    obtain ⟨rfl, hpos⟩ := hcases other hpast
    exact ⟨hpos, h⟩
  | fetching other gen version =>
    obtain ⟨rfl, hpos⟩ := hcases other hpast
    exact ⟨hpos, h.1⟩
  | built other gen version snapshot =>
    obtain ⟨rfl, hpos⟩ := hcases other hpast
    exact ⟨hpos, h.1⟩
  | idle | begun | versionRead | publishing | genMatched | versionMatched | scored | committed =>
    cases hpast

/-- **Steps of a thread.** The invariant after a step that takes one thread to `task`, from what the
    step does to the shared state and keeps of the others. -/
theorem Coherent.of_goto (h : Coherent base s) (t : Nat) (task : CacheTask)
    (htasks : s'.tasks = Function.update s.tasks t task) (hlog : s.log.Before s'.log)
    (hshared : Shared base s') (hothers : ∀ t' ≠ t, TaskOk base s' (s.tasks t'))
    (hnew : TaskOk base s' task)
    (hlock : s'.cacheLock = s.cacheLock ∨ s.cacheLock = none ∨ s.cacheLock = some t)
    (hholds : task.HoldsCacheLock → s'.cacheLock = some t)
    (hpast : ∀ call, task.pastCheck = some call →
      (s.tasks t).pastCheck = some call ∨ s.cacheLock = none)
    (hmatched : ∀ call version snapshot, task = .versionMatched call version snapshot →
      ∀ t' call', (s.tasks t').pastCheck = some call' → Floor base s.log call' version) :
    Coherent base s' := by
  refine ⟨hshared, ?_, ?_, ?_⟩
  · intro t'
    rw [htasks, Function.update_apply]
    split
    · exact hnew
    · next hne => exact hothers t' hne
  · intro t' hheld
    rw [htasks, Function.update_apply] at hheld
    split at hheld
    · next heq => rw [heq]; exact hholds hheld
    · next hne =>
        have hmine := h.locks t' hheld
        rcases hlock with hsame | hfree | hmy
        · rw [hsame, hmine]
        · rw [hfree] at hmine
          cases hmine
        · rw [hmy] at hmine
          cases hmine
          exact absurd rfl hne
  · intro t₁ call version snapshot ht₁ t₂ call' ht₂
    have hkeep : Floor base s.log call' version →
        (s.tasks t₂).pastCheck = some call' ∨ call'.settled ⊆ s.settled →
        Floor base s'.log call' version := by
      intro hfloor hsub
      have hsub : call'.settled ⊆ s.settled := by
        rcases hsub with hpast' | hsub
        · exact ((h.tasks t₂).pastCheck hpast').2.1
        · exact hsub
      exact hfloor.mono hlog (fun i hi => h.shared.settled i (hsub hi))
    rw [htasks, Function.update_apply] at ht₁ ht₂
    split at ht₁
    · -- the thread itself is about to store: it waits for nothing, so the other one is another
      split at ht₂
      · rw [ht₁] at ht₂
        cases ht₂
      · exact hkeep (hmatched call version snapshot ht₁ t₂ call' ht₂) (.inl ht₂)
    · have hheld : s.cacheLock = some t₁ := h.locks t₁ (by rw [ht₁]; trivial)
      split at ht₂
      · next heq =>
          rcases hpast call' ht₂ with hold | hfree
          · rw [← heq] at hold
            exact hkeep (h.matched t₁ call version snapshot ht₁ t₂ call' hold) (.inl hold)
          · rw [hfree] at hheld
            cases hheld
      · exact hkeep (h.matched t₁ call version snapshot ht₁ t₂ call' ht₂) (.inl ht₂)

theorem Coherent.of_goto_free (h : Coherent base s) (t : Nat) (task : CacheTask)
    (htasks : s'.tasks = Function.update s.tasks t task) (hlog : s.log.Before s'.log)
    (hshared : Shared base s') (hothers : ∀ t' ≠ t, TaskOk base s' (s.tasks t'))
    (hnew : TaskOk base s' task)
    (hlock : s'.cacheLock = s.cacheLock ∨ s.cacheLock = none ∨ s.cacheLock = some t)
    (hfree : ¬ task.HoldsCacheLock) (hpast : task.pastCheck = none) : Coherent base s' := by
  refine h.of_goto t task htasks hlog hshared hothers hnew hlock (fun hheld => absurd hheld hfree)
    ?_ ?_
  · intro call hcall
    rw [hpast] at hcall
    cases hcall
  · rintro call version snapshot rfl
    exact absurd trivial hfree

/-- A step that leaves the commits and the observed version as they are, and caches nothing new. -/
structure Quiet (s s' : CacheSystem) : Prop where
  log : s'.log = s.log
  settled : s'.settled = s.settled
  conn : s'.backend.conn = s.backend.conn
  pragma : s'.backend.pragmaDataVersion = s.backend.pragmaDataVersion
  gen : s'.backend.vecState.gen = s.backend.vecState.gen
  dataVersion : s'.backend.vecState.dataVersion = s.backend.vecState.dataVersion
  cache : s'.backend.vecState.cache.items ⊆ s.backend.vecState.cache.items

theorem Quiet.shared (hq : Quiet s s') (h : Shared base s) : Shared base s' where
  conn := by rw [hq.conn, hq.log, h.conn]
  pragma := by rw [hq.pragma, hq.log, h.pragma]
  gen := by rw [hq.gen, hq.log, h.gen]
  settled := by rw [hq.settled, hq.log]; exact h.settled
  observed := by rw [hq.dataVersion, hq.pragma]; exact h.observed
  entries := by
    intro e he
    unfold Entry
    rw [hq.log, hq.dataVersion, hq.settled]
    exact h.entries e (hq.cache he)
  confined := by rw [hq.log]; exact h.confined

theorem Quiet.cacheFloor (hq : Quiet s s') (h : CacheFloor base s call) :
    CacheFloor base s' call := by
  intro e he observed hobserved
  rw [hq.log]
  exact h e (hq.cache he) observed (hq.dataVersion ▸ hobserved)

theorem Quiet.taskOk (hq : Quiet s s') (hs : Shared base s) (h : TaskOk base s task) :
    TaskOk base s' task := by
  refine h.mono (hq.log ▸ .refl _) hs.settled (by simp [hq.settled]) hq.pragma.ge ?_ ?_
  · intro call _ _ hfloor
    exact hq.cacheFloor hfloor
  · intro _
    exact ⟨fun i hi _ => hq.settled ▸ hi, hq.dataVersion⟩

theorem Coherent.quiet (h : Coherent base s) (task : CacheTask) (hq : Quiet s s')
    (htasks : s'.tasks = Function.update s.tasks t task) (hnew : TaskOk base s task)
    (hlock : s'.cacheLock = s.cacheLock ∨ s.cacheLock = none ∨ s.cacheLock = some t)
    (hholds : task.HoldsCacheLock → s'.cacheLock = some t)
    (hpast : ∀ call, task.pastCheck = some call →
      (s.tasks t).pastCheck = some call ∨ s.cacheLock = none)
    (hmatched : ∀ call version snapshot, task = .versionMatched call version snapshot →
      ∀ t' call', (s.tasks t').pastCheck = some call' → Floor base s.log call' version) :
    Coherent base s' :=
  h.of_goto t task htasks (hq.log ▸ .refl _) (hq.shared h.shared)
    (fun t' _ => hq.taskOk h.shared (h.tasks t')) (hq.taskOk h.shared hnew) hlock hholds hpast
    hmatched

theorem Coherent.quiet_free (h : Coherent base s) (task : CacheTask) (hq : Quiet s s')
    (htasks : s'.tasks = Function.update s.tasks t task) (hnew : TaskOk base s task)
    (hlock : s'.cacheLock = s.cacheLock ∨ s.cacheLock = none ∨ s.cacheLock = some t)
    (hfree : ¬ task.HoldsCacheLock) (hpast : task.pastCheck = none) : Coherent base s' :=
  h.of_goto_free t task htasks (hq.log ▸ .refl _) (hq.shared h.shared)
    (fun t' _ => hq.taskOk h.shared (h.tasks t')) (hq.taskOk h.shared hnew) hlock hfree hpast

/-! ## The steps -/

theorem quiet_goto (lock cacheLock : Option Nat) :
    Quiet s { s.goto t task with lock := lock, cacheLock := cacheLock } :=
  ⟨rfl, rfl, rfl, rfl, rfl, rfl, List.Subset.refl _⟩

theorem quiet_moveToEnd {kbId kbId' : String}
    (hget : s.backend.vecState.cache.get? kbId = some (kbId', snapshot)) :
    Quiet s { s.goto t task with backend := s.backend.moveToEnd kbId snapshot } := by
  refine ⟨rfl, rfl, rfl, rfl, rfl, rfl, ?_⟩
  intro e he
  rcases (KeyedList.mem_replace_iff ..).1 he with rfl | hkept
  · have hkey : kbId' = kbId := KeyedList.key_of_get? hget
    rw [← hkey]
    exact KeyedList.mem_of_get? hget
  · exact hkept.1

theorem Shared.served_cached (hs : Shared base s) (hwait : Waiting base s call)
    (hpos : 0 < call.vecCacheMaxKbs) {kbId : String}
    (hget : s.backend.vecState.cache.get? call.kbId = some (kbId, snapshot)) :
    Served s.log call snapshot := by
  have hmem := KeyedList.mem_of_get? hget
  obtain rfl : kbId = call.kbId := KeyedList.key_of_get? hget
  obtain ⟨n, hn, hsnapshot, hversion, hmine⟩ := hs.entries _ hmem
  refine ⟨n, hn, hsnapshot, ?_⟩
  rintro i hi (hforeign | hown)
  · have hfloor := hwait.2 hpos _ hmem _ hversion i hi hforeign
    exact s.log.lt_of_tally_le (· = none) hforeign (Nat.le_of_add_le_add_left hfloor)
  · exact hmine i (hwait.1 hi) hown

theorem Shared.floor_pragma (hs : Shared base s) (hsub : call.settled ⊆ s.settled) :
    Floor base s.log call s.backend.pragmaDataVersion := by
  intro i hi _
  rw [hs.pragma]
  exact Nat.add_le_add_left (s.log.tally_mono _ (hs.settled i (hsub hi))) _

theorem Shared.dated (hs : Shared base s) (hsub : call.settled ⊆ s.settled) :
    Dated base s.log call s.backend.vecState.gen s.backend.pragmaDataVersion s.log.count :=
  ⟨le_rfl, hs.gen, hs.pragma, fun i hi => hs.settled i (hsub hi)⟩

theorem Shared.checkDataVersion_cases (hs : Shared base s) (current : Nat) :
    (s.backend.checkDataVersion current).vecState.cache.items = []
      ∨ (s.backend.checkDataVersion current).vecState = s.backend.vecState := by
  unfold SqliteKnowledgeBackend.checkDataVersion
  split
  · next hnone =>
      left
      refine List.eq_nil_iff_forall_not_mem.2 ?_
      intro e he
      obtain ⟨n, -, -, hversion, -⟩ := hs.entries e he
      rw [hnone] at hversion
      cases hversion
  · split
    · exact .inl rfl
    · exact .inr rfl

theorem dataVersion_checkDataVersion (backend : SqliteKnowledgeBackend) (current : Nat) :
    (backend.checkDataVersion current).vecState.dataVersion = some current := by
  unfold SqliteKnowledgeBackend.checkDataVersion
  split
  · rfl
  · next observed hobserved =>
      split
      · rfl
      · next heq =>
          rw [hobserved, not_ne_iff.1 heq]

theorem Coherent.not_held (h : Coherent base s) (hfree : s.cacheLock = none) (t : Nat) :
    ¬ (s.tasks t).HoldsCacheLock := by
  intro hheld
  have hmine := h.locks t hheld
  rw [hfree] at hmine
  cases hmine

theorem Coherent.check (h : Coherent base s) {current : Nat}
    (htask : s.tasks t = .versionRead call current) (hfree : s.cacheLock = none) : Coherent base
      { s.goto t (.checked call) with backend := s.backend.checkDataVersion current } := by
  obtain ⟨hsub, hpos, hfloor, hcurrent⟩ : TaskOk base s (.versionRead call current) :=
    htask ▸ h.tasks t
  obtain ⟨hconn, hpragma, hgen, -⟩ := s.backend.checkDataVersion_frame current
  have hversion := dataVersion_checkDataVersion s.backend current
  have hcases := h.shared.checkDataVersion_cases current
  refine h.of_goto t (.checked call) rfl (.refl _) ?_ ?_ ?_ (.inl rfl) nofun
    (fun _ _ => .inr hfree) nofun
  · refine ⟨hconn.trans h.shared.conn, hpragma.trans h.shared.pragma, hgen.trans h.shared.gen,
      h.shared.settled, ?_, ?_, h.shared.confined⟩
    · intro observed hobserved
      cases hversion.symm.trans hobserved
      exact hcurrent.trans hpragma.ge
    · intro e he
      rcases hcases with hnil | hsame
      · exact absurd he (by simp [hnil])
      · unfold Entry
        simp only [hsame] at he ⊢
        exact h.shared.entries e he
  · intro t' _
    refine (h.tasks t').mono (.refl _) h.shared.settled (List.Subset.refl _) hpragma.ge ?_
      (fun hheld => absurd hheld (h.not_held hfree t'))
    intro call' _ _ hkept e he
    rcases hcases with hnil | hsame
    · exact absurd he (by simp [hnil])
    · simp only [hsame] at he ⊢
      exact hkept e he
  · refine ⟨hpos, hsub, ?_⟩
    intro _ e he observed hobserved
    cases hversion.symm.trans hobserved
    exact hfloor

/-- A publication that finds its version unmoved: no other connection has committed since the rows
    were read, and none of this one's returned mutations is later than they are. -/
theorem Coherent.matchVersion (h : Coherent base s)
    (htask : s.tasks t = .genMatched call version snapshot)
    (hpragma : s.backend.pragmaDataVersion = version) :
    Coherent base (s.goto t (.versionMatched call version snapshot)) := by
  obtain ⟨hsub, gen, hfetched, hown⟩ : TaskOk base s (.genMatched call version snapshot) :=
    htask ▸ h.tasks t
  have hlock : s.cacheLock = some t := h.locks t (by rw [htask]; trivial)
  refine h.quiet (.versionMatched call version snapshot) (quiet_goto s.lock s.cacheLock) rfl
    ⟨hsub, hfetched.served, ?_, ?_⟩ (.inl rfl) (fun _ => hlock) nofun ?_
  · obtain ⟨m, n, ⟨hm, hgen, hdated, -⟩, hmn, hn, hsnapshot⟩ := hfetched
    refine ⟨n, hn, hsnapshot, ?_, ?_⟩
    · -- the counter is now what it was before the rows were read, so it was that in between
      have hnow : base + foreign s.log m = base + foreign s.log s.log.count := by
        rw [← hdated, ← hpragma, h.shared.pragma]
      have hlow : foreign s.log m ≤ foreign s.log n := s.log.tally_mono _ hmn
      have hhigh : foreign s.log n ≤ foreign s.log s.log.count := s.log.tally_mono _ hn
      omega
    · intro i hi hauthor
      exact (s.log.lt_of_tally_le (· ≠ none) hauthor
        ((hown i hi hauthor).trans hgen.le)).trans_le hmn
  · rw [← hpragma]
    exact h.shared.observed
  · intro call₁ version₁ snapshot₁ heq t' call' hpast
    cases heq
    rw [← hpragma]
    exact h.shared.floor_pragma ((h.tasks t').pastCheck hpast).2.1

theorem Coherent.matchGen (h : Coherent base s)
    (htask : s.tasks t = .publishing call gen version snapshot)
    (hgen : s.backend.vecState.gen = gen) :
    Coherent base (s.goto t (.genMatched call version snapshot)) := by
  obtain ⟨hsub, hfetched⟩ : TaskOk base s (.publishing call gen version snapshot) :=
    htask ▸ h.tasks t
  refine h.quiet (.genMatched call version snapshot) (quiet_goto s.lock s.cacheLock) rfl
    ⟨hsub, gen, hfetched, ?_⟩ (.inl rfl) (fun _ => h.locks t (by rw [htask]; trivial)) nofun nofun
  intro i hi _
  rw [← hgen, h.shared.gen]
  exact s.log.tally_mono _ (h.shared.settled i hi)

theorem dataVersion_storeSnapshot (backend : SqliteKnowledgeBackend) (kbId : String)
    (vecCacheMaxKbs : Int) (snapshot : Snapshot)
    (h : ∀ observed, backend.vecState.dataVersion = some observed → observed ≤ version) :
    (backend.storeSnapshot kbId vecCacheMaxKbs version snapshot).vecState.dataVersion
      = some version := by
  simp only [SqliteKnowledgeBackend.storeSnapshot, Option.some.injEq]
  split
  · rfl
  · next observed hobserved => exact max_eq_right (h observed hobserved)

theorem mem_storeSnapshot {backend : SqliteKnowledgeBackend} {kbId : String} {vecCacheMaxKbs : Int}
    {e : String × Snapshot} (he : e ∈ (backend.storeSnapshot kbId vecCacheMaxKbs version
      snapshot).vecState.cache.items) :
    e = (kbId, snapshot) ∨ e ∈ backend.vecState.cache.items := by
  have hmem := List.mem_of_mem_drop he
  rcases (KeyedList.mem_replace_iff ..).1 hmem with hnew | hold
  · exact .inl hnew
  · exact .inr hold.1

theorem Coherent.store (h : Coherent base s)
    (htask : s.tasks t = .versionMatched call version snapshot)
    (hmeets : s.backend.vecState.cache.items = [] ∨ s.backend.vecState.dataVersion = some version) :
    Coherent base { s.goto t (.scored call snapshot) with
      backend := s.backend.storeSnapshot call.kbId call.vecCacheMaxKbs version snapshot
      cacheLock := none } := by
  obtain ⟨hsub, hserved, ⟨n, hn, hsnapshot, hversion, hown⟩, hobserved⟩ :
    TaskOk base s (.versionMatched call version snapshot) := htask ▸ h.tasks t
  have hlock : s.cacheLock = some t := h.locks t (by rw [htask]; trivial)
  have hstored := dataVersion_storeSnapshot s.backend call.kbId call.vecCacheMaxKbs snapshot
    hobserved
  have hpragma : version ≤ s.backend.pragmaDataVersion := by
    rw [hversion, h.shared.pragma]
    exact Nat.add_le_add_left (s.log.tally_mono _ hn) _
  refine h.of_goto_free t (.scored call snapshot) rfl (.refl _) ?_ ?_ ⟨hsub, hserved⟩
    (.inr (.inr hlock)) id rfl
  · refine ⟨h.shared.conn, h.shared.pragma, h.shared.gen, h.shared.settled, ?_, ?_,
      h.shared.confined⟩
    · intro observed hobs
      cases hstored.symm.trans hobs
      exact hpragma
    · intro e he
      rcases mem_storeSnapshot he with rfl | hold
      · refine ⟨n, hn, hsnapshot, hstored.trans (congrArg some hversion), ?_⟩
        intro i hi hauthor
        exact hown i hi (fun hnone => nomatch hauthor.symm.trans hnone)
      · -- an older snapshot: the observed version has not moved
        rcases hmeets with hnil | hsame
        · exact absurd hold (by simp [hnil])
        · obtain ⟨m, hm, hrows, hdated, hmine⟩ := h.shared.entries e hold
          exact ⟨m, hm, hrows, (hstored.trans hsame.symm).trans hdated, hmine⟩
  · intro t' hne
    refine (h.tasks t').mono (.refl _) h.shared.settled (List.Subset.refl _) le_rfl ?_ ?_
    · intro call' hpast _ _ e _ observed hobs
      cases hstored.symm.trans hobs
      exact h.matched t call version snapshot htask t' call' hpast
    · intro hheld
      have hother := h.locks t' hheld
      rw [hlock] at hother
      cases hother
      exact absurd rfl hne

theorem Coherent.invalidate (h : Coherent base s) {kbId : String} {commit : Nat}
    (htask : s.tasks t = .committed kbId commit) (hfree : s.cacheLock = none) :
    Coherent base { s.goto t .idle with
      backend := s.backend.invalidateVectorCache kbId
      settled := commit :: s.settled } := by
  obtain ⟨hcommit, hauthor⟩ : TaskOk base s (.committed kbId commit) := htask ▸ h.tasks t
  refine h.of_goto_free t .idle rfl (.refl _) ?_ ?_ trivial (.inl rfl) id rfl
  · refine ⟨h.shared.conn, h.shared.pragma, h.shared.gen, ?_, h.shared.observed, ?_,
      h.shared.confined⟩
    · intro i hi
      rcases List.mem_cons.1 hi with rfl | hi
      · exact hcommit
      · exact h.shared.settled i hi
    · intro e he
      obtain ⟨hmem, hne⟩ := (KeyedList.mem_erase_iff ..).1 he
      obtain ⟨n, hn, hsnapshot, hversion, hmine⟩ := h.shared.entries e hmem
      refine ⟨n, hn, hsnapshot, hversion, ?_⟩
      intro i hi hown
      rcases List.mem_cons.1 hi with rfl | hi
      · cases hauthor.symm.trans hown
        exact absurd rfl hne
      · exact hmine i hi hown
  · intro t' _
    refine (h.tasks t').mono (.refl _) h.shared.settled (List.subset_cons_self _ _) le_rfl ?_
      (fun hheld => absurd hheld (h.not_held hfree t'))
    intro call' _ _ hkept e he
    exact hkept e ((KeyedList.mem_erase_iff ..).1 he).1

/-- The condition on a step: a publication finds the cache empty or the observed version its own, and
    a mutation leaves the rows of the other knowledge bases. -/
def Meets (s : CacheSystem) : CacheStep → Prop
  | .mutate _ kbId mutation lexicalReady =>
    ∀ kbId' ≠ kbId, (mutation.rows { s.backend with lexicalReady } kbId).snapshot kbId'
      = s.backend.conn.snapshot kbId'
  | .advance t =>
    ∀ call dataVersion snapshot, s.tasks t = .versionMatched call dataVersion snapshot →
      s.backend.vecState.cache.items = []
        ∨ s.backend.vecState.dataVersion = some dataVersion
  | _ => True

theorem Coherent.advance (h : Coherent base s) (hmeets : Meets s (.advance t))
    (hstep : s.advance t = some s') : Coherent base s' := by
  have htaskOk := h.tasks t
  unfold CacheSystem.advance at hstep
  split at hstep
  · cases hstep
  · next call htask =>
      rw [htask] at htaskOk
      split at hstep
      · next hmax =>
          cases hstep
          refine h.quiet (.building call) (quiet_goto s.lock s.cacheLock) rfl
            ⟨htaskOk, fun hpos => by omega⟩ (.inl rfl) nofun ?_ nofun
          intro call' hpast
          rw [CacheTask.pastCheck, if_pos hmax] at hpast
          cases hpast
      · next hmax =>
          split at hstep <;> cases hstep
          exact h.quiet_free (.versionRead call s.backend.pragmaDataVersion)
            (quiet_goto s.lock s.cacheLock) rfl
            ⟨htaskOk, by omega, h.shared.floor_pragma htaskOk, le_rfl⟩ (.inl rfl) id rfl
  · next call current htask =>
      split at hstep
      · next hfree =>
          cases hstep
          exact h.check htask hfree
      · cases hstep
  · next call htask =>
      rw [htask] at htaskOk
      split at hstep
      · next hfree =>
          split at hstep
          · next kbId snapshot hget =>
              cases hstep
              exact h.quiet_free (.scored call snapshot) (quiet_moveToEnd hget) rfl
                ⟨htaskOk.2.1, h.shared.served_cached htaskOk.2 htaskOk.1 hget⟩ (.inl rfl) id rfl
          · cases hstep
            refine h.quiet (.building call) (quiet_goto s.lock s.cacheLock) rfl htaskOk.2
              (.inl rfl) nofun ?_ nofun
            intro call' hpast
            exact .inl (by rw [htask]; exact hpast)
      · cases hstep
  · next call htask =>
      rw [htask] at htaskOk
      split at hstep <;> cases hstep
      refine h.quiet (.fetching call s.backend.vecState.gen s.backend.pragmaDataVersion)
        (quiet_goto (some t) s.cacheLock) rfl ⟨htaskOk, _, h.shared.dated htaskOk.1⟩ (.inl rfl) nofun
        ?_ nofun
      intro call' hpast
      exact .inl (by rw [htask]; exact hpast)
  · next call gen version htask =>
      rw [htask] at htaskOk
      cases hstep
      obtain ⟨hwait, n, hdated⟩ := htaskOk
      refine h.quiet (.built call gen version (s.backend.buildChunkSnapshot call.kbId))
        (quiet_goto none s.cacheLock) rfl ⟨hwait, n, s.log.count, hdated, hdated.1, le_rfl, ?_⟩
        (.inl rfl) nofun ?_ nofun
      · rw [s.backend.buildChunkSnapshot_eq, h.shared.conn]
        rfl
      · intro call' hpast
        exact .inl (by rw [htask]; exact hpast)
  · next call gen version snapshot htask =>
      rw [htask] at htaskOk
      split at hstep
      · cases hstep
        exact h.quiet_free (.scored call snapshot) (quiet_goto s.lock s.cacheLock) rfl
          ⟨htaskOk.1.1, htaskOk.2.served⟩ (.inl rfl) id rfl
      · next hmax =>
          split at hstep
          · next hfree =>
              split at hstep
              · next kbId existing hget =>
                  cases hstep
                  exact h.quiet_free (.scored call existing) (quiet_moveToEnd hget) rfl
                    ⟨htaskOk.1.1, h.shared.served_cached htaskOk.1 (by omega) hget⟩ (.inl rfl) id rfl
              · cases hstep
                exact h.quiet (.publishing call gen version snapshot)
                  (quiet_goto s.lock (some t)) rfl ⟨htaskOk.1.1, htaskOk.2⟩ (.inr (.inl hfree))
                  (fun _ => rfl) nofun nofun
          · cases hstep
  · next call gen version snapshot htask =>
      split at hstep
      · split at hstep
        · next hgen =>
            cases hstep
            exact h.matchGen htask hgen
        · cases hstep
          rw [htask] at htaskOk
          exact h.quiet_free (.scored call snapshot) (quiet_goto s.lock none) rfl
            ⟨htaskOk.1, htaskOk.2.served⟩ (.inr (.inr (h.locks t (by rw [htask]; trivial)))) id rfl
      · cases hstep
  · next call version snapshot htask =>
      split at hstep
      · split at hstep
        · next hversion =>
            cases hstep
            exact h.matchVersion htask hversion
        · cases hstep
          rw [htask] at htaskOk
          obtain ⟨hsub, gen, hfetched, -⟩ := htaskOk
          exact h.quiet_free (.scored call snapshot) (quiet_goto s.lock none) rfl
            ⟨hsub, hfetched.served⟩ (.inr (.inr (h.locks t (by rw [htask]; trivial)))) id rfl
      · cases hstep
  · next call version snapshot htask =>
      cases hstep
      exact h.store htask (hmeets call version snapshot htask)
  · cases hstep
  · next kbId commit htask =>
      split at hstep
      · next hfree =>
          cases hstep
          exact h.invalidate htask hfree
      · cases hstep

theorem Shared.commit (h : Shared base s) {who : Option String} {tables : KnowledgeTables}
    (hlog : s'.log = s.log.commit who tables) (hconn : s'.backend.conn = tables)
    (hpragma : s'.backend.pragmaDataVersion
      = s.backend.pragmaDataVersion + if who = none then 1 else 0)
    (hgen : s'.backend.vecState.gen = s.backend.vecState.gen + if who ≠ none then 1 else 0)
    (hversion : s'.backend.vecState.dataVersion = s.backend.vecState.dataVersion)
    (hcache : s'.backend.vecState.cache = s.backend.vecState.cache)
    (hsettled : ∀ i ∈ s'.settled, i ∈ s.settled ∨ i = s.log.count ∧ who = none)
    (hconfined : ∀ kbId, who = some kbId → ∀ kbId' ≠ kbId,
      tables.snapshot kbId' = s.backend.conn.snapshot kbId') : Shared base s' := by
  have hbefore := s.log.before_commit who tables
  refine ⟨?_, ?_, ?_, ?_, ?_, ?_, ?_⟩
  · rw [hconn, hlog, CommitLog.current_commit]
  · rw [hpragma, hlog, h.pragma, count_commit]
    simp only [foreign, tally_commit, Nat.add_assoc]
  · rw [hgen, hlog, h.gen, count_commit]
    simp only [own, tally_commit]
  · intro i hi
    rw [hlog, count_commit]
    rcases hsettled i hi with hold | ⟨rfl, -⟩
    · exact (h.settled i hold).trans (Nat.lt_succ_self _)
    · exact Nat.lt_succ_self _
  · intro observed hobserved
    rw [hpragma]
    exact (h.observed observed (hversion ▸ hobserved)).trans (Nat.le_add_right _ _)
  · intro e he
    rw [hcache] at he
    obtain ⟨n, hn, hsnapshot, hdated, hmine⟩ := h.entries e he
    refine ⟨n, ?_, ?_, ?_, ?_⟩
    · rw [hlog]
      exact hn.trans hbefore.count
    · rw [hlog, hbefore.state n hn]
      exact hsnapshot
    · rw [hversion, hlog, foreign, hbefore.tally _ hn]
      exact hdated
    · intro i hi hauthor
      rw [hlog] at hauthor
      rcases hsettled i hi with hold | ⟨rfl, hnone⟩
      · rw [hbefore.author i (h.settled i hold)] at hauthor
        exact hmine i hold hauthor
      · rw [author_commit_count, hnone] at hauthor
        cases hauthor
  · intro i hi kbId hauthor kbId' hne
    rw [hlog] at hi hauthor ⊢
    rcases Nat.lt_succ_iff_lt_or_eq.1 hi with hold | rfl
    · rw [hbefore.author i hold] at hauthor
      rw [hbefore.state _ hold, hbefore.state _ hold.le]
      exact h.confined i hold kbId hauthor kbId' hne
    · rw [author_commit_count] at hauthor
      rw [CommitLog.state_commit_succ, hbefore.state _ le_rfl, hconfined kbId hauthor kbId' hne,
        h.conn]
      rfl

theorem TaskOk.commit (h : TaskOk base s task) (hs : Shared base s) {who : Option String}
    {tables : KnowledgeTables} (hlog : s'.log = s.log.commit who tables)
    (hpragma : s.backend.pragmaDataVersion ≤ s'.backend.pragmaDataVersion)
    (hversion : s'.backend.vecState.dataVersion = s.backend.vecState.dataVersion)
    (hcache : s'.backend.vecState.cache = s.backend.vecState.cache) (hsub : s.settled ⊆ s'.settled)
    (hsettled : ∀ i ∈ s'.settled, i ∈ s.settled ∨ i = s.log.count ∧ who = none) :
    TaskOk base s' task := by
  have hbefore : s.log.Before s'.log := hlog ▸ s.log.before_commit who tables
  refine h.mono hbefore hs.settled hsub hpragma ?_ ?_
  · intro call _ hknown hfloor e he observed hobserved
    rw [hcache] at he
    rw [hversion] at hobserved
    exact (hfloor e he observed hobserved).mono hbefore (fun i hi => hs.settled i (hknown hi))
  · intro _
    refine ⟨?_, hversion⟩
    intro i hi hauthor
    rcases hsettled i hi with hold | ⟨rfl, hnone⟩
    · exact hold
    · rw [hlog, author_commit_count] at hauthor
      exact absurd hnone hauthor

theorem Coherent.step (h : Coherent base s) {a : CacheStep} (hmeets : Meets s a)
    (hstep : s.step a = some s') : Coherent base s' := by
  cases a with
  | external tables =>
    cases hstep
    have hsettled : ∀ i ∈ s.log.count :: s.settled,
        i ∈ s.settled ∨ i = s.log.count ∧ (none : Option String) = none := by
      intro i hi
      rcases List.mem_cons.1 hi with rfl | hi
      · exact .inr ⟨rfl, rfl⟩
      · exact .inl hi
    refine h.of_goto 0 (s.tasks 0) (Function.update_eq_self 0 s.tasks).symm
      (s.log.before_commit none tables)
      (h.shared.commit rfl rfl rfl rfl rfl rfl hsettled ?_) ?_ ?_ (.inl rfl) (h.locks 0)
      (fun _ => .inl) (h.matched 0)
    · intro kbId hsome
      cases hsome
    · intro t' _
      exact (h.tasks t').commit h.shared rfl (Nat.le_succ _) rfl rfl (List.subset_cons_self _ _)
        hsettled
    · exact (h.tasks 0).commit h.shared rfl (Nat.le_succ _) rfl rfl (List.subset_cons_self _ _)
        hsettled
  | search t kbId vecCacheMaxKbs =>
    simp only [CacheSystem.step] at hstep
    split at hstep <;> cases hstep
    exact h.quiet_free (.begun _) (quiet_goto s.lock s.cacheLock) rfl (List.Subset.refl _)
      (.inl rfl) id rfl
  | mutate t kbId mutation lexicalReady =>
    simp only [CacheSystem.step] at hstep
    split at hstep
    · split at hstep <;> cases hstep
      refine h.of_goto_free t (.committed kbId s.log.count) rfl
        (s.log.before_commit (some kbId) _)
        (h.shared.commit rfl rfl rfl rfl rfl rfl (fun _ => .inl) ?_) ?_ ?_ (.inl rfl) id rfl
      · intro _ hsame
        cases hsame
        exact hmeets
      · intro t' _
        exact (h.tasks t').commit h.shared rfl le_rfl rfl rfl (List.Subset.refl _) (fun _ => .inl)
      · exact ⟨Nat.lt_succ_self _, s.log.author_commit_count _ _⟩
    · cases hstep
  | advance t => exact h.advance hmeets hstep
  | finish t =>
    simp only [CacheSystem.step] at hstep
    split at hstep <;> cases hstep
    exact h.quiet_free .idle (quiet_goto s.lock s.cacheLock) rfl trivial (.inl rfl) id rfl

theorem coherent_connect (tables : KnowledgeTables) (pragmaDataVersion : Nat) :
    Coherent pragmaDataVersion (.connect tables pragmaDataVersion) where
  shared := by
    refine ⟨rfl, ?_, ?_, nofun, nofun, nofun, nofun⟩
    · simp [connect, start, tally]
    · simp [connect, start, tally]
  tasks := fun _ => trivial
  locks := nofun
  matched := nofun

/-! ## Freshness -/

/-- The snapshot is of a state of the tables no older than a commit that came before the search: of
    another connection, or of a mutation that had returned and changed the rows of the knowledge
    base. -/
def Fresh (s : CacheSystem) (call : CachedChunksCall) (snapshot : Snapshot) : Prop :=
  ∃ n ≤ s.log.count, snapshot = (s.log.state n).snapshot call.kbId
    ∧ ∀ i ∈ call.settled,
      s.log.author i = none
        ∨ (s.log.state (i + 1)).snapshot call.kbId ≠ (s.log.state i).snapshot call.kbId → i < n

/-- **Coherence.** In every run of searches, mutations and commits of other connections whose
    publications find the cache empty or the observed version their own, and whose mutations leave the
    rows of the other knowledge bases, every search scores a snapshot that is no older than what was
    committed before it began. -/
theorem scored_fresh (tables : KnowledgeTables) (pragmaDataVersion : Nat) {steps : List CacheStep}
    (hmeets : cacheSystem.AlongRun Meets (.connect tables pragmaDataVersion) steps)
    {s : CacheSystem} (hrun : cacheSystem.exec (.connect tables pragmaDataVersion) steps = some s)
    {t : Nat} {call : CachedChunksCall} {snapshot : Snapshot}
    (hscored : s.tasks t = .scored call snapshot) : Fresh s call snapshot := by
  have h : Coherent pragmaDataVersion s :=
    cacheSystem.exec_invariant (fun _ _ _ hI hC hstep => hI.step hC hstep)
      (coherent_connect tables pragmaDataVersion) hmeets hrun
  obtain ⟨hsub, n, hn, hsnapshot, hseen⟩ : TaskOk pragmaDataVersion s (.scored call snapshot) :=
    hscored ▸ h.tasks t
  refine ⟨n, hn, hsnapshot, ?_⟩
  rintro i hi (hforeign | hchanged)
  · exact hseen i hi (.inl hforeign)
  · cases hauthor : s.log.author i with
    | none => exact hseen i hi (.inl hauthor)
    | some kbId =>
      have hnamed : kbId = call.kbId := by
        by_contra hne
        exact hchanged (h.shared.confined i (h.shared.settled i (hsub hi)) kbId hauthor call.kbId
          (Ne.symm hne))
      exact hseen i hi (.inr (hnamed ▸ hauthor))

def oneChunk : KnowledgeTables where
  knowledgeDocuments := KeyedList.empty.put { documentId := "d", kbId := "x" }
  knowledgeChunks := KeyedList.empty.put { chunkId := "c", documentId := "d", kbId := "x" }

def deletedBetween : List CacheStep :=
  [.search 0 "x" 32] ++ List.replicate 9 (.advance 0) ++ [.external {}, .search 1 "x" 32]
    ++ List.replicate 9 (.advance 1)

def publishesAlone (s : CacheSystem) : CacheStep → Bool
  | .mutate .. => false
  | .advance t =>
    match s.tasks t with
    | .versionMatched _ dataVersion _ =>
      s.backend.vecState.cache.items.isEmpty || s.backend.vecState.dataVersion = some dataVersion
    | _ => true
  | _ => true

theorem meets_of_publishesAlone {a : CacheStep} (h : publishesAlone s a = true) : Meets s a := by
  cases a with
  | mutate => cases h
  | advance t =>
    intro call dataVersion snapshot htask
    simpa [publishesAlone, htask] using h
  | external | search | finish => trivial

theorem scored_fresh_deletedBetween :
    ∃ s, cacheSystem.exec (.connect oneChunk 0) deletedBetween = some s
      ∧ ∃ call snapshot, s.tasks 1 = .scored call snapshot ∧ Fresh s call snapshot := by
  refine ⟨_, rfl, _, _, rfl, ?_⟩
  have hmeets : cacheSystem.AlongRun (fun s a => publishesAlone s a = true) (.connect oneChunk 0)
      deletedBetween := by decide
  exact scored_fresh oneChunk 0 (hmeets.mono fun _ _ => meets_of_publishesAlone) rfl (t := 1) rfl

/-- A search of another knowledge base begins, another connection deletes the chunk, and the search
    goes on and publishes. Then comes a search of the first one. -/
def deletedWithin : List CacheStep :=
  [.search 0 "x" 32] ++ List.replicate 9 (.advance 0)
    ++ [.search 1 "y" 32, .advance 1, .advance 1, .external {}] ++ List.replicate 7 (.advance 1)
    ++ [.search 2 "x" 32] ++ List.replicate 3 (.advance 2)

theorem stale_scored : ∃ s, cacheSystem.exec (.connect oneChunk 0) deletedWithin = some s
      ∧ ∃ call snapshot, s.tasks 2 = .scored call snapshot ∧ ¬ Fresh s call snapshot := by
  refine ⟨_, rfl, _, _, rfl, ?_⟩
  rintro ⟨n, hn, hsnapshot, hseen⟩
  have hlast : 0 < n := hseen 0 (by decide) (.inl rfl)
  obtain rfl : n = 1 := Nat.le_antisymm hn hlast
  exact absurd (congrArg (fun rows : Snapshot => rows.items.length) hsnapshot) (by decide)

/-- A deletion that names another knowledge base leaves the cached snapshot with the chunk. -/
example :
    ((cacheSystem.exec (.connect oneChunk 0) ([.search 0 "x" 32] ++ List.replicate 9 (.advance 0)
      ++ [.mutate 1 "y" (.deleteDocument "d") true, .advance 1, .search 2 "x" 32]
      ++ List.replicate 3 (.advance 2))).map (fun s =>
        ((s.log.current.snapshot "x").items.length, s.tasks 2 matches .scored ..,
          s.backend.vecState.cache.items.map (fun e => e.2.items.length))))
      = some (0, true, [1]) := by decide

end CacheSystem

end Himmy
