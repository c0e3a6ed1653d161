import Himmy.Inference.Cache
import Mathlib.Algebra.Ring.Nat

/-! # Recording and replaying

`RecordingClientManager` appends an exchange to its cassette when the response arrives, and
`ReplayClientManager` answers a request with the next response recorded under its content key. The
requests of a key are served apart from those of other keys (`filter_replay`), so that a replay gives
each its own response exactly when the responses of every key were recorded in the order of issue. -/

namespace Himmy

/-- `InferenceResponse`: the id of the request, and everything else. -/
structure RecordedResponse (ρ : Type) where
  requestId : String
  body : ρ
deriving DecidableEq

/-- A request issued to the recorder, with the response that its caller received, if any, and what
    `_may_record` said when it arrived. -/
structure Exchange (ρ : Type) where
  request : InferenceRequest
  response : Option (RecordedResponse ρ)
  mayRecord : Bool := true

/-- `CassetteEntry`, without the preview. -/
structure CassetteEntry (ρ : Type) where
  cacheKey : String
  modelKey : String
  response : RecordedResponse ρ

section

variable {ρ : Type} (D : Digests)

def Exchange.key (e : Exchange ρ) : String := e.request.computeCacheKey D

/-- What `RecordingClientManager.generate` appends when the response has arrived. -/
def Exchange.entry? (e : Exchange ρ) : Option (CassetteEntry ρ) :=
  if e.mayRecord then
    e.response.map fun response => ⟨e.key D, e.request.modelKey, response⟩
  else none

/-- A run of the recorder: the requests in the order of issue, and those that were answered in the
    order in which their responses arrived. -/
structure Recording (ρ : Type) where
  issued : List (Exchange ρ)
  completed : List (Exchange ρ)
  perm : completed.Perm (issued.filter (fun e => e.response.isSome))

/-- The cassette, dumped and loaded, where `reload` is what a response is read back as. -/
def Recording.cassette (recording : Recording ρ) (reload : RecordedResponse ρ → RecordedResponse ρ) :
    List (CassetteEntry ρ) :=
  (recording.completed.filterMap (Exchange.entry? D)).map fun entry =>
    { entry with response := reload entry.response }

/-! ## The replay -/

/-- `ReplayClientManager`; `fallback` says that there is one. -/
structure ReplayClientManager (ρ : Type) where
  byKey : Dict (List (RecordedResponse ρ)) := KeyedList.empty
  fallback : Bool := false

/-- What `generate` comes to: a recorded response, the call of the fallback, or a `ReplayError`. -/
inductive Replayed (ρ : Type)
  | response (response : RecordedResponse ρ)
  | fallback
  | replayError

namespace ReplayClientManager

/-- `ReplayClientManager(cassette)`. -/
def ofCassette (entries : List (CassetteEntry ρ)) (fallback : Bool) : ReplayClientManager ρ where
  byKey := entries.foldl (fun byKey entry =>
    byKey.set entry.cacheKey ((byKey.find? entry.cacheKey).getD [] ++ [entry.response])) KeyedList.empty
  fallback := fallback

variable (manager : ReplayClientManager ρ)

def queue (key : String) : List (RecordedResponse ρ) := (manager.byKey.find? key).getD []

/-- `generate`, for a request with this content key and id. -/
def generate (key requestId : String) : ReplayClientManager ρ × Replayed ρ :=
  match manager.queue key with
  | response :: queue =>
    ({ manager with byKey := manager.byKey.set key queue }, .response { response with requestId })
  | [] => (manager, if manager.fallback then .fallback else .replayError)

def remaining : Nat := (manager.byKey.items.map (fun item => item.2.length)).sum

/-- Requests issued one after another, each with its new id, and what they come to. -/
def replay : ReplayClientManager ρ → List (Exchange ρ × String) →
    ReplayClientManager ρ × List ((Exchange ρ × String) × Replayed ρ)
  | manager, [] => (manager, [])
  | manager, call :: calls =>
    let (next, result) := manager.generate (call.1.key D) call.2
    let (last, results) := replay next calls
    (last, (call, result) :: results)

end ReplayClientManager

/-! ## Key by key -/

variable {D}

def serve (fallback : Bool) : List (RecordedResponse ρ) → List (Exchange ρ × String) →
    List ((Exchange ρ × String) × Replayed ρ)
  | _, [] => []
  | response :: queue, call :: calls =>
    (call, .response { response with requestId := call.2 }) :: serve fallback queue calls
  | [], call :: calls => (call, if fallback then .fallback else .replayError) :: serve fallback [] calls

namespace ReplayClientManager

variable {manager : ReplayClientManager ρ} {calls : List (Exchange ρ × String)}

variable (manager : ReplayClientManager ρ)

theorem queue_generate (key requestId k : String) : (manager.generate key requestId).1.queue k
      = if k = key then (manager.queue key).drop 1 else manager.queue k := by
  unfold generate
  split
  · next response queue hqueue =>
    rw [hqueue]
    simp only [ReplayClientManager.queue, Dict.find?_set]
    split <;> rfl
  · next hqueue =>
    by_cases hk : k = key
    · rw [if_pos hk, hk, hqueue]
      rfl
    · rw [if_neg hk]

theorem fallback_generate (key requestId : String) :
    (manager.generate key requestId).1.fallback = manager.fallback := by
  unfold generate
  split <;> rfl

theorem filter_replay (D : Digests) (k : String) (calls : List (Exchange ρ × String))
    (manager : ReplayClientManager ρ) :
    (manager.replay D calls).2.filter (fun result => result.1.1.key D = k)
        = serve manager.fallback (manager.queue k) (calls.filter (fun call => call.1.key D = k))
      ∧ (manager.replay D calls).1.queue k
        = (manager.queue k).drop (calls.filter (fun call => call.1.key D = k)).length
      ∧ (manager.replay D calls).1.fallback = manager.fallback := by
  induction calls generalizing manager with
  | nil => exact ⟨by cases manager.queue k <;> rfl, rfl, rfl⟩
  | cons call calls ih =>
    obtain ⟨hresults, hqueue, hfallback⟩ := ih (manager.generate (call.1.key D) call.2).1
    rw [fallback_generate] at hresults hfallback
    rw [queue_generate] at hresults hqueue
    simp only [replay]
    refine ⟨?_, ?_, hfallback⟩
    · by_cases hk : call.1.key D = k
      · subst hk
        rw [if_pos rfl] at hresults
        rw [List.filter_cons_of_pos (by simp), List.filter_cons_of_pos (by simp), hresults]
        unfold generate
        cases manager.queue (call.1.key D) <;> rfl
      · rw [List.filter_cons_of_neg (by simpa using hk), List.filter_cons_of_neg (by simpa using hk),
          hresults, if_neg (Ne.symm hk)]
    · rw [hqueue]
      by_cases hk : call.1.key D = k
      · rw [if_pos hk.symm, hk, List.filter_cons_of_pos (by simpa using hk), List.drop_drop,
          List.length_cons, Nat.add_comm]
      · rw [if_neg (Ne.symm hk), List.filter_cons_of_neg (by simpa using hk)]

theorem remaining_eq_zero_iff : manager.remaining = 0 ↔ ∀ key, manager.queue key = [] := by
  have hsum : manager.remaining = 0 ↔ ∀ item ∈ manager.byKey.items, item.2 = [] := by
    unfold remaining
    induction manager.byKey.items with
    | nil => simp
    | cons item items ih => simp [ih]
  rw [hsum]
  constructor
  · intro h key
    unfold queue
    cases hfind : manager.byKey.find? key with
    | none => rfl
    | some queue => exact h _ (Dict.find?_eq_some_iff.1 hfind)
  · intro h item hitem
    have hqueue := h item.1
    unfold queue at hqueue
    rwa [Dict.find?_eq_some_iff.2 hitem] at hqueue

theorem queue_ofCassette (entries : List (CassetteEntry ρ)) (fallback : Bool) (k : String) :
    (ofCassette entries fallback).queue k
      = (entries.filter (fun entry => entry.cacheKey = k)).map CassetteEntry.response := by
  have hfold : ∀ (entries : List (CassetteEntry ρ)) (byKey : Dict (List (RecordedResponse ρ))),
      ((entries.foldl (fun byKey entry => byKey.set entry.cacheKey
          ((byKey.find? entry.cacheKey).getD [] ++ [entry.response])) byKey).find? k).getD []
        = (byKey.find? k).getD []
          ++ (entries.filter (fun entry => entry.cacheKey = k)).map CassetteEntry.response := by
    intro entries
    induction entries with
    | nil => simp
    | cons entry entries ih =>
      intro byKey
      rw [List.foldl_cons, ih, Dict.find?_set]
      by_cases hk : entry.cacheKey = k
      · simp [hk]
      · simp [hk, Ne.symm hk]
  exact hfold entries KeyedList.empty

end ReplayClientManager

/-! ## When a replay reproduces the recording -/

/-- The answered requests of a key received the responses of the queue, in order. -/
def Matches : List (RecordedResponse ρ) → List (Exchange ρ) → Prop
  | _, [] => True
  | response :: queue, e :: es =>
    (∀ received ∈ e.response, response.body = received.body) ∧ Matches queue es
  | [], e :: es => e.response = none ∧ Matches [] es

def Recording.InOrder (D : Digests) (recording : Recording ρ)
    (reload : RecordedResponse ρ → RecordedResponse ρ) : Prop :=
  ∀ k, Matches (((recording.cassette D reload).filter (fun entry => entry.cacheKey = k)).map
    CassetteEntry.response) (recording.issued.filter (fun e => e.key D = k))

/-- Issued again, in an order that keeps the order of the requests of a key, every request that was
    answered is given its response with its new id; then nothing remains, and a further request raises
    when there is no fallback. -/
def Recording.Reproduced (D : Digests) (recording : Recording ρ)
    (reload : RecordedResponse ρ → RecordedResponse ρ) : Prop :=
  ∀ (fallback : Bool) (calls : List (Exchange ρ × String)),
    (∀ k, (calls.map Prod.fst).filter (fun e => e.key D = k)
      = recording.issued.filter (fun e => e.key D = k)) →
    let replay := (ReplayClientManager.ofCassette (recording.cassette D reload) fallback).replay D calls
    (∀ result ∈ replay.2, ∀ received ∈ result.1.1.response,
        result.2 = .response { received with requestId := result.1.2 })
      ∧ replay.1.remaining = 0
      ∧ (fallback = false → ∀ key requestId, (replay.1.generate key requestId).2 = .replayError)

theorem matches_iff (fallback : Bool) {queue : List (RecordedResponse ρ)}
    {calls : List (Exchange ρ × String)} :
    (∀ result ∈ serve fallback queue calls, ∀ received ∈ result.1.1.response,
        result.2 = .response { received with requestId := result.1.2 })
      ↔ Matches queue (calls.map Prod.fst) := by
  induction calls generalizing queue with
  | nil => simp [serve, Matches]
  | cons call calls ih =>
    cases queue with
    | nil =>
      rw [serve, List.forall_mem_cons, ih, List.map_cons, Matches, Option.eq_none_iff_forall_not_mem]
      refine and_congr_left' (forall₂_congr fun received _ => ?_)
      cases fallback <;> simp
    | cons response queue =>
      rw [serve, List.forall_mem_cons, ih, List.map_cons, Matches]
      refine and_congr_left' (forall₂_congr fun received _ => ?_)
      simp

theorem length_recorded_le (recording : Recording ρ) (reload : RecordedResponse ρ → RecordedResponse ρ)
    (k : String) : ((recording.cassette D reload).filter (fun entry => entry.cacheKey = k)).length
      ≤ (recording.issued.filter (fun e => e.key D = k)).length := by
  have hentries : ∀ es : List (Exchange ρ),
      (((es.filterMap (Exchange.entry? D)).map fun entry =>
          { entry with response := reload entry.response }).filter (fun entry => entry.cacheKey = k)).length
        ≤ (es.filter (fun e => e.key D = k)).length := by
    intro es
    induction es with
    | nil => exact Nat.le_refl 0
    | cons e es ih =>
      have hgrow : (es.filter (fun e => e.key D = k)).length
          ≤ ((e :: es).filter (fun e => e.key D = k)).length :=
        ((List.sublist_cons_self e es).filter _).length_le
      cases hentry : e.entry? D with
      | none =>
        rw [List.filterMap_cons_none hentry]
        exact ih.trans hgrow
      | some entry =>
        have hkey : entry.cacheKey = e.key D := by
          unfold Exchange.entry? at hentry
          split at hentry
          · obtain ⟨response, -, rfl⟩ := Option.map_eq_some_iff.1 hentry
            rfl
          · cases hentry
        rw [List.filterMap_cons_some hentry, List.map_cons]
        by_cases hk : e.key D = k
        · rw [List.filter_cons_of_pos (by simpa [hkey] using hk),
            List.filter_cons_of_pos (by simpa using hk)]
          exact Nat.succ_le_succ ih
        · rw [List.filter_cons_of_neg (by simpa [hkey] using hk)]
          exact ih.trans hgrow
  refine (hentries recording.completed).trans ?_
  rw [(recording.perm.filter _).length_eq]
  exact (List.filter_sublist.filter _).length_le

theorem filter_replay_cassette (D : Digests) (recording : Recording ρ)
    (reload : RecordedResponse ρ → RecordedResponse ρ) (fallback : Bool)
    (calls : List (Exchange ρ × String)) (k : String) :
    ((ReplayClientManager.ofCassette (recording.cassette D reload) fallback).replay D calls).2.filter
        (fun result => result.1.1.key D = k)
      = serve fallback (((recording.cassette D reload).filter (fun entry => entry.cacheKey = k)).map
          CassetteEntry.response) (calls.filter (fun call => call.1.key D = k)) := by
  rw [(ReplayClientManager.filter_replay D k calls _).1, ReplayClientManager.queue_ofCassette]
  rfl

theorem map_fst_filter (D : Digests) (calls : List (Exchange ρ × String)) (k : String) :
    (calls.filter (fun call => call.1.key D = k)).map Prod.fst
      = (calls.map Prod.fst).filter (fun e => e.key D = k) := by
  rw [List.filter_map]
  rfl

theorem Recording.Reproduced.inOrder {recording : Recording ρ}
    {reload : RecordedResponse ρ → RecordedResponse ρ} (h : recording.Reproduced D reload) :
    recording.InOrder D reload := by
  intro k
  have hissued : (recording.issued.map (fun e => (e, ""))).map Prod.fst = recording.issued := by
    rw [List.map_map]
    exact List.map_id _
  obtain ⟨hgiven, -, -⟩ := h false (recording.issued.map (fun e => (e, ""))) (fun k => by rw [hissued])
  rw [← hissued, ← map_fst_filter, ← matches_iff false, ← filter_replay_cassette]
  exact fun result hresult => hgiven result (List.mem_filter.1 hresult).1

theorem Recording.InOrder.reproduced {recording : Recording ρ}
    {reload : RecordedResponse ρ → RecordedResponse ρ} (h : recording.InOrder D reload) :
    recording.Reproduced D reload := by
  intro fallback calls hsame
  have hempty : ∀ k, ((ReplayClientManager.ofCassette (recording.cassette D reload) fallback).replay D
      calls).1.queue k = [] := by
    intro k
    rw [(ReplayClientManager.filter_replay D k calls _).2.1, ReplayClientManager.queue_ofCassette,
      List.drop_eq_nil_iff, List.length_map, ← List.length_map Prod.fst, map_fst_filter, hsame]
    exact length_recorded_le recording reload k
  refine ⟨fun result hresult => ?_, (ReplayClientManager.remaining_eq_zero_iff _).2 hempty, ?_⟩
  · have hkey := h (result.1.1.key D)
    rw [← hsame, ← map_fst_filter, ← matches_iff fallback, ← filter_replay_cassette] at hkey
    exact hkey result (List.mem_filter.2 ⟨hresult, by simp⟩)
  · rintro rfl key requestId
    have hfallback := (ReplayClientManager.filter_replay D key calls
      (ReplayClientManager.ofCassette (recording.cassette D reload) false)).2.2
    unfold ReplayClientManager.generate
    rw [hempty key]
    exact if_neg (by rw [hfallback]; exact Bool.false_ne_true)

/-- Two equal requests, the second of which is answered first. -/
def overtakenAnswer : Recording String where
  issued := [⟨{}, some ⟨"1", "one"⟩, true⟩, ⟨{}, some ⟨"2", "two"⟩, true⟩]
  completed := [⟨{}, some ⟨"2", "two"⟩, true⟩, ⟨{}, some ⟨"1", "one"⟩, true⟩]
  perm := List.Perm.swap _ _ _

theorem overtakenAnswer_not_reproduced (D : Digests) : ¬ overtakenAnswer.Reproduced D id := by
  intro h
  have hkey := h.inOrder (Exchange.key D (⟨{}, none, true⟩ : Exchange String))
  simp [overtakenAnswer, Recording.cassette, Exchange.entry?, Exchange.key, Matches] at hkey

end

end Himmy
