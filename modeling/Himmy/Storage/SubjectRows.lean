import Himmy.Core.Text
import Himmy.Storage.Models

/-! # The rows of a subject

`delete_by_subject` of the storage backends and of the conversation store. A backend has no subject on
its threads and events: the runs of a subject name them. Both backends delete what those runs name,
the runs and the recommendations (`deleteBySubject_fst`); the memory objects stay. -/

namespace Himmy

open KeyedList (empty filter erase filter_filter ext)

/-- A row of `chat_threads`. -/
structure ThreadRow where
  threadId : String

/-- A row of `run_events`. -/
structure EventRow where
  eventId : String
  threadId : Option String := none
  traceId : Option String := none

/-- `RecommendationItem`. -/
structure RecommendationRow where
  recommendationId : String
  subjectId : String

/-- `MemoryObject`, `EpisodicMemoryObject`. -/
structure MemoryObjectRow where
  objectId : String
  subjectId : Option String := none

/-- The tables of a storage backend. -/
structure StorageTables where
  threads : KeyedList ThreadRow.threadId := empty
  events : List EventRow := []
  runs : RunTable := empty
  recommendations : KeyedList RecommendationRow.recommendationId := empty
  memoryObjects : KeyedList MemoryObjectRow.objectId := empty
  episodicMemoryObjects : KeyedList MemoryObjectRow.objectId := empty

/-- The two backends. -/
inductive StorageBackend where
  | inMemory
  | sqlite

def EventRow.named (threadIds traceIds : List String) (event : EventRow) : Bool :=
  event.threadId.any (fun t => t ∈ threadIds) || event.traceId.any (fun t => t ∈ traceIds)

namespace StorageTables

variable (tables : StorageTables) (subjectId : String)

def runsOf : List RunRecord := tables.runs.items.filter (fun run => run.subjectId = subjectId)

/-- `thread_and_trace_ids_for_subject`: an empty id names nothing. -/
def threadIdsOf : List String :=
  (tables.runsOf subjectId).filterMap (fun run => orNone run.threadId)

def traceIdsOf : List String :=
  (tables.runsOf subjectId).filterMap (fun run => orNone run.traceId)

/-! ## The statements -/

/-- `DELETE FROM chat_threads WHERE thread_id = ?` -/
def deleteThread (threadId : String) : StorageTables × Nat :=
  ({ tables with threads := tables.threads.erase threadId },
    tables.threads.items.countP (fun row => row.threadId = threadId))

/-- `DELETE FROM run_events WHERE …` -/
def deleteEvents (p : EventRow → Bool) : StorageTables × Nat :=
  ({ tables with events := tables.events.filter (fun event => !p event) }, tables.events.countP p)

def deleteRuns : StorageTables × Nat :=
  ({ tables with runs := tables.runs.filter (fun run => run.subjectId ≠ subjectId) },
    tables.runs.items.countP (fun run => run.subjectId = subjectId))

def deleteRecommendations : StorageTables × Nat :=
  ({ tables with
      recommendations := tables.recommendations.filter (fun row => row.subjectId ≠ subjectId) },
    tables.recommendations.items.countP (fun row => row.subjectId = subjectId))

def andThen (acc : StorageTables × Nat) (statement : StorageTables → StorageTables × Nat) :
    StorageTables × Nat :=
  ((statement acc.1).1, acc.2 + (statement acc.1).2)

/-- `delete_by_subject`. In memory the events go at once, in SQL id by id. -/
def deleteBySubject : StorageBackend → StorageTables × Nat
  | .inMemory =>
    let threadIds := tables.threadIdsOf subjectId
    let traceIds := tables.traceIdsOf subjectId
    let acc := threadIds.foldl (fun acc t => andThen acc (fun tables => tables.deleteThread t))
      (tables, 0)
    let acc := andThen acc (fun tables => tables.deleteEvents (EventRow.named threadIds traceIds))
    let acc := andThen acc (fun tables => tables.deleteRuns subjectId)
    andThen acc (fun tables => tables.deleteRecommendations subjectId)
  | .sqlite =>
    let acc := (tables.threadIdsOf subjectId).foldl (fun acc t =>
      andThen (andThen acc (fun tables => tables.deleteThread t))
        (fun tables => tables.deleteEvents (fun event => event.threadId = some t))) (tables, 0)
    let acc := (tables.traceIdsOf subjectId).foldl (fun acc t =>
      andThen acc (fun tables => tables.deleteEvents (fun event => event.traceId = some t))) acc
    let acc := andThen acc (fun tables => tables.deleteRuns subjectId)
    andThen acc (fun tables => tables.deleteRecommendations subjectId)

def purge : StorageTables :=
  { tables with
    threads := tables.threads.filter (fun row => row.threadId ∉ tables.threadIdsOf subjectId)
    events := tables.events.filter (fun event =>
      !EventRow.named (tables.threadIdsOf subjectId) (tables.traceIdsOf subjectId) event)
    runs := tables.runs.filter (fun run => run.subjectId ≠ subjectId)
    recommendations := tables.recommendations.filter (fun row => row.subjectId ≠ subjectId) }

/-! ## Both backends leave the same tables and count the same rows -/

variable {tables subjectId} {acc : StorageTables × Nat}

theorem fst_andThen (statement : StorageTables → StorageTables × Nat) :
    (andThen acc statement).1 = (statement acc.1).1 := rfl

theorem foldl_deleteThread (ids : List String) :
    (ids.foldl (fun acc t => andThen acc (fun tables => tables.deleteThread t)) acc).1
      = { acc.1 with threads := acc.1.threads.filter (fun row => row.threadId ∉ ids) } := by
  induction ids generalizing acc with
  | nil => simp [filter]
  | cons t ids ih =>
    rw [List.foldl_cons, ih]
    simp only [fst_andThen, deleteThread, erase, filter_filter, List.mem_cons,
      not_or, Bool.decide_and, ne_eq]

theorem foldl_deleteTrace (ids : List String) : (ids.foldl (fun acc t => andThen acc (fun tables =>
        tables.deleteEvents (fun event => event.traceId = some t))) acc).1
      = { acc.1 with
          events := acc.1.events.filter (fun event => !event.traceId.any (fun t => t ∈ ids)) } := by
  induction ids generalizing acc with
  | nil => simp
  | cons t ids ih =>
    rw [List.foldl_cons, ih]
    simp only [fst_andThen, deleteEvents, List.filter_filter]
    congr 1
    refine List.filter_congr (fun event _ => ?_)
    cases event.traceId <;> simp [eq_comm, Bool.and_comm]

theorem foldl_deleteThreadEvents (ids : List String) :
    (ids.foldl (fun acc t => andThen (andThen acc (fun tables => tables.deleteThread t))
        (fun tables => tables.deleteEvents (fun event => event.threadId = some t))) acc).1
      = { acc.1 with
          threads := acc.1.threads.filter (fun row => row.threadId ∉ ids)
          events := acc.1.events.filter (fun event => !event.threadId.any (fun t => t ∈ ids)) } := by
  induction ids generalizing acc with
  | nil => simp [filter]
  | cons t ids ih =>
    rw [List.foldl_cons, ih]
    simp only [fst_andThen, deleteThread, deleteEvents, erase, filter_filter,
      List.filter_filter, List.mem_cons, not_or, Bool.decide_and, ne_eq]
    congr 1
    refine List.filter_congr (fun event _ => ?_)
    cases event.threadId <;> simp [eq_comm, Bool.and_comm]

theorem deleteBySubject_fst (backend : StorageBackend) :
    (tables.deleteBySubject subjectId backend).1 = tables.purge subjectId := by
  cases backend with
  | inMemory =>
    simp only [deleteBySubject, fst_andThen, deleteEvents, deleteRuns, deleteRecommendations]
    rw [foldl_deleteThread]
    rfl
  | sqlite =>
    simp only [deleteBySubject, fst_andThen, deleteRuns, deleteRecommendations]
    rw [foldl_deleteTrace, foldl_deleteThreadEvents]
    simp only [purge, List.filter_filter]
    congr 1
    refine List.filter_congr (fun event _ => ?_)
    rw [EventRow.named, Bool.not_or, Bool.and_comm]

end StorageTables

/-! ## Conversations -/

/-- A row of `conversations`. -/
structure ConversationRow where
  conversationId : String
  subjectId : Option String := none

/-- A row of `conversation_messages`. -/
structure ConversationMessageRow where
  id : String
  conversationId : String

/-- The tables of `ConversationStore`. -/
structure ConversationTables where
  conversations : KeyedList ConversationRow.conversationId := empty
  messages : KeyedList ConversationMessageRow.id := empty

namespace ConversationTables

variable (tables : ConversationTables) (subjectId : String)

def idsOf : List String :=
  (tables.conversations.items.filter (fun row => row.subjectId = some subjectId)).map
    ConversationRow.conversationId

def deleteBySubject : ConversationTables × Nat :=
  ({ conversations := tables.conversations.filter (fun row => row.subjectId ≠ some subjectId)
     messages := (tables.idsOf subjectId).foldl (fun messages cid =>
        messages.filter (fun row => row.conversationId ≠ cid)) tables.messages },
    (tables.idsOf subjectId).length)

variable {tables subjectId}

theorem mem_messages_deleteBySubject {row : ConversationMessageRow} :
    row ∈ (tables.deleteBySubject subjectId).1.messages.items ↔
      row ∈ tables.messages.items ∧ row.conversationId ∉ tables.idsOf subjectId := by
  have hfold : ∀ (ids : List String) (messages : KeyedList ConversationMessageRow.id),
      row ∈ (ids.foldl (fun messages cid =>
          messages.filter (fun row => row.conversationId ≠ cid)) messages).items ↔
        row ∈ messages.items ∧ row.conversationId ∉ ids := by
    intro ids
    induction ids with
    | nil => simp
    | cons cid ids ih =>
      intro messages
      rw [List.foldl_cons, ih]
      simp [and_assoc]
  exact hfold _ _

theorem deleteBySubject_of_none (h : ∀ row ∈ tables.conversations.items, row.subjectId ≠ some subjectId) :
    tables.deleteBySubject subjectId = (tables, 0) := by
  have hids : tables.idsOf subjectId = [] := by
    rw [idsOf, List.filter_eq_nil_iff.2 (fun row hrow => by simpa using h row hrow), List.map_nil]
  have hrows : tables.conversations.filter (fun row => row.subjectId ≠ some subjectId)
      = tables.conversations :=
    ext (List.filter_eq_self.2 (fun row hrow => decide_eq_true (h row hrow)))
  rw [deleteBySubject, hids, hrows]
  rfl

end ConversationTables

end Himmy
