import Himmy.Entities.SqliteRegistry
import Himmy.Library.Windows
import Himmy.Runtime.Turn

/-! # The conversation store

`ConversationStore`: conversations, the flat messages that are regenerated from each thread, and the
projects that conversations are put into. A row belongs to a workspace, or, when it was written by
the CLI or before tenants were told apart, to nobody. Most methods take the workspaces that the
caller is bound to; the clocks and the drawn ids are arguments here. -/

namespace Himmy.Conversations

open Himmy.Runtime (MessageRole Message ChatThread)

/-! ## Scopes -/

/-- `scope_clause`: the caller reads the rows of its workspaces and the rows of nobody. `none` is a
    caller that is not bound; one workspace is a set of one. -/
def scopeClause (scope : Option (List String)) (workspaceId : Option String) : Bool :=
  scope.all (fun workspaces => workspaceId.all (fun w => w ∈ workspaces))

/-- `scope_clause_write`: the rows of nobody are left out. -/
def scopeClauseWrite (scope : Option (List String)) (workspaceId : Option String) : Bool :=
  scope.all (fun workspaces => workspaceId.any (fun w => w ∈ workspaces))

def rowWritableInScope (rowWorkspace workspaceId : Option String) : Bool :=
  workspaceId.all (fun w => rowWorkspace = some w)

/-! ## Flat transcripts -/

/-- The roles of a flat transcript. -/
inductive FlatRole where
  | user
  | agent
  deriving DecidableEq

def flatRole : MessageRole → FlatRole
  | .user => .user
  | _ => .agent

def stripped (m : Message) : List Char := pyStrip isPySpace m.content.toList

def flatFromThread (thread : ChatThread) : List (FlatRole × String) :=
  (thread.messages.filter (fun m => stripped m ≠ [])).map (fun m => (flatRole m.role, m.content))

def threadFromFlat (flat : List (FlatRole × String)) : ChatThread :=
  { messages := flat.map (fun m =>
      { role := if m.1 = .user then .user else .assistant, content := m.2 }) }

def deriveTitle (thread : ChatThread) : String :=
  match thread.messages.find? (fun m => m.role = .user && stripped m ≠ []) with
  | some m =>
    let line := (stripped m).takeWhile (fun c => !isLineBreak c)
    String.ofList (line.take 60) ++ (if 60 < line.length then "…" else "")
  | none => "New chat"

/-! ## Rows -/

/-- A row of `conversations`. -/
structure ConversationRow where
  conversationId : String
  thread : ChatThread
  origin : String
  title : String
  agentPath : Option String
  provider : Option String
  projectId : Option String
  subjectId : Option String
  workspaceId : Option String
  createdAt : String
  updatedAt : String

/-- A row of `conversation_messages`, apart from its drawn id. -/
structure MessageRow where
  conversationId : String
  role : FlatRole
  text : String
  seq : Nat
  createdAt : String

/-- A row of `projects`. -/
structure ProjectRow where
  id : String
  name : String
  description : String
  kbId : Option String
  agentPath : Option String
  createdAt : String
  updatedAt : String
  workspaceId : Option String

structure ConversationSummary where
  conversationId : String
  origin : String
  title : String
  agentPath : Option String
  provider : Option String
  projectId : Option String
  createdAt : String
  updatedAt : String
  messageCount : Nat
  deriving DecidableEq

/-! ## Arguments -/

/-- The arguments of `save_thread`; `agentId` is that of the thread, `now` the clock. -/
structure SaveThread where
  conversationId : String
  thread : ChatThread
  agentId : Option String
  origin : String
  title : Option String
  agentPath : Option String
  provider : Option String
  projectId : Option String
  subjectId : Option String
  now : String

/-- `save_flat`, up to its call of `save_thread`. -/
def saveFlat (conversationId : String) (title agentPath provider : Option String)
    (flat : List (FlatRole × String)) (projectId : Option String) (origin now : String) :
    SaveThread :=
  { conversationId, thread := threadFromFlat flat, agentId := agentPath, origin, title, agentPath
    provider, projectId, subjectId := none, now }

namespace SaveThread

variable (call : SaveThread) (existing : Option ConversationRow)

def resolvedTitle : String :=
  match pyStrip isPySpace (call.title.getD "").toList with
  | [] => deriveTitle call.thread
  | title => String.ofList title

def resolvedAgent : Option String :=
  call.agentPath <|> match existing with
    | some row => row.agentPath
    | none => call.agentId

def resolvedProvider : Option String :=
  call.provider <|> existing.bind ConversationRow.provider

def effectiveProject : Option String :=
  orNone call.projectId <|> existing.bind ConversationRow.projectId

def resolvedSubject : Option String :=
  orNone call.subjectId <|> existing.bind ConversationRow.subjectId

def resolvedOrigin : String :=
  pyOr (some call.origin) ((existing.map ConversationRow.origin).getD "cli")

/-- The row that the upsert leaves; a row that is there keeps its origin, its owner and its time. -/
def row (workspaceId : Option String) : ConversationRow where
  conversationId := call.conversationId
  thread := call.thread
  origin := (existing.map ConversationRow.origin).getD (call.resolvedOrigin existing)
  title := call.resolvedTitle
  agentPath := call.resolvedAgent existing
  provider := call.resolvedProvider existing
  projectId := call.effectiveProject existing
  subjectId := call.resolvedSubject existing
  workspaceId := (existing.map ConversationRow.workspaceId).getD workspaceId
  createdAt := (existing.map ConversationRow.createdAt).getD call.now
  updatedAt := call.now

/-- The rows that `_reproject` inserts. -/
def messageRows : List MessageRow :=
  (flatFromThread call.thread).zipIdx.map (fun m =>
    { conversationId := call.conversationId, role := m.1.1, text := m.1.2, seq := m.2
      createdAt := call.now })

/-- The summary that `save_thread` returns. -/
def summary : ConversationSummary where
  conversationId := call.conversationId
  origin := call.resolvedOrigin existing
  title := call.resolvedTitle
  agentPath := call.resolvedAgent existing
  provider := call.resolvedProvider existing
  projectId := call.effectiveProject existing
  createdAt := (existing.map ConversationRow.createdAt).getD call.now
  updatedAt := call.now
  messageCount := (flatFromThread call.thread).length

end SaveThread

/-- The columns that a project may be assigned. -/
inductive ProjectColumn where
  | name
  | description
  | kbId
  | agentPath
  deriving DecidableEq

/-- An assignment to a column; a `NULL` where none is allowed raises. -/
def ProjectRow.assign (row : ProjectRow) : ProjectColumn × Option String → Option ProjectRow
  | (.name, value) => value.map (fun name => { row with name })
  | (.description, value) => value.map (fun description => { row with description })
  | (.kbId, value) => some { row with kbId := value }
  | (.agentPath, value) => some { row with agentPath := value }

/-- The order in which SQLite comes to what a list is made of. -/
structure ListOrders where
  conversations : Windows.Arrangement ConversationSummary
  projects : Windows.Arrangement (ProjectRow × Nat)

/-! ## The store -/

structure ConversationStore where
  conversations : KeyedList ConversationRow.conversationId := KeyedList.empty
  messages : List MessageRow := []
  projects : KeyedList ProjectRow.id := KeyedList.empty

namespace ConversationStore

variable (store : ConversationStore) (scope : Option (List String)) (conversationId : String)

def count : Nat :=
  store.messages.countP (fun m => m.conversationId = conversationId)

def summary (row : ConversationRow) : ConversationSummary where
  conversationId := row.conversationId
  origin := row.origin
  title := row.title
  agentPath := row.agentPath
  provider := row.provider
  projectId := row.projectId
  createdAt := row.createdAt
  updatedAt := row.updatedAt
  messageCount := store.count row.conversationId

def saveThread (call : SaveThread) (workspaceId : Option String) :
    ConversationStore × ConversationSummary :=
  let existing := store.conversations.get? call.conversationId
  match existing.filter (fun row => !rowWritableInScope row.workspaceId workspaceId) with
  | some row => (store, store.summary row)
  | none =>
    ({ store with
        conversations := store.conversations.put (call.row existing workspaceId)
        messages := store.messages.filter (fun m => m.conversationId ≠ call.conversationId)
          ++ call.messageRows },
      call.summary existing)

def getSummary : Option ConversationSummary :=
  ((store.conversations.get? conversationId).filter
    (fun row => scopeClause scope row.workspaceId)).map store.summary

/-- The summaries of the rows that a `WHERE` selects, newest first. -/
def summaries (o : ListOrders) (p : ConversationRow → Bool) : List ConversationSummary :=
  (o.conversations.arrange ((store.conversations.items.filter p).map store.summary)).mergeSort
    (fun r s => s.updatedAt ≤ r.updatedAt)

/-- `list_summaries`; `none` when the limit is no integer of SQLite. -/
def listSummaries (o : ListOrders) (limit : Option Int) (origin : Option String) :
    Option (List ConversationSummary) :=
  let rows := store.summaries o
    (fun row => origin.all (fun origin => row.origin = origin) && scopeClause scope row.workspaceId)
  match limit with
  | none => some rows
  | some n => if fitsInteger n then some (if n < 0 then rows else rows.take n.toNat) else none

/-- The `UPDATE` of a conversation; whether a row was changed. -/
def updateConversation (p : ConversationRow → Bool)
    (f : ConversationRow → ConversationRow) : ConversationStore × Bool :=
  let updated := store.conversations.updateIf conversationId p f
  ({ store with conversations := updated.1 }, updated.2)

def rename (conversationId title now : String) : ConversationStore × Bool :=
  store.updateConversation conversationId (fun row => scopeClauseWrite scope row.workspaceId)
    (fun row => { row with title, updatedAt := now })

def delete : ConversationStore × Bool :=
  let found := (store.conversations.get? conversationId).any
    (fun row => scopeClauseWrite scope row.workspaceId)
  if scope.isSome && !found then (store, false)
  else
    ({ store with
        conversations := store.conversations.filter (fun row =>
          !(row.conversationId = conversationId && scopeClauseWrite scope row.workspaceId))
        messages := store.messages.filter (fun m => m.conversationId ≠ conversationId) },
      found)

/-- `create_project`, which draws the id of the row; `none` when it is taken. -/
def createProject (row : ProjectRow) : ConversationStore × Option ProjectRow :=
  match store.projects.get? row.id with
  | some _ => (store, none)
  | none => ({ store with projects := store.projects.put row }, some row)

variable (projectId : String)

def getProjectRow : Option ProjectRow :=
  (store.projects.get? projectId).filter (fun row => scopeClause scope row.workspaceId)

def projectChatCount : Nat :=
  store.conversations.items.countP
    (fun row => row.projectId = some projectId && scopeClause scope row.workspaceId)

/-- `list_project_rows`. Its `LEFT JOIN` counts the conversations of every workspace. -/
def listProjectRows (o : ListOrders) : List (ProjectRow × Nat) :=
  (o.projects.arrange ((store.projects.items.filter
    (fun row => scopeClause scope row.workspaceId)).map
      (fun row => (row, store.projectChatCount none row.id)))).mergeSort
    (fun r s => s.1.updatedAt ≤ r.1.updatedAt)

/-- `update_project`; `none` when it raises. -/
def updateProject (assignments : List (ProjectColumn × Option String))
    (now : String) : ConversationStore × Option Bool :=
  if assignments = [] then (store, some (store.getProjectRow scope projectId).isSome)
  else
    match (store.projects.get? projectId).filter
      (fun row => scopeClauseWrite scope row.workspaceId) with
    | none => (store, some false)
    | some row =>
      match assignments.foldlM ProjectRow.assign row with
      | none => (store, none)
      | some row => ({ store with projects := store.projects.put { row with updatedAt := now } },
          some true)

def unassigned (row : ConversationRow) : ConversationRow :=
  if row.projectId = some projectId then { row with projectId := none } else row

/-- `delete_project`. Its `UPDATE` clears the project of the conversations of every workspace. -/
def deleteProject : ConversationStore × Bool :=
  let found := (store.projects.get? projectId).any
    (fun row => scopeClauseWrite scope row.workspaceId)
  if scope.isSome && !found then (store, false)
  else
    ({ store with
        conversations := store.conversations.modify (unassigned projectId)
          (fun row => by unfold unassigned; split <;> rfl)
        projects := store.projects.filter (fun row =>
          !(row.id = projectId && scopeClauseWrite scope row.workspaceId)) },
      found)

def projectConversationSummaries (o : ListOrders) (projectId : String) : List ConversationSummary :=
  store.summaries o
    (fun row => row.projectId = some projectId && scopeClause scope row.workspaceId)

def touchProject (projectId now : String) : ConversationStore :=
  { store with projects :=
      (store.projects.updateIf projectId (fun _ => true) (fun row => { row with updatedAt := now })).1 }

/-- `assign_conversation`. The project is looked up as for reading. -/
def assignConversation (projectId conversationId now : String) : ConversationStore × Bool :=
  match store.getProjectRow scope projectId with
  | none => (store, false)
  | some _ =>
    let updated := store.updateConversation conversationId
      (fun row => scopeClauseWrite scope row.workspaceId)
      (fun row => { row with projectId := some projectId })
    (if updated.2 then updated.1.touchProject projectId now else updated.1, updated.2)

def unassignConversation : ConversationStore × Bool :=
  store.updateConversation conversationId
    (fun row => row.projectId.isSome && scopeClauseWrite scope row.workspaceId)
    (fun row => { row with projectId := none })

end ConversationStore

/-! ## Calls of bound callers -/

/-- The calls of a caller that is bound to workspaces. A save and a new project name the one that
    the row is stamped with. -/
inductive ConversationCall where
  | saveThread (workspaceId : String) (call : SaveThread)
  | createProject (workspaceId : String) (row : ProjectRow)
  | getSummary (scope : List String) (conversationId : String)
  | listSummaries (scope : List String) (limit : Option Int) (origin : Option String)
  | rename (scope : List String) (conversationId title now : String)
  | delete (scope : List String) (conversationId : String)
  | getProjectRow (scope : List String) (projectId : String)
  | projectChatCount (scope : List String) (projectId : String)
  | listProjectRows (scope : List String)
  | updateProject (scope : List String) (projectId : String)
      (assignments : List (ProjectColumn × Option String)) (now : String)
  | deleteProject (scope : List String) (projectId : String)
  | projectConversationSummaries (scope : List String) (projectId : String)
  | assignConversation (scope : List String) (projectId conversationId now : String)
  | unassignConversation (scope : List String) (conversationId : String)

def ConversationCall.scope : ConversationCall → List String
  | saveThread workspaceId _ | createProject workspaceId _ => [workspaceId]
  | getSummary scope _ | listSummaries scope _ _ | rename scope _ _ _ | delete scope _
  | getProjectRow scope _ | projectChatCount scope _ | listProjectRows scope
  | updateProject scope _ _ _ | deleteProject scope _ | projectConversationSummaries scope _
  | assignConversation scope _ _ _ | unassignConversation scope _ => scope

/-- What a call returns. -/
inductive ConversationAnswer where
  | raised
  | changed (changed : Bool)
  | summary (summary : Option ConversationSummary)
  | created (row : ProjectRow) (chatCount : Nat)
  | summaries (rows : List ConversationSummary)
  | project (row : Option ProjectRow)
  | projects (rows : List (ProjectRow × Nat))
  | count (n : Nat)

namespace ConversationStore

def perform (store : ConversationStore) (o : ListOrders) :
    ConversationCall → ConversationStore × ConversationAnswer
  | .saveThread workspaceId call =>
    let saved := store.saveThread call (some workspaceId)
    (saved.1, .summary (some saved.2))
  | .createProject workspaceId row =>
    let created := store.createProject { row with workspaceId := some workspaceId }
    (created.1, created.2.elim .raised (fun row => .created row 0))
  | .getSummary scope conversationId => (store, .summary (store.getSummary (some scope) conversationId))
  | .listSummaries scope limit origin =>
    (store, (store.listSummaries (some scope) o limit origin).elim .raised .summaries)
  | .rename scope conversationId title now =>
    let renamed := store.rename (some scope) conversationId title now
    (renamed.1, .changed renamed.2)
  | .delete scope conversationId =>
    let deleted := store.delete (some scope) conversationId
    (deleted.1, .changed deleted.2)
  | .getProjectRow scope projectId => (store, .project (store.getProjectRow (some scope) projectId))
  | .projectChatCount scope projectId => (store, .count (store.projectChatCount (some scope) projectId))
  | .listProjectRows scope => (store, .projects (store.listProjectRows (some scope) o))
  | .updateProject scope projectId assignments now =>
    let updated := store.updateProject (some scope) projectId assignments now
    (updated.1, updated.2.elim .raised .changed)
  | .deleteProject scope projectId =>
    let deleted := store.deleteProject (some scope) projectId
    (deleted.1, .changed deleted.2)
  | .projectConversationSummaries scope projectId =>
    (store, .summaries (store.projectConversationSummaries (some scope) o projectId))
  | .assignConversation scope projectId conversationId now =>
    let assigned := store.assignConversation (some scope) projectId conversationId now
    (assigned.1, .changed assigned.2)
  | .unassignConversation scope conversationId =>
    let unassigned := store.unassignConversation (some scope) conversationId
    (unassigned.1, .changed unassigned.2)

end ConversationStore

def conversationStore (o : ListOrders) :
    Machine ConversationStore ConversationCall ConversationAnswer where
  step store call := store.perform o call

end Himmy.Conversations
