import Himmy.Library.Noninterference
import Himmy.Storage.Conversations

/-! # Tenants of the conversation store

A tenant sees the rows of its workspaces and the rows of nobody: `restrict` cuts that part out of a
store. A call of a tenant does to its part what it does to the whole store (`perform_restrict`), and
leaves every part that none of its workspaces has a row in (`restrict_perform`). So the tenants do
not see each other's calls, as long as a call keeps to what is theirs (`tenants_confined`): a list
of projects counts the conversations of everybody, the deletion of a project clears them, and a
conversation can be put into a project of nobody. A save onto the conversation of another tenant is
refused, but returns its summary. -/

namespace Himmy.Conversations

open KeyedList (filter_filter mem_of_get? get?_put key_of_get? ext)

namespace ConversationStore

/-- The conversation is there, and its owner is one of those that `p` selects. -/
def shows (store : ConversationStore) (p : Option String → Bool) (conversationId : String) : Bool :=
  ((store.conversations.get? conversationId).map ConversationRow.workspaceId).any p

/-- The rows of the owners that `p` selects, and the messages of their conversations. -/
def restrict (store : ConversationStore) (p : Option String → Bool) : ConversationStore where
  conversations := store.conversations.filter (fun row => p row.workspaceId)
  messages := store.messages.filter (fun m => store.shows p m.conversationId)
  projects := store.projects.filter (fun row => p row.workspaceId)

section Filters

variable {α : Type} {p q : α → Bool}

theorem filter_filter_of_imp (h : ∀ a, q a = true → p a = true) (l : List α) :
    (l.filter p).filter q = l.filter q := by
  rw [List.filter_filter]
  refine List.filter_congr (fun a _ => ?_)
  cases hq : q a with
  | false => rfl
  | true => exact h a hq

theorem any_filter_of_imp (h : ∀ a, q a = true → p a = true) (found : Option α) :
    (found.filter p).any q = found.any q := by
  cases found with
  | none => rfl
  | some a =>
    cases hp : p a with
    | true => rw [Option.filter_some_pos hp]
    | false =>
      rw [Option.filter_some_neg hp]
      exact (Bool.eq_false_iff.2 (fun hq => Bool.false_ne_true (hp.symm.trans (h a hq)))).symm

theorem filter_kept {κ : Type} {key : α → κ} (l : KeyedList key) (named : α → Bool)
    (h : ∀ a, p a = true → q a = false) :
    (l.filter (fun a => !(named a && p a))).filter q = l.filter q := by
  rw [filter_filter]
  refine congrArg (fun q => l.filter q) (funext fun a => ?_)
  cases hp : p a with
  | true => rw [h a hp, Bool.and_false]
  | false => rw [Bool.and_false, Bool.not_false, Bool.true_and]

end Filters

section Restrict

variable {store : ConversationStore} {p : Option String → Bool}

theorem shows_of_get? {conversationId : String} {row : ConversationRow}
    (h : store.conversations.get? conversationId = some row) :
    store.shows p conversationId = p row.workspaceId := by
  rw [shows, h]
  rfl

theorem get?_conversations_restrict (conversationId : String) :
    (store.restrict p).conversations.get? conversationId
      = (store.conversations.get? conversationId).filter (fun row => p row.workspaceId) :=
  store.conversations.get?_filter _ _

theorem get?_projects_restrict (projectId : String) : (store.restrict p).projects.get? projectId
      = (store.projects.get? projectId).filter (fun row => p row.workspaceId) :=
  store.projects.get?_filter _ _

theorem any_conversations_restrict {q : Option String → Bool} (hq : ∀ w, q w = true → p w = true)
    (conversationId : String) :
    ((store.restrict p).conversations.get? conversationId).any (fun row => q row.workspaceId)
      = (store.conversations.get? conversationId).any (fun row => q row.workspaceId) := by
  rw [get?_conversations_restrict]
  exact any_filter_of_imp (fun row : ConversationRow => hq row.workspaceId) _

theorem any_projects_restrict {q : Option String → Bool} (hq : ∀ w, q w = true → p w = true)
    (projectId : String) :
    ((store.restrict p).projects.get? projectId).any (fun row => q row.workspaceId)
      = (store.projects.get? projectId).any (fun row => q row.workspaceId) := by
  rw [get?_projects_restrict]
  exact any_filter_of_imp (fun row : ProjectRow => hq row.workspaceId) _

/-! ### What is read -/

theorem count_restrict {conversationId : String} (h : store.shows p conversationId = true) :
    (store.restrict p).count conversationId = store.count conversationId := by
  unfold count restrict
  rw [List.countP_filter]
  refine List.countP_congr ?_
  intro m _
  simp only [Bool.and_eq_true, decide_eq_true_eq, and_iff_left_iff_imp]
  rintro rfl
  exact h

theorem summary_restrict {row : ConversationRow} (h : row ∈ store.conversations.items)
    (hp : p row.workspaceId = true) : (store.restrict p).summary row = store.summary row := by
  unfold summary
  rw [count_restrict ((shows_of_get? (store.conversations.get?_of_mem h)).trans hp)]

theorem getSummary_restrict {scope : Option (List String)}
    (hscope : ∀ w, scopeClause scope w = true → p w = true) (conversationId : String) :
    (store.restrict p).getSummary scope conversationId = store.getSummary scope conversationId := by
  have hfound : ((store.restrict p).conversations.get? conversationId).filter
      (fun row => scopeClause scope row.workspaceId)
      = (store.conversations.get? conversationId).filter
        (fun row => scopeClause scope row.workspaceId) :=
    store.conversations.filter_get?_filter (fun row => hscope row.workspaceId) conversationId
  unfold getSummary
  rw [hfound]
  refine Option.map_congr ?_
  intro row hrow
  obtain ⟨hget, hin⟩ := Option.filter_eq_some_iff.1 hrow
  exact summary_restrict (mem_of_get? hget) (hscope _ hin)

variable (store) in
theorem summaries_restrict (o : ListOrders) {q : ConversationRow → Bool}
    (hq : ∀ row, q row = true → p row.workspaceId = true) :
    (store.restrict p).summaries o q = store.summaries o q := by
  have hrows : (store.restrict p).conversations.items.filter q
      = store.conversations.items.filter q := filter_filter_of_imp hq _
  unfold summaries
  rw [hrows]
  refine congrArg (fun rows => (o.conversations.arrange rows).mergeSort _) ?_
  refine List.map_congr_left ?_
  intro row hrow
  obtain ⟨hmem, hrow⟩ := List.mem_filter.1 hrow
  exact summary_restrict hmem (hq row hrow)

theorem getProjectRow_restrict {scope : Option (List String)}
    (hscope : ∀ w, scopeClause scope w = true → p w = true) (projectId : String) :
    (store.restrict p).getProjectRow scope projectId = store.getProjectRow scope projectId :=
  store.projects.filter_get?_filter (fun row => hscope row.workspaceId) projectId

theorem projectChatCount_restrict {scope : Option (List String)} {projectId : String}
    (h : ∀ row ∈ store.conversations.items, row.projectId = some projectId →
      scopeClause scope row.workspaceId = true → p row.workspaceId = true) :
    (store.restrict p).projectChatCount scope projectId
      = store.projectChatCount scope projectId := by
  unfold projectChatCount restrict
  rw [KeyedList.items_filter, List.countP_filter]
  refine List.countP_congr ?_
  intro row hrow
  simp only [Bool.and_eq_true, decide_eq_true_eq, and_iff_left_iff_imp]
  rintro ⟨hproject, hin⟩
  exact h row hrow hproject hin

/-! ### What is written -/

variable {scope : List String} {q : ConversationRow → Bool}

variable (store) in
theorem shows_updateConversation {f : ConversationRow → ConversationRow}
    (hkey : ∀ row, (f row).conversationId = row.conversationId)
    (hf : ∀ row, (f row).workspaceId = row.workspaceId) (conversationId : String) :
    (store.updateConversation conversationId q f).1.shows p = store.shows p := by
  funext k
  show (((store.conversations.updateIf conversationId q f).1.get? k).map
    ConversationRow.workspaceId).any p = store.shows p k
  rw [KeyedList.get?_updateIf _ _ _ _ hkey]
  split
  · next h =>
      rw [h, shows]
      cases store.conversations.get? conversationId with
      | none => rfl
      | some row => by_cases hq : q row = true <;> simp [hq, hf]
  · rfl

theorem updateConversation_restrict (f : ConversationRow → ConversationRow)
    (hkey : ∀ row, (f row).conversationId = row.conversationId)
    (hf : ∀ row, (f row).workspaceId = row.workspaceId)
    (hq : ∀ row, q row = true → p row.workspaceId = true) (conversationId : String) :
    (store.restrict p).updateConversation conversationId q f
      = ((store.updateConversation conversationId q f).1.restrict p,
        (store.updateConversation conversationId q f).2) := by
  have hupdate := store.conversations.updateIf_filter (k := conversationId)
    (q := fun row => p row.workspaceId) hkey (fun row => by rw [hf]) (fun row _ => hq row)
  have hshows := shows_updateConversation store (p := p) (q := q) hkey hf conversationId
  unfold restrict
  rw [hshows]
  unfold updateConversation
  simp only [hupdate]

variable (store) in
theorem restrict_updateConversation (f : ConversationRow → ConversationRow)
    (hkey : ∀ row, (f row).conversationId = row.conversationId)
    (hf : ∀ row, (f row).workspaceId = row.workspaceId)
    (hq : ∀ row, q row = true → p row.workspaceId = false) (conversationId : String) :
    (store.updateConversation conversationId q f).1.restrict p = store.restrict p := by
  have hupdate := store.conversations.filter_updateIf_of_neg (k := conversationId)
    (q := fun row => p row.workspaceId) hkey (fun row => by rw [hf]) (fun row _ => hq row)
  have hshows := shows_updateConversation store (p := p) (q := q) hkey hf conversationId
  unfold restrict
  rw [hshows]
  unfold updateConversation
  simp only [hupdate]

theorem filter_messages (conversationId : String) {rows : List MessageRow}
    (hrows : ∀ m ∈ rows, m.conversationId = conversationId) (shown : String → Bool) (now : Bool)
    (l : List MessageRow) : (l.filter (fun m => m.conversationId ≠ conversationId) ++ rows).filter
        (fun m => if m.conversationId = conversationId then now else shown m.conversationId)
      = (l.filter (fun m => shown m.conversationId)).filter
          (fun m => m.conversationId ≠ conversationId) ++ (if now then rows else []) := by
  rw [List.filter_append, List.filter_filter, List.filter_filter]
  refine congr (congrArg _ (List.filter_congr ?_)) ?_
  · intro m _
    by_cases hm : m.conversationId = conversationId
    · simp [hm]
    · rw [if_neg hm, Bool.and_comm]
  · split
    · next h =>
        refine List.filter_eq_self.2 (fun m hm => ?_)
        rw [if_pos (hrows m hm), h]
    · next h =>
        refine List.filter_eq_nil_iff.2 (fun m hm => ?_)
        rw [if_pos (hrows m hm)]
        exact h

theorem filter_messages_delete (conversationId : String) (shown : String → Bool)
    (l : List MessageRow) : (l.filter (fun m => m.conversationId ≠ conversationId)).filter
        (fun m => if m.conversationId = conversationId then false else shown m.conversationId)
      = (l.filter (fun m => shown m.conversationId)).filter
          (fun m => m.conversationId ≠ conversationId) := by
  have hmessages := filter_messages conversationId (fun m (hm : m ∈ []) => absurd hm List.not_mem_nil)
    shown false l
  simpa only [List.append_nil, Bool.false_eq_true, if_false] using hmessages

theorem filter_messages_of_not {conversationId : String} {shown : String → Bool}
    (h : shown conversationId = false) (l : List MessageRow) :
    (l.filter (fun m => shown m.conversationId)).filter (fun m => m.conversationId ≠ conversationId)
      = l.filter (fun m => shown m.conversationId) := by
  refine List.filter_eq_self.2 ?_
  intro m hm
  have hshown := (List.mem_filter.1 hm).2
  refine decide_eq_true (fun heq => ?_)
  rw [heq, h] at hshown
  cases hshown

/-! ### Saves -/

section Save

variable {call : SaveThread} {workspaceId : String}

theorem conversationId_of_mem_messageRows {m : MessageRow} (h : m ∈ call.messageRows) :
    m.conversationId = call.conversationId := by
  obtain ⟨_, _, rfl⟩ := List.mem_map.1 h
  rfl

theorem saveThread_of_writable (h : ∀ row, store.conversations.get? call.conversationId = some row →
      row.workspaceId = some workspaceId) : store.saveThread call (some workspaceId) = ({ store with
            conversations := store.conversations.put
              (call.row (store.conversations.get? call.conversationId) (some workspaceId))
            messages := store.messages.filter (fun m => m.conversationId ≠ call.conversationId)
              ++ call.messageRows },
          call.summary (store.conversations.get? call.conversationId)) := by
  unfold saveThread
  have hnone : (store.conversations.get? call.conversationId).filter
      (fun row => !rowWritableInScope row.workspaceId (some workspaceId)) = none := by
    rw [Option.filter_eq_none_iff]
    intro row hrow
    simp [rowWritableInScope, h row hrow]
  simp only [hnone]

theorem saveThread_of_refused {row : ConversationRow}
    (hrow : store.conversations.get? call.conversationId = some row)
    (h : row.workspaceId ≠ some workspaceId) :
    store.saveThread call (some workspaceId) = (store, store.summary row) := by
  have hsome : (some row).filter
      (fun row => !rowWritableInScope row.workspaceId (some workspaceId)) = some row :=
    Option.filter_some_pos (by simp [rowWritableInScope, h])
  unfold saveThread
  simp only [hrow, hsome]

theorem workspaceId_row (h : ∀ row, store.conversations.get? call.conversationId = some row →
      row.workspaceId = some workspaceId) :
    (call.row (store.conversations.get? call.conversationId) (some workspaceId)).workspaceId
      = some workspaceId := by
  unfold SaveThread.row
  cases hget : store.conversations.get? call.conversationId with
  | none => rfl
  | some row => exact h row hget

theorem shows_saved (h : ∀ row, store.conversations.get? call.conversationId = some row →
      row.workspaceId = some workspaceId) (messages : List MessageRow) (k : String) : ({ store with
        conversations := store.conversations.put
          (call.row (store.conversations.get? call.conversationId) (some workspaceId))
        messages } : ConversationStore).shows p k
      = if k = call.conversationId then p (some workspaceId) else store.shows p k := by
  unfold shows
  rw [get?_put]
  show Option.any p (Option.map _ (if k = call.conversationId then _ else _)) = _
  split
  · show p _ = _
    rw [workspaceId_row h]
  · rfl

theorem saveThread_restrict (hp : p (some workspaceId) = true)
    (hseen : ∀ row, store.conversations.get? call.conversationId = some row →
      p row.workspaceId = true) : (store.restrict p).saveThread call (some workspaceId)
      = ((store.saveThread call (some workspaceId)).1.restrict p,
        (store.saveThread call (some workspaceId)).2) := by
  have hget : (store.restrict p).conversations.get? call.conversationId
      = store.conversations.get? call.conversationId := by
    rw [get?_conversations_restrict]
    cases hget : store.conversations.get? call.conversationId with
    | none => rfl
    | some row => exact Option.filter_some_pos (hseen row hget)
  by_cases hwritable : ∀ row, store.conversations.get? call.conversationId = some row →
      row.workspaceId = some workspaceId
  · have howner := workspaceId_row hwritable
    rw [saveThread_of_writable hwritable,
      saveThread_of_writable (fun row hrow => hwritable row (hget ▸ hrow)), hget]
    refine Prod.ext ?_ rfl
    have hput := store.conversations.filter_put_of_pos (q := fun row => p row.workspaceId)
      (a := call.row (store.conversations.get? call.conversationId) (some workspaceId))
      (by rw [howner]; exact hp) hseen
    unfold restrict
    simp only [hput, shows_saved hwritable]
    rw [filter_messages _ (fun m hm => conversationId_of_mem_messageRows hm), if_pos hp]
  · push Not at hwritable
    obtain ⟨row, hrow, hne⟩ := hwritable
    rw [saveThread_of_refused hrow hne, saveThread_of_refused (hget.trans hrow) hne]
    rw [summary_restrict (mem_of_get? hrow) (hseen row hrow)]

theorem restrict_saveThread (hp : p (some workspaceId) = false) :
    (store.saveThread call (some workspaceId)).1.restrict p = store.restrict p := by
  by_cases hwritable : ∀ row, store.conversations.get? call.conversationId = some row →
      row.workspaceId = some workspaceId
  · have howner := workspaceId_row hwritable
    have hhidden : store.shows p call.conversationId = false := by
      cases hget : store.conversations.get? call.conversationId with
      | none => rw [shows, hget]; rfl
      | some row => rw [shows_of_get? hget, hwritable row hget, hp]
    rw [saveThread_of_writable hwritable]
    have hput := store.conversations.filter_put_of_neg (q := fun row => p row.workspaceId)
      (a := call.row (store.conversations.get? call.conversationId) (some workspaceId))
      (by rw [howner]; exact hp) (fun row hrow => by rw [hwritable row hrow]; exact hp)
    unfold restrict
    simp only [hput, shows_saved hwritable]
    rw [filter_messages _ (fun m hm => conversationId_of_mem_messageRows hm), hp,
      if_neg Bool.false_ne_true, List.append_nil, filter_messages_of_not hhidden]
  · push Not at hwritable
    obtain ⟨row, hrow, hne⟩ := hwritable
    rw [saveThread_of_refused hrow hne]

end Save

/-! ### Deletions -/

variable (store) in
theorem shows_delete {conversationId : String} (messages : List MessageRow)
    (hfound : (store.conversations.get? conversationId).any
      (fun row => scopeClauseWrite (some scope) row.workspaceId) = true) (k : String) :
    ({ store with
        conversations := store.conversations.filter (fun row =>
          !(row.conversationId = conversationId && scopeClauseWrite (some scope) row.workspaceId))
        messages } : ConversationStore).shows p k
      = if k = conversationId then false else store.shows p k := by
  unfold shows
  rw [KeyedList.get?_filter]
  cases hget : store.conversations.get? k with
  | none => split <;> rfl
  | some row =>
    have hkey := key_of_get? hget
    split
    · next h =>
        rw [← h, hget, Option.any_some] at hfound
        rw [Option.filter_some_neg]
        · rfl
        · rw [h] at hkey
          simp [hkey, hfound]
    · next h => rw [Option.filter_some_pos (by simp [hkey, h])]

variable (store scope) in
theorem delete_eq (conversationId : String) : store.delete (some scope) conversationId
      = if (store.conversations.get? conversationId).any
          (fun row => scopeClauseWrite (some scope) row.workspaceId) = true then ({ store with
            conversations := store.conversations.filter (fun row =>
              !(row.conversationId = conversationId
                && scopeClauseWrite (some scope) row.workspaceId))
            messages := store.messages.filter (fun m => m.conversationId ≠ conversationId) }, true)
        else (store, false) := by
  unfold delete
  cases (store.conversations.get? conversationId).any
    (fun row => scopeClauseWrite (some scope) row.workspaceId) <;> rfl

theorem delete_restrict (hp : ∀ w, scopeClauseWrite (some scope) w = true → p w = true)
    (conversationId : String) : (store.restrict p).delete (some scope) conversationId
      = ((store.delete (some scope) conversationId).1.restrict p,
        (store.delete (some scope) conversationId).2) := by
  rw [delete_eq, delete_eq, any_conversations_restrict hp]
  split
  · next hfound =>
      have hshows := shows_delete store (p := p) (store.messages.filter
        (fun m => m.conversationId ≠ conversationId)) hfound
      have hmessages := filter_messages_delete conversationId (store.shows p) store.messages
      refine Prod.ext ?_ rfl
      unfold restrict
      simp only [hshows, hmessages, filter_filter, Bool.and_comm]
  · rfl

theorem restrict_delete (hp : ∀ w, scopeClauseWrite (some scope) w = true → p w = false)
    (conversationId : String) :
    (store.delete (some scope) conversationId).1.restrict p = store.restrict p := by
  rw [delete_eq]
  split
  · next hfound =>
      have hshows := shows_delete store (p := p) (store.messages.filter
        (fun m => m.conversationId ≠ conversationId)) hfound
      have hhidden : store.shows p conversationId = false := by
        obtain ⟨row, hrow, hscope⟩ := (Option.any_eq_true _ _).1 hfound
        rw [shows_of_get? hrow]
        exact hp _ hscope
      have hmessages := filter_messages_delete conversationId (store.shows p) store.messages
      have hrows := filter_kept store.conversations (fun row => row.conversationId = conversationId)
        (fun row => hp row.workspaceId)
      unfold restrict
      simp only [hshows, hmessages, hrows, filter_messages_of_not hhidden]
  · rfl

/-! ### Projects -/

theorem createProject_of_fresh {row : ProjectRow} (h : store.projects.get? row.id = none) :
    store.createProject row = ({ store with projects := store.projects.put row }, some row) := by
  unfold createProject
  rw [h]

theorem createProject_restrict (row : ProjectRow) (h : store.projects.get? row.id = none)
    (hp : p row.workspaceId = true) : (store.restrict p).createProject row
      = ((store.createProject row).1.restrict p, (store.createProject row).2) := by
  have hfresh : (store.restrict p).projects.get? row.id = none := by
    rw [get?_projects_restrict, h, Option.filter_none]
  have hput := store.projects.filter_put_of_pos (q := fun row => p row.workspaceId) hp
    (fun other hother => by rw [h] at hother; cases hother)
  rw [createProject_of_fresh h, createProject_of_fresh hfresh]
  refine Prod.ext ?_ rfl
  unfold restrict
  simp only [hput]
  rfl

theorem restrict_createProject (row : ProjectRow) (h : store.projects.get? row.id = none)
    (hp : p row.workspaceId = false) : (store.createProject row).1.restrict p = store.restrict p := by
  have hput := store.projects.filter_put_of_neg (q := fun row => p row.workspaceId) hp
    (fun other hother => by rw [h] at hother; cases hother)
  rw [createProject_of_fresh h]
  unfold restrict
  simp only [hput]
  rfl

theorem assign_eq_some {row row' : ProjectRow} {assignment : ProjectColumn × Option String}
    (h : row.assign assignment = some row') :
    row'.id = row.id ∧ row'.workspaceId = row.workspaceId := by
  obtain ⟨column, value⟩ := assignment
  cases column with
  | name =>
    obtain ⟨_, _, rfl⟩ := Option.map_eq_some_iff.1 h
    exact ⟨rfl, rfl⟩
  | description =>
    obtain ⟨_, _, rfl⟩ := Option.map_eq_some_iff.1 h
    exact ⟨rfl, rfl⟩
  | kbId =>
    cases h
    exact ⟨rfl, rfl⟩
  | agentPath =>
    cases h
    exact ⟨rfl, rfl⟩

theorem foldlM_assign {row row' : ProjectRow} {assignments : List (ProjectColumn × Option String)}
    (h : assignments.foldlM ProjectRow.assign row = some row') :
    row'.id = row.id ∧ row'.workspaceId = row.workspaceId := by
  induction assignments generalizing row with
  | nil =>
    cases h
    exact ⟨rfl, rfl⟩
  | cons assignment assignments ih =>
    rw [List.foldlM_cons] at h
    obtain ⟨next, hnext, hrest⟩ := Option.bind_eq_some_iff.1 h
    obtain ⟨hid, howner⟩ := ih hrest
    obtain ⟨hid', howner'⟩ := assign_eq_some hnext
    exact ⟨hid.trans hid', howner.trans howner'⟩

section UpdateProject

variable {projectId : String} {assignments : List (ProjectColumn × Option String)} {now : String}

variable (store scope projectId now) in
theorem updateProject_cases (h : assignments ≠ []) :
    (∃ answer, store.updateProject (some scope) projectId assignments now = (store, answer))
      ∨ ∃ row row', (store.projects.get? projectId).filter
          (fun row => scopeClauseWrite (some scope) row.workspaceId) = some row
        ∧ row'.id = row.id ∧ row'.workspaceId = row.workspaceId
        ∧ store.updateProject (some scope) projectId assignments now
          = ({ store with projects := store.projects.put row' }, some true) := by
  unfold updateProject
  rw [if_neg h]
  cases hfound : (store.projects.get? projectId).filter
      (fun row => scopeClauseWrite (some scope) row.workspaceId) with
  | none => exact Or.inl ⟨_, rfl⟩
  | some row =>
    dsimp only
    cases hassign : assignments.foldlM ProjectRow.assign row with
    | none => exact Or.inl ⟨_, rfl⟩
    | some row' =>
      obtain ⟨hid, howner⟩ := foldlM_assign hassign
      exact Or.inr ⟨row, { row' with updatedAt := now }, rfl, hid, howner, rfl⟩

theorem updateProject_restrict (hread : ∀ w, scopeClause (some scope) w = true → p w = true)
    (hp : ∀ w, scopeClauseWrite (some scope) w = true → p w = true) :
    (store.restrict p).updateProject (some scope) projectId assignments now
      = ((store.updateProject (some scope) projectId assignments now).1.restrict p,
        (store.updateProject (some scope) projectId assignments now).2) := by
  have hfound : ((store.restrict p).projects.get? projectId).filter
      (fun row => scopeClauseWrite (some scope) row.workspaceId)
      = (store.projects.get? projectId).filter
        (fun row => scopeClauseWrite (some scope) row.workspaceId) :=
    store.projects.filter_get?_filter (fun row => hp row.workspaceId) projectId
  unfold updateProject
  rw [getProjectRow_restrict hread, hfound]
  split
  · rfl
  cases hrow : (store.projects.get? projectId).filter
      (fun row => scopeClauseWrite (some scope) row.workspaceId) with
  | none => rfl
  | some row =>
    dsimp only
    obtain ⟨hget, hscope⟩ := Option.filter_eq_some_iff.1 hrow
    cases hassign : assignments.foldlM ProjectRow.assign row with
    | none => rfl
    | some row' =>
      obtain ⟨hid, howner⟩ := foldlM_assign hassign
      have hput := store.projects.filter_put_of_pos (q := fun row => p row.workspaceId)
        (a := { row' with updatedAt := now }) (by rw [howner]; exact hp _ hscope)
        (fun other hother => by
          rw [show row'.id = projectId from hid.trans (key_of_get? hget), hget]
            at hother
          cases hother
          exact hp _ hscope)
      refine Prod.ext ?_ rfl
      unfold restrict
      simp only [hput]
      rfl

theorem restrict_updateProject (hp : ∀ w, scopeClauseWrite (some scope) w = true → p w = false) :
    (store.updateProject (some scope) projectId assignments now).1.restrict p
      = store.restrict p := by
  by_cases hnil : assignments = []
  · unfold updateProject
    rw [if_pos hnil]
  rcases updateProject_cases store scope projectId now hnil
    with ⟨answer, h⟩ | ⟨row, row', hrow, hid, howner, h⟩
  · rw [h]
  · obtain ⟨hget, hscope⟩ := Option.filter_eq_some_iff.1 hrow
    have hput := store.projects.filter_put_of_neg (q := fun row => p row.workspaceId)
      (a := row') (by rw [howner]; exact hp _ hscope)
      (fun other hother => by
        rw [show row'.id = projectId from hid.trans (key_of_get? hget), hget] at hother
        cases hother
        exact hp _ hscope)
    rw [h]
    unfold restrict
    simp only [hput]
    rfl

end UpdateProject

theorem workspaceId_unassigned (projectId : String) (row : ConversationRow) :
    (unassigned projectId row).workspaceId = row.workspaceId := by
  unfold unassigned
  split <;> rfl

theorem shows_unassigned {projectId : String} {projects : KeyedList ProjectRow.id}
    (hf : ∀ row, (unassigned projectId row).conversationId = row.conversationId) :
    ({ store with conversations := store.conversations.modify (unassigned projectId) hf
                  projects } : ConversationStore).shows p = store.shows p := by
  funext k
  unfold shows
  rw [KeyedList.get?_modify]
  cases store.conversations.get? k with
  | none => rfl
  | some row => exact congrArg p (workspaceId_unassigned projectId row)

section DeleteProject

variable {projectId : String}

variable (store scope projectId) in
theorem deleteProject_eq : store.deleteProject (some scope) projectId
      = if (store.projects.get? projectId).any
          (fun row => scopeClauseWrite (some scope) row.workspaceId) = true then ({ store with
            conversations := store.conversations.modify (unassigned projectId)
              (fun row => by unfold unassigned; split <;> rfl)
            projects := store.projects.filter (fun row =>
              !(row.id = projectId && scopeClauseWrite (some scope) row.workspaceId)) }, true)
        else (store, false) := by
  unfold deleteProject
  cases (store.projects.get? projectId).any
    (fun row => scopeClauseWrite (some scope) row.workspaceId) <;> rfl

theorem deleteProject_restrict (hp : ∀ w, scopeClauseWrite (some scope) w = true → p w = true) :
    (store.restrict p).deleteProject (some scope) projectId
      = ((store.deleteProject (some scope) projectId).1.restrict p,
        (store.deleteProject (some scope) projectId).2) := by
  rw [deleteProject_eq, deleteProject_eq, any_projects_restrict hp]
  split
  · have hmodify := store.conversations.filter_modify (q := fun row => p row.workspaceId)
      (f := unassigned projectId) (fun row => by unfold unassigned; split <;> rfl)
      (fun row => by rw [workspaceId_unassigned])
    refine Prod.ext ?_ rfl
    unfold restrict
    simp only [shows_unassigned, hmodify, filter_filter, Bool.and_comm]
  · rfl

theorem restrict_deleteProject (hp : ∀ w, scopeClauseWrite (some scope) w = true → p w = false)
    (hown : ∀ row, store.projects.get? projectId = some row →
      scopeClauseWrite (some scope) row.workspaceId = true →
      ∀ row ∈ store.conversations.items, row.projectId = some projectId →
        p row.workspaceId = false) :
    (store.deleteProject (some scope) projectId).1.restrict p = store.restrict p := by
  rw [deleteProject_eq]
  split
  · next hfound =>
      obtain ⟨row, hrow, hscope⟩ := (Option.any_eq_true _ _).1 hfound
      have hmodify := store.conversations.filter_modify_of_neg (q := fun row => p row.workspaceId)
        (f := unassigned projectId) (fun row => by unfold unassigned; split <;> rfl)
        (fun row => by rw [workspaceId_unassigned]) (fun other hother hseen => by
          refine if_neg (fun hproject => ?_)
          rw [hown row hrow hscope other hother hproject] at hseen
          cases hseen)
      have hrows := filter_kept store.projects (fun row => row.id = projectId)
        (fun row => hp row.workspaceId)
      unfold restrict
      simp only [shows_unassigned, hmodify, hrows]
  · rfl

end DeleteProject

/-! ### Assignments -/

theorem touchProject_restrict {projectId : String} {row : ProjectRow} (now : String)
    (hrow : store.projects.get? projectId = some row) (hp : p row.workspaceId = true) :
    (store.restrict p).touchProject projectId now = (store.touchProject projectId now).restrict p := by
  have hupdate := store.projects.updateIf_filter (k := projectId) (p := fun _ => true)
    (q := fun row => p row.workspaceId) (f := fun row => { row with updatedAt := now })
    (fun _ => rfl) (fun _ => rfl) (fun other hother _ => by
      rw [hrow] at hother
      cases hother
      exact hp)
  unfold touchProject restrict
  simp only [hupdate]
  rfl

theorem restrict_touchProject {projectId : String} {row : ProjectRow} (now : String)
    (hrow : store.projects.get? projectId = some row) (hp : p row.workspaceId = false) :
    (store.touchProject projectId now).restrict p = store.restrict p := by
  have hupdate := store.projects.filter_updateIf_of_neg (k := projectId) (p := fun _ => true)
    (q := fun row => p row.workspaceId) (f := fun row => { row with updatedAt := now })
    (fun _ => rfl) (fun _ => rfl) (fun other hother _ => by
      rw [hrow] at hother
      cases hother
      exact hp)
  unfold touchProject restrict
  simp only [hupdate]
  rfl

section Assign

variable {projectId conversationId now : String}

theorem assignConversation_restrict (hread : ∀ w, scopeClause (some scope) w = true → p w = true)
    (hp : ∀ w, scopeClauseWrite (some scope) w = true → p w = true) :
    (store.restrict p).assignConversation (some scope) projectId conversationId now
      = ((store.assignConversation (some scope) projectId conversationId now).1.restrict p,
        (store.assignConversation (some scope) projectId conversationId now).2) := by
  unfold assignConversation
  rw [getProjectRow_restrict hread]
  cases hproject : store.getProjectRow (some scope) projectId with
  | none => rfl
  | some row =>
    obtain ⟨hrow, hscope⟩ := Option.filter_eq_some_iff.1 hproject
    dsimp only
    rw [updateConversation_restrict (fun row => { row with projectId := some projectId })
      (fun _ => rfl) (fun _ => rfl) (fun row => hp row.workspaceId)]
    split
    · next hchanged =>
        refine Prod.ext ?_ rfl
        exact touchProject_restrict now hrow (hread _ hscope)
    · rfl

theorem restrict_assignConversation (hp : ∀ w, scopeClauseWrite (some scope) w = true → p w = false)
    (hown : ∀ project row, store.projects.get? projectId = some project →
      store.conversations.get? conversationId = some row →
      scopeClause (some scope) project.workspaceId = true →
      scopeClauseWrite (some scope) row.workspaceId = true →
        scopeClauseWrite (some scope) project.workspaceId = true) :
    (store.assignConversation (some scope) projectId conversationId now).1.restrict p
      = store.restrict p := by
  unfold assignConversation
  cases hproject : store.getProjectRow (some scope) projectId with
  | none => rfl
  | some project =>
    obtain ⟨hget, hscope⟩ := Option.filter_eq_some_iff.1 hproject
    have hupdate := restrict_updateConversation store (p := p)
      (fun row => { row with projectId := some projectId }) (fun _ => rfl) (fun _ => rfl)
      (fun row => hp row.workspaceId) conversationId
    dsimp only
    split
    · next hchanged =>
        obtain ⟨row, hrow, hwrite⟩ := (store.conversations.updateIf_snd _ _ _).1 hchanged
        have hmine := hown project row hget hrow hscope hwrite
        rw [← hupdate]
        exact restrict_touchProject now hget (hp _ hmine)
    · exact hupdate

end Assign

end Restrict

end ConversationStore

/-! ## Tenants -/

variable (own : String → Bool)

def visible (workspaceId : Option String) : Bool := workspaceId.all own

def ofOthers (scope : List String) (workspaceId : Option String) : Bool :=
  workspaceId.any (fun w => w ∉ scope)

/-- The rows belong to nobody, and the messages to conversations. -/
structure ConversationStore.Legacy (store : ConversationStore) : Prop where
  conversations : ∀ row ∈ store.conversations.items, row.workspaceId = none
  messages : ∀ m ∈ store.messages, (store.conversations.get? m.conversationId).isSome = true
  projects : ∀ row ∈ store.projects.items, row.workspaceId = none

def ConversationCall.isOf (call : ConversationCall) : Bool :=
  call.scope.all own

def ConversationCall.Separate (call : ConversationCall) : Prop :=
  call.isOf own = true ∨ ∀ w ∈ call.scope, own w = false

variable (store : ConversationStore)

def Drawn : ConversationCall → Prop
  | .createProject _ row => store.projects.get? row.id = none
  | _ => True

def refused : ConversationCall → Bool
  | .saveThread _ call => (store.conversations.get? call.conversationId).any
      (fun row => !visible own row.workspaceId)
  | _ => false

/-- The calls of a tenant, apart from its saves onto conversations of others. -/
def accepted (call : ConversationCall) : Bool :=
  call.isOf own && !refused own store call

def Confined : ConversationCall → Prop
  | .listProjectRows scope => ∀ project ∈ store.projects.items,
      scopeClause (some scope) project.workspaceId = true →
      ∀ row ∈ store.conversations.items, row.projectId = some project.id →
        scopeClause (some scope) row.workspaceId = true
  | .deleteProject scope projectId => ∀ project, store.projects.get? projectId = some project →
      scopeClauseWrite (some scope) project.workspaceId = true →
      ∀ row ∈ store.conversations.items, row.projectId = some projectId →
        scopeClauseWrite (some scope) row.workspaceId = true
  | .assignConversation scope projectId conversationId _ => ∀ project row,
      store.projects.get? projectId = some project →
      store.conversations.get? conversationId = some row →
      scopeClause (some scope) project.workspaceId = true →
      scopeClauseWrite (some scope) row.workspaceId = true →
        scopeClauseWrite (some scope) project.workspaceId = true
  | _ => True

namespace ConversationStore

variable {o : ListOrders} {store : ConversationStore} {call : ConversationCall}
  {own : String → Bool} {p : Option String → Bool}

theorem listProjectRows_restrict {scope : Option (List String)}
    (hscope : ∀ w, scopeClause scope w = true → p w = true)
    (hown : ∀ project ∈ store.projects.items, scopeClause scope project.workspaceId = true →
      ∀ row ∈ store.conversations.items, row.projectId = some project.id →
        scopeClause scope row.workspaceId = true) :
    (store.restrict p).listProjectRows scope o = store.listProjectRows scope o := by
  have hrows : (store.restrict p).projects.items.filter (fun row => scopeClause scope row.workspaceId)
      = store.projects.items.filter (fun row => scopeClause scope row.workspaceId) :=
    filter_filter_of_imp (fun row : ProjectRow => hscope row.workspaceId) _
  unfold listProjectRows
  rw [hrows]
  refine congrArg (fun rows => (o.projects.arrange rows).mergeSort _) ?_
  refine List.map_congr_left ?_
  intro project hproject
  obtain ⟨hmem, hin⟩ := List.mem_filter.1 hproject
  rw [projectChatCount_restrict]
  intro row hrow hattached _
  exact hscope _ (hown project hmem hin row hrow hattached)

variable (o store call) in
theorem perform_restrict (hp : ∀ w, scopeClause (some call.scope) w = true → p w = true)
    (hseen : ∀ workspaceId args, call = .saveThread workspaceId args →
      ∀ row, store.conversations.get? args.conversationId = some row → p row.workspaceId = true)
    (hdrawn : Drawn store call) (hconfined : Confined store call) :
    (store.restrict p).perform o call
      = ((store.perform o call).1.restrict p, (store.perform o call).2) := by
  have hwrite : ∀ w, scopeClauseWrite (some call.scope) w = true → p w = true := by
    intro w hw
    refine hp w ?_
    cases w with
    | none => rfl
    | some w => exact hw
  cases call <;> dsimp only [ConversationCall.scope] at hp hwrite
  case saveThread workspaceId args =>
      have hmine : p (some workspaceId) = true := hwrite _ (by simp [scopeClauseWrite])
      simp only [perform, saveThread_restrict hmine (hseen workspaceId args rfl)]
  case createProject workspaceId row =>
      have hmine : p (some workspaceId) = true := hwrite _ (by simp [scopeClauseWrite])
      simp only [perform, createProject_restrict { row with workspaceId := some workspaceId } hdrawn hmine]
  case getSummary scope conversationId => simp only [perform, getSummary_restrict hp]
  case listSummaries scope limit origin =>
      have hrows := summaries_restrict store (p := p) o
        (q := fun row => origin.all (fun origin => row.origin = origin)
          && scopeClause (some scope) row.workspaceId)
        (fun row hrow => hp _ (Bool.and_eq_true_iff.1 hrow).2)
      simp only [perform, listSummaries, hrows]
  case rename scope conversationId title now =>
      simp only [perform, rename, updateConversation_restrict
        (fun row => { row with title, updatedAt := now }) (fun _ => rfl) (fun _ => rfl)
        (fun row => hwrite row.workspaceId)]
  case delete scope conversationId => simp only [perform, delete_restrict hwrite]
  case getProjectRow scope projectId => simp only [perform, getProjectRow_restrict hp]
  case projectChatCount scope projectId =>
      simp only [perform, projectChatCount_restrict (fun row _ _ hrow => hp row.workspaceId hrow)]
  case listProjectRows scope => simp only [perform, listProjectRows_restrict hp hconfined]
  case updateProject scope projectId assignments now =>
      simp only [perform, updateProject_restrict hp hwrite]
  case deleteProject scope projectId => simp only [perform, deleteProject_restrict hwrite]
  case projectConversationSummaries scope projectId =>
      have hrows := summaries_restrict store (p := p) o
        (q := fun row => row.projectId = some projectId && scopeClause (some scope) row.workspaceId)
        (fun row hrow => hp _ (Bool.and_eq_true_iff.1 hrow).2)
      simp only [perform, projectConversationSummaries, hrows]
  case assignConversation scope projectId conversationId now =>
      simp only [perform, assignConversation_restrict hp hwrite]
  case unassignConversation scope conversationId =>
      simp only [perform, unassignConversation, updateConversation_restrict
        (fun row => { row with projectId := none }) (fun _ => rfl) (fun _ => rfl)
        (fun row hrow => hwrite row.workspaceId (Bool.and_eq_true_iff.1 hrow).2)]

theorem restrict_perform (hp : ∀ w ∈ call.scope, p (some w) = false)
    (hdrawn : Drawn store call) (hconfined : Confined store call) :
    (store.perform o call).1.restrict p = store.restrict p := by
  have hwrite : ∀ w, scopeClauseWrite (some call.scope) w = true → p w = false := by
    intro w hw
    cases w with
    | none => cases hw
    | some w => exact hp w (of_decide_eq_true hw)
  cases call with
  | saveThread workspaceId args =>
    exact restrict_saveThread (hp _ (List.mem_singleton_self _))
  | createProject workspaceId row =>
    exact restrict_createProject { row with workspaceId := some workspaceId } hdrawn
      (hp _ (List.mem_singleton_self _))
  | rename scope conversationId title now =>
    exact restrict_updateConversation store (fun row => { row with title, updatedAt := now })
      (fun _ => rfl) (fun _ => rfl) (fun row => hwrite row.workspaceId) conversationId
  | delete scope conversationId => exact restrict_delete hwrite conversationId
  | updateProject scope projectId assignments now => exact restrict_updateProject hwrite
  | deleteProject scope projectId =>
    exact restrict_deleteProject hwrite (fun project hproject hscope row hrow hattached =>
      hwrite _ (hconfined project hproject hscope row hrow hattached))
  | assignConversation scope projectId conversationId now =>
    exact restrict_assignConversation hwrite hconfined
  | unassignConversation scope conversationId =>
    exact restrict_updateConversation store (fun row => { row with projectId := none })
      (fun _ => rfl) (fun _ => rfl)
      (fun row hrow => hwrite row.workspaceId (Bool.and_eq_true_iff.1 hrow).2) conversationId
  | _ => rfl

theorem Legacy.restrict_eq (h : store.Legacy) (hp : p none = true) : store.restrict p = store := by
  have hconversations : store.conversations.filter (fun row => p row.workspaceId)
      = store.conversations := by
    refine ext (List.filter_eq_self.2 (fun row hrow => ?_))
    rw [h.conversations row hrow]
    exact hp
  have hprojects : store.projects.filter (fun row => p row.workspaceId) = store.projects := by
    refine ext (List.filter_eq_self.2 (fun row hrow => ?_))
    rw [h.projects row hrow]
    exact hp
  have hmessages : store.messages.filter (fun m => store.shows p m.conversationId)
      = store.messages := by
    refine List.filter_eq_self.2 (fun m hm => ?_)
    obtain ⟨row, hrow⟩ := Option.isSome_iff_exists.1 (h.messages m hm)
    rw [shows_of_get? hrow, h.conversations row (mem_of_get? hrow)]
    exact hp
  unfold restrict
  rw [hconversations, hprojects, hmessages]

end ConversationStore

/-! ## Whole histories -/

section Histories

variable (o : ListOrders) (own : String → Bool) (store : ConversationStore)

/-- The calls of a tenant that are accepted get the answers that they get without the others. -/
def AnswersOwn (calls : List ConversationCall) : Prop :=
  (conversationStore o).keptAnswers (accepted own) store calls
    = (conversationStore o).answers store ((conversationStore o).kept (accepted own) store calls)

def LeavesOthers (calls : List ConversationCall) : Prop :=
  (conversationStore o).AlongRun (fun store call =>
    ((conversationStore o).step store call).1.restrict (ofOthers call.scope)
      = store.restrict (ofOthers call.scope)) store calls

/-- What is asked of the histories: the callers are told apart, and drawn ids are new. -/
def Told (call : ConversationCall) : Prop :=
  call.Separate own ∧ Drawn store call

/-- The tenants are isolated: after any history on legacy rows a tenant has got the answers that
    it gets alone, a save that is refused has the same answer whatever the row of the other tenant
    is, and nobody has changed a row of another workspace. -/
def TenantsIsolated : Prop :=
  ∀ (own : String → Bool) (store : ConversationStore) (calls : List ConversationCall),
    store.Legacy → (conversationStore o).AlongRun (Told own) store calls →
    AnswersOwn o own store calls ∧ LeavesOthers o store calls
    ∧ ∀ calls' call, (conversationStore o).AlongRun (Told own) store calls' →
      call.isOf own = true →
      let now := (conversationStore o).after store calls
      let other := (conversationStore o).after store calls'
      now.restrict (visible own) = other.restrict (visible own) →
      refused own now call = true → refused own other call = true →
      ((conversationStore o).step now call).2 = ((conversationStore o).step other call).2

variable {o own}

theorem visible_of_scopeClause {scope : List String} (hscope : scope.all own = true)
    {w : Option String} (h : scopeClause (some scope) w = true) : visible own w = true := by
  cases w with
  | none => rfl
  | some w => exact List.all_eq_true.1 hscope w (of_decide_eq_true h)

theorem of_refused {store : ConversationStore} {call : ConversationCall}
    (h : refused own store call = true) : ∃ workspaceId args row, call = .saveThread workspaceId args
      ∧ store.conversations.get? args.conversationId = some row
      ∧ visible own row.workspaceId = false := by
  cases call with
  | saveThread workspaceId args =>
    obtain ⟨row, hrow, hhidden⟩ := (Option.any_eq_true _ _).1 h
    exact ⟨workspaceId, args, row, rfl, hrow, by simpa using hhidden⟩
  | _ => cases h

theorem unwinding : (conversationStore o).Unwinding (conversationStore o) (accepted own)
    (fun store call => Told own store call ∧ Confined store call)
    (fun store alone => alone = store.restrict (visible own)) where
  kept := by
    rintro store _ call rfl ⟨⟨-, hdrawn⟩, hconfined⟩ hkeep
    obtain ⟨hown, hnot⟩ := Bool.and_eq_true_iff.1 hkeep
    have hperform := ConversationStore.perform_restrict o store call (p := visible own)
       (fun w hw => visible_of_scopeClause hown hw) (fun _ args hcall row hrow => by
        subst hcall
        rw [Bool.not_eq_true', refused, hrow] at hnot
        simpa using hnot) hdrawn hconfined
    exact ⟨(congrArg Prod.fst hperform), (congrArg Prod.snd hperform).symm⟩
  dropped := by
    rintro store _ call rfl ⟨⟨hseparate, hdrawn⟩, hconfined⟩ hkeep
    by_cases hown : call.isOf own = true
    · -- a save of the tenant that is refused leaves the store
      rw [accepted, hown, Bool.true_and, Bool.not_eq_false'] at hkeep
      obtain ⟨workspaceId, args, row, rfl, hrow, hhidden⟩ := of_refused hkeep
      have hne : row.workspaceId ≠ some workspaceId := by
        intro heq
        rw [heq] at hhidden
        have hmine : own workspaceId = true := List.all_eq_true.1 hown _ (List.mem_singleton_self _)
        rw [show visible own (some workspaceId) = own workspaceId from rfl, hmine] at hhidden
        cases hhidden
      show store.restrict _ = (store.saveThread args (some workspaceId)).1.restrict _
      rw [ConversationStore.saveThread_of_refused hrow hne]
    · have hothers : ∀ w ∈ call.scope, own w = false := hseparate.resolve_left hown
      exact (ConversationStore.restrict_perform hothers hdrawn hconfined).symm

theorem leavesOthers {store : ConversationStore} {calls : List ConversationCall}
    (h : (conversationStore o).AlongRun (fun store call => Told own store call ∧ Confined store call)
      store calls) : LeavesOthers o store calls := by
  induction calls generalizing store with
  | nil => trivial
  | cons call calls ih =>
    obtain ⟨⟨⟨-, hdrawn⟩, hconfined⟩, hrest⟩ := h
    refine ⟨?_, ih hrest⟩
    refine ConversationStore.restrict_perform ?_ hdrawn hconfined
    intro w hw
    simp [ofOthers, hw]

/-- The tenants are isolated in every history whose calls keep to what is theirs. A save that is
    refused changes nothing; it returns the summary of the row as it stands. -/
theorem tenants_confined (o : ListOrders) (own : String → Bool) (store : ConversationStore)
    (calls : List ConversationCall) (hlegacy : store.Legacy) (hrun : (conversationStore o).AlongRun
      (fun store call => Told own store call ∧ Confined store call) store calls) :
    AnswersOwn o own store calls ∧ LeavesOthers o store calls ∧ ∀ workspaceId args row,
      let now := (conversationStore o).after store calls
      now.conversations.get? args.conversationId = some row → row.workspaceId ≠ some workspaceId →
      (conversationStore o).step now (.saveThread workspaceId args)
        = (now, .summary (some (now.summary row))) := by
  have halone : store = store.restrict (visible own) := (hlegacy.restrict_eq rfl).symm
  refine ⟨(unwinding.keptAnswers_eq halone hrun).1, leavesOthers hrun, ?_⟩
  intro workspaceId args row now hrow hne
  show ((now.saveThread args (some workspaceId)).1, _) = _
  rw [ConversationStore.saveThread_of_refused hrow hne]

def chatSave (conversationId title : String) : SaveThread :=
  saveFlat conversationId (some title) none none [(.user, "hello")] none "studio" "t1"

def tableOrders : ListOrders := ⟨⟨id, fun _ => .refl _⟩, ⟨id, fun _ => .refl _⟩⟩

theorem tenants_confined_two :
    let calls := [ConversationCall.saveThread "acme" (chatSave "c-1" "Plans"),
      .saveThread "globex" (chatSave "c-2" "Budget"), .listSummaries ["acme"] none none]
    AnswersOwn tableOrders (· = "acme") {} calls ∧ LeavesOthers tableOrders {} calls
    ∧ ∀ workspaceId args row,
      let now := (conversationStore tableOrders).after {} calls
      now.conversations.get? args.conversationId = some row → row.workspaceId ≠ some workspaceId →
      (conversationStore tableOrders).step now (.saveThread workspaceId args)
        = (now, .summary (some (now.summary row))) :=
  tenants_confined tableOrders (· = "acme") {} _
    ⟨fun _ h => absurd h List.not_mem_nil, fun _ h => absurd h List.not_mem_nil,
      fun _ h => absurd h List.not_mem_nil⟩
    ⟨⟨⟨Or.inl rfl, trivial⟩, trivial⟩, ⟨⟨Or.inr (by simp [ConversationCall.scope]), trivial⟩, trivial⟩,
      ⟨⟨Or.inl rfl, trivial⟩, trivial⟩, trivial⟩

/-- A save onto the conversation of another tenant returns its title. -/
theorem not_tenantsIsolated : ¬ TenantsIsolated tableOrders := by
  intro h
  have hlegacy : ConversationStore.Legacy {} := ⟨fun _ h => absurd h List.not_mem_nil,
    fun _ h => absurd h List.not_mem_nil, fun _ h => absurd h List.not_mem_nil⟩
  have htold : ∀ title, (conversationStore tableOrders).AlongRun (Told (· = "acme")) {}
      [.saveThread "globex" (chatSave "c-1" title)] := fun title =>
    ⟨⟨Or.inr (by simp [ConversationCall.scope]), trivial⟩, trivial⟩
  obtain ⟨-, -, hsame⟩ := h (· = "acme") {} [.saveThread "globex" (chatSave "c-1" "Budget")] hlegacy
    (htold "Budget")
  have hanswers := hsame [.saveThread "globex" (chatSave "c-1" "Layoffs")]
    (.saveThread "acme" (chatSave "c-1" "Plans")) (htold "Layoffs") rfl rfl rfl rfl
  have hsummaries := Option.some.inj (ConversationAnswer.summary.inj hanswers)
  have htitles : "Budget" = "Layoffs" := congrArg ConversationSummary.title hsummaries
  exact absurd htitles (by decide)

end Histories

end Himmy.Conversations
