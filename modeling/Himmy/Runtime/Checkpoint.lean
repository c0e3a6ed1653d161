import Himmy.Core.Json

/-! # Agent checkpoints and their stores

An agent loop that hits a tool call which needs approval is suspended into an `AgentCheckpoint`, and
a `CheckpointStore` keeps it. `CheckpointStore` is the store protocol with what its operations do
to what `load` reads; `inMemoryCheckpointStore` and `sqliteCheckpointStore` are its two
implementations. -/

namespace Himmy

/-- Checkpoint lifecycle states. -/
inductive CheckpointStatus
  | awaitingApproval
  | resolving
  | approved
  | rejected
deriving DecidableEq, Repr

namespace CheckpointStatus

variable (status : CheckpointStatus)

def claimable : Bool :=
  status = .awaitingApproval || status = .resolving

def terminal : Bool := status = .approved || status = .rejected

theorem claimable_eq_not_terminal : status.claimable = !status.terminal := by
  cases status <;> rfl

end CheckpointStatus

/-- A tool call the model made that is blocked awaiting human approval. -/
structure PendingToolCall where
  toolCallId : String
  toolName : String
  args : Dict Json := KeyedList.empty

/-- The outcome of a tool invocation. A denied invocation never reaches the tool's handler. -/
inductive ToolOutcome
  | success
  | error
  | denied
deriving DecidableEq, Repr

structure ToolExecutionResult where
  outcome : ToolOutcome
  result : Json := .null

/-- A suspended agent run: its pending tool calls, the ledger of the calls executed since, and the
    member's final output. -/
structure AgentCheckpoint where
  checkpointId : String
  status : CheckpointStatus := .awaitingApproval
  pendingToolCalls : List PendingToolCall := []
  executedToolResults : Dict ToolExecutionResult := KeyedList.empty
  finalOutput : Option String := none

def AgentCheckpoint.claimed (c : AgentCheckpoint) : AgentCheckpoint :=
  if c.status.claimable then { c with status := .resolving } else c

/-! ## The protocol -/

/-- The `CheckpointStore` protocol: `save` replaces a checkpoint by its id, `load` returns the one
    under an id, `claim` is a compare-and-set of the status that says whether it won. -/
structure CheckpointStore (σ : Type) where
  save : σ → AgentCheckpoint → σ
  load : σ → String → Option AgentCheckpoint
  claim : σ → String → σ × Bool
  load_save : ∀ s c k, load (save s c) k = if k = c.checkpointId then some c else load s k
  load_claim : ∀ s k k', load (claim s k).1 k'
    = if k' = k then (load s k).map AgentCheckpoint.claimed else load s k'
  claim_won : ∀ s k, (claim s k).2 = true ↔ ∃ c, load s k = some c ∧ c.status.claimable = true
  load_id : ∀ s k c, load s k = some c → c.checkpointId = k

/-! ## In memory -/

/-- `InMemoryCheckpointStore._store`. -/
abbrev InMemoryCheckpoints := KeyedList AgentCheckpoint.checkpointId

namespace InMemoryCheckpoints

variable (s : InMemoryCheckpoints)

def claim (checkpointId : String) : InMemoryCheckpoints × Bool :=
  match s.get? checkpointId with
  | none => (s, false)
  | some found =>
    if found.status.claimable then (s.put { found with status := .resolving }, true) else (s, false)

theorem get?_claim (k k' : String) : (s.claim k).1.get? k'
      = if k' = k then (s.get? k).map AgentCheckpoint.claimed else s.get? k' := by
  unfold claim
  cases hget : s.get? k with
  | none =>
    dsimp only
    split
    · next h => rw [h, hget]; rfl
    · rfl
  | some found =>
    have hid := KeyedList.key_of_get? hget
    dsimp only
    cases hclaimable : found.status.claimable with
    | true =>
      simp only [if_true, KeyedList.get?_put, hid, Option.map_some, AgentCheckpoint.claimed,
        hclaimable]
    | false =>
      simp only [Bool.false_eq_true, if_false, Option.map_some, AgentCheckpoint.claimed,
        hclaimable]
      split
      · next h => rw [h, hget]
      · rfl

theorem claim_won (k : String) :
    (s.claim k).2 = true ↔ ∃ c, s.get? k = some c ∧ c.status.claimable = true := by
  unfold claim
  cases hget : s.get? k with
  | none => simp
  | some found => cases hclaimable : found.status.claimable <;> simp [hclaimable]

end InMemoryCheckpoints

def inMemoryCheckpointStore : CheckpointStore InMemoryCheckpoints where
  save s c := s.put c
  load s k := s.get? k
  claim := InMemoryCheckpoints.claim
  load_save s c k := KeyedList.get?_put s c k
  load_claim := InMemoryCheckpoints.get?_claim
  claim_won := InMemoryCheckpoints.claim_won
  load_id _ _ _ h := KeyedList.key_of_get? h

/-! ## In SQLite -/

/-- A row of `agent_checkpoints`: the JSON `data`, and the columns the statements select on. -/
structure CheckpointRow where
  checkpointId : String
  status : CheckpointStatus
  data : AgentCheckpoint

/-- The row `save` writes. -/
def CheckpointRow.of (c : AgentCheckpoint) : CheckpointRow :=
  { checkpointId := c.checkpointId, status := c.status, data := c }

/-- The `UPDATE` of a claim, which rewrites the column and the JSON. -/
def CheckpointRow.setResolving (row : CheckpointRow) : CheckpointRow :=
  { row with status := .resolving, data := { row.data with status := .resolving } }

/-- The `agent_checkpoints` table, whose columns repeat the JSON of their row. -/
structure SqliteCheckpoints where
  rows : KeyedList CheckpointRow.checkpointId
  inStep : ∀ row ∈ rows.items, row.checkpointId = row.data.checkpointId ∧ row.status = row.data.status

namespace SqliteCheckpoints

def empty : SqliteCheckpoints := ⟨KeyedList.empty, fun _ h => absurd h List.not_mem_nil⟩

variable (s : SqliteCheckpoints)

/-- `INSERT OR REPLACE`. -/
def save (c : AgentCheckpoint) : SqliteCheckpoints :=
  ⟨s.rows.put (CheckpointRow.of c), fun row hrow => by
    rcases (KeyedList.mem_put_iff _ _ _).1 hrow with rfl | ⟨hmem, -⟩
    · exact ⟨rfl, rfl⟩
    · exact s.inStep row hmem⟩

/-- `load`, of a row in the current format. -/
def load (checkpointId : String) : Option AgentCheckpoint :=
  (s.rows.get? checkpointId).map CheckpointRow.data

/-- `claim`: the conditional `UPDATE`, won when its row count is 1. -/
def claim (checkpointId : String) : SqliteCheckpoints × Bool :=
  let hit := fun row : CheckpointRow => row.checkpointId = checkpointId && row.status.claimable
  (⟨s.rows.modify (fun row => if hit row then row.setResolving else row)
      (fun row => by split <;> rfl), fun row hrow => by
    rw [KeyedList.items_modify, List.mem_map] at hrow
    obtain ⟨old, hold, rfl⟩ := hrow
    split
    · exact ⟨(s.inStep old hold).1, rfl⟩
    · exact s.inStep old hold⟩,
    s.rows.items.countP hit = 1)

theorem claim_eq (k : String) : ((s.claim k).1.rows, (s.claim k).2)
      = s.rows.updateIf k (·.status.claimable) CheckpointRow.setResolving :=
  (s.rows.updateIf_eq_modify k (·.status.claimable) CheckpointRow.setResolving (fun _ => rfl)).symm

theorem load_save (c : AgentCheckpoint) (k : String) :
    (s.save c).load k = if k = c.checkpointId then some c else s.load k := by
  unfold load save
  dsimp only
  rw [KeyedList.get?_put]
  show (if k = c.checkpointId then some (CheckpointRow.of c) else s.rows.get? k).map _ = _
  split <;> rfl

theorem status_of_get? {s : SqliteCheckpoints} {k : String} {row : CheckpointRow}
    (h : s.rows.get? k = some row) : row.status = row.data.status :=
  (s.inStep row (KeyedList.mem_of_get? h)).2

theorem load_claim (s : SqliteCheckpoints) (k k' : String) : (s.claim k).1.load k'
      = if k' = k then (s.load k).map AgentCheckpoint.claimed else s.load k' := by
  have hrows : (s.claim k).1.rows
      = (s.rows.updateIf k (·.status.claimable) CheckpointRow.setResolving).1 :=
    congrArg Prod.fst (s.claim_eq k)
  unfold load
  rw [hrows, KeyedList.get?_updateIf s.rows k _ CheckpointRow.setResolving (fun _ => rfl)]
  split
  · cases hget : s.rows.get? k with
    | none => rfl
    | some row =>
      simp only [Option.map_some, AgentCheckpoint.claimed, ← status_of_get? hget]
      split <;> rfl
  · rfl

theorem claim_won (s : SqliteCheckpoints) (k : String) :
    (s.claim k).2 = true ↔ ∃ c, s.load k = some c ∧ c.status.claimable = true := by
  have hwon : (s.claim k).2
      = (s.rows.updateIf k (·.status.claimable) CheckpointRow.setResolving).2 :=
    congrArg Prod.snd (s.claim_eq k)
  rw [hwon, KeyedList.updateIf_snd]
  constructor
  · rintro ⟨row, hget, hclaimable⟩
    rw [status_of_get? hget] at hclaimable
    exact ⟨row.data, by rw [load, hget]; rfl, hclaimable⟩
  · rintro ⟨c, hload, hclaimable⟩
    obtain ⟨row, hget, rfl⟩ := Option.map_eq_some_iff.1 hload
    rw [← status_of_get? hget] at hclaimable
    exact ⟨row, hget, hclaimable⟩

theorem load_id {s : SqliteCheckpoints} {k : String} {c : AgentCheckpoint}
    (h : s.load k = some c) : c.checkpointId = k := by
  obtain ⟨row, hget, rfl⟩ := Option.map_eq_some_iff.1 h
  rw [← (s.inStep row (KeyedList.mem_of_get? hget)).1]
  exact KeyedList.key_of_get? hget

end SqliteCheckpoints

def sqliteCheckpointStore : CheckpointStore SqliteCheckpoints where
  save := SqliteCheckpoints.save
  load := SqliteCheckpoints.load
  claim := SqliteCheckpoints.claim
  load_save := SqliteCheckpoints.load_save
  load_claim := SqliteCheckpoints.load_claim
  claim_won := SqliteCheckpoints.claim_won
  load_id _ _ _ h := SqliteCheckpoints.load_id h

end Himmy
