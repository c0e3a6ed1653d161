import Himmy.Library.Transition
import Himmy.Entities.DbChain
import Himmy.Entities.Registry

/-! # The SQLite registry

`SqliteEntityRegistry` over one database file that any number of registries have open. A registry
holds the buffer of its deferred commits and, with `db_chain` on, the tip of the chain; the rows are
in the file. At most one connection has the write transaction, and the others do not see its rows
before the commit.

`spineFile` is the system of all of them: the calls, and what can go wrong in one. -/

namespace Himmy

/-- A row of `entity_records`. -/
structure SpineRow where
  record : EntityRecord
  contentHash : String
  prevHash : Option String

/-- The tables of the file. -/
structure SpineTables where
  records : List SpineRow := []
  links : List EntityLink := []

/-- `SqliteEntityRegistry`, less its connection. -/
structure SqliteEntityRegistry where
  registerBuffer : Nat
  dbChain : Bool
  chainTip : String
  pending : Nat := 0

/-- What the calls raise. -/
inductive SpineError where
  /-- `Content-address violation for record_id=…` -/
  | contentAddress (recordId kind stableId : String) (version : Int)
  /-- `Concurrent version conflict for stable_id=…` -/
  | versionTaken (stableId kind : String) (version : Int)
  /-- `Optimistic concurrency conflict for stable_id=…` -/
  | versionConflict (stableId : String) (expected found : Int)
  /-- an error of the database: it is locked, or it cannot store the row -/
  | database

/-- The file with the registries that have it open. -/
structure SpineFile where
  /-- what is committed -/
  tables : SpineTables := {}
  /-- the connection that has the write transaction, with the tables as it sees them -/
  writer : Option (Nat × SpineTables) := none
  /-- the registries in the order they were opened; `none` once closed -/
  registries : List (Option SqliteEntityRegistry) := []

namespace SpineFile

/-! ## Transactions -/

variable (f : SpineFile) (i : Nat)

def view : SpineTables :=
  match f.writer with
  | some (j, tables) => if j = i then tables else f.tables
  | none => f.tables

def lockedFor : Bool := f.writer.any (fun w => w.1 ≠ i)

/-- A statement of a connection changes the tables in its transaction. -/
def write (tables : SpineTables) : SpineFile :=
  { f with writer := some (i, tables) }

def commit : SpineFile :=
  match f.writer with
  | some (j, tables) => if j = i then { f with tables, writer := none } else f
  | none => f

def rollback : SpineFile :=
  if f.writer.any (fun w => w.1 = i) then { f with writer := none } else f

def setRegistry (registry : SqliteEntityRegistry) : SpineFile :=
  { f with registries := f.registries.set i (some registry) }

def registryAt : Option SqliteEntityRegistry := f.registries[i]?.join

end SpineFile

/-! ## The chain tip -/

/-- The rows as `db_chain_rows` and `_recompute_committed_tip` read them. -/
def SpineRow.toDbChainRow (row : SpineRow) : DbChainRow :=
  { record := row.record, prevHash := row.prevHash }

def SpineTables.chained (tables : SpineTables) : List ChainedRow :=
  chainedRows (tables.records.map SpineRow.toDbChainRow)

variable (D : Digests)

/-- The bounded walk of `_recompute_committed_tip`, where the last row that declares a hash counts. -/
def followTip (chained : List ChainedRow) : Nat → String → String
  | 0, cursor => cursor
  | fuel + 1, cursor =>
    match chained.reverse.find? (fun row => row.1 = cursor) with
    | none => cursor
    | some row => followTip chained fuel (chainStepFor D cursor row.2)

def recomputeCommittedTip (tables : SpineTables) : String :=
  followTip D tables.chained tables.chained.length (chainGenesisHash D)

namespace SqliteEntityRegistry

/-- `__init__`. -/
def opened (tables : SpineTables) (registerBuffer : Nat) (dbChain : Bool) : SqliteEntityRegistry :=
  { registerBuffer := max 1 registerBuffer, dbChain
    chainTip := if dbChain then recomputeCommittedTip D tables else chainGenesisHash D }

variable (registry : SqliteEntityRegistry)

/-- `_reset_chain_tip_after_rollback`. -/
def resetChainTip (tables : SpineTables) : SqliteEntityRegistry :=
  if registry.dbChain then { registry with chainTip := recomputeCommittedTip D tables } else registry

/-- The row that `_insert_record` inserts. -/
def newRow (record : EntityRecord) : SpineRow :=
  { record, contentHash := record.contentHash D
    prevHash := if registry.dbChain then some registry.chainTip else none }

/-- The advance of the tip at the end of `_insert_record`. -/
def advance (row : SpineRow) : SqliteEntityRegistry :=
  match row.prevHash with
  | some prevHash => { registry with chainTip := chainStepFor D prevHash row.record }
  | none => registry

end SqliteEntityRegistry

/-! ## The calls -/

def fitsInteger (n : Int) : Bool := -9223372036854775808 ≤ n ∧ n ≤ 9223372036854775807

def SpineTables.get (tables : SpineTables) (recordId : String) : Option EntityRecord :=
  (tables.records.find? (fun row => row.record.recordId = recordId)).map SpineRow.record

/-- The version of `get_latest`, 0 when there is none. -/
def SpineTables.latestVersion (tables : SpineTables) (stableId : String) : Int :=
  (((tables.records.map SpineRow.record).filter (fun r => r.stableId = stableId)).map
    EntityRecord.version).max?.getD 0

/-- `_insert_record` up to its `INSERT`: the record that is stored already, or the new one with the
    row to insert. -/
def insertRecord (registry : SqliteEntityRegistry) (tables : SpineTables) (locked : Bool)
    (record : EntityRecord) : Except SpineError (EntityRecord × Option SpineRow) :=
  match tables.get record.recordId with
  | some stored =>
    if Json.pyEq (.obj stored.payload.items) (.obj record.payload.items)
        && Json.pyEq (.obj stored.metadata.items) (.obj record.metadata.items) then
      .ok (stored, none)
    else
      .error (.contentAddress record.recordId record.kind record.stableId record.version)
  | none =>
    if locked || !fitsInteger record.version then .error .database
    else if tables.records.any (fun row => row.record.stableId = record.stableId
        && row.record.kind = record.kind && row.record.version = record.version) then
      .error (.versionTaken record.stableId record.kind record.version)
    else
      .ok (record, some (registry.newRow D record))

namespace SpineFile

variable (f : SpineFile) (i : Nat)

variable (registry : SqliteEntityRegistry)

/-- The `INSERT` of a row, which begins the transaction if there is none, and the new tip. -/
def insertRow (row : SpineRow) : SpineFile :=
  let tables := f.view i
  (f.write i { tables with records := tables.records ++ [row] }).setRegistry i
    (registry.advance D row)

/-- The handler of a call that raises: the batch is discarded and the tip read again. -/
def undo : SpineFile :=
  let f := f.rollback i
  f.setRegistry i ({ registry with pending := 0 }.resetChainTip D (f.view i))

def commitLocked : SpineFile :=
  (f.commit i).setRegistry i { registry with pending := 0 }

/-- The counting of `register` after `_insert_record`. -/
def countPending : SpineFile :=
  let registry := { registry with pending := registry.pending + 1 }
  if registry.registerBuffer ≤ registry.pending then f.commitLocked i registry
  else f.setRegistry i registry

def register (record : EntityRecord) : SpineFile × Except SpineError EntityRecord :=
  match insertRecord D registry (f.view i) (f.lockedFor i) record with
  | .error e => (f.undo D i registry, .error e)
  | .ok (stored, none) => (f.countPending i registry, .ok stored)
  | .ok (stored, some row) =>
    ((f.insertRow D i registry row).countPending i (registry.advance D row), .ok stored)

def flush : SpineFile :=
  if registry.pending = 0 then f else f.commitLocked i registry

end SpineFile

/-- The transaction of `new_version` up to its `INSERT`. -/
def insertVersion (registry : SqliteEntityRegistry) (tables : SpineTables) (call : NewVersion) :
    Except SpineError (EntityRecord × Option SpineRow) :=
  let current := tables.latestVersion call.stableId
  match call.expectedVersion.filter (fun expected => expected ≠ current) with
  | some expected => .error (.versionConflict call.stableId expected current)
  | none => insertRecord D registry tables false (call.record D (current + 1))

namespace SpineFile

variable (f : SpineFile) (i : Nat)

/-- `new_version`. Its `BEGIN IMMEDIATE` stands before the `try`, and fails under any open
    transaction. -/
def newVersion (registry : SqliteEntityRegistry) (call : NewVersion) :
    SpineFile × Except SpineError EntityRecord :=
  let f := f.flush i registry
  let registry := { registry with pending := 0 }
  if f.writer.isSome then (f, .error .database)
  else match insertVersion D registry (f.view i) call with
    | .error e => (f.undo D i registry, .error e)
    | .ok (stored, none) => (f, .ok stored)
    | .ok (stored, some row) => ((f.insertRow D i registry row).commit i, .ok stored)

/-- `link`. Nothing is rolled back when it raises. -/
def link (registry : SqliteEntityRegistry) (link : EntityLink) :
    SpineFile × Except SpineError EntityLink :=
  let tables := f.view i
  if f.lockedFor i then (f, .error .database)
  else if tables.links.any (fun l => l.linkId = link.linkId) then
    (f.write i tables, .error .database)
  else
    ((f.write i { tables with links := tables.links ++ [link] }).commitLocked i registry, .ok link)

def openRegistry (registerBuffer : Nat) (dbChain : Bool) : SpineFile :=
  { f with registries := f.registries ++
      [some (SqliteEntityRegistry.opened D f.tables registerBuffer dbChain)] }

/-- The connection of a registry is gone, and its transaction with it. -/
def drop : SpineFile :=
  { f.rollback i with registries := f.registries.set i none }

end SpineFile

/-! ## The system -/

/-- The calls of a registry that write. -/
inductive SpineCall where
  | register (record : EntityRecord)
  | newVersion (call : NewVersion)
  | link (link : EntityLink)
  | flush

/-- What can happen to the file. -/
inductive SpineAction where
  | openRegistry (registerBuffer : Nat) (dbChain : Bool)
  | call (i : Nat) (call : SpineCall)
  /-- a `register`, or the transaction of a `new_version`, raises before its commit is done -/
  | fails (i : Nat)
  /-- the same, and reading the tip again raises too -/
  | failsTwice (i : Nat)
  /-- a `link` raises between its `INSERT` and its commit -/
  | linkFails (i : Nat) (link : EntityLink)
  /-- the database rolls a transaction back on its own, as it may when the disk is full -/
  | rolledBack (i : Nat)
  /-- `close` -/
  | close (i : Nat)
  /-- the process of the registry dies -/
  | crash (i : Nat)

namespace SpineFile

def perform (f : SpineFile) (i : Nat) (registry : SqliteEntityRegistry) : SpineCall → SpineFile
  | .register record => (f.register D i registry record).1
  | .newVersion call => (f.newVersion D i registry call).1
  | .link link => (f.link i registry link).1
  | .flush => f.flush i registry

end SpineFile

def spineFile : LTS SpineFile SpineAction where
  step f
    | .openRegistry registerBuffer dbChain => some (f.openRegistry D registerBuffer dbChain)
    | .call i call => (f.registryAt i).map (fun registry => f.perform D i registry call)
    | .fails i => (f.registryAt i).map (fun registry => f.undo D i registry)
    | .failsTwice i =>
      (f.registryAt i).map (fun registry => (f.rollback i).setRegistry i { registry with pending := 0 })
    | .linkFails i link => (f.registryAt i).map (fun _ =>
      if f.lockedFor i then f
      else f.write i { f.view i with links := (f.view i).links ++ [link] })
    | .rolledBack i => (f.registryAt i).map (fun _ => f.rollback i)
    | .close i => (f.registryAt i).map (fun registry => (f.flush i registry).drop i)
    | .crash i => (f.registryAt i).map (fun _ => f.drop i)

def SpineFile.session (f : SpineFile) (registerBuffer : Nat) (calls : List SpineCall) : SpineFile :=
  let i := f.registries.length
  let actions := .openRegistry registerBuffer true :: calls.map (.call i) ++ [.close i]
  ((spineFile D).exec f actions).getD f

def spineSessions (sessions : List (Nat × List SpineCall)) : SpineFile :=
  sessions.foldl (fun f session => f.session D session.1 session.2) {}

end Himmy
