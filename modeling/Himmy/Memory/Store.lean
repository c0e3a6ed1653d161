import Mathlib.Data.String.Basic
import Himmy.Library.Lists
import Himmy.Core.Json

/-! # Memories and their stores

A `MemoryRecord` is one remembered fact of a subject, true over the window from `valid_from` to
`valid_to`. Its timestamps are texts, and the code compares them as texts. `MemoryStore` is the
store protocol with what its operations do to what `get`, `list` and the link lookups read;
`inMemoryMemoryStore` and `sqliteMemoryStore` are its two implementations. -/

namespace Himmy

open KeyedList (empty get?_put key_of_get? get?_erase get?_filter)

def memoryTiers : List String := ["core", "recall", "archival"]

def relatesTo : String := "relates_to"

/-- `MemoryRecord`; the confidence is a number. -/
structure MemoryRecord where
  memoryId : String
  subjectId : String := "default"
  kind : String := "semantic"
  text : String := ""
  metadata : Dict Json := empty
  createdAt : String
  tier : String := "recall"
  validFrom : String := createdAt
  validTo : Option String := none
  supersededBy : Option String := none
  confidence : Json := .num 1
  source : String := "user"
  stableKey : Option String := none
  /-- `model_post_init` fills `valid_from` -/
  validFrom_filled : validFrom = "" → createdAt = "" := by exact fun h => h

structure MemoryLink where
  linkId : String
  fromMemoryId : String
  toMemoryId : String
  relation : String := relatesTo
  metadata : Dict Json := empty
  createdAt : String

def passesFilters (record : MemoryRecord) (activeOnly : Bool) (tier : Option String) : Bool :=
  !(activeOnly && record.validTo.isSome) && tier.all (fun t => record.tier = t)

/-- The subject filter of `list`. -/
def ofSubject (subjectId : Option String) (record : MemoryRecord) : Bool :=
  subjectId.all (fun s => record.subjectId = s)

structure MemoryStore (σ : Type) where
  save : σ → MemoryRecord → σ
  list : σ → Option String → Bool → Option String → List MemoryRecord
  get : σ → String → Option MemoryRecord
  delete : σ → String → σ × Bool
  deleteBySubject : σ → String → σ × Nat
  saveLink : σ → MemoryLink → σ
  linksFrom : σ → String → List MemoryLink
  linksTo : σ → String → List MemoryLink
  get_save : ∀ s r k, get (save s r) k = if k = r.memoryId then some r else get s k
  memoryId_of_get : ∀ {s k r}, get s k = some r → r.memoryId = k
  mem_list : ∀ s subjectId activeOnly tier r, r ∈ list s subjectId activeOnly tier ↔
    get s r.memoryId = some r ∧ ofSubject subjectId r = true
      ∧ passesFilters r activeOnly tier = true
  sorted_list : ∀ s subjectId activeOnly tier,
    (list s subjectId activeOnly tier).Pairwise (fun r r' => r.createdAt ≤ r'.createdAt)
  nodup_list : ∀ s subjectId activeOnly tier, (list s subjectId activeOnly tier).Nodup
  get_delete : ∀ s k k', get (delete s k).1 k' = if k' = k then none else get s k'
  get_deleteBySubject : ∀ s subjectId k,
    get (deleteBySubject s subjectId).1 k = (get s k).filter (fun r => r.subjectId ≠ subjectId)
  deleteBySubject_snd : ∀ s subjectId,
    (deleteBySubject s subjectId).2 = (list s (some subjectId) false none).length
  mem_linksFrom_saveLink : ∀ s l k l', l' ∈ linksFrom (saveLink s l) k ↔
    (l' = l ∧ l.fromMemoryId = k) ∨ (l' ∈ linksFrom s k ∧ l'.linkId ≠ l.linkId)
  links_save : ∀ s r, linksFrom (save s r) = linksFrom s ∧ linksTo (save s r) = linksTo s
  links_deleteBySubject : ∀ s subjectId,
    linksFrom (deleteBySubject s subjectId).1 = linksFrom s
      ∧ linksTo (deleteBySubject s subjectId).1 = linksTo s

/-! ## In memory -/

/-- The two dictionaries of `InMemoryMemoryStore`. -/
structure InMemoryMemories where
  records : KeyedList MemoryRecord.memoryId := empty
  links : KeyedList MemoryLink.linkId := empty

def byCreation (records : List MemoryRecord) : List MemoryRecord :=
  records.mergeSort (fun r r' => r.createdAt ≤ r'.createdAt)

theorem sorted_byCreation (records : List MemoryRecord) :
    (byCreation records).Pairwise (fun r r' => r.createdAt ≤ r'.createdAt) := by
  exact Lists.pairwise_mergeSort (r := fun r r' : MemoryRecord => r.createdAt ≤ r'.createdAt)
    le_trans (fun _ _ => le_total _ _) records

variable (records : KeyedList MemoryRecord.memoryId)

/-- The rows that `list` selects. -/
def selectMemories (subjectId : Option String)
    (activeOnly : Bool) (tier : Option String) : List MemoryRecord :=
  byCreation (records.items.filter
    (fun r => ofSubject subjectId r && passesFilters r activeOnly tier))

theorem mem_selectMemories {records : KeyedList MemoryRecord.memoryId} {subjectId : Option String}
    {activeOnly : Bool} {tier : Option String} {r : MemoryRecord} :
    r ∈ selectMemories records subjectId activeOnly tier ↔
      records.get? r.memoryId = some r ∧ ofSubject subjectId r = true
        ∧ passesFilters r activeOnly tier = true := by
  simp only [selectMemories, byCreation, List.mem_mergeSort, List.mem_filter, Bool.and_eq_true,
    KeyedList.get?_eq_some_iff, and_true]

theorem nodup_selectMemories
    (subjectId : Option String) (activeOnly : Bool) (tier : Option String) :
    (selectMemories records subjectId activeOnly tier).Nodup :=
  (List.mergeSort_perm _ _).nodup_iff.2 ((List.Nodup.of_map _ records.nodup_keys).filter _)

theorem length_selectMemories (subjectId : String) :
    (selectMemories records (some subjectId) false none).length
      = records.items.countP (fun r => r.subjectId = subjectId) := by
  rw [selectMemories, byCreation, List.length_mergeSort, List.countP_eq_length_filter]
  congr 1
  exact List.filter_congr (fun r _ => by simp [ofSubject, passesFilters])

namespace InMemoryMemories

variable (s : InMemoryMemories) (memoryId : String)

def delete : InMemoryMemories × Bool :=
  ({ s with records := s.records.erase memoryId },
    (s.records.get? memoryId).isSome)

def deleteBySubject (subjectId : String) : InMemoryMemories × Nat :=
  ({ s with records := s.records.filter (fun r => r.subjectId ≠ subjectId) },
    s.records.items.countP (fun r => r.subjectId = subjectId))

def linksFrom : List MemoryLink :=
  s.links.items.filter (fun l => l.fromMemoryId = memoryId)

def linksTo : List MemoryLink :=
  s.links.items.filter (fun l => l.toMemoryId = memoryId)

end InMemoryMemories

def inMemoryMemoryStore : MemoryStore InMemoryMemories where
  save s r := { s with records := s.records.put r }
  list s := selectMemories s.records
  get s k := s.records.get? k
  delete := InMemoryMemories.delete
  deleteBySubject := InMemoryMemories.deleteBySubject
  saveLink s l := { s with links := s.links.put l }
  linksFrom := InMemoryMemories.linksFrom
  linksTo := InMemoryMemories.linksTo
  get_save s r k := get?_put s.records r k
  memoryId_of_get h := key_of_get? h
  mem_list _ _ _ _ _ := mem_selectMemories
  sorted_list _ _ _ _ := sorted_byCreation _
  nodup_list s := nodup_selectMemories s.records
  get_delete s k k' := get?_erase s.records k k'
  get_deleteBySubject s subjectId k := get?_filter s.records _ k
  deleteBySubject_snd s subjectId := (length_selectMemories s.records subjectId).symm
  mem_linksFrom_saveLink s l k l' := by
    simp only [InMemoryMemories.linksFrom, List.mem_filter, KeyedList.mem_put_iff,
      decide_eq_true_eq]
    constructor
    · rintro ⟨rfl | ⟨hmem, hne⟩, hfrom⟩
      · exact Or.inl ⟨rfl, hfrom⟩
      · exact Or.inr ⟨⟨hmem, hfrom⟩, hne⟩
    · rintro (⟨rfl, hfrom⟩ | ⟨⟨hmem, hfrom⟩, hne⟩)
      · exact ⟨Or.inl rfl, hfrom⟩
      · exact ⟨Or.inr ⟨hmem, hne⟩, hfrom⟩
  links_save _ _ := ⟨rfl, rfl⟩
  links_deleteBySubject _ _ := ⟨rfl, rfl⟩

/-! ## In SQLite -/

/-- The two tables of `SqliteMemoryStore`, in the order of their row numbers. -/
structure SqliteMemories where
  memories : KeyedList MemoryRecord.memoryId := empty
  memoryLinks : KeyedList MemoryLink.linkId := empty

/-- `_row`: a blank `valid_from` is read as `created_at`. -/
def readRow (row : MemoryRecord) : MemoryRecord :=
  { row with
    validFrom := if row.validFrom = "" then row.createdAt else row.validFrom
    validFrom_filled := by
      split
      · exact fun h => h
      · next hne => exact fun h => absurd h hne }

theorem readRow_eq (row : MemoryRecord) : readRow row = row := by
  by_cases h : row.validFrom = ""
  · have hcreated := row.validFrom_filled h
    cases row
    simp_all [readRow]
  · cases row
    simp_all [readRow]

theorem map_readRow (rows : List MemoryRecord) : rows.map readRow = rows :=
  (List.map_congr_left (fun row _ => readRow_eq row)).trans (List.map_id _)

namespace SqliteMemories

variable (s : SqliteMemories)

/-- `save`: `INSERT OR REPLACE` gives the row a new row number. -/
def save (record : MemoryRecord) : SqliteMemories :=
  { s with memories := s.memories.replace record }

/-- `list`: `SELECT * FROM memories … ORDER BY created_at`. -/
def list (subjectId : Option String) (activeOnly : Bool) (tier : Option String) :
    List MemoryRecord :=
  (selectMemories s.memories subjectId activeOnly tier).map readRow

variable (memoryId : String)

def get : Option MemoryRecord := (s.memories.get? memoryId).map readRow

/-- `delete`: the row count of the `DELETE`. -/
def delete : SqliteMemories × Bool :=
  ({ s with memories := s.memories.erase memoryId },
    s.memories.items.countP (fun r => r.memoryId = memoryId) > 0)

def deleteBySubject (subjectId : String) : SqliteMemories × Nat :=
  ({ s with memories := s.memories.filter (fun r => r.subjectId ≠ subjectId) },
    s.memories.items.countP (fun r => r.subjectId = subjectId))

def linksFrom : List MemoryLink :=
  s.memoryLinks.items.filter (fun l => l.fromMemoryId = memoryId)

def linksTo : List MemoryLink :=
  s.memoryLinks.items.filter (fun l => l.toMemoryId = memoryId)

theorem get_eq : s.get memoryId = s.memories.get? memoryId := by
  rw [get, show readRow = id from funext readRow_eq, Option.map_id, id]

theorem list_eq (subjectId : Option String) (activeOnly : Bool) (tier : Option String) :
    s.list subjectId activeOnly tier = selectMemories s.memories subjectId activeOnly tier :=
  map_readRow _

end SqliteMemories

def sqliteMemoryStore : MemoryStore SqliteMemories where
  save := SqliteMemories.save
  list := SqliteMemories.list
  get := SqliteMemories.get
  delete := SqliteMemories.delete
  deleteBySubject := SqliteMemories.deleteBySubject
  saveLink s l := { s with memoryLinks := s.memoryLinks.replace l }
  linksFrom := SqliteMemories.linksFrom
  linksTo := SqliteMemories.linksTo
  get_save s r k := by
    simp only [SqliteMemories.get_eq, SqliteMemories.save, KeyedList.get?_replace]
  memoryId_of_get h := key_of_get? ((SqliteMemories.get_eq _ _).symm.trans h)
  mem_list s _ _ _ _ := by
    rw [s.list_eq, s.get_eq]
    exact mem_selectMemories
  sorted_list s _ _ _ := by
    rw [s.list_eq]
    exact sorted_byCreation _
  nodup_list s _ _ _ := by
    rw [s.list_eq]
    exact nodup_selectMemories s.memories _ _ _
  get_delete s k k' := by
    simp only [SqliteMemories.get_eq, SqliteMemories.delete, get?_erase]
  get_deleteBySubject s subjectId k := by
    simp only [SqliteMemories.get_eq, SqliteMemories.deleteBySubject, get?_filter]
  deleteBySubject_snd s subjectId := by
    rw [s.list_eq]
    exact (length_selectMemories s.memories subjectId).symm
  mem_linksFrom_saveLink s l k l' := by
    simp only [SqliteMemories.linksFrom, List.mem_filter, KeyedList.mem_replace_iff,
      decide_eq_true_eq]
    constructor
    · rintro ⟨rfl | ⟨hmem, hne⟩, hfrom⟩
      · exact Or.inl ⟨rfl, hfrom⟩
      · exact Or.inr ⟨⟨hmem, hfrom⟩, hne⟩
    · rintro (⟨rfl, hfrom⟩ | ⟨⟨hmem, hfrom⟩, hne⟩)
      · exact ⟨Or.inl rfl, hfrom⟩
      · exact ⟨Or.inr ⟨hmem, hne⟩, hfrom⟩
  links_save _ _ := ⟨rfl, rfl⟩
  links_deleteBySubject _ _ := ⟨rfl, rfl⟩

end Himmy
