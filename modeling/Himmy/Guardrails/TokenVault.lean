import Himmy.Core.Json
import Mathlib.Data.List.Sort

/-! # The token vault

`TokenVault` replaces a value by a token, and the tokens in a text by their values again. The pairs lie
in a backend: in memory an ordered dictionary with a reverse one, over SQLite a table with a sequence
number. Both bound the number of pairs and drop the least recently used. -/

namespace Himmy

/-! ## Tokens -/

/-- A character of `[0-9a-f]`. -/
def isDigestChar (c : Char) : Bool := ('0' ≤ c && c ≤ '9') || ('a' ≤ c && c ≤ 'f')

/-- `[^\[\]]+:[0-9a-f]{12}`, of characters that are no brackets. -/
def isTokenBody (cs : List Char) : Bool :=
  13 < cs.length && cs[cs.length - 13]? == some ':' && (cs.drop (cs.length - 12)).all isDigestChar

/-- What `_TOKEN_RE` finds in a text: characters and tokens. After a bracket the characters since are
    kept, since a token ends at the next one. -/
def tokenPieces : Option (List Char) → List Char → List (Char ⊕ String)
  | none, [] => []
  | some run, [] => ('[' :: run).map .inl
  | none, c :: cs => if c = '[' then tokenPieces (some []) cs else .inl c :: tokenPieces none cs
  | some run, c :: cs =>
    if c = '[' then ('[' :: run).map .inl ++ tokenPieces (some []) cs
    else if c = ']' then
      (if isTokenBody run then [.inr (String.ofList ('[' :: run ++ [']']))]
        else ('[' :: run ++ [']']).map .inl) ++ tokenPieces none cs
    else tokenPieces (some (run ++ [c])) cs

def tokenText (upper digest : String → String) (label value : String) : String :=
  "[" ++ upper label ++ ":" ++ digest value ++ "]"

/-! ## Backends -/

structure TokenVaultBackend (σ : Type) where
  getToken : String → σ → Except String (Option String × σ)
  getValue : String → σ → Except String (Option String × σ)
  store : String → String → σ → Except String σ

namespace TokenVaultBackend

variable {σ : Type} (backend : TokenVaultBackend σ) (upper digest : String → String)

def tokenize (label value : String) (s : σ) : Except String (String × σ) :=
  match backend.getToken value s with
  | .error e => .error e
  | .ok (some token, s) => .ok (token, s)
  | .ok (none, s) =>
    (backend.store value (tokenText upper digest label value) s).map
      (fun s => (tokenText upper digest label value, s))

/-- `_TOKEN_RE.sub(_restore, text)`, piece by piece. -/
def restore : List (Char ⊕ String) → σ → Except String (String × σ)
  | [], s => .ok ("", s)
  | .inl c :: pieces, s => (restore pieces s).map (fun r => (String.singleton c ++ r.1, r.2))
  | .inr token :: pieces, s =>
    match backend.getValue token s with
    | .error e => .error e
    | .ok (value, s) => (restore pieces s).map (fun r => (value.getD token ++ r.1, r.2))

def detokenize (text : String) (s : σ) : Except String (String × σ) :=
  backend.restore (tokenPieces none text.toList) s

end TokenVaultBackend

/-- A call of a vault. -/
inductive TokenCall where
  | tokenize (label value : String)
  | detokenize (text : String)

variable {σ : Type}

def TokenCall.answer (backend : TokenVaultBackend σ) (upper digest : String → String) :
    TokenCall → σ → Except String (String × σ)
  | .tokenize label value, s => backend.tokenize upper digest label value s
  | .detokenize text, s => backend.detokenize text s

def runVault (backend : TokenVaultBackend σ) (upper digest : String → String) :
    List TokenCall → σ → Except String (List String × σ)
  | [], s => .ok ([], s)
  | call :: calls, s =>
    match call.answer backend upper digest s with
    | .error e => .error e
    | .ok (text, s) =>
      (runVault backend upper digest calls s).map (fun r => (text :: r.1, r.2))

def TokenVaultBackend.logged (backend : TokenVaultBackend σ) :
    TokenVaultBackend (σ × List String) where
  getToken := fun value s =>
    (backend.getToken value s.1).map (fun r => (r.1, r.2, if r.1.isSome then s.2 ++ [value] else s.2))
  getValue := fun token s =>
    (backend.getValue token s.1).map (fun r => (r.1, r.2, s.2 ++ r.1.toList))
  store := fun value token s => (backend.store value token s.1).map (fun r => (r, s.2 ++ [value]))

theorem runVault_logged (backend : TokenVaultBackend σ) (upper digest : String → String)
    (calls : List TokenCall) (s : σ) (uses : List String) :
    (runVault backend.logged upper digest calls (s, uses)).map (fun r => (r.1, r.2.1))
      = runVault backend upper digest calls s := by
  have htokenize : ∀ label value s uses,
      (backend.logged.tokenize upper digest label value (s, uses)).map (fun r => (r.1, r.2.1))
        = backend.tokenize upper digest label value s := by
    intro label value s uses
    unfold TokenVaultBackend.tokenize TokenVaultBackend.logged
    dsimp only
    cases backend.getToken value s with
    | error e => rfl
    | ok r =>
      obtain ⟨_ | token, s'⟩ := r
      · simp only [Except.map]
        cases backend.store value (tokenText upper digest label value) s' <;> rfl
      · rfl
  have hrestore : ∀ pieces s uses,
      (backend.logged.restore pieces (s, uses)).map (fun r => (r.1, r.2.1))
        = backend.restore pieces s := by
    intro pieces
    induction pieces with
    | nil => exact fun _ _ => rfl
    | cons piece pieces ih =>
      intro s uses
      cases piece with
      | inl c =>
        unfold TokenVaultBackend.restore
        rw [← ih s uses]
        cases backend.logged.restore pieces (s, uses) <;> rfl
      | inr token =>
        unfold TokenVaultBackend.restore
        have hlogged : backend.logged.getValue token (s, uses)
          = (backend.getValue token s).map (fun r => (r.1, r.2, uses ++ r.1.toList)) := rfl
        rw [hlogged]
        cases backend.getValue token s with
        | error e => rfl
        | ok r =>
          simp only [Except.map]
          rw [← ih r.2 (uses ++ r.1.toList)]
          cases backend.logged.restore pieces (r.2, uses ++ r.1.toList) <;> rfl
  induction calls generalizing s uses with
  | nil => rfl
  | cons call calls ih =>
    have hanswer : (call.answer backend.logged upper digest (s, uses)).map (fun r => (r.1, r.2.1))
        = call.answer backend upper digest s := by
      cases call with
      | tokenize label value => exact htokenize label value s uses
      | detokenize text => exact hrestore _ s uses
    unfold runVault
    rw [← hanswer]
    cases call.answer backend.logged upper digest (s, uses) with
    | error e => rfl
    | ok r =>
      simp only [Except.map]
      rw [← ih r.2.1 r.2.2]
      cases runVault backend.logged upper digest calls (r.2.1, r.2.2) <;> rfl

/-! ## In memory -/

/-- `InMemoryTokenVaultBackend`. -/
structure InMemoryTokenVault where
  tokensByValue : Dict String := KeyedList.empty
  valuesByToken : Dict String := KeyedList.empty
  maxEntries : Option Int

namespace InMemoryTokenVault

def fresh (capacity : Option Nat) : InMemoryTokenVault where
  maxEntries := capacity.map (fun n : Nat => (n : Int))

def moveToEnd (value : String) (vault : InMemoryTokenVault) : Except String InMemoryTokenVault :=
  match vault.tokensByValue.find? value with
  | none => .error ("KeyError: " ++ (Json.str value).pyRepr)
  | some token => .ok { vault with tokensByValue := vault.tokensByValue.replace (value, token) }

def getToken (value : String) (vault : InMemoryTokenVault) :
    Except String (Option String × InMemoryTokenVault) :=
  match vault.tokensByValue.find? value with
  | none => .ok (none, vault)
  | some token => (vault.moveToEnd value).map (fun vault => (some token, vault))

def getValue (token : String) (vault : InMemoryTokenVault) :
    Except String (Option String × InMemoryTokenVault) :=
  match vault.valuesByToken.find? token with
  | none => .ok (none, vault)
  | some value => (vault.moveToEnd value).map (fun vault => (some value, vault))

/-- The loop of `store`, as long as the dictionary has items. -/
def evict (maxEntries : Int) : Nat → InMemoryTokenVault → Except String InMemoryTokenVault
  | 0, vault =>
    if (vault.tokensByValue.items.length : Int) ≤ maxEntries then .ok vault
    else .error "KeyError: 'dictionary is empty'"
  | n + 1, vault =>
    if (vault.tokensByValue.items.length : Int) ≤ maxEntries then .ok vault
    else
      match vault.tokensByValue.items with
      | [] => .error "KeyError: 'dictionary is empty'"
      | (value, token) :: _ =>
        evict maxEntries n { vault with
          tokensByValue := vault.tokensByValue.erase value
          valuesByToken := KeyedList.erase vault.valuesByToken token }

def store (value token : String) (vault : InMemoryTokenVault) : Except String InMemoryTokenVault :=
  match ({ vault with tokensByValue := vault.tokensByValue.set value token } :
      InMemoryTokenVault).moveToEnd value with
  | .error e => .error e
  | .ok moved =>
    let stored := { moved with valuesByToken := moved.valuesByToken.set token value }
    match vault.maxEntries with
    | none => .ok stored
    | some maxEntries => stored.evict maxEntries stored.tokensByValue.items.length

def backend : TokenVaultBackend InMemoryTokenVault where
  getToken := getToken
  getValue := getValue
  store := store

/-- The values that are held, the least recently used first. -/
def values (vault : InMemoryTokenVault) : List String := vault.tokensByValue.items.map Prod.fst

end InMemoryTokenVault

/-! ## Over SQLite -/

/-- A row of `token_vault`. -/
structure TokenRow where
  value : String
  token : String
  seq : Int

/-- `SqliteTokenVaultBackend`. -/
structure SqliteTokenVault where
  tokenVault : KeyedList TokenRow.value := KeyedList.empty
  maxEntries : Option Int

namespace SqliteTokenVault

def fresh (capacity : Option Nat) : SqliteTokenVault where
  maxEntries := capacity.map (fun n : Nat => (n : Int))

variable (vault : SqliteTokenVault)

/-- `SELECT COALESCE(MAX(seq), 0) + 1 FROM token_vault`. -/
def nextSeq : Int :=
  ((vault.tokenVault.items.map TokenRow.seq).max?).getD 0 + 1

def touch (value : String) (vault : SqliteTokenVault) : SqliteTokenVault :=
  { vault with
    tokenVault := vault.tokenVault.modify
      (fun row => if row.value = value then { row with seq := vault.nextSeq } else row)
      (fun row => by split <;> rfl) }

def getToken (value : String) (vault : SqliteTokenVault) : Option String × SqliteTokenVault :=
  match vault.tokenVault.get? value with
  | none => (none, vault)
  | some row => (some row.token, vault.touch value)

def getValue (token : String) (vault : SqliteTokenVault) : Option String × SqliteTokenVault :=
  match vault.tokenVault.items.find? (fun row => row.token = token) with
  | none => (none, vault)
  | some row => (some row.value, vault.touch row.value)

def evictIfNeeded : SqliteTokenVault :=
  match vault.maxEntries with
  | none => vault
  | some maxEntries =>
    let overflow := (vault.tokenVault.items.length : Int) - maxEntries
    if overflow ≤ 0 then vault
    else
      let doomed := ((vault.tokenVault.items.insertionSort (fun a b => a.seq ≤ b.seq)).take
        overflow.toNat).map TokenRow.value
      { vault with tokenVault := vault.tokenVault.filter (fun row => row.value ∉ doomed) }

/-- `store`: the row replaces those of the value and of the token. -/
def store (value token : String) (vault : SqliteTokenVault) : SqliteTokenVault :=
  ({ vault with
      tokenVault := (vault.tokenVault.filter (fun row => row.value ≠ value && row.token ≠ token)).put
        { value, token, seq := vault.nextSeq } } : SqliteTokenVault).evictIfNeeded

def backend : TokenVaultBackend SqliteTokenVault where
  getToken := fun value vault => .ok (vault.getToken value)
  getValue := fun token vault => .ok (vault.getValue token)
  store := fun value token vault => .ok (vault.store value token)

/-- The values that are held, the least recently used first. -/
def values : List String :=
  (vault.tokenVault.items.insertionSort (fun a b => a.seq ≤ b.seq)).map TokenRow.value

end SqliteTokenVault

end Himmy
