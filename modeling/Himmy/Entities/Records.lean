import Mathlib.Data.List.Sort
import Himmy.Core.Json

/-! # Entity records and their content hash

The records and links of the lineage graph, the canonical JSON text of a record's content, and the
SHA-256 of it. The digests are those of the standard library; what the model asks of them is in
`Digests`: SHA-256 is taken to be collision-free and its hex digests to be hexadecimal. -/

namespace Himmy

/-! ## Canonical JSON -/

def hexDigit (n : Nat) : Char :=
  ("0123456789abcdef".toList.getD n '0')

/-- `format(n, "04x")` of a 16-bit number. -/
def hex4 (n : Nat) : List Char :=
  [hexDigit (n / 4096 % 16), hexDigit (n / 256 % 16), hexDigit (n / 16 % 16), hexDigit (n % 16)]

namespace Json

/-- A character in a string literal of `json.dumps`, which escapes everything that is not printable
    ASCII; a character above U+FFFF is a surrogate pair. -/
def escape (c : Char) : List Char :=
  let n := c.toNat
  if n = 34 then "\\\"".toList
  else if n = 92 then "\\\\".toList
  else if n = 8 then "\\b".toList
  else if n = 9 then "\\t".toList
  else if n = 10 then "\\n".toList
  else if n = 12 then "\\f".toList
  else if n = 13 then "\\r".toList
  else if 32 ≤ n ∧ n < 127 then [c]
  else if n < 65536 then "\\u".toList ++ hex4 n
  else "\\u".toList ++ hex4 (55296 + (n - 65536) / 1024)
    ++ "\\u".toList ++ hex4 (56320 + (n - 65536) % 1024)

def quote (s : String) : String := "\"" ++ String.ofList (s.toList.flatMap escape) ++ "\""

mutual

/-- `json.dumps(value, sort_keys=True, separators=(",", ":"))`. -/
def canonical : Json → String
  | .null => "null"
  | .bool b => if b then "true" else "false"
  | .num n => toString n
  | .str s => quote s
  | .arr xs => "[" ++ ",".intercalate (canonicalElements xs) ++ "]"
  | .obj kvs => "\x7b" ++ ",".intercalate
      (((canonicalFields kvs).insertionSort (fun a b => a.1 ≤ b.1)).map
        (fun kv => quote kv.1 ++ ":" ++ kv.2)) ++ "\x7d"

def canonicalElements : List Json → List String
  | [] => []
  | x :: xs => x.canonical :: canonicalElements xs

def canonicalFields : List (String × Json) → List (String × String)
  | [] => []
  | (k, x) :: kvs => (k, x.canonical) :: canonicalFields kvs

end

mutual

def numbered : Json → Json
  | .bool b => .num (if b then 1 else 0)
  | .arr xs => .arr (numberedElements xs)
  | .obj kvs => .obj (numberedFields kvs)
  | x => x

def numberedElements : List Json → List Json
  | [] => []
  | x :: xs => x.numbered :: numberedElements xs

def numberedFields : List (String × Json) → List (String × Json)
  | [] => []
  | (k, x) :: kvs => (k, x.numbered) :: numberedFields kvs

end

/-- Python's `==` on JSON data: a dictionary has no order, and a boolean is a number. -/
def pyEq (a b : Json) : Bool := a.numbered.canonical = b.numbered.canonical

end Json

/-! ## Records and links -/

structure EntityRecord where
  recordId : String
  stableId : String
  version : Int
  kind : String
  payload : Dict Json
  metadata : Dict Json
  createdAt : String

structure EntityLink where
  linkId : String
  fromRecordId : String
  toRecordId : String
  relation : String
  metadata : Dict Json
  createdAt : String

def isHexDigit (c : Char) : Bool := c ∈ "0123456789abcdef".toList

theorem lt_of_isHexDigit {c : Char} (h : isHexDigit c = true) : c.toNat < 128 := by
  have hall : "0123456789abcdef".toList.all (fun c => c.toNat < 128) = true := by decide
  exact of_decide_eq_true (List.all_eq_true.1 hall c (of_decide_eq_true h))

/-- The digests of the standard library, on texts: `sha256` and `hmac` are hex digests, and `uuid5`
    is the text of the UUID in the fixed namespace. -/
structure Digests where
  sha256 : String → String
  hmac : String → String → String
  uuid5 : String → String
  /-- SHA-256 has no collisions. -/
  collisionFree : Function.Injective sha256
  /-- A digest is written in hexadecimal. -/
  hex : ∀ s, (sha256 s).toList.all isHexDigit = true
  hmacHex : ∀ key s, (hmac key s).toList.all isHexDigit = true

/-! ### Digests that meet the assumptions

The hexadecimal code of a text is a digest without collisions. -/

def hexCode (c : Char) : List Char := hex4 (c.toNat / 256) ++ hex4 (c.toNat % 256)

theorem hexDigit_inj {a b : Nat} (ha : a < 16) (hb : b < 16) (h : hexDigit a = hexDigit b) :
    a = b := by
  have hall : ∀ a < 16, ∀ b < 16, hexDigit a = hexDigit b → a = b := by decide
  exact hall a ha b hb h

theorem hex4_inj {a b : Nat} (ha : a < 65536) (hb : b < 65536) (h : hex4 a = hex4 b) : a = b := by
  simp only [hex4, List.cons.injEq, and_true] at h
  obtain ⟨h3, h2, h1, h0⟩ := h
  have h3 := hexDigit_inj (Nat.mod_lt _ (by decide)) (Nat.mod_lt _ (by decide)) h3
  have h2 := hexDigit_inj (Nat.mod_lt _ (by decide)) (Nat.mod_lt _ (by decide)) h2
  have h1 := hexDigit_inj (Nat.mod_lt _ (by decide)) (Nat.mod_lt _ (by decide)) h1
  have h0 := hexDigit_inj (Nat.mod_lt _ (by decide)) (Nat.mod_lt _ (by decide)) h0
  omega

theorem hexCode_inj {c d : Char} (h : hexCode c = hexCode d) : c = d := by
  have hbound : ∀ c : Char, c.toNat < 1114112 := by
    intro c
    have hvalid := c.valid
    unfold UInt32.isValidChar Nat.isValidChar at hvalid
    show c.val.toNat < 1114112
    omega
  have hc := hbound c
  have hd := hbound d
  obtain ⟨hhigh, hlow⟩ := List.append_inj h rfl
  have hhigh := hex4_inj (by omega) (by omega) hhigh
  have hlow := hex4_inj (by omega) (by omega) hlow
  exact Char.toNat_inj.1 (by omega)

theorem flatMap_hexCode_inj {l l' : List Char} (h : l.flatMap hexCode = l'.flatMap hexCode) :
    l = l' := by
  induction l generalizing l' with
  | nil =>
    cases l' with
    | nil => rfl
    | cons d l' => cases h
  | cons c l ih =>
    cases l' with
    | nil => cases h
    | cons d l' =>
      simp only [List.flatMap_cons] at h
      obtain ⟨hc, hl⟩ := List.append_inj h rfl
      rw [hexCode_inj hc, ih hl]

theorem all_hexCode (l : List Char) : (l.flatMap hexCode).all isHexDigit = true := by
  have hdigit : ∀ n < 16, isHexDigit (hexDigit n) = true := by decide
  have hfour : ∀ n, (hex4 n).all isHexDigit = true := by
    intro n
    simp only [hex4, List.all_cons, List.all_nil, Bool.and_true, Bool.and_eq_true]
    exact ⟨hdigit _ (Nat.mod_lt _ (by decide)), hdigit _ (Nat.mod_lt _ (by decide)),
      hdigit _ (Nat.mod_lt _ (by decide)), hdigit _ (Nat.mod_lt _ (by decide))⟩
  induction l with
  | nil => rfl
  | cons c l ih => simp [List.flatMap_cons, hexCode, hfour, ih]

def hexText (s : String) : String := String.ofList (s.toList.flatMap hexCode)

theorem hexText_injective : Function.Injective hexText := by
  intro s t h
  exact String.toList_inj.1 (flatMap_hexCode_inj (String.ofList_injective h))

theorem all_hexText (s : String) : (hexText s).toList.all isHexDigit = true := by
  rw [hexText, String.toList_ofList]
  exact all_hexCode s.toList

def codeDigests : Digests where
  sha256 := hexText
  hmac key text := hexText (key ++ ":" ++ text)
  uuid5 := hexText
  collisionFree := hexText_injective
  hex := all_hexText
  hmacHex _ _ := all_hexText _

/-! ### Ids and hashes -/

def escapePrefix (component : String) : String :=
  String.ofList (component.toList.flatMap fun c =>
    if c.toNat = 92 then "\\\\".toList else if c = ':' then "\\:".toList else [c])

namespace EntityRecord

variable (D : Digests)

def recordIdFor (stableId : String) (version : Int) (kind : String) : String :=
  D.uuid5 (escapePrefix kind ++ ":" ++ escapePrefix stableId ++ ":" ++ toString version)

def create (stableId : String) (version : Int) (kind : String)
    (payload metadata : Dict Json) (createdAt : String) : EntityRecord :=
  { recordId := recordIdFor D stableId version kind
    stableId, version, kind, payload, metadata, createdAt }

/-- The text that `content_hash` hashes. -/
def contentText (r : EntityRecord) : String :=
  Json.canonical (.obj [("kind", .str r.kind), ("stable_id", .str r.stableId),
    ("version", .num r.version), ("payload", .obj r.payload.items),
    ("metadata", .obj r.metadata.items)])

def contentHash (r : EntityRecord) : String := D.sha256 r.contentText

end EntityRecord

def EntityLink.linkHash (D : Digests) (l : EntityLink) : String :=
  D.sha256 (Json.canonical (.obj [("from", .str l.fromRecordId), ("to", .str l.toRecordId),
    ("relation", .str l.relation), ("metadata", .obj l.metadata.items)]))

end Himmy
