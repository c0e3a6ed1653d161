import Mathlib.Data.String.Basic
import Himmy.Inference.Values

/-! # The tool-call grammar of Gemma

A call is written `<|tool_call>call:NAME{key:value,...}<tool_call|>`, with texts between two
`<|"|>` and everything else bare. The renderer writes the arguments of a call in the order of their
keys. The parser finds the calls with two patterns, the second one for a call without its opener,
and reads the arguments of each by recursive descent: a text up to its closing delimiter, an object
or an array element by element, and any other value up to the comma or bracket that ends it, to be
told by its shape. Its loops go on wherever the value they have read ends. -/

namespace Himmy.Gemma

def strDelimiter : List Char := "<|\"|>".toList

/-! ## Rendering -/

mutual

def fmtArg (escapeKeys : Bool) : Value → List Char
  | .str s => strDelimiter ++ (s.toList ++ strDelimiter)
  | .bool b => if b then "true".toList else "false".toList
  | .dict kvs =>
    let parts := ((fmtFields escapeKeys kvs).insertionSort (fun a b => a.1 ≤ b.1)).map fun part =>
      (if escapeKeys then strDelimiter ++ (part.1.toList ++ strDelimiter) else part.1.toList)
        ++ ':' :: part.2
    '{' :: ([','].intercalate parts ++ ['}'])
  | .list xs => '[' :: ([','].intercalate (fmtElements escapeKeys xs) ++ [']'])
  | .null => "None".toList
  | .int n => (toString n).toList
  | .float literal => (Value.floatRepr literal).toList
  | .object text => text.toList

def fmtElements (escapeKeys : Bool) : List Value → List (List Char)
  | [] => []
  | x :: xs => fmtArg escapeKeys x :: fmtElements escapeKeys xs

def fmtFields (escapeKeys : Bool) : List (String × Value) → List (String × List Char)
  | [] => []
  | (k, x) :: kvs => (k, fmtArg escapeKeys x) :: fmtFields escapeKeys kvs

end

/-- A call of an assistant message, as an object or as a dictionary. -/
structure AssistantCall where
  name : Option String
  arguments : Option Value

/-- The arguments of a call as a dictionary; `loads` is `json.loads`, or `none` where it raises. -/
def AssistantCall.dict (loads : String → Option Value) (call : AssistantCall) :
    List (String × Value) :=
  let args := match call.arguments with
    | some (.str text) => loads text
    | args => args
  match args with
  | some (.dict kvs) => kvs
  | _ => []

def opener : List Char := "<|tool_call>call:".toList

def closer : List Char := "\x7d<tool_call|>".toList

def renderCall (name : String) (args : List (String × Value)) : List Char :=
  let parts := ((fmtFields false args).insertionSort (fun a b => a.1 ≤ b.1)).map fun part =>
    part.1.toList ++ ':' :: part.2
  opener ++ (name.toList ++ '{' :: ([','].intercalate parts ++ closer))

def renderAssistantCalls (loads : String → Option Value) (calls : List AssistantCall) : List Char :=
  calls.flatMap fun call => renderCall (call.name.getD "") (call.dict loads)

/-! ## Runs

A run of the parser is `none` as long as it has not returned. -/

abbrev Run (α : Type) := Option (Except String α)

def Run.ok {α : Type} (a : α) : Run α := some (.ok a)

def Run.andThen {α β : Type} (x : Run α) (f : α → Run β) : Run β :=
  match x with
  | some (.ok a) => f a
  | some (.error e) => some (.error e)
  | none => none

/-! ## Values -/

def skipWs (s : List Char) : List Char :=
  s.dropWhile (fun c => c = ' ' || c = '\t' || c = '\r' || c = '\n')

/-- What a loop does behind an element: white space and a comma are skipped. -/
def skipComma (s : List Char) : List Char :=
  match skipWs s with
  | ',' :: rest => rest
  | rest => rest

/-- What stands before the first occurrence of a pattern, and what follows it. -/
def cut (pattern : List Char) : List Char → Option (List Char × List Char)
  | [] => if pattern = [] then some ([], []) else none
  | c :: cs =>
    if pattern.isPrefixOf (c :: cs) then some ([], (c :: cs).drop pattern.length)
    else (cut pattern cs).map fun p => (c :: p.1, p.2)

/-- The decimal digits begin at these code points, ten from each on. -/
def digitBlocks : List Nat :=
  [0x30, 0x660, 0x6f0, 0x7c0, 0x966, 0x9e6, 0xa66, 0xae6, 0xb66, 0xbe6, 0xc66, 0xce6, 0xd66, 0xde6,
    0xe50, 0xed0, 0xf20, 0x1040, 0x1090, 0x17e0, 0x1810, 0x1946, 0x19d0, 0x1a80, 0x1a90, 0x1b50,
    0x1bb0, 0x1c40, 0x1c50, 0xa620, 0xa8d0, 0xa900, 0xa9d0, 0xa9f0, 0xaa50, 0xabf0, 0xff10, 0x104a0,
    0x10d30, 0x11066, 0x110f0, 0x11136, 0x111d0, 0x112f0, 0x11450, 0x114d0, 0x11650, 0x116c0,
    0x11730, 0x118e0, 0x11950, 0x11c50, 0x11d50, 0x11da0, 0x11f50, 0x16a60, 0x16ac0, 0x16b50,
    0x1d7ce, 0x1d7d8, 0x1d7e2, 0x1d7ec, 0x1d7f6, 0x1e140, 0x1e2f0, 0x1e4f0, 0x1e950, 0x1fbf0]

/-- The value of a character of the class `\d`. -/
def digitValue (c : Char) : Option Nat :=
  (digitBlocks.find? (fun first => first ≤ c.toNat && c.toNat < first + 10)).map (c.toNat - ·)

/-- The class `\d`. -/
def isDecimal (c : Char) : Bool := (digitValue c).isSome

def unsigned : List Char → List Char
  | '-' :: s => s
  | s => s

variable (raw : List Char)

def isInteger : Bool := unsigned raw ≠ [] && (unsigned raw).all isDecimal

def isExponent : List Char → Bool
  | [] => true
  | e :: s =>
    let digits := match s with
      | '-' :: ds => ds
      | '+' :: ds => ds
      | ds => ds
    (e = 'e' || e = 'E') && digits ≠ [] && digits.all isDecimal

def isDecimalFraction : Bool :=
  match (unsigned raw).dropWhile isDecimal with
  | '.' :: s => s.takeWhile isDecimal ≠ [] && isExponent (s.dropWhile isDecimal)
  | _ => false

def natOf (digits : List Char) : Nat :=
  digits.foldl (fun n c => 10 * n + (digitValue c).getD 0) 0

/-- `sys.get_int_max_str_digits()`. -/
def maxStrDigits : Nat := 4300

/-- `int(raw)`, for the text of an integer. -/
def intOf : Except String Int :=
  if maxStrDigits < (unsigned raw).length then
    .error "Exceeds the limit (4300 digits) for integer string conversion"
  else .ok (if raw.head? = some '-' then -(natOf (unsigned raw) : Int) else natOf (unsigned raw))

section Parser

-- `float(raw)`, by the literal of its value
variable (floatOf : List Char → FloatLiteral)

def coerceScalar (raw : List Char) : Except String Value :=
  if raw = "true".toList then .ok (.bool true)
  else if raw = "false".toList then .ok (.bool false)
  else if raw = "null".toList || raw = "None".toList then .ok .null
  else if isInteger raw then (intOf raw).map .int
  else if isDecimalFraction raw then .ok (.float (floatOf raw))
  else .ok (.str (String.ofList raw))

/-- The scalar at the begin of a text, inside so many brackets, and what follows it. -/
def scanScalar : Nat → List Char → List Char × List Char
  | _, [] => ([], [])
  | depth, c :: cs =>
    if c = '{' ∨ c = '[' then
      let p := scanScalar (depth + 1) cs
      (c :: p.1, p.2)
    else if c = '}' ∨ c = ']' then
      if depth = 0 then ([], c :: cs)
      else
        let p := scanScalar (depth - 1) cs
        (c :: p.1, p.2)
    else if c = ',' ∧ depth = 0 then ([], c :: cs)
    else
      let p := scanScalar depth cs
      (c :: p.1, p.2)

/-- The loop over the items of an object; `value` reads a value. -/
def objectLoop (value : List Char → Run (Value × List Char)) :
    Nat → Dict Value → List Char → Run (Dict Value × List Char)
  | 0, _, _ => none
  | fuel + 1, obj, s =>
    match skipWs s with
    | [] => Run.ok (obj, [])
    | '}' :: rest => Run.ok (obj, rest)
    | s => match cut [':'] s with
      | none => Run.ok (obj, [])
      | some (k, rest) => (value rest).andThen fun p =>
        objectLoop value fuel (obj.set (String.ofList (pyStrip isPySpace k)) p.1) (skipComma p.2)

def arrayLoop (value : List Char → Run (Value × List Char)) :
    Nat → List Value → List Char → Run (List Value × List Char)
  | 0, _, _ => none
  | fuel + 1, arr, s =>
    match skipWs s with
    | [] => Run.ok (arr, [])
    | ']' :: rest => Run.ok (arr, rest)
    | s => (value s).andThen fun p => arrayLoop value fuel (arr ++ [p.1]) (skipComma p.2)

/-- `_parse_value`, with so many calls and iterations within another. -/
def parseValue : Nat → List Char → Run (Value × List Char)
  | 0, _ => none
  | fuel + 1, s =>
    let s := skipWs s
    if s = [] then Run.ok (.str "", [])
    else if strDelimiter.isPrefixOf s then
      let start := s.drop strDelimiter.length
      match cut strDelimiter start with
      | none => Run.ok (.str (String.ofList start), [])
      | some (content, rest) => Run.ok (.str (String.ofList content), rest)
    else if s.head? = some '{' then
      (objectLoop (parseValue fuel) fuel KeyedList.empty s.tail).andThen fun p =>
        Run.ok (.dict p.1.items, p.2)
    else if s.head? = some '[' then
      (arrayLoop (parseValue fuel) fuel [] s.tail).andThen fun p => Run.ok (.list p.1, p.2)
    else
      let p := scanScalar 0 s
      some ((coerceScalar floatOf (pyStrip isPySpace p.1)).map fun v => (v, p.2))

/-- The text that `_parse_args` reads as an object. -/
def braced (body : List Char) : List Char := '{' :: (pyStrip isPySpace body ++ ['}'])

def parseArgs (fuel : Nat) (body : List Char) : Run (List (String × Value)) :=
  if pyStrip isPySpace body = [] then Run.ok []
  else (parseValue floatOf fuel (braced body)).andThen fun p =>
    match p.1 with
    | .dict kvs => Run.ok kvs
    | _ => Run.ok []

end Parser

/-! ## Calls -/

/-- A match of one of the patterns: its groups, and how much of the text it takes. -/
structure Match where
  name : List Char
  args : List Char
  length : Nat
  deriving DecidableEq

/-- A match with the position it begins at. -/
structure Hit where
  start : Nat
  found : Match
  deriving DecidableEq

/-- `m.end()`. -/
def Hit.stop (hit : Hit) : Nat := hit.start + hit.found.length

/-- `m.group("name").strip()`. -/
def Hit.name (hit : Hit) : String := String.ofList (pyStrip isPySpace hit.found.name)

/-- The rest of a pattern behind a name: `\{(?P<args>.*?)\}<tool_call\|>`. -/
def matchArgs (whole name : List Char) : List Char → Option Match
  | '{' :: s => (cut closer s).map fun p =>
    { name, args := p.1, length := whole.length - p.2.length }
  | _ => none

/-- `_CALL_RE` at the begin of a text. -/
def matchCall (s : List Char) : Option Match :=
  if opener.isPrefixOf s then
    let s' := s.drop opener.length
    -- the name is everything before the first brace
    let name := s'.takeWhile (· ≠ '{')
    if name = [] then none else matchArgs s name (s'.dropWhile (· ≠ '{'))
  else none

variable (isWord : Char → Bool)

/-- `_LENIENT_CALL_RE` at the begin of a text; `isWord` is the class `\w`. -/
def matchLenientCall (s : List Char) : Option Match :=
  let s' := if "call:".toList.isPrefixOf s then s.drop "call:".toList.length else s
  let letter := fun c => isWord c || c = '.' || c = '-'
  match s' with
  | [] => none
  | c :: cs =>
    if c.isAlpha || c = '_' then
      matchArgs s (c :: cs.takeWhile letter) ((cs.dropWhile letter).dropWhile isPySpace)
    else none

/-- `pattern.finditer(text)` from a position on; the first `skip` characters belong to a match. -/
def finditer (pattern : List Char → Option Match) : Nat → Nat → List Char → List Hit
  | _, _, [] => []
  | position, 0, c :: cs =>
    match pattern (c :: cs) with
    | some found => { start := position, found } :: finditer pattern (position + 1) (found.length - 1) cs
    | none => finditer pattern (position + 1) 0 cs
  | position, skip + 1, _ :: cs => finditer pattern (position + 1) skip cs

/-- The strict matches, and those of the tolerant pass that it adds, in the order of the text. -/
def hits (text : List Char) (known : List String) : List Hit :=
  let strict := finditer matchCall 0 0 text
  let lenient := (finditer (matchLenientCall isWord) 0 0 text).filter fun hit =>
    !(strict.map Hit.stop).contains hit.stop && known.contains hit.name
  (strict ++ (if known = [] then [] else lenient)).insertionSort (fun a b => a.start ≤ b.start)

def called (text : List Char) (known : List String) : List Hit :=
  (hits isWord text known).filter fun hit => known = [] || known.contains hit.name

/-- A record of a call, but for its fresh id. -/
structure Call where
  toolName : String
  args : List (String × Value)

def callsOf (floatOf : List Char → FloatLiteral) (fuel : Nat) : List Hit → Run (List Call)
  | [] => Run.ok []
  | hit :: rest => (parseArgs floatOf fuel hit.found.args).andThen fun args =>
    (callsOf floatOf fuel rest).andThen fun calls =>
      Run.ok ({ toolName := hit.name, args } :: calls)

def parse (floatOf : List Char → FloatLiteral) (fuel : Nat) (text : List Char)
    (known : List String) : Run (List Call) :=
  callsOf floatOf fuel (called isWord text known)

end Himmy.Gemma
