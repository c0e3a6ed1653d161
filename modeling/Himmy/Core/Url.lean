import Himmy.Core.IpAddress

/-! # URLs

`urllib.parse.urlsplit` and what its result is asked for. Of the Unicode database only the two
functions on texts are used, whatever they are outside ASCII. -/

namespace Himmy

/-- `str.lower` and `unicodedata.normalize("NFKC", ·)`. -/
structure UnicodeData where
  lower : List Char → List Char
  nfkc : List Char → List Char
  lower_ascii : ∀ text : List Char, (∀ c ∈ text, c.toNat < 128) → lower text = text.map Char.toLower

namespace Url

structure SplitResult where
  scheme : List Char
  netloc : List Char
  path : List Char
  query : List Char
  fragment : List Char
  deriving DecidableEq

def isSchemeChar (c : Char) : Bool :=
  ('a' ≤ c && c ≤ 'z') || ('A' ≤ c && c ≤ 'Z') || ('0' ≤ c && c ≤ '9') || c = '+' || c = '-' || c = '.'

/-- `c.isascii() and c.isalpha()`. -/
def isAsciiLetter (c : Char) : Bool := ('a' ≤ c && c ≤ 'z') || ('A' ≤ c && c ≤ 'Z')

/-- The text before the first `sep`, and the text after it when there is one: `partition`. -/
def partition (sep : Char) (text : List Char) : List Char × Option (List Char) :=
  (text.takeWhile (· ≠ sep),
    if sep ∈ text then some ((text.dropWhile (· ≠ sep)).drop 1) else none)

/-- The text before the last `sep` when there is one, and the text after it: `rpartition`. -/
def rpartition (sep : Char) (text : List Char) : Option (List Char) × List Char :=
  let (after, before) := partition sep text.reverse
  (before.map List.reverse, after.reverse)

def checkBracketedHost (host : List Char) : Except String Unit :=
  if host.head? = some 'v' then
    -- `\Av[a-fA-F0-9]+\..+\Z`
    let digits := (host.drop 1).takeWhile (fun c => (IpAddress.hexDigit c).isSome)
    let rest := (host.drop 1).dropWhile (fun c => (IpAddress.hexDigit c).isSome)
    if digits ≠ [] && rest.head? = some '.' && rest.drop 1 ≠ [] && '\n' ∉ rest.drop 1 then .ok ()
    else .error "IPvFuture address is invalid"
  else match IpAddress.ofText host with
    | none => .error "the host does not appear to be an IPv4 or IPv6 address"
    | some (.v4 _) => .error "An IPv4 address cannot be in brackets"
    | some (.v6 _ _) => .ok ()

def checkNetloc (unicode : UnicodeData) (netloc : List Char) : Except String Unit :=
  if netloc.all (fun c => c.toNat < 128) then .ok ()
  else
    let n := netloc.filter (fun c => c ∉ ['@', ':', '#', '?'])
    if n = unicode.nfkc n then .ok ()
    else if (unicode.nfkc n).any (fun c => c ∈ ['/', '?', '#', '@', ':']) then
      .error "netloc contains invalid characters under NFKC normalization"
    else .ok ()

def splitScheme (url : List Char) : List Char × List Char :=
  match partition ':' url with
  | (before, some after) =>
    if (before.head?.map isAsciiLetter).getD false && before.all isSchemeChar then
      (before.map Char.toLower, after)
    else ([], url)
  | (_, none) => ([], url)

/-- The network location of what follows the scheme, and the rest. -/
def splitNetloc (url : List Char) : List Char × List Char :=
  if url.take 2 = ['/', '/'] then
    ((url.drop 2).takeWhile (fun c => c ∉ ['/', '?', '#']),
      (url.drop 2).dropWhile (fun c => c ∉ ['/', '?', '#']))
  else ([], url)

def checkBrackets (netloc : List Char) : Except String Unit :=
  if ('[' ∈ netloc && ']' ∉ netloc) || (']' ∈ netloc && '[' ∉ netloc) then
    .error "Invalid IPv6 URL"
  else if '[' ∈ netloc then
    checkBracketedHost (partition ']' (((partition '[' netloc).2).getD [])).1
  else .ok ()

def urlsplit (unicode : UnicodeData) (url : String) : Except String SplitResult := do
  let cleaned := (url.toList.dropWhile (fun c => c.toNat ≤ 0x20)).filter
    (fun c => c ∉ ['\t', '\r', '\n'])
  let (scheme, rest) := splitScheme cleaned
  let (netloc, rest) := splitNetloc rest
  checkBrackets netloc
  let (rest, fragment) := partition '#' rest
  let (path, query) := partition '?' rest
  checkNetloc unicode netloc
  return { scheme := scheme, netloc := netloc, path := path, query := query.getD [],
           fragment := fragment.getD [] }

namespace SplitResult

variable (parts : SplitResult)

def userinfo : List Char × List Char :=
  match (rpartition '@' parts.netloc).1 with
  | none => ([], [])
  | some userinfo => ((partition ':' userinfo).1, (partition ':' userinfo).2.getD [])

def hostinfo : List Char × List Char :=
  let hostinfo := (rpartition '@' parts.netloc).2
  match (partition '[' hostinfo).2 with
  | some bracketed =>
    ((partition ']' bracketed).1, (partition ':' ((partition ']' bracketed).2.getD [])).2.getD [])
  | none => ((partition ':' hostinfo).1, (partition ':' hostinfo).2.getD [])

/-- `hostname`: the zone of a scoped address keeps its case. -/
def hostname (unicode : UnicodeData) : Option (List Char) :=
  let host := parts.hostinfo.1
  if host = [] then none
  else
    let zone := (partition '%' host).2
    some (unicode.lower (partition '%' host).1
      ++ (match zone with
        | some zone => '%' :: zone
        | none => []))

/-- `port`, or the `ValueError` it raises. -/
def port : Except String (Option Nat) :=
  let port := parts.hostinfo.2
  if port = [] then .ok none
  else if !port.all IpAddress.isAsciiDigit then
    .error "Port could not be cast to integer value"
  else if 65535 < IpAddress.decimalOf port then .error "Port out of range 0-65535"
  else .ok (some (IpAddress.decimalOf port))

end SplitResult

end Url

def asciiData : UnicodeData where
  lower text := text.map Char.toLower
  nfkc text := text
  lower_ascii _ _ := rfl

end Himmy
