import Mathlib.Algebra.Group.Nat.Defs
import Himmy.Core.Text

/-! # IP addresses

`ipaddress.ip_address` on texts, and the properties of an address that tell whether it is public. An
IPv4-mapped IPv6 address has the properties of the IPv4 address. -/

namespace Himmy

/-- `IPv4Address`, `IPv6Address`, as numbers. -/
inductive IpAddress where
  | v4 (address : Nat)
  | v6 (address : Nat) (scopeId : Option (List Char))
  deriving DecidableEq

namespace IpAddress

/-! ## Reading an address -/

def isAsciiDigit (c : Char) : Bool := '0' ≤ c && c ≤ '9'

/-- `int(digits)`, for digits. -/
def decimalOf (digits : List Char) : Nat :=
  digits.foldl (fun n c => n * 10 + (c.toNat - '0'.toNat)) 0

def parseOctet (octet : List Char) : Option Nat :=
  if octet = [] || !octet.all isAsciiDigit || 3 < octet.length then none
  -- leading zeros are not permitted
  else if octet ≠ ['0'] && octet.head? = some '0' then none
  else if 255 < decimalOf octet then none
  else some (decimalOf octet)

variable (text : List Char)

/-- `IPv4Address._ip_int_from_string`. -/
def parseV4 : Option Nat :=
  let octets := text.splitOn '.'
  if octets.length ≠ 4 then none
  else (octets.mapM parseOctet).map (fun ns => ns.foldl (fun n octet => n * 256 + octet) 0)

def hexDigit (c : Char) : Option Nat :=
  if isAsciiDigit c then some (c.toNat - '0'.toNat)
  else if 'a' ≤ c && c ≤ 'f' then some (c.toNat - 'a'.toNat + 10)
  else if 'A' ≤ c && c ≤ 'F' then some (c.toNat - 'A'.toNat + 10)
  else none

def parseHextet (hextet : List Char) : Option Nat :=
  if hextet = [] || 4 < hextet.length then none
  else (hextet.mapM hexDigit).map (fun ns => ns.foldl (fun n digit => n * 16 + digit) 0)

def ofHextets (hextets : List Nat) : Nat := hextets.foldl (fun n hextet => n * 65536 + hextet) 0

/-- The parts of an IPv6 address, with an IPv4 suffix written as two hextets. -/
def v6Parts : Option (List (List Char)) :=
  let parts := text.splitOn ':'
  if parts.length < 3 then none
  else match parts.getLast? with
    | some last =>
      if '.' ∈ last then
        (parseV4 last).map (fun n =>
          parts.dropLast ++ [Nat.toDigits 16 (n / 65536), Nat.toDigits 16 (n % 65536)])
      else some parts
    | none => none

def skipIndices (parts : List (List Char)) : List Nat :=
  ((List.range parts.length).drop 1).dropLast.filter (fun i => parts[i]? = some [])

/-- `IPv6Address._ip_int_from_string`. -/
def parseV6 : Option Nat :=
  match v6Parts text with
  | none => none
  | some parts =>
    if 9 < parts.length then none
    else match skipIndices parts with
      | _ :: _ :: _ => none
      | [skip] =>
        -- a first or last part that is empty belongs to the `::`
        let high := if parts.head? = some [] then skip - 1 else skip
        let low := parts.length - skip - 1
        let low' := if parts.getLast? = some [] then low - 1 else low
        if parts.head? = some [] && high ≠ 0 then none
        else if parts.getLast? = some [] && low' ≠ 0 then none
        else if 8 < high + low' + 1 then none
        else
          match (parts.take high).mapM parseHextet,
              (parts.drop (parts.length - low')).mapM parseHextet with
          | some hs, some ls =>
            some (ofHextets (hs ++ List.replicate (8 - (high + low')) 0 ++ ls))
          | _, _ => none
      | [] =>
        if parts.length ≠ 8 then none
        else (parts.mapM parseHextet).map ofHextets

/-- `ipaddress.ip_address`. -/
def ofText : Option IpAddress :=
  if '/' ∈ text then none
  else match parseV4 text with
    | some n => some (.v4 n)
    | none =>
      let address := text.takeWhile (· ≠ '%')
      if '%' ∈ text then
        let scopeId := (text.dropWhile (· ≠ '%')).drop 1
        if scopeId = [] || '%' ∈ scopeId then none
        else (parseV6 address).map (.v6 · (some scopeId))
      else (parseV6 address).map (.v6 · none)

/-! ## The properties of an address -/

/-- A network: its first address, and how many of the leading bits of its addresses are its own. -/
structure Network where
  first : Nat
  prefixLength : Nat

/-- `address in network`, for addresses of `width` bits. -/
def Network.contains (width : Nat) (net : Network) (address : Nat) : Bool :=
  address / 2 ^ (width - net.prefixLength) = net.first / 2 ^ (width - net.prefixLength)

def net4 (a b c d prefixLength : Nat) : Network :=
  ⟨((a * 256 + b) * 256 + c) * 256 + d, prefixLength⟩

def net6 (hextets : List Nat) (prefixLength : Nat) : Network :=
  ⟨ofHextets (hextets ++ List.replicate (8 - hextets.length) 0), prefixLength⟩

/-- `_IPv4Constants._private_networks`. -/
def privateNetworks4 : List Network :=
  [net4 0 0 0 0 8, net4 10 0 0 0 8, net4 127 0 0 0 8, net4 169 254 0 0 16, net4 172 16 0 0 12,
    net4 192 0 0 0 24, net4 192 0 0 170 31, net4 192 0 2 0 24, net4 192 168 0 0 16,
    net4 198 18 0 0 15, net4 198 51 100 0 24, net4 203 0 113 0 24, net4 240 0 0 0 4,
    net4 255 255 255 255 32]

/-- `_IPv4Constants._private_networks_exceptions`. -/
def privateExceptions4 : List Network := [net4 192 0 0 9 32, net4 192 0 0 10 32]

/-- `_IPv6Constants._private_networks`. -/
def privateNetworks6 : List Network :=
  [net6 [0, 0, 0, 0, 0, 0, 0, 1] 128, net6 [] 128, net6 [0, 0, 0, 0, 0, 0xffff] 96,
    net6 [0x64, 0xff9b, 1] 48, net6 [0x100] 64, net6 [0x2001] 23, net6 [0x2001, 0xdb8] 32,
    net6 [0x2002] 16, net6 [0xfc00] 7, net6 [0xfe80] 10]

/-- `_IPv6Constants._private_networks_exceptions`. -/
def privateExceptions6 : List Network :=
  [net6 [0x2001, 1, 0, 0, 0, 0, 0, 1] 128, net6 [0x2001, 1, 0, 0, 0, 0, 0, 2] 128,
    net6 [0x2001, 3] 32, net6 [0x2001, 4, 0x112] 48, net6 [0x2001, 0x20] 28, net6 [0x2001, 0x30] 28]

/-- `_IPv6Constants._reserved_networks`. -/
def reservedNetworks6 : List Network :=
  [net6 [] 8, net6 [0x100] 8, net6 [0x200] 7, net6 [0x400] 6, net6 [0x800] 5, net6 [0x1000] 4,
    net6 [0x4000] 3, net6 [0x6000] 3, net6 [0x8000] 3, net6 [0xa000] 3, net6 [0xc000] 3,
    net6 [0xe000] 4, net6 [0xf000] 5, net6 [0xf800] 6, net6 [0xfe00] 9]

/-- An IPv4 address is private, loopback, link-local, reserved, multicast or unspecified. -/
def isSpecial4 (n : Nat) : Bool :=
  (privateNetworks4.any (·.contains 32 n) && !privateExceptions4.any (·.contains 32 n))
    || (net4 127 0 0 0 8).contains 32 n
    || (net4 169 254 0 0 16).contains 32 n
    || (net4 240 0 0 0 4).contains 32 n
    || (net4 224 0 0 0 4).contains 32 n
    || n = 0

/-- An IPv6 address is private, loopback, link-local, reserved, multicast or unspecified. -/
def isSpecial6 (n : Nat) : Bool :=
  if n / 2 ^ 32 = 0xffff then isSpecial4 (n % 2 ^ 32)
  else
    (privateNetworks6.any (·.contains 128 n) && !privateExceptions6.any (·.contains 128 n))
      || n = 1
      || (net6 [0xfe80] 10).contains 128 n
      || reservedNetworks6.any (·.contains 128 n)
      || (net6 [0xff00] 8).contains 128 n
      || n = 0

/-- The address is private, loopback, link-local, reserved, multicast or unspecified. -/
def isSpecial : IpAddress → Bool
  | .v4 n => isSpecial4 n
  | .v6 n _ => isSpecial6 n

end IpAddress

end Himmy
