import Depot.Text.Decimal
import Depot.Text.Hex
import Depot.Text.Reading

/-! # Socket addresses

An address to listen on: an IPv4 or IPv6 address and, behind a colon, a number of sixteen bits. The
numbers of an IPv4 address have no leading zeros. An IPv6 address stands between brackets, perhaps
with a scope; its last two groups may be read in the form of an IPv4 address, and one run of zero
groups may be left out. Writing leaves out the longest run of at least two, the first of those.
-/

namespace Depot

structure Ipv4Address where
  octets : List UInt8
  size_eq : octets.length = 4
  deriving DecidableEq, Repr

structure Ipv6Address where
  groups : List UInt16
  size_eq : groups.length = 8
  deriving DecidableEq, Repr

inductive SocketAddress where
  | v4 (address : Ipv4Address) (portNumber : UInt16)
  | v6 (address : Ipv6Address) (scope : UInt32) (portNumber : UInt16)
  deriving DecidableEq, Repr

namespace SocketAddress

open Text (Reading readMark)

def readNumber (bound : Nat) (text : List Char) : Reading Nat :=
  let digits := text.takeWhile Decimal.isDigit
  let n := Decimal.ofDigits digits
  if digits = [] ∨ bound ≤ n then none else some (n, text.dropWhile Decimal.isDigit)

def readOctet (text : List Char) : Reading UInt8 :=
  let digits := text.takeWhile Decimal.isDigit
  if digits.head? = some '0' ∧ digits.length ≠ 1 then none
  else (readNumber 256 text).map fun (n, rest) => (n.toUInt8, rest)

def readOctets : Nat → List Char → Option (List UInt8 × List Char)
  | 0, text => some ([], text)
  | n + 1, text => do
    let (octet, rest) ← readOctet (← readMark '.' text)
    let (octets, rest) ← readOctets n rest
    some (octet :: octets, rest)

def readIpv4 (text : List Char) : Option (Ipv4Address × List Char) := do
  let (octet, rest) ← readOctet text
  let (octets, rest) ← readOctets 3 rest
  if h : (octet :: octets).length = 4 then some (⟨octet :: octets, h⟩, rest) else none

def readGroup (text : List Char) : Reading UInt16 :=
  let digits := text.takeWhile fun c => (Hex.value? c).isSome
  if digits = [] ∨ 4 < digits.length then none
  else (Hex.toNat? digits).map fun n => (n.toUInt16, text.drop digits.length)

def Ipv4Address.groups (address : Ipv4Address) : List UInt16 :=
  match address.octets with
  | [a, b, c, d] => [a.toUInt16 * 256 + b.toUInt16, c.toUInt16 * 256 + d.toUInt16]
  | _ => []

/-- A group behind the first stands behind a colon. -/
def separated (first : Bool) (text : List Char) : Option (List Char) :=
  if first then some text else readMark ':' text

/-- As many groups as there are, at most so many, whether the last two had the form of an IPv4
address, and the text behind them. -/
def readGroups : Nat → Bool → List Char → List UInt16 × Bool × List Char
  | 0, _, text => ([], false, text)
  | n + 1, first, text =>
    match if n = 0 then none else (separated first text).bind readIpv4 with
    | some (address, rest) => (Ipv4Address.groups address, true, rest)
    | none =>
      match (separated first text).bind readGroup with
      | none => ([], false, text)
      | some (group, rest) =>
        let (groups, embedded, rest) := readGroups n false rest
        (group :: groups, embedded, rest)

def ofGroups? (groups : List UInt16) : Option Ipv6Address :=
  if h : groups.length = 8 then some ⟨groups, h⟩ else none

/-- Two colons stand for at least one group. -/
def readIpv6 (text : List Char) : Reading Ipv6Address :=
  let (head, embedded, rest) := readGroups 8 true text
  if head.length = 8 then (ofGroups? head).map (·, rest)
  else if embedded then none
  else
    match rest with
    | ':' :: ':' :: rest =>
      let (tail, _, rest) := readGroups (7 - head.length) true rest
      let zeros := List.replicate (8 - head.length - tail.length) 0
      (ofGroups? (head ++ zeros ++ tail)).map (·, rest)
    | _ => none

def readPortNumber (text : List Char) : Option (UInt16 × List Char) := do
  let (portNumber, rest) ← readNumber 0x10000 (← readMark ':' text)
  some (portNumber.toUInt16, rest)

def readScope (text : List Char) : UInt32 × List Char :=
  match (readMark '%' text).bind (readNumber 0x100000000) with
  | some (scope, rest) => (scope.toUInt32, rest)
  | none => (0, text)

def readV4 (text : List Char) : Option (SocketAddress × List Char) := do
  let (address, rest) ← readIpv4 text
  let (portNumber, rest) ← readPortNumber rest
  some (.v4 address portNumber, rest)

def readV6 (text : List Char) : Option (SocketAddress × List Char) := do
  let (address, rest) ← readIpv6 (← readMark '[' text)
  let (scope, rest) := readScope rest
  let (portNumber, rest) ← readPortNumber (← readMark ']' rest)
  some (.v6 address scope portNumber, rest)

def parse? (text : String) : Option SocketAddress :=
  match (readV4 text.toList).or (readV6 text.toList) with
  | some (address, []) => some address
  | _ => none

end SocketAddress

def Ipv4Address.text (address : Ipv4Address) : String :=
  String.intercalate "." (address.octets.map fun octet => toString octet.toNat)

namespace Ipv6Address

def groupText (group : UInt16) : String := String.ofList (Hex.ofNat group.toNat)

def groupsText (groups : List UInt16) : String := String.intercalate ":" (groups.map groupText)

def zerosAt (groups : List UInt16) : Nat := (groups.takeWhile (· = 0)).length

/-- Position and length of the longest run of zeros, of those the first. -/
def longestZeros (groups : List UInt16) : Nat × Nat :=
  (List.range groups.length).foldl (fun best start =>
    let length := zerosAt (groups.drop start)
    if best.2 < length then (start, length) else best) (0, 0)

def text (address : Ipv6Address) : String :=
  match address.groups with
  | [0, 0, 0, 0, 0, 0xffff, a, b] =>
    "::ffff:" ++ String.intercalate "." ([a / 256, a % 256, b / 256, b % 256].map fun octet =>
      toString octet.toNat)
  | groups =>
    let (start, length) := longestZeros groups
    if length < 2 then groupsText groups
    else groupsText (groups.take start) ++ "::" ++ groupsText (groups.drop (start + length))

end Ipv6Address

namespace SocketAddress

def text : SocketAddress → String
  | .v4 address portNumber => address.text ++ ":" ++ toString portNumber.toNat
  | .v6 address scope portNumber =>
    let scopeText := if scope = 0 then "" else "%" ++ toString scope.toNat
    "[" ++ address.text ++ scopeText ++ "]:" ++ toString portNumber.toNat

end SocketAddress

end Depot
