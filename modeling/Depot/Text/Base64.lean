/-! # Base64

Three bytes are written as four characters of an alphabet of 64. Two or one bytes at the end are
padded to four characters, and bits that no byte fills are zero. Reading accepts nothing else, so
that every content has one written form.
-/

namespace Depot.Base64

def digit (n : Nat) : UInt8 :=
  if n < 26 then (0x41 + n).toUInt8
  else if n < 52 then (0x61 + (n - 26)).toUInt8
  else if n < 62 then (0x30 + (n - 52)).toUInt8
  else if n = 62 then 0x2b
  else 0x2f

def value? (b : UInt8) : Option Nat :=
  if 0x41 ≤ b && b ≤ 0x5a then some (b.toNat - 0x41)
  else if 0x61 ≤ b && b ≤ 0x7a then some (b.toNat - 0x61 + 26)
  else if 0x30 ≤ b && b ≤ 0x39 then some (b.toNat - 0x30 + 52)
  else if b = 0x2b then some 62
  else if b = 0x2f then some 63
  else none

def padding : UInt8 := 0x3d

def encode : List UInt8 → List UInt8
  | [] => []
  | [a] => [digit (a.toNat / 4), digit (a.toNat % 4 * 16), padding, padding]
  | [a, b] =>
    [digit (a.toNat / 4), digit (a.toNat % 4 * 16 + b.toNat / 16), digit (b.toNat % 16 * 4),
      padding]
  | a :: b :: c :: rest =>
    digit (a.toNat / 4) :: digit (a.toNat % 4 * 16 + b.toNat / 16) ::
      digit (b.toNat % 16 * 4 + c.toNat / 64) :: digit (c.toNat % 64) :: encode rest

def group? (a b c d : UInt8) : Option (UInt8 × UInt8 × UInt8) := do
  let a ← value? a
  let b ← value? b
  let c ← value? c
  let d ← value? d
  some ((a * 4 + b / 16).toUInt8, (b % 16 * 16 + c / 4).toUInt8, (c % 4 * 64 + d).toUInt8)

/-- The one or two bytes that the last four characters write if they are padded. -/
def padded? (a b c : UInt8) : Option (List UInt8) := do
  let a ← value? a
  let b ← value? b
  if c = padding then
    if b % 16 = 0 then some [(a * 4 + b / 16).toUInt8] else none
  else
    let c ← value? c
    if c % 4 = 0 then some [(a * 4 + b / 16).toUInt8, (b % 16 * 16 + c / 4).toUInt8] else none

def decodeOnto (read : ByteArray) : List UInt8 → Option ByteArray
  | [] => some read
  | a :: b :: c :: d :: rest =>
    if d = padding then
      if rest = [] then (padded? a b c).map fun bytes => read ++ bytes.toByteArray else none
    else
      match group? a b c d with
      | none => none
      | some (x, y, z) => decodeOnto (((read.push x).push y).push z) rest
  | _ => none

def decode (text : List UInt8) : Option ByteArray := decodeOnto .empty text

end Depot.Base64
