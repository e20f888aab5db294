/-! # Hexadecimal text

Numbers and bytes are written in lowercase; digits are read in either case.
-/

namespace Depot.Hex

def digit (n : Nat) : Char :=
  if n < 10 then Char.ofNat ('0'.toNat + n) else Char.ofNat ('a'.toNat + (n - 10))

def value? (c : Char) : Option Nat :=
  if '0' ≤ c ∧ c ≤ '9' then some (c.toNat - '0'.toNat)
  else if 'a' ≤ c ∧ c ≤ 'f' then some (c.toNat - 'a'.toNat + 10)
  else if 'A' ≤ c ∧ c ≤ 'F' then some (c.toNat - 'A'.toNat + 10)
  else none

def byteValue? (b : UInt8) : Option Nat := value? (Char.ofUInt8 b)

/-- The number's digits without leading zeros. -/
def ofNat (n : Nat) : List Char := Nat.toDigits 16 n

def ofByte (b : UInt8) : List Char := [digit (b.toNat / 16), digit (b.toNat % 16)]

def ofBytes (bytes : ByteArray) : String :=
  String.ofList (bytes.data.toList.flatMap ofByte)

/-- The number that the digits write, most significant first; none if one is no digit. -/
def toNat? (digits : List Char) : Option Nat :=
  digits.foldl (fun n c => n.bind fun n => (value? c).map (16 * n + ·)) (some 0)

end Depot.Hex
