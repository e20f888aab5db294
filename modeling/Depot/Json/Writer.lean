import Depot.Text.Hex

/-! # Writing JSON

Compact texts: no spaces, members in the order given. In strings only quotes, backslashes and
controls are escaped.
-/

namespace Depot.Json

namespace Writer

def escapeByte (b : UInt8) : List UInt8 :=
  if b = 0x22 then [0x5c, 0x22]
  else if b = 0x5c then [0x5c, 0x5c]
  else if b = 0x08 then [0x5c, 0x62]
  else if b = 0x09 then [0x5c, 0x74]
  else if b = 0x0a then [0x5c, 0x6e]
  else if b = 0x0c then [0x5c, 0x66]
  else if b = 0x0d then [0x5c, 0x72]
  else if b < 0x20 then [0x5c, 0x75, 0x30, 0x30] ++ (Hex.ofByte b).map fun c => c.toNat.toUInt8
  else [b]

/-- Escapes are ASCII, so that they may be put byte by byte into UTF-8. -/
def string (text : String) : List UInt8 :=
  0x22 :: (text.toUTF8.data.toList.flatMap escapeByte ++ [0x22])

def nat (n : Nat) : List UInt8 := (Nat.toDigits 10 n).map fun c => c.toNat.toUInt8

def null : List UInt8 := [0x6e, 0x75, 0x6c, 0x6c]

def optional : Option (List UInt8) → List UInt8
  | none => null
  | some value => value

def commaSeparated : List (List UInt8) → List UInt8
  | [] => []
  | [value] => value
  | value :: values => value ++ 0x2c :: commaSeparated values

def array (items : List (List UInt8)) : List UInt8 := 0x5b :: (commaSeparated items ++ [0x5d])

def object (members : List (String × List UInt8)) : List UInt8 :=
  0x7b :: (commaSeparated (members.map fun (key, value) => string key ++ 0x3a :: value) ++ [0x7d])

end Writer

end Depot.Json
