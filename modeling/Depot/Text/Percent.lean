import Depot.Text.Hex
import Depot.Text.Utf8

/-! # Percent-encoded text

A percent sign and two hexadecimal digits stand for a byte; a percent sign without them stands for
itself. In query strings a plus sign stands for a blank.
-/

namespace Depot.Percent

def decode : List UInt8 → List UInt8
  | 0x25 :: h :: l :: rest =>
    match Hex.byteValue? h, Hex.byteValue? l with
    | some high, some low => (16 * high + low).toUInt8 :: decode rest
    | _, _ => 0x25 :: decode (h :: l :: rest)
  | b :: rest => b :: decode rest
  | [] => []

def bytesOf (text : String) : List UInt8 := text.toUTF8.data.toList

def decodeSegment? (segment : String) : Option String :=
  String.fromUTF8? (decode (bytesOf segment)).toByteArray

def decodeQueryText (bytes : List UInt8) : String :=
  Utf8.decodeLossy (decode (bytes.map fun b => if b = 0x2b then 0x20 else b))

/-- The pairs of a query string in order. A piece without an equals sign has an empty value. -/
def queryPairs (query : String) : List (String × String) :=
  let pieces := ((bytesOf query).splitOn 0x26).filter fun piece => ¬ piece.isEmpty
  pieces.map fun piece =>
    (decodeQueryText (piece.takeWhile (· ≠ 0x3d)),
      decodeQueryText ((piece.dropWhile (· ≠ 0x3d)).drop 1))

end Depot.Percent
