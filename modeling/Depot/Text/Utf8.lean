/-! # Reading UTF-8 without failing

Where bytes are no UTF-8, each longest run that could still have begun a character becomes one
replacement character.
-/

namespace Depot.Utf8

def replacement : Char := '\ufffd'

def isTrail (b : UInt8) : Bool := 0x80 ≤ b && b ≤ 0xbf

/-- The first and last byte that may follow the given first byte of a character, and how many more
bytes follow that one. -/
def secondByte? (b : UInt8) : Option (UInt8 × UInt8 × Nat) :=
  if 0xc2 ≤ b && b ≤ 0xdf then some (0x80, 0xbf, 0)
  else if b = 0xe0 then some (0xa0, 0xbf, 1)
  else if b = 0xed then some (0x80, 0x9f, 1)
  else if 0xe1 ≤ b && b ≤ 0xef then some (0x80, 0xbf, 1)
  else if b = 0xf0 then some (0x90, 0xbf, 2)
  else if 0xf1 ≤ b && b ≤ 0xf3 then some (0x80, 0xbf, 2)
  else if b = 0xf4 then some (0x80, 0x8f, 2)
  else none

def firstBits (b : UInt8) (following : Nat) : Nat :=
  if following = 1 then b.toNat % 0x20 else if following = 2 then b.toNat % 0x10 else b.toNat % 0x08

/-- The character at the front of the bytes, and how many bytes it or its broken beginning has. -/
def front (b : UInt8) (rest : List UInt8) : Char × Nat :=
  if b < 0x80 then (Char.ofUInt8 b, 1)
  else
    match secondByte? b, rest with
    | some (low, high, more), c :: rest =>
      if low ≤ c && c ≤ high then
        let trails := (rest.take more).takeWhile isTrail
        let value := trails.foldl (fun n t => 0x40 * n + t.toNat % 0x40)
          (0x40 * firstBits b (more + 1) + c.toNat % 0x40)
        (if trails.length = more then Char.ofNat value else replacement, 2 + trails.length)
      else (replacement, 1)
    | _, _ => (replacement, 1)

/-- Passes over so many bytes that belong to the character before, then reads on. -/
def decodeAfter (read : List Char) : Nat → List UInt8 → List Char
  | _, [] => read.reverse
  | n + 1, _ :: rest => decodeAfter read n rest
  | 0, b :: rest =>
    let (c, size) := front b rest
    decodeAfter (c :: read) (size - 1) rest

def decodeLossy (bytes : List UInt8) : String := String.ofList (decodeAfter [] 0 bytes)

end Depot.Utf8
