import Depot.Text.Hex

/-! # SHA-256

The digest that gives every stored content its version hash. The message is padded to whole
blocks of sixteen words and the chaining state is stirred once per block.
-/

namespace Depot.Sha256

structure State where
  a : UInt32
  b : UInt32
  c : UInt32
  d : UInt32
  e : UInt32
  f : UInt32
  g : UInt32
  h : UInt32
  deriving DecidableEq, Repr

def initial : State :=
  ⟨0x6a09e667, 0xbb67ae85, 0x3c6ef372, 0xa54ff53a, 0x510e527f, 0x9b05688c, 0x1f83d9ab, 0x5be0cd19⟩

def constants : List UInt32 := [
  0x428a2f98, 0x71374491, 0xb5c0fbcf, 0xe9b5dba5, 0x3956c25b, 0x59f111f1, 0x923f82a4, 0xab1c5ed5,
  0xd807aa98, 0x12835b01, 0x243185be, 0x550c7dc3, 0x72be5d74, 0x80deb1fe, 0x9bdc06a7, 0xc19bf174,
  0xe49b69c1, 0xefbe4786, 0x0fc19dc6, 0x240ca1cc, 0x2de92c6f, 0x4a7484aa, 0x5cb0a9dc, 0x76f988da,
  0x983e5152, 0xa831c66d, 0xb00327c8, 0xbf597fc7, 0xc6e00bf3, 0xd5a79147, 0x06ca6351, 0x14292967,
  0x27b70a85, 0x2e1b2138, 0x4d2c6dfc, 0x53380d13, 0x650a7354, 0x766a0abb, 0x81c2c92e, 0x92722c85,
  0xa2bfe8a1, 0xa81a664b, 0xc24b8b70, 0xc76c51a3, 0xd192e819, 0xd6990624, 0xf40e3585, 0x106aa070,
  0x19a4c116, 0x1e376c08, 0x2748774c, 0x34b0bcb5, 0x391c0cb3, 0x4ed8aa4a, 0x5b9cca4f, 0x682e6ff3,
  0x748f82ee, 0x78a5636f, 0x84c87814, 0x8cc70208, 0x90befffa, 0xa4506ceb, 0xbef9a3f7, 0xc67178f2]

def rotateRight (x : UInt32) (n : UInt32) : UInt32 := (x >>> n) ||| (x <<< (32 - n))

def byteAt (bytes : ByteArray) (i : Nat) : UInt32 :=
  if h : i < bytes.size then bytes[i].toUInt32 else 0

def wordAt (bytes : ByteArray) (i : Nat) : UInt32 :=
  (byteAt bytes i <<< 24) ||| (byteAt bytes (i + 1) <<< 16) |||
    (byteAt bytes (i + 2) <<< 8) ||| byteAt bytes (i + 3)

/-- Appends words to the message schedule, each from four words before it. -/
def extend : Nat → Array UInt32 → Array UInt32
  | 0, w => w
  | n + 1, w =>
    let x := w.getD (w.size - 15) 0
    let y := w.getD (w.size - 2) 0
    let s₀ := rotateRight x 7 ^^^ rotateRight x 18 ^^^ (x >>> 3)
    let s₁ := rotateRight y 17 ^^^ rotateRight y 19 ^^^ (y >>> 10)
    extend n (w.push (w.getD (w.size - 16) 0 + s₀ + w.getD (w.size - 7) 0 + s₁))

def schedule (bytes : ByteArray) (start : Nat) : Array UInt32 :=
  extend 48 ((List.range 16).foldl (fun w i => w.push (wordAt bytes (start + 4 * i))) #[])

def round (s : State) (constant word : UInt32) : State :=
  let s₁ := rotateRight s.e 6 ^^^ rotateRight s.e 11 ^^^ rotateRight s.e 25
  let choice := (s.e &&& s.f) ^^^ ((~~~ s.e) &&& s.g)
  let t₁ := s.h + s₁ + choice + constant + word
  let s₀ := rotateRight s.a 2 ^^^ rotateRight s.a 13 ^^^ rotateRight s.a 22
  let majority := (s.a &&& s.b) ^^^ (s.a &&& s.c) ^^^ (s.b &&& s.c)
  ⟨t₁ + (s₀ + majority), s.a, s.b, s.c, s.d + t₁, s.e, s.f, s.g⟩

def rounds (w : Array UInt32) : Nat → List UInt32 → State → State
  | _, [], s => s
  | i, k :: ks, s => rounds w (i + 1) ks (round s k (w.getD i 0))

def compress (bytes : ByteArray) (start : Nat) (s : State) : State :=
  let t := rounds (schedule bytes start) 0 constants s
  ⟨s.a + t.a, s.b + t.b, s.c + t.c, s.d + t.d, s.e + t.e, s.f + t.f, s.g + t.g, s.h + t.h⟩

def absorb (bytes : ByteArray) : Nat → Nat → State → State
  | 0, _, s => s
  | blocks + 1, start, s => absorb bytes blocks (start + 64) (compress bytes start s)

/-- What follows a message of the given size: a set bit, zeros up to eight bytes before the end of
a block, and the size in bits. -/
def padding (size : Nat) : ByteArray :=
  let zeros : List UInt8 := List.replicate ((119 - size % 64) % 64) 0
  let bits : List UInt8 := (List.range 8).map fun i => ((8 * size) >>> (8 * (7 - i))).toUInt8
  (0x80 :: (zeros ++ bits)).toByteArray

def wordBytes (w : UInt32) : List UInt8 :=
  [(w >>> 24).toUInt8, (w >>> 16).toUInt8, (w >>> 8).toUInt8, w.toUInt8]

def digest (message : ByteArray) : ByteArray :=
  let padded := message ++ padding message.size
  let s := absorb padded (padded.size / 64) 0 initial
  ([s.a, s.b, s.c, s.d, s.e, s.f, s.g, s.h].flatMap wordBytes).toByteArray

def hex (message : ByteArray) : String := Hex.ofBytes (digest message)

end Depot.Sha256
