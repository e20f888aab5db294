import Depot.Text.Decimal

/-! # Number literals

A JSON number is kept as it is written. `Number.toNat?` reads the integers; `Number.isInfinite`
tells whether the literal lies beyond the range of double precision when it is read as a leading
integer of at most 64 bits scaled by a power of ten.
-/

namespace Depot.Json

structure Number where
  negative : Bool
  /-- Digits before the point. -/
  whole : List Char
  /-- Digits behind the point. -/
  fraction : Option (List Char)
  /-- Sign and digits of the power of ten; the flag is set for a minus. -/
  exponent : Option (Bool × List Char)
  deriving DecidableEq, Repr

namespace Number

def ofNat (n : Nat) : Number := ⟨false, Nat.toDigits 10 n, none, none⟩

def toNat? (n : Number) : Option Nat :=
  if n.negative ∨ n.fraction.isSome ∨ n.exponent.isSome then none
  else some (Decimal.ofDigits n.whole)

/-- Digits taken into a significand below 2 ^ 64, and how many could not be taken. The first that
does not fit ends the taking. -/
def takeSignificand (significand : Nat) : List Char → Nat × Nat
  | [] => (significand, 0)
  | c :: rest =>
    let next := 10 * significand + (Decimal.value? c).getD 0
    if next < Nat.pow 2 64 then takeSignificand next rest else (significand, rest.length + 1)

/-- The nearest number of at most 53 significant bits, the even one of two. -/
def roundToDouble (n : Nat) : Nat :=
  let shift := n.log2 + 1 - 53
  let unit := Nat.pow 2 shift
  let low := n % unit
  let high := n / unit
  let up := 2 * low > unit ∨ (2 * low = unit ∧ high % 2 = 1)
  if shift = 0 then n else (if up then high + 1 else high) * unit

def scaled (n : Number) : Nat × Int :=
  let (significand, skipped) := takeSignificand 0 n.whole
  let (significand, taken) := match n.fraction with
    | none => (significand, 0)
    | some digits =>
      let (significand, left) := takeSignificand significand digits
      (significand, digits.length - left)
  let power : Int := match n.exponent with
    | none => 0
    | some (minus, digits) =>
      if minus then -(Decimal.ofDigits digits : Int) else Decimal.ofDigits digits
  (significand, (skipped : Int) - taken + power)

/-- No double is as large. The significand, the power of ten and their product are each rounded. -/
def isInfinite (n : Number) : Bool :=
  let (significand, power) := n.scaled
  if significand = 0 ∨ power < 0 then false
  else if power > 308 then true
  else
    Nat.pow 2 1024 ≤
      roundToDouble (roundToDouble significand * roundToDouble (Nat.pow 10 power.toNat))

end Number

end Depot.Json
