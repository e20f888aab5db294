import Depot.Text.Decimal
import Depot.Text.Hex
import Depot.Text.Reading

/-! # Numbers in TOML

Single underscores may stand between digits. Integers are signed and have 64 bits; those that are
not decimal have no sign. Decimal integers have no leading zeros. A number with a fraction or an
exponent may not be so large that double precision takes it for infinite.
-/

namespace Depot.Toml

open Text (Reading readWord)

/-- Digits behind the first, without the underscores. -/
def moreDigits (isDigit : Char → Bool) : List Char → Reading (List Char)
  | '_' :: c :: rest =>
    if isDigit c then (moreDigits isDigit rest).map fun (digits, rest) => (c :: digits, rest)
    else none
  | '_' :: [] => none
  | c :: rest =>
    if isDigit c then (moreDigits isDigit rest).map fun (digits, rest) => (c :: digits, rest)
    else some ([], c :: rest)
  | [] => some ([], [])

def readDigits (isDigit : Char → Bool) : List Char → Reading (List Char)
  | c :: rest =>
    if isDigit c then (moreDigits isDigit rest).map fun (digits, rest) => (c :: digits, rest)
    else none
  | [] => none

def readSign : List Char → Bool × List Char
  | '+' :: rest => (false, rest)
  | '-' :: rest => (true, rest)
  | rest => (false, rest)

/-- Decimal digits without leading zeros. -/
def readWhole : List Char → Reading (List Char)
  | '0' :: rest => some (['0'], rest)
  | text => readDigits Decimal.isDigit text

def digitValue (c : Char) : Nat := (Hex.value? c).getD 0

def ofDigits (radix : Nat) (digits : List Char) : Nat :=
  digits.foldl (fun n c => radix * n + digitValue c) 0

/-- Integers lie below this and not below its negative. -/
def integerBound : Nat := 0x8000000000000000

def readRadix (mark : String) (radix : Nat) (text : List Char) : Reading Int :=
  match readWord mark text with
  | none => none
  | some rest =>
    let isDigit (c : Char) : Bool := (Hex.value? c).any (· < radix)
    match readDigits isDigit rest with
    | none => none
    | some (digits, rest) =>
      let n := ofDigits radix digits
      if n < integerBound then some ((n : Int), rest) else none

def readDecimal (text : List Char) : Reading Int :=
  let (minus, rest) := readSign text
  match readWhole rest with
  | none => none
  | some (digits, rest) =>
    let n := ofDigits 10 digits
    if minus then (if n ≤ integerBound then some (-(n : Int), rest) else none)
    else if n < integerBound then some ((n : Int), rest)
    else none

def readInteger (text : List Char) : Reading Int :=
  (readRadix "0x" 16 text).or ((readRadix "0o" 8 text).or
    ((readRadix "0b" 2 text).or (readDecimal text)))

def readExponent : List Char → Reading (Bool × List Char)
  | 'e' :: rest | 'E' :: rest =>
    let (minus, rest) := readSign rest
    (readDigits Decimal.isDigit rest).map fun (digits, rest) => ((minus, digits), rest)
  | _ => none

def isExponentMark (c : Char) : Bool := c = 'e' || c = 'E'

/-- The number `n * 10 ^ scale` is infinite in double precision: it lies at least half a step above
the largest finite one. -/
def overflows (n : Nat) (scale : Int) : Bool :=
  let ceiling := Nat.pow 2 1024 - Nat.pow 2 970
  let magnitude := ((Nat.toDigits 10 n).length : Int) + scale
  if n = 0 ∨ magnitude < 300 then false
  else if magnitude > 320 then true
  else if 0 ≤ scale then ceiling ≤ n * Nat.pow 10 scale.toNat
  else ceiling * Nat.pow 10 (-scale).toNat ≤ n

def readFloat (text : List Char) : Option (List Char) := do
  let (minus, rest) := readSign text
  if let some rest := (readWord "inf" rest).or (readWord "nan" rest) then return rest
  let (whole, rest) ← readWhole rest
  let (fraction, rest) ← match rest with
    | '.' :: rest => readDigits Decimal.isDigit rest
    | c :: _ => if isExponentMark c then some ([], rest) else none
    | [] => none
  let (exponent, rest) ← match rest with
    | c :: _ => if isExponentMark c then readExponent rest else some ((false, []), rest)
    | [] => some ((false, []), rest)
  let power : Int := ofDigits 10 exponent.2
  let scale := (if exponent.1 then -power else power) - fraction.length
  if minus ∨ ¬ overflows (ofDigits 10 (whole ++ fraction)) scale then some rest else none

end Depot.Toml
