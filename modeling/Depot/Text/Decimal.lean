/-! # Decimal text
-/

namespace Depot.Decimal

def value? (c : Char) : Option Nat :=
  if '0' ≤ c ∧ c ≤ '9' then some (c.toNat - '0'.toNat) else none

def isDigit (c : Char) : Bool := (value? c).isSome

/-- The number that a run of digits writes; other characters count as zero. -/
def ofDigits (digits : List Char) : Nat :=
  digits.foldl (fun n c => 10 * n + (value? c).getD 0) 0

/-- At least so many digits, zeros in front. -/
def padded (width n : Nat) : String :=
  let digits := toString n
  String.ofList (List.replicate (width - digits.length) '0') ++ digits

/-- The digits at the front of a text, at most so many, and what follows them. -/
def takeDigits : Nat → List Char → List Char × List Char
  | 0, text => ([], text)
  | _ + 1, [] => ([], [])
  | n + 1, c :: rest =>
    if isDigit c then
      let (digits, rest) := takeDigits n rest
      (c :: digits, rest)
    else ([], c :: rest)

end Depot.Decimal
