import Depot.Text.Decimal
import Depot.Text.Reading
import Depot.Time.Calendar

/-! # Dates and times in TOML

A date, a time of day, or both with perhaps an offset. Only whether they exist is of interest here.
What begins like a date or a time is one or makes no sense.
-/

namespace Depot.Toml

open Text (Reading readMark)

def readFixed (width : Nat) (text : List Char) : Reading Nat :=
  match Decimal.takeDigits width text with
  | (digits, rest) => if digits.length = width then some (Decimal.ofDigits digits, rest) else none

def readRange (low high : Nat) (text : List Char) : Reading Nat :=
  (readFixed 2 text).filter fun (n, _) => low ≤ n && n ≤ high

def startsDate (text : List Char) : Bool :=
  match readFixed 4 text with
  | some (_, '-' :: _) => true
  | _ => false

def startsTime (text : List Char) : Bool :=
  match readRange 0 23 text with
  | some (_, ':' :: _) => true
  | _ => false

def readDate (text : List Char) : Option (List Char) := do
  let (year, rest) ← readFixed 4 text
  let (month, rest) ← readRange 1 12 (← readMark '-' rest)
  let (day, rest) ← readRange 1 31 (← readMark '-' rest)
  if Date.IsValid ⟨year, month, day⟩ then some rest else none

/-- The text behind a time of day; its fraction is read if it has a digit. -/
def readTime (text : List Char) : Option (List Char) := do
  let (_, rest) ← readRange 0 23 text
  let (_, rest) ← readRange 0 59 (← readMark ':' rest)
  let (_, rest) ← readRange 0 60 (← readMark ':' rest)
  match rest with
  | '.' :: c :: fraction =>
    if Decimal.isDigit c then some (fraction.dropWhile Decimal.isDigit) else some rest
  | _ => some rest

/-- The text behind an offset, which need not be there. -/
def readOffset (text : List Char) : Option (List Char) :=
  match text with
  | 'Z' :: rest | 'z' :: rest => some rest
  | '+' :: rest | '-' :: rest => do
    let (_, rest) ← readRange 0 23 rest
    let (_, rest) ← readRange 0 59 (← readMark ':' rest)
    some rest
  | text => some text

def readDateTime (text : List Char) : Option (List Char) :=
  match text with
  | c :: rest =>
    if (c = 'T' ∨ c = 't' ∨ c = ' ') ∧ startsTime rest then (readTime rest).bind readOffset
    else some text
  | [] => some text

/-- The text behind a date, a time or both. -/
def readMoment (text : List Char) : Option (List Char) :=
  if startsDate text then (readDate text).bind readDateTime else readTime text

def startsMoment (text : List Char) : Bool := startsDate text || startsTime text

end Depot.Toml
