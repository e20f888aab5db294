import Depot.Text.Blank
import Depot.Text.Decimal
import Depot.Text.Reading
import Depot.Time.Calendar

/-! # Timestamps

Instants with nanoseconds, written and read as RFC 3339 texts. A leap second is a second of more
than a thousand million nanoseconds. Writing uses universal time and as few fractional digits, in
groups of three, as are exact; reading takes any offset and is lenient about blanks and about how
many digits a field has.
-/

namespace Depot

/-- Seconds since 1970-01-01T00:00:00Z, and the nanoseconds that have passed in that second. -/
structure Timestamp where
  seconds : Int
  nanos : Nat
  deriving DecidableEq, Repr

namespace Timestamp

/-- Years outside of four digits carry a sign. -/
def yearText (year : Int) : String :=
  if 0 ≤ year ∧ year ≤ 9999 then Decimal.padded 4 year.toNat
  else if year < 0 then "-" ++ Decimal.padded 4 year.natAbs
  else "+" ++ Decimal.padded 4 year.toNat

def fractionText (nanos : Nat) : String :=
  if nanos = 0 then ""
  else if nanos % 1000000 = 0 then "." ++ Decimal.padded 3 (nanos / 1000000)
  else if nanos % 1000 = 0 then "." ++ Decimal.padded 6 (nanos / 1000)
  else "." ++ Decimal.padded 9 nanos

def text (t : Timestamp) : String :=
  let date := Date.ofDays (t.seconds / 86400)
  let time := (t.seconds % 86400).toNat
  let leap := if t.nanos < 1000000000 then 0 else 1
  yearText date.year ++ "-" ++ Decimal.padded 2 date.month ++ "-" ++ Decimal.padded 2 date.day ++
    "T" ++ Decimal.padded 2 (time / 3600) ++ ":" ++ Decimal.padded 2 (time / 60 % 60) ++
    ":" ++ Decimal.padded 2 (time % 60 + leap) ++
    fractionText (t.nanos - leap * 1000000000) ++ "Z"

open Text (Reading)

/-- A number of at least one digit, at most so many, blanks before it allowed. -/
def readNumber (width : Nat) (text : List Char) : Reading Nat :=
  match Decimal.takeDigits width (Text.dropBlanks text) with
  | ([], _) => none
  | (digits, rest) => some (Decimal.ofDigits digits, rest)

/-- A year has at most four digits unless it carries a sign. -/
def readYear (text : List Char) : Reading Int :=
  match Text.dropBlanks text with
  | '-' :: rest => signed (-1) rest
  | '+' :: rest => signed 1 rest
  | unsigned => (readNumber 4 unsigned).map fun (n, rest) => ((n : Int), rest)
where
  signed (sign : Int) (text : List Char) : Reading Int :=
    match Decimal.takeDigits text.length text with
    | ([], _) => none
    | (digits, rest) => some (sign * (Decimal.ofDigits digits : Int), rest)

def readMark (mark : Char) (text : List Char) : Option (List Char) :=
  match Text.dropBlanks text with
  | [] => none
  | c :: rest => if c = mark then some rest else none

/-- Nanoseconds behind a point, zero without one; digits beyond the ninth are dropped. -/
def readFraction : List Char → Reading Nat
  | '.' :: rest =>
    match Decimal.takeDigits 9 rest with
    | ([], _) => none
    | (digits, rest) =>
      let nanos := Decimal.ofDigits digits * Nat.pow 10 (9 - digits.length)
      some (nanos, rest.dropWhile Decimal.isDigit)
  | text => some (0, text)

def readTwoDigits (text : List Char) : Reading Nat :=
  match Decimal.takeDigits 2 text with
  | (digits, rest) => if digits.length = 2 then some (Decimal.ofDigits digits, rest) else none

/-- Seconds east of universal time. Blanks and colons may stand between hours and minutes. -/
def readOffset (text : List Char) : Reading Int :=
  match text with
  | [] => none
  | c :: rest =>
    if (text.take 3).map Char.toUpper = ['U', 'T', 'C'] then some (0, text.drop 3)
    else if c = 'Z' ∨ c = 'z' then some (0, rest)
    else if c = '+' then hoursMinutes 1 rest
    else if c = '-' ∨ c = '\u2212' then hoursMinutes (-1) rest
    else none
where
  hoursMinutes (sign : Int) (text : List Char) : Option (Int × List Char) := do
    let (hours, rest) ← readTwoDigits text
    let (minutes, rest) ← readTwoDigits (rest.dropWhile fun c => c = ':' || Text.isBlank c)
    let seconds : Nat := 3600 * hours + 60 * minutes
    if minutes < 60 ∧ hours < 24 then some (sign * (seconds : Int), rest) else none

def yearRange (year : Int) : Bool := -262143 ≤ year && year ≤ 262142

def ofLocal (date : Date) (hour minute second nanos : Nat) (offset : Int) : Option Timestamp :=
  let leap : Nat := if second = 60 then 1 else 0
  let seconds : Int := date.toDays * 86400 + 3600 * hour + 60 * minute + second - leap - offset
  if yearRange date.year ∧ date.IsValid ∧ hour < 24 ∧ minute < 60 ∧ second ≤ 60 ∧
      yearRange (Date.ofDays (seconds / 86400)).year then
    some ⟨seconds, nanos + leap * 1000000000⟩
  else none

/-- A date, `T` or a blank, a time of day and an offset, and nothing but blanks after them. -/
def parse? (text : String) : Option Timestamp := do
  let (year, rest) ← readYear text.toList
  let (month, rest) ← readNumber 2 (← readMark '-' rest)
  let (day, rest) ← readNumber 2 (← readMark '-' rest)
  let rest ← match rest with
    | 'T' :: rest | 't' :: rest | ' ' :: rest => some rest
    | _ => none
  let (hour, rest) ← readNumber 2 rest
  let (minute, rest) ← readNumber 2 (← readMark ':' rest)
  let (second, rest) ← readNumber 2 (← readMark ':' rest)
  let (nanos, rest) ← readFraction rest
  let (offset, rest) ← readOffset (Text.dropBlanks rest)
  if (Text.dropBlanks rest).isEmpty then
    ofLocal ⟨year, month, day⟩ hour minute second nanos offset
  else none

end Timestamp

end Depot
