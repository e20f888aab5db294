import Depot.Toml.Document
import Depot.Toml.Moment
import Depot.Toml.Number
import Depot.Toml.Text

/-! # Reading TOML

A document is read line by line: comments, headers, and values under dotted keys. Arrays may run
over several lines and hold comments; tables between braces stay on their line.
-/

namespace Depot.Toml

open Text (Reading readMark readWord)

/-- How many names a dotted key may have at most, and how deep arrays and tables between braces may
nest. -/
def maxDepth : Nat := 79

def dropComment : List Char → List Char
  | '#' :: rest => rest.dropWhile isPlain
  | text => text

/-- The text behind the end of a line, blanks and a comment in front of it allowed. The document may
end there too. -/
def readLineEnd (text : List Char) : Option (List Char) :=
  match dropComment (dropBlanks text) with
  | [] => some []
  | rest => lineEnd? rest

/-- Drops blanks, line ends and comments that end in a line end; at most so many. -/
def dropSpace : Nat → List Char → List Char
  | 0, text => text
  | fuel + 1, text =>
    let text := dropBlanks text
    match lineEnd? (dropComment text) with
    | some rest => dropSpace fuel rest
    | none => text

def isBareKeyChar (c : Char) : Bool := c.isAlphanum || c = '_' || c = '-'

def readName (text : List Char) : Reading String :=
  match text with
  | '\"' :: _ | '\'' :: _ => readLineText text
  | _ =>
    match text.takeWhile isBareKeyChar with
    | [] => none
    | name => some (String.ofList name, text.dropWhile isBareKeyChar)

/-- Names with points between them, blanks around each allowed; at most so many. -/
def readNames : Nat → List Char → Option (List String × List Char)
  | 0, _ => none
  | fuel + 1, text => do
    let (name, rest) ← readName (dropBlanks text)
    match dropBlanks rest with
    | '.' :: rest =>
      let (names, rest) ← readNames fuel rest
      some (name :: names, rest)
    | rest => some ([name], rest)

def Key.ofNames? (names : List String) : Option Key :=
  names.getLast?.map fun name => ⟨names.dropLast, name⟩

def readKey (text : List Char) : Option (Key × List Char) := do
  let (names, rest) ← readNames maxDepth text
  let key ← Key.ofNames? names
  some (key, rest)

def readScalar (text : List Char) : Reading Value :=
  if startsMoment text then (readMoment text).map (.moment, ·)
  else
    match readFloat text with
    | some rest => some (.float, rest)
    | none => (readInteger text).map fun (n, rest) => (.integer n, rest)

mutual

/-- A value that starts at the front of the text, inside of which so many levels may open. -/
def readValue : Nat → Nat → List Char → Option (Value × List Char)
  | 0, _, _ => none
  | fuel + 1, depth, text =>
    match text with
    | '\"' :: _ | '\'' :: _ => (readText text).map fun (text, rest) => (.string text, rest)
    | '[' :: rest =>
      match depth with
      | 0 => none
      | depth + 1 =>
        (readItems fuel depth [] rest).map fun (items, rest) => (.array items, rest)
    | '{' :: rest =>
      match depth with
      | 0 => none
      | depth + 1 => do
        let (lines, rest) ← match dropBlanks rest with
          | '}' :: rest => some ([], rest)
          | rest => readPairs fuel depth [] rest
        let entries ← Entries.insertAll [] lines
        some (.table .braces entries, rest)
    | 't' :: _ => (readWord "true" text).map (.boolean true, ·)
    | 'f' :: _ => (readWord "false" text).map (.boolean false, ·)
    | c :: _ =>
      if c = '+' ∨ c = '-' ∨ c = 'i' ∨ c = 'n' ∨ Decimal.isDigit c then readScalar text else none
    | [] => none

/-- Items up to the closing bracket, a comma behind the last allowed; those before them are given in
reverse. -/
def readItems : Nat → Nat → List Value → List Char → Option (List Value × List Char)
  | 0, _, _, _ => none
  | fuel + 1, depth, items, text =>
    match dropSpace text.length text with
    | ']' :: rest => some (items.reverse, rest)
    | text => do
      let (item, rest) ← readValue fuel depth text
      match dropSpace rest.length rest with
      | ',' :: rest => readItems fuel depth (item :: items) rest
      | ']' :: rest => some ((item :: items).reverse, rest)
      | _ => none

/-- Keys and values up to the closing brace, at least one; those before them are given in
reverse. -/
def readPairs : Nat → Nat → List (Key × Value) → List Char →
    Option (List (Key × Value) × List Char)
  | 0, _, _, _ => none
  | fuel + 1, depth, lines, text => do
    let (key, rest) ← readKey text
    let rest ← readMark '=' rest
    let (value, rest) ← readValue fuel depth (dropBlanks rest)
    let lines := (key, value) :: lines
    match dropBlanks rest with
    | ',' :: rest => readPairs fuel depth lines rest
    | '}' :: rest => some (lines.reverse, rest)
    | _ => none

end

def readLine (text : List Char) : Option ((Key × Value) × List Char) := do
  let (key, rest) ← readKey text
  let rest ← readMark '=' rest
  let (value, rest) ← readValue (2 * rest.length + 2) maxDepth (dropBlanks rest)
  let rest ← readLineEnd rest
  some ((key, value), rest)

/-- The key of a header and whether the header repeats. -/
def readHeader (text : List Char) : Option ((Key × Bool) × List Char) := do
  match text with
  | '[' :: '[' :: rest =>
    let (key, rest) ← readKey rest
    let rest ← readLineEnd (← readMark ']' (← readMark ']' rest))
    some ((key, true), rest)
  | _ =>
    let (key, rest) ← readKey (← readMark '[' text)
    let rest ← readLineEnd (← readMark ']' rest)
    some ((key, false), rest)

/-- The lines at the front of a text up to a header or the end, at most so many; those before them
are given in reverse. -/
def readLines? : Nat → List (Key × Value) → List Char →
    Option (List (Key × Value) × List Char)
  | 0, _, _ => none
  | fuel + 1, lines, text =>
    match dropBlanks text with
    | [] => some (lines.reverse, [])
    | '[' :: rest => some (lines.reverse, '[' :: rest)
    | '#' :: rest => (readLineEnd ('#' :: rest)).bind (readLines? fuel lines)
    | text =>
      match lineEnd? text with
      | some rest => readLines? fuel lines rest
      | none => do
        let (line, rest) ← readLine text
        readLines? fuel (line :: lines) rest

def readSections? : Nat → List Section → List Char → Option (List Section)
  | _, sections, [] => some sections.reverse
  | 0, _, _ => none
  | fuel + 1, sections, text => do
    let ((key, repeats), rest) ← readHeader text
    let (lines, rest) ← readLines? (rest.length + 1) [] rest
    readSections? fuel (⟨key, repeats, lines⟩ :: sections) rest

/-- The document that a text writes. A byte order mark in front of it is no part of it. -/
def Document.parse? (text : String) : Option Document := do
  let chars := match text.toList with
    | '\ufeff' :: rest => rest
    | chars => chars
  let (lines, rest) ← readLines? (chars.length + 1) [] chars
  let sections ← readSections? rest.length [] rest
  some ⟨lines, sections⟩

def parse? (text : String) : Option Entries := (Document.parse? text).bind Document.entries?

end Depot.Toml
