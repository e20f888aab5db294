import Depot.Text.Hex
import Depot.Text.Reading

/-! # Texts in TOML

Texts stand between quotes. Between double quotes a backslash escapes, between single quotes nothing
does. Three quotes of a kind hold texts of several lines: a line end right behind them is dropped,
line ends inside are single line feeds, a backslash at the end of a line takes all blanks and line
ends behind it away, and up to two quotes may stand in front of the closing three.
-/

namespace Depot.Toml

open Text (Reading)

def isBlank (c : Char) : Bool := c = ' ' || c = '\t'

def dropBlanks (text : List Char) : List Char := text.dropWhile isBlank

/-- Anything but controls; a tab is no control. -/
def isPlain (c : Char) : Bool := c = '\t' || (0x20 ≤ c.toNat && c.toNat ≠ 0x7f)

def lineEnd? : List Char → Option (List Char)
  | '\n' :: rest => some rest
  | '\r' :: '\n' :: rest => some rest
  | _ => none

def dropLines : List Char → List Char
  | '\n' :: rest => dropLines rest
  | '\r' :: '\n' :: rest => dropLines rest
  | c :: rest => if isBlank c then dropLines rest else c :: rest
  | [] => []

def readCodePoint (digits : Nat) (text : List Char) : Reading Char :=
  match Hex.toNat? (text.take digits) with
  | some n =>
    if (text.take digits).length = digits ∧ n.isValidChar then
      some (Char.ofNat n, text.drop digits)
    else none
  | none => none

def readEscape : List Char → Reading Char
  | 'b' :: rest => some ('\x08', rest)
  | 't' :: rest => some ('\t', rest)
  | 'n' :: rest => some ('\n', rest)
  | 'f' :: rest => some ('\x0c', rest)
  | 'r' :: rest => some ('\r', rest)
  | '\"' :: rest => some ('\"', rest)
  | '\\' :: rest => some ('\\', rest)
  | 'u' :: rest => readCodePoint 4 rest
  | 'U' :: rest => readCodePoint 8 rest
  | _ => none

/-- A text up to its closing quote, of at most so many characters. -/
def readQuoted (quote : Char) (read : List Char) : Nat → List Char → Reading String
  | 0, _ | _, [] => none
  | fuel + 1, c :: rest =>
    if c = quote then some (String.ofList read.reverse, rest)
    else if quote = '\"' ∧ c = '\\' then
      match readEscape rest with
      | none => none
      | some (escaped, rest) => readQuoted quote (escaped :: read) fuel rest
    else if isPlain c then readQuoted quote (c :: read) fuel rest
    else none

/-- A text of several lines up to its three closing quotes. -/
def readLines (quote : Char) (read : List Char) : Nat → List Char → Reading String
  | 0, _ | _, [] => none
  | fuel + 1, c :: rest =>
    if c = quote then
      let quotes := c :: rest.takeWhile (· = quote)
      if quotes.length < 3 then
        readLines quote (quotes ++ read) fuel (rest.drop (quotes.length - 1))
      else
        let kept := quotes.take (min (quotes.length - 3) 2)
        some (String.ofList (kept ++ read).reverse, rest.drop (kept.length + 2))
    else if quote = '\"' ∧ c = '\\' then
      match lineEnd? (dropBlanks rest) with
      | some rest => readLines quote read fuel (dropLines rest)
      | none =>
        match readEscape rest with
        | none => none
        | some (escaped, rest) => readLines quote (escaped :: read) fuel rest
    else
      match lineEnd? (c :: rest) with
      | some rest => readLines quote ('\n' :: read) fuel rest
      | none => if isPlain c then readLines quote (c :: read) fuel rest else none

def readLineText : List Char → Reading String
  | '\"' :: rest => readQuoted '\"' [] rest.length rest
  | '\'' :: rest => readQuoted '\'' [] rest.length rest
  | _ => none

def readText : List Char → Reading String
  | '\"' :: '\"' :: '\"' :: rest =>
    readLines '\"' [] (rest.length + 1) ((lineEnd? rest).getD rest)
  | '\'' :: '\'' :: '\'' :: rest =>
    readLines '\'' [] (rest.length + 1) ((lineEnd? rest).getD rest)
  | text => readLineText text

end Depot.Toml
