import Depot.Http.Token

/-! # Media types

A media type is `type/subtype`, the subtype perhaps with a suffix behind a plus sign, followed by
parameters. Types, subtypes and the names of parameters are the same in either case of letters.
-/

namespace Depot

structure MediaType where
  /-- In lowercase. -/
  type : String
  /-- In lowercase, without the suffix. -/
  subtype : String
  suffix : Option String
  /-- Names in lowercase, values as they are written, without quotes. -/
  parameters : List (String × String)
  deriving DecidableEq, Repr

namespace MediaType

def lower (text : List Char) : String := String.ofList (text.map Char.toLower)

def isQuotable (c : Char) : Bool := 0x1f < c.toNat && c.toNat < 0x7f

/-- A value between quotes, the opening one read, and what follows the closing one. A value has at
least one character, which may itself be a quote. -/
def cutQuoted (value : List Char) : List Char → Option (List Char × List Char)
  | [] => none
  | c :: rest =>
    if c = '\"' ∧ value ≠ [] then some (value.reverse, rest)
    else if isQuotable c then cutQuoted (c :: value) rest
    else none

/-- The parameters of a media type from behind a semicolon; at most so many. -/
def parameters? (read : List (String × String)) : Nat → List Char → Option (List (String × String))
  | 0, _ => none
  | fuel + 1, text =>
    match text.dropWhile (· = ' ') with
    | [] => some read.reverse
    | text =>
      let name := text.takeWhile Http.isTokenChar
      match name, text.dropWhile Http.isTokenChar with
      | _ :: _, '=' :: '\"' :: rest =>
        match cutQuoted [] rest with
        | none => none
        | some (value, rest) =>
          let read := (lower name, String.ofList value) :: read
          match rest.dropWhile (· = ' ') with
          | [] => some read.reverse
          | ';' :: rest => parameters? read fuel rest
          | _ => none
      | _ :: _, '=' :: rest =>
        let value := rest.takeWhile Http.isTokenChar
        let read := (lower name, String.ofList value) :: read
        match value, rest.dropWhile Http.isTokenChar with
        | _, [] => some read.reverse
        | _ :: _, ';' :: rest => parameters? read fuel rest
        | _, _ => none
      | _, _ => none

/-- Splits off what stands behind the last plus sign that is not the first character. -/
def splitSuffix (subtype : List Char) : List Char × Option (List Char) :=
  let suffix := (subtype.reverse.takeWhile (· ≠ '+')).reverse
  let stem := subtype.take (subtype.length - suffix.length - 1)
  if stem.isEmpty then (subtype, none) else (stem, some suffix)

def parse? (text : String) : Option MediaType :=
  let chars := text.toList
  let type := chars.takeWhile Http.isTokenChar
  match type, chars.dropWhile Http.isTokenChar with
  | _ :: _, '/' :: rest =>
    let subtype := rest.takeWhile Http.isTokenChar
    let (stem, suffix) := splitSuffix subtype
    let build (parameters : List (String × String)) : MediaType :=
      ⟨lower type, lower stem, suffix.map lower, parameters⟩
    match subtype, rest.dropWhile Http.isTokenChar with
    | _, [] => some (build [])
    | _ :: _, ';' :: rest => (parameters? [] chars.length rest).map build
    | _, _ => none
  | _, _ => none

def parameter? (m : MediaType) (name : String) : Option String :=
  (m.parameters.find? fun entry => entry.1 = name).map (·.2)

def isJson (m : MediaType) : Bool :=
  m.type = "application" && (m.subtype = "json" || m.suffix = some "json")

/-- The boundary between the parts of a form. It may be empty if it stands without quotes. -/
def formBoundary? (m : MediaType) : Option String :=
  if m.type = "multipart" && m.subtype = "form-data" then m.parameter? "boundary" else none

end MediaType

end Depot
