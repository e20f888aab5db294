import Depot.Json.Decoder

/-! # Values read as they come

A value of unknown shape is read into a tree. Numbers must lie in the range of double precision,
texts must be texts, and the nesting is bounded. Of members with one key the last one counts.
-/

namespace Depot

inductive Json where
  | null
  | bool (value : Bool)
  | number (literal : Json.Number)
  | string (text : String)
  | array (items : List Json)
  | object (members : List (String × Json))

namespace Json

def lookup (members : List (String × Json)) (key : String) : Option Json :=
  (members.reverse.find? fun entry => entry.1 = key).map (·.2)

def text? : Json → Option String
  | .string text => some text
  | _ => none

/-- How many objects and arrays may stand inside one another. -/
def maxDepth : Nat := 127

mutual

/-- The value next in the tokens, inside of which so many levels may open. -/
def read : Nat → Nat → List Token → Option (Json × List Token)
  | 0, _, _ => none
  | fuel + 1, depth, tokens =>
    match tokens with
    | .null :: rest => some (.null, rest)
    | .bool value :: rest => some (.bool value, rest)
    | .number literal :: rest =>
      if literal.isInfinite then none else some (.number literal, rest)
    | .string (some text) :: rest => some (.string text, rest)
    | .leftBracket :: rest =>
      match depth, rest with
      | 0, _ => none
      | _, .rightBracket :: rest => some (.array [], rest)
      | depth + 1, rest =>
        (readItems fuel depth [] rest).map fun (items, rest) => (.array items, rest)
    | .leftBrace :: rest =>
      match depth, rest with
      | 0, _ => none
      | _, .rightBrace :: rest => some (.object [], rest)
      | depth + 1, rest =>
        (readMembers fuel depth [] rest).map fun (members, rest) => (.object members, rest)
    | _ => none

/-- Items up to the closing bracket; those before them are given in reverse. -/
def readItems : Nat → Nat → List Json → List Token → Option (List Json × List Token)
  | 0, _, _, _ => none
  | fuel + 1, depth, items, tokens =>
    match read fuel depth tokens with
    | some (item, .comma :: rest) => readItems fuel depth (item :: items) rest
    | some (item, .rightBracket :: rest) => some ((item :: items).reverse, rest)
    | _ => none

def readMembers : Nat → Nat → List (String × Json) → List Token →
    Option (List (String × Json) × List Token)
  | 0, _, _, _ => none
  | fuel + 1, depth, members, tokens =>
    match tokens with
    | .string (some key) :: .colon :: rest =>
      match read fuel depth rest with
      | some (value, .comma :: rest) => readMembers fuel depth ((key, value) :: members) rest
      | some (value, .rightBrace :: rest) => some (((key, value) :: members).reverse, rest)
      | _ => none
    | _ => none

end

def decoder {ε : Type} (depth : Nat) : Decoder ε Json := fun tokens =>
  match read (2 * tokens.length + 2) depth tokens with
  | some result => .ok result
  | none => .error .shape

end Json

end Depot
