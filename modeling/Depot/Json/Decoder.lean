import Depot.Json.Token

/-! # Decoders

A decoder reads one value off the front of the tokens. It stops at the first problem: tokens that
are not the value asked for, or a value that its type refuses for a cause of its own.

`record` reads values with named fields, written as an object or as an array of all fields in
order. Objects may have further members; these are skipped without any limit on their depth. A
member that is repeated is a problem unless it is skipped.
-/

namespace Depot.Json

inductive DecodeError (ε : Type) where
  | shape
  | refused (cause : ε)
  deriving DecidableEq, Repr

abbrev Decoder (ε α : Type) := List Token → Except (DecodeError ε) (α × List Token)

namespace Decoder

variable {ε α σ : Type}

def string : Decoder ε String
  | .string (some text) :: rest => .ok (text, rest)
  | _ => .error .shape

def wordBound : Nat := 0x10000000000000000

def word : Decoder ε Nat
  | .number literal :: rest =>
    match literal.toNat? with
    | some n => if n < wordBound then .ok (n, rest) else .error .shape
    | none => .error .shape
  | _ => .error .shape

def optional (value : Decoder ε α) : Decoder ε (Option α)
  | .null :: rest => .ok (none, rest)
  | tokens => (value tokens).map fun (a, rest) => (some a, rest)

def checked (value : Decoder ε α) (check : α → Except (DecodeError ε) σ) : Decoder ε σ :=
  fun tokens =>
    match value tokens with
    | .error e => .error e
    | .ok (a, rest) => (check a).map fun b => (b, rest)

/-- Items up to the closing bracket, the first of them next; at most so many. -/
def items (item : Decoder ε α) : Nat → List α → Decoder ε (List α)
  | 0, _, _ => .error .shape
  | fuel + 1, read, tokens =>
    match item tokens with
    | .error e => .error e
    | .ok (a, .comma :: rest) => items item fuel (a :: read) rest
    | .ok (a, .rightBracket :: rest) => .ok ((a :: read).reverse, rest)
    | .ok _ => .error .shape

def list (item : Decoder ε α) : Decoder ε (List α)
  | .leftBracket :: .rightBracket :: rest => .ok ([], rest)
  | .leftBracket :: rest => items item rest.length [] rest
  | _ => .error .shape

/-- What skipping waits for. After an opening bracket or brace it may close at once. -/
inductive Awaited where
  | value
  | itemOrEnd
  | key
  | keyOrEnd
  | colon
  | separator
  deriving DecidableEq, Repr

/-- Skips to the end of a value inside so many open objects (true) and arrays (false). -/
def skipFrom : List Bool → Awaited → List Token → Option (List Token)
  | [], .separator, tokens => some tokens
  | _, _, [] => none
  | enclosing, awaited, token :: rest =>
    match awaited, token, enclosing with
    | .value, .leftBrace, _ | .itemOrEnd, .leftBrace, _ =>
      skipFrom (true :: enclosing) .keyOrEnd rest
    | .value, .leftBracket, _ | .itemOrEnd, .leftBracket, _ =>
      skipFrom (false :: enclosing) .itemOrEnd rest
    | .itemOrEnd, .rightBracket, false :: outer => skipFrom outer .separator rest
    | .value, .null, _ | .itemOrEnd, .null, _ | .value, .bool _, _ | .itemOrEnd, .bool _, _
    | .value, .number _, _ | .itemOrEnd, .number _, _
    | .value, .string _, _ | .itemOrEnd, .string _, _ => skipFrom enclosing .separator rest
    | .keyOrEnd, .rightBrace, true :: outer => skipFrom outer .separator rest
    | .key, .string _, _ | .keyOrEnd, .string _, _ => skipFrom enclosing .colon rest
    | .colon, .colon, _ => skipFrom enclosing .value rest
    | .separator, .comma, false :: _ => skipFrom enclosing .value rest
    | .separator, .comma, true :: _ => skipFrom enclosing .key rest
    | .separator, .rightBracket, false :: outer => skipFrom outer .separator rest
    | .separator, .rightBrace, true :: outer => skipFrom outer .separator rest
    | _, _, _ => none

def skip : Decoder ε Unit := fun tokens =>
  match skipFrom [] .value tokens with
  | some rest => .ok ((), rest)
  | none => .error .shape

/-- A named field of a record that is read into `σ`. -/
structure Field (ε σ : Type) where
  key : String
  isRead : σ → Bool
  read : σ → Decoder ε σ

def member (fields : List (Field ε σ)) (key : String) (record : σ) : Decoder ε σ :=
  match fields.find? fun field => field.key = key with
  | none => fun tokens => (skip tokens).map fun (_, rest) => (record, rest)
  | some field => if field.isRead record then fun _ => .error .shape else field.read record

/-- Members up to the closing brace, the first of them next; at most so many. -/
def members (fields : List (Field ε σ)) : Nat → σ → Decoder ε σ
  | 0, _, _ => .error .shape
  | fuel + 1, record, .string (some key) :: .colon :: tokens =>
    match member fields key record tokens with
    | .error e => .error e
    | .ok (record, .comma :: rest) => members fields fuel record rest
    | .ok (record, .rightBrace :: rest) => .ok (record, rest)
    | .ok _ => .error .shape
  | _, _, _ => .error .shape

/-- Fields in order up to the closing bracket, all but the first behind a comma; the first so many
must be there. -/
def elements : Nat → Bool → List (Field ε σ) → σ → Decoder ε σ
  | 0, _, _, record, .rightBracket :: rest => .ok (record, rest)
  | required, true, field :: fields, record, tokens =>
    match field.read record tokens with
    | .error e => .error e
    | .ok (record, rest) => elements (required - 1) false fields record rest
  | required, false, field :: fields, record, .comma :: tokens =>
    match field.read record tokens with
    | .error e => .error e
    | .ok (record, rest) => elements (required - 1) false fields record rest
  | _, _, _, _, _ => .error .shape

/-- In the array form the first so many fields are required; in the object form `finish` decides
what may be missing. -/
def record (fields : List (Field ε σ)) (required : Nat) (start : σ)
    (finish : σ → Except (DecodeError ε) α) : Decoder ε α :=
  checked (fun tokens =>
    match tokens with
    | .leftBrace :: .rightBrace :: rest => .ok (start, rest)
    | .leftBrace :: rest => members fields rest.length start rest
    | .leftBracket :: rest => elements required true fields start rest
    | _ => .error .shape) finish

def Field.text (key : String) (get : σ → Option String) (set : σ → String → σ) : Field ε σ where
  key := key
  isRead record := (get record).isSome
  read record tokens := (string tokens).map fun (text, rest) => (set record text, rest)

def ofBytes (value : Decoder ε α) (text : List UInt8) : Except (DecodeError ε) α :=
  match value (Token.ofBytes text) with
  | .error e => .error e
  | .ok (a, []) => .ok a
  | .ok _ => .error .shape

end Decoder

end Depot.Json
