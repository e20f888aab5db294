import Depot.Http.Token
import Depot.Reader

/-! # Multipart forms

A form is the list of its parts, each a name and a reader of its content, and what happens when a
part is asked for behind the last. A body that is cut off or garbled is a form that fails there.

Parts stand between boundary lines. What stands before the first boundary is ignored.
-/

namespace Depot

structure Part where
  /-- Empty if the part has none. -/
  name : String
  content : Reader
  deriving DecidableEq

structure Form where
  parts : List Part := []
  ending : Except FormError Unit := .ok ()

namespace Form

def failing (error : FormError) : Form := { ending := .error error }

/-- So many bytes of the text stand in the body at the given positions. -/
def matchesFrom (body text : ByteArray) : Nat → Nat → Nat → Bool
  | 0, _, _ => true
  | n + 1, i, j => body[i]? == text[j]? && matchesFrom body text n (i + 1) (j + 1)

/-- The first position of a text among so many positions from the given one on. -/
def findFrom (body text : ByteArray) : Nat → Nat → Option Nat
  | 0, _ => none
  | n + 1, i =>
    if matchesFrom body text text.size i 0 then some i else findFrom body text n (i + 1)

def find? (body text : ByteArray) (start : Nat) : Option Nat :=
  findFrom body text (body.size + 1 - text.size - start) start

def isBlank (b : UInt8) : Bool := b == 0x20 || b == 0x09

/-- The first position at the given one or behind it that holds no blank; at most so many are
passed. -/
def skipBlanks (body : ByteArray) : Nat → Nat → Nat
  | 0, i => i
  | n + 1, i => if body[i]?.any isBlank then skipBlanks body n (i + 1) else i

abbrev Header := String × List UInt8

def isHeaderValue (b : UInt8) : Bool := b == 0x09 || (0x20 ≤ b && b != 0x7f)

def isNameByte (b : UInt8) : Bool := b < 0x80 && Http.isTokenChar (Char.ofUInt8 b)

def trimRight (bytes : List UInt8) : List UInt8 :=
  (bytes.reverse.dropWhile isBlank).reverse

def maxHeaders : Nat := 32

/-- The headers of a part up to the empty line; at most so many. Names are given in lowercase. -/
def headers? : Nat → List UInt8 → Option (List Header)
  | _, 0x0d :: 0x0a :: _ => some []
  | _, 0x0a :: _ => some []
  | 0, _ => none
  | n + 1, bytes =>
    let name := bytes.takeWhile isNameByte
    match name, bytes.dropWhile isNameByte with
    | _ :: _, 0x3a :: rest =>
      let rest := rest.dropWhile isBlank
      let value := trimRight (rest.takeWhile isHeaderValue)
      let header := (String.ofList (name.map fun b => (Char.ofUInt8 b).toLower), value)
      match rest.dropWhile isHeaderValue with
      | 0x0d :: 0x0a :: rest => (headers? n rest).map (header :: ·)
      | 0x0a :: rest => (headers? n rest).map (header :: ·)
      | _ => none
    | _, _ => none

def isSpace (b : UInt8) : Bool :=
  b == 0x20 || b == 0x09 || b == 0x0a || b == 0x0c || b == 0x0d

/-- What stands behind the first `name` that begins a word; a word begins the text or stands behind
a space or a semicolon. -/
def behindName (previous : Option UInt8) : List UInt8 → Option (List UInt8)
  | [] => none
  | 0x6e :: 0x61 :: 0x6d :: 0x65 :: rest =>
    if previous.all fun b => isSpace b || b == 0x3b then some rest else behindName none rest
  | b :: rest => behindName (some b) rest

/-- The value up to a quote with no backslash before it, and whether one before it had. -/
def quotedValue (value : List UInt8) (escaped : Bool) : List UInt8 → Option (List UInt8 × Bool)
  | [] => none
  | b :: rest =>
    if b = 0x22 then
      if value.head? = some 0x5c then quotedValue (b :: value) true rest
      else some (value.reverse, escaped)
    else quotedValue (b :: value) escaped rest

def unescapeQuotes : List UInt8 → List UInt8
  | 0x5c :: 0x22 :: rest => 0x22 :: unescapeQuotes rest
  | b :: rest => b :: unescapeQuotes rest
  | [] => []

def dispositionName? (disposition : List UInt8) : Option String := do
  let rest ← behindName none disposition
  match rest.dropWhile isSpace with
  | 0x3d :: rest =>
    match rest.dropWhile isSpace with
    | 0x22 :: rest =>
      let (value, escaped) ← quotedValue [] false rest
      let text ← String.fromUTF8? value.toByteArray
      if escaped then String.fromUTF8? (unescapeQuotes text.toUTF8.data.toList).toByteArray
      else some text
    | rest =>
      String.fromUTF8? (rest.takeWhile fun b => b ≠ 0x3b && b ≠ 0x20).toByteArray
  | _ => none

/-- The last content disposition counts. -/
def partName (headers : List Header) : String :=
  match headers.reverse.find? fun header => header.1 = "content-disposition" with
  | none => ""
  | some (_, disposition) => (dispositionName? disposition).getD ""

def crlf : ByteArray := [0x0d, 0x0a].toByteArray

def dashes : ByteArray := [0x2d, 0x2d].toByteArray

/-- The parts from a boundary line on, which starts at the given position; at most so many. -/
def partsFrom (body delimiter : ByteArray) : Nat → Nat → Form
  | 0, _ => failing .incomplete
  | fuel + 1, start =>
    let behind := start + delimiter.size
    if matchesFrom body dashes 2 behind 0 then {}
    else
      let lineEnd := skipBlanks body (body.size - behind) behind
      if ¬ matchesFrom body crlf 2 lineEnd 0 then failing .incomplete
      else
        match find? body (crlf ++ crlf) (lineEnd + 2) with
        | none => failing .incomplete
        | some headersEnd =>
          let headerBytes := (body.extract (lineEnd + 2) (headersEnd + 4)).data.toList
          match headers? maxHeaders headerBytes with
          | none => failing .headers
          | some headers =>
            let name := partName headers
            match find? body (crlf ++ delimiter) (headersEnd + 4) with
            | none =>
              { parts := [⟨name, [.failure (.form .incomplete)]⟩], ending := .error .incomplete }
            | some contentEnd =>
              let content := body.extract (headersEnd + 4) contentEnd
              let rest := partsFrom body delimiter fuel (contentEnd + 2)
              { rest with parts := ⟨name, Reader.ofBytes content⟩ :: rest.parts }

def parse (boundary : String) (body : ByteArray) : Form :=
  let delimiter := dashes ++ boundary.toUTF8
  match find? body delimiter 0 with
  | none => failing .incomplete
  | some start => partsFrom body delimiter (body.size + 1) start

end Form

end Depot
