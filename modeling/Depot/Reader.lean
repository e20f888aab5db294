import Depot.Content

/-! # Readers

A reader delivers pieces of content in order. A piece that holds no bytes delivers nothing and is
no end; a failure fails one read; the end of the list is the end of the content.
-/

namespace Depot

inductive BreakKind where
  | reset
  | aborted
  | brokenPipe
  | unexpectedEnd
  | interrupted
  | other
  deriving DecidableEq, Repr

inductive BodyError where
  | tooLarge
  | broken
  deriving DecidableEq, Repr

inductive FormError where
  | body (cause : BodyError)
  | incomplete
  | headers
  deriving DecidableEq, Repr

inductive ReadError where
  | stream (kind : BreakKind) (message : String)
  | form (cause : FormError)
  deriving DecidableEq, Repr

inductive Piece where
  | data (bytes : ByteArray)
  | failure (error : ReadError)
  deriving DecidableEq

def Piece.isInterruption : Piece → Bool
  | .failure (.stream .interrupted _) => true
  | _ => false

abbrev Reader := List Piece

namespace Reader

def ofBytes (bytes : ByteArray) : Reader := [.data bytes]

def available : Reader → ByteArray
  | [] => .empty
  | .data bytes :: rest => bytes ++ available rest
  | .failure _ :: _ => .empty

def failure? : Reader → Option ReadError
  | [] => none
  | .data _ :: rest => failure? rest
  | .failure error :: _ => some error

/-- What the reader delivers to someone who tries interrupted reads again. -/
def uninterrupted (reader : Reader) : Reader := reader.filter fun piece => ¬ piece.isInterruption

inductive Bounded where
  | complete (bytes : ByteArray)
  | tooLong
  deriving DecidableEq

/-- Reads on with room for so many more bytes, which is never none. -/
def readWithin (room : Nat) (read : ByteArray) : Reader → Except ReadError Bounded × Reader
  | [] => (.ok (.complete read), [])
  | .failure (.stream .interrupted _) :: rest => readWithin room read rest
  | .failure error :: rest => (.error error, rest)
  | .data bytes :: rest =>
    if room ≤ bytes.size then (.ok .tooLong, .data (bytes.extract room bytes.size) :: rest)
    else readWithin (room - bytes.size) (read ++ bytes) rest

/-- Reads everything unless that reaches the ceiling. Content of exactly the ceiling's size is too
long, nothing behind the ceiling is read, and a ceiling of zero reads nothing at all. Interrupted
reads are tried again. -/
def readBounded (ceiling : Nat) (reader : Reader) : Except ReadError Bounded × Reader :=
  if ceiling = 0 then (.ok .tooLong, reader) else readWithin ceiling .empty reader

end Reader

end Depot
