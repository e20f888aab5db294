import Depot.Artifact
import Depot.Json.Decoder

/-! # Limits

How large the parts of a request may be, and how large the frames are that uploads are relayed in.
-/

namespace Depot

structure Limits where
  /-- For each of source, author and name; a field of exactly this size is too large. -/
  fieldMaxSize : Nat := 10 * 1024
  /-- For all tags of an upload together. -/
  tagBudget : Nat := 10 * 1024
  chunkSize : Nat := maxFrameSize
  /-- For a whole request body; none is as large as it likes. -/
  maxBodySize : Option Nat := none
  /-- For the input of a manifest, both encoded and decoded. -/
  manifestInputMax : Nat := 500 * 1024 * 1024
  deriving DecidableEq, Repr

inductive LimitsError where
  | zeroChunkSize
  deriving DecidableEq, Repr

def LimitsError.message : LimitsError → String
  | .zeroChunkSize => "limits.chunk-size must be greater than zero"

namespace Limits

/-- Refuses empty frames and brings frames down to the size that is put on the wire. -/
def validate (limits : Limits) : Except LimitsError Limits :=
  if limits.chunkSize = 0 then .error .zeroChunkSize
  else .ok { limits with chunkSize := min limits.chunkSize maxFrameSize }

open Json (Decoder DecodeError)

/-- The limits that have been read. The limit of a body may be read as not set. -/
structure Draft where
  fieldMaxSize : Option Nat := none
  tagBudget : Option Nat := none
  chunkSize : Option Nat := none
  maxBodySize : Option (Option Nat) := none
  manifestInputMax : Option Nat := none

def Draft.finish (d : Draft) : Limits :=
  let usual : Limits := {}
  { fieldMaxSize := d.fieldMaxSize.getD usual.fieldMaxSize
    tagBudget := d.tagBudget.getD usual.tagBudget
    chunkSize := d.chunkSize.getD usual.chunkSize
    maxBodySize := d.maxBodySize.getD usual.maxBodySize
    manifestInputMax := d.manifestInputMax.getD usual.manifestInputMax }

def sizeField {ε : Type} (key : String) (get : Draft → Option Nat) (set : Draft → Nat → Draft) :
    Decoder.Field ε Draft where
  key := key
  isRead d := (get d).isSome
  read d tokens := (Decoder.word tokens).map fun (n, rest) => (set d n, rest)

def decoder {ε : Type} : Decoder ε Limits :=
  Decoder.record [
    sizeField "field-max-size" Draft.fieldMaxSize fun d n => { d with fieldMaxSize := some n },
    sizeField "tag-budget" Draft.tagBudget fun d n => { d with tagBudget := some n },
    sizeField "chunk-size" Draft.chunkSize fun d n => { d with chunkSize := some n },
    { key := "max-body-size"
      isRead := fun d => d.maxBodySize.isSome
      read := fun d tokens => (Decoder.optional Decoder.word tokens).map fun (n, rest) =>
        ({ d with maxBodySize := some n }, rest) },
    sizeField "manifest-input-max" Draft.manifestInputMax
      fun d n => { d with manifestInputMax := some n }] 0 {} fun d => .ok d.finish

end Limits

end Depot
