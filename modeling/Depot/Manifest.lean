import Depot.Gateway.Error
import Depot.Identifier.Parser
import Depot.Json.Value
import Depot.Text.Base64

/-! # Manifests

A manifest asks for work. Its kind says what its specification means; the one kind there is, a
blueprint, runs a function of an artifact on an input that comes in base64.
-/

namespace Depot

structure Manifest where
  kind : String
  /-- Null if it is missing. -/
  spec : Json

namespace Manifest

open Json (Decoder DecodeError)

structure Draft where
  kind : Option String := none
  spec : Option Json := none

def Draft.finish {ε : Type} (d : Draft) : Except (DecodeError ε) Manifest :=
  match d.kind with
  | none => .error .shape
  | some kind => .ok ⟨kind, d.spec.getD .null⟩

def decoder {ε : Type} : Decoder ε Manifest :=
  Decoder.record [
    .text "kind" Draft.kind fun d text => { d with kind := some text },
    { key := "spec"
      isRead := fun d => d.spec.isSome
      read := fun d tokens => (Json.decoder (Json.maxDepth - 1) tokens).map fun (spec, rest) =>
        ({ d with spec := some spec }, rest) }] 1 {} Draft.finish

def parse (text : List UInt8) : Except (DecodeError Empty) Manifest := Decoder.ofBytes decoder text

end Manifest

/-- What a blueprint says, before any of it is checked. -/
structure Blueprint where
  /-- The text of an identifier. -/
  source : String
  function : String
  /-- In base64. -/
  input : String
  deriving DecidableEq, Repr

namespace Blueprint

def kind : String := "Blueprint"

/-- The artifact of a specification, which is an object or an array of all its fields. -/
def artifactOf? : Json → Option Json
  | .object members => Json.lookup members "artifact"
  | .array [artifact] => some artifact
  | _ => none

/-- A missing input is empty. -/
def ofArtifact? : Json → Option Blueprint
  | .object members => do
    let source ← (← Json.lookup members "source").text?
    let function ← (← Json.lookup members "function").text?
    match Json.lookup members "input" with
    | none => some ⟨source, function, ""⟩
    | some input => some ⟨source, function, ← input.text?⟩
  | .array [source, function] => do some ⟨← source.text?, ← function.text?, ""⟩
  | .array [source, function, input] => do some ⟨← source.text?, ← function.text?, ← input.text?⟩
  | _ => none

def ofSpec? (spec : Json) : Option Blueprint := (artifactOf? spec).bind ofArtifact?

/-- The task that a blueprint asks for. Its input may not exceed the ceiling, neither as it is
written nor as it is meant. -/
def task (b : Blueprint) (inputMax : Nat) : Except GatewayError TaskRequest :=
  match Identifier.parse b.source with
  | .error error => .error (.invalidIdentifier error)
  | .ok artifact =>
    if inputMax < b.input.utf8ByteSize then .error (.malformedRequest (.inputTooLong inputMax))
    else
      match Base64.decode b.input.toUTF8.data.toList with
      | none => .error (.malformedRequest .base64)
      | some input =>
        if inputMax < input.size then .error (.malformedRequest (.decodedInputTooLong inputMax))
        else .ok ⟨artifact, b.function, input⟩

end Blueprint

namespace Manifest

def task (text : List UInt8) (inputMax : Nat) : Except GatewayError TaskRequest :=
  match parse text with
  | .error _ => .error (.malformedRequest .manifest)
  | .ok manifest =>
    if manifest.kind = Blueprint.kind then
      match Blueprint.ofSpec? manifest.spec with
      | none => .error (.malformedRequest .blueprint)
      | some blueprint => blueprint.task inputMax
    else .error (.malformedRequest (.manifestKind manifest.kind))

end Manifest

end Depot
