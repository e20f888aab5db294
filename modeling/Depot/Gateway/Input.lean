import Depot.Gateway.Error
import Depot.Http.Form
import Depot.Http.MediaType
import Depot.Http.Message
import Depot.Identifier.Parser
import Depot.Limits
import Depot.Text.Percent
import Depot.Wire

/-! # What requests carry

Parameters in queries, values in JSON bodies and forms in multipart bodies. The media type is looked
at before the body, and the size of the body before its content.
-/

namespace Depot

namespace Request

/-- The value of a key in the query, which may be missing but not repeated. -/
def parameter (request : Request) (key : String) : Except GatewayError (Option String) :=
  match (Percent.queryPairs request.queryText).filter (·.1 = key) with
  | [] => .ok none
  | [(_, value)] => .ok (some value)
  | _ => .error (.malformedRequest .query)

def text (request : Request) (key : String) : Except GatewayError String :=
  (request.parameter key).map (·.getD "")

def identifier (request : Request) : Except GatewayError Identifier := do
  let source ← request.text "source"
  let author ← request.text "author"
  let name ← request.text "name"
  let token ← request.text "identifier"
  (Identifier.ofParts source author name token).mapError .invalidIdentifier

/-- The identifier of a name that comes apart from its reference. -/
def identifierOf (request : Request) (source author name : String) :
    Except GatewayError Identifier := do
  let token ← request.text "identifier"
  (Identifier.ofParts source author name token).mapError .invalidIdentifier

/-- Filters that are present count, even if they are empty. -/
def artifactQuery (request : Request) : Except GatewayError ArtifactQuery := do
  let source ← request.parameter "source"
  let author ← request.parameter "author"
  let name ← request.parameter "name"
  return ⟨source, author, name⟩

def mediaType? (request : Request) : Option MediaType :=
  request.contentType.bind MediaType.parse?

def json {ε α : Type} (request : Request) (limits : Limits) (value : Json.Decoder ε α) :
    Except GatewayError α :=
  if request.mediaType?.any MediaType.isJson then
    match request.body.read limits.maxBodySize with
    | .error error => .error (.ofBody error)
    | .ok bytes =>
      match Json.Decoder.ofBytes value bytes.data.toList with
      | .error _ => .error (.malformedRequest .json)
      | .ok a => .ok a
  else .error (.malformedRequest .mediaType)

/-- A body that cannot be read is a form that fails when its first part is asked for. -/
def form (request : Request) (limits : Limits) : Except GatewayError Form :=
  match request.mediaType?.bind MediaType.formBoundary? with
  | none => .error (.malformedRequest .mediaType)
  | some boundary =>
    match request.body.read limits.maxBodySize with
    | .error error => .ok (.failing (.body error))
    | .ok bytes => .ok (.parse boundary bytes)

end Request

structure DeleteRequest where
  name : QualifiedName
  /-- A tag, or a version hash behind its mark. -/
  token : String
  deriving DecidableEq, Repr

namespace DeleteRequest

open Json (Decoder DecodeError)

structure Draft where
  name : Option QualifiedName := none
  token : Option String := none

def Draft.finish (d : Draft) : Except (DecodeError NameComponent) DeleteRequest :=
  match d.name, d.token with
  | some name, some token => .ok ⟨name, token⟩
  | _, _ => .error .shape

def decoder : Decoder NameComponent DeleteRequest :=
  Decoder.record [
    QualifiedName.field Draft.name fun d name => { d with name := some name },
    .text "identifier" Draft.token fun d text => { d with token := some text }] 2 {} Draft.finish

def identifier (request : DeleteRequest) : Except GatewayError Identifier :=
  (Identifier.ofName request.name (Reference.parse request.token)).mapError .invalidIdentifier

end DeleteRequest

end Depot
