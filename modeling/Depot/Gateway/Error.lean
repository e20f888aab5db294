import Depot.Identifier
import Depot.Reader
import Depot.Registry.Error
import Depot.TaskQueue

/-! # Gateway errors

All that can go wrong with a request, with the code, the status and the message that the client is
told. What goes wrong behind the gateway is told to nobody: such an error has one message for all
causes, and its cause can only be asked of the error itself. Where the libraries that read requests
find the fault, the message is in their words, which come from outside.
-/

namespace Depot

inductive FieldProblem where
  | unknown
  | repeated
  | afterPayload
  deriving DecidableEq, Repr

def FieldProblem.text : FieldProblem → String
  | .unknown => "unknown field"
  | .repeated => "field sent more than once"
  | .afterPayload => "field sent after the file part"

inductive Malformed where
  | mediaType
  | bodyBroken
  | form (cause : FormError)
  | query
  | json
  | fieldNotText (field : String)
  | emptyTag (field : String)
  | manifest
  | manifestKind (kind : String)
  | blueprint
  | inputTooLong (ceiling : Nat)
  | base64
  | decodedInputTooLong (ceiling : Nat)
  | other (detail : String)
  deriving DecidableEq, Repr

def Malformed.text (words : Malformed → String) (cause : Malformed) : String :=
  match cause with
  | .mediaType | .bodyBroken | .form _ | .query | .json => words cause
  | .fieldNotText field => "field " ++ Text.quoted field ++ " is not valid UTF-8"
  | .emptyTag field => field ++ " must not be empty"
  | .manifest => "invalid manifest JSON: " ++ words cause
  | .manifestKind kind => "unsupported manifest kind " ++ Text.quoted kind
  | .blueprint => "invalid blueprint: " ++ words cause
  | .inputTooLong ceiling => "artifact input exceeds " ++ toString ceiling ++ " bytes"
  | .base64 => "invalid base64 input: " ++ words cause
  | .decodedInputTooLong ceiling =>
    "decoded artifact input exceeds " ++ toString ceiling ++ " bytes"
  | .other detail => detail

inductive Failure where
  | registry (error : RegistryError)
  | stream (kind : BreakKind) (message : String)
  | queue (error : QueueError)
  | uploadNotOpen
  | other (message : String)
  deriving DecidableEq, Repr

def Failure.message : Failure → String
  | .registry error => error.message
  | .stream _ message => message
  | .queue error => error.message
  | .uploadNotOpen => "upload stream is not open"
  | .other message => message

inductive GatewayError where
  | invalidIdentifier (cause : IdentifierError)
  | fieldTooLarge (field : String) (limit : Nat)
  | unexpectedField (problem : FieldProblem) (field : String)
  | missingPayload
  | malformedRequest (cause : Malformed)
  | bodyTooLarge
  | invalidRequest (context : String) (error : RegistryError)
  | notFound (identifier : String)
  | transportFailure (context : String) (cause : Failure)
  deriving DecidableEq, Repr

namespace GatewayError

/-- Sorts what a registry answered by whose fault it is. -/
def ofRegistry (context : String) (error : RegistryError) : GatewayError :=
  match error.kind with
  | .notFound => .notFound (error.identifier.getD "unknown artifact")
  | .invalidRequest => .invalidRequest context error
  | .unavailable | .cancelled | .transport | .other => .transportFailure context (.registry error)

def ofBody : BodyError → GatewayError
  | .tooLarge => .bodyTooLarge
  | .broken => .malformedRequest .bodyBroken

def ofForm : FormError → GatewayError
  | .body cause => ofBody cause
  | cause => .malformedRequest (.form cause)

/-- Failures of the form around a part keep their meaning; others are failures of transport. -/
def ofRead (context : String) : ReadError → GatewayError
  | .form cause => ofForm cause
  | .stream kind message => .transportFailure context (.stream kind message)

def code : GatewayError → String
  | .invalidIdentifier _ => "INVALID_IDENTIFIER"
  | .fieldTooLarge _ _ => "FIELD_TOO_LARGE"
  | .unexpectedField _ _ => "UNEXPECTED_FIELD"
  | .missingPayload => "MISSING_PAYLOAD"
  | .malformedRequest _ => "MALFORMED_REQUEST"
  | .bodyTooLarge => "BODY_TOO_LARGE"
  | .invalidRequest _ _ => "INVALID_REQUEST"
  | .notFound _ => "NOT_FOUND"
  | .transportFailure _ _ => "INTERNAL"

def status : GatewayError → Nat
  | .invalidIdentifier _ | .unexpectedField _ _ | .missingPayload | .malformedRequest _
  | .invalidRequest _ _ => 400
  | .fieldTooLarge _ _ | .bodyTooLarge => 413
  | .notFound _ => 404
  | .transportFailure _ _ => 500

def message (words : Malformed → String) : GatewayError → String
  | .invalidIdentifier cause => "invalid identifier: " ++ cause.message
  | .fieldTooLarge field limit =>
    "field " ++ Text.quoted field ++ " reached its " ++ toString limit ++ " byte limit"
  | .unexpectedField problem field => problem.text ++ ": " ++ Text.quoted field
  | .missingPayload => "file part is required"
  | .malformedRequest cause => "malformed request: " ++ cause.text words
  | .bodyTooLarge => "request body exceeds the size limit"
  | .invalidRequest context error => context ++ ": " ++ error.message
  | .notFound identifier => "artifact not found: " ++ identifier
  | .transportFailure context _ => context

def publicMessage (words : Malformed → String) : GatewayError → String
  | .transportFailure _ _ => "internal server error"
  | error => error.message words

/-- The text of the error underneath, for errors that have one of their own. -/
def cause? : GatewayError → Option String
  | .invalidIdentifier cause => some cause.message
  | .transportFailure _ cause => some cause.message
  | _ => none

end GatewayError

end Depot
