/-! # Registry errors

An error names the registry it came from and may name the artifact and what was being done. Its
kind says what a caller should make of it.
-/

namespace Depot

inductive RegistryErrorKind where
  | notFound
  | invalidRequest
  | unavailable
  | cancelled
  | transport
  | other
  deriving DecidableEq, Repr

namespace RegistryErrorKind

def text : RegistryErrorKind → String
  | .notFound => "not found"
  | .invalidRequest => "invalid request"
  | .unavailable => "unavailable"
  | .cancelled => "cancelled"
  | .transport => "I/O error"
  | .other => "other error"

/-- The condition may pass. -/
def isRetryable : RegistryErrorKind → Bool
  | .unavailable | .transport => true
  | _ => false

def isClientFault : RegistryErrorKind → Bool
  | .notFound | .invalidRequest => true
  | _ => false

end RegistryErrorKind

structure RegistryError where
  kind : RegistryErrorKind
  registry : String
  identifier : Option String := none
  context : Option String := none
  /-- The text of the failure underneath. -/
  cause : String
  deriving DecidableEq, Repr

namespace RegistryError

def isNotFound (e : RegistryError) : Bool := e.kind = .notFound

def message (e : RegistryError) : String :=
  let note (text : Option String) (label : String) : String :=
    match text with
    | none => ""
    | some text => " (" ++ label ++ text ++ ")"
  "Registry error [" ++ e.kind.text ++ "] from " ++ e.registry ++
    note e.identifier "artifact: " ++ note e.context "" ++ ": " ++ e.cause

end RegistryError

end Depot
