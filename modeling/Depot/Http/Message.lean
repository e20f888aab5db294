import Depot.Reader

/-! # Requests and responses
-/

namespace Depot

inductive Method where
  | get
  | head
  | post
  | delete
  | other (name : String)
  deriving DecidableEq, Repr

def Method.ofName (name : String) : Method :=
  if name = "GET" then .get
  else if name = "HEAD" then .head
  else if name = "POST" then .post
  else if name = "DELETE" then .delete
  else .other name

/-- A body that arrives in one piece, behind which its stream may break. -/
structure Body where
  bytes : ByteArray := .empty
  breaks : Bool := false
  deriving DecidableEq

/-- The whole body, unless it is longer than the limit. The length is seen before the break. -/
def Body.read (b : Body) (limit : Option Nat) : Except BodyError ByteArray :=
  if limit.any (· < b.bytes.size) then .error .tooLarge
  else if b.breaks then .error .broken
  else .ok b.bytes

structure Request where
  method : Method
  /-- Path and query, which may stand behind a scheme and an authority. -/
  target : String
  contentType : Option String := none
  body : Body := {}
  deriving DecidableEq

namespace Request

/-- The authority and all that follows it, if the target names a scheme. -/
def behindScheme? : List Char → Option (List Char)
  | ':' :: '/' :: '/' :: rest => some rest
  | _ :: rest => behindScheme? rest
  | [] => none

/-- Path and query, without scheme, authority and fragment. A target that neither starts with a
slash nor names a scheme has none. -/
def resource (r : Request) : List Char :=
  match r.target.toList.takeWhile (· ≠ '#') with
  | '/' :: rest => '/' :: rest
  | target =>
    match behindScheme? target with
    | some rest => rest.dropWhile fun c => c ≠ '/' && c ≠ '?'
    | none => []

def path (r : Request) : List Char := r.resource.takeWhile (· ≠ '?')

def queryText (r : Request) : String :=
  String.ofList ((r.resource.dropWhile (· ≠ '?')).drop 1)

end Request

structure Response where
  status : Nat
  contentType : Option String := none
  body : ByteArray := .empty
  /-- The length of the body that the request asked about, sent or not. -/
  contentLength : Nat := body.size
  deriving DecidableEq

def Response.withoutBody (r : Response) : Response := { r with body := .empty }

end Depot
