import Depot.QualifiedName
import Depot.Text.Quoted

/-! # Artifact identifiers

An identifier selects one version of a named artifact, by a tag that people move around or by the
hash of its content. Neither is ever empty.
-/

namespace Depot

inductive Reference where
  | tag (text : String)
  | hash (text : String)
  deriving DecidableEq, Repr

namespace Reference

def hashPrefix : String := "hash:"

def raw : Reference → String
  | .tag text => text
  | .hash text => text

def text : Reference → String
  | .tag text => text
  | .hash text => hashPrefix ++ text

end Reference

structure Identifier where
  name : QualifiedName
  reference : Reference
  reference_ne : reference.raw ≠ ""
  deriving DecidableEq, Repr

inductive IdentifierError where
  | missingComponent (component : NameComponent)
  | emptyReference
  | malformed (token : String)
  deriving DecidableEq, Repr

def IdentifierError.message : IdentifierError → String
  | .missingComponent component => "artifact name is missing its " ++ component.label
  | .emptyReference => "artifact reference is empty"
  | .malformed token => "malformed identifier " ++ Text.quoted token

namespace Identifier

def ofName (name : QualifiedName) (reference : Reference) : Except IdentifierError Identifier :=
  if h : reference.raw = "" then .error .emptyReference else .ok ⟨name, reference, h⟩

/-- An empty component is reported before an empty reference. -/
def ofComponents (source author name : String) (reference : Reference) :
    Except IdentifierError Identifier :=
  match QualifiedName.ofComponents source author name with
  | .error component => .error (.missingComponent component)
  | .ok name => ofName name reference

def text (id : Identifier) : String := id.name.text ++ ":" ++ id.reference.text

def tag? (id : Identifier) : Option String :=
  match id.reference with
  | .tag tag => some tag
  | .hash _ => none

def hash? (id : Identifier) : Option String :=
  match id.reference with
  | .tag _ => none
  | .hash hash => some hash

end Identifier

end Depot
