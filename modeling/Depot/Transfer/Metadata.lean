import Depot.Gateway.Error
import Depot.Http.Form
import Depot.Limits

/-! # Upload metadata from a form

The parts of an upload form in front of its payload name the artifact and its tags, in any order.
Each component of the name may be sent once, tags as often as the client likes, as long as all of
them together stay below their budget. A part that is refused leaves what was collected as it was.
-/

namespace Depot

def payloadField : String := "file"

def Part.isPayload (part : Part) : Bool := part.name = payloadField

inductive MetadataField where
  | component (component : NameComponent)
  | tag
  deriving DecidableEq, Repr

def MetadataField.ofName? (name : String) : Option MetadataField :=
  if name = "tag" then some .tag
  else
    ([.source, .author, .name].find? fun component => name = NameComponent.label component).map
      .component

structure MetadataDraft where
  source : Option String := none
  author : Option String := none
  name : Option String := none
  /-- In the order they were sent. -/
  tags : Array String := #[]
  /-- The size of all tags. -/
  tagBytes : Nat := 0
  deriving DecidableEq, Repr

namespace MetadataDraft

def component (d : MetadataDraft) : NameComponent → Option String
  | .source => d.source
  | .author => d.author
  | .name => d.name

def setComponent (d : MetadataDraft) (text : String) : NameComponent → MetadataDraft
  | .source => { d with source := some text }
  | .author => { d with author := some text }
  | .name => { d with name := some text }

def addTag (d : MetadataDraft) (tag : String) : MetadataDraft :=
  { d with tags := d.tags.push tag, tagBytes := d.tagBytes + tag.utf8ByteSize }

def isTaken (d : MetadataDraft) : MetadataField → Bool
  | .component component => (d.component component).isSome
  | .tag => false

/-- The size that the next text of a field has to stay below. -/
def limit (d : MetadataDraft) (limits : Limits) : MetadataField → Nat
  | .component _ => limits.fieldMaxSize
  | .tag => limits.tagBudget - d.tagBytes

def set (d : MetadataDraft) (field : MetadataField) (text : String) : MetadataDraft :=
  match field with
  | .component component => d.setComponent text component
  | .tag => d.addTag text

def readText (limit : Nat) (part : Part) : Except GatewayError String :=
  match (part.content.readBounded limit).1 with
  | .error error => .error (.ofRead "reading multipart field" error)
  | .ok .tooLong => .error (.fieldTooLarge part.name limit)
  | .ok (.complete bytes) =>
    match String.fromUTF8? bytes with
    | none => .error (.malformedRequest (.fieldNotText part.name))
    | some text => .ok text

def accept (d : MetadataDraft) (limits : Limits) (part : Part) :
    Except GatewayError MetadataDraft :=
  match MetadataField.ofName? part.name with
  | none => .error (.unexpectedField .unknown part.name)
  | some field =>
    if d.isTaken field then .error (.unexpectedField .repeated part.name)
    else (readText (d.limit limits field) part).map (d.set field)

/-- Accepts a part in place. All checks come before the first write. -/
def acceptInPlace (limits : Limits) (part : Part) :
    ExceptT GatewayError (StateM MetadataDraft) Unit := do
  match MetadataField.ofName? part.name with
  | none => throw (.unexpectedField .unknown part.name)
  | some field =>
    if (← get).isTaken field then throw (.unexpectedField .repeated part.name)
    let text ← readText ((← get).limit limits field) part
    modify fun d => d.set field text

/-- What a part is answered and the draft that it leaves behind. -/
def take (limits : Limits) (d : MetadataDraft) (part : Part) :
    Except GatewayError Unit × MetadataDraft :=
  (acceptInPlace limits part).run.run d

/-- Collects the parts in front of the payload. Answers also the payload and what follows it. -/
def collect (limits : Limits) (ending : Except FormError Unit) :
    MetadataDraft → List Part → Except GatewayError (MetadataDraft × Part × List Part)
  | _, [] =>
    match ending with
    | .error error => .error (.ofForm error)
    | .ok () => .error .missingPayload
  | d, part :: rest =>
    if part.isPayload then .ok (d, part, rest)
    else
      match d.accept limits part with
      | .error error => .error error
      | .ok d => collect limits ending d rest

/-- The metadata, if the name is complete; what was not sent is empty. -/
def finish (d : MetadataDraft) : Except GatewayError UploadMetadata :=
  match QualifiedName.ofComponents (d.source.getD "") (d.author.getD "") (d.name.getD "") with
  | .error component => .error (.invalidIdentifier (.missingComponent component))
  | .ok name => .ok ⟨name, d.tags.toList⟩

end MetadataDraft

end Depot
