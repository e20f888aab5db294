import Depot.Framing
import Depot.Registry.Error
import Depot.Store.Version

/-! # The store

A registry in memory: its versions and a log of every upload and pull that ended. The time of a
creation is read off the clock of the system. Nothing is assumed of what the clock reads: it is set
from outside, and may stand still or go back.
-/

namespace Depot

inductive UploadOutcome where
  | committed
  | rejected
  | cancelled
  deriving DecidableEq, Repr

/-- A finished call that moved content, with the sizes of its frames in order. -/
inductive Transfer where
  | upload (name : Option QualifiedName) (frames : List Nat) (outcome : UploadOutcome)
  | pull (id : Identifier) (frames : List Nat)
  deriving DecidableEq, Repr

structure Store where
  versions : List Version := []
  /-- Oldest first. -/
  transfers : List Transfer := []
  /-- What the clock of the system reads. -/
  clock : Timestamp := ⟨0, 0⟩
  deriving DecidableEq

namespace Store

def log (s : Store) (transfer : Transfer) : Store :=
  { s with transfers := s.transfers ++ [transfer] }

def freshVersion (s : Store) (name : QualifiedName) (hash : String) (content : ByteArray) :
    Version :=
  ⟨name, hash, content, [], 0, s.clock⟩

/-- Makes sure that the content is stored under the name. -/
def addContent (s : Store) (name : QualifiedName) (hash : String) (content : ByteArray) : Store :=
  match Versions.lookup s.versions name hash with
  | some _ => s
  | none => { s with versions := Versions.insert (s.freshVersion name hash content) s.versions }

/-- Stores uploaded content, puts its tags on it and answers the version's record. -/
def commit (s : Store) (metadata : UploadMetadata) (content : ByteArray) : Artifact × Store :=
  let name := metadata.name
  let hash := Sha256.hex content
  let v := (Versions.lookup s.versions name hash).getD (s.freshVersion name hash content)
  let tagged := metadata.tags.foldl (fun v tag => v.retagged name hash tag) v
  let s := s.addContent name hash content
  (tagged.record, { s with versions := Versions.retagAll s.versions name hash metadata.tags })

inductive Refusal where
  | uploadClosed
  | metadataRepeated
  | contentBeforeMetadata
  | frameTooLarge (size : Nat)
  | closedBeforeMetadata
  | emptyTag
  deriving DecidableEq, Repr

def Refusal.message : Refusal → String
  | .uploadClosed => "upload stream is closed"
  | .metadataRepeated => "metadata frame sent twice"
  | .contentBeforeMetadata => "content frame sent before metadata"
  | .frameTooLarge size =>
    "frame of " ++ toString size ++ " bytes exceeds the " ++ toString messageCeiling ++
      " byte message ceiling"
  | .closedBeforeMetadata => "upload closed before metadata was sent"
  | .emptyTag => "tag must not be empty"

def label : String := "memory"

def Refusal.error (r : Refusal) : RegistryError :=
  { kind := .invalidRequest, registry := label, cause := r.message }

def notFound (identifier : String) : RegistryError :=
  { kind := .notFound, registry := label, identifier := some identifier,
    cause := "artifact not found" }

def get (s : Store) (id : Identifier) : Except RegistryError Artifact :=
  match Versions.resolve s.versions id with
  | none => .error (notFound id.text)
  | some v => .ok v.record

def query (s : Store) (q : ArtifactQuery) : List Artifact :=
  (s.versions.filter fun v => q.accepts v.name).map Version.record

def pull (s : Store) (id : Identifier) : Except RegistryError (List ByteArray) × Store :=
  match Versions.resolve s.versions id with
  | none => (.error (notFound id.text), s)
  | some v =>
    let frames := Framing.cut maxFrameSize v.content
    let counted := Versions.update s.versions v.name v.hash fun v => { v with pulls := v.pulls + 1 }
    (.ok frames, { s with versions := counted }.log (.pull id (frames.map ByteArray.size)))

def delete (s : Store) (id : Identifier) : Except RegistryError Artifact × Store :=
  match Versions.resolve s.versions id with
  | none => (.error (notFound id.text), s)
  | some v => (.ok v.record, { s with versions := Versions.erase s.versions v.name v.hash })

/-- How a version is called in an error about a request that names it by its hash. -/
def versionText (name : QualifiedName) (hash : String) : String :=
  name.text ++ ":" ++ (Reference.hash hash).text

def addTag (s : Store) (r : TagRequest) : Except RegistryError Unit × Store :=
  if r.tag = "" then (.error Refusal.emptyTag.error, s)
  else
    match Versions.lookup s.versions r.name r.versionHash with
    | none => (.error (notFound (versionText r.name r.versionHash)), s)
    | some _ =>
      (.ok (), { s with versions := Versions.retag s.versions r.name r.versionHash r.tag })

def removeTag (s : Store) (r : TagRequest) : Except RegistryError Unit × Store :=
  match Versions.lookup s.versions r.name r.versionHash with
  | none => (.error (notFound (versionText r.name r.versionHash)), s)
  | some v =>
    if r.tag ∈ v.tags then
      let untag (v : Version) : Version := { v with tags := v.tags.erase r.tag }
      (.ok (), { s with versions := Versions.update s.versions r.name r.versionHash untag })
    else (.error (notFound (r.name.text ++ ":" ++ r.tag)), s)

end Store

end Depot
