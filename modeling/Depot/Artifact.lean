import Depot.Content
import Depot.Identifier
import Depot.Time.Timestamp

/-! # Artifacts

The record that a registry keeps of one version, the questions and requests about versions, and
the frames in which content travels.
-/

namespace Depot

def maxFrameSize : Nat := 3 * 1024 * 1024

def messageCeiling : Nat := 4 * 1024 * 1024

structure Artifact where
  name : QualifiedName
  /-- The hash of the content. -/
  versionHash : String
  /-- The tags that point at this version. -/
  tags : List String
  pulls : Nat
  created : Timestamp
  deriving DecidableEq, Repr

/-- Filters on names; those that are not set accept everything. -/
structure ArtifactQuery where
  source : Option String := none
  author : Option String := none
  name : Option String := none
  deriving DecidableEq, Repr

def ArtifactQuery.accepts (q : ArtifactQuery) (n : QualifiedName) : Bool :=
  q.source.all (· = n.source) && q.author.all (· = n.author) && q.name.all (· = n.name)

/-- Puts a tag on a version, or takes it off. -/
structure TagRequest where
  name : QualifiedName
  versionHash : String
  tag : String
  deriving DecidableEq, Repr

/-- What an upload says before its content: the name and the tags, in the order they were sent. -/
structure UploadMetadata where
  name : QualifiedName
  tags : List String
  deriving DecidableEq, Repr

inductive UploadFrame where
  | metadata (metadata : UploadMetadata)
  | content (bytes : ByteArray)
  deriving DecidableEq

end Depot
