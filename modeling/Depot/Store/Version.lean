import Depot.Artifact
import Depot.Content
import Depot.Digest.Sha256

/-! # Stored versions

The versions that a store holds, in increasing order of name and hash. A version is addressed by
its content: what is uploaded twice under one name is one version. A tag is on at most one version
of a name, and putting it on another takes it off the first.
-/

namespace Depot

structure Version where
  name : QualifiedName
  hash : String
  content : ByteArray
  tags : List String
  pulls : Nat
  created : Timestamp
  deriving DecidableEq

namespace Version

def record (v : Version) : Artifact := ⟨v.name, v.hash, v.tags, v.pulls, v.created⟩

def hasKey (v : Version) (name : QualifiedName) (hash : String) : Bool :=
  v.name = name ∧ v.hash = hash

def compare (a b : Version) : Ordering :=
  (QualifiedName.compare a.name b.name).then (Ord.compare a.hash b.hash)

def isSelected (v : Version) (id : Identifier) : Bool :=
  match id.reference with
  | .hash hash => v.hasKey id.name hash
  | .tag tag => v.name = id.name ∧ tag ∈ v.tags

/-- The version after a tag of its name went to the version with the given hash. -/
def retagged (v : Version) (name : QualifiedName) (hash tag : String) : Version :=
  if v.name ≠ name then v
  else if v.hash ≠ hash then { v with tags := v.tags.filter (· ≠ tag) }
  else if tag ∈ v.tags then v
  else { v with tags := v.tags ++ [tag] }

end Version

namespace Versions

def resolve (versions : List Version) (id : Identifier) : Option Version :=
  versions.find? (·.isSelected id)

def lookup (versions : List Version) (name : QualifiedName) (hash : String) : Option Version :=
  versions.find? (·.hasKey name hash)

/-- Puts a version before the first that is greater. -/
def insert (v : Version) : List Version → List Version
  | [] => [v]
  | w :: rest => if (Version.compare v w).isLT then v :: w :: rest else w :: insert v rest

def update (versions : List Version) (name : QualifiedName) (hash : String)
    (change : Version → Version) : List Version :=
  versions.map fun v => if v.hasKey name hash then change v else v

def erase (versions : List Version) (name : QualifiedName) (hash : String) : List Version :=
  versions.filter fun v => ¬ v.hasKey name hash

def retag (versions : List Version) (name : QualifiedName) (hash tag : String) : List Version :=
  versions.map fun v => v.retagged name hash tag

/-- Puts all tags of an upload on one version, in the order they were sent. -/
def retagAll (versions : List Version) (name : QualifiedName) (hash : String)
    (tags : List String) : List Version :=
  tags.foldl (fun versions tag => retag versions name hash tag) versions

end Versions

end Depot
