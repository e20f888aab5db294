import Depot.Artifact
import Depot.Json.Decoder
import Depot.Json.Writer

/-! # Wire forms

The JSON forms of names, queries, tag requests and artifacts. Each is written as a compact object
with its fields in a fixed order, and read from an object or from an array of all fields. A name
that lacks a component is refused as soon as its value ends.
-/

namespace Depot

open Json (Decoder DecodeError)

namespace QualifiedName

/-- The components of a name as they are written, unchecked. -/
structure Parts where
  source : String
  author : String
  name : String
  deriving DecidableEq, Repr

namespace Parts

structure Draft where
  source : Option String := none
  author : Option String := none
  name : Option String := none

def Draft.finish (d : Draft) : Except (DecodeError NameComponent) Parts :=
  match d.source, d.author, d.name with
  | some source, some author, some name => .ok ⟨source, author, name⟩
  | _, _, _ => .error .shape

def decoder : Decoder NameComponent Parts :=
  Decoder.record [
    .text "source" Draft.source fun d text => { d with source := some text },
    .text "author" Draft.author fun d text => { d with author := some text },
    .text "name" Draft.name fun d text => { d with name := some text }] 3 {} Draft.finish

def check (p : Parts) : Except (DecodeError NameComponent) QualifiedName :=
  (ofComponents p.source p.author p.name).mapError .refused

end Parts

def decoder : Decoder NameComponent QualifiedName := Decoder.checked Parts.decoder Parts.check

def toJson (n : QualifiedName) : List UInt8 :=
  Json.Writer.object [
    ("source", Json.Writer.string n.source),
    ("author", Json.Writer.string n.author),
    ("name", Json.Writer.string n.name)]

end QualifiedName

namespace ArtifactQuery

/-- The filters that have been read; a filter may be read as not set. -/
structure Draft where
  source : Option (Option String) := none
  author : Option (Option String) := none
  name : Option (Option String) := none

def Draft.finish (d : Draft) : ArtifactQuery := ⟨d.source.join, d.author.join, d.name.join⟩

def filterField {ε : Type} (key : String) (get : Draft → Option (Option String))
    (set : Draft → Option String → Draft) : Decoder.Field ε Draft where
  key := key
  isRead d := (get d).isSome
  read d tokens :=
    (Decoder.optional Decoder.string tokens).map fun (filter, rest) => (set d filter, rest)

def decoder {ε : Type} : Decoder ε ArtifactQuery :=
  Decoder.record [
    filterField "source" Draft.source fun d filter => { d with source := some filter },
    filterField "author" Draft.author fun d filter => { d with author := some filter },
    filterField "name" Draft.name fun d filter => { d with name := some filter }] 3 {}
    fun d => .ok d.finish

def toJson (q : ArtifactQuery) : List UInt8 :=
  let filter (text : Option String) := Json.Writer.optional (text.map Json.Writer.string)
  Json.Writer.object [
    ("source", filter q.source), ("author", filter q.author), ("name", filter q.name)]

end ArtifactQuery

/-- The field `fqn` of a record, which holds a name. -/
def QualifiedName.field {σ : Type} (get : σ → Option QualifiedName)
    (set : σ → QualifiedName → σ) : Decoder.Field NameComponent σ where
  key := "fqn"
  isRead record := (get record).isSome
  read record tokens :=
    (QualifiedName.decoder tokens).map fun (name, rest) => (set record name, rest)

namespace TagRequest

structure Draft where
  name : Option QualifiedName := none
  versionHash : Option String := none
  tag : Option String := none

def Draft.finish (d : Draft) : Except (DecodeError NameComponent) TagRequest :=
  match d.name, d.versionHash, d.tag with
  | some name, some versionHash, some tag => .ok ⟨name, versionHash, tag⟩
  | _, _, _ => .error .shape

/-- Requests differ in what they call the tag. -/
def decoder (tagKey : String) : Decoder NameComponent TagRequest :=
  Decoder.record [
    QualifiedName.field Draft.name fun d name => { d with name := some name },
    .text "versionHash" Draft.versionHash fun d text => { d with versionHash := some text },
    .text tagKey Draft.tag fun d text => { d with tag := some text }] 3 {} Draft.finish

def toJson (r : TagRequest) : List UInt8 :=
  Json.Writer.object [
    ("fqn", r.name.toJson),
    ("versionHash", Json.Writer.string r.versionHash),
    ("tag", Json.Writer.string r.tag)]

end TagRequest

namespace Artifact

structure Draft where
  name : Option QualifiedName := none
  versionHash : Option String := none
  tags : Option (List String) := none
  pulls : Option Nat := none
  created : Option Timestamp := none

def Draft.finish (d : Draft) : Except (DecodeError NameComponent) Artifact :=
  match d.name, d.versionHash, d.tags, d.pulls, d.created with
  | some name, some versionHash, some tags, some pulls, some created =>
    .ok ⟨name, versionHash, tags, pulls, created⟩
  | _, _, _, _, _ => .error .shape

def timestamp {ε : Type} : Decoder ε Timestamp :=
  Decoder.checked Decoder.string fun text =>
    match Timestamp.parse? text with
    | some t => .ok t
    | none => .error .shape

def decoder : Decoder NameComponent Artifact :=
  Decoder.record [
    QualifiedName.field Draft.name fun d name => { d with name := some name },
    .text "versionHash" Draft.versionHash fun d text => { d with versionHash := some text },
    { key := "tags"
      isRead := fun d => d.tags.isSome
      read := fun d tokens => (Decoder.list Decoder.string tokens).map fun (tags, rest) =>
        ({ d with tags := some tags }, rest) },
    { key := "pulls"
      isRead := fun d => d.pulls.isSome
      read := fun d tokens => (Decoder.word tokens).map fun (pulls, rest) =>
        ({ d with pulls := some pulls }, rest) },
    { key := "createdAt"
      isRead := fun d => d.created.isSome
      read := fun d tokens => (timestamp tokens).map fun (created, rest) =>
        ({ d with created := some created }, rest) }] 5 {} Draft.finish

def toJson (a : Artifact) : List UInt8 :=
  Json.Writer.object [
    ("fqn", a.name.toJson),
    ("versionHash", Json.Writer.string a.versionHash),
    ("tags", Json.Writer.array (a.tags.map Json.Writer.string)),
    ("pulls", Json.Writer.nat a.pulls),
    ("createdAt", Json.Writer.string a.created.text)]

end Artifact

end Depot
