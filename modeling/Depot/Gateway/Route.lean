import Depot.Http.Message

/-! # Routes

Which paths there are and which methods they answer. A path is matched as it is sent, before any
percent-encoding is undone. The components of a name in a path may be empty here; that they make no
name is for the endpoint to say. What can be got can also be asked for its headers alone.
-/

namespace Depot

inductive Route where
  | ready
  | artifacts
  | artifactList
  | artifactTags
  /-- The three components of a name as they are sent. -/
  | download (source author name : String)
  | manifests
  deriving DecidableEq, Repr

def Route.ofPath? (path : List Char) : Option Route :=
  match (path.splitOn '/').map String.ofList with
  | ["", "ready"] => some .ready
  | ["", "artifacts"] => some .artifacts
  | ["", "artifacts", "list"] => some .artifactList
  | ["", "artifacts", "tags"] => some .artifactTags
  | ["", "artifacts", source, author, name, "download"] =>
    some (.download source author name)
  | ["", "manifests"] => some .manifests
  | _ => none

inductive Endpoint where
  | ready
  | get
  | exists
  | upload
  | delete
  | list
  | addTag
  | removeTag
  | download (source author name : String)
  | submit
  deriving DecidableEq, Repr

def Route.endpoint? : Route → Method → Option Endpoint
  | .ready, .get | .ready, .head => some .ready
  | .artifacts, .get => some .get
  | .artifacts, .head => some .exists
  | .artifacts, .post => some .upload
  | .artifacts, .delete => some .delete
  | .artifactList, .get | .artifactList, .head => some .list
  | .artifactTags, .post => some .addTag
  | .artifactTags, .delete => some .removeTag
  | .download source author name, .get | .download source author name, .head =>
    some (.download source author name)
  | .manifests, .post => some .submit
  | _, _ => none

end Depot
