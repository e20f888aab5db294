import Depot.Registry.Basic
import Depot.Store.Basic

/-! # Uploads into the store

An upload collects its metadata and its content frames apart from the store; only when it is
closed or cancelled does the store change. Each upload ends once and leaves one entry in the log.
-/

namespace Depot

structure Upload where
  metadata : Option UploadMetadata := none
  /-- The content frames taken, in order. -/
  frames : Array ByteArray := #[]
  finished : Bool := false
  deriving DecidableEq

namespace Upload

def content (u : Upload) : ByteArray := u.frames.foldl (· ++ ·) .empty

def transfer (u : Upload) (outcome : UploadOutcome) : Transfer :=
  .upload (u.metadata.map (·.name)) (u.frames.toList.map ByteArray.size) outcome

/-- A frame that is refused leaves the upload as it was. -/
def send (u : Upload) (frame : UploadFrame) : Except RegistryError Unit × Upload :=
  let refuse (r : Store.Refusal) : Except RegistryError Unit × Upload := (.error r.error, u)
  if u.finished then refuse .uploadClosed
  else
    match frame, u.metadata with
    | .metadata _, some _ => refuse .metadataRepeated
    | .metadata metadata, none => (.ok (), { u with metadata := some metadata })
    | .content _, none => refuse .contentBeforeMetadata
    | .content bytes, some _ =>
      if messageCeiling < bytes.size then refuse (.frameTooLarge bytes.size)
      else (.ok (), { u with frames := u.frames.push bytes })

def close (u : Upload) (s : Store) : Except RegistryError Artifact × Upload × Store :=
  if u.finished then (.error Store.Refusal.uploadClosed.error, u, s)
  else
    let ended := { u with finished := true }
    match u.metadata with
    | none => (.error Store.Refusal.closedBeforeMetadata.error, ended, s.log (u.transfer .rejected))
    | some metadata =>
      let (artifact, s) := s.commit metadata u.content
      (.ok artifact, ended, s.log (u.transfer .committed))

def cancel (u : Upload) (s : Store) : Store :=
  if u.finished then s else s.log (u.transfer .cancelled)

end Upload

def Store.registry : Registry Store Upload where
  label := Store.label
  openUpload s := (.ok {}, s)
  send frame u s :=
    let (answer, u) := u.send frame
    (answer, u, s)
  close u s := u.close s
  cancel u s := u.cancel s
  pull id s :=
    let (answer, s) := s.pull id
    (answer.map fun frames => frames.map .ok, s)
  get id s := (s.get id, s)
  query q s := (.ok (s.query q), s)
  delete id s := s.delete id
  addTag r s := s.addTag r
  removeTag r s := s.removeTag r

end Depot
