import Depot.Transfer.Metadata
import Depot.Transfer.Upload

/-! # Uploading a form

The parts of a form become one upload: metadata, then the payload frame by frame. Nothing is
committed before the form has been seen to end behind the payload.
-/

namespace Depot

/-- What is wrong behind the payload, which has to be the last part. -/
def Form.trailingError? (ending : Except FormError Unit) : List Part → Option GatewayError
  | part :: _ => some (.unexpectedField .afterPayload part.name)
  | [] =>
    match ending with
    | .error error => some (.ofForm error)
    | .ok () => none

def UploadSession.finishForm {σ υ : Type} (r : Registry σ υ) (session : UploadSession υ)
    (payload : Part) (rest : List Part) (ending : Except FormError Unit) (s : σ) :
    Except GatewayError Artifact × σ :=
  match session.relay r payload.content s with
  | (.error error, session, s) => (.error error, session.abort r s)
  | (.ok _, session, s) =>
    match Form.trailingError? ending rest with
    | some error => (.error error, session.abort r s)
    | none => session.commit r s

def uploadForm {σ υ : Type} (r : Registry σ υ) (limits : Limits) (form : Form) (s : σ) :
    Except GatewayError Artifact × σ :=
  match MetadataDraft.collect limits form.ending {} form.parts with
  | .error error => (.error error, s)
  | .ok (draft, payload, rest) =>
    match draft.finish with
    | .error error => (.error error, s)
    | .ok metadata =>
      match UploadSession.begin r (frameSize limits.chunkSize) metadata s with
      | (.error error, s) => (.error error, s)
      | (.ok session, s) => session.finishForm r payload rest form.ending s

end Depot
