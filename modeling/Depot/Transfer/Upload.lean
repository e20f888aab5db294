import Depot.Framing
import Depot.Gateway.Error
import Depot.Registry.Basic
import Depot.Transfer.State

/-! # Uploading

A session is one upload call to a registry: its metadata is sent when it begins, content is relayed
to it in frames, and it ends in a commit or is aborted. When anything fails the call is cancelled
at once; the session stays, but has no call any more and can commit nothing.
-/

namespace Depot

/-- The size of the frames that a bridge sends when it is configured for the given size. -/
def frameSize (configured : Nat) : Nat := min (max 1 configured) maxFrameSize

structure UploadSession (υ : Type) where
  /-- The open call. -/
  stream : Option υ
  state : TransferState
  frameSize : Nat
  /-- Content frames sent. -/
  frames : Nat := 0
  /-- Content bytes sent. -/
  bytes : Nat := 0

namespace UploadSession

variable {σ υ : Type}

def fail (r : Registry σ υ) (session : UploadSession υ) (s : σ) : UploadSession υ × σ :=
  let s := match session.stream with
    | none => s
    | some stream => r.cancel stream s
  ({ session with stream := none, state := .failed }, s)

def send (r : Registry σ υ) (session : UploadSession υ) (frame : UploadFrame) (context : String)
    (s : σ) : Except GatewayError Unit × UploadSession υ × σ :=
  match session.stream with
  | none =>
    let (session, s) := session.fail r s
    (.error (.transportFailure context .uploadNotOpen), session, s)
  | some stream =>
    match r.send frame stream s with
    | (.ok (), stream, s) => (.ok (), { session with stream := some stream }, s)
    | (.error error, stream, s) =>
      let (session, s) := { session with stream := some stream }.fail r s
      (.error (.ofRegistry context error), session, s)

def begin (r : Registry σ υ) (frameSize : Nat) (metadata : UploadMetadata) (s : σ) :
    Except GatewayError (UploadSession υ) × σ :=
  match r.openUpload s with
  | (.error error, s) => (.error (.ofRegistry "opening upload stream" error), s)
  | (.ok stream, s) =>
    let session : UploadSession υ := { stream := some stream, state := .streamOpen, frameSize }
    match session.send r (.metadata metadata) "sending upload metadata" s with
    | (.ok (), session, s) => (.ok session, s)
    | (.error error, _, s) => (.error error, s)

/-- Sends content frames in order and counts those that were taken. -/
def sendFrames (r : Registry σ υ) : List ByteArray → UploadSession υ → σ →
    Except GatewayError Unit × UploadSession υ × σ
  | [], session, s => (.ok (), session, s)
  | frame :: frames, session, s =>
    match session.send r (.content frame) "sending content frame" s with
    | (.error error, session, s) => (.error error, session, s)
    | (.ok (), session, s) =>
      sendFrames r frames
        { session with frames := session.frames + 1, bytes := session.bytes + frame.size } s

/-- Sends what a reader delivers, in frames of which only the last may be shorter than the rest and
none is empty. Answers the number of bytes sent by this session so far. -/
def relay (r : Registry σ υ) (session : UploadSession υ) (reader : Reader) (s : σ) :
    Except GatewayError Nat × UploadSession υ × σ :=
  let (frames, ending) := Framing.ofReader session.frameSize .empty reader
  match sendFrames r frames { session with state := .transferring } s with
  | (.error error, session, s) => (.error error, session, s)
  | (.ok (), session, s) =>
    match ending with
    | .broken error =>
      let (session, s) := session.fail r s
      (.error (.ofRead "reading upload payload" error), session, s)
    | .clean rest =>
      match sendFrames r (if rest.isEmpty then [] else [rest]) session s with
      | (.error error, session, s) => (.error error, session, s)
      | (.ok (), session, s) => (.ok session.bytes, session, s)

/-- Closes the call. The session ends whatever the answer. -/
def commit (r : Registry σ υ) (session : UploadSession υ) (s : σ) :
    Except GatewayError Artifact × σ :=
  match session.stream with
  | none => (.error (.transportFailure "finalizing upload" .uploadNotOpen), s)
  | some stream =>
    match r.close stream s with
    | (.ok artifact, stream, s) => (.ok artifact, r.cancel stream s)
    | (.error error, stream, s) =>
      (.error (.ofRegistry "finalizing upload" error), r.cancel stream s)

def abort (r : Registry σ υ) (session : UploadSession υ) (s : σ) : σ := (session.fail r s).2

/-- Lets go of a session. One that has not come to its end fails, and a call that it still has is
let go with it. -/
def drop (r : Registry σ υ) (session : UploadSession υ) (s : σ) : σ :=
  let (session, s) := if session.state.isFinal then (session, s) else session.fail r s
  match session.stream with
  | none => s
  | some stream => r.cancel stream s

end UploadSession

def upload {σ υ : Type} (r : Registry σ υ) (frameSize : Nat) (metadata : UploadMetadata)
    (reader : Reader) (s : σ) : Except GatewayError Artifact × σ :=
  match UploadSession.begin r frameSize metadata s with
  | (.error error, s) => (.error error, s)
  | (.ok session, s) =>
    match session.relay r reader s with
    | (.error error, session, s) => (.error error, session.abort r s)
    | (.ok _, session, s) => session.commit r s

end Depot
