import Depot.Gateway.Error
import Depot.Registry.Basic

/-! # Downloading

A version is looked up, pulled and put together in whole before anything of it is handed on, so
that a pull that breaks never shows as content cut short.
-/

namespace Depot

/-- Content received so far and what follows it, or the first error that follows. -/
def PullStream.append (received : ByteArray) : PullStream → Except RegistryError ByteArray
  | [] => .ok received
  | .ok frame :: rest => append (received ++ frame) rest
  | .error error :: _ => .error error

def PullStream.assemble (stream : PullStream) : Except RegistryError ByteArray :=
  PullStream.append .empty stream

/-- The record of a version as it was before the pull, and its content. -/
def download {σ υ : Type} (r : Registry σ υ) (id : Identifier) (s : σ) :
    Except GatewayError (Artifact × ByteArray) × σ :=
  match r.get id s with
  | (.error error, s) => (.error (.ofRegistry "looking up artifact" error), s)
  | (.ok artifact, s) =>
    match r.pull id s with
    | (.error error, s) => (.error (.ofRegistry "opening pull stream" error), s)
    | (.ok stream, s) =>
      match stream.assemble with
      | .error error => (.error (.transportFailure "receiving content frame" (.registry error)), s)
      | .ok content => (.ok (artifact, content), s)

end Depot
