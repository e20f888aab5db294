/-! # Transfer states
-/

namespace Depot

inductive TransferState where
  | idle
  | streamOpen
  | transferring
  | finalizing
  | committed
  | failed
  deriving DecidableEq, Repr

namespace TransferState

def text : TransferState → String
  | .idle => "idle"
  | .streamOpen => "stream-open"
  | .transferring => "transferring"
  | .finalizing => "finalizing"
  | .committed => "committed"
  | .failed => "failed"

def isFinal : TransferState → Bool
  | .committed | .failed => true
  | _ => false

end TransferState

end Depot
