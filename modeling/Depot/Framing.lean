import Depot.Reader

/-! # Framing

Content travels in frames of one size, the last of which may be shorter. Where the frames are cut
depends on the bytes alone, not on the pieces in which a reader delivers them.
-/

namespace Depot.Framing

/-- The frames of exactly the given size at the front of the content. -/
def full (size : Nat) (content : ByteArray) : List ByteArray :=
  (List.range (content.size / size)).map fun i => content.extract (size * i) (size * (i + 1))

def remainder (size : Nat) (content : ByteArray) : ByteArray :=
  content.extract (size * (content.size / size)) content.size

/-- All frames of the content; none is empty. -/
def cut (size : Nat) (content : ByteArray) : List ByteArray :=
  let rest := remainder size content
  if rest.isEmpty then full size content else full size content ++ [rest]

/-- How the frames of a reader end: with bytes that fill no frame, or in the middle of content. -/
inductive Ending where
  | clean (rest : ByteArray)
  | broken (error : ReadError)
  deriving DecidableEq

/-- The full frames that a reader delivers behind bytes already read, and how it ends. -/
def ofReader (size : Nat) (carried : ByteArray) : Reader → List ByteArray × Ending
  | [] => ([], .clean carried)
  | .failure error :: _ => ([], .broken error)
  | .data bytes :: rest =>
    let content := carried ++ bytes
    let (frames, ending) := ofReader size (remainder size content) rest
    (full size content ++ frames, ending)

end Depot.Framing
