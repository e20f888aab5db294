import Depot.Proofs.Trace

/-! What an upload has accepted. The frames that a trace says were accepted are the first metadata
and behind it content, in the order in which they were sent, and the upload holds exactly these. So
the trace says what closing the upload commits. -/
namespace Depot

open Framing (join)

namespace UploadFrame

def metadata? : UploadFrame → Option UploadMetadata
  | .metadata sent => some sent
  | .content _ => none

def bytes? : UploadFrame → Option ByteArray
  | .metadata _ => none
  | .content bytes => some bytes

end UploadFrame

namespace Upload

variable {u v : Upload}

def taken (u : Upload) : List UploadFrame :=
  (u.metadata.map .metadata).toList ++ u.frames.toList.map .content

/-- Content comes behind metadata only. -/
def IsOrdered (u : Upload) : Prop := u.metadata = none → u.frames = #[]

theorem IsOrdered.send {frame : UploadFrame} (ordered : u.IsOrdered)
    (sent : u.send frame = (.ok (), v)) : v.IsOrdered ∧ v.taken = u.taken ++ [frame] := by
  have turn := u.send_sent frame
  rw [sent] at turn
  cases turn with
  | named going unnamed metadata => simp [IsOrdered, taken, unnamed, ordered unnamed]
  | extended going named small => simp [IsOrdered, taken, named]

theorem taken_metadata (u : Upload) : u.taken.findSome? UploadFrame.metadata? = u.metadata := by
  have none_named (frames : List ByteArray) :
      (frames.map UploadFrame.content).findSome? UploadFrame.metadata? = none := by
    simp [UploadFrame.metadata?]
  rw [taken, List.findSome?_append, none_named]
  cases u.metadata <;> rfl

theorem taken_frames (u : Upload) : u.taken.filterMap UploadFrame.bytes? = u.frames.toList := by
  have all_content : UploadFrame.bytes? ∘ UploadFrame.content = some := rfl
  rw [taken, List.filterMap_append, List.filterMap_map, all_content, List.filterMap_some]
  cases u.metadata <;> rfl

end Upload

namespace Traffic

def acceptedMetadata? (t : Trace) : Option UploadMetadata :=
  (accepted t).findSome? UploadFrame.metadata?

/-- The content that was accepted, one frame behind the other. -/
def acceptedContent (t : Trace) : ByteArray := join ((accepted t).filterMap UploadFrame.bytes?)

/-- The upload has taken what was accepted, and nothing else. -/
def Collects (t : Trace) : Handle → Prop
  | .unused => accepted t = []
  | .held u => u.IsOrdered ∧ accepted t = u.taken
  | .dropped => True

variable {t : Trace} {event : Step × Answer} {u : Upload}

theorem Collects.quiet {h : Handle} (collects : Collects t h)
    (none_accepted : accepted [event] = []) : Collects (t ++ [event]) h := by
  cases h with
  | unused => simpa [Collects, accepted_append, none_accepted] using collects
  | held u => simpa [Collects, accepted_append, none_accepted] using collects
  | dropped => trivial

theorem collects_tracks : Tracks Collects where
  fresh := rfl
  quiet collects none_accepted _ := collects.quiet none_accepted
  opened i unsent := by
    refine ⟨fun _ => rfl, ?_⟩
    rw [accepted_append, show accepted _ = [] from unsent]
    rfl
  accepted i collects sent := by
    obtain ⟨ordered, taken⟩ := collects
    obtain ⟨stillOrdered, more⟩ := ordered.send sent
    refine ⟨stillOrdered, ?_⟩
    rw [accepted_append, taken, more]
    rfl
  closed i answer collects := collects.quiet (h := .held _) rfl
  dropped _ := trivial

theorem collects_start (i : Nat) : Collects (trail i []) (start.handles i) := collects_tracks.fresh

theorem Collects.metadata (collects : Collects t (.held u)) :
    acceptedMetadata? t = u.metadata := by
  rw [acceptedMetadata?, collects.2, Upload.taken_metadata]

theorem Collects.content (collects : Collects t (.held u)) : acceptedContent t = u.content := by
  rw [acceptedContent, collects.2, Upload.taken_frames, Upload.content_eq]

end Traffic

end Depot
