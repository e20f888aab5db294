import Depot.Proofs.Framing
import Depot.Proofs.StoreInvariant
import Mathlib.Algebra.Order.Floor.Div

/-! Where pulled content is cut. Stepping through content by the size of a frame gives spans that
lie inside it, one behind the other, and the bytes in them are the frames of a pull. -/
namespace Depot

namespace Framing

variable {size : Nat}

/-- A stretch of content, from its first byte to the place behind its last. -/
structure Span where
  start : Nat
  stop : Nat
  deriving DecidableEq, Repr

/-- One span for each step through the content from a place on. The last step ends with the
content. -/
def spansFrom (size length start : Nat) : List Span :=
  if start < length ∧ 0 < size then
    ⟨start, min (start + size) length⟩ :: spansFrom size length (start + size)
  else []
termination_by length - start

def slice? (content : ByteArray) (span : Span) : Option ByteArray :=
  if span.start ≤ span.stop ∧ span.stop ≤ content.size then
    some (content.extract span.start span.stop)
  else none

theorem of_mem_spansFrom {length start : Nat} {span : Span}
    (member : span ∈ spansFrom size length start) :
    start ≤ span.start ∧ span.start < span.stop ∧ span.stop ≤ length := by
  fun_induction spansFrom size length start with
  | case1 start inside ih =>
    rcases List.mem_cons.mp member with rfl | later
    · simp only
      omega
    · have behind := ih later
      omega
  | case2 => contradiction

example : spansFrom 4 10 0 = [⟨0, 4⟩, ⟨4, 8⟩, ⟨8, 10⟩] := by cbv

/-- No slice fails, and together they are the frames of what stands behind the place. -/
theorem slices_spansFrom (pos : 0 < size) (content : ByteArray) (start : Nat) :
    (spansFrom size content.size start).mapM (slice? content) =
      some (cut size (content.extract start content.size)) := by
  -- The first span holds the first frame, and what that frame leaves stands behind the next place.
  fun_induction spansFrom size content.size start with
  | case1 start inside ih =>
    have length : (content.extract start content.size).size = content.size - start := by
      rw [ByteArray.size_extract, Nat.min_self]
    have first : slice? content ⟨start, min (start + size) content.size⟩ =
        some ((content.extract start content.size).extract 0 size) := by
      rw [slice?, if_pos (by simp only; omega), ByteArray.extract_extract, Nat.add_zero]
    have rest : (content.extract start content.size).extract size (content.size - start) =
        content.extract (start + size) content.size := by
      rw [ByteArray.extract_extract, Nat.add_sub_of_le (Nat.le_of_lt inside.1), Nat.min_self]
    rw [cut_cons pos (by omega), length, rest, List.mapM_cons, first, ih]
    rfl
  | case2 start outside =>
    have nothing : content.extract start content.size = .empty := by
      rw [ByteArray.extract_eq_empty_iff, Nat.min_self]
      omega
    rw [nothing, cut_empty]
    rfl

theorem size_join (frames : List ByteArray) :
    (join frames).size = (frames.map ByteArray.size).sum := by
  induction frames with
  | nil => rfl
  | cons frame frames ih => simp [ByteArray.size_append, ih]

end Framing

namespace Store

open Framing (join slice? spansFrom)

variable {s : Store} {id : Identifier} {v : Version}

/-- Of content of any length, a pull of a stored version gives as many frames as it takes, all of
one size but the last, none of them empty, and together the content. They are the slices that a walk
through the content by the size of a frame comes to, none of which reaches out of the content. The
log gets their sizes, which add up to the length. -/
theorem pulled_frames_partition_content (found : Versions.resolve s.versions id = some v) :
    let length := v.content.size
    let spans := spansFrom maxFrameSize length 0
    ∃ frames, (s.pull id).1 = .ok frames ∧
      spans.mapM (slice? v.content) = some frames ∧
      (∀ span ∈ spans, span.start < span.stop ∧ span.stop ≤ length) ∧
      frames.length = length ⌈/⌉ maxFrameSize ∧
      (∀ frame ∈ frames.dropLast, frame.size = maxFrameSize) ∧
      (∀ frame ∈ frames, frame ≠ .empty ∧ frame.size ≤ maxFrameSize) ∧
      (frames = [] ↔ length = 0) ∧
      join frames = v.content ∧
      (s.pull id).2.transfers = s.transfers ++ [.pull id (frames.map ByteArray.size)] ∧
      (frames.map ByteArray.size).sum = length := by
  intro length spans
  have pos : 0 < maxFrameSize := by decide
  have pulled := (acts_of_resolve found).pull
  have walked := Framing.slices_spansFrom pos v.content 0
  rw [ByteArray.extract_zero_size] at walked
  refine ⟨Framing.cut maxFrameSize v.content, congrArg Prod.fst pulled, walked,
    fun span member => (Framing.of_mem_spansFrom member).2, ?_,
    fun frame => Framing.size_of_mem_dropLast, fun frame => Framing.of_mem_cut pos,
    Framing.cut_eq_nil_iff maxFrameSize, Framing.join_cut maxFrameSize v.content,
    congrArg (fun answer => answer.2.transfers) pulled, ?_⟩
  · rw [Framing.length_cut pos, Nat.ceilDiv_eq_add_pred_div]
  · rw [← Framing.size_join, Framing.join_cut]

/-- Ten bytes more than fit one frame. -/
def longContent : ByteArray := ⟨.replicate (maxFrameSize + 10) 7⟩

def longTool : Version where
  name := Traffic.toolName
  hash := Sha256.hex longContent
  content := longContent
  tags := ["big"]
  pulls := 0
  created := ⟨0, 0⟩

theorem long_tool_pulled_in_two_frames :
    let s : Store := { versions := [longTool] }
    let big : Identifier := ⟨Traffic.toolName, .tag "big", by decide⟩
    Versions.resolve s.versions big = some longTool ∧
    ∃ frames, (s.pull big).1 = .ok frames ∧ frames.map ByteArray.size = [maxFrameSize, 10] ∧
      join frames = longContent ∧
      (s.pull big).2.transfers = [.pull big [maxFrameSize, 10]] := by
  intro s big
  have found : Versions.resolve s.versions big = some longTool := rfl
  have length : longTool.content.size = maxFrameSize + 10 := Array.size_replicate
  obtain ⟨frames, pulled, _, _, count, whole, _, _, joined, logged, total⟩ :=
    pulled_frames_partition_content found
  have two : frames.length = 2 := by
    rw [count, length, Nat.ceilDiv_eq_add_pred_div]
    decide
  obtain ⟨first, rest, rfl⟩ := List.length_eq_two.mp two
  have firstSize : first.size = maxFrameSize := whole first (by simp)
  have restSize : rest.size = 10 := by
    have sum : first.size + rest.size = maxFrameSize + 10 := by
      simpa [length] using total
    omega
  have sizes : [first, rest].map ByteArray.size = [maxFrameSize, 10] := by
    simp [firstSize, restSize]
  exact ⟨found, _, pulled, sizes, joined, sizes ▸ logged⟩

end Store

end Depot
