import Depot.Framing

/-! The law of framing. Frames put together are the content they were cut from, and the frames that
a reader delivers are those of the bytes it delivers: how it splits them does not show. -/
namespace Depot.Framing

def join (frames : List ByteArray) : ByteArray := frames.foldl (· ++ ·) .empty

theorem foldl_append (front : ByteArray) (frames : List ByteArray) :
    frames.foldl (· ++ ·) front = front ++ join frames := by
  induction frames generalizing front with
  | nil => exact ByteArray.append_empty.symm
  | cons frame frames ih =>
    simp only [join, List.foldl_cons, ByteArray.empty_append]
    rw [ih, ih frame, ByteArray.append_assoc]

@[simp] theorem join_nil : join [] = .empty := rfl

@[simp] theorem join_cons (frame : ByteArray) (frames : List ByteArray) :
    join (frame :: frames) = frame ++ join frames := by
  simp only [join, List.foldl_cons, ByteArray.empty_append]
  exact foldl_append frame frames

@[simp] theorem join_append (frames rest : List ByteArray) :
    join (frames ++ rest) = join frames ++ join rest := by
  induction frames with
  | nil => exact ByteArray.empty_append.symm
  | cons frame frames ih => simp [ih, ByteArray.append_assoc]

variable {size : Nat}

theorem size_of_mem_full {content frame : ByteArray} (member : frame ∈ full size content) :
    frame.size = size := by
  obtain ⟨i, bound, rfl⟩ := List.mem_map.mp member
  have bound := List.mem_range.mp bound
  have inside : size * (i + 1) ≤ content.size :=
    Nat.le_trans (Nat.mul_le_mul_left size bound) (Nat.mul_div_le content.size size)
  rw [ByteArray.size_extract, Nat.min_eq_left inside, ← Nat.mul_sub]
  simp

theorem size_remainder (size : Nat) (content : ByteArray) :
    (remainder size content).size = content.size % size := by
  rw [remainder, ByteArray.size_extract, Nat.min_self, Nat.mod_eq_sub_mul_div]

theorem join_slices (size count : Nat) (content : ByteArray) :
    join ((List.range count).map fun i => content.extract (size * i) (size * (i + 1))) =
      content.extract 0 (size * count) := by
  induction count with
  | zero => exact ByteArray.extract_same.symm
  | succ count ih =>
    have next : size * count ≤ size * (count + 1) := Nat.mul_le_mul_left size (Nat.le_succ count)
    rw [List.range_succ, List.map_append, join_append, ih]
    simp [Nat.max_eq_right next]

theorem front_rest {content : ByteArray} {count : Nat} (inside : count ≤ content.size) :
    content.extract 0 count ++ content.extract count content.size = content := by
  rw [ByteArray.extract_append_extract]
  simp [Nat.max_eq_right inside]

theorem front_remainder (size : Nat) (content : ByteArray) :
    content.extract 0 (size * (content.size / size)) ++ remainder size content = content :=
  front_rest (Nat.mul_div_le content.size size)

theorem join_full (size : Nat) (content : ByteArray) :
    join (full size content) ++ remainder size content = content := by
  rw [full, join_slices, front_remainder]

/-- The bytes behind the last full frame, if there are any, are a frame of their own. -/
def last (rest : ByteArray) : List ByteArray := if rest.isEmpty then [] else [rest]

theorem isEmpty_iff (bytes : ByteArray) : bytes.isEmpty = true ↔ bytes = .empty := by
  simp [ByteArray.isEmpty, ByteArray.size_eq_zero_iff]

theorem join_last (rest : ByteArray) : join (last rest) = rest := by
  unfold last
  split
  next empty => exact ((isEmpty_iff rest).mp empty).symm
  next => simp

theorem cut_eq (size : Nat) (content : ByteArray) :
    cut size content = full size content ++ last (remainder size content) := by
  simp only [cut, last]
  split <;> simp

theorem eq_of_mem_last {rest frame : ByteArray} (member : frame ∈ last rest) :
    frame = rest := by
  unfold last at member
  split at member <;> simp_all

/-! ### How many frames there are, and of what size -/

theorem length_full (size : Nat) (content : ByteArray) :
    (full size content).length = content.size / size := by
  simp [full]

theorem join_full_eq (size : Nat) (content : ByteArray) :
    join (full size content) = content.extract 0 (size * (content.size / size)) := by
  rw [full, join_slices]

theorem last_eq_nil_iff {rest : ByteArray} : last rest = [] ↔ rest.size = 0 := by
  simp [last, ByteArray.isEmpty]

/-- As few frames as the size allows. -/
theorem length_cut (pos : 0 < size) (content : ByteArray) :
    (cut size content).length = (content.size + size - 1) / size := by
  have parts := Nat.div_add_mod content.size size
  have few := Nat.mod_lt content.size pos
  rw [cut_eq, List.length_append, length_full]
  by_cases exact : content.size % size = 0
  · have noRest : last (remainder size content) = [] := by
      rw [last_eq_nil_iff, size_remainder, exact]
    have total : content.size + size - 1 = size * (content.size / size) + (size - 1) := by omega
    rw [noRest, total, Nat.mul_add_div pos, Nat.div_eq_of_lt (Nat.sub_one_lt_of_lt pos)]
    rfl
  · have oneRest : (last (remainder size content)).length = 1 := by
      have someRest : ¬ (remainder size content).isEmpty = true := by
        simpa [ByteArray.isEmpty, size_remainder] using exact
      rw [last, if_neg someRest, List.length_singleton]
    have total : content.size + size - 1 =
        size * (content.size / size) + (size + (content.size % size - 1)) := by omega
    have less : content.size % size - 1 < size := by omega
    rw [oneRest, total, Nat.mul_add_div pos, Nat.add_div_left _ pos, Nat.div_eq_of_lt less]

/-- Only the last frame may be short. -/
theorem size_of_mem_dropLast {content frame : ByteArray}
    (member : frame ∈ (cut size content).dropLast) : frame.size = size := by
  rw [cut_eq] at member
  unfold last at member
  split at member
  · rw [List.append_nil] at member
    exact size_of_mem_full (List.dropLast_subset _ member)
  · rw [List.dropLast_concat] at member
    exact size_of_mem_full member

theorem of_mem_cut (pos : 0 < size) {content frame : ByteArray} (member : frame ∈ cut size content) :
    frame ≠ .empty ∧ frame.size ≤ size := by
  rw [cut_eq] at member
  rcases List.mem_append.mp member with front | rest
  · have whole := size_of_mem_full front
    refine ⟨?_, Nat.le_of_eq whole⟩
    rintro rfl
    exact absurd whole (Nat.ne_of_lt pos)
  · obtain rfl := eq_of_mem_last rest
    refine ⟨fun empty => ?_, ?_⟩
    · rw [last_eq_nil_iff.mpr (by rw [empty]; rfl)] at rest
      contradiction
    · rw [size_remainder]
      exact Nat.le_of_lt (Nat.mod_lt _ pos)

/-- Cutting content into frames and putting them together changes nothing. -/
theorem join_cut (size : Nat) (content : ByteArray) : join (cut size content) = content := by
  rw [cut_eq, join_append, join_last, join_full]

theorem cut_empty (size : Nat) : cut size .empty = [] := by
  simp [cut_eq, full, remainder, last, ByteArray.isEmpty]

theorem cut_eq_nil_iff (size : Nat) {content : ByteArray} :
    cut size content = [] ↔ content.size = 0 := by
  constructor
  · intro none
    have joined := join_cut size content
    rw [none, join_nil] at joined
    rw [← joined, ByteArray.size_empty]
  · intro empty
    rw [ByteArray.size_eq_zero_iff.mp empty, cut_empty]

theorem full_of_lt {content : ByteArray} (short : content.size < size) :
    full size content = [] ∧ remainder size content = content := by
  simp [full, remainder, Nat.div_eq_of_lt short]

theorem extract_front {front : ByteArray} {start stop : Nat} (inside : stop ≤ front.size)
    (rest : ByteArray) : (front ++ rest).extract start stop = front.extract start stop := by
  have nothing : rest.extract (start - front.size) (stop - front.size) = .empty := by
    rw [ByteArray.extract_eq_empty_iff]
    omega
  rw [ByteArray.extract_append, nothing, ByteArray.append_empty]

/-- Content that fills frames exactly is framed apart from what follows. -/
theorem full_append (pos : 0 < size) {front : ByteArray} {count : Nat}
    (whole : front.size = size * count) (rest : ByteArray) :
    full size (front ++ rest) = full size front ++ full size rest := by
  have frames : front.size / size = count := by rw [whole, Nat.mul_div_cancel_left count pos]
  have allFrames : (front ++ rest).size / size = count + rest.size / size := by
    rw [ByteArray.size_append, whole, Nat.mul_add_div pos]
  rw [full, full, full, allFrames, frames, List.range_add, List.map_append, List.map_map]
  congr 1
  · apply List.map_congr_left
    intro i bound
    have bound := List.mem_range.mp bound
    exact extract_front (whole ▸ Nat.mul_le_mul_left size bound) rest
  · apply List.map_congr_left
    intro i _
    simp only [Function.comp_apply, Nat.add_assoc, Nat.mul_add size count]
    exact ByteArray.extract_append_size_add' whole.symm

theorem remainder_append (pos : 0 < size) {front : ByteArray} {count : Nat}
    (whole : front.size = size * count) (rest : ByteArray) :
    remainder size (front ++ rest) = remainder size rest := by
  rw [remainder, remainder, ByteArray.size_append, whole, Nat.mul_add_div pos, Nat.mul_add]
  exact ByteArray.extract_append_size_add' whole.symm

theorem full_single (pos : 0 < size) {frame : ByteArray} (whole : frame.size = size) :
    full size frame = [frame] := by
  subst whole
  simp [full, Nat.div_self pos]

/-- The first frame is as long as it can be, and the others are those of what it leaves. -/
theorem cut_cons (pos : 0 < size) {content : ByteArray} (nonempty : 0 < content.size) :
    cut size content =
      content.extract 0 size :: cut size (content.extract size content.size) := by
  by_cases short : content.size < size
  · have whole : content.extract 0 size = content := by
      rw [← Nat.max_eq_left (Nat.le_of_lt short), ByteArray.extract_zero_max_size]
    have nothing : content.extract size content.size = .empty := by
      rw [ByteArray.extract_eq_empty_iff, Nat.min_self]
      exact Nat.le_of_lt short
    have oneRest : last content = [content] := by
      rw [last, if_neg (by simp [ByteArray.isEmpty, Nat.ne_of_gt nonempty])]
    have ⟨noFull, allRest⟩ := full_of_lt short
    rw [cut_eq, noFull, allRest, oneRest, whole, nothing, cut_empty, List.nil_append]
  · have inside : size ≤ content.size := Nat.le_of_not_lt short
    have whole : (content.extract 0 size).size = size := by
      rw [ByteArray.size_extract, Nat.min_eq_left inside, Nat.sub_zero]
    have one : (content.extract 0 size).size = size * 1 := by rw [whole, Nat.mul_one]
    conv => lhs; rw [← front_rest inside]
    rw [cut_eq, cut_eq, full_append pos one, remainder_append pos one, full_single pos whole,
      List.append_assoc, List.singleton_append]

/-- Where content is read in two parts, the second is framed behind what the first leaves. -/
theorem full_remainder (pos : 0 < size) (content more : ByteArray) :
    full size (content ++ more) =
      full size content ++ full size (remainder size content ++ more) ∧
    remainder size (content ++ more) = remainder size (remainder size content ++ more) := by
  let front := content.extract 0 (size * (content.size / size))
  have whole : front.size = size * (content.size / size) := by
    rw [ByteArray.size_extract, Nat.min_eq_left (Nat.mul_div_le content.size size), Nat.sub_zero]
  have parts : front ++ remainder size content = content := front_remainder size content
  have short : (remainder size content).size < size := by
    rw [size_remainder]
    exact Nat.mod_lt _ pos
  have frames : full size content = full size front := by
    conv => lhs; rw [← parts]
    rw [full_append pos whole, (full_of_lt short).1, List.append_nil]
  have joined : content ++ more = front ++ (remainder size content ++ more) := by
    rw [← ByteArray.append_assoc, parts]
  rw [joined, full_append pos whole, remainder_append pos whole, frames]
  exact ⟨rfl, rfl⟩

/-- A reader is framed as the bytes that it delivers before it ends or breaks. -/
theorem ofReader_eq (pos : 0 < size) {carried : ByteArray} (short : carried.size < size)
    (reader : Reader) : ofReader size carried reader =
      (full size (carried ++ reader.available),
        match reader.failure? with
        | none => .clean (remainder size (carried ++ reader.available))
        | some error => .broken error) := by
  -- Each piece is framed behind what the pieces before it left over.
  induction reader generalizing carried with
  | nil => simp [ofReader, Reader.available, Reader.failure?, full_of_lt short]
  | cons piece rest ih =>
    cases piece with
    | failure error => simp [ofReader, Reader.available, Reader.failure?, full_of_lt short]
    | data bytes =>
      have left : (remainder size (carried ++ bytes)).size < size := by
        rw [size_remainder]
        exact Nat.mod_lt _ pos
      have ⟨frames, behind⟩ := full_remainder pos (carried ++ bytes) (Reader.available rest)
      simp only [ofReader, ih left, Reader.available, Reader.failure?]
      rw [← ByteArray.append_assoc, frames, behind]

end Depot.Framing
