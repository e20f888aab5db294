/-! # Contents

Content is an array of bytes. Two contents are equal if they have the same bytes in the same order.
-/

namespace Depot

theorem content_ext_iff {a b : ByteArray} : a.data.toList = b.data.toList ↔ a = b := by
  constructor
  · intro h
    exact ByteArray.ext (Array.toList_inj.mp h)
  · rintro rfl
    rfl

instance instDecidableEqContent : DecidableEq ByteArray := fun _ _ =>
  decidable_of_iff _ content_ext_iff

end Depot
