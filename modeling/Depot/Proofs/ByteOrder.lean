import Depot.Content
import Mathlib.Tactic.SplitIfs

/-! Texts in the order of their bytes. UTF-8 keeps the order of the code points: of two characters
the smaller begins with a smaller byte, or has a smaller byte after some that are the same. -/
namespace Depot.Utf8

/-- Whatever follows them, two characters are in the order of their encodings. -/
theorem encodeChar_lt {c d : Char} (less : c < d) (front back : List UInt8) :
    String.utf8EncodeChar c ++ front < String.utf8EncodeChar d ++ back := by
  have less : c.val.toNat < d.val.toNat := UInt32.lt_iff_toNat_lt.mp less
  have bound : d.val.toNat < 0x110000 := by
    rcases d.valid with small | ⟨_, large⟩
    · exact Nat.lt_trans small (by decide)
    · exact large
  simp only [String.utf8EncodeChar]
  -- Each of the two characters has one to four bytes.
  split_ifs <;>
    simp (disch := omega) only [List.cons_append, List.cons_lt_cons_iff, UInt8.lt_iff_toNat_lt,
      ← UInt8.toNat_inj, UInt8.toNat_ofNat', Nat.reducePow, Nat.mod_eq_of_lt] <;>
    omega

theorem encode_lt {front back : List Char} (less : front < back) :
    front.flatMap String.utf8EncodeChar < back.flatMap String.utf8EncodeChar := by
  induction less with
  | @nil c rest =>
    obtain ⟨b, more, parts⟩ := List.exists_cons_of_ne_nil (@String.utf8EncodeChar_ne_nil c)
    rw [List.flatMap_cons, parts]
    exact List.nil_lt_cons b _
  | cons _ ih => exact List.append_left_lt ih
  | rel less => exact encodeChar_lt less _ _

theorem toUTF8_toList (text : String) :
    text.toUTF8.data.toList = text.toList.flatMap String.utf8EncodeChar := by
  conv => lhs; rw [← String.ofList_toList (s := text)]
  rw [String.toUTF8_eq_toByteArray]
  exact congrArg Array.toList List.data_toByteArray

theorem toUTF8_inj (a b : String) : a.toUTF8.data.toList = b.toUTF8.data.toList ↔ a = b :=
  content_ext_iff.trans String.toByteArray_inj

/-- Texts compare as their bytes do. -/
theorem toUTF8_lt_iff (a b : String) : a.toUTF8.data.toList < b.toUTF8.data.toList ↔ a < b := by
  rw [toUTF8_toList, toUTF8_toList, String.lt_iff]
  refine ⟨fun less => Decidable.byContradiction fun notBefore => ?_, encode_lt⟩
  rcases List.le_iff_lt_or_eq.mp (List.not_lt.mp notBefore) with after | same
  · exact List.lt_asymm less (encode_lt after)
  · rw [same] at less
    exact List.lt_irrefl _ less

example : "\ufb01" < "😀" := by decide

theorem compare_lt_iff (a b : String) :
    compare a b = .lt ↔ a.toUTF8.data.toList < b.toUTF8.data.toList := by
  rw [toUTF8_lt_iff]
  exact compareOfLessAndEq_eq_lt

end Depot.Utf8
