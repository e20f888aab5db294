import Depot.Text.Blank
import Depot.Text.Decimal

/-! # Decimal numbers are read back as they are written -/

namespace Depot.Decimal

theorem value?_of_isDigit {c : Char} (digit : c.isDigit = true) :
    value? c = some (c.toNat - '0'.toNat) := by
  have range := Char.isDigit_iff_toNat.1 digit
  simp only [value?, Char.le_def, UInt32.le_iff_toNat_le, Char.toNat_val]
  exact if_pos range

theorem isDigit_of_isDigit {c : Char} (digit : c.isDigit = true) : isDigit c = true := by
  simp [isDigit, value?_of_isDigit digit]

theorem toNat_of_isDigit {c : Char} (digit : isDigit c = true) :
    48 ≤ c.toNat ∧ c.toNat ≤ 57 := by
  simp only [isDigit, value?, Option.isSome_ite] at digit
  simpa [Char.le_def, UInt32.le_iff_toNat_le] using digit

/-- A digit is no blank. -/
theorem dropBlanks_digit {c : Char} (digit : isDigit c = true) (text : List Char) :
    Text.dropBlanks (c :: text) = c :: text := by
  have range := toNat_of_isDigit digit
  have solid : Text.isBlank c = false := by
    simp [Text.isBlank]
    omega
  simp [Text.dropBlanks, solid]

theorem ofDigits_eq_ofDigitChars {digits : List Char} (all : ∀ c ∈ digits, c.isDigit = true)
    (init : Nat) :
    digits.foldl (fun n c => 10 * n + (value? c).getD 0) init =
      Nat.ofDigitChars 10 digits init := by
  induction digits generalizing init with
  | nil => rfl
  | cons c digits ih =>
    simp only [List.mem_cons, forall_eq_or_imp] at all
    rw [List.foldl_cons, ih all.2, value?_of_isDigit all.1, Nat.ofDigitChars_cons]
    rfl

theorem isDigit_of_mem_toDigits {n : Nat} {c : Char} (mem : c ∈ Nat.toDigits 10 n) :
    c.isDigit = true :=
  Nat.isDigit_of_mem_toDigits (by decide) (by decide) mem

@[simp] theorem ofDigits_toDigits (n : Nat) : ofDigits (Nat.toDigits 10 n) = n := by
  rw [ofDigits, ofDigits_eq_ofDigitChars fun c => isDigit_of_mem_toDigits]
  exact Nat.ofDigitChars_toDigits (by decide) (by decide)

/-- Zeros in front change nothing. -/
theorem ofDigits_zeros (count : Nat) (digits : List Char) :
    ofDigits (List.replicate count '0' ++ digits) = ofDigits digits := by
  induction count with
  | zero => rfl
  | succ count ih =>
    rw [← ih, List.replicate_succ, List.cons_append]
    rfl

theorem toList_padded (width n : Nat) : (padded width n).toList =
    List.replicate (width - (Nat.toDigits 10 n).length) '0' ++ Nat.toDigits 10 n := by
  have digits : (toString n).toList = Nat.toDigits 10 n := Nat.toList_repr
  rw [padded, String.toList_append, String.toList_ofList, ← String.length_toList, digits]

theorem isDigit_of_mem_padded {width n : Nat} {c : Char} (mem : c ∈ (padded width n).toList) :
    isDigit c = true := by
  rw [toList_padded, List.mem_append, List.mem_replicate] at mem
  rcases mem with ⟨_, rfl⟩ | mem
  · rfl
  · exact isDigit_of_isDigit (isDigit_of_mem_toDigits mem)

@[simp] theorem ofDigits_padded (width n : Nat) : ofDigits (padded width n).toList = n := by
  rw [toList_padded, ofDigits_zeros, ofDigits_toDigits]

theorem length_padded {width n : Nat} (wide : 0 < width) (fits : n < Nat.pow 10 width) :
    (padded width n).toList.length = width := by
  have short := (Nat.length_toDigits_le_iff (by decide) wide).2 fits
  rw [toList_padded, List.length_append, List.length_replicate]
  omega

theorem exists_padded (width n : Nat) :
    ∃ c digits, (padded width n).toList = c :: digits ∧ isDigit c = true := by
  cases same : (padded width n).toList with
  | nil =>
    have some : 0 < (Nat.toDigits 10 n).length := Nat.length_toDigits_pos
    rw [toList_padded] at same
    simp_all
  | cons c digits => exact ⟨c, digits, rfl, isDigit_of_mem_padded (by rw [same]; simp)⟩

/-- The digits are taken up to the next character that is none, or as many as may be taken. -/
theorem takeDigits_append {limit : Nat} {digits rest : List Char}
    (all : ∀ c ∈ digits, isDigit c = true) (few : digits.length ≤ limit)
    (stop : digits.length = limit ∨ ∀ c ∈ rest.head?, isDigit c = false) :
    takeDigits limit (digits ++ rest) = (digits, rest) := by
  induction digits generalizing limit with
  | nil =>
    cases limit with
    | zero => rfl
    | succ limit =>
      cases rest with
      | nil => rfl
      | cons c rest =>
        have other : isDigit c = false := by simpa using stop
        simp [takeDigits, other]
  | cons c digits ih =>
    cases limit with
    | zero => simp at few
    | succ limit =>
      simp only [List.mem_cons, forall_eq_or_imp, List.length_cons, Nat.add_le_add_iff_right,
        Nat.add_right_cancel_iff] at all few stop
      simp [takeDigits, all.1, ih all.2 few stop]

end Depot.Decimal
