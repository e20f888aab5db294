import Depot.Proofs.Calendar
import Depot.Proofs.DecimalText
import Depot.Time.Timestamp

/-! # Timestamps are read back as they are written

Every field is written with a fixed number of digits, so that the next mark ends it. The written
date is the one that the calendar gives for the day, and the calendar gives the day back.
-/

namespace Depot.Timestamp

open Decimal (padded takeDigits)

/-- A padded field that fills its width is read whole, whatever follows it. -/
theorem takeDigits_padded {width n : Nat} (wide : 0 < width) (fits : n < Nat.pow 10 width)
    (rest : List Char) :
    takeDigits width ((padded width n).toList ++ rest) = ((padded width n).toList, rest) :=
  have length := Decimal.length_padded wide fits
  Decimal.takeDigits_append (fun _ => Decimal.isDigit_of_mem_padded) (Nat.le_of_eq length)
    (.inl length)

theorem dropBlanks_padded (width n : Nat) (rest : List Char) :
    Text.dropBlanks ((padded width n).toList ++ rest) = (padded width n).toList ++ rest := by
  obtain ⟨c, digits, same, digit⟩ := Decimal.exists_padded width n
  rw [same, List.cons_append, Decimal.dropBlanks_digit digit]

theorem readNumber_padded (width n : Nat) (wide : 0 < width) (fits : n < Nat.pow 10 width)
    (rest : List Char) :
    readNumber width ((padded width n).toList ++ rest) = some (n, rest) := by
  obtain ⟨c, digits, same, digit⟩ := Decimal.exists_padded width n
  have value := Decimal.ofDigits_padded width n
  rw [readNumber, dropBlanks_padded, takeDigits_padded wide fits]
  rw [same] at value ⊢
  simp only [value]

theorem readYear_padded (n : Nat) (fits : n < 10000) (rest : List Char) :
    readYear ((padded 4 n).toList ++ rest) = some ((n : Int), rest) := by
  have number := readNumber_padded 4 n (by decide) fits rest
  obtain ⟨c, digits, same, digit⟩ := Decimal.exists_padded 4 n
  rw [readYear, dropBlanks_padded]
  rw [same, List.cons_append] at number ⊢
  split
  case h_1 minus => rw [(List.cons.inj minus).1] at digit; cases digit
  case h_2 plus => rw [(List.cons.inj plus).1] at digit; cases digit
  case h_3 => rw [number]; rfl

theorem readMark_same {mark : Char} (solid : Text.isBlank mark = false) (rest : List Char) :
    readMark mark (mark :: rest) = some rest := by
  simp [readMark, Text.dropBlanks, solid]

/-- Digits behind a point are scaled to nanoseconds by as many zeros as they lack. -/
theorem readFraction_padded (width n : Nat) (wide : 0 < width) (narrow : width ≤ 9)
    (fits : n < Nat.pow 10 width) :
    readFraction ('.' :: ((padded width n).toList ++ ['Z'])) =
      some (n * Nat.pow 10 (9 - width), ['Z']) := by
  have length := Decimal.length_padded wide fits
  have taken : takeDigits 9 ((padded width n).toList ++ ['Z']) = ((padded width n).toList, ['Z']) :=
    Decimal.takeDigits_append (fun _ => Decimal.isDigit_of_mem_padded) (by omega)
      (.inr (by simp; rfl))
  have value := Decimal.ofDigits_padded width n
  obtain ⟨c, digits, same, _⟩ := Decimal.exists_padded width n
  rw [same] at value length taken
  simp only [readFraction, same, taken, value, length]
  rfl

theorem readFraction_text {nanos : Nat} (small : nanos < 1000000000) :
    readFraction ((fractionText nanos).toList ++ ['Z']) = some (nanos, ['Z']) := by
  have behindPoint (digits : String) :
      ("." ++ digits).toList ++ ['Z'] = '.' :: (digits.toList ++ ['Z']) := by
    rw [String.toList_append]; rfl
  unfold fractionText
  split
  case isTrue none => rw [none]; rfl
  split
  case isTrue millis =>
    have exact : nanos / 1000000 * Nat.pow 10 (9 - 3) = nanos :=
      Nat.div_mul_cancel (Nat.dvd_of_mod_eq_zero millis)
    have few : nanos / 1000000 < 1000 := by omega
    rw [behindPoint, readFraction_padded 3 _ (by decide) (by decide) few, exact]
  split
  case isTrue micros =>
    have exact : nanos / 1000 * Nat.pow 10 (9 - 6) = nanos :=
      Nat.div_mul_cancel (Nat.dvd_of_mod_eq_zero micros)
    have few : nanos / 1000 < 1000000 := by omega
    rw [behindPoint, readFraction_padded 6 _ (by decide) (by decide) few, exact]
  case isFalse =>
    have exact : nanos * Nat.pow 10 (9 - 9) = nanos := Nat.mul_one nanos
    rw [behindPoint, readFraction_padded 9 _ (by decide) (by decide) small, exact]

def year (t : Timestamp) : Int := (Date.ofDays (t.seconds / 86400)).year

/-- No leap second, and a year that is written with four digits. -/
structure Common (t : Timestamp) : Prop where
  nanos_lt : t.nanos < 1000000000
  year_nonneg : 0 ≤ t.year
  year_le : t.year ≤ 9999

/-- The date and the time of day of an instant make up the instant. -/
theorem ofLocal_self {t : Timestamp} (common : t.Common) :
    let time := (t.seconds % 86400).toNat
    ofLocal (Date.ofDays (t.seconds / 86400)) (time / 3600) (time / 60 % 60) (time % 60)
      t.nanos 0 = some t := by
  intro time
  have valid := Date.ofDays_isValid (t.seconds / 86400)
  have lower := common.year_nonneg
  have upper := common.year_le
  have inDay : (time : Int) = t.seconds % 86400 ∧ time < 86400 := by omega
  have noLeap : ¬ time % 60 = 60 := by omega
  have whole : (Date.ofDays (t.seconds / 86400)).toDays * 86400 + 3600 * ((time / 3600 : Nat) : Int) +
      60 * ((time / 60 % 60 : Nat) : Int) + ((time % 60 : Nat) : Int) - ((0 : Nat) : Int) - 0 =
      t.seconds := by
    rw [Date.toDays_ofDays]
    omega
  have inYears : yearRange t.year = true := by
    simp only [yearRange, Bool.and_eq_true, decide_eq_true_eq]
    omega
  rw [year] at inYears
  have hour : time / 3600 < 24 := by omega
  have minute : time / 60 % 60 < 60 := by omega
  have second : time % 60 ≤ 60 := by omega
  simp only [ofLocal, if_neg noLeap, whole]
  exact if_pos ⟨inYears, valid, hour, minute, second, inYears⟩

/-- The fields of a written timestamp and the marks between them. -/
theorem toList_text {t : Timestamp} (common : t.Common) :
    let date := Date.ofDays (t.seconds / 86400)
    let time := (t.seconds % 86400).toNat
    t.text.toList = (padded 4 date.year.toNat).toList ++ '-' :: ((padded 2 date.month).toList ++
      '-' :: ((padded 2 date.day).toList ++ 'T' :: ((padded 2 (time / 3600)).toList ++
        ':' :: ((padded 2 (time / 60 % 60)).toList ++ ':' :: ((padded 2 (time % 60)).toList ++
          ((fractionText t.nanos).toList ++ ['Z'])))))) := by
  intro date time
  have year : yearText date.year = padded 4 date.year.toNat :=
    if_pos ⟨common.year_nonneg, common.year_le⟩
  have dash : "-".toList = ['-'] := rfl
  have colon : ":".toList = [':'] := rfl
  have separator : "T".toList = ['T'] := rfl
  have zone : "Z".toList = ['Z'] := rfl
  simp only [text, if_pos common.nanos_lt, Nat.zero_mul, Nat.sub_zero, Nat.add_zero,
    String.toList_append, List.append_assoc, List.cons_append, List.nil_append, dash, colon,
    separator, zone]
  rw [← year]

theorem parse?_text {t : Timestamp} (common : t.Common) : parse? t.text = some t := by
  have back := ofLocal_self common
  have fields := toList_text common
  have fraction := readFraction_text common.nanos_lt
  obtain ⟨month_pos, month_le, day_pos, day_le⟩ := Date.ofDays_isValid (t.seconds / 86400)
  have lower := common.year_nonneg
  have upper := common.year_le
  unfold year at lower upper
  have inDay : (t.seconds % 86400).toNat < 86400 := by omega
  generalize (t.seconds % 86400).toNat = time at back fields inDay
  generalize Date.ofDays (t.seconds / 86400) = date at *
  have day_le := Nat.le_trans day_le (Date.daysInMonth_le date.year date.month)
  have whole : (date.year.toNat : Int) = date.year := Int.toNat_of_nonneg lower
  have dash (rest : List Char) : readMark '-' ('-' :: rest) = some rest := readMark_same rfl rest
  have colon (rest : List Char) : readMark ':' (':' :: rest) = some rest := readMark_same rfl rest
  have zone : readOffset (Text.dropBlanks ['Z']) = some (0, []) := rfl
  have field (n : Nat) (small : n < 100) := readNumber_padded 2 n (by decide) small
  have readDate := readYear_padded date.year.toNat (by omega)
  simp only [parse?, fields, readDate, field date.month (by omega), field date.day (by omega),
    field (time / 3600) (by omega), field (time / 60 % 60) (by omega), field (time % 60) (by omega),
    dash, colon, fraction, zone, bind, Option.bind_some, whole, back]
  rfl

end Depot.Timestamp
