import Depot.Time.Calendar

/-! # The calendar counts every day once

An era is cut into four centuries, a century into 25 spans of four years, a span into four years;
the last of these may be a day longer than the others. Every day of an era is reached this way, and
`Date.ofDays` recovers the cut from the day's number alone.
-/

namespace Depot.Date

/-- A day of an era: its century, the span of four years in it, the year of the span, and the days
of that year before it. -/
structure EraDay where
  century : Nat
  span : Nat
  year : Nat
  day : Nat
  century_le : century ≤ 3
  span_le : span ≤ 24
  year_le : year ≤ 3
  day_le : day ≤ 365
  /-- Leap days end spans, save the last span of each century but the fourth. -/
  leap : day = 365 → year = 3 ∧ (span = 24 → century = 3)

namespace EraDay

def number (d : EraDay) : Nat := 36524 * d.century + 1461 * d.span + 365 * d.year + d.day

def yearOfEra (d : EraDay) : Nat := 100 * d.century + 4 * d.span + d.year

theorem exists_number (dayOfEra : Nat) (inEra : dayOfEra < 146097) :
    ∃ d : EraDay, d.number = dayOfEra := by
  let century := min (dayOfEra / 36524) 3
  let inCentury := dayOfEra - 36524 * century
  let span := inCentury / 1461
  let inSpan := inCentury - 1461 * span
  let year := min (inSpan / 365) 3
  have fromCentury : 36524 * century ≤ dayOfEra ∧ inCentury ≤ 36524 ∧
      (inCentury = 36524 → century = 3) := by omega
  have fromSpan : inSpan ≤ 1460 ∧ span ≤ 24 := by omega
  refine ⟨⟨century, span, year, inSpan - 365 * year, ?_, fromSpan.2, ?_, ?_, ?_⟩, ?_⟩
  · omega
  · omega
  · omega
  · omega
  · simp only [number]
    omega

variable (d : EraDay)

theorem number_lt : d.number < 146097 := by
  rcases d with ⟨century, span, year, day, hc, hs, hy, hd, leap⟩
  simp only [number]
  omega

theorem yearOfEra_lt : d.yearOfEra < 400 := by
  have := d.century_le
  have := d.span_le
  have := d.year_le
  simp only [yearOfEra]
  omega

theorem number_eq : d.number =
    365 * d.yearOfEra + d.yearOfEra / 4 - d.yearOfEra / 100 + d.day := by
  have := d.span_le
  have := d.year_le
  simp only [number, yearOfEra]
  omega

/-- Taking the leap days out of the count leaves whole years of 365 days. The quotient by 1460 is
one too large in the last days of a span, and then those days are not the first of their year. -/
theorem yearOfEra_eq : d.yearOfEra =
    (d.number - d.number / 1460 + d.number / 36524 - d.number / 146096) / 365 := by
  rcases d with ⟨century, span, year, day, hc, hs, hy, hd, leap⟩
  simp only [number, yearOfEra]
  have spans : (36524 * century + 1461 * span + 365 * year + day) / 1460 = 25 * century + span +
      (24 * century + span + 365 * year + day) / 1460 := by omega
  -- the last day of an era is the only one that both longer quotients count
  have lastDay : 1461 * span + 365 * year + day < 36524 ∨
      century = 3 ∧ 1461 * span + 365 * year + day = 36524 := by omega
  have centuries : (36524 * century + 1461 * span + 365 * year + day) / 36524 = century +
      (36524 * century + 1461 * span + 365 * year + day) / 146096 := by
    rcases lastDay with inside | ⟨rfl, last⟩ <;> omega
  omega

end EraDay

/-- The date of a day in a year that starts in March. -/
def ofYearDay (year : Int) (day : Nat) : Date :=
  let month := (5 * day + 2) / 153
  let inMonth := day - (153 * month + 2) / 5 + 1
  if month < 10 then ⟨year, month + 3, inMonth⟩ else ⟨year + 1, month - 9, inMonth⟩

theorem ofDays_eq (era : Int) (d : EraDay) :
    ofDays (era * 146097 + d.number - 719468) = ofYearDay (d.yearOfEra + era * 400) d.day := by
  have inEra := d.number_lt
  have shifted : era * 146097 + d.number - 719468 + 719468 = era * 146097 + d.number := by omega
  have eraEq : (era * 146097 + (d.number : Int)) / 146097 = era := by omega
  have dayEq : (era * 146097 + (d.number : Int) - era * 146097).toNat = d.number := by omega
  have inYear : d.number - (365 * d.yearOfEra + d.yearOfEra / 4 - d.yearOfEra / 100) = d.day := by
    have := d.number_eq
    omega
  simp only [ofDays, ofYearDay, shifted, eraEq, dayEq, ← d.yearOfEra_eq, inYear]

theorem daysInMonth_le (year : Int) (month : Nat) : daysInMonth year month ≤ 31 := by
  unfold daysInMonth
  split
  · split <;> decide
  · split <;> decide

/-- The days before a month, counted from March. -/
theorem monthStart_le (day : Nat) : (153 * ((5 * day + 2) / 153) + 2) / 5 ≤ day := by
  omega

theorem toDays_ofYearDay (year : Int) {day : Nat} (inYear : day ≤ 365) :
    (ofYearDay year day).toDays = year / 400 * 146097 +
      ((year - year / 400 * 400) * 365 + (year - year / 400 * 400) / 4 -
        (year - year / 400 * 400) / 100 + day) - 719468 := by
  have monthLt : (5 * day + 2) / 153 < 12 := by omega
  have start := monthStart_le day
  unfold ofYearDay
  generalize (5 * day + 2) / 153 = month at monthLt start
  have dayOfYear : (153 * (month : Int) + 2) / 5 +
      (((day - (153 * month + 2) / 5 + 1 : Nat) : Int) - 1) = day := by omega
  by_cases march : month < 10
  · have late : ¬ month + 3 ≤ 2 := by omega
    have back : ((month + 3 : Nat) : Int) - 3 = month := by omega
    simp only [march, if_true, toDays, late, if_false, gt_iff_lt, Nat.lt_of_not_le late, back,
      dayOfYear]
  · have early : month - 9 ≤ 2 := by omega
    have back : ((month - 9 : Nat) : Int) + 9 = month := by omega
    have sameYear : year + 1 - 1 = year := by omega
    simp only [march, if_false, toDays, early, if_true, gt_iff_lt, Nat.not_lt.2 early, back,
      sameYear, dayOfYear]

/-- Only the last day of a leap year has the number 365. -/
theorem ofYearDay_isValid {year : Int} {day : Nat} (inYear : day ≤ 365)
    (leap : day = 365 → isLeapYear (year + 1) = true) : (ofYearDay year day).IsValid := by
  have monthLt : (5 * day + 2) / 153 < 12 := by omega
  have start := monthStart_le day
  have stop : day < (153 * ((5 * day + 2) / 153 + 1) + 2) / 5 := by omega
  unfold ofYearDay
  generalize (5 * day + 2) / 153 = month at monthLt start stop
  by_cases march : month < 10
  · simp only [march, if_true, IsValid, daysInMonth]
    refine ⟨by omega, by omega, by omega, ?_⟩
    split
    · omega
    · split <;> omega
  · simp only [march, if_false, IsValid, daysInMonth]
    refine ⟨by omega, by omega, by omega, ?_⟩
    split
    · by_cases last : day = 365
      · simp only [leap last, if_true]
        omega
      · split <;> omega
    · split <;> omega

theorem EraDay.isLeapYear (d : EraDay) (era : Int) (last : d.day = 365) :
    isLeapYear (d.yearOfEra + era * 400 + 1) = true := by
  have inEra := d.yearOfEra_lt
  rcases d with ⟨century, span, year, day, hc, hs, hy, hd, leap⟩
  obtain ⟨rfl, leap⟩ := leap last
  simp only [Date.isLeapYear, yearOfEra, Bool.or_eq_true, Bool.and_eq_true, beq_iff_eq, bne_iff_ne]
  omega

/-- Every day is the day of an era. -/
theorem exists_eraDay (days : Int) :
    ∃ (era : Int) (d : EraDay), days = era * 146097 + d.number - 719468 := by
  obtain ⟨d, number⟩ := EraDay.exists_number ((days + 719468) % 146097).toNat (by omega)
  exact ⟨(days + 719468) / 146097, d, by omega⟩

theorem toDays_ofDays (days : Int) : (ofDays days).toDays = days := by
  obtain ⟨era, d, rfl⟩ := exists_eraDay days
  have inEra := d.yearOfEra_lt
  have number := d.number_eq
  rw [ofDays_eq, toDays_ofYearDay _ d.day_le]
  have eraEq : ((d.yearOfEra : Int) + era * 400) / 400 = era := by omega
  rw [eraEq]
  omega

theorem ofDays_isValid (days : Int) : (ofDays days).IsValid := by
  obtain ⟨era, d, rfl⟩ := exists_eraDay days
  rw [ofDays_eq]
  exact ofYearDay_isValid d.day_le (d.isLeapYear era)

end Depot.Date
