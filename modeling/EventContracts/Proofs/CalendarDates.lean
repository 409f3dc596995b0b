import EventContracts.Instant
import Mathlib.Tactic.Lemma
import Mathlib.Tactic.SplitIfs

/-!
# Dates of the calendar

The date of a day is read off its place in a cycle of four centuries. It is a date of the calendar,
and counting from it leads back to the day.
-/

namespace EventContracts.Instant

lemma isLeapYear_iff (year : Int) :
    isLeapYear year = true ↔ year % 4 = 0 ∧ (year % 100 ≠ 0 ∨ year % 400 = 0) := by
  simp [isLeapYear]

/-- Leap years come back after four centuries. -/
lemma isLeapYear_add_era (year era : Int) :
    isLeapYear (year + era * 400) = isLeapYear year := by
  have four : (year + era * 400) % 4 = year % 4 := by omega
  have hundred : (year + era * 400) % 100 = year % 100 := by omega
  have fourHundred : (year + era * 400) % 400 = year % 400 := by omega
  simp only [isLeapYear, four, hundred, fourHundred]

lemma daysInMonth_le (year : Int) (month : Nat) : daysInMonth year month ≤ 31 := by
  unfold daysInMonth
  split_ifs <;> omega

/-- The place of a day in a cycle of four centuries, with years counted from March: its century, the
four years, the year and the day. Every fourth year has a leap day at its end, the last one of a
century only in the fourth century. -/
structure Placed (dayOfEra century four year day : Int) : Prop where
  centuries : 0 ≤ century ∧ century ≤ 3
  fours : 0 ≤ four ∧ four ≤ 24
  years : 0 ≤ year ∧ year ≤ 3
  days : 0 ≤ day ∧ day ≤ 365
  leap : day = 365 → year = 3 ∧ (four < 24 ∨ century = 3)
  total : dayOfEra = 36524 * century + 1461 * four + 365 * year + day

lemma exists_placed {dayOfEra : Int} (first : 0 ≤ dayOfEra) (last : dayOfEra < 146097) :
    ∃ century four year day, Placed dayOfEra century four year day := by
  obtain ⟨century, inCentury, centuries, few, total⟩ : ∃ century inCentury : Int,
      (0 ≤ century ∧ century ≤ 3) ∧
      (0 ≤ inCentury ∧ inCentury ≤ 36524 ∧ (inCentury = 36524 → century = 3)) ∧
      dayOfEra = 36524 * century + inCentury :=
    ⟨min (dayOfEra / 36524) 3, dayOfEra - 36524 * min (dayOfEra / 36524) 3, by omega, by omega,
      by omega⟩
  obtain ⟨four, inFour, fours, fewer, within⟩ : ∃ four inFour : Int, (0 ≤ four ∧ four ≤ 24) ∧
      (0 ≤ inFour ∧ inFour ≤ 1460 ∧ (inFour = 1460 → four < 24 ∨ century = 3)) ∧
      inCentury = 1461 * four + inFour :=
    ⟨inCentury / 1461, inCentury % 1461, by omega, by omega, by omega⟩
  exact ⟨century, four, min (inFour / 365) 3, inFour - 365 * min (inFour / 365) 3, centuries, fours,
    by omega, by omega, by omega, by omega⟩

/-- The leap days before a day are taken out of its number, and years of 365 days are left. -/
lemma Placed.yearOfEra {dayOfEra century four year day : Int}
    (placed : Placed dayOfEra century four year day) :
    (dayOfEra - dayOfEra / 1460 + dayOfEra / 36524 - dayOfEra / 146096) / 365 =
      100 * century + 4 * four + year := by
  obtain ⟨centuries, fours, years, days, leap, total⟩ := placed
  have ofCenturies : dayOfEra / 36524 - dayOfEra / 146096 = century := by
    by_cases last : dayOfEra = 146096
    · omega
    · have short : 1461 * four + 365 * year + day < 36524 := by omega
      omega
  have ofFours : dayOfEra / 1460 =
      25 * century + four + (24 * century + four + 365 * year + day) / 1460 := by omega
  omega

/-- The year of a day in a cycle of four centuries, and the days from the start of the year. -/
lemma yearOfEra_spec {dayOfEra : Int} (first : 0 ≤ dayOfEra) (last : dayOfEra < 146097) :
    ∃ year day,
      (dayOfEra - dayOfEra / 1460 + dayOfEra / 36524 - dayOfEra / 146096) / 365 = year ∧
      (0 ≤ year ∧ year < 400) ∧ dayOfEra - (365 * year + year / 4 - year / 100) = day ∧
      0 ≤ day ∧ (day < 365 ∨ day = 365 ∧ isLeapYear (year + 1) = true) := by
  obtain ⟨century, four, year, day, placed⟩ := exists_placed first last
  refine ⟨_, day, placed.yearOfEra, ?_⟩
  obtain ⟨centuries, fours, years, days, leap, total⟩ := placed
  have leapYears : (100 * century + 4 * four + year) / 4 = 25 * century + four := by omega
  have commonYears : (100 * century + 4 * four + year) / 100 = century := by omega
  refine ⟨by omega, by omega, by omega, ?_⟩
  rw [isLeapYear_iff]
  omega

/-- The days of a year from March on are divided into months. -/
lemma le_daysInMonth {year day month : Int} (start : 0 ≤ day)
    (within : day < 365 ∨ day = 365 ∧ isLeapYear (year + 1) = true)
    (is : (5 * day + 2) / 153 = month) :
    (day - (153 * month + 2) / 5 + 1).toNat ≤
      daysInMonth (year + if (if month < 10 then month + 3 else month - 9) ≤ 2 then 1 else 0)
        (if month < 10 then month + 3 else month - 9).toNat := by
  have : month = 0 ∨ month = 1 ∨ month = 2 ∨ month = 3 ∨ month = 4 ∨ month = 5 ∨ month = 6 ∨
    month = 7 ∨ month = 8 ∨ month = 9 ∨ month = 10 ∨ month = 11 := by omega
  rcases this with rfl | rfl | rfl | rfl | rfl | rfl | rfl | rfl | rfl | rfl | rfl | rfl
  case inr.inr.inr.inr.inr.inr.inr.inr.inr.inr.inr =>
    cases leap : isLeapYear (year + 1) with
    | true =>
      simp [daysInMonth, leap]
      omega
    | false =>
      have short : day < 365 := by simpa [leap] using within
      simp [daysInMonth, leap]
      omega
  all_goals
    simp [daysInMonth]
    omega

/-- Counting from a date by its year and month from March on. -/
lemma daysFromDate_march (year : Int) {month : Int} (first : 0 ≤ month) (last : month ≤ 11)
    (day : Nat) :
    daysFromDate (year + if (if month < 10 then month + 3 else month - 9) ≤ 2 then 1 else 0)
        (if month < 10 then month + 3 else month - 9).toNat day =
      365 * year + year / 4 - year / 100 + year / 400 + (153 * month + 2) / 5 + day - 719469 := by
  unfold daysFromDate
  by_cases early : month < 10
  · have ofMonth : ((month + 3).toNat : Int) = month + 3 := by omega
    have late : ¬ (month + 3).toNat ≤ 2 := by omega
    have later : ¬ month + 3 ≤ 2 := by omega
    simp only [if_pos early, if_neg late, if_neg later, ofMonth, Int.add_zero, Int.add_sub_cancel]
  · have ofMonth : ((month - 9).toNat : Int) = month - 9 := by omega
    have soon : (month - 9).toNat ≤ 2 := by omega
    have sooner : month - 9 ≤ 2 := by omega
    simp only [if_neg early, if_pos soon, if_pos sooner, ofMonth, Int.add_sub_cancel,
      Int.sub_add_cancel]

/-- Whether there is a date of a year, a month and a day. -/
def IsDate (year : Int) (month day : Nat) : Prop :=
  1 ≤ month ∧ month ≤ 12 ∧ 1 ≤ day ∧ day ≤ daysInMonth year month

/-- The date of a day is one that the day is counted from. -/
lemma dateOfDays_spec (days : Int) : ∃ year month day, dateOfDays days = (year, month, day) ∧
    IsDate year month day ∧ daysFromDate year month day = days := by
  refine ⟨_, _, _, rfl, ?_⟩
  obtain ⟨year, day, is, years, rest, start, within⟩ := yearOfEra_spec
    (Int.emod_nonneg (days + 719468) (by decide : (146097 : Int) ≠ 0))
    (Int.emod_lt_of_pos (days + 719468) (by decide))
  have known := Int.mul_ediv_add_emod (days + 719468) 146097
  rw [is, rest]
  generalize (days + 719468) / 146097 = era at *
  generalize (days + 719468) % 146097 = dayOfEra at *
  obtain ⟨month, isMonth⟩ : ∃ month, (5 * day + 2) / 153 = month := ⟨_, rfl⟩
  rw [isMonth]
  have months : 0 ≤ month ∧ month ≤ 11 := by omega
  have started : (153 * month + 2) / 5 ≤ day := by omega
  have ends : day < 365 ∨ day = 365 ∧ isLeapYear (year + era * 400 + 1) = true := by
    rwa [show year + era * 400 + 1 = year + 1 + era * 400 by omega, isLeapYear_add_era]
  have count : 365 * (year + era * 400) + (year + era * 400) / 4 - (year + era * 400) / 100 +
      (year + era * 400) / 400 + day = days + 719468 := by
    have four : (year + era * 400) / 4 = year / 4 + era * 100 := by omega
    have hundred : (year + era * 400) / 100 = year / 100 + era * 4 := by omega
    have fourHundred : (year + era * 400) / 400 = era := by omega
    omega
  clear is rest within known years
  constructor
  · refine ⟨?_, ?_, ?_, le_daysInMonth start ends isMonth⟩
    · split <;> omega
    · split <;> omega
    · omega
  · rw [daysFromDate_march _ months.1 months.2]
    have ofDay : ((day - (153 * month + 2) / 5 + 1).toNat : Int) =
        day - (153 * month + 2) / 5 + 1 := by omega
    omega

/-- The days of the years that have at most four digits and no sign. -/
lemma four_digits_iff {year : Int} {month day : Nat} (date : IsDate year month day) :
    0 ≤ year ∧ year ≤ 9999 ↔
      -719528 ≤ daysFromDate year month day ∧ daysFromDate year month day ≤ 2932896 := by
  obtain ⟨firstMonth, lastMonth, firstDay, lastDay⟩ := date
  have most := Nat.le_trans lastDay (daysInMonth_le year month)
  have before (y : Int) (early : y < 0) : 365 * y + y / 4 - y / 100 + y / 400 ≤ -366 := by
    by_cases last : y = -1 <;> omega
  unfold daysFromDate
  by_cases early : month ≤ 2
  · simp only [if_pos early]
    have earliest := before (year - 1)
    omega
  · simp only [if_neg early]
    have earliest := before year
    omega

end EventContracts.Instant
