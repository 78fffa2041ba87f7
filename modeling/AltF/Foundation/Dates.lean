/-
  Foundation/Dates.lean --- dates of the Gregorian calendar and the number of days since
  1970-01-01.

  The years of the proleptic calendar are integers, months are counted from 0 and days from
  1.  Valid dates and day numbers correspond.
-/
import Mathlib.Tactic.Common

set_option autoImplicit false

namespace AltF.Foundation

/-! ## Years -/

def isLeap (y : Int) : Bool := y % 4 = 0 ∧ (y % 100 ≠ 0 ∨ y % 400 = 0)

/-- The leap day of a year, or none. -/
def leapDay (y : Int) : Int := if isLeap y then 1 else 0

/-- The days from the beginning of the year 0 to that of a year. -/
def yearStart (y : Int) : Int := 365 * y + (y + 3) / 4 - (y + 99) / 100 + (y + 399) / 400

theorem yearStart_succ (y : Int) : yearStart (y + 1) = yearStart y + 365 + leapDay y := by
  unfold yearStart leapDay isLeap
  by_cases h4 : y % 4 = 0
  · by_cases h100 : y % 100 = 0
    · by_cases h400 : y % 400 = 0
      · simp only [h4, h100, h400, ne_eq, not_true_eq_false, or_true, and_self, decide_true,
          if_true]
        omega
      · simp only [h4, h100, h400, ne_eq, not_true_eq_false, or_self, and_false, decide_false,
          Bool.false_eq_true, if_false]
        omega
    · simp only [h4, h100, ne_eq, not_false_eq_true, true_or, and_self, decide_true, if_true]
      omega
  · simp only [h4, false_and, decide_false, Bool.false_eq_true, if_false]
    omega

theorem leapDay_cases (y : Int) : leapDay y = 0 ∨ leapDay y = 1 := by
  unfold leapDay
  split
  · exact .inr rfl
  · exact .inl rfl

/-- The year of a day since the beginning of the year 0. -/
def yearOf (n : Int) : Int :=
  let y := 400 * n / 146097
  if n < yearStart y then y - 1 else if yearStart (y + 1) ≤ n then y + 1 else y

theorem yearOf_spec (n : Int) : yearStart (yearOf n) ≤ n ∧ n < yearStart (yearOf n + 1) := by
  have hestimate : 146097 * (400 * n / 146097) ≤ 400 * n ∧
      400 * n < 146097 * (400 * n / 146097) + 146097 := by omega
  unfold yearOf
  simp only
  generalize 400 * n / 146097 = y at hestimate ⊢
  split
  · rw [Int.sub_add_cancel]
    refine ⟨?_, by assumption⟩
    unfold yearStart
    omega
  · split
    · refine ⟨by assumption, ?_⟩
      unfold yearStart
      omega
    · omega

/-- Years begin one behind the other. -/
theorem yearStart_mono {y y' : Int} (h : y < y') : yearStart y + 365 ≤ yearStart y' := by
  unfold yearStart
  omega

/-- The year of a day between the beginnings of two years. -/
theorem yearOf_bounds {n y y' : Int} (hlow : yearStart y ≤ n) (hhigh : n < yearStart y') :
    y ≤ yearOf n ∧ yearOf n < y' := by
  obtain ⟨hl, hh⟩ := yearOf_spec n
  constructor
  · by_contra hlt
    rcases Int.lt_or_eq_of_le (show yearOf n + 1 ≤ y by omega) with h | h
    · have := yearStart_mono h
      omega
    · rw [h] at hh
      omega
  · by_contra hlt
    rcases Int.lt_or_eq_of_le (show y' ≤ yearOf n by omega) with h | h
    · have := yearStart_mono h
      omega
    · rw [h] at hhigh
      omega

/-- A day belongs to one year. -/
theorem yearOf_eq {n y : Int} (hlow : yearStart y ≤ n) (hhigh : n < yearStart (y + 1)) :
    yearOf n = y := by
  obtain ⟨hl, hh⟩ := yearOf_bounds hlow hhigh
  omega

/-! ## Months -/

/-- The days of a year in front of a month, with the leap day or without it. -/
def monthStart (leap m : Int) : Int :=
  if m < 2 then 31 * m else 59 + leap + (153 * (m - 2) + 2) / 5

def monthLength (leap m : Int) : Int := monthStart leap (m + 1) - monthStart leap m

/-- The month of a day of the year, counted from 0. -/
def monthOf (leap k : Int) : Int :=
  if k < 59 + leap then k / 31 else 2 + (5 * (k - 59 - leap) + 2) / 153

section Months

variable {leap : Int} (hleap : leap = 0 ∨ leap = 1)

include hleap

theorem monthOf_spec {k : Int} (hlow : 0 ≤ k) (hhigh : k < 365 + leap) :
    0 ≤ monthOf leap k ∧ monthOf leap k < 12 ∧ monthStart leap (monthOf leap k) ≤ k ∧
      k < monthStart leap (monthOf leap k + 1) := by
  unfold monthOf monthStart
  split <;> split <;> split <;> omega

theorem monthOf_eq {m d : Int} (hm : 0 ≤ m ∧ m < 12) (hd : 1 ≤ d ∧ d ≤ monthLength leap m) :
    monthOf leap (monthStart leap m + d - 1) = m := by
  revert hd
  unfold monthLength monthOf monthStart
  split <;> split <;> split <;> omega

/-- A month ends within the year. -/
theorem monthStart_bounds {m d : Int} (hm : 0 ≤ m ∧ m < 12)
    (hd : 1 ≤ d ∧ d ≤ monthLength leap m) :
    0 ≤ monthStart leap m + d - 1 ∧ monthStart leap m + d - 1 < 365 + leap := by
  revert hd
  unfold monthLength monthStart
  split <;> split <;> omega

end Months

/-! ## Dates -/

structure Date where
  year : Int
  month : Int
  day : Int
  deriving DecidableEq, Repr

/-- The date is one of the calendar. -/
structure Date.Valid (d : Date) : Prop where
  month : 0 ≤ d.month ∧ d.month < 12
  day : 1 ≤ d.day ∧ d.day ≤ monthLength (leapDay d.year) d.month

/-- The day 1970-01-01, since the beginning of the year 0. -/
def epochDay : Int := 719528

/-- The days since 1970-01-01. -/
def Date.number (d : Date) : Int :=
  yearStart d.year + monthStart (leapDay d.year) d.month + d.day - 1 - epochDay

/-- The date of a day since 1970-01-01. -/
def dateOf (n : Int) : Date :=
  let y := yearOf (n + epochDay)
  let k := n + epochDay - yearStart y
  let m := monthOf (leapDay y) k
  ⟨y, m, k - monthStart (leapDay y) m + 1⟩

/-- The day of the year. -/
theorem dayOfYear_bounds (n : Int) :
    0 ≤ n + epochDay - yearStart (yearOf (n + epochDay)) ∧
      n + epochDay - yearStart (yearOf (n + epochDay)) <
        365 + leapDay (yearOf (n + epochDay)) := by
  obtain ⟨hlow, hhigh⟩ := yearOf_spec (n + epochDay)
  rw [yearStart_succ] at hhigh
  omega

theorem dateOf_valid (n : Int) : (dateOf n).Valid := by
  obtain ⟨hlow, hhigh⟩ := dayOfYear_bounds n
  obtain ⟨hm, hm', hl, hh⟩ := monthOf_spec (leapDay_cases _) hlow hhigh
  refine ⟨⟨hm, hm'⟩, ?_, ?_⟩
  · simp only [dateOf]
    omega
  · simp only [dateOf, monthLength]
    omega

/-- **A day has one date**: the date of a day is on that day. -/
theorem number_dateOf (n : Int) : (dateOf n).number = n := by
  simp only [Date.number, dateOf]
  omega

/-- **A date has one day.** -/
theorem dateOf_number {d : Date} (h : d.Valid) : dateOf d.number = d := by
  obtain ⟨y, m, day⟩ := d
  obtain ⟨hm, hd⟩ := h
  simp only at hm hd
  have hbounds := monthStart_bounds (leapDay_cases y) hm hd
  have hyear : yearOf ((Date.mk y m day).number + epochDay) = y := by
    apply yearOf_eq
    · simp only [Date.number]
      omega
    · rw [yearStart_succ]
      simp only [Date.number]
      omega
  have hday : (Date.mk y m day).number + epochDay - yearStart y =
      monthStart (leapDay y) m + day - 1 := by
    simp only [Date.number]
    omega
  simp only [dateOf, hyear, hday, monthOf_eq (leapDay_cases y) hm hd, Date.mk.injEq, true_and]
  omega

end AltF.Foundation
