/-
  NewApi.Lib.Gregorian

  The Gregorian calendar on day numbers, day 0 being 1 January 1970: where the months
  start, and the month and the day of the month that a day number falls in.

  A month is counted by `12 * year + month - 1`, so that adding years or months is an
  addition and a month outside 1 to 12 is normalised by itself.  Inside, a year starts
  with March, and day 0 is moved to 1 March of the year 0.
-/

import Mathlib.Algebra.Group.Int.Defs

namespace NewApi.Lib

/-! ## Years from March -/

def marchFirst (y : Int) : Int := 365 * y + y / 4 - y / 100 + y / 400

/-- The year from March that a day falls in: a guess by the mean length of a year, which
    is at most one off. -/
def marchYear (z : Int) : Int :=
  let y := 400 * z / 146097
  if marchFirst (y + 1) ≤ z then y + 1 else if z < marchFirst y then y - 1 else y

theorem marchYear_spec (z : Int) :
    marchFirst (marchYear z) ≤ z ∧ z < marchFirst (marchYear z + 1) := by
  have hle := Int.mul_ediv_self_le (x := 400 * z) (k := 146097) (by decide)
  have hlt := Int.lt_mul_ediv_self_add (x := 400 * z) (k := 146097) (by decide)
  unfold marchYear
  dsimp only
  generalize 400 * z / 146097 = y at hle hlt ⊢
  split
  · refine ⟨by assumption, ?_⟩
    unfold marchFirst
    omega
  split
  · refine ⟨?_, by rw [Int.sub_add_cancel]; assumption⟩
    unfold marchFirst
    omega
  · omega

theorem marchFirst_succ (y : Int) :
    marchFirst y + 365 ≤ marchFirst (y + 1) ∧ marchFirst (y + 1) ≤ marchFirst y + 366 := by
  unfold marchFirst
  omega

/-! ## Months -/

/-- The days from 1 March to the first of the `m`-th month after it. -/
def monthDays (m : Int) : Int := (153 * m + 2) / 5

def monthStart (k : Int) : Int :=
  marchFirst ((k - 2) / 12) + monthDays ((k - 2) % 12) - 719468

def monthOf (n : Int) : Int :=
  let y := marchYear (n + 719468)
  12 * y + (5 * (n + 719468 - marchFirst y) + 2) / 153 + 2

def dayOfMonth (n : Int) : Int := n - monthStart (monthOf n) + 1

def weekday (n : Int) : Int := (n + 4) % 7

theorem monthStart_of_year (y : Int) {m : Int} (h0 : 0 ≤ m) (h12 : m < 12) :
    monthStart (12 * y + m + 2) = marchFirst y + monthDays m - 719468 := by
  unfold monthStart
  rw [show (12 * y + m + 2 - 2) / 12 = y by omega, show (12 * y + m + 2 - 2) % 12 = m by omega]

theorem monthStart_succ (k : Int) :
    monthStart k + 28 ≤ monthStart (k + 1) ∧ monthStart (k + 1) ≤ monthStart k + 31 := by
  obtain ⟨y, m, h0, h12, rfl⟩ : ∃ y m, 0 ≤ m ∧ m < 12 ∧ k = 12 * y + m + 2 :=
    ⟨(k - 2) / 12, (k - 2) % 12, by omega, by omega, by omega⟩
  rw [monthStart_of_year y h0 h12]
  by_cases hlast : m = 11
  · -- February
    rw [show 12 * y + m + 2 + 1 = 12 * (y + 1) + 0 + 2 by omega,
      monthStart_of_year (y + 1) (by decide) (by decide), hlast]
    have hyear := marchFirst_succ y
    unfold monthDays
    omega
  rw [show 12 * y + m + 2 + 1 = 12 * y + (m + 1) + 2 by omega,
    monthStart_of_year y (by omega) (by omega)]
  unfold monthDays
  omega

theorem monthStart_add (k : Int) (j : Nat) :
    monthStart k + 28 * j ≤ monthStart (k + j) ∧ monthStart (k + j) ≤ monthStart k + 31 * j := by
  induction j with
  | zero => simp
  | succ j ih =>
    have hnext := monthStart_succ (k + j)
    rw [Int.add_assoc] at hnext
    push_cast
    omega

theorem monthStart_lt {j k : Int} (h : j < k) : monthStart j + 28 * (k - j) ≤ monthStart k := by
  have hadd := (monthStart_add j (k - j).toNat).1
  rw [show j + ((k - j).toNat : Int) = k by omega] at hadd
  omega

theorem monthStart_le {j k : Int} (h : j ≤ k) : monthStart j ≤ monthStart k := by
  rcases Int.lt_or_eq_of_le h with hlt | rfl
  · have := monthStart_lt hlt
    omega
  · exact Int.le_refl _

theorem monthOf_spec (n : Int) : monthStart (monthOf n) ≤ n ∧ n < monthStart (monthOf n + 1) := by
  obtain ⟨hle, hlt⟩ := marchYear_spec (n + 719468)
  have hyear := marchFirst_succ (marchYear (n + 719468))
  unfold monthOf
  dsimp only
  generalize marchYear (n + 719468) = y at hle hlt hyear ⊢
  obtain ⟨d, hd⟩ : ∃ d, d = n + 719468 - marchFirst y := ⟨_, rfl⟩
  rw [← hd]
  have hm0 : 0 ≤ (5 * d + 2) / 153 := by omega
  have hm12 : (5 * d + 2) / 153 < 12 := by omega
  constructor
  · rw [monthStart_of_year y hm0 hm12]
    unfold monthDays
    omega
  by_cases hlast : (5 * d + 2) / 153 = 11
  · rw [hlast, show 12 * y + 11 + 2 + 1 = 12 * (y + 1) + 0 + 2 by omega,
      monthStart_of_year (y + 1) (by decide) (by decide)]
    unfold monthDays
    omega
  rw [show 12 * y + (5 * d + 2) / 153 + 2 + 1 = 12 * y + ((5 * d + 2) / 153 + 1) + 2 by omega,
    monthStart_of_year y (by omega) (by omega)]
  unfold monthDays
  omega

theorem monthOf_eq {k n : Int} (hle : monthStart k ≤ n) (hlt : n < monthStart (k + 1)) :
    monthOf n = k := by
  obtain ⟨hle', hlt'⟩ := monthOf_spec n
  rcases Int.lt_trichotomy (monthOf n) k with h | h | h
  · have hgap := monthStart_le (show monthOf n + 1 ≤ k by omega)
    omega
  · exact h
  · have hgap := monthStart_le (show k + 1 ≤ monthOf n by omega)
    omega

theorem monthOf_monthStart (k : Int) : monthOf (monthStart k) = k :=
  monthOf_eq (Int.le_refl _) (by have := monthStart_succ k; omega)

theorem monthOf_range {n : Int} (hlo : -100 < n) (hhi : n < 2 ^ 47) :
    23630 ≤ monthOf n ∧ monthOf n < 2 ^ 43 ∧ 1 ≤ dayOfMonth n ∧ dayOfMonth n ≤ 31 := by
  obtain ⟨hle, hlt⟩ := monthOf_spec n
  have hlen := monthStart_succ (monthOf n)
  have h1970 : monthStart 23640 = 0 := by decide
  have h1969 : monthStart 23630 = -306 := by decide
  refine ⟨?_, ?_, ?_, ?_⟩
  · refine Int.not_lt.1 fun hsmall => ?_
    have hmono := monthStart_le (show monthOf n + 1 ≤ 23630 by omega)
    omega
  · refine Int.not_le.1 fun hbig => ?_
    have hmono := monthStart_lt (show (23640 : Int) < monthOf n by omega)
    omega
  · unfold dayOfMonth
    omega
  · unfold dayOfMonth
    omega

/-! ## Dates -/

/-- The day number of a date; months and days outside their range are normalised. -/
def dayNumber (year month day : Int) : Int := monthStart (12 * year + (month - 1)) + (day - 1)

/-- 29 February 2024, a Thursday. -/
example : dayNumber 2024 2 29 = 19782 ∧ monthOf 19782 = 12 * 2024 + 1 ∧ dayOfMonth 19782 = 29 ∧
    weekday 19782 = 4 := by
  decide

end NewApi.Lib
