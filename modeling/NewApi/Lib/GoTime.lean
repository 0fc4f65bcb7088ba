/-
  NewApi.Lib.GoTime

  Go's `time` package on Unix seconds: `Date`, `AddDate`, `Add` and what a time reads
  in a zone.

  A time is held as a 64-bit count of seconds from the year 1.  `Add` saturates there;
  the seconds that `Date` computes from a date wrap.
-/

import NewApi.Lib.Gregorian
import NewApi.Lib.Wrap

namespace NewApi.Lib

/-! ## Durations -/

/-- `time.Second`, in nanoseconds -/
def second : Int := 1000000000

def hour : Int := 3600 * second

def unixToInternal : Int := 62135596800

/-- `addSec`, and `Unix` of what comes out -/
def addSec (t d : Int) : Int :=
  let ext := wrap64 (t + unixToInternal)
  let sum := wrap64 (ext + d)
  let ext :=
    if decide (ext < sum) = decide (0 < d) then sum
    else if 0 < d then 2 ^ 63 - 1 else -(2 ^ 63 - 1)
  wrap64 (ext - unixToInternal)

/-- `Add` to a whole second, and `Unix`: what is left of a second is dropped. -/
def addDuration (t d : Int) : Int := addSec t (d / second)

theorem addSec_of_pos {t d : Int} (ht : -2 ^ 63 ≤ t) (hlast : t + unixToInternal < 2 ^ 63)
    (hd : 0 < d) (hd' : d < 2 ^ 63) : addSec t d = min (t + d) (2 ^ 63 - 1 - unixToInternal) := by
  unfold addSec
  unfold unixToInternal at hlast ⊢
  rw [wrap64_of_range (n := t + _) (by omega) (by omega)]
  dsimp only
  by_cases hfit : t + 62135596800 + d < 2 ^ 63
  · rw [wrap64_of_range (n := t + 62135596800 + d) (by omega) hfit,
      if_pos (by rw [decide_eq_decide]; omega), wrap64_of_range (by omega) (by omega)]
    omega
  rw [wrap64_of_over (n := t + 62135596800 + d) (by omega) (by omega),
    if_neg (by rw [decide_eq_decide]; omega), if_pos hd, wrap64_of_range (by omega) (by omega)]
  omega

theorem addSec_of_nonpos {t d : Int} (ht : 0 ≤ t) (hlast : t + unixToInternal < 2 ^ 63)
    (hd : d ≤ 0) (hd' : -2 ^ 63 ≤ d) : addSec t d = t + d := by
  unfold addSec
  unfold unixToInternal at hlast ⊢
  rw [wrap64_of_range (n := t + _) (by omega) (by omega)]
  dsimp only
  rw [wrap64_of_range (n := t + 62135596800 + d) (by omega) (by omega),
    if_pos (by rw [decide_eq_decide]; omega), wrap64_of_range (by omega) (by omega)]
  omega

theorem wrap64_div_second (n : Int) : -2 ^ 63 ≤ wrap64 n / second ∧ wrap64 n / second < 2 ^ 63 := by
  have hrange := wrap64_range n
  unfold second
  omega

/-! ## Zones -/

/-- A time zone: the seconds east of UTC at an instant, and from when until when they
    hold.  Offsets lie between 25 hours west and 26 hours east. -/
structure Zone where
  offset : Int → Int
  start : Int → Int
  stop : Int → Int
  bounded : ∀ t, -90000 < offset t ∧ offset t < 93600
  within : ∀ t u, start t ≤ u → u < stop t → offset u = offset t

def fixedZone (offset : Int) (hlo : -90000 < offset) (hhi : offset < 93600) : Zone where
  offset _ := offset
  start _ := -2 ^ 63
  stop _ := 2 ^ 63 - 1
  bounded _ := ⟨hlo, hhi⟩
  within _ _ _ _ := rfl

def utc : Zone := fixedZone 0 (by decide) (by decide)

namespace Zone

variable (z : Zone)

variable (t : Int)

def localTime : Int := t + z.offset t

def day : Int := z.localTime t / 86400

def clock : Int := z.localTime t % 86400

/-- The offset that `Date` takes for a local time: the one in force when UTC reads so,
    unless it no longer is, or was not yet, at the instant that it gives. -/
def dateOffset (unix : Int) : Int :=
  if z.offset unix = 0 then 0
  else
    let utc := wrap64 (unix - z.offset unix)
    if utc < z.start unix ∨ z.stop unix ≤ utc then z.offset utc else z.offset unix

/-- `Date` from a day number and the seconds since midnight. -/
def date (day clock : Int) : Int :=
  let unix := wrap64 (86400 * day + clock)
  wrap64 (unix - z.dateOffset unix)

def addDate (t years months days : Int) : Int :=
  let n := z.day t
  let year := wrap64 (monthOf n / 12 + years)
  let month := wrap64 (monthOf n % 12 + 1 + months)
  z.date (dayNumber year month (wrap64 (dayOfMonth n + days))) (z.clock t)

theorem dateOffset_bounded (unix : Int) :
    -90000 < z.dateOffset unix ∧ z.dateOffset unix < 93600 := by
  unfold dateOffset
  split
  · decide
  dsimp only
  split
  · exact z.bounded _
  · exact z.bounded _

theorem day_clock : 86400 * z.day t + z.clock t = z.localTime t := by
  unfold day clock
  omega

theorem clock_range : 0 ≤ z.clock t ∧ z.clock t < 86400 := by
  unfold clock
  omega

/-! ## Months ahead -/

/-- The local time some months after a time: the same day of the month, and the same
    clock. -/
def monthsAhead (t months : Int) : Int :=
  86400 * (monthStart (monthOf (z.day t) + months) + (dayOfMonth (z.day t) - 1)) + z.clock t

def exactEnd (t months : Int) : Int :=
  z.monthsAhead t months - z.dateOffset (wrap64 (z.monthsAhead t months))

theorem monthsAhead_zero : z.monthsAhead t 0 = z.localTime t := by
  have hday := z.day_clock t
  unfold monthsAhead dayOfMonth
  rw [Int.add_zero]
  omega

theorem monthsAhead_add (t months : Int) (j : Nat) :
    z.monthsAhead t months + 2419200 * j ≤ z.monthsAhead t (months + j) ∧
      z.monthsAhead t (months + j) ≤ z.monthsAhead t months + 2678400 * j := by
  have hadd := monthStart_add (monthOf (z.day t) + months) j
  unfold monthsAhead
  rw [Int.add_assoc] at hadd
  omega

theorem exactEnd_lt {m m' : Int} (h : m' < m) : z.exactEnd t m' + 1814400 ≤ z.exactEnd t m := by
  have hadd := z.monthsAhead_add t m' (m - m').toNat
  rw [show m' + ((m - m').toNat : Int) = m by omega] at hadd
  have hoff := z.dateOffset_bounded (wrap64 (z.monthsAhead t m))
  have hoff' := z.dateOffset_bounded (wrap64 (z.monthsAhead t m'))
  unfold exactEnd
  omega

theorem exactEnd_le {m m' : Int} (h : m' ≤ m) : z.exactEnd t m' ≤ z.exactEnd t m := by
  rcases Int.lt_or_eq_of_le h with hlt | rfl
  · have hgap := z.exactEnd_lt t hlt
    omega
  · exact Int.le_refl _

theorem lt_exactEnd {m : Int} (h : 0 < m) : t < z.exactEnd t m := by
  have hadd := z.monthsAhead_add t 0 m.toNat
  rw [z.monthsAhead_zero, Int.zero_add, show (m.toNat : Int) = m by omega] at hadd
  have hoff := z.dateOffset_bounded (wrap64 (z.monthsAhead t m))
  have hoff' := z.bounded t
  unfold exactEnd
  unfold localTime at hadd
  omega

theorem exactEnd_add_le (t m : Int) (j : Nat) :
    z.exactEnd t (m + j) ≤ z.exactEnd t m + 2678400 * j + 183600 := by
  have hadd := z.monthsAhead_add t m j
  have hoff := z.dateOffset_bounded (wrap64 (z.monthsAhead t (m + j)))
  have hoff' := z.dateOffset_bounded (wrap64 (z.monthsAhead t m))
  unfold exactEnd
  omega

theorem exactEnd_zero_le : z.exactEnd t 0 ≤ t + 183600 := by
  have hzero := z.monthsAhead_zero t
  have hoff := z.dateOffset_bounded (wrap64 (z.monthsAhead t 0))
  have hoff' := z.bounded t
  unfold exactEnd
  unfold localTime at hzero
  omega

theorem day_range {t : Int} (h0 : 0 ≤ t) (hlast : t < 2 ^ 63) :
    -3 < z.day t ∧ z.day t < 2 ^ 47 := by
  have hoff := z.bounded t
  have hday := z.day_clock t
  have hclock := z.clock_range t
  unfold localTime at hday
  omega

/-- `AddDate` by years or months is the exact end, wrapped, as far as that is not twice
    out of range. -/
theorem addDate_months {t years months : Int} (h0 : 0 ≤ t) (hlast : t < 2 ^ 63)
    (hyears : 0 ≤ years) (hmonths : 0 ≤ months)
    (hend : z.exactEnd t (12 * years + months) < 2 ^ 64) :
    z.addDate t years months 0 = wrap64 (z.exactEnd t (12 * years + months)) := by
  have hn := z.day_range h0 hlast
  obtain ⟨hk0, hk, hd0, hd⟩ := monthOf_range (show -100 < z.day t by omega) hn.2
  have hadd := z.monthsAhead_add t 0 (12 * years + months).toNat
  rw [Int.zero_add, z.monthsAhead_zero, show ((12 * years + months).toNat : Int) =
    12 * years + months by omega] at hadd
  have hoff := z.dateOffset_bounded (wrap64 (z.monthsAhead t (12 * years + months)))
  have hoff' := z.bounded t
  have hsmall : 12 * years + months < 2 ^ 43 := by
    unfold exactEnd at hend
    unfold localTime at hadd
    omega
  have hahead : 86400 * dayNumber (monthOf (z.day t) / 12 + years)
      (monthOf (z.day t) % 12 + 1 + months) (dayOfMonth (z.day t)) + z.clock t =
      z.monthsAhead t (12 * years + months) := by
    unfold dayNumber monthsAhead
    rw [show 12 * (monthOf (z.day t) / 12 + years) + (monthOf (z.day t) % 12 + 1 + months - 1) =
      monthOf (z.day t) + (12 * years + months) by omega]
  unfold addDate date
  dsimp only
  rw [wrap64_of_range (n := monthOf (z.day t) / 12 + years) (by omega) (by omega),
    wrap64_of_range (n := monthOf (z.day t) % 12 + 1 + months) (by omega) (by omega),
    Int.add_zero, wrap64_of_range (n := dayOfMonth (z.day t)) (by omega) (by omega), hahead,
    wrap64_sub]
  rfl

/-! ## Midnights -/

/-- A zone in which every day has its midnight: `Date` finds an instant at which the clock
    reads so.  The clocks are not changed in the first days of 1970. -/
structure Regular : Prop where
  midnights : ∀ n, -100 < n → n < 2 ^ 46 → z.localTime (z.date n 0) = 86400 * n
  early : ∀ t, -259200 < t → t < 259200 → z.offset t = z.offset 0

variable {z}

theorem Regular.day_midnight (h : z.Regular) {n : Int} (hn : -100 < n) (hn' : n < 2 ^ 46) :
    z.day (z.date n 0) = n ∧ z.clock (z.date n 0) = 0 := by
  have hlocal := h.midnights n hn hn'
  unfold day clock
  omega

theorem Regular.addDate_midnight (h : z.Regular) {n months days : Int} (hn : -100 < n)
    (hn' : n < 2 ^ 46) (hm : 0 ≤ months) (hm' : months ≤ 1) (hd : 0 ≤ days) (hd' : days ≤ 7) :
    z.addDate (z.date n 0) 0 months days =
      z.date (monthStart (monthOf n + months) + (dayOfMonth n + days - 1)) 0 := by
  obtain ⟨hday, hclock⟩ := h.day_midnight hn hn'
  obtain ⟨hk0, hk, hd1, hd31⟩ := monthOf_range hn (show n < 2 ^ 47 by omega)
  unfold addDate dayNumber
  rw [hday, hclock]
  dsimp only
  rw [wrap64_of_range (n := monthOf n / 12 + 0) (by omega) (by omega),
    wrap64_of_range (n := monthOf n % 12 + 1 + months) (by omega) (by omega),
    wrap64_of_range (n := dayOfMonth n + days) (by omega) (by omega),
    show 12 * (monthOf n / 12 + 0) + (monthOf n % 12 + 1 + months - 1) = monthOf n + months by
      omega]

theorem Regular.midnight_nonneg (h : z.Regular) {t n : Int} (ht : 0 < t) (hn : z.day t < n)
    (hn' : n < 2 ^ 46) : 0 ≤ z.date n 0 := by
  have hlocal := z.day_clock t
  have hclock := z.clock_range t
  have hoff := z.bounded t
  unfold localTime at hlocal
  have hmid := h.midnights n (by omega) hn'
  have hoff' := z.bounded (z.date n 0)
  unfold localTime at hmid
  refine Int.not_lt.1 fun hneg => ?_
  have hsame' := h.early (z.date n 0) (by omega) (by omega)
  have hsame := h.early t (by omega) (by omega)
  omega

end Zone

end NewApi.Lib
