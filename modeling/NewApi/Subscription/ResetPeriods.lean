/-
  NewApi.Subscription.ResetPeriods

  Which periods advance: one of custom seconds by what 64 bits leave of its nanoseconds,
  and the calendar's in a zone where every day has its midnight.

  Where the clocks go from 23:59 to 1:00, `Date` may take the skipped midnight for 23:00
  of the day before, whose next midnight is itself.
-/

import NewApi.Subscription.ResetCatchup
import NewApi.Subscription.Table

namespace NewApi.PlanClock

open NewApi.Lib
open NewApi.Subscription (SubscriptionPlan)

section Periods

variable {z : Zone} {plan : SubscriptionPlan}

/-! ## Custom seconds -/

section
variable (hp : plan.quotaResetPeriod = .custom) (hs : 0 < plan.quotaResetCustomSeconds)
include hp hs

theorem boundary_custom (base : Int) : boundary z plan base =
      addSec base (wrap64 (plan.quotaResetCustomSeconds * second) / second) := by
  unfold boundary nextReset calcNextResetTime
  rw [hp]
  dsimp only
  rw [if_neg (Int.not_le.2 hs), if_neg (fun h => Int.lt_irrefl 0 h.1)]
  rfl

theorem advancing_custom_iff :
    Advancing z plan ↔ second ≤ wrap64 (plan.quotaResetCustomSeconds * second) ∨
      wrap64 (plan.quotaResetCustomSeconds * second) / second = -1 := by
  have hb := boundary_custom (z := z) hp hs
  obtain ⟨hlo, hhi⟩ := wrap64_div_second (plan.quotaResetCustomSeconds * second)
  have hsec : second ≤ wrap64 (plan.quotaResetCustomSeconds * second) ↔
      1 ≤ wrap64 (plan.quotaResetCustomSeconds * second) / second := by
    unfold second
    omega
  have hrange : -10000000000 ≤ wrap64 (plan.quotaResetCustomSeconds * second) / second := by
    have := (wrap64_range (plan.quotaResetCustomSeconds * second)).1
    unfold second at this ⊢
    omega
  rw [hsec]
  generalize wrap64 (plan.quotaResetCustomSeconds * second) / second = d at hb hlo hhi hrange ⊢
  have hup : 1 ≤ d → ∀ t, RowTime t → t < boundary z plan t := by
    intro hd t ht
    unfold RowTime at ht
    rw [hb, addSec_of_pos (by omega) (by unfold unixToInternal; omega) (by omega) hhi]
    unfold unixToInternal
    omega
  have hdown : d ≤ 0 → ∀ t, RowTime t → boundary z plan t = t + d := by
    intro hd t ht
    unfold RowTime at ht
    rw [hb, addSec_of_nonpos (by omega) (by unfold unixToInternal; omega) hd hlo]
  constructor
  · intro h
    by_contra hno
    rcases Int.lt_or_eq_of_le (show d ≤ 0 by omega) with hneg | hzero
    · -- down to one, and below zero
      have hfrom : boundary z plan (1 - d) = 1 := by
        rw [hdown (by omega) (1 - d) (by unfold RowTime; omega)]
        omega
      have hnonneg := h.nonneg (1 - d) (by omega) (by omega)
      rw [hfrom, hdown (by omega) 1 (by unfold RowTime; decide)] at hnonneg
      have := hnonneg (by unfold RowTime; decide)
      omega
    have hone : RowTime 1 := by unfold RowTime; decide
    refine h.ahead 1 ⟨1, Nat.one_pos, ?_, fun i hi => ?_⟩
    · show boundary z plan 1 = 1
      rw [hdown (by omega) 1 hone]
      omega
    · obtain rfl : i = 0 := by omega
      exact hone
  rintro (hd | hd)
  · refine ⟨not_returns_of_lt id fun t ht _ => hup hd t ht, fun base _ _ ht => ?_⟩
    have hlt := hup hd _ ht
    unfold RowTime at ht
    omega
  refine ⟨not_returns_of_lt (fun t => -t) fun t ht _ => ?_, fun base _ _ ht => ?_⟩
  · have heq := hdown (by omega) t ht
    omega
  have heq := hdown (by omega) _ ht
  unfold RowTime at ht
  omega

end

/-! ## The calendar -/

theorem day_rowTime {t : Int} (ht : RowTime t) : -3 < z.day t ∧ z.day t < 2 ^ 46 - 100 := by
  have hoff := z.bounded t
  have hday := z.day_clock t
  have hclock := z.clock_range t
  unfold Zone.localTime at hday
  unfold RowTime at ht
  omega

theorem boundary_calendar (hz : z.Regular) (hp : plan.quotaResetPeriod ≠ .custom)
    (hnever : plan.quotaResetPeriod ≠ .never) {t : Int} (ht : RowTime t) :
    ∃ n, z.day t < n ∧ n ≤ z.day t + 31 ∧ boundary z plan t = z.date n 0 := by
  obtain ⟨hn, hn'⟩ := day_rowTime (z := z) ht
  have hclip : ∀ next : Int, (if 0 < (0 : Int) ∧ 0 < next then 0 else next) = next :=
    fun next => if_neg fun h => Int.lt_irrefl 0 h.1
  have hdays : ∀ days, 0 < days → days ≤ 7 → z.addDate (z.date (z.day t) 0) 0 0 days =
      z.date (z.day t + days) 0 := by
    intro days hpos hle
    rw [hz.addDate_midnight (by omega) (by omega) (by decide) (by decide) (by omega) hle]
    unfold dayOfMonth
    congr 1
    rw [Int.add_zero]
    omega
  unfold boundary nextReset calcNextResetTime
  cases hperiod : plan.quotaResetPeriod with
  | never => exact absurd hperiod hnever
  | custom => exact absurd hperiod hp
  | daily =>
    dsimp only
    rw [hclip, hdays 1 (by decide) (by decide)]
    exact ⟨_, by omega, by omega, rfl⟩
  | weekly =>
    have hweek : 0 ≤ weekday (z.day t) ∧ weekday (z.day t) < 7 := by
      unfold weekday
      omega
    dsimp only
    rw [hclip, hdays _ (by split <;> omega) (by split <;> omega)]
    exact ⟨_, by split <;> omega, by split <;> omega, rfl⟩
  | monthly =>
    obtain ⟨hle, hlt⟩ := monthOf_spec (z.day t)
    have hlen := monthStart_succ (monthOf (z.day t))
    dsimp only
    rw [hclip, hz.addDate_midnight (by omega) (by omega) (by decide) (by decide) (by decide)
      (by decide), monthOf_monthStart]
    have hfirst : dayOfMonth (monthStart (monthOf (z.day t))) = 1 := by
      unfold dayOfMonth
      rw [monthOf_monthStart]
      omega
    rw [hfirst, show (1 : Int) + 0 - 1 = 0 by decide, Int.add_zero]
    exact ⟨_, hlt, by omega, rfl⟩

theorem advancing_calendar (hz : z.Regular) (hp : plan.quotaResetPeriod ≠ .custom) :
    Advancing z plan := by
  by_cases hnever : plan.quotaResetPeriod = .never
  · refine ⟨fun t hret => ?_, fun base _ _ _ => ?_⟩
    · have h1 := (hret.stays 1).1
      rw [Function.iterate_one, never_boundary hnever] at h1
      exact absurd h1 (by decide)
    · rw [never_boundary hnever]
  refine ⟨not_returns_of_lt z.day fun t ht _ => ?_, fun base _ _ ht => ?_⟩
  · obtain ⟨n, hlt, hle, heq⟩ := boundary_calendar hz hp hnever ht
    obtain ⟨hn, hn'⟩ := day_rowTime (z := z) ht
    rw [heq, (hz.day_midnight (by omega) (by omega)).1]
    exact hlt
  obtain ⟨n, hlt, hle, heq⟩ := boundary_calendar hz hp hnever ht
  obtain ⟨hn, hn'⟩ := day_rowTime (z := z) ht
  rw [heq]
  exact hz.midnight_nonneg ht.1 hlt (by omega)

end Periods

/-! ## The reset of a subscription -/

/-- **Reset catch-up.**  For every zone and plan: on all rows that `RowOk` describes the
    call ends, leaves the right times and is independent of calls in between exactly if the
    period advances; on a row that `RowOk` does not describe it then leaves wrong times.
    Custom seconds advance by what 64 bits leave of them, the calendar's periods in every
    regular zone. -/
theorem reset_catchup_iff (z : Zone) (plan : SubscriptionPlan) :
    (Advancing z plan ↔ ∀ sub now, -2 ^ 63 ≤ resetBase sub → resetBase sub < 2 ^ 63 → 0 ≤ now →
      now < 2 ^ 62 → RowOk z plan sub now → Settles z plan sub now) ∧
    (Advancing z plan → ∀ sub now, -2 ^ 63 ≤ resetBase sub → resetBase sub < 2 ^ 63 → 0 ≤ now →
      now < 2 ^ 62 → (Settles z plan sub now ↔ RowOk z plan sub now)) ∧
    (plan.quotaResetPeriod = .custom → 0 < plan.quotaResetCustomSeconds →
      (Advancing z plan ↔ second ≤ wrap64 (plan.quotaResetCustomSeconds * second) ∨
        wrap64 (plan.quotaResetCustomSeconds * second) / second = -1)) ∧
    (z.Regular → plan.quotaResetPeriod ≠ .custom → Advancing z plan) :=
  ⟨advancing_iff z plan, fun h _ _ hlo hhi hnow0 hnow => settles_iff h hlo hhi hnow0 hnow,
    fun hp hs => advancing_custom_iff hp hs, fun hz hp => advancing_calendar hz hp⟩

def hourlyReset : SubscriptionPlan :=
  { id := 1, quotaResetPeriod := .custom, quotaResetCustomSeconds := 3600, customSeconds := 86400 }

def boughtRow : ResetRow := { startTime := 1700000000, amountUsed := 5 }

theorem hourlyReset_settles : Settles utc hourlyReset boughtRow 1700010000 := by
  obtain ⟨hall, -, hcustom, -⟩ := reset_catchup_iff utc hourlyReset
  have hadvancing := (hcustom rfl (by decide)).2 (.inl (by decide +kernel))
  have hrow : RowOk utc hourlyReset boughtRow 1700010000 := by
    unfold RowOk
    rw [if_neg (by decide), if_neg (by decide)]
    exact .inl (by decide +kernel)
  exact hall.1 hadvancing boughtRow 1700010000 (by decide) (by decide) (by decide) (by decide) hrow

theorem not_resets_of_fixed {z : Zone} {plan : SubscriptionPlan} {sub : ResetRow} {now : Int}
    (hset : ¬(0 < sub.nextResetTime ∧ now < sub.nextResetTime))
    (hnever : plan.quotaResetPeriod ≠ .never) (hdue : Due now (resetBase sub))
    (hfix : nextReset z plan sub.endTime (resetBase sub) = resetBase sub) (sub' : ResetRow) :
    ¬Resets z plan sub now sub' := by
  rintro ⟨fuel, hfuel⟩
  have hstays : ∀ i, Due now ((nextReset z plan sub.endTime)^[i] (resetBase sub)) := fun i => by
    rw [Function.iterate_fixed hfix]
    exact hdue
  have hnone := walk_of_stays (b := resetBase sub) hstays fuel
  unfold maybeReset at hfuel
  rw [if_neg hset, if_neg hnever] at hfuel
  dsimp only at hfuel
  rw [hfix, if_neg (not_not.2 hdue), hnone] at hfuel
  cases hfuel

def wrappedReset : SubscriptionPlan := { hourlyReset with quotaResetCustomSeconds := 2 ^ 55 }

def dailyReset : SubscriptionPlan := { hourlyReset with quotaResetPeriod := .daily }

/-- Santiago around 8 September 2024, when midnight was skipped. -/
def santiago : Zone where
  offset t := if t < 1725768000 then -14400 else -10800
  start t := if t < 1725768000 then -2 ^ 63 else 1725768000
  stop t := if t < 1725768000 then 1725768000 else 2 ^ 63 - 1
  bounded t := by split <;> decide
  within t u := by
    split <;> split <;> omega

/-- The checks accept both plans, and the loop never ends: on a plan whose seconds wrap to
    nothing, and on a daily one whose row stands at 23:00 before the skipped midnight. -/
theorem catchup_never_ends :
    ((NewApi.Subscription.validateSubscriptionPlan (fun _ => true) wrappedReset).toOption =
        some wrappedReset ∧
      ∀ sub', ¬Resets utc wrappedReset boughtRow 1700010000 sub') ∧
    ((NewApi.Subscription.validateSubscriptionPlan (fun _ => true) dailyReset).toOption =
        some dailyReset ∧
      ∀ sub', ¬Resets santiago dailyReset
        { startTime := 1725700000, lastResetTime := 1725764400 } 1725770000 sub') :=
  ⟨⟨by decide +kernel, not_resets_of_fixed (by decide) (by decide) (by decide) (by decide +kernel)⟩,
    by decide +kernel, not_resets_of_fixed (by decide) (by decide) (by decide) (by decide +kernel)⟩

end NewApi.PlanClock
