/-
  NewApi.Subscription.PlanEnd

  `calcPlanEndTime` with the integers that it has: durations are 64 bits of nanoseconds,
  and a date some years or months ahead is 64 bits of seconds.

  Neither the admin checks nor the function bound the value.  The first value whose
  length does not fit ends before the purchase; below it a longer plan ends no earlier.
-/

import NewApi.Lib.GoTime
import NewApi.Subscription.Plan
import Mathlib.Tactic.Ring

namespace NewApi.PlanClock

open NewApi.Lib
open NewApi.Subscription (DurationUnit SubscriptionPlan GrantErr)

/-! ## The end of a plan -/

def calcPlanEndTime (z : Zone) (start : Int) (plan : SubscriptionPlan) : Except GrantErr Int :=
  if plan.durationValue ≤ 0 ∧ plan.durationUnit ≠ .custom then .error .durationValue
  else match plan.durationUnit with
  | .year => .ok (z.addDate start plan.durationValue 0 0)
  | .month => .ok (z.addDate start 0 plan.durationValue 0)
  | .week =>
    .ok (addDuration start (wrap64 (wrap64 (wrap64 (plan.durationValue * 7) * 24) * hour)))
  | .day => .ok (addDuration start (wrap64 (wrap64 (plan.durationValue * 24) * hour)))
  | .hour => .ok (addDuration start (wrap64 (plan.durationValue * hour)))
  | .custom =>
    if plan.customSeconds ≤ 0 then .error .customSeconds
    else .ok (addDuration start (wrap64 (plan.customSeconds * second)))
  | .unset | .other => .error .durationUnit

/-- What a unit stands for: months of the calendar, or nanoseconds. -/
inductive UnitLength where
  | months (n : Int)
  | nanoseconds (n : Int)

def unitLength : DurationUnit → Option UnitLength
  | .year => some (.months 12)
  | .month => some (.months 1)
  | .week => some (.nanoseconds (7 * 24 * hour))
  | .day => some (.nanoseconds (24 * hour))
  | .hour => some (.nanoseconds hour)
  | .custom => some (.nanoseconds second)
  | .unset | .other => none

variable (plan : SubscriptionPlan)

def planValue : Int :=
  if plan.durationUnit = .custom then plan.customSeconds else plan.durationValue

def withValue (v : Int) : SubscriptionPlan :=
  if plan.durationUnit = .custom then { plan with customSeconds := v }
  else { plan with durationValue := v }

theorem durationUnit_withValue (v : Int) : (withValue plan v).durationUnit = plan.durationUnit := by
  unfold withValue
  split <;> rfl

theorem planValue_withValue (v : Int) : planValue (withValue plan v) = v := by
  unfold planValue
  rw [durationUnit_withValue]
  unfold withValue
  split <;> rfl

/-- Which end a plan of some units has. -/
inductive EndsAt (z : Zone) (start : Int) : DurationUnit → Int → Int → Prop where
  | year (v : Int) : EndsAt z start .year v (z.addDate start v 0 0)
  | month (v : Int) : EndsAt z start .month v (z.addDate start 0 v 0)
  | nanoseconds (unit : DurationUnit) (n v : Int) (h : unitLength unit = some (.nanoseconds n)) :
      EndsAt z start unit v (addDuration start (wrap64 (v * n)))

theorem calcPlanEndTime_ok_iff {z : Zone} {start e : Int} {plan : SubscriptionPlan} :
    calcPlanEndTime z start plan = .ok e ↔
      0 < planValue plan ∧ EndsAt z start plan.durationUnit (planValue plan) e := by
  have hweek : wrap64 (wrap64 (wrap64 (plan.durationValue * 7) * 24) * hour) =
      wrap64 (plan.durationValue * (7 * 24 * hour)) := by
    rw [wrap64_mul, Int.mul_assoc, wrap64_mul, Int.mul_assoc, ← Int.mul_assoc 7]
  have hday : wrap64 (wrap64 (plan.durationValue * 24) * hour) =
      wrap64 (plan.durationValue * (24 * hour)) := by
    rw [wrap64_mul, Int.mul_assoc]
  unfold calcPlanEndTime planValue
  by_cases hcustom : plan.durationUnit = .custom
  · rw [hcustom, if_neg (fun h => h.2 rfl), if_pos rfl]
    by_cases hv : plan.customSeconds ≤ 0
    · rw [if_pos hv]
      exact ⟨nofun, fun h => by omega⟩
    rw [if_neg hv]
    refine ⟨fun h => ⟨by omega, ?_⟩, fun h => ?_⟩
    · cases h
      exact .nanoseconds .custom second _ rfl
    rcases h.2 with _ | _ | ⟨_, n, _, hn⟩
    cases hn
    rfl
  rw [if_neg hcustom]
  by_cases hv : plan.durationValue ≤ 0
  · rw [if_pos ⟨hv, hcustom⟩]
    exact ⟨nofun, fun h => by omega⟩
  rw [if_neg (fun h => hv h.1), hweek, hday]
  refine ⟨fun h => ⟨by omega, ?_⟩, fun h => ?_⟩
  · cases hunit : plan.durationUnit with
    | year => rw [hunit] at h; cases h; exact .year _
    | month => rw [hunit] at h; cases h; exact .month _
    | week => rw [hunit] at h; cases h; exact .nanoseconds .week _ _ rfl
    | day => rw [hunit] at h; cases h; exact .nanoseconds .day _ _ rfl
    | hour => rw [hunit] at h; cases h; exact .nanoseconds .hour _ _ rfl
    | custom => exact absurd hunit hcustom
    | unset | other => rw [hunit] at h; cases h
  have hend := h.2
  cases hunit : plan.durationUnit with
  | year | month =>
    rw [hunit] at hend
    cases hend with
    | nanoseconds _ n _ hn => cases hn
    | _ => rfl
  | week | day | hour =>
    rw [hunit] at hend
    rcases hend with _ | _ | ⟨_, n, _, hn⟩
    cases hn
    rfl
  | custom => exact absurd hunit hcustom
  | unset | other =>
    rw [hunit] at hend
    rcases hend with _ | _ | ⟨_, n, _, hn⟩
    cases hn

/-! ## Lengths that fit -/

/-- At every value up to the plan's, the end is later than the start, and no earlier than
    the end that a smaller value has. -/
def EndsInOrder (z : Zone) (start : Int) (plan : SubscriptionPlan) : Prop :=
  ∀ v ≤ planValue plan, ∀ e, calcPlanEndTime z start (withValue plan v) = .ok e →
    start < e ∧
      ∀ v' ≤ v, ∀ e', calcPlanEndTime z start (withValue plan v') = .ok e' → e' ≤ e

/-- The length of so many units: nanoseconds, or the second of the date that the calendar
    gives, before it is a 64-bit integer. -/
def exactLength (z : Zone) (start : Int) : UnitLength → Int → Int
  | .months n, v => z.exactEnd start (n * v)
  | .nanoseconds n, v => v * n

def Fits (z : Zone) (start : Int) (plan : SubscriptionPlan) : Prop :=
  ∀ l, unitLength plan.durationUnit = some l → exactLength z start l (planValue plan) < 2 ^ 63

section Ends

variable {z : Zone} {start : Int}

theorem ends_in_order_iff {E f : Int → Int} {N : Int} (h0 : f 0 < 2 ^ 63)
    (hstep : ∀ v, 0 ≤ v → f (v + 1) ≤ f v + 2 ^ 63) (hle : ∀ v' v, v' ≤ v → f v' ≤ f v)
    (hlater : ∀ v, 0 < v → f v < 2 ^ 63 → start < E v)
    (hmono : ∀ v' v, 0 < v' → v' ≤ v → f v < 2 ^ 63 → E v' ≤ E v)
    (hover : ∀ v, 0 < v → 2 ^ 63 ≤ f v → f v < 2 ^ 64 → E v ≤ start) :
    (∀ v ≤ N, 0 < v → start < E v ∧ ∀ v' ≤ v, 0 < v' → E v' ≤ E v) ↔ f N < 2 ^ 63 := by
  constructor
  · intro h
    refine Int.not_le.1 fun hbig => ?_
    have hN : 0 ≤ N := by
      refine Int.not_lt.1 fun hneg => ?_
      have := hle N 0 (by omega)
      omega
    obtain ⟨n, hpos, hn, hlo, hhi⟩ := exists_over (f := fun n : Nat => f n) (by exact h0)
      (fun n => hstep n (Int.natCast_nonneg n)) (N := N.toNat) (by
        rw [Int.toNat_of_nonneg hN]
        exact hbig)
    have hlt := (h n (by omega) (by omega)).1
    have hback := hover n (by omega) hlo hhi
    omega
  intro hfit v hv hpos
  have hfits : f v < 2 ^ 63 := Int.lt_of_le_of_lt (hle v N hv) hfit
  exact ⟨hlater v hpos hfits, fun v' hv' hpos' => hmono v' v hpos' hv' hfits⟩

theorem addDuration_wrap64 (h0 : 0 ≤ start) (hlast : start + unixToInternal < 2 ^ 63) (d : Int) :
    (second ≤ wrap64 d → addDuration start (wrap64 d) =
      min (start + wrap64 d / second) (2 ^ 63 - 1 - unixToInternal)) ∧
    (wrap64 d < second → addDuration start (wrap64 d) ≤ start) := by
  obtain ⟨hlo, hhi⟩ := wrap64_div_second d
  unfold addDuration
  constructor
  · intro hd
    exact addSec_of_pos (by omega) hlast (by unfold second at hd ⊢; omega) hhi
  intro hd
  have hneg : wrap64 d / second ≤ 0 := by
    unfold second at hd ⊢
    omega
  rw [addSec_of_nonpos h0 hlast hneg hlo]
  omega

section
variable (h0 : 0 ≤ start) (hlast : start + unixToInternal < 2 ^ 63 - 1)
include h0 hlast

theorem lt_addDuration_iff (d : Int) : start < addDuration start (wrap64 d) ↔ second ≤ wrap64 d := by
  obtain ⟨hpos, hneg⟩ := addDuration_wrap64 h0 (by omega) d
  by_cases hd : second ≤ wrap64 d
  · refine iff_of_true ?_ hd
    rw [hpos hd]
    unfold second at hd ⊢
    omega
  · have hle := hneg (by omega)
    exact iff_of_false (by omega) hd

theorem nanoseconds_in_order {u : Int} (hu : second ≤ u) (hu' : u < 2 ^ 62) (N : Int) :
    (∀ v ≤ N, 0 < v → start < addDuration start (wrap64 (v * u)) ∧
      ∀ v' ≤ v, 0 < v' → addDuration start (wrap64 (v' * u)) ≤ addDuration start (wrap64 (v * u))) ↔
      N * u < 2 ^ 63 := by
  have hpos : (0 : Int) < u := Int.lt_of_lt_of_le (by decide) hu
  have hmul : ∀ v' v, v' ≤ v → v' * u ≤ v * u := fun v' v h =>
    Int.mul_le_mul_of_nonneg_right h (by omega)
  have hlen : ∀ v, 0 < v → u ≤ v * u := fun v hv => by
    have hone := hmul 1 v hv
    omega
  refine ends_in_order_iff (E := fun v => addDuration start (wrap64 (v * u)))
    (f := fun v => v * u) (by omega) (fun v _ => ?_) hmul ?_ ?_ ?_
  · rw [Int.add_mul, Int.one_mul]
    omega
  · intro v hv hfit
    have hl := hlen v hv
    rw [lt_addDuration_iff h0 hlast, wrap64_of_range (by omega) hfit]
    omega
  · intro v' v hv' hle hfit
    have hl := hlen v' hv'
    have hm := hmul v' v hle
    have hw : wrap64 (v * u) = v * u := wrap64_of_range (by omega) hfit
    have hw' : wrap64 (v' * u) = v' * u := wrap64_of_range (by omega) (by omega)
    rw [(addDuration_wrap64 h0 (by omega) (v * u)).1 (by omega),
      (addDuration_wrap64 h0 (by omega) (v' * u)).1 (by omega), hw, hw']
    have hdiv : v' * u / second ≤ v * u / second := Int.ediv_le_ediv (by decide) hm
    omega
  intro v _ hlo hhi
  refine (addDuration_wrap64 h0 (by omega) (v * u)).2 ?_
  rw [wrap64_of_over hlo (by omega)]
  unfold second
  omega

theorem months_in_order
    {m : Int} (hm : 0 < m) (hm' : m ≤ 12) {E : Int → Int}
    (hE : ∀ v, 0 < v → z.exactEnd start (m * v) < 2 ^ 64 →
      E v = wrap64 (z.exactEnd start (m * v))) (N : Int) :
    (∀ v ≤ N, 0 < v → start < E v ∧ ∀ v' ≤ v, 0 < v' → E v' ≤ E v) ↔
      z.exactEnd start (m * N) < 2 ^ 63 := by
  unfold unixToInternal at hlast
  have hmul : ∀ v' v, v' ≤ v → m * v' ≤ m * v := fun v' v h =>
    Int.mul_le_mul_of_nonneg_left h (by omega)
  have hle : ∀ v' v, v' ≤ v → z.exactEnd start (m * v') ≤ z.exactEnd start (m * v) :=
    fun v' v h => z.exactEnd_le start (hmul v' v h)
  have hlater : ∀ v, 0 < v → start < z.exactEnd start (m * v) := fun v hv =>
    z.lt_exactEnd start (Int.mul_pos hm hv)
  have hfits : ∀ v, 0 < v → z.exactEnd start (m * v) < 2 ^ 63 →
      E v = z.exactEnd start (m * v) := by
    intro v hv hfit
    have hl := hlater v hv
    rw [hE v hv (by omega), wrap64_of_range (by omega) hfit]
  refine ends_in_order_iff (f := fun v => z.exactEnd start (m * v)) ?_ (fun v _ => ?_) hle ?_ ?_ ?_
  · have hzero := z.exactEnd_zero_le start
    rw [Int.mul_zero]
    omega
  · have hadd := z.exactEnd_add_le start (m * v) m.toNat
    rw [Int.mul_add, Int.mul_one]
    rw [Int.toNat_of_nonneg (by omega)] at hadd
    omega
  · intro v hv hfit
    rw [hfits v hv hfit]
    exact hlater v hv
  · intro v' v hv' hv hfit
    have hl := hle v' v hv
    rw [hfits v (by omega) hfit, hfits v' hv' (Int.lt_of_le_of_lt hl hfit)]
    exact hl
  intro v hv hlo hhi
  rw [hE v hv hhi, wrap64_of_over hlo (by omega)]
  omega

end

theorem endsAt_nanoseconds {unit : DurationUnit} {n : Int}
    (h : unitLength unit = some (.nanoseconds n)) (v e : Int) :
    EndsAt z start unit v e ↔ e = addDuration start (wrap64 (v * n)) := by
  constructor
  · intro hend
    cases hend with
    | year | month => cases h
    | nanoseconds _ n' _ h' =>
      rw [h] at h'
      cases h'
      rfl
  · rintro rfl
    exact .nanoseconds unit n v h

theorem endsInOrder_iff {plan : SubscriptionPlan} {E : Int → Int}
    (hE : ∀ v e, EndsAt z start plan.durationUnit v e ↔ e = E v) : EndsInOrder z start plan ↔
      ∀ v ≤ planValue plan, 0 < v → start < E v ∧ ∀ v' ≤ v, 0 < v' → E v' ≤ E v := by
  have hcalc : ∀ v e, calcPlanEndTime z start (withValue plan v) = .ok e ↔ 0 < v ∧ e = E v := by
    intro v e
    rw [calcPlanEndTime_ok_iff, planValue_withValue, durationUnit_withValue, hE]
  constructor
  · intro h v hv hpos
    obtain ⟨hlater, hmono⟩ := h v hv (E v) ((hcalc v _).2 ⟨hpos, rfl⟩)
    exact ⟨hlater, fun v' hv' hpos' => hmono v' hv' (E v') ((hcalc v' _).2 ⟨hpos', rfl⟩)⟩
  intro h v hv e he
  obtain ⟨hpos, rfl⟩ := (hcalc v e).1 he
  refine ⟨(h v hv hpos).1, fun v' hv' e' he' => ?_⟩
  obtain ⟨hpos', rfl⟩ := (hcalc v' e').1 he'
  exact (h v hv hpos).2 v' hv' hpos'

end Ends

/-! ## Plans and purchases -/

theorem second_le_unitLength {unit : DurationUnit} {n : Int}
    (h : unitLength unit = some (.nanoseconds n)) : second ≤ n ∧ n < 2 ^ 62 := by
  cases unit <;> cases h <;> decide

/-- **Plan ends.**  For every start of a purchase: the end is later than the start and
    monotone, at every value up to the plan's, exactly if the plan's length fits; and a
    plan by the hour, the day, the week or the second ends later exactly if what 64 bits
    leave of its nanoseconds is a second or more. -/
theorem plan_end_iff (z : Zone) (start : Int) (plan : SubscriptionPlan) (h0 : 0 ≤ start)
    (hlast : start + unixToInternal < 2 ^ 63 - 1) : (EndsInOrder z start plan ↔ Fits z start plan) ∧
    (∀ n, unitLength plan.durationUnit = some (.nanoseconds n) → 0 < planValue plan →
      ((∀ e, calcPlanEndTime z start plan = .ok e → start < e) ↔
        second ≤ wrap64 (planValue plan * n))) := by
  have h63 : start < 2 ^ 63 := by
    unfold unixToInternal at hlast
    omega
  have hns : ∀ n, unitLength plan.durationUnit = some (.nanoseconds n) →
      (EndsInOrder z start plan ↔ Fits z start plan) := by
    intro n hn
    obtain ⟨hlo, hhi⟩ := second_le_unitLength hn
    rw [endsInOrder_iff (endsAt_nanoseconds hn), nanoseconds_in_order h0 hlast hlo hhi]
    constructor
    · intro hfit l hl
      rw [hn] at hl
      cases hl
      exact hfit
    · exact fun hfit => hfit _ hn
  constructor
  · cases hunit : plan.durationUnit with
    | week | day | hour | custom => exact hns _ (by rw [hunit]; rfl)
    | unset | other =>
      refine iff_of_true (fun v _ e he => ?_) (fun l hl => ?_)
      · rw [calcPlanEndTime_ok_iff, durationUnit_withValue, hunit] at he
        rcases he.2 with _ | _ | ⟨_, n, _, hn⟩
        cases hn
      · rw [hunit] at hl
        cases hl
    | year =>
      have hE : ∀ v e, EndsAt z start plan.durationUnit v e ↔ e = z.addDate start v 0 0 := by
        intro v e
        rw [hunit]
        refine ⟨fun hend => ?_, fun he => he ▸ .year v⟩
        cases hend with
        | year => rfl
        | nanoseconds _ n _ hn => cases hn
      rw [endsInOrder_iff hE, months_in_order h0 hlast (m := 12) (by decide) (by decide)]
      · refine ⟨fun hfit l hl => ?_, fun hfit => hfit (.months 12) (by rw [hunit]; rfl)⟩
        rw [hunit] at hl
        cases hl
        exact hfit
      intro v hv hfit
      have hadd : z.exactEnd start (12 * v + 0) < 2 ^ 64 →
          z.addDate start v 0 0 = wrap64 (z.exactEnd start (12 * v + 0)) :=
        z.addDate_months h0 h63 (Int.le_of_lt hv) (Int.le_refl 0)
      rw [Int.add_zero] at hadd
      exact hadd hfit
    | month =>
      have hE : ∀ v e, EndsAt z start plan.durationUnit v e ↔ e = z.addDate start 0 v 0 := by
        intro v e
        rw [hunit]
        refine ⟨fun hend => ?_, fun he => he ▸ .month v⟩
        cases hend with
        | month => rfl
        | nanoseconds _ n _ hn => cases hn
      rw [endsInOrder_iff hE, months_in_order h0 hlast (m := 1) (by decide) (by decide)]
      · refine ⟨fun hfit l hl => ?_, fun hfit => hfit (.months 1) (by rw [hunit]; rfl)⟩
        rw [hunit] at hl
        cases hl
        exact hfit
      intro v hv hfit
      have hadd : z.exactEnd start (12 * 0 + v) < 2 ^ 64 →
          z.addDate start 0 v 0 = wrap64 (z.exactEnd start (12 * 0 + v)) :=
        z.addDate_months h0 h63 (Int.le_refl 0) (Int.le_of_lt hv)
      rw [Int.mul_zero, Int.zero_add] at hadd
      rw [Int.one_mul] at hfit ⊢
      exact hadd hfit
  intro n hn hpos
  rw [← lt_addDuration_iff h0 hlast]
  constructor
  · intro h
    exact h _ (calcPlanEndTime_ok_iff.2 ⟨hpos, .nanoseconds _ n _ hn⟩)
  intro h e he
  obtain ⟨-, hend⟩ := calcPlanEndTime_ok_iff.1 he
  rw [(endsAt_nanoseconds hn _ e).1 hend]
  exact h

def longPlan : SubscriptionPlan := { id := 1, durationUnit := .hour, durationValue := 2562048 }

/-- A plan of a month that was bought in November 2023 in UTC ends in order. -/
theorem oneMonth_inOrder :
    EndsInOrder utc 1700000000 { longPlan with durationUnit := .month, durationValue := 1 } := by
  refine (plan_end_iff utc 1700000000 _ (by decide) (by decide)).1.2 fun l hl => ?_
  cases hl
  decide +kernel

/-- The checks accept the long plan, and it ends 292 years before it is bought. -/
theorem longPlan_ends_before :
    (NewApi.Subscription.validateSubscriptionPlan (fun _ => true) longPlan).toOption =
      some longPlan ∧
    calcPlanEndTime utc 1700000000 longPlan = .ok (-7523371274) ∧
    ¬ (1700000000 : Int) < -7523371274 := by
  decide +kernel

end NewApi.PlanClock
