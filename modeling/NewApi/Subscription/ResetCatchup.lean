/-
  NewApi.Subscription.ResetCatchup

  `maybeResetUserSubscriptionWithPlanTx` with the integers and the calendar that it has:
  from the last reset it goes from one boundary of the period to the next, until one lies
  ahead of now or there is none.

  Nothing in it sees to it that a boundary lies after its base.  It ends on every row
  exactly if no boundary comes back to itself, and the times it leaves are right exactly
  if, besides, none is negative; running it in between changes nothing.
-/

import NewApi.Lib.Orbit
import NewApi.Subscription.PlanEnd
import Mathlib.Order.Interval.Set.Infinite
import Mathlib.Data.Int.Interval

namespace NewApi.PlanClock

open NewApi.Lib
open NewApi.Subscription (SubscriptionPlan)

/-! ## The reset -/

variable (z : Zone)

/-- `calcNextResetTime`; `0` stands for no further reset. -/
def calcNextResetTime (base : Int) (plan : SubscriptionPlan) (endUnix : Int) : Int :=
  let clip (next : Int) : Int := if 0 < endUnix ∧ endUnix < next then 0 else next
  let today := z.day base
  match plan.quotaResetPeriod with
  | .never => 0
  | .daily => clip (z.addDate (z.date today 0) 0 0 1)
  | .weekly =>
    -- Monday is 1 and Sunday 7
    let weekday := if weekday today = 0 then 7 else weekday today
    clip (z.addDate (z.date today 0) 0 0 (8 - weekday))
  | .monthly => clip (z.addDate (z.date (monthStart (monthOf today)) 0) 0 1 0)
  | .custom =>
    if plan.quotaResetCustomSeconds ≤ 0 then 0
    else clip (addDuration base (wrap64 (plan.quotaResetCustomSeconds * second)))

/-- The columns of a subscription that a reset reads or writes. -/
structure ResetRow where
  startTime : Int
  endTime : Int := 0
  lastResetTime : Int := 0
  nextResetTime : Int := 0
  amountUsed : Int := 0
  periodPrice : ℚ := 0

def resetBase (sub : ResetRow) : Int :=
  if sub.lastResetTime ≤ 0 then sub.startTime else sub.lastResetTime

def Due (now next : Int) : Prop := 0 < next ∧ next ≤ now

instance (now : Int) : DecidablePred (Due now) :=
  fun next => inferInstanceAs (Decidable (0 < next ∧ next ≤ now))

variable (plan : SubscriptionPlan)

def nextReset (endUnix base : Int) : Int :=
  calcNextResetTime z base plan endUnix

/-- `maybeResetUserSubscriptionWithPlanTx`, with a bound on the rounds of the loop. -/
def maybeReset (fuel : Nat) (z : Zone) (plan : SubscriptionPlan) (sub : ResetRow) (now : Int) :
    Option ResetRow :=
  if 0 < sub.nextResetTime ∧ now < sub.nextResetTime then some sub
  else if plan.quotaResetPeriod = .never then some sub
  else
    let base := resetBase sub
    let next := nextReset z plan sub.endTime base
    if ¬Due now next then
      if sub.nextResetTime = 0 ∧ 0 < next then
        some { sub with nextResetTime := next, lastResetTime := base }
      else some sub
    else
      (walk (nextReset z plan sub.endTime) (Due now) fuel base next).map fun caught =>
        { sub with
          amountUsed := 0, periodPrice := 0, lastResetTime := caught.1, nextResetTime := caught.2 }

def Resets (sub : ResetRow) (now : Int) (sub' : ResetRow) : Prop :=
  ∃ fuel, maybeReset fuel z plan sub now = some sub'

/-- What the call should do: end; leave no next reset, or one ahead with the last one not
    ahead; and leave the same if it is called at an earlier time as well. -/
def Settles (sub : ResetRow) (now : Int) : Prop :=
  ∃ sub', Resets z plan sub now sub' ∧
    (sub'.nextResetTime = 0 ∨ (now < sub'.nextResetTime ∧ sub'.lastResetTime ≤ now)) ∧
    ∀ t, 0 ≤ t → t ≤ now →
      ∃ between, Resets z plan sub t between ∧ Resets z plan between now sub'

/-! ## When it settles -/

/-- A time that a row can hold: after 1970, with room for what is added to it. -/
def RowTime (t : Int) : Prop := 0 < t ∧ t < 2 ^ 62

def boundary (base : Int) : Int := nextReset z plan 0 base

/-- No boundary of the period comes back to itself, and none is negative. -/
structure Advancing (z : Zone) (plan : SubscriptionPlan) : Prop where
  ahead : ∀ t, ¬Returns (boundary z plan) RowTime t
  nonneg : ∀ base, -2 ^ 63 ≤ base → base < 2 ^ 63 → RowTime (boundary z plan base) →
    0 ≤ boundary z plan (boundary z plan base)

/-- The row's next reset is ahead and the last one is not; or a boundary after its base has
    passed; or none is set and the base is not ahead. -/
def RowOk (sub : ResetRow) (now : Int) : Prop :=
  if 0 < sub.nextResetTime ∧ now < sub.nextResetTime then sub.lastResetTime ≤ now
  else if plan.quotaResetPeriod = .never then sub.nextResetTime = 0
  else
    Due now (nextReset z plan sub.endTime (resetBase sub)) ∨
      sub.nextResetTime = 0 ∧
        (0 < nextReset z plan sub.endTime (resetBase sub) → resetBase sub ≤ now)

section Settling

variable {z : Zone} {plan : SubscriptionPlan} {sub sub' : ResetRow} {now : Int}

theorem nextReset_eq (z : Zone) (plan : SubscriptionPlan) (endUnix base : Int) :
    nextReset z plan endUnix base = 0 ∨ nextReset z plan endUnix base = boundary z plan base := by
  have hclip : ∀ next : Int, (if 0 < endUnix ∧ endUnix < next then 0 else next) = 0 ∨
      (if 0 < endUnix ∧ endUnix < next then 0 else next) =
        if 0 < (0 : Int) ∧ 0 < next then 0 else next := by
    intro next
    by_cases hclip : 0 < endUnix ∧ endUnix < next
    · exact .inl (if_pos hclip)
    · exact .inr ((if_neg hclip).trans (if_neg fun h => absurd h.1 (by decide)).symm)
  unfold boundary nextReset calcNextResetTime
  cases plan.quotaResetPeriod with
  | never => exact .inl rfl
  | daily | weekly | monthly => exact hclip _
  | custom =>
    dsimp only
    split
    · exact .inl rfl
    · exact hclip _

theorem boundary_of_due {endUnix base : Int} (h : 0 < nextReset z plan endUnix base) :
    boundary z plan base = nextReset z plan endUnix base := by
  rcases nextReset_eq z plan endUnix base with h0 | heq
  · omega
  · exact heq.symm

theorem returns_boundary {endUnix t : Int} (hnow : now < 2 ^ 62)
    (h : Returns (nextReset z plan endUnix) (Due now) t) : Returns (boundary z plan) RowTime t := by
  have hsame : ∀ i, (boundary z plan)^[i] t = (nextReset z plan endUnix)^[i] t := by
    intro i
    induction i with
    | zero => rfl
    | succ i ih =>
      have hdue := h.stays (i + 1)
      rw [Function.iterate_succ_apply'] at hdue
      rw [Function.iterate_succ_apply', Function.iterate_succ_apply', ih]
      exact boundary_of_due hdue.1
  obtain ⟨n, hpos, hback, hP⟩ := h
  refine ⟨n, hpos, (hsame n).trans hback, fun i hi => ?_⟩
  have hdue := hP i hi
  rw [hsame i]
  exact ⟨hdue.1, Int.lt_of_le_of_lt hdue.2 hnow⟩

theorem finite_due (now : Int) : {t | Due now t}.Finite :=
  (Set.finite_Ioc (0 : Int) now).subset fun _ h => h

theorem Advancing.walk_ends (h : Advancing z plan) (hnow : now < 2 ^ 62) (endUnix base next : Int) :
    ∃ fuel r, walk (nextReset z plan endUnix) (Due now) fuel base next = some r := by
  obtain ⟨n, hleaves⟩ := exists_leaves (finite_due now)
    (fun t ht => h.ahead t (returns_boundary hnow ht)) next
  exact ⟨n + 1, walk_of_leaves hleaves⟩

theorem maybeReset_cases (fuel : Nat) (z : Zone) (plan : SubscriptionPlan) (sub : ResetRow)
    (now : Int) :
    ((0 < sub.nextResetTime ∧ now < sub.nextResetTime ∨ plan.quotaResetPeriod = .never) ∧
      maybeReset fuel z plan sub now = some sub) ∨
    (¬(0 < sub.nextResetTime ∧ now < sub.nextResetTime) ∧ plan.quotaResetPeriod ≠ .never ∧
      ¬Due now (nextReset z plan sub.endTime (resetBase sub)) ∧
      maybeReset fuel z plan sub now =
        if sub.nextResetTime = 0 ∧ 0 < nextReset z plan sub.endTime (resetBase sub) then
          some { sub with
            nextResetTime := nextReset z plan sub.endTime (resetBase sub),
            lastResetTime := resetBase sub }
        else some sub) ∨
    (¬(0 < sub.nextResetTime ∧ now < sub.nextResetTime) ∧ plan.quotaResetPeriod ≠ .never ∧
      Due now (nextReset z plan sub.endTime (resetBase sub)) ∧
      maybeReset fuel z plan sub now =
        (walk (nextReset z plan sub.endTime) (Due now) fuel (resetBase sub)
          (nextReset z plan sub.endTime (resetBase sub))).map fun caught =>
            { sub with
              amountUsed := 0, periodPrice := 0, lastResetTime := caught.1,
              nextResetTime := caught.2 }) := by
  unfold maybeReset
  by_cases hset : 0 < sub.nextResetTime ∧ now < sub.nextResetTime
  · exact .inl ⟨.inl hset, if_pos hset⟩
  rw [if_neg hset]
  by_cases hnever : plan.quotaResetPeriod = .never
  · exact .inl ⟨.inr hnever, if_pos hnever⟩
  rw [if_neg hnever]
  by_cases hdue : Due now (nextReset z plan sub.endTime (resetBase sub))
  · exact .inr (.inr ⟨hset, hnever, hdue, if_neg (not_not.2 hdue)⟩)
  · exact .inr (.inl ⟨hset, hnever, hdue, if_pos hdue⟩)

theorem Advancing.next_nonneg (h : Advancing z plan) (hnow : now < 2 ^ 62) {endUnix base t : Int}
    (hlo : -2 ^ 63 ≤ base) (hhi : base < 2 ^ 63) (ht : t = nextReset z plan endUnix base)
    (hdue : Due now t) : 0 ≤ nextReset z plan endUnix t := by
  have hnonneg := h.nonneg base hlo hhi
  rw [boundary_of_due (by rw [← ht]; exact hdue.1), ← ht] at hnonneg
  have hb := hnonneg ⟨hdue.1, Int.lt_of_le_of_lt hdue.2 hnow⟩
  rcases nextReset_eq z plan endUnix t with h0 | heq
  · omega
  · omega

theorem times_iff_rowOk (h : Advancing z plan) (hsub : -2 ^ 63 ≤ resetBase sub)
    (hsub' : resetBase sub < 2 ^ 63) (hnow0 : 0 ≤ now) (hnow : now < 2 ^ 62)
    (hres : Resets z plan sub now sub') :
    (sub'.nextResetTime = 0 ∨ (now < sub'.nextResetTime ∧ sub'.lastResetTime ≤ now)) ↔
      RowOk z plan sub now := by
  obtain ⟨fuel, hfuel⟩ := hres
  unfold RowOk
  rcases maybeReset_cases fuel z plan sub now with
    ⟨hkeep, heq⟩ | ⟨hset, hnever, hdue, heq⟩ | ⟨hset, hnever, hdue, heq⟩
  · -- nothing to do
    rw [hfuel] at heq
    obtain rfl := Option.some.inj heq
    rcases hkeep with hset | hnever
    · rw [if_pos hset]
      omega
    by_cases hset : 0 < sub'.nextResetTime ∧ now < sub'.nextResetTime
    · rw [if_pos hset]
      omega
    · rw [if_neg hset, if_pos hnever]
      omega
  · -- no boundary has passed
    rw [if_neg hset, if_neg hnever]
    rw [hfuel] at heq
    unfold Due at hdue ⊢
    by_cases hfirst : sub.nextResetTime = 0 ∧ 0 < nextReset z plan sub.endTime (resetBase sub)
    · rw [if_pos hfirst] at heq
      obtain rfl := Option.some.inj heq
      dsimp only
      omega
    rw [if_neg hfirst] at heq
    obtain rfl := Option.some.inj heq
    omega
  -- the loop ran
  rw [if_neg hset, if_neg hnever]
  refine iff_of_true ?_ (.inl hdue)
  rw [hfuel, eq_comm, Option.map_eq_some_iff] at heq
  obtain ⟨r, hwalk, rfl⟩ := heq
  obtain ⟨hstop, ⟨hx, -⟩ | ⟨-, hlast, hnext, hfrom⟩⟩ := walk_stops hwalk
  · exact absurd hdue hx
  have hnn : 0 ≤ r.2 := by
    rw [hnext]
    rcases hfrom with hfirst | ⟨y, hy, hfrom⟩
    · exact h.next_nonneg hnow hsub hsub' hfirst hlast
    · unfold Due at hy
      exact h.next_nonneg hnow (by omega) (by omega) hfrom hlast
  unfold Due at hstop hlast
  show r.2 = 0 ∨ (now < r.2 ∧ r.1 ≤ now)
  omega

theorem resets_keep {t : Int} (hset : 0 < sub.nextResetTime ∧ t < sub.nextResetTime) :
    Resets z plan sub t sub := ⟨0, if_pos hset⟩

theorem resetBase_written (sub : ResetRow) (next : Int) :
    resetBase { sub with nextResetTime := next, lastResetTime := resetBase sub } =
      resetBase sub := by
  unfold resetBase
  dsimp only
  split
  · split
    · rfl
    · omega
  · rfl

/-- A row that was brought up to an earlier time goes on as if it had not been. -/
theorem resets_between {t : Int} (ht : t ≤ now) (hres : Resets z plan sub now sub') :
    ∃ between, Resets z plan sub t between ∧ Resets z plan between now sub' := by
  obtain ⟨fuel, hfuel⟩ := hres
  obtain ⟨next, hnext⟩ : ∃ next, next = nextReset z plan sub.endTime (resetBase sub) := ⟨_, rfl⟩
  rcases maybeReset_cases fuel z plan sub t with
    ⟨-, heq⟩ | ⟨hset, hnever, hdue, heq⟩ | ⟨hset, hnever, hdue, heq⟩
  · exact ⟨sub, ⟨fuel, heq⟩, fuel, hfuel⟩
  · rw [← hnext] at hdue heq
    by_cases hfirst : sub.nextResetTime = 0 ∧ 0 < next
    · -- the first boundary was written down
      have hbase := resetBase_written sub next
      rw [if_pos hfirst] at heq
      refine ⟨_, ⟨fuel, heq⟩, ?_⟩
      rcases maybeReset_cases fuel z plan sub now with
        ⟨hkeep | hnever', -⟩ | ⟨-, -, hlater, hnow⟩ | ⟨-, -, hlater, hnow⟩
      · omega
      · exact absurd hnever' hnever
      · rw [← hnext, if_pos hfirst, hfuel] at hnow
        obtain rfl := Option.some.inj hnow
        rw [← hnext] at hlater
        unfold Due at hlater
        exact resets_keep (by dsimp only; omega)
      rw [← hnext] at hlater hnow
      refine ⟨fuel, ?_⟩
      unfold maybeReset
      rw [hbase, if_neg (by unfold Due at hlater; dsimp only; omega), if_neg hnever]
      dsimp only
      rw [← hnext, if_neg (not_not.2 hlater), ← hfuel, hnow]
    · rw [if_neg hfirst] at heq
      exact ⟨sub, ⟨fuel, heq⟩, fuel, hfuel⟩
  -- the loop ran up to `t`, and goes on from there
  rw [← hnext] at hdue heq
  have hmore : ∀ x, Due t x → Due now x := fun x hx => ⟨hx.1, hx.2.trans ht⟩
  have hnow : maybeReset fuel z plan sub now =
      (walk (nextReset z plan sub.endTime) (Due now) fuel (resetBase sub) next).map fun caught =>
        { sub with
          amountUsed := 0, periodPrice := 0, lastResetTime := caught.1,
          nextResetTime := caught.2 } := by
    unfold maybeReset
    rw [if_neg (by omega), if_neg hnever]
    dsimp only
    rw [← hnext, if_neg (not_not.2 (hmore next hdue))]
  rw [hfuel, eq_comm, Option.map_eq_some_iff] at hnow
  obtain ⟨r, hwalk, rfl⟩ := hnow
  obtain ⟨r', hwalk', hrest⟩ := walk_split hmore hwalk
  rw [hwalk'] at heq
  refine ⟨_, ⟨fuel, heq⟩, ?_⟩
  obtain ⟨hstop, ⟨hx, -⟩ | ⟨-, hlast, hled, -⟩⟩ := walk_stops hwalk'
  · exact absurd hdue hx
  have hpos : 0 < r'.1 := hlast.1
  by_cases hlater : Due now r'.2
  · have hle : r'.2 ≤ now := hlater.2
    refine ⟨fuel, ?_⟩
    unfold maybeReset resetBase
    rw [if_neg (by dsimp only; omega), if_neg hnever]
    dsimp only
    rw [if_neg (show ¬r'.1 ≤ 0 by omega), ← hled, if_neg (not_not.2 hlater), hrest]
    rfl
  -- it stopped because there is nothing left to do
  obtain rfl := walk_of_not hlater hrest
  by_cases hahead : 0 < r'.2 ∧ now < r'.2
  · exact resets_keep hahead
  refine ⟨fuel, ?_⟩
  unfold maybeReset resetBase
  rw [if_neg hahead, if_neg hnever]
  dsimp only
  rw [if_neg (show ¬r'.1 ≤ 0 by omega), ← hled, if_pos hlater, if_neg (by omega)]

/-- **One row.**  Under an advancing period the call settles exactly on the rows that
    `RowOk` describes. -/
theorem settles_iff (h : Advancing z plan) (hsub : -2 ^ 63 ≤ resetBase sub)
    (hsub' : resetBase sub < 2 ^ 63) (hnow0 : 0 ≤ now) (hnow : now < 2 ^ 62) :
    Settles z plan sub now ↔ RowOk z plan sub now := by
  constructor
  · rintro ⟨sub', hres, htimes, -⟩
    exact (times_iff_rowOk h hsub hsub' hnow0 hnow hres).1 htimes
  intro hrow
  obtain ⟨sub', hres⟩ : ∃ sub', Resets z plan sub now sub' := by
    obtain ⟨fuel, r, hwalk⟩ := h.walk_ends hnow sub.endTime (resetBase sub)
      (nextReset z plan sub.endTime (resetBase sub))
    rcases maybeReset_cases fuel z plan sub now with
      ⟨-, heq⟩ | ⟨-, -, -, heq⟩ | ⟨-, -, -, heq⟩
    · exact ⟨sub, fuel, heq⟩
    · by_cases hfirst : sub.nextResetTime = 0 ∧ 0 < nextReset z plan sub.endTime (resetBase sub)
      · rw [if_pos hfirst] at heq
        exact ⟨_, fuel, heq⟩
      · rw [if_neg hfirst] at heq
        exact ⟨sub, fuel, heq⟩
    · rw [hwalk] at heq
      exact ⟨_, fuel, heq⟩
  exact ⟨sub', hres, (times_iff_rowOk h hsub hsub' hnow0 hnow hres).2 hrow,
    fun t _ ht => resets_between ht hres⟩

theorem never_boundary (h : plan.quotaResetPeriod = .never) (base : Int) :
    boundary z plan base = 0 := by
  unfold boundary nextReset calcNextResetTime
  rw [h]

theorem not_resets_of_returns {t : Int} (hret : Returns (boundary z plan) RowTime t) :
    ∃ base, RowTime base ∧
      RowOk z plan { startTime := base, lastResetTime := base } (2 ^ 62 - 1) ∧
      ∀ sub', ¬Resets z plan { startTime := base, lastResetTime := base } (2 ^ 62 - 1) sub' := by
  have hstays := hret.stays
  obtain ⟨n, hpos, hback, hP⟩ := hret
  obtain ⟨m, rfl⟩ : ∃ m, n = m + 1 := ⟨n - 1, by omega⟩
  rw [Function.iterate_succ_apply'] at hback
  have hbase : RowTime ((boundary z plan)^[m] t) := hP m (by omega)
  generalize (boundary z plan)^[m] t = base at hback hbase
  have hdue : ∀ i, Due (2 ^ 62 - 1) ((boundary z plan)^[i] t) := fun i => by
    have hi := hstays i
    unfold RowTime at hi
    exact ⟨hi.1, by omega⟩
  have hfirst : Due (2 ^ 62 - 1) t := hdue 0
  have hnever : plan.quotaResetPeriod ≠ .never := fun hnever => by
    rw [never_boundary hnever] at hback
    exact absurd hfirst.1 (by omega)
  have hb : resetBase { startTime := base, lastResetTime := base } = base :=
    if_neg (Int.not_le.2 hbase.1)
  refine ⟨base, hbase, ?_, ?_⟩
  · unfold RowOk
    rw [if_neg (fun h => Int.lt_irrefl 0 h.1), if_neg hnever, hb]
    left
    show Due (2 ^ 62 - 1) (boundary z plan base)
    rw [hback]
    exact hfirst
  rintro sub' ⟨fuel, hfuel⟩
  have hnone : walk (nextReset z plan 0) (Due (2 ^ 62 - 1)) fuel base t = none :=
    walk_of_stays hdue fuel
  unfold maybeReset at hfuel
  rw [if_neg (fun h => Int.lt_irrefl 0 h.1), if_neg hnever, hb] at hfuel
  dsimp only at hfuel
  rw [show nextReset z plan 0 base = t from hback, if_neg (not_not.2 hfirst), hnone] at hfuel
  cases hfuel

theorem not_settles_of_negative {base : Int} (ht : RowTime (boundary z plan base))
    (hneg : boundary z plan (boundary z plan base) < 0) :
    RowOk z plan { startTime := base } (boundary z plan base) ∧
      ¬Settles z plan { startTime := base } (boundary z plan base) := by
  have hnever : plan.quotaResetPeriod ≠ .never := fun hnever => by
    rw [never_boundary hnever] at ht
    exact absurd ht.1 (by decide)
  have hdue : Due (boundary z plan base) (nextReset z plan 0 base) := ⟨ht.1, Int.le_refl _⟩
  constructor
  · unfold RowOk
    rw [if_neg (fun h => Int.lt_irrefl 0 h.1), if_neg hnever]
    exact .inl hdue
  rintro ⟨sub', ⟨fuel, hfuel⟩, htimes, -⟩
  rcases maybeReset_cases fuel z plan { startTime := base } (boundary z plan base) with
    ⟨hset | hnever', -⟩ | ⟨-, -, hnot, -⟩ | ⟨-, -, -, heq⟩
  · exact Int.lt_irrefl 0 hset.1
  · exact hnever hnever'
  · exact hnot hdue
  rw [hfuel, eq_comm, Option.map_eq_some_iff] at heq
  obtain ⟨r, hwalk, rfl⟩ := heq
  obtain ⟨fuel, rfl⟩ : ∃ k, fuel = k + 1 := by
    cases fuel with
    | zero => cases hwalk
    | succ k => exact ⟨k, rfl⟩
  change walk (nextReset z plan 0) (Due (boundary z plan base)) (fuel + 1) base
    (nextReset z plan 0 base) = some r at hwalk
  unfold walk at hwalk
  rw [if_pos hdue] at hwalk
  have hstop : ¬Due (boundary z plan base) (boundary z plan (boundary z plan base)) :=
    fun h => by have := h.1; omega
  obtain rfl := walk_of_not hstop hwalk
  have hpos := ht.1
  dsimp only at htimes
  omega

/-- **Every row.**  The call settles on all rows of a plan that `RowOk` describes exactly
    if the period advances. -/
theorem advancing_iff (z : Zone) (plan : SubscriptionPlan) :
    Advancing z plan ↔ ∀ sub now, -2 ^ 63 ≤ resetBase sub → resetBase sub < 2 ^ 63 → 0 ≤ now →
      now < 2 ^ 62 → RowOk z plan sub now → Settles z plan sub now := by
  constructor
  · exact fun h sub now hlo hhi hnow0 hnow hrow => (settles_iff h hlo hhi hnow0 hnow).2 hrow
  intro h
  refine ⟨fun t hret => ?_, fun base hlo hhi ht => ?_⟩
  · obtain ⟨base, hbase, hrow, hno⟩ := not_resets_of_returns hret
    unfold RowTime at hbase
    have hb : resetBase { startTime := base, lastResetTime := base } = base :=
      if_neg (Int.not_le.2 hbase.1)
    obtain ⟨sub', hres, -⟩ := h _ (2 ^ 62 - 1) (by rw [hb]; omega) (by rw [hb]; omega)
      (by decide) (by decide) hrow
    exact hno sub' hres
  refine Int.not_lt.1 fun hneg => ?_
  obtain ⟨hrow, hnot⟩ := not_settles_of_negative ht hneg
  exact hnot (h _ _ hlo hhi (Int.le_of_lt ht.1) ht.2 hrow)

end Settling

end NewApi.PlanClock
