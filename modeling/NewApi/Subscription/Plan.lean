/-
  NewApi.Subscription.Plan

  Subscription plans: the checks of `AdminCreateSubscriptionPlan` and
  `AdminUpdateSubscriptionPlan`, the end of a period (`calcPlanEndTime`), the
  next quota reset (`calcNextResetTime`), and where a plan is loaded from
  (`getSubscriptionPlanByIdTx`: a cache before the table, no fallback to the
  snapshot `AdminDeleteSubscriptionPlan` keeps; `GetPlanForSubscription` has
  one).

  Times are Unix seconds.  What depends on the calendar of the server's time
  zone (`AddDate`, the next midnight, Monday or first of a month) is a
  `Calendar`: the one thing the reset loop relies on is that each of the three
  next boundaries lies after its base.
-/

import NewApi.Subscription.Store
import Mathlib.Data.Rat.Defs

namespace NewApi.Subscription

/-! ## Plans -/

/-- `duration_unit`; `unset` is the empty string, `other` any further one. -/
inductive DurationUnit where
  | year
  | month
  | week
  | day
  | hour
  | custom
  | unset
  | other
deriving DecidableEq

/-- `quota_reset_period` after `NormalizeResetPeriod`. -/
inductive ResetPeriod where
  | never
  | daily
  | weekly
  | monthly
  | custom
deriving DecidableEq

/-- The columns of `SubscriptionPlan` that purchase, charging, reset and the
    admin checks read. -/
structure SubscriptionPlan where
  id : Int
  title : String := "plan"
  priceAmount : ℚ := 0
  firstPurchaseDiscountPercent : ℚ := 0
  durationUnit : DurationUnit := .custom
  durationValue : Int := 1
  customSeconds : Int := 0
  enabled : Bool := true
  allowBalancePay : Option Bool := none
  maxPurchasePerUser : Int := 0
  concurrencyLimit : Int := 0
  rpmLimit : Int := 0
  upgradeGroup : String := ""
  downgradeGroup : String := ""
  totalAmount : Int := 0
  quotaResetPeriod : ResetPeriod := .never
  quotaResetCustomSeconds : Int := 0
deriving DecidableEq

/-- The checks `AdminCreateSubscriptionPlan` and `AdminUpdateSubscriptionPlan`
    make, in their order: what must not hold, and the message when it does.
    `groupExists` is membership in `GetGroupRatioCopy()`. -/
def planFaults (groupExists : String → Bool) (p : SubscriptionPlan) : List (Bool × String) :=
  [(trimSpace p.title = "", "套餐标题不能为空"),
   (p.priceAmount < 0, "价格不能为负数"),
   (9999 < p.priceAmount, "价格不能超过9999"),
   (p.firstPurchaseDiscountPercent < 0 ∨ 100 < p.firstPurchaseDiscountPercent,
     "首购优惠百分比必须在 0-100 之间"),
   (p.maxPurchasePerUser < 0, "购买上限不能为负数"),
   (p.totalAmount < 0, "总额度不能为负数"),
   (p.concurrencyLimit < 0, "并发上限不能为负数"),
   (p.rpmLimit < 0, "RPM 上限不能为负数"),
   (trimSpace p.upgradeGroup ≠ "" ∧ !groupExists (trimSpace p.upgradeGroup), "升级分组不存在"),
   (trimSpace p.downgradeGroup ≠ "" ∧ !groupExists (trimSpace p.downgradeGroup),
     "降级分组不存在"),
   (p.quotaResetPeriod = .custom ∧ p.quotaResetCustomSeconds ≤ 0, "自定义重置周期需大于0秒")]

/-- The plan as it is stored once it passes: defaults for the duration, groups
    trimmed. -/
def storedPlan (p : SubscriptionPlan) : SubscriptionPlan :=
  let durationUnit := if p.durationUnit = .unset then .month else p.durationUnit
  { p with
    durationUnit
    durationValue := if p.durationValue ≤ 0 ∧ durationUnit ≠ .custom then 1 else p.durationValue
    upgradeGroup := trimSpace p.upgradeGroup
    downgradeGroup := trimSpace p.downgradeGroup }

def validateSubscriptionPlan (groupExists : String → Bool) (p : SubscriptionPlan) :
    Except String SubscriptionPlan :=
  match (planFaults groupExists p).find? Prod.fst with
  | some fault => .error fault.2
  | none => .ok (storedPlan p)

theorem validateSubscriptionPlan_ok {groupExists : String → Bool} {p q : SubscriptionPlan}
    (h : validateSubscriptionPlan groupExists p = .ok q) :
    q = storedPlan p ∧ ∀ fault ∈ planFaults groupExists p, fault.1 = false := by
  unfold validateSubscriptionPlan at h
  cases hf : (planFaults groupExists p).find? Prod.fst with
  | some fault =>
    rw [hf] at h
    cases h
  | none =>
    rw [hf] at h
    injection h with h
    refine ⟨h.symm, fun fault hin => ?_⟩
    simpa using List.find?_eq_none.1 hf fault hin

theorem totalAmount_nonneg_of_validate {groupExists : String → Bool} {p q : SubscriptionPlan}
    (h : validateSubscriptionPlan groupExists p = .ok q) : 0 ≤ q.totalAmount := by
  obtain ⟨rfl, hok⟩ := validateSubscriptionPlan_ok h
  have ht := hok (p.totalAmount < 0, "总额度不能为负数") (by simp [planFaults])
  have hnn : ¬ p.totalAmount < 0 := by simpa using ht
  show 0 ≤ p.totalAmount
  omega

/-! ## Periods -/

/-- What `time` computes in the server's location: `AddDate` by years and
    months, and the next midnight, Monday and first of the month. -/
structure Calendar where
  addDate : Int → Int → Int → Int
  nextDay : Int → Int
  nextMonday : Int → Int
  nextMonth : Int → Int
  lt_nextDay : ∀ t, t < nextDay t
  lt_nextMonday : ∀ t, t < nextMonday t
  lt_nextMonth : ∀ t, t < nextMonth t
  lt_addDate : ∀ t years months, 0 ≤ years → 0 ≤ months → 0 < years + months →
    t < addDate t years months

/-- A calendar of days from the epoch with weeks of seven, months of thirty and
    years of 365 days.  For plans whose periods are given in seconds, which
    consult no calendar. -/
def flatCalendar : Calendar where
  addDate t years months := t + (365 * years + 30 * months) * 86400
  nextDay t := t + (86400 - t % 86400)
  nextMonday t := t + (604800 - t % 604800)
  nextMonth t := t + (2592000 - t % 2592000)
  lt_nextDay t := by omega
  lt_nextMonday t := by omega
  lt_nextMonth t := by omega
  lt_addDate t years months hy hm hpos := by omega

/-- Errors of a purchase, by the text the source gives them. -/
inductive GrantErr where
  /-- `duration_value must be > 0` -/
  | durationValue
  /-- `custom_seconds must be > 0` -/
  | customSeconds
  /-- `invalid duration_unit: %s` -/
  | durationUnit
  /-- `invalid plan` -/
  | invalidPlan
  /-- `invalid user id` -/
  | invalidUser
  /-- `已达到该套餐购买上限` -/
  | purchaseLimit
  /-- `gorm.ErrRecordNotFound` for the plan -/
  | planNotFound
deriving DecidableEq

def calcPlanEndTime (cal : Calendar) (start : Int) (plan : SubscriptionPlan) :
    Except GrantErr Int :=
  if plan.durationValue ≤ 0 ∧ plan.durationUnit ≠ .custom then .error .durationValue
  else match plan.durationUnit with
  | .year => .ok (cal.addDate start plan.durationValue 0)
  | .month => .ok (cal.addDate start 0 plan.durationValue)
  | .week => .ok (start + plan.durationValue * 7 * 24 * 3600)
  | .day => .ok (start + plan.durationValue * 24 * 3600)
  | .hour => .ok (start + plan.durationValue * 3600)
  | .custom =>
    if plan.customSeconds ≤ 0 then .error .customSeconds
    else .ok (start + plan.customSeconds)
  | .unset | .other => .error .durationUnit

theorem lt_calcPlanEndTime {cal : Calendar} {start : Int} {plan : SubscriptionPlan} {e : Int}
    (h : calcPlanEndTime cal start plan = .ok e) : start < e := by
  unfold calcPlanEndTime at h
  by_cases hv : plan.durationValue ≤ 0 ∧ plan.durationUnit ≠ .custom
  · rw [if_pos hv] at h
    cases h
  rw [if_neg hv] at h
  have hpos : plan.durationUnit ≠ .custom → 0 < plan.durationValue := fun hc => by
    by_contra hle
    exact hv ⟨by omega, hc⟩
  cases hu : plan.durationUnit with
  | year | month =>
    simp only [hu, ne_eq, reduceCtorEq, not_false_eq_true, forall_const] at h hpos
    injection h with h
    rw [← h]
    exact cal.lt_addDate _ _ _ (by omega) (by omega) (by omega)
  | week | day | hour =>
    simp only [hu, ne_eq, reduceCtorEq, not_false_eq_true, forall_const] at h hpos
    injection h with h
    omega
  | custom =>
    simp only [hu] at h
    by_cases hs : plan.customSeconds ≤ 0
    · rw [if_pos hs] at h
      cases h
    rw [if_neg hs] at h
    injection h with h
    omega
  | unset | other =>
    rw [hu] at h
    cases h

/-- `calcNextResetTime`; `0` stands for no further reset. -/
def calcNextResetTime (cal : Calendar) (base : Int) (plan : SubscriptionPlan)
    (endUnix : Int) : Int :=
  let clip (next : Int) : Int := if 0 < endUnix ∧ endUnix < next then 0 else next
  match plan.quotaResetPeriod with
  | .never => 0
  | .daily => clip (cal.nextDay base)
  | .weekly => clip (cal.nextMonday base)
  | .monthly => clip (cal.nextMonth base)
  | .custom =>
    if plan.quotaResetCustomSeconds ≤ 0 then 0
    else clip (base + plan.quotaResetCustomSeconds)

/-- The catch-up loop of `maybeResetUserSubscriptionWithPlanTx`: while the next
    boundary has passed, it is the new base.  The first argument bounds the
    rounds. -/
def catchUp (cal : Calendar) (plan : SubscriptionPlan) (endUnix now : Int) :
    Nat → Int → Int → Int × Int
  | 0, base, next => (base, next)
  | n + 1, base, next =>
    if 0 < next ∧ next ≤ now then
      catchUp cal plan endUnix now n next (calcNextResetTime cal next plan endUnix)
    else (base, next)

/-! ## Where a plan is loaded from -/

/-- The plan table, the plan cache, and the snapshots of deleted plans
    (`subscription_plan_grant`), each by plan id. -/
@[ext] structure PlanStore where
  table : Int → Option SubscriptionPlan
  cache : Int → Option SubscriptionPlan
  grants : Int → Option SubscriptionPlan

namespace PlanStore

variable (ps : PlanStore)

/-- `getSubscriptionPlanByIdTx`: the cache, then the table; what was read from
    the table is cached. -/
def getSubscriptionPlanById (id : Int) : Option SubscriptionPlan × PlanStore :=
  if id ≤ 0 then (none, ps)
  else match ps.cache id with
  | some plan => (some plan, ps)
  | none =>
    match ps.table id with
    | none => (none, ps)
    | some plan => (some plan, { ps with cache := Function.update ps.cache id (some plan) })

theorem getSubscriptionPlanById_cases (id : Int) : ps.getSubscriptionPlanById id = (none, ps) ∨
    (∃ plan, ps.cache id = some plan ∧ ps.getSubscriptionPlanById id = (some plan, ps)) ∨
    (∃ plan, ps.cache id = none ∧ ps.table id = some plan ∧
      ps.getSubscriptionPlanById id =
        (some plan, { ps with cache := Function.update ps.cache id (some plan) })) := by
  unfold getSubscriptionPlanById
  by_cases hid : id ≤ 0
  · exact .inl (if_pos hid)
  rw [if_neg hid]
  cases hc : ps.cache id with
  | some plan => exact .inr (.inl ⟨plan, rfl, rfl⟩)
  | none =>
    cases ht : ps.table id with
    | none => exact .inl rfl
    | some plan => exact .inr (.inr ⟨plan, rfl, rfl, rfl⟩)

/-- `GetPlanForSubscription`: falls back to the snapshot of a deleted plan. -/
def getPlanForSubscription (planId : Int) : Option SubscriptionPlan × PlanStore :=
  match ps.getSubscriptionPlanById planId with
  | (some plan, ps') => (some plan, ps')
  | (none, ps') => (ps'.grants planId, ps')

/-- A cache entry is dropped: its time to live is over, or
    `InvalidateSubscriptionPlanCache` was called. -/
def evict (id : Int) : PlanStore :=
  { ps with cache := Function.update ps.cache id none }

/-- `AdminUpdateSubscriptionPlan` past its checks: the row is written, the cache
    entry dropped. -/
def update (ps : PlanStore) (id : Int) (plan : SubscriptionPlan) : PlanStore :=
  match ps.table id with
  | none => ps.evict id
  | some _ => { ps with table := Function.update ps.table id (some { plan with id }) }.evict id

/-- `AdminDeleteSubscriptionPlan`: the plan is snapshotted and its row removed.
    The cache is not touched here. -/
def delete (id : Int) : PlanStore :=
  match ps.table id with
  | none => ps
  | some plan =>
    { ps with
      table := Function.update ps.table id none
      grants := Function.update ps.grants id (some plan) }

end PlanStore

end NewApi.Subscription
