/-
  NewApi.Subscription.Deletion

  What later charges and resets see of a plan that was deleted.

  `AdminDeleteSubscriptionPlan` keeps the subscriptions of the plan and
  snapshots the plan for them, and `GetPlanForSubscription` falls back to that
  snapshot.  `PreConsumeUserSubscription` and `ResetDueSubscriptions` do not go
  through it: they load the plan from the cache or the table, so once the cache
  entry is gone (its time to live, or the `InvalidateSubscriptionPlanCache` the
  admin handler calls right after the deletion) the charge fails and the reset
  skips the row.

  Two runs of the same calls, one over the database with the plan deleted and
  one over the database as it was, stay in step as long as every call that
  comes to a row of the plan finds it cached.
-/

import NewApi.Lib.Run
import NewApi.Subscription.Table

namespace NewApi.Subscription

open NewApi.Lib

/-! ## Later calls -/

/-- What happens after the deletion: charges, reset sweeps, the clock, and plans
    that drop out of the cache. -/
inductive LaterCall where
  | preConsume (requestId : String) (userId amount : Int)
  | resetDue (limit : Int)
  | tick (d : Nat)
  | evictPlan (id : Int)

variable (cal : Calendar)

/-- The answer of a call (`none` for those without one) and the database after. -/
def laterCall (db : Db) : LaterCall → Option (Except Err ChargeResult) × Db
  | .preConsume rid u amount =>
    (some (preConsume cal db rid u amount).1, (preConsume cal db rid u amount).2)
  | .resetDue limit => (none, resetDueSubscriptions cal db limit)
  | .tick d => (none, { db with now := db.now + d })
  | .evictPlan id => (none, { db with plans := db.plans.evict id })

def laterStep (db : Db) (c : LaterCall) : Db := (laterCall cal db c).2

def answers (cal : Calendar) : Db → List LaterCall → List (Option (Except Err ChargeResult))
  | _, [] => []
  | db, c :: cs => (laterCall cal db c).1 :: answers cal (laterStep cal db c) cs

/-- The database after `AdminDeleteSubscriptionPlan`. -/
def deletePlan (db : Db) (planId : Int) : Db := { db with plans := db.plans.delete planId }

/-! ## Databases that differ in one plan -/

/-- The same cache, and the same table but for plan `p`. -/
structure PlanStore.SameBut (p : Int) (a b : PlanStore) : Prop where
  cache : b.cache = a.cache
  table : ∀ id, id ≠ p → b.table id = a.table id

/-- The same database but for plan `p`. -/
structure Twin (p : Int) (a b : Db) : Prop where
  rows : b.rows = a.rows
  records : b.records = a.records
  now : b.now = a.now
  plans : a.plans.SameBut p b.plans

theorem twin_deletePlan (db : Db) (p : Int) : Twin p db (deletePlan db p) := by
  refine ⟨rfl, rfl, rfl, ?_⟩
  show db.plans.SameBut p (db.plans.delete p)
  unfold PlanStore.delete
  cases db.plans.table p with
  | none => exact ⟨rfl, fun _ _ => rfl⟩
  | some plan => exact ⟨rfl, fun id hid => Function.update_of_ne hid _ _⟩

/-- Plan `p` is in the cache. -/
def PlanStore.Cached (ps : PlanStore) (p : Int) : Prop := (ps.cache p).isSome

instance (ps : PlanStore) (p : Int) : Decidable (ps.Cached p) :=
  inferInstanceAs (Decidable (_ = true))

variable {p : Int}

theorem PlanStore.Cached.load {ps : PlanStore} (h : ps.Cached p) (id : Int) :
    (ps.getSubscriptionPlanById id).2.Cached p := by
  obtain hno | ⟨plan, -, hyes⟩ | ⟨plan, -, -, hyes⟩ := ps.getSubscriptionPlanById_cases id
  · rw [hno]
    exact h
  · rw [hyes]
    exact h
  rw [hyes]
  by_cases hid : p = id
  · simp [PlanStore.Cached, hid]
  · simpa [PlanStore.Cached, hid] using h

theorem PlanStore.SameBut.load {a b : PlanStore} (h : a.SameBut p b) {id : Int}
    (hid : a.Cached p ∨ id ≠ p) :
    (b.getSubscriptionPlanById id).1 = (a.getSubscriptionPlanById id).1 ∧
      (a.getSubscriptionPlanById id).2.SameBut p (b.getSubscriptionPlanById id).2 := by
  by_cases hpos : id ≤ 0
  · simp only [getSubscriptionPlanById, if_pos hpos]
    exact ⟨trivial, h⟩
  simp only [getSubscriptionPlanById, if_neg hpos, h.cache]
  cases hc : a.cache id with
  | some plan => exact ⟨rfl, h⟩
  | none =>
    -- not cached, so it is another plan and the tables agree on it
    have hne : id ≠ p := by
      rcases hid with hcached | hne
      · rintro rfl
        simp [Cached, hc] at hcached
      · exact hne
    rw [h.table id hne]
    cases a.table id with
    | none => exact ⟨rfl, h⟩
    | some plan => exact ⟨rfl, rfl, h.table⟩

variable {a b : Db}

theorem Twin.save (h : Twin p a b) (row : SubRow) : Twin p (a.save row) (b.save row) := by
  refine ⟨?_, h.records, h.now, h.plans⟩
  show b.rows.map _ = a.rows.map _
  rw [h.rows]

theorem Twin.setRecord (h : Twin p a b) (rid : String)
    (r : PreConsumeRecord) : Twin p (a.setRecord rid r) (b.setRecord rid r) := by
  refine ⟨h.rows, ?_, h.now, h.plans⟩
  show Function.update b.records rid _ = Function.update a.records rid _
  rw [h.records]

/-! ## One call on both -/

theorem Twin.chargeRows (amount : Int) (rid : String) (rows : List SubRow) (h : Twin p a b)
    (hload : a.plans.Cached p ∨ ∀ r ∈ rows, r.planId ≠ p) :
    (chargeRows cal amount rid b rows).1 = (chargeRows cal amount rid a rows).1 ∧
      Twin p (chargeRows cal amount rid a rows).2 (chargeRows cal amount rid b rows).2 := by
  induction rows generalizing a b with
  | nil => exact ⟨rfl, h⟩
  | cons cand rest ih =>
    have hcand : a.plans.Cached p ∨ cand.planId ≠ p :=
      hload.imp_right fun hall => hall cand List.mem_cons_self
    obtain ⟨hsame, hplans⟩ := h.plans.load hcand
    have hrest : (a.plans.getSubscriptionPlanById cand.planId).2.Cached p ∨
        ∀ r ∈ rest, r.planId ≠ p :=
      hload.imp (fun hc => hc.load cand.planId)
        fun hall r hr => hall r (List.mem_cons_of_mem _ hr)
    -- both databases have the same rows, records and clock
    obtain ⟨rows, nextId, records, groups, plans, now⟩ := b
    obtain ⟨hr, hrec, hnow, hpl⟩ := h
    subst hr hrec hnow
    simp only [Subscription.chargeRows]
    rcases hla : a.plans.getSubscriptionPlanById cand.planId with ⟨la, pa⟩
    rcases hlb : plans.getSubscriptionPlanById cand.planId with ⟨lb, pb⟩
    rw [hla, hlb] at hsame hplans
    rw [hla] at hrest
    subst hsame
    have htwin : Twin p { a with plans := pa } ⟨a.rows, nextId, a.records, groups, pb, a.now⟩ :=
      ⟨rfl, rfl, rfl, hplans⟩
    cases lb with
    | none => exact ⟨rfl, htwin⟩
    | some plan =>
      have hsaved := htwin.save (maybeResetWithPlan cal cand plan a.now)
      dsimp only
      split
      · exact ih hsaved hrest
      · exact ⟨rfl, (hsaved.save _).setRecord rid _⟩

theorem Twin.candidates (h : Twin p a b) (u : Int) : candidates b u = candidates a u := by
  unfold Subscription.candidates
  rw [h.rows, h.now]

theorem Twin.preConsume (h : Twin p a b) (rid : String) (u amount : Int)
    (hload : a.plans.Cached p ∨ ∀ r ∈ Subscription.candidates a u, r.planId ≠ p) :
    (preConsume cal b rid u amount).1 = (preConsume cal a rid u amount).1 ∧
      Twin p (preConsume cal a rid u amount).2 (preConsume cal b rid u amount).2 := by
  have hcharge := h.chargeRows cal amount rid (Subscription.candidates a u) hload
  have hcand := h.candidates u
  obtain ⟨rows, nextId, records, groups, plans, now⟩ := b
  obtain ⟨hr, hrec, hnow, hpl⟩ := h
  subst hr hrec hnow
  have h : Twin p a ⟨a.rows, nextId, a.records, groups, plans, a.now⟩ := ⟨rfl, rfl, rfl, hpl⟩
  have hfind : ∀ id, Db.find ⟨a.rows, nextId, a.records, groups, plans, a.now⟩ id = a.find id :=
    fun _ => rfl
  unfold Subscription.preConsume
  simp only [hcand, hfind]
  split
  · exact ⟨rfl, h⟩
  split
  · exact ⟨rfl, h⟩
  split
  · exact ⟨rfl, h⟩
  split
  · split
    · exact ⟨rfl, h⟩
    split
    · exact ⟨rfl, h⟩
    · exact ⟨rfl, h⟩
  split
  · exact ⟨rfl, h⟩
  obtain ⟨hsame, htwin⟩ := hcharge
  rcases ha : Subscription.chargeRows cal amount rid a (Subscription.candidates a u) with
    ⟨ra, a'⟩
  rcases hb : Subscription.chargeRows cal amount rid
    ⟨a.rows, nextId, a.records, groups, plans, a.now⟩ (Subscription.candidates a u) with
    ⟨rb, b'⟩
  rw [ha, hb] at hsame htwin
  subst hsame
  cases rb with
  | error e => exact ⟨rfl, rfl, rfl, rfl, htwin.plans⟩
  | ok res => exact ⟨rfl, htwin⟩

theorem Twin.resetOne (h : Twin p a b) (row : SubRow) (hload : a.plans.Cached p ∨ row.planId ≠ p) :
    Twin p (resetOne cal a row) (resetOne cal b row) := by
  obtain ⟨hsame, hplans⟩ := h.plans.load hload
  obtain ⟨rows, nextId, records, groups, plans, now⟩ := b
  obtain ⟨hr, hrec, hnow, hpl⟩ := h
  subst hr hrec hnow
  unfold Subscription.resetOne
  rcases hla : a.plans.getSubscriptionPlanById row.planId with ⟨la, pa⟩
  rcases hlb : plans.getSubscriptionPlanById row.planId with ⟨lb, pb⟩
  rw [hla, hlb] at hsame hplans
  subst hsame
  have htwin : Twin p { a with plans := pa } ⟨a.rows, nextId, a.records, groups, pb, a.now⟩ :=
    ⟨rfl, rfl, rfl, hplans⟩
  cases lb with
  | none => exact htwin
  | some plan =>
    dsimp only
    cases a.rows.find? fun r =>
        decide (r.id = row.id ∧ 0 < r.nextResetTime ∧ r.nextResetTime ≤ a.now) with
    | none => exact htwin
    | some locked => exact htwin.save _

theorem PlanStore.Cached.resetOne {db : Db} (h : db.plans.Cached p)
    (row : SubRow) : (Subscription.resetOne cal db row).plans.Cached p := by
  have hload := h.load row.planId
  unfold Subscription.resetOne
  rcases hl : db.plans.getSubscriptionPlanById row.planId with ⟨l, ps⟩
  rw [hl] at hload
  cases l with
  | none => exact hload
  | some plan =>
    dsimp only
    split
    · exact hload
    · exact hload

theorem Twin.resetRows (due : List SubRow)
    (h : Twin p a b) (hload : a.plans.Cached p ∨ ∀ r ∈ due, r.planId ≠ p) :
    Twin p (due.foldl (Subscription.resetOne cal) a)
      (due.foldl (Subscription.resetOne cal) b) := by
  induction due generalizing a b with
  | nil => exact h
  | cons row due ih =>
    refine ih (h.resetOne cal row (hload.imp_right fun hall => hall row List.mem_cons_self)) ?_
    exact hload.imp (fun hc => hc.resetOne cal row)
      fun hall r hr => hall r (List.mem_cons_of_mem _ hr)

/-! ## Runs -/

/-- The call finds plan `p` in the cache, or comes to no row of it. -/
def PlanAtHand (p : Int) (db : Db) : LaterCall → Prop
  | .preConsume _ u _ => db.plans.Cached p ∨ ∀ r ∈ candidates db u, r.planId ≠ p
  | .resetDue limit => db.plans.Cached p ∨ ∀ r ∈ dueRows db limit, r.planId ≠ p
  | .tick _ => True
  | .evictPlan _ => True

instance (p : Int) (db : Db) : ∀ c, Decidable (PlanAtHand p db c)
  | .preConsume _ u _ =>
    inferInstanceAs (Decidable (db.plans.Cached p ∨ ∀ r ∈ candidates db u, r.planId ≠ p))
  | .resetDue limit =>
    inferInstanceAs (Decidable (db.plans.Cached p ∨ ∀ r ∈ dueRows db limit, r.planId ≠ p))
  | .tick _ => instDecidableTrue
  | .evictPlan _ => instDecidableTrue

theorem Twin.laterCall (h : Twin p a b) (c : LaterCall) (hc : PlanAtHand p b c) :
    (laterCall cal b c).1 = (laterCall cal a c).1 ∧ Twin p (laterStep cal a c)
      (laterStep cal b c) := by
  have hcached : b.plans.Cached p → a.plans.Cached p := by
    intro hb
    unfold PlanStore.Cached at hb ⊢
    rw [← h.plans.cache]
    exact hb
  cases c with
  | preConsume rid u amount =>
    rw [PlanAtHand, h.candidates] at hc
    obtain ⟨hsame, htwin⟩ := h.preConsume cal rid u amount (hc.imp_left hcached)
    exact ⟨congrArg some hsame, htwin⟩
  | resetDue limit =>
    have hdue : dueRows b limit = dueRows a limit := by
      unfold dueRows
      rw [h.rows, h.now]
    rw [PlanAtHand, hdue] at hc
    refine ⟨rfl, ?_⟩
    show Twin p (resetDueSubscriptions cal a limit) (resetDueSubscriptions cal b limit)
    unfold resetDueSubscriptions
    rw [hdue]
    exact h.resetRows cal _ (hc.imp_left hcached)
  | tick d => exact ⟨rfl, h.rows, h.records, congrArg (· + (d : Int)) h.now, h.plans⟩
  | evictPlan id =>
    refine ⟨rfl, h.rows, h.records, h.now, ?_, h.plans.table⟩
    show Function.update b.plans.cache id none = Function.update a.plans.cache id none
    rw [h.plans.cache]

theorem Twin.run (cs : List LaterCall) (h : Twin p a b)
    (hcs : Meets (PlanAtHand p) (laterStep cal) b cs) : answers cal b cs = answers cal a cs ∧
      Twin p (Lib.run (laterStep cal) a cs) (Lib.run (laterStep cal) b cs) := by
  induction cs generalizing a b with
  | nil => exact ⟨rfl, h⟩
  | cons c cs ih =>
    obtain ⟨hsame, htwin⟩ := h.laterCall cal c hcs.1
    obtain ⟨hans, hrun⟩ := ih htwin hcs.2
    refine ⟨?_, hrun⟩
    rw [answers, answers, hsame, hans]

/-- **Deleting a plan, seen by later calls.**  Over any database and any
    sequence of charges, reset sweeps, clock ticks and cache evictions, if every
    call after the deletion finds the plan cached or comes to no row of it, then
    every call answers as it would without the deletion, and in every state
    passed every row is as it would be. -/
theorem planDeletion_unseen (cal : Calendar) (db : Db) (p : Int) (cs : List LaterCall)
    (h : Meets (PlanAtHand p) (laterStep cal) (deletePlan db p) cs) :
    answers cal (deletePlan db p) cs = answers cal db cs ∧
    ∀ n, (Lib.run (laterStep cal) (deletePlan db p) (cs.take n)).rows =
      (Lib.run (laterStep cal) db (cs.take n)).rows := by
  refine ⟨((twin_deletePlan db p).run cal cs h).1, fun n => ?_⟩
  exact ((twin_deletePlan db p).run cal (cs.take n) (h.take n)).2.rows

def minutePlan : SubscriptionPlan :=
  { id := 1, customSeconds := 1000, totalAmount := 500, quotaResetPeriod := .custom,
    quotaResetCustomSeconds := 60 }

def onlyMinutePlan (id : Int) : Option SubscriptionPlan :=
  if id = 1 then some minutePlan else none

/-- User 7 is subscribed to plan 1, which is in the table and in the cache. -/
def subscribed : Db :=
  { Db.empty 10 with
    rows := [{ id := 1, userId := 7, planId := 1, amountTotal := 500, startTime := 10,
               endTime := 1010, lastResetTime := 10, nextResetTime := 70 }]
    plans := ⟨onlyMinutePlan, onlyMinutePlan, fun _ => none⟩ }

def twoCharges : List LaterCall :=
  [.preConsume "a" 7 100, .tick 60, .resetDue 0, .preConsume "b" 7 40]

theorem planDeletion_unseen_twoCharges : answers flatCalendar (deletePlan subscribed 1) twoCharges =
      answers flatCalendar subscribed twoCharges ∧
    ∀ n, (Lib.run (laterStep flatCalendar) (deletePlan subscribed 1) (twoCharges.take n)).rows =
      (Lib.run (laterStep flatCalendar) subscribed (twoCharges.take n)).rows :=
  planDeletion_unseen flatCalendar subscribed 1 twoCharges (by decide +kernel)

/-- The deleted plan drops out of the cache: the charge that would go through
    fails, and the reset that would happen does not, while
    `GetPlanForSubscription` still has the plan. -/
theorem evictedPlan_stops_charges :
    answers flatCalendar (deletePlan subscribed 1) [.evictPlan 1, .preConsume "a" 7 100] =
      [none, some (.error .recordNotFound)] ∧
    answers flatCalendar subscribed [.evictPlan 1, .preConsume "a" 7 100] =
      [none, some (.ok ⟨1, 100, 500, 0, 100⟩)] ∧
    (Lib.run (laterStep flatCalendar) (deletePlan subscribed 1)
      [.evictPlan 1, .tick 60, .resetDue 0]).rows.map SubRow.nextResetTime = [70] ∧
    (Lib.run (laterStep flatCalendar) subscribed
      [.evictPlan 1, .tick 60, .resetDue 0]).rows.map SubRow.nextResetTime = [130] ∧
    (((deletePlan subscribed 1).plans.evict 1).getPlanForSubscription 1).1 = some minutePlan := by
  refine ⟨?_, ?_, ?_, ?_, ?_⟩
  all_goals decide +kernel

end NewApi.Subscription
