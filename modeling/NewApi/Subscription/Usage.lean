/-
  NewApi.Subscription.Usage

  How much of a subscription's quota is used, over every sequence of purchases,
  charges, refunds, settlements, resets and admin edits of the plans.

  A row with a total stays within it: a charge needs room for its amount, a
  settlement is refused past the total, a refund stops at zero, a reset starts
  again from zero.  The one way out is a renewal: it adds the plan's quota to
  the row's total whenever the *plan* is limited, also when the row is not.  An
  unlimited row with usage on it that is renewed after the plan was given a
  smaller limit comes out over its limit.  `RenewalFits` says when that does
  not happen.
-/

import NewApi.Lib.Run
import NewApi.Subscription.Table

namespace NewApi.Subscription

open NewApi.Lib

/-! ## The operations -/

/-- An admin request carries the plan and the groups that exist at that time. -/
inductive UsageAction where
  | tick (d : Nat)
  | createPlan (groupExists : String → Bool) (id : Int) (plan : SubscriptionPlan)
  | updatePlan (groupExists : String → Bool) (id : Int) (plan : SubscriptionPlan)
  | evictPlan (id : Int)
  | purchase (userId planId : Int)
  | preConsume (requestId : String) (userId amount : Int)
  | refund (requestId : String) (recordLost : Bool)
  | settle (id delta : Int)
  | resetOne (row : SubRow)
  | resetDue (limit : Int)

/-- A purchase loads the plan and creates or renews the row. -/
def purchase (cal : Calendar) (db : Db) (userId planId : Int) : Db :=
  match db.plans.getSubscriptionPlanById planId with
  | (none, ps) => { db with plans := ps }
  | (some plan, ps) => (createUserSubscriptionFromPlanTx cal { db with plans := ps } userId plan).2

/-- `AdminCreateSubscriptionPlan` under the id the database gives the plan. -/
def PlanStore.create (ps : PlanStore) (id : Int) (plan : SubscriptionPlan) : PlanStore :=
  match ps.table id with
  | some _ => ps
  | none => { ps with table := Function.update ps.table id (some { plan with id }) }.evict id

def usageStep (cal : Calendar) (db : Db) : UsageAction → Db
  | .tick d => { db with now := db.now + d }
  | .createPlan groupExists id plan =>
    match validateSubscriptionPlan groupExists plan with
    | .error _ => db
    | .ok p => { db with plans := db.plans.create id p }
  | .updatePlan groupExists id plan =>
    match validateSubscriptionPlan groupExists plan with
    | .error _ => db
    | .ok p => { db with plans := db.plans.update id p }
  | .evictPlan id => { db with plans := db.plans.evict id }
  | .purchase u planId => purchase cal db u planId
  | .preConsume rid u amount => (preConsume cal db rid u amount).2
  | .refund rid lost => (refundPreConsume db rid lost).2
  | .settle id delta => (postConsumeDelta db id delta).2
  | .resetOne row => resetOne cal db row
  | .resetDue limit => resetDueSubscriptions cal db limit

/-! ## Row properties that charging and resetting keep -/

/-- A property of rows that resets, charges with room, accepted settlements and
    first purchases establish. -/
structure RowClosed (Q : SubRow → Prop) : Prop where
  times : ∀ r last next, Q r → Q { r with lastResetTime := last, nextResetTime := next }
  reset : ∀ r last next, Q r →
    Q { r with amountUsed := 0, lastResetTime := last, nextResetTime := next }
  charge : ∀ r amount, Q r → 0 < amount →
    ¬ (0 < r.amountTotal ∧ r.amountTotal - r.amountUsed < amount) →
    Q { r with amountUsed := r.amountUsed + amount }
  settle : ∀ r delta, Q r →
    ¬ (0 < r.amountTotal ∧ r.amountTotal < max (r.amountUsed + delta) 0) →
    Q { r with amountUsed := max (r.amountUsed + delta) 0 }
  fresh : ∀ r, 0 ≤ r.amountTotal → r.amountUsed = 0 → Q r

def PlanStore.Sane (ps : PlanStore) : Prop :=
  ∀ id p, ps.table id = some p ∨ ps.cache id = some p → 0 ≤ p.totalAmount

theorem PlanStore.Sane.load {ps ps' : PlanStore} (h : ps.Sane) {id : Int}
    {loaded : Option SubscriptionPlan} (hget : ps.getSubscriptionPlanById id = (loaded, ps')) :
    ps'.Sane ∧ ∀ p, loaded = some p → 0 ≤ p.totalAmount := by
  obtain hno | ⟨plan, hc, hyes⟩ | ⟨plan, -, ht, hyes⟩ := ps.getSubscriptionPlanById_cases id
  · rw [hno] at hget
    obtain ⟨rfl, rfl⟩ := Prod.mk.inj hget
    exact ⟨h, fun p hp => by cases hp⟩
  · rw [hyes] at hget
    obtain ⟨rfl, rfl⟩ := Prod.mk.inj hget
    refine ⟨h, fun p hp => ?_⟩
    obtain rfl := Option.some.inj hp
    exact h id plan (.inr hc)
  rw [hyes] at hget
  obtain ⟨rfl, rfl⟩ := Prod.mk.inj hget
  have hplan : 0 ≤ plan.totalAmount := h id plan (.inl ht)
  refine ⟨fun id' p hp => ?_, fun p hp => ?_⟩
  · by_cases hid : id' = id
    · rcases hp with hp | hp
      · exact h id' p (.inl hp)
      · have hsame : plan = p := by simpa [hid] using hp
        exact hsame ▸ hplan
    · exact h id' p (by simpa [hid] using hp)
  · obtain rfl := Option.some.inj hp
    exact hplan

/-- `Q` holds of every row of the table, and the plans are sane. -/
structure TableOk (Q : SubRow → Prop) (db : Db) : Prop where
  rows : ∀ r ∈ db.rows, Q r
  plans : db.plans.Sane

theorem TableOk.save {Q : SubRow → Prop} {db : Db} (h : TableOk Q db) {row : SubRow}
    (hrow : Q row) : TableOk Q (db.save row) := by
  refine ⟨fun r hr => ?_, h.plans⟩
  rcases mem_save hr with rfl | hold
  · exact hrow
  · exact h.rows r hold

section Closed

variable {Q : SubRow → Prop} (hQ : RowClosed Q)
include hQ

variable (cal : Calendar)

theorem RowClosed.maybeReset {r : SubRow} (h : Q r) (plan : SubscriptionPlan)
    (now : Int) : Q (maybeResetWithPlan cal r plan now) := by
  obtain ⟨last, next, heq | heq⟩ := maybeResetWithPlan_cases cal r plan now
  · rw [heq]
    exact hQ.times r last next h
  · rw [heq]
    exact hQ.reset r last next h

theorem RowClosed.resetOne {db : Db} (h : TableOk Q db) (row : SubRow) :
    TableOk Q (resetOne cal db row) := by
  unfold Subscription.resetOne
  split
  · rename_i ps hget
    exact ⟨h.rows, (h.plans.load hget).1⟩
  rename_i plan ps hget
  have h' : TableOk Q { db with plans := ps } := ⟨h.rows, (h.plans.load hget).1⟩
  dsimp only
  split
  · exact h'
  · rename_i locked hf
    exact h'.save (hQ.maybeReset cal (h.rows locked (List.mem_of_find?_eq_some hf)) _ _)

theorem RowClosed.resetDue {db : Db} (h : TableOk Q db) (limit : Int) :
    TableOk Q (resetDueSubscriptions cal db limit) := by
  unfold resetDueSubscriptions
  generalize dueRows db limit = due
  induction due generalizing db with
  | nil => exact h
  | cons row due ih => exact ih (hQ.resetOne cal h row)

theorem RowClosed.chargeRows {amount : Int} (hamt : 0 < amount)
    (rid : String) (rows : List SubRow) {db : Db} (h : TableOk Q db)
    (hrows : ∀ r ∈ rows, Q r) : TableOk Q (chargeRows cal amount rid db rows).2 := by
  induction rows generalizing db with
  | nil => exact h
  | cons cand rest ih =>
    rw [Subscription.chargeRows]
    split
    · rename_i ps hget
      exact ⟨h.rows, (h.plans.load hget).1⟩
    rename_i plan ps hget
    have hreset : Q (maybeResetWithPlan cal cand plan db.now) :=
      hQ.maybeReset cal (hrows cand List.mem_cons_self) plan db.now
    have hload : TableOk Q { db with plans := ps } := ⟨h.rows, (h.plans.load hget).1⟩
    have hsaved := hload.save hreset
    dsimp only
    split
    · exact ih hsaved fun r hr => hrows r (List.mem_cons_of_mem _ hr)
    rename_i hroom
    have hcharged := hsaved.save (hQ.charge _ amount hreset hamt hroom)
    exact ⟨hcharged.rows, hcharged.plans⟩

theorem RowClosed.preConsume {db : Db} (h : TableOk Q db) (rid : String)
    (u amount : Int) : TableOk Q (preConsume cal db rid u amount).2 := by
  unfold Subscription.preConsume
  split
  · exact h
  split
  · exact h
  split
  · exact h
  split
  · split
    · exact h
    · split <;> exact h
  split
  · exact h
  have hcand : ∀ r ∈ candidates db u, Q r := by
    intro r hr
    have hmem := (List.perm_insertionSort _ _).mem_iff.1 hr
    exact h.rows r (List.mem_filter.1 hmem).1
  have hall := hQ.chargeRows cal (by omega : 0 < amount) rid (candidates db u) h hcand
  split
  · rename_i heq
    rw [heq] at hall
    exact ⟨h.rows, hall.plans⟩
  rename_i heq
  rw [heq] at hall
  exact hall

theorem RowClosed.postConsumeDelta {db : Db} (h : TableOk Q db) (id delta : Int) :
    TableOk Q (postConsumeDelta db id delta).2 := by
  unfold Subscription.postConsumeDelta
  split
  · exact h
  split
  · exact h
  split
  · exact h
  rename_i sub hf
  dsimp only
  split
  · exact h
  · rename_i hroom
    exact h.save (hQ.settle sub delta (h.rows sub (List.mem_of_find?_eq_some hf)) hroom)

theorem RowClosed.refundPreConsume {db : Db} (h : TableOk Q db) (rid : String) (lost : Bool) :
    TableOk Q (refundPreConsume db rid lost).2 := by
  unfold Subscription.refundPreConsume
  split
  · exact h
  split
  · exact h
  rename_i record _
  have hdelta := hQ.postConsumeDelta h record.userSubscriptionId (-record.preConsumed)
  split
  · exact h
  split
  · split
    · exact h
    · exact ⟨h.rows, h.plans⟩
  split
  · rename_i heq
    rw [heq] at hdelta
    exact hdelta
  rename_i heq
  rw [heq] at hdelta
  split
  · exact hdelta
  · exact ⟨hdelta.rows, hdelta.plans⟩

theorem RowClosed.purchase {db : Db} (h : TableOk Q db) (u planId : Int)
    (hrenew : ∀ plan row endTime, (db.plans.getSubscriptionPlanById planId).1 = some plan →
      activeRow db u plan.id = some row → calcPlanEndTime cal row.endTime plan = .ok endTime →
      plan.id ≠ 0 → 0 < u → Q row → Q (renewed row plan endTime)) :
    TableOk Q (purchase cal db u planId) := by
  unfold Subscription.purchase
  split
  · rename_i ps hget
    exact ⟨h.rows, (h.plans.load hget).1⟩
  rename_i plan ps hget
  obtain ⟨hps, hplan⟩ := h.plans.load hget
  have hnn := hplan plan rfl
  have h' : TableOk Q { db with plans := ps } := ⟨h.rows, hps⟩
  obtain ⟨e, he⟩ | ⟨row, endTime, hact, hmem, hid, hu, -, hend, hok⟩ |
      ⟨endTime, -, -, -, -, hok⟩ :=
    createUserSubscriptionFromPlanTx_cases cal { db with plans := ps } u plan
  · rw [he]
    exact h'
  · rw [hok]
    exact h'.save (hrenew plan row endTime (by rw [hget]) hact hend hid hu (h.rows row hmem))
  rw [hok]
  refine ⟨fun r hr => ?_, ?_⟩
  · have hr' : r ∈ db.rows ∨ r = freshRow cal { db with plans := ps } u plan endTime := by
      simpa [insertRow, apply_ite Db.rows] using hr
    rcases hr' with hold | rfl
    · exact h.rows r hold
    · exact hQ.fresh _ hnn rfl
  · simpa [insertRow, apply_ite Db.plans, Db.setGroup] using hps

end Closed

/-! ## The bounds -/

def RowSane (r : SubRow) : Prop := 0 ≤ r.amountTotal ∧ 0 ≤ r.amountUsed

def RowWithin (r : SubRow) : Prop :=
  0 < r.amountTotal → 0 ≤ r.amountUsed ∧ r.amountUsed ≤ r.amountTotal

theorem rowClosed_sane : RowClosed RowSane where
  times _ _ _ h := h
  reset r _ _ h := ⟨h.1, Int.le_refl 0⟩
  charge r amount h hpos _ := by
    obtain ⟨h1, h2⟩ := h
    exact ⟨h1, by dsimp only; omega⟩
  settle r delta h _ := ⟨h.1, Int.le_max_right _ _⟩
  fresh r h1 h2 := ⟨h1, by omega⟩

theorem rowClosed_sane_within : RowClosed fun r => RowSane r ∧ RowWithin r where
  times _ _ _ h := h
  reset r last next h := by
    refine ⟨rowClosed_sane.reset r last next h.1, fun hpos => ?_⟩
    dsimp only at hpos ⊢
    omega
  charge r amount h hpos hroom := by
    refine ⟨rowClosed_sane.charge r amount h.1 hpos hroom, fun htot => ?_⟩
    obtain ⟨⟨h1, h2⟩, -⟩ := h
    dsimp only at htot ⊢
    omega
  settle r delta h hroom := by
    refine ⟨rowClosed_sane.settle r delta h.1 hroom, fun htot => ?_⟩
    dsimp only at htot ⊢
    omega
  fresh r h1 h2 := by
    refine ⟨rowClosed_sane.fresh r h1 h2, fun htot => ?_⟩
    omega

/-- The renewal a purchase may come to does not put a limit below the usage of a
    row that has none. -/
def RenewalFits (cal : Calendar) (db : Db) : UsageAction → Prop
  | .purchase u planId => ∀ plan row endTime, plan.id ≠ 0 → 0 < u →
      (db.plans.getSubscriptionPlanById planId).1 = some plan →
      activeRow db u plan.id = some row → calcPlanEndTime cal row.endTime plan = .ok endTime →
      row.amountTotal = 0 → 0 < plan.totalAmount → row.amountUsed ≤ plan.totalAmount
  | _ => True

theorem rowSane_renewed {row : SubRow} (h : RowSane row) (plan : SubscriptionPlan)
    (endTime : Int) : RowSane (renewed row plan endTime) := by
  obtain ⟨h1, h2⟩ := h
  refine ⟨?_, h2⟩
  dsimp only [renewed]
  split <;> omega

theorem rowWithin_renewed_iff {row : SubRow} (hs : RowSane row) (hw : RowWithin row)
    (plan : SubscriptionPlan) (endTime : Int) : RowWithin (renewed row plan endTime) ↔
      (row.amountTotal = 0 → 0 < plan.totalAmount → row.amountUsed ≤ plan.totalAmount) := by
  obtain ⟨h1, h2⟩ := hs
  unfold RowWithin at hw ⊢
  dsimp only [renewed]
  by_cases hp : 0 < plan.totalAmount
  · rw [if_pos hp]
    omega
  · rw [if_neg hp]
    omega

theorem PlanStore.Sane.evict {ps : PlanStore} (h : ps.Sane) (id : Int) : (ps.evict id).Sane := by
  intro id' p hp
  rcases hp with hp | hp
  · exact h id' p (.inl hp)
  by_cases hid : id' = id
  · simp [PlanStore.evict, hid] at hp
  · exact h id' p (.inr (by simpa [PlanStore.evict, hid] using hp))

theorem PlanStore.Sane.write {ps : PlanStore} (h : ps.Sane) (id : Int)
    {plan : SubscriptionPlan} (hplan : 0 ≤ plan.totalAmount) :
    PlanStore.Sane { ps with table := Function.update ps.table id (some { plan with id }) } := by
  intro id' p hp
  by_cases hid : id' = id
  · rcases hp with hp | hp
    · have hsame : { plan with id } = p := by simpa [hid] using hp
      rw [← hsame]
      exact hplan
    · exact h id' p (.inr hp)
  · exact h id' p (by simpa [hid] using hp)

/-- **One step.**  What charging and resetting keep of the rows, every operation
    keeps, given that a renewal does. -/
theorem RowClosed.usageStep {Q : SubRow → Prop} (hQ : RowClosed Q) (cal : Calendar) {db : Db}
    (h : TableOk Q db) (a : UsageAction)
    (hrenew : ∀ u planId, a = .purchase u planId → ∀ plan row endTime, plan.id ≠ 0 → 0 < u →
      (db.plans.getSubscriptionPlanById planId).1 = some plan →
      activeRow db u plan.id = some row → calcPlanEndTime cal row.endTime plan = .ok endTime →
      Q row → Q (renewed row plan endTime)) : TableOk Q (usageStep cal db a) := by
  cases a with
  | tick d => exact ⟨h.rows, h.plans⟩
  | createPlan groupExists id plan =>
    simp only [Subscription.usageStep]
    split
    · exact h
    rename_i p hv
    refine ⟨h.rows, ?_⟩
    have hp : 0 ≤ p.totalAmount := totalAmount_nonneg_of_validate hv
    unfold PlanStore.create
    split
    · exact h.plans
    · exact (h.plans.write id hp).evict id
  | updatePlan groupExists id plan =>
    simp only [Subscription.usageStep]
    split
    · exact h
    rename_i p hv
    refine ⟨h.rows, ?_⟩
    have hp : 0 ≤ p.totalAmount := totalAmount_nonneg_of_validate hv
    unfold PlanStore.update
    split
    · exact h.plans.evict id
    · exact (h.plans.write id hp).evict id
  | evictPlan id => exact ⟨h.rows, h.plans.evict id⟩
  | purchase u planId =>
    refine hQ.purchase cal h u planId fun plan row endTime hget hact hend hid hu hrow => ?_
    exact hrenew u planId rfl plan row endTime hid hu hget hact hend hrow
  | preConsume rid u amount => exact hQ.preConsume cal h rid u amount
  | refund rid lost => exact hQ.refundPreConsume h rid lost
  | settle id delta => exact hQ.postConsumeDelta h id delta
  | resetOne row => exact hQ.resetOne cal h row
  | resetDue limit => exact hQ.resetDue cal h limit

theorem renewed_mem_purchase {cal : Calendar} {db : Db} {u planId : Int}
    {plan : SubscriptionPlan} {row : SubRow} {endTime : Int} (hid : plan.id ≠ 0) (hu : 0 < u)
    (hget : (db.plans.getSubscriptionPlanById planId).1 = some plan)
    (hact : activeRow db u plan.id = some row)
    (hend : calcPlanEndTime cal row.endTime plan = .ok endTime) :
    renewed row plan endTime ∈ (purchase cal db u planId).rows ∧ row ∈ db.rows := by
  have hmem := List.mem_filter.1 (pick_mem hact)
  have hlive : db.now < row.endTime := by
    have hr : row.userId = u ∧ row.planId = plan.id ∧ row.Live db.now := by
      simpa using hmem.2
    exact hr.2.2.2
  refine ⟨?_, hmem.1⟩
  have hpair : db.plans.getSubscriptionPlanById planId =
      (some plan, (db.plans.getSubscriptionPlanById planId).2) := by
    rw [← hget]
  unfold purchase
  rw [hpair]
  have hact' : activeRow { db with plans := (db.plans.getSubscriptionPlanById planId).2 } u
      plan.id = some row := hact
  simp only [createUserSubscriptionFromPlanTx, if_neg hid, if_neg (by omega : ¬ u ≤ 0), hact',
    if_neg (by omega : ¬ row.endTime < db.now), hend]
  refine List.mem_map.2 ⟨row, hmem.1, ?_⟩
  exact if_pos rfl

theorem tableOk_step_iff {cal : Calendar} {db : Db}
    (h : TableOk (fun r => RowSane r ∧ RowWithin r) db) (a : UsageAction) :
    TableOk (fun r => RowSane r ∧ RowWithin r) (usageStep cal db a) ↔ RenewalFits cal db a := by
  constructor
  · intro h'
    cases a with
    | purchase u planId =>
      intro plan row endTime hid hu hget hact hend
      obtain ⟨hnew, hold⟩ := renewed_mem_purchase hid hu hget hact hend
      obtain ⟨hs, hw⟩ := h.rows row hold
      exact (rowWithin_renewed_iff hs hw plan endTime).1 (h'.rows _ hnew).2
    | _ => trivial
  intro hfits
  refine rowClosed_sane_within.usageStep cal h a ?_
  rintro u planId rfl plan row endTime hid hu hget hact hend ⟨hs, hw⟩
  refine ⟨rowSane_renewed hs plan endTime, ?_⟩
  rw [rowWithin_renewed_iff hs hw]
  exact hfits plan row endTime hid hu hget hact hend

theorem tableOk_sane_run (cal : Calendar) (t : Int) (as : List UsageAction) :
    TableOk RowSane (run (usageStep cal) (Db.empty t) as) := by
  refine run_invariant_all (TableOk RowSane) (fun db a h => ?_) as ?_
  · refine rowClosed_sane.usageStep cal h a ?_
    intro u planId _ plan row endTime _ _ _ _ _ hrow
    exact rowSane_renewed hrow plan endTime
  refine ⟨fun r hr => ?_, fun id p hp => ?_⟩
  · cases hr
  rcases hp with hp | hp
  · cases hp
  · cases hp

/-- **Usage bounds over every run.**  Through any sequence of plan edits,
    purchases, charges, refunds, settlements and resets, every limited row has
    a usage between zero and its limit in every state passed if and only if no
    renewal puts a limit below the usage of a row that had none. -/
theorem usage_within_iff (cal : Calendar) (t : Int) (as : List UsageAction) :
    (∀ n, ∀ r ∈ (run (usageStep cal) (Db.empty t) (as.take n)).rows, RowWithin r) ↔
      Meets (RenewalFits cal) (usageStep cal) (Db.empty t) as := by
  have hstart : TableOk (fun r => RowSane r ∧ RowWithin r) (Db.empty t) := by
    refine ⟨fun r hr => ?_, (tableOk_sane_run cal t []).plans⟩
    cases hr
  rw [← forall_take_iff_meets (TableOk fun r => RowSane r ∧ RowWithin r)
    (fun db a h => tableOk_step_iff h a) hstart as]
  constructor
  · intro h n
    have hsane := tableOk_sane_run cal t (as.take n)
    exact ⟨fun r hr => ⟨hsane.rows r hr, h n r hr⟩, hsane.plans⟩
  · intro h n r hr
    exact ((h n).rows r hr).2

def unlimitedPlan : SubscriptionPlan := { id := 1, customSeconds := 1000 }

/-- A user charges 100 to an unlimited subscription, the plan is given a total
    of 50, and the user renews. -/
def limitedAfterUse : List UsageAction :=
  [.createPlan (fun _ => true) 1 unlimitedPlan, .purchase 7 1, .preConsume "req" 7 100,
   .updatePlan (fun _ => true) 1 { unlimitedPlan with totalAmount := 50 }, .purchase 7 1]

/-- The renewed row has used 100 of 50. -/
theorem limitedAfterUse_over_limit :
    (run (usageStep flatCalendar) (Db.empty 10) limitedAfterUse).rows.map
      (fun r => (r.amountUsed, r.amountTotal)) = [(100, 50)] ∧
    ¬ ∀ r ∈ (run (usageStep flatCalendar) (Db.empty 10) limitedAfterUse).rows,
        RowWithin r := by
  have hrows : (run (usageStep flatCalendar) (Db.empty 10) limitedAfterUse).rows.map
      (fun r => (r.amountUsed, r.amountTotal)) = [(100, 50)] := by decide +kernel
  refine ⟨hrows, fun h => ?_⟩
  obtain ⟨r, hr, hpair⟩ := List.mem_map.1 (hrows ▸ List.mem_singleton_self ((100 : Int), (50 : Int)))
  obtain ⟨hu, ht⟩ := Prod.mk.inj hpair
  have hle := (h r hr (by omega)).2
  omega

end NewApi.Subscription
