/-
  NewApi.Subscription.Table

  The `user_subscriptions` table with the columns that purchase, charging,
  expiry and quota reset read, and the transactions of `model/subscription.go`
  on it:

    * `createUserSubscriptionFromPlanTx` — renews the active row of the plan or
      inserts a new one and upgrades the user's group;
    * `preConsumeUserSubscription`, `refundSubscriptionPreConsume`,
      `postConsumeUserSubscriptionDelta` — the charges, on full rows;
    * `resetDueSubscriptions` — the periodic quota reset;
    * `expireDueSubscriptions`, `adminInvalidateUserSubscription`,
      `adminDeleteUserSubscription` — the three ways a row ends.

  Each of them is one transaction on locked rows and one step here.  Amounts
  are integers: the columns are 64-bit and a sum past that is refused by the
  database.
-/

import NewApi.Subscription.Plan
import NewApi.Subscription.Refund
import Mathlib.Data.List.Sort

namespace NewApi.Subscription

/-! ## Rows -/

inductive SubStatus where
  | active
  | expired
  | cancelled
deriving DecidableEq

/-- `UserSubscription` -/
structure SubRow where
  id : Int
  userId : Int
  planId : Int
  amountTotal : Int := 0
  amountUsed : Int := 0
  startTime : Int := 0
  endTime : Int := 0
  status : SubStatus := .active
  lastResetTime : Int := 0
  nextResetTime : Int := 0
  upgradeGroup : String := ""
  prevUserGroup : String := ""
  downgradeGroup : String := ""

namespace SubRow

/-- `status = 'active' AND end_time > now` -/
def Live (r : SubRow) (now : Int) : Prop := r.status = .active ∧ now < r.endTime

instance (r : SubRow) (now : Int) : Decidable (r.Live now) := inferInstanceAs (Decidable (_ ∧ _))

end SubRow

/-- The row an `ORDER BY … LIMIT 1` returns: the first one no other row comes
    before. -/
def pick (before : SubRow → SubRow → Bool) : List SubRow → Option SubRow
  | [] => none
  | r :: rs =>
    match pick before rs with
    | none => some r
    | some s => if before s r then some s else some r

/-- The database of the subscription code. -/
structure Db where
  rows : List SubRow
  nextId : Int
  records : String → Option PreConsumeRecord
  /-- `users.group` -/
  groups : Int → String
  plans : PlanStore
  now : Int

namespace Db

/-- `tx.Save(sub)` -/
def save (db : Db) (row : SubRow) : Db :=
  { db with rows := db.rows.map fun r => if r.id = row.id then row else r }

def find (db : Db) (id : Int) : Option SubRow := db.rows.find? fun r => r.id = id

def setGroup (db : Db) (userId : Int) (g : String) : Db :=
  { db with groups := Function.update db.groups userId g }

@[simp] theorem save_now (db : Db) (row : SubRow) : (db.save row).now = db.now := rfl
@[simp] theorem save_groups (db : Db) (row : SubRow) : (db.save row).groups = db.groups := rfl
@[simp] theorem save_plans (db : Db) (row : SubRow) : (db.save row).plans = db.plans := rfl
@[simp] theorem save_records (db : Db) (row : SubRow) : (db.save row).records = db.records := rfl
@[simp] theorem setGroup_rows (db : Db) (u : Int) (g : String) :
    (db.setGroup u g).rows = db.rows := rfl
@[simp] theorem setGroup_now (db : Db) (u : Int) (g : String) : (db.setGroup u g).now = db.now :=
  rfl
@[simp] theorem setGroup_groups_self (db : Db) (u : Int) (g : String) :
    (db.setGroup u g).groups u = g := by
  simp [setGroup]

def setRecord (db : Db) (requestId : String) (r : PreConsumeRecord) : Db :=
  { db with records := Function.update db.records requestId (some r) }

@[simp] theorem setRecord_rows (db : Db) (rid : String) (r : PreConsumeRecord) :
    (db.setRecord rid r).rows = db.rows := rfl
@[simp] theorem setRecord_plans (db : Db) (rid : String) (r : PreConsumeRecord) :
    (db.setRecord rid r).plans = db.plans := rfl

def empty (now : Int) : Db where
  rows := []
  nextId := 1
  records := fun _ => none
  groups := fun _ => "default"
  plans := ⟨fun _ => none, fun _ => none, fun _ => none⟩
  now := now

end Db

variable {db : Db} {row r : SubRow}

theorem mem_save_cases (h : r ∈ (db.save row).rows) : r = row ∨ (r ∈ db.rows ∧ r.id ≠ row.id) := by
  obtain ⟨s, hs, rfl⟩ := List.mem_map.1 h
  by_cases hid : s.id = row.id
  · simp [hid]
  · simp [hid, hs]

theorem mem_save (h : r ∈ (db.save row).rows) : r = row ∨ r ∈ db.rows :=
  (mem_save_cases h).imp_right And.left

theorem mem_save_of_ne (h : r ∈ db.rows) (hid : r.id ≠ row.id) : r ∈ (db.save row).rows :=
  List.mem_map.2 ⟨r, h, if_neg hid⟩

theorem mem_save_self (h : r ∈ db.rows) (hid : r.id = row.id) : row ∈ (db.save row).rows :=
  List.mem_map.2 ⟨r, h, if_pos hid⟩

theorem find_some {id : Int} {s : SubRow} (h : db.find id = some s) : s ∈ db.rows ∧ s.id = id :=
  ⟨List.mem_of_find?_eq_some h, by simpa using List.find?_some h⟩

theorem pick_mem {before : SubRow → SubRow → Bool} {rs : List SubRow}
    (h : pick before rs = some r) : r ∈ rs := by
  induction rs generalizing r with
  | nil => cases h
  | cons s rs ih =>
    rw [pick] at h
    cases hp : pick before rs with
    | none =>
      rw [hp] at h
      injection h with h
      rw [← h]
      exact List.mem_cons_self
    | some t =>
      rw [hp] at h
      simp only at h
      split at h
      · injection h with h
        exact List.mem_cons_of_mem _ (h ▸ ih hp)
      injection h with h
      rw [← h]
      exact List.mem_cons_self

theorem pick_eq_none {before : SubRow → SubRow → Bool} {rs : List SubRow}
    (h : pick before rs = none) : rs = [] := by
  cases rs with
  | nil => rfl
  | cons s rs =>
    rw [pick] at h
    cases hp : pick before rs with
    | none => simp [hp] at h
    | some t =>
      rw [hp] at h
      simp only at h
      split at h
      · cases h
      · cases h

/-! ## Purchase -/

/-- `ORDER BY end_time desc`, ties by primary key as `First` adds it. -/
def latestFirst (a b : SubRow) : Bool :=
  b.endTime < a.endTime || (a.endTime = b.endTime && a.id < b.id)

def activeRow (db : Db) (userId planId : Int) : Option SubRow :=
  pick latestFirst (db.rows.filter fun r =>
    r.userId = userId ∧ r.planId = planId ∧ r.Live db.now)

/-- How many rows count against `MaxPurchasePerUser`. -/
def purchases (db : Db) (userId planId : Int) : Nat :=
  (db.rows.filter fun r => r.userId = userId ∧ r.planId = planId).length

def renewed (row : SubRow) (plan : SubscriptionPlan) (endTime : Int) : SubRow :=
  { row with
    endTime
    amountTotal :=
      if 0 < plan.totalAmount then row.amountTotal + plan.totalAmount else row.amountTotal }

variable (cal : Calendar)

/-- The row of a first purchase. -/
def freshRow (db : Db) (userId : Int) (plan : SubscriptionPlan) (endUnix : Int) : SubRow :=
  let upgradeGroup := trimSpace plan.upgradeGroup
  let nextReset := calcNextResetTime cal db.now plan endUnix
  { id := db.nextId
    userId
    planId := plan.id
    amountTotal := plan.totalAmount
    amountUsed := 0
    startTime := db.now
    endTime := endUnix
    status := .active
    lastResetTime := if 0 < nextReset then db.now else 0
    nextResetTime := nextReset
    upgradeGroup
    prevUserGroup :=
      if upgradeGroup ≠ "" ∧ db.groups userId ≠ upgradeGroup then db.groups userId else ""
    downgradeGroup := trimSpace plan.downgradeGroup }

def insertRow (db : Db) (row : SubRow) : Db :=
  let db := if row.upgradeGroup ≠ "" then db.setGroup row.userId row.upgradeGroup else db
  { db with rows := db.rows ++ [row], nextId := db.nextId + 1 }

@[simp] theorem insertRow_rows (db : Db) (row : SubRow) :
    (insertRow db row).rows = db.rows ++ [row] := by
  unfold insertRow
  split <;> rfl

@[simp] theorem insertRow_now (db : Db) (row : SubRow) : (insertRow db row).now = db.now := by
  unfold insertRow
  split <;> rfl

@[simp] theorem insertRow_nextId (db : Db) (row : SubRow) :
    (insertRow db row).nextId = db.nextId + 1 := by
  unfold insertRow
  split <;> rfl

/-- `CreateUserSubscriptionFromPlanTx`, on the columns modelled here. -/
def createUserSubscriptionFromPlanTx (db : Db) (userId : Int)
    (plan : SubscriptionPlan) : Except GrantErr SubRow × Db :=
  if plan.id = 0 then (.error .invalidPlan, db)
  else if userId ≤ 0 then (.error .invalidUser, db)
  else match activeRow db userId plan.id with
  | some row =>
    match calcPlanEndTime cal (if row.endTime < db.now then db.now else row.endTime) plan with
    | .error e => (.error e, db)
    | .ok endTime => (.ok { row with endTime }, db.save (renewed row plan endTime))
  | none =>
    if 0 < plan.maxPurchasePerUser ∧ plan.maxPurchasePerUser ≤ purchases db userId plan.id then
      (.error .purchaseLimit, db)
    else
      match calcPlanEndTime cal db.now plan with
      | .error e => (.error e, db)
      | .ok endUnix =>
        let row := freshRow cal db userId plan endUnix
        (.ok row, insertRow db row)

/-- **A purchase, by outcome.**  It fails and changes nothing, it renews a live
    row of the plan, or it inserts a fresh one when there is none. -/
theorem createUserSubscriptionFromPlanTx_cases (db : Db) (u : Int) (plan : SubscriptionPlan) :
    (∃ e, createUserSubscriptionFromPlanTx cal db u plan = (.error e, db)) ∨
    (∃ row endTime, activeRow db u plan.id = some row ∧ row ∈ db.rows ∧ plan.id ≠ 0 ∧ 0 < u ∧
      (row.userId = u ∧ row.planId = plan.id ∧ row.Live db.now) ∧
      calcPlanEndTime cal row.endTime plan = .ok endTime ∧
      createUserSubscriptionFromPlanTx cal db u plan =
        (.ok { row with endTime }, db.save (renewed row plan endTime))) ∨
    (∃ endTime, activeRow db u plan.id = none ∧ 0 < u ∧ db.now < endTime ∧
      (0 < plan.maxPurchasePerUser → (purchases db u plan.id : Int) < plan.maxPurchasePerUser) ∧
      createUserSubscriptionFromPlanTx cal db u plan = (.ok (freshRow cal db u plan endTime),
          insertRow db (freshRow cal db u plan endTime))) := by
  by_cases hp : plan.id = 0
  · exact .inl ⟨.invalidPlan, by rw [createUserSubscriptionFromPlanTx, if_pos hp]⟩
  by_cases hu : u ≤ 0
  · exact .inl ⟨.invalidUser, by rw [createUserSubscriptionFromPlanTx, if_neg hp, if_pos hu]⟩
  cases hact : activeRow db u plan.id with
  | some row =>
    have hmem := List.mem_filter.1 (pick_mem hact)
    have hrow : row.userId = u ∧ row.planId = plan.id ∧ row.Live db.now := by
      simpa using hmem.2
    have hbase : ¬ row.endTime < db.now := by
      have hlive := hrow.2.2.2
      omega
    have hcode : createUserSubscriptionFromPlanTx cal db u plan =
        match calcPlanEndTime cal row.endTime plan with
        | .error e => (.error e, db)
        | .ok endTime => (.ok { row with endTime }, db.save (renewed row plan endTime)) := by
      simp only [createUserSubscriptionFromPlanTx, if_neg hp, if_neg hu, hact, if_neg hbase]
    rw [hcode]
    cases hend : calcPlanEndTime cal row.endTime plan with
    | error e => exact .inl ⟨e, rfl⟩
    | ok endTime =>
      exact .inr (.inl ⟨row, endTime, rfl, hmem.1, hp, by omega, hrow, hend, rfl⟩)
  | none =>
    by_cases hlim : 0 < plan.maxPurchasePerUser ∧
        plan.maxPurchasePerUser ≤ purchases db u plan.id
    · refine .inl ⟨.purchaseLimit, ?_⟩
      simp only [createUserSubscriptionFromPlanTx, if_neg hp, if_neg hu, hact, if_pos hlim]
    have hcode : createUserSubscriptionFromPlanTx cal db u plan =
        match calcPlanEndTime cal db.now plan with
        | .error e => (.error e, db)
        | .ok endUnix => (.ok (freshRow cal db u plan endUnix),
            insertRow db (freshRow cal db u plan endUnix)) := by
      simp only [createUserSubscriptionFromPlanTx, if_neg hp, if_neg hu, hact, if_neg hlim]
    rw [hcode]
    cases hend : calcPlanEndTime cal db.now plan with
    | error e => exact .inl ⟨e, rfl⟩
    | ok endTime =>
      refine .inr (.inr ⟨endTime, rfl, by omega, lt_calcPlanEndTime hend, ?_, rfl⟩)
      intro hpos
      by_contra hle
      exact hlim ⟨hpos, by omega⟩

/-! ## Quota resets -/

def resetBase (sub : SubRow) : Int :=
  if sub.lastResetTime ≤ 0 then sub.startTime else sub.lastResetTime

/-- `maybeResetUserSubscriptionWithPlanTx` -/
def maybeResetWithPlan (sub : SubRow) (plan : SubscriptionPlan) (now : Int) : SubRow :=
  if 0 < sub.nextResetTime ∧ now < sub.nextResetTime then sub
  else if plan.quotaResetPeriod = .never then sub
  else
    let base := resetBase sub
    let next := calcNextResetTime cal base plan sub.endTime
    if ¬ (0 < next ∧ next ≤ now) then
      if sub.nextResetTime = 0 ∧ 0 < next then
        { sub with nextResetTime := next, lastResetTime := base }
      else sub
    else
      let caught := catchUp cal plan sub.endTime now ((now - base).toNat + 1) base next
      { sub with
        amountUsed := 0
        lastResetTime := caught.1
        nextResetTime := caught.2 }

theorem maybeResetWithPlan_cases (sub : SubRow) (plan : SubscriptionPlan) (now : Int) :
    ∃ last next, maybeResetWithPlan cal sub plan now =
        { sub with lastResetTime := last, nextResetTime := next } ∨
      maybeResetWithPlan cal sub plan now =
        { sub with amountUsed := 0, lastResetTime := last, nextResetTime := next } := by
  unfold maybeResetWithPlan
  split
  · exact ⟨sub.lastResetTime, sub.nextResetTime, .inl rfl⟩
  split
  · exact ⟨sub.lastResetTime, sub.nextResetTime, .inl rfl⟩
  dsimp only
  split
  · split
    · exact ⟨_, _, .inl rfl⟩
    · exact ⟨sub.lastResetTime, sub.nextResetTime, .inl rfl⟩
  · exact ⟨_, _, .inr rfl⟩

/-- One round of the loop in `ResetDueSubscriptions`: the plan is loaded, the
    row read again under its lock, reset and saved.  A plan that is not found
    skips the row. -/
def resetOne (db : Db) (row : SubRow) : Db :=
  match db.plans.getSubscriptionPlanById row.planId with
  | (none, ps) => { db with plans := ps }
  | (some plan, ps) =>
    let db := { db with plans := ps }
    match db.rows.find? fun r =>
        r.id = row.id ∧ 0 < r.nextResetTime ∧ r.nextResetTime ≤ db.now with
    | none => db
    | some locked => db.save (maybeResetWithPlan cal locked plan db.now)

/-- `ORDER BY next_reset_time asc` -/
def dueRows (db : Db) (limit : Int) : List SubRow :=
  ((db.rows.filter fun r =>
      0 < r.nextResetTime ∧ r.nextResetTime ≤ db.now ∧ r.status = .active).insertionSort
    fun a b => a.nextResetTime ≤ b.nextResetTime).take
      (if limit ≤ 0 then 200 else limit.toNat)

def resetDueSubscriptions (db : Db) (limit : Int) : Db :=
  (dueRows db limit).foldl (resetOne cal) db

/-! ## Charges -/

/-- The result of a charge on a full row. -/
structure ChargeResult where
  userSubscriptionId : Int
  preConsumed : Int
  amountTotal : Int
  amountUsedBefore : Int
  amountUsedAfter : Int
deriving DecidableEq

/-- `ORDER BY end_time asc, id asc` over the user's live rows. -/
def candidates (db : Db) (userId : Int) : List SubRow :=
  (db.rows.filter fun r => r.userId = userId ∧ r.Live db.now).insertionSort fun a b =>
    a.endTime < b.endTime ∨ (a.endTime = b.endTime ∧ a.id ≤ b.id)

/-- The candidate loop of `PreConsumeUserSubscription`: load the plan, reset
    what is due, skip a row without room, charge the first one that has it. -/
def chargeRows (cal : Calendar) (amount : Int) (requestId : String) :
    Db → List SubRow → Except Err ChargeResult × Db
  | db, [] => (.error (.subscriptionInsufficient amount), db)
  | db, candidate :: rest =>
    match db.plans.getSubscriptionPlanById candidate.planId with
    | (none, ps) => (.error .recordNotFound, { db with plans := ps })
    | (some plan, ps) =>
      let sub := maybeResetWithPlan cal candidate plan db.now
      let db := { db with plans := ps }.save sub
      if 0 < sub.amountTotal ∧ sub.amountTotal - sub.amountUsed < amount then
        chargeRows cal amount requestId db rest
      else
        let charged := { sub with amountUsed := sub.amountUsed + amount }
        let db := db.save charged
        (.ok { userSubscriptionId := sub.id, preConsumed := amount,
               amountTotal := sub.amountTotal, amountUsedBefore := sub.amountUsed,
               amountUsedAfter := charged.amountUsed },
          db.setRecord requestId
            { userSubscriptionId := sub.id, preConsumed := amount, status := .consumed })

/-- `PreConsumeUserSubscription` on the table.  An error rolls the tables back;
    plans that were read stay cached. -/
def preConsume (db : Db) (requestId : String) (userId amount : Int) :
    Except Err ChargeResult × Db :=
  if userId ≤ 0 then (.error .invalidId, db)
  else if blank requestId then (.error .emptyRequestId, db)
  else if amount ≤ 0 then (.error .amountNotPositive, db)
  else match db.records requestId with
  | some existing =>
    match existing.status with
    | .refunded => (.error .alreadyRefunded, db)
    | .consumed =>
      match db.find existing.userSubscriptionId with
      | none => (.error .recordNotFound, db)
      | some sub =>
        (.ok { userSubscriptionId := sub.id, preConsumed := existing.preConsumed,
               amountTotal := sub.amountTotal, amountUsedBefore := sub.amountUsed,
               amountUsedAfter := sub.amountUsed }, db)
  | none =>
    match candidates db userId with
    | [] => (.error .noActiveSubscription, db)
    | rows =>
      match chargeRows cal amount requestId db rows with
      | (.error e, db') => (.error e, { db with plans := db'.plans })
      | (.ok res, db') => (.ok res, db')

/-- `PostConsumeUserSubscriptionDelta` on the table. -/
def postConsumeDelta (db : Db) (id delta : Int) : Except Err Unit × Db :=
  if id ≤ 0 then (.error .invalidId, db)
  else if delta = 0 then (.ok (), db)
  else match db.find id with
  | none => (.error .recordNotFound, db)
  | some sub =>
    let newUsed := max (sub.amountUsed + delta) 0
    if 0 < sub.amountTotal ∧ sub.amountTotal < newUsed then
      (.error (.usedExceedsTotal newUsed sub.amountTotal), db)
    else (.ok (), db.save { sub with amountUsed := newUsed })

/-- `RefundSubscriptionPreConsume` on the table.  `recordLost` says that the
    record could not be saved after the decrement was committed. -/
def refundPreConsume (db : Db) (requestId : String) (recordLost : Bool) : Except Err Unit × Db :=
  if blank requestId then (.error .emptyRequestId, db)
  else match db.records requestId with
  | none => (.error .recordNotFound, db)
  | some record =>
    let refunded := { record with status := .refunded }
    match record.status with
    | .refunded => (.ok (), db)
    | .consumed =>
      if record.preConsumed ≤ 0 then
        if recordLost then (.error .database, db)
        else (.ok (), db.setRecord requestId refunded)
      else
        match postConsumeDelta db record.userSubscriptionId (-record.preConsumed) with
        | (.error e, db') => (.error e, db')
        | (.ok (), db') =>
          if recordLost then (.error .database, db')
          else (.ok (), db'.setRecord requestId refunded)

/-! ## How a row ends -/

/-- The group a user falls back to when `sub` ends and no other row holds it:
    the explicit target, or the group before the purchase if the user still has
    the one the row gave.  `""` stands for no change. -/
def fallback (sub : SubRow) (currentGroup : String) : String :=
  if trimSpace sub.downgradeGroup ≠ "" then trimSpace sub.downgradeGroup
  else if currentGroup ≠ trimSpace sub.upgradeGroup then ""
  else trimSpace sub.prevUserGroup

def moveTo (db : Db) (userId : Int) (target : String) : Db :=
  if target = "" ∨ target = db.groups userId then db else db.setGroup userId target

/-- `downgradeUserGroupForSubscriptionTx` -/
def downgradeUserGroup (db : Db) (sub : SubRow) : Db :=
  if trimSpace sub.downgradeGroup = "" ∧ trimSpace sub.upgradeGroup = "" then db
  -- another active upgraded subscription keeps the current group
  else if ∃ r ∈ db.rows, r.userId = sub.userId ∧ r.Live db.now ∧ r.id ≠ sub.id ∧
      r.upgradeGroup ≠ "" then db
  else moveTo db sub.userId (fallback sub (db.groups sub.userId))

def adminInvalidateUserSubscription (db : Db) (id : Int) : Db :=
  if id ≤ 0 then db
  else match db.find id with
  | none => db
  | some sub =>
    downgradeUserGroup (db.save { sub with status := .cancelled, endTime := db.now }) sub

def adminDeleteUserSubscription (db : Db) (id : Int) : Db :=
  if id ≤ 0 then db
  else match db.find id with
  | none => db
  | some sub =>
    let db := downgradeUserGroup db sub
    { db with rows := db.rows.filter fun r => r.id ≠ id }

/-- `ORDER BY end_time desc, id desc` -/
def lastFirst (a b : SubRow) : Bool :=
  b.endTime < a.endTime || (a.endTime = b.endTime && b.id < a.id)

/-- The transaction `ExpireDueSubscriptions` runs for one user. -/
def expireUser (db : Db) (userId : Int) : Db :=
  let db := { db with rows := db.rows.map fun r =>
    if r.userId = userId ∧ r.status = .active ∧ 0 < r.endTime ∧ r.endTime ≤ db.now then
      { r with status := .expired } else r }
  if ∃ r ∈ db.rows, r.userId = userId ∧ r.Live db.now ∧ r.upgradeGroup ≠ "" then db
  else match pick lastFirst (db.rows.filter fun r =>
      r.userId = userId ∧ r.status = .expired ∧
        (r.downgradeGroup ≠ "" ∨ r.upgradeGroup ≠ "")) with
  | none => db
  | some lastExpired =>
    if trimSpace lastExpired.downgradeGroup = "" ∧
        (trimSpace lastExpired.upgradeGroup = "" ∨ trimSpace lastExpired.prevUserGroup = "")
    then db
    else moveTo db userId (fallback lastExpired (db.groups userId))

/-- The users `ExpireDueSubscriptions` finds, each once. -/
def expiringUsers (db : Db) (limit : Int) : List Int :=
  ((((db.rows.filter fun r => r.status = .active ∧ 0 < r.endTime ∧ r.endTime ≤ db.now).insertionSort
    fun a b => a.endTime < b.endTime ∨ (a.endTime = b.endTime ∧ a.id ≤ b.id)).take
      (if limit ≤ 0 then 200 else limit.toNat)).map SubRow.userId).filter (0 < ·) |>.dedup

def expireDueSubscriptions (db : Db) (limit : Int) : Db :=
  (expiringUsers db limit).foldl expireUser db

/-! ## Keys -/

/-- Primary keys are given out once. -/
structure Ids (db : Db) : Prop where
  lt : ∀ r ∈ db.rows, r.id < db.nextId
  nodup : (db.rows.map SubRow.id).Nodup

section
variable (h : Ids db)
include h

theorem Ids.eq {s : SubRow} (hr : r ∈ db.rows) (hs : s ∈ db.rows) (hid : r.id = s.id) : r = s :=
  List.inj_on_of_nodup_map h.nodup hr hs hid

theorem Ids.map (f : SubRow → SubRow) (hf : ∀ r, (f r).id = r.id) :
    Ids { db with rows := db.rows.map f } := by
  constructor
  · intro r hr
    obtain ⟨s, hs, rfl⟩ := List.mem_map.1 hr
    rw [hf s]
    exact h.lt s hs
  have hids : SubRow.id ∘ f = SubRow.id := funext hf
  rw [List.map_map, hids]
  exact h.nodup

theorem Ids.save (row : SubRow) : Ids (db.save row) := by
  refine h.map _ fun r => ?_
  by_cases hid : r.id = row.id
  · rw [if_pos hid, hid]
  · rw [if_neg hid]

theorem Ids.filter (p : SubRow → Bool) : Ids { db with rows := db.rows.filter p } where
  lt r hr := h.lt r (List.mem_of_mem_filter hr)
  nodup := h.nodup.sublist (List.filter_sublist.map _)

theorem Ids.insert (hid : row.id = db.nextId) :
    Ids { db with rows := db.rows ++ [row], nextId := db.nextId + 1 } := by
  constructor
  · intro r hr
    rcases List.mem_append.1 hr with hold | hnew
    · have := h.lt r hold
      show r.id < db.nextId + 1
      omega
    · rw [List.mem_singleton.1 hnew, hid]
      exact Int.lt_add_one_of_le le_rfl
  rw [List.map_append, List.nodup_append]
  refine ⟨h.nodup, List.nodup_singleton _, ?_⟩
  intro a ha b hb hab
  obtain ⟨r, hr, rfl⟩ := List.mem_map.1 ha
  have hb' : b = row.id := List.mem_singleton.1 hb
  have := h.lt r hr
  omega

theorem Ids.congr {db' : Db} (hrows : db'.rows = db.rows) (hnext : db'.nextId = db.nextId) : Ids db' := by
  constructor
  · rw [hrows, hnext]
    exact h.lt
  · rw [hrows]
    exact h.nodup

theorem Ids.insertRow (hid : row.id = db.nextId) : Ids (insertRow db row) :=
  (h.insert hid).congr (insertRow_rows db row) (insertRow_nextId db row)

end

def SubRow.cancelledAt (r : SubRow) (now : Int) : SubRow :=
  { r with status := .cancelled, endTime := now }

end NewApi.Subscription
