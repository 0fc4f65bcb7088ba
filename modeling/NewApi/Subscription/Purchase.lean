/-
  NewApi.Subscription.Purchase

  The four transactions that create a subscription, side by side:
  `CompleteSubscriptionOrder`, `AdminBindSubscription`,
  `PurchaseSubscriptionWithBalance` and `Redeem`.

  All of them end in `CreateUserSubscriptionFromPlanTx`: look for an active row
  of the plan, renew it if there is one, else count the rows and insert a new
  one.  Look-up, count and insert are separate statements.  Three of the four
  lock the user's row before the look-up, which makes them take turns; `Redeem`
  does not.  With a plan that upgrades the group it locks the user's row too,
  but after the count.

  Every transaction is a worker.  A read sees what is committed; writes are seen
  by others at the commit, with which the last statement is one step.  A
  statement that needs a locked row waits.  The locks on the order and on the
  code are left out: they only keep two completions of one order, or two
  redemptions of one code, apart.
-/

import NewApi.Lib.Workers
import NewApi.Subscription.Table

namespace NewApi.Subscription

open NewApi.Lib

/-! ## Transactions -/

inductive Entry where
  | completeSubscriptionOrder
  | adminBindSubscription
  | purchaseSubscriptionWithBalance
  | redeem
deriving DecidableEq

/-- The transaction locks the user's row before it looks for an active row. -/
def Entry.locksUser : Entry → Bool
  | .completeSubscriptionOrder => true
  | .adminBindSubscription => true
  | .purchaseSubscriptionWithBalance => true
  | .redeem => false

structure Purchase where
  entry : Entry
  userId : Int
  planId : Int

/-- The committed tables and the row locks. -/
structure Till where
  db : Db
  userLocks : Int → Option Nat := fun _ => none
  subLocks : Int → Option Nat := fun _ => none

inductive BuyErr where
  | grant (e : GrantErr)
  /-- any other early exit or failed statement -/
  | rolledBack

/-- How far a transaction has come.  `nowUnix` is the time it took before the
    look-up. -/
inductive BuyPhase where
  | idle
  | begun (p : Purchase)
  | locked (p : Purchase)
  /-- the look-up found an active row and locked it -/
  | found (p : Purchase) (row : SubRow) (nowUnix : Int)
  /-- the look-up found none -/
  | absent (p : Purchase) (nowUnix : Int)
  /-- the count is below the limit -/
  | counted (p : Purchase) (nowUnix : Int)
  | done (r : Except BuyErr SubRow)

namespace BuyPhase

def ready : BuyPhase → Option Purchase
  | .begun p => if p.entry.locksUser then none else some p
  | .locked p => some p
  | _ => none

def window : BuyPhase → Option Purchase
  | .found p _ _ => some p
  | .absent p _ => some p
  | .counted p _ => some p
  | _ => none

end BuyPhase

inductive BuyAction where
  | call (p : Purchase)
  | lockUser
  | lookUp
  | count
  | commit
  | rollback
  | tick (d : Nat)
  /-- an administrator or the expiry ends a row -/
  | endRow (id : Int)

def Till.release (s : Till) (i : Nat) : Till :=
  { s with
    userLocks := fun u => if s.userLocks u = some i then none else s.userLocks u
    subLocks := fun id => if s.subLocks id = some i then none else s.subLocks id }

def finish (s : Till) (i : Nat) (r : Except BuyErr SubRow) : Till × BuyPhase :=
  (s.release i, .done r)

def planFor (plans : Int → SubscriptionPlan) (id : Int) : SubscriptionPlan := { plans id with id }

def userTaken (s : Till) (i : Nat) (u : Int) : Prop :=
  s.userLocks u ≠ none ∧ s.userLocks u ≠ some i

instance (s : Till) (i : Nat) (u : Int) : Decidable (userTaken s i u) :=
  inferInstanceAs (Decidable (_ ∧ _))

/-- The look-up of `CreateUserSubscriptionFromPlanTx`, `FOR UPDATE`. -/
def lookUp (plans : Int → SubscriptionPlan) (i : Nat) (s : Till) (phase : BuyPhase)
    (p : Purchase) : Till × BuyPhase :=
  if (planFor plans p.planId).id = 0 then finish s i (.error (.grant .invalidPlan))
  else if p.userId ≤ 0 then finish s i (.error (.grant .invalidUser))
  else match activeRow s.db p.userId p.planId with
  | none => (s, .absent p s.db.now)
  | some row =>
    if s.subLocks row.id = none then
      ({ s with subLocks := Function.update s.subLocks row.id (some i) },
        .found p row s.db.now)
    else (s, phase)

variable (cal : Calendar)

/-- The renewal of the row that was found. -/
def commitRenewal (plan : SubscriptionPlan) (i : Nat) (s : Till) (row : SubRow)
    (nowUnix : Int) : Till × BuyPhase :=
  match calcPlanEndTime cal (if row.endTime < nowUnix then nowUnix else row.endTime) plan with
  | .error e => finish s i (.error (.grant e))
  | .ok endTime =>
    finish { s with db := s.db.save (renewed row plan endTime) } i (.ok { row with endTime })

/-- The insert, with the group update before it. -/
def commitInsert (plan : SubscriptionPlan) (i : Nat) (s : Till)
    (phase : BuyPhase) (p : Purchase) (nowUnix : Int) : Till × BuyPhase :=
  match calcPlanEndTime cal nowUnix plan with
  | .error e => finish s i (.error (.grant e))
  | .ok endUnix =>
    if trimSpace plan.upgradeGroup ≠ "" ∧ userTaken s i p.userId then (s, phase)
    else
      let row := freshRow cal { s.db with now := nowUnix } p.userId plan endUnix
      finish { s with db := insertRow s.db row } i (.ok row)

/-- One step of transaction `i`. -/
def buyStep (plans : Int → SubscriptionPlan) (i : Nat) (s : Till)
    (phase : BuyPhase) : BuyAction → Till × BuyPhase
  | .call p =>
    match phase with
    | .idle => (s, .begun p)
    | _ => (s, phase)
  | .lockUser =>
    match phase with
    | .begun p =>
      if p.entry.locksUser ∧ s.userLocks p.userId = none then
        ({ s with userLocks := Function.update s.userLocks p.userId (some i) }, .locked p)
      else (s, phase)
    | _ => (s, phase)
  | .lookUp =>
    match phase.ready with
    | some p => lookUp plans i s phase p
    | none => (s, phase)
  | .count =>
    match phase with
    | .absent p nowUnix =>
      let limit := (planFor plans p.planId).maxPurchasePerUser
      if 0 < limit ∧ limit ≤ purchases s.db p.userId p.planId then
        finish s i (.error (.grant .purchaseLimit))
      else (s, .counted p nowUnix)
    | _ => (s, phase)
  | .commit =>
    match phase with
    | .found p row nowUnix => commitRenewal cal (planFor plans p.planId) i s row nowUnix
    | .counted p nowUnix => commitInsert cal (planFor plans p.planId) i s phase p nowUnix
    | _ => (s, phase)
  | .rollback =>
    match phase with
    | .idle => (s, phase)
    | .done r => (s, .done r)
    | _ => finish s i (.error .rolledBack)
  | .tick d => ({ s with db := { s.db with now := s.db.now + d } }, phase)
  | .endRow id =>
    match s.db.find id with
    | none => (s, phase)
    | some sub =>
      if s.subLocks id = none then
        ({ s with db := s.db.save (sub.cancelledAt s.db.now) }, phase)
      else (s, phase)

/-! ## What the locks protect -/

def SubRow.Of (r : SubRow) (u planId : Int) : Prop := r.userId = u ∧ r.planId = planId

/-- No purchase limit is exceeded, and no plan has two live rows of one user. -/
structure Within (plans : Int → SubscriptionPlan) (db : Db) : Prop where
  ids : Ids db
  limit : ∀ u planId, 0 < (planFor plans planId).maxPurchasePerUser →
    (purchases db u planId : Int) ≤ (planFor plans planId).maxPurchasePerUser
  single : ∀ u planId, ∀ r ∈ db.rows, ∀ r' ∈ db.rows, r.Of u planId → r'.Of u planId →
    r.Live db.now → r'.Live db.now → r = r'

def NoLive (db : Db) (u planId : Int) : Prop :=
  ∀ r ∈ db.rows, r.Of u planId → ¬ r.Live db.now

/-- The assertion about transaction `i`. -/
def BuyOk (plans : Int → SubscriptionPlan) (s : Till) (i : Nat) : BuyPhase → Prop
  | .locked p => p.entry.locksUser ∧ s.userLocks p.userId = some i
  | .found p row _ =>
    (p.entry.locksUser → s.userLocks p.userId = some i) ∧ s.subLocks row.id = some i ∧
    row ∈ s.db.rows ∧ row.Of p.userId p.planId ∧
    ∀ r ∈ s.db.rows, r.Of p.userId p.planId → r ≠ row → ¬ r.Live s.db.now
  | .absent p _ =>
    (p.entry.locksUser → s.userLocks p.userId = some i) ∧ NoLive s.db p.userId p.planId
  | .counted p _ =>
    (p.entry.locksUser → s.userLocks p.userId = some i) ∧ NoLive s.db p.userId p.planId ∧
    (0 < (planFor plans p.planId).maxPurchasePerUser →
      (purchases s.db p.userId p.planId : Int) < (planFor plans p.planId).maxPurchasePerUser)
  | _ => True

def Solo (w : Workers Till Nat BuyPhase) : Prop :=
  ∀ i j p q, (w.proc i).window = some p → (w.proc j).window = some q →
    p.userId = q.userId → p.planId = q.planId → i = j

/-- A redemption's stretch from look-up to end does not overlap with that of
    another transaction for the same user and plan. -/
def Exclusive (w : Workers Till Nat BuyPhase) : Nat × BuyAction → Prop
  | (i, .lookUp) => ∀ p, (w.proc i).ready = some p → ∀ j q, (w.proc j).window = some q →
      p.userId = q.userId → p.planId = q.planId → p.entry ≠ .redeem ∧ q.entry ≠ .redeem
  | _ => True

/-! ## Changes of the tables -/

/-- No row of the plan comes to life, and none is added. -/
structure Quieter (u planId : Int) (db db' : Db) : Prop where
  live : ∀ r ∈ db'.rows, r.Of u planId → r.Live db'.now → r ∈ db.rows ∧ r.Live db.now
  count : purchases db' u planId = purchases db u planId

variable {u planId : Int} {db : Db}

theorem Quieter.noLive {db' : Db} (h : Quieter u planId db db')
    (hno : NoLive db u planId) : NoLive db' u planId := by
  intro r hr hof hlive
  obtain ⟨hold, hlive'⟩ := h.live r hr hof hlive
  exact hno r hold hof hlive'

theorem quieter_tick (u planId : Int) (db : Db) (d : Nat) :
    Quieter u planId db { db with now := db.now + d } := by
  refine ⟨fun r hr _ hlive => ⟨hr, hlive.1, ?_⟩, rfl⟩
  have hend : db.now + d < r.endTime := hlive.2
  omega

theorem purchases_save (hids : Ids db) {sub : SubRow} (hsub : sub ∈ db.rows)
    (row : SubRow) (hid : row.id = sub.id) (hu : row.userId = sub.userId) (hp : row.planId = sub.planId)
    (u planId : Int) : purchases (db.save row) u planId = purchases db u planId := by
  have hsame : ∀ r ∈ db.rows,
      decide ((if r.id = row.id then row else r).userId = u ∧
        (if r.id = row.id then row else r).planId = planId) =
      decide (r.userId = u ∧ r.planId = planId) := by
    intro r hr
    by_cases heq : r.id = row.id
    · rw [if_pos heq, hids.eq hr hsub (heq.trans hid), hu, hp]
    · rw [if_neg heq]
  show ((db.rows.map _).filter _).length = (db.rows.filter _).length
  rw [List.filter_map, List.length_map]
  exact congrArg List.length (List.filter_congr hsame)

theorem quieter_endRow (hids : Ids db) {sub : SubRow} (hsub : sub ∈ db.rows)
    (u planId : Int) : Quieter u planId db (db.save (sub.cancelledAt db.now)) := by
  have hcount := purchases_save hids hsub (sub.cancelledAt db.now) rfl rfl rfl u planId
  refine ⟨fun r hr _ hlive => ?_, hcount⟩
  rcases mem_save_cases hr with rfl | ⟨hold, -⟩
  · cases hlive.1
  · exact ⟨hold, hlive⟩

variable {row : SubRow}

theorem quieter_renewal (hids : Ids db) (hrow : row ∈ db.rows)
    (hother : ¬ row.Of u planId) (plan : SubscriptionPlan) (endTime : Int) :
    Quieter u planId db (db.save (renewed row plan endTime)) := by
  have hcount := purchases_save hids hrow (renewed row plan endTime) rfl rfl rfl u planId
  refine ⟨fun r hr hof hlive => ?_, hcount⟩
  rcases mem_save_cases hr with rfl | ⟨hold, -⟩
  · exact absurd hof hother
  · exact ⟨hold, hlive⟩

theorem purchases_insertRow (db : Db) (row : SubRow) (u planId : Int) :
    (purchases (insertRow db row) u planId : Int) = purchases db u planId +
      if row.userId = u ∧ row.planId = planId then 1 else 0 := by
  simp only [purchases, insertRow_rows, List.filter_append, List.length_append]
  by_cases h : row.userId = u ∧ row.planId = planId
  · simp [h]
  · simp [h]

theorem quieter_insert (db : Db) (hother : ¬ row.Of u planId) :
    Quieter u planId db (insertRow db row) := by
  constructor
  · intro r hr hof hlive
    rw [insertRow_rows, List.mem_append, List.mem_singleton] at hr
    rcases hr with hold | rfl
    · exact ⟨hold, by rwa [insertRow_now] at hlive⟩
    · exact absurd hof hother
  have hne : ¬ (row.userId = u ∧ row.planId = planId) := hother
  have hcount := purchases_insertRow db row u planId
  rw [if_neg hne] at hcount
  omega

variable {plans : Int → SubscriptionPlan}

theorem Within.quieter {db' : Db} (h : Within plans db)
    (hids : Ids db') (hq : ∀ u planId, Quieter u planId db db') : Within plans db' where
  ids := hids
  limit u planId hpos := by
    rw [(hq u planId).count]
    exact h.limit u planId hpos
  single u planId r hr r' hr' hof hof' hlive hlive' := by
    obtain ⟨hold, hlold⟩ := (hq u planId).live r hr hof hlive
    obtain ⟨hold', hlold'⟩ := (hq u planId).live r' hr' hof' hlive'
    exact h.single u planId r hold r' hold' hof hof' hlold hlold'

theorem Within.renewal (h : Within plans db) (hrow : row ∈ db.rows) (hof : row.Of u planId)
    (hother : ∀ r ∈ db.rows, r.Of u planId → r ≠ row → ¬ r.Live db.now)
    (plan : SubscriptionPlan) (endTime : Int) :
    Within plans (db.save (renewed row plan endTime)) where
  ids := h.ids.save _
  limit u' planId' hpos := by
    rw [purchases_save h.ids hrow (renewed row plan endTime) rfl rfl rfl u' planId']
    exact h.limit u' planId' hpos
  single u' planId' r hr r' hr' hrof hrof' hlive hlive' := by
    by_cases htarget : row.Of u' planId'
    · -- the renewed row is the only live one of its plan
      have honly : ∀ x ∈ (db.save (renewed row plan endTime)).rows, x.Of u' planId' →
          x.Live db.now → x = renewed row plan endTime := by
        intro x hx hxof hxlive
        rcases mem_save_cases hx with rfl | ⟨hold, hid⟩
        · rfl
        have hxof' : x.Of u planId :=
          ⟨hxof.1.trans (htarget.1.symm.trans hof.1), hxof.2.trans (htarget.2.symm.trans hof.2)⟩
        refine absurd hxlive (hother x hold hxof' ?_)
        rintro rfl
        exact hid rfl
      rw [honly r hr hrof hlive, honly r' hr' hrof' hlive']
    have hq := quieter_renewal h.ids hrow htarget plan endTime
    obtain ⟨hold, hlold⟩ := hq.live r hr hrof hlive
    obtain ⟨hold', hlold'⟩ := hq.live r' hr' hrof' hlive'
    exact h.single u' planId' r hold r' hold' hrof hrof' hlold hlold'

theorem Within.insert (h : Within plans db) (hid : row.id = db.nextId) (hof : row.Of u planId)
    (hno : NoLive db u planId) (hroom : 0 < (planFor plans planId).maxPurchasePerUser →
      (purchases db u planId : Int) < (planFor plans planId).maxPurchasePerUser) :
    Within plans (insertRow db row) where
  ids := h.ids.insertRow hid
  limit u' planId' hpos := by
    rw [purchases_insertRow]
    by_cases htarget : row.userId = u' ∧ row.planId = planId'
    · obtain ⟨rfl, rfl⟩ := htarget
      obtain ⟨rfl, rfl⟩ := hof
      have := hroom hpos
      rw [if_pos ⟨rfl, rfl⟩]
      omega
    · rw [if_neg htarget, add_zero]
      exact h.limit u' planId' hpos
  single u' planId' r hr r' hr' hrof hrof' hlive hlive' := by
    by_cases htarget : row.Of u' planId'
    · obtain ⟨rfl, rfl⟩ := htarget
      obtain ⟨rfl, rfl⟩ := hof
      have honly : ∀ x ∈ (insertRow db row).rows, x.Of row.userId row.planId →
          x.Live (insertRow db row).now → x = row := by
        intro x hx hxof hxlive
        rw [insertRow_rows, List.mem_append, List.mem_singleton] at hx
        rw [insertRow_now] at hxlive
        exact hx.resolve_left fun hold => hno x hold hxof hxlive
      rw [honly r hr hrof hlive, honly r' hr' hrof' hlive']
    have hq := quieter_insert db htarget
    obtain ⟨hold, hlold⟩ := hq.live r hr hrof hlive
    obtain ⟨hold', hlold'⟩ := hq.live r' hr' hrof' hlive'
    exact h.single u' planId' r hold r' hold' hrof hrof' hlold hlold'

/-! ## One step -/

/-- Transaction `j` keeps its locks. -/
structure LocksKept (j : Nat) (s s' : Till) : Prop where
  user : ∀ u, s.userLocks u = some j → s'.userLocks u = some j
  sub : ∀ id, s.subLocks id = some j → s'.subLocks id = some j

variable {i j : Nat}

theorem LocksKept.release (s : Till) (db : Db) (hij : j ≠ i) :
    LocksKept j s (Till.release { s with db } i) := by
  constructor
  · intro u h
    have hne : ¬ s.userLocks u = some i := fun hi => hij (Option.some.inj (h.symm.trans hi))
    exact (if_neg hne).trans h
  intro id h
  have hne : ¬ s.subLocks id = some i := fun hi => hij (Option.some.inj (h.symm.trans hi))
  exact (if_neg hne).trans h

theorem some_of_update_free {locks : Int → Option Nat} {k : Int} (hfree : locks k = none)
     (h : locks u = some j) : Function.update locks k (some i) u = some j := by
  by_cases hu : u = k
  · subst hu
    rw [hfree] at h
    cases h
  · rw [Function.update_of_ne hu]
    exact h

variable {s s' : Till} {phase : BuyPhase}

section
variable (h : BuyOk plans s j phase)
include h

theorem BuyOk.transfer (hlocks : LocksKept j s s')
    (hq : ∀ p, phase.window = some p → Quieter p.userId p.planId s.db s'.db)
    (hrow : ∀ p row t, phase = .found p row t → row ∈ s'.db.rows) : BuyOk plans s' j phase := by
  cases phase with
  | locked p => exact ⟨h.1, hlocks.user _ h.2⟩
  | found p row t =>
    obtain ⟨huser, hsub, hmem, hof, hother⟩ := h
    refine ⟨fun he => hlocks.user _ (huser he), hlocks.sub _ hsub, hrow p row t rfl, hof, ?_⟩
    intro r hr hrof hne hlive
    obtain ⟨hold, hlold⟩ := (hq p rfl).live r hr hrof hlive
    exact hother r hold hrof hne hlold
  | absent p t =>
    obtain ⟨huser, hno⟩ := h
    exact ⟨fun he => hlocks.user _ (huser he), (hq p rfl).noLive hno⟩
  | counted p t =>
    obtain ⟨huser, hno, hroom⟩ := h
    refine ⟨fun he => hlocks.user _ (huser he), (hq p rfl).noLive hno, ?_⟩
    rw [(hq p rfl).count]
    exact hroom
  | _ => trivial

theorem BuyOk.sameDb (hlocks : LocksKept j s s') (hdb : s'.db = s.db) : BuyOk plans s' j phase := by
  refine h.transfer hlocks (fun p _ => ?_) (fun p row t heq => ?_)
  · rw [hdb]
    exact ⟨fun r hr _ hlive => ⟨hr, hlive⟩, rfl⟩
  rw [hdb]
  subst heq
  exact h.2.2.1

theorem BuyOk.endRow (hids : Ids s.db) {sub : SubRow} (hsub : sub ∈ s.db.rows)
    (hfree : s.subLocks sub.id = none) :
    BuyOk plans { s with db := s.db.save (sub.cancelledAt s.db.now) } j phase := by
  refine h.transfer ⟨fun _ h => h, fun _ h => h⟩ (fun p _ => quieter_endRow hids hsub _ _)
    (fun p row t heq => ?_)
  subst heq
  obtain ⟨-, hheld, hmem, -, -⟩ := h
  refine mem_save_of_ne hmem fun hid => ?_
  have hid : row.id = sub.id := hid
  rw [hid, hfree] at hheld
  cases hheld

theorem BuyOk.tick (d : Nat) :
    BuyOk plans { s with db := { s.db with now := s.db.now + d } } j phase := by
  refine h.transfer ⟨fun _ h => h, fun _ h => h⟩ (fun p _ => quieter_tick _ _ _ _)
    (fun p row t heq => ?_)
  subst heq
  exact h.2.2.1

end

theorem BuyOk.renewal (hij : j ≠ i) (h : BuyOk plans s j phase) (hids : Ids s.db)
    (hrow : row ∈ s.db.rows) (hheld : s.subLocks row.id = some i)
    (hother : ∀ q, phase.window = some q → ¬ row.Of q.userId q.planId)
    (plan : SubscriptionPlan) (endTime : Int) :
    BuyOk plans (Till.release { s with db := s.db.save (renewed row plan endTime) } i) j phase := by
  refine h.transfer (LocksKept.release s _ hij)
    (fun q hq => quieter_renewal hids hrow (hother q hq) plan endTime) (fun q row' t heq => ?_)
  subst heq
  obtain ⟨-, hheld', hmem, -, -⟩ := h
  refine mem_save_of_ne hmem fun hid => ?_
  have hid : row'.id = row.id := hid
  rw [hid, hheld] at hheld'
  exact hij (Option.some.inj hheld').symm

theorem BuyOk.insert (hij : j ≠ i) (h : BuyOk plans s j phase)
    (hother : ∀ q, phase.window = some q → ¬ row.Of q.userId q.planId) :
    BuyOk plans (Till.release { s with db := insertRow s.db row } i) j phase := by
  refine h.transfer (LocksKept.release s _ hij)
    (fun q hq => quieter_insert s.db (hother q hq)) (fun q row' t heq => ?_)
  subst heq
  show row' ∈ (insertRow s.db row).rows
  rw [insertRow_rows]
  exact List.mem_append_left _ h.2.2.1

/-- What a step of transaction `i` can do. -/
inductive BuyMove (plans : Int → SubscriptionPlan) (i : Nat) (s : Till) :
    BuyPhase → BuyAction → Till → BuyPhase → Prop where
  /-- not its turn, or it waits for a lock -/
  | stay (phase : BuyPhase) (a : BuyAction) : BuyMove plans i s phase a s phase
  | called (p : Purchase) : BuyMove plans i s .idle (.call p) s (.begun p)
  | locked (p : Purchase) (hlocks : p.entry.locksUser) (hfree : s.userLocks p.userId = none) :
      BuyMove plans i s (.begun p) .lockUser
        { s with userLocks := Function.update s.userLocks p.userId (some i) } (.locked p)
  | absent (p : Purchase) (phase : BuyPhase) (hready : phase.ready = some p)
      (hnone : activeRow s.db p.userId p.planId = none) :
      BuyMove plans i s phase .lookUp s (.absent p s.db.now)
  | found (p : Purchase) (phase : BuyPhase) (row : SubRow) (hready : phase.ready = some p)
      (hrow : activeRow s.db p.userId p.planId = some row) (hfree : s.subLocks row.id = none) :
      BuyMove plans i s phase .lookUp
        { s with subLocks := Function.update s.subLocks row.id (some i) } (.found p row s.db.now)
  | counted (p : Purchase) (t : Int)
      (hroom : 0 < (planFor plans p.planId).maxPurchasePerUser →
        (purchases s.db p.userId p.planId : Int) < (planFor plans p.planId).maxPurchasePerUser) :
      BuyMove plans i s (.absent p t) .count s (.counted p t)
  | renewed (p : Purchase) (row : SubRow) (t endTime : Int) (r : Except BuyErr SubRow) :
      BuyMove plans i s (.found p row t) .commit
        (Till.release { s with db := s.db.save (renewed row (planFor plans p.planId) endTime) } i)
        (.done r)
  | inserted (p : Purchase) (t : Int) (row : SubRow) (r : Except BuyErr SubRow)
      (hid : row.id = s.db.nextId) (hof : row.Of p.userId p.planId) :
      BuyMove plans i s (.counted p t) .commit
        (Till.release { s with db := insertRow s.db row } i) (.done r)
  | ended (phase : BuyPhase) (a : BuyAction) (r : Except BuyErr SubRow) :
      BuyMove plans i s phase a (s.release i) (.done r)
  | tick (phase : BuyPhase) (d : Nat) :
      BuyMove plans i s phase (.tick d) { s with db := { s.db with now := s.db.now + d } } phase
  | endRow (phase : BuyPhase) (sub : SubRow) (hsub : sub ∈ s.db.rows)
      (hfree : s.subLocks sub.id = none) :
      BuyMove plans i s phase (.endRow sub.id)
        { s with db := s.db.save (sub.cancelledAt s.db.now) } phase

variable {p : Purchase}

variable (plans)

theorem lookUp_move (i : Nat) (s : Till) (hready : phase.ready = some p) :
    BuyMove plans i s phase .lookUp (lookUp plans i s phase p).1 (lookUp plans i s phase p).2 := by
  unfold lookUp
  split
  · exact .ended _ _ _
  split
  · exact .ended _ _ _
  cases hrow : activeRow s.db p.userId p.planId with
  | none => exact .absent p phase hready hrow
  | some row =>
    simp only
    split
    · rename_i hfree
      exact .found p phase row hready hrow hfree
    · exact .stay _ _

theorem commit_move (i : Nat) (s : Till) (phase : BuyPhase) :
    BuyMove plans i s phase .commit (buyStep cal plans i s phase .commit).1
      (buyStep cal plans i s phase .commit).2 := by
  cases phase with
  | found p row t =>
    show BuyMove plans i s _ .commit (commitRenewal cal (planFor plans p.planId) i s row t).1
      (commitRenewal cal (planFor plans p.planId) i s row t).2
    unfold commitRenewal
    cases calcPlanEndTime cal (if row.endTime < t then t else row.endTime)
        (planFor plans p.planId) with
    | error e => exact .ended _ _ _
    | ok endTime => exact .renewed p row t endTime _
  | counted p t =>
    show BuyMove plans i s _ .commit
      (commitInsert cal (planFor plans p.planId) i s (.counted p t) p t).1
      (commitInsert cal (planFor plans p.planId) i s (.counted p t) p t).2
    unfold commitInsert
    cases calcPlanEndTime cal t (planFor plans p.planId) with
    | error e => exact .ended _ _ _
    | ok endUnix =>
      simp only
      split
      · exact .stay _ _
      · exact .inserted p t _ _ rfl ⟨rfl, rfl⟩
  | _ => exact .stay _ _

/-- **What one step can do.** -/
theorem buyStep_move (i : Nat) (s : Till) (phase : BuyPhase) (a : BuyAction) :
    BuyMove plans i s phase a (buyStep cal plans i s phase a).1
      (buyStep cal plans i s phase a).2 := by
  cases a with
  | call p =>
    cases phase with
    | idle => exact .called p
    | _ => exact .stay _ _
  | lockUser =>
    cases phase with
    | begun p =>
      simp only [buyStep]
      split
      · rename_i h
        exact .locked p h.1 h.2
      · exact .stay _ _
    | _ => exact .stay _ _
  | lookUp =>
    simp only [buyStep]
    cases hready : phase.ready with
    | none => exact .stay _ _
    | some p => exact lookUp_move plans i s hready
  | count =>
    cases phase with
    | absent p t =>
      simp only [buyStep]
      split
      · exact .ended _ _ _
      rename_i hroom
      refine .counted p t fun hpos => ?_
      by_contra hle
      exact hroom ⟨hpos, by omega⟩
    | _ => exact .stay _ _
  | commit => exact commit_move cal plans i s phase
  | rollback =>
    cases phase with
    | idle | done r => exact .stay _ _
    | _ => exact .ended _ _ _
  | tick d => exact .tick _ d
  | endRow id =>
    simp only [buyStep]
    cases hfind : s.db.find id with
    | none => exact .stay _ _
    | some sub =>
      obtain ⟨hsub, rfl⟩ := find_some hfind
      simp only
      split
      · rename_i hfree
        exact .endRow _ sub hsub hfree
      · exact .stay _ _

variable {plans}

theorem BuyOk.ready_locked (h : BuyOk plans s i phase) (hready : phase.ready = some p)
    (he : p.entry.locksUser) : s.userLocks p.userId = some i := by
  cases phase with
  | begun q =>
    simp only [BuyPhase.ready] at hready
    split at hready
    · cases hready
    · obtain rfl := Option.some.inj hready
      contradiction
  | locked q =>
    obtain rfl : q = p := Option.some.inj hready
    exact h.2
  | _ => cases hready

theorem BuyOk.window_locked (h : BuyOk plans s i phase) (hwin : phase.window = some p)
    (he : p.entry.locksUser) : s.userLocks p.userId = some i := by
  cases phase with
  | found q row t | absent q t | counted q t =>
    obtain rfl : q = p := Option.some.inj hwin
    exact h.1 he
  | _ => cases hwin

variable {phase' : BuyPhase} {a : BuyAction}

section
variable (hm : BuyMove plans i s phase a s' phase')
include hm

theorem BuyMove.self (h : Within plans s.db) (hi : BuyOk plans s i phase) :
    Within plans s'.db ∧ BuyOk plans s' i phase' := by
  cases hm with
  | stay => exact ⟨h, hi⟩
  | called p | ended => exact ⟨h, trivial⟩
  | locked p hlocks hfree => exact ⟨h, hlocks, Function.update_self _ _ _⟩
  | absent p _ hready hnone =>
    refine ⟨h, hi.ready_locked hready, fun r hr hof hlive => ?_⟩
    have hnot := List.filter_eq_nil_iff.1 (pick_eq_none hnone) r hr
    exact hnot (decide_eq_true ⟨hof.1, hof.2, hlive⟩)
  | found p _ row hready hrow hfree =>
    obtain ⟨hmem, hprop⟩ := List.mem_filter.1 (pick_mem hrow)
    obtain ⟨hu, hp, hlive⟩ := of_decide_eq_true hprop
    refine ⟨h, hi.ready_locked hready, Function.update_self _ _ _, hmem, ⟨hu, hp⟩, ?_⟩
    intro r hr hof hne hlive'
    exact hne (h.single p.userId p.planId r hr row hmem hof ⟨hu, hp⟩ hlive' hlive)
  | counted p t hroom => exact ⟨h, hi.1, hi.2, hroom⟩
  | renewed p row t endTime r =>
    obtain ⟨-, -, hmem, hof, hother⟩ := hi
    exact ⟨h.renewal hmem hof hother _ endTime, trivial⟩
  | inserted p t row r hid hof =>
    obtain ⟨-, hno, hroom⟩ := hi
    exact ⟨h.insert hid hof hno hroom, trivial⟩
  | tick _ d =>
    refine ⟨h.quieter ⟨h.ids.lt, h.ids.nodup⟩ fun u planId => quieter_tick u planId _ d, ?_⟩
    exact hi.tick d
  | endRow _ sub hsub hfree =>
    refine ⟨h.quieter (h.ids.save _) fun u planId => quieter_endRow h.ids hsub u planId, ?_⟩
    exact hi.endRow h.ids hsub hfree

theorem BuyMove.other {other : BuyPhase}
    (h : Within plans s.db) (hi : BuyOk plans s i phase) (hij : j ≠ i) (hj : BuyOk plans s j other)
    (hsolo : ∀ p q, phase.window = some p → other.window = some q →
      ¬ (p.userId = q.userId ∧ p.planId = q.planId)) : BuyOk plans s' j other := by
  cases hm with
  | stay => exact hj
  | called p => exact hj
  | locked p hlocks hfree =>
    exact hj.sameDb ⟨fun _ hu => some_of_update_free hfree hu, fun _ hid => hid⟩ rfl
  | absent p _ hready hnone => exact hj
  | found p _ row hready hrow hfree =>
    exact hj.sameDb ⟨fun _ hu => hu, fun _ hid => some_of_update_free hfree hid⟩ rfl
  | counted p t hroom => exact hj
  | renewed p row t endTime r =>
    obtain ⟨-, hheld, hmem, hof, -⟩ := hi
    refine hj.renewal hij h.ids hmem hheld (fun q hq hofq => ?_) _ endTime
    exact hsolo p q rfl hq ⟨hof.1.symm.trans hofq.1, hof.2.symm.trans hofq.2⟩
  | inserted p t row r hid hof =>
    refine hj.insert hij fun q hq hofq => ?_
    exact hsolo p q rfl hq ⟨hof.1.symm.trans hofq.1, hof.2.symm.trans hofq.2⟩
  | ended => exact hj.sameDb (LocksKept.release s s.db hij) rfl
  | tick _ d => exact hj.tick d
  | endRow _ sub hsub hfree => exact hj.endRow h.ids hsub hfree

theorem BuyMove.window (hwin : phase'.window = some p) :
    phase.window = some p ∨ (a = .lookUp ∧ phase.ready = some p) := by
  cases hm with
  | absent q _ hready hnone | found q _ row hready hrow hfree =>
    obtain rfl : q = p := Option.some.inj hwin
    exact .inr ⟨rfl, hready⟩
  | called q | locked q hlocks hfree | renewed q row t endTime r | inserted q t row r hid hof
  | ended => cases hwin
  | _ => exact .inl hwin

end

theorem Entry.locksUser_of_ne {e : Entry} (h : e ≠ .redeem) : e.locksUser := by
  cases e with
  | redeem => exact absurd rfl h
  | _ => rfl

/-! ## Runs -/

def BuyInv (plans : Int → SubscriptionPlan) (w : Workers Till Nat BuyPhase) : Prop :=
  w.Holds (fun s => Within plans s.db) (BuyOk plans) ∧ Solo w

theorem Exclusive.alone {w : Workers Till Nat BuyPhase}
    (h : BuyInv plans w) (hex : Exclusive w (i, .lookUp)) {q : Purchase}
    (hready : (w.proc i).ready = some p) (hwin : (w.proc j).window = some q)
    (hu : p.userId = q.userId) (hp : p.planId = q.planId) : i = j := by
  obtain ⟨hpe, hqe⟩ := hex p hready j q hwin hu hp
  have hi := (h.1.2 i).ready_locked hready (Entry.locksUser_of_ne hpe)
  have hj := (h.1.2 j).window_locked hwin (Entry.locksUser_of_ne hqe)
  rw [hu] at hi
  exact Option.some.inj (hi.symm.trans hj)

theorem Solo.step {cal : Calendar} {w : Workers Till Nat BuyPhase} (h : BuyInv plans w)
    (hex : Exclusive w (i, a)) : Solo (w.step (buyStep cal plans) (i, a)) := by
  have hm := buyStep_move cal plans i w.shared (w.proc i) a
  -- the mover against any other transaction
  have halone : ∀ j p q, j ≠ i →
      ((w.step (buyStep cal plans) (i, a)).proc i).window = some p →
      (w.proc j).window = some q → p.userId = q.userId → p.planId = q.planId → i = j := by
    intro j p q hji hwin hwinj hu hp
    rw [Workers.step_proc_self] at hwin
    rcases hm.window hwin with hold | ⟨rfl, hready⟩
    · exact h.2 i j p q hold hwinj hu hp
    · exact Exclusive.alone h hex hready hwinj hu hp
  intro j k p q hwinj hwink hu hp
  by_cases hji : j = i
  · subst hji
    by_cases hki : k = j
    · exact hki.symm
    · rw [Workers.step_proc_of_ne _ _ hki] at hwink
      exact halone k p q hki hwinj hwink hu hp
  rw [Workers.step_proc_of_ne _ _ hji] at hwinj
  by_cases hki : k = i
  · subst hki
    exact (halone j q p hji hwink hwinj hu.symm hp.symm).symm
  · rw [Workers.step_proc_of_ne _ _ hki] at hwink
    exact h.2 j k p q hwinj hwink hu hp

theorem buyInv_step (plans : Int → SubscriptionPlan)
    (w : Workers Till Nat BuyPhase) (a : Nat × BuyAction) (h : BuyInv plans w)
    (hex : Exclusive w a) : BuyInv plans (w.step (buyStep cal plans) a) := by
  obtain ⟨i, a⟩ := a
  have hm := buyStep_move cal plans i w.shared (w.proc i) a
  refine ⟨h.1.step i a (hm.self h.1.1 (h.1.2 i)) fun j hij hj => ?_, Solo.step h hex⟩
  refine hm.other h.1.1 (h.1.2 i) hij hj fun p q hwin hwinj hsame => ?_
  exact hij (h.2 i j p q hwin hwinj hsame.1 hsame.2).symm

def opened (s : Till) : Workers Till Nat BuyPhase := ⟨s, fun _ => .idle⟩

def BuyPhase.purchase : BuyPhase → Option Purchase
  | .begun p => some p
  | .locked p => some p
  | .found p _ _ => some p
  | .absent p _ => some p
  | .counted p _ => some p
  | _ => none

theorem BuyPhase.purchase_of_ready (h : phase.ready = some p) : phase.purchase = some p := by
  cases phase with
  | begun q =>
    simp only [BuyPhase.ready] at h
    split at h
    · cases h
    · exact h
  | locked q => exact h
  | _ => cases h

theorem BuyPhase.purchase_of_window (h : phase.window = some p) : phase.purchase = some p := by
  cases phase with
  | found q row t => exact h
  | absent q t => exact h
  | counted q t => exact h
  | _ => cases h

theorem BuyMove.purchase
     (hm : BuyMove plans i s phase a s' phase')
    (hp : phase'.purchase = some p) : phase.purchase = some p ∨ a = .call p := by
  cases hm with
  | called q =>
    obtain rfl : q = p := Option.some.inj hp
    exact .inr rfl
  | absent q _ hready hnone | found q _ row hready hrow hfree =>
    obtain rfl : q = p := Option.some.inj hp
    exact .inl (BuyPhase.purchase_of_ready hready)
  | renewed q row t endTime r => cases hp
  | inserted q t row r hid hof => cases hp
  | ended => cases hp
  | _ => exact .inl hp

def BuyAction.redeems : BuyAction → Bool
  | .call p => p.entry = .redeem
  | _ => false

theorem exclusive_of_locking (plans : Int → SubscriptionPlan)
    {w : Workers Till Nat BuyPhase} {as : List (Nat × BuyAction)}
    (hw : ∀ i p, (w.proc i).purchase = some p → p.entry ≠ .redeem)
    (has : ∀ x ∈ as, x.2.redeems = false) :
    Meets Exclusive (Workers.step (buyStep cal plans)) w as := by
  induction as generalizing w with
  | nil => trivial
  | cons x as ih =>
    obtain ⟨i, a⟩ := x
    refine ⟨?_, ih (fun j p hp => ?_) fun y hy => has y (List.mem_cons_of_mem _ hy)⟩
    · cases a with
      | lookUp =>
        intro p hready j q hwin _ _
        exact ⟨hw i p (BuyPhase.purchase_of_ready hready),
          hw j q (BuyPhase.purchase_of_window hwin)⟩
      | _ => trivial
    by_cases hji : j = i
    · subst hji
      rw [Workers.step_proc_self] at hp
      rcases (buyStep_move cal plans j w.shared (w.proc j) a).purchase hp with hold | rfl
      · exact hw j p hold
      · exact of_decide_eq_false (has _ List.mem_cons_self)
    · rw [Workers.step_proc_of_ne _ _ hji] at hp
      exact hw j p hp

theorem within_empty (plans : Int → SubscriptionPlan) (now : Int) : Within plans (Db.empty now) where
  ids := ⟨fun _ hr => absurd hr List.not_mem_nil, List.nodup_nil⟩
  limit u planId hpos := by
    show ((0 : Nat) : Int) ≤ _
    omega
  single u planId r hr := absurd hr List.not_mem_nil

def onePerUser (id : Int) : SubscriptionPlan := { id, customSeconds := 1000, maxPurchasePerUser := 1 }

/-- An order and an administrator at once: the second waits for the user's row
    and renews what the first created. -/
def orderAndAdmin : List (Nat × BuyAction) :=
  [(0, .call ⟨.completeSubscriptionOrder, 7, 1⟩), (1, .call ⟨.adminBindSubscription, 7, 1⟩),
   (0, .lockUser), (1, .lockUser), (0, .lookUp), (1, .lookUp), (0, .count), (0, .commit),
   (1, .lockUser), (1, .lookUp), (1, .commit)]

def twoRedemptions : List (Nat × BuyAction) :=
  [(0, .call ⟨.redeem, 7, 1⟩), (1, .call ⟨.redeem, 7, 1⟩), (0, .lookUp), (1, .lookUp), (0, .count),
   (1, .count), (0, .commit), (1, .commit)]

end NewApi.Subscription
