/-
  NewApi.Subscription.FirstPurchase

  `PurchaseSubscriptionWithBalance` with its price, among the other transactions
  that create a subscription.

  After the user's row is locked, the purchase looks for any subscription row of
  the user (a locking read, so it sees what is committed), takes the price with
  or without the discount for first purchases, and takes the charge out of the
  wallet; then it goes on as in `NewApi.Subscription.Purchase`.  The charge is
  seen by others at the commit.  The wallet is a column of the user's row, so
  nobody else writes it while the row is locked.

  Every path but `Redeem` holds the lock on the user's row from before it looks
  for rows to its end, so a purchase that has found no row stays the first one
  (`Ok`), unless a redemption inserts a row meanwhile (`Undisturbed`).  The lock
  on the row that was found, which forbids the discount anyway, is left out.
-/

import NewApi.Subscription.Purchase
import NewApi.Payment.Wallet

namespace NewApi.Subscription

open Function (update_of_ne update_self)
open NewApi.Lib

/-! ## Prices -/

/-- Where the prices pass through floating point: `factor pct` is the decimal of
    `1 - pct/100`, `inexactFloat64` the nearest float of a decimal. -/
structure Pricing where
  factor : ℚ → ℚ
  inexactFloat64 : ℚ → ℚ
  quotaPerUnit : ℚ

def discounts (plan : SubscriptionPlan) (hasPriorPurchase discountEnabled : Bool) : Bool :=
  discountEnabled && !hasPriorPurchase && decide (0 < plan.firstPurchaseDiscountPercent)

/-- `decimal.Round(6)` -/
def round6 (d : ℚ) : ℚ := (Realtime.roundHalfAway (d * 10 ^ 6) : ℚ) / 10 ^ 6

def effectiveSubscriptionPrice (C : Pricing) (plan : SubscriptionPlan)
    (hasPriorPurchase discountEnabled : Bool) : ℚ :=
  if discounts plan hasPriorPurchase discountEnabled then
    let pct := min (max plan.firstPurchaseDiscountPercent 0) 100
    C.inexactFloat64 (round6 (plan.priceAmount * C.factor pct))
  else plan.priceAmount

/-- `calcSubscriptionBalanceQuota`; `none` is an error. -/
def calcSubscriptionBalanceQuota (C : Pricing) (priceAmount : ℚ) : Option Int :=
  if priceAmount ≤ 0 then some 0
  else if C.quotaPerUnit ≤ 0 then none
  else Payment.walletQuotaFromDecimalStrict ⌈priceAmount * C.quotaPerUnit⌉

def planRefused (plan : SubscriptionPlan) : Option String :=
  if plan.enabled = false then some "套餐未启用"
  else if plan.priceAmount < 0 then some "套餐价格不能为负数"
  else if plan.allowBalancePay = some false then some "该套餐不允许使用余额兑换"
  else none

/-! ## Transactions -/

/-- A committed balance purchase: its price, the wallet before and after, and
    how many subscription rows of the user were committed before it. -/
structure Sale where
  userId : Int
  planId : Int
  hasPrior : Bool
  discountEnabled : Bool
  price : ℚ
  charged : Int
  before : Option Int
  after : Option Int
  priors : Nat

/-- The committed tables with the wallets, and the balance purchases so far, the
    last one first. -/
structure Shop where
  till : Till
  wallet : Int → Option Int
  sales : List Sale := []

/-- The price that a purchase has settled on and the charge for it, with the
    wallet as its update leaves it. -/
structure Charge where
  hasPrior : Bool
  discountEnabled : Bool
  price : ℚ
  required : Int
  left : Int

/-- How far a transaction has come.  `plain` is any of them, a balance purchase up
    to its lock; `paid` is the rest of a balance purchase. -/
inductive ShopPhase where
  | plain (x : BuyPhase)
  /-- the user's row is locked, with `quota` in the wallet -/
  | holding (p : Purchase) (quota : Int)
  /-- the look for earlier rows is done -/
  | checked (p : Purchase) (quota : Int) (hasPrior discountEnabled : Bool)
  | paid (x : BuyPhase) (c : Charge)

inductive ShopAction where
  | buy (a : BuyAction)
  /-- the flag of the discount is read, and the rows -/
  | check (discountEnabled : Bool)
  | charge
  /-- any other statement that sets the wallet of a user -/
  | wallet (u quota : Int)

variable (C : Pricing) (cal : Calendar) (plans : Int → SubscriptionPlan)

def abort (i : Nat) (s : Shop) : Shop × ShopPhase :=
  ({ s with till := s.till.release i }, .plain (.done (.error .rolledBack)))

/-- The first statements of a balance purchase: the plan, and the user's row. -/
def lockWallet (i : Nat) (s : Shop) (p : Purchase) : Shop × ShopPhase :=
  if p.userId ≤ 0 ∨ p.planId ≤ 0 ∨ (planRefused (planFor plans p.planId)).isSome then abort i s
  else
    match s.wallet p.userId with
    | none => abort i s
    | some quota =>
      if s.till.userLocks p.userId = none then
        ({ s with till := { s.till with
            userLocks := Function.update s.till.userLocks p.userId (some i) } },
          .holding p quota)
      else (s, .plain (.begun p))

def HasRow (db : Db) (u : Int) : Prop := ∃ r ∈ db.rows, r.userId = u

instance (db : Db) (u : Int) : Decidable (HasRow db u) :=
  inferInstanceAs (Decidable (∃ r ∈ db.rows, _))

/-- The look for earlier rows, if it matters. -/
def checkPrior (s : Shop) (p : Purchase) (quota : Int) (discountEnabled : Bool) : ShopPhase :=
  let looks := discountEnabled && decide (0 < (planFor plans p.planId).firstPurchaseDiscountPercent)
  .checked p quota (looks && decide (HasRow s.till.db p.userId)) discountEnabled

/-- The price, and the conditional update of the wallet. -/
def chargeWallet (i : Nat) (s : Shop) (p : Purchase) (quota : Int)
    (hasPrior discountEnabled : Bool) : Shop × ShopPhase :=
  let price := effectiveSubscriptionPrice C (planFor plans p.planId) hasPrior discountEnabled
  match calcSubscriptionBalanceQuota C price with
  | none => abort i s
  | some required =>
    if 0 < required ∧ quota < required then abort i s
    else
      match s.wallet p.userId with
      | none => abort i s
      | some current =>
        if 0 < required ∧ current < required then abort i s
        else
          (s, .paid (.locked p)
            { hasPrior, discountEnabled, price, required,
              left := if 0 < required then current - required else current })

def walletAfter (s : Shop) (p : Purchase) (c : Charge) : Int → Option Int :=
  if 0 < c.required then Function.update s.wallet p.userId (some c.left) else s.wallet

/-- What the commit of the purchase is noted as. -/
def saleOf (s : Shop) (p : Purchase) (c : Charge) : Sale where
  userId := p.userId
  planId := p.planId
  hasPrior := c.hasPrior
  discountEnabled := c.discountEnabled
  price := c.price
  charged := c.required
  before := s.wallet p.userId
  after := walletAfter s p c p.userId
  priors := (s.till.db.rows.filter fun r => r.userId = p.userId).length

/-- The commit of a balance purchase, where the tables become those of `till`. -/
def sell (s : Shop) (till : Till) (p : Purchase) (c : Charge) : Shop :=
  { till, wallet := walletAfter s p c, sales := saleOf s p c :: s.sales }

/-- The rest of a balance purchase, which ends with the commit. -/
def paidStep (i : Nat) (s : Shop) (x : BuyPhase) (c : Charge) (a : BuyAction) : Shop × ShopPhase :=
  let out := buyStep cal plans i s.till x a
  match x.window, out.2 with
  | some p, .done (.ok row) => (sell s out.1 p c, .paid (.done (.ok row)) c)
  | _, x' => ({ s with till := out.1 }, .paid x' c)

def ShopPhase.waits : ShopPhase → Option Purchase
  | .plain (.begun p) => if p.entry = .purchaseSubscriptionWithBalance then some p else none
  | _ => none

/-- One step of transaction `i`. -/
def shopStep (i : Nat) (s : Shop) (phase : ShopPhase) : ShopAction → Shop × ShopPhase
  | .wallet u quota =>
    if s.till.userLocks u = none then
      ({ s with wallet := Function.update s.wallet u (some quota) }, phase)
    else (s, phase)
  | .buy a =>
    match phase with
    | .plain x =>
      match a, phase.waits with
      | .lockUser, some p => lockWallet plans i s p
      | _, _ =>
        let out := buyStep cal plans i s.till x a
        ({ s with till := out.1 }, .plain out.2)
    | .paid x c => paidStep cal plans i s x c a
    | _ =>
      match a with
      | .rollback => abort i s
      | _ => (s, phase)
  | .check discountEnabled =>
    match phase with
    | .holding p quota => (s, checkPrior plans s p quota discountEnabled)
    | _ => (s, phase)
  | .charge =>
    match phase with
    | .checked p quota hasPrior discountEnabled =>
      chargeWallet C plans i s p quota hasPrior discountEnabled
    | _ => (s, phase)

/-! ## Rows and locks -/

/-- The user whose row the transaction has locked, up to its end. -/
def BuyPhase.holds : BuyPhase → Option Int
  | .locked p => some p.userId
  | .found p _ _ => if p.entry.locksUser then some p.userId else none
  | .absent p _ => if p.entry.locksUser then some p.userId else none
  | .counted p _ => if p.entry.locksUser then some p.userId else none
  | _ => none

def BuyPhase.isPast : BuyPhase → Bool
  | .idle => false
  | .begun _ => false
  | _ => true

variable {p : Purchase}

theorem BuyPhase.holds_of_purchase {x : BuyPhase} (hpast : x.isPast = true)
    (hp : x.purchase = some p) (he : p.entry.locksUser) : x.holds = some p.userId := by
  cases x with
  | idle => cases hp
  | begun q => cases hpast
  | locked q =>
    obtain rfl : q = p := Option.some.inj hp
    rfl
  | found q row t | absent q t | counted q t =>
    obtain rfl : q = p := Option.some.inj hp
    exact if_pos he
  | done r => cases hp

theorem BuyPhase.holds_of_ready {x : BuyPhase} (hready : x.ready = some p)
    (he : p.entry.locksUser) : x.holds = some p.userId := by
  cases x with
  | begun q =>
    simp only [BuyPhase.ready] at hready
    split at hready
    · cases hready
    · obtain rfl := Option.some.inj hready
      contradiction
  | locked q =>
    obtain rfl : q = p := Option.some.inj hready
    rfl
  | _ => cases hready

def Kept (db db' : Db) : Prop :=
  ∀ r ∈ db.rows, ∃ r' ∈ db'.rows, r'.id = r.id ∧ r'.userId = r.userId

def InTable (db : Db) (row : SubRow) : Prop :=
  ∃ r ∈ db.rows, r.id = row.id ∧ r.userId = row.userId

def Origin (db : Db) : BuyPhase → Prop
  | .found p row _ => row.userId = p.userId ∧ InTable db row
  | _ => True

theorem Kept.refl (db : Db) : Kept db db := fun r hr => ⟨r, hr, rfl, rfl⟩

variable {db : Db} {u : Int}

theorem Kept.hasRow {db' : Db} (h : Kept db db') (hu : HasRow db u) : HasRow db' u := by
  obtain ⟨r, hr, hru⟩ := hu
  obtain ⟨r', hr', -, hsame⟩ := h r hr
  exact ⟨r', hr', hsame.trans hru⟩

variable {row : SubRow}

theorem Kept.inTable {db' : Db} (h : Kept db db') (hrow : InTable db row) : InTable db' row := by
  obtain ⟨r, hr, hid, hu⟩ := hrow
  obtain ⟨r', hr', hid', hu'⟩ := h r hr
  exact ⟨r', hr', hid'.trans hid, hu'.trans hu⟩

theorem Kept.origin {db' : Db} (h : Kept db db') {x : BuyPhase} (hx : Origin db x) :
    Origin db' x := by
  cases x with
  | found p row t => exact ⟨hx.1, h.inTable hx.2⟩
  | _ => trivial

theorem kept_save (hids : Ids db) (hrow : InTable db row) : Kept db (db.save row) := by
  intro r hr
  by_cases hid : r.id = row.id
  · obtain ⟨r₀, hr₀, hid₀, hu₀⟩ := hrow
    obtain rfl := hids.eq hr hr₀ (hid.trans hid₀.symm)
    exact ⟨row, mem_save_self hr hid, hid.symm, hu₀.symm⟩
  · exact ⟨r, mem_save_of_ne hr hid, rfl, rfl⟩

theorem kept_insertRow (db : Db) (row : SubRow) : Kept db (insertRow db row) := by
  intro r hr
  refine ⟨r, ?_, rfl, rfl⟩
  rw [insertRow_rows]
  exact List.mem_append_left _ hr

theorem hasRow_of_save (hrow : InTable db row) (h : HasRow (db.save row) u) : HasRow db u := by
  obtain ⟨r, hr, hu⟩ := h
  rcases mem_save_cases hr with rfl | ⟨hold, -⟩
  · obtain ⟨r₀, hr₀, -, hu₀⟩ := hrow
    exact ⟨r₀, hr₀, hu₀.trans hu⟩
  · exact ⟨r, hold, hu⟩

theorem hasRow_of_insertRow (h : HasRow (insertRow db row) u) : HasRow db u ∨ row.userId = u := by
  obtain ⟨r, hr, hu⟩ := h
  rw [insertRow_rows, List.mem_append, List.mem_singleton] at hr
  rcases hr with hold | rfl
  · exact .inl ⟨r, hold, hu⟩
  · exact .inr hu

/-! ## What a step of the tables does -/

variable {C} {cal} {plans} {i : Nat} {t t' : Till} {x x' : BuyPhase} {a : BuyAction}

section
variable (hm : BuyMove plans i t x a t' x')
include hm

theorem BuyMove.ids (h : Ids t.db) : Ids t'.db := by
  cases hm with
  | renewed p row now endTime r | endRow _ sub hsub hfree => exact h.save _
  | inserted p now row r hid hof => exact h.insertRow hid
  | tick _ d => exact h.congr rfl rfl
  | _ => exact h

theorem BuyMove.kept (hids : Ids t.db) (hx : Origin t.db x) : Kept t.db t'.db := by
  cases hm with
  | renewed p row now endTime r => exact kept_save hids hx.2
  | inserted p now row r hid hof => exact kept_insertRow _ _
  | endRow _ sub hsub hfree => exact kept_save hids ⟨sub, hsub, rfl, rfl⟩
  | _ => exact Kept.refl _

theorem BuyMove.hasRow (hx : Origin t.db x) (h : HasRow t'.db u) : HasRow t.db u ∨ a = .commit ∧ x'.purchase = none ∧
      ∃ p now, x = .counted p now ∧ p.userId = u := by
  cases hm with
  | renewed p row now endTime r =>
    have hrow : InTable t.db (Subscription.renewed row (planFor plans p.planId) endTime) := hx.2
    exact .inl (hasRow_of_save hrow h)
  | inserted p now row r hid hof =>
    rcases hasRow_of_insertRow h with hold | hu
    · exact .inl hold
    · exact .inr ⟨rfl, rfl, p, now, rfl, hof.1.symm.trans hu⟩
  | endRow _ sub hsub hfree =>
    have hrow : InTable t.db (sub.cancelledAt t.db.now) := ⟨sub, hsub, rfl, rfl⟩
    exact .inl (hasRow_of_save hrow h)
  | _ => exact .inl h

end

variable {j : Nat}

section
variable (hm : BuyMove plans i t x a t' x')
include hm

theorem BuyMove.locks_other (hij : j ≠ i) (h : t.userLocks u = some j) : t'.userLocks u = some j := by
  cases hm with
  | locked p hlocks hfree => exact some_of_update_free hfree h
  | renewed p row now endTime r | inserted p now row r hid hof =>
    exact (LocksKept.release t _ hij).user u h
  | ended _ _ r => exact (LocksKept.release t t.db hij).user u h
  | _ => exact h

theorem BuyMove.locks_self (h : ∀ u, x.holds = some u → t.userLocks u = some i)
    (hu : x'.holds = some u) : t'.userLocks u = some i := by
  cases hm with
  | stay | counted p now hroom | tick _ d | endRow _ sub hsub hfree => exact h u hu
  | called p => cases hu
  | locked p hlocks hfree =>
    obtain rfl : p.userId = u := Option.some.inj hu
    exact update_self _ _ _
  | absent p _ hready hnone | found p _ row hready hrow hfree =>
    simp only [BuyPhase.holds] at hu
    split at hu
    · rename_i he
      exact h u ((BuyPhase.holds_of_ready hready he).trans hu)
    · cases hu
  | renewed p row now endTime r => cases hu
  | inserted p now row r hid hof => cases hu
  | ended _ _ r => cases hu

theorem BuyMove.origin (hids : Ids t.db) (hx : Origin t.db x) : Origin t'.db x' := by
  have hkept := hm.kept hids hx
  cases hm with
  | stay => exact hx
  | called p => trivial
  | locked p hlocks hfree => trivial
  | absent p _ hready hnone => trivial
  | found p _ row hready hrow hfree =>
    obtain ⟨hmem, hprop⟩ := List.mem_filter.1 (pick_mem hrow)
    exact ⟨(of_decide_eq_true hprop).1, row, hmem, rfl, rfl⟩
  | counted p now hroom => trivial
  | renewed p row now endTime r => trivial
  | inserted p now row r hid hof => trivial
  | ended _ _ r => trivial
  | tick _ d | endRow _ sub hsub hfree => exact hkept.origin hx

theorem BuyMove.isPast (h : x.isPast = true) :
    x'.isPast = true ∧ ∀ p, x'.purchase = some p → x.purchase = some p := by
  cases hm with
  | called p => cases h
  | locked p hlocks hfree => cases h
  | absent p _ hready hnone => exact ⟨rfl, fun q hq => hq ▸ BuyPhase.purchase_of_ready hready⟩
  | found p _ row hready hrow hfree =>
    exact ⟨rfl, fun q hq => hq ▸ BuyPhase.purchase_of_ready hready⟩
  | counted p now hroom => exact ⟨rfl, fun q hq => hq⟩
  | renewed p row now endTime r | inserted p now row r hid hof | ended _ _ r =>
    exact ⟨rfl, fun q hq => by cases hq⟩
  | _ => exact ⟨h, fun q hq => hq⟩

end

theorem hasRow_of_sold (hwin : x.window = some p)
    (hdone : (buyStep cal plans i t x a).2 = .done (.ok row)) (hx : Origin t.db x) :
    HasRow (buyStep cal plans i t x a).1.db p.userId := by
  cases x with
  | found q row₀ now =>
    obtain rfl : q = p := Option.some.inj hwin
    cases a with
    | commit =>
      simp only [buyStep, commitRenewal] at hdone ⊢
      split
      · rename_i e he
        rw [he] at hdone
        cases hdone
      · obtain ⟨hu, r, hr, hid, -⟩ := hx
        exact ⟨_, mem_save_self hr hid, hu⟩
    | endRow id =>
      simp only [buyStep] at hdone
      split at hdone
      · cases hdone
      · split at hdone <;> cases hdone
    | _ => cases hdone
  | absent q now =>
    cases a with
    | count =>
      simp only [buyStep] at hdone
      split at hdone <;> cases hdone
    | endRow id =>
      simp only [buyStep] at hdone
      split at hdone
      · cases hdone
      · split at hdone <;> cases hdone
    | _ => cases hdone
  | counted q now =>
    obtain rfl : q = p := Option.some.inj hwin
    cases a with
    | commit =>
      simp only [buyStep, commitInsert] at hdone ⊢
      split
      · rename_i e he
        rw [he] at hdone
        cases hdone
      rename_i endUnix he
      rw [he] at hdone
      split
      · rename_i htaken
        simp only [if_pos htaken] at hdone
        cases hdone
      refine ⟨freshRow cal { t.db with now := now } q.userId (planFor plans q.planId) endUnix,
        ?_, rfl⟩
      show _ ∈ (insertRow t.db _).rows
      rw [insertRow_rows]
      exact List.mem_append_right _ (List.mem_singleton_self _)
    | endRow id =>
      simp only [buyStep] at hdone
      split at hdone
      · cases hdone
      · split at hdone <;> cases hdone
    | _ => cases hdone
  | _ => cases hwin

/-! ## One step -/

def Sale.discounted (plans : Int → SubscriptionPlan) (x : Sale) : Bool :=
  discounts (planFor plans x.planId) x.hasPrior x.discountEnabled

/-- The price is the effective one and the charge is for it, and the wallet
    has it. -/
structure Charged (C : Pricing) (plans : Int → SubscriptionPlan) (s : Shop) (p : Purchase)
    (c : Charge) : Prop where
  price : c.price =
    effectiveSubscriptionPrice C (planFor plans p.planId) c.hasPrior c.discountEnabled
  required : calcSubscriptionBalanceQuota C c.price = some c.required
  wallet : ∃ q, s.wallet p.userId = some q ∧
    (0 < c.required → c.required ≤ q ∧ c.left = q - c.required)

/-- What a step of transaction `i` can do. -/
inductive ShopMove (C : Pricing) (plans : Int → SubscriptionPlan) (i : Nat) (s : Shop) :
    ShopPhase → ShopAction → Shop → ShopPhase → Prop where
  | stay (phase : ShopPhase) (a : ShopAction) : ShopMove C plans i s phase a s phase
  | buys (x x' : BuyPhase) (a : BuyAction) (t' : Till) (hm : BuyMove plans i s.till x a t' x') :
      ShopMove C plans i s (.plain x) (.buy a) { s with till := t' } (.plain x')
  | holds (p : Purchase) (quota : Int) (he : p.entry.locksUser)
      (hquota : s.wallet p.userId = some quota) (hfree : s.till.userLocks p.userId = none) :
      ShopMove C plans i s (.plain (.begun p)) (.buy .lockUser)
        { s with till := { s.till with
            userLocks := Function.update s.till.userLocks p.userId (some i) } } (.holding p quota)
  | aborts (phase : ShopPhase) (a : ShopAction) :
      ShopMove C plans i s phase a { s with till := s.till.release i }
        (.plain (.done (.error .rolledBack)))
  | checks (p : Purchase) (quota : Int) (hasPrior enabled : Bool)
      (hnone : discounts (planFor plans p.planId) hasPrior enabled = true →
        ¬ HasRow s.till.db p.userId) :
      ShopMove C plans i s (.holding p quota) (.check enabled) s
        (.checked p quota hasPrior enabled)
  | charges (p : Purchase) (quota : Int) (c : Charge) (hc : Charged C plans s p c) :
      ShopMove C plans i s (.checked p quota c.hasPrior c.discountEnabled) .charge s
        (.paid (.locked p) c)
  | pays (x x' : BuyPhase) (c : Charge) (a : BuyAction) (t' : Till)
      (hm : BuyMove plans i s.till x a t' x') :
      ShopMove C plans i s (.paid x c) (.buy a) { s with till := t' } (.paid x' c)
  | sells (x : BuyPhase) (c : Charge) (a : BuyAction) (t' : Till) (p : Purchase) (row : SubRow)
      (hm : BuyMove plans i s.till x a t' (.done (.ok row))) (hwin : x.window = some p)
      (hrow : Origin s.till.db x → HasRow t'.db p.userId) :
      ShopMove C plans i s (.paid x c) (.buy a) (sell s t' p c) (.paid (.done (.ok row)) c)
  | wallet (phase : ShopPhase) (u quota : Int) (hfree : s.till.userLocks u = none) :
      ShopMove C plans i s phase (.wallet u quota)
        { s with wallet := Function.update s.wallet u (some quota) } phase

variable {s s' : Shop} {phase phase' : ShopPhase} {b : ShopAction} {c : Charge}

theorem lockWallet_move (he : p.entry.locksUser) :
    ShopMove C plans i s (.plain (.begun p)) (.buy .lockUser) (lockWallet plans i s p).1
      (lockWallet plans i s p).2 := by
  unfold lockWallet
  split
  · exact .aborts _ _
  split
  · exact .aborts _ _
  rename_i quota hquota
  split
  · rename_i hfree
    exact .holds p quota he hquota hfree
  · exact .stay _ _

theorem checkPrior_move {quota : Int} (enabled : Bool) :
    ShopMove C plans i s (.holding p quota) (.check enabled) s
      (checkPrior plans s p quota enabled) := by
  refine .checks p quota _ enabled fun hdisc => ?_
  simp only [discounts, Bool.and_eq_true, Bool.not_eq_true', decide_eq_true_eq] at hdisc
  obtain ⟨⟨henabled, hprior⟩, hpercent⟩ := hdisc
  rw [henabled, decide_eq_true hpercent, Bool.and_self, Bool.true_and] at hprior
  exact of_decide_eq_false hprior

theorem chargeWallet_move {quota : Int} {hasPrior enabled : Bool} :
    ShopMove C plans i s (.checked p quota hasPrior enabled) .charge
      (chargeWallet C plans i s p quota hasPrior enabled).1
      (chargeWallet C plans i s p quota hasPrior enabled).2 := by
  unfold chargeWallet
  simp only
  split
  · exact .aborts _ _
  rename_i required hrequired
  split
  · exact .aborts _ _
  split
  · exact .aborts _ _
  rename_i current hcurrent
  split
  · exact .aborts _ _
  rename_i henough
  refine .charges p quota ⟨hasPrior, enabled, _, required, _⟩
    ⟨rfl, hrequired, current, hcurrent, fun hpos => ⟨?_, if_pos hpos⟩⟩
  show required ≤ current
  by_contra hless
  exact henough ⟨hpos, by omega⟩

theorem paidStep_move : ShopMove C plans i s (.paid x c) (.buy a) (paidStep cal plans i s x c a).1
      (paidStep cal plans i s x c a).2 := by
  have hm := buyStep_move cal plans i s.till x a
  unfold paidStep
  simp only
  cases hwin : x.window with
  | none => exact .pays x _ c a _ hm
  | some p =>
    cases hdone : (buyStep cal plans i s.till x a).2 with
    | done r =>
      rw [hdone] at hm
      cases r with
      | ok row => exact .sells x c a _ p row hm hwin (hasRow_of_sold hwin hdone)
      | error e => exact .pays x _ c a _ hm
    | _ =>
      rw [hdone] at hm
      exact .pays x _ c a _ hm

/-- **What one step can do.** -/
theorem shopStep_move (cal : Calendar) (a : ShopAction) :
    ShopMove C plans i s phase a (shopStep C cal plans i s phase a).1
      (shopStep C cal plans i s phase a).2 := by
  cases a with
  | wallet u quota =>
    simp only [shopStep]
    split
    · rename_i hfree
      exact .wallet phase u quota hfree
    · exact .stay _ _
  | check enabled =>
    cases phase with
    | holding p quota => exact checkPrior_move enabled
    | _ => exact .stay _ _
  | charge =>
    cases phase with
    | checked p quota hasPrior enabled => exact chargeWallet_move
    | _ => exact .stay _ _
  | buy a =>
    cases phase with
    | plain x =>
      cases hwaits : (ShopPhase.plain x).waits with
      | none =>
        have hstep : shopStep C cal plans i s (.plain x) (.buy a) =
            ({ s with till := (buyStep cal plans i s.till x a).1 },
              .plain (buyStep cal plans i s.till x a).2) := by
          simp only [shopStep, hwaits]
        rw [hstep]
        exact .buys x _ a _ (buyStep_move cal plans i s.till x a)
      | some p =>
        cases x with
        | begun q =>
          simp only [ShopPhase.waits] at hwaits
          split at hwaits
          · rename_i he
            obtain rfl := Option.some.inj hwaits
            cases a with
            | lockUser =>
              have hstep : shopStep C cal plans i s (.plain (.begun q)) (.buy .lockUser) =
                  lockWallet plans i s q := by
                simp only [shopStep, ShopPhase.waits, if_pos he]
              rw [hstep]
              exact lockWallet_move (he ▸ rfl)
            | _ => exact .buys _ _ _ _ (buyStep_move cal plans i s.till (.begun q) _)
          · cases hwaits
        | _ => cases hwaits
    | paid x c => exact paidStep_move
    | holding p quota | checked p quota hasPrior enabled =>
      cases a with
      | rollback => exact .aborts _ _
      | _ => exact .stay _ _

/-! ## The invariant -/

/-- What a balance purchase was charged, and what that made of the wallet. -/
structure Debited (C : Pricing) (plans : Int → SubscriptionPlan) (x : Sale) : Prop where
  price : x.price =
    effectiveSubscriptionPrice C (planFor plans x.planId) x.hasPrior x.discountEnabled
  /-- the ceiling of the price in quota -/
  charged : x.charged = if x.price ≤ 0 then 0 else ⌈x.price * C.quotaPerUnit⌉
  /-- the wallet is debited by it, and not below zero -/
  wallet : ∃ q, x.before = some q ∧ x.after = some (q - x.charged) ∧
    (x.charged ≠ 0 → 0 ≤ q - x.charged)

def NoSale (plans : Int → SubscriptionPlan) (s : Shop) (u : Int) : Prop :=
  ∀ x ∈ s.sales, x.userId = u → x.discounted plans = false

def discountedSales (plans : Int → SubscriptionPlan) (s : Shop) (u : Int) : List Sale :=
  s.sales.filter fun x => x.userId = u ∧ x.discounted plans = true

/-- The assertion about the shop. -/
structure Booked (C : Pricing) (plans : Int → SubscriptionPlan) (s : Shop) : Prop where
  ids : Ids s.till.db
  rows : ∀ x ∈ s.sales, x.discounted plans = true → HasRow s.till.db x.userId
  once : ∀ u, (discountedSales plans s u).length ≤ 1
  debited : ∀ x ∈ s.sales, Debited C plans x

/-- The assertion about transaction `i`. -/
def Ok (C : Pricing) (plans : Int → SubscriptionPlan) (s : Shop) (i : Nat) : ShopPhase → Prop
  | .plain x => (∀ u, x.holds = some u → s.till.userLocks u = some i) ∧ Origin s.till.db x
  | .holding p quota => p.entry.locksUser ∧ s.till.userLocks p.userId = some i ∧
      s.wallet p.userId = some quota
  | .checked p quota hasPrior enabled => p.entry.locksUser ∧
      s.till.userLocks p.userId = some i ∧ s.wallet p.userId = some quota ∧
      (discounts (planFor plans p.planId) hasPrior enabled = true → NoSale plans s p.userId)
  | .paid x c => x.isPast = true ∧ (∀ u, x.holds = some u → s.till.userLocks u = some i) ∧
      Origin s.till.db x ∧ ∀ p, x.purchase = some p → p.entry.locksUser ∧ Charged C plans s p c ∧
        (discounts (planFor plans p.planId) c.hasPrior c.discountEnabled = true →
          NoSale plans s p.userId)

/-- What a step of another transaction leaves to `j`. -/
structure Leaves (j : Nat) (s s' : Shop) : Prop where
  locks : ∀ u, s.till.userLocks u = some j → s'.till.userLocks u = some j
  wallet : ∀ u, s.till.userLocks u = some j → s'.wallet u = s.wallet u
  sales : ∀ u, s.till.userLocks u = some j → ∀ x ∈ s'.sales, x.userId = u → x ∈ s.sales
  rows : Kept s.till.db s'.till.db

theorem Leaves.noSale (h : Leaves j s s') (hlock : s.till.userLocks u = some j)
    (hno : NoSale plans s u) : NoSale plans s' u :=
  fun x hx hu => hno x (h.sales u hlock x hx hu) hu

theorem Leaves.charged (h : Leaves j s s') {c : Charge}
    (hlock : s.till.userLocks p.userId = some j) (hc : Charged C plans s p c) :
    Charged C plans s' p c := by
  refine ⟨hc.price, hc.required, ?_⟩
  rw [h.wallet p.userId hlock]
  exact hc.wallet

theorem Ok.leaves (hok : Ok C plans s j phase) (h : Leaves j s s') : Ok C plans s' j phase := by
  cases phase with
  | plain x => exact ⟨fun u hu => h.locks u (hok.1 u hu), h.rows.origin hok.2⟩
  | holding p quota =>
    obtain ⟨he, hlock, hquota⟩ := hok
    exact ⟨he, h.locks _ hlock, (h.wallet _ hlock).trans hquota⟩
  | checked p quota hasPrior enabled =>
    obtain ⟨he, hlock, hquota, hno⟩ := hok
    exact ⟨he, h.locks _ hlock, (h.wallet _ hlock).trans hquota,
      fun hdisc => h.noSale hlock (hno hdisc)⟩
  | paid x c =>
    obtain ⟨hpast, hlocks, horigin, hpurchase⟩ := hok
    refine ⟨hpast, fun u hu => h.locks u (hlocks u hu), h.rows.origin horigin, fun p hp => ?_⟩
    obtain ⟨he, hc, hno⟩ := hpurchase p hp
    have hlock := hlocks p.userId (BuyPhase.holds_of_purchase hpast hp he)
    exact ⟨he, h.charged hlock hc, fun hdisc => h.noSale hlock (hno hdisc)⟩

theorem Ok.locked_of_window (hok : Ok C plans s i (.paid x c))
    (hwin : x.window = some p) : p.entry.locksUser ∧ s.till.userLocks p.userId = some i ∧
      Charged C plans s p c ∧
      (discounts (planFor plans p.planId) c.hasPrior c.discountEnabled = true →
        NoSale plans s p.userId) := by
  obtain ⟨hpast, hlocks, -, hpurchase⟩ := hok
  have hp := BuyPhase.purchase_of_window hwin
  obtain ⟨he, hc, hno⟩ := hpurchase p hp
  exact ⟨he, hlocks p.userId (BuyPhase.holds_of_purchase hpast hp he), hc, hno⟩

theorem leaves_till {t' : Till}
    (hlocks : ∀ u, s.till.userLocks u = some j → t'.userLocks u = some j)
    (hrows : Kept s.till.db t'.db) : Leaves j s { s with till := t' } :=
  ⟨hlocks, fun _ _ => rfl, fun _ _ _ hx _ => hx, hrows⟩

/-- **What a step leaves to the others.** -/
theorem ShopMove.leaves (hm : ShopMove C plans i s phase b s' phase') (hids : Ids s.till.db)
    (hok : Ok C plans s i phase) (hij : j ≠ i) : Leaves j s s' := by
  cases hm with
  | stay | checks | charges => exact leaves_till (fun u hu => hu) (Kept.refl _)
  | buys x x' a t' hm =>
    exact leaves_till (fun u hu => hm.locks_other hij hu) (hm.kept hids hok.2)
  | holds p quota he hquota hfree =>
    exact leaves_till (fun u hu => some_of_update_free hfree hu) (Kept.refl _)
  | aborts => exact leaves_till (LocksKept.release s.till s.till.db hij).user (Kept.refl _)
  | pays x x' c a t' hm =>
    exact leaves_till (fun u hu => hm.locks_other hij hu) (hm.kept hids hok.2.2.1)
  | sells x c a t' p row hm hwin hrow =>
    -- the sale is of the user whose row `i` has locked
    have hlock := (hok.locked_of_window hwin).2.1
    have hother : ∀ u, s.till.userLocks u = some j → u ≠ p.userId := by
      rintro u hu rfl
      exact hij (Option.some.inj (hu.symm.trans hlock))
    refine ⟨fun u hu => hm.locks_other hij hu, fun u hu => ?_, fun u hu x hx hxu => ?_,
      hm.kept hids hok.2.2.1⟩
    · show walletAfter s p c u = s.wallet u
      unfold walletAfter
      split
      · exact update_of_ne (hother u hu) _ _
      · rfl
    rcases List.mem_cons.1 hx with rfl | hx
    · exact absurd hxu.symm (hother u hu)
    · exact hx
  | wallet _ u quota hfree =>
    refine ⟨fun u hu => hu, fun v hv => ?_, fun _ _ _ hx _ => hx, Kept.refl _⟩
    refine update_of_ne ?_ _ _
    rintro rfl
    rw [hfree] at hv
    cases hv

theorem calcSubscriptionBalanceQuota_eq {price : ℚ} {required : Int}
    (h : calcSubscriptionBalanceQuota C price = some required) :
    required = (if price ≤ 0 then 0 else ⌈price * C.quotaPerUnit⌉) ∧ 0 ≤ required := by
  unfold calcSubscriptionBalanceQuota at h
  by_cases hfree : price ≤ 0
  · rw [if_pos hfree] at h
    obtain rfl := Option.some.inj h
    exact ⟨(if_pos hfree).symm, le_rfl⟩
  rw [if_neg hfree] at h
  by_cases hunit : C.quotaPerUnit ≤ 0
  · rw [if_pos hunit] at h
    cases h
  rw [if_neg hunit] at h
  have hceil : 0 ≤ ⌈price * C.quotaPerUnit⌉ :=
    Int.ceil_nonneg (mul_nonneg (not_le.1 hfree).le (not_le.1 hunit).le)
  have hround : Realtime.roundHalfAway (⌈price * C.quotaPerUnit⌉ : ℚ) =
      ⌈price * C.quotaPerUnit⌉ := by
    rw [Realtime.roundHalfAway, if_pos (Int.cast_nonneg hceil), Int.floor_intCast_add]
    norm_num
  unfold Payment.walletQuotaFromDecimalStrict at h
  rw [hround] at h
  split at h
  · cases h
  · obtain rfl := Option.some.inj h
    exact ⟨(if_neg hfree).symm, hceil⟩

theorem debited_saleOf (hc : Charged C plans s p c) : Debited C plans (saleOf s p c) := by
  refine ⟨hc.price, (calcSubscriptionBalanceQuota_eq hc.required).1, ?_⟩
  obtain ⟨q, hq, hleft⟩ := hc.wallet
  have hnonneg := (calcSubscriptionBalanceQuota_eq hc.required).2
  show ∃ q, s.wallet p.userId = some q ∧ walletAfter s p c p.userId = some (q - c.required) ∧
    (c.required ≠ 0 → 0 ≤ q - c.required)
  unfold walletAfter
  by_cases hpos : 0 < c.required
  · obtain ⟨henough, hleft⟩ := hleft hpos
    rw [if_pos hpos, update_self, hleft]
    exact ⟨q, hq, rfl, fun _ => by omega⟩
  have hzero : c.required = 0 := by omega
  rw [if_neg hpos, hzero]
  exact ⟨q, hq, by rw [hq, sub_zero], fun hne => absurd rfl hne⟩

/-- **A step keeps the shop in order, and the transaction's own assertion.** -/
theorem ShopMove.self (hm : ShopMove C plans i s phase b s' phase') (h : Booked C plans s)
    (hok : Ok C plans s i phase) : Booked C plans s' ∧ Ok C plans s' i phase' := by
  -- what does not sell keeps the shop in order if it keeps the rows
  have hsame : ∀ t' : Till, Ids t'.db → Kept s.till.db t'.db →
      Booked C plans { s with till := t' } := fun t' hids hkept =>
    ⟨hids, fun x hx hdisc => hkept.hasRow (h.rows x hx hdisc), h.once, h.debited⟩
  cases hm with
  | stay => exact ⟨h, hok⟩
  | buys x x' a t' hm =>
    exact ⟨hsame t' (hm.ids h.ids) (hm.kept h.ids hok.2),
      fun u hu => hm.locks_self hok.1 hu, hm.origin h.ids hok.2⟩
  | holds p quota he hquota hfree =>
    exact ⟨hsame _ h.ids (Kept.refl _), he, update_self _ _ _, hquota⟩
  | aborts => exact ⟨hsame _ h.ids (Kept.refl _), fun u hu => (by cases hu), trivial⟩
  | checks p quota hasPrior enabled hnone =>
    obtain ⟨he, hlock, hquota⟩ := hok
    refine ⟨h, he, hlock, hquota, fun hdisc x hx hu => ?_⟩
    by_contra hsale
    exact hnone hdisc (hu ▸ h.rows x hx (Bool.eq_true_of_not_eq_false hsale))
  | charges p quota c hc =>
    obtain ⟨he, hlock, -, hno⟩ := hok
    refine ⟨h, rfl, fun u hu => ?_, trivial, fun q hq => ?_⟩
    · obtain rfl : p.userId = u := Option.some.inj hu
      exact hlock
    · obtain rfl : p = q := Option.some.inj hq
      exact ⟨he, hc, hno⟩
  | pays x x' c a t' hm =>
    obtain ⟨hpast, hlocks, horigin, hpurchase⟩ := hok
    obtain ⟨hpast', hsub⟩ := hm.isPast hpast
    exact ⟨hsame t' (hm.ids h.ids) (hm.kept h.ids horigin), hpast',
      fun u hu => hm.locks_self hlocks hu, hm.origin h.ids horigin, fun p hp => by
        obtain ⟨he, hc, hno⟩ := hpurchase p (hsub p hp)
        exact ⟨he, ⟨hc.price, hc.required, hc.wallet⟩, hno⟩⟩
  | sells x c a t' p row hm hwin hrow =>
    obtain ⟨-, -, hc, hno⟩ := hok.locked_of_window hwin
    have hkept := hm.kept h.ids hok.2.2.1
    refine ⟨⟨hm.ids h.ids, fun x hx hdisc => ?_, fun u => ?_, fun x hx => ?_⟩, rfl,
      fun u hu => (by cases hu), trivial, fun q hq => (by cases hq)⟩
    · rcases List.mem_cons.1 hx with rfl | hx
      · exact hrow hok.2.2.1
      · exact hkept.hasRow (h.rows x hx hdisc)
    · -- the first discounted sale of the user, or none
      show ((saleOf s p c :: s.sales).filter fun x =>
        x.userId = u ∧ x.discounted plans = true).length ≤ 1
      rw [List.filter_cons]
      by_cases hnew : (saleOf s p c).userId = u ∧ (saleOf s p c).discounted plans = true
      · obtain ⟨rfl, hdisc⟩ := hnew
        have hnone : (s.sales.filter fun x =>
            x.userId = (saleOf s p c).userId ∧ x.discounted plans = true) = [] := by
          refine List.filter_eq_nil_iff.2 fun x hx hboth => ?_
          obtain ⟨hu, hsale⟩ := of_decide_eq_true hboth
          rw [hno hdisc x hx hu] at hsale
          cases hsale
        rw [hnone]
        split <;> simp
      · rw [if_neg (fun h => hnew (of_decide_eq_true h))]
        exact h.once u
    rcases List.mem_cons.1 hx with rfl | hx
    · exact debited_saleOf hc
    · exact h.debited x hx
  | wallet _ u quota hfree =>
    refine ⟨⟨h.ids, h.rows, h.once, h.debited⟩, ?_⟩
    have hleaves : Leaves i s { s with wallet := Function.update s.wallet u (some quota) } := by
      refine ⟨fun u hu => hu, fun v hv => ?_, fun _ _ _ hx _ => hx, Kept.refl _⟩
      refine update_of_ne ?_ _ _
      rintro rfl
      rw [hfree] at hv
      cases hv
    exact hok.leaves hleaves

def ShopInv (C : Pricing) (plans : Int → SubscriptionPlan) : Workers Shop Nat ShopPhase → Prop :=
  Workers.Holds (Booked C plans) (Ok C plans)

theorem ShopInv.step {w : Workers Shop Nat ShopPhase} (h : ShopInv C plans w)
    (a : Nat × ShopAction) : ShopInv C plans (w.step (shopStep C cal plans) a) := by
  obtain ⟨i, b⟩ := a
  have hm : ShopMove C plans i w.shared (w.proc i) b _ _ := shopStep_move cal b
  exact Workers.Holds.step h i b (hm.self h.1 (h.2 i)) fun j hij hj =>
    hj.leaves (hm.leaves h.1.ids (h.2 i) hij)

/-! ## The first purchase -/

variable (plans)

/-- A balance purchase of the user that will be discounted, and is not at its end. -/
def ShopPhase.seeksDiscount (u : Int) : ShopPhase → Prop
  | .checked p _ hasPrior enabled =>
    p.userId = u ∧ discounts (planFor plans p.planId) hasPrior enabled = true
  | .paid x c => ∃ p, x.purchase = some p ∧ p.userId = u ∧
      discounts (planFor plans p.planId) c.hasPrior c.discountEnabled = true
  | _ => False

/-- No redemption commits a new row of a user between the check of a discounted
    purchase of that user and its end. -/
def Undisturbed (w : Workers Shop Nat ShopPhase) : Nat × ShopAction → Prop
  | (i, .buy .commit) => ∀ p now, w.proc i = .plain (.counted p now) → p.entry = .redeem →
      ∀ j, ¬ (w.proc j).seeksDiscount plans p.userId
  | _ => True

def First (w : Workers Shop Nat ShopPhase) : Prop :=
  (∀ x ∈ w.shared.sales, x.discounted plans = true → x.priors = 0) ∧
    ∀ i u, (w.proc i).seeksDiscount plans u → ¬ HasRow w.shared.till.db u

variable {plans}

theorem Ok.locked_of_seeks (hok : Ok C plans s i phase)
    (h : phase.seeksDiscount plans u) : s.till.userLocks u = some i := by
  cases phase with
  | plain x | holding p quota => exact h.elim
  | checked p quota hasPrior enabled =>
    obtain ⟨rfl, -⟩ := h
    exact hok.2.1
  | paid x c =>
    obtain ⟨hpast, hlocks, -, hpurchase⟩ := hok
    obtain ⟨p, hp, rfl, -⟩ := h
    exact hlocks p.userId (BuyPhase.holds_of_purchase hpast hp (hpurchase p hp).1)

section
variable (hm : ShopMove C plans i s phase b s' phase')
include hm

theorem ShopMove.hasRow (hok : Ok C plans s i phase) (h : HasRow s'.till.db u) :
    HasRow s.till.db u ∨ ¬ phase'.seeksDiscount plans u ∧ (s.till.userLocks u = some i ∨
      b = .buy .commit ∧ ∃ p now, phase = .plain (.counted p now) ∧ p.entry = .redeem ∧
        p.userId = u) := by
  cases hm with
  | buys x x' a t' hm =>
    rcases hm.hasRow hok.2 h with hold | ⟨rfl, -, p, now, rfl, rfl⟩
    · exact .inl hold
    refine .inr ⟨fun hseek => hseek, ?_⟩
    by_cases he : p.entry.locksUser
    · exact .inl (hok.1 p.userId (if_pos he))
    refine .inr ⟨rfl, p, now, rfl, ?_, rfl⟩
    by_contra hne
    exact he (Entry.locksUser_of_ne hne)
  | pays x x' c a t' hm =>
    rcases hm.hasRow hok.2.2.1 h with hold | ⟨rfl, hdone, p, now, rfl, rfl⟩
    · exact .inl hold
    refine .inr ⟨fun ⟨q, hq, _⟩ => ?_, .inl ?_⟩
    · rw [hdone] at hq
      cases hq
    · obtain ⟨hpast, hlocks, -, hpurchase⟩ := hok
      exact hlocks p.userId (if_pos (hpurchase p rfl).1)
  | sells x c a t' p row hm hwin hrow =>
    rcases hm.hasRow hok.2.2.1 h with hold | ⟨rfl, hdone, q, now, rfl, rfl⟩
    · exact .inl hold
    refine .inr ⟨fun ⟨_, hp, _⟩ => (by cases hp), .inl ?_⟩
    obtain ⟨hpast, hlocks, -, hpurchase⟩ := hok
    exact hlocks q.userId (if_pos (hpurchase q rfl).1)
  | _ => exact .inl h

theorem ShopMove.seeks (hok : Ok C plans s i phase) (h : phase'.seeksDiscount plans u) : phase.seeksDiscount plans u ∨ ¬ HasRow s'.till.db u := by
  cases hm with
  | stay | wallet => exact .inl h
  | buys | holds | aborts => exact h.elim
  | checks p quota hasPrior enabled hnone =>
    obtain ⟨rfl, hdisc⟩ := h
    exact .inr (hnone hdisc)
  | charges p quota c hc =>
    obtain ⟨q, hq, rfl, hdisc⟩ := h
    obtain rfl : p = q := Option.some.inj hq
    exact .inl ⟨rfl, hdisc⟩
  | pays x x' c a t' hm =>
    obtain ⟨p, hp, hu, hdisc⟩ := h
    exact .inl ⟨p, (hm.isPast hok.1).2 p hp, hu, hdisc⟩
  | sells =>
    obtain ⟨p, hp, -⟩ := h
    cases hp

theorem ShopMove.sales {x : Sale} (hx : x ∈ s'.sales) : x ∈ s.sales ∨ (x.discounted plans = true →
      phase.seeksDiscount plans x.userId ∧
        x.priors = (s.till.db.rows.filter fun r => r.userId = x.userId).length) := by
  cases hm with
  | sells y c a t' p row hm hwin hrow =>
    rcases List.mem_cons.1 hx with rfl | hx
    · exact .inr fun hdisc =>
        ⟨⟨p, BuyPhase.purchase_of_window hwin, rfl, hdisc⟩, rfl⟩
    · exact .inl hx
  | _ => exact .inl hx

end

theorem First.step {w : Workers Shop Nat ShopPhase} (h : First plans w) (hinv : ShopInv C plans w)
    {a : Nat × ShopAction} (hclean : Undisturbed plans w a) :
    First plans (w.step (shopStep C cal plans) a) := by
  obtain ⟨i, b⟩ := a
  have hm : ShopMove C plans i w.shared (w.proc i) b _ _ := shopStep_move cal b
  have hok := hinv.2 i
  refine ⟨fun x hx hdisc => ?_, fun j u hseek hrow => ?_⟩
  · rcases hm.sales hx with hold | hnew
    · exact h.1 x hold hdisc
    obtain ⟨hseek, hpriors⟩ := hnew hdisc
    have hnone : (w.shared.till.db.rows.filter fun r => r.userId = x.userId) = [] := by
      refine List.filter_eq_nil_iff.2 fun r hr hu => ?_
      exact h.2 i x.userId hseek ⟨r, hr, of_decide_eq_true hu⟩
    rw [hpriors, hnone]
    rfl
  by_cases hji : j = i
  · subst hji
    rw [Workers.step_proc_self] at hseek
    rcases hm.seeks hok hseek with hold | hnone
    · rcases hm.hasRow hok hrow with hbefore | ⟨hended, -⟩
      · exact h.2 j u hold hbefore
      · exact hended hseek
    · exact hnone hrow
  rw [Workers.step_proc_of_ne _ _ hji] at hseek
  have hlock := (hinv.2 j).locked_of_seeks hseek
  rcases hm.hasRow hok hrow with hbefore | ⟨-, hmine | ⟨rfl, p, now, hp, hentry, rfl⟩⟩
  · exact h.2 j u hseek hbefore
  · exact hji (Option.some.inj (hlock.symm.trans hmine))
  · exact hclean p now hp hentry j hseek

/-! ## Runs -/

def openedShop (db : Db) (wallet : Int → Option Int) : Workers Shop Nat ShopPhase :=
  ⟨{ till := { db }, wallet }, fun _ => .plain .idle⟩

theorem shopInv_opened (hids : Ids db) (wallet : Int → Option Int) :
    ShopInv C plans (openedShop db wallet) := by
  refine ⟨⟨hids, fun x hx => absurd hx List.not_mem_nil, fun u => Nat.zero_le _,
    fun x hx => absurd hx List.not_mem_nil⟩, fun i => ⟨fun u hu => ?_, trivial⟩⟩
  cases hu

theorem first_opened (db : Db) (wallet : Int → Option Int) : First plans (openedShop db wallet) :=
  ⟨fun _ hx => absurd hx List.not_mem_nil, fun _ _ h => h.elim⟩

/-- The discount is granted once, every balance purchase is debited exactly, and
    what is discounted had no row before it. -/
structure DiscountOnce (C : Pricing) (plans : Int → SubscriptionPlan) (s : Shop) : Prop where
  once : ∀ u, (discountedSales plans s u).length ≤ 1
  debited : ∀ x ∈ s.sales, Debited C plans x
  first : ∀ x ∈ s.sales, x.discounted plans = true → x.priors = 0

/-- **Undisturbed runs grant the discount to first purchases only**; that it is
    granted once and that the wallets are debited exactly holds in every run. -/
theorem undisturbed_runs_discount_once (C : Pricing) (cal : Calendar)
    (plans : Int → SubscriptionPlan) {db : Db} (hids : Ids db) (wallet : Int → Option Int)
    (as : List (Nat × ShopAction)) : (∀ u, (discountedSales plans
        (run (Workers.step (shopStep C cal plans)) (openedShop db wallet) as).shared u).length ≤ 1) ∧
      (∀ x ∈ (run (Workers.step (shopStep C cal plans)) (openedShop db wallet) as).shared.sales,
        Debited C plans x) ∧
      (Meets (Undisturbed plans) (Workers.step (shopStep C cal plans)) (openedShop db wallet) as →
        DiscountOnce C plans
          (run (Workers.step (shopStep C cal plans)) (openedShop db wallet) as).shared) := by
  have hinv : ShopInv C plans
      (run (Workers.step (shopStep C cal plans)) (openedShop db wallet) as) :=
    run_invariant (ShopInv C plans) (C := fun _ _ => True) (fun w a h _ => h.step a)
      (shopInv_opened hids wallet) (meets_of_forall fun _ _ => trivial)
  refine ⟨hinv.1.once, hinv.1.debited, fun hclean => ?_⟩
  have hfirst := run_invariant (fun w => ShopInv C plans w ∧ First plans w)
    (fun w a h hc => ⟨h.1.step a, h.2.step h.1 hc⟩)
    ⟨shopInv_opened hids wallet, first_opened db wallet⟩ hclean
  exact ⟨hinv.1.once, hinv.1.debited, hfirst.2.1⟩

def exactPricing : Pricing where
  factor pct := 1 - pct / 100
  inexactFloat64 d := d
  quotaPerUnit := 500000

/-- Plan 1 costs 10 with a fifth off the first purchase; plan 2 is given away. -/
def discountPlans (id : Int) : SubscriptionPlan :=
  if id = 1 then { id, priceAmount := 10, firstPurchaseDiscountPercent := 20, customSeconds := 1000 }
  else { id, customSeconds := 1000 }

def buysAlone : List (Nat × ShopAction) :=
  [(0, .buy (.call ⟨.purchaseSubscriptionWithBalance, 7, 1⟩)), (0, .buy .lockUser),
    (0, .check true), (0, .charge), (0, .buy .lookUp), (0, .buy .count), (0, .buy .commit)]

def ShopPhase.isPaid : ShopPhase → Bool
  | .paid _ _ => true
  | _ => false

theorem buysAlone_discounted : DiscountOnce exactPricing discountPlans
      (run (Workers.step (shopStep exactPricing flatCalendar discountPlans))
        (openedShop (Db.empty 100) fun _ => some 6000000) buysAlone).shared :=
  (undisturbed_runs_discount_once exactPricing flatCalendar discountPlans
    (show Ids (Db.empty 100) from ⟨fun _ hr => absurd hr List.not_mem_nil, List.nodup_nil⟩)
    (fun _ => some 6000000) buysAlone).2.2
    ⟨trivial, trivial, trivial, trivial, trivial, trivial, fun p now hp _ => by
      have hplain : ShopPhase.isPaid _ = false := congrArg ShopPhase.isPaid hp
      exact absurd hplain (by decide +kernel), trivial⟩

/-- User 7 redeems a code for plan 2 between the look for rows and the commit. -/
def redeemsMeanwhile : List (Nat × ShopAction) :=
  [(0, .buy (.call ⟨.purchaseSubscriptionWithBalance, 7, 1⟩)), (0, .buy .lockUser),
    (0, .check true),
    (1, .buy (.call ⟨.redeem, 7, 2⟩)), (1, .buy .lookUp), (1, .buy .count), (1, .buy .commit),
    (0, .charge), (0, .buy .lookUp), (0, .buy .count), (0, .buy .commit)]

/-- **A redemption slips between the check and the commit** of a purchase, which
    is then discounted with a row before it. -/
theorem redeemed_meanwhile_discounted :
    ∃ x ∈ (run (Workers.step (shopStep exactPricing flatCalendar discountPlans))
        (openedShop (Db.empty 100) fun _ => some 6000000) redeemsMeanwhile).shared.sales,
      x.discounted discountPlans = true ∧ x.price = 8 ∧ x.priors = 1 := by
  decide +kernel

end NewApi.Subscription
