/-
  NewApi.Payment.Order

  Top-up orders (`model/topup.go`) and everything that moves one out of
  `pending`: the completion callbacks of the five payment providers, the
  administrator's `ManualCompleteTopUp`, `UpdatePendingTopUpStatus`, and
  Stripe's `sessionAsyncPaymentFailed`.

  All but the last are one transaction that locks the order row before it looks
  at the status, so they take effect one at a time and are one step here.
  `sessionAsyncPaymentFailed` reads the order, checks it and saves it back
  without a row lock; the mutex it holds is local to one process.  It is two
  steps, and other instances may move in between.

  The six completions differ in the provider they accept, in whether a repeated
  call is an error, and in the formula that turns the order into quota.  They
  are members of one family, `Completion`.
-/

import NewApi.Lib.Run
import NewApi.Payment.Wallet

namespace NewApi.Payment

open Function (update_of_ne update_self)
open NewApi.Lib

/-! ## Orders -/

inductive PaymentProvider where
  | epay
  | stripe
  | creem
  | waffo
  | waffoPancake
  | other (name : String)
deriving DecidableEq

/-- `TopUpStatusPending` and the others; the column is a plain string. -/
inductive TopUpStatus where
  | pending
  | success
  | failed
  | expired
  | other (text : String)
deriving DecidableEq

/-- The columns of an order that no call changes. -/
structure Terms where
  userId : Int
  amount : Int
  money : ℚ
  paymentProvider : PaymentProvider

structure TopUp extends Terms where
  paymentMethod : String := ""
  status : TopUpStatus := .pending

/-- A credit that a completion made: for which order, to whom, at which
    `QuotaPerUnit`, and how much. -/
structure Credit where
  tradeNo : String
  userId : Int
  quotaPerUnit : ℚ
  amount : Int

/-- The tables, the setting `QuotaPerUnit`, and the copies that running
    `sessionAsyncPaymentFailed` handlers hold.  `credits` and `otherChanges`
    are histories: nothing reads them. -/
structure Desk where
  orders : String → Option TopUp
  users : Users
  quotaPerUnit : ℚ
  failing : Nat → Option (String × TopUp) := fun _ => none
  credits : List Credit := []
  otherChanges : Int → Int := fun _ => 0

/-- `tx.Save(topUp)` -/
def Desk.save (d : Desk) (tradeNo : String) (order : TopUp) : Desk :=
  { d with orders := Function.update d.orders tradeNo (some order) }

/-! ## Completions -/

/-- `Amount * QuotaPerUnit` -/
def amountInUnits (quotaPerUnit : ℚ) (o : Terms) : Option Int :=
  walletQuotaFromDecimalStrict (o.amount * quotaPerUnit)

/-- `Money * QuotaPerUnit` -/
def moneyInUnits (quotaPerUnit : ℚ) (o : Terms) : Option Int :=
  walletQuotaFromDecimalStrict (o.money * quotaPerUnit)

/-- `Amount` itself. -/
def amountAsQuota (_ : ℚ) (o : Terms) : Option Int :=
  walletQuotaFromDecimalStrict o.amount

/-- What tells one completion from another. -/
structure Completion where
  /-- the only provider it accepts, if it checks -/
  provider : Option PaymentProvider
  /-- an order that is already `success` is answered with success -/
  repeatable : Bool
  quotaOf : ℚ → Terms → Option Int
  paymentMethod : TopUp → String := fun o => o.paymentMethod
  updates : User → User := fun user => user
  /-- the error the caller sees -/
  report : TopUpErr → TopUpErr := fun e => e

/-- The transaction of a completion.  The flag says that the order had been
    completed before. -/
def completeTx (c : Completion) (d : Desk) (tradeNo : String) : Except TopUpErr (Bool × Desk) :=
  match d.orders tradeNo with
  | none => .error .notFound
  | some topUp =>
    if c.provider.any (· ≠ topUp.paymentProvider) then .error .paymentMethodMismatch
    else if c.repeatable ∧ topUp.status = .success then .ok (true, d)
    else if topUp.status ≠ .pending then .error .statusInvalid
    else match c.quotaOf d.quotaPerUnit topUp.toTerms with
    | none => .error .invalidQuota
    | some quotaToAdd =>
      if quotaToAdd ≤ 0 then .error .invalidQuota
      else match creditTopUpQuota d.users topUp.userId quotaToAdd c.updates with
      | .error e => .error e
      | .ok users =>
        .ok (false,
          { d.save tradeNo
              { topUp with paymentMethod := c.paymentMethod topUp, status := .success } with
            users
            credits := d.credits ++
              [⟨tradeNo, topUp.userId, d.quotaPerUnit, quotaToAdd⟩] })

/-- A completion call.  `fails` says that a statement of the transaction or its
    commit fails, which rolls it back. -/
def complete (c : Completion) (d : Desk) (tradeNo : String) (fails : Bool) :
    Except TopUpErr Bool × Desk :=
  if tradeNo = "" then (.error .emptyTradeNo, d)
  else if fails then (.error (c.report .database), d)
  else match completeTx c d tradeNo with
  | .error e => (.error (c.report e), d)
  | .ok (alreadyDone, d') => (.ok alreadyDone, d')

def epayCompletion (actualPaymentMethod : String) : Completion where
  provider := some .epay
  repeatable := true
  quotaOf := amountInUnits
  paymentMethod o :=
    if actualPaymentMethod ≠ "" ∧ o.paymentMethod ≠ actualPaymentMethod then actualPaymentMethod
    else o.paymentMethod

def stripeCompletion (customerId : String) : Completion where
  provider := some .stripe
  repeatable := false
  quotaOf := moneyInUnits
  updates user := { user with stripeCustomer := customerId }
  report _ := .rechargeFailed

def creemCompletion (customerEmail : String) : Completion where
  provider := some .creem
  repeatable := false
  quotaOf := amountAsQuota
  updates user :=
    if customerEmail ≠ "" ∧ user.email = "" then { user with email := customerEmail } else user
  report _ := .rechargeFailed

def waffoCompletion : Completion where
  provider := some .waffo
  repeatable := true
  quotaOf := amountInUnits
  report _ := .rechargeFailed

def waffoPancakeCompletion : Completion where
  provider := some .waffoPancake
  repeatable := true
  quotaOf := amountInUnits
  report _ := .rechargeFailed

/-- The manual completion: any provider, and one exception to `Amount * QuotaPerUnit`. -/
def manualCompletion : Completion where
  provider := none
  repeatable := true
  quotaOf q o := if o.paymentProvider = .stripe then moneyInUnits q o else amountInUnits q o

def rechargeEpay (d : Desk) (tradeNo actualPaymentMethod : String) (fails : Bool) :
    Except TopUpErr Bool × Desk :=
  complete (epayCompletion actualPaymentMethod) d tradeNo fails

/-- `Recharge`, the completion of Stripe orders. -/
def recharge (d : Desk) (referenceId customerId : String) (fails : Bool) :
    Except TopUpErr Bool × Desk :=
  complete (stripeCompletion customerId) d referenceId fails

def rechargeCreem (d : Desk) (referenceId customerEmail : String) (fails : Bool) :
    Except TopUpErr Bool × Desk :=
  complete (creemCompletion customerEmail) d referenceId fails

def rechargeWaffo (d : Desk) (tradeNo : String) (fails : Bool) : Except TopUpErr Bool × Desk :=
  complete waffoCompletion d tradeNo fails

def rechargeWaffoPancake (d : Desk) (tradeNo : String) (fails : Bool) :
    Except TopUpErr Bool × Desk :=
  complete waffoPancakeCompletion d tradeNo fails

def manualCompleteTopUp (d : Desk) (tradeNo : String) (fails : Bool) :
    Except TopUpErr Bool × Desk :=
  complete manualCompletion d tradeNo fails

/-! ## The other calls -/

/-- `UpdatePendingTopUpStatus`; `none` stands for an empty
    `expectedPaymentProvider`. -/
def updatePendingTopUpStatus (d : Desk) (tradeNo : String)
    (expectedPaymentProvider : Option PaymentProvider) (targetStatus : TopUpStatus)
    (fails : Bool) : Except TopUpErr Unit × Desk :=
  if tradeNo = "" then (.error .emptyTradeNo, d)
  else if fails then (.error .database, d)
  else match d.orders tradeNo with
  | none => (.error .notFound, d)
  | some topUp =>
    if expectedPaymentProvider.any (· ≠ topUp.paymentProvider) then
      (.error .paymentMethodMismatch, d)
    else if topUp.status ≠ .pending then (.error .statusInvalid, d)
    else (.ok (), d.save tradeNo { topUp with status := targetStatus })

/-- `sessionAsyncPaymentFailed` up to its checks: handler `h` holds a copy of a
    pending Stripe order. -/
def readAsyncPaymentFailed (d : Desk) (h : Nat) (referenceId : String) : Desk :=
  if referenceId = "" then d
  else match d.orders referenceId with
  | none => d
  | some topUp =>
    if topUp.paymentProvider ≠ .stripe then d
    else if topUp.status ≠ .pending then d
    else { d with failing := Function.update d.failing h (some (referenceId, topUp)) }

/-- `topUp.Update()` at its end: the whole copy is saved, with status `failed`. -/
def saveAsyncPaymentFailed (d : Desk) (h : Nat) (fails : Bool) : Desk :=
  match d.failing h with
  | none => d
  | some (referenceId, topUp) =>
    let d := { d with failing := Function.update d.failing h none }
    if fails then d else d.save referenceId { topUp with status := .failed }

inductive TopUpAction where
  | epay (tradeNo actualPaymentMethod : String) (fails : Bool)
  | stripe (referenceId customerId : String) (fails : Bool)
  | creem (referenceId customerEmail : String) (fails : Bool)
  | waffo (tradeNo : String) (fails : Bool)
  | waffoPancake (tradeNo : String) (fails : Bool)
  | manual (tradeNo : String) (fails : Bool)
  | updatePending (tradeNo : String) (expectedPaymentProvider : Option PaymentProvider)
      (targetStatus : TopUpStatus) (fails : Bool)
  | readAsyncFailed (h : Nat) (referenceId : String)
  | saveAsyncFailed (h : Nat) (fails : Bool)
  /-- the administrator changes the setting -/
  | setQuotaPerUnit (q : ℚ)
  /-- any other change of a balance -/
  | otherChange (userId delta : Int)

def Desk.change (d : Desk) (u delta : Int) : Desk :=
  match d.users u with
  | none => d
  | some user =>
    { d with
      users := Function.update d.users u (some { user with quota := user.quota + delta })
      otherChanges := Function.update d.otherChanges u (d.otherChanges u + delta) }

def topUpStep (d : Desk) : TopUpAction → Desk
  | .epay t m fails => (rechargeEpay d t m fails).2
  | .stripe t c fails => (recharge d t c fails).2
  | .creem t e fails => (rechargeCreem d t e fails).2
  | .waffo t fails => (rechargeWaffo d t fails).2
  | .waffoPancake t fails => (rechargeWaffoPancake d t fails).2
  | .manual t fails => (manualCompleteTopUp d t fails).2
  | .updatePending t p target fails => (updatePendingTopUpStatus d t p target fails).2
  | .readAsyncFailed h t => readAsyncPaymentFailed d h t
  | .saveAsyncFailed h fails => saveAsyncPaymentFailed d h fails
  | .setQuotaPerUnit q => { d with quotaPerUnit := q }
  | .otherChange u delta => d.change u delta

/-! ## What one step does to an order -/

/-- **A completion, by outcome.**  It leaves everything as it was, or it found a
    pending order it accepts, credited the user and closed the order. -/
theorem complete_cases (c : Completion) (d : Desk) (tradeNo : String) (fails : Bool) :
    (complete c d tradeNo fails).2 = d ∨
    ∃ topUp quota users, d.orders tradeNo = some topUp ∧ topUp.status = .pending ∧
      (∀ p, c.provider = some p → topUp.paymentProvider = p) ∧
      c.quotaOf d.quotaPerUnit topUp.toTerms = some quota ∧
      creditTopUpQuota d.users topUp.userId quota c.updates = .ok users ∧
      (complete c d tradeNo fails).2 = { d.save tradeNo
            { topUp with paymentMethod := c.paymentMethod topUp, status := .success } with
          users
          credits := d.credits ++ [⟨tradeNo, topUp.userId, d.quotaPerUnit, quota⟩] } := by
  unfold complete
  split
  · exact .inl rfl
  split
  · exact .inl rfl
  unfold completeTx
  cases horder : d.orders tradeNo with
  | none => exact .inl rfl
  | some topUp =>
    simp only
    split_ifs with hprov hdone hpend
    · exact .inl rfl
    · exact .inl rfl
    · exact .inl rfl
    cases hquota : c.quotaOf d.quotaPerUnit topUp.toTerms with
    | none => exact .inl rfl
    | some quota =>
      simp only
      split_ifs with hpos
      · exact .inl rfl
      cases hcredit : creditTopUpQuota d.users topUp.userId quota c.updates with
      | error e => exact .inl rfl
      | ok users =>
        refine .inr ⟨topUp, quota, users, rfl, not_not.1 hpend, ?_, hquota, hcredit, rfl⟩
        intro p hp
        by_contra hne
        exact hprov (by simpa [hp] using Ne.symm hne)

theorem updatePendingTopUpStatus_cases (d : Desk) (tradeNo : String)
    (p : Option PaymentProvider) (target : TopUpStatus) (fails : Bool) :
    (updatePendingTopUpStatus d tradeNo p target fails).2 = d ∨
    ∃ topUp, d.orders tradeNo = some topUp ∧ topUp.status = .pending ∧
      (updatePendingTopUpStatus d tradeNo p target fails).2 =
        d.save tradeNo { topUp with status := target } := by
  unfold updatePendingTopUpStatus
  split
  · exact .inl rfl
  split
  · exact .inl rfl
  cases d.orders tradeNo with
  | none => exact .inl rfl
  | some topUp =>
    simp only
    split_ifs with hprov hpend
    · exact .inl rfl
    · exact .inl rfl
    · exact .inr ⟨topUp, rfl, not_not.1 hpend, rfl⟩

theorem readAsyncPaymentFailed_cases (d : Desk) (h : Nat) (referenceId : String) :
    readAsyncPaymentFailed d h referenceId = d ∨
    ∃ topUp, d.orders referenceId = some topUp ∧ readAsyncPaymentFailed d h referenceId =
      { d with failing := Function.update d.failing h (some (referenceId, topUp)) } := by
  unfold readAsyncPaymentFailed
  split
  · exact .inl rfl
  cases d.orders referenceId with
  | none => exact .inl rfl
  | some topUp =>
    simp only
    split_ifs
    · exact .inl rfl
    · exact .inl rfl
    · exact .inr ⟨topUp, rfl, rfl⟩

theorem saveAsyncPaymentFailed_cases (d : Desk) (h : Nat) (fails : Bool) :
    saveAsyncPaymentFailed d h fails = d ∨
    saveAsyncPaymentFailed d h fails = { d with failing := Function.update d.failing h none } ∨
    ∃ referenceId topUp, d.failing h = some (referenceId, topUp) ∧
      saveAsyncPaymentFailed d h fails =
        Desk.save { d with failing := Function.update d.failing h none } referenceId
          { topUp with status := .failed } := by
  unfold saveAsyncPaymentFailed
  cases d.failing h with
  | none => exact .inl rfl
  | some copy =>
    simp only
    split
    · exact .inr (.inl rfl)
    · exact .inr (.inr ⟨copy.1, copy.2, rfl, rfl⟩)

def creditsOf (d : Desk) (t : String) : List Credit := d.credits.filter fun c => c.tradeNo = t

/-- The formula of the provider's own completion. -/
def ownQuota : PaymentProvider → Option (ℚ → Terms → Option Int)
  | .epay => some (epayCompletion "").quotaOf
  | .stripe => some (stripeCompletion "").quotaOf
  | .creem => some (creemCompletion "").quotaOf
  | .waffo => some waffoCompletion.quotaOf
  | .waffoPancake => some waffoPancakeCompletion.quotaOf
  | .other _ => none

/-- What a step can do to order `t`. -/
inductive Moves (t : String) (d d' : Desk) (a : TopUpAction) : Prop where
  | untouched (order : d'.orders t = d.orders t) (credits : creditsOf d' t = creditsOf d t)
  | completed (o o' : TopUp) (amount : Int) (order : d.orders t = some o)
      (pending : o.status = .pending) (order' : d'.orders t = some o')
      (terms : o'.toTerms = o.toTerms) (success : o'.status = .success)
      (credits : creditsOf d' t = creditsOf d t ++ [⟨t, o.userId, d.quotaPerUnit, amount⟩])
      (own : ∀ f, ownQuota o.paymentProvider = some f →
        f d.quotaPerUnit o.toTerms = some amount ∨
        (∃ fails, a = .manual t fails) ∧ o.paymentProvider = .creem ∧
          amountInUnits d.quotaPerUnit o.toTerms = some amount)
  | retired (o : TopUp) (target : TopUpStatus) (order : d.orders t = some o)
      (pending : o.status = .pending) (order' : d'.orders t = some { o with status := target })
      (credits : creditsOf d' t = creditsOf d t)
  | overwritten (h : Nat) (o : TopUp) (fails : Bool) (copy : d.failing h = some (t, o))
      (action : a = .saveAsyncFailed h fails)
      (order' : d'.orders t = some { o with status := .failed })
      (credits : creditsOf d' t = creditsOf d t)

theorem Moves.refl (t : String) (d : Desk) (a : TopUpAction) : Moves t d d a :=
  .untouched rfl rfl

theorem complete_moves (c : Completion) (d : Desk) (tradeNo : String) (fails : Bool)
    (a : TopUpAction) (t : String)
    (hown : ∀ o : Terms, (∀ p, c.provider = some p → o.paymentProvider = p) →
      ∀ f, ownQuota o.paymentProvider = some f → ∀ q, f q o = c.quotaOf q o ∨
        (∃ b, a = .manual tradeNo b) ∧ o.paymentProvider = .creem ∧
          c.quotaOf q o = amountInUnits q o) : Moves t d (complete c d tradeNo fails).2 a := by
  obtain heq | ⟨topUp, quota, users, horder, hpend, hprov, hquota, -, heq⟩ :=
    complete_cases c d tradeNo fails
  · rw [heq]
    exact Moves.refl t d a
  rw [heq]
  by_cases ht : tradeNo = t
  · subst ht
    refine .completed topUp _ quota horder hpend (update_self _ _ _) rfl rfl ?_ ?_
    · simp [creditsOf]
    intro f hf
    obtain hsame | ⟨hman, hcreem, hamount⟩ := hown topUp.toTerms hprov f hf d.quotaPerUnit
    · exact .inl (hsame.trans hquota)
    · exact .inr ⟨hman, hcreem, hamount ▸ hquota⟩
  · refine .untouched (update_of_ne (Ne.symm ht) _ _) ?_
    simp [creditsOf, ht]

theorem providerCompletion_moves {c : Completion} {p : PaymentProvider}
    (hprov : c.provider = some p) (hown : ownQuota p = some c.quotaOf) (d : Desk)
    (tradeNo : String) (fails : Bool) (a : TopUpAction) (t : String) :
    Moves t d (complete c d tradeNo fails).2 a := by
  refine complete_moves c d tradeNo fails a t fun o hp f hf q => .inl ?_
  rw [hp p hprov, hown] at hf
  rw [Option.some.inj hf]

theorem manualCompletion_quotaOf (o : Terms) {f : ℚ → Terms → Option Int}
    (hf : ownQuota o.paymentProvider = some f) (q : ℚ) : f q o = manualCompletion.quotaOf q o ∨
      o.paymentProvider = .creem ∧ manualCompletion.quotaOf q o = amountInUnits q o := by
  have hplain : o.paymentProvider ≠ .stripe →
      manualCompletion.quotaOf q o = amountInUnits q o := fun hne => if_neg hne
  cases hprov : o.paymentProvider with
  | stripe =>
    rw [hprov] at hf
    have hmoney : manualCompletion.quotaOf q o = moneyInUnits q o := if_pos hprov
    rw [hmoney, ← Option.some.inj hf]
    exact .inl rfl
  | creem =>
    refine .inr ⟨rfl, hplain ?_⟩
    rw [hprov]
    nofun
  | other name =>
    rw [hprov] at hf
    cases hf
  | _ =>
    rw [hprov] at hf
    rw [hplain (by rw [hprov]; nofun), ← Option.some.inj hf]
    exact .inl rfl

theorem saveAsyncPaymentFailed_moves (d : Desk) (h : Nat) (fails : Bool) (t : String) :
    Moves t d (saveAsyncPaymentFailed d h fails) (.saveAsyncFailed h fails) := by
  obtain heq | heq | ⟨referenceId, topUp, hcopy, heq⟩ := saveAsyncPaymentFailed_cases d h fails
  · rw [heq]
    exact Moves.refl t d _
  · rw [heq]
    exact .untouched rfl rfl
  rw [heq]
  by_cases ht : referenceId = t
  · subst ht
    exact .overwritten h topUp fails hcopy rfl (update_self _ _ _) rfl
  · exact .untouched (update_of_ne (Ne.symm ht) _ _) rfl

/-- **What one step can do to an order.** -/
theorem topUpStep_moves (d : Desk) (a : TopUpAction) (t : String) :
    Moves t d (topUpStep d a) a := by
  cases a with
  | epay tradeNo m fails | stripe tradeNo c fails | creem tradeNo e fails | waffo tradeNo fails
  | waffoPancake tradeNo fails => exact providerCompletion_moves rfl rfl d tradeNo fails _ t
  | manual tradeNo fails =>
    refine complete_moves manualCompletion d tradeNo fails _ t fun o _ f hf q => ?_
    exact (manualCompletion_quotaOf o hf q).imp_right fun h => ⟨⟨fails, rfl⟩, h⟩
  | updatePending tradeNo p target fails =>
    show Moves t d (updatePendingTopUpStatus d tradeNo p target fails).2 _
    obtain heq | ⟨topUp, horder, hpend, heq⟩ :=
      updatePendingTopUpStatus_cases d tradeNo p target fails
    · rw [heq]
      exact Moves.refl t d _
    rw [heq]
    by_cases ht : tradeNo = t
    · subst ht
      exact .retired topUp target horder hpend (update_self _ _ _) rfl
    · exact .untouched (update_of_ne (Ne.symm ht) _ _) rfl
  | readAsyncFailed h tradeNo =>
    show Moves t d (readAsyncPaymentFailed d h tradeNo) _
    obtain heq | ⟨topUp, -, heq⟩ := readAsyncPaymentFailed_cases d h tradeNo
    · rw [heq]
      exact Moves.refl t d _
    · rw [heq]
      exact .untouched rfl rfl
  | saveAsyncFailed h fails => exact saveAsyncPaymentFailed_moves d h fails t
  | setQuotaPerUnit q => exact .untouched rfl rfl
  | otherChange u delta =>
    show Moves t d (d.change u delta) _
    unfold Desk.change
    split
    · exact Moves.refl t d _
    · exact .untouched rfl rfl

/-! ## Runs -/

/-- A pending order under `t`, no credit made yet, and no handler underway. -/
structure Opened (d : Desk) (t : String) (o : TopUp) : Prop where
  order : d.orders t = some o
  pending : o.status = .pending
  fresh : d.credits = []
  calm : ∀ h, d.failing h = none
  unchanged : ∀ u, d.otherChanges u = 0

/-- The order keeps its terms, in the table and in every copy, and a credit was
    made at most once and not while it is pending. -/
structure OnceCredited (terms : Terms) (t : String) (d : Desk) : Prop where
  order : ∃ o, d.orders t = some o ∧ o.toTerms = terms ∧
    (creditsOf d t = [] ∨ (o.status ≠ .pending ∧ ∃ c, creditsOf d t = [c]))
  copies : ∀ h o, d.failing h = some (t, o) → o.toTerms = terms

theorem topUpStep_failing (d : Desk) (a : TopUpAction) (t : String) (h : Nat) (o : TopUp)
    (hcopy : (topUpStep d a).failing h = some (t, o)) :
    d.failing h = some (t, o) ∨ d.orders t = some o := by
  have hcomplete : ∀ c tradeNo fails, (complete c d tradeNo fails).2.failing = d.failing := by
    intro c tradeNo fails
    obtain heq | ⟨_, _, _, -, -, -, -, -, heq⟩ := complete_cases c d tradeNo fails
    · rw [heq]
    · rw [heq]
      rfl
  have hforget : ∀ h', Function.update d.failing h' none h = some (t, o) →
      d.failing h = some (t, o) := by
    intro h' hupd
    by_cases hh : h = h'
    · subst hh
      simp at hupd
    · simpa [hh] using hupd
  cases a with
  | readAsyncFailed h' tradeNo =>
    change (readAsyncPaymentFailed d h' tradeNo).failing h = some (t, o) at hcopy
    obtain heq | ⟨topUp, horder, heq⟩ := readAsyncPaymentFailed_cases d h' tradeNo
    · rw [heq] at hcopy
      exact .inl hcopy
    rw [heq] at hcopy
    by_cases hh : h = h'
    · subst hh
      obtain ⟨rfl, rfl⟩ : tradeNo = t ∧ topUp = o := by simpa using hcopy
      exact .inr horder
    · exact .inl (by simpa [hh] using hcopy)
  | saveAsyncFailed h' fails =>
    left
    change (saveAsyncPaymentFailed d h' fails).failing h = some (t, o) at hcopy
    obtain heq | heq | ⟨referenceId, topUp, -, heq⟩ := saveAsyncPaymentFailed_cases d h' fails
    · rwa [heq] at hcopy
    · rw [heq] at hcopy
      exact hforget h' hcopy
    · rw [heq] at hcopy
      exact hforget h' hcopy
  | updatePending tradeNo p target fails =>
    left
    change (updatePendingTopUpStatus d tradeNo p target fails).2.failing h = some (t, o) at hcopy
    obtain heq | ⟨topUp, -, -, heq⟩ := updatePendingTopUpStatus_cases d tradeNo p target fails
    · rwa [heq] at hcopy
    · rw [heq] at hcopy
      exact hcopy
  | setQuotaPerUnit q => exact .inl hcopy
  | otherChange u delta =>
    left
    simp only [topUpStep, Desk.change] at hcopy
    split at hcopy
    · exact hcopy
    · exact hcopy
  | _ => exact .inl (hcomplete _ _ _ ▸ hcopy)

theorem topUpStep_onceCredited {terms : Terms} {t : String} (d : Desk) (a : TopUpAction)
    (h : OnceCredited terms t d) : OnceCredited terms t (topUpStep d a) := by
  obtain ⟨o, horder, hterms, hcredits⟩ := h.order
  refine ⟨?_, fun i o' hcopy => ?_⟩
  · cases topUpStep_moves d a t with
    | untouched horder' hsame => exact ⟨o, horder'.trans horder, hterms, by rwa [hsame]⟩
    | completed o₁ o' amount horder₁ hpend horder' hterms' hsucc happ _ =>
      obtain rfl : o = o₁ := Option.some.inj (horder.symm.trans horder₁)
      have hnone : creditsOf d t = [] := hcredits.resolve_right fun hc => hc.1 hpend
      refine ⟨o', horder', hterms'.trans hterms,
        .inr ⟨?_, ⟨t, o.userId, d.quotaPerUnit, amount⟩, ?_⟩⟩
      · rw [hsucc]
        nofun
      · rw [happ, hnone]
        rfl
    | retired o₁ target horder₁ hpend horder' hsame =>
      obtain rfl : o = o₁ := Option.some.inj (horder.symm.trans horder₁)
      have hnone : creditsOf d t = [] := hcredits.resolve_right fun hc => hc.1 hpend
      exact ⟨_, horder', hterms, .inl (hsame.trans hnone)⟩
    | overwritten i o₁ fails hcopy _ horder' hsame =>
      refine ⟨_, horder', h.copies i o₁ hcopy, ?_⟩
      rw [hsame]
      exact hcredits.imp_right fun hc => ⟨nofun, hc.2⟩
  rcases topUpStep_failing d a t i o' hcopy with hold | hread
  · exact h.copies i o' hold
  · rw [← hterms, ← Option.some.inj (horder.symm.trans hread)]

def creditedTo (d : Desk) (u : Int) : Int :=
  ((d.credits.filter fun c => c.userId = u).map Credit.amount).sum

/-- Balances move by the credits and by what else happens, and by nothing more. -/
def Balanced (users₀ : Users) (d : Desk) : Prop :=
  ∀ u, balance d.users u = balance users₀ u + d.otherChanges u + creditedTo d u

theorem Balanced.congr {users₀ : Users} {d d' : Desk} (h : Balanced users₀ d)
    (husers : d'.users = d.users) (hothers : d'.otherChanges = d.otherChanges)
    (hcredits : d'.credits = d.credits) : Balanced users₀ d' := by
  intro u
  rw [creditedTo, husers, hothers, hcredits]
  exact h u

theorem complete_balanced {users₀ : Users} {d : Desk} (h : Balanced users₀ d) (c : Completion)
    (tradeNo : String) (fails : Bool) : Balanced users₀ (complete c d tradeNo fails).2 := by
  obtain heq | ⟨topUp, quota, users, -, -, -, -, hcredit, heq⟩ := complete_cases c d tradeNo fails
  · rw [heq]
    exact h
  rw [heq]
  intro u
  have hbal := balance_creditTopUpQuota hcredit u
  have hold := h u
  simp only [creditedTo] at hold ⊢
  show balance users u = balance users₀ u + d.otherChanges u + _
  rw [hbal, hold, List.filter_append, List.map_append, List.sum_append]
  by_cases hu : topUp.userId = u
  · simp [hu, add_assoc]
  · simp [hu]

theorem topUpStep_balanced {users₀ : Users} (d : Desk) (a : TopUpAction)
    (h : Balanced users₀ d) : Balanced users₀ (topUpStep d a) := by
  cases a with
  | updatePending tradeNo p target fails =>
    show Balanced users₀ (updatePendingTopUpStatus d tradeNo p target fails).2
    obtain heq | ⟨topUp, -, -, heq⟩ := updatePendingTopUpStatus_cases d tradeNo p target fails
    · rwa [heq]
    · rw [heq]
      exact h.congr rfl rfl rfl
  | readAsyncFailed i tradeNo =>
    show Balanced users₀ (readAsyncPaymentFailed d i tradeNo)
    obtain heq | ⟨topUp, -, heq⟩ := readAsyncPaymentFailed_cases d i tradeNo
    · rwa [heq]
    · rw [heq]
      exact h.congr rfl rfl rfl
  | saveAsyncFailed i fails =>
    show Balanced users₀ (saveAsyncPaymentFailed d i fails)
    obtain heq | heq | ⟨referenceId, topUp, -, heq⟩ := saveAsyncPaymentFailed_cases d i fails
    · rwa [heq]
    · rw [heq]
      exact h.congr rfl rfl rfl
    · rw [heq]
      exact h.congr rfl rfl rfl
  | setQuotaPerUnit q => exact h.congr rfl rfl rfl
  | otherChange u delta =>
    show Balanced users₀ (d.change u delta)
    unfold Desk.change
    cases huser : d.users u with
    | none => exact h
    | some user =>
      intro v
      have hold := h v
      simp only [creditedTo] at hold ⊢
      by_cases hv : v = u
      · subst hv
        simp only [balance, huser] at hold
        simp only [balance, update_self]
        omega
      · simpa [balance, update_of_ne hv] using hold
  | _ => exact complete_balanced h _ _ _

/-- The calls under which order `t` has one outcome: a manual completion of a
    pending Creem order does not convert the amount a second time, and the late
    save of `sessionAsyncPaymentFailed` finds the order still pending. -/
def Settles (t : String) (d : Desk) : TopUpAction → Prop
  | .manual tradeNo _ => tradeNo = t → ∀ o, d.orders t = some o → o.status = .pending →
      o.paymentProvider = .creem →
      amountInUnits d.quotaPerUnit o.toTerms = amountAsQuota d.quotaPerUnit o.toTerms
  | .saveAsyncFailed h _ => ∀ o, d.failing h = some (t, o) →
      ∃ o', d.orders t = some o' ∧ o'.status = .pending
  | _ => True

/-- `success`, `failed` or `expired`. -/
def TopUpStatus.Final : TopUpStatus → Prop
  | .success => True
  | .failed => True
  | .expired => True
  | _ => False

theorem topUpStep_final {t : String} {d : Desk} {a : TopUpAction} (hset : Settles t d a)
    {o : TopUp} (horder : d.orders t = some o) (hfinal : o.status.Final) :
    ∃ o', (topUpStep d a).orders t = some o' ∧ o'.status = o.status := by
  have hne : o.status ≠ .pending := by
    intro hp
    rw [hp] at hfinal
    exact hfinal
  cases topUpStep_moves d a t with
  | untouched horder' _ => exact ⟨o, horder'.trans horder, rfl⟩
  | completed o₁ o' amount horder₁ hpend | retired o₁ target horder₁ hpend =>
    obtain rfl : o = o₁ := Option.some.inj (horder.symm.trans horder₁)
    exact absurd hpend hne
  | overwritten i o₁ fails hcopy haction =>
    subst haction
    obtain ⟨o', horder', hpend⟩ := hset o₁ hcopy
    obtain rfl : o = o' := Option.some.inj (horder.symm.trans horder')
    exact absurd hpend hne

theorem run_final {t : String} {d : Desk} {as : List TopUpAction}
    (hset : Meets (Settles t) topUpStep d as) {o : TopUp} (horder : d.orders t = some o)
    (hfinal : o.status.Final) :
    ∃ o', (run topUpStep d as).orders t = some o' ∧ o'.status = o.status := by
  induction as generalizing d o with
  | nil => exact ⟨o, horder, rfl⟩
  | cons a as ih =>
    obtain ⟨o₁, horder₁, hsame⟩ := topUpStep_final hset.1 horder hfinal
    obtain ⟨o₂, horder₂, hsame₂⟩ := ih hset.2 horder₁ (hsame ▸ hfinal)
    exact ⟨o₂, horder₂, hsame₂.trans hsame⟩

/-- Every credit for the order is what the provider's own completion gives. -/
def OwnAmount (terms : Terms) (t : String) (d : Desk) : Prop :=
  ∀ c ∈ creditsOf d t, ∀ f, ownQuota terms.paymentProvider = some f →
    f c.quotaPerUnit terms = some c.amount

theorem topUpStep_ownAmount {terms : Terms} {t : String} (d : Desk) (a : TopUpAction)
    (h : OnceCredited terms t d ∧ OwnAmount terms t d) (hset : Settles t d a) :
    OnceCredited terms t (topUpStep d a) ∧ OwnAmount terms t (topUpStep d a) := by
  obtain ⟨hone, hown⟩ := h
  refine ⟨topUpStep_onceCredited d a hone, ?_⟩
  unfold OwnAmount at hown ⊢
  cases topUpStep_moves d a t with
  | untouched _ hsame | retired _ _ _ _ _ hsame | overwritten _ _ _ _ _ _ hsame => rwa [hsame]
  | completed o o' amount horder hpend _ _ _ happ hamount =>
    obtain ⟨o₁, horder₁, rfl, -⟩ := hone.order
    obtain rfl : o = o₁ := Option.some.inj (horder.symm.trans horder₁)
    intro c hc f hf
    rw [happ, List.mem_append, List.mem_singleton] at hc
    rcases hc with hold | rfl
    · exact hown c hold f hf
    rcases hamount f hf with hsame | ⟨⟨fails, rfl⟩, hcreem, hunits⟩
    · exact hsame
    have hconv := hset rfl o horder hpend hcreem
    rw [hcreem] at hf
    rw [← Option.some.inj hf]
    exact hconv.symm.trans hunits

/-- **Top-up orders.**  In every run an order is credited at most once, and
    balances move by the credits only.  In every run that settles the order
    properly a final status stays, and what was credited is what the provider's
    own completion gives. -/
theorem topUp_settles {d : Desk} {t : String} {o : TopUp} (h : Opened d t o)
    (as : List TopUpAction) :
    ((creditsOf (run topUpStep d as) t).length ≤ 1 ∧ Balanced d.users (run topUpStep d as)) ∧
    (Meets (Settles t) topUpStep d as →
      (∀ n o', (run topUpStep d (as.take n)).orders t = some o' → o'.status.Final →
        ∃ o'', (run topUpStep d as).orders t = some o'' ∧ o''.status = o'.status) ∧
      OwnAmount o.toTerms t (run topUpStep d as)) := by
  have hnone : creditsOf d t = [] := by rw [creditsOf, h.fresh]; rfl
  have hone : OnceCredited o.toTerms t d := by
    refine ⟨⟨o, h.order, rfl, .inl hnone⟩, fun i o' hcopy => ?_⟩
    rw [h.calm i] at hcopy
    cases hcopy
  have hbal : Balanced d.users d := by
    intro u
    rw [h.unchanged u, creditedTo, h.fresh]
    simp
  refine ⟨⟨?_, run_invariant_all _ topUpStep_balanced as hbal⟩, fun hset => ⟨?_, ?_⟩⟩
  · obtain ⟨o', -, -, hnil | ⟨-, c, hc⟩⟩ :=
      (run_invariant_all _ topUpStep_onceCredited as hone).order
    · rw [hnil]
      exact Nat.zero_le 1
    · rw [hc]
      exact le_rfl
  · intro n o' horder hfinal
    have hrest : Meets (Settles t) topUpStep (run topUpStep d (as.take n)) (as.drop n) :=
      (meets_append.1 (by rwa [List.take_append_drop])).2
    obtain ⟨o'', horder'', hsame⟩ := run_final hrest horder hfinal
    rw [← run_append, List.take_append_drop] at horder''
    exact ⟨o'', horder'', hsame⟩
  have hown : OwnAmount o.toTerms t d := by
    intro c hc
    rw [hnone] at hc
    cases hc
  exact (run_invariant _ topUpStep_ownAmount ⟨hone, hown⟩ hset).2

/-- One order under `"t"` for user 1, at 500000 quota per unit. -/
def deskWith (o : TopUp) : Desk where
  orders := Function.update (fun _ => none) "t" (some o)
  users := fun u => if u = 1 then some { quota := 7 } else none
  quotaPerUnit := 500000

theorem opened_deskWith {o : TopUp} (h : o.status = .pending) : Opened (deskWith o) "t" o :=
  ⟨by simp [deskWith], h, rfl, fun _ => rfl, fun _ => rfl⟩

def epayOrder : TopUp := { userId := 1, amount := 10, money := 73, paymentProvider := .epay }
def stripeOrder : TopUp := { userId := 1, amount := 10, money := 8, paymentProvider := .stripe }
def creemOrder : TopUp := { userId := 1, amount := 100000, money := 5, paymentProvider := .creem }

/-- An epay order whose callback arrives twice around a manual completion. -/
theorem topUp_settles_epay : (creditsOf (run topUpStep (deskWith epayOrder)
      [.epay "t" "alipay" false, .manual "t" false, .epay "t" "alipay" false]) "t").length ≤ 1 ∧
    OwnAmount epayOrder.toTerms "t" (run topUpStep (deskWith epayOrder)
      [.epay "t" "alipay" false, .manual "t" false, .epay "t" "alipay" false]) ∧
    balance (run topUpStep (deskWith epayOrder)
      [.epay "t" "alipay" false, .manual "t" false, .epay "t" "alipay" false]).users 1 =
        5000007 := by
  have h := topUp_settles (opened_deskWith (o := epayOrder) rfl)
    [.epay "t" "alipay" false, .manual "t" false, .epay "t" "alipay" false]
  refine ⟨h.1.1, (h.2 ⟨trivial, fun _ o ho hp => ?_, trivial, trivial⟩).2, by decide +kernel⟩
  have hdone : ((topUpStep (deskWith epayOrder) (.epay "t" "alipay" false)).orders "t").map
      TopUp.status = some .success := by decide +kernel
  rw [ho] at hdone
  cases hp.symm.trans (Option.some.inj hdone)

/-- A Creem order for 100000 quota is worth 500000 times as much when it is
    completed by hand; and a late payment failure takes a completed Stripe order
    out of `success`. -/
theorem creemByHand_and_lateFailure :
    (balance (run topUpStep (deskWith creemOrder) [.creem "t" "" false]).users 1 = 100007 ∧
      balance (run topUpStep (deskWith creemOrder) [.manual "t" false]).users 1 = 50000000007) ∧
    ((run topUpStep (deskWith stripeOrder)
        [.readAsyncFailed 0 "t", .manual "t" false]).orders "t").map TopUp.status = some .success ∧
    ((run topUpStep (deskWith stripeOrder)
        [.readAsyncFailed 0 "t", .manual "t" false, .saveAsyncFailed 0 false]).orders "t").map
      TopUp.status = some .failed := by
  decide +kernel

end NewApi.Payment
