/-
  NewApi.Payment.Wallet

  The wallet column `users.quota` and the one statement that top-ups and
  redemptions credit it with (`creditTopUpQuota`): the increment and the ceiling
  are one conditional update, so what was read before it does not matter.

  `walletQuotaFromDecimalStrict` turns an amount of money into a credit.  The
  values are exact decimals in the source and rationals here; a rounded value
  within the limit has at most 53 bits, so the float64 it passes through is
  exact.
-/

import NewApi.Billing.Funding
import NewApi.Realtime.Price

namespace NewApi.Payment

open Billing Realtime

/-- The columns of `User` that the top-up paths read and write. -/
structure User where
  quota : Int
  email : String := ""
  stripeCustomer : String := ""

/-- Errors of the top-up paths. -/
inductive TopUpErr where
  /-- `"未提供支付单号"`, `"未提供订单号"` -/
  | emptyTradeNo
  /-- `ErrTopUpNotFound`, `"充值订单不存在"` -/
  | notFound
  /-- `ErrPaymentMethodMismatch` -/
  | paymentMethodMismatch
  /-- `ErrTopUpStatusInvalid`, `"充值订单状态错误"`, `"订单状态不是待支付，无法补单"` -/
  | statusInvalid
  /-- `ErrInvalidTopUpQuota` -/
  | invalidQuota
  /-- `ErrTopUpQuotaLimitExceeded` -/
  | quotaLimitExceeded
  /-- `gorm.ErrRecordNotFound` -/
  | recordNotFound
  /-- `"充值失败，请稍后重试"` -/
  | rechargeFailed
  /-- a statement that failed, with its transaction rolled back -/
  | database

/-- The `users` table. -/
abbrev Users := Int → Option User

/-- `WalletQuotaFromDecimalStrict`; `none` is the `*QuotaClamp` error. -/
def walletQuotaFromDecimalStrict (d : ℚ) : Option Int :=
  if maxWalletQuota < roundHalfAway d ∨ roundHalfAway d < -maxWalletQuota then none
  else some (roundHalfAway d)

def topUpQuotaMaxCurrent (creditedQuota : Int) : Except TopUpErr Int :=
  if creditedQuota ≤ 0 ∨ maxWalletQuota < creditedQuota then .error .invalidQuota
  else .ok (maxWalletQuota - creditedQuota)

/-- `creditTopUpQuota`.  `updates` stands for the other columns the same
    statement sets. -/
def creditTopUpQuota (users : Users) (userId creditedQuota : Int) (updates : User → User) :
    Except TopUpErr Users :=
  match topUpQuotaMaxCurrent creditedQuota with
  | .error e => .error e
  | .ok maxCurrentQuota =>
    match users userId with
    | none => .error .recordNotFound
    | some user =>
      if user.quota ≤ maxCurrentQuota then
        .ok (Function.update users userId
          (some { updates user with quota := user.quota + creditedQuota }))
      else .error .quotaLimitExceeded

/-- **A credit that goes through**, with all it needed. -/
theorem creditTopUpQuota_ok {users users' : Users} {userId credited : Int} {updates : User → User}
    (h : creditTopUpQuota users userId credited updates = .ok users') :
    ∃ user, users userId = some user ∧ 0 < credited ∧ user.quota + credited ≤ maxWalletQuota ∧
      users' = Function.update users userId
        (some { updates user with quota := user.quota + credited }) := by
  unfold creditTopUpQuota topUpQuotaMaxCurrent at h
  by_cases hbad : credited ≤ 0 ∨ maxWalletQuota < credited
  · rw [if_pos hbad] at h
    cases h
  rw [if_neg hbad] at h
  cases huser : users userId with
  | none =>
    rw [huser] at h
    cases h
  | some user =>
    rw [huser] at h
    simp only at h
    by_cases hle : user.quota ≤ maxWalletQuota - credited
    · rw [if_pos hle] at h
      have hpos : 0 < credited := by omega
      exact ⟨user, rfl, hpos, by omega, (Except.ok.inj h).symm⟩
    · rw [if_neg hle] at h
      cases h

def balance (users : Users) (u : Int) : Int :=
  match users u with
  | none => 0
  | some user => user.quota

theorem balance_creditTopUpQuota {users users' : Users} {userId credited : Int}
    {updates : User → User} (h : creditTopUpQuota users userId credited updates = .ok users')
    (u : Int) : balance users' u = balance users u + if userId = u then credited else 0 := by
  obtain ⟨user, huser, -, -, rfl⟩ := creditTopUpQuota_ok h
  by_cases hu : userId = u
  · subst hu
    simp [balance, huser]
  · simp [balance, Function.update_of_ne (Ne.symm hu), hu]

end NewApi.Payment
