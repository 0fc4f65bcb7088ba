/-
  NewApi.Billing.Funding

  The three balances a relay request is paid from, and the quota functions of
  `model/user.go`, `model/token.go`, `model/quota_reserve.go` and
  `service/funding_source.go` that move them.

  `wallet` and `token` are the balances of record: the row's column plus the
  deltas queued for it (`NewApi.Quota.Reserve` takes the two apart).  The rows
  of the session's user and token are there.

  A reservation is answered by one of two stores, the Redis hash or the row
  itself; `StepIn.cached` is the balance the hash holds when it is the one to
  answer.  `StepIn.fail` says that the statement errors.  In batch mode an
  unconditional delta is only queued and cannot fail.
-/

import NewApi.Subscription.Refund

namespace NewApi.Billing

open Subscription

/-- The settings the quota functions read: `BatchUpdateEnabled` and
    `GetTrustQuota()`. -/
structure Config where
  batchUpdateEnabled : Bool
  trustQuota : Int

/-- `MaxWalletQuota = 1<<53 - 1` -/
def maxWalletQuota : Int := 2 ^ 53 - 1

/-- The stores behind one request. -/
@[ext] structure Stores where
  wallet : Int
  token : Int
  subs : SubStore

/-- What one statement meets. -/
structure StepIn where
  fail : Bool := false
  cached : Option Int := none

/-! ## Quota functions -/

/-- The conditional debit behind `TryReserveUserQuota` and
    `TryReserveTokenQuota`: check and deduct in one statement.  The answer
    comes with the balance after it. -/
def tryReserve (bal quota : Int) (i : StepIn) : Except Err Bool × Int :=
  if quota < 0 then (.error .negativeQuota, bal)
  else if quota = 0 then (.ok true, bal)
  else if i.fail then (.error .database, bal)
  else if quota ≤ i.cached.getD bal then (.ok true, bal - quota)
  else (.ok false, bal)

variable (cfg : Config)

/-- The unconditional delta behind `DecreaseUserQuota`, `DecreaseTokenQuota`
    and `IncreaseTokenQuota`: `sign` is `-1` or `1`. -/
def applyQuota (sign bal quota : Int) (fail : Bool) : Except Err Unit × Int :=
  if quota < 0 then (.error .negativeQuota, bal)
  else if cfg.batchUpdateEnabled then (.ok (), bal + sign * quota)
  else if fail then (.error .database, bal)
  else (.ok (), bal + sign * quota)

def tryReserveUserQuota (wallet quota : Int) (i : StepIn) : Except Err Bool × Int :=
  tryReserve wallet quota i

/-- `DecreaseUserQuota(id, quota, false)` -/
def decreaseUserQuota (wallet quota : Int) (fail : Bool) : Except Err Unit × Int :=
  applyQuota cfg (-1) wallet quota fail

/-- `IncreaseUserQuota(id, quota, false)`.  Unlike its siblings it has a
    ceiling: on the amount always, on the balance in the direct mode only. -/
def increaseUserQuota (wallet quota : Int) (fail : Bool) : Except Err Unit × Int :=
  if quota < 0 then (.error .negativeQuota, wallet)
  else if maxWalletQuota < quota then (.error .walletLimit, wallet)
  else if cfg.batchUpdateEnabled then (.ok (), wallet + quota)
  else if fail then (.error .database, wallet)
  else if wallet ≤ maxWalletQuota - quota then (.ok (), wallet + quota)
  else (.error .walletLimit, wallet)

def decreaseTokenQuota (token quota : Int) (fail : Bool) : Except Err Unit × Int :=
  applyQuota cfg (-1) token quota fail

def increaseTokenQuota (token quota : Int) (fail : Bool) : Except Err Unit × Int :=
  applyQuota cfg 1 token quota fail

/-- `TryReserveTokenQuota`: an unlimited token skips the check, not the debit. -/
def tryReserveTokenQuota (token quota : Int) (unlimited : Bool) (i : StepIn) :
    Except Err Bool × Int :=
  if quota < 0 then (.error .negativeQuota, token)
  else if quota = 0 then (.ok true, token)
  else if unlimited then
    match decreaseTokenQuota cfg token quota i.fail with
    | (.error e, t) => (.error e, t)
    | (.ok (), t) => (.ok true, t)
  else tryReserve token quota i

def preConsumeTokenQuota (isPlayground tokenUnlimited : Bool)
    (token quota : Int) (i : StepIn) : Except Err Unit × Int :=
  if quota < 0 then (.error .negativeQuota, token)
  else if isPlayground then (.ok (), token)
  else match tryReserveTokenQuota cfg token quota tokenUnlimited i with
  | (.error e, t) => (.error e, t)
  | (.ok false, t) => (.error .insufficientToken, t)
  | (.ok true, t) => (.ok (), t)

theorem tryReserve_cases (bal quota : Int) (i : StepIn) :
    (∃ e, tryReserve bal quota i = (.error e, bal)) ∨
    tryReserve bal quota i = (.ok false, bal) ∨
    (0 ≤ quota ∧ tryReserve bal quota i = (.ok true, bal - quota)) := by
  unfold tryReserve
  by_cases hneg : quota < 0
  · exact .inl ⟨_, if_pos hneg⟩
  rw [if_neg hneg]
  by_cases h0 : quota = 0
  · refine .inr (.inr ⟨by omega, ?_⟩)
    rw [if_pos h0, h0, sub_zero]
  rw [if_neg h0]
  by_cases hf : i.fail
  · exact .inl ⟨_, if_pos hf⟩
  rw [if_neg hf]
  by_cases hle : quota ≤ i.cached.getD bal
  · exact .inr (.inr ⟨by omega, if_pos hle⟩)
  · exact .inr (.inl (if_neg hle))

theorem applyQuota_cases (sign bal quota : Int) (fail : Bool) :
    (∃ e, applyQuota cfg sign bal quota fail = (.error e, bal)) ∨
    (0 ≤ quota ∧ applyQuota cfg sign bal quota fail = (.ok (), bal + sign * quota)) := by
  unfold applyQuota
  by_cases hneg : quota < 0
  · exact .inl ⟨_, if_pos hneg⟩
  rw [if_neg hneg]
  by_cases hb : cfg.batchUpdateEnabled
  · exact .inr ⟨by omega, if_pos hb⟩
  rw [if_neg hb]
  by_cases hf : fail
  · exact .inl ⟨_, if_pos hf⟩
  · exact .inr ⟨by omega, if_neg hf⟩

theorem increaseTokenQuota_ok {cfg : Config} {token quota : Int} (hq : 0 ≤ quota) :
    increaseTokenQuota cfg token quota false = (.ok (), token + quota) := by
  unfold increaseTokenQuota applyQuota
  rw [if_neg (by omega : ¬ quota < 0), one_mul]
  simp

theorem increaseUserQuota_cases (wallet quota : Int) (fail : Bool) :
    (∃ e, increaseUserQuota cfg wallet quota fail = (.error e, wallet)) ∨
    increaseUserQuota cfg wallet quota fail = (.ok (), wallet + quota) := by
  unfold increaseUserQuota
  by_cases hneg : quota < 0
  · exact .inl ⟨_, if_pos hneg⟩
  rw [if_neg hneg]
  by_cases hmax : maxWalletQuota < quota
  · exact .inl ⟨_, if_pos hmax⟩
  rw [if_neg hmax]
  by_cases hb : cfg.batchUpdateEnabled
  · exact .inr (if_pos hb)
  rw [if_neg hb]
  by_cases hf : fail
  · exact .inl ⟨_, if_pos hf⟩
  rw [if_neg hf]
  by_cases hle : wallet ≤ maxWalletQuota - quota
  · exact .inr (if_pos hle)
  · exact .inl ⟨_, if_neg hle⟩

theorem preConsumeTokenQuota_cases (pg unl : Bool) (token quota : Int) (i : StepIn) :
    (∃ e, preConsumeTokenQuota cfg pg unl token quota i = (.error e, token)) ∨
    (0 ≤ quota ∧ preConsumeTokenQuota cfg pg unl token quota i =
      (.ok (), if pg then token else token - quota)) := by
  unfold preConsumeTokenQuota
  by_cases hneg : quota < 0
  · exact .inl ⟨_, if_pos hneg⟩
  rw [if_neg hneg]
  cases pg with
  | true => exact .inr ⟨by omega, rfl⟩
  | false =>
  simp only [Bool.false_eq_true, if_false]
  unfold tryReserveTokenQuota
  rw [if_neg hneg]
  by_cases h0 : quota = 0
  · refine .inr ⟨by omega, ?_⟩
    rw [if_pos h0, h0, sub_zero]
  rw [if_neg h0]
  cases unl with
  | true =>
    rw [if_pos rfl]
    obtain ⟨e, he⟩ | ⟨hq, hok⟩ := applyQuota_cases cfg (-1) token quota i.fail
    · exact .inl ⟨e, by simp only [decreaseTokenQuota, he]⟩
    refine .inr ⟨hq, ?_⟩
    simp only [decreaseTokenQuota, hok, Prod.mk.injEq, true_and]
    omega
  | false =>
    rw [if_neg (by simp)]
    obtain ⟨e, he⟩ | hno | ⟨hq, hok⟩ := tryReserve_cases token quota i
    · exact .inl ⟨e, by simp only [he]⟩
    · exact .inl ⟨.insufficientToken, by simp only [hno]⟩
    · exact .inr ⟨hq, by simp only [hok]⟩

/-! ## Funding sources -/

/-- `SubscriptionFunding`, less the plan texts kept for logs. -/
structure SubscriptionFunding where
  requestId : String
  userId : Int
  amount : Int
  subscriptionId : Int := 0
  preConsumed : Int := 0

/-- `FundingSource`: `WalletFunding`, by what it has consumed, or
    `SubscriptionFunding`. -/
inductive Funding where
  | wallet (consumed : Int)
  | subscription (f : SubscriptionFunding)

/-- What `FundingSource.PreConsume` meets: the wallet reservation, or the
    user's active subscriptions and a failing statement. -/
structure FundingIn where
  wallet : StepIn := {}
  active : List Int := []
  subFail : Bool := false

/-- `WalletFunding.PreConsume`, `SubscriptionFunding.PreConsume` (which ignores
    `amount` and charges its own). -/
def Funding.preConsume (w : Stores) (f : Funding) (amount : Int) (i : FundingIn) :
    Except Err Unit × Funding × Stores :=
  match f with
  | .wallet consumed =>
    if amount ≤ 0 then (.ok (), f, w)
    else match tryReserveUserQuota w.wallet amount i.wallet with
    | (.error e, b) => (.error e, .wallet consumed, { w with wallet := b })
    | (.ok false, b) => (.error .insufficientWallet, .wallet consumed, { w with wallet := b })
    | (.ok true, b) => (.ok (), .wallet amount, { w with wallet := b })
  | .subscription s =>
    match preConsumeUserSubscription w.subs s.requestId s.userId s.amount i.active
        i.subFail with
    | (.error e, st) => (.error e, f, { w with subs := st })
    | (.ok res, st) =>
      (.ok (), .subscription { s with subscriptionId := res.userSubscriptionId,
                                      preConsumed := res.preConsumed },
        { w with subs := st })

def Funding.settle (w : Stores) (f : Funding) (delta : Int) (fail : Bool) :
    Except Err Unit × Stores :=
  if delta = 0 then (.ok (), w)
  else match f with
  | .wallet _ =>
    let (r, b) := if 0 < delta then decreaseUserQuota cfg w.wallet delta fail
      else increaseUserQuota cfg w.wallet (-delta) fail
    (r, { w with wallet := b })
  | .subscription s =>
    let (r, st) := postConsumeUserSubscriptionDelta w.subs s.subscriptionId delta fail
    (r, { w with subs := st })

/-- The funding source once `reserveFunding` went through: a wallet counts the
    delta as consumed. -/
def Funding.reserved (f : Funding) (delta : Int) : Funding :=
  match f with
  | .wallet consumed => .wallet (consumed + delta)
  | .subscription sub => .subscription sub

/-- What `FundingSource.Refund` meets. -/
structure RefundIn where
  walletFail : Bool := false
  attempts : Fin maxAttempts → RefundFault := fun _ => {}

/-- `FundingSource.Refund`: the wallet credit is not idempotent and tried once,
    the subscription refund is retried. -/
def Funding.refund (w : Stores) (f : Funding) (i : RefundIn) : Except Err Unit × Stores :=
  match f with
  | .wallet consumed =>
    if consumed ≤ 0 then (.ok (), w)
    else
      let (r, b) := increaseUserQuota cfg w.wallet consumed i.walletFail
      (r, { w with wallet := b })
  | .subscription s =>
    if s.preConsumed ≤ 0 then (.ok (), w)
    else
      let (r, st) := refundWithRetry w.subs s.requestId i.attempts
      (r, { w with subs := st })

/-! ## What a funding source has given -/

variable (st : SubStore)

/-- The row's `AmountUsed`; zero where there is no row. -/
def used (id : Int) : Int :=
  match st.subs id with
  | some row => row.amountUsed
  | none => 0

/-- The row's `AmountUsed` once a due reset has run. -/
def usedAfterReset (id : Int) : Int :=
  match st.subs id with
  | some row => (maybeReset row).amountUsed
  | none => 0

/-- The side of the ledger a session's charges accumulate on: what is off the
    wallet, or what the subscription row has used. -/
def spent (w : Stores) : Funding → Int
  | .wallet _ => -w.wallet
  | .subscription s => used w.subs s.subscriptionId

/-- `spent` before a session's first charge, which runs a due reset. -/
def spentAfterReset (w : Stores) : Funding → Int
  | .wallet _ => -w.wallet
  | .subscription s => usedAfterReset w.subs s.subscriptionId

theorem used_nonneg (id : Int) : 0 ≤ used st id := by
  unfold used
  split <;> omega

theorem used_setSub (id : Int) (row : UserSubscription) :
    used (st.setSub id row) id = row.amountUsed := by
  simp [used]

@[simp] theorem used_setRecord (rid : String) (r : PreConsumeRecord)
    (id : Int) : used (st.setRecord rid r) id = used st id := rfl

theorem postConsumeUserSubscriptionDelta_used (id delta : Int) (fail : Bool) :
    (∃ e, postConsumeUserSubscriptionDelta st id delta fail = (.error e, st)) ∨
    (∃ st', postConsumeUserSubscriptionDelta st id delta fail = (.ok (), st') ∧
      st'.records = st.records ∧ (∀ row, st.subs id = some row → ∃ row', st'.subs id = some row') ∧
      (0 ≤ used st id + delta → used st' id = used st id + delta)) := by
  obtain ⟨e, he⟩ | ⟨h0, hok⟩ | ⟨row, hrow, -, -, -, -, hok⟩ :=
    postConsumeUserSubscriptionDelta_cases st id delta fail
  · exact .inl ⟨e, he⟩
  · exact .inr ⟨st, hok, rfl, fun row h => ⟨row, h⟩, fun _ => by omega⟩
  refine .inr ⟨_, hok, rfl, fun _ _ => ⟨_, SubStore.setSub_subs_self _ _ _⟩, ?_⟩
  intro hnn
  have hused : used st id = row.amountUsed := by simp only [used, hrow]
  rw [used_setSub, hused]
  rw [hused] at hnn
  simp only [newUsed]
  omega

end NewApi.Billing
