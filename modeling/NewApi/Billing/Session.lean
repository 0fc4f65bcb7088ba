/-
  NewApi.Billing.Session

  `BillingSession` of `service/billing_session.go`: pre-consume, reserve,
  settle and refund over the stores of `NewApi.Billing.Funding`.

  Every funding or token step that can fail takes its own input, so one value
  of `PreConsumeIn`, `ReserveIn`, `SettleIn` or `JobIn` is one combination of
  failing steps.  `Refund` only sets the flag and hands its closure to a
  goroutine; the closure is a `RefundJob`, run by `RefundJob.run` whenever the
  scheduler gets to it.

  The mutex is held over each of `Reserve` and `Settle`, so each is one step.
-/

import NewApi.Billing.Funding

namespace NewApi.Billing

open Subscription

/-- The codes of the errors billing returns. -/
inductive ErrorCode where
  | preConsumeTokenQuotaFailed
  | insufficientUserQuota
  | insufficientQuota
  | updateDataError
  | queryDataError
deriving DecidableEq

/-- The fields of `RelayInfo` (and the context's `token_quota`) that a session
    reads, then those `syncRelayInfo` writes. -/
structure RelayInfo where
  isPlayground : Bool := false
  tokenUnlimited : Bool := false
  forcePreConsume : Bool := false
  userQuota : Int := 0
  tokenQuota : Int := 0
  finalPreConsumedQuota : Int := 0
  subscriptionId : Int := 0
  subscriptionPreConsumed : Int := 0
  subscriptionPostDelta : Int := 0

structure Session where
  relayInfo : RelayInfo
  funding : Funding
  preConsumedQuota : Int := 0
  tokenConsumed : Int := 0
  extraReserved : Int := 0
  trusted : Bool := false
  fundingSettled : Bool := false
  settled : Bool := false
  refunded : Bool := false

namespace Session

variable (s : Session)

def syncRelayInfo : Session :=
  match s.funding with
  | .wallet _ =>
    { s with relayInfo := { s.relayInfo with
        finalPreConsumedQuota := s.preConsumedQuota
        subscriptionId := 0
        subscriptionPreConsumed := 0 } }
  | .subscription sub =>
    { s with relayInfo := { s.relayInfo with
        finalPreConsumedQuota := s.preConsumedQuota
        subscriptionId := sub.subscriptionId
        subscriptionPreConsumed := sub.preConsumed + s.extraReserved
        subscriptionPostDelta := 0 } }

@[simp] theorem syncRelayInfo_funding : s.syncRelayInfo.funding = s.funding := by
  unfold syncRelayInfo
  split <;> rfl

@[simp] theorem syncRelayInfo_preConsumedQuota :
    s.syncRelayInfo.preConsumedQuota = s.preConsumedQuota := by
  unfold syncRelayInfo
  split <;> rfl

@[simp] theorem syncRelayInfo_tokenConsumed : s.syncRelayInfo.tokenConsumed = s.tokenConsumed := by
  unfold syncRelayInfo
  split <;> rfl

@[simp] theorem syncRelayInfo_extraReserved : s.syncRelayInfo.extraReserved = s.extraReserved := by
  unfold syncRelayInfo
  split <;> rfl

@[simp] theorem syncRelayInfo_settled : s.syncRelayInfo.settled = s.settled := by
  unfold syncRelayInfo
  split <;> rfl

@[simp] theorem syncRelayInfo_fundingSettled :
    s.syncRelayInfo.fundingSettled = s.fundingSettled := by
  unfold syncRelayInfo
  split <;> rfl

@[simp] theorem syncRelayInfo_refunded : s.syncRelayInfo.refunded = s.refunded := by
  unfold syncRelayInfo
  split <;> rfl

theorem syncRelayInfo_subscriptionId {s : Session} {sub : SubscriptionFunding}
    (h : s.funding = .subscription sub) :
    s.syncRelayInfo.relayInfo.subscriptionId = sub.subscriptionId := by
  simp only [syncRelayInfo, h]

/-! ## preConsume -/

variable (cfg : Config)

def shouldTrust : Bool :=
  !s.relayInfo.forcePreConsume && 0 < cfg.trustQuota &&
  (s.relayInfo.tokenUnlimited || cfg.trustQuota < s.relayInfo.tokenQuota) &&
  match s.funding with
  | .wallet _ => cfg.trustQuota < s.relayInfo.userQuota
  -- a subscription always charges its own amount, so it is never trusted
  | .subscription _ => false

structure PreConsumeIn where
  token : StepIn := {}
  funding : FundingIn := {}
  /-- the `IncreaseTokenQuota` that compensates a refused funding step fails -/
  rollbackFail : Bool := false

/-- Step 1 of `preConsume`: charge the token. -/
def chargeToken (w : Stores) (s : Session) (quota : Int) (i : StepIn) :
    Except ErrorCode Unit × Session × Stores :=
  if 0 < quota then
    match preConsumeTokenQuota cfg s.relayInfo.isPlayground s.relayInfo.tokenUnlimited
        w.token quota i with
    | (.error _, t) => (.error .preConsumeTokenQuotaFailed, s, { w with token := t })
    | (.ok (), t) => (.ok (), { s with tokenConsumed := quota }, { w with token := t })
  else (.ok (), s, w)

/-- Give the token back after a refused funding step. -/
def rollbackToken (w : Stores) (s : Session) (fail : Bool) : Session × Stores :=
  if 0 < s.tokenConsumed && !s.relayInfo.isPlayground then
    ({ s with tokenConsumed := 0 },
      { w with token := (increaseTokenQuota cfg w.token s.tokenConsumed fail).2 })
  else (s, w)

/-- The code `preConsume` gives a funding error: by sentinel first, then by
    what its text contains.  A driver's own text is taken not to mention
    `quota`. -/
def fundingErrorCode : Err → ErrorCode
  | .insufficientWallet | .noActiveSubscription | .subscriptionInsufficient _ =>
    .insufficientUserQuota
  | .negativeQuota | .walletLimit | .insufficientToken => .insufficientQuota
  | _ => .updateDataError

def effectiveQuota (quota : Int) : Int :=
  if s.shouldTrust cfg then 0 else quota

def preConsume (cfg : Config) (w : Stores) (s : Session) (quota : Int) (i : PreConsumeIn) :
    Except ErrorCode Unit × Session × Stores :=
  let q := s.effectiveQuota cfg quota
  match chargeToken cfg w { s with trusted := s.shouldTrust cfg || s.trusted } q i.token with
  | (.error e, s, w) => (.error e, s, w)
  | (.ok (), s, w) =>
    match s.funding.preConsume w q i.funding with
    | (.error e, f, w) =>
      let (s, w) := rollbackToken cfg w { s with funding := f } i.rollbackFail
      (.error (fundingErrorCode e), s, w)
    | (.ok (), f, w) =>
      (.ok (), ({ s with funding := f, preConsumedQuota := q }).syncRelayInfo, w)

/-! ## Reserve -/

structure ReserveIn where
  fundingFail : Bool := false
  token : StepIn := {}
  rollbackFail : Bool := false

/-- `reserveFunding`: the wallet is debited whether or not it covers the delta. -/
def reserveFunding (w : Stores) (s : Session) (delta : Int) (fail : Bool) :
    Except ErrorCode Unit × Session × Stores :=
  match s.funding with
  | .wallet consumed =>
    match decreaseUserQuota cfg w.wallet delta fail with
    | (.error _, b) => (.error .updateDataError, s, { w with wallet := b })
    | (.ok (), b) =>
      (.ok (), { s with funding := .wallet (consumed + delta) }, { w with wallet := b })
  | .subscription sub =>
    match postConsumeUserSubscriptionDelta w.subs sub.subscriptionId delta fail with
    | (.error _, st) => (.error .insufficientUserQuota, s, { w with subs := st })
    | (.ok (), st) => (.ok (), s, { w with subs := st })

/-- `rollbackFundingReserve`, with the error it only logs. -/
def rollbackFundingReserve (w : Stores) (s : Session) (delta : Int)
    (fail : Bool) : Except Err Unit × Session × Stores :=
  match s.funding with
  | .wallet consumed =>
    match increaseUserQuota cfg w.wallet delta fail with
    | (.error e, b) => (.error e, s, { w with wallet := b })
    | (.ok (), b) =>
      (.ok (), { s with funding := .wallet (consumed - delta) }, { w with wallet := b })
  | .subscription sub =>
    let (r, st) := postConsumeUserSubscriptionDelta w.subs sub.subscriptionId (-delta) fail
    (r, s, { w with subs := st })

def reserveToken (w : Stores) (s : Session) (delta : Int) (i : StepIn) :
    Except ErrorCode Unit × Stores :=
  if delta ≤ 0 || s.relayInfo.isPlayground then (.ok (), w)
  else match preConsumeTokenQuota cfg s.relayInfo.isPlayground s.relayInfo.tokenUnlimited
      w.token delta i with
  | (.error _, t) => (.error .preConsumeTokenQuotaFailed, { w with token := t })
  | (.ok (), t) => (.ok (), { w with token := t })

def reserve (w : Stores) (s : Session) (targetQuota : Int) (i : ReserveIn) :
    Except ErrorCode Unit × Session × Stores :=
  if s.settled || s.refunded || s.trusted || targetQuota ≤ s.preConsumedQuota then
    (.ok (), s, w)
  else
    let delta := targetQuota - s.preConsumedQuota
    match reserveFunding cfg w s delta i.fundingFail with
    | (.error e, s, w) => (.error e, s, w)
    | (.ok (), s, w) =>
      match reserveToken cfg w s delta i.token with
      | (.error e, w) =>
        let (_, s, w) := rollbackFundingReserve cfg w s delta i.rollbackFail
        (.error e, s, w)
      | (.ok (), w) =>
        (.ok (), ({ s with preConsumedQuota := s.preConsumedQuota + delta
                           tokenConsumed := s.tokenConsumed + delta
                           extraReserved := s.extraReserved + delta }).syncRelayInfo, w)

/-! ## Settle -/

structure SettleIn where
  fundingFail : Bool := false
  tokenFail : Bool := false

/-- Step 2 of `Settle`: move the token by the same delta. -/
def settleToken (w : Stores) (s : Session) (delta : Int) (fail : Bool) : Except Err Unit × Stores :=
  if s.relayInfo.isPlayground then (.ok (), w)
  else
    let (r, t) := if 0 < delta then decreaseTokenQuota cfg w.token delta fail
      else increaseTokenQuota cfg w.token (-delta) fail
    (r, { w with token := t })

/-- Step 3 of `Settle`: the delta kept for the log of a subscription. -/
def addPostDelta (delta : Int) : Session :=
  match s.funding with
  | .wallet _ => s
  | .subscription _ =>
    { s with relayInfo := { s.relayInfo with
        subscriptionPostDelta := s.relayInfo.subscriptionPostDelta + delta } }

/-- `Settle`.  It looks at `settled` and `fundingSettled`, not at `refunded`. -/
def settle (cfg : Config) (w : Stores) (s : Session) (actualQuota : Int) (i : SettleIn) :
    Except Err Unit × Session × Stores :=
  if s.settled then (.ok (), s, w)
  else
    let delta := actualQuota - s.preConsumedQuota
    if delta = 0 then (.ok (), { s with settled := true }, w)
    else
      match (if s.fundingSettled then (.ok (), w)
        else s.funding.settle cfg w delta i.fundingFail) with
      | (.error e, w) => (.error e, s, w)
      | (.ok (), w) =>
        let (tokenErr, w) := settleToken cfg w s delta i.tokenFail
        (tokenErr, { s.addPostDelta delta with fundingSettled := true, settled := true }, w)

/-! ## Refund -/

/-- `needsRefundLocked` -/
def needsRefund : Bool :=
  if s.settled || s.refunded || s.fundingSettled then false
  else if 0 < s.tokenConsumed then true
  else match s.funding with
  | .wallet _ => false
  | .subscription sub => 0 < sub.preConsumed

end Session

/-- What `Refund` copies into its closure. -/
structure RefundJob where
  funding : Funding
  isPlayground : Bool
  tokenConsumed : Int
  extraReserved : Int
  subscriptionId : Int

/-- `Refund`: the flag now, the money in the closure. -/
def Session.refund (s : Session) : Session × Option RefundJob :=
  if s.settled || s.refunded || !s.needsRefund then (s, none)
  else ({ s with refunded := true },
    some { funding := s.funding, isPlayground := s.relayInfo.isPlayground,
           tokenConsumed := s.tokenConsumed, extraReserved := s.extraReserved,
           subscriptionId := s.relayInfo.subscriptionId })

structure JobIn where
  refund : RefundIn := {}
  extraFail : Bool := false
  tokenFail : Bool := false

/-- The errors the closure logs, one per part; `none` where the part does not
    apply. -/
structure JobLog where
  funding : Except Err Unit
  extra : Option (Except Err Unit)
  token : Option (Except Err Unit)

/-- The extra reservation of a subscription, which its record does not know of. -/
def RefundJob.refundExtra (w : Stores) (j : RefundJob) (fail : Bool) :
    Option (Except Err Unit) × Stores :=
  match j.funding with
  | .wallet _ => (none, w)
  | .subscription _ =>
    if 0 < j.extraReserved && 0 < j.subscriptionId then
      let (r, st) := postConsumeUserSubscriptionDelta w.subs j.subscriptionId
        (-j.extraReserved) fail
      (some r, { w with subs := st })
    else (none, w)

/-- The closure of `Refund`.  Each part runs whatever the others did. -/
def RefundJob.run (cfg : Config) (w : Stores) (j : RefundJob) (i : JobIn) : JobLog × Stores :=
  let (fundingErr, w) := j.funding.refund cfg w i.refund
  let (extraErr, w) := j.refundExtra w i.extraFail
  if 0 < j.tokenConsumed && !j.isPlayground then
    let (r, t) := increaseTokenQuota cfg w.token j.tokenConsumed i.tokenFail
    (⟨fundingErr, extraErr, some r⟩, { w with token := t })
  else (⟨fundingErr, extraErr, none⟩, w)

/-! ## NewBillingSession -/

/-- The session literal of `tryWallet`. -/
def walletSession (info : RelayInfo) : Session :=
  { relayInfo := info, funding := .wallet 0 }

/-- The session literal of `trySubscription`. -/
def subscriptionSession (info : RelayInfo) (requestId : String) (userId amount : Int) : Session :=
  { relayInfo := info,
    funding := .subscription { requestId := requestId, userId := userId, amount := amount } }

/-- The results of `NormalizeBillingPreference`. -/
inductive BillingPreference where
  | subscriptionOnly
  | walletOnly
  | walletFirst
  | subscriptionFirst

/-- What `NewBillingSession` reads and meets. -/
structure OpenIn where
  requestId : String
  userId : Int
  /-- `ContextKeyUserQuota`, if the middleware set it -/
  contextQuota : Option Int
  getUserQuota : Except Err Int
  hasActiveSubscription : Except Err Bool
  allowWalletOverflow : Except Err Bool
  wallet : Session.PreConsumeIn
  subscription : Session.PreConsumeIn

/-- A `preConsume` whose error drops the session. -/
def openWith (cfg : Config) (w : Stores) (s : Session) (quota : Int)
    (i : Session.PreConsumeIn) : Except ErrorCode Session × Stores :=
  match s.preConsume cfg w quota i with
  | (.error e, _, w) => (.error e, w)
  | (.ok (), s, w) => (.ok s, w)

def tryWallet (cfg : Config) (w : Stores) (info : RelayInfo) (quota : Int) (i : OpenIn) :
    Except ErrorCode Session × Stores :=
  match i.contextQuota.elim i.getUserQuota .ok with
  | .error _ => (.error .queryDataError, w)
  | .ok userQuota =>
    if 0 < quota && (userQuota ≤ 0 || userQuota - quota < 0) then
      (.error .insufficientUserQuota, w)
    else openWith cfg w (walletSession { info with userQuota := userQuota }) quota i.wallet

/-- `subConsume`: a subscription is charged at least 1. -/
def subConsume (quota : Int) : Int := if quota ≤ 0 then 1 else quota

def trySubscription (cfg : Config) (w : Stores) (info : RelayInfo) (quota : Int)
    (i : OpenIn) : Except ErrorCode Session × Stores :=
  openWith cfg w (subscriptionSession info i.requestId i.userId (subConsume quota))
    (subConsume quota) i.subscription

def newBillingSession (cfg : Config) (w : Stores) (info : RelayInfo)
    (pref : BillingPreference) (quota : Int) (i : OpenIn) : Except ErrorCode Session × Stores :=
  match pref with
  | .subscriptionOnly => trySubscription cfg w info quota i
  | .walletOnly => tryWallet cfg w info quota i
  | .walletFirst =>
    match tryWallet cfg w info quota i with
    | (.error .insufficientUserQuota, w) => trySubscription cfg w info quota i
    | r => r
  | .subscriptionFirst =>
    match i.hasActiveSubscription with
    | .error _ => (.error .queryDataError, w)
    | .ok false => tryWallet cfg w info quota i
    | .ok true =>
      match trySubscription cfg w info quota i with
      | (.error .insufficientUserQuota, w) =>
        match i.allowWalletOverflow with
        | .error _ => (.error .queryDataError, w)
        | .ok true => tryWallet cfg w info quota i
        | .ok false => (.error .insufficientUserQuota, w)
      | r => r

/-- `s` is a session as the two literals make it, about to pre-consume `quota`:
    `PreConsumeBilling` refuses a negative quota, and a subscription is asked
    for exactly the positive amount it is built with. -/
inductive Built (quota : Int) : Session → Prop
  | wallet (info : RelayInfo) (h : 0 ≤ quota) : Built quota (walletSession info)
  | subscription (info : RelayInfo) (requestId : String) (userId : Int) (h : 0 < quota) :
      Built quota (subscriptionSession info requestId userId quota)

theorem Built.nonneg {q : Int} {s : Session} (h : Built q s) : 0 ≤ q := by
  cases h <;> omega

theorem Built.effectiveQuota_nonneg {q : Int} {s : Session} (h : Built q s) (cfg : Config) :
    0 ≤ s.effectiveQuota cfg q := by
  have hq := h.nonneg
  unfold Session.effectiveQuota
  split <;> omega

theorem Built.amount_eq {cfg : Config} {q : Int} {s : Session} (h : Built q s)
    {sub : SubscriptionFunding} (hs : s.funding = .subscription sub) :
    sub.amount = s.effectiveQuota cfg q := by
  cases h with
  | wallet => simp [walletSession] at hs
  | subscription =>
    simp only [subscriptionSession, Funding.subscription.injEq] at hs
    simp [← hs, Session.effectiveQuota, Session.shouldTrust, subscriptionSession]

end NewApi.Billing
