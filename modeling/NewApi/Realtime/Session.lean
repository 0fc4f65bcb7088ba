/-
  NewApi.Realtime.Session

  One websocket session: the handler that adds up usages and charges each
  response as it comes (`relay/channel/openai/relay_realtime.go`,
  `PreWssConsumeQuota`), and the settlement at its end (`PostWssConsumeQuota`,
  `SettleBilling`), over the billing session of `NewApi.Billing`.

  The two readers are two sources of events; a list of events is one
  interleaving of whole messages.  An event carries what it meets: the counts of
  the token counter, the balances `PreWssConsumeQuota` reads, the settings of
  that moment, the statements that fail, and whether the message could be passed
  on.  A reader that returns takes no event any more.

  `PreWssConsumeQuota` debits the funding source by itself; the billing session
  never hears of it and settles the whole price once more.
-/

import NewApi.Billing.Ledger
import NewApi.Realtime.Price

namespace NewApi.Realtime

open NewApi.Billing NewApi.Subscription NewApi.Lib

/-! ## PostConsumeQuota -/

/-- Why a charge or a settlement is refused. -/
inductive WssError where
  | store (e : Err)
  /-- `subscription id is missing` -/
  | subscriptionIdMissing
  /-- `user quota is not enough, …` -/
  | userQuotaNotEnough
  /-- `token quota is not enough, …` -/
  | tokenQuotaNotEnough

variable (cfg : Config)

/-- The funding part of `postConsumeQuotaWithResult`. -/
def postConsumeFunding (w : Stores) (f : Funding) (quota : Int) (fail : Bool) :
    Except WssError Unit × Stores :=
  match f with
  | .subscription sub =>
    if sub.subscriptionId = 0 then (.error .subscriptionIdMissing, w)
    else if quota = 0 then (.ok (), w)
    else
      let (r, st) := postConsumeUserSubscriptionDelta w.subs sub.subscriptionId quota fail
      (r.mapError .store, { w with subs := st })
  | .wallet _ =>
    let (r, b) := if 0 < quota then decreaseUserQuota cfg w.wallet quota fail
      else increaseUserQuota cfg w.wallet (-quota) fail
    (r.mapError .store, { w with wallet := b })

/-- The token part of `postConsumeQuotaWithResult`. -/
def postConsumeToken (w : Stores) (isPlayground : Bool) (quota : Int)
    (fail : Bool) : Except WssError Unit × Stores :=
  if isPlayground then (.ok (), w)
  else
    let (r, t) := if 0 < quota then decreaseTokenQuota cfg w.token quota fail
      else increaseTokenQuota cfg w.token (-quota) fail
    (r.mapError .store, { w with token := t })

/-- `postConsumeQuotaResult` with the error and the stores. -/
structure PostConsume where
  fundingApplied : Bool
  err : Except WssError Unit
  stores : Stores

def postConsumeQuotaWithResult (w : Stores) (f : Funding) (isPlayground : Bool)
    (quota : Int) (i : Session.SettleIn) : PostConsume :=
  match postConsumeFunding cfg w f quota i.fundingFail with
  | (.error e, w) => { fundingApplied := false, err := .error e, stores := w }
  | (.ok (), w) =>
    let (r, w) := postConsumeToken cfg w isPlayground quota i.tokenFail
    -- a token that refuses leaves the funding source debited
    { fundingApplied := true, err := r, stores := w }

/-! ## PreWssConsumeQuota -/

/-- The fields of `PriceData` the settlement reads. -/
structure PriceData where
  usePrice : Bool
  modelRatio : ℚ
  groupRatio : ℚ

/-- The fields of `RelayInfo` (and the context's auto group) that the charges of a
    websocket session read. -/
structure RelayInfo where
  /-- not `PriceData.UsePrice`, and set nowhere in the relay -/
  usePrice : Bool
  originModelName : String
  upstreamModelName : String
  usingGroup : String
  userGroup : String
  autoGroup : Option String
  isPlayground : Bool
  priceData : PriceData
  billing : Option Session
  /-- `TryTieredSettle` by input and output tokens.  `ComputeTieredQuotaWithRequest`
      puts 0 in place of a negative cost. -/
  tieredSettle : Int → Int → Option Nat

/-- The source `BillingSource` names; without a session it is the wallet. -/
def RelayInfo.funding (info : RelayInfo) : Funding :=
  match info.billing with
  | some s => s.funding
  | none => .wallet 0

structure Token where
  unlimitedQuota : Bool
  remainQuota : Int

/-- What one charge meets. -/
structure ChargeIn where
  userQuota : Except Err Int
  token : Except Err Token
  ratios : RatioSetting
  debit : Session.SettleIn := {}

variable (info : RelayInfo)

/-- The group ratio of a charge: the auto group if there is one, overruled by the
    ratio of the user's group. -/
def actualGroupRatio (r : RatioSetting) : ℚ :=
  let usingGroup := info.autoGroup.getD info.usingGroup
  (r.groupGroupRatio info.userGroup usingGroup).getD (r.groupRatio usingGroup)

/-- The `QuotaInfo` of `PreWssConsumeQuota`. -/
def chargeInfo (usage : RealtimeUsage) (r : RatioSetting) : QuotaInfo where
  inputText := usage.inputText
  inputAudio := usage.inputAudio
  outputText := usage.outputText
  outputAudio := usage.outputAudio
  modelName := info.originModelName
  usePrice := info.usePrice
  modelRatio := r.modelRatio info.originModelName
  groupRatio := actualGroupRatio info r

def increment (usage : RealtimeUsage) (r : RatioSetting) : Int :=
  calculateAudioQuota r (chargeInfo info usage r)

/-- `PreWssConsumeQuota` once it has its price: the two checks, then
    `PostConsumeQuota`.  It comes with the amount taken from the funding source. -/
def consumeIncrement (w : Stores) (info : RelayInfo) (quota userQuota : Int)
    (token : Token) (debit : Session.SettleIn) : Except WssError Unit × Option Int × Stores :=
  if userQuota < quota then (.error .userQuotaNotEnough, none, w)
  else if !token.unlimitedQuota && token.remainQuota < quota then
    (.error .tokenQuotaNotEnough, none, w)
  else
    let out := postConsumeQuotaWithResult cfg w info.funding info.isPlayground quota debit
    (out.err, if out.fundingApplied then some quota else none, out.stores)

def preWssConsumeQuota (w : Stores) (info : RelayInfo) (usage : RealtimeUsage)
    (i : ChargeIn) : Except WssError Unit × Option Int × Stores :=
  if info.usePrice then (.ok (), none, w)
  else match i.userQuota, i.token with
  | .error e, _ => (.error (.store e), none, w)
  | .ok _, .error e => (.error (.store e), none, w)
  | .ok userQuota, .ok token =>
    consumeIncrement cfg w info (increment info usage i.ratios) userQuota token i.debit

/-! ## OpenaiRealtimeHandler -/

structure Wss where
  stores : Stores
  usage : RealtimeUsage := {}
  localUsage : RealtimeUsage := {}
  sumUsage : RealtimeUsage := {}
  clientReading : Bool := true
  targetReading : Bool := true
  /-- ghost: what the increments took from the funding source -/
  debits : List Int := []

/-- `preConsumeUsage`: the usage is in the sum whether or not the charge goes
    through. -/
def preConsumeUsage (s : Wss) (usage : RealtimeUsage) (i : ChargeIn) : Bool × Wss :=
  let (err, debit, w) := preWssConsumeQuota cfg s.stores info usage i
  (err.isOk,
    { s with stores := w, sumUsage := s.sumUsage.add usage, debits := s.debits ++ debit.toList })

/-- What the readers meet.  `count` is the answer of `CountTokenRealtime`, and
    `forwarded` says that the message could be written to the other side. -/
inductive Event where
  | clientMessage (count : Option (Int × Int)) (forwarded : Bool)
  /-- the client reader returns: closed, cancelled or not a message -/
  | clientGone
  /-- `response.done` with a usage -/
  | responseDone (usage : RealtimeUsage) (charge : ChargeIn) (forwarded : Bool)
  /-- `response.done` without one -/
  | responseDoneUncounted (count : Option (Int × Int)) (charge : ChargeIn) (forwarded : Bool)
  /-- `session.created`, `session.updated` -/
  | sessionEvent (forwarded : Bool)
  | otherEvent (count : Option (Int × Int)) (forwarded : Bool)
  /-- the target reader returns -/
  | targetGone

/-- `usage` once a reported usage is added. -/
def Wss.report (s : Wss) (usage : RealtimeUsage) : Wss := { s with usage := s.usage.add usage }

/-- `localUsage` once a message is counted. -/
def Wss.count (s : Wss) (usage : RealtimeUsage) : Wss :=
  { s with localUsage := s.localUsage.add usage }

def step (s : Wss) : Event → Wss
  | .clientMessage count forwarded =>
    if !s.clientReading then s
    else match count with
    | none => { s with clientReading := false }
    | some (text, audio) => { s.count (.input text audio) with clientReading := forwarded }
  | .clientGone => { s with clientReading := false }
  | .responseDone usage charge forwarded =>
    if !s.targetReading then s
    else match preConsumeUsage cfg info (s.report usage) (s.report usage).usage charge with
    -- the reader returns and what it has added stays in `usage`
    | (false, s) => { s with targetReading := false }
    | (true, s) => { s with usage := {}, localUsage := {}, targetReading := forwarded }
  | .responseDoneUncounted count charge forwarded =>
    if !s.targetReading then s
    else match count with
    | none => { s with targetReading := false }
    | some (text, audio) =>
      match preConsumeUsage cfg info (s.count (.input text audio))
        (s.count (.input text audio)).localUsage charge with
      | (false, s) => { s with targetReading := false }
      | (true, s) => { s with localUsage := {}, targetReading := forwarded }
  | .sessionEvent forwarded =>
    if !s.targetReading then s else { s with targetReading := forwarded }
  | .otherEvent count forwarded =>
    if !s.targetReading then s
    else match count with
    | none => { s with targetReading := false }
    | some (text, audio) => { s.count (.output text audio) with targetReading := forwarded }
  | .targetGone => { s with targetReading := false }

/-- After the `select`: what is left in `usage`, then in `localUsage`, is charged. -/
def chargeRest (s : Wss) (usage : RealtimeUsage) (i : ChargeIn) : Wss :=
  if usage.totalTokens ≠ 0 then (preConsumeUsage cfg info s usage i).2 else s

/-- The end of `OpenaiRealtimeHandler`. -/
def finish (s : Wss) (forUsage forLocal : ChargeIn) : Wss :=
  chargeRest cfg info (chargeRest cfg info s s.usage forUsage) s.localUsage forLocal

/-! ## PostWssConsumeQuota -/

/-- What the settlement meets. -/
structure PostIn where
  ratios : RatioSetting
  settle : Session.SettleIn := {}

/-- The `QuotaInfo` of `PostWssConsumeQuota`; it does not fill in `ModelPrice`. -/
def settleInfo (usage : RealtimeUsage) : QuotaInfo where
  inputText := usage.inputText
  inputAudio := usage.inputAudio
  outputText := usage.outputText
  outputAudio := usage.outputAudio
  modelName := info.upstreamModelName
  usePrice := info.priceData.usePrice
  modelRatio := info.priceData.modelRatio
  groupRatio := info.priceData.groupRatio

/-- The amount `PostWssConsumeQuota` settles at. -/
def wssQuota (usage : RealtimeUsage) (r : RatioSetting) : Int :=
  if usage.totalTokens = 0 then 0
  else match info.tieredSettle usage.inputTokens usage.outputTokens with
  | some quota => quota
  | none => calculateAudioQuota r (settleInfo info usage)

/-- `SettleBilling`: whether the funding source is at `actualQuota` now, and the
    stores.  Without a session nothing was pre-consumed. -/
def settleBilling (w : Stores) (info : RelayInfo) (actualQuota : Int)
    (i : Session.SettleIn) : Bool × Stores :=
  match info.billing with
  | some session =>
    let (_, session, w) := session.settle cfg w actualQuota i
    (session.settled, w)
  | none =>
    if actualQuota = 0 then (true, w)
    else
      let out := postConsumeQuotaWithResult cfg w info.funding info.isPlayground actualQuota i
      (out.fundingApplied, out.stores)

/-- What a session comes to. -/
structure Bill where
  /-- the amount `PostWssConsumeQuota` computes for the summed usage -/
  quota : Int
  /-- what each increment took -/
  debits : List Int
  /-- the settlement went through -/
  settled : Bool
  stores : Stores

/-- What a session meets from the handler on. -/
structure WssIn where
  events : List Event
  forUsage : ChargeIn
  forLocal : ChargeIn
  post : PostIn

def openaiRealtimeHandler (w : Stores) (info : RelayInfo) (i : WssIn) : Wss :=
  finish cfg info (run (step cfg info) { stores := w } i.events) i.forUsage i.forLocal

/-- `WssHelper` from the open connection on. -/
def wssHelper (w : Stores) (info : RelayInfo) (i : WssIn) : Bill :=
  let s := openaiRealtimeHandler cfg w info i
  let quota := wssQuota info s.sumUsage i.post.ratios
  let (settled, w) := settleBilling cfg s.stores info quota i.post.settle
  { quota := quota, debits := s.debits, settled := settled, stores := w }

end NewApi.Realtime
