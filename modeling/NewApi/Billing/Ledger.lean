/-
  NewApi.Billing.Ledger

  The net amount a session has taken from its funding source, over every
  sequence of `Reserve`, `Settle`, `Refund` and refund-closure steps, with any
  combination of failing sub-steps.

  Three ghost fields ride along with the session and the stores:

    * `stuck` — what `Reserve` calls that reported an error left debited;
    * `settledAt` — the `actual` of the `Settle` that set `settled`;
    * `refundApplied` — the refund closure ran and every funding part of it
      went through.

  `Law` is the ledger law: `preConsumedQuota + stuck` while the session is
  open, `actual + stuck` once settled, nothing (for a subscription: `stuck`,
  which its record does not know of) once the refund is applied.  `Inv` is what
  one step keeps; `Law` reads off it.

  `Allowed` leaves out three steps.  A subscription row never goes below zero,
  so its sessions settle on a non-negative amount.  `Settle` does not look at
  `refunded`, and a retried subscription refund may repeat a committed
  decrement (`NewApi.Subscription.Refund`); runs through either are not
  described here.
-/

import NewApi.Lib.Run
import NewApi.Billing.Atomicity

namespace NewApi.Billing

open Subscription NewApi.Lib

/-! ## The system -/

structure Ledger where
  stores : Stores
  session : Session
  /-- the closure `Refund` handed to the pool and that has not run yet -/
  job : Option RefundJob := none
  stuck : Int := 0
  settledAt : Option Int := none
  refundApplied : Bool := false

inductive Call where
  | reserve (target : Int) (i : Session.ReserveIn)
  | settle (actual : Int) (i : Session.SettleIn)
  | refund
  | runJob (i : JobIn)

/-- Every part of the closure that gives money back to the funding source went
    through. -/
def RefundJob.applied (j : RefundJob) (log : JobLog) : Bool :=
  log.funding.isOk &&
  match j.funding with
  | .wallet _ => true
  | .subscription _ => j.extraReserved ≤ 0 || log.extra.any Except.isOk

/-- What a `Reserve` that reported an error left taken. -/
def leftover (f : Funding) (w w' : Stores) : Except ErrorCode Unit → Int
  | .error _ => spent w' f - spent w f
  | .ok () => 0

variable (cfg : Config)

variable (l : Ledger)

def Ledger.step : Call → Ledger
  | .reserve target i =>
    let (r, s', w') := l.session.reserve cfg l.stores target i
    { l with session := s', stores := w',
             stuck := l.stuck + leftover l.session.funding l.stores w' r }
  | .settle actual i =>
    let (_, s', w') := l.session.settle cfg l.stores actual i
    { l with session := s', stores := w',
             settledAt := if s'.settled && !l.session.settled then some actual
               else l.settledAt }
  | .refund =>
    let (s', j) := l.session.refund
    { l with session := s', job := j.or l.job }
  | .runJob i =>
    match l.job with
    | none => l
    | some j =>
      let (log, w') := j.run cfg l.stores i
      { l with stores := w', job := none, refundApplied := j.applied log }

/-- The amount taken from the funding source, against what was spent before the
    session. -/
def Ledger.taken (before : Int) : Int :=
  spent l.stores l.session.funding - before

/-- The part of `stuck` a refund gives back as well: a wallet counts the debit
    as consumed, a subscription does not. -/
def Ledger.unrefunded : Int :=
  match l.session.funding with
  | .wallet _ => 0
  | .subscription _ => l.stuck

/-- **The ledger law.** -/
structure Ledger.Law (before : Int) (l : Ledger) : Prop where
  whileOpen : l.session.settled = false → l.session.refunded = false →
    l.taken before = l.session.preConsumedQuota + l.stuck
  whenSettled : l.session.settled = true →
    ∃ actual, l.settledAt = some actual ∧ l.taken before = actual + l.stuck
  whileQueued : l.job.isSome → l.taken before = l.session.preConsumedQuota + l.stuck
  whenRefunded : l.refundApplied = true → l.taken before = l.unrefunded
  notBoth : ¬ (l.session.settled = true ∧ l.session.refunded = true)

/-- The steps the law is stated over. -/
def Ledger.Allowed : Call → Prop
  | .reserve _ _ => True
  | .settle actual _ => l.session.refunded = false ∧
      match l.session.funding with
      | .wallet _ => True
      | .subscription _ => 0 ≤ actual
  | .refund => True
  | .runJob i =>
    match l.session.funding with
    | .wallet _ => True
    | .subscription _ => NoRetryAfterLost (List.ofFn i.refund.attempts)

/-- A `Reserve` whose compensating credit is refused. -/
def Ledger.CompensationRefused : Call → Prop
  | .reserve target i => ∃ w', Session.FundingStuck cfg l.stores l.session
      (target - l.session.preConsumedQuota) i w'
  | _ => False

/-! ## What the operations do to `spent` -/

variable (w : Stores)

theorem Funding.settle_cases (f : Funding) (delta : Int) (fail : Bool) :
    (∃ e, f.settle cfg w delta fail = (.error e, w)) ∨
    (∃ w₁, f.settle cfg w delta fail = (.ok (), w₁) ∧
      w₁.token = w.token ∧ w₁.subs.records = w.subs.records ∧
      ((∀ sub, f = .subscription sub → 0 ≤ spent w f + delta) →
        spent w₁ f = spent w f + delta)) := by
  by_cases h0 : delta = 0
  · refine .inr ⟨w, ?_, rfl, rfl, fun _ => by omega⟩
    simp only [Funding.settle, if_pos h0]
  cases f with
  | wallet c =>
    by_cases hpos : 0 < delta
    · obtain ⟨e, he⟩ | ⟨-, hok⟩ := applyQuota_cases cfg (-1) w.wallet delta fail
      · refine .inl ⟨e, ?_⟩
        simp only [Funding.settle, if_neg h0, if_pos hpos, decreaseUserQuota, he]
      refine .inr ⟨{ w with wallet := w.wallet + -1 * delta }, ?_, rfl, rfl, fun _ => ?_⟩
      · simp only [Funding.settle, if_neg h0, if_pos hpos, decreaseUserQuota, hok]
      · simp only [spent]
        omega
    obtain ⟨e, he⟩ | hok := increaseUserQuota_cases cfg w.wallet (-delta) fail
    · refine .inl ⟨e, ?_⟩
      simp only [Funding.settle, if_neg h0, if_neg hpos, he]
    refine .inr ⟨{ w with wallet := w.wallet + -delta }, ?_, rfl, rfl, fun _ => ?_⟩
    · simp only [Funding.settle, if_neg h0, if_neg hpos, hok]
    · simp only [spent]
      omega
  | subscription sub =>
    obtain ⟨e, he⟩ | ⟨st, hok, hrec, -, hused⟩ :=
      postConsumeUserSubscriptionDelta_used w.subs sub.subscriptionId delta fail
    · refine .inl ⟨e, ?_⟩
      simp only [Funding.settle, if_neg h0, he]
    refine .inr ⟨{ w with subs := st }, ?_, rfl, hrec, fun hnn => ?_⟩
    · simp only [Funding.settle, if_neg h0, hok]
    · exact hused (hnn sub rfl)

/-- The session once `Settle` is through. -/
def Session.afterSettle (s : Session) (delta : Int) : Session :=
  { s.addPostDelta delta with fundingSettled := true, settled := true }

/-- **`Settle` on a session that is not settled, by outcome.** -/
theorem Session.settle_cases {s : Session}
    (hs : s.settled = false) (hfs : s.fundingSettled = false) (actual : Int) (i : SettleIn) :
    (∃ e, s.settle cfg w actual i = (.error e, s, w)) ∨
    (actual = s.preConsumedQuota ∧
      s.settle cfg w actual i = (.ok (), { s with settled := true }, w)) ∨
    (∃ r w₁ t, s.funding.settle cfg w (actual - s.preConsumedQuota) i.fundingFail = (.ok (), w₁) ∧
      s.settle cfg w actual i =
        (r, s.afterSettle (actual - s.preConsumedQuota), { w₁ with token := t })) := by
  by_cases h0 : actual - s.preConsumedQuota = 0
  · refine .inr (.inl ⟨by omega, ?_⟩)
    simp only [Session.settle, hs, Bool.false_eq_true, if_false, if_pos h0]
  obtain ⟨e, he⟩ | ⟨w₁, hok, -⟩ := Funding.settle_cases cfg w s.funding
    (actual - s.preConsumedQuota) i.fundingFail
  · refine .inl ⟨e, ?_⟩
    simp only [Session.settle, hs, hfs, Bool.false_eq_true, if_false, if_neg h0, he]
  refine .inr (.inr ⟨(settleToken cfg w₁ s (actual - s.preConsumedQuota) i.tokenFail).1, w₁,
    (settleToken cfg w₁ s (actual - s.preConsumedQuota) i.tokenFail).2.token, hok, ?_⟩)
  have hstores : (settleToken cfg w₁ s (actual - s.preConsumedQuota) i.tokenFail).2 =
      { w₁ with token :=
        (settleToken cfg w₁ s (actual - s.preConsumedQuota) i.tokenFail).2.token } := by
    unfold settleToken
    split <;> rfl
  simp only [Session.settle, hs, hfs, Bool.false_eq_true, if_false, if_neg h0, hok,
    Session.afterSettle]
  rw [← hstores]

theorem RefundJob.run_eq (cfg : Config) (w : Stores) (j : RefundJob) (i : JobIn) :
    let fund := j.funding.refund cfg w i.refund
    let extra := j.refundExtra fund.2 i.extraFail
    (j.run cfg w i).1.funding = fund.1 ∧ (j.run cfg w i).1.extra = extra.1 ∧
    (j.run cfg w i).2.wallet = extra.2.wallet ∧ (j.run cfg w i).2.subs = extra.2.subs := by
  simp only [RefundJob.run]
  split <;> exact ⟨rfl, rfl, rfl, rfl⟩

theorem RefundJob.run_wallet {j : RefundJob} (i : JobIn)
    {c : Int} (hf : j.funding = .wallet c) (hc : 0 ≤ c)
    (happ : j.applied (j.run cfg w i).1 = true) : (j.run cfg w i).2.wallet = w.wallet + c := by
  obtain ⟨hlog, -, hw, -⟩ := j.run_eq cfg w i
  simp only [RefundJob.applied, hlog, hf, Bool.and_true] at happ
  rw [hw]
  simp only [RefundJob.refundExtra, hf]
  by_cases h0 : c ≤ 0
  · have hc0 : c = 0 := by omega
    simp only [hc0, Funding.refund, le_refl, if_true, add_zero]
  obtain ⟨e, he⟩ | hok := increaseUserQuota_cases cfg w.wallet c i.refund.walletFail
  · simp [Funding.refund, if_neg h0, he, Except.isOk, Except.toBool] at happ
  · simp only [Funding.refund, if_neg h0, hok]

theorem RefundJob.run_subscription (cfg : Config) (w : Stores) {j : RefundJob} (i : JobIn)
    {sub : SubscriptionFunding} (hf : j.funding = .subscription sub)
    (hid : j.subscriptionId = sub.subscriptionId) (hpre : 0 < sub.preConsumed)
    (hextra : 0 ≤ j.extraReserved) (hrec : w.subs.records sub.requestId =
      some { userSubscriptionId := sub.subscriptionId, preConsumed := sub.preConsumed,
             status := .consumed })
    (hused : sub.preConsumed + j.extraReserved ≤ used w.subs sub.subscriptionId)
    (hno : NoRetryAfterLost (List.ofFn i.refund.attempts))
    (happ : j.applied (j.run cfg w i).1 = true) :
    used (j.run cfg w i).2.subs sub.subscriptionId =
      used w.subs sub.subscriptionId - sub.preConsumed - j.extraReserved := by
  obtain ⟨hlog, hlogx, -, hsubs⟩ := j.run_eq cfg w i
  rw [hsubs]
  simp only [RefundJob.applied, hlog, hlogx, hf, Bool.and_eq_true] at happ
  obtain ⟨hfund, hx⟩ := happ
  -- the retried refund of the recorded charge
  have hrefund : (Funding.subscription sub).refund cfg w i.refund =
      ((refundWithRetry w.subs sub.requestId i.refund.attempts).1,
        { w with subs := (refundWithRetry w.subs sub.requestId i.refund.attempts).2 }) := by
    simp only [Funding.refund, if_neg (not_le.2 hpre)]
  rw [hrefund] at hfund hx
  have hok : (refundWithRetry w.subs sub.requestId i.refund.attempts).1 = .ok () := by
    cases hr : (refundWithRetry w.subs sub.requestId i.refund.attempts).1 with
    | ok u => rfl
    | error e =>
      rw [hr] at hfund
      cases hfund
  obtain ⟨row, hrow, hst⟩ := refundWithRetry_ok rfl hpre hrec i.refund.attempts hno hok
  have hu : used w.subs sub.subscriptionId = row.amountUsed := by
    simp only [used]
    rw [hrow]
  have hu₁ : used (refundWithRetry w.subs sub.requestId i.refund.attempts).2
      sub.subscriptionId = used w.subs sub.subscriptionId - sub.preConsumed := by
    rw [hst, used_setRecord, used_setSub, taken_amountUsed, hu]
    simp only
    omega
  rw [hf, hrefund]
  -- the extra reservation, by its own delta
  by_cases hx0 : j.extraReserved ≤ 0
  · have hno' : ¬ 0 < j.extraReserved := by omega
    simp only [RefundJob.refundExtra, hf, decide_eq_false hno', Bool.false_and,
      Bool.false_eq_true, if_false]
    omega
  simp only [decide_eq_false hx0, Bool.false_or] at hx
  simp only [RefundJob.refundExtra, hf, hid] at hx ⊢
  by_cases hidpos : 0 < sub.subscriptionId
  · simp only [decide_eq_true (not_le.1 hx0), decide_eq_true hidpos, Bool.and_self,
      if_true] at hx ⊢
    obtain ⟨e, he⟩ | ⟨st, hst', -, -, hmove⟩ := postConsumeUserSubscriptionDelta_used
      (refundWithRetry w.subs sub.requestId i.refund.attempts).2 sub.subscriptionId
      (-j.extraReserved) i.extraFail
    · rw [he] at hx
      cases hx
    rw [hst']
    rw [hmove (by omega)]
    omega
  · simp [hidpos] at hx

/-! ## The invariant -/

/-- What each funding source knows of the session's charge.  The record of a
    subscription reads `consumed` until the refund closure has run. -/
def Ledger.FundingInv : Prop :=
  match l.session.funding with
  | .wallet c => c = l.session.preConsumedQuota + l.stuck
  | .subscription sub => 0 < sub.preConsumed ∧ 0 ≤ l.session.extraReserved ∧
      l.session.preConsumedQuota = sub.preConsumed + l.session.extraReserved ∧
      l.session.relayInfo.subscriptionId = sub.subscriptionId ∧
      ((l.session.refunded = false ∨ l.job.isSome) →
        l.stores.subs.records sub.requestId =
          some { userSubscriptionId := sub.subscriptionId, preConsumed := sub.preConsumed,
                 status := .consumed })

structure Ledger.Inv (before : Int) (l : Ledger) : Prop where
  pre_nonneg : 0 ≤ l.session.preConsumedQuota
  stuck_nonneg : 0 ≤ l.stuck
  before_nonneg : ∀ sub, l.session.funding = .subscription sub → 0 ≤ before
  settled_of_fundingSettled : l.session.fundingSettled = true → l.session.settled = true
  queued : ∀ j, l.job = some j → l.session.refunded = true ∧ j.funding = l.session.funding ∧
    j.extraReserved = l.session.extraReserved ∧
    j.subscriptionId = l.session.relayInfo.subscriptionId
  applied_refunded : l.refundApplied = true → l.session.refunded = true ∧ l.job = none
  funding : l.FundingInv
  law : l.Law before

section Steps

variable {cfg : Config} {before : Int} {l : Ledger}

theorem Ledger.Inv.of_open (h : l.Inv before) (hr : l.session.refunded = false) :
    l.job = none ∧ l.refundApplied = false := by
  constructor
  · cases hj : l.job with
    | none => rfl
    | some j =>
      have := (h.queued j hj).1
      rw [hr] at this
      cases this
  cases ha : l.refundApplied with
  | false => rfl
  | true =>
    have := (h.applied_refunded ha).1
    rw [hr] at this
    cases this

theorem Ledger.Inv.fundingSettled_of_open (h : l.Inv before)
    (hs : l.session.settled = false) : l.session.fundingSettled = false := by
  cases hfs : l.session.fundingSettled with
  | false => rfl
  | true =>
    have := h.settled_of_fundingSettled hfs
    rw [hs] at this
    cases this

theorem Ledger.Inv.mk_open (hs : l.session.settled = false)
    (hr : l.session.refunded = false) (hfs : l.session.fundingSettled = false)
    (hj : l.job = none) (ha : l.refundApplied = false)
    (hpre : 0 ≤ l.session.preConsumedQuota) (hst : 0 ≤ l.stuck)
    (hb : ∀ sub, l.session.funding = .subscription sub → 0 ≤ before) (hf : l.FundingInv)
    (ht : l.taken before = l.session.preConsumedQuota + l.stuck) : l.Inv before where
  pre_nonneg := hpre
  stuck_nonneg := hst
  before_nonneg := hb
  settled_of_fundingSettled h := by rw [hfs] at h; cases h
  queued j h := by rw [hj] at h; cases h
  applied_refunded h := by rw [ha] at h; cases h
  funding := hf
  law :=
    { whileOpen := fun _ _ => ht
      whenSettled := fun h => by rw [hs] at h; cases h
      whileQueued := fun h => by rw [hj] at h; cases h
      whenRefunded := fun h => by rw [ha] at h; cases h
      notBoth := fun h => by rw [hr] at h; cases h.2 }

/-- `Reserve` keeps the invariant. -/
theorem Ledger.Inv.reserve (h : l.Inv before) (target : Int) (i : Session.ReserveIn) :
    (l.step cfg (.reserve target i)).Inv before := by
  simp only [Ledger.step]
  obtain hno | ⟨e, he⟩ | ⟨hs, hr, -, hlt, w₁, -, hrec, hspent, hout⟩ :=
    Session.reserve_cases cfg l.stores l.session target i
  · rw [hno]
    simpa only [leftover, add_zero] using h
  · rw [he]
    simpa only [leftover, sub_self, add_zero] using h
  obtain ⟨hj, ha⟩ := h.of_open hr
  have hfs := h.fundingSettled_of_open hs
  have hopen := h.law.whileOpen hs hr
  have hfi := h.funding
  have hpre := h.pre_nonneg
  have hst := h.stuck_nonneg
  have hb : ∀ sub, l.session.funding.reserved (target - l.session.preConsumedQuota) =
      .subscription sub → 0 ≤ before := by
    intro sub hsub
    cases hf : l.session.funding with
    | wallet c => simp [hf, Funding.reserved] at hsub
    | subscription sub' => exact h.before_nonneg sub' hf
  simp only [Ledger.taken] at hopen
  unfold Ledger.FundingInv at hfi
  obtain ⟨e, e', he, -⟩ | hok := hout
  · -- the debit stays: the wallet has counted it, the subscription row holds it
    rw [he]
    have hleft : leftover l.session.funding l.stores w₁ (.error e) =
        target - l.session.preConsumedQuota := by
      simp only [leftover]
      omega
    simp only [hleft]
    refine .mk_open hs hr hfs hj ha hpre (by simp only; omega) hb ?_ ?_
    · simp only [Ledger.FundingInv, Session.fundingReserved]
      cases hf : l.session.funding with
      | wallet c =>
        rw [hf] at hfi
        simp only [Funding.reserved] at hfi ⊢
        omega
      | subscription sub =>
        rw [hf] at hfi
        rw [hrec]
        exact hfi
    · simp only [Ledger.taken, Session.fundingReserved, Session.spent_reserved]
      omega
  rw [hok]
  simp only [leftover, add_zero]
  refine .mk_open ?_ ?_ ?_ hj ha ?_ hst ?_ ?_ ?_
  · simpa [Session.afterReserve] using hs
  · simpa [Session.afterReserve] using hr
  · simpa [Session.afterReserve] using hfs
  · simp only [Session.afterReserve, Session.syncRelayInfo_preConsumedQuota]
    omega
  · intro sub hsub
    simp only [Session.afterReserve, Session.syncRelayInfo_funding] at hsub
    exact hb sub hsub
  · simp only [Ledger.FundingInv, Session.afterReserve, Session.syncRelayInfo_funding,
      Session.syncRelayInfo_preConsumedQuota, Session.syncRelayInfo_extraReserved,
      Session.syncRelayInfo_refunded]
    cases hf : l.session.funding with
    | wallet c =>
      rw [hf] at hfi
      simp only [Funding.reserved] at hfi ⊢
      omega
    | subscription sub =>
      rw [hf] at hfi
      simp only [Funding.reserved] at hfi ⊢
      obtain ⟨h1, h2, h3, -, h5⟩ := hfi
      refine ⟨h1, by omega, by omega, Session.syncRelayInfo_subscriptionId rfl, ?_⟩
      simp only [Session.tokenDebited, hrec]
      exact h5
  simp only [Ledger.taken, Session.afterReserve, Session.syncRelayInfo_funding,
    Session.syncRelayInfo_preConsumedQuota, Session.spent_reserved]
  have hw : spent (Session.tokenDebited w₁ l.session.relayInfo.isPlayground
      (target - l.session.preConsumedQuota)) l.session.funding =
      spent w₁ l.session.funding := by
    cases l.session.funding <;> rfl
  omega

theorem Ledger.Inv.mk_settled (hs : l.session.settled = true)
    (hr : l.session.refunded = false) (hj : l.job = none) (ha : l.refundApplied = false)
    (hpre : 0 ≤ l.session.preConsumedQuota) (hst : 0 ≤ l.stuck)
    (hb : ∀ sub, l.session.funding = .subscription sub → 0 ≤ before) (hf : l.FundingInv)
    (ht : ∃ actual, l.settledAt = some actual ∧ l.taken before = actual + l.stuck) :
    l.Inv before where
  pre_nonneg := hpre
  stuck_nonneg := hst
  before_nonneg := hb
  settled_of_fundingSettled _ := hs
  queued j h := by rw [hj] at h; cases h
  applied_refunded h := by rw [ha] at h; cases h
  funding := hf
  law :=
    { whileOpen := fun h => by rw [hs] at h; cases h
      whenSettled := fun _ => ht
      whileQueued := fun h => by rw [hj] at h; cases h
      whenRefunded := fun h => by rw [ha] at h; cases h
      notBoth := fun h => by rw [hr] at h; cases h.2 }

theorem Session.addPostDelta_eq (s : Session) (delta : Int) :
    (s.addPostDelta delta).funding = s.funding ∧
    (s.addPostDelta delta).preConsumedQuota = s.preConsumedQuota ∧
    (s.addPostDelta delta).extraReserved = s.extraReserved ∧
    (s.addPostDelta delta).refunded = s.refunded ∧
    (s.addPostDelta delta).relayInfo.subscriptionId = s.relayInfo.subscriptionId := by
  unfold Session.addPostDelta
  split <;> exact ⟨rfl, rfl, rfl, rfl, rfl⟩

/-- `Settle` on a session that is not refunded keeps the invariant. -/
theorem Ledger.Inv.settle (h : l.Inv before) (actual : Int) (i : Session.SettleIn)
    (hal : l.Allowed (.settle actual i)) : (l.step cfg (.settle actual i)).Inv before := by
  obtain ⟨hr, hact⟩ := hal
  obtain ⟨hj, ha⟩ := h.of_open hr
  simp only [Ledger.step]
  cases hs : l.session.settled with
  | true =>
    -- a second `Settle` does nothing
    simp only [Session.settle, hs, if_true, Bool.not_true, Bool.and_false,
      Bool.false_eq_true, if_false]
    exact h
  | false =>
  have hfs := h.fundingSettled_of_open hs
  have hopen := h.law.whileOpen hs hr
  have hpre := h.pre_nonneg
  have hst := h.stuck_nonneg
  simp only [Ledger.taken] at hopen
  obtain ⟨e, he⟩ | ⟨heq, hset⟩ | ⟨r, w₁, t, hfund, hset⟩ :=
    Session.settle_cases cfg l.stores hs hfs actual i
  · rw [he]
    simp only [hs, Bool.false_and, Bool.false_eq_true, if_false]
    exact h
  · rw [hset]
    refine .mk_settled rfl hr hj ha hpre hst h.before_nonneg h.funding ?_
    refine ⟨actual, rfl, ?_⟩
    simp only [Ledger.taken]
    omega
  rw [hset]
  obtain ⟨h1, h2, h3, h4, h5⟩ :=
    l.session.addPostDelta_eq (actual - l.session.preConsumedQuota)
  obtain ⟨e, he⟩ | ⟨w₁', hok, -, hrec, hmove⟩ := Funding.settle_cases cfg l.stores
    l.session.funding (actual - l.session.preConsumedQuota) i.fundingFail
  · rw [he] at hfund
    cases hfund
  rw [hok] at hfund
  obtain rfl : w₁' = w₁ := by simpa using hfund
  -- a subscription row stays above zero, so the delta lands whole
  have hspent : spent w₁' l.session.funding =
      spent l.stores l.session.funding + (actual - l.session.preConsumedQuota) := by
    refine hmove fun sub hsub => ?_
    rw [hsub] at hact
    have hb := h.before_nonneg sub hsub
    omega
  have hw : spent { w₁' with token := t } l.session.funding = spent w₁' l.session.funding := by
    cases l.session.funding <;> rfl
  simp only [Session.afterSettle, Bool.not_false, Bool.and_self, if_true]
  refine .mk_settled rfl ?_ hj ha ?_ hst ?_ ?_ ⟨actual, rfl, ?_⟩
  · simpa only [h4] using hr
  · simpa only [h2] using hpre
  · simpa only [h1] using h.before_nonneg
  · have hfi := h.funding
    simp only [Ledger.FundingInv, h1, h2, h3, h4, h5] at hfi ⊢
    cases hf : l.session.funding with
    | wallet c =>
      rw [hf] at hfi
      exact hfi
    | subscription sub =>
      rw [hf] at hfi
      simp only [hrec]
      exact hfi
  · simp only [Ledger.taken, h1, hw]
    omega

theorem Ledger.Inv.refund (h : l.Inv before) : (l.step cfg .refund).Inv before := by
  simp only [Ledger.step, Session.refund]
  by_cases hno : l.session.settled || l.session.refunded || !l.session.needsRefund
  · rw [if_pos hno]
    exact h
  rw [if_neg hno]
  obtain ⟨⟨hs, hr⟩, -⟩ : (l.session.settled = false ∧ l.session.refunded = false) ∧
      l.session.needsRefund = true := by
    simpa using hno
  obtain ⟨hj, ha⟩ := h.of_open hr
  have hopen := h.law.whileOpen hs hr
  exact
    { pre_nonneg := h.pre_nonneg
      stuck_nonneg := h.stuck_nonneg
      before_nonneg := h.before_nonneg
      settled_of_fundingSettled := h.settled_of_fundingSettled
      queued := by
        intro j hj'
        obtain rfl := Option.some.inj hj'
        exact ⟨rfl, rfl, rfl, rfl⟩
      applied_refunded := fun h' => by rw [ha] at h'; cases h'
      funding := by
        have hfi := h.funding
        simp only [Ledger.FundingInv, hr, true_or, true_implies] at hfi
        simp only [Ledger.FundingInv, Option.some_or, Option.isSome_some, or_true, true_implies]
        exact hfi
      law :=
        { whileOpen := fun _ h' => by cases h'
          whenSettled := fun h' => by rw [hs] at h'; cases h'
          whileQueued := fun _ => hopen
          whenRefunded := fun h' => by rw [ha] at h'; cases h'
          notBoth := fun h' => by rw [hs] at h'; cases h'.1 } }

theorem Ledger.Inv.runJob (h : l.Inv before) (i : JobIn) (hal : l.Allowed (.runJob i)) :
    (l.step cfg (.runJob i)).Inv before := by
  simp only [Ledger.step]
  cases hj : l.job with
  | none => exact h
  | some j =>
  obtain ⟨hr, hjf, hjx, hjid⟩ := h.queued j hj
  have hs : l.session.settled = false := by
    cases hs : l.session.settled with
    | false => rfl
    | true => exact absurd ⟨hs, hr⟩ h.law.notBoth
  have hq := h.law.whileQueued (by rw [hj]; rfl)
  have hfi := h.funding
  have hpre := h.pre_nonneg
  have hst := h.stuck_nonneg
  exact
    { pre_nonneg := hpre
      stuck_nonneg := hst
      before_nonneg := h.before_nonneg
      settled_of_fundingSettled := h.settled_of_fundingSettled
      queued := fun _ h' => by cases h'
      applied_refunded := fun _ => ⟨hr, rfl⟩
      funding := by
        simp only [Ledger.FundingInv] at hfi ⊢
        cases hf : l.session.funding with
        | wallet c =>
          rw [hf] at hfi
          exact hfi
        | subscription sub =>
          rw [hf] at hfi
          obtain ⟨h1, h2, h3, h4, -⟩ := hfi
          refine ⟨h1, h2, h3, h4, fun h' => ?_⟩
          rw [hr] at h'
          simp at h'
      law :=
        { whileOpen := fun _ h' => by rw [hr] at h'; cases h'
          whenSettled := fun h' => by rw [hs] at h'; cases h'
          whileQueued := fun h' => by cases h'
          whenRefunded := by
            intro happ
            simp only [Ledger.FundingInv] at hfi
            simp only [Ledger.taken, Ledger.unrefunded] at hq ⊢
            cases hf : l.session.funding with
            | wallet c =>
              rw [hf] at hfi hq hjf
              have hw := RefundJob.run_wallet cfg l.stores i hjf (by omega) happ
              simp only [spent] at hq ⊢
              omega
            | subscription sub =>
              simp only [Ledger.Allowed] at hal
              rw [hf] at hfi hq hjf hal
              obtain ⟨h1, h2, h3, h4, h5⟩ := hfi
              have hb := h.before_nonneg sub hf
              simp only [spent] at hq ⊢
              have hrec := h5 (.inr (by rw [hj]; rfl))
              have hu := RefundJob.run_subscription cfg l.stores i hjf (hjid.trans h4) h1
                (by omega) hrec (by omega) hal happ
              omega
          notBoth := fun h' => by rw [hs] at h'; cases h'.1 } }

/-- **One step.**  Every allowed call keeps the invariant. -/
theorem Ledger.Inv.step (h : l.Inv before) (c : Call) (hal : l.Allowed c) :
    (l.step cfg c).Inv before := by
  cases c with
  | reserve target i => exact h.reserve target i
  | settle actual i => exact h.settle actual i hal
  | refund => exact h.refund
  | runJob i => exact h.runJob i hal

end Steps

/-! ## Runs -/

def Session.Fresh (s : Session) : Prop :=
  ∀ sub, s.funding = .subscription sub → w.subs.records sub.requestId = none

theorem Session.preConsume_funding (cfg : Config) (w : Stores) {s : Session} {q : Int}
    (hb : Built q s) (hfresh : s.Fresh w) {i : FundingIn} {f' : Funding} {w₁ : Stores}
    (hf : s.funding.preConsume (tokenDebited w s.relayInfo.isPlayground
      (s.effectiveQuota cfg q)) (s.effectiveQuota cfg q) i = (.ok (), f', w₁)) :
    (∃ c, f' = .wallet c ∧ c = s.effectiveQuota cfg q) ∨
    (∃ sub, f' = .subscription sub ∧ 0 < sub.preConsumed ∧
      sub.preConsumed = s.effectiveQuota cfg q ∧
      w₁.subs.records sub.requestId =
        some { userSubscriptionId := sub.subscriptionId, preConsumed := sub.preConsumed,
               status := .consumed }) := by
  have hnn := hb.effectiveQuota_nonneg cfg
  obtain ⟨e, he⟩ | ⟨c, hsf, hw⟩ | ⟨sub, r, hsf, hrec, hw⟩ |
      ⟨sub, id, st, hsf, -, hpos, -, hrec, hw⟩ :=
    Funding.preConsume_cases (tokenDebited w s.relayInfo.isPlayground
      (s.effectiveQuota cfg q)) s.funding (s.effectiveQuota cfg q) i
  · rw [he] at hf
    simp at hf
  · rw [hw] at hf
    obtain ⟨rfl, rfl⟩ := hf
    have hc0 : c = 0 := by
      cases hb with
      | wallet => cases hsf; rfl
      | subscription => cases hsf
    refine .inl ⟨_, rfl, ?_⟩
    split <;> omega
  · have hnone : w.subs.records sub.requestId = none := hfresh sub hsf
    have hsome : w.subs.records sub.requestId = some r := hrec
    rw [hnone] at hsome
    cases hsome
  rw [hw] at hf
  obtain ⟨rfl, rfl⟩ := hf
  exact .inr ⟨_, rfl, hpos, hb.amount_eq hsf, hrec⟩

/-- The ledger a successful `preConsume` opens. -/
def Ledger.start (s : Session) : Ledger := { stores := w, session := s }

theorem Ledger.Inv.start {cfg : Config} {w w' : Stores} {s s' : Session} {q : Int}
    {i : Session.PreConsumeIn} (hb : Built q s) (hfresh : s.Fresh w)
    (hpre : s.preConsume cfg w q i = (.ok (), s', w')) :
    (Ledger.start w' s').Inv (spentAfterReset w s'.funding) := by
  obtain ⟨hq, -, hspent⟩ := Session.preConsume_ok cfg w hb i hpre
  have hnn := hb.effectiveQuota_nonneg cfg
  obtain ⟨e, s₁, w₁, he, -⟩ | ⟨f', w₁, hok, hf⟩ := Session.preConsume_cases cfg w hb i
  · rw [he] at hpre
    simp at hpre
  rw [hok] at hpre
  simp only [Prod.mk.injEq, true_and] at hpre
  obtain ⟨rfl, rfl⟩ := hpre
  have hflags : s.settled = false ∧ s.refunded = false ∧ s.fundingSettled = false ∧
      s.extraReserved = 0 := by
    cases hb <;> exact ⟨rfl, rfl, rfl, rfl⟩
  obtain ⟨hs, hr, hfs, hx⟩ := hflags
  have hfun : (Session.afterPreConsume cfg s q f').funding = f' := by
    simp [Session.afterPreConsume]
  have hext : (Session.afterPreConsume cfg s q f').extraReserved = 0 := by
    simpa [Session.afterPreConsume] using hx
  have hfund := Session.preConsume_funding cfg w hb hfresh hf
  have htaken : spent w₁ f' = spentAfterReset w f' + s.effectiveQuota cfg q := by
    rw [hq, hfun] at hspent
    obtain h | ⟨sub, r, hsf, hrec, -⟩ := hspent
    · exact h
    · rw [hfresh sub hsf] at hrec
      cases hrec
  refine .mk_open ?_ ?_ ?_ rfl rfl ?_ le_rfl ?_ ?_ ?_
  · simpa [Ledger.start, Session.afterPreConsume] using hs
  · simpa [Ledger.start, Session.afterPreConsume] using hr
  · simpa [Ledger.start, Session.afterPreConsume] using hfs
  · simpa only [Ledger.start, hq] using hnn
  · intro sub hsub
    simp only [Ledger.start] at hsub
    rw [hsub]
    simp only [spentAfterReset, usedAfterReset]
    split <;> omega
  · simp only [Ledger.FundingInv, Ledger.start, hfun, hext]
    obtain ⟨c, rfl, hc⟩ | ⟨sub, rfl, hpos, hamt, hrec⟩ := hfund
    · simp only [hq]
      omega
    · exact ⟨hpos, le_rfl, by rw [hq]; omega, Session.syncRelayInfo_subscriptionId rfl,
        fun _ => hrec⟩
  · simp only [Ledger.taken, Ledger.start, hfun, hq]
    omega

theorem Session.afterPreConsume_open (cfg : Config) {s : Session} {q : Int} (hb : Built q s)
    (f : Funding) : (s.afterPreConsume cfg q f).settled = false ∧
    (s.afterPreConsume cfg q f).refunded = false ∧
    (s.afterPreConsume cfg q f).tokenConsumed = (s.afterPreConsume cfg q f).preConsumedQuota := by
  have hflags : s.settled = false ∧ s.refunded = false := by
    cases hb <;> exact ⟨rfl, rfl⟩
  refine ⟨?_, ?_, ?_⟩
  · simpa [Session.afterPreConsume] using hflags.1
  · simpa [Session.afterPreConsume] using hflags.2
  · simp [Session.afterPreConsume]

theorem newBillingSession_ledger {cfg : Config} {w w' : Stores} {info : RelayInfo}
    {pref : BillingPreference} {quota : Int} {i : OpenIn} {s : Session} (hq : 0 ≤ quota)
    (hfresh : w.subs.records i.requestId = none)
    (h : newBillingSession cfg w info pref quota i = (.ok s, w')) :
    (Ledger.start w' s).Inv (spentAfterReset w s.funding) ∧ s.settled = false ∧
    s.refunded = false ∧ s.tokenConsumed = s.preConsumedQuota := by
  rcases newBillingSession_opens cfg w info pref hq i with
    ⟨e, v, he, -, -⟩ | ⟨s', v, w₁, s₀, q, j, hok, hb, hpre, hw, hs, hid⟩
  · rw [he] at h
    cases h
  rw [hok] at h
  cases h
  -- neither the wallet nor the subscriptions moved before the charge
  have hsame : spentAfterReset w₁ s.funding = spentAfterReset w s.funding := by
    cases s.funding with
    | wallet c => simp only [spentAfterReset, hw]
    | subscription sub => simp only [spentAfterReset, hs]
  have hfresh' : s₀.Fresh w₁ := by
    intro sub hsub
    rw [hid sub hsub, hs]
    exact hfresh
  have hinv := Ledger.Inv.start hb hfresh' hpre
  rw [hsame] at hinv
  rcases Session.preConsume_cases cfg w₁ hb j with ⟨e, s₁, w₂, he, -⟩ | ⟨f, w₂, hok', -⟩
  · rw [he] at hpre
    cases hpre
  rw [hok'] at hpre
  cases hpre
  exact ⟨hinv, Session.afterPreConsume_open cfg hb f⟩

theorem Ledger.step_stuck {cfg : Config} {l : Ledger} (hl : l.stuck = 0) (c : Call)
    (hc : ¬ l.CompensationRefused cfg c) : (l.step cfg c).stuck = 0 := by
  cases c with
  | reserve target i =>
    simp only [Ledger.step]
    cases hres : l.session.reserve cfg l.stores target i with
    | mk r out =>
    obtain ⟨s', w'⟩ := out
    cases r with
    | ok u => simp only [leftover, hl, add_zero]
    | error e =>
      obtain ⟨-, rfl | hstuck⟩ := Session.reserve_error cfg l.stores l.session target i hres
      · simp only [leftover, hl, sub_self, add_zero]
      · exact absurd ⟨w', hstuck⟩ hc
  | settle actual i => exact hl
  | refund => exact hl
  | runJob i =>
    simp only [Ledger.step]
    split
    · exact hl
    · exact hl

def openedLedger : Ledger :=
  let out := (walletSession {}).preConsume Session.directConfig Session.walletStores 100 {}
  .start out.2.2 out.2.1

/-- `Reserve` to 200: the token of 120 refuses, the compensation fails. -/
def refusedCompensation : Ledger :=
  run (Ledger.step Session.directConfig) openedLedger [.reserve 200 { rollbackFail := true }]

/-- `Refund`, its closure, then `Settle` at 150. -/
def lateSettle : Ledger :=
  run (Ledger.step Session.directConfig) openedLedger [.refund, .runJob {}, .settle 150 {}]

end NewApi.Billing
