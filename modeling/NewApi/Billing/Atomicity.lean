/-
  NewApi.Billing.Atomicity

  What one `preConsume` and one `Reserve` do to the balances, by outcome.

  Both operations debit two stores in sequence and compensate by hand: the
  token is given back when the funding source refuses, the funding source is
  given back when the token refuses.  A refused compensation is only logged,
  so after an error the balances are what they were, except for exactly the
  one debit whose compensation was refused as well.

  A subscription that already holds a record of the request answers with the
  earlier charge and takes nothing (`PreConsumeUserSubscription` is idempotent
  per request id); that is the one success without a new debit.
-/

import NewApi.Billing.Session

namespace NewApi.Billing

open Subscription

/-! ## The funding step of preConsume -/

/-- **`FundingSource.PreConsume`, by outcome.** -/
theorem Funding.preConsume_cases (w : Stores) (f : Funding) (amount : Int) (i : FundingIn) :
    (∃ e, f.preConsume w amount i = (.error e, f, w)) ∨
    (∃ c, f = .wallet c ∧ f.preConsume w amount i =
      (.ok (), .wallet (if amount ≤ 0 then c else amount),
        { w with wallet := w.wallet - max amount 0 })) ∨
    (∃ s r, f = .subscription s ∧ w.subs.records s.requestId = some r ∧
      f.preConsume w amount i =
        (.ok (), .subscription { s with subscriptionId := r.userSubscriptionId,
                                        preConsumed := r.preConsumed }, w)) ∨
    (∃ s id st, f = .subscription s ∧ w.subs.records s.requestId = none ∧ 0 < s.amount ∧
      used st id = usedAfterReset w.subs id + s.amount ∧
      st.records s.requestId = some { userSubscriptionId := id, preConsumed := s.amount,
                                      status := .consumed } ∧
      f.preConsume w amount i =
        (.ok (), .subscription { s with subscriptionId := id, preConsumed := s.amount },
          { w with subs := st })) := by
  cases f with
  | wallet c =>
    by_cases hle : amount ≤ 0
    · refine .inr (.inl ⟨c, rfl, ?_⟩)
      rw [max_eq_right hle, sub_zero, if_pos hle]
      simp only [Funding.preConsume, if_pos hle]
    have hmax : max amount 0 = amount := by omega
    obtain ⟨e, he⟩ | hno | ⟨-, hok⟩ := tryReserve_cases w.wallet amount i.wallet
    · refine .inl ⟨e, ?_⟩
      simp only [Funding.preConsume, if_neg hle, tryReserveUserQuota, he]
    · refine .inl ⟨.insufficientWallet, ?_⟩
      simp only [Funding.preConsume, if_neg hle, tryReserveUserQuota, hno]
    · refine .inr (.inl ⟨c, rfl, ?_⟩)
      simp only [Funding.preConsume, if_neg hle, tryReserveUserQuota, hok, hmax]
  | subscription s =>
    obtain ⟨e, he⟩ | ⟨r, sub, hrec, -, hok⟩ | ⟨st, res, hrec, hpos, hch, hok⟩ :=
      preConsumeUserSubscription_cases w.subs s.requestId s.userId s.amount i.active i.subFail
    · exact .inl ⟨e, by simp only [Funding.preConsume, he]⟩
    · refine .inr (.inr (.inl ⟨s, r, rfl, hrec, ?_⟩))
      simp only [Funding.preConsume, hok]
    obtain ⟨-, hpre, ⟨row, hrow, hbefore⟩, hafter, hsub, -⟩ := chargeFirst_some hpos hch
    refine .inr (.inr (.inr ⟨s, res.userSubscriptionId, st.setRecord s.requestId
      { userSubscriptionId := res.userSubscriptionId, preConsumed := s.amount,
        status := .consumed }, rfl, hrec, hpos, ?_,
      SubStore.setRecord_records_self _ _ _, ?_⟩))
    · rw [used_setRecord]
      simp only [used, hsub, usedAfterReset, hrow, hbefore, hafter]
    · simp only [Funding.preConsume, hok, hpre]

namespace Session

/-! ## preConsume -/

def tokenDebited (w : Stores) (isPlayground : Bool) (quota : Int) : Stores :=
  { w with token := if isPlayground then w.token else w.token - quota }

variable (cfg : Config)

variable (w : Stores)

variable (s : Session)

theorem chargeToken_cases (quota : Int) (i : StepIn) :
    (∃ e, chargeToken cfg w s quota i = (.error e, s, w)) ∨
    chargeToken cfg w s quota i =
      (.ok (), { s with tokenConsumed := if 0 < quota then quota else s.tokenConsumed },
        tokenDebited w s.relayInfo.isPlayground (max quota 0)) := by
  unfold chargeToken tokenDebited
  by_cases hpos : 0 < quota
  · have hmax : max quota 0 = quota := by omega
    rw [if_pos hpos]
    obtain ⟨e, he⟩ | ⟨-, hok⟩ := preConsumeTokenQuota_cases cfg s.relayInfo.isPlayground
      s.relayInfo.tokenUnlimited w.token quota i
    · exact .inl ⟨.preConsumeTokenQuotaFailed, by simp only [he]⟩
    · exact .inr (by simp only [hok, hmax, if_pos hpos])
  have hmax : max quota 0 = 0 := by omega
  rw [if_neg hpos]
  exact .inr (by simp only [hmax, sub_zero, if_neg hpos, ite_self])

/-- The token debit of `preConsume` stays after an error: the credit that
    should undo it was refused by the database. -/
def TokenStuck (quota : Int) (i : PreConsumeIn) (w' : Stores) : Prop :=
  i.rollbackFail = true ∧ cfg.batchUpdateEnabled = false ∧
    s.relayInfo.isPlayground = false ∧ w' = { w with token := w.token - quota }

/-- The session a successful `preConsume` of a built session leaves. -/
def afterPreConsume (quota : Int) (f : Funding) : Session :=
  ({ s with trusted := s.shouldTrust cfg, funding := f,
            tokenConsumed := s.effectiveQuota cfg quota,
            preConsumedQuota := s.effectiveQuota cfg quota }).syncRelayInfo

theorem rollbackToken_charged {q : Int} (hq : 0 ≤ q) (hs : s.tokenConsumed = q) (fail : Bool) :
    (rollbackToken cfg (tokenDebited w s.relayInfo.isPlayground q) s fail).2 = w ∨
    (fail = true ∧ cfg.batchUpdateEnabled = false ∧ s.relayInfo.isPlayground = false ∧
      (rollbackToken cfg (tokenDebited w s.relayInfo.isPlayground q) s fail).2 =
        { w with token := w.token - q }) := by
  cases hp : s.relayInfo.isPlayground with
  | true =>
    refine .inl ?_
    simp only [rollbackToken, hp, tokenDebited]
    simp
  | false =>
  by_cases h0 : q = 0
  · refine .inl ?_
    simp only [rollbackToken, hs, h0, tokenDebited, hp]
    simp
  have hpos : 0 < q := by omega
  have hroll : (rollbackToken cfg (tokenDebited w false q) s fail).2 =
      { w with token := (increaseTokenQuota cfg (w.token - q) q fail).2 } := by
    simp [rollbackToken, tokenDebited, hs, hpos, hp]
  rw [hroll]
  cases hf : fail with
  | false =>
    refine .inl ?_
    rw [increaseTokenQuota_ok hq, sub_add_cancel]
  | true =>
    cases hb : cfg.batchUpdateEnabled with
    | true =>
      refine .inl ?_
      simp [increaseTokenQuota, applyQuota, hb, if_neg (not_lt.2 hq)]
    | false =>
      refine .inr ⟨rfl, rfl, rfl, ?_⟩
      simp [increaseTokenQuota, applyQuota, hb, if_neg (not_lt.2 hq)]

/-- **`preConsume` of a built session, by outcome.** -/
theorem preConsume_cases {s : Session} {q : Int} (hb : Built q s) (i : PreConsumeIn) :
    (∃ e s' w', s.preConsume cfg w q i = (.error e, s', w') ∧
      (w' = w ∨ TokenStuck cfg w s (s.effectiveQuota cfg q) i w')) ∨
    (∃ f' w', s.preConsume cfg w q i = (.ok (), afterPreConsume cfg s q f', w') ∧
      s.funding.preConsume (tokenDebited w s.relayInfo.isPlayground (s.effectiveQuota cfg q))
        (s.effectiveQuota cfg q) i.funding = (.ok (), f', w')) := by
  have htc : s.tokenConsumed = 0 := by cases hb <;> rfl
  have htr : s.trusted = false := by cases hb <;> rfl
  have hq := hb.effectiveQuota_nonneg cfg
  have hmax : max (s.effectiveQuota cfg q) 0 = s.effectiveQuota cfg q := by omega
  have hcons : (if 0 < s.effectiveQuota cfg q then s.effectiveQuota cfg q else 0) =
      s.effectiveQuota cfg q := by
    split <;> omega
  unfold preConsume
  simp only [htr, Bool.or_false]
  obtain ⟨e, he⟩ | hok := chargeToken_cases cfg w { s with trusted := s.shouldTrust cfg }
    (s.effectiveQuota cfg q) i.token
  · exact .inl ⟨e, _, w, by rw [he], .inl rfl⟩
  rw [hok]
  simp only [htc, hcons, hmax]
  generalize hfp : s.funding.preConsume (tokenDebited w s.relayInfo.isPlayground (s.effectiveQuota cfg q))
    (s.effectiveQuota cfg q) i.funding = out
  obtain ⟨_ | ⟨⟩, f', w'⟩ := out
  · rename_i e
    refine .inl ⟨_, _, _, rfl, ?_⟩
    -- the funding step refuses before it writes, so only the token is to undo
    have hw : w' = tokenDebited w s.relayInfo.isPlayground (s.effectiveQuota cfg q) := by
      obtain ⟨e', he⟩ | ⟨c, -, h⟩ | ⟨_, _, -, -, h⟩ | ⟨_, _, _, -, -, -, -, -, h⟩ :=
        Funding.preConsume_cases (tokenDebited w s.relayInfo.isPlayground (s.effectiveQuota cfg q)) s.funding
          (s.effectiveQuota cfg q) i.funding
      · rw [he] at hfp
        simp only [Prod.mk.injEq] at hfp
        exact hfp.2.2.symm
      all_goals
        rw [h] at hfp
        simp at hfp
    rw [hw]
    let s₁ : Session :=
      { s with funding := f', trusted := s.shouldTrust cfg,
               tokenConsumed := s.effectiveQuota cfg q }
    exact rollbackToken_charged cfg w s₁ hq rfl i.rollbackFail
  · exact .inr ⟨f', w', rfl, rfl⟩

/-! ## Reserve -/

/-- The session once `reserveFunding` went through. -/
def fundingReserved (delta : Int) : Session :=
  { s with funding := s.funding.reserved delta }

theorem reserveFunding_cases {delta : Int} (hd : 0 < delta) (fail : Bool) :
    (∃ e, reserveFunding cfg w s delta fail = (.error e, s, w)) ∨
    (∃ w₁, reserveFunding cfg w s delta fail = (.ok (), s.fundingReserved delta, w₁) ∧
      w₁.token = w.token ∧ w₁.subs.records = w.subs.records ∧
      spent w₁ s.funding = spent w s.funding + delta) := by
  cases hf : s.funding with
  | wallet c =>
    obtain ⟨e, he⟩ | ⟨-, hok⟩ := applyQuota_cases cfg (-1) w.wallet delta fail
    · refine .inl ⟨.updateDataError, ?_⟩
      simp only [reserveFunding, hf, decreaseUserQuota, he]
    refine .inr ⟨{ w with wallet := w.wallet + -1 * delta }, ?_, rfl, rfl, ?_⟩
    · simp only [reserveFunding, hf, decreaseUserQuota, hok, fundingReserved,
        Funding.reserved]
    · simp only [spent]
      omega
  | subscription sub =>
    have hs : s.fundingReserved delta = s := by
      simp only [fundingReserved, Funding.reserved, hf]
      rw [← hf]
    obtain ⟨e, he⟩ | ⟨st, hok, hrec, -, hused⟩ :=
      postConsumeUserSubscriptionDelta_used w.subs sub.subscriptionId delta fail
    · refine .inl ⟨.insufficientUserQuota, ?_⟩
      simp only [reserveFunding, hf, he]
    refine .inr ⟨{ w with subs := st }, ?_, rfl, hrec, ?_⟩
    · rw [hs]
      simp only [reserveFunding, hf, hok]
    · have hnn : 0 ≤ used w.subs sub.subscriptionId := used_nonneg _ _
      exact hused (by omega)

/-- **The compensation of `Reserve` is exact.**  It is refused and moves
    nothing, or it restores the session and every balance. -/
theorem rollbackFundingReserve_cases (w w₁ : Stores) (s s₁ : Session)
    {delta : Int} (hd : 0 < delta) (fail fail' : Bool)
    (h : reserveFunding cfg w s delta fail = (.ok (), s₁, w₁)) :
    (∃ e, rollbackFundingReserve cfg w₁ s₁ delta fail' = (.error e, s₁, w₁)) ∨
    rollbackFundingReserve cfg w₁ s₁ delta fail' = (.ok (), s, w) := by
  cases hf : s.funding with
  | wallet c =>
    obtain ⟨e, he⟩ | ⟨-, hok⟩ := applyQuota_cases cfg (-1) w.wallet delta fail
    · simp [reserveFunding, hf, decreaseUserQuota, he] at h
    simp only [reserveFunding, hf, decreaseUserQuota, hok, Prod.mk.injEq, true_and] at h
    obtain ⟨rfl, rfl⟩ := h
    obtain ⟨e, he⟩ | hok' :=
      increaseUserQuota_cases cfg (w.wallet + -1 * delta) delta fail'
    · exact .inl ⟨e, by simp only [rollbackFundingReserve, he]⟩
    refine .inr ?_
    have hw : w.wallet + -1 * delta + delta = w.wallet := by omega
    simp only [rollbackFundingReserve, hok', hw, add_sub_cancel_right, ← hf]
  | subscription sub =>
    obtain ⟨e, he⟩ | ⟨h0, -⟩ | ⟨row, hrow, -, -, -, -, hok⟩ :=
      postConsumeUserSubscriptionDelta_cases w.subs sub.subscriptionId delta fail
    · simp [reserveFunding, hf, he] at h
    · omega
    simp only [reserveFunding, hf, hok, Prod.mk.injEq, true_and] at h
    obtain ⟨rfl, rfl⟩ := h
    obtain ⟨e, he⟩ | ⟨h0, -⟩ | ⟨row', hrow', -, -, -, -, hok'⟩ :=
      postConsumeUserSubscriptionDelta_cases
        (w.subs.setSub sub.subscriptionId { row with amountUsed := newUsed row delta })
        sub.subscriptionId (-delta) fail'
    · exact .inl ⟨e, by simp only [rollbackFundingReserve, hf, he]⟩
    · omega
    refine .inr ?_
    rw [SubStore.setSub_subs_self] at hrow'
    obtain rfl := Option.some.inj hrow'
    have hback : ({ row with amountUsed := newUsed { row with
        amountUsed := newUsed row delta } (-delta) } : UserSubscription) = row := by
      have : newUsed { row with amountUsed := newUsed row delta } (-delta) =
          row.amountUsed := by
        simp only [newUsed]
        omega
      rw [this]
    simp only [rollbackFundingReserve, hf, hok', SubStore.setSub_setSub, hback,
      SubStore.setSub_eq_self hrow]

theorem reserveToken_cases {delta : Int} (hd : 0 < delta) (i : StepIn) :
    (∃ e, reserveToken cfg w s delta i = (.error e, w)) ∨
    reserveToken cfg w s delta i = (.ok (), tokenDebited w s.relayInfo.isPlayground delta) := by
  unfold reserveToken tokenDebited
  cases hp : s.relayInfo.isPlayground with
  | true => exact .inr (by simp)
  | false =>
    simp only [decide_eq_false (not_le.2 hd), Bool.or_self, Bool.false_eq_true, if_false]
    obtain ⟨e, he⟩ | ⟨-, hok⟩ := preConsumeTokenQuota_cases cfg false
      s.relayInfo.tokenUnlimited w.token delta i
    · exact .inl ⟨.preConsumeTokenQuotaFailed, by simp only [he]⟩
    · exact .inr (by simp only [hok, Bool.false_eq_true, if_false])

/-- The session a successful `Reserve` leaves. -/
def afterReserve (delta : Int) : Session :=
  ({ s with funding := Funding.reserved s.funding delta
            preConsumedQuota := s.preConsumedQuota + delta
            tokenConsumed := s.tokenConsumed + delta
            extraReserved := s.extraReserved + delta }).syncRelayInfo

/-- **`Reserve`, by outcome.**  It does nothing; it is refused and everything
    is as before; or the funding source gives the delta, and then either the
    token refuses and the compensation is refused too, or both are debited. -/
theorem reserve_cases (target : Int) (i : ReserveIn) : reserve cfg w s target i = (.ok (), s, w) ∨
    (∃ e, reserve cfg w s target i = (.error e, s, w)) ∨
    (s.settled = false ∧ s.refunded = false ∧ s.trusted = false ∧
      s.preConsumedQuota < target ∧
      ∃ w₁, w₁.token = w.token ∧ w₁.subs.records = w.subs.records ∧
        spent w₁ s.funding = spent w s.funding + (target - s.preConsumedQuota) ∧
        ((∃ e e', reserve cfg w s target i =
              (.error e, s.fundingReserved (target - s.preConsumedQuota), w₁) ∧
            rollbackFundingReserve cfg w₁ (s.fundingReserved (target - s.preConsumedQuota))
                (target - s.preConsumedQuota) i.rollbackFail =
              (.error e', s.fundingReserved (target - s.preConsumedQuota), w₁)) ∨
          reserve cfg w s target i = (.ok (), s.afterReserve (target - s.preConsumedQuota),
            tokenDebited w₁ s.relayInfo.isPlayground (target - s.preConsumedQuota)))) := by
  unfold reserve
  by_cases hno : s.settled || s.refunded || s.trusted || decide (target ≤ s.preConsumedQuota)
  · exact .inl (if_pos hno)
  rw [if_neg hno]
  obtain ⟨⟨⟨hs, hr⟩, ht⟩, hlt⟩ : ((s.settled = false ∧ s.refunded = false) ∧
      s.trusted = false) ∧ s.preConsumedQuota < target := by
    simpa using hno
  have hd : 0 < target - s.preConsumedQuota := by omega
  obtain ⟨e, he⟩ | ⟨w₁, hok, htoken, hrec, hspent⟩ :=
    reserveFunding_cases cfg w s hd i.fundingFail
  · exact .inr (.inl ⟨e, by simp only [he]⟩)
  simp only [hok]
  obtain ⟨e, he⟩ | htok := reserveToken_cases cfg w₁
    (s.fundingReserved (target - s.preConsumedQuota)) hd i.token
  · simp only [he]
    obtain ⟨e', he'⟩ | hback := rollbackFundingReserve_cases cfg w w₁ s _ hd i.fundingFail
      i.rollbackFail hok
    · refine .inr (.inr ⟨hs, hr, ht, hlt, w₁, htoken, hrec, hspent, .inl ⟨e, e', ?_, he'⟩⟩)
      simp only [he']
    · exact .inr (.inl ⟨e, by simp only [hback]⟩)
  · simp only [htok]
    exact .inr (.inr ⟨hs, hr, ht, hlt, w₁, htoken, hrec, hspent, .inr rfl⟩)

def Replayed (w' : Stores) : Prop :=
  ∃ sub r, s.funding = .subscription sub ∧ w.subs.records sub.requestId = some r ∧
    w'.subs = w.subs

theorem preConsume_ok {s : Session} {q : Int} (hb : Built q s)
    (i : PreConsumeIn) {s' : Session} {w' : Stores}
    (h : s.preConsume cfg w q i = (.ok (), s', w')) : s'.preConsumedQuota = s.effectiveQuota cfg q ∧
    w'.token = (tokenDebited w s.relayInfo.isPlayground s'.preConsumedQuota).token ∧
    (spent w' s'.funding = spentAfterReset w s'.funding + s'.preConsumedQuota ∨
      Replayed w s w') := by
  obtain ⟨e, s₁, w₁, he, -⟩ | ⟨f', w₁, hok, hf⟩ := preConsume_cases cfg w hb i
  · rw [he] at h
    simp at h
  rw [hok] at h
  obtain ⟨rfl, rfl⟩ := h
  have hpre : (afterPreConsume cfg s q f').preConsumedQuota = s.effectiveQuota cfg q := by
    simp [afterPreConsume]
  have hfun : (afterPreConsume cfg s q f').funding = f' := by
    simp [afterPreConsume]
  rw [hpre, hfun]
  refine ⟨rfl, ?_⟩
  obtain ⟨e, he⟩ | ⟨c, -, hw⟩ | ⟨sub, r, hs, hrec, hw⟩ | ⟨sub, id, st, hs, -, -, hu, -, hw⟩ :=
    Funding.preConsume_cases (tokenDebited w s.relayInfo.isPlayground (s.effectiveQuota cfg q))
      s.funding (s.effectiveQuota cfg q) i.funding
  · rw [he] at hf
    simp at hf
  · rw [hw] at hf
    obtain ⟨rfl, rfl⟩ := hf
    have hnn := hb.effectiveQuota_nonneg cfg
    refine ⟨rfl, .inl ?_⟩
    simp only [spent, spentAfterReset, tokenDebited]
    omega
  · rw [hw] at hf
    obtain ⟨rfl, rfl⟩ := hf
    exact ⟨rfl, .inr ⟨sub, r, hs, hrec, rfl⟩⟩
  rw [hw] at hf
  obtain ⟨rfl, rfl⟩ := hf
  refine ⟨rfl, .inl ?_⟩
  rw [← hb.amount_eq hs]
  exact hu

/-- The reservation of `delta` is still taken after an error: the token refused
    it, and so did the compensation. -/
def FundingStuck (delta : Int) (i : ReserveIn) (w' : Stores) : Prop :=
  (∃ e s', rollbackFundingReserve cfg w' (s.fundingReserved delta) delta i.rollbackFail =
    (.error e, s', w')) ∧
  w'.token = w.token ∧ spent w' s.funding = spent w s.funding + delta

theorem reserve_error (target : Int) (i : ReserveIn) {e : ErrorCode} {s' : Session} {w' : Stores}
    (h : s.reserve cfg w target i = (.error e, s', w')) : s'.preConsumedQuota = s.preConsumedQuota ∧
    (w' = w ∨ FundingStuck cfg w s (target - s.preConsumedQuota) i w') := by
  obtain hno | ⟨e', he⟩ | ⟨-, -, -, -, w₁, htoken, -, hspent, ⟨e', e'', he, hback⟩ | hok⟩ :=
    reserve_cases cfg w s target i
  · rw [hno] at h
    simp at h
  · rw [he] at h
    obtain ⟨-, rfl, rfl⟩ := h
    exact ⟨rfl, .inl rfl⟩
  · rw [he] at h
    obtain ⟨-, rfl, rfl⟩ := h
    exact ⟨rfl, .inr ⟨⟨e'', _, hback⟩, htoken, hspent⟩⟩
  · rw [hok] at h
    simp at h

theorem spent_reserved (f : Funding) (delta : Int) : spent w (f.reserved delta) = spent w f := by
  cases f <;> rfl

theorem reserve_ok (target : Int) (i : ReserveIn) {s' : Session} {w' : Stores}
    (h : s.reserve cfg w target i = (.ok (), s', w')) :
    w'.token = (tokenDebited w s.relayInfo.isPlayground
      (s'.preConsumedQuota - s.preConsumedQuota)).token ∧
    spent w' s'.funding = spent w s.funding + (s'.preConsumedQuota - s.preConsumedQuota) := by
  obtain hno | ⟨e', he⟩ | ⟨-, -, -, -, w₁, htoken, -, hspent, ⟨e', e'', he, hback⟩ | hok⟩ :=
    reserve_cases cfg w s target i
  · rw [hno] at h
    obtain ⟨rfl, rfl⟩ := h
    rw [sub_self, add_zero]
    refine ⟨?_, rfl⟩
    simp only [tokenDebited, sub_zero, ite_self]
  · rw [he] at h
    simp at h
  · rw [he] at h
    simp at h
  rw [hok] at h
  obtain ⟨rfl, rfl⟩ := h
  have hgrow : (s.afterReserve (target - s.preConsumedQuota)).preConsumedQuota -
      s.preConsumedQuota = target - s.preConsumedQuota := by
    simp [afterReserve]
  have hfund : (s.afterReserve (target - s.preConsumedQuota)).funding =
      s.funding.reserved (target - s.preConsumedQuota) := by
    simp [afterReserve]
  rw [hgrow, hfund, spent_reserved, ← hspent]
  refine ⟨?_, ?_⟩
  · simp only [tokenDebited, htoken]
  · cases s.funding <;> rfl

/-- **Pre-consume and reserve are atomic up to a refused compensation.**  After
    an error every balance is what it was, except for exactly the one debit
    whose compensating step was refused too; after a success the token (outside
    the playground) and the funding source are both debited by what
    `preConsumedQuota` grew, except that a request already on record is
    answered without a second charge of the subscription. -/
theorem preConsume_reserve_atomic (cfg : Config) (w : Stores) (q : Int) (s : Session)
    (hb : Built q s) (i : PreConsumeIn) (t : Session) (target : Int) (j : ReserveIn) :
    (∀ e s' w', s.preConsume cfg w q i = (.error e, s', w') →
      w' = w ∨ TokenStuck cfg w s (s.effectiveQuota cfg q) i w') ∧
    (∀ s' w', s.preConsume cfg w q i = (.ok (), s', w') →
      s.preConsumedQuota = 0 ∧ s'.preConsumedQuota = s.effectiveQuota cfg q ∧
      w'.token = (tokenDebited w s.relayInfo.isPlayground s'.preConsumedQuota).token ∧
      (spent w' s'.funding = spentAfterReset w s'.funding + s'.preConsumedQuota ∨
        Replayed w s w')) ∧
    (∀ e t' w', t.reserve cfg w target j = (.error e, t', w') →
      t'.preConsumedQuota = t.preConsumedQuota ∧
      (w' = w ∨ FundingStuck cfg w t (target - t.preConsumedQuota) j w')) ∧
    (∀ t' w', t.reserve cfg w target j = (.ok (), t', w') →
      w'.token = (tokenDebited w t.relayInfo.isPlayground
        (t'.preConsumedQuota - t.preConsumedQuota)).token ∧
      spent w' t'.funding = spent w t.funding + (t'.preConsumedQuota - t.preConsumedQuota)) := by
  refine ⟨?_, ?_, ?_, ?_⟩
  · intro e s' w' h
    obtain ⟨e', s₁, w₁, he, hw⟩ | ⟨f', w₁, hok, -⟩ := preConsume_cases cfg w hb i
    · rw [he] at h
      obtain ⟨-, -, rfl⟩ := h
      exact hw
    · rw [hok] at h
      simp at h
  · intro s' w' h
    have h0 : s.preConsumedQuota = 0 := by cases hb <;> rfl
    exact ⟨h0, preConsume_ok cfg w hb i h⟩
  · intro e t' w' h
    exact reserve_error cfg w t target j h
  · intro t' w' h
    exact reserve_ok cfg w t target j h

def directConfig : Config := { batchUpdateEnabled := false, trustQuota := 0 }

def walletStores : Stores :=
  { wallet := 1000, token := 120, subs := { subs := fun _ => none, records := fun _ => none } }

theorem preConsume_reserve_atomic_walletStores :
    ∃ s' w', (walletSession {}).preConsume directConfig walletStores 100 {} = (.ok (), s', w') ∧
      s'.preConsumedQuota = 100 ∧ w'.token = 20 ∧
      (spent w' s'.funding = spentAfterReset walletStores s'.funding + s'.preConsumedQuota ∨
        Replayed walletStores (walletSession {}) w') := by
  have h := preConsume_reserve_atomic directConfig walletStores 100 (walletSession {})
    (.wallet {} (by decide)) {} (walletSession {}) 0 {}
  obtain ⟨-, hpre, htoken, hspent⟩ := h.2.1 _ _ rfl
  exact ⟨_, _, rfl, hpre, htoken, hspent⟩

def heldSession : Session :=
  { relayInfo := {}, funding := .wallet 100, preConsumedQuota := 100, tokenConsumed := 100 }

/-- `Reserve` to 200 on a token of 120: the token refuses, the credit that
    should undo the wallet debit fails, and the caller gets an error with 100
    off the wallet. -/
theorem reserve_error_keeps_debit :
    ∃ e s' w', heldSession.reserve directConfig { walletStores with token := 20 } 200
        { rollbackFail := true } = (.error e, s', w') ∧
      w'.wallet = 900 ∧ walletStores.wallet = 1000 ∧
      s'.preConsumedQuota = heldSession.preConsumedQuota :=
  ⟨_, _, _, rfl, rfl, rfl, rfl⟩

end Session

/-! ## NewBillingSession -/

variable (cfg : Config)

variable (w : Stores)

/-- How opening a session ends: refused, with the wallet and the subscriptions
    as they were; or with a session that was built by one of the two literals
    and has just pre-consumed. -/
def Opens (requestId : String) (out : Except ErrorCode Session × Stores) : Prop :=
  (∃ e w', out = (.error e, w') ∧ w'.wallet = w.wallet ∧ w'.subs = w.subs) ∨
  (∃ s' w' w₁ s q j, out = (.ok s', w') ∧ Built q s ∧
    s.preConsume cfg w₁ q j = (.ok (), s', w') ∧ w₁.wallet = w.wallet ∧ w₁.subs = w.subs ∧
    ∀ sub, s.funding = .subscription sub → sub.requestId = requestId)

theorem Opens.of_eq {cfg : Config} {w v : Stores} {rid : String}
    {out : Except ErrorCode Session × Stores} (h : Opens cfg v rid out)
    (hw : v.wallet = w.wallet) (hs : v.subs = w.subs) : Opens cfg w rid out := by
  rcases h with ⟨e, w', h1, h2, h3⟩ | ⟨s', w', w₁, s, q, j, h1, hb, hpre, h2, h3, hid⟩
  · exact .inl ⟨e, w', h1, h2.trans hw, h3.trans hs⟩
  · exact .inr ⟨s', w', w₁, s, q, j, h1, hb, hpre, h2.trans hw, h3.trans hs, hid⟩

theorem openWith_opens {s : Session} {q : Int} (hb : Built q s)
    (i : Session.PreConsumeIn) {rid : String}
    (hid : ∀ sub, s.funding = .subscription sub → sub.requestId = rid) :
    Opens cfg w rid (openWith cfg w s q i) := by
  rcases Session.preConsume_cases cfg w hb i with ⟨e, s', w', he, hw⟩ | ⟨f', w', hok, -⟩
  · refine .inl ⟨e, w', by simp only [openWith, he], ?_⟩
    rcases hw with rfl | ⟨-, -, -, rfl⟩
    · exact ⟨rfl, rfl⟩
    · exact ⟨rfl, rfl⟩
  · exact .inr ⟨_, w', w, s, q, i, by simp only [openWith, hok], hb, hok, rfl, rfl, hid⟩

theorem tryWallet_opens (info : RelayInfo) {quota : Int} (hq : 0 ≤ quota) (i : OpenIn) :
    Opens cfg w i.requestId (tryWallet cfg w info quota i) := by
  unfold tryWallet
  split
  · exact .inl ⟨_, w, rfl, rfl, rfl⟩
  split
  · exact .inl ⟨_, w, rfl, rfl, rfl⟩
  refine openWith_opens cfg w (.wallet _ hq) i.wallet ?_
  intro sub h
  cases h

theorem trySubscription_opens (info : RelayInfo) (quota : Int)
    (i : OpenIn) : Opens cfg w i.requestId (trySubscription cfg w info quota i) := by
  have hpos : 0 < subConsume quota := by
    unfold subConsume
    split <;> omega
  refine openWith_opens cfg w (.subscription info i.requestId i.userId hpos) i.subscription ?_
  intro sub h
  cases h
  rfl

theorem Opens.orElse {cfg : Config} {w : Stores} {rid : String}
    {out : Except ErrorCode Session × Stores} (h : Opens cfg w rid out)
    {next : Stores → Except ErrorCode Session × Stores}
    (hnext : ∀ v, v.wallet = w.wallet → v.subs = w.subs → Opens cfg v rid (next v)) :
    Opens cfg w rid (match out with
      | (.error .insufficientUserQuota, w) => next w
      | r => r) := by
  rcases h with ⟨e, w', rfl, h2, h3⟩ | ⟨s', w', w₁, s, q, j, rfl, hrest⟩
  · cases e with
    | insufficientUserQuota => exact (hnext w' h2 h3).of_eq h2 h3
    | _ => exact .inl ⟨_, w', rfl, h2, h3⟩
  · exact .inr ⟨s', w', w₁, s, q, j, rfl, hrest⟩

/-- **`NewBillingSession`, by outcome**, whatever the preference. -/
theorem newBillingSession_opens (info : RelayInfo)
    (pref : BillingPreference) {quota : Int} (hq : 0 ≤ quota) (i : OpenIn) :
    Opens cfg w i.requestId (newBillingSession cfg w info pref quota i) := by
  cases pref with
  | subscriptionOnly => exact trySubscription_opens cfg w info quota i
  | walletOnly => exact tryWallet_opens cfg w info hq i
  | walletFirst =>
    exact (tryWallet_opens cfg w info hq i).orElse
      fun v _ _ => trySubscription_opens cfg v info quota i
  | subscriptionFirst =>
    simp only [newBillingSession]
    split
    · exact .inl ⟨_, w, rfl, rfl, rfl⟩
    · exact tryWallet_opens cfg w info hq i
    refine (trySubscription_opens cfg w info quota i).orElse fun v hw hs => ?_
    split
    · exact .inl ⟨_, v, rfl, rfl, rfl⟩
    · exact tryWallet_opens cfg v info hq i
    · exact .inl ⟨_, v, rfl, rfl, rfl⟩

end NewApi.Billing
