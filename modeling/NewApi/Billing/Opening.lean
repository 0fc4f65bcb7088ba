/-
  NewApi.Billing.Opening

  Which funding source `NewBillingSession` charges.

  The factory asks three questions about the user's active subscriptions, each
  with a query of its own: are there any (`HasActiveUserSubscription`), which
  one has room (the locking query of `PreConsumeUserSubscription`), may the
  wallet stand in (`UserActiveSubscriptionsAllowWalletOverflow`).  An
  `ActiveView` holds what the three get to see; the sets differ where a
  subscription is bought or ends in between.

  The first and the last report a failed query as one.  The locking query does
  not: its error leaves the function as `no active subscription`, which
  `preConsume` maps to the same code as a subscription that is short, and the
  factory falls back to the wallet on that code.
-/

import NewApi.Billing.Atomicity

namespace NewApi.Billing

open Subscription

/-! ## The three queries -/

/-- A row `status = active AND end_time > now` of the user. -/
structure ActiveRow where
  id : Int
  allowWalletOverflow : Bool

/-- What each of the three queries selects, and whether it errors. -/
structure ActiveView where
  counted : List ActiveRow
  countFail : Bool := false
  locked : List ActiveRow
  lockFail : Bool := false
  strict : List ActiveRow
  strictFail : Bool := false

def hasActiveUserSubscription (userId : Int) (v : ActiveView) : Except Err Bool :=
  if userId ≤ 0 then .error .invalidId
  else if v.countFail then .error .database
  else .ok (0 < v.counted.length)

def userActiveSubscriptionsAllowWalletOverflow (userId : Int) (v : ActiveView) : Except Err Bool :=
  if userId ≤ 0 then .error .invalidId
  else if v.strictFail then .error .database
  else
    let strictCount := v.strict.countP fun row => !row.allowWalletOverflow
    .ok (strictCount = 0)

/-- The rows the candidate loop of `PreConsumeUserSubscription` goes through:
    an error of the locking query ends like an empty result, as
    `no active subscription`. -/
def ActiveView.candidates (v : ActiveView) : List Int :=
  if v.lockFail then [] else v.locked.map (·.id)

/-- The inputs of `NewBillingSession`, with its three queries run on `v`. -/
def OpenIn.over (i : OpenIn) (v : ActiveView) : OpenIn :=
  { i with
    hasActiveSubscription := hasActiveUserSubscription i.userId v
    allowWalletOverflow := userActiveSubscriptionsAllowWalletOverflow i.userId v
    subscription := { i.subscription with
      funding := { i.subscription.funding with active := v.candidates } } }

variable {v : ActiveView}

theorem hasActive_false {userId : Int}
    (h : hasActiveUserSubscription userId v = .ok false) : v.counted = [] := by
  unfold hasActiveUserSubscription at h
  split at h
  · simp at h
  split at h
  · simp at h
  · simpa using h

theorem allowOverflow_true {userId : Int}
    (h : userActiveSubscriptionsAllowWalletOverflow userId v = .ok true) :
    ∀ row ∈ v.strict, row.allowWalletOverflow = true := by
  unfold userActiveSubscriptionsAllowWalletOverflow at h
  split at h
  · simp at h
  split at h
  · simp at h
  · simpa [List.countP_eq_zero] using h

/-! ## What an opened session holds -/

/-- `BillingSourceWallet`, `BillingSourceSubscription` -/
inductive Source where
  | wallet
  | subscription
deriving DecidableEq

def Funding.source : Funding → Source
  | .wallet _ => .wallet
  | .subscription _ => .subscription

/-- The wallet is down by what the session pre-consumed, the subscriptions are
    as they were. -/
def HeldByWallet (w : Stores) (s : Session) (w' : Stores) : Prop :=
  s.funding = .wallet s.preConsumedQuota ∧
    w'.wallet = w.wallet - s.preConsumedQuota ∧ w'.subs = w.subs

/-- One subscription has used that much more and has it on record under the
    request id; every other row and record, and the wallet, are as they were,
    a due reset of a row apart. -/
def HeldBySubscription (w : Stores) (s : Session) (w' : Stores) : Prop :=
  ∃ sub : SubscriptionFunding, s.funding = .subscription sub ∧
    sub.preConsumed = s.preConsumedQuota ∧
    used w'.subs sub.subscriptionId =
      usedAfterReset w.subs sub.subscriptionId + s.preConsumedQuota ∧
    w'.subs.records = Function.update w.subs.records sub.requestId
      (some { userSubscriptionId := sub.subscriptionId, preConsumed := s.preConsumedQuota,
              status := .consumed }) ∧
    (∀ id, id ≠ sub.subscriptionId → w'.subs.subs id = w.subs.subs id ∨
      w'.subs.subs id = (w.subs.subs id).map maybeReset) ∧
    w'.wallet = w.wallet

/-- The request was on record: the session carries the earlier charge and
    nothing moved. -/
def AnsweredFromRecord (w : Stores) (s : Session) (w' : Stores) : Prop :=
  ∃ (sub : SubscriptionFunding) (r : PreConsumeRecord), s.funding = .subscription sub ∧
    w.subs.records sub.requestId = some r ∧ sub.subscriptionId = r.userSubscriptionId ∧
    sub.preConsumed = r.preConsumed ∧ w'.subs = w.subs ∧ w'.wallet = w.wallet

def HeldByOne (w : Stores) (s : Session) (w' : Stores) : Prop :=
  HeldByWallet w s w' ∨ HeldBySubscription w s w' ∨ AnsweredFromRecord w s w'

/-- What a refused attempt leaves off the token: nothing, or the whole debit
    whose compensating credit was refused too. -/
def Stuck (cfg : Config) (info : RelayInfo) (j : Session.PreConsumeIn) (q d : Int) : Prop :=
  d = 0 ∨ (j.rollbackFail = true ∧ cfg.batchUpdateEnabled = false ∧
    info.isPlayground = false ∧ d = q)

variable {w w' : Stores} {s : Session}

theorem HeldByOne.of_eq {v : Stores} (h : HeldByOne v s w')
    (hw : v.wallet = w.wallet) (hs : v.subs = w.subs) : HeldByOne w s w' := by
  unfold HeldByOne HeldByWallet HeldBySubscription AnsweredFromRecord at h ⊢
  rwa [hw, hs] at h

theorem preConsumeUserSubscription_charge {st st' : SubStore} {rid : String}
    {uid amount : Int} {active : List Int} {fail : Bool} {res : PreConsumeResult}
    (hrec : st.records rid = none)
    (h : preConsumeUserSubscription st rid uid amount active fail = (.ok res, st')) :
    res.preConsumed = amount ∧
    (used st' res.userSubscriptionId : Int) = usedAfterReset st res.userSubscriptionId + amount ∧
    st'.records = Function.update st.records rid
      (some { userSubscriptionId := res.userSubscriptionId, preConsumed := amount,
              status := .consumed }) ∧
    ∀ id, id ≠ res.userSubscriptionId →
      st'.subs id = st.subs id ∨ st'.subs id = (st.subs id).map maybeReset := by
  obtain ⟨e, he⟩ | ⟨r, -, hr, -⟩ | ⟨st₁, res₁, -, hpos, hch, hok⟩ :=
    preConsumeUserSubscription_cases st rid uid amount active fail
  · rw [he] at h
    simp at h
  · rw [hrec] at hr
    simp at hr
  rw [hok] at h
  obtain ⟨rfl, rfl⟩ := h
  obtain ⟨hrecords, hpre, ⟨row, hrow, hbefore⟩, hafter, hsub, -⟩ := chargeFirst_some hpos hch
  have hframe := chargeFirst_frame hch
  refine ⟨hpre, ?_, ?_, hframe⟩
  · rw [used_setRecord]
    simp only [used, hsub, usedAfterReset, hrow, hbefore, hafter]
  · simp only [SubStore.setRecord, hrecords]

/-- **A funding step that succeeds charges its own source only.** -/
theorem afterPreConsume_held (cfg : Config) (w : Stores) {q : Int}
    (hb : Built q s) (j : Session.PreConsumeIn) {f : Funding} (h : s.funding.preConsume
        (Session.tokenDebited w s.relayInfo.isPlayground (s.effectiveQuota cfg q))
        (s.effectiveQuota cfg q) j.funding = (.ok (), f, w')) :
    HeldByOne w (s.afterPreConsume cfg q f) w' ∧ f.source = s.funding.source := by
  have hpre : (s.afterPreConsume cfg q f).preConsumedQuota = s.effectiveQuota cfg q := by
    simp [Session.afterPreConsume]
  have hfun : (s.afterPreConsume cfg q f).funding = f := by
    simp [Session.afterPreConsume]
  cases hb with
  | wallet info hq =>
    have hnn := (Built.wallet info hq).effectiveQuota_nonneg cfg
    obtain ⟨e, he⟩ | ⟨c, hc, hok⟩ | ⟨sub, -, hs, -⟩ | ⟨sub, -, -, hs, -⟩ :=
      Funding.preConsume_cases
        (Session.tokenDebited w (walletSession info).relayInfo.isPlayground
          ((walletSession info).effectiveQuota cfg q))
        (walletSession info).funding ((walletSession info).effectiveQuota cfg q) j.funding
    · rw [he] at h
      simp at h
    · rw [hok] at h
      obtain ⟨rfl, rfl⟩ := h
      obtain rfl : 0 = c := by simpa [walletSession] using hc
      refine ⟨.inl ⟨?_, ?_, rfl⟩, rfl⟩
      · rw [hfun, hpre]
        congr 1
        split <;> omega
      · rw [hpre, max_eq_left hnn]
        rfl
    · simp [walletSession] at hs
    · simp [walletSession] at hs
  | subscription info rid uid hq =>
    have hq' : q = (subscriptionSession info rid uid q).effectiveQuota cfg q :=
      (Built.subscription info rid uid hq).amount_eq rfl
    simp only [Funding.preConsume, subscriptionSession] at h
    generalize hp : preConsumeUserSubscription _ _ _ _ _ _ = out at h
    -- the token's debit is in another store
    replace hp : preConsumeUserSubscription w.subs rid uid q j.funding.active
        j.funding.subFail = out := hp
    obtain ⟨_ | res, st'⟩ := out
    · simp at h
    obtain ⟨rfl, rfl⟩ := h
    refine ⟨.inr ?_, rfl⟩
    cases hrec : w.subs.records rid with
    | none =>
      obtain ⟨hres, hused, hrecords, hframe⟩ :=
        preConsumeUserSubscription_charge hrec hp
      refine .inl ⟨_, hfun, ?_⟩
      rw [hpre, ← hq']
      exact ⟨hres, hused, hrecords, hframe, rfl⟩
    | some r =>
      refine .inr ⟨_, r, hfun, hrec, ?_⟩
      obtain ⟨e, he⟩ | ⟨r', sub, hr, -, hok⟩ | ⟨_, _, hr, -⟩ :=
        preConsumeUserSubscription_cases w.subs rid uid q j.funding.active
          j.funding.subFail
      · rw [he] at hp
        simp at hp
      · obtain rfl := Option.some.inj (hrec.symm.trans hr)
        rw [hok] at hp
        obtain ⟨rfl, rfl⟩ := hp
        exact ⟨rfl, rfl, rfl, rfl⟩
      · rw [hrec] at hr
        simp at hr

/-! ## One attempt -/

/-- **One attempt, by outcome.** -/
theorem openWith_held (cfg : Config) (w : Stores) {q : Int} (hb : Built q s)
    (j : Session.PreConsumeIn) :
    (∃ e w', openWith cfg w s q j = (.error e, w') ∧ w'.wallet = w.wallet ∧
      w'.subs = w.subs ∧ Stuck cfg s.relayInfo j q (w.token - w'.token)) ∨
    (∃ s' w', openWith cfg w s q j = (.ok s', w') ∧ HeldByOne w s' w' ∧
      s'.funding.source = s.funding.source) := by
  rcases Session.preConsume_cases cfg w hb j with ⟨e, s', w', he, hw⟩ | ⟨f', w', hok, hf⟩
  · refine .inl ⟨e, w', by simp only [openWith, he], ?_⟩
    rcases hw with rfl | ⟨hroll, hbatch, hplay, rfl⟩
    · exact ⟨rfl, rfl, .inl (sub_self _)⟩
    refine ⟨rfl, rfl, ?_⟩
    have hd : w.token - (w.token - s.effectiveQuota cfg q) = s.effectiveQuota cfg q := by
      omega
    rw [hd]
    unfold Session.effectiveQuota
    split
    · exact .inl rfl
    · exact .inr ⟨hroll, hbatch, hplay, rfl⟩
  obtain ⟨hheld, hsource⟩ := afterPreConsume_held cfg w hb j hf
  refine .inr ⟨_, w', by simp only [openWith, hok], hheld, ?_⟩
  have hfun : (s.afterPreConsume cfg q f').funding = f' := by
    simp [Session.afterPreConsume]
  rw [hfun, hsource]

def Short (w : Stores) (requestId : String) (amount : Int) (v : ActiveView) : Prop :=
  w.subs.records requestId = none ∧
    ∀ a ∈ v.locked, ∀ row, w.subs.subs a.id = some row → LacksRoom amount row

theorem preConsumeUserSubscription_short {st st' : SubStore} {rid : String} {uid amount : Int}
    {active : List Int} {fail : Bool} {e : Err}
    (h : preConsumeUserSubscription st rid uid amount active fail = (.error e, st'))
    (hcode : Session.fundingErrorCode e = .insufficientUserQuota) : st.records rid = none ∧
      ∀ id ∈ active, ∀ row, st.subs id = some row → LacksRoom amount row := by
  unfold preConsumeUserSubscription at h
  split at h
  · simp only [Prod.mk.injEq, Except.error.injEq] at h
    obtain ⟨rfl, -⟩ := h
    cases hcode
  split at h
  · simp only [Prod.mk.injEq, Except.error.injEq] at h
    obtain ⟨rfl, -⟩ := h
    cases hcode
  split at h
  · simp only [Prod.mk.injEq, Except.error.injEq] at h
    obtain ⟨rfl, -⟩ := h
    cases hcode
  split at h
  · simp only [Prod.mk.injEq, Except.error.injEq] at h
    obtain ⟨rfl, -⟩ := h
    cases hcode
  cases hrec : st.records rid with
  | some r =>
    rw [hrec] at h
    cases hst : r.status with
    | refunded =>
      simp only [hst, Prod.mk.injEq, Except.error.injEq] at h
      obtain ⟨rfl, -⟩ := h
      cases hcode
    | consumed =>
      cases hsub : st.subs r.userSubscriptionId with
      | none =>
        simp only [hst, hsub, Prod.mk.injEq, Except.error.injEq] at h
        obtain ⟨rfl, -⟩ := h
        cases hcode
      | some sub => simp [hst, hsub] at h
  | none =>
    refine ⟨rfl, ?_⟩
    rw [hrec] at h
    cases hact : active with
    | nil => simp
    | cons id rest =>
      rw [← hact]
      cases hch : chargeFirst amount st active with
      | none => exact chargeFirst_none hch
      | some p => simp [hact, hact ▸ hch] at h

variable {cfg : Config} {quota : Int}

theorem chargeToken_error {s' : Session} {i : StepIn} {e : ErrorCode}
    (h : Session.chargeToken cfg w s quota i = (.error e, s', w')) :
    e = .preConsumeTokenQuotaFailed := by
  unfold Session.chargeToken at h
  split at h
  · split at h
    · simp only [Prod.mk.injEq, Except.error.injEq] at h
      exact h.1.symm
    · simp at h
  · simp at h

theorem preConsume_insufficient {s' : Session} {q : Int} {j : Session.PreConsumeIn}
    (h : s.preConsume cfg w q j = (.error .insufficientUserQuota, s', w')) :
    ∃ e f w₁ w₂, w₁.subs = w.subs ∧
      s.funding.preConsume w₁ (s.effectiveQuota cfg q) j.funding = (.error e, f, w₂) ∧
      Session.fundingErrorCode e = .insufficientUserQuota := by
  unfold Session.preConsume at h
  simp only at h
  obtain ⟨e, he⟩ | hok := Session.chargeToken_cases cfg w
    { s with trusted := s.shouldTrust cfg || s.trusted } (s.effectiveQuota cfg q) j.token
  · have hcode := chargeToken_error he
    rw [he] at h
    simp [hcode] at h
  rw [hok] at h
  rcases hf : s.funding.preConsume (Session.tokenDebited w s.relayInfo.isPlayground
    (max (s.effectiveQuota cfg q) 0)) (s.effectiveQuota cfg q) j.funding with
    ⟨e | ⟨⟩, f, w₂⟩
  · simp only [hf, Prod.mk.injEq, Except.error.injEq] at h
    exact ⟨e, f, Session.tokenDebited w _ _, w₂, rfl, hf, h.1⟩
  · simp [hf] at h

variable {info : RelayInfo} {i : OpenIn}

theorem trySubscription_short
     (hlock : v.lockFail = false)
    (h : trySubscription cfg w info quota (i.over v) = (.error .insufficientUserQuota, w')) :
    Short w i.requestId (subConsume quota) v := by
  unfold trySubscription openWith at h
  generalize hp : Session.preConsume cfg w _ _ _ = out at h
  obtain ⟨_ | ⟨⟩, s', w₁⟩ := out
  · simp only [Prod.mk.injEq, Except.error.injEq] at h
    obtain ⟨rfl, rfl⟩ := h
    obtain ⟨e, f, w₁, w₂, hw, hf, hcode⟩ := preConsume_insufficient hp
    simp only [Funding.preConsume, subscriptionSession] at hf
    generalize hs : preConsumeUserSubscription _ _ _ _ _ _ = res at hf
    obtain ⟨e' | _, st'⟩ := res
    · simp only [Prod.mk.injEq, Except.error.injEq] at hf
      obtain ⟨rfl, -, -⟩ := hf
      rw [hw] at hs
      obtain ⟨hrec, hall⟩ := preConsumeUserSubscription_short hs hcode
      refine ⟨hrec, ?_⟩
      intro a ha row hrow
      refine hall a.id ?_ row hrow
      show a.id ∈ v.candidates
      rw [ActiveView.candidates, hlock]
      exact List.mem_map_of_mem ha
    · simp at hf
  · simp at h

/-! ## NewBillingSession -/

def TokenLeft (cfg : Config) (info : RelayInfo) (quota : Int) (i : OpenIn) (w w' : Stores) : Prop :=
  ∃ a b, w.token - w'.token = a + b ∧ Stuck cfg info i.wallet quota a ∧
    Stuck cfg info i.subscription (subConsume quota) b

/-- The two ends of an opening that may try both sources. -/
def Ends (cfg : Config) (info : RelayInfo) (quota : Int) (i : OpenIn) (w : Stores)
    (out : Except ErrorCode Session × Stores) : Prop :=
  (∃ e w', out = (.error e, w') ∧ w'.wallet = w.wallet ∧ w'.subs = w.subs ∧
    TokenLeft cfg info quota i w w') ∨
  (∃ s' w', out = (.ok s', w') ∧ HeldByOne w s' w')

section Attempts

variable (cfg : Config) (w : Stores) (info : RelayInfo) {quota : Int}

theorem tryWallet_held (hq : 0 ≤ quota) (i : OpenIn) :
    (∃ e w', tryWallet cfg w info quota i = (.error e, w') ∧ w'.wallet = w.wallet ∧
      w'.subs = w.subs ∧ Stuck cfg info i.wallet quota (w.token - w'.token)) ∨
    (∃ s' w', tryWallet cfg w info quota i = (.ok s', w') ∧ HeldByOne w s' w' ∧
      s'.funding.source = .wallet) := by
  unfold tryWallet
  split
  · exact .inl ⟨_, w, rfl, rfl, rfl, .inl (sub_self _)⟩
  split
  · exact .inl ⟨_, w, rfl, rfl, rfl, .inl (sub_self _)⟩
  · exact openWith_held cfg w (.wallet _ hq) i.wallet

theorem trySubscription_held (quota : Int) (i : OpenIn) :
    (∃ e w', trySubscription cfg w info quota i = (.error e, w') ∧ w'.wallet = w.wallet ∧
      w'.subs = w.subs ∧
      Stuck cfg info i.subscription (subConsume quota) (w.token - w'.token)) ∨
    (∃ s' w', trySubscription cfg w info quota i = (.ok s', w') ∧ HeldByOne w s' w' ∧
      s'.funding.source = .subscription) := by
  have hpos : 0 < subConsume quota := by
    unfold subConsume
    split <;> omega
  exact openWith_held cfg w (.subscription info i.requestId i.userId hpos) i.subscription

end Attempts

theorem HeldByOne.source_wallet (h : HeldByOne w s w')
    (hs : s.funding.source = .wallet) : w'.subs = w.subs := by
  rcases h with ⟨-, -, h⟩ | ⟨sub, hf, -⟩ | ⟨sub, r, hf, -⟩
  · exact h
  · rw [hf] at hs
    cases hs
  · rw [hf] at hs
    cases hs

theorem HeldByOne.source_subscription (h : HeldByOne w s w')
    (hs : s.funding.source = .subscription) : w'.wallet = w.wallet := by
  rcases h with ⟨hf, -⟩ | ⟨sub, -, -, -, -, -, h⟩ | ⟨sub, r, -, -, -, -, -, h⟩
  · rw [hf] at hs
    cases hs
  · exact h
  · exact h

/-- A wallet session under a preference that puts the subscription first has a
    reason: none was active, or all of them were short and each allows it. -/
def WalletJustified (w : Stores) (requestId : String) (quota : Int) (v : ActiveView) : Prop :=
  v.counted = [] ∨
    (Short w requestId (subConsume quota) v ∧ ∀ a ∈ v.strict, a.allowWalletOverflow = true)

theorem TokenLeft.wallet (h : Stuck cfg info i.wallet quota (w.token - w'.token)) :
    TokenLeft cfg info quota i w w' :=
  ⟨_, 0, (add_zero _).symm, h, .inl rfl⟩

theorem TokenLeft.subscription
    (h : Stuck cfg info i.subscription (subConsume quota) (w.token - w'.token)) :
    TokenLeft cfg info quota i w w' :=
  ⟨0, _, (zero_add _).symm, .inl rfl, h⟩

theorem wallet_then_subscription (cfg : Config) (w : Stores) (info : RelayInfo)
    (hq : 0 ≤ quota) (i : OpenIn) :
    Ends cfg info quota i w (newBillingSession cfg w info .walletFirst quota i) := by
  unfold newBillingSession
  rcases tryWallet_held cfg w info hq i with ⟨e, v, he, hwal, hsub, ha⟩ |
    ⟨s, v, hok, hheld, -⟩
  · rw [he]
    by_cases hcode : e = .insufficientUserQuota
    · subst hcode
      rcases trySubscription_held cfg v info quota i with ⟨e', w', he', hwal', hsub', hb⟩ |
        ⟨s', w', hok', hheld', -⟩
      · refine .inl ⟨e', w', he', hwal'.trans hwal, hsub'.trans hsub, _, _, ?_, ha, hb⟩
        omega
      · exact .inr ⟨s', w', hok', hheld'.of_eq hwal hsub⟩
    refine .inl ⟨e, v, ?_, hwal, hsub, .wallet ha⟩
    cases e with
    | insufficientUserQuota => exact absurd rfl hcode
    | _ => rfl
  · rw [hok]
    exact .inr ⟨s, v, rfl, hheld⟩

theorem subscription_then_wallet (cfg : Config) (w : Stores) (info : RelayInfo)
    (hq : 0 ≤ quota) (i : OpenIn) :
    Ends cfg info quota i w (newBillingSession cfg w info .subscriptionFirst quota i) := by
  have hnone : TokenLeft cfg info quota i w w := .wallet (.inl (sub_self _))
  unfold newBillingSession
  cases i.hasActiveSubscription with
  | error e => exact .inl ⟨_, w, rfl, rfl, rfl, hnone⟩
  | ok hasSub =>
  cases hasSub with
  | false =>
    rcases tryWallet_held cfg w info hq i with ⟨e, v, he, hwal, hsub, ha⟩ |
      ⟨s, v, hok, hheld, -⟩
    · exact .inl ⟨e, v, he, hwal, hsub, .wallet ha⟩
    · exact .inr ⟨s, v, hok, hheld⟩
  | true =>
    rcases trySubscription_held cfg w info quota i with ⟨e, v, he, hwal, hsub, hb⟩ |
      ⟨s, v, hok, hheld, -⟩
    · rw [he]
      by_cases hcode : e = .insufficientUserQuota
      · subst hcode
        cases i.allowWalletOverflow with
        | error e' => exact .inl ⟨_, v, rfl, hwal, hsub, .subscription hb⟩
        | ok allowed =>
        cases allowed with
        | false => exact .inl ⟨_, v, rfl, hwal, hsub, .subscription hb⟩
        | true =>
          rcases tryWallet_held cfg v info hq i with ⟨e', w', he', hwal', hsub', ha⟩ |
            ⟨s', w', hok', hheld', -⟩
          · refine .inl ⟨e', w', he', hwal'.trans hwal, hsub'.trans hsub, _, _, ?_, ha, hb⟩
            omega
          · exact .inr ⟨s', w', hok', hheld'.of_eq hwal hsub⟩
      refine .inl ⟨e, v, ?_, hwal, hsub, .subscription hb⟩
      cases e with
      | insufficientUserQuota => exact absurd rfl hcode
      | _ => rfl
    · rw [hok]
      exact .inr ⟨s, v, rfl, hheld⟩

theorem newBillingSession_ends (cfg : Config) (w : Stores) (info : RelayInfo)
    (pref : BillingPreference) (hq : 0 ≤ quota) (i : OpenIn) :
    Ends cfg info quota i w (newBillingSession cfg w info pref quota i) := by
  cases pref with
  | subscriptionOnly =>
    rcases trySubscription_held cfg w info quota i with ⟨e, v, he, hwal, hsub, hb⟩ |
      ⟨s, v, hok, hheld, -⟩
    · exact .inl ⟨e, v, he, hwal, hsub, .subscription hb⟩
    · exact .inr ⟨s, v, hok, hheld⟩
  | walletOnly =>
    rcases tryWallet_held cfg w info hq i with ⟨e, v, he, hwal, hsub, ha⟩ |
      ⟨s, v, hok, hheld, -⟩
    · exact .inl ⟨e, v, he, hwal, hsub, .wallet ha⟩
    · exact .inr ⟨s, v, hok, hheld⟩
  | walletFirst => exact wallet_then_subscription cfg w info hq i
  | subscriptionFirst => exact subscription_then_wallet cfg w info hq i

theorem subscriptionFirst_wallet
     (hlock : v.lockFail = false)
    (h : newBillingSession cfg w info .subscriptionFirst quota (i.over v) = (.ok s, w'))
    (hsource : s.funding.source = .wallet) : WalletJustified w i.requestId quota v := by
  unfold newBillingSession at h
  cases hhas : (i.over v).hasActiveSubscription with
  | error e => simp [hhas] at h
  | ok hasSub =>
  cases hasSub with
  | false => exact .inl (hasActive_false hhas)
  | true =>
    simp only [hhas] at h
    rcases trySubscription_held cfg w info quota (i.over v) with ⟨e, v₁, he, -⟩ |
      ⟨s₁, v₁, hok, -, hsub⟩
    · by_cases hcode : e = .insufficientUserQuota
      · subst hcode
        refine .inr ⟨trySubscription_short hlock he, ?_⟩
        rw [he] at h
        cases hallow : (i.over v).allowWalletOverflow with
        | error e' => simp [hallow] at h
        | ok allowed =>
        cases allowed with
        | false => simp [hallow] at h
        | true => exact allowOverflow_true hallow
      rw [he] at h
      cases e with
      | insufficientUserQuota => exact absurd rfl hcode
      | _ => simp at h
    rw [hok] at h
    obtain ⟨rfl, -⟩ := h
    rw [hsub] at hsource
    cases hsource

/-- **At most one funding source is charged**, by preference.  The wallet's
    justification is only claimed where the locking query does not error. -/
theorem newBillingSession_charges_one (cfg : Config) (w : Stores) (info : RelayInfo)
    (pref : BillingPreference) (quota : Int) (hq : 0 ≤ quota) (i : OpenIn) (v : ActiveView) :
    (∀ s w', newBillingSession cfg w info pref quota (i.over v) = (.ok s, w') →
      HeldByOne w s w') ∧
    (∀ e w', newBillingSession cfg w info pref quota (i.over v) = (.error e, w') →
      w'.wallet = w.wallet ∧ w'.subs = w.subs ∧ TokenLeft cfg info quota i w w') ∧
    (pref = .subscriptionFirst → v.lockFail = false →
      ∀ s w', newBillingSession cfg w info pref quota (i.over v) = (.ok s, w') →
        s.funding.source = .wallet → WalletJustified w i.requestId quota v) ∧
    (pref = .walletOnly →
      (newBillingSession cfg w info pref quota (i.over v)).2.subs = w.subs) ∧
    (pref = .subscriptionOnly →
      (newBillingSession cfg w info pref quota (i.over v)).2.wallet = w.wallet) := by
  have hends := newBillingSession_ends cfg w info pref hq (i.over v)
  refine ⟨?_, ?_, ?_, ?_, ?_⟩
  · intro s w' h
    rcases hends with ⟨e, w₁, he, -⟩ | ⟨s₁, w₁, hok, hheld⟩
    · rw [he] at h
      simp at h
    rw [hok] at h
    obtain ⟨rfl, rfl⟩ := h
    exact hheld
  · intro e w' h
    rcases hends with ⟨e₁, w₁, he, hwal, hsub, htok⟩ | ⟨s₁, w₁, hok, -⟩
    · rw [he] at h
      obtain ⟨-, rfl⟩ := h
      exact ⟨hwal, hsub, htok⟩
    · rw [hok] at h
      simp at h
  · rintro rfl hlock s w' h hsource
    exact subscriptionFirst_wallet hlock h hsource
  · rintro rfl
    rcases tryWallet_held cfg w info hq (i.over v) with ⟨e, w', he, -, hsub, -⟩ |
      ⟨s, w', hok, hheld, hsource⟩
    · simp only [newBillingSession, he, hsub]
    · simp only [newBillingSession, hok, hheld.source_wallet hsource]
  rintro rfl
  rcases trySubscription_held cfg w info quota (i.over v) with ⟨e, w', he, hwal, -⟩ |
    ⟨s, w', hok, hheld, hsource⟩
  · simp only [newBillingSession, he, hwal]
  · simp only [newBillingSession, hok, hheld.source_subscription hsource]

/-! ## Runs -/

/-- A wallet of 1000, a token of 500 and subscription 1 with 150 in all, 100 of
    them used. -/
def openStores (amountUsed : Nat) : Stores :=
  { wallet := 1000, token := 500,
    subs := { subs := fun id => if id = 1 then
                some { amountTotal := 150, amountUsed := amountUsed, resetDue := false } else none,
              records := fun _ => none } }

def overflowView : ActiveView :=
  { counted := [⟨1, true⟩], locked := [⟨1, true⟩], strict := [⟨1, true⟩] }

def openIn : OpenIn :=
  { requestId := "req", userId := 7, contextQuota := some 1000, getUserQuota := .ok 1000,
    hasActiveSubscription := .ok true, allowWalletOverflow := .ok true,
    wallet := {}, subscription := {} }

theorem exhaustedSubscription_falls_back :
    ∃ s w', newBillingSession Session.directConfig (openStores 100) {} .subscriptionFirst 100
        (openIn.over overflowView) = (.ok s, w') ∧ w'.wallet = 900 ∧
      HeldByOne (openStores 100) s w' ∧
      WalletJustified (openStores 100) "req" 100 overflowView := by
  obtain ⟨hok, -, hwallet, -⟩ := newBillingSession_charges_one Session.directConfig
    (openStores 100) {} .subscriptionFirst 100 (by decide) openIn overflowView
  exact ⟨_, _, rfl, rfl, hok _ _ rfl, hwallet rfl rfl _ _ rfl rfl⟩

/-- The wallet holds 50 when the conditional debit runs and the token's credit
    is refused: an error, and 100 off the token.  And with room on the
    subscription for the whole charge, an error of the locking query sends the
    charge to the wallet. -/
theorem refusedCredit_lockError :
    ((newBillingSession Session.directConfig { openStores 0 with wallet := 50 } {} .walletOnly
        100 { openIn with wallet := { rollbackFail := true } }).1.toOption = none ∧
      (newBillingSession Session.directConfig { openStores 0 with wallet := 50 } {} .walletOnly
        100 { openIn with wallet := { rollbackFail := true } }).2.token = 400) ∧
    ((newBillingSession Session.directConfig (openStores 0) {} .subscriptionFirst 100
        (openIn.over { overflowView with lockFail := true })).1.toOption.map
          (·.funding.source) = some .wallet ∧
      (newBillingSession Session.directConfig (openStores 0) {} .subscriptionFirst 100
        (openIn.over { overflowView with lockFail := true })).2.wallet = 900 ∧
      (newBillingSession Session.directConfig (openStores 0) {} .subscriptionFirst 100
        (openIn.over overflowView)).1.toOption.map (·.funding.source) = some .subscription) := by
  decide +kernel

end NewApi.Billing
