/-
  NewApi.Realtime.Cost

  What a websocket session takes from its funding source in the end.

  Every increment that goes through moves the source by its own price and is
  noted in `debits` (`Paid`, kept by every event).  The settlement moves the
  source from the pre-consumed amount to the price of the summed usage and does
  not look at the increments, so the two add up: the source has given the price
  and all increments on top (`wssHelper_spent`).
-/

import NewApi.Realtime.Session

namespace NewApi.Realtime

open NewApi.Billing NewApi.Subscription NewApi.Lib

/-! ## Charges -/

variable {quota : Int}

variable (cfg : Config)

variable (w : Stores)

theorem postConsumeFunding_cases (f : Funding) (hq : 0 ≤ quota) (fail : Bool) :
    (∃ e, postConsumeFunding cfg w f quota fail = (.error e, w)) ∨
    (∃ w₁, postConsumeFunding cfg w f quota fail = (.ok (), w₁) ∧
      spent w₁ f = spent w f + quota) := by
  cases f with
  | wallet c =>
    by_cases hpos : 0 < quota
    · rcases applyQuota_cases cfg (-1) w.wallet quota fail with ⟨e, he⟩ | ⟨-, hok⟩
      · refine .inl ⟨.store e, ?_⟩
        simp only [postConsumeFunding, if_pos hpos, decreaseUserQuota, he]
        rfl
      refine .inr ⟨{ w with wallet := w.wallet + -1 * quota }, ?_, ?_⟩
      · simp only [postConsumeFunding, if_pos hpos, decreaseUserQuota, hok]
        rfl
      · simp only [spent]
        omega
    rcases increaseUserQuota_cases cfg w.wallet (-quota) fail with ⟨e, he⟩ | hok
    · refine .inl ⟨.store e, ?_⟩
      simp only [postConsumeFunding, if_neg hpos, he]
      rfl
    refine .inr ⟨{ w with wallet := w.wallet + -quota }, ?_, ?_⟩
    · simp only [postConsumeFunding, if_neg hpos, hok]
      rfl
    · simp only [spent]
      omega
  | subscription sub =>
    by_cases hid : sub.subscriptionId = 0
    · exact .inl ⟨.subscriptionIdMissing, by simp only [postConsumeFunding, if_pos hid]⟩
    by_cases h0 : quota = 0
    · refine .inr ⟨w, ?_, ?_⟩
      · simp only [postConsumeFunding, if_neg hid, if_pos h0]
      · rw [h0, add_zero]
    have hnn := used_nonneg w.subs sub.subscriptionId
    rcases postConsumeUserSubscriptionDelta_used w.subs sub.subscriptionId quota fail with
      ⟨e, he⟩ | ⟨st, hok, -, -, hused⟩
    · refine .inl ⟨.store e, ?_⟩
      simp only [postConsumeFunding, if_neg hid, if_neg h0, he]
      rfl
    refine .inr ⟨{ w with subs := st }, ?_, ?_⟩
    · simp only [postConsumeFunding, if_neg hid, if_neg h0, hok]
      rfl
    · exact hused (by omega)

@[simp] theorem spent_withToken (t : Int) (f : Funding) :
    spent { w with token := t } f = spent w f := by
  cases f <;> rfl

theorem postConsumeToken_spent (isPlayground : Bool) (quota : Int) (fail : Bool) (f : Funding) :
    spent (postConsumeToken cfg w isPlayground quota fail).2 f = spent w f := by
  unfold postConsumeToken
  split
  · rfl
  · exact spent_withToken w _ f

theorem postConsumeQuota_spent (f : Funding) (isPlayground : Bool)
    (hq : 0 ≤ quota) (i : Session.SettleIn) :
    spent (postConsumeQuotaWithResult cfg w f isPlayground quota i).stores f = spent w f +
        if (postConsumeQuotaWithResult cfg w f isPlayground quota i).fundingApplied then quota
        else 0 := by
  rcases postConsumeFunding_cases cfg w f hq i.fundingFail with ⟨e, he⟩ | ⟨w₁, hok, hs⟩
  · simp [postConsumeQuotaWithResult, he]
  · simp only [postConsumeQuotaWithResult, hok, postConsumeToken_spent, hs, if_true]

theorem consumeIncrement_cases (info : RelayInfo)
    (hq : 0 ≤ quota) (userQuota : Int) (token : Token) (debit : Session.SettleIn) :
    ((consumeIncrement cfg w info quota userQuota token debit).2.1 = none ∧
      spent (consumeIncrement cfg w info quota userQuota token debit).2.2 info.funding =
        spent w info.funding) ∨
    ((quota ≤ userQuota ∧ (token.unlimitedQuota = true ∨ quota ≤ token.remainQuota)) ∧
      (consumeIncrement cfg w info quota userQuota token debit).2.1 = some quota ∧
      spent (consumeIncrement cfg w info quota userQuota token debit).2.2 info.funding =
        spent w info.funding + quota) := by
  have hspent := postConsumeQuota_spent cfg w info.funding info.isPlayground hq debit
  unfold consumeIncrement
  split
  · exact .inl ⟨rfl, rfl⟩
  rename_i huser
  split
  · exact .inl ⟨rfl, rfl⟩
  rename_i htoken
  have hchecks : quota ≤ userQuota ∧
      (token.unlimitedQuota = true ∨ quota ≤ token.remainQuota) := by
    refine ⟨not_lt.mp huser, ?_⟩
    cases hun : token.unlimitedQuota with
    | true => exact .inl rfl
    | false => exact .inr (by simpa [hun] using htoken)
  -- the checks are passed; the debit itself may still be refused
  cases happ : (postConsumeQuotaWithResult cfg w info.funding info.isPlayground quota
      debit).fundingApplied with
  | true =>
    rw [happ, if_pos rfl] at hspent
    exact .inr ⟨hchecks, by simp [happ], hspent⟩
  | false =>
    rw [happ, if_neg Bool.false_ne_true, add_zero] at hspent
    exact .inl ⟨by simp [happ], hspent⟩

/-- The increment reaches its debit: the model is billed by tokens, both balances
    can be read and both cover the price. -/
def ReachesDebit (info : RelayInfo) (usage : RealtimeUsage) (i : ChargeIn) : Prop :=
  info.usePrice = false ∧ ∃ userQuota token, i.userQuota = .ok userQuota ∧ i.token = .ok token ∧
    increment info usage i.ratios ≤ userQuota ∧
    (token.unlimitedQuota = true ∨ increment info usage i.ratios ≤ token.remainQuota)

/-- **`PreWssConsumeQuota`.**  It takes nothing, or the price of the increment, and
    says so. -/
theorem preWssConsumeQuota_cases (info : RelayInfo) (usage : RealtimeUsage) (i : ChargeIn) :
    ((preWssConsumeQuota cfg w info usage i).2.1 = none ∧
      spent (preWssConsumeQuota cfg w info usage i).2.2 info.funding = spent w info.funding) ∨
    (ReachesDebit info usage i ∧ 0 ≤ increment info usage i.ratios ∧
      (preWssConsumeQuota cfg w info usage i).2.1 = some (increment info usage i.ratios) ∧
      spent (preWssConsumeQuota cfg w info usage i).2.2 info.funding =
        spent w info.funding + increment info usage i.ratios) := by
  cases huse : info.usePrice with
  | true => exact .inl (by simp [preWssConsumeQuota, huse])
  | false =>
  have hnn : 0 ≤ increment info usage i.ratios := calculateAudioQuota_nonneg _ (.inl huse)
  unfold preWssConsumeQuota
  rw [huse, if_neg Bool.false_ne_true]
  split
  · exact .inl ⟨rfl, rfl⟩
  · exact .inl ⟨rfl, rfl⟩
  rename_i userQuota token huser htoken
  rcases consumeIncrement_cases cfg w info hnn userQuota token i.debit with h | ⟨hchecks, h⟩
  · exact .inl h
  · exact .inr ⟨⟨huse, userQuota, token, huser, htoken, hchecks⟩, hnn, h⟩

/-! ## The handler -/

/-- The usage an event puts to `PreWssConsumeQuota`, if it does. -/
def Event.charge (s : Wss) : Event → Option (RealtimeUsage × ChargeIn)
  | .responseDone usage charge _ =>
    if s.targetReading then some (s.usage.add usage, charge) else none
  | .responseDoneUncounted (some (text, audio)) charge _ =>
    if s.targetReading then some (s.localUsage.add (.input text audio), charge) else none
  | _ => none

variable {cfg : Config} {info : RelayInfo} {s : Wss}

theorem preConsumeUsage_money {s' : Wss} {usage : RealtimeUsage} {i : ChargeIn} {ok : Bool}
    (h : preConsumeUsage cfg info s usage i = (ok, s')) :
    s'.stores = (preWssConsumeQuota cfg s.stores info usage i).2.2 ∧
    s'.debits = s.debits ++ (preWssConsumeQuota cfg s.stores info usage i).2.1.toList := by
  obtain rfl : (preConsumeUsage cfg info s usage i).2 = s' := by rw [h]
  exact ⟨rfl, rfl⟩

theorem step_money (cfg : Config) (info : RelayInfo) (s : Wss) (e : Event) :
    (e.charge s = none ∧ (step cfg info s e).stores = s.stores ∧
      (step cfg info s e).debits = s.debits) ∨
    (∃ usage i, e.charge s = some (usage, i) ∧
      (step cfg info s e).stores = (preWssConsumeQuota cfg s.stores info usage i).2.2 ∧
      (step cfg info s e).debits =
        s.debits ++ (preWssConsumeQuota cfg s.stores info usage i).2.1.toList) := by
  cases e with
  | responseDone usage charge forwarded =>
    cases hr : s.targetReading with
    | false => exact .inl (by simp [Event.charge, step, hr])
    | true =>
      refine .inr ⟨s.usage.add usage, charge, by simp [Event.charge, hr], ?_⟩
      rcases hp : preConsumeUsage cfg info (s.report usage) (s.report usage).usage charge with
        ⟨ok, s'⟩
      have hmoney := preConsumeUsage_money hp
      simp only [step, hr, hp, Bool.not_true, Bool.false_eq_true, if_false]
      cases ok <;> exact hmoney
  | responseDoneUncounted count charge forwarded =>
    cases hr : s.targetReading with
    | false => exact .inl (by rcases count with _ | ⟨t, a⟩ <;> simp [Event.charge, step, hr])
    | true =>
      rcases count with _ | ⟨text, audio⟩
      · exact .inl (by simp [Event.charge, step, hr])
      refine .inr ⟨s.localUsage.add (.input text audio), charge,
        by simp [Event.charge, hr], ?_⟩
      rcases hp : preConsumeUsage cfg info (s.count (.input text audio))
        (s.count (.input text audio)).localUsage charge with ⟨ok, s'⟩
      have hmoney := preConsumeUsage_money hp
      simp only [step, hr, hp, Bool.not_true, Bool.false_eq_true, if_false]
      cases ok <;> exact hmoney
  | clientMessage count forwarded | otherEvent count forwarded =>
    refine .inl ⟨rfl, ?_⟩
    simp only [step]
    repeat' split
    all_goals exact ⟨rfl, rfl⟩
  | sessionEvent forwarded =>
    refine .inl ⟨rfl, ?_⟩
    simp only [step]
    split <;> exact ⟨rfl, rfl⟩
  | clientGone | targetGone => exact .inl ⟨rfl, rfl, rfl⟩

/-- The funding source has given what the increments noted, and each of them is
    at least 0. -/
def Paid (info : RelayInfo) (base : Int) (s : Wss) : Prop :=
  spent s.stores info.funding = base + s.debits.sum ∧ ∀ q ∈ s.debits, 0 ≤ q

theorem Paid.charge {base : Int} {s' : Wss} (h : Paid info base s)
    (cfg : Config) (usage : RealtimeUsage) (i : ChargeIn)
    (hst : s'.stores = (preWssConsumeQuota cfg s.stores info usage i).2.2)
    (hd : s'.debits = s.debits ++ (preWssConsumeQuota cfg s.stores info usage i).2.1.toList) :
    Paid info base s' := by
  obtain ⟨hspent, hnn⟩ := h
  rcases preWssConsumeQuota_cases cfg s.stores info usage i with
    ⟨hnone, hsame⟩ | ⟨-, hq, hsome, hmoved⟩
  · rw [hnone, Option.toList_none, List.append_nil] at hd
    refine ⟨?_, ?_⟩
    · rw [hst, hsame, hd, hspent]
    · rw [hd]
      exact hnn
  rw [hsome, Option.toList_some] at hd
  refine ⟨?_, ?_⟩
  · rw [hst, hmoved, hd, List.sum_append, List.sum_singleton, hspent]
    omega
  intro q hmem
  rw [hd, List.mem_append, List.mem_singleton] at hmem
  rcases hmem with hmem | rfl
  · exact hnn q hmem
  · exact hq

theorem Paid.step {base : Int} (h : Paid info base s)
    (cfg : Config) (e : Event) : Paid info base (step cfg info s e) := by
  rcases step_money cfg info s e with ⟨-, hst, hd⟩ | ⟨usage, i, -, hst, hd⟩
  · unfold Paid
    rw [hst, hd]
    exact h
  · exact h.charge cfg usage i hst hd

theorem Paid.chargeRest {base : Int} (h : Paid info base s)
    (cfg : Config) (usage : RealtimeUsage) (i : ChargeIn) :
    Paid info base (chargeRest cfg info s usage i) := by
  unfold Realtime.chargeRest
  split
  · exact h.charge cfg usage i rfl rfl
  · exact h

/-- **Every session.**  Whatever the events are, the handler returns with the
    increments taken and noted. -/
theorem openaiRealtimeHandler_paid (cfg : Config) (w : Stores) (info : RelayInfo) (i : WssIn) :
    Paid info (spent w info.funding) (openaiRealtimeHandler cfg w info i) := by
  have h0 : Paid info (spent w info.funding) { stores := w } := by
    refine ⟨?_, fun q hq => absurd hq List.not_mem_nil⟩
    rw [List.sum_nil, add_zero]
  have hrun := run_invariant_all (Paid info (spent w info.funding))
    (fun s e hs => hs.step cfg e) i.events h0
  exact (hrun.chargeRest cfg _ i.forUsage).chargeRest cfg _ i.forLocal

/-! ## Increments of at most one unit -/

/-- An increment that reaches its debit is less than a unit and a half before
    rounding. -/
def Cheap (info : RelayInfo) (usage : RealtimeUsage) (i : ChargeIn) : Prop :=
  ReachesDebit info usage i → audioQuotaDecimal i.ratios (chargeInfo info usage i.ratios) < 3 / 2

/-- Every increment of the session is cheap, the two at its end included. -/
def AllCheap (cfg : Config) (w : Stores) (info : RelayInfo) (i : WssIn) : Prop :=
  Meets (fun s e => ∀ usage c, e.charge s = some (usage, c) → Cheap info usage c)
    (step cfg info) { stores := w } i.events ∧
  Cheap info (run (step cfg info) { stores := w } i.events).usage i.forUsage ∧
  Cheap info (run (step cfg info) { stores := w } i.events).localUsage i.forLocal

def UnitDebits (s : Wss) : Prop := ∀ q ∈ s.debits, q ≤ 1

theorem UnitDebits.charge {s' : Wss} (h : UnitDebits s) (cfg : Config)
    {usage : RealtimeUsage} {i : ChargeIn} (hc : Cheap info usage i)
    (hd : s'.debits = s.debits ++ (preWssConsumeQuota cfg s.stores info usage i).2.1.toList) :
    UnitDebits s' := by
  rcases preWssConsumeQuota_cases cfg s.stores info usage i with
    ⟨hnone, -⟩ | ⟨hreach, -, hsome, -⟩
  · rw [hnone, Option.toList_none, List.append_nil] at hd
    unfold UnitDebits
    rw [hd]
    exact h
  rw [hsome, Option.toList_some] at hd
  have hle : increment info usage i.ratios ≤ 1 := quotaFromDecimal_le_one (hc hreach)
  intro q hmem
  rw [hd, List.mem_append, List.mem_singleton] at hmem
  rcases hmem with hmem | rfl
  · exact h q hmem
  · exact hle

theorem UnitDebits.chargeRest (h : UnitDebits s) (cfg : Config)
    {usage : RealtimeUsage} {i : ChargeIn} (hc : Cheap info usage i) :
    UnitDebits (chargeRest cfg info s usage i) := by
  unfold Realtime.chargeRest
  split
  · exact h.charge cfg hc rfl
  · exact h

variable {w : Stores}

theorem openaiRealtimeHandler_unitDebits {i : WssIn} (h : AllCheap cfg w info i) :
    UnitDebits (openaiRealtimeHandler cfg w info i) := by
  obtain ⟨hevents, husage, hlocal⟩ := h
  have h0 : UnitDebits { stores := w } := fun q hq => absurd hq List.not_mem_nil
  have hrun := run_invariant UnitDebits (fun s e hs hc => ?_) h0 hevents
  · exact (hrun.chargeRest cfg husage).chargeRest cfg hlocal
  rcases step_money cfg info s e with ⟨-, -, hd⟩ | ⟨usage, c, hcharge, -, hd⟩
  · unfold UnitDebits
    rw [hd]
    exact hs
  · exact hs.charge cfg (hc usage c hcharge) hd

/-! ## The settlement -/

theorem wssQuota_nonneg (info : RelayInfo) (usage : RealtimeUsage) (r : RatioSetting) :
    0 ≤ wssQuota info usage r := by
  unfold wssQuota
  split
  · exact le_rfl
  split
  · exact Int.natCast_nonneg _
  · exact calculateAudioQuota_nonneg r (.inr rfl)

def preConsumed : Option Session → Int
  | some s => s.preConsumedQuota
  | none => 0

/-- How a session comes to its billing: a free model has none, every other opens
    one under a request id that is not on record. -/
inductive Opening (cfg : Config) (w₀ : Stores) : Option Session → Stores → Prop
  | free : Opening cfg w₀ none w₀
  | billed {info : Billing.RelayInfo} {pref : BillingPreference} {quota : Int} {i : OpenIn}
      {s : Session} {w : Stores} (hq : 0 ≤ quota)
      (hfresh : w₀.subs.records i.requestId = none)
      (h : newBillingSession cfg w₀ info pref quota i = (.ok s, w)) :
      Opening cfg w₀ (some s) w

def spentBefore (w₀ : Stores) : Option Session → Int
  | some s => spentAfterReset w₀ s.funding
  | none => spent w₀ (.wallet 0)

/-- The books when the handler starts. -/
structure Opened (before : Int) (w : Stores) (info : RelayInfo) : Prop where
  spent_eq : spent w info.funding = before + preConsumed info.billing
  pre_nonneg : 0 ≤ preConsumed info.billing
  before_nonneg : ∀ sub, info.funding = .subscription sub → 0 ≤ before
  unsettled : ∀ s, info.billing = some s → s.settled = false ∧ s.fundingSettled = false

theorem Opening.opened {w₀ : Stores}
    (h : Opening cfg w₀ info.billing w) : Opened (spentBefore w₀ info.billing) w info := by
  generalize hb : info.billing = b at h
  cases h with
  | free =>
    have hf : info.funding = .wallet 0 := by simp only [RelayInfo.funding, hb]
    exact {
      spent_eq := by rw [hf, hb, preConsumed, add_zero]; rfl
      pre_nonneg := by rw [hb]; exact le_rfl
      before_nonneg := fun sub hsub => by rw [hf] at hsub; cases hsub
      unsettled := fun s hs => by rw [hb] at hs; cases hs }
  | @billed _ _ _ _ session _ hq hfresh hnew =>
    obtain ⟨hinv, hset, href, -⟩ := newBillingSession_ledger hq hfresh hnew
    have hf : info.funding = session.funding := by simp only [RelayInfo.funding, hb]
    have htaken := hinv.law.whileOpen hset href
    simp only [Ledger.taken, Ledger.start] at htaken
    exact {
      spent_eq := by rw [hf, hb]; simp only [spentBefore, preConsumed]; omega
      pre_nonneg := by rw [hb]; exact hinv.pre_nonneg
      before_nonneg := fun sub hsub => hinv.before_nonneg sub (hf ▸ hsub)
      unsettled := fun s hs => by
        rw [hb] at hs
        cases hs
        exact ⟨hset, hinv.fundingSettled_of_open hset⟩ }

theorem settleBilling_spent (cfg : Config) (hq : 0 ≤ quota) (i : Session.SettleIn)
    (hun : ∀ s, info.billing = some s → s.settled = false ∧ s.fundingSettled = false)
    (hsub : ∀ sub, info.funding = .subscription sub →
      preConsumed info.billing ≤ spent w info.funding) :
    spent (settleBilling cfg w info quota i).2 info.funding = spent w info.funding +
        if (settleBilling cfg w info quota i).1 then quota - preConsumed info.billing else 0 := by
  cases hb : info.billing with
  | none =>
    simp only [settleBilling, hb, preConsumed]
    split
    · rename_i h0
      simp [h0]
    · have h := postConsumeQuota_spent cfg w info.funding info.isPlayground hq i
      simpa using h
  | some s =>
    have hf : info.funding = s.funding := by simp only [RelayInfo.funding, hb]
    obtain ⟨hset, hfs⟩ := hun s hb
    simp only [settleBilling, hb, preConsumed]
    rcases Session.settle_cases cfg w hset hfs quota i with
      ⟨e, he⟩ | ⟨heq, hok⟩ | ⟨r, w₁, t, hfund, hok⟩
    · simp [he, hset]
    · rw [hok]
      simp [heq]
    have hmoved : spent w₁ s.funding = spent w s.funding + (quota - s.preConsumedQuota) := by
      rcases Funding.settle_cases cfg w s.funding (quota - s.preConsumedQuota) i.fundingFail with
        ⟨e, he⟩ | ⟨w₂, hok₂, -, -, hsp⟩
      · rw [he] at hfund
        cases hfund
      rw [hok₂] at hfund
      cases hfund
      refine hsp fun sub hs => ?_
      have hle := hsub sub (hf.trans hs)
      rw [hf, hb] at hle
      simp only [preConsumed] at hle
      omega
    rw [hok, hf]
    exact hmoved

/-! ## The whole session -/

def Bill.debited (b : Bill) (info : RelayInfo) (before : Int) : Int :=
  spent b.stores info.funding - before

def Bill.CostsOnce (b : Bill) (info : RelayInfo) (before : Int) : Prop :=
  |b.debited info before - b.quota| ≤ b.debits.length

theorem wssHelper_spent {w₀ : Stores} (hopen : Opening cfg w₀ info.billing w) (i : WssIn) :
    (wssHelper cfg w info i).debited info (spentBefore w₀ info.billing) =
      (if (wssHelper cfg w info i).settled then (wssHelper cfg w info i).quota
        else preConsumed info.billing) + (wssHelper cfg w info i).debits.sum := by
  have hop := hopen.opened
  obtain ⟨hspent, hnn⟩ := openaiRealtimeHandler_paid cfg w info i
  have hsum : 0 ≤ (openaiRealtimeHandler cfg w info i).debits.sum := List.sum_nonneg hnn
  have hstart := hop.spent_eq
  have hsub : ∀ sub, info.funding = .subscription sub → preConsumed info.billing ≤
      spent (openaiRealtimeHandler cfg w info i).stores info.funding := by
    intro sub hfund
    have hb := hop.before_nonneg sub hfund
    omega
  have hsettle := settleBilling_spent cfg
    (wssQuota_nonneg info (openaiRealtimeHandler cfg w info i).sumUsage i.post.ratios)
    i.post.settle hop.unsettled hsub
  rcases hout : settleBilling cfg (openaiRealtimeHandler cfg w info i).stores info
    (wssQuota info (openaiRealtimeHandler cfg w info i).sumUsage i.post.ratios) i.post.settle with
    ⟨settled, w'⟩
  rw [hout] at hsettle
  dsimp only at hsettle
  simp only [Bill.debited, wssHelper, hout]
  cases settled with
  | true =>
    rw [if_pos rfl] at hsettle
    rw [if_pos rfl]
    omega
  | false =>
    rw [if_neg Bool.false_ne_true] at hsettle
    rw [if_neg Bool.false_ne_true]
    omega

theorem wssHelper_debits_nonneg (cfg : Config) (w : Stores) (info : RelayInfo) (i : WssIn) :
    0 ≤ (wssHelper cfg w info i).debits.sum :=
  List.sum_nonneg (openaiRealtimeHandler_paid cfg w info i).2

theorem sum_le_length {l : List Int} (h : ∀ q ∈ l, q ≤ 1) : l.sum ≤ l.length := by
  have hle := List.sum_le_card_nsmul l 1 h
  simpa using hle

/-- **What a realtime session costs.**  The source gives the price of the summed
    usage (the pre-consumed amount, where the settlement is refused) and all
    increments on top.  So the session costs its price, up to one unit for each
    increment, exactly when the settlement goes through and the increments together
    are not more than their number, or when it is refused and the pre-consumed amount
    with the increments happens to be the price; in particular when the settlement
    goes through and every increment is cheap. -/
theorem realtime_session_cost (cfg : Config) (w₀ w : Stores) (info : RelayInfo)
    (hopen : Opening cfg w₀ info.billing w) (i : WssIn) :
    ((wssHelper cfg w info i).debited info (spentBefore w₀ info.billing) =
      (if (wssHelper cfg w info i).settled then (wssHelper cfg w info i).quota
        else preConsumed info.billing) + (wssHelper cfg w info i).debits.sum) ∧
    ((wssHelper cfg w info i).CostsOnce info (spentBefore w₀ info.billing) ↔
      (wssHelper cfg w info i).settled = true ∧
          (wssHelper cfg w info i).debits.sum ≤ (wssHelper cfg w info i).debits.length ∨
        (wssHelper cfg w info i).settled = false ∧
          |preConsumed info.billing + (wssHelper cfg w info i).debits.sum -
            (wssHelper cfg w info i).quota| ≤ (wssHelper cfg w info i).debits.length) ∧
    (AllCheap cfg w info i → (wssHelper cfg w info i).settled = true →
      (wssHelper cfg w info i).CostsOnce info (spentBefore w₀ info.billing)) := by
  have hspent := wssHelper_spent hopen i
  have hnn := wssHelper_debits_nonneg cfg w info i
  have hiff : (wssHelper cfg w info i).CostsOnce info (spentBefore w₀ info.billing) ↔
      (wssHelper cfg w info i).settled = true ∧
          (wssHelper cfg w info i).debits.sum ≤ (wssHelper cfg w info i).debits.length ∨
        (wssHelper cfg w info i).settled = false ∧
          |preConsumed info.billing + (wssHelper cfg w info i).debits.sum -
            (wssHelper cfg w info i).quota| ≤ (wssHelper cfg w info i).debits.length := by
    unfold Bill.CostsOnce
    rw [hspent]
    cases hset : (wssHelper cfg w info i).settled with
    | true =>
      rw [if_pos rfl, add_sub_cancel_left, abs_of_nonneg hnn]
      simp
    | false =>
      rw [if_neg Bool.false_ne_true]
      simp
  refine ⟨hspent, hiff, fun hcheap hset => hiff.mpr (.inl ⟨hset, ?_⟩)⟩
  exact sum_le_length (openaiRealtimeHandler_unitDebits hcheap)

/-- Ratio 1 for every model and group, audio at four times the price of text. -/
def plainRatios : RatioSetting where
  groupRatio := fun _ => 1
  groupGroupRatio := fun _ _ => none
  modelRatio := fun _ => 1
  completionRatio := fun _ => 1
  audioRatio := fun _ => 4
  audioCompletionRatio := fun _ => 1
  quotaPerUnit := 500000

def richStores : Stores :=
  { wallet := 100000, token := 100000, subs := { subs := fun _ => none, records := fun _ => none } }

def plainOpening : OpenIn where
  requestId := "r"
  userId := 1
  contextQuota := some 100000
  getUserQuota := .ok 100000
  hasActiveSubscription := .ok false
  allowWalletOverflow := .ok false
  wallet := {}
  subscription := {}

def openedSession : Session :=
  { relayInfo := { userQuota := 100000, finalPreConsumedQuota := 500 }, funding := .wallet 500,
    preConsumedQuota := 500, tokenConsumed := 500 }

def openedStores : Stores := { richStores with wallet := 99500, token := 99500 }

theorem openedSession_opening :
    Opening Session.directConfig richStores (some openedSession) openedStores := by
  have hnew : newBillingSession Session.directConfig richStores {} .walletOnly 500 plainOpening =
      (.ok openedSession, openedStores) := rfl
  have hfresh : richStores.subs.records plainOpening.requestId = none := rfl
  exact .billed (by decide) hfresh hnew

/-- A model billed by tokens, ratio 1. -/
def plainInfo : RelayInfo where
  usePrice := false
  originModelName := "gpt-4o-realtime"
  upstreamModelName := "gpt-4o-realtime"
  usingGroup := "default"
  userGroup := "default"
  autoGroup := none
  isPlayground := false
  priceData := { usePrice := false, modelRatio := 1, groupRatio := 1 }
  billing := some openedSession
  tieredSettle := fun _ _ => none

def plainCharge : ChargeIn where
  userQuota := .ok 100000
  token := .ok { unlimitedQuota := true, remainQuota := 0 }
  ratios := plainRatios

/-- One response of `tokens` text tokens, then the target closes. -/
def oneResponse (tokens : Int) : WssIn where
  events :=
    [.responseDone { totalTokens := tokens, inputTokens := tokens, inputText := tokens } plainCharge
      true, .targetGone]
  forUsage := plainCharge
  forLocal := plainCharge
  post := { ratios := plainRatios }

theorem realtime_session_cost_oneToken :
    (wssHelper Session.directConfig openedStores plainInfo (oneResponse 1)).CostsOnce plainInfo
      (spentBefore richStores plainInfo.billing) := by
  have hcheap : AllCheap Session.directConfig openedStores plainInfo (oneResponse 1) := by
    refine ⟨⟨fun usage c h => ?_, fun usage c h => ?_, trivial⟩, ?_, ?_⟩
    · cases h
      exact fun _ => by decide +kernel
    · cases h
    · exact fun _ => by decide +kernel
    · exact fun _ => by decide +kernel
  have h := realtime_session_cost Session.directConfig richStores openedStores plainInfo
    openedSession_opening (oneResponse 1)
  exact h.2.2 hcheap (by decide +kernel)

/-- A response of 1000 tokens is priced at 1000 and takes 2000. -/
theorem realtime_session_charges_twice :
    Opening Session.directConfig richStores plainInfo.billing openedStores ∧
    (wssHelper Session.directConfig openedStores plainInfo (oneResponse 1000)).settled = true ∧
    (wssHelper Session.directConfig openedStores plainInfo (oneResponse 1000)).quota = 1000 ∧
    (wssHelper Session.directConfig openedStores plainInfo (oneResponse 1000)).debited plainInfo
      (spentBefore richStores plainInfo.billing) = 2000 ∧
    ¬ (wssHelper Session.directConfig openedStores plainInfo (oneResponse 1000)).CostsOnce plainInfo
      (spentBefore richStores plainInfo.billing) := by
  have hquota : (wssHelper Session.directConfig openedStores plainInfo
      (oneResponse 1000)).quota = 1000 := by decide +kernel
  have hdebited : (wssHelper Session.directConfig openedStores plainInfo
      (oneResponse 1000)).debited plainInfo (spentBefore richStores plainInfo.billing) = 2000 := by
    decide +kernel
  have hone : (wssHelper Session.directConfig openedStores plainInfo
      (oneResponse 1000)).debits = [1000] := by decide +kernel
  refine ⟨openedSession_opening, by decide +kernel, hquota, hdebited, ?_⟩
  unfold Bill.CostsOnce
  rw [hdebited, hquota, hone]
  decide

end NewApi.Realtime
