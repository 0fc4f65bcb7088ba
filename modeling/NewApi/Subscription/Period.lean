/-
  NewApi.Subscription.Period

  What stands on a subscription row for the current quota period.

  A reset sets `AmountUsed` back to zero.  Neither the row nor the record of a
  charge says which period the charge belongs to, so a refund or a negative
  settlement of a charge made before the reset comes off the usage of the new
  period, down to zero.

  A `Period` watches one row: `net` adds up what was charged, settled and given
  back for charges made since the row's last reset, `crossed` what was given
  back since then for earlier ones.  Over every run the row reads at least
  `net - crossed`: a charge from before the reset takes at most its own amount,
  and nothing else takes usage of the new period away.
-/

import NewApi.Lib.Run
import NewApi.Subscription.Refund

namespace NewApi.Subscription

open NewApi.Lib

/-! ## Calls -/

/-- `boundary` lets a reset of the row fall due; `resetDue` is
    `ResetDueSubscriptions` coming to the row; `settle` is
    `PostConsumeUserSubscriptionDelta` for the charge of a request. -/
inductive PeriodAction where
  | boundary (id : Int)
  | resetDue (id : Int)
  | preConsume (requestId : String) (userId amount : Int) (active : List Int) (fail : Bool)
  | refund (requestId : String) (f : RefundFault)
  | settle (requestId : String) (delta : Int) (fail : Bool)

variable (st : SubStore)

/-- Apply `f` to a row that is there. -/
def SubStore.modify (id : Int) (f : UserSubscription → UserSubscription) : SubStore :=
  match st.subs id with
  | none => st
  | some s => st.setSub id (f s)

/-- The settlement of the charge recorded under a request. -/
def settleCharge (requestId : String) (delta : Int) (fail : Bool) : Except Err Unit × SubStore :=
  match st.records requestId with
  | none => (.error .recordNotFound, st)
  | some r => postConsumeUserSubscriptionDelta st r.userSubscriptionId delta fail

def storeStep : PeriodAction → SubStore
  | .boundary id => st.modify id fun s => { s with resetDue := true }
  | .resetDue id => st.modify id maybeReset
  | .preConsume rid u amount active fail =>
    (preConsumeUserSubscription st rid u amount active fail).2
  | .refund rid f => (refundSubscriptionPreConsume st rid f).2
  | .settle rid delta fail => (settleCharge st rid delta fail).2

/-! ## Watching one row -/

structure Period where
  st : SubStore
  /-- the charge of the request was made since the last reset -/
  current : String → Bool
  net : Int
  crossed : Int

def usedOf (k : Int) : Int :=
  match st.subs k with
  | none => 0
  | some s => s.amountUsed

def dueOf (k : Int) : Bool :=
  match st.subs k with
  | none => false
  | some s => s.resetDue

/-- What the call charges row `k`: nothing when it fails, answers an earlier
    charge or charges another row. -/
def chargedTo (k : Int) : PeriodAction → Int
  | .preConsume rid u amount active fail =>
    match st.records rid, (preConsumeUserSubscription st rid u amount active fail).1 with
    | none, .ok res => if res.userSubscriptionId = k then amount else 0
    | _, _ => 0
  | _ => 0

/-- By how much the call adjusts the charge of a request on row `k`. -/
def adjustedOn (k : Int) : PeriodAction → Int
  | .refund rid f =>
    match st.records rid with
    | some r => if takesBack st rid f ∧ r.userSubscriptionId = k then -r.preConsumed else 0
    | none => 0
  | .settle rid delta fail =>
    match st.records rid with
    | some r =>
      if (settleCharge st rid delta fail).1.isOk ∧ r.userSubscriptionId = k then delta else 0
    | none => 0
  | _ => 0

def PeriodAction.request : PeriodAction → String
  | .preConsume rid _ _ _ _ | .refund rid _ | .settle rid _ _ => rid
  | _ => ""

namespace Period

def start (st : SubStore) : Period := ⟨st, fun _ => false, 0, 0⟩

def restart (k : Int) (s : Period) (st' : SubStore) : Period :=
  if dueOf s.st k ∧ ¬ dueOf st' k then start st' else { s with st := st' }

/-- A charge counts towards `net`; an adjustment counts towards `net` or
    `crossed`, by when its charge was made. -/
def step (k : Int) (s : Period) (a : PeriodAction) : Period :=
  let s' := s.restart k (storeStep s.st a)
  let charge := chargedTo s.st k a
  let delta := adjustedOn s.st k a
  { s' with
    current := if charge ≠ 0 then Function.update s'.current a.request true else s'.current
    net := s'.net + charge + if s.current a.request then delta else 0
    crossed := s'.crossed + if s.current a.request then 0 else max (-delta) 0 }

end Period

/-! ## The other rows of a charge -/

variable {k : Int}

theorem chargeFirst_other {amount : Int} {ids : List Int} {st st' : SubStore}
    {res : PreConsumeResult} (h : chargeFirst amount st ids = some (st', res))
    (hk : res.userSubscriptionId ≠ k) :
    st'.subs k = st.subs k ∨ st'.subs k = (st.subs k).map maybeReset := by
  induction ids generalizing st with
  | nil => simp [chargeFirst] at h
  | cons id rest ih =>
    rw [chargeFirst] at h
    cases hrow : st.subs id with
    | none =>
      rw [hrow] at h
      exact ih h
    | some row =>
      rw [hrow] at h
      simp only at h
      split at h
      · -- skipped: row `id` is reset, the rest goes on from there
        rcases ih h with hsame | hreset
        · by_cases hid : k = id
          · right
            rw [hsame, hid, SubStore.setSub_subs_self, hrow]
            rfl
          left
          rw [hsame]
          simp [SubStore.setSub, hid]
        right
        rw [hreset]
        by_cases hid : k = id
        · rw [hid, SubStore.setSub_subs_self, hrow]
          simp [maybeReset_maybeReset]
        · simp [SubStore.setSub, hid]
      obtain ⟨rfl, rfl⟩ : _ ∧ _ := by simpa using h
      left
      simp [SubStore.setSub, Ne.symm hk]

/-! ## The bound -/

/-- The row has at least what was charged in its period less what was given
    back for earlier ones. -/
structure Covered (k : Int) (s : Period) : Prop where
  used : s.net - s.crossed ≤ usedOf s.st k
  crossed : 0 ≤ s.crossed

theorem usedOf_nonneg (st : SubStore) (k : Int) : 0 ≤ usedOf st k := by
  unfold usedOf
  split <;> omega

theorem covered_start (k : Int) (st : SubStore) : Covered k (Period.start st) := by
  refine ⟨?_, Int.le_refl 0⟩
  have h := usedOf_nonneg st k
  show (0 : Int) - 0 ≤ usedOf st k
  omega

variable {s : Period}

theorem Covered.restart (h : Covered k s) {st' : SubStore}
    (hrow : st'.subs k = s.st.subs k ∨ st'.subs k = (s.st.subs k).map maybeReset) :
    Covered k (s.restart k st') := by
  unfold Period.restart
  by_cases hreset : dueOf s.st k ∧ ¬ dueOf st' k
  · rw [if_pos hreset]
    exact covered_start k st'
  rw [if_neg hreset]
  refine ⟨?_, h.crossed⟩
  have hused : usedOf st' k = usedOf s.st k := by
    rcases hrow with hsame | hmap
    · unfold usedOf
      rw [hsame]
    -- reset only if due, and then no longer due
    unfold usedOf
    unfold dueOf at hreset
    rw [hmap] at hreset ⊢
    cases hs : s.st.subs k with
    | none => rfl
    | some row =>
      rw [hs] at hreset
      cases hd : row.resetDue with
      | true => simp [maybeReset, hd] at hreset
      | false => simp [maybeReset, hd]
  rw [hused]
  exact h.used

theorem Covered.step_of_row (h : Covered k s) {a : PeriodAction}
    (hc : chargedTo s.st k a = 0) (ha : adjustedOn s.st k a = 0)
    (hrow : (storeStep s.st a).subs k = s.st.subs k ∨
      (storeStep s.st a).subs k = (s.st.subs k).map maybeReset) : Covered k (s.step k a) := by
  have hr := h.restart hrow
  refine ⟨?_, ?_⟩
  · have hu := hr.used
    simp only [Period.step, hc, ha, ite_self]
    simpa using hu
  have hx := hr.crossed
  simp only [Period.step, ha, ite_self]
  simpa using hx

theorem Covered.step_of_adjust (h : Covered k s) {a : PeriodAction}
    (hc : chargedTo s.st k a = 0) (hdue : dueOf (storeStep s.st a) k = dueOf s.st k)
    (hused : usedOf s.st k + adjustedOn s.st k a ≤ usedOf (storeStep s.st a) k) :
    Covered k (s.step k a) := by
  have hkeep : s.restart k (storeStep s.st a) = { s with st := storeStep s.st a } := by
    unfold Period.restart
    rw [if_neg]
    rw [hdue]
    rintro ⟨h1, h2⟩
    exact h2 h1
  have h1 := h.used
  have h2 := h.crossed
  refine ⟨?_, ?_⟩
  · simp only [Period.step, hkeep, hc]
    split <;> omega
  · simp only [Period.step, hkeep]
    split <;> omega

theorem Covered.step_of_charge (h : Covered k s) {a : PeriodAction}
    {row : UserSubscription} {amount : Int}
    (hc : chargedTo s.st k a = amount) (ha : adjustedOn s.st k a = 0)
    (hrow : s.st.subs k = some row) (hdue : dueOf (storeStep s.st a) k = false)
    (hused : usedOf (storeStep s.st a) k = (maybeReset row).amountUsed + amount) :
    Covered k (s.step k a) := by
  have hold := h.used
  have hx := h.crossed
  have hu0 : usedOf s.st k = row.amountUsed := by
    unfold usedOf
    rw [hrow]
  have hd0 : dueOf s.st k = row.resetDue := by
    unfold dueOf
    rw [hrow]
  have hsplit : s.restart k (storeStep s.st a) =
      if row.resetDue then Period.start (storeStep s.st a)
      else { s with st := storeStep s.st a } := by
    unfold Period.restart
    rw [hd0, hdue]
    simp
  cases hd : row.resetDue with
  | true =>
    have hzero : (maybeReset row).amountUsed = 0 := by simp [maybeReset, hd]
    rw [hd, if_pos rfl] at hsplit
    refine ⟨?_, ?_⟩
    · simp only [Period.step, hsplit, Period.start, hc, ha, ite_self]
      rw [hzero] at hused
      omega
    · simp only [Period.step, hsplit, Period.start, ha, ite_self]
      omega
  | false =>
    have hsame : (maybeReset row).amountUsed = row.amountUsed := by simp [maybeReset, hd]
    rw [hd, if_neg Bool.false_ne_true] at hsplit
    refine ⟨?_, ?_⟩
    · simp only [Period.step, hsplit, hc, ha, ite_self]
      rw [hsame] at hused
      omega
    · simp only [Period.step, hsplit, ha, ite_self]
      omega

theorem refund_subs (st : SubStore) (rid : String) (f : RefundFault) :
    (takesBack st rid f = false ∧ (refundSubscriptionPreConsume st rid f).2.subs = st.subs) ∨
    (∃ r sub, st.records rid = some r ∧ takesBack st rid f = true ∧
      st.subs r.userSubscriptionId = some sub ∧
      (refundSubscriptionPreConsume st rid f).2.subs =
        (st.setSub r.userSubscriptionId (taken sub r.preConsumed)).subs) := by
  cases hrec : st.records rid with
  | none =>
    left
    refine ⟨by simp [takesBack, hrec], ?_⟩
    unfold refundSubscriptionPreConsume
    rw [hrec]
    split
    · rfl
    · split <;> rfl
  | some r =>
    cases hst : r.status with
    | refunded =>
      obtain ⟨hsame, hno⟩ := refund_of_refunded hrec hst f
      exact .inl ⟨hno, by rw [hsame]⟩
    | consumed =>
      by_cases ha : 0 < r.preConsumed
      · obtain ⟨-, hno, e, he⟩ | ⟨-, hyes, sub, hsub, ⟨-, hcall⟩ | ⟨-, hcall⟩⟩ :=
          refund_call_cases hrec hst ha f
        · exact .inl ⟨hno, by rw [he]⟩
        · exact .inr ⟨r, sub, rfl, hyes, hsub, by rw [hcall]⟩
        · exact .inr ⟨r, sub, rfl, hyes, hsub, by rw [hcall]; rfl⟩
      left
      refine ⟨by simp [takesBack, hrec, ha], ?_⟩
      unfold refundSubscriptionPreConsume
      simp only [hrec, hst, if_pos (by omega : r.preConsumed ≤ 0)]
      split
      · rfl
      split
      · rfl
      · split <;> rfl

theorem dueOf_setSub {st : SubStore} {id : Int} {sub : UserSubscription}
    (hsub : st.subs id = some sub) (used : Nat) (k : Int) :
    dueOf (st.setSub id { sub with amountUsed := used }) k = dueOf st k := by
  unfold dueOf
  by_cases hk : k = id
  · rw [hk, SubStore.setSub_subs_self, hsub]
  · simp [SubStore.setSub, hk]

theorem usedOf_setSub {st : SubStore} {id : Int} (sub : UserSubscription) (k : Int) :
    usedOf (st.setSub id sub) k = if k = id then (sub.amountUsed : Int) else usedOf st k := by
  unfold usedOf
  by_cases hk : k = id
  · rw [if_pos hk, hk, SubStore.setSub_subs_self]
  · simp [SubStore.setSub, hk]

/-! ## Steps and runs -/

theorem Covered.preConsume (h : Covered k s) (rid : String)
    (u amount : Int) (active : List Int) (fail : Bool) :
    Covered k (s.step k (.preConsume rid u amount active fail)) := by
  obtain ⟨e, he⟩ | ⟨r, sub, hr, -, hok⟩ | ⟨st', res, hnone, hpos, hch, hok⟩ :=
    preConsumeUserSubscription_cases s.st rid u amount active fail
  · -- nothing happened
    have hst : storeStep s.st (.preConsume rid u amount active fail) = s.st := by
      show (preConsumeUserSubscription s.st rid u amount active fail).2 = s.st
      rw [he]
    refine h.step_of_row ?_ rfl (.inl (by rw [hst]))
    simp only [chargedTo, he]
    cases s.st.records rid <;> rfl
  · -- an earlier charge was answered
    have hst : storeStep s.st (.preConsume rid u amount active fail) = s.st := by
      show (preConsumeUserSubscription s.st rid u amount active fail).2 = s.st
      rw [hok]
    refine h.step_of_row ?_ rfl (.inl (by rw [hst]))
    simp only [chargedTo, hr]
  have hst : (storeStep s.st (.preConsume rid u amount active fail)).subs = st'.subs := by
    show (preConsumeUserSubscription s.st rid u amount active fail).2.subs = st'.subs
    rw [hok]
    rfl
  by_cases hk : res.userSubscriptionId = k
  · obtain ⟨-, -, ⟨row, hrow, hbefore⟩, hafter, hrow', -⟩ := chargeFirst_some hpos hch
    rw [hk] at hrow hrow'
    have hc : chargedTo s.st k (.preConsume rid u amount active fail) = amount := by
      simp only [chargedTo, hnone, hok, if_pos hk]
    refine h.step_of_charge hc rfl hrow ?_ ?_
    · unfold dueOf
      rw [hst, hrow']
    unfold usedOf
    rw [hst, hrow', hbefore]
    exact hafter
  refine h.step_of_row ?_ rfl ?_
  · simp only [chargedTo, hnone, hok, if_neg hk]
  · rw [hst]
    exact chargeFirst_other hch hk

theorem Covered.refund (h : Covered k s) (rid : String)
    (f : RefundFault) : Covered k (s.step k (.refund rid f)) := by
  obtain ⟨hno, hsubs⟩ | ⟨r, sub, hrec, hyes, hsub, hsubs⟩ := refund_subs s.st rid f
  · refine h.step_of_row rfl ?_ (.inl (by simp only [storeStep, hsubs]))
    simp only [adjustedOn, hno]
    split <;> simp
  have hdue : dueOf (storeStep s.st (.refund rid f)) k = dueOf s.st k := by
    rw [← dueOf_setSub hsub (newUsed sub (-r.preConsumed)) k]
    unfold dueOf
    simp only [storeStep, hsubs, taken]
  have hused : usedOf (storeStep s.st (.refund rid f)) k =
      if k = r.userSubscriptionId then max (sub.amountUsed - r.preConsumed) 0
      else usedOf s.st k := by
    rw [← taken_amountUsed, ← usedOf_setSub]
    unfold usedOf
    simp only [storeStep, hsubs]
  refine h.step_of_adjust rfl hdue ?_
  rw [hused]
  simp only [adjustedOn, hrec, hyes, true_and]
  by_cases hk : k = r.userSubscriptionId
  · have hu : usedOf s.st k = sub.amountUsed := by
      unfold usedOf
      rw [hk, hsub]
    rw [if_pos hk.symm, if_pos hk, hu]
    omega
  · rw [if_neg (Ne.symm hk), if_neg hk]
    omega

theorem Covered.settle (h : Covered k s) (rid : String) (delta : Int)
    (fail : Bool) : Covered k (s.step k (.settle rid delta fail)) := by
  cases hrec : s.st.records rid with
  | none =>
    refine h.step_of_row rfl ?_ (.inl ?_)
    · simp only [adjustedOn, hrec]
    · simp only [storeStep, settleCharge, hrec]
  | some r =>
    have hcall : settleCharge s.st rid delta fail =
        postConsumeUserSubscriptionDelta s.st r.userSubscriptionId delta fail := by
      simp only [settleCharge, hrec]
    obtain ⟨e, he⟩ | ⟨h0, he⟩ | ⟨sub, hsub, -, -, -, -, he⟩ :=
      postConsumeUserSubscriptionDelta_cases s.st r.userSubscriptionId delta fail
    · refine h.step_of_row rfl ?_ (.inl ?_)
      · simp [adjustedOn, hrec, hcall, he, Except.isOk, Except.toBool]
      · simp only [storeStep, hcall, he]
    · refine h.step_of_row rfl ?_ (.inl ?_)
      · simp [adjustedOn, hrec, h0]
      · simp only [storeStep, hcall, he]
    have hst : storeStep s.st (.settle rid delta fail) =
        s.st.setSub r.userSubscriptionId { sub with amountUsed := newUsed sub delta } := by
      simp only [storeStep, hcall, he]
    refine h.step_of_adjust rfl ?_ ?_
    · rw [hst]
      exact dueOf_setSub hsub _ k
    rw [hst, usedOf_setSub]
    have hadj : adjustedOn s.st k (.settle rid delta fail) =
        if r.userSubscriptionId = k then delta else 0 := by
      simp [adjustedOn, hrec, hcall, he, Except.isOk, Except.toBool]
    rw [hadj]
    by_cases hk : k = r.userSubscriptionId
    · have hu : usedOf s.st k = sub.amountUsed := by
        unfold usedOf
        rw [hk, hsub]
      rw [if_pos hk.symm, if_pos hk, hu]
      dsimp only [newUsed]
      omega
    · rw [if_neg (Ne.symm hk), if_neg hk]
      omega

theorem modify_subs (st : SubStore) (id k : Int) (f : UserSubscription → UserSubscription) :
    (st.modify id f).subs k = if k = id then (st.subs k).map f else st.subs k := by
  unfold SubStore.modify
  by_cases hk : k = id
  · cases hs : st.subs id with
    | none | some row => simp [hk, hs]
  cases hs : st.subs id with
  | none => simp [hk]
  | some row => simp [SubStore.setSub, hk]

/-- **One call.** -/
theorem Covered.step (h : Covered k s) (a : PeriodAction) : Covered k (s.step k a) := by
  cases a with
  | preConsume rid u amount active fail => exact h.preConsume rid u amount active fail
  | refund rid f => exact h.refund rid f
  | settle rid delta fail => exact h.settle rid delta fail
  | resetDue id =>
    have hrow := modify_subs s.st id k maybeReset
    refine h.step_of_row rfl rfl ?_
    by_cases hk : k = id
    · rw [if_pos hk] at hrow
      exact .inr hrow
    · rw [if_neg hk] at hrow
      exact .inl hrow
  | boundary id =>
    -- the usage stays, and a reset that becomes due is not one that happened
    have hrow := modify_subs s.st id k fun r => { r with resetDue := true }
    have hused : usedOf (storeStep s.st (.boundary id)) k = usedOf s.st k := by
      unfold usedOf
      simp only [storeStep, hrow]
      by_cases hk : k = id
      · cases hs : s.st.subs k with
        | none | some row => simp [hk]
      · simp [hk]
    have hkeep : s.restart k (storeStep s.st (.boundary id)) =
        { s with st := storeStep s.st (.boundary id) } := by
      unfold Period.restart
      rw [if_neg]
      rintro ⟨hd, hnot⟩
      apply hnot
      unfold dueOf at hd ⊢
      simp only [storeStep, hrow]
      by_cases hk : k = id
      · cases hs : s.st.subs k with
        | none => simp [hs] at hd
        | some row => simp [hk]
      · simpa [hk] using hd
    have h1 := h.used
    have h2 := h.crossed
    refine ⟨?_, ?_⟩
    · simp only [Period.step, hkeep, chargedTo, adjustedOn, hused, ite_self]
      omega
    · simp only [Period.step, hkeep, adjustedOn]
      split <;> omega

/-- **Usage of the current period, over every run.**  From any store and through
    any sequence of charges, resets, refunds and settlements, the row reads at
    least the net charges made since its last reset less what was given back
    since then for charges made before it; so a charge from before the reset
    takes at most its own amount off, and none where none was adjusted. -/
theorem period_usage_covered (k : Int) (st : SubStore) (as : List PeriodAction) :
    (run (Period.step k) (Period.start st) as).net -
        (run (Period.step k) (Period.start st) as).crossed ≤
      usedOf (run (Period.step k) (Period.start st) as).st k ∧
    0 ≤ (run (Period.step k) (Period.start st) as).crossed ∧
    0 ≤ usedOf (run (Period.step k) (Period.start st) as).st k := by
  have h := run_invariant_all (Covered k) (fun s a hs => hs.step a) as (covered_start k st)
  exact ⟨h.used, h.crossed, usedOf_nonneg _ k⟩

def freshStore : SubStore where
  subs id := if id = 7 then some { amountTotal := 1000, amountUsed := 0, resetDue := false }
    else none
  records _ := none

/-- A charge of 100, the reset, a charge of 50, and the refund of the first. -/
def refundAcrossReset : List PeriodAction :=
  [.preConsume "a" 1 100 [7] false, .boundary 7, .preConsume "b" 1 50 [7] false,
   .refund "a" {}]

/-- The refund of the charge from before the reset takes the 50 of the new
    period with it. -/
theorem refundAcrossReset_uncharges :
    (run (Period.step 7) (Period.start freshStore) refundAcrossReset).net = 50 ∧
    usedOf (run (Period.step 7) (Period.start freshStore) refundAcrossReset).st 7 = 0 := by
  decide +kernel

end NewApi.Subscription
