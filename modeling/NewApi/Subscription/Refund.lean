/-
  NewApi.Subscription.Refund

  `RefundSubscriptionPreConsume`, the retry loop of `service/funding_source.go`
  around it, and how often a request's charge is taken back.

  The body reads the record, hands the decrement to
  `PostConsumeUserSubscriptionDelta` and then saves the record as refunded.
  The helper opens its own transaction on `DB`, so the decrement is durable
  before the save is attempted: when the save or the outer commit fails, the
  call reports an error, the record still reads `consumed`, and the next
  attempt decrements again.

  A `RefundFault` that reaches the decrement and then fails is `lost`; one
  that goes through is `complete`.  `NoRetryAfterLost` is the exact condition
  on a sequence of calls under which the charge is taken back at most once.
-/

import NewApi.Subscription.Store
import Mathlib.Tactic.Positivity

namespace NewApi.Subscription

/-! ## The code -/

/-- Which statement of one `RefundSubscriptionPreConsume` call errors: the
    locking read of the record, some statement of the delta transaction, the
    save of the record, the commit of the outer transaction. -/
structure RefundFault where
  lockRecord : Bool := false
  delta : Bool := false
  saveRecord : Bool := false
  commit : Bool := false

variable (st : SubStore)

variable (requestId : String)

variable (f : RefundFault)

def refundSubscriptionPreConsume : Except Err Unit × SubStore :=
  if blank requestId then (.error .emptyRequestId, st)
  else if f.lockRecord then (.error .database, st)
  else match st.records requestId with
  | none => (.error .recordNotFound, st)
  | some record =>
    match record.status with
    | .refunded => if f.commit then (.error .database, st) else (.ok (), st)
    | .consumed =>
      if record.preConsumed ≤ 0 then
        if f.saveRecord || f.commit then (.error .database, st)
        else (.ok (), st.setRecord requestId { record with status := .refunded })
      else
        match postConsumeUserSubscriptionDelta st record.userSubscriptionId
            (-record.preConsumed) f.delta with
        | (.error e, st') => (.error e, st')
        | (.ok (), st') =>
          -- the decrement in `st'` is committed: rolling the outer
          -- transaction back does not undo it
          if f.saveRecord || f.commit then (.error .database, st')
          else (.ok (), st'.setRecord requestId { record with status := .refunded })

/-- `const maxAttempts = 3` -/
def maxAttempts : Nat := 3

/-- The attempts of `refundWithRetry`, one fault each: stop at the first
    success, report the last error. -/
def retryLoop (requestId : String) : SubStore → List RefundFault → Except Err Unit × SubStore
  | st, [] => (.ok (), st)
  | st, [f] => refundSubscriptionPreConsume st requestId f
  | st, f :: g :: fs =>
    match refundSubscriptionPreConsume st requestId f with
    | (.ok (), st') => (.ok (), st')
    | (.error _, st') => retryLoop requestId st' (g :: fs)

/-- `refundWithRetry` over `RefundSubscriptionPreConsume` -/
def refundWithRetry (attempts : Fin maxAttempts → RefundFault) : Except Err Unit × SubStore :=
  retryLoop requestId st (List.ofFn attempts)

/-! ## What one call does -/

/-- The record's charge can be taken off its row: the row is there and the
    decreased amount passes the total check. -/
def Refundable (r : PreConsumeRecord) : Prop :=
  blank requestId = false ∧ 0 < r.userSubscriptionId ∧
    ∃ sub, st.subs r.userSubscriptionId = some sub ∧
      (0 < sub.amountTotal → (newUsed sub (-r.preConsumed) : Int) ≤ sub.amountTotal)

def RefundFault.reaches : Bool := !f.lockRecord && !f.delta

def RefundFault.lost : Bool := f.reaches && (f.saveRecord || f.commit)

def RefundFault.complete : Bool :=
  f.reaches && !(f.saveRecord || f.commit)

/-- The call takes the charge off the row: its delta transaction commits. -/
def takesBack : Bool :=
  !blank requestId && !f.lockRecord &&
  match st.records requestId with
  | none => false
  | some r => r.status = .consumed && 0 < r.preConsumed &&
      (postConsumeUserSubscriptionDelta st r.userSubscriptionId (-r.preConsumed)
        f.delta).1.isOk

/-- The row with `a` taken back. -/
def taken (sub : UserSubscription) (a : Int) : UserSubscription :=
  { sub with amountUsed := newUsed sub (-a) }

theorem taken_amountUsed (sub : UserSubscription) (a : Int) :
    ((taken sub a).amountUsed : Int) = max (sub.amountUsed - a) 0 := by
  simp only [taken, newUsed]
  omega

theorem refund_of_refunded {st : SubStore} {rid : String} {r : PreConsumeRecord}
    (hrec : st.records rid = some r) (hst : r.status = .refunded) (f : RefundFault) :
    (refundSubscriptionPreConsume st rid f).2 = st ∧ takesBack st rid f = false := by
  constructor
  · unfold refundSubscriptionPreConsume
    rw [hrec]
    simp only [hst]
    split
    · rfl
    split
    · rfl
    · split <;> rfl
  · simp [takesBack, hrec, hst]

section Consumed

variable {st : SubStore} {rid : String} {r : PreConsumeRecord}

theorem Refundable.setSub_taken (h : Refundable st rid r) (ha : 0 < r.preConsumed)
    {sub : UserSubscription} (hsub : st.subs r.userSubscriptionId = some sub) :
    Refundable (st.setSub r.userSubscriptionId (taken sub r.preConsumed)) rid r := by
  obtain ⟨hb, hid, sub', hsub', hroom⟩ := h
  obtain rfl : sub = sub' := Option.some.inj (hsub ▸ hsub')
  refine ⟨hb, hid, _, SubStore.setSub_subs_self _ _ _, fun ht => ?_⟩
  have h1 := hroom ht
  simp only [taken, newUsed] at h1 ⊢
  omega

/-- **One call on a consumed record, by outcome.**  It fails before the
    decrement and moves nothing; or it commits the decrement and fails, leaving
    the record consumed; or it commits both. -/
theorem refund_call_cases (hrec : st.records rid = some r) (hst : r.status = .consumed)
    (ha : 0 < r.preConsumed) (f : RefundFault) :
    ((Refundable st rid r → f.reaches = false) ∧ takesBack st rid f = false ∧
      ∃ e, refundSubscriptionPreConsume st rid f = (.error e, st)) ∨
    (Refundable st rid r ∧ takesBack st rid f = true ∧
      ∃ sub, st.subs r.userSubscriptionId = some sub ∧
      ((f.lost = true ∧ refundSubscriptionPreConsume st rid f =
          (.error .database, st.setSub r.userSubscriptionId (taken sub r.preConsumed))) ∨
       (f.complete = true ∧ refundSubscriptionPreConsume st rid f =
          (.ok (), (st.setSub r.userSubscriptionId (taken sub r.preConsumed)).setRecord rid
            { r with status := .refunded })))) := by
  cases hb : blank rid with
  | true => exact .inl ⟨fun h => absurd h.1 (by simp [hb]), by simp [takesBack, hb],
      .emptyRequestId, by simp [refundSubscriptionPreConsume, hb]⟩
  | false =>
  cases hl : f.lockRecord with
  | true => exact .inl ⟨fun _ => by simp [RefundFault.reaches, hl], by simp [takesBack, hl],
      .database, by simp [refundSubscriptionPreConsume, hb, hl]⟩
  | false =>
  have hbody : refundSubscriptionPreConsume st rid f =
      match postConsumeUserSubscriptionDelta st r.userSubscriptionId (-r.preConsumed)
        f.delta with
      | (.error e, st') => (.error e, st')
      | (.ok (), st') =>
        if f.saveRecord || f.commit then (.error .database, st')
        else (.ok (), st'.setRecord rid { r with status := .refunded }) := by
    simp only [refundSubscriptionPreConsume, hb, hl, hrec, hst, Bool.false_eq_true, if_false,
      if_neg (by omega : ¬ r.preConsumed ≤ 0)]
  have htake : takesBack st rid f = (postConsumeUserSubscriptionDelta st
      r.userSubscriptionId (-r.preConsumed) f.delta).1.isOk := by
    simp [takesBack, hb, hl, hrec, hst, ha]
  obtain ⟨e, he⟩ | ⟨h0, -⟩ | ⟨sub, hsub, hid, -, hd, hroom, hok⟩ :=
    postConsumeUserSubscriptionDelta_cases st r.userSubscriptionId (-r.preConsumed) f.delta
  · rw [he] at hbody htake
    refine .inl ⟨fun h => ?_, htake, e, hbody⟩
    -- a refundable record fails the delta transaction only through its fault
    obtain ⟨-, hid, sub, hsub, hroom⟩ := h
    cases hd : f.delta with
    | true => simp [RefundFault.reaches, hd]
    | false =>
      rw [hd, postConsumeUserSubscriptionDelta_ok hid (by omega) hsub hroom] at he
      simp at he
  · omega
  rw [hok] at hbody htake
  refine .inr ⟨⟨hb, hid, sub, hsub, hroom⟩, htake, sub, hsub, ?_⟩
  cases hs : f.saveRecord || f.commit with
  | true => exact .inl ⟨by simp [RefundFault.lost, RefundFault.reaches, hl, hd, hs],
      by simpa [hs, taken] using hbody⟩
  | false => exact .inr ⟨by simp [RefundFault.complete, RefundFault.reaches, hl, hd, hs],
      by simpa [hs, taken] using hbody⟩

end Consumed

/-! ## Sequences of calls -/

/-- What each call of the sequence reports. -/
def results (requestId : String) : SubStore → List RefundFault → List (Except Err Unit)
  | _, [] => []
  | st, f :: fs =>
    (refundSubscriptionPreConsume st requestId f).1 ::
      results requestId (refundSubscriptionPreConsume st requestId f).2 fs

def afterCalls (requestId : String) : SubStore → List RefundFault → SubStore
  | st, [] => st
  | st, f :: fs => afterCalls requestId (refundSubscriptionPreConsume st requestId f).2 fs

def decrements (requestId : String) : SubStore → List RefundFault → Nat
  | _, [] => 0
  | st, f :: fs =>
    (if takesBack st requestId f then 1 else 0) +
      decrements requestId (refundSubscriptionPreConsume st requestId f).2 fs

/-- The charge is taken back at most once, and exactly once if some call
    reports success. -/
def ExactlyOnce (st : SubStore) (requestId : String) (fs : List RefundFault) : Prop :=
  decrements requestId st fs ≤ 1 ∧
    (.ok () ∈ results requestId st fs → decrements requestId st fs = 1)

/-- No call that failed after its decrement was committed is followed by
    another one that commits it. -/
def NoRetryAfterLost : List RefundFault → Prop
  | [] => True
  | f :: fs =>
    if f.complete then True
    else if f.lost then ∀ g ∈ fs, g.reaches = false
    else NoRetryAfterLost fs

theorem RefundFault.reaches_of_lost {f : RefundFault} (h : f.lost = true) :
    f.reaches = true ∧ f.complete = false := by
  simp only [RefundFault.lost, Bool.and_eq_true] at h
  simp [RefundFault.complete, h.1, h.2]

theorem RefundFault.reaches_of_complete {f : RefundFault} (h : f.complete = true) :
    f.reaches = true := by
  simp only [RefundFault.complete, Bool.and_eq_true] at h
  exact h.1

theorem RefundFault.not_reaches {f : RefundFault} (h : f.reaches = false) :
    f.lost = false ∧ f.complete = false := by
  simp [RefundFault.lost, RefundFault.complete, h]

theorem decrements_of_refunded {rid : String} {r : PreConsumeRecord}
    (hst : r.status = .refunded) (fs : List RefundFault) (st : SubStore)
    (hrec : st.records rid = some r) : decrements rid st fs = 0 ∧ afterCalls rid st fs = st := by
  induction fs with
  | nil => exact ⟨rfl, rfl⟩
  | cons f fs ih =>
    obtain ⟨hstay, hno⟩ := refund_of_refunded hrec hst f
    simp only [decrements, afterCalls, hstay, hno, ih.1, ih.2]
    simp

section Sequences

variable {rid : String} {r : PreConsumeRecord} (hst : r.status = .consumed)
  (ha : 0 < r.preConsumed)
include hst ha

variable (fs : List RefundFault)

theorem decrements_of_not_refundable {st : SubStore}
    (hrec : st.records rid = some r) (hnot : ¬ Refundable st rid r) :
    decrements rid st fs = 0 ∧ .ok () ∉ results rid st fs := by
  induction fs with
  | nil => exact ⟨rfl, List.not_mem_nil⟩
  | cons f fs ih =>
    obtain ⟨-, hno, e, he⟩ | ⟨h, -⟩ := refund_call_cases hrec hst ha f
    · simp only [decrements, results, he, hno, ih.1]
      exact ⟨by simp, by simp [ih.2]⟩
    · exact absurd h hnot

theorem decrements_eq_zero_iff (st : SubStore)
    (hrec : st.records rid = some r) (hrf : Refundable st rid r) :
    decrements rid st fs = 0 ↔ ∀ g ∈ fs, g.reaches = false := by
  induction fs with
  | nil => simp [decrements]
  | cons f fs ih =>
    obtain ⟨hf, hno, e, he⟩ | ⟨-, hyes, sub, -, ⟨hf, -⟩ | ⟨hf, -⟩⟩ :=
      refund_call_cases hrec hst ha f
    · simp only [decrements, he, hno, List.forall_mem_cons, hf hrf, true_and]
      simpa using ih
    · simp [decrements, hyes, (RefundFault.reaches_of_lost hf).1]
    · simp [decrements, hyes, RefundFault.reaches_of_complete hf]

theorem exactlyOnce_iff_noRetryAfterLost {st : SubStore}
    (hrec : st.records rid = some r) (hrf : Refundable st rid r) :
    ExactlyOnce st rid fs ↔ NoRetryAfterLost fs := by
  induction fs with
  | nil => simp [ExactlyOnce, NoRetryAfterLost, decrements, results]
  | cons f fs ih =>
    obtain ⟨hf, hno, e, he⟩ | ⟨-, hyes, sub, hsub, ⟨hf, hcall⟩ | ⟨hf, hcall⟩⟩ :=
      refund_call_cases hrec hst ha f
    · obtain ⟨hlost, hcomp⟩ := RefundFault.not_reaches (hf hrf)
      simpa [ExactlyOnce, NoRetryAfterLost, decrements, results, he, hno, hlost, hcomp]
        using ih
    · -- one decrement is out: any later one that reaches it makes two
      have hzero := decrements_eq_zero_iff hst ha fs
        (st.setSub r.userSubscriptionId (taken sub r.preConsumed))
        (by simpa using hrec) (hrf.setSub_taken ha hsub)
      simp only [ExactlyOnce, NoRetryAfterLost, decrements, results, hcall, hyes, hf,
        (RefundFault.reaches_of_lost hf).2, if_true, Bool.false_eq_true, if_false,
        ← hzero]
      constructor
      · rintro ⟨h1, -⟩
        omega
      · intro h
        exact ⟨by omega, fun _ => by omega⟩
    obtain ⟨h0, -⟩ := decrements_of_refunded
      (r := { r with status := .refunded }) rfl fs
      ((st.setSub r.userSubscriptionId (taken sub r.preConsumed)).setRecord rid
        { r with status := .refunded }) (SubStore.setRecord_records_self _ _ _)
    simp [ExactlyOnce, NoRetryAfterLost, decrements, hcall, hyes, hf, h0]

theorem afterCalls_amountUsed (st : SubStore)
    (sub : UserSubscription) (hrec : st.records rid = some r)
    (hsub : st.subs r.userSubscriptionId = some sub) :
    ∃ sub', (afterCalls rid st fs).subs r.userSubscriptionId = some sub' ∧
      (sub'.amountUsed : Int) = max (sub.amountUsed - decrements rid st fs * r.preConsumed) 0 := by
  induction fs generalizing st sub with
  | nil => exact ⟨sub, hsub, by simp [decrements]⟩
  | cons f fs ih =>
    obtain ⟨-, hno, e, he⟩ | ⟨-, hyes, sub₀, hsub₀, ⟨-, hcall⟩ | ⟨-, hcall⟩⟩ :=
      refund_call_cases hrec hst ha f
    · simpa [afterCalls, decrements, he, hno] using ih st sub hrec hsub
    · obtain rfl : sub = sub₀ := Option.some.inj (hsub ▸ hsub₀)
      obtain ⟨sub', h1, h2⟩ := ih
        (st.setSub r.userSubscriptionId (taken sub r.preConsumed)) _
        (by simpa using hrec) (SubStore.setSub_subs_self _ _ _)
      refine ⟨sub', by simpa only [afterCalls, hcall] using h1, ?_⟩
      have hnn : (0 : Int) ≤ decrements rid
          (st.setSub r.userSubscriptionId (taken sub r.preConsumed)) fs
            * r.preConsumed := by positivity
      simp only [decrements, hcall, hyes, if_true]
      rw [h2, taken_amountUsed, Nat.cast_add, Nat.cast_one, add_mul, one_mul]
      omega
    obtain rfl : sub = sub₀ := Option.some.inj (hsub ▸ hsub₀)
    -- the record is refunded from here on: the rest of the run is inert
    obtain ⟨h1, h2⟩ := decrements_of_refunded
      (r := { r with status := .refunded }) rfl fs
      ((st.setSub r.userSubscriptionId (taken sub r.preConsumed)).setRecord rid
        { r with status := .refunded }) (SubStore.setRecord_records_self _ _ _)
    refine ⟨taken sub r.preConsumed, by simp [afterCalls, hcall, h2], ?_⟩
    simp only [decrements, hcall, hyes, h1, if_true, taken_amountUsed]
    simp

theorem retryLoop_of_not_reaches {st : SubStore} (hrec : st.records rid = some r)
    (f : RefundFault) (fs : List RefundFault)
    (hfs : ∀ g ∈ f :: fs, Refundable st rid r → g.reaches = false) :
    ∃ e, retryLoop rid st (f :: fs) = (.error e, st) := by
  have hfail : ∀ g ∈ f :: fs, ∃ e, refundSubscriptionPreConsume st rid g = (.error e, st) := by
    intro g hg
    obtain ⟨-, -, h⟩ | ⟨hrf, -, sub, -, ⟨hl, -⟩ | ⟨hc, -⟩⟩ := refund_call_cases hrec hst ha g
    · exact h
    · have h1 := hfs g hg hrf
      rw [(RefundFault.reaches_of_lost hl).1] at h1
      cases h1
    have h1 := hfs g hg hrf
    rw [RefundFault.reaches_of_complete hc] at h1
    cases h1
  induction fs generalizing f with
  | nil => exact hfail f List.mem_cons_self
  | cons g fs ih =>
    obtain ⟨e, he⟩ := hfail f List.mem_cons_self
    obtain ⟨e', he'⟩ := ih g (fun k hk => hfs k (List.mem_cons_of_mem _ hk))
      (fun k hk => hfail k (List.mem_cons_of_mem _ hk))
    exact ⟨e', by simp only [retryLoop, he, he']⟩

theorem retryLoop_ok {st : SubStore} (hrec : st.records rid = some r) (f : RefundFault)
    (fs : List RefundFault) (hno : NoRetryAfterLost (f :: fs))
    (hok : (retryLoop rid st (f :: fs)).1 = .ok ()) :
    ∃ sub, st.subs r.userSubscriptionId = some sub ∧
      (retryLoop rid st (f :: fs)).2 =
        (st.setSub r.userSubscriptionId (taken sub r.preConsumed)).setRecord rid
          { r with status := .refunded } := by
  by_cases hrf : Refundable st rid r
  case neg =>
    obtain ⟨e, he⟩ := retryLoop_of_not_reaches hst ha hrec f fs (fun _ _ h => absurd h hrf)
    rw [he] at hok
    cases hok
  induction fs generalizing f with
  | nil =>
    obtain ⟨-, -, e, he⟩ | ⟨-, -, sub, hsub, ⟨-, hcall⟩ | ⟨-, hcall⟩⟩ :=
      refund_call_cases hrec hst ha f
    · simp [retryLoop, he] at hok
    · simp [retryLoop, hcall] at hok
    · exact ⟨sub, hsub, by simp only [retryLoop, hcall]⟩
  | cons g fs ih =>
    obtain ⟨hf, -, e, he⟩ | ⟨-, -, sub, hsub, ⟨hf, hcall⟩ | ⟨-, hcall⟩⟩ :=
      refund_call_cases hrec hst ha f
    · simp only [retryLoop, he] at hok ⊢
      obtain ⟨hl, hc⟩ := RefundFault.not_reaches (hf hrf)
      have hno' : NoRetryAfterLost (g :: fs) := by
        simpa only [NoRetryAfterLost, hl, hc, Bool.false_eq_true, if_false] using hno
      exact ih g hno' hok
    · -- a lost call: nothing after it reaches the store, so no success follows
      simp only [retryLoop, hcall] at hok
      have hrest : ∀ k ∈ g :: fs, k.reaches = false := by
        simpa only [NoRetryAfterLost, hf, (RefundFault.reaches_of_lost hf).2,
          Bool.false_eq_true, if_false, if_true] using hno
      have hrec' : (st.setSub r.userSubscriptionId (taken sub r.preConsumed)).records rid =
          some r := hrec
      obtain ⟨e, he⟩ := retryLoop_of_not_reaches hst ha hrec' g fs
        (fun k hk _ => hrest k hk)
      rw [he] at hok
      cases hok
    · exact ⟨sub, hsub, by simp only [retryLoop, hcall]⟩

theorem refundWithRetry_ok {st : SubStore} (hrec : st.records rid = some r)
    (attempts : Fin maxAttempts → RefundFault) (hno : NoRetryAfterLost (List.ofFn attempts))
    (hok : (refundWithRetry st rid attempts).1 = .ok ()) :
    ∃ sub, st.subs r.userSubscriptionId = some sub ∧
      (refundWithRetry st rid attempts).2 =
        (st.setSub r.userSubscriptionId (taken sub r.preConsumed)).setRecord rid
          { r with status := .refunded } := by
  have hlen : (List.ofFn attempts).length = maxAttempts := List.length_ofFn
  have hne : List.ofFn attempts ≠ [] := by
    intro h0
    rw [h0] at hlen
    cases hlen
  obtain ⟨f, fs, hl⟩ := List.exists_cons_of_ne_nil hne
  unfold refundWithRetry at hok ⊢
  rw [hl] at hno hok ⊢
  exact retryLoop_ok hst ha hrec f fs hno hok

end Sequences

/-- **How often a refund is applied.**  Over every sequence of calls and every
    failing statement the charge is taken back at most once, and exactly once
    when a call reports success, if and only if the charge cannot be taken back
    at all or no call follows up on a decrement that was committed without its
    record.  The row reads the charge as often less as it was taken back. -/
theorem refundSubscriptionPreConsume_exactlyOnce_iff (st : SubStore) (rid : String)
    (r : PreConsumeRecord) (fs : List RefundFault) (hrec : st.records rid = some r)
    (hst : r.status = .consumed) (ha : 0 < r.preConsumed) :
    (ExactlyOnce st rid fs ↔ ¬ Refundable st rid r ∨ NoRetryAfterLost fs) ∧
    ∀ sub, st.subs r.userSubscriptionId = some sub →
      ∃ sub', (afterCalls rid st fs).subs r.userSubscriptionId = some sub' ∧
        (sub'.amountUsed : Int) =
          max (sub.amountUsed - decrements rid st fs * r.preConsumed) 0 := by
  refine ⟨?_, fun sub hsub => afterCalls_amountUsed hst ha fs st sub hrec hsub⟩
  by_cases hrf : Refundable st rid r
  · rw [exactlyOnce_iff_noRetryAfterLost hst ha fs hrec hrf]
    simp [hrf]
  · obtain ⟨h0, hno⟩ := decrements_of_not_refundable hst ha fs hrec hrf
    simp [ExactlyOnce, h0, hno, hrf]

/-- Two charges of 100 on subscription 7, the second recorded under `req`. -/
def chargedStore : SubStore where
  subs id := if id = 7 then some { amountTotal := 1000, amountUsed := 200, resetDue := false }
    else none
  records rid := if rid = "req" then
      some { userSubscriptionId := 7, preConsumed := 100, status := .consumed }
    else none

/-- The record cannot be saved on the first attempt, the second goes through. -/
def saveFailsOnce : List RefundFault := [{ saveRecord := true }, {}]

/-- The same two faults as the attempts of `refundWithRetry`. -/
def firstSaveFails : Fin maxAttempts → RefundFault :=
  fun i => if i.val = 0 then { saveRecord := true } else {}

theorem refundSubscriptionPreConsume_exactlyOnce_iff_saveFailsOnce :
    (ExactlyOnce chargedStore "req" saveFailsOnce ↔
      ¬ Refundable chargedStore "req" ⟨7, 100, .consumed⟩ ∨
        NoRetryAfterLost saveFailsOnce) ∧
    ∃ sub', (afterCalls "req" chargedStore saveFailsOnce).subs 7 = some sub' ∧
      (sub'.amountUsed : Int) =
        max (200 - decrements "req" chargedStore saveFailsOnce * 100) 0 := by
  have h := refundSubscriptionPreConsume_exactlyOnce_iff chargedStore "req"
    ⟨7, 100, .consumed⟩ saveFailsOnce rfl rfl (by decide)
  exact ⟨h.1, h.2 ⟨1000, 200, false⟩ rfl⟩

/-- One retry of `refundWithRetry` is enough: the call reports success and the
    charge of 100 is off the row twice. -/
theorem saveFailsOnce_refunds_twice : ¬ ExactlyOnce chargedStore "req" saveFailsOnce ∧
    (refundWithRetry chargedStore "req" firstSaveFails).1 = .ok () ∧
    ((refundWithRetry chargedStore "req" firstSaveFails).2.subs 7).map
      UserSubscription.amountUsed = some 0 := by
  refine ⟨fun h => absurd h.1 ?_, rfl, rfl⟩
  have h2 : decrements "req" chargedStore saveFailsOnce = 2 := rfl
  omega

end NewApi.Subscription
