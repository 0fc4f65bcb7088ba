/-
  NewApi.Subscription.Store

  The two tables a subscription charge lives in, and the three transactions of
  `model/subscription.go` that move quota on them:

    * `preConsumeUserSubscription` — picks the first active subscription with
      room, records the charge under the request id and adds it to the row;
    * `postConsumeUserSubscriptionDelta` — adds a signed delta to one row,
      never below zero and never above the row's total;
    * `refundSubscriptionPreConsume` — marks the record refunded and takes its
      charge back.

  A gorm transaction is one step here: a statement of it that fails rolls the
  whole body back, so the store comes back unchanged.  The one body that is
  *not* one step is `refundSubscriptionPreConsume`: it runs
  `PostConsumeUserSubscriptionDelta` on `DB`, not on its own `tx`, so that
  helper's transaction commits by itself before the record is saved.  Its
  `RefundFault` therefore says separately which statement of which transaction
  fails.

  `AmountUsed` is a `Nat`: every writer of the column goes through
  `max(…, 0)` or adds a positive amount.
-/

import Mathlib.Data.Int.Basic
import Mathlib.Data.List.DropRight

namespace NewApi

/-- Errors of the model layer that the billing code tells apart, by the text
    the source gives them. -/
inductive Err where
  /-- `quota 不能为负数！` -/
  | negativeQuota
  /-- `wallet quota exceeds 9007199254740991` and `ErrWalletQuotaLimitExceeded` -/
  | walletLimit
  /-- `ErrInsufficientWalletQuota`: `wallet quota insufficient` -/
  | insufficientWallet
  /-- `token quota is not enough, …` -/
  | insufficientToken
  /-- `invalid userId`, `invalid userSubscriptionId` -/
  | invalidId
  /-- `requestId is empty` -/
  | emptyRequestId
  /-- `amount must be > 0` -/
  | amountNotPositive
  /-- `no active subscription` -/
  | noActiveSubscription
  /-- `subscription quota insufficient, need=%d` -/
  | subscriptionInsufficient (need : Int)
  /-- `subscription pre-consume already refunded` -/
  | alreadyRefunded
  /-- `subscription used exceeds total, used=%d total=%d` -/
  | usedExceedsTotal (used total : Int)
  /-- `gorm.ErrRecordNotFound` -/
  | recordNotFound
  /-- any other database error -/
  | database
deriving DecidableEq

namespace Subscription

/-! ## Rows -/

/-- The columns of `UserSubscription` that charging reads and writes.
    `resetDue` is the outcome of the catch-up loop in
    `maybeResetUserSubscriptionWithPlanTx`: a period boundary has passed. -/
structure UserSubscription where
  amountTotal : Int
  amountUsed : Nat
  resetDue : Bool

inductive RecordStatus where
  | consumed
  | refunded
deriving DecidableEq

/-- `SubscriptionPreConsumeRecord`; its `RequestId` is the table's key. -/
structure PreConsumeRecord where
  userSubscriptionId : Int
  preConsumed : Int
  status : RecordStatus

/-- `user_subscriptions` by primary key and `subscription_pre_consume_records`
    by its unique request id. -/
@[ext] structure SubStore where
  subs : Int → Option UserSubscription
  records : String → Option PreConsumeRecord

namespace SubStore

variable (st : SubStore)

def setSub (id : Int) (s : UserSubscription) : SubStore :=
  { st with subs := Function.update st.subs id (some s) }

def setRecord (requestId : String) (r : PreConsumeRecord) : SubStore :=
  { st with records := Function.update st.records requestId (some r) }

@[simp] theorem setSub_records (id : Int) (s : UserSubscription) :
    (st.setSub id s).records = st.records := rfl

@[simp] theorem setSub_subs_self (id : Int) (s : UserSubscription) :
    (st.setSub id s).subs id = some s := by
  simp [setSub]

@[simp] theorem setRecord_subs (rid : String) (r : PreConsumeRecord) :
    (st.setRecord rid r).subs = st.subs := rfl

@[simp] theorem setRecord_records_self (rid : String)
    (r : PreConsumeRecord) : (st.setRecord rid r).records rid = some r := by
  simp [setRecord]

theorem setSub_eq_self {st : SubStore} {id : Int} {s : UserSubscription}
    (h : st.subs id = some s) : st.setSub id s = st := by
  ext1
  · simp only [setSub, ← h, Function.update_eq_self]
  · rfl

theorem setSub_setSub (id : Int) (s t : UserSubscription) :
    (st.setSub id s).setSub id t = st.setSub id t := by
  simp [setSub]

end SubStore

/-! ## PreConsumeUserSubscription -/

/-- The code points `strings.TrimSpace` strips (`unicode.IsSpace`). -/
def isSpace (c : Char) : Bool :=
  c ∈ ['\t', '\n', '\x0b', '\x0c', '\r', ' ', '\u0085', '\u00a0', '\u1680', '\u2028',
    '\u2029', '\u202f', '\u205f', '\u3000'] || ('\u2000' ≤ c && c ≤ '\u200a')

def trimSpace (s : String) : String :=
  String.ofList ((s.toList.dropWhile isSpace).reverse.dropWhile isSpace).reverse

theorem dropWhile_rdropWhile {α : Type*} (p : α → Bool) (l : List α) :
    (List.rdropWhile p (l.dropWhile p)).dropWhile p = List.rdropWhile p (l.dropWhile p) := by
  rw [List.dropWhile_eq_self_iff]
  intro hpos
  have hpre : List.rdropWhile p (l.dropWhile p) <+: l.dropWhile p := List.rdropWhile_prefix p _
  have hlen : 0 < (l.dropWhile p).length := lt_of_lt_of_le hpos hpre.length_le
  rw [hpre.getElem hpos]
  exact List.dropWhile_get_zero_not p l hlen

theorem trimSpace_trimSpace (s : String) : trimSpace (trimSpace s) = trimSpace s := by
  show String.ofList (List.rdropWhile isSpace ((trimSpace s).toList.dropWhile isSpace)) = _
  have hs : (trimSpace s).toList = List.rdropWhile isSpace (s.toList.dropWhile isSpace) :=
    String.toList_ofList
  rw [hs, dropWhile_rdropWhile, List.rdropWhile_idempotent]
  rfl

/-- `strings.TrimSpace(requestId) == ""` -/
def blank (requestId : String) : Bool := requestId.toList.all isSpace

variable (s : UserSubscription)

/-- `maybeResetUserSubscriptionWithPlanTx`, on the charged columns. -/
def maybeReset : UserSubscription :=
  if s.resetDue then { s with amountUsed := 0, resetDue := false } else s

/-- `SubscriptionPreConsumeResult` -/
structure PreConsumeResult where
  userSubscriptionId : Int
  preConsumed : Int
  amountTotal : Int
  amountUsedBefore : Nat
  amountUsedAfter : Nat

/-- The candidate loop: reset what is due, skip a row without room, charge the
    first one that has it.  The reset of a skipped row stays in the
    transaction. -/
def chargeFirst (amount : Int) : SubStore → List Int → Option (SubStore × PreConsumeResult)
  | _, [] => none
  | st, id :: rest =>
    match st.subs id with
    | none => chargeFirst amount st rest
    | some row =>
      let sub := maybeReset row
      let st := st.setSub id sub
      if 0 < sub.amountTotal ∧ sub.amountTotal - sub.amountUsed < amount then
        chargeFirst amount st rest
      else
        let used := (sub.amountUsed + amount).toNat
        some (st.setSub id { sub with amountUsed := used },
          { userSubscriptionId := id, preConsumed := amount,
            amountTotal := sub.amountTotal,
            amountUsedBefore := sub.amountUsed, amountUsedAfter := used })

variable (st : SubStore)

/-- `PreConsumeUserSubscription`.  `active` is what its locking query returns:
    the ids of the user's active subscriptions by `end_time asc, id asc`;
    `fail` says that some statement of the transaction errors. -/
def preConsumeUserSubscription (requestId : String) (userId : Int)
    (amount : Int) (active : List Int) (fail : Bool) : Except Err PreConsumeResult × SubStore :=
  if userId ≤ 0 then (.error .invalidId, st)
  else if blank requestId then (.error .emptyRequestId, st)
  else if amount ≤ 0 then (.error .amountNotPositive, st)
  else if fail then (.error .database, st)
  else match st.records requestId with
  | some existing =>
    -- the idempotent path: a charge already recorded is answered, not repeated
    match existing.status with
    | .refunded => (.error .alreadyRefunded, st)
    | .consumed =>
      match st.subs existing.userSubscriptionId with
      | none => (.error .recordNotFound, st)
      | some sub =>
        (.ok { userSubscriptionId := existing.userSubscriptionId,
               preConsumed := existing.preConsumed,
               amountTotal := sub.amountTotal,
               amountUsedBefore := sub.amountUsed,
               amountUsedAfter := sub.amountUsed }, st)
  | none =>
    if active.isEmpty then (.error .noActiveSubscription, st)
    else match chargeFirst amount st active with
    | none => (.error (.subscriptionInsufficient amount), st)
    | some (st', res) =>
      (.ok res, st'.setRecord requestId
        { userSubscriptionId := res.userSubscriptionId, preConsumed := amount,
          status := .consumed })

theorem maybeReset_maybeReset : maybeReset (maybeReset s) = maybeReset s := by
  unfold maybeReset
  cases hd : s.resetDue <;> simp [hd]

theorem chargeFirst_some {amount : Int} (hpos : 0 < amount) {ids : List Int}
    {st st' : SubStore} {res : PreConsumeResult} (h : chargeFirst amount st ids = some (st', res)) :
    st'.records = st.records ∧ res.preConsumed = amount ∧
    (∃ row, st.subs res.userSubscriptionId = some row ∧
      (maybeReset row).amountUsed = res.amountUsedBefore) ∧
    (res.amountUsedAfter : Int) = res.amountUsedBefore + amount ∧
    st'.subs res.userSubscriptionId =
      some { amountTotal := res.amountTotal, amountUsed := res.amountUsedAfter,
             resetDue := false } ∧
    (0 < res.amountTotal → (res.amountUsedAfter : Int) ≤ res.amountTotal) := by
  induction ids generalizing st with
  | nil => simp [chargeFirst] at h
  | cons id rest ih =>
    rw [chargeFirst] at h
    cases hrow : st.subs id with
    | none =>
      rw [hrow] at h
      exact ih h
    | some row =>
      rw [hrow] at h
      simp only at h
      have hdue : (maybeReset row).resetDue = false := by
        unfold maybeReset
        cases hd : row.resetDue <;> simp [hd]
      by_cases hfull : 0 < (maybeReset row).amountTotal ∧
          (maybeReset row).amountTotal - (maybeReset row).amountUsed < amount
      · rw [if_pos hfull] at h
        obtain ⟨h1, h2, ⟨row', hr, hu⟩, h4⟩ := ih h
        refine ⟨h1, h2, ?_, h4⟩
        -- the charged row may be this very one, already reset above
        by_cases hid : res.userSubscriptionId = id
        · rw [hid, SubStore.setSub_subs_self] at hr
          obtain rfl := Option.some.inj hr
          exact ⟨row, hid ▸ hrow, by rw [← hu, maybeReset_maybeReset]⟩
        · exact ⟨row', by simpa [SubStore.setSub, hid] using hr, hu⟩
      rw [if_neg hfull] at h
      obtain ⟨rfl, rfl⟩ : _ ∧ _ := by simpa using h
      refine ⟨rfl, rfl, ⟨row, hrow, rfl⟩, by simp; omega, by simp [hdue], ?_⟩
      intro htot
      simp only [not_and] at hfull
      have := hfull htot
      simp only
      omega

theorem chargeFirst_frame {amount : Int} {ids : List Int} {st st' : SubStore}
    {res : PreConsumeResult} (h : chargeFirst amount st ids = some (st', res)) :
    ∀ id, id ≠ res.userSubscriptionId →
      st'.subs id = st.subs id ∨ st'.subs id = (st.subs id).map maybeReset := by
  induction ids generalizing st with
  | nil => simp [chargeFirst] at h
  | cons id₀ rest ih =>
    rw [chargeFirst] at h
    cases hrow : st.subs id₀ with
    | none =>
      rw [hrow] at h
      exact ih h
    | some row =>
      rw [hrow] at h
      simp only at h
      by_cases hfull : 0 < (maybeReset row).amountTotal ∧
          (maybeReset row).amountTotal - (maybeReset row).amountUsed < amount
      · rw [if_pos hfull] at h
        intro id hid
        have hrest := ih h id hid
        by_cases he : id = id₀
        · subst he
          rw [SubStore.setSub_subs_self] at hrest
          refine .inr ?_
          rw [hrow]
          rcases hrest with hr | hr
          · exact hr
          · rw [hr, Option.map_some, Option.map_some, maybeReset_maybeReset]
        have hsame : (st.setSub id₀ (maybeReset row)).subs id = st.subs id := by
          simp [SubStore.setSub, he]
        rwa [hsame] at hrest
      rw [if_neg hfull] at h
      obtain ⟨rfl, rfl⟩ : _ ∧ _ := by simpa using h
      intro id hid
      refine .inl ?_
      have he : id ≠ id₀ := hid
      simp [SubStore.setSub, he]

/-- A row that cannot give `amount`, a due reset included. -/
def LacksRoom (amount : Int) (row : UserSubscription) : Prop :=
  0 < row.amountTotal ∧ row.amountTotal - (maybeReset row).amountUsed < amount

theorem maybeReset_amountTotal : (maybeReset s).amountTotal = s.amountTotal := by
  unfold maybeReset
  split <;> rfl

theorem chargeFirst_none {amount : Int} {ids : List Int} {st : SubStore}
    (h : chargeFirst amount st ids = none) :
    ∀ id ∈ ids, ∀ row, st.subs id = some row → LacksRoom amount row := by
  induction ids generalizing st with
  | nil => simp
  | cons id₀ rest ih =>
    rw [chargeFirst] at h
    cases hrow : st.subs id₀ with
    | none =>
      rw [hrow] at h
      intro id hid row hr
      rcases List.mem_cons.1 hid with rfl | hmem
      · rw [hrow] at hr
        simp at hr
      · exact ih h id hmem row hr
    | some row₀ =>
      rw [hrow] at h
      simp only at h
      by_cases hfull : 0 < (maybeReset row₀).amountTotal ∧
          (maybeReset row₀).amountTotal - (maybeReset row₀).amountUsed < amount
      · rw [if_pos hfull] at h
        rw [maybeReset_amountTotal] at hfull
        intro id hid row hr
        by_cases he : id = id₀
        · subst he
          obtain rfl := Option.some.inj (hrow.symm.trans hr)
          exact hfull
        have hmem : id ∈ rest := by
          rcases List.mem_cons.1 hid with rfl | hmem
          · exact absurd rfl he
          · exact hmem
        refine ih h id hmem row ?_
        simpa [SubStore.setSub, he] using hr
      · rw [if_neg hfull] at h
        simp at h

/-- **`PreConsumeUserSubscription`, by outcome.**  It fails and leaves both
    tables alone, answers an earlier charge of the same request, or charges. -/
theorem preConsumeUserSubscription_cases (rid : String) (uid amount : Int)
    (active : List Int) (fail : Bool) :
    (∃ e, preConsumeUserSubscription st rid uid amount active fail = (.error e, st)) ∨
    (∃ r sub, st.records rid = some r ∧ st.subs r.userSubscriptionId = some sub ∧
      preConsumeUserSubscription st rid uid amount active fail =
        (.ok { userSubscriptionId := r.userSubscriptionId, preConsumed := r.preConsumed,
               amountTotal := sub.amountTotal, amountUsedBefore := sub.amountUsed,
               amountUsedAfter := sub.amountUsed }, st)) ∨
    (∃ st' res, st.records rid = none ∧ 0 < amount ∧
      chargeFirst amount st active = some (st', res) ∧
      preConsumeUserSubscription st rid uid amount active fail =
        (.ok res, st'.setRecord rid
          { userSubscriptionId := res.userSubscriptionId, preConsumed := amount,
            status := .consumed })) := by
  unfold preConsumeUserSubscription
  by_cases huid : uid ≤ 0
  · exact .inl ⟨.invalidId, by rw [if_pos huid]⟩
  by_cases hrid : blank rid
  · exact .inl ⟨.emptyRequestId, by rw [if_neg huid, if_pos hrid]⟩
  by_cases hamt : amount ≤ 0
  · exact .inl ⟨.amountNotPositive, by rw [if_neg huid, if_neg hrid, if_pos hamt]⟩
  by_cases hf : fail
  · exact .inl ⟨.database, by rw [if_neg huid, if_neg hrid, if_neg hamt, if_pos hf]⟩
  rw [if_neg huid, if_neg hrid, if_neg hamt, if_neg hf]
  cases hrec : st.records rid with
  | some r =>
    cases hst : r.status with
    | refunded => exact .inl ⟨.alreadyRefunded, by simp [hst]⟩
    | consumed =>
      cases hsub : st.subs r.userSubscriptionId with
      | none => exact .inl ⟨.recordNotFound, by simp [hst, hsub]⟩
      | some sub => exact .inr (.inl ⟨r, sub, rfl, hsub, by simp [hst, hsub]⟩)
  | none =>
    by_cases hact : active.isEmpty
    · exact .inl ⟨.noActiveSubscription, by simp [hact]⟩
    cases hch : chargeFirst amount st active with
    | none => exact .inl ⟨.subscriptionInsufficient amount, by simp [hact]⟩
    | some p => exact .inr (.inr ⟨p.1, p.2, rfl, by omega, rfl, by simp [hact]⟩)

/-! ## PostConsumeUserSubscriptionDelta -/

/-- `max(sub.AmountUsed+delta, 0)` -/
def newUsed (delta : Int) : Nat := (s.amountUsed + delta).toNat

/-- `PostConsumeUserSubscriptionDelta`; `fail` says that a statement of its
    transaction errors. -/
def postConsumeUserSubscriptionDelta (id : Int) (delta : Int)
    (fail : Bool) : Except Err Unit × SubStore :=
  if id ≤ 0 then (.error .invalidId, st)
  else if delta = 0 then (.ok (), st)
  else if fail then (.error .database, st)
  else match st.subs id with
  | none => (.error .recordNotFound, st)
  | some sub =>
    if 0 < sub.amountTotal ∧ sub.amountTotal < newUsed sub delta then
      (.error (.usedExceedsTotal (newUsed sub delta) sub.amountTotal), st)
    else (.ok (), st.setSub id { sub with amountUsed := newUsed sub delta })

theorem postConsumeUserSubscriptionDelta_cases (id delta : Int) (fail : Bool) :
    (∃ e, postConsumeUserSubscriptionDelta st id delta fail = (.error e, st)) ∨
    (delta = 0 ∧ postConsumeUserSubscriptionDelta st id delta fail = (.ok (), st)) ∨
    (∃ sub, st.subs id = some sub ∧ 0 < id ∧ delta ≠ 0 ∧ fail = false ∧
      (0 < sub.amountTotal → (newUsed sub delta : Int) ≤ sub.amountTotal) ∧
      postConsumeUserSubscriptionDelta st id delta fail =
        (.ok (), st.setSub id { sub with amountUsed := newUsed sub delta })) := by
  unfold postConsumeUserSubscriptionDelta
  by_cases hid : id ≤ 0
  · exact .inl ⟨.invalidId, by rw [if_pos hid]⟩
  by_cases hd : delta = 0
  · exact .inr (.inl ⟨hd, by rw [if_neg hid, if_pos hd]⟩)
  by_cases hf : fail
  · exact .inl ⟨.database, by rw [if_neg hid, if_neg hd, if_pos hf]⟩
  rw [if_neg hid, if_neg hd, if_neg hf]
  cases hsub : st.subs id with
  | none => exact .inl ⟨.recordNotFound, rfl⟩
  | some sub =>
    by_cases hfull : 0 < sub.amountTotal ∧ sub.amountTotal < newUsed sub delta
    · exact .inl ⟨_, if_pos hfull⟩
    refine .inr (.inr ⟨sub, rfl, by omega, hd, by simpa using hf, fun ht => ?_,
      if_neg hfull⟩)
    omega

theorem postConsumeUserSubscriptionDelta_ok {st : SubStore} {id : Int}
    {sub : UserSubscription} {delta : Int} (hid : 0 < id) (hd : delta ≠ 0)
    (hsub : st.subs id = some sub)
    (hroom : 0 < sub.amountTotal → (newUsed sub delta : Int) ≤ sub.amountTotal) :
    postConsumeUserSubscriptionDelta st id delta false =
      (.ok (), st.setSub id { sub with amountUsed := newUsed sub delta }) := by
  have hfull : ¬ (0 < sub.amountTotal ∧ sub.amountTotal < newUsed sub delta) := by
    rintro ⟨h1, h2⟩
    have := hroom h1
    omega
  simp only [postConsumeUserSubscriptionDelta, if_neg (by omega : ¬ id ≤ 0), if_neg hd,
    Bool.false_eq_true, if_false, hsub, if_neg hfull]

end Subscription
end NewApi
