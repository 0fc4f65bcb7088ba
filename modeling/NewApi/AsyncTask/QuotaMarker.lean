/-
  NewApi.AsyncTask.QuotaMarker

  The `Quota` of a task as the marker of the money held for it: sequences of
  `RefundTaskQuota` and `RecalculateTaskQuota` on one persisted task, each call
  on an in-memory copy that was re-read or kept, with the steps of the calls
  failing at will.

  Both calls take their delta from the copy, move the funding source, and only
  then write the marker.  Marker, money and usage counters agree after every
  call exactly when no call that moves money does so from a stale copy, loses
  its `UpdateQuota`, or asks more back than the subscription has used
  (`task_quota_is_held`).

  The user's and the channel's used quota count what is queued for them; their
  writes do not fail here.
-/

import NewApi.AsyncTask.Polling

namespace NewApi.AsyncTask

open NewApi.Lib Billing Subscription
open Polling (taskSpent taskAdjustFunding_cases taskSpent_adjustToken)

variable {ι : Type*} [DecidableEq ι]

/-! ## Calls on one task -/

/-- The persisted task, the `Quota` of every in-memory copy of it, the balances
    and the usage counters. -/
structure Accounts (ι : Type*) where
  row : Task
  copies : ι → Int
  stores : Stores
  /-- what the calls took off the funding source and have not given back -/
  held : Int
  userUsed : Int
  channelUsed : Int

namespace Accounts

/-- The copy `i` in a call. -/
def bill (s : Accounts ι) (i : ι) : Bill where
  task := { s.row with quota := s.copies i }
  row := s.row
  stores := s.stores

/-- After a call on copy `i` that ends in `b` and books `used` on the counters. -/
def ended (s : Accounts ι) (i : ι) (b : Bill) (used : Int) : Accounts ι where
  row := b.row
  copies := Function.update s.copies i b.task.quota
  stores := b.stores
  held := s.held + (taskSpent b.stores s.row - taskSpent s.stores s.row)
  userUsed := s.userUsed + used
  channelUsed := s.channelUsed + used

end Accounts

variable (cfg : Config)

/-- Whether `taskAdjustFunding` returns without an error. -/
def fundingAdjusted (b : Bill) (delta : Int) (f : BillFault) : Bool :=
  match (taskAdjustFunding cfg b.stores b.task delta f.funding).1 with
  | .ok () => true
  | .error _ => false

variable (s : Accounts ι)

/-- `RefundTaskQuota` on copy `i`, with steps 3 of it. -/
def refundCall (i : ι) (f : BillFault) : Accounts ι :=
  let quota := (s.bill i).task.quota
  let out := refundTaskQuota cfg (s.bill i) f
  -- UpdateUserUsedQuota, UpdateChannelUsedQuota: only past the early returns
  s.ended i out.2 (if quota ≠ 0 ∧ out.1 then -quota else 0)

/-- `RecalculateTaskQuota` on copy `i`, with the usage counters. -/
def recalculateCall (i : ι) (actualQuota : Int) (f : BillFault) : Accounts ι :=
  let quotaDelta := actualQuota - (s.bill i).task.quota
  s.ended i (recalculateTaskQuota cfg (s.bill i) actualQuota f)
    (if 0 ≤ actualQuota ∧ quotaDelta ≠ 0 ∧ fundingAdjusted cfg (s.bill i) quotaDelta f then
      quotaDelta
    else 0)

inductive QuotaOp (ι : Type*) where
  /-- copy `i` is read from the row again -/
  | reread (i : ι)
  | refund (i : ι) (f : BillFault)
  | recalculate (i : ι) (actualQuota : Int) (f : BillFault)
  /-- whatever else moves the balances -/
  | other (stores : Stores)

def quotaStep : QuotaOp ι → Accounts ι
  | .reread i => { s with copies := Function.update s.copies i s.row.quota }
  | .refund i f => refundCall cfg s i f
  | .recalculate i actualQuota f => recalculateCall cfg s i actualQuota f
  | .other stores => { s with stores := stores }

/-- A task whose `Quota` is what is held for it. -/
def Accounts.opened (row : Task) (copies : ι → Int) (stores : Stores)
    (userUsed channelUsed : Int) : Accounts ι where
  row := row
  copies := copies
  stores := stores
  held := row.quota
  userUsed := userUsed
  channelUsed := channelUsed

/-- Marker and money agree, and the counters have moved with the money. -/
structure Agrees (s₀ s : Accounts ι) : Prop where
  marker : s.row.quota = s.held
  user : s.userUsed - s₀.userUsed = s.held - s₀.held
  channel : s.channelUsed - s₀.channelUsed = s.held - s₀.held

def Covered (delta : Int) : Prop :=
  taskIsSubscription s.row = true → 0 ≤ taskSpent s.stores s.row + delta

/-- The call to `target` moves no money; or its copy is fresh, its delta is
    covered and its `UpdateQuota` succeeds. -/
def CleanCall (i : ι) (target : Int) (f : BillFault) : Prop :=
  target = s.copies i ∨
  fundingAdjusted cfg (s.bill i) (target - s.copies i) f = false ∨
  (s.copies i = s.row.quota ∧ Covered s (target - s.copies i) ∧ f.updateQuota = false)

def Clean : QuotaOp ι → Prop
  | .reread _ => True
  | .refund i f => CleanCall cfg s i 0 f
  | .recalculate i actualQuota f => actualQuota < 0 ∨ CleanCall cfg s i actualQuota f
  | .other _ => True

/-! ## One call -/

/-- Either call brings its copy to a target: the money by the difference, then
    the marker. -/
def brought (i : ι) (target : Int) (f : BillFault) : Accounts ι :=
  let delta := target - s.copies i
  if delta = 0 ∨ fundingAdjusted cfg (s.bill i) delta f = false then s
  else
    let w := (taskAdjustFunding cfg s.stores (s.bill i).task delta f.funding).2
    let t := { (s.bill i).task with quota := target }
    s.ended i ⟨t, updateQuota s.row t f.updateQuota,
      taskAdjustTokenQuota cfg w (s.bill i).task delta f⟩ delta

theorem ended_self (i : ι) : s.ended i (s.bill i) 0 = s := by
  unfold Accounts.ended Accounts.bill
  simp

variable {cfg : Config} {f : BillFault}

theorem fundingAdjusted_eq_true {b : Bill} {delta : Int} :
    fundingAdjusted cfg b delta f = true ↔
      (taskAdjustFunding cfg b.stores b.task delta f.funding).1 = .ok () := by
  unfold fundingAdjusted
  cases (taskAdjustFunding cfg b.stores b.task delta f.funding).1 with
  | ok u => simp
  | error e => simp

theorem taskAdjustFunding_refused {b : Bill} {delta : Int}
    (hd : delta ≠ 0) (h : fundingAdjusted cfg b delta f = false) :
    ∃ e, taskAdjustFunding cfg b.stores b.task delta f.funding = (.error e, b.stores) := by
  obtain ⟨e, he⟩ | ⟨w, hok, -⟩ := taskAdjustFunding_cases cfg b.stores b.task hd f.funding
  · exact ⟨e, he⟩
  have htrue : fundingAdjusted cfg b delta f = true := by
    rw [fundingAdjusted_eq_true, hok]
  rw [h] at htrue
  cases htrue

/-- The state a call that moves money ends in. -/
def broughtBill (cfg : Config) (s : Accounts ι) (i : ι) (target : Int) (f : BillFault) : Bill :=
  let delta := target - s.copies i
  let t := { (s.bill i).task with quota := target }
  ⟨t, updateQuota s.row t f.updateQuota,
    taskAdjustTokenQuota cfg (taskAdjustFunding cfg s.stores (s.bill i).task delta f.funding).2
      (s.bill i).task delta f⟩

variable {s : Accounts ι} {i : ι}

theorem brought_go {target : Int} (hd : target - s.copies i ≠ 0)
    (hf : fundingAdjusted cfg (s.bill i) (target - s.copies i) f = true) :
    brought cfg s i target f = s.ended i (broughtBill cfg s i target f) (target - s.copies i) := by
  unfold brought
  rw [if_neg (by simp [hd, hf])]
  rfl

theorem brought_still {target : Int} (h : target - s.copies i = 0 ∨
      fundingAdjusted cfg (s.bill i) (target - s.copies i) f = false) :
    brought cfg s i target f = s := if_pos h

theorem refundCall_eq (cfg : Config) (s : Accounts ι) (i : ι) (f : BillFault) :
    refundCall cfg s i f = brought cfg s i 0 f := by
  have hquota : (s.bill i).task.quota = s.copies i := rfl
  have hdelta : 0 - s.copies i = -s.copies i := by omega
  unfold refundCall
  simp only [hquota]
  by_cases h0 : s.copies i = 0
  · have hnone : refundTaskQuota cfg (s.bill i) f = (true, s.bill i) := by
      unfold refundTaskQuota
      rw [hquota, if_pos h0]
    rw [brought_still (Or.inl (by omega)), hnone, if_neg fun h => h.1 h0, ended_self]
  have hd : -s.copies i ≠ 0 := by omega
  cases hf : fundingAdjusted cfg (s.bill i) (-s.copies i) f with
  | false =>
    obtain ⟨e, he⟩ := taskAdjustFunding_refused hd hf
    have hnone : refundTaskQuota cfg (s.bill i) f = (false, s.bill i) := by
      simp only [refundTaskQuota, hquota, if_neg h0, he]
    rw [brought_still (Or.inr (by rw [hdelta]; exact hf)), hnone, if_neg (by simp),
      ended_self]
  | true =>
    have hpair : taskAdjustFunding cfg (s.bill i).stores (s.bill i).task (-s.copies i)
        f.funding = (.ok (), (taskAdjustFunding cfg (s.bill i).stores (s.bill i).task
          (-s.copies i) f.funding).2) := Prod.ext (fundingAdjusted_eq_true.1 hf) rfl
    have hgone : refundTaskQuota cfg (s.bill i) f = (true, broughtBill cfg s i 0 f) := by
      simp only [refundTaskQuota, hquota, if_neg h0, broughtBill, hdelta]
      rw [hpair]
      rfl
    rw [brought_go (by omega) (by rw [hdelta]; exact hf), hgone, if_pos ⟨h0, rfl⟩, hdelta]

theorem recalculateCall_eq (cfg : Config) (s : Accounts ι) (i : ι) (actualQuota : Int)
    (f : BillFault) (ha : 0 ≤ actualQuota) :
    recalculateCall cfg s i actualQuota f = brought cfg s i actualQuota f := by
  have hquota : (s.bill i).task.quota = s.copies i := rfl
  have hneg : ¬actualQuota < 0 := by omega
  unfold recalculateCall
  simp only [hquota]
  by_cases h0 : actualQuota - s.copies i = 0
  · have hnone : recalculateTaskQuota cfg (s.bill i) actualQuota f = s.bill i := by
      simp only [recalculateTaskQuota, hquota, h0, decide_true, Bool.or_true, if_true]
    rw [brought_still (Or.inl h0), hnone, if_neg fun h => h.2.1 h0, ended_self]
  have hgo : ¬((decide (actualQuota < 0) || decide (actualQuota - s.copies i = 0)) = true) := by
    simp [hneg, h0]
  cases hf : fundingAdjusted cfg (s.bill i) (actualQuota - s.copies i) f with
  | false =>
    obtain ⟨e, he⟩ := taskAdjustFunding_refused h0 hf
    have hnone : recalculateTaskQuota cfg (s.bill i) actualQuota f = s.bill i := by
      simp only [recalculateTaskQuota, hquota, if_neg hgo, he]
    rw [brought_still (Or.inr hf), hnone, if_neg (by simp), ended_self]
  | true =>
    have hpair : taskAdjustFunding cfg (s.bill i).stores (s.bill i).task
        (actualQuota - s.copies i) f.funding =
          (.ok (), (taskAdjustFunding cfg (s.bill i).stores (s.bill i).task
            (actualQuota - s.copies i) f.funding).2) :=
      Prod.ext (fundingAdjusted_eq_true.1 hf) rfl
    have hgone : recalculateTaskQuota cfg (s.bill i) actualQuota f =
        broughtBill cfg s i actualQuota f := by
      simp only [recalculateTaskQuota, hquota, if_neg hgo, broughtBill]
      rw [hpair]
      rfl
    rw [brought_go h0 hf, hgone, if_pos ⟨ha, h0, rfl⟩]

theorem recalculateCall_negative (cfg : Config) (s : Accounts ι) (i : ι) {actualQuota : Int}
    (f : BillFault) (ha : actualQuota < 0) : recalculateCall cfg s i actualQuota f = s := by
  have hnone : recalculateTaskQuota cfg (s.bill i) actualQuota f = s.bill i := by
    simp only [recalculateTaskQuota, ha, decide_true, Bool.true_or, if_true]
  have hused : ¬(0 ≤ actualQuota ∧ actualQuota - (s.bill i).task.quota ≠ 0 ∧
      fundingAdjusted cfg (s.bill i) (actualQuota - (s.bill i).task.quota) f = true) :=
    fun h => absurd h.1 (by omega)
  unfold recalculateCall
  simp only
  rw [hnone, if_neg hused, ended_self]

theorem brought_moved {target : Int} (hd : target - s.copies i ≠ 0)
    (hf : fundingAdjusted cfg (s.bill i) (target - s.copies i) f = true) :
    (brought cfg s i target f).row.quota = (if f.updateQuota = true then s.row.quota else target) ∧
      (brought cfg s i target f).held = s.held +
        (if taskIsSubscription s.row then
            max (taskSpent s.stores s.row + (target - s.copies i)) 0 - taskSpent s.stores s.row
          else target - s.copies i) ∧
      (brought cfg s i target f).userUsed = s.userUsed + (target - s.copies i) ∧
      (brought cfg s i target f).channelUsed = s.channelUsed + (target - s.copies i) := by
  have hspent : ∀ w : Stores, taskSpent w (s.bill i).task = taskSpent w s.row := fun _ => rfl
  have hsub : taskIsSubscription (s.bill i).task = taskIsSubscription s.row := rfl
  rw [brought_go hd hf]
  obtain ⟨e, he⟩ | ⟨w, hok, hw⟩ :=
    taskAdjustFunding_cases cfg s.stores (s.bill i).task hd f.funding
  · have hok := fundingAdjusted_eq_true.1 hf
    have hstores : (s.bill i).stores = s.stores := rfl
    rw [hstores, he] at hok
    cases hok
  refine ⟨?_, ?_, rfl, rfl⟩
  · show (updateQuota s.row _ f.updateQuota).quota = _
    cases f.updateQuota <;> rfl
  show s.held + (taskSpent (taskAdjustTokenQuota cfg (taskAdjustFunding cfg s.stores
    (s.bill i).task _ f.funding).2 (s.bill i).task _ f) s.row - taskSpent s.stores s.row) = _
  rw [taskSpent_adjustToken, hok, ← hspent w, hw, hsub, hspent]
  split <;> omega

theorem brought_agrees {s₀ : Accounts ι} (h : Agrees s₀ s) (i : ι) (target : Int) (f : BillFault) :
    Agrees s₀ (brought cfg s i target f) ↔ CleanCall cfg s i target f := by
  obtain ⟨hmarker, huser, hchannel⟩ := h
  unfold CleanCall
  by_cases hd : target - s.copies i = 0
  · rw [brought_still (Or.inl hd)]
    exact iff_of_true ⟨hmarker, huser, hchannel⟩ (Or.inl (by omega))
  cases hf : fundingAdjusted cfg (s.bill i) (target - s.copies i) f with
  | false =>
    rw [brought_still (Or.inr hf)]
    exact iff_of_true ⟨hmarker, huser, hchannel⟩ (Or.inr (Or.inl rfl))
  | true =>
    obtain ⟨hrow, hheld, hu, hc⟩ := brought_moved hd hf
    constructor
    · rintro ⟨hmarker', huser', -⟩
      -- the counters moved by the delta, so the money did, and so must the marker
      rw [hu] at huser'
      rw [hrow] at hmarker'
      have hmoved : (brought cfg s i target f).held = s.held + (target - s.copies i) := by
        omega
      have hcovered : Covered s (target - s.copies i) := by
        intro hsub
        rw [hheld, if_pos hsub] at hmoved
        omega
      refine Or.inr (Or.inr ⟨?_, hcovered, ?_⟩)
      · cases hq : f.updateQuota with
        | true =>
          rw [if_pos hq] at hmarker'
          omega
        | false =>
          rw [if_neg (by simp [hq])] at hmarker'
          omega
      cases hq : f.updateQuota with
      | true =>
        rw [if_pos hq] at hmarker'
        omega
      | false => rfl
    rintro (heq | hrefused | ⟨hfresh, hcovered, hq⟩)
    · omega
    · cases hrefused
    have hmoved : (brought cfg s i target f).held = s.held + (target - s.copies i) := by
      rw [hheld]
      by_cases hsub : taskIsSubscription s.row = true
      · have hnn := hcovered hsub
        rw [if_pos hsub]
        omega
      · rw [if_neg hsub]
    rw [if_neg (by simp [hq])] at hrow
    exact ⟨by omega, by omega, by omega⟩

theorem quotaStep_agrees (cfg : Config) {s₀ : Accounts ι} (s : Accounts ι) (op : QuotaOp ι)
    (h : Agrees s₀ s) : Agrees s₀ (quotaStep cfg s op) ↔ Clean cfg s op := by
  cases op with
  | reread i | other stores => exact iff_of_true ⟨h.marker, h.user, h.channel⟩ trivial
  | refund i f =>
    show Agrees s₀ (refundCall cfg s i f) ↔ CleanCall cfg s i 0 f
    rw [refundCall_eq]
    exact brought_agrees h i 0 f
  | recalculate i actualQuota f =>
    show Agrees s₀ (recalculateCall cfg s i actualQuota f) ↔
      actualQuota < 0 ∨ CleanCall cfg s i actualQuota f
    by_cases ha : actualQuota < 0
    · rw [recalculateCall_negative cfg s i f ha]
      exact iff_of_true h (Or.inl ha)
    · rw [recalculateCall_eq cfg s i actualQuota f (by omega), or_iff_right ha]
      exact brought_agrees h i actualQuota f

theorem refund_returns_at_most_held {s₀ : Accounts ι} (h : Agrees s₀ s)
     (hclean : CleanCall cfg s i 0 f) : s.held - (refundCall cfg s i f).held ≤ max s.held 0 := by
  rw [refundCall_eq]
  have hafter := (brought_agrees h i 0 f).2 hclean
  by_cases hstill : 0 - s.copies i = 0 ∨
      fundingAdjusted cfg (s.bill i) (0 - s.copies i) f = false
  · rw [brought_still hstill]
    omega
  rw [not_or] at hstill
  obtain ⟨hrow, -, hu, -⟩ := brought_moved hstill.1 (by simpa using hstill.2)
  have hmarker := hafter.marker
  rw [hrow] at hmarker
  have hq := h.marker
  split at hmarker <;> omega

/-! ## Every sequence of calls -/

/-- Over every sequence of calls on a task whose marker starts as what is held:
    marker, money and counters agree after every call exactly when every call is
    clean, and then no refund gives back more than is held. -/
theorem task_quota_is_held (cfg : Config) (row : Task) (copies : ι → Int) (stores : Stores)
    (userUsed channelUsed : Int) (ops : List (QuotaOp ι)) :
    ((∀ n, Agrees (Accounts.opened row copies stores userUsed channelUsed)
        (run (quotaStep cfg) (Accounts.opened row copies stores userUsed channelUsed)
          (ops.take n))) ↔
      Meets (Clean cfg) (quotaStep cfg) (Accounts.opened row copies stores userUsed channelUsed)
        ops) ∧
    (Meets (Clean cfg) (quotaStep cfg) (Accounts.opened row copies stores userUsed channelUsed)
        ops →
      ∀ n i f, ops[n]? = some (.refund i f) →
        (run (quotaStep cfg) (Accounts.opened row copies stores userUsed channelUsed)
            (ops.take n)).held -
          (run (quotaStep cfg) (Accounts.opened row copies stores userUsed channelUsed)
            (ops.take (n + 1))).held ≤
        max (run (quotaStep cfg) (Accounts.opened row copies stores userUsed channelUsed)
          (ops.take n)).held 0) := by
  have hstart : Agrees (Accounts.opened row copies stores userUsed channelUsed)
      (Accounts.opened row copies stores userUsed channelUsed) :=
    ⟨rfl, by omega, by omega⟩
  have hiff := forall_take_iff_meets
    (Agrees (Accounts.opened row copies stores userUsed channelUsed))
    (quotaStep_agrees cfg) hstart ops
  refine ⟨hiff, fun hmeets n i f hop => ?_⟩
  have hagrees := hiff.2 hmeets n
  obtain ⟨hlt, hget⟩ := List.getElem?_eq_some_iff.1 hop
  have htake : ops.take (n + 1) = ops.take n ++ [.refund i f] := by
    rw [List.take_add_one, hop]
    rfl
  have hclean := hmeets.take (n + 1)
  rw [htake, meets_append] at hclean
  rw [htake, run_append]
  exact refund_returns_at_most_held hagrees hclean.2.1

def heldTask : Accounts Nat :=
  Accounts.opened { status := .failure, quota := 100 } (fun _ => 100)
    { wallet := 0, token := 0, subs := { subs := fun _ => none, records := fun _ => none } } 100 100

/-- A refund that loses its `UpdateQuota`, and a second one on the row. -/
def refundTwice : List (QuotaOp Nat) :=
  [.refund 0 { updateQuota := true }, .reread 0, .refund 0 {}]

/-- The second refund finds the marker and gives the 100 back again. -/
theorem lostMarker_refunded_twice : ¬(∀ n, Agrees heldTask
        (run (quotaStep { batchUpdateEnabled := false, trustQuota := 0 }) heldTask
          (refundTwice.take n))) ∧
      (run (quotaStep { batchUpdateEnabled := false, trustQuota := 0 }) heldTask
        refundTwice).held = -100 := by
  refine ⟨fun h => ?_, by decide +kernel⟩
  have hmarker := (h 1).marker
  exact absurd hmarker (by decide +kernel)

end NewApi.AsyncTask
