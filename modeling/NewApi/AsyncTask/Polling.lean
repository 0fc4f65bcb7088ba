/-
  NewApi.AsyncTask.Polling

  The four polling paths on one stored task, interleaved: any number of
  executions, each of which loads a copy, decides on a plan
  (`NewApi.AsyncTask.Plan`), issues its write and, if it closed the task, bills.
  Loading, the write and the billing are separate steps, so a plan may rest on
  a copy read arbitrarily long before.

  The pollers and the sweep load only rows that are not SUCCESS, FAILURE or
  UNCONFIRMED, and every write is guarded by the status the copy was loaded
  with.  So a row that has become terminal is never written again, and there is
  exactly one write that made it terminal: `closer` is the execution whose
  write that was, if it is one that bills.

  `closing` records what became of the charge when the row was closed.
-/

import NewApi.Lib.Workers
import NewApi.AsyncTask.Plan

namespace NewApi.AsyncTask.Polling

open NewApi.Lib Billing

/-! ## Billing, with its outcome -/

/-- What is off the task's funding source: off the wallet, or used of the
    subscription. -/
def taskSpent (w : Stores) (t : Task) : Int :=
  if taskIsSubscription t then used w.subs t.billing.subscriptionId else -w.wallet

/-- What one billing step did with the held quota. -/
inductive Outcome where
  /-- `settleTaskBillingOnComplete` settled it -/
  | settled
  /-- a success that is not settled keeps the pre-consumed quota as its charge -/
  | kept
  | nothingHeld
  | refunded
  /-- the funding source refused, the row keeps its quota -/
  | refused

variable (cfg : Config)

def refundHeld (b : Bill) (g : BillFault) : Outcome × Bill :=
  if b.task.quota = 0 then (.nothingHeld, b)
  else
    let (ok, b') := refundTaskQuota cfg b g
    (if ok then .refunded else .refused, b')

/-- The billing that follows a won closing write. -/
def billClosed (b : Bill) (k : BillKind) (p : Pricing) (f g : BillFault) : Outcome × Bill :=
  match k with
  | .finalize =>
    let (billingSettled, b) := settleTaskBillingOnComplete cfg b p f
    if billingSettled then (.settled, b)
    else if b.task.status = .failure then refundHeld cfg b g
    else (.kept, b)
  | .refund => refundHeld cfg b g
  | .nothing => (.nothingHeld, b)

/-! ## The system -/

/-- How the charge of a closed task stands. -/
inductive Closing where
  /-- the closing execution has yet to bill -/
  | pending
  | billed (o : Outcome)
  /-- closed by `TaskBulkUpdateByID` -/
  | bulk
  /-- a legacy task, swept with its quota cleared -/
  | legacy
  /-- the closing write took effect but its execution was told otherwise -/
  | lost

inductive Phase where
  | idle
  | snap (t : Task)
  /-- about to issue the write of a plan made from the copy `t` -/
  | write (t : Task) (p : Plan)
  | bill (t : Task) (k : BillKind)
  | done

inductive Act where
  /-- `GetAllUnFinishSyncTasks`, or `GetTimedOutUnfinishedTasks` with its cutoff -/
  | load (cutoff : Option Int)
  | poll (env : PollEnv) (r : Response)
  | batch (env : PollEnv) (r : BatchReply)
  | sweep (timeoutMinutes now : Int)
  | noChannel (channelId : Int)
  | noUpstreamId
  | write (r : CasReply)
  | bill (p : Pricing) (f g : BillFault)

structure Shared (ι : Type*) where
  row : Task
  stores : Stores
  /-- billing actions applied for the task so far -/
  billed : Nat := 0
  closer : Option ι := none
  closing : Option Closing := none

/-- The filter of the loading queries and of `TaskBulkUpdateByID`. -/
def unfinished (s : TaskStatus) : Bool := !s.terminal && s ≠ .unconfirmed

def selected (row : Task) (cutoff : Option Int) : Bool :=
  row.progress ≠ "100%" && unfinished row.status &&
    cutoff.all (fun c => decide (row.submitTime < c))

/-- `TaskBulkUpdateByID` on this row. -/
def bulkUpdate (row : Task) (failReason : Option String) : Task :=
  { row with status := .failure, progress := "100%"
             failReason := failReason.getD row.failReason }

variable {ι : Type*}

/-- The write of a plan made from the copy `t` by execution `i`. -/
def writePlan (i : ι) (s : Shared ι) (t : Task) (r : CasReply) : Plan → Shared ι × Phase
  | .skip => (s, .done)
  | .save t' => ({ s with row := (updateWithStatus s.row t' t.status r).2 }, .done)
  | .close t' k =>
    let (won, row) := updateWithStatus s.row t' t.status r
    if won = some true then
      if k = .nothing then ({ s with row := row, closing := some .legacy }, .done)
      else ({ s with row := row, closer := some i, closing := some .pending }, .bill t' k)
    else
      ({ s with row := row
                closing := if row.status.terminal && !s.row.status.terminal then some .lost
                  else s.closing }, .done)
  | .rebill t' write =>
    ({ s with row := if write then (updateWithStatus s.row t' t.status r).2 else s.row },
      .bill t' .finalize)
  | .bulkFail failReason =>
    if unfinished s.row.status && r ≠ .error then
      ({ s with row := bulkUpdate s.row failReason, closing := some .bulk }, .done)
    else (s, .done)

/-- One step of execution `i`. -/
def step (i : ι) (s : Shared ι) (φ : Phase) (a : Act) : Shared ι × Phase :=
  match φ, a with
  | .idle, .load cutoff => (s, if selected s.row cutoff then .snap s.row else .idle)
  | .snap t, .poll env r => (s, .write t (updateVideoSingleTask env t r))
  | .snap t, .batch env r => (s, .write t (updateBatchTask env t r))
  | .snap t, .sweep timeoutMinutes now => (s, .write t (sweepTimedOutTask timeoutMinutes now t))
  | .snap t, .noChannel id => (s, .write t (missingVideoChannel id))
  | .snap t, .noUpstreamId => (s, .write t nullTaskId)
  | .write t p, .write r => writePlan i s t r p
  | .bill t k, .bill p f g =>
    let (o, b) := billClosed cfg ⟨t, s.row, s.stores⟩ k p f g
    -- the sweep does not call `RefundTaskQuota` on a task that holds nothing
    ({ s with row := b.row, stores := b.stores, closing := some (.billed o)
              billed := if k = .refund ∧ t.quota = 0 then s.billed else s.billed + 1 }, .done)
  | _, _ => (s, φ)

/-! ## The invariant -/

/-- What the outcome of a billing step says of the task `t` as it was held, the
    stores `w₀` before and `w` after, and the stored row. -/
def Outcome.Sound (t : Task) (w₀ w : Stores) (row : Task) : Outcome → Prop
  | .settled => True
  | .kept => row.status ≠ .failure
  | .nothingHeld => t.quota = 0
  | .refunded =>
    taskSpent w t = if taskIsSubscription t then max (taskSpent w₀ t - t.quota) 0
      else taskSpent w₀ t - t.quota
  | .refused => w = w₀ ∧ row.quota = t.quota

theorem Outcome.Sound.of_eq {t t' : Task} {w₀ w : Stores} {row : Task} {o : Outcome}
    (h : o.Sound t w₀ w row) (hq : t.quota = t'.quota) (hb : t.billing = t'.billing) :
    o.Sound t' w₀ w row := by
  have hsub : taskIsSubscription t = taskIsSubscription t' := by
    simp only [taskIsSubscription, hb]
  have hspent : ∀ x : Stores, taskSpent x t = taskSpent x t' := by
    intro x
    simp only [taskSpent, hsub, hb]
  cases o with
  | settled => trivial
  | kept => exact h
  | nothingHeld => exact hq.symm.trans h
  | refunded => simpa only [Outcome.Sound, hsub, hspent, hq] using h
  | refused => exact ⟨h.1, h.2.trans hq⟩

/-- The shared part.  `row₀` and `w₀` are what the system started with. -/
structure Once (row₀ : Task) (w₀ : Stores) (s : Shared ι) : Prop where
  billed_le : s.billed ≤ 1
  ofOpen : s.row.status.terminal = false → s.billed = 0 ∧ s.closer = none ∧
    s.closing = none ∧ s.row.quota = row₀.quota ∧ s.row.billing = row₀.billing
  ofUnbilled : s.billed = 0 → s.stores = w₀
  ofUnclosed : s.closing = none → s.row.status.terminal = row₀.status.terminal
  ofPending : s.closing = some .pending → s.closer.isSome
  ofLegacy : s.closing = some .legacy → s.row.isLegacy = true
  ofBilled : ∀ o, s.closing = some (.billed o) → o.Sound row₀ w₀ s.stores s.row

def Copy (row₀ t : Task) : Prop :=
  t.status.terminal = false ∧ t.quota = row₀.quota ∧ t.billing = row₀.billing

/-- The assertion about execution `i`. -/
def Assertion (row₀ : Task) (s : Shared ι) (i : ι) : Phase → Prop
  | .snap t => Copy row₀ t ∧ (s.closing = some .pending → s.closer ≠ some i)
  | .write t p => Copy row₀ t ∧ p.Sound t ∧ (s.closing = some .pending → s.closer ≠ some i)
  | .bill t k => s.closer = some i ∧ s.closing = some .pending ∧ s.billed = 0 ∧
      s.row.status = t.status ∧ t.status.terminal = true ∧ s.row.quota = t.quota ∧
      t.quota = row₀.quota ∧ t.billing = row₀.billing ∧ k ≠ .nothing ∧
      (k = .refund → t.status = .failure)
  | .idle | .done => s.closing = some .pending → s.closer ≠ some i

/-- What a step of `i` guarantees to the others: a closing that is pending is
    its own or was there before, and a closed row, with all that is recorded of
    it, is touched by its closer only. -/
structure Guarantee (i : ι) (s s' : Shared ι) : Prop where
  pending : s'.closing = some .pending →
    s'.closer = some i ∨ (s.closing = some .pending ∧ s'.closer = s.closer)
  closed : s.row.status.terminal = true → s.closer ≠ some i →
    s'.row.status = s.row.status ∧ s'.row.quota = s.row.quota ∧ s'.billed = s.billed ∧
    s'.closer = s.closer ∧ s'.closing = s.closing

theorem Guarantee.refl (i : ι) (s : Shared ι) : Guarantee i s s where
  pending h := .inr ⟨h, rfl⟩
  closed _ _ := ⟨rfl, rfl, rfl, rfl, rfl⟩

theorem Guarantee.stable {row₀ : Task} {s s' : Shared ι} {i j : ι} {ψ : Phase}
    (hg : Guarantee i s s') (hij : j ≠ i) (h : Assertion row₀ s j ψ) : Assertion row₀ s' j ψ := by
  have hidle : (s.closing = some .pending → s.closer ≠ some j) →
      (s'.closing = some .pending → s'.closer ≠ some j) := by
    intro hs hp he
    obtain hi | ⟨hp', hsame⟩ := hg.pending hp
    · rw [hi] at he
      exact hij (Option.some.inj he).symm
    · exact hs hp' (hsame ▸ he)
  cases ψ with
  | idle | done => exact hidle h
  | snap t => exact ⟨h.1, hidle h.2⟩
  | write t p => exact ⟨h.1, h.2.1, hidle h.2.2⟩
  | bill t k =>
    obtain ⟨hc, hp, hb, hst, hterm, hq, hrest⟩ := h
    have hne : s.closer ≠ some i := by
      intro he
      rw [hc] at he
      exact hij (Option.some.inj he)
    obtain ⟨h1, h2, h3, h4, h5⟩ := hg.closed (by rw [hst]; exact hterm) hne
    exact ⟨h4.trans hc, h5.trans hp, h3.trans hb, h1.trans hst, hterm, h2.trans hq, hrest⟩

/-! ## Billing -/

theorem settle_false {cfg : Config} {b : Bill} {p : Pricing} {f : BillFault}
    (h : (settleTaskBillingOnComplete cfg b p f).1 = false) :
    (settleTaskBillingOnComplete cfg b p f).2 = b := by
  unfold settleTaskBillingOnComplete at h ⊢
  repeat' split
  all_goals first | rfl | simp_all

theorem taskAdjustFunding_cases (w : Stores) (t : Task) {delta : Int}
    (hd : delta ≠ 0) (fail : Bool) : (∃ e, taskAdjustFunding cfg w t delta fail = (.error e, w)) ∨
    (∃ w', taskAdjustFunding cfg w t delta fail = (.ok (), w') ∧
      taskSpent w' t = if taskIsSubscription t then max (taskSpent w t + delta) 0
        else taskSpent w t + delta) := by
  unfold taskAdjustFunding taskSpent
  cases hs : taskIsSubscription t with
  | true =>
    simp only [if_true]
    obtain ⟨e, he⟩ | ⟨h0, -⟩ | ⟨row, hrow, -, -, -, -, hok⟩ :=
      Subscription.postConsumeUserSubscriptionDelta_cases w.subs t.billing.subscriptionId
        delta fail
    · exact .inl ⟨e, by simp only [he]⟩
    · exact absurd h0 hd
    refine .inr ⟨_, by simp only [hok]; rfl, ?_⟩
    rw [used_setSub]
    simp only [used, hrow, Subscription.newUsed]
    omega
  | false =>
    simp only [Bool.false_eq_true, if_false]
    by_cases hpos : 0 < delta
    · simp only [if_pos hpos]
      obtain ⟨e, he⟩ | ⟨-, hok⟩ := applyQuota_cases cfg (-1) w.wallet delta fail
      · exact .inl ⟨e, by simp only [decreaseUserQuota, he]⟩
      refine .inr ⟨_, by simp only [decreaseUserQuota, hok]; rfl, ?_⟩
      simp only
      omega
    simp only [if_neg hpos]
    obtain ⟨e, he⟩ | hok := increaseUserQuota_cases cfg w.wallet (-delta) fail
    · exact .inl ⟨e, by simp only [he]⟩
    refine .inr ⟨_, by simp only [hok]; rfl, ?_⟩
    simp only
    omega

theorem taskSpent_adjustToken (w : Stores) (t u : Task) (delta : Int)
    (f : BillFault) : taskSpent (taskAdjustTokenQuota cfg w t delta f) u = taskSpent w u := by
  unfold taskAdjustTokenQuota
  repeat' split
  all_goals rfl

theorem refundHeld_sound (b : Bill) (g : BillFault) (hq : b.row.quota = b.task.quota) :
    (refundHeld cfg b g).1.Sound b.task b.stores (refundHeld cfg b g).2.stores
      (refundHeld cfg b g).2.row := by
  unfold refundHeld
  by_cases h0 : b.task.quota = 0
  · rw [if_pos h0]
    exact h0
  rw [if_neg h0]
  have hd : -b.task.quota ≠ 0 := by omega
  obtain ⟨e, he⟩ | ⟨w', hok, hspent⟩ :=
    taskAdjustFunding_cases cfg b.stores b.task hd g.funding
  · simp only [refundTaskQuota, if_neg h0, he, Bool.false_eq_true, if_false]
    exact ⟨rfl, hq⟩
  · simp only [refundTaskQuota, if_neg h0, hok, if_true]
    simp only [Outcome.Sound, taskSpent_adjustToken, hspent, sub_eq_add_neg]

theorem billClosed_sound (b : Bill) (k : BillKind) (p : Pricing)
    (f g : BillFault) (hq : b.row.quota = b.task.quota) (hst : b.row.status = b.task.status)
    (hk : k ≠ .nothing) : (billClosed cfg b k p f g).2.row.status = b.row.status ∧
    (billClosed cfg b k p f g).1.Sound b.task b.stores (billClosed cfg b k p f g).2.stores
      (billClosed cfg b k p f g).2.row := by
  have hrefund : ∀ c : Bill, (refundHeld cfg c g).2.row.status = c.row.status := by
    intro c
    unfold refundHeld
    split
    · rfl
    · exact (refundTaskQuota_status cfg c g).1
  cases k with
  | finalize =>
    simp only [billClosed]
    cases hset : (settleTaskBillingOnComplete cfg b p f).1 with
    | true =>
      exact ⟨(settleTaskBillingOnComplete_status cfg b p f).1, trivial⟩
    | false =>
      simp only [Bool.false_eq_true, if_false, settle_false hset]
      by_cases hf : b.task.status = .failure
      · rw [if_pos hf]
        exact ⟨hrefund b, refundHeld_sound cfg b g hq⟩
      · rw [if_neg hf]
        exact ⟨rfl, by rw [← hst] at hf; exact hf⟩
  | refund => exact ⟨hrefund b, refundHeld_sound cfg b g hq⟩
  | nothing => exact absurd rfl hk

/-! ## One step -/

/-- The conclusion of one step of `i` from `s`. -/
structure StepOk (row₀ : Task) (w₀ : Stores) (i : ι) (s : Shared ι) (out : Shared ι × Phase) : Prop where
  once : Once row₀ w₀ out.1
  self : Assertion row₀ out.1 i out.2
  guarantee : Guarantee i s out.1
  status : s.row.status.terminal = true → out.1.row.status = s.row.status

section Step

variable {row₀ : Task} {w₀ : Stores} {i : ι} {s : Shared ι}

section
variable (hI : Once row₀ w₀ s)
include hI

theorem stepOk_still {φ : Phase} (h : Assertion row₀ s i φ) : StepOk row₀ w₀ i s (s, φ) :=
  ⟨hI, h, Guarantee.refl i s, fun _ => rfl⟩

theorem stepOk_open (ho : s.row.status.terminal = false) {row : Task}
    (hopen : row.status.terminal = false) (hq : row.quota = row₀.quota)
    (hb : row.billing = row₀.billing) : StepOk row₀ w₀ i s ({ s with row := row }, .done) := by
  obtain ⟨h0, hcr, hcg, -, -⟩ := hI.ofOpen ho
  refine ⟨⟨hI.billed_le, fun _ => ⟨h0, hcr, hcg, hq, hb⟩, hI.ofUnbilled, fun _ => ?_, hI.ofPending, ?_, ?_⟩,
    ?_, ⟨fun hp => ?_, fun hc => ?_⟩, fun hc => ?_⟩
  · rw [← hI.ofUnclosed hcg, ho]
    exact hopen
  · intro hl
    rw [hcg] at hl
    cases hl
  · intro o hl
    rw [hcg] at hl
    cases hl
  · intro hp
    rw [hcg] at hp
    cases hp
  · rw [hcg] at hp
    cases hp
  · rw [ho] at hc
    cases hc
  · rw [ho] at hc
    cases hc

theorem stepOk_close (ho : s.row.status.terminal = false) {row : Task}
    (hterm : row.status.terminal = true) {c : Closing} (hp : c ≠ .pending)
    (hbilled : ∀ o, c ≠ .billed o) (hl : c = .legacy → row.isLegacy = true) :
    StepOk row₀ w₀ i s ({ s with row := row, closing := some c }, .done) := by
  refine ⟨⟨hI.billed_le, fun h => ?_, hI.ofUnbilled, fun h => (by cases h), fun h => ?_, fun h => ?_,
    fun o h => ?_⟩, fun h => ?_, ⟨fun h => ?_, fun h => ?_⟩, fun h => ?_⟩
  · rw [hterm] at h
    cases h
  · exact absurd (Option.some.inj h) hp
  · exact hl (Option.some.inj h)
  · exact absurd (Option.some.inj h) (hbilled o)
  · exact absurd (Option.some.inj h) hp
  · exact absurd (Option.some.inj h) hp
  · rw [ho] at h
    cases h
  · rw [ho] at h
    cases h

theorem stepOk_won (ho : s.row.status.terminal = false) {t' : Task} {k : BillKind}
    (hterm : t'.status.terminal = true) (hq : t'.quota = row₀.quota)
    (hb : t'.billing = row₀.billing) (hk : k ≠ .nothing)
    (href : k = .refund → t'.status = .failure) :
    StepOk row₀ w₀ i s ({ s with row := t', closer := some i, closing := some .pending },
      .bill t' k) := by
  obtain ⟨h0, -⟩ := hI.ofOpen ho
  refine ⟨⟨hI.billed_le, fun h => ?_, hI.ofUnbilled, fun h => (by cases h), fun _ => rfl,
    fun h => (by cases h), fun o h => (by cases h)⟩, ⟨rfl, rfl, h0, rfl, hterm, rfl, hq, hb, hk, href⟩,
    ⟨fun _ => .inl rfl, fun h => ?_⟩, fun h => ?_⟩
  · rw [hterm] at h
    cases h
  · rw [ho] at h
    cases h
  · rw [ho] at h
    cases h

theorem writePlan_ok {t : Task} {p : Plan} (ht : Copy row₀ t) (hp : p.Sound t)
    (hw : s.closing = some .pending → s.closer ≠ some i) (r : CasReply) :
    StepOk row₀ w₀ i s (writePlan i s t r p) := by
  obtain ⟨hopen, hq, hb⟩ := ht
  have hdone : Assertion row₀ s i .done := hw
  cases p with
  | skip => exact stepOk_still hI hdone
  | save t' =>
    obtain ⟨h1, h2, h3⟩ := hp
    simp only [writePlan]
    obtain ⟨hrow, -⟩ | ⟨hguard, hrow⟩ := updateWithStatus_cases s.row t' t.status r
    · rw [hrow]
      exact stepOk_still hI hdone
    · rw [hrow]
      exact stepOk_open hI (by rw [hguard]; exact hopen) h1 (h2.trans hq) (h3.trans hb)
  | close t' k =>
    obtain ⟨h1, h2, h3⟩ := hp
    simp only [writePlan]
    obtain ⟨hrow, hlost⟩ | ⟨hguard, hrow⟩ := updateWithStatus_cases s.row t' t.status r
    · -- refused: the row is as it was
      rw [if_neg hlost, hrow]
      have hsame : (s.row.status.terminal && !s.row.status.terminal) = false := by simp
      simp only [hsame, Bool.false_eq_true, if_false]
      exact stepOk_still hI hdone
    have ho : s.row.status.terminal = false := by
      rw [hguard]
      exact hopen
    rw [hrow]
    split
    · cases k with
      | finalize =>
        exact stepOk_won hI ho h1 (h3.trans hq) (h2.trans hb) (by simp) (by simp)
      | refund =>
        exact stepOk_won hI ho h1 (h3.1.trans hq) (h2.trans hb) (by simp) (fun _ => h3.2)
      | nothing =>
        exact stepOk_close hI ho h1 (by simp) (by simp) (fun _ => h3.1)
    · simp only [h1, ho, Bool.not_false, Bool.and_true, if_true]
      exact stepOk_close hI ho h1 (by simp) (by simp) (by simp)
  | rebill t' write => exact hp.elim
  | bulkFail failReason =>
    simp only [writePlan]
    split
    · rename_i hun
      have ho : s.row.status.terminal = false := by
        simp only [unfinished, Bool.and_eq_true, Bool.not_eq_true'] at hun
        exact hun.1.1
      exact stepOk_close hI ho rfl (by simp) (by simp) (by simp)
    · exact stepOk_still hI hdone

theorem bill_ok {t : Task} {k : BillKind} (hP : Assertion row₀ s i (.bill t k)) (cfg : Config)
    (p : Pricing) (f g : BillFault) :
    StepOk row₀ w₀ i s (step cfg i s (.bill t k) (.bill p f g)) := by
  obtain ⟨hc, hp, h0, hst, hterm, hq, hq0, hb0, hk, -⟩ := hP
  obtain ⟨hkeep, hsound⟩ := billClosed_sound cfg ⟨t, s.row, s.stores⟩ k p f g hq hst hk
  have hclosed : (billClosed cfg ⟨t, s.row, s.stores⟩ k p f g).2.row.status.terminal = true := by
    rw [hkeep, hst]
    exact hterm
  simp only [step]
  refine ⟨⟨?_, fun h => ?_, fun h => ?_, fun h => (by cases h), fun h => (by cases h),
    fun h => (by cases h), fun o h => ?_⟩, fun h => (by cases h),
    ⟨fun h => (by cases h), fun _ h => absurd hc h⟩, fun _ => hkeep⟩
  · simp only [h0]
    split
    · exact Nat.zero_le 1
    · exact le_refl 1
  · rw [hclosed] at h
    cases h
  · -- nothing is counted only where nothing is moved
    split at h
    · rename_i hk0
      rw [hk0.1]
      simp only [billClosed, refundHeld, if_pos hk0.2]
      exact hI.ofUnbilled h0
    · cases h
  obtain rfl : _ = o := Closing.billed.inj (Option.some.inj h)
  rw [← hI.ofUnbilled h0]
  exact hsound.of_eq hq0 hb0

theorem load_copy {cutoff : Option Int} (h : selected s.row cutoff = true) : Copy row₀ s.row := by
  have hopen : s.row.status.terminal = false := by
    simp only [selected, unfinished, Bool.and_eq_true, Bool.not_eq_true'] at h
    exact h.1.2.1
  obtain ⟨-, -, -, hq, hb⟩ := hI.ofOpen hopen
  exact ⟨hopen, hq, hb⟩

/-- **One step** of any of the paths. -/
theorem step_ok {φ : Phase} (hP : Assertion row₀ s i φ) (cfg : Config) (a : Act) : StepOk row₀ w₀ i s (step cfg i s φ a) := by
  cases φ with
  | idle =>
    cases a with
    | load cutoff =>
      simp only [step]
      split
      · rename_i h
        exact stepOk_still hI ⟨load_copy hI h, hP⟩
      · exact stepOk_still hI hP
    | _ => exact stepOk_still hI hP
  | snap t =>
    obtain ⟨ht, hw⟩ := hP
    cases a with
    | poll env r =>
      exact stepOk_still hI ⟨ht, updateVideoSingleTask_sound env ht.1 r, hw⟩
    | batch env r => exact stepOk_still hI ⟨ht, updateBatchTask_sound env ht.1 r, hw⟩
    | sweep timeoutMinutes now =>
      exact stepOk_still hI ⟨ht, sweepTimedOutTask_sound timeoutMinutes now t, hw⟩
    | noChannel id | noUpstreamId => exact stepOk_still hI ⟨ht, trivial, hw⟩
    | _ => exact stepOk_still hI ⟨ht, hw⟩
  | write t p =>
    cases a with
    | write r => exact writePlan_ok hI hP.1 hP.2.1 hP.2.2 r
    | _ => exact stepOk_still hI hP
  | bill t k =>
    cases a with
    | bill p f g => exact bill_ok hI hP cfg p f g
    | _ => exact stepOk_still hI hP
  | done => cases a <;> exact stepOk_still hI hP

end

end Step

/-! ## Runs -/

abbrev System (ι : Type*) := Workers (Shared ι) ι Phase

def start (ι : Type*) (row : Task) (stores : Stores) : System ι :=
  { shared := { row := row, stores := stores }, proc := fun _ => .idle }

theorem holds_start (ι : Type*) (row : Task) (stores : Stores) :
    (start ι row stores).Holds (Once row stores) (Assertion row) := by
  refine ⟨⟨Nat.zero_le 1, fun _ => ⟨rfl, rfl, rfl, rfl, rfl⟩, fun _ => rfl, fun _ => rfl, fun h => ?_,
    fun h => ?_, fun o h => ?_⟩, fun i h => ?_⟩ <;> cases h

variable [DecidableEq ι]

theorem holds_run {row₀ : Task} {w₀ : Stores} {w : System ι}
    (h : w.Holds (Once row₀ w₀) (Assertion row₀)) (as : List (ι × Act)) :
    (run (Workers.step (step cfg)) w as).Holds (Once row₀ w₀) (Assertion row₀) := by
  refine run_invariant_all (Workers.Holds (Once row₀ w₀) (Assertion row₀)) ?_ as h
  rintro w ⟨i, a⟩ hw
  have hok := step_ok hw.1 (hw.2 i) cfg a
  exact hw.step i a ⟨hok.once, hok.self⟩ (fun j hij hj => hok.guarantee.stable hij hj)

theorem status_run {row₀ : Task} {w₀ : Stores} {w : System ι}
    (h : w.Holds (Once row₀ w₀) (Assertion row₀)) (hterm : w.shared.row.status.terminal = true)
    (as : List (ι × Act)) :
    (run (Workers.step (step cfg)) w as).shared.row.status = w.shared.row.status := by
  induction as generalizing w with
  | nil => rfl
  | cons a as ih =>
    obtain ⟨i, a⟩ := a
    have hnext : (w.step (step cfg) (i, a)).Holds (Once row₀ w₀) (Assertion row₀) :=
      holds_run cfg h [(i, a)]
    have hsame : (w.step (step cfg) (i, a)).shared.row.status = w.shared.row.status :=
      (step_ok h.1 (h.2 i) cfg a).status hterm
    rw [run_cons, ih hnext (by rw [hsame]; exact hterm)]
    exact hsame

omit [DecidableEq ι] in
theorem step_moves (i : ι) (s : Shared ι) (φ : Phase) (a : Act) :
    s.billed ≤ (step cfg i s φ a).1.billed ∧
    ((step cfg i s φ a).1.billed = s.billed → (step cfg i s φ a).1.stores = s.stores) := by
  have hwrite : ∀ t r p, (writePlan i s t r p).1.billed = s.billed ∧
      (writePlan i s t r p).1.stores = s.stores := by
    intro t r p
    cases p with
    | skip | save t' | rebill t' write => exact ⟨rfl, rfl⟩
    | close t' k =>
      simp only [writePlan]
      split
      · split <;> exact ⟨rfl, rfl⟩
      · exact ⟨rfl, rfl⟩
    | bulkFail failReason =>
      simp only [writePlan]
      split <;> exact ⟨rfl, rfl⟩
  unfold step
  split
  case h_7 t p r => exact ⟨(hwrite t r p).1.ge, fun _ => (hwrite t r p).2⟩
  case h_8 t k p f g =>
      simp only
      split
      · rename_i hk
        rw [hk.1]
        exact ⟨le_refl _, fun _ => by simp only [billClosed, refundHeld, if_pos hk.2]⟩
      · exact ⟨Nat.le_succ _, fun h => absurd h (Nat.succ_ne_self _)⟩
  all_goals exact ⟨le_refl _, fun _ => rfl⟩

theorem stores_run (w : System ι) (as : List (ι × Act)) :
    w.shared.billed ≤ (run (Workers.step (step cfg)) w as).shared.billed ∧
    ((run (Workers.step (step cfg)) w as).shared.billed = w.shared.billed →
      (run (Workers.step (step cfg)) w as).shared.stores = w.shared.stores) := by
  induction as generalizing w with
  | nil => exact ⟨le_refl _, fun _ => rfl⟩
  | cons a as ih =>
    obtain ⟨i, a⟩ := a
    have h1 := step_moves cfg i w.shared (w.proc i) a
    have h2 := ih (w.step (step cfg) (i, a))
    rw [Workers.step_shared] at h2
    rw [run_cons]
    refine ⟨h1.1.trans h2.1, fun h => ?_⟩
    have hmid : (step cfg i w.shared (w.proc i) a).1.billed = w.shared.billed := by omega
    rw [h2.2 (h.trans hmid.symm)]
    exact h1.2 hmid

def chargedTask : Task := { status := .inProgress, quota := 100, submitTime := 1800000000 }

def noStores : Stores :=
  { wallet := 0, token := 0, subs := { subs := fun _ => none, records := fun _ => none } }

def plainConfig : Config := { batchUpdateEnabled := false, trustQuota := 0 }

/-- A poller hears FAILURE and closes the task; the sweep had loaded it before. -/
def pollThenSweep : List (Bool × Act) :=
  [(true, .load none), (false, .load (some 1900000000)),
    (true, .poll { maxFailures := 3, now := 5 }
      (.reply 200 "body" "body" (.ok { status := .failure, reason := "rejected" }))),
    (true, .write .matched), (true, .bill {} {} {})]

/-- How the quota that `row` held stands once the task is FAILURE, against the
    stores `w₀` before. -/
inductive Accounted (row : Task) (w₀ : Stores) (w : System ι) : Prop where
  | nothingHeld (h : row.quota = 0)
  /-- given back; of a subscription, no further than to nothing used -/
  | refunded (h : taskSpent w.shared.stores row =
      if taskIsSubscription row then max (taskSpent w₀ row - row.quota) 0
      else taskSpent w₀ row - row.quota)
  /-- settled by `settleTaskBillingOnComplete` -/
  | settled (h : w.shared.closing = some (.billed .settled))
  /-- the funding source refused: nothing moved, and the row still says what it holds -/
  | refused (hw : w.shared.stores = w₀) (hq : w.shared.row.quota = row.quota)
  /-- the execution that closed the task is about to bill what it held -/
  | billing (i : ι) (t : Task) (k : BillKind) (hi : w.proc i = .bill t k) (hk : k ≠ .nothing)
      (hq : t.quota = row.quota) (hb : t.billing = row.billing)
  /-- the sweep closed a legacy task -/
  | legacy (hc : w.shared.closing = some .legacy) (h : w.shared.row.isLegacy = true)
  | bulk (h : w.shared.closing = some .bulk)
  | lost (h : w.shared.closing = some .lost)

omit [DecidableEq ι] in
theorem closer_bills {row₀ : Task} {w₀ : Stores} {w : System ι}
    (h : w.Holds (Once row₀ w₀) (Assertion row₀)) (hp : w.shared.closing = some .pending) :
    ∃ i t k, w.proc i = .bill t k ∧ Assertion row₀ w.shared i (.bill t k) := by
  obtain ⟨i, hi⟩ := Option.isSome_iff_exists.1 (h.1.ofPending hp)
  have hP := h.2 i
  cases hφ : w.proc i with
  | bill t k =>
    rw [hφ] at hP
    exact ⟨i, t, k, hφ, hP⟩
  | idle | done =>
    rw [hφ] at hP
    exact absurd hi (hP hp)
  | snap t =>
    rw [hφ] at hP
    exact absurd hi (hP.2 hp)
  | write t p =>
    rw [hφ] at hP
    exact absurd hi (hP.2.2 hp)

omit [DecidableEq ι] in
theorem Outcome.Sound.accounted {row : Task} {w₀ : Stores} {w : System ι} {o : Outcome}
    (hs : o.Sound row w₀ w.shared.stores w.shared.row)
    (hc : w.shared.closing = some (.billed o)) (hf : w.shared.row.status = .failure) :
    Accounted row w₀ w := by
  cases o with
  | settled => exact .settled hc
  | kept => exact absurd hf hs
  | nothingHeld => exact .nothingHeld hs
  | refunded => exact .refunded hs
  | refused => exact .refused hs.1 hs.2

def legacyTask : Task := { status := .inProgress, quota := 100, submitTime := 1700000000 }

def sweptLegacy : System Bool :=
  run (Workers.step (step plainConfig)) (start Bool legacyTask noStores)
    [(true, .load (some 1800000000)), (true, .sweep 60 7), (true, .write .matched),
      (true, .bill {} {} {})]

def channelGone : System Bool :=
  run (Workers.step (step plainConfig)) (start Bool chargedTask noStores)
    [(true, .load none), (true, .noChannel 4), (true, .write .matched), (true, .bill {} {} {})]

end NewApi.AsyncTask.Polling
