/-
  NewApi.AsyncTask.Row

  The `tasks` row of `model/task.go`, its compare-and-swap, and the billing of
  a finished task (`service/task_billing.go`, `settleTaskBillingOnComplete`).

  A worker holds an in-memory copy of the row (`Task`) and writes it back as a
  whole; `updateWithStatus` does so only while the stored status is the one
  given, `update` unconditionally.  `UpdateQuota` writes the one column.

  The billing functions work on the worker's copy and on the stored row at the
  same time, and move the stores of `NewApi.Billing.Funding`.  What they ask
  of the outside (the adaptor, the pricing expression, the ratios) is an input.
-/

import NewApi.Billing.Funding

namespace NewApi.AsyncTask

open Billing Subscription

/-! ## The row -/

/-- `TaskStatus`: the named constants, and any other text. -/
inductive TaskStatus where
  | notStart
  | submitted
  | queued
  | inProgress
  | failure
  | success
  | unknown
  | unconfirmed
  | other (text : String)
deriving DecidableEq

/-- `SUCCESS` or `FAILURE` -/
def TaskStatus.terminal : TaskStatus → Bool
  | .success | .failure => true
  | _ => false

theorem TaskStatus.terminal_eq_false_iff {s : TaskStatus} :
    s.terminal = false ↔ s ≠ .success ∧ s ≠ .failure := by
  cases s <;> simp [TaskStatus.terminal]

/-- `TaskUnconfirmedResolution` -/
inductive Resolution where
  | success
  | failure
  | refundedAfterWindow
deriving DecidableEq

/-- `Task.Data`: the document, and the keys of it that the resolver reads
    (`remote_task_id_hint`, `failed_at`) and writes (`resolution`). -/
structure TaskData where
  body : String := ""
  remoteTaskIdHint : String := ""
  failedAt : Int := 0
  resolution : Option Resolution := none
deriving DecidableEq

/-- The parts of `TaskPrivateData` that billing reads. -/
structure TaskBilling where
  /-- `BillingSource == "subscription"` -/
  subscription : Bool := false
  subscriptionId : Int := 0
  tokenId : Int := 0
  /-- `BillingContext.TieredSnapshot != nil` -/
  tiered : Bool := false
  /-- `BillingContext.PerCallBilling` -/
  perCall : Bool := false
deriving DecidableEq

structure Task where
  status : TaskStatus
  progress : String := ""
  quota : Int := 0
  submitTime : Int := 0
  startTime : Int := 0
  finishTime : Int := 0
  failReason : String := ""
  resultUrl : String := ""
  upstreamTaskId : String := ""
  pluginState : String := ""
  pollFailures : Int := 0
  data : TaskData := {}
  billing : TaskBilling := {}
deriving DecidableEq

/-- `taskcommon.Progress…` -/
def progressSubmitted : String := "10%"

def progressQueued : String := "20%"

def progressInProgress : String := "30%"

def progressComplete : String := "100%"

/-- `if task.FinishTime == 0` -/
def Task.finishAt (t : Task) (now : Int) : Task :=
  if t.finishTime = 0 then { t with finishTime := now } else t

@[simp] theorem Task.finishAt_quota (t : Task) (now : Int) : (t.finishAt now).quota = t.quota := by
  unfold Task.finishAt
  split <;> rfl

@[simp] theorem Task.finishAt_billing (t : Task) (now : Int) :
    (t.finishAt now).billing = t.billing := by
  unfold Task.finishAt
  split <;> rfl

/-! ## Writes -/

/-- How the guarded `UPDATE` of `UpdateWithStatus` ends: the driver counts
    matched rows, or only rows it changed; the statement errors; or it takes
    effect and its answer is lost. -/
inductive CasReply where
  | matched
  | changed
  | error
  | lost
deriving DecidableEq

/-- `UpdateWithStatus`: the caller's view (`none` for an error) and the stored
    row. -/
def updateWithStatus (row t : Task) (fromStatus : TaskStatus) (r : CasReply) : Option Bool × Task :=
  if row.status = fromStatus then
    match r with
    | .matched => (some true, t)
    | .changed => (some (t ≠ row), t)
    | .error => (none, row)
    | .lost => (none, t)
  else
    match r with
    | .matched | .changed => (some false, row)
    | .error | .lost => (none, row)

/-- `Update`: a full save; `fail` says that it errors. -/
def update (row t : Task) (fail : Bool) : Task := if fail then row else t

def updateQuota (row t : Task) (fail : Bool) : Task :=
  if fail then row else { row with quota := t.quota }

theorem updateWithStatus_cases (row t : Task) (fromStatus : TaskStatus) (r : CasReply) :
    ((updateWithStatus row t fromStatus r).2 = row ∧
      (updateWithStatus row t fromStatus r).1 ≠ some true) ∨
    (row.status = fromStatus ∧ (updateWithStatus row t fromStatus r).2 = t) := by
  unfold updateWithStatus
  by_cases h : row.status = fromStatus
  · rw [if_pos h]
    cases r with
    | matched | changed | lost => exact .inr ⟨h, rfl⟩
    | error => exact .inl ⟨rfl, by simp⟩
  · rw [if_neg h]
    cases r <;> exact .inl ⟨rfl, by simp⟩

@[simp] theorem updateQuota_status (row t : Task) (fail : Bool) :
    (updateQuota row t fail).status = row.status := by
  unfold updateQuota
  split <;> rfl

/-! ## Billing of a finished task -/

/-- Which step of one billing call fails. -/
structure BillFault where
  funding : Bool := false
  /-- the token row is gone, so its key cannot be resolved -/
  tokenKey : Bool := false
  token : Bool := false
  updateQuota : Bool := false

/-- A billing call's state: the worker's copy, the stored row, the balances. -/
structure Bill where
  task : Task
  row : Task
  stores : Stores

def taskIsSubscription (t : Task) : Bool :=
  t.billing.subscription && 0 < t.billing.subscriptionId

variable (cfg : Config)

/-- `taskAdjustFunding`: `delta > 0` charges, `delta < 0` gives back. -/
def taskAdjustFunding (w : Stores) (t : Task) (delta : Int) (fail : Bool) :
    Except Err Unit × Stores :=
  if taskIsSubscription t then
    let (r, st) := postConsumeUserSubscriptionDelta w.subs t.billing.subscriptionId delta fail
    (r, { w with subs := st })
  else
    let (r, b) := if 0 < delta then decreaseUserQuota cfg w.wallet delta fail
      else increaseUserQuota cfg w.wallet (-delta) fail
    (r, { w with wallet := b })

/-- `taskAdjustTokenQuota`; its errors are only logged. -/
def taskAdjustTokenQuota (w : Stores) (t : Task) (delta : Int) (f : BillFault) : Stores :=
  if t.billing.tokenId ≤ 0 || delta = 0 || f.tokenKey then w
  else if 0 < delta then { w with token := (decreaseTokenQuota cfg w.token delta f.token).2 }
  else { w with token := (increaseTokenQuota cfg w.token (-delta) f.token).2 }

variable (b : Bill)

/-- `RefundTaskQuota`: whether the funding source has the quota back. -/
def refundTaskQuota (f : BillFault) : Bool × Bill :=
  if b.task.quota = 0 then (true, b)
  else match taskAdjustFunding cfg b.stores b.task (-b.task.quota) f.funding with
  | (.error _, w) => (false, { b with stores := w })
  | (.ok (), w) =>
    let w := taskAdjustTokenQuota cfg w b.task (-b.task.quota) f
    let t := { b.task with quota := 0 }
    (true, { task := t, row := updateQuota b.row t f.updateQuota, stores := w })

def recalculateTaskQuota (actualQuota : Int) (f : BillFault) : Bill :=
  if actualQuota < 0 || actualQuota - b.task.quota = 0 then b
  else match taskAdjustFunding cfg b.stores b.task (actualQuota - b.task.quota) f.funding with
  | (.error _, w) => { b with stores := w }
  | (.ok (), w) =>
    let w := taskAdjustTokenQuota cfg w b.task (actualQuota - b.task.quota) f
    let t := { b.task with quota := actualQuota }
    { task := t, row := updateQuota b.row t f.updateQuota, stores := w }

/-- What `settleTaskBillingOnComplete` asks of the outside. -/
structure Pricing where
  /-- `taskArtifactLooksUsable` -/
  artifactUsable : Bool := true
  /-- `ComputeTieredQuotaWithRequest` -/
  tieredQuota : Except Err Int := .error .database
  /-- `AdjustBillingOnComplete` -/
  adaptorQuota : Int := 0
  /-- the quota `RecalculateTaskQuotaByTokens` arrives at, where it applies -/
  tokenQuota : Option Int := none

/-- `settleTaskBillingOnComplete`: whether it settled, and the state after. -/
def settleTaskBillingOnComplete (p : Pricing) (f : BillFault) : Bool × Bill :=
  if b.task.status = .success && !p.artifactUsable then (false, b)
  else if b.task.billing.tiered then
    if b.task.status = .failure then (false, b)
    else match p.tieredQuota with
    | .error _ => (true, b)
    | .ok q => (true, recalculateTaskQuota cfg b q f)
  else if b.task.billing.perCall then (false, b)
  else if 0 < p.adaptorQuota then (true, recalculateTaskQuota cfg b p.adaptorQuota f)
  else match p.tokenQuota with
  | some q => (true, recalculateTaskQuota cfg b q f)
  | none => (false, b)

/-- The billing of a closed task: settle, and give a failed task that was not
    settled its quota back. -/
def finalizeBilling (p : Pricing) (f g : BillFault) : Bill :=
  let (billingSettled, b) := settleTaskBillingOnComplete cfg b p f
  if b.task.status = .failure && !billingSettled && b.task.quota ≠ 0 then
    (refundTaskQuota cfg b g).2
  else b

/-! ## Billing never moves a status -/

theorem refundTaskQuota_status (f : BillFault) :
    (refundTaskQuota cfg b f).2.row.status = b.row.status ∧
    (refundTaskQuota cfg b f).2.task.status = b.task.status := by
  unfold refundTaskQuota
  split
  · exact ⟨rfl, rfl⟩
  split
  · exact ⟨rfl, rfl⟩
  · exact ⟨updateQuota_status _ _ _, rfl⟩

theorem recalculateTaskQuota_status (q : Int) (f : BillFault) :
    (recalculateTaskQuota cfg b q f).row.status = b.row.status ∧
    (recalculateTaskQuota cfg b q f).task.status = b.task.status := by
  unfold recalculateTaskQuota
  split
  · exact ⟨rfl, rfl⟩
  split
  · exact ⟨rfl, rfl⟩
  · exact ⟨updateQuota_status _ _ _, rfl⟩

theorem settleTaskBillingOnComplete_status (p : Pricing) (f : BillFault) :
    (settleTaskBillingOnComplete cfg b p f).2.row.status = b.row.status ∧
    (settleTaskBillingOnComplete cfg b p f).2.task.status = b.task.status := by
  unfold settleTaskBillingOnComplete
  repeat' split
  all_goals first | exact ⟨rfl, rfl⟩ | exact recalculateTaskQuota_status _ _ _ _

theorem finalizeBilling_status (p : Pricing) (f g : BillFault) :
    (finalizeBilling cfg b p f g).row.status = b.row.status ∧
    (finalizeBilling cfg b p f g).task.status = b.task.status := by
  obtain ⟨h1, h2⟩ := settleTaskBillingOnComplete_status cfg b p f
  simp only [finalizeBilling]
  split
  · obtain ⟨h3, h4⟩ := refundTaskQuota_status cfg (settleTaskBillingOnComplete cfg b p f).2 g
    exact ⟨h3.trans h1, h4.trans h2⟩
  · exact ⟨h1, h2⟩

end NewApi.AsyncTask
