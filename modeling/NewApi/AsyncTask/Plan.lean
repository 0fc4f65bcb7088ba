/-
  NewApi.AsyncTask.Plan

  What each of the four polling paths of `service/task_polling.go` decides to
  write from the copy of the row it has loaded: `updateVideoSingleTask`, one
  item of `updateBatchTasks`, `sweepTimedOutTasks`, and the poll-failure path
  (`recordPollFailure`, `failTaskFromPoll`) the first two go through.

  A path's decision is a `Plan`.  Every guarded write of these paths is an
  `UpdateWithStatus` from the status the copy was loaded with, so a plan only
  says what is written and whether billing follows a won write.  Reading the
  row, the write and the billing are separate steps (`NewApi.AsyncTask.Polling`).

  `Plan.Sound` is what all paths have in common when the copy was loaded in a
  non-terminal status: a plan that closes the row writes a terminal status, a
  plan that only saves writes a non-terminal one, and the quota is untouched
  (the sweep of a legacy task apart, which clears it).
-/

import NewApi.AsyncTask.Row

namespace NewApi.AsyncTask

/-! ## Plans -/

/-- What follows a closing write that was won. -/
inductive BillKind where
  /-- `settleTaskBillingOnComplete`, then the refund of an unsettled failure -/
  | finalize
  /-- `RefundTaskQuota` if there is quota (the sweep) -/
  | refund
  /-- nothing (the sweep of a legacy task) -/
  | nothing
deriving DecidableEq

inductive Plan where
  /-- nothing is written or billed -/
  | skip
  /-- a guarded write, nothing billed -/
  | save (t : Task)
  /-- a guarded write to a terminal status, billed if won -/
  | close (t : Task) (k : BillKind)
  /-- a copy that was terminal when loaded: written if `write`, billed anyway -/
  | rebill (t : Task) (write : Bool)
  /-- `TaskBulkUpdateByID` to FAILURE; `failReason` as far as it is given -/
  | bulkFail (failReason : Option String)

/-! ## Poll failures -/

/-- `pollClass…` -/
inductive PollClass where
  | ok
  | otherClient
  | notFound
  | auth
  | transient
  | unrecognized
  | hookError
  | transportError
deriving DecidableEq

def PollClass.text : PollClass → String
  | .ok => "ok"
  | .otherClient => "other_client"
  | .notFound => "not_found"
  | .auth => "auth"
  | .transient => "transient"
  | .unrecognized => "unrecognized"
  | .hookError => "hook_error"
  | .transportError => "transport_error"

def classifyPollHTTP (statusCode : Int) : PollClass :=
  if 200 ≤ statusCode ∧ statusCode < 300 then .ok
  else if statusCode = 404 ∨ statusCode = 410 then .notFound
  else if statusCode = 401 ∨ statusCode = 403 then .auth
  else if statusCode = 429 ∨ 500 ≤ statusCode then .transient
  else if 400 ≤ statusCode ∧ statusCode < 500 then .otherClient
  else .transient

def knownPollStatus : TaskStatus → Bool
  | .notStart | .submitted | .queued | .inProgress | .success | .failure => true
  | _ => false

def isNonTerminalPollStatus : TaskStatus → Bool
  | .notStart | .submitted | .queued | .inProgress => true
  | _ => false

def pollFailureReason (c : PollClass) (statusCode : Int) (detail : String) : String :=
  let reason := if 0 < statusCode then
      "poll failed: " ++ c.text ++ " (HTTP " ++ toString statusCode ++ ")"
    else "poll failed: " ++ c.text
  if detail = "" then reason else reason ++ ": " ++ detail

/-- What the poller reads from the environment: `TaskPollMaxFailures`, the
    clock, the proxy URL of the task. -/
structure PollEnv where
  maxFailures : Int
  now : Int
  proxyUrl : String := ""

variable (env : PollEnv)

variable (t : Task)

def failTaskFromPoll (reason : String) : Plan :=
  .close { t.finishAt env.now with
    status := .failure, progress := progressComplete, failReason := reason } .finalize

def recordPollFailure (c : PollClass) (statusCode : Int) (detail : String) : Plan :=
  let t := { t with pollFailures := t.pollFailures + 1 }
  if 0 < env.maxFailures ∧ env.maxFailures ≤ t.pollFailures then
    failTaskFromPoll env t (pollFailureReason c statusCode detail)
  else .save t

/-! ## The per-task poller -/

/-- `TaskInfo`, less the usage that only pricing reads (`Pricing`). -/
structure TaskInfo where
  status : TaskStatus
  reason : String := ""
  url : String := ""
  progress : String := ""
  pluginState : String := ""

/-- One round trip of `FetchTask`: no response, an unreadable body, or a status
    with the redacted body, its first 512 bytes and what parsing made of it. -/
inductive Response where
  | fetchError (detail : String)
  | readError (statusCode : Int) (detail : String)
  | reply (statusCode : Int) (body excerpt : String) (parsed : Except String TaskInfo)

def unrecognizedPollDetail (reason excerpt : String) : String :=
  if Subscription.blank reason then "body=" ++ excerpt else reason ++ "; body=" ++ excerpt

/-- The fields `Snapshot` compares. -/
def Task.snapshotEq (s t : Task) : Bool :=
  s.status = t.status && s.progress = t.progress && s.startTime = t.startTime &&
  s.finishTime = t.finishTime && s.failReason = t.failReason && s.resultUrl = t.resultUrl &&
  s.data = t.data && s.pluginState = t.pluginState && s.pollFailures = t.pollFailures

/-- The fields written before the status is looked at. -/
def Task.withReply (body : String) (info : TaskInfo) : Task :=
  { t with
    data := { body := body }
    pluginState := if info.pluginState = "" then t.pluginState else info.pluginState
    pollFailures := if isNonTerminalPollStatus info.status then 0 else t.pollFailures }

/-- The `switch parsedStatus` of `updateVideoSingleTask`. -/
def Task.advance (info : TaskInfo) : Task :=
  match info.status with
  | .submitted => { t with status := .submitted, progress := progressSubmitted }
  | .queued => { t with status := .queued, progress := progressQueued }
  | .inProgress =>
    { t with
      status := .inProgress, progress := progressInProgress
      startTime := if t.startTime = 0 then env.now else t.startTime }
  | .success =>
    { t.finishAt env.now with
      status := .success, progress := progressComplete
      resultUrl :=
        -- a data: URI stays in `Data`, a missing URL is proxied
        if "data:".isPrefixOf info.url then env.proxyUrl
        else if info.url = "" then env.proxyUrl else info.url }
  | .failure =>
    { t.finishAt env.now with
      status := .failure, progress := progressComplete, failReason := info.reason }
  | status => { t with status := status }

/-- `taskResult.Progress` after the switch, which overrides the mapped one. -/
def Task.withProgress (info : TaskInfo) : Task :=
  if info.status = .failure then { t with progress := progressComplete }
  else if info.progress = "" then t else { t with progress := info.progress }

/-- `updateVideoSingleTask`, from the response on.  `t` is the copy as loaded. -/
def updateVideoSingleTask : Response → Plan
  | .fetchError detail => recordPollFailure env t .transportError 0 detail
  | .readError code detail => recordPollFailure env t .transportError code detail
  | .reply code body excerpt parsed =>
    match classifyPollHTTP code with
    | .notFound =>
      failTaskFromPoll env t ("upstream task not found (HTTP " ++ toString code ++ ")")
    | .auth => recordPollFailure env t .auth code ""
    | .transient => recordPollFailure env t .transient code ""
    | c =>
      match parsed with
      | .error detail => recordPollFailure env t .hookError code detail
      | .ok info =>
        if info.status = .unknown || info.status = .other "" ||
            !knownPollStatus info.status then
          recordPollFailure env t .unrecognized code
            (unrecognizedPollDetail info.reason excerpt)
        else if c = .otherClient && isNonTerminalPollStatus info.status then
          recordPollFailure env t .unrecognized code
            (unrecognizedPollDetail info.reason excerpt)
        else
          let t' := ((t.withReply body info).advance env info).withProgress info
          if t'.status.terminal && t.status ≠ t'.status then .close t' .finalize
          else if info.status = .success || info.status = .failure then
            .rebill t' (!t.snapshotEq t')
          else if t.snapshotEq t' then .skip
          else .save t'

/-- `updateVideoTasks` without its channel. -/
def missingVideoChannel (channelId : Int) : Plan :=
  .bulkFail (some ("Failed to get channel info, channel ID: " ++ toString channelId))

/-- `RunTaskPollingOnce` on a task without an upstream id. -/
def nullTaskId : Plan := .bulkFail none

/-! ## The batch poller -/

/-- `BatchTaskResult`: a zero time and absent data leave the column alone. -/
structure BatchItem where
  info : TaskInfo
  submitTime : Int := 0
  startTime : Int := 0
  finishTime : Int := 0
  data : Option String := none

/-- One pass of `updateBatchTasks`, as one of its tasks sees it. -/
inductive BatchReply where
  | missingChannel (channelId : Int)
  | fetchError (detail : String)
  | readError (statusCode : Int) (detail : String)
  | parseError (statusCode : Int) (detail : String)
  /-- the item with the task's upstream id, if the response holds one -/
  | reply (statusCode : Int) (item : Option BatchItem)

/-- The assignments of the batch loop. -/
def Task.withItem (x : BatchItem) : Task :=
  let failed : Bool := x.info.reason ≠ "" || x.info.status = .failure
  { t with
    pollFailures := if isNonTerminalPollStatus x.info.status then 0 else t.pollFailures
    pluginState := if x.info.pluginState = "" then t.pluginState else x.info.pluginState
    failReason := if x.info.reason = "" then t.failReason else x.info.reason
    submitTime := if x.submitTime = 0 then t.submitTime else x.submitTime
    startTime := if x.startTime = 0 then t.startTime else x.startTime
    finishTime := if x.finishTime = 0 then t.finishTime else x.finishTime
    -- a reason turns any status into a failure
    status := if failed then .failure else x.info.status
    progress :=
      if x.info.status = .success then "100%"
      else if failed then "100%"
      else if x.info.progress = "" then t.progress else x.info.progress
    data := match x.data with
      | some body => { body := body }
      | none => t.data
    resultUrl := if x.info.url = "" then t.resultUrl else x.info.url }

/-- `updateBatchTasks`, for one task. -/
def updateBatchTask : BatchReply → Plan
  | .missingChannel id =>
    .bulkFail (some ("获取渠道信息失败，请联系管理员，渠道ID：" ++ toString id))
  | .fetchError detail => recordPollFailure env t .transportError 0 detail
  | .readError code detail => recordPollFailure env t .transportError code detail
  | .parseError code detail =>
    match classifyPollHTTP code with
    | .notFound =>
      failTaskFromPoll env t ("upstream task not found (HTTP " ++ toString code ++ ")")
    | .auth => recordPollFailure env t .auth code ""
    | .transient => recordPollFailure env t .transient code ""
    | _ => recordPollFailure env t .hookError code detail
  | .reply code item =>
    match classifyPollHTTP code with
    | .notFound =>
      failTaskFromPoll env t ("upstream task not found (HTTP " ++ toString code ++ ")")
    | .auth => recordPollFailure env t .auth code ""
    | .transient => recordPollFailure env t .transient code ""
    | c =>
      match item with
      | none => .skip
      | some x =>
        if x.info.status = .unknown || x.info.status = .other "" ||
            !knownPollStatus x.info.status then
          recordPollFailure env t .unrecognized code x.info.reason
        else if c = .otherClient && isNonTerminalPollStatus x.info.status then
          recordPollFailure env t .unrecognized code x.info.reason
        else
          let t' := t.withItem x
          if t'.status.terminal && t.status ≠ t'.status then .close t' .finalize
          else .save t'

/-! ## The timeout sweep -/

def taskRefundLegacyCutoff : Int := 1771718400

def Task.isLegacy : Bool :=
  0 < t.submitTime && t.submitTime < taskRefundLegacyCutoff

/-- One task of `sweepTimedOutTasks`. -/
def sweepTimedOutTask (timeoutMinutes now : Int) (t : Task) : Plan :=
  let closed := { t with status := .failure, progress := "100%", finishTime := now }
  if t.isLegacy then
    .close { closed with
      failReason := "任务超时（旧系统遗留任务，不进行退款，请联系管理员）", quota := 0 } .nothing
  else
    .close { closed with
      failReason := "任务超时（" ++ toString timeoutMinutes ++ "分钟）" } .refund

/-! ## What every plan does -/

/-- A plan made from the copy `t`. -/
def Plan.Sound : Plan → Prop
  | .skip => True
  | .save t' => t'.status.terminal = false ∧ t'.quota = t.quota ∧ t'.billing = t.billing
  | .close t' k => t'.status.terminal = true ∧ t'.billing = t.billing ∧
      match k with
      | .finalize => t'.quota = t.quota
      | .refund => t'.quota = t.quota ∧ t'.status = .failure
      | .nothing => t'.isLegacy = true ∧ t'.quota = 0 ∧ t'.status = .failure
  | .rebill _ _ => False
  | .bulkFail _ => True

theorem failTaskFromPoll_sound (reason : String) : (failTaskFromPoll env t reason).Sound t :=
  ⟨rfl, t.finishAt_billing env.now, t.finishAt_quota env.now⟩

theorem recordPollFailure_sound {t : Task} (ht : t.status.terminal = false)
    (c : PollClass) (code : Int) (detail : String) :
    (recordPollFailure env t c code detail).Sound t := by
  unfold recordPollFailure
  simp only
  split
  · obtain ⟨h1, h2, h3⟩ := failTaskFromPoll_sound env
      { t with pollFailures := t.pollFailures + 1 } (pollFailureReason c code detail)
    exact ⟨h1, h2, h3⟩
  · exact ⟨ht, rfl, rfl⟩

theorem Task.reply_fields (env : PollEnv) (t : Task) (body : String) (info : TaskInfo) :
    let t' := ((t.withReply body info).advance env info).withProgress info
    t'.status = info.status ∧ t'.quota = t.quota ∧ t'.billing = t.billing := by
  have hprog : ∀ u : Task, (u.withProgress info).status = u.status ∧
      (u.withProgress info).quota = u.quota ∧ (u.withProgress info).billing = u.billing := by
    intro u
    unfold Task.withProgress
    repeat' split
    all_goals exact ⟨rfl, rfl, rfl⟩
  have hadv : ∀ u : Task, (u.advance env info).status = info.status ∧
      (u.advance env info).quota = u.quota ∧ (u.advance env info).billing = u.billing := by
    intro u
    unfold Task.advance
    split
    all_goals
      rename_i hs
      simp [hs]
  obtain ⟨h1, h2, h3⟩ := hprog ((t.withReply body info).advance env info)
  obtain ⟨h4, h5, h6⟩ := hadv (t.withReply body info)
  exact ⟨h1.trans h4, h2.trans h5, h3.trans h6⟩

theorem updateVideoSingleTask_sound {t : Task} (ht : t.status.terminal = false) (r : Response) :
    (updateVideoSingleTask env t r).Sound t := by
  cases r with
  | fetchError detail | readError code detail => exact recordPollFailure_sound env ht _ _ _
  | reply code body excerpt parsed =>
  simp only [updateVideoSingleTask]
  split
  · exact failTaskFromPoll_sound env t _
  · exact recordPollFailure_sound env ht _ _ _
  · exact recordPollFailure_sound env ht _ _ _
  cases parsed with
  | error detail => exact recordPollFailure_sound env ht _ _ _
  | ok info =>
  simp only
  split
  · exact recordPollFailure_sound env ht _ _ _
  split
  · exact recordPollFailure_sound env ht _ _ _
  obtain ⟨hs, hq, hb⟩ := t.reply_fields env body info
  generalize ((t.withReply body info).advance env info).withProgress info = t' at hs hq hb ⊢
  cases hterm : t'.status.terminal with
  | true =>
    -- the copy was not terminal, so this is a transition
    have hne : t.status ≠ t'.status := by
      intro h
      rw [h, hterm] at ht
      cases ht
    simp only [hne, ne_eq, not_false_eq_true, decide_true, Bool.and_self, if_true]
    exact ⟨hterm, hb, hq⟩
  | false =>
    have hopen : (info.status = .success || info.status = .failure : Bool) = false := by
      rw [hs, TaskStatus.terminal_eq_false_iff] at hterm
      simp [hterm.1, hterm.2]
    simp only [Bool.false_and, Bool.false_eq_true, if_false, hopen]
    split
    · trivial
    · exact ⟨hterm, hq, hb⟩

theorem Task.withItem_fields (x : BatchItem) :
    (t.withItem x).quota = t.quota ∧ (t.withItem x).billing = t.billing := ⟨rfl, rfl⟩

theorem updateBatchTask_sound {t : Task} (ht : t.status.terminal = false)
    (r : BatchReply) : (updateBatchTask env t r).Sound t := by
  cases r with
  | missingChannel id => trivial
  | fetchError detail | readError code detail => exact recordPollFailure_sound env ht _ _ _
  | parseError code detail =>
    simp only [updateBatchTask]
    split
    · exact failTaskFromPoll_sound env t _
    all_goals exact recordPollFailure_sound env ht _ _ _
  | reply code item =>
    simp only [updateBatchTask]
    split
    · exact failTaskFromPoll_sound env t _
    · exact recordPollFailure_sound env ht _ _ _
    · exact recordPollFailure_sound env ht _ _ _
    cases item with
    | none => trivial
    | some x =>
    simp only
    split
    · exact recordPollFailure_sound env ht _ _ _
    split
    · exact recordPollFailure_sound env ht _ _ _
    obtain ⟨hq, hb⟩ := t.withItem_fields x
    cases hterm : (t.withItem x).status.terminal with
    | true =>
      have hne : t.status ≠ (t.withItem x).status := by
        intro h
        rw [h, hterm] at ht
        cases ht
      simp only [hne, ne_eq, not_false_eq_true, decide_true, Bool.and_self, if_true]
      exact ⟨hterm, hb, hq⟩
    | false =>
      exact ⟨hterm, hq, hb⟩

theorem sweepTimedOutTask_sound (timeoutMinutes now : Int) (t : Task) :
    (sweepTimedOutTask timeoutMinutes now t).Sound t := by
  unfold sweepTimedOutTask
  split
  · rename_i hl
    exact ⟨rfl, rfl, hl, rfl, rfl⟩
  · exact ⟨rfl, rfl, rfl, rfl⟩

end NewApi.AsyncTask
