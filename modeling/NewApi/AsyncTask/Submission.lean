/-
  NewApi.AsyncTask.Submission

  `executeTaskSubmissionWith` of `controller/relay.go`: the retry loop over
  `RelayTaskSubmit`, the row of a submission whose result is unknown, the
  reserve, insert and settle steps after a success, and the deferred refund.

  What the outside decides is input: one `Attempt` per turn of the loop (which
  channel is selected, what the upstream answers), whether the request context
  is cancelled at each place it is looked at, and which of the billing and
  database steps fail.  `attemptLoop` runs on fuel; `attemptLoop_isSome` says
  that the fuel it is given is enough, since each turn either uses up a retry
  or moves to the next of finitely many groups.

  The billing session is the one of `NewApi.Billing.Ledger`, opened by the
  first attempt that gets that far and kept over the later ones.  `held` is
  what it has taken from its funding source.
-/

import NewApi.AsyncTask.Row
import NewApi.Billing.Ledger

namespace NewApi.AsyncTask.Submission

open NewApi.Lib Billing

/-! ## Errors and the unconfirmed marker -/

/-- `dto.TaskError`, less its text. -/
structure TaskError where
  code : String
  statusCode : Int
  localError : Bool := false

/-- `TaskErrorWrapperLocal(requestErr, "request_cancelled", 408)` -/
def requestCancelled : TaskError := ⟨"request_cancelled", 408, true⟩

inductive RelayErrorClass where
  | ok
  | auth
  | rateLimited
  | timeout
  | serverError
  | badRequest
  | unknown

/-- `ClassifyHTTPStatus`, its class -/
def classifyHTTPStatus (status : Int) : RelayErrorClass :=
  if status ≤ 0 then .timeout
  else if 200 ≤ status ∧ status < 300 then .ok
  else if status = 401 ∨ status = 403 ∨ status = 407 then .auth
  else if status = 429 then .rateLimited
  else if status = 408 then .timeout
  else if 500 ≤ status then .serverError
  else .badRequest

/-- `SubmitUnconfirmedInfo`, the marker kept on the request's context -/
structure SubmitUnconfirmedInfo where
  unconfirmed : Bool := false
  remoteTaskIdHint : String := ""
  failedAt : Int := 0

/-- `ClassifySubmitFailure`; of the body it asks whether it is empty, of the
    error whether there is one. -/
def classifySubmitFailure (statusCode : Int) (bodyEmpty upstreamErr : Bool) (now : Int) :
    SubmitUnconfirmedInfo :=
  if 200 ≤ statusCode ∧ statusCode < 300 then { unconfirmed := bodyEmpty, failedAt := now }
  else match classifyHTTPStatus statusCode with
  | .timeout | .serverError => { unconfirmed := true, failedAt := now }
  | .unknown => { unconfirmed := upstreamErr, failedAt := now }
  | _ => { failedAt := now }

def isAlwaysSkipRetryStatusCode (code : Int) : Bool := code = 504 || code = 524

/-- `shouldRetryTaskRelay`; the flags are
    `ShouldSkipRetryAfterChannelAffinityFailure` and `SuppressesRetry`. -/
def shouldRetryTaskRelay (taskErr : TaskError) (skipRetry suppressesRetry : Bool)
    (retryTimes : Int) : Bool :=
  if skipRetry then false
  else if retryTimes ≤ 0 then false
  else if suppressesRetry then false
  else if taskErr.statusCode = 429 then true
  else if taskErr.statusCode = 307 then true
  else if taskErr.statusCode.tdiv 100 = 5 then !isAlwaysSkipRetryStatusCode taskErr.statusCode
  else if taskErr.statusCode = 400 then false
  else if taskErr.statusCode = 408 then false
  else if taskErr.localError then false
  else if taskErr.statusCode.tdiv 100 = 2 then false
  else true

theorem retry_left {taskErr : TaskError} {skipRetry suppressesRetry : Bool} {retryTimes : Int}
    (h : shouldRetryTaskRelay taskErr skipRetry suppressesRetry retryTimes = true) :
    0 < retryTimes := by
  by_contra hle
  have hle' : retryTimes ≤ 0 := by omega
  simp [shouldRetryTaskRelay, hle'] at h

/-! ## The books of one submission -/

/-- `relayInfo.Billing`: no session yet, or a session, with what its funding
    source had spent before it. -/
inductive Books where
  | unbilled (w : Stores)
  | billed (before : Int) (l : Ledger)

def Books.held : Books → Int
  | .unbilled _ => 0
  | .billed before l => l.taken before

def ErrorCode.text : ErrorCode → String
  | .preConsumeTokenQuotaFailed => "pre_consume_token_quota_failed"
  | .insufficientUserQuota => "insufficient_user_quota"
  | .insufficientQuota => "insufficient_quota"
  | .updateDataError => "update_data_error"
  | .queryDataError => "query_data_error"

/-- The HTTP status `NewBillingSession` gives its errors. -/
def ErrorCode.status : ErrorCode → Int
  | .updateDataError | .queryDataError => 500
  | _ => 403

def taskErrorFromAPIError (e : ErrorCode) : TaskError :=
  ⟨ErrorCode.text e, ErrorCode.status e, false⟩

/-- What `PreConsumeBilling` reads and meets. -/
structure BillingIn where
  /-- `relayInfo.QuotaClamp != nil` -/
  clamped : Bool := false
  preference : BillingPreference := .walletOnly
  info : RelayInfo := {}
  opening : OpenIn

variable (cfg : Config)

/-- `PreConsumeBilling` with `ForcePreConsume`. -/
def preConsumeBilling (requestId : String) (w : Stores) (quota : Nat)
    (i : BillingIn) : Option TaskError × Books :=
  if i.clamped then (some ⟨"model_price_error", 400, false⟩, .unbilled w)
  else
    match newBillingSession cfg w { i.info with forcePreConsume := true } i.preference quota
        { i.opening with requestId := requestId } with
    | (.error e, w) => (some (taskErrorFromAPIError e), .unbilled w)
    | (.ok s, w') => (none, .billed (spentAfterReset w s.funding) (.start w' s))

/-! ## RelayTaskSubmit -/

/-- `relaycommon.TaskInfo` of a task that is over when it is submitted. -/
structure Immediate where
  status : TaskStatus
  progress : String := ""
  reason : String := ""
  url : String := ""

/-- `TaskSubmitResult`, less the texts only the presenters read. -/
structure TaskSubmitResult where
  upstreamTaskId : String := ""
  quota : Nat := 0
  taskData : String := ""
  pluginState : String := ""
  immediate : Option Immediate := none

/-- What `ParseResponse` makes of a readable response; `adjustedQuota` is the
    quota `AdjustBillingOnSubmit` leads to, if it adjusts. -/
structure Parsed where
  upstreamTaskId : String := ""
  taskData : String := ""
  pluginState : String := ""
  immediate : Option Immediate := none
  adjustedQuota : Option Nat := none

/-- The answer to the request of one attempt. -/
inductive Reply where
  /-- `DoRequest` errors -/
  | networkError
  /-- no response at all -/
  | noResponse
  /-- a status outside 2xx, with the task id found in its body -/
  | rejected (statusCode : Int) (bodyEmpty : Bool) (hint : String)
  /-- 2xx, and `ParseResponse` errors -/
  | unreadable (statusCode : Int) (taskErr : TaskError)
  /-- 2xx, and `ParseResponse` returns nothing -/
  | empty
  | parsed (p : Parsed)

/-- The price of one attempt.  A free model costs nothing and is not billed;
    prices and ratios are not negative. -/
inductive Price where
  | free
  | charged (quota : Nat)

structure SubmitIn where
  /-- an error before anything is charged: adaptor, validation, mapping, pricing -/
  refused : Option TaskError := none
  price : Price := .free
  billing : BillingIn
  buildFails : Bool := false
  reply : Reply
  now : Int := 0

/-- Step 7 of `RelayTaskSubmit`: pre-consume unless free or there is a session. -/
def openBooks (requestId : String) (b : Books) (i : SubmitIn) : Option TaskError × Books :=
  match b, i.price with
  | .unbilled w, .charged quota => preConsumeBilling cfg requestId w quota i.billing
  | b, _ => (none, b)

def Price.final (p : Price) (adjusted : Option Nat) : Nat :=
  match p with
  | .free => 0
  | .charged q => adjusted.getD q

/-- `RelayTaskSubmit` from its request on. -/
def submitReply (i : SubmitIn) : SubmitUnconfirmedInfo × Except TaskError TaskSubmitResult :=
  match i.reply with
  | .networkError =>
    (classifySubmitFailure 0 true true i.now, .error ⟨"do_request_failed", 500, false⟩)
  | .noResponse => ({}, .error ⟨"fail_to_fetch_task", 502, true⟩)
  | .rejected code bodyEmpty hint =>
    let info := classifySubmitFailure code bodyEmpty false i.now
    (if info.unconfirmed then { info with remoteTaskIdHint := hint } else info,
      .error ⟨"fail_to_fetch_task", code, false⟩)
  | .unreadable code taskErr => (classifySubmitFailure code true true i.now, .error taskErr)
  | .empty => ({}, .error ⟨"plugin_submit_response_invalid", 502, true⟩)
  | .parsed p =>
    ({}, .ok { upstreamTaskId := p.upstreamTaskId, quota := i.price.final p.adjustedQuota,
               taskData := p.taskData, pluginState := p.pluginState,
               immediate := p.immediate })

/-- `RelayTaskSubmit`: the session, the marker it leaves, its result. -/
def relayTaskSubmit (requestId : String) (b : Books) (i : SubmitIn) :
    Books × SubmitUnconfirmedInfo × Except TaskError TaskSubmitResult :=
  match i.refused with
  | some e => (b, {}, .error e)
  | none =>
    match openBooks cfg requestId b i with
    | (some e, b) => (b, {}, .error e)
    | (none, b) =>
      if i.buildFails then (b, {}, .error ⟨"build_request_failed", 500, false⟩)
      else (b, submitReply i)

/-! ## The retry loop -/

/-- `common.RetryTimes`, the number of groups an `auto` token goes through, and
    its cross-group retry. -/
structure Settings where
  retryTimes : Int
  autoGroups : Nat := 0
  crossGroupRetry : Bool := false

/-- How one turn comes by its channel. -/
inductive Selection where
  /-- a locked channel; on a retry its context is set up again, which may fail -/
  | locked (setupFails : Bool)
  /-- `getChannel` without `auto` -/
  | plain (fails : Bool)
  /-- `getChannel` for `auto`, after passing over `skipped` groups without a
      channel -/
  | auto (skipped : Nat)

structure Attempt where
  cancelledBefore : Bool := false
  selection : Selection := .plain false
  /-- the status of a body that cannot be read: 413 or 400 -/
  bodyError : Option Int := none
  submit : SubmitIn
  cancelledAfter : Bool := false
  skipRetry : Bool := false
  suppressesRetry : Bool := false

/-- The loop's variables between two turns. -/
structure Loop where
  books : Books
  marker : SubmitUnconfirmedInfo := {}
  taskErr : Option TaskError := none
  retry : Int := 0
  group : Nat := 0

/-- What the loop hands on. -/
structure LoopEnd where
  books : Books
  marker : SubmitUnconfirmedInfo
  result : Option TaskSubmitResult := none
  taskErr : Option TaskError

inductive Turn where
  | stop (e : LoopEnd)
  | again (s : Loop)

variable (st : Settings)

/-- The retry counter and the group once a channel is selected, and whether
    `ResetRetryNextTry` was called; or the error. -/
def selectChannel (s : Loop) : Selection → Except TaskError (Int × Nat × Bool)
  | .locked setupFails =>
    if 0 < s.retry && setupFails then .error ⟨"setup_locked_channel_failed", 500, true⟩
    else .ok (s.retry, s.group, false)
  | .plain fails =>
    if fails then .error ⟨"get_channel_failed", 500, true⟩
    else .ok (s.retry, s.group, false)
  | .auto skipped =>
    if st.autoGroups ≤ s.group + skipped then .error ⟨"get_channel_failed", 500, true⟩
    else
      let retry := if 0 < skipped then 0 else s.retry
      -- the group's retries are used up: the next turn starts on the next group
      if st.crossGroupRetry && st.retryTimes ≤ retry then
        .ok (0, s.group + skipped + 1, true)
      else .ok (retry, s.group + skipped, false)

/-- One turn of the loop. -/
def attempt (st : Settings) (cfg : Config) (requestId : String) (s : Loop) (a : Attempt) : Turn :=
  if a.cancelledBefore then .stop ⟨s.books, s.marker, none, some requestCancelled⟩
  else match selectChannel st s a.selection with
  | .error e => .stop ⟨s.books, s.marker, none, some e⟩
  | .ok (retry, group, resetNextTry) =>
    match a.bodyError with
    | some code =>
      .stop ⟨s.books, s.marker, none, some ⟨"read_request_body_failed", code, true⟩⟩
    | none =>
      -- the marker of the attempt before is cleared here
      let (books, marker, result) := relayTaskSubmit cfg requestId s.books a.submit
      if a.cancelledAfter then .stop ⟨books, marker, none, some requestCancelled⟩
      else match result with
      | .ok r => .stop ⟨books, marker, some r, none⟩
      | .error e =>
        if shouldRetryTaskRelay e a.skipRetry a.suppressesRetry (st.retryTimes - retry) then
          .again { books := books, marker := marker, taskErr := some e, group := group,
                   retry := if resetNextTry then retry else retry + 1 }
        else .stop ⟨books, marker, none, some e⟩

/-- The loop; turn `n` meets `attempts n`. -/
def attemptLoop (st : Settings) (cfg : Config) (requestId : String) (attempts : Nat → Attempt) :
    Nat → Nat → Loop → Option LoopEnd
  | 0, _, _ => none
  | fuel + 1, n, s =>
    if st.retryTimes < s.retry then some ⟨s.books, s.marker, none, s.taskErr⟩
    else match attempt st cfg requestId s (attempts n) with
    | .stop e => some e
    | .again s' => attemptLoop st cfg requestId attempts fuel (n + 1) s'

/-- Turns left: a group's worth of retries for each group still to come, and the
    retries left in this one. -/
def turnsLeft (s : Loop) : Nat :=
  (st.autoGroups - s.group) * ((st.retryTimes + 1).toNat + 1) + (st.retryTimes + 1 - s.retry).toNat

/-! ## The rest of executeTaskSubmissionWith -/

/-- The billing columns of a row. -/
def Books.taskBilling (tokenId : Int) (tiered perCall : Bool) : Books → TaskBilling
  | .unbilled _ => { tokenId := tokenId, tiered := tiered, perCall := perCall }
  | .billed _ l =>
    { subscription := match l.session.funding with
        | .wallet _ => false
        | .subscription _ => true
      subscriptionId := l.session.relayInfo.subscriptionId
      tokenId := tokenId, tiered := tiered, perCall := perCall }

/-- Everything outside the loop that the submission meets. -/
structure ExecIn where
  requestId : String
  attempts : Nat → Attempt
  now : Int := 0
  tokenId : Int := 0
  tiered : Bool := false
  perCall : Bool := false
  proxyUrl : String := ""
  cancelledAtStart : Bool := false
  /-- the insert of the UNCONFIRMED row fails -/
  persistFails : Bool := false
  cancelledBeforeReserve : Bool := false
  reserve : Session.ReserveIn := {}
  cancelledBeforeInsert : Bool := false
  insertFails : Bool := false
  settle : Session.SettleIn := {}

def initTask (now : Int) : Task := { status := .notStart, progress := "0%", submitTime := now }

/-- The row of `persistUnconfirmedTask`; it holds what is pre-consumed. -/
def unconfirmedTask (i : ExecIn) (b : Books) (l : Ledger) (marker : SubmitUnconfirmedInfo) : Task :=
  { initTask i.now with
    status := .unconfirmed, progress := "0%"
    quota := l.session.preConsumedQuota
    billing := b.taskBilling i.tokenId i.tiered i.perCall
    upstreamTaskId := marker.remoteTaskIdHint
    data := { remoteTaskIdHint := marker.remoteTaskIdHint, failedAt := marker.failedAt } }

/-- The row of a submission that succeeded. -/
def submittedTask (i : ExecIn) (b : Books) (r : TaskSubmitResult) : Task :=
  let t := { initTask i.now with
    quota := (r.quota : Int)
    billing := b.taskBilling i.tokenId i.tiered i.perCall
    upstreamTaskId := r.upstreamTaskId
    data := { body := r.taskData }
    pluginState := r.pluginState }
  match r.immediate with
  | none => t
  | some m =>
    { t with
      status := m.status, progress := m.progress
      finishTime := if m.status.terminal then i.now else 0
      failReason := if m.status = .failure then m.reason else ""
      resultUrl := if m.url ≠ "" then m.url
        else if m.status = .success then i.proxyUrl else "" }

/-- How `executeTaskSubmissionWith` ends: the row stored for the submission, the
    session (after the deferred `Refund`, if it ran) and the error returned. -/
structure Outcome where
  row : Option Task := none
  books : Books
  taskErr : Option TaskError

/-- The deferred `Refund`. -/
def Books.refund (cfg : Config) : Books → Books
  | .unbilled w => .unbilled w
  | .billed before l => .billed before (l.step cfg .refund)

def giveUp (b : Books) (e : TaskError) : Outcome :=
  { books := b.refund cfg, taskErr := some e }

/-- `relayInfo.Billing.Reserve`, if there is a session -/
def Books.reserve (cfg : Config) (b : Books) (quota : Int) (i : Session.ReserveIn) : Bool × Books :=
  match b with
  | .unbilled w => (true, .unbilled w)
  | .billed before l =>
    ((l.session.reserve cfg l.stores quota i).1.isOk,
      .billed before (l.step cfg (.reserve quota i)))

/-- `SettleBilling`.  Without a session the model was free, so there is no
    difference left for `PostConsumeQuota`. -/
def Books.settle (cfg : Config) (b : Books) (quota : Int) (i : Session.SettleIn) : Bool × Books :=
  match b with
  | .unbilled w => (true, .unbilled w)
  | .billed before l =>
    ((l.session.settle cfg l.stores quota i).1.isOk,
      .billed before (l.step cfg (.settle quota i)))

/-- From the end of the loop with an error: an unconfirmed result is kept as a
    row, everything else is given up. -/
def finishFailed (i : ExecIn) (e : LoopEnd) (err : TaskError) : Outcome :=
  match e.books with
  | .unbilled w => giveUp cfg (.unbilled w) err
  | .billed before l =>
    if e.marker.unconfirmed && !i.persistFails then
      { row := some (unconfirmedTask i e.books l e.marker), books := e.books,
        taskErr := some err }
    else giveUp cfg (.billed before l) err

/-- From a successful submission on. -/
def finishSubmitted (i : ExecIn) (b : Books) (r : TaskSubmitResult) : Outcome :=
  if i.cancelledBeforeReserve then giveUp cfg b requestCancelled
  else
    let (reserved, b) := b.reserve cfg r.quota i.reserve
    if !reserved then giveUp cfg b ⟨"insufficient_user_quota", 403, true⟩
    else if i.cancelledBeforeInsert then giveUp cfg b requestCancelled
    else if i.insertFails then giveUp cfg b ⟨"task_insert_failed", 500, true⟩
    else
      let row := submittedTask i b r
      let (settled, b) := b.settle cfg r.quota i.settle
      { row := some row, books := b,
        taskErr := if settled then none
          else some ⟨"task_billing_settlement_failed", 500, true⟩ }

/-- The loop of `executeTaskSubmissionWith`. -/
def submitLoop (cfg : Config) (w : Stores) (i : ExecIn) : Option LoopEnd :=
  attemptLoop st cfg i.requestId i.attempts (turnsLeft st { books := .unbilled w } + 1) 0
    { books := .unbilled w }

/-- `executeTaskSubmissionWith(c, relayInfo, RelayTaskSubmit)` -/
def executeTaskSubmissionWith (cfg : Config) (w : Stores) (i : ExecIn) : Option Outcome :=
  if i.cancelledAtStart then some (giveUp cfg (.unbilled w) requestCancelled)
  else (submitLoop st cfg w i).map fun e =>
    match e.taskErr, e.result with
    | some err, _ => finishFailed cfg i e err
    | none, none => giveUp cfg e.books ⟨"task_submit_failed", 500, true⟩
    | none, some r => finishSubmitted cfg i e.books r

/-! ## The loop ends -/

theorem selectChannel_ok {st : Settings} {s : Loop} {sel : Selection} {retry : Int}
    {group : Nat} {reset : Bool} (h : selectChannel st s sel = .ok (retry, group, reset)) :
    (retry = s.retry ∧ group = s.group ∧ reset = false) ∨
    (retry = 0 ∧ s.group < group ∧ group ≤ st.autoGroups) := by
  cases sel with
  | locked setupFails | plain fails =>
    simp only [selectChannel] at h
    split at h
    · cases h
    · cases h
      exact .inl ⟨rfl, rfl, rfl⟩
  | auto skipped =>
    simp only [selectChannel] at h
    by_cases hin : st.autoGroups ≤ s.group + skipped
    · rw [if_pos hin] at h
      cases h
    rw [if_neg hin] at h
    by_cases hs : 0 < skipped
    · rw [if_pos hs] at h
      split at h
      · cases h
        exact .inr ⟨rfl, by omega, by omega⟩
      · cases h
        exact .inr ⟨rfl, by omega, by omega⟩
    rw [if_neg hs] at h
    split at h
    · cases h
      exact .inr ⟨rfl, by omega, by omega⟩
    · cases h
      exact .inl ⟨rfl, by omega, rfl⟩

/-- **One turn, by outcome.**  It stops before its submission; it stops with an
    error or with a result of it; or it goes on. -/
theorem attempt_cases (cfg : Config) (rid : String) (s : Loop) (a : Attempt) :
    (∃ err, attempt st cfg rid s a = .stop ⟨s.books, s.marker, none, some err⟩) ∨
    ∃ b m res, relayTaskSubmit cfg rid s.books a.submit = (b, m, res) ∧
      ((∃ err, attempt st cfg rid s a = .stop ⟨b, m, none, some err⟩) ∨
      (∃ r, res = .ok r ∧ attempt st cfg rid s a = .stop ⟨b, m, some r, none⟩) ∨
      (∃ err retry group reset, res = .error err ∧
        selectChannel st s a.selection = .ok (retry, group, reset) ∧ 0 < st.retryTimes - retry ∧
        attempt st cfg rid s a =
          .again { books := b, marker := m, taskErr := some err, group := group,
                   retry := if reset then retry else retry + 1 })) := by
  unfold attempt
  cases hb : a.cancelledBefore with
  | true => exact .inl ⟨_, rfl⟩
  | false =>
  cases hsel : selectChannel st s a.selection with
  | error e => exact .inl ⟨_, rfl⟩
  | ok out =>
  obtain ⟨retry, group, reset⟩ := out
  cases hbody : a.bodyError with
  | some code => exact .inl ⟨_, rfl⟩
  | none =>
  rcases hsub : relayTaskSubmit cfg rid s.books a.submit with ⟨b, m, res⟩
  refine .inr ⟨b, m, res, rfl, ?_⟩
  cases hc : a.cancelledAfter with
  | true => exact .inl ⟨_, rfl⟩
  | false =>
  simp only [Bool.false_eq_true, if_false]
  cases res with
  | ok r => exact .inr (.inl ⟨r, rfl, rfl⟩)
  | error e =>
    by_cases hretry : shouldRetryTaskRelay e a.skipRetry a.suppressesRetry
        (st.retryTimes - retry) = true
    · refine .inr (.inr ⟨e, retry, group, reset, rfl, rfl, retry_left hretry, ?_⟩)
      simp only [hretry, if_true]
    refine .inl ⟨e, ?_⟩
    simp only [hretry]
    rfl

theorem turnsLeft_again {st : Settings} {s : Loop} {sel : Selection} {retry : Int}
    {group : Nat} {reset : Bool} (h : selectChannel st s sel = .ok (retry, group, reset))
    (hleft : 0 < st.retryTimes - retry) (b : Books) (m : SubmitUnconfirmedInfo)
    (e : Option TaskError) :
    turnsLeft st { books := b, marker := m, taskErr := e, group := group,
                   retry := if reset then retry else retry + 1 } < turnsLeft st s := by
  simp only [turnsLeft]
  obtain ⟨rfl, rfl, rfl⟩ | ⟨rfl, hlt, hle⟩ := selectChannel_ok h
  · simp only [Bool.false_eq_true, if_false]
    omega
  have hgroups : (st.autoGroups - group + 1) * ((st.retryTimes + 1).toNat + 1) ≤
      (st.autoGroups - s.group) * ((st.retryTimes + 1).toNat + 1) := by
    apply Nat.mul_le_mul_right
    omega
  rw [Nat.add_mul, Nat.one_mul] at hgroups
  omega

theorem attemptLoop_isSome (cfg : Config) (rid : String)
    (attempts : Nat → Attempt) (fuel n : Nat) (s : Loop) (h : turnsLeft st s < fuel) :
    (attemptLoop st cfg rid attempts fuel n s).isSome := by
  induction fuel generalizing n s with
  | zero => omega
  | succ fuel ih =>
    rw [attemptLoop]
    split
    · rfl
    obtain ⟨e, ha⟩ | ⟨b, m, res, -, ⟨e, ha⟩ | ⟨r, -, ha⟩ |
        ⟨e, retry, group, reset, -, hsel, hleft, ha⟩⟩ :=
      attempt_cases st cfg rid s (attempts n)
    · rw [ha]
      rfl
    · rw [ha]
      rfl
    · rw [ha]
      rfl
    rw [ha]
    have hlt := turnsLeft_again hsel hleft b m (some e)
    exact ih (n + 1) _ (by omega)

/-! ## The books along the loop -/

/-- The books between two turns, against the stores `w₀` before the submission:
    no session and nothing spent, or an open session that holds exactly what it
    has pre-consumed. -/
def Books.Ready (w₀ : Stores) : Books → Prop
  | .unbilled w => w.wallet = w₀.wallet ∧ w.subs = w₀.subs
  | .billed before l => l.Inv before ∧ l.session.settled = false ∧
      l.session.refunded = false ∧ l.stuck = 0 ∧
      l.session.tokenConsumed = l.session.preConsumedQuota ∧
      before = spentAfterReset w₀ l.session.funding

theorem preConsumeBilling_ready {w₀ w : Stores} {rid : String}
    (hw : w.wallet = w₀.wallet) (hs : w.subs = w₀.subs)
    (hfresh : w₀.subs.records rid = none) (quota : Nat) (i : BillingIn) :
    (preConsumeBilling cfg rid w quota i).2.Ready w₀ ∧
    ((preConsumeBilling cfg rid w quota i).1 = none →
      ∃ before l, (preConsumeBilling cfg rid w quota i).2 = .billed before l) := by
  unfold preConsumeBilling
  cases hc : i.clamped with
  | true => exact ⟨⟨hw, hs⟩, fun h => by cases h⟩
  | false =>
  have hrid : w.subs.records rid = none := by
    rw [hs]
    exact hfresh
  have hopen := newBillingSession_opens cfg w { i.info with forcePreConsume := true }
    i.preference (Int.natCast_nonneg quota) { i.opening with requestId := rid }
  rcases hopen with ⟨e, w', he, h1, h2⟩ | ⟨s', w', -, -, -, -, hok, -⟩
  · rw [he]
    exact ⟨⟨h1.trans hw, h2.trans hs⟩, fun h => by cases h⟩
  obtain ⟨hinv, hset, href, htok⟩ :=
    newBillingSession_ledger (Int.natCast_nonneg quota) hrid hok
  have hsame : spentAfterReset w s'.funding = spentAfterReset w₀ s'.funding := by
    cases s'.funding with
    | wallet c => simp only [spentAfterReset, hw]
    | subscription sub => simp only [spentAfterReset, hs]
  rw [hok]
  exact ⟨⟨hinv, hset, href, rfl, htok, hsame⟩, fun _ => ⟨_, _, rfl⟩⟩

theorem relayTaskSubmit_ready {w₀ : Stores} {rid : String}
    (hfresh : w₀.subs.records rid = none) {b : Books} (hb : b.Ready w₀) (i : SubmitIn) :
    (relayTaskSubmit cfg rid b i).1.Ready w₀ ∧
    (∀ r w, (relayTaskSubmit cfg rid b i).2.2 = .ok r →
      (relayTaskSubmit cfg rid b i).1 = .unbilled w → r.quota = 0) := by
  have hopen : (openBooks cfg rid b i).2.Ready w₀ ∧
      (∀ w, (openBooks cfg rid b i).1 = none → (openBooks cfg rid b i).2 = .unbilled w →
        i.price = .free) := by
    cases b with
    | billed before l =>
      refine ⟨hb, fun w _ h => ?_⟩
      cases h
    | unbilled w =>
      cases hp : i.price with
      | free =>
        simp only [openBooks, hp]
        exact ⟨hb, fun _ _ _ => trivial⟩
      | charged quota =>
        simp only [openBooks, hp]
        obtain ⟨hready, hbilled⟩ :=
          preConsumeBilling_ready cfg hb.1 hb.2 hfresh quota i.billing
        refine ⟨hready, fun v hnone hun => ?_⟩
        obtain ⟨before, l, hl⟩ := hbilled hnone
        rw [hl] at hun
        cases hun
  unfold relayTaskSubmit
  cases hr : i.refused with
  | some e => exact ⟨hb, fun r w h => by cases h⟩
  | none =>
  rcases ho : openBooks cfg rid b i with ⟨err, b'⟩
  rw [ho] at hopen
  cases err with
  | some e => exact ⟨hopen.1, fun r w h => by cases h⟩
  | none =>
  simp only
  split
  · exact ⟨hopen.1, fun r w h => by cases h⟩
  refine ⟨hopen.1, fun r w h hun => ?_⟩
  have hfree := hopen.2 w rfl hun
  unfold submitReply at h
  split at h
  all_goals first | cases h; done | skip
  cases h
  simp only [hfree, Price.final]

def LoopEnd.Ready (w₀ : Stores) (e : LoopEnd) : Prop :=
  e.books.Ready w₀ ∧ ∀ r w, e.result = some r → e.books = .unbilled w → r.quota = 0

/-- **The loop** keeps the books ready. -/
theorem attemptLoop_ready (cfg : Config) {w₀ : Stores} {rid : String}
    (hfresh : w₀.subs.records rid = none) (attempts : Nat → Attempt) {fuel n : Nat} {s : Loop}
    (hs : s.books.Ready w₀) {e : LoopEnd}
    (h : attemptLoop st cfg rid attempts fuel n s = some e) : e.Ready w₀ := by
  induction fuel generalizing n s with
  | zero => cases h
  | succ fuel ih =>
    rw [attemptLoop] at h
    split at h
    · cases h
      exact ⟨hs, fun r w hr => by cases hr⟩
    obtain ⟨hready, hfree⟩ := relayTaskSubmit_ready cfg hfresh hs (attempts n).submit
    rcases attempt_cases st cfg rid s (attempts n) with ⟨err, ha⟩ | ⟨b, m, res, hsub, hcases⟩
    · rw [ha] at h
      cases h
      exact ⟨hs, fun r w hr => by cases hr⟩
    rw [hsub] at hready hfree
    rcases hcases with ⟨err, ha⟩ | ⟨r, hres, ha⟩ | ⟨err, retry, group, reset, -, -, -, ha⟩
    · rw [ha] at h
      cases h
      exact ⟨hready, fun r w hr => by cases hr⟩
    · rw [ha] at h
      cases h
      refine ⟨hready, fun r' w hr hun => ?_⟩
      cases hr
      exact hfree r w hres hun
    · rw [ha] at h
      exact ih hready h

/-! ## The end of a submission -/

def Books.runJob (cfg : Config) (b : Books) (j : JobIn) : Books :=
  match b with
  | .unbilled w => .unbilled w
  | .billed before l => .billed before (l.step cfg (.runJob j))

/-- The refund closure, where one is queued, goes through: every funding part of
    it succeeds, and a retried subscription refund does not repeat a decrement
    it has committed. -/
def Books.RefundGoesThrough (b : Books) (j : JobIn) : Prop :=
  match b with
  | .unbilled _ => True
  | .billed _ l => l.Allowed (.runJob j) ∧
      (l.job.isSome → (l.step cfg (.runJob j)).refundApplied = true)

/-- `Reserve` to `quota` fails on these books, and so does its compensation. -/
def Books.CompensationRefused (cfg : Config) (b : Books) (quota : Int)
    (i : Session.ReserveIn) : Prop :=
  match b with
  | .unbilled _ => False
  | .billed _ l => l.CompensationRefused cfg (.reserve quota i)

def Books.preConsumed : Books → Int
  | .unbilled _ => 0
  | .billed _ l => l.session.preConsumedQuota

def Books.refundQueued : Books → Bool
  | .unbilled _ => false
  | .billed _ l => l.job.isSome

/-- The two ways a submission ends. -/
def Outcome.AllOrNothing (out : Outcome) : Prop :=
  (∃ row, out.row = some row ∧ out.books.refundQueued = false ∧
    (out.books.held = row.quota ∨
      out.taskErr = some ⟨"task_billing_settlement_failed", 500, true⟩ ∧
        out.books.held = out.books.preConsumed)) ∨
  (out.row = none ∧
    ∀ j, out.books.RefundGoesThrough cfg j → (out.books.runJob cfg j).held = 0)

section End

variable {cfg : Config} {w₀ : Stores}

/-- The books of an open session that holds what it has pre-consumed, as the
    steps after the loop find them. -/
def Books.Open : Books → Prop
  | .unbilled _ => True
  | .billed before l => l.Inv before ∧ l.session.settled = false ∧
      l.session.refunded = false ∧ l.stuck = 0 ∧
      l.session.tokenConsumed = l.session.preConsumedQuota

theorem Books.Ready.toOpen {b : Books} (h : b.Ready w₀) : b.Open := by
  cases b with
  | unbilled w => trivial
  | billed before l =>
    obtain ⟨h1, h2, h3, h4, h5, -⟩ := h
    exact ⟨h1, h2, h3, h4, h5⟩

theorem Books.Open.held {b : Books} (h : b.Open) :
    b.held = b.preConsumed ∧ b.refundQueued = false := by
  cases b with
  | unbilled w => exact ⟨rfl, rfl⟩
  | billed before l =>
    obtain ⟨hinv, hset, href, hst, -⟩ := h
    have htaken := hinv.law.whileOpen hset href
    rw [hst, add_zero] at htaken
    refine ⟨htaken, ?_⟩
    simp only [Books.refundQueued, (hinv.of_open href).1]
    rfl

/-- **The deferred refund.**  Once its closure has gone through, an open session
    holds nothing. -/
theorem Books.Open.refund {b : Books} (h : b.Open) (j : JobIn)
    (hj : (b.refund cfg).RefundGoesThrough cfg j) : ((b.refund cfg).runJob cfg j).held = 0 := by
  cases b with
  | unbilled w => rfl
  | billed before l =>
  obtain ⟨hinv, hset, href, hst, htok⟩ := h
  obtain ⟨hal, happ⟩ := hj
  have hrefund : (l.step cfg .refund).Inv before := hinv.refund
  have hrun : ((l.step cfg .refund).step cfg (.runJob j)).Inv before := hrefund.runJob j hal
  have hpre := hinv.pre_nonneg
  show ((l.step cfg .refund).step cfg (.runJob j)).taken before = 0
  by_cases hno : l.session.needsRefund = true
  · -- the closure is queued, and it is all given back
    have hstep : l.step cfg .refund = { l with
        session := { l.session with refunded := true }
        job := some { funding := l.session.funding,
                      isPlayground := l.session.relayInfo.isPlayground,
                      tokenConsumed := l.session.tokenConsumed,
                      extraReserved := l.session.extraReserved,
                      subscriptionId := l.session.relayInfo.subscriptionId } } := by
      simp [Ledger.step, Session.refund, hset, href, hno]
    have hqueued : (l.step cfg .refund).job.isSome := by
      rw [hstep]
      rfl
    rw [hrun.law.whenRefunded (happ hqueued)]
    have hstuck : ((l.step cfg .refund).step cfg (.runJob j)).stuck = 0 := by
      rw [hstep]
      exact hst
    unfold Ledger.unrefunded
    split
    · rfl
    · exact hstuck
  -- nothing was charged
  have hstep : l.step cfg .refund = l := by
    simp [Ledger.step, Session.refund, hno]
  have hjob := (hinv.of_open href).1
  have hsame : (l.step cfg .refund).step cfg (.runJob j) = l := by
    rw [hstep]
    simp [Ledger.step, hjob]
  have hzero : l.session.preConsumedQuota = 0 := by
    have hfs := hinv.fundingSettled_of_open hset
    simp only [Session.needsRefund, hset, href, hfs, Bool.or_self, Bool.false_eq_true,
      if_false] at hno
    by_cases hpos : 0 < l.session.tokenConsumed
    · simp [hpos] at hno
    · omega
  rw [hsame, hinv.law.whileOpen hset href, hst, hzero]
  rfl

theorem giveUp_allOrNothing {b : Books} (h : b.Open) (e : TaskError) :
    (giveUp cfg b e).AllOrNothing cfg :=
  .inr ⟨rfl, fun j hj => h.refund j hj⟩

theorem Books.Open.reserve {b : Books} (h : b.Open) (quota : Int) (i : Session.ReserveIn)
    (hc : ¬ b.CompensationRefused cfg quota i) : (b.reserve cfg quota i).2.Open := by
  cases b with
  | unbilled w => trivial
  | billed before l =>
  obtain ⟨hinv, hset, href, hst, htok⟩ := h
  have hstuck : (l.step cfg (.reserve quota i)).stuck = 0 :=
    Ledger.step_stuck hst (.reserve quota i) hc
  have hflags : (l.step cfg (.reserve quota i)).session.settled = false ∧
      (l.step cfg (.reserve quota i)).session.refunded = false ∧
      (l.step cfg (.reserve quota i)).session.tokenConsumed =
        (l.step cfg (.reserve quota i)).session.preConsumedQuota := by
    simp only [Ledger.step]
    rcases Session.reserve_cases cfg l.stores l.session quota i with hno | ⟨e, he⟩ |
      ⟨-, -, -, -, w₁, -, -, -, ⟨e, e', he, -⟩ | hok⟩
    · rw [hno]
      exact ⟨hset, href, htok⟩
    · rw [he]
      exact ⟨hset, href, htok⟩
    · rw [he]
      exact ⟨hset, href, htok⟩
    rw [hok]
    refine ⟨?_, ?_, ?_⟩
    · simpa [Session.afterReserve] using hset
    · simpa [Session.afterReserve] using href
    simp only [Session.afterReserve, Session.syncRelayInfo_tokenConsumed,
      Session.syncRelayInfo_preConsumedQuota]
    omega
  exact ⟨hinv.reserve quota i, hflags.1, hflags.2.1, hstuck, hflags.2.2⟩

theorem settle_open (cfg : Config) {before : Int} {l : Ledger} (h : (Books.billed before l).Open)
    {quota : Int} (hq : 0 ≤ quota) (i : Session.SettleIn) :
    (l.step cfg (.settle quota i)).job = none ∧
    ((l.step cfg (.settle quota i)).taken before = quota ∨
      (l.session.settle cfg l.stores quota i).1.isOk = false ∧
        (l.step cfg (.settle quota i)).taken before =
          (l.step cfg (.settle quota i)).session.preConsumedQuota) := by
  obtain ⟨hinv, hset, href, hst, -⟩ := h
  have hal : l.Allowed (.settle quota i) := by
    refine ⟨href, ?_⟩
    split
    · trivial
    · exact hq
  have hinv' : (l.step cfg (.settle quota i)).Inv before := hinv.settle quota i hal
  have hjob : (l.step cfg (.settle quota i)).job = none := (hinv.of_open href).1
  have hstuck : (l.step cfg (.settle quota i)).stuck = 0 := hst
  refine ⟨hjob, ?_⟩
  have hfs := hinv.fundingSettled_of_open hset
  by_cases hs' : (l.session.settle cfg l.stores quota i).2.1.settled = true
  · -- settled, at this quota
    left
    have hat : (l.step cfg (.settle quota i)).settledAt = some quota := by
      simp only [Ledger.step, hs', hset, Bool.not_false, Bool.and_self, if_true]
    obtain ⟨actual, h1, h2⟩ := hinv'.law.whenSettled hs'
    rw [hat] at h1
    cases h1
    rw [h2, hstuck, add_zero]
  right
  rcases Session.settle_cases cfg l.stores hset hfs quota i with ⟨e, he⟩ | ⟨-, hok⟩ |
    ⟨r, w₁, t, -, hok⟩
  · have hsame : (l.step cfg (.settle quota i)).session = l.session := by
      simp only [Ledger.step, he]
    refine ⟨by rw [he]; rfl, ?_⟩
    have hopen := hinv'.law.whileOpen (by rw [hsame]; exact hset) (by rw [hsame]; exact href)
    rw [hopen, hstuck, add_zero]
  · rw [hok] at hs'
    exact absurd rfl hs'
  · rw [hok] at hs'
    exact absurd rfl hs'

theorem finishSubmitted_allOrNothing (i : ExecIn) {b : Books} (h : b.Open)
    {r : TaskSubmitResult} (hfree : ∀ w, b = .unbilled w → r.quota = 0)
    (hc : ¬ b.CompensationRefused cfg r.quota i.reserve) :
    (finishSubmitted cfg i b r).AllOrNothing cfg := by
  have hres := h.reserve r.quota i.reserve hc
  unfold finishSubmitted
  by_cases hcr : i.cancelledBeforeReserve = true
  · rw [if_pos hcr]
    exact giveUp_allOrNothing h _
  rw [if_neg hcr]
  simp only
  by_cases hok : (!(b.reserve cfg r.quota i.reserve).1) = true
  · rw [if_pos hok]
    exact giveUp_allOrNothing hres _
  rw [if_neg hok]
  by_cases hci : i.cancelledBeforeInsert = true
  · rw [if_pos hci]
    exact giveUp_allOrNothing hres _
  rw [if_neg hci]
  by_cases hins : i.insertFails = true
  · rw [if_pos hins]
    exact giveUp_allOrNothing hres _
  rw [if_neg hins]
  have hquota : ∀ b', (submittedTask i b' r).quota = r.quota := by
    intro b'
    unfold submittedTask
    split <;> rfl
  refine .inl ⟨_, rfl, ?_⟩
  rw [hquota]
  cases b with
  | unbilled w =>
    refine ⟨rfl, .inl ?_⟩
    rw [hfree w rfl]
    rfl
  | billed before l =>
    obtain ⟨hjob, hheld⟩ := settle_open cfg hres (Int.natCast_nonneg r.quota) i.settle
    refine ⟨?_, ?_⟩
    · simp only [Books.reserve, Books.settle, Books.refundQueued, hjob]
      rfl
    rcases hheld with heq | ⟨herr, hpre⟩
    · exact .inl heq
    · refine .inr ⟨?_, hpre⟩
      simp only [Books.reserve, Books.settle, herr, Bool.false_eq_true, if_false]

theorem finishFailed_allOrNothing (i : ExecIn) {e : LoopEnd} (h : e.books.Open)
    (err : TaskError) : (finishFailed cfg i e err).AllOrNothing cfg := by
  unfold finishFailed
  cases hb : e.books with
  | unbilled w => exact giveUp_allOrNothing (b := .unbilled w) trivial err
  | billed before l =>
    rw [hb] at h
    simp only
    split
    · refine .inl ⟨_, rfl, h.held.2, .inl ?_⟩
      exact h.held.1
    · exact giveUp_allOrNothing h err

end End

/-- **A task submission stores its row or gives everything back.**  For every
    sequence of attempts, every cancellation and every failing step it returns,
    and unless the reserve after a success was refused together with its own
    compensation: a row is stored and the session holds the row's quota (what
    was pre-consumed, if the settlement failed), or no row is stored and nothing
    is held once the refund has gone through.  A success that is not cancelled
    and whose reserve and insert go through is stored. -/
theorem submission_all_or_nothing (st : Settings) (cfg : Config) (w : Stores) (i : ExecIn)
    (hfresh : w.subs.records i.requestId = none) :
    ∃ out, executeTaskSubmissionWith st cfg w i = some out ∧
      (out.AllOrNothing cfg ∨ ∃ e r, submitLoop st cfg w i = some e ∧ e.result = some r ∧
        e.books.CompensationRefused cfg r.quota i.reserve) ∧
      (i.cancelledAtStart = false → ∀ e r, submitLoop st cfg w i = some e → e.taskErr = none →
        e.result = some r → i.cancelledBeforeReserve = false →
        (e.books.reserve cfg r.quota i.reserve).1 = true → i.cancelledBeforeInsert = false →
        i.insertFails = false →
        out.row = some (submittedTask i (e.books.reserve cfg r.quota i.reserve).2 r)) := by
  have hstart : (Books.unbilled w).Ready w := ⟨rfl, rfl⟩
  unfold executeTaskSubmissionWith
  by_cases hc : i.cancelledAtStart = true
  · rw [if_pos hc]
    refine ⟨_, rfl, .inl (giveUp_allOrNothing hstart.toOpen _), fun hnc => ?_⟩
    rw [hc] at hnc
    cases hnc
  rw [if_neg hc]
  obtain ⟨e, he⟩ := Option.isSome_iff_exists.1 (attemptLoop_isSome st cfg i.requestId i.attempts
    (turnsLeft st { books := .unbilled w } + 1) 0 { books := .unbilled w } (Nat.lt_succ_self _))
  have hloop : submitLoop st cfg w i = some e := he
  obtain ⟨hready, hfree⟩ := attemptLoop_ready st cfg hfresh i.attempts hstart he
  have hopen := hready.toOpen
  rw [hloop, Option.map_some]
  refine ⟨_, rfl, ?_, fun _ e' r he' hte hr hcr hres hci hins => ?_⟩
  · cases hte : e.taskErr with
    | some err => exact .inl (finishFailed_allOrNothing i hopen err)
    | none =>
      cases hr : e.result with
      | none => exact .inl (giveUp_allOrNothing hopen _)
      | some r =>
        by_cases hstuck : e.books.CompensationRefused cfg r.quota i.reserve
        · exact .inr ⟨e, r, rfl, hr, hstuck⟩
        · exact .inl (finishSubmitted_allOrNothing i hopen (fun v => hfree r v hr) hstuck)
  cases he'
  simp only [hte, hr, finishSubmitted, hcr, hres, hci, hins, Bool.false_eq_true, if_false,
    Bool.not_true]

def funded : Stores :=
  { wallet := 1000, token := 1000, subs := { subs := fun _ => none, records := fun _ => none } }

def direct : Config := { batchUpdateEnabled := false, trustQuota := 0 }

/-- An attempt priced at 100 that the upstream accepts, with the final price 60. -/
def accepted : Attempt :=
  { submit :=
      { price := .charged 100
        billing :=
          { opening :=
              { requestId := "", userId := 1, contextQuota := some 1000,
                getUserQuota := .ok 1000, hasActiveSubscription := .ok false,
                allowWalletOverflow := .ok false, wallet := {}, subscription := {} } }
        reply := .parsed { upstreamTaskId := "up", adjustedQuota := some 60 } } }

def acceptedOnce : ExecIn := { requestId := "req", attempts := fun _ => accepted }

theorem submission_all_or_nothing_acceptedOnce :
    ∃ out, executeTaskSubmissionWith { retryTimes := 0 } direct funded acceptedOnce = some out ∧
      ∃ row, out.row = some row ∧ row.quota = 60 := by
  obtain ⟨out, hout, -, hstored⟩ :=
    submission_all_or_nothing { retryTimes := 0 } direct funded acceptedOnce rfl
  have hrow := hstored rfl _ _ rfl rfl rfl rfl rfl rfl rfl
  exact ⟨out, hout, _, hrow, rfl⟩

def cancelledOnReturn : ExecIn :=
  { requestId := "req", attempts := fun _ => { accepted with cancelledAfter := true } }

def settlementFails : ExecIn := { acceptedOnce with settle := { fundingFail := true } }

/-- A submission that succeeded upstream ends without a row when the request is
    cancelled; and one whose settlement fails is stored at 60 with 100 held. -/
theorem submission_cancelled_or_unsettled :
    (relayTaskSubmit direct "req" (.unbilled funded) accepted.submit).2.2.isOk = true ∧
    ((executeTaskSubmissionWith { retryTimes := 0 } direct funded cancelledOnReturn).map
      fun out => (out.row, out.books.refundQueued)) = some (none, true) ∧
    ((executeTaskSubmissionWith { retryTimes := 0 } direct funded settlementFails).map
      fun out => (out.row.map Task.quota, out.books.held)) = some (some 60, 100) :=
  ⟨rfl, rfl, rfl⟩

end NewApi.AsyncTask.Submission
