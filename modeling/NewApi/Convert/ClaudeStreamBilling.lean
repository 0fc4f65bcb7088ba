/-
  NewApi.Convert.ClaudeStreamBilling

  What a Claude stream is billed by (`FormatClaudeResponseInfo` and
  `FinalizeClaudeStreamBillingUsage`, `claude_messages/to_oai_chat_resp.go`): the usage that is
  shown is merged event by event, and a snapshot for billing goes along, either received
  on the wire or made from what is shown.
-/

import NewApi.Convert.Usage

namespace NewApi.ClaudeStreamBilling

open NewApi.Convert

/-! ## Events -/

/-- `dto.ClaudeUsage`, with its sidecar. -/
structure WireUsage extends ClaudeUsage where
  billingUsage : Option BillingUsage := none

structure ClaudeMessage where
  id : String := ""
  model : String := ""
  usage : Option WireUsage := none

structure ClaudeDelta where
  text : Option String := none
  thinking : Option String := none

/-- `dto.ClaudeResponse`, with the fields that are read. -/
structure ClaudeResponse where
  type : String
  message : Option ClaudeMessage := none
  delta : Option ClaudeDelta := none
  usage : Option WireUsage := none

def getCacheCreation5mTokens (u : ClaudeUsage) : Int :=
  (u.cacheCreation.map ClaudeCacheCreationUsage.ephemeral5mInputTokens).getD 0

def getCacheCreation1hTokens (u : ClaudeUsage) : Int :=
  (u.cacheCreation.map ClaudeCacheCreationUsage.ephemeral1hInputTokens).getD 0

/-- `ClaudeResponseInfo` -/
structure ClaudeResponseInfo where
  responseId : String := ""
  model : String := ""
  responseText : String := ""
  usage : Usage := {}
  done : Bool := false
  billingUsageSynthesized : Bool := false

/-! ## Snapshots -/

def normalizeCacheCreationSplit (totalTokens tokens5m tokens1h : Int) : Int × Int :=
  (tokens5m + max (totalTokens - tokens5m - tokens1h) 0, tokens1h)

def newClaudeMessagesBillingUsage (u : ClaudeUsage) : Option BillingUsage :=
  if u.hasTokens then
    some { source := sourceClaudeMessages, semantic := semanticAnthropic, claudeUsage := some u }
  else none

def claudeBillingUsageFromSemanticUsage (u : Usage) : Option BillingUsage :=
  let (cacheCreation5m, cacheCreation1h) :=
    normalizeCacheCreationSplit u.promptTokensDetails.cachedCreationTokens
      u.claudeCacheCreation5mTokens u.claudeCacheCreation1hTokens
  newClaudeMessagesBillingUsage
    { inputTokens := u.promptTokens
      cacheCreationInputTokens := u.promptTokensDetails.cachedCreationTokens
      cacheReadInputTokens := u.promptTokensDetails.cachedTokens
      outputTokens := u.completionTokens
      cacheCreation :=
        if 0 < cacheCreation5m ∨ 0 < cacheCreation1h then
          some ⟨cacheCreation5m, cacheCreation1h⟩
        else none }

def ClaudeResponseInfo.setBilling (info : ClaudeResponseInfo) (b : Option BillingUsage)
    (synthesized : Bool) : ClaudeResponseInfo :=
  { info with
      usage := { info.usage with billingUsage := b }
      billingUsageSynthesized := synthesized }

def ClaudeResponseInfo.authoritative (info : ClaudeResponseInfo) : Bool :=
  info.usage.billingUsage.isSome && !info.billingUsageSynthesized

def updateClaudeStreamBillingUsage (claudeUsage : WireUsage) (info : ClaudeResponseInfo)
    (terminal : Bool) : ClaudeResponseInfo :=
  match claudeUsage.billingUsage with
  | some b => info.setBilling (some b) !(terminal || 0 < claudeUsage.outputTokens)
  | none =>
    if info.authoritative then info
    else
      let b := claudeBillingUsageFromSemanticUsage info.usage
      info.setBilling b b.isSome

def finalizeClaudeStreamBillingUsage (info : ClaudeResponseInfo) : ClaudeResponseInfo :=
  if info.authoritative then info
  else
    let b := (claudeBillingUsageFromSemanticUsage info.usage).map fun b =>
      if info.done then b else { b with estimated := true }
    info.setBilling b b.isSome

/-! ## The display usage -/

/-- `message_start` sets the counts. -/
def startUsage (u : WireUsage) (usage : Usage) : Usage :=
  { usage with
      promptTokens := u.inputTokens
      usageSemantic := "anthropic"
      promptTokensDetails :=
        { usage.promptTokensDetails with
            cachedTokens := u.cacheReadInputTokens
            cachedCreationTokens := u.cacheCreationInputTokens }
      claudeCacheCreation5mTokens := getCacheCreation5mTokens u.toClaudeUsage
      claudeCacheCreation1hTokens := getCacheCreation1hTokens u.toClaudeUsage
      completionTokens := u.outputTokens }

/-- `message_delta` overlays them. -/
def deltaUsage (u : WireUsage) (usage : Usage) : Usage :=
  let promptTokens := overlay usage.promptTokens u.inputTokens
  let completionTokens := overlay usage.completionTokens u.outputTokens
  { usage with
      usageSemantic := "anthropic"
      promptTokens
      promptTokensDetails :=
        { usage.promptTokensDetails with
            cachedTokens := overlay usage.promptTokensDetails.cachedTokens u.cacheReadInputTokens
            cachedCreationTokens :=
              overlay usage.promptTokensDetails.cachedCreationTokens u.cacheCreationInputTokens }
      claudeCacheCreation5mTokens :=
        overlay usage.claudeCacheCreation5mTokens (getCacheCreation5mTokens u.toClaudeUsage)
      claudeCacheCreation1hTokens :=
        overlay usage.claudeCacheCreation1hTokens (getCacheCreation1hTokens u.toClaudeUsage)
      completionTokens
      totalTokens := promptTokens + completionTokens }

/-- `FormatClaudeResponseInfo`, without what it copies to the chat response. -/
def formatClaudeResponseInfo (info : ClaudeResponseInfo) (response : ClaudeResponse) :
    ClaudeResponseInfo :=
  match response.type with
  | "message_start" =>
    match response.message with
    | none => info
    | some message =>
      let info := { info with responseId := message.id, model := message.model }
      match message.usage with
      | none => info
      | some u =>
        updateClaudeStreamBillingUsage u { info with usage := startUsage u info.usage } false
  | "content_block_delta" =>
    match response.delta with
    | none => info
    | some delta =>
      { info with
          responseText := info.responseText ++ delta.text.getD "" ++ delta.thinking.getD "" }
  | "message_delta" =>
    let info := match response.usage with
      | none => info
      | some u =>
        updateClaudeStreamBillingUsage u { info with usage := deltaUsage u info.usage } true
    { info with done := true }
  | _ => info

/-! ## A stream -/

/-- The counts that are billed. -/
inductive Counter where
  | input | cacheRead | cacheCreation | cacheCreation5m | cacheCreation1h | output

def shown (usage : Usage) : Counter → Int
  | .input => usage.promptTokens
  | .cacheRead => usage.promptTokensDetails.cachedTokens
  | .cacheCreation => usage.promptTokensDetails.cachedCreationTokens
  | .cacheCreation5m => usage.claudeCacheCreation5mTokens
  | .cacheCreation1h => usage.claudeCacheCreation1hTokens
  | .output => usage.completionTokens

def reported (u : WireUsage) : Counter → Int
  | .input => u.inputTokens
  | .cacheRead => u.cacheReadInputTokens
  | .cacheCreation => u.cacheCreationInputTokens
  | .cacheCreation5m => getCacheCreation5mTokens u.toClaudeUsage
  | .cacheCreation1h => getCacheCreation1hTokens u.toClaudeUsage
  | .output => u.outputTokens

/-- The last of the reports that is positive, or else what was there at the start. -/
def lastPositive (start : Int) (reports : List Int) : Int :=
  ((reports.filter fun n => 0 < n).getLast?).getD start

namespace ClaudeResponse

def isStart (e : ClaudeResponse) : Prop := e.type = "message_start"

instance : DecidablePred isStart := fun _ => inferInstanceAs (Decidable (_ = _))

def isDelta (e : ClaudeResponse) : Bool := e.type = "message_delta"

/-- The usage of a `message_start`. -/
def startReport (e : ClaudeResponse) : Option WireUsage := e.message.bind ClaudeMessage.usage

/-- The usage of a `message_delta`. -/
def deltaReport (e : ClaudeResponse) : Option WireUsage := if e.isDelta then e.usage else none

end ClaudeResponse

def deltaReports (events : List ClaudeResponse) : List WireUsage :=
  events.filterMap ClaudeResponse.deltaReport

/-- The sidecars of the `message_delta` events. -/
def deltaSidecars (events : List ClaudeResponse) : List BillingUsage :=
  (deltaReports events).filterMap WireUsage.billingUsage

def formatted (events : List ClaudeResponse) : ClaudeResponseInfo :=
  events.foldl formatClaudeResponseInfo {}

/-! ## One event -/

variable {info : ClaudeResponseInfo} {e : ClaudeResponse} {u : WireUsage} {b : BillingUsage}

@[simp] theorem shown_setBilling (x : Option BillingUsage) (synthesized : Bool) :
    shown (info.setBilling x synthesized).usage = shown info.usage := by
  funext k
  cases k <;> rfl

@[simp] theorem shown_update (terminal : Bool) :
    shown (updateClaudeStreamBillingUsage u info terminal).usage = shown info.usage := by
  unfold updateClaudeStreamBillingUsage
  split
  · exact shown_setBilling _ _
  split
  · rfl
  · exact shown_setBilling _ _

theorem shown_deltaUsage (usage : Usage) (k : Counter) :
    shown (deltaUsage u usage) k = overlay (shown usage k) (reported u k) := by
  cases k <;> rfl

theorem shown_startUsage (usage : Usage) (k : Counter) :
    shown (startUsage u usage) k = reported u k := by
  cases k <;> rfl

/-- The snapshot that an event after the start leaves, and whether it was made here. -/
def afterReport (info : ClaudeResponseInfo) : Option WireUsage → ClaudeResponseInfo
  | none => info
  | some u => updateClaudeStreamBillingUsage u { info with usage := deltaUsage u info.usage } true

/-- What an event after the start does. -/
theorem format_of_not_start (h : ¬ e.isStart) :
    (formatClaudeResponseInfo info e).usage = (afterReport info e.deltaReport).usage ∧
      (formatClaudeResponseInfo info e).billingUsageSynthesized =
        (afterReport info e.deltaReport).billingUsageSynthesized ∧
      (formatClaudeResponseInfo info e).done = (info.done || e.isDelta) := by
  obtain ⟨type, message, delta, usage⟩ := e
  unfold formatClaudeResponseInfo ClaudeResponse.deltaReport ClaudeResponse.isDelta
  dsimp only
  split
  · exact absurd rfl h
  · cases delta <;> simp [afterReport]
  · cases usage <;> simp [afterReport]
  rename_i hdelta
  have hne : ¬ type = "message_delta" := hdelta
  simp [afterReport, hne]

theorem shown_format (h : ¬ e.isStart) (k : Counter) :
    shown (formatClaudeResponseInfo info e).usage k =
      (e.deltaReport.toList.map fun u => reported u k).foldl overlay (shown info.usage k) := by
  rw [(format_of_not_start h).1]
  cases e.deltaReport with
  | none => rfl
  | some u => simp [afterReport, shown_deltaUsage]

def Received (b : BillingUsage) (info : ClaudeResponseInfo) : Prop :=
  info.usage.billingUsage = some b ∧ info.billingUsageSynthesized = false

theorem received_format (h : ¬ e.isStart)
    (hb : e.deltaReport.bind WireUsage.billingUsage = some b) :
    Received b (formatClaudeResponseInfo info e) := by
  obtain ⟨u, hu, hb⟩ := Option.bind_eq_some_iff.1 hb
  obtain ⟨husage, hsynthesized, -⟩ := @format_of_not_start info e h
  rw [Received, husage, hsynthesized, hu]
  simp [afterReport, updateClaudeStreamBillingUsage, hb, ClaudeResponseInfo.setBilling]

theorem Received.format (h : ¬ e.isStart)
    (hnone : e.deltaReport.bind WireUsage.billingUsage = none) (hinfo : Received b info) : Received b (formatClaudeResponseInfo info e) := by
  obtain ⟨husage, hsynthesized, -⟩ := @format_of_not_start info e h
  rw [Received, husage, hsynthesized]
  cases hu : e.deltaReport with
  | none => exact hinfo
  | some u =>
    have hwire : u.billingUsage = none := by simpa [hu] using hnone
    simp [afterReport, updateClaudeStreamBillingUsage, hwire, ClaudeResponseInfo.authoritative,
      deltaUsage, hinfo.1, hinfo.2]

/-- A snapshot made here is not taken for one received. -/
theorem authoritative_setBilling (x : Option BillingUsage) :
    (info.setBilling x x.isSome).authoritative = false := by
  cases x <;> rfl

theorem not_authoritative_format (h : ¬ e.isStart)
    (hnone : e.deltaReport.bind WireUsage.billingUsage = none)
    (hinfo : info.authoritative = false) :
    (formatClaudeResponseInfo info e).authoritative = false := by
  obtain ⟨husage, hsynthesized, -⟩ := @format_of_not_start info e h
  have hafter : (afterReport info e.deltaReport).authoritative = false := by
    cases hu : e.deltaReport with
    | none => exact hinfo
    | some u =>
      have hwire : u.billingUsage = none := by simpa [hu] using hnone
      have hstill : ({ info with usage := deltaUsage u info.usage } :
          ClaudeResponseInfo).authoritative = false := hinfo
      rw [afterReport, updateClaudeStreamBillingUsage, hwire]
      simp only [hstill, Bool.false_eq_true, if_false]
      exact authoritative_setBilling _
  rw [ClaudeResponseInfo.authoritative, husage, hsynthesized]
  exact hafter

/-! ## A run -/

variable {events : List ClaudeResponse}

theorem lastPositive_eq (start : Int) (reports : List Int) :
    reports.foldl overlay start = lastPositive start reports := by
  induction reports using List.reverseRecOn with
  | nil => rfl
  | append_singleton reports n ih =>
    rw [List.foldl_concat, ih, lastPositive, lastPositive, List.filter_append, overlay]
    by_cases hn : 0 < n <;> simp [hn]

theorem deltaReports_concat (events : List ClaudeResponse) (e : ClaudeResponse) :
    deltaReports (events ++ [e]) = deltaReports events ++ e.deltaReport.toList := by
  unfold deltaReports
  cases h : e.deltaReport <;> simp [h]

theorem deltaSidecars_concat (events : List ClaudeResponse) (e : ClaudeResponse) :
    deltaSidecars (events ++ [e]) =
      deltaSidecars events ++ (e.deltaReport.bind WireUsage.billingUsage).toList := by
  rw [deltaSidecars, deltaReports_concat, List.filterMap_append]
  cases h : e.deltaReport with
  | none => rfl
  | some u => cases hu : u.billingUsage <;> simp [hu, deltaSidecars]

section
variable (hevents : ∀ e ∈ events, ¬ e.isStart)
include hevents

theorem shown_run (k : Counter) :
    shown (events.foldl formatClaudeResponseInfo info).usage k =
      lastPositive (shown info.usage k) ((deltaReports events).map fun u => reported u k) := by
  rw [← lastPositive_eq]
  induction events using List.reverseRecOn with
  | nil => rfl
  | append_singleton events e ih =>
    rw [List.foldl_concat, shown_format (hevents e (by simp)),
      ih fun x hx => hevents x (by simp [hx]), deltaReports_concat, List.map_append, List.foldl_append]

theorem done_run :
    (events.foldl formatClaudeResponseInfo info).done =
      (info.done || events.any ClaudeResponse.isDelta) := by
  induction events generalizing info with
  | nil => simp
  | cons e events ih =>
    rw [List.foldl_cons, ih fun x hx => hevents x (List.mem_cons_of_mem _ hx),
      (format_of_not_start (hevents e List.mem_cons_self)).2.2, List.any_cons, Bool.or_assoc]

/-- The last sidecar of a `message_delta` stays. -/
theorem received_run (hb : (deltaSidecars events).getLast? = some b) :
    Received b (events.foldl formatClaudeResponseInfo info) := by
  induction events using List.reverseRecOn with
  | nil => cases hb
  | append_singleton events e ih =>
    have he : ¬ e.isStart := hevents e (by simp)
    rw [deltaSidecars_concat] at hb
    rw [List.foldl_concat]
    cases hsidecar : e.deltaReport.bind WireUsage.billingUsage with
    | none =>
      rw [hsidecar, Option.toList_none, List.append_nil] at hb
      exact (ih (fun x hx => hevents x (by simp [hx])) hb).format he hsidecar
    | some b' =>
      rw [hsidecar, Option.toList_some, List.getLast?_concat] at hb
      exact received_format he (hsidecar.trans hb)

theorem not_authoritative_run (hnone : deltaSidecars events = [])
    (hinfo : info.authoritative = false) :
    (events.foldl formatClaudeResponseInfo info).authoritative = false := by
  induction events using List.reverseRecOn with
  | nil => exact hinfo
  | append_singleton events e ih =>
    rw [deltaSidecars_concat, List.append_eq_nil_iff] at hnone
    rw [List.foldl_concat]
    exact not_authoritative_format (hevents e (by simp)) (by simpa using hnone.2)
      (ih (fun x hx => hevents x (by simp [hx])) hnone.1)

end

/-- What `message_start` leaves of a stream without a sidecar on it. -/
theorem format_start (h : e.isStart) (hnone : e.startReport.bind WireUsage.billingUsage = none) :
    (formatClaudeResponseInfo {} e).authoritative = false ∧
      (formatClaudeResponseInfo {} e).done = false ∧
      ∀ k, shown (formatClaudeResponseInfo {} e).usage k =
        (e.startReport.map fun u => reported u k).getD 0 := by
  obtain ⟨type, message, delta, usage⟩ := e
  obtain rfl : type = "message_start" := h
  unfold formatClaudeResponseInfo
  cases message with
  | none => exact ⟨rfl, rfl, fun k => by cases k <;> rfl⟩
  | some message =>
    obtain ⟨id, model, usage⟩ := message
    cases usage with
    | none => exact ⟨rfl, rfl, fun k => by cases k <;> rfl⟩
    | some u =>
      have hwire : u.billingUsage = none := hnone
      have hempty : ({ responseId := id, model, usage := startUsage u {} } :
          ClaudeResponseInfo).authoritative = false := rfl
      refine ⟨?_, ?_, fun k => (congrFun (shown_update _) k).trans (shown_startUsage _ k)⟩
      · simp only [updateClaudeStreamBillingUsage, hwire, hempty, Bool.false_eq_true, if_false]
        exact authoritative_setBilling _
      · simp only [updateClaudeStreamBillingUsage, hwire, hempty, Bool.false_eq_true, if_false]
        rfl

theorem not_estimated_new {u : ClaudeUsage} (h : newClaudeMessagesBillingUsage u = some b) :
    b.estimated = false := by
  unfold newClaudeMessagesBillingUsage at h
  split at h
  · cases h
    rfl
  · cases h

/-- What `FinalizeClaudeStreamBillingUsage` makes of a snapshot that was not received. -/
theorem finalize_made (h : info.authoritative = false) :
    (finalizeClaudeStreamBillingUsage info).usage.billingUsage =
        (claudeBillingUsageFromSemanticUsage info.usage).map
          (fun b => { b with estimated := !info.done }) ∧
      shown (finalizeClaudeStreamBillingUsage info).usage = shown info.usage := by
  rw [finalizeClaudeStreamBillingUsage, if_neg (by simp [h])]
  refine ⟨?_, shown_setBilling _ _⟩
  cases hb : claudeBillingUsageFromSemanticUsage info.usage with
  | none => rfl
  | some b =>
    have hfresh : b.estimated = false := not_estimated_new hb
    obtain ⟨source, semantic, estimated, openAI, claude, gemini⟩ := b
    obtain rfl : estimated = false := hfresh
    cases hdone : info.done <;> simp [ClaudeResponseInfo.setBilling]

def sampleStart : ClaudeResponse :=
  { type := "message_start", message := some { usage := some { inputTokens := 3 } } }

/-- A delta with a sidecar, and one without after it. -/
def sampleDeltas : List ClaudeResponse :=
  [{ type := "message_delta", usage := some { outputTokens := 5, billingUsage := some {} } },
    { type := "message_delta", usage := some { outputTokens := 7 } }]

end NewApi.ClaudeStreamBilling
