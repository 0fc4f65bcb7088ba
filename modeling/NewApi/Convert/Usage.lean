/-
  NewApi.Convert.Usage

  Usage records of the relay, the billing sidecar they carry, and the merge of
  stream snapshots (`relaykit/dto/usage_merge.go`, `relaykit/dto/billing_usage.go`).

  A later non-zero count overwrites the earlier one.  The lists of counts by
  modality do not follow that rule: `mergeGeminiTokenDetails` adds the incoming
  count to the entry of the same modality.

  The payloads of a sidecar are cloned without sidecars of their own wherever
  they are stored, so `BillingUsage` is not recursive here.
-/

import NewApi.Subscription.Store
import Mathlib.Algebra.GroupWithZero.Nat
import Mathlib.Algebra.Ring.Int.Defs
import Mathlib.Algebra.Order.BigOperators.Group.List
import Mathlib.Algebra.Order.Group.Int

namespace NewApi.Convert

open NewApi.Subscription (trimSpace)

/-! ## Records -/

structure InputTokenDetails where
  cachedTokens : Int := 0
  cachedCreationTokens : Int := 0
  cacheWriteTokens : Int := 0
  textTokens : Int := 0
  audioTokens : Int := 0
  imageTokens : Int := 0
deriving DecidableEq

structure OutputTokenDetails where
  textTokens : Int := 0
  audioTokens : Int := 0
  imageTokens : Int := 0
  reasoningTokens : Int := 0
deriving DecidableEq

/-- The `Cost` an upstream reports, as text, and whether it is a zero value. -/
structure Cost where
  text : String
  zero : Bool
deriving DecidableEq

/-- `Usage`, without its sidecar. -/
structure OpenAIUsage where
  promptTokens : Int := 0
  completionTokens : Int := 0
  totalTokens : Int := 0
  promptCacheHitTokens : Int := 0
  usageSemantic : String := ""
  usageSource : String := ""
  promptTokensDetails : InputTokenDetails := {}
  completionTokenDetails : OutputTokenDetails := {}
  inputTokens : Int := 0
  outputTokens : Int := 0
  inputTokensDetails : Option InputTokenDetails := none
  outputTokensDetails : Option OutputTokenDetails := none
  claudeCacheCreation5mTokens : Int := 0
  claudeCacheCreation1hTokens : Int := 0
  cost : Option Cost := none
deriving DecidableEq

structure ClaudeCacheCreationUsage where
  ephemeral5mInputTokens : Int := 0
  ephemeral1hInputTokens : Int := 0
deriving DecidableEq

structure ClaudeServerToolUse where
  webSearchRequests : Int := 0
  webFetchRequests : Int := 0
  codeExecutionRequests : Int := 0
  toolSearchRequests : Int := 0
deriving DecidableEq

/-- `ClaudeUsage`, without its sidecar. -/
structure ClaudeUsage where
  inputTokens : Int := 0
  cacheCreationInputTokens : Int := 0
  cacheReadInputTokens : Int := 0
  outputTokens : Int := 0
  cacheCreation : Option ClaudeCacheCreationUsage := none
  claudeCacheCreation5mTokens : Int := 0
  claudeCacheCreation1hTokens : Int := 0
  serverToolUse : Option ClaudeServerToolUse := none
deriving DecidableEq

/-- `GeminiPromptTokensDetails` -/
structure GeminiTokenDetail where
  modality : String
  tokenCount : Int
deriving DecidableEq

/-- `GeminiUsageMetadata`, without its sidecar. -/
structure GeminiUsage where
  promptTokenCount : Int := 0
  toolUsePromptTokenCount : Int := 0
  candidatesTokenCount : Int := 0
  totalTokenCount : Int := 0
  thoughtsTokenCount : Int := 0
  cachedContentTokenCount : Int := 0
  promptTokensDetails : List GeminiTokenDetail := []
  toolUsePromptTokensDetails : List GeminiTokenDetail := []
  candidatesTokensDetails : List GeminiTokenDetail := []
deriving DecidableEq

structure BillingUsage where
  source : String := ""
  semantic : String := ""
  estimated : Bool := false
  openAIUsage : Option OpenAIUsage := none
  claudeUsage : Option ClaudeUsage := none
  geminiUsageMetadata : Option GeminiUsage := none
deriving DecidableEq

structure Usage extends OpenAIUsage where
  billingUsage : Option BillingUsage := none
deriving DecidableEq

structure GeminiUsageMetadata extends GeminiUsage where
  billingUsage : Option BillingUsage := none
deriving DecidableEq

def sourceOAIChat : String := "oai_chat"
def sourceOAIResponses : String := "oai_responses"
def sourceClaudeMessages : String := "claude_messages"
def sourceGeminiChat : String := "gemini_chat"
def semanticOpenAI : String := "openai"
def semanticAnthropic : String := "anthropic"
def semanticGemini : String := "gemini"

/-! ## Merging -/

def overlay (current incoming : Int) : Int := if 0 < incoming then incoming else current

def overlayText (current incoming : String) : String := if incoming ≠ "" then incoming else current

def mergeInputTokenDetails (current incoming : InputTokenDetails) : InputTokenDetails where
  cachedTokens := overlay current.cachedTokens incoming.cachedTokens
  cachedCreationTokens := overlay current.cachedCreationTokens incoming.cachedCreationTokens
  cacheWriteTokens := overlay current.cacheWriteTokens incoming.cacheWriteTokens
  textTokens := overlay current.textTokens incoming.textTokens
  audioTokens := overlay current.audioTokens incoming.audioTokens
  imageTokens := overlay current.imageTokens incoming.imageTokens

def InputTokenDetails.anyPositive (d : InputTokenDetails) : Bool :=
  0 < d.cachedTokens || 0 < d.cachedCreationTokens || 0 < d.cacheWriteTokens ||
    0 < d.textTokens || 0 < d.audioTokens || 0 < d.imageTokens

/-- The output details of `MergeUsageNonZero`. -/
def mergeOutputTokenDetails (current incoming : OutputTokenDetails) : OutputTokenDetails where
  textTokens := overlay current.textTokens incoming.textTokens
  audioTokens := overlay current.audioTokens incoming.audioTokens
  imageTokens := overlay current.imageTokens incoming.imageTokens
  reasoningTokens := overlay current.reasoningTokens incoming.reasoningTokens

/-- `MergeUsageNonZero`, on everything but the sidecar. -/
def mergeOpenAIUsage (current incoming : OpenAIUsage) : OpenAIUsage :=
  let promptTokens := overlay current.promptTokens incoming.promptTokens
  let completionTokens := overlay current.completionTokens incoming.completionTokens
  let inputTokens := overlay current.inputTokens incoming.inputTokens
  let outputTokens := overlay current.outputTokens incoming.outputTokens
  let totalTokens := overlay current.totalTokens incoming.totalTokens
  let totalTokens := max totalTokens (promptTokens + completionTokens)
  { promptTokens, completionTokens, inputTokens, outputTokens
    totalTokens := max totalTokens (inputTokens + outputTokens)
    promptCacheHitTokens := overlay current.promptCacheHitTokens incoming.promptCacheHitTokens
    claudeCacheCreation5mTokens :=
      overlay current.claudeCacheCreation5mTokens incoming.claudeCacheCreation5mTokens
    claudeCacheCreation1hTokens :=
      overlay current.claudeCacheCreation1hTokens incoming.claudeCacheCreation1hTokens
    promptTokensDetails :=
      mergeInputTokenDetails current.promptTokensDetails incoming.promptTokensDetails
    inputTokensDetails :=
      match incoming.inputTokensDetails with
      | some details =>
        if details.anyPositive then
          some (mergeInputTokenDetails (current.inputTokensDetails.getD {}) details)
        else current.inputTokensDetails
      | none => current.inputTokensDetails
    completionTokenDetails :=
      mergeOutputTokenDetails current.completionTokenDetails incoming.completionTokenDetails
    outputTokensDetails := current.outputTokensDetails
    usageSemantic := overlayText current.usageSemantic incoming.usageSemantic
    usageSource := overlayText current.usageSource incoming.usageSource
    cost :=
      match incoming.cost with
      | some cost => if cost.zero then current.cost else some cost
      | none => current.cost }

/-- The server tool counts of `MergeClaudeUsageNonZero`. -/
def mergeServerToolUse (current : Option ClaudeServerToolUse) (incoming : ClaudeServerToolUse) :
    ClaudeServerToolUse :=
  let current := current.getD {}
  { webSearchRequests := overlay current.webSearchRequests incoming.webSearchRequests
    webFetchRequests := overlay current.webFetchRequests incoming.webFetchRequests
    codeExecutionRequests := overlay current.codeExecutionRequests incoming.codeExecutionRequests
    toolSearchRequests := overlay current.toolSearchRequests incoming.toolSearchRequests }

/-- `MergeClaudeUsageNonZero`, on everything but the sidecar. -/
def mergeClaudeUsage (current incoming : ClaudeUsage) : ClaudeUsage :=
  let merged : ClaudeUsage :=
    { inputTokens := overlay current.inputTokens incoming.inputTokens
      cacheCreationInputTokens :=
        overlay current.cacheCreationInputTokens incoming.cacheCreationInputTokens
      cacheReadInputTokens := overlay current.cacheReadInputTokens incoming.cacheReadInputTokens
      outputTokens := overlay current.outputTokens incoming.outputTokens
      cacheCreation := current.cacheCreation
      claudeCacheCreation5mTokens :=
        overlay current.claudeCacheCreation5mTokens incoming.claudeCacheCreation5mTokens
      claudeCacheCreation1hTokens :=
        overlay current.claudeCacheCreation1hTokens incoming.claudeCacheCreation1hTokens
      serverToolUse :=
        match incoming.serverToolUse with
        | some tools => some (mergeServerToolUse current.serverToolUse tools)
        | none => current.serverToolUse }
  match incoming.cacheCreation with
  | some cacheCreation =>
    { merged with
        cacheCreation := some cacheCreation
        claudeCacheCreation5mTokens := cacheCreation.ephemeral5mInputTokens
        claudeCacheCreation1hTokens := cacheCreation.ephemeral1hInputTokens }
  | none => merged

/-- `strings.ToUpper` on one letter.  Outside ASCII only the two letters matter
    whose upper case is an ASCII one: no modality has others. -/
def toUpper (c : Char) : Char :=
  if c = 'ı' then 'I' else if c = 'ſ' then 'S' else c.toUpper

def normalizeGeminiModality (modality : String) : String :=
  String.ofList ((trimSpace modality).toList.map toUpper)

def GeminiTokenDetail.key (d : GeminiTokenDetail) : String := normalizeGeminiModality d.modality

/-- The entry that `indexes` has for a key: the last one. -/
def lastIndex (key : String) : List GeminiTokenDetail → Option Nat
  | [] => none
  | d :: ds =>
    match lastIndex key ds with
    | some i => some (i + 1)
    | none => if d.key = key then some 0 else none

/-- One round of the loop in `mergeGeminiTokenDetails`. -/
def addDetail (merged : List GeminiTokenDetail) (d : GeminiTokenDetail) : List GeminiTokenDetail :=
  if d.tokenCount ≤ 0 then merged
  else match lastIndex d.key merged with
  | some i => merged.modify i fun e => { e with tokenCount := e.tokenCount + d.tokenCount }
  | none => merged ++ [d]

def mergeGeminiTokenDetails (current incoming : List GeminiTokenDetail) : List GeminiTokenDetail :=
  incoming.foldl addDetail current

def GeminiUsage.parts (m : GeminiUsage) : Int :=
  m.promptTokenCount + m.toolUsePromptTokenCount + m.candidatesTokenCount + m.thoughtsTokenCount

/-- `MergeGeminiUsageMetadataNonZero`, on everything but the sidecar. -/
def mergeGeminiUsage (current incoming : GeminiUsage) : GeminiUsage :=
  let merged : GeminiUsage :=
    { promptTokenCount := overlay current.promptTokenCount incoming.promptTokenCount
      toolUsePromptTokenCount :=
        overlay current.toolUsePromptTokenCount incoming.toolUsePromptTokenCount
      candidatesTokenCount := overlay current.candidatesTokenCount incoming.candidatesTokenCount
      thoughtsTokenCount :=
        if 0 < incoming.candidatesTokenCount then incoming.thoughtsTokenCount
        else overlay current.thoughtsTokenCount incoming.thoughtsTokenCount
      totalTokenCount := overlay current.totalTokenCount incoming.totalTokenCount
      cachedContentTokenCount :=
        overlay current.cachedContentTokenCount incoming.cachedContentTokenCount
      promptTokensDetails :=
        mergeGeminiTokenDetails current.promptTokensDetails incoming.promptTokensDetails
      toolUsePromptTokensDetails :=
        mergeGeminiTokenDetails current.toolUsePromptTokensDetails incoming.toolUsePromptTokensDetails
      candidatesTokensDetails :=
        mergeGeminiTokenDetails current.candidatesTokensDetails incoming.candidatesTokensDetails }
  { merged with totalTokenCount := max merged.totalTokenCount merged.parts }

/-- `strings.EqualFold` on the names of sources and semantics, which are ASCII. -/
def equalFold (a b : String) : Bool := a.toList.map Char.toLower = b.toList.map Char.toLower

def sameBillingUsageDialect (current incoming : BillingUsage) : Bool :=
  if current.source ≠ "" ∧ incoming.source ≠ "" ∧ ¬ equalFold current.source incoming.source then
    false
  else if current.semantic ≠ "" ∧ incoming.semantic ≠ "" ∧
      ¬ equalFold current.semantic incoming.semantic then false
  else (current.openAIUsage.isSome && incoming.openAIUsage.isSome) ||
    (current.claudeUsage.isSome && incoming.claudeUsage.isSome) ||
    (current.geminiUsageMetadata.isSome && incoming.geminiUsageMetadata.isSome)

/-- The `switch` of `MergeBillingUsageNonZero`: the first payload both sides have. -/
def mergePayload (merged current incoming : BillingUsage) : BillingUsage :=
  match current.openAIUsage, incoming.openAIUsage with
  | some c, some i => { merged with openAIUsage := some (mergeOpenAIUsage c i) }
  | _, _ =>
    match current.claudeUsage, incoming.claudeUsage with
    | some c, some i => { merged with claudeUsage := some (mergeClaudeUsage c i) }
    | _, _ =>
      match current.geminiUsageMetadata, incoming.geminiUsageMetadata with
      | some c, some i => { merged with geminiUsageMetadata := some (mergeGeminiUsage c i) }
      | _, _ => merged

/-- `MergeBillingUsageNonZero`, for an incoming sidecar that is there. -/
def mergeBillingUsageNonZero (current : Option BillingUsage) (incoming : BillingUsage) :
    BillingUsage :=
  match current with
  | none => incoming
  | some current =>
    if sameBillingUsageDialect current incoming then
      mergePayload
        { current with
            source := overlayText current.source incoming.source
            semantic := overlayText current.semantic incoming.semantic
            estimated := current.estimated || incoming.estimated }
        current incoming
    else { incoming with estimated := current.estimated || incoming.estimated }

/-- The sidecar after a merge: an incoming one is merged in, none changes nothing. -/
def mergeSidecar (current incoming : Option BillingUsage) : Option BillingUsage :=
  match incoming with
  | some b => some (mergeBillingUsageNonZero current b)
  | none => current

def mergeUsageNonZero (current : Option Usage) (incoming : Usage) : Usage :=
  let current := current.getD {}
  { mergeOpenAIUsage current.toOpenAIUsage incoming.toOpenAIUsage with
      billingUsage := mergeSidecar current.billingUsage incoming.billingUsage }

/-- `MergeGeminiUsageMetadataNonZero`, for two records. -/
def mergeGeminiUsageMetadataNonZero (current incoming : GeminiUsageMetadata) :
    GeminiUsageMetadata :=
  { mergeGeminiUsage current.toGeminiUsage incoming.toGeminiUsage with
      billingUsage := mergeSidecar current.billingUsage incoming.billingUsage }

/-! ## Decoding a sidecar -/

def InputTokenDetails.anyNonZero (d : InputTokenDetails) : Bool :=
  d.cachedTokens != 0 || d.cachedCreationTokens != 0 || d.cacheWriteTokens != 0 ||
    d.textTokens != 0 || d.imageTokens != 0 || d.audioTokens != 0

def OutputTokenDetails.anyNonZero (d : OutputTokenDetails) : Bool :=
  d.reasoningTokens != 0 || d.textTokens != 0 || d.imageTokens != 0 || d.audioTokens != 0

/-- `HasOpenAIUsageTokens` -/
def OpenAIUsage.hasTokens (u : OpenAIUsage) : Bool :=
  u.promptTokens != 0 || u.completionTokens != 0 || u.totalTokens != 0 || u.inputTokens != 0 ||
    u.outputTokens != 0 || u.promptCacheHitTokens != 0 || u.claudeCacheCreation5mTokens != 0 ||
    u.claudeCacheCreation1hTokens != 0 || u.promptTokensDetails.anyNonZero ||
    u.completionTokenDetails.anyNonZero || u.inputTokensDetails.any InputTokenDetails.anyNonZero

/-- `HasClaudeUsageTokens` -/
def ClaudeUsage.hasTokens (u : ClaudeUsage) : Bool :=
  u.inputTokens != 0 || u.outputTokens != 0 || u.cacheCreationInputTokens != 0 ||
    u.cacheReadInputTokens != 0 || u.claudeCacheCreation5mTokens != 0 ||
    u.claudeCacheCreation1hTokens != 0 ||
    u.cacheCreation.any fun c => c.ephemeral5mInputTokens != 0 || c.ephemeral1hInputTokens != 0

def anyCounted (ds : List GeminiTokenDetail) : Bool := ds.any fun d => d.tokenCount != 0

/-- `HasGeminiUsageMetadataTokens` -/
def GeminiUsage.hasTokens (m : GeminiUsage) : Bool :=
  m.promptTokenCount != 0 || m.toolUsePromptTokenCount != 0 || m.candidatesTokenCount != 0 ||
    m.totalTokenCount != 0 || m.thoughtsTokenCount != 0 || m.cachedContentTokenCount != 0 ||
    anyCounted m.promptTokensDetails || anyCounted m.toolUsePromptTokensDetails ||
    anyCounted m.candidatesTokensDetails

variable (b : BillingUsage)

variable (u : OpenAIUsage)

def canonicalOpenAIUsage : Usage :=
  let details := match u.inputTokensDetails with
    | some filled => mergeInputTokenDetails filled u.promptTokensDetails
    | none => u.promptTokensDetails
  let details :=
    if details.cachedTokens = 0 ∧ 0 < u.promptCacheHitTokens then
      { details with cachedTokens := u.promptCacheHitTokens }
    else details
  let promptTokens := if u.promptTokens = 0 ∧ 0 < u.inputTokens then u.inputTokens else u.promptTokens
  let completionTokens :=
    if u.completionTokens = 0 ∧ 0 < u.outputTokens then u.outputTokens else u.completionTokens
  { u with
      promptTokens, completionTokens
      promptTokensDetails := details
      inputTokens := if u.inputTokens = 0 ∧ 0 < promptTokens then promptTokens else u.inputTokens
      outputTokens :=
        if u.outputTokens = 0 ∧ 0 < completionTokens then completionTokens else u.outputTokens
      totalTokens := if u.totalTokens = 0 then promptTokens + completionTokens else u.totalTokens
      usageSemantic := semanticOpenAI
      usageSource := b.source
      billingUsage := some b }

def canonicalClaudeUsage (u : ClaudeUsage) : Usage where
  promptTokens := u.inputTokens
  completionTokens := u.outputTokens
  totalTokens := u.inputTokens + u.outputTokens
  inputTokens := u.inputTokens + u.cacheReadInputTokens + u.cacheCreationInputTokens
  outputTokens := u.outputTokens
  usageSemantic := semanticAnthropic
  usageSource := sourceClaudeMessages
  billingUsage := some b
  claudeCacheCreation5mTokens :=
    (u.cacheCreation.map ClaudeCacheCreationUsage.ephemeral5mInputTokens).getD
      u.claudeCacheCreation5mTokens
  claudeCacheCreation1hTokens :=
    (u.cacheCreation.map ClaudeCacheCreationUsage.ephemeral1hInputTokens).getD
      u.claudeCacheCreation1hTokens
  promptTokensDetails :=
    { cachedTokens := u.cacheReadInputTokens, cachedCreationTokens := u.cacheCreationInputTokens }

def addGeminiInputTokenDetail (details : InputTokenDetails) (d : GeminiTokenDetail) :
    InputTokenDetails :=
  if d.key = "AUDIO" then { details with audioTokens := details.audioTokens + d.tokenCount }
  else if d.key = "IMAGE" then { details with imageTokens := details.imageTokens + d.tokenCount }
  else if d.key = "TEXT" then { details with textTokens := details.textTokens + d.tokenCount }
  else details

/-- The loop over `CandidatesTokensDetails`. -/
def addGeminiOutputTokenDetail (details : OutputTokenDetails) (d : GeminiTokenDetail) :
    OutputTokenDetails :=
  if d.key = "IMAGE" then { details with imageTokens := details.imageTokens + d.tokenCount }
  else if d.key = "AUDIO" then { details with audioTokens := details.audioTokens + d.tokenCount }
  else if d.key = "TEXT" then { details with textTokens := details.textTokens + d.tokenCount }
  else details

def canonicalGeminiUsage (m : GeminiUsage) : Usage :=
  let promptTokens := m.promptTokenCount + m.toolUsePromptTokenCount
  let completionTokens := m.candidatesTokenCount + m.thoughtsTokenCount
  let promptDetails :=
    m.toolUsePromptTokensDetails.foldl addGeminiInputTokenDetail
      (m.promptTokensDetails.foldl addGeminiInputTokenDetail
        { cachedTokens := m.cachedContentTokenCount })
  { promptTokens
    completionTokens :=
      if m.totalTokenCount = 0 then completionTokens
      else if completionTokens ≤ 0 then max (m.totalTokenCount - promptTokens) 0
      else completionTokens
    totalTokens :=
      if m.totalTokenCount = 0 then promptTokens + completionTokens else m.totalTokenCount
    promptTokensDetails :=
      if 0 < promptTokens ∧ promptDetails.textTokens = 0 ∧ promptDetails.audioTokens = 0 then
        { promptDetails with textTokens := promptTokens }
      else promptDetails
    completionTokenDetails :=
      m.candidatesTokensDetails.foldl addGeminiOutputTokenDetail
        { reasoningTokens := m.thoughtsTokenCount }
    usageSemantic := semanticGemini
    usageSource := sourceGeminiChat
    billingUsage := some b }

def BillingUsage.canonicalUsage : Option Usage :=
  let source := trimSpace b.source
  let semantic := trimSpace b.semantic
  let openAI := b.openAIUsage.filter fun u => u.hasTokens &&
    (equalFold source sourceOAIChat || equalFold source sourceOAIResponses ||
      equalFold semantic semanticOpenAI)
  let claude := b.claudeUsage.filter fun u => u.hasTokens &&
    (equalFold source sourceClaudeMessages || equalFold semantic semanticAnthropic)
  let gemini := b.geminiUsageMetadata.filter fun m => m.hasTokens &&
    (equalFold source sourceGeminiChat || equalFold semantic semanticGemini)
  (openAI.map (canonicalOpenAIUsage b)).or
    ((claude.map (canonicalClaudeUsage b)).or (gemini.map (canonicalGeminiUsage b)))

def newGeminiChatBillingUsage (m : GeminiUsage) : Option BillingUsage :=
  if m.hasTokens then
    some { source := sourceGeminiChat, semantic := semanticGemini, geminiUsageMetadata := some m }
  else none

def newOpenAIChatBillingUsage : Option BillingUsage :=
  if u.hasTokens then
    some { source := sourceOAIChat, semantic := semanticOpenAI, openAIUsage := some u }
  else none

/-! ## Merging a record with itself -/

@[simp] theorem overlay_self (a : Int) : overlay a a = a := by
  unfold overlay
  split <;> rfl

@[simp] theorem overlayText_self (a : String) : overlayText a a = a := by
  unfold overlayText
  split <;> rfl

@[simp] theorem mergeInputTokenDetails_self (d : InputTokenDetails) :
    mergeInputTokenDetails d d = d := by
  simp [mergeInputTokenDetails]

@[simp] theorem mergeOutputTokenDetails_self (d : OutputTokenDetails) :
    mergeOutputTokenDetails d d = d := by
  simp [mergeOutputTokenDetails]

def OpenAIUsage.Totalled : Prop :=
  u.promptTokens + u.completionTokens ≤ u.totalTokens ∧ u.inputTokens + u.outputTokens ≤ u.totalTokens

theorem mergeOpenAIUsage_self : mergeOpenAIUsage u u = u ↔ u.Totalled := by
  have hdetails : (match u.inputTokensDetails with
      | some details =>
        if details.anyPositive then
          some (mergeInputTokenDetails (u.inputTokensDetails.getD {}) details)
        else u.inputTokensDetails
      | none => u.inputTokensDetails) = u.inputTokensDetails := by
    cases u.inputTokensDetails <;> simp
  have hcost : (match u.cost with
      | some cost => if cost.zero then u.cost else some cost
      | none => u.cost) = u.cost := by
    cases u.cost <;> simp
  unfold mergeOpenAIUsage OpenAIUsage.Totalled
  simp only [overlay_self, overlayText_self, mergeInputTokenDetails_self,
    mergeOutputTokenDetails_self, hdetails, hcost]
  constructor
  · intro h
    have htotal := congrArg OpenAIUsage.totalTokens h
    simp only at htotal
    omega
  intro ⟨hprompt, hinput⟩
  have htotal : max (max u.totalTokens (u.promptTokens + u.completionTokens))
      (u.inputTokens + u.outputTokens) = u.totalTokens := by
    omega
  rw [htotal]

def ClaudeUsage.Synced (u : ClaudeUsage) : Prop :=
  ∀ c, u.cacheCreation = some c → u.claudeCacheCreation5mTokens = c.ephemeral5mInputTokens ∧
    u.claudeCacheCreation1hTokens = c.ephemeral1hInputTokens

theorem mergeServerToolUse_self (t : ClaudeServerToolUse) : mergeServerToolUse (some t) t = t := by
  simp [mergeServerToolUse]

theorem mergeClaudeUsage_self (u : ClaudeUsage) : mergeClaudeUsage u u = u ↔ u.Synced := by
  have htools : (match u.serverToolUse with
      | some tools => some (mergeServerToolUse u.serverToolUse tools)
      | none => u.serverToolUse) = u.serverToolUse := by
    cases u.serverToolUse <;> simp [mergeServerToolUse_self]
  unfold mergeClaudeUsage ClaudeUsage.Synced
  simp only [overlay_self, htools]
  obtain ⟨_, _, _, _, cacheCreation, _, _, _⟩ := u
  cases cacheCreation with
  | none => simp
  | some c =>
    simp only [ClaudeUsage.mk.injEq, Option.some.injEq, true_and, and_true]
    constructor
    · rintro ⟨h5, h1⟩ c' rfl
      exact ⟨h5.symm, h1.symm⟩
    intro h
    obtain ⟨h5, h1⟩ := h c rfl
    exact ⟨h5.symm, h1.symm⟩

/-! ## Counts by modality -/

variable (key : String)

variable (ds : List GeminiTokenDetail)

def counted : Int :=
  (ds.map fun d => if d.key = key then d.tokenCount else 0).sum

variable (d : GeminiTokenDetail)

/-- What of an entry `mergeGeminiTokenDetails` looks at. -/
def gained : Int :=
  if d.key = key then max d.tokenCount 0 else 0

@[simp] theorem counted_nil : counted key [] = 0 := rfl

@[simp] theorem counted_cons (ds : List GeminiTokenDetail) :
    counted key (d :: ds) = (if d.key = key then d.tokenCount else 0) + counted key ds := by
  simp [counted]

theorem counted_append (ds es : List GeminiTokenDetail) :
    counted key (ds ++ es) = counted key ds + counted key es := by
  simp [counted]

theorem counted_modify (key key' : String) (n : Int) (ds : List GeminiTokenDetail) (i : Nat)
    (h : lastIndex key ds = some i) :
    counted key' (ds.modify i fun e => { e with tokenCount := e.tokenCount + n }) =
      counted key' ds + (if key = key' then n else 0) := by
  induction ds generalizing i with
  | nil => cases h
  | cons d ds ih =>
    unfold lastIndex at h
    cases hrest : lastIndex key ds with
    | some j =>
      rw [hrest] at h
      obtain rfl : j + 1 = i := Option.some.inj h
      rw [List.modify_succ_cons, counted_cons, counted_cons, ih j hrest]
      omega
    | none =>
      rw [hrest] at h
      by_cases hkey : d.key = key
      · simp only [hkey, if_true] at h
        obtain rfl : 0 = i := Option.some.inj h
        have hsame : GeminiTokenDetail.key { d with tokenCount := d.tokenCount + n } = key := hkey
        rw [List.modify_zero_cons, counted_cons, counted_cons, hsame, hkey]
        split
        · simp only
          omega
        · omega
      · simp [hkey] at h

/-- **Adding an entry adds its count**, to whatever is there. -/
theorem counted_addDetail : counted key (addDetail ds d) = counted key ds + gained key d := by
  unfold addDetail gained
  by_cases hpos : d.tokenCount ≤ 0
  · rw [if_pos hpos]
    split <;> omega
  rw [if_neg hpos]
  cases hlast : lastIndex d.key ds with
  | some i =>
    rw [counted_modify d.key key d.tokenCount ds i hlast]
    split <;> omega
  | none =>
    rw [counted_append, counted_cons, counted_nil]
    split <;> omega

theorem counted_mergeGeminiTokenDetails (current incoming : List GeminiTokenDetail) :
    counted key (mergeGeminiTokenDetails current incoming) =
      counted key current + (incoming.map (gained key)).sum := by
  unfold mergeGeminiTokenDetails
  induction incoming generalizing current with
  | nil => simp
  | cons d ds ih =>
    rw [List.foldl_cons, ih, counted_addDetail, List.map_cons, List.sum_cons]
    omega

def Uncounted : Prop := ∀ d ∈ ds, d.tokenCount ≤ 0

theorem mergeGeminiTokenDetails_uncounted {current incoming : List GeminiTokenDetail}
    (h : Uncounted incoming) : mergeGeminiTokenDetails current incoming = current := by
  unfold mergeGeminiTokenDetails
  induction incoming generalizing current with
  | nil => rfl
  | cons d ds ih =>
    have hskip : addDetail current d = current := if_pos (h d List.mem_cons_self)
    rw [List.foldl_cons, hskip]
    exact ih fun e he => h e (List.mem_cons_of_mem _ he)

theorem gained_nonneg : 0 ≤ gained key d := by
  unfold gained
  split <;> omega

/-- **A list takes in another without change** only where that one counts nothing. -/
theorem mergeGeminiTokenDetails_eq_left (current incoming : List GeminiTokenDetail) :
    mergeGeminiTokenDetails current incoming = current ↔ Uncounted incoming := by
  refine ⟨fun h d hd => ?_, mergeGeminiTokenDetails_uncounted⟩
  by_contra hpos
  have hcount := counted_mergeGeminiTokenDetails d.key current incoming
  rw [h] at hcount
  have hmem : gained d.key d ∈ incoming.map (gained d.key) := List.mem_map_of_mem hd
  have hle : gained d.key d ≤ (incoming.map (gained d.key)).sum := by
    refine List.single_le_sum (fun x hx => ?_) _ hmem
    obtain ⟨e, -, rfl⟩ := List.mem_map.1 hx
    exact gained_nonneg _ _
  have hgain : gained d.key d = max d.tokenCount 0 := if_pos rfl
  omega

/-- The record counts nothing by modality, whatever the modality. -/
structure GeminiUsage.Plain (m : GeminiUsage) : Prop where
  prompt : Uncounted m.promptTokensDetails
  toolUse : Uncounted m.toolUsePromptTokensDetails
  candidates : Uncounted m.candidatesTokensDetails

/-- Merged with itself, a Gemini record stays as it is. -/
structure GeminiUsage.Stable (m : GeminiUsage) : Prop extends m.Plain where
  total : m.parts ≤ m.totalTokenCount

theorem mergeGeminiUsage_self (m : GeminiUsage) : mergeGeminiUsage m m = m ↔ m.Stable := by
  have hthoughts : (if 0 < m.candidatesTokenCount then m.thoughtsTokenCount
      else overlay m.thoughtsTokenCount m.thoughtsTokenCount) = m.thoughtsTokenCount := by
    rw [overlay_self, ite_self]
  unfold mergeGeminiUsage
  rw [hthoughts]
  simp only [overlay_self]
  constructor
  · intro h
    have htotal := congrArg GeminiUsage.totalTokenCount h
    simp only [GeminiUsage.parts] at htotal
    refine ⟨⟨?_, ?_, ?_⟩, ?_⟩
    · exact (mergeGeminiTokenDetails_eq_left _ _).1 (congrArg GeminiUsage.promptTokensDetails h)
    · exact (mergeGeminiTokenDetails_eq_left _ _).1 (congrArg GeminiUsage.toolUsePromptTokensDetails h)
    · exact (mergeGeminiTokenDetails_eq_left _ _).1 (congrArg GeminiUsage.candidatesTokensDetails h)
    · unfold GeminiUsage.parts
      omega
  intro h
  have htotal := h.total
  unfold GeminiUsage.parts at htotal
  simp only [mergeGeminiTokenDetails_uncounted h.prompt, mergeGeminiTokenDetails_uncounted h.toolUse,
    mergeGeminiTokenDetails_uncounted h.candidates, GeminiUsage.parts]
  rw [max_eq_left htotal]

/-! ## Merging a sidecar with itself -/

@[simp] theorem equalFold_self (a : String) : equalFold a a = true := by
  simp [equalFold]

theorem sameBillingUsageDialect_self : sameBillingUsageDialect b b =
      (b.openAIUsage.isSome || b.claudeUsage.isSome || b.geminiUsageMetadata.isSome) := by
  simp [sameBillingUsageDialect]

/-- Merged with itself, a sidecar stays as it is: this is up to the payload that
    the merge takes. -/
def BillingUsage.Stable (b : BillingUsage) : Prop :=
  match b.openAIUsage, b.claudeUsage, b.geminiUsageMetadata with
  | some u, _, _ => u.Totalled
  | none, some u, _ => u.Synced
  | none, none, some m => m.Stable
  | none, none, none => True

theorem mergeBillingUsageNonZero_self : mergeBillingUsageNonZero (some b) b = b ↔ b.Stable := by
  unfold mergeBillingUsageNonZero
  simp only [sameBillingUsageDialect_self, overlayText_self, Bool.or_self]
  obtain ⟨source, semantic, estimated, openAI, claude, gemini⟩ := b
  cases openAI with
  | some u => simp [mergePayload, BillingUsage.Stable, mergeOpenAIUsage_self]
  | none =>
    cases claude with
    | some u => simp [mergePayload, BillingUsage.Stable, mergeClaudeUsage_self]
    | none =>
      cases gemini with
      | some m => simp [mergePayload, BillingUsage.Stable, mergeGeminiUsage_self]
      | none => simp [BillingUsage.Stable]

/-- **`MergeGeminiUsageMetadataNonZero(m, m) = m`**, exactly. -/
theorem mergeGeminiUsageMetadataNonZero_self (m : GeminiUsageMetadata) :
    mergeGeminiUsageMetadataNonZero m m = m ↔
      m.toGeminiUsage.Stable ∧ ∀ b, m.billingUsage = some b → b.Stable := by
  obtain ⟨counts, billing⟩ := m
  unfold mergeGeminiUsageMetadataNonZero
  simp only [GeminiUsageMetadata.mk.injEq, mergeGeminiUsage_self]
  refine and_congr_right fun _ => ?_
  cases billing with
  | none => simp [mergeSidecar]
  | some b =>
    simp only [mergeSidecar, Option.some.injEq, mergeBillingUsageNonZero_self]
    exact ⟨fun h _ hb => hb ▸ h, fun h => h b rfl⟩

/-! ## Merging a record a second time -/

@[simp] theorem overlay_overlay (a b : Int) : overlay (overlay a b) b = overlay a b := by
  unfold overlay
  split <;> rfl

@[simp] theorem overlayText_overlayText (a b : String) :
    overlayText (overlayText a b) b = overlayText a b := by
  unfold overlayText
  split <;> rfl

@[simp] theorem mergeInputTokenDetails_again (a b : InputTokenDetails) :
    mergeInputTokenDetails (mergeInputTokenDetails a b) b = mergeInputTokenDetails a b := by
  simp [mergeInputTokenDetails]

@[simp] theorem mergeOutputTokenDetails_again (a b : OutputTokenDetails) :
    mergeOutputTokenDetails (mergeOutputTokenDetails a b) b = mergeOutputTokenDetails a b := by
  simp [mergeOutputTokenDetails]

theorem mergeOpenAIUsage_again (a b : OpenAIUsage) :
    mergeOpenAIUsage (mergeOpenAIUsage a b) b = mergeOpenAIUsage a b := by
  have htotal : ∀ t x p i : Int,
      max (max (overlay (max (max (overlay t x) p) i) x) p) i = max (max (overlay t x) p) i := by
    intro t x p i
    unfold overlay
    split <;> omega
  unfold mergeOpenAIUsage
  simp only [overlay_overlay, overlayText_overlayText, mergeInputTokenDetails_again,
    mergeOutputTokenDetails_again, htotal]
  congr 1
  · cases hb : b.inputTokensDetails with
    | none => rfl
    | some d =>
      simp only
      split <;> simp
  cases hb : b.cost with
  | none => rfl
  | some c =>
    simp only
    split <;> rfl

theorem mergeGeminiUsage_again (a b : GeminiUsage) :
    mergeGeminiUsage (mergeGeminiUsage a b) b = mergeGeminiUsage a b ↔ b.Plain := by
  have hthoughts : ∀ t c x : Int, (if 0 < c then x else overlay (if 0 < c then x else overlay t x) x) =
      if 0 < c then x else overlay t x := by
    intro t c x
    split <;> simp
  have htotal : ∀ t x p : Int, max (overlay (max (overlay t x) p) x) p = max (overlay t x) p := by
    intro t x p
    unfold overlay
    split <;> omega
  constructor
  · intro h
    exact ⟨(mergeGeminiTokenDetails_eq_left _ _).1 (congrArg GeminiUsage.promptTokensDetails h),
      (mergeGeminiTokenDetails_eq_left _ _).1 (congrArg GeminiUsage.toolUsePromptTokensDetails h),
      (mergeGeminiTokenDetails_eq_left _ _).1 (congrArg GeminiUsage.candidatesTokensDetails h)⟩
  intro h
  unfold mergeGeminiUsage
  simp only [mergeGeminiTokenDetails_uncounted h.prompt, mergeGeminiTokenDetails_uncounted h.toolUse,
    mergeGeminiTokenDetails_uncounted h.candidates, GeminiUsage.parts, overlay_overlay, hthoughts,
    htotal]

end NewApi.Convert
