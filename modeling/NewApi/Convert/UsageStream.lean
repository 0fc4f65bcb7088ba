/-
  NewApi.Convert.UsageStream

  What a `ResponseStreamState` remembers of the usage of a Gemini stream
  (`relaykit/relayconvert/response_registry.go`): the converters of each route,
  the usage each of them reports, and the executor, which remembers the usage of
  every step and then that of the chunk.

  Of the values that pass between the converters only the usage is kept.  Which
  chunks make the first converter add its terminal chunk is left to the stream.
  `FinalizeStreamResponse`, which runs when the chunks are converted, is not here.
-/

import NewApi.Lib.Run
import NewApi.Convert.Usage
import Mathlib.Tactic.Ring

namespace NewApi.Convert

open List (foldl_cons mem_append_left mem_cons mem_cons_of_mem mem_cons_self mem_map
  mem_singleton not_mem_nil pairwise_append sum_eq_zero)
open Option (bind_none bind_some getD_some map_none map_some none_or some_or)
open NewApi.Lib
open NewApi.Subscription (trimSpace)

/-! ## The usage the converters report -/

/-- The display counts of `UsageFromGeminiMetadata`, which compares modalities as
    they are written. -/
def addDisplayInput (details : InputTokenDetails) (d : GeminiTokenDetail) : InputTokenDetails :=
  if d.modality = "AUDIO" then { details with audioTokens := details.audioTokens + d.tokenCount }
  else if d.modality = "IMAGE" then { details with imageTokens := details.imageTokens + d.tokenCount }
  else if d.modality = "TEXT" then { details with textTokens := details.textTokens + d.tokenCount }
  else details

def addDisplayOutput (details : OutputTokenDetails) (d : GeminiTokenDetail) : OutputTokenDetails :=
  if d.modality = "IMAGE" then { details with imageTokens := details.imageTokens + d.tokenCount }
  else if d.modality = "AUDIO" then { details with audioTokens := details.audioTokens + d.tokenCount }
  else if d.modality = "TEXT" then { details with textTokens := details.textTokens + d.tokenCount }
  else details

def promptOrFallback (promptTokens fallback : Int) : Int :=
  if promptTokens ≤ 0 ∧ 0 < fallback then fallback else promptTokens

def usageFromGeminiMetadata (metadata : Option GeminiUsageMetadata) (fallbackPromptTokens : Int) :
    Option Usage :=
  match metadata with
  | none =>
    if fallbackPromptTokens ≤ 0 then none
    else some { promptTokens := fallbackPromptTokens
                promptTokensDetails := { textTokens := fallbackPromptTokens } }
  | some m =>
    let promptTokens :=
      promptOrFallback (m.promptTokenCount + m.toolUsePromptTokenCount) fallbackPromptTokens
    let completionTokens := m.candidatesTokenCount + m.thoughtsTokenCount
    let details :=
      m.toolUsePromptTokensDetails.foldl addDisplayInput
        (m.promptTokensDetails.foldl addDisplayInput { cachedTokens := m.cachedContentTokenCount })
    some
      { promptTokens
        completionTokens :=
          if 0 < m.totalTokenCount ∧ completionTokens ≤ 0 then m.totalTokenCount - promptTokens
          else completionTokens
        totalTokens := m.totalTokenCount
        promptTokensDetails :=
          if 0 < promptTokens ∧ details.textTokens = 0 ∧ details.audioTokens = 0 then
            { details with textTokens := promptTokens }
          else details
        completionTokenDetails :=
          m.candidatesTokensDetails.foldl addDisplayOutput
            { reasoningTokens := m.thoughtsTokenCount }
        billingUsage := m.billingUsage.or (newGeminiChatBillingUsage m.toGeminiUsage) }

def usageFromChatUsage (src : Usage) : Usage where
  promptTokens := src.promptTokens
  inputTokens := src.promptTokens
  completionTokens := src.completionTokens
  outputTokens := src.completionTokens
  totalTokens :=
    if src.totalTokens ≠ 0 then src.totalTokens else src.promptTokens + src.completionTokens
  usageSemantic := src.usageSemantic
  usageSource := src.usageSource
  cost := src.cost
  inputTokensDetails :=
    if src.promptTokensDetails.anyNonZero then some src.promptTokensDetails else none
  completionTokenDetails :=
    if src.completionTokenDetails.anyNonZero then src.completionTokenDetails else {}
  claudeCacheCreation5mTokens := src.claudeCacheCreation5mTokens
  claudeCacheCreation1hTokens := src.claudeCacheCreation1hTokens
  billingUsage := src.billingUsage.or (newOpenAIChatBillingUsage src.toOpenAIUsage)

/-! ## The executor -/

/-- A chunk of a Gemini stream: its usage metadata, and whether the converter to
    chat adds its terminal chunk to it. -/
structure GeminiChunk where
  metadata : Option GeminiUsageMetadata := none
  terminal : Bool := false

/-- The converters a Gemini stream goes through. -/
inductive Converter where
  | geminiToChat | chatToClaude | chatToResponses

/-- The target of the stream. -/
inductive Target where
  | gemini | chat | claude | responses
deriving DecidableEq

/-- `StepConverters` of the route from Gemini. -/
def Target.specs : Target → List Converter
  | .gemini => []
  | .chat => [.geminiToChat]
  | .claude => [.geminiToChat, .chatToClaude]
  | .responses => [.geminiToChat, .chatToResponses]

/-- What passes between the steps: a Gemini chunk, or a chat chunk with its usage. -/
inductive StreamValue where
  | gemini (chunk : GeminiChunk)
  | chat (usage : Option Usage)

/-- `ResponseStreamState`, with the usage its step states hold. -/
structure StreamState where
  usage : Option Usage := none
  /-- `GeminiToChatStreamState.latestUsage` -/
  latestUsage : Option Usage := none
  /-- `ChatToResponsesStreamState.Usage` -/
  responsesUsage : Usage := {}

variable (s : StreamState)

def StreamState.rememberUsage (usage : Option Usage) : StreamState :=
  match usage with
  | some u => { s with usage := some (mergeUsageNonZero s.usage u) }
  | none => s

/-- `executeResponseStreamStep`.  A converter is only given values of its own
    format. -/
def executeResponseStreamStep (fallback : Int) (converter : Converter) (s : StreamState)
    (value : StreamValue) : List StreamValue × Option Usage × StreamState :=
  match converter, value with
  | .geminiToChat, .gemini chunk =>
    let usage := usageFromGeminiMetadata chunk.metadata fallback
    let s := { s with latestUsage := usage.or s.latestUsage }
    (.chat usage :: (if chunk.terminal then [.chat s.latestUsage] else []), usage, s)
  | .chatToClaude, .chat usage => ([], usage.map usageFromChatUsage, s)
  | .chatToResponses, .chat usage =>
    let s := { s with responsesUsage := (usage.map usageFromChatUsage).getD s.responsesUsage }
    ([], some s.responsesUsage, s)
  | _, _ => ([], none, s)

/-- The inner loop of `executeResponseStreamSteps`. -/
def executeStepOn (fallback : Int) (converter : Converter) :
    List StreamValue → List StreamValue × Option Usage × StreamState →
      List StreamValue × Option Usage × StreamState
  | [], acc => acc
  | value :: values, (next, usage, s) =>
    let (stepValues, stepUsage, s) := executeResponseStreamStep fallback converter s value
    executeStepOn fallback converter values
      (next ++ stepValues, stepUsage.or usage, s.rememberUsage stepUsage)

def executeResponseStreamSteps (fallback : Int) :
    List Converter → List StreamValue → Option Usage → StreamState → Option Usage × StreamState
  | [], _, usage, s => (usage, s)
  | converter :: converters, current, usage, s =>
    let (next, usage, s) := executeStepOn fallback converter current ([], usage, s)
    if next.isEmpty then (usage, s)
    else executeResponseStreamSteps fallback converters next usage s

def convertStreamResponseChunk (target : Target) (fallback : Int) (s : StreamState)
    (chunk : GeminiChunk) : StreamState :=
  if target = .gemini then s.rememberUsage (usageFromGeminiMetadata chunk.metadata 0)
  else
    let (usage, s) := executeResponseStreamSteps fallback target.specs [.gemini chunk] none s
    s.rememberUsage usage

/-! ## Cumulative snapshots -/

/-- No count of the record is negative. -/
structure GeminiUsage.NonNeg (m : GeminiUsage) : Prop where
  prompt : 0 ≤ m.promptTokenCount
  toolUse : 0 ≤ m.toolUsePromptTokenCount
  candidates : 0 ≤ m.candidatesTokenCount
  total : 0 ≤ m.totalTokenCount
  thoughts : 0 ≤ m.thoughtsTokenCount
  cached : 0 ≤ m.cachedContentTokenCount
  promptDetails : ∀ d ∈ m.promptTokensDetails, 0 ≤ d.tokenCount
  toolUseDetails : ∀ d ∈ m.toolUsePromptTokensDetails, 0 ≤ d.tokenCount
  candidatesDetails : ∀ d ∈ m.candidatesTokensDetails, 0 ≤ d.tokenCount

/-- A later snapshot counts at least what an earlier one counted.  Thoughts may
    go over into the candidates. -/
structure GeminiUsage.Below (a b : GeminiUsage) : Prop where
  prompt : a.promptTokenCount ≤ b.promptTokenCount
  toolUse : a.toolUsePromptTokenCount ≤ b.toolUsePromptTokenCount
  candidates : a.candidatesTokenCount ≤ b.candidatesTokenCount
  total : a.totalTokenCount ≤ b.totalTokenCount
  thoughts : a.thoughtsTokenCount ≤ b.thoughtsTokenCount ∨ 0 < b.candidatesTokenCount
  cached : a.cachedContentTokenCount ≤ b.cachedContentTokenCount
  promptDetails : ∀ key, counted key a.promptTokensDetails ≤ counted key b.promptTokensDetails
  toolUseDetails : ∀ key,
    counted key a.toolUsePromptTokensDetails ≤ counted key b.toolUsePromptTokensDetails
  candidatesDetails : ∀ key,
    counted key a.candidatesTokensDetails ≤ counted key b.candidatesTokensDetails

def snapshots (chunks : List GeminiChunk) : List GeminiUsageMetadata :=
  chunks.filterMap GeminiChunk.metadata

/-- The snapshots of a Gemini stream, whose metadata have no sidecar of a relay
    before this one. -/
structure Cumulative (ms : List GeminiUsageMetadata) : Prop where
  native : ∀ m ∈ ms, m.billingUsage = none
  nonneg : ∀ m ∈ ms, m.toGeminiUsage.NonNeg
  below : ms.Pairwise fun a b => a.toGeminiUsage.Below b.toGeminiUsage

/-- The counts that are billed. -/
structure Tally where
  prompt : Int
  completion : Int
  cached : Int
  reasoning : Int
  promptText : Int
  promptImage : Int
  promptAudio : Int
  completionText : Int
  completionImage : Int
  completionAudio : Int

def OpenAIUsage.tally (u : OpenAIUsage) : Tally where
  prompt := u.promptTokens
  completion := u.completionTokens
  cached := u.promptTokensDetails.cachedTokens
  reasoning := u.completionTokenDetails.reasoningTokens
  promptText := u.promptTokensDetails.textTokens
  promptImage := u.promptTokensDetails.imageTokens
  promptAudio := u.promptTokensDetails.audioTokens
  completionText := u.completionTokenDetails.textTokens
  completionImage := u.completionTokenDetails.imageTokens
  completionAudio := u.completionTokenDetails.audioTokens

def GeminiUsage.tally (m : GeminiUsage) : Tally := (canonicalGeminiUsage {} m).tally

/-- The remembered usage carries a sidecar that is decoded to the counts of `m`. -/
def Remembers (m : GeminiUsage) : Prop :=
  ∃ u b c, s.usage = some u ∧ u.billingUsage = some b ∧ b.canonicalUsage = some c ∧
    c.tally = m.tally

/-! ## Sidecars of a Gemini stream -/

def geminiSidecar (m : GeminiUsage) : BillingUsage :=
  { source := sourceGeminiChat, semantic := semanticGemini, geminiUsageMetadata := some m }

def estimateUsage (fallback total : Int) : OpenAIUsage :=
  { promptTokens := fallback, totalTokens := total, promptTokensDetails := { textTokens := fallback } }

def estimateSidecar (fallback total : Int) : BillingUsage :=
  { source := sourceOAIChat, semantic := semanticOpenAI
    openAIUsage := some (estimateUsage fallback total) }

def estimateTally (fallback : Int) : Tally :=
  ⟨fallback, 0, 0, 0, fallback, 0, 0, 0, 0, 0⟩

theorem merge_gemini_gemini (a m : GeminiUsage) :
    mergeBillingUsageNonZero (some (geminiSidecar a)) (geminiSidecar m) =
      geminiSidecar (mergeGeminiUsage a m) := by
  simp [mergeBillingUsageNonZero, sameBillingUsageDialect, geminiSidecar, mergePayload]

theorem merge_estimate_gemini (f t : Int) (m : GeminiUsage) :
    mergeBillingUsageNonZero (some (estimateSidecar f t)) (geminiSidecar m) = geminiSidecar m := by
  have hdialect : sameBillingUsageDialect (estimateSidecar f t) (geminiSidecar m) = false := by
    simp [sameBillingUsageDialect, estimateSidecar, geminiSidecar]
  simp only [mergeBillingUsageNonZero, hdialect]
  rfl

theorem merge_gemini_estimate (f t : Int) (m : GeminiUsage) :
    mergeBillingUsageNonZero (some (geminiSidecar m)) (estimateSidecar f t) = estimateSidecar f t := by
  have hdialect : sameBillingUsageDialect (geminiSidecar m) (estimateSidecar f t) = false := by
    simp [sameBillingUsageDialect, estimateSidecar, geminiSidecar]
  simp only [mergeBillingUsageNonZero, hdialect]
  rfl

theorem merge_estimate_estimate (f t t' : Int) :
    ∃ t'', mergeBillingUsageNonZero (some (estimateSidecar f t)) (estimateSidecar f t') =
      estimateSidecar f t'' := by
  have hdialect : sameBillingUsageDialect (estimateSidecar f t) (estimateSidecar f t') = true := by
    simp [sameBillingUsageDialect, estimateSidecar]
  refine ⟨(mergeOpenAIUsage (estimateUsage f t) (estimateUsage f t')).totalTokens, ?_⟩
  simp only [mergeBillingUsageNonZero, hdialect]
  simp [estimateSidecar, estimateUsage, mergePayload, mergeOpenAIUsage, mergeInputTokenDetails,
    mergeOutputTokenDetails]

variable {m : GeminiUsage}

theorem canonicalUsage_gemini (h : m.hasTokens = true) :
    (geminiSidecar m).canonicalUsage = some (canonicalGeminiUsage (geminiSidecar m) m) := by
  have hsource : equalFold (trimSpace sourceGeminiChat) sourceGeminiChat = true := by decide +kernel
  simp [BillingUsage.canonicalUsage, geminiSidecar, h, hsource]

variable {f : Int}

theorem canonicalUsage_estimate (hf : 0 < f) (t : Int) :
    ∃ c, (estimateSidecar f t).canonicalUsage = some c ∧ c.tally = estimateTally f := by
  have hsource : equalFold (trimSpace sourceOAIChat) sourceOAIChat = true := by decide +kernel
  have hne : f ≠ 0 := by omega
  have htokens : (estimateUsage f t).hasTokens = true := by
    simp [OpenAIUsage.hasTokens, estimateUsage, hne]
  refine ⟨canonicalOpenAIUsage (estimateSidecar f t) (estimateUsage f t), ?_, ?_⟩
  · simp [BillingUsage.canonicalUsage, estimateSidecar, hsource, htokens]
  · simp [OpenAIUsage.tally, canonicalOpenAIUsage, estimateTally, estimateUsage]

def StreamState.sidecar : Option BillingUsage := s.usage.bind Usage.billingUsage

variable (u : Option Usage)

@[simp] theorem sidecar_rememberUsage :
    (s.rememberUsage u).sidecar = mergeSidecar s.sidecar (u.bind Usage.billingUsage) := by
  cases u with
  | none => rfl
  | some u =>
    unfold StreamState.rememberUsage StreamState.sidecar mergeUsageNonZero
    cases s.usage with
    | none => rfl
    | some v => rfl

/-- A sidecar remembered `n` times. -/
def absorb (b : BillingUsage) : Nat → Option BillingUsage → Option BillingUsage
  | 0, x => x
  | n + 1, x => absorb b n (mergeSidecar x (some b))

/-! ## The counts of a snapshot -/

variable (m)

def GeminiUsage.promptIn (key : String) : Int :=
  counted key m.promptTokensDetails + counted key m.toolUsePromptTokensDetails

def GeminiUsage.candidatesIn (key : String) : Int :=
  counted key m.candidatesTokensDetails

def modalities : List String := ["TEXT", "IMAGE", "AUDIO"]

def GeminiUsage.SameDetails (a b : GeminiUsage) : Prop :=
  ∀ key ∈ modalities, a.promptIn key = b.promptIn key ∧ a.candidatesIn key = b.candidatesIn key

def GeminiUsage.Undetailed : Prop :=
  ∀ key ∈ modalities, m.promptIn key = 0 ∧ m.candidatesIn key = 0

theorem foldl_addGeminiInputTokenDetail (ds : List GeminiTokenDetail) (details : InputTokenDetails) :
    ds.foldl addGeminiInputTokenDetail details = { details with
          audioTokens := details.audioTokens + counted "AUDIO" ds
          imageTokens := details.imageTokens + counted "IMAGE" ds
          textTokens := details.textTokens + counted "TEXT" ds } := by
  induction ds generalizing details with
  | nil => simp
  | cons d ds ih =>
    rw [foldl_cons, ih]
    unfold addGeminiInputTokenDetail
    by_cases haudio : d.key = "AUDIO"
    · simp [haudio, add_assoc]
    by_cases himage : d.key = "IMAGE"
    · simp [himage, add_assoc]
    by_cases htext : d.key = "TEXT"
    · simp [htext, add_assoc]
    · simp [haudio, himage, htext]

theorem foldl_addGeminiOutputTokenDetail (ds : List GeminiTokenDetail)
    (details : OutputTokenDetails) : ds.foldl addGeminiOutputTokenDetail details = { details with
          audioTokens := details.audioTokens + counted "AUDIO" ds
          imageTokens := details.imageTokens + counted "IMAGE" ds
          textTokens := details.textTokens + counted "TEXT" ds } := by
  induction ds generalizing details with
  | nil => simp
  | cons d ds ih =>
    rw [foldl_cons, ih]
    unfold addGeminiOutputTokenDetail
    by_cases haudio : d.key = "AUDIO"
    · simp [haudio, add_assoc]
    by_cases himage : d.key = "IMAGE"
    · simp [himage, add_assoc]
    by_cases htext : d.key = "TEXT"
    · simp [htext, add_assoc]
    · simp [haudio, himage, htext]

def GeminiUsage.completion : Int :=
  if m.candidatesTokenCount + m.thoughtsTokenCount ≤ 0 then
    max (m.totalTokenCount - (m.promptTokenCount + m.toolUsePromptTokenCount)) 0
  else m.candidatesTokenCount + m.thoughtsTokenCount

/-- The text count of a decoded record: all of the prompt when the record has
    neither text nor audio. -/
def GeminiUsage.promptText : Int :=
  if 0 < m.promptTokenCount + m.toolUsePromptTokenCount ∧ m.promptIn "TEXT" = 0 ∧
      m.promptIn "AUDIO" = 0 then m.promptTokenCount + m.toolUsePromptTokenCount
  else m.promptIn "TEXT"

variable {m}

theorem tally_eq (hprompt : 0 ≤ m.promptTokenCount)
    (htool : 0 ≤ m.toolUsePromptTokenCount) (hcand : 0 ≤ m.candidatesTokenCount)
    (hthoughts : 0 ≤ m.thoughtsTokenCount) : m.tally =
    { prompt := m.promptTokenCount + m.toolUsePromptTokenCount
      completion := m.completion
      cached := m.cachedContentTokenCount
      reasoning := m.thoughtsTokenCount
      promptText := m.promptText
      promptImage := m.promptIn "IMAGE"
      promptAudio := m.promptIn "AUDIO"
      completionText := m.candidatesIn "TEXT"
      completionImage := m.candidatesIn "IMAGE"
      completionAudio := m.candidatesIn "AUDIO" } := by
  have hcompletion : (if m.totalTokenCount = 0 then m.candidatesTokenCount + m.thoughtsTokenCount
      else if m.candidatesTokenCount + m.thoughtsTokenCount ≤ 0 then
        max (m.totalTokenCount - (m.promptTokenCount + m.toolUsePromptTokenCount)) 0
      else m.candidatesTokenCount + m.thoughtsTokenCount) = m.completion := by
    unfold GeminiUsage.completion
    split_ifs <;> omega
  unfold GeminiUsage.tally canonicalGeminiUsage OpenAIUsage.tally
  simp only [foldl_addGeminiInputTokenDetail, foldl_addGeminiOutputTokenDetail, hcompletion, zero_add]
  unfold GeminiUsage.promptText GeminiUsage.promptIn GeminiUsage.candidatesIn
  split_ifs <;> simp

variable {ds : List GeminiTokenDetail}

theorem counted_nonneg (h : ∀ d ∈ ds, 0 ≤ d.tokenCount) (key : String) : 0 ≤ counted key ds := by
  induction ds with
  | nil => simp
  | cons d ds ih =>
    have hd := h d mem_cons_self
    have hrest := ih fun e he => h e (mem_cons_of_mem _ he)
    rw [counted_cons]
    split <;> omega

theorem sum_gained (h : ∀ d ∈ ds, 0 ≤ d.tokenCount)
    (key : String) : (ds.map (gained key)).sum = counted key ds := by
  induction ds with
  | nil => simp
  | cons d ds ih =>
    have hd := h d mem_cons_self
    rw [List.map_cons, List.sum_cons, counted_cons, ih fun e he => h e (mem_cons_of_mem _ he)]
    unfold gained
    split <;> omega

theorem anyCounted_of_counted {key : String} (h : 0 < counted key ds) : anyCounted ds = true := by
  induction ds with
  | nil => simp at h
  | cons d ds ih =>
    unfold anyCounted at ih ⊢
    rw [List.any_cons, Bool.or_eq_true]
    rw [counted_cons] at h
    by_cases hd : d.tokenCount = 0
    · right
      apply ih
      simpa [hd] using h
    · left
      simpa using hd

theorem counted_of_anyCounted (hpos : ∀ d ∈ ds, 0 ≤ d.tokenCount)
    (h : anyCounted ds = true) : ∃ key, 0 < counted key ds := by
  obtain ⟨d, hd, hne⟩ := List.any_eq_true.1 h
  obtain ⟨as, bs, rfl⟩ := List.append_of_mem hd
  refine ⟨d.key, ?_⟩
  have hleft : 0 ≤ counted d.key as :=
    counted_nonneg (fun e he => hpos e (mem_append_left _ he)) _
  have hright : 0 ≤ counted d.key bs :=
    counted_nonneg (fun e he => hpos e (List.mem_append_right _ (mem_cons_of_mem _ he))) _
  have hself := hpos d hd
  have hne' : d.tokenCount ≠ 0 := by simpa using hne
  rw [counted_append, counted_cons, if_pos rfl]
  omega

theorem GeminiUsage.NonNeg.promptIn (h : m.NonNeg) (key : String) : 0 ≤ m.promptIn key :=
  add_nonneg (counted_nonneg h.promptDetails key) (counted_nonneg h.toolUseDetails key)

theorem GeminiUsage.NonNeg.candidatesIn (h : m.NonNeg) (key : String) : 0 ≤ m.candidatesIn key :=
  counted_nonneg h.candidatesDetails key

variable {a b : GeminiUsage}

theorem GeminiUsage.Below.promptIn (h : a.Below b) (key : String) :
    a.promptIn key ≤ b.promptIn key :=
  add_le_add (h.promptDetails key) (h.toolUseDetails key)

theorem below_refl (m : GeminiUsage) : m.Below m :=
  ⟨le_rfl, le_rfl, le_rfl, le_rfl, .inl le_rfl, le_rfl, fun _ => le_rfl, fun _ => le_rfl,
    fun _ => le_rfl⟩

theorem GeminiUsage.Below.hasTokens (h : a.Below b) (ha : a.NonNeg)
    (htokens : a.hasTokens = true) : b.hasTokens = true := by
  have key : ∀ {ds es : List GeminiTokenDetail}, (∀ d ∈ ds, 0 ≤ d.tokenCount) →
      (∀ k, counted k ds ≤ counted k es) → anyCounted ds = true → anyCounted es = true := by
    intro ds es hpos hle hany
    obtain ⟨k, hk⟩ := counted_of_anyCounted hpos hany
    exact anyCounted_of_counted (hk.trans_le (hle k))
  unfold GeminiUsage.hasTokens at htokens ⊢
  simp only [Bool.or_eq_true, bne_iff_ne, ne_eq] at htokens ⊢
  have hp := h.prompt
  have ht := h.toolUse
  have hc := h.candidates
  have htot := h.total
  have hth := h.thoughts
  have hca := h.cached
  have := ha.prompt
  have := ha.toolUse
  have := ha.candidates
  have := ha.total
  have := ha.thoughts
  have := ha.cached
  rcases htokens with (((hscalar | hd) | hd) | hd)
  · by_cases hb : b.promptTokenCount = 0 ∧ b.toolUsePromptTokenCount = 0 ∧
        b.candidatesTokenCount = 0 ∧ b.totalTokenCount = 0 ∧ b.thoughtsTokenCount = 0 ∧
        b.cachedContentTokenCount = 0
    · omega
    · exact .inl (.inl (.inl (by omega)))
  · exact .inl (.inl (.inr (key ha.promptDetails h.promptDetails hd)))
  · exact .inl (.inr (key ha.toolUseDetails h.toolUseDetails hd))
  · exact .inr (key ha.candidatesDetails h.candidatesDetails hd)

/-! ## What the merge keeps -/

/-- A merged record `m` stands for snapshot `b`: the counts that are overwritten
    are those of `b`, and by modality it has at least those of `b`. -/
structure GeminiUsage.Follows (m b : GeminiUsage) : Prop where
  prompt : m.promptTokenCount = b.promptTokenCount
  toolUse : m.toolUsePromptTokenCount = b.toolUsePromptTokenCount
  candidates : m.candidatesTokenCount = b.candidatesTokenCount
  thoughts : m.thoughtsTokenCount = b.thoughtsTokenCount
  cached : m.cachedContentTokenCount = b.cachedContentTokenCount
  total : b.totalTokenCount ≤ m.totalTokenCount
  completion : m.completion = b.completion
  promptDetails : ∀ key, counted key b.promptTokensDetails ≤ counted key m.promptTokensDetails
  toolUseDetails : ∀ key,
    counted key b.toolUsePromptTokensDetails ≤ counted key m.toolUsePromptTokensDetails
  candidatesDetails : ∀ key,
    counted key b.candidatesTokensDetails ≤ counted key m.candidatesTokensDetails

theorem follows_refl (b : GeminiUsage) : b.Follows b :=
  ⟨rfl, rfl, rfl, rfl, rfl, le_rfl, rfl, fun _ => le_rfl, fun _ => le_rfl, fun _ => le_rfl⟩

theorem overlay_of_le {a b : Int} (ha : 0 ≤ a) (h : a ≤ b) : overlay a b = b := by
  unfold overlay
  split <;> omega

/-- **Counts by modality add up.** -/
theorem promptIn_mergeGeminiUsage (a : GeminiUsage) (h : b.NonNeg) (key : String) :
    (mergeGeminiUsage a b).promptIn key = a.promptIn key + b.promptIn key := by
  unfold GeminiUsage.promptIn mergeGeminiUsage
  simp only [counted_mergeGeminiTokenDetails, sum_gained h.promptDetails, sum_gained h.toolUseDetails]
  omega

theorem candidatesIn_mergeGeminiUsage (a : GeminiUsage) (h : b.NonNeg) (key : String) :
    (mergeGeminiUsage a b).candidatesIn key = a.candidatesIn key + b.candidatesIn key := by
  unfold GeminiUsage.candidatesIn mergeGeminiUsage
  simp only [counted_mergeGeminiTokenDetails, sum_gained h.candidatesDetails]

/-- **The counts that are overwritten follow the snapshots.** -/
theorem GeminiUsage.Follows.merge (h : m.Follows a) (ha : a.NonNeg)
    (hb : b.NonNeg) (hle : a.Below b) : (mergeGeminiUsage m b).Follows b := by
  have hprompt : overlay m.promptTokenCount b.promptTokenCount = b.promptTokenCount := by
    rw [h.prompt]
    exact overlay_of_le ha.prompt hle.prompt
  have htool : overlay m.toolUsePromptTokenCount b.toolUsePromptTokenCount =
      b.toolUsePromptTokenCount := by
    rw [h.toolUse]
    exact overlay_of_le ha.toolUse hle.toolUse
  have hcand : overlay m.candidatesTokenCount b.candidatesTokenCount = b.candidatesTokenCount := by
    rw [h.candidates]
    exact overlay_of_le ha.candidates hle.candidates
  have hthoughts : (if 0 < b.candidatesTokenCount then b.thoughtsTokenCount
      else overlay m.thoughtsTokenCount b.thoughtsTokenCount) = b.thoughtsTokenCount := by
    rw [h.thoughts]
    split
    · rfl
    · exact overlay_of_le ha.thoughts (hle.thoughts.resolve_right ‹_›)
  have hcached : overlay m.cachedContentTokenCount b.cachedContentTokenCount =
      b.cachedContentTokenCount := by
    rw [h.cached]
    exact overlay_of_le ha.cached hle.cached
  have htotal : overlay m.totalTokenCount b.totalTokenCount = b.totalTokenCount ∨
      b.totalTokenCount = 0 ∧
        overlay m.totalTokenCount b.totalTokenCount = m.totalTokenCount := by
    have := hb.total
    unfold overlay
    split <;> omega
  have hdetails : ∀ {ds es : List GeminiTokenDetail}, (∀ d ∈ es, 0 ≤ d.tokenCount) →
      (∀ key, 0 ≤ counted key ds) →
      ∀ key, counted key es ≤ counted key (mergeGeminiTokenDetails ds es) := by
    intro ds es hpos hds key
    rw [counted_mergeGeminiTokenDetails, sum_gained hpos]
    have := hds key
    omega
  refine ⟨hprompt, htool, hcand, hthoughts, hcached, ?_, ?_, ?_, ?_, ?_⟩
  · have := h.total
    have := ha.total
    simp only [mergeGeminiUsage]
    omega
  · -- a total counts only where nothing was generated yet
    have hold := h.completion
    have hmono : a.totalTokenCount ≤ b.totalTokenCount := hle.total
    simp only [GeminiUsage.completion, h.prompt, h.toolUse, h.candidates, h.thoughts] at hold
    simp only [GeminiUsage.completion, mergeGeminiUsage, GeminiUsage.parts, hprompt, htool, hcand,
      hthoughts]
    have := h.total
    have := ha.prompt
    have := ha.toolUse
    have := ha.candidates
    have := ha.thoughts
    have := ha.total
    have := hb.candidates
    have := hb.thoughts
    have := hle.prompt
    have := hle.toolUse
    have := hle.candidates
    have := hle.thoughts
    split at hold <;> split <;> omega
  · exact hdetails hb.promptDetails fun key =>
      (counted_nonneg ha.promptDetails key).trans (h.promptDetails key)
  · exact hdetails hb.toolUseDetails fun key =>
      (counted_nonneg ha.toolUseDetails key).trans (h.toolUseDetails key)
  · exact hdetails hb.candidatesDetails fun key =>
      (counted_nonneg ha.candidatesDetails key).trans (h.candidatesDetails key)

theorem GeminiUsage.Follows.promptIn (h : m.Follows b) (key : String) :
    b.promptIn key ≤ m.promptIn key :=
  add_le_add (h.promptDetails key) (h.toolUseDetails key)

/-- **A merged record is decoded to the counts of the snapshot** exactly when its
    counts by modality are those of the snapshot. -/
theorem GeminiUsage.Follows.tally_iff (h : m.Follows b) (hb : b.NonNeg)
    (hzero : ∀ key ∈ modalities, b.promptIn key = 0 → m.promptIn key = 0) :
    m.tally = b.tally ↔ m.SameDetails b := by
  have hm := tally_eq (m := m) (h.prompt ▸ hb.prompt) (h.toolUse ▸ hb.toolUse)
    (h.candidates ▸ hb.candidates) (h.thoughts ▸ hb.thoughts)
  rw [hm, tally_eq hb.prompt hb.toolUse hb.candidates hb.thoughts]
  have htext := hzero "TEXT" (by simp [modalities])
  have hlt := h.promptIn "TEXT"
  have hprompt : m.promptIn "AUDIO" = b.promptIn "AUDIO" →
      (m.promptText = b.promptText ↔ m.promptIn "TEXT" = b.promptIn "TEXT") := by
    intro heq
    unfold GeminiUsage.promptText
    rw [h.prompt, h.toolUse]
    split_ifs <;> omega
  simp only [Tally.mk.injEq, h.prompt, h.toolUse, h.cached, h.thoughts, h.completion, true_and]
  unfold GeminiUsage.SameDetails modalities
  simp only [mem_cons, not_mem_nil, or_false, forall_eq_or_imp, forall_eq]
  constructor
  · rintro ⟨hpt, hpi, hpa, hct, hci, hca⟩
    exact ⟨⟨(hprompt hpa).1 hpt, hct⟩, ⟨hpi, hci⟩, hpa, hca⟩
  · rintro ⟨⟨hpt, hct⟩, ⟨hpi, hci⟩, hpa, hca⟩
    exact ⟨(hprompt hpa).2 hpt, hpi, hpa, hct, hci, hca⟩

/-! ## One chunk -/

def GeminiChunk.counts (c : GeminiChunk) : Bool := c.metadata.any fun m => m.hasTokens

theorem foldl_addDisplayInput_zero (h : ∀ d ∈ ds, d.tokenCount = 0)
    (details : InputTokenDetails) : ds.foldl addDisplayInput details = details := by
  induction ds generalizing details with
  | nil => rfl
  | cons d ds ih =>
    have hd : addDisplayInput details d = details := by
      simp [addDisplayInput, h d mem_cons_self]
    rw [foldl_cons, hd]
    exact ih (fun e he => h e (mem_cons_of_mem _ he)) _

theorem foldl_addDisplayOutput_zero (h : ∀ d ∈ ds, d.tokenCount = 0)
    (details : OutputTokenDetails) : ds.foldl addDisplayOutput details = details := by
  induction ds generalizing details with
  | nil => rfl
  | cons d ds ih =>
    have hd : addDisplayOutput details d = details := by
      simp [addDisplayOutput, h d mem_cons_self]
    rw [foldl_cons, hd]
    exact ih (fun e he => h e (mem_cons_of_mem _ he)) _

theorem zero_of_not_anyCounted (h : anyCounted ds = false) : ∀ d ∈ ds, d.tokenCount = 0 := by
  intro d hd
  simpa using List.any_eq_false.1 h d hd

theorem usageFromGeminiMetadata_zero {m : GeminiUsageMetadata} (hnative : m.billingUsage = none)
    (h : m.hasTokens = false) (f : Int) : usageFromGeminiMetadata (some m) f =
      some { toOpenAIUsage := if 0 < f then estimateUsage f 0 else {} } := by
  have hsidecar : newGeminiChatBillingUsage m.toGeminiUsage = none := by
    simp [newGeminiChatBillingUsage, h]
  unfold GeminiUsage.hasTokens at h
  simp only [Bool.or_eq_false_iff, bne_eq_false_iff_eq] at h
  obtain ⟨⟨⟨⟨⟨⟨⟨⟨hp, ht⟩, hc⟩, htot⟩, hth⟩, hca⟩, hpd⟩, htd⟩, hcd⟩ := h
  unfold usageFromGeminiMetadata
  simp only [hp, ht, hc, htot, hth, hca, hnative, hsidecar,
    foldl_addDisplayInput_zero (zero_of_not_anyCounted hpd),
    foldl_addDisplayInput_zero (zero_of_not_anyCounted htd),
    foldl_addDisplayOutput_zero (zero_of_not_anyCounted hcd)]
  by_cases hf : 0 < f
  · simp [promptOrFallback, hf, estimateUsage]
  · simp [promptOrFallback, hf]

theorem usageFromGeminiMetadata_none (f : Int) : usageFromGeminiMetadata none f =
      if 0 < f then some { toOpenAIUsage := estimateUsage f 0 } else none := by
  by_cases hf : 0 < f
  · simp [usageFromGeminiMetadata, hf, not_le.2 hf, estimateUsage]
  · simp [usageFromGeminiMetadata, hf, not_lt.1 hf]

theorem usageFromGeminiMetadata_some {m : GeminiUsageMetadata} (hnative : m.billingUsage = none)
    (h : m.hasTokens = true) (f : Int) : ∃ u, usageFromGeminiMetadata (some m) f = some u ∧
      u.billingUsage = some (geminiSidecar m.toGeminiUsage) := by
  refine ⟨_, rfl, ?_⟩
  simp [hnative, newGeminiChatBillingUsage, h, geminiSidecar]

theorem sidecar_usageFromChatUsage {u : Usage} {b : BillingUsage} (h : u.billingUsage = some b) :
    (usageFromChatUsage u).billingUsage = some b := by
  simp [usageFromChatUsage, h]

theorem sidecar_usageFromChatUsage_estimate (hf : 0 < f) :
    (usageFromChatUsage { toOpenAIUsage := estimateUsage f 0 }).billingUsage =
      some (estimateSidecar f 0) := by
  have hne : f ≠ 0 := by omega
  simp [usageFromChatUsage, newOpenAIChatBillingUsage, OpenAIUsage.hasTokens, estimateUsage, hne,
    estimateSidecar]

theorem sidecar_usageFromChatUsage_empty : (usageFromChatUsage {}).billingUsage = none := by
  decide

@[simp] theorem sidecar_with (latest : Option Usage) (responses : Usage) :
    StreamState.sidecar ⟨s.usage, latest, responses⟩ = s.sidecar := rfl

@[simp] theorem latestUsage_rememberUsage : (s.rememberUsage u).latestUsage = s.latestUsage := by
  cases u <;> rfl

@[simp] theorem responsesUsage_rememberUsage :
    (s.rememberUsage u).responsesUsage = s.responsesUsage := by
  cases u <;> rfl

def chatSidecar : Option BillingUsage :=
  u.bind fun u => (usageFromChatUsage u).billingUsage

@[simp] theorem bind_map_usageFromChatUsage :
    (u.map usageFromChatUsage).bind Usage.billingUsage = chatSidecar u := by
  cases u <;> rfl

theorem convert_gemini (f : Int) (s : StreamState) (c : GeminiChunk) :
    convertStreamResponseChunk .gemini f s c =
      s.rememberUsage (usageFromGeminiMetadata c.metadata 0) := rfl

theorem convert_chat (f : Int) (s : StreamState) (c : GeminiChunk) :
    (convertStreamResponseChunk .chat f s c).sidecar = mergeSidecar (mergeSidecar s.sidecar
          ((usageFromGeminiMetadata c.metadata f).bind Usage.billingUsage))
        ((usageFromGeminiMetadata c.metadata f).bind Usage.billingUsage) := by
  unfold convertStreamResponseChunk
  simp [Target.specs, executeResponseStreamSteps, executeStepOn, executeResponseStreamStep]

theorem convert_claude (f : Int) (s : StreamState) (c : GeminiChunk) :
    (convertStreamResponseChunk .claude f s c).latestUsage =
      (usageFromGeminiMetadata c.metadata f).or s.latestUsage ∧
    (convertStreamResponseChunk .claude f s c).sidecar =
      (let u := usageFromGeminiMetadata c.metadata f
       let latest := u.or s.latestUsage
       let first := mergeSidecar (mergeSidecar s.sidecar (u.bind Usage.billingUsage)) (chatSidecar u)
       if c.terminal then
         mergeSidecar (mergeSidecar first (chatSidecar latest))
           (((latest.map usageFromChatUsage).or ((u.map usageFromChatUsage).or u)).bind
             Usage.billingUsage)
       else mergeSidecar first (((u.map usageFromChatUsage).or u).bind Usage.billingUsage)) := by
  obtain ⟨metadata, terminal⟩ := c
  unfold convertStreamResponseChunk
  cases terminal with
  | false | true =>
    simp [Target.specs, executeResponseStreamSteps, executeStepOn, executeResponseStreamStep]

theorem convert_responses (f : Int) (s : StreamState) (c : GeminiChunk) :
    (convertStreamResponseChunk .responses f s c).latestUsage =
      (usageFromGeminiMetadata c.metadata f).or s.latestUsage ∧
    (let u := usageFromGeminiMetadata c.metadata f
     let latest := u.or s.latestUsage
     let r := (u.map usageFromChatUsage).getD s.responsesUsage
     let r' := if c.terminal then (latest.map usageFromChatUsage).getD r else r
     let first := mergeSidecar (mergeSidecar s.sidecar (u.bind Usage.billingUsage)) r.billingUsage
     (convertStreamResponseChunk .responses f s c).responsesUsage = r' ∧
     (convertStreamResponseChunk .responses f s c).sidecar =
       if c.terminal then mergeSidecar (mergeSidecar first r'.billingUsage) r'.billingUsage
       else mergeSidecar first r'.billingUsage) := by
  obtain ⟨metadata, terminal⟩ := c
  unfold convertStreamResponseChunk
  cases terminal with
  | false | true =>
    simp [Target.specs, executeResponseStreamSteps, executeStepOn, executeResponseStreamStep]

variable (x : Option BillingUsage)

@[simp] theorem mergeSidecar_none : mergeSidecar x none = x := rfl

def Target.TwoSteps (t : Target) : Prop := t = .claude ∨ t = .responses

theorem not_twoSteps_gemini : ¬ Target.TwoSteps .gemini := by
  rintro (h | h) <;> cases h

/-- What the step states of a route hold back is the sidecar of snapshot `cur`. -/
structure Held (target : Target) (cur : Option GeminiUsage) (s : StreamState) : Prop where
  latest : target.TwoSteps → chatSidecar s.latestUsage = cur.map geminiSidecar
  responses : target = .responses → s.responsesUsage.billingUsage = cur.map geminiSidecar

variable {target : Target} {c : GeminiChunk}

/-- **A chunk with tokens**: its sidecar is remembered at least twice. -/
theorem convert_counted (htarget : target ≠ .gemini) (f : Int) (s : StreamState)
    {m : GeminiUsageMetadata} (hm : c.metadata = some m)
    (hnative : m.billingUsage = none) (htokens : m.hasTokens = true) :
    (∃ n, (convertStreamResponseChunk target f s c).sidecar =
      absorb (geminiSidecar m.toGeminiUsage) (n + 2) s.sidecar) ∧
    Held target (some m.toGeminiUsage) (convertStreamResponseChunk target f s c) := by
  obtain ⟨u, hu, hside⟩ := usageFromGeminiMetadata_some hnative htokens f
  have hchat : chatSidecar (some u) = some (geminiSidecar m.toGeminiUsage) :=
    sidecar_usageFromChatUsage hside
  have hfrom := sidecar_usageFromChatUsage hside
  cases target with
  | gemini => exact absurd rfl htarget
  | chat =>
    refine ⟨⟨0, ?_⟩, ?_, nofun⟩
    · rw [convert_chat, hm, hu, bind_some, hside]
      rfl
    · rintro (h | h) <;> cases h
  | claude =>
    obtain ⟨hlatest, hsidecar⟩ := convert_claude f s c
    rw [hm, hu] at hlatest hsidecar
    refine ⟨?_, fun _ => by rw [hlatest]; exact hchat, nofun⟩
    rw [hsidecar]
    simp only [some_or, bind_some, map_some, hside, hchat, hfrom]
    split
    · exact ⟨2, rfl⟩
    · exact ⟨1, rfl⟩
  | responses =>
    obtain ⟨hlatest, hresponses, hsidecar⟩ := convert_responses f s c
    rw [hm, hu] at hlatest hresponses hsidecar
    simp only [some_or, bind_some, map_some, getD_some, ite_self,
      hside, hfrom] at hresponses hsidecar
    refine ⟨?_, fun _ => by rw [hlatest]; exact hchat, fun _ => by rw [hresponses]; exact hfrom⟩
    rw [hsidecar]
    split
    · exact ⟨2, rfl⟩
    · exact ⟨1, rfl⟩

theorem usage_uncounted (hnative : ∀ m, c.metadata = some m → m.billingUsage = none)
    (h : c.counts = false) (f : Int) :
    (0 < f ∧ usageFromGeminiMetadata c.metadata f = some { toOpenAIUsage := estimateUsage f 0 }) ∨
    (f ≤ 0 ∧ c.metadata = none ∧ usageFromGeminiMetadata c.metadata f = none) ∨
    (f ≤ 0 ∧ c.metadata ≠ none ∧ usageFromGeminiMetadata c.metadata f = some {}) := by
  unfold GeminiChunk.counts at h
  cases hm : c.metadata with
  | none =>
    rw [usageFromGeminiMetadata_none]
    by_cases hf : 0 < f
    · exact .inl ⟨hf, if_pos hf⟩
    · exact .inr (.inl ⟨not_lt.1 hf, rfl, if_neg hf⟩)
  | some m =>
    have htokens : m.hasTokens = false := by simpa [hm] using h
    rw [usageFromGeminiMetadata_zero (hnative m hm) htokens]
    by_cases hf : 0 < f
    · exact .inl ⟨hf, by rw [if_pos hf]⟩
    · exact .inr (.inr ⟨not_lt.1 hf, nofun, by rw [if_neg hf]⟩)

theorem convert_uncounted_short (htarget : ¬ target.TwoSteps) (f : Int) (s : StreamState)
    (hnative : ∀ m, c.metadata = some m → m.billingUsage = none) (h : c.counts = false) :
    (convertStreamResponseChunk target f s c).sidecar = s.sidecar := by
  have hnone : ∀ f, (usageFromGeminiMetadata c.metadata f).bind Usage.billingUsage = none := by
    intro f
    obtain ⟨-, hu⟩ | ⟨-, -, hu⟩ | ⟨-, -, hu⟩ := usage_uncounted hnative h f <;> rw [hu] <;> rfl
  cases target with
  | gemini => rw [convert_gemini, sidecar_rememberUsage, hnone, mergeSidecar_none]
  | chat => rw [convert_chat, hnone, mergeSidecar_none, mergeSidecar_none]
  | claude => exact absurd (.inl rfl) htarget
  | responses => exact absurd (.inr rfl) htarget

theorem convert_uncounted_estimate (htarget : target.TwoSteps) (hf : 0 < f) (s : StreamState)
    (hnative : ∀ m, c.metadata = some m → m.billingUsage = none) (h : c.counts = false) :
    ∃ n, (convertStreamResponseChunk target f s c).sidecar =
      absorb (estimateSidecar f 0) (n + 1) s.sidecar := by
  have hu : usageFromGeminiMetadata c.metadata f = some { toOpenAIUsage := estimateUsage f 0 } := by
    obtain ⟨-, hu⟩ | ⟨hle, -⟩ | ⟨hle, -⟩ := usage_uncounted hnative h f
    · exact hu
    · omega
    · omega
  have hfrom := sidecar_usageFromChatUsage_estimate hf
  have hchat : chatSidecar (some { toOpenAIUsage := estimateUsage f 0 }) =
      some (estimateSidecar f 0) := hfrom
  obtain rfl | rfl := htarget
  · rw [(convert_claude f s c).2, hu]
    simp only [some_or, bind_some, map_some, mergeSidecar_none, hchat, hfrom]
    split
    · exact ⟨2, rfl⟩
    · exact ⟨1, rfl⟩
  obtain ⟨-, -, hsidecar⟩ := convert_responses f s c
  rw [hsidecar, hu]
  simp only [some_or, bind_some, map_some, getD_some, ite_self,
    mergeSidecar_none, hfrom]
  split
  · exact ⟨2, rfl⟩
  · exact ⟨1, rfl⟩

variable {s : StreamState}

/-- Without an estimate, a chunk without tokens repeats what the steps hold. -/
theorem convert_uncounted_repeat (htarget : target.TwoSteps) (hf : f ≤ 0) {cur : Option GeminiUsage}
    (hnative : ∀ m, c.metadata = some m → m.billingUsage = none) (h : c.counts = false)
    (hheld : Held target cur s) (hcur : cur = none ∨ c.metadata = none) :
    (∃ n, ∀ b, cur = some b → (convertStreamResponseChunk target f s c).sidecar =
      absorb (geminiSidecar b) n s.sidecar) ∧
    (cur = none → (convertStreamResponseChunk target f s c).sidecar = s.sidecar) ∧
    Held target cur (convertStreamResponseChunk target f s c) := by
  have hlatest := hheld.latest htarget
  obtain ⟨hpos, -⟩ | ⟨-, hm, hu⟩ | ⟨-, hm, hu⟩ := usage_uncounted hnative h f
  · omega
  · obtain rfl | rfl := htarget
    · obtain ⟨hl, hsidecar⟩ := convert_claude f s c
      rw [hu, none_or] at hl
      simp only [hu, none_or, map_none, bind_none, Option.or_none,
        bind_map_usageFromChatUsage, hlatest, mergeSidecar_none] at hsidecar
      have hnone : chatSidecar none = none := rfl
      rw [hnone, mergeSidecar_none] at hsidecar
      refine ⟨⟨if c.terminal then 2 else 0, ?_⟩, ?_, fun _ => by rw [hl]; exact hlatest, nofun⟩
      · rintro b rfl
        rw [hsidecar]
        split <;> rfl
      rintro rfl
      rw [hsidecar]
      split <;> rfl
    have hresponses := hheld.responses rfl
    obtain ⟨hl, hr, hsidecar⟩ := convert_responses f s c
    rw [hu, none_or] at hl
    have hr' : ((s.latestUsage.map usageFromChatUsage).getD s.responsesUsage).billingUsage =
        cur.map geminiSidecar := by
      cases hlast : s.latestUsage with
      | none => exact hresponses
      | some v =>
        rw [hlast] at hlatest
        exact hlatest
    simp only [hu, none_or, map_none, Option.getD_none, bind_none,
      mergeSidecar_none, hresponses] at hr hsidecar
    refine ⟨⟨if c.terminal then 3 else 2, ?_⟩, ?_, fun _ => by rw [hl]; exact hlatest, fun _ => ?_⟩
    · rintro b rfl
      rw [hsidecar]
      split
      · rw [hr']
        rfl
      · rw [hresponses]
        rfl
    · rintro rfl
      rw [hsidecar]
      split
      · rw [hr']
        rfl
      · rw [hresponses]
        rfl
    rw [hr]
    split
    · exact hr'
    · exact hresponses
  obtain rfl : cur = none := hcur.resolve_right hm
  have hempty : chatSidecar (some {}) = none := sidecar_usageFromChatUsage_empty
  refine ⟨⟨0, nofun⟩, fun _ => ?_, fun _ => ?_, ?_⟩
  · obtain rfl | rfl := htarget
    · rw [(convert_claude f s c).2, hu]
      split <;> rfl
    rw [(convert_responses f s c).2.2, hu]
    simp only [some_or, bind_some, map_some, getD_some, ite_self,
      mergeSidecar_none, sidecar_usageFromChatUsage_empty]
  · obtain rfl | rfl := htarget
    · rw [(convert_claude f s c).1, hu]
      exact hempty
    · rw [(convert_responses f s c).1, hu]
      exact hempty
  rintro rfl
  rw [(convert_responses f s c).2.1, hu]
  simp only [some_or, map_some, getD_some, ite_self]
  exact sidecar_usageFromChatUsage_empty

/-! ## A whole stream -/

def current (chunks : List GeminiChunk) : Option GeminiUsage :=
  (((snapshots chunks).map GeminiUsageMetadata.toGeminiUsage).filter GeminiUsage.hasTokens).getLast?

/-- The stream ends on a chunk without tokens, and the estimate of its prompt is
    passed on as its usage. -/
def Estimated (target : Target) (fallback : Int) (chunks : List GeminiChunk) : Prop :=
  target.TwoSteps ∧ 0 < fallback ∧ ∃ c, chunks.getLast? = some c ∧ c.counts = false

/-- What the merged record `m` has by modality, `b` being the last snapshot. -/
structure Grown (target : Target) (chunks : List GeminiChunk) (m b : GeminiUsage) : Prop where
  summed : target = .gemini → ∀ key,
    m.promptIn key = ((snapshots chunks).map fun a => a.toGeminiUsage.promptIn key).sum ∧
    m.candidatesIn key = ((snapshots chunks).map fun a => a.toGeminiUsage.candidatesIn key).sum
  doubled : target ≠ .gemini → ∀ key,
    (2 * b.promptIn key ≤ m.promptIn key ∧ (b.promptIn key = 0 → m.promptIn key = 0)) ∧
    2 * b.candidatesIn key ≤ m.candidatesIn key ∧
      (b.candidatesIn key = 0 → m.candidatesIn key = 0)

/-- The state after the chunks. -/
structure Tracks (target : Target) (fallback : Int) (chunks : List GeminiChunk) (s : StreamState) :
    Prop where
  held : fallback ≤ 0 → Held target (current chunks) s
  estimated : Estimated target fallback chunks →
    ∃ t, s.sidecar = some (estimateSidecar fallback t)
  empty : ¬ Estimated target fallback chunks → current chunks = none → s.sidecar = none
  counted : ¬ Estimated target fallback chunks → ∀ b, current chunks = some b →
    ∃ m, s.sidecar = some (geminiSidecar m) ∧ m.Follows b ∧ Grown target chunks m b

theorem absorb_follows (hb : b.NonNeg) (n : Nat) (h : m.Follows b) :
    ∃ m', absorb (geminiSidecar b) n (some (geminiSidecar m)) = some (geminiSidecar m') ∧
      m'.Follows b ∧ ∀ key, m'.promptIn key = m.promptIn key + n * b.promptIn key ∧
        m'.candidatesIn key = m.candidatesIn key + n * b.candidatesIn key := by
  induction n generalizing m with
  | zero => exact ⟨m, rfl, h, by simp⟩
  | succ n ih =>
    obtain ⟨m', heq, hfollows, hkey⟩ := ih (h.merge hb hb (below_refl b))
    refine ⟨m', ?_, hfollows, fun key => ?_⟩
    · rw [absorb, mergeSidecar, merge_gemini_gemini]
      exact heq
    obtain ⟨hp, hc⟩ := hkey key
    rw [promptIn_mergeGeminiUsage m hb] at hp
    rw [candidatesIn_mergeGeminiUsage m hb] at hc
    rw [hp, hc]
    push_cast
    constructor <;> ring

theorem absorb_estimate (f t : Int) (n : Nat) :
    ∃ t', absorb (estimateSidecar f 0) n (some (estimateSidecar f t)) =
      some (estimateSidecar f t') := by
  induction n generalizing t with
  | zero => exact ⟨t, rfl⟩
  | succ n ih =>
    obtain ⟨t', ht'⟩ := merge_estimate_estimate f t 0
    rw [absorb, mergeSidecar, ht']
    exact ih t'

def Known (f : Int) (x : Option BillingUsage) : Prop :=
  x = none ∨ (∃ t, x = some (estimateSidecar f t)) ∨ ∃ m, x = some (geminiSidecar m)

theorem absorb_estimate_of_known {x : Option BillingUsage} (h : Known f x) (n : Nat) :
    ∃ t, absorb (estimateSidecar f 0) (n + 1) x = some (estimateSidecar f t) := by
  rw [absorb]
  obtain rfl | ⟨t, rfl⟩ | ⟨m, rfl⟩ := h
  · exact absorb_estimate f 0 n
  · obtain ⟨t', ht'⟩ := merge_estimate_estimate f t 0
    rw [mergeSidecar, ht']
    exact absorb_estimate f t' n
  · rw [mergeSidecar, merge_gemini_estimate]
    exact absorb_estimate f 0 n

variable {cs : List GeminiChunk}

theorem Tracks.known (h : Tracks target f cs s) : Known f s.sidecar := by
  by_cases hest : Estimated target f cs
  · exact .inr (.inl (h.estimated hest))
  cases hcur : current cs with
  | none => exact .inl (h.empty hest hcur)
  | some b =>
    obtain ⟨m, hm, -⟩ := h.counted hest b hcur
    exact .inr (.inr ⟨m, hm⟩)

variable (cs)

theorem snapshots_concat (c : GeminiChunk) :
    snapshots (cs ++ [c]) = snapshots cs ++ c.metadata.toList := by
  unfold snapshots
  rw [List.filterMap_append]
  cases hm : c.metadata with
  | none | some m => simp [hm]

theorem current_concat_counted {m : GeminiUsageMetadata}
    (hm : c.metadata = some m) (h : m.hasTokens = true) :
    current (cs ++ [c]) = some m.toGeminiUsage := by
  unfold current
  rw [snapshots_concat, hm]
  simp [h]

theorem current_concat_uncounted (h : c.counts = false) : current (cs ++ [c]) = current cs := by
  unfold current
  rw [snapshots_concat]
  cases hm : c.metadata with
  | none => simp
  | some m =>
    have : m.hasTokens = false := by simpa [GeminiChunk.counts, hm] using h
    simp [this]

variable {cs}

theorem current_mem (h : current cs = some b) :
    ∃ m ∈ snapshots cs, m.toGeminiUsage = b ∧ b.hasTokens = true := by
  have hmem := List.mem_of_getLast? h
  obtain ⟨hmap, htokens⟩ := List.mem_filter.1 hmem
  obtain ⟨m, hm, rfl⟩ := mem_map.1 hmap
  exact ⟨m, hm, rfl, htokens⟩

variable {ms : List GeminiUsageMetadata}

theorem Cumulative.left {ns : List GeminiUsageMetadata} (h : Cumulative (ms ++ ns)) :
    Cumulative ms :=
  ⟨fun m hm => h.native m (mem_append_left _ hm),
    fun m hm => h.nonneg m (mem_append_left _ hm), (pairwise_append.1 h.below).1⟩

theorem undetailed_of_no_tokens (h : m.hasTokens = false) (key : String) :
    m.promptIn key = 0 ∧ m.candidatesIn key = 0 := by
  have hzero : ∀ {ds : List GeminiTokenDetail}, anyCounted ds = false → counted key ds = 0 := by
    intro ds hany
    have hall := zero_of_not_anyCounted hany
    refine sum_eq_zero fun x hx => ?_
    obtain ⟨d, hd, rfl⟩ := mem_map.1 hx
    simp [hall d hd]
  unfold GeminiUsage.hasTokens at h
  simp only [Bool.or_eq_false_iff] at h
  obtain ⟨⟨⟨-, hp⟩, ht⟩, hc⟩ := h
  exact ⟨by rw [GeminiUsage.promptIn, hzero hp, hzero ht, add_zero], hzero hc⟩

theorem sum_undetailed (h : current cs = none) (key : String) :
    ((snapshots cs).map fun a => a.toGeminiUsage.promptIn key).sum = 0 ∧
    ((snapshots cs).map fun a => a.toGeminiUsage.candidatesIn key).sum = 0 := by
  have hall : ∀ m ∈ snapshots cs, m.hasTokens = false := by
    intro m hm
    by_contra htokens
    unfold current at h
    rw [List.getLast?_eq_none_iff, List.filter_eq_nil_iff] at h
    exact h m.toGeminiUsage (List.mem_map_of_mem hm) (by simpa using htokens)
  constructor
  · refine sum_eq_zero fun x hx => ?_
    obtain ⟨m, hm, rfl⟩ := mem_map.1 hx
    exact (undetailed_of_no_tokens (hall m hm) key).1
  refine sum_eq_zero fun x hx => ?_
  obtain ⟨m, hm, rfl⟩ := mem_map.1 hx
  exact (undetailed_of_no_tokens (hall m hm) key).2

theorem mergeSidecar_snapshot (h : Tracks target f cs s) (hb : b.NonNeg)
    (hcur : ∀ a, current cs = some a → a.NonNeg ∧ a.Below b) :
    ∃ m, mergeSidecar s.sidecar (some (geminiSidecar b)) = some (geminiSidecar m) ∧ m.Follows b ∧
      ∀ key,
        (target = .gemini → m.promptIn key =
            ((snapshots cs).map fun a => a.toGeminiUsage.promptIn key).sum + b.promptIn key ∧
          m.candidatesIn key = ((snapshots cs).map fun a => a.toGeminiUsage.candidatesIn key).sum +
              b.candidatesIn key) ∧
        (target ≠ .gemini →
          (b.promptIn key ≤ m.promptIn key ∧ (b.promptIn key = 0 → m.promptIn key = 0)) ∧
          b.candidatesIn key ≤ m.candidatesIn key ∧
            (b.candidatesIn key = 0 → m.candidatesIn key = 0)) := by
  by_cases hest : Estimated target f cs
  · obtain ⟨t, ht⟩ := h.estimated hest
    refine ⟨b, ?_, follows_refl b, fun key => ⟨?_, fun _ => ⟨⟨le_rfl, id⟩, le_rfl, id⟩⟩⟩
    · rw [ht, mergeSidecar, merge_estimate_gemini]
    · rintro rfl
      exact absurd hest.1 not_twoSteps_gemini
  cases hc : current cs with
  | none =>
    refine ⟨b, ?_, follows_refl b, fun key => ⟨fun _ => ?_, fun _ => ⟨⟨le_rfl, id⟩, le_rfl, id⟩⟩⟩
    · rw [h.empty hest hc]
      rfl
    obtain ⟨hp, hcand⟩ := sum_undetailed hc key
    rw [hp, hcand, zero_add, zero_add]
    exact ⟨rfl, rfl⟩
  | some a =>
    obtain ⟨ha, hbelow⟩ := hcur a hc
    obtain ⟨m, hm, hfollows, hgrown⟩ := h.counted hest a hc
    refine ⟨mergeGeminiUsage m b, ?_, hfollows.merge ha hb hbelow, fun key => ?_⟩
    · rw [hm, mergeSidecar, merge_gemini_gemini]
    rw [promptIn_mergeGeminiUsage m hb, candidatesIn_mergeGeminiUsage m hb]
    refine ⟨fun ht => ?_, fun ht => ?_⟩
    · obtain ⟨hp, hcand⟩ := hgrown.summed ht key
      rw [hp, hcand]
      exact ⟨rfl, rfl⟩
    obtain ⟨⟨-, hp⟩, -, hcand⟩ := hgrown.doubled ht key
    have := ha.promptIn key
    have := ha.candidatesIn key
    have := hbelow.promptIn key
    have : a.candidatesIn key ≤ b.candidatesIn key := hbelow.candidatesDetails key
    have hmp := hfollows.promptIn key
    have hmc : a.candidatesIn key ≤ m.candidatesIn key := hfollows.candidatesDetails key
    refine ⟨⟨by omega, fun h0 => ?_⟩, by omega, fun h0 => ?_⟩
    · rw [hp (by omega)]
      omega
    · rw [hcand (by omega)]
      omega

/-- **One more chunk.** -/
theorem Tracks.step
    (h : Tracks target f cs s) (c : GeminiChunk) (hcum : Cumulative (snapshots (cs ++ [c]))) :
    Tracks target f (cs ++ [c]) (convertStreamResponseChunk target f s c) := by
  have hsnap := snapshots_concat cs c
  have hnative : ∀ m, c.metadata = some m → m.billingUsage = none := by
    intro m hm
    exact hcum.native m (by rw [hsnap, hm]; simp)
  have hpast : ∀ m, c.metadata = some m → ∀ a, current cs = some a →
      a.NonNeg ∧ a.hasTokens = true ∧ a.Below m.toGeminiUsage := by
    intro m hm a ha
    obtain ⟨x, hx, rfl, htokens⟩ := current_mem ha
    refine ⟨hcum.nonneg x (by rw [hsnap]; exact mem_append_left _ hx), htokens, ?_⟩
    have hbelow := hcum.below
    rw [hsnap, hm] at hbelow
    exact (pairwise_append.1 hbelow).2.2 x hx m (by simp)
  have hlast : (cs ++ [c]).getLast? = some c := List.getLast?_concat
  by_cases hcounts : c.counts = true
  · -- a snapshot with tokens
    obtain ⟨m, hm, htokens⟩ : ∃ m, c.metadata = some m ∧ m.hasTokens = true := by
      unfold GeminiChunk.counts at hcounts
      cases hm : c.metadata with
      | none => simp [hm] at hcounts
      | some m => exact ⟨m, rfl, by simpa [hm] using hcounts⟩
    have hcur := current_concat_counted cs hm htokens
    have hnonneg := hcum.nonneg m (by rw [hsnap, hm]; simp)
    have hnot : ¬ Estimated target f (cs ++ [c]) := by
      rintro ⟨-, -, c', hc', hfalse⟩
      rw [hlast] at hc'
      rw [← Option.some.inj hc', hcounts] at hfalse
      cases hfalse
    obtain ⟨m₁, hm₁, hfollows, hkeys⟩ := mergeSidecar_snapshot h hnonneg
      fun a ha => ⟨(hpast m hm a ha).1, (hpast m hm a ha).2.2⟩
    refine ⟨fun _ => ?_, fun hest => absurd hest hnot, fun _ hnone => ?_, fun _ b hb => ?_⟩
    · rw [hcur]
      by_cases ht : target = .gemini
      · subst ht
        exact ⟨fun h' => absurd h' not_twoSteps_gemini, nofun⟩
      · exact (convert_counted ht f s hm (hnative m hm) htokens).2
    · rw [hcur] at hnone
      cases hnone
    rw [hcur] at hb
    obtain rfl := Option.some.inj hb
    by_cases ht : target = .gemini
    · subst ht
      obtain ⟨u, hu, hside⟩ := usageFromGeminiMetadata_some (hnative m hm) htokens 0
      refine ⟨m₁, ?_, hfollows, fun _ key => ?_, fun hne => absurd rfl hne⟩
      · rw [convert_gemini, sidecar_rememberUsage, hm, hu, bind_some, hside]
        exact hm₁
      obtain ⟨hp, hc⟩ := (hkeys key).1 rfl
      rw [hsnap, hm, hp, hc]
      simp
    obtain ⟨⟨n, hn⟩, -⟩ := convert_counted ht f s hm (hnative m hm) htokens
    rw [absorb, hm₁] at hn
    obtain ⟨m₂, hm₂, hfollows₂, hkeys₂⟩ := absorb_follows hnonneg (n + 1) hfollows
    refine ⟨m₂, hn.trans hm₂, hfollows₂, fun h' => absurd h' ht, fun _ key => ?_⟩
    obtain ⟨⟨hle, hzero⟩, hcle, hczero⟩ := (hkeys key).2 ht
    obtain ⟨hp, hc⟩ := hkeys₂ key
    have hpos := hnonneg.promptIn key
    have hcpos := hnonneg.candidatesIn key
    have hmul : 0 ≤ (n : Int) * m.promptIn key := Int.mul_nonneg (Int.natCast_nonneg n) hpos
    have hcmul : 0 ≤ (n : Int) * m.candidatesIn key := Int.mul_nonneg (Int.natCast_nonneg n) hcpos
    push_cast at hp hc
    rw [add_mul, one_mul] at hp hc
    refine ⟨⟨by omega, fun h0 => ?_⟩, by omega, fun h0 => ?_⟩
    · rw [hp, hzero h0, h0]
      ring
    · rw [hc, hczero h0, h0]
      ring
  -- nothing is counted
  rw [Bool.not_eq_true] at hcounts
  have hcur := current_concat_uncounted cs hcounts
  have hzero : ∀ key, ((snapshots (cs ++ [c])).map fun a => a.toGeminiUsage.promptIn key).sum =
        ((snapshots cs).map fun a => a.toGeminiUsage.promptIn key).sum ∧
      ((snapshots (cs ++ [c])).map fun a => a.toGeminiUsage.candidatesIn key).sum =
        ((snapshots cs).map fun a => a.toGeminiUsage.candidatesIn key).sum := by
    intro key
    rw [hsnap]
    cases hm : c.metadata with
    | none => simp
    | some m =>
      have : m.hasTokens = false := by simpa [GeminiChunk.counts, hm] using hcounts
      obtain ⟨hp, hc⟩ := undetailed_of_no_tokens this key
      simp [hp, hc]
  have hgrown : ∀ {m b}, Grown target cs m b → Grown target (cs ++ [c]) m b := by
    intro m b hg
    refine ⟨fun ht key => ?_, hg.doubled⟩
    rw [(hzero key).1, (hzero key).2]
    exact hg.summed ht key
  by_cases htwo : target.TwoSteps
  · by_cases hf : 0 < f
    · obtain ⟨n, hn⟩ := convert_uncounted_estimate htwo hf s hnative hcounts
      have hest : Estimated target f (cs ++ [c]) := ⟨htwo, hf, c, hlast, hcounts⟩
      refine ⟨fun hle => absurd hf (not_lt.2 hle), fun _ => ?_, fun hno => absurd hest hno,
        fun hno => absurd hest hno⟩
      rw [hn]
      exact absorb_estimate_of_known h.known n
    have hnone : current cs = none ∨ c.metadata = none := by
      cases hm : c.metadata with
      | none => exact .inr rfl
      | some m =>
        left
        by_contra hsome
        obtain ⟨a, ha⟩ := Option.ne_none_iff_exists'.1 hsome
        obtain ⟨hna, htok, hbelow⟩ := hpast m hm a ha
        have hyes := hbelow.hasTokens hna htok
        simp [GeminiChunk.counts, hm, hyes] at hcounts
    obtain ⟨⟨n, hn⟩, hsame, hheld⟩ := convert_uncounted_repeat htwo (not_lt.1 hf) hnative hcounts
      (h.held (not_lt.1 hf)) hnone
    have hnot : ∀ cs, ¬ Estimated target f cs := fun cs hest => hf hest.2.1
    refine ⟨fun _ => ?_, fun hest => absurd hest (hnot _), fun _ hc => ?_, fun _ b hb => ?_⟩
    · rw [hcur]
      exact hheld
    · rw [hcur] at hc
      rw [hsame hc]
      exact h.empty (hnot _) hc
    rw [hcur] at hb
    obtain ⟨m, hm, hfollows, hg⟩ := h.counted (hnot _) b hb
    obtain ⟨x, hx, rfl, -⟩ := current_mem hb
    have hnonneg := hcum.nonneg x (by rw [hsnap]; exact mem_append_left _ hx)
    obtain ⟨m', hm', hfollows', hkeys⟩ := absorb_follows hnonneg n hfollows
    have ht : target ≠ .gemini := by
      rintro rfl
      exact not_twoSteps_gemini htwo
    refine ⟨m', ?_, hfollows', fun h' => absurd h' ht, fun _ key => ?_⟩
    · rw [hn _ hb, hm]
      exact hm'
    obtain ⟨⟨hle, hz⟩, hcle, hcz⟩ := hg.doubled ht key
    obtain ⟨hp, hc⟩ := hkeys key
    have hmul : 0 ≤ (n : Int) * x.promptIn key :=
      Int.mul_nonneg (Int.natCast_nonneg n) (hnonneg.promptIn key)
    have hcmul : 0 ≤ (n : Int) * x.candidatesIn key :=
      Int.mul_nonneg (Int.natCast_nonneg n) (hnonneg.candidatesIn key)
    refine ⟨⟨by omega, fun h0 => ?_⟩, by omega, fun h0 => ?_⟩
    · rw [hp, hz h0, h0, mul_zero, add_zero]
    · rw [hc, hcz h0, h0, mul_zero, add_zero]
  have hsame := convert_uncounted_short htwo f s hnative hcounts
  have hnot : ∀ cs, ¬ Estimated target f cs := fun cs hest => htwo hest.1
  refine ⟨fun _ => ⟨fun h' => absurd h' htwo, fun h' => absurd (.inr h') htwo⟩,
    fun hest => absurd hest (hnot _), fun _ hc => ?_, fun _ b hb => ?_⟩
  · rw [hcur] at hc
    rw [hsame]
    exact h.empty (hnot _) hc
  rw [hcur] at hb
  obtain ⟨m, hm, hfollows, hg⟩ := h.counted (hnot _) b hb
  exact ⟨m, hsame.trans hm, hfollows, hgrown hg⟩

/-- **A whole stream.** -/
theorem run_tracks (target : Target) (f : Int) (cs : List GeminiChunk)
    (hcum : Cumulative (snapshots cs)) :
    Tracks target f cs (run (convertStreamResponseChunk target f) {} cs) := by
  induction cs using List.reverseRecOn with
  | nil =>
    refine ⟨fun _ => ⟨fun _ => rfl, fun _ => rfl⟩, ?_, fun _ _ => rfl, fun _ _ => nofun⟩
    rintro ⟨-, -, c, hc, -⟩
    cases hc
  | append_singleton cs c ih =>
    have hleft := hcum
    rw [snapshots_concat] at hleft
    rw [run_append]
    exact (ih hleft.left).step c hcum

theorem GeminiUsage.Follows.below (h : m.Follows b) : b.Below m :=
  ⟨h.prompt.ge, h.toolUse.ge, h.candidates.ge, h.total, .inl h.thoughts.ge, h.cached.ge,
    h.promptDetails, h.toolUseDetails, h.candidatesDetails⟩

theorem remembers_iff_sidecar {x : BillingUsage} (h : s.sidecar = some x) (m : GeminiUsage) :
    Remembers s m ↔ ∃ c, x.canonicalUsage = some c ∧ c.tally = m.tally := by
  obtain ⟨u, hu, hb⟩ := Option.bind_eq_some_iff.1 h
  constructor
  · rintro ⟨u', b, c, hu', hb', hc, ht⟩
    rw [hu] at hu'
    obtain rfl := Option.some.inj hu'
    rw [hb] at hb'
    obtain rfl := Option.some.inj hb'
    exact ⟨c, hc, ht⟩
  · rintro ⟨c, hc, ht⟩
    exact ⟨u, x, c, hu, hb, hc, ht⟩

theorem not_remembers_of_sidecar (h : s.sidecar = none) (m : GeminiUsage) : ¬ Remembers s m := by
  rintro ⟨u, b, c, hu, hb, -⟩
  unfold StreamState.sidecar at h
  rw [hu, bind_some, hb] at h
  cases h

theorem remembers_estimate {t : Int} (hf : 0 < f)
    (h : s.sidecar = some (estimateSidecar f t)) (m : GeminiUsage) :
    Remembers s m ↔ m.tally = estimateTally f := by
  obtain ⟨c, hc, ht⟩ := canonicalUsage_estimate hf t
  rw [remembers_iff_sidecar h]
  constructor
  · rintro ⟨c', hc', ht'⟩
    rw [hc] at hc'
    rw [← ht', ← Option.some.inj hc', ht]
  · intro hm
    exact ⟨c, hc, ht.trans hm.symm⟩

theorem remembers_gemini (htokens : a.hasTokens = true)
    (h : s.sidecar = some (geminiSidecar a)) : Remembers s m ↔ a.tally = m.tally := by
  rw [remembers_iff_sidecar h, canonicalUsage_gemini htokens]
  constructor
  · rintro ⟨c, hc, ht⟩
    rw [← ht, ← Option.some.inj hc]
    rfl
  · intro hm
    exact ⟨_, rfl, hm⟩

theorem current_of_last
    {m : GeminiUsageMetadata} (hsnap : snapshots cs = ms ++ [m]) (h : m.hasTokens = true) :
    current cs = some m.toGeminiUsage := by
  unfold current
  rw [hsnap]
  simp [h]

theorem current_of_last_empty
    {m : GeminiUsageMetadata} (hsnap : snapshots cs = ms ++ [m]) (hcum : Cumulative (ms ++ [m]))
    (h : m.hasTokens = false) : current cs = none := by
  by_contra hsome
  obtain ⟨b, hb⟩ := Option.ne_none_iff_exists'.1 hsome
  obtain ⟨x, hx, rfl, htokens⟩ := current_mem hb
  rw [hsnap] at hx
  rcases List.mem_append.1 hx with hold | hlast
  · have hbelow := (pairwise_append.1 hcum.below).2.2 x hold m (mem_singleton.2 rfl)
    have hyes := hbelow.hasTokens (hcum.nonneg x hx) htokens
    rw [h] at hyes
    cases hyes
  · rw [mem_singleton.1 hlast, h] at htokens
    cases htokens

def CountedOnce (target : Target) (ms : List GeminiUsageMetadata) (m : GeminiUsage) : Prop :=
  (target = .gemini → ∀ a ∈ ms, a.toGeminiUsage.Undetailed) ∧ (target ≠ .gemini → m.Undetailed)

theorem sum_eq_zero_iff_of_nonneg {xs : List Int} (h : ∀ x ∈ xs, 0 ≤ x) :
    xs.sum = 0 ↔ ∀ x ∈ xs, x = 0 := by
  refine ⟨fun hsum x hx => ?_, sum_eq_zero⟩
  have hle := List.single_le_sum h x hx
  have := h x hx
  omega

/-- **The counts by modality are those of the last snapshot** exactly when none
    was counted before. -/
theorem Grown.sameDetails_iff {m : GeminiUsageMetadata}
    (h : Grown target cs a m.toGeminiUsage) (hsnap : snapshots cs = ms ++ [m])
    (hcum : Cumulative (ms ++ [m])) : (∀ key, m.promptIn key = 0 → a.promptIn key = 0) ∧
      (a.SameDetails m.toGeminiUsage ↔ CountedOnce target ms m.toGeminiUsage) := by
  have hnonneg : ∀ x ∈ ms, x.toGeminiUsage.NonNeg := fun x hx =>
    hcum.nonneg x (mem_append_left _ hx)
  have hbelow : ∀ x ∈ ms, x.toGeminiUsage.Below m.toGeminiUsage := fun x hx =>
    (pairwise_append.1 hcum.below).2.2 x hx m (mem_singleton.2 rfl)
  by_cases ht : target = .gemini
  · have hsum : ∀ key,
        a.promptIn key = (ms.map fun x => x.toGeminiUsage.promptIn key).sum + m.promptIn key ∧
        a.candidatesIn key =
          (ms.map fun x => x.toGeminiUsage.candidatesIn key).sum + m.candidatesIn key := by
      intro key
      have hkey := h.summed ht key
      rw [hsnap] at hkey
      simpa using hkey
    have hzero : ∀ key, (ms.map fun x => x.toGeminiUsage.promptIn key).sum = 0 ↔
        ∀ x ∈ ms, x.toGeminiUsage.promptIn key = 0 := by
      intro key
      rw [sum_eq_zero_iff_of_nonneg]
      · simp
      intro y hy
      obtain ⟨x, hx, rfl⟩ := mem_map.1 hy
      exact (hnonneg x hx).promptIn key
    have hczero : ∀ key, (ms.map fun x => x.toGeminiUsage.candidatesIn key).sum = 0 ↔
        ∀ x ∈ ms, x.toGeminiUsage.candidatesIn key = 0 := by
      intro key
      rw [sum_eq_zero_iff_of_nonneg]
      · simp
      intro y hy
      obtain ⟨x, hx, rfl⟩ := mem_map.1 hy
      exact (hnonneg x hx).candidatesIn key
    constructor
    · intro key h0
      rw [(hsum key).1, h0, add_zero]
      refine (hzero key).2 fun x hx => le_antisymm ?_ ((hnonneg x hx).promptIn key)
      exact ((hbelow x hx).promptIn key).trans h0.le
    constructor
    · intro hsame
      refine ⟨fun _ x hx key hkey => ?_, fun hne => absurd ht hne⟩
      obtain ⟨hp, hc⟩ := hsame key hkey
      refine ⟨(hzero key).1 ?_ x hx, (hczero key).1 ?_ x hx⟩
      · have := (hsum key).1
        omega
      · have := (hsum key).2
        omega
    intro honce key hkey
    rw [(hsum key).1, (hsum key).2, (hzero key).2 fun x hx => (honce.1 ht x hx key hkey).1,
      (hczero key).2 fun x hx => (honce.1 ht x hx key hkey).2]
    simp
  have hm := hcum.nonneg m (List.mem_append_right _ (mem_singleton.2 rfl))
  refine ⟨fun key h0 => ((h.doubled ht key).1.2 h0), ?_, ?_⟩
  · intro hsame
    refine ⟨fun h' => absurd h' ht, fun _ key hkey => ?_⟩
    obtain ⟨hp, hc⟩ := hsame key hkey
    obtain ⟨⟨hle, -⟩, hcle, -⟩ := h.doubled ht key
    have := hm.promptIn key
    have := hm.candidatesIn key
    constructor <;> omega
  intro honce key hkey
  obtain ⟨hp, hc⟩ := honce.2 ht key hkey
  obtain ⟨⟨-, hz⟩, -, hcz⟩ := h.doubled ht key
  rw [hz hp, hcz hc, hp, hc]
  exact ⟨rfl, rfl⟩

/-- **The usage remembered of a Gemini stream.** -/
theorem remembers_iff (target : Target) (f : Int)
    {m : GeminiUsageMetadata} (hsnap : snapshots cs = ms ++ [m]) (hcum : Cumulative (ms ++ [m])) :
    Remembers (run (convertStreamResponseChunk target f) {} cs) m.toGeminiUsage ↔
      m.hasTokens = true ∧
      (Estimated target f cs → m.tally = estimateTally f) ∧
      (¬ Estimated target f cs → CountedOnce target ms m.toGeminiUsage) := by
  have htracks := run_tracks target f cs (by rw [hsnap]; exact hcum)
  have hnonneg := hcum.nonneg m (List.mem_append_right _ (mem_singleton.2 rfl))
  cases htokens : m.hasTokens with
  | false =>
    have hcur := current_of_last_empty hsnap hcum htokens
    refine iff_of_false ?_ (by simp)
    by_cases hest : Estimated target f cs
    · obtain ⟨t, ht⟩ := htracks.estimated hest
      rw [remembers_estimate hest.2.1 ht]
      intro htally
      have hprompt := congrArg Tally.prompt htally
      have hpos := hest.2.1
      unfold GeminiUsage.hasTokens at htokens
      simp only [Bool.or_eq_false_iff, bne_eq_false_iff_eq] at htokens
      simp only [GeminiUsage.tally, OpenAIUsage.tally, canonicalGeminiUsage, estimateTally] at hprompt
      omega
    · exact not_remembers_of_sidecar (htracks.empty hest hcur) _
  | true =>
    have hcur := current_of_last hsnap htokens
    by_cases hest : Estimated target f cs
    · obtain ⟨t, ht⟩ := htracks.estimated hest
      rw [remembers_estimate hest.2.1 ht]
      exact ⟨fun h => ⟨rfl, fun _ => h, fun hno => absurd hest hno⟩, fun h => h.2.1 hest⟩
    obtain ⟨a, ha, hfollows, hgrown⟩ := htracks.counted hest _ hcur
    obtain ⟨hzero, hsame⟩ := hgrown.sameDetails_iff hsnap hcum
    rw [remembers_gemini (hfollows.below.hasTokens hnonneg htokens) ha,
      hfollows.tally_iff hnonneg fun key _ => hzero key, hsame]
    exact ⟨fun h => ⟨rfl, fun h' => absurd h' hest, fun _ => h⟩, fun h => h.2.2 hest⟩

/-! ## Remembering a chunk again -/

theorem rememberUsage_again_iff (s : StreamState) (u : Usage) :
    (s.rememberUsage (some u)).rememberUsage (some u) = s.rememberUsage (some u) ↔
      mergeSidecar (mergeSidecar s.sidecar u.billingUsage) u.billingUsage =
        mergeSidecar s.sidecar u.billingUsage := by
  have hside : (s.usage.getD {}).billingUsage = s.sidecar := by
    unfold StreamState.sidecar
    cases s.usage <;> rfl
  simp only [StreamState.rememberUsage, StreamState.mk.injEq, Option.some.injEq, and_true,
    mergeUsageNonZero, getD_some, Usage.mk.injEq, mergeOpenAIUsage_again, true_and, hside]

def Merges (m : GeminiUsage) : Prop :=
  ∃ b, x = some b ∧ sameBillingUsageDialect b (geminiSidecar m) = true

theorem mergeSidecar_again_iff (m : GeminiUsage) :
    mergeSidecar (mergeSidecar x (some (geminiSidecar m))) (some (geminiSidecar m)) =
        mergeSidecar x (some (geminiSidecar m)) ↔
      m.Plain ∧ (m.parts ≤ m.totalTokenCount ∨ Merges x m) := by
  have hstable : m.Stable ↔ m.Plain ∧ m.parts ≤ m.totalTokenCount :=
    ⟨fun h => ⟨h.toPlain, h.total⟩, fun h => ⟨h.1, h.2⟩⟩
  cases x with
  | none =>
    have hno : ¬ Merges none m := by
      rintro ⟨b, hb, -⟩
      cases hb
    have hfirst : mergeSidecar none (some (geminiSidecar m)) = some (geminiSidecar m) := rfl
    rw [hfirst, mergeSidecar, merge_gemini_gemini, or_iff_left hno, ← hstable,
      ← mergeGeminiUsage_self]
    simp [geminiSidecar]
  | some b =>
    by_cases hsame : sameBillingUsageDialect b (geminiSidecar m) = true
    · obtain ⟨source, semantic, estimated, openAI, claude, gemini⟩ := b
      have hmerges : Merges (some ⟨source, semantic, estimated, openAI, claude, gemini⟩) m :=
        ⟨_, rfl, hsame⟩
      obtain ⟨g, rfl⟩ : ∃ g, gemini = some g := by
        unfold sameBillingUsageDialect at hsame
        cases gemini with
        | some g => exact ⟨g, rfl⟩
        | none => simp [geminiSidecar] at hsame
      have hfirst : mergeBillingUsageNonZero
            (some ⟨source, semantic, estimated, openAI, claude, some g⟩) (geminiSidecar m) =
          ⟨sourceGeminiChat, semanticGemini, estimated, openAI, claude,
            some (mergeGeminiUsage g m)⟩ := by
        simp only [mergeBillingUsageNonZero, hsame, if_true]
        cases openAI <;> cases claude <;>
          simp [mergePayload, geminiSidecar, overlayText, sourceGeminiChat, semanticGemini]
      have hsecond : mergeBillingUsageNonZero
            (some ⟨sourceGeminiChat, semanticGemini, estimated, openAI, claude,
              some (mergeGeminiUsage g m)⟩) (geminiSidecar m) =
          ⟨sourceGeminiChat, semanticGemini, estimated, openAI, claude,
            some (mergeGeminiUsage (mergeGeminiUsage g m) m)⟩ := by
        have hsame' : sameBillingUsageDialect
            ⟨sourceGeminiChat, semanticGemini, estimated, openAI, claude,
              some (mergeGeminiUsage g m)⟩ (geminiSidecar m) = true := by
          simp [sameBillingUsageDialect, geminiSidecar]
        simp only [mergeBillingUsageNonZero, hsame', if_true]
        cases openAI <;> cases claude <;> simp [mergePayload, geminiSidecar]
      rw [mergeSidecar, mergeSidecar, hfirst, hsecond, and_iff_left (.inr hmerges),
        ← mergeGeminiUsage_again g m]
      simp
    have hno : ¬ Merges (some b) m := by
      rintro ⟨b', hb', hyes⟩
      rw [← Option.some.inj hb'] at hyes
      exact hsame hyes
    rw [Bool.not_eq_true] at hsame
    have hfirst : mergeBillingUsageNonZero (some b) (geminiSidecar m) =
        { geminiSidecar m with estimated := b.estimated } := by
      simp only [mergeBillingUsageNonZero, hsame]
      simp [geminiSidecar]
    have hsecond : mergeBillingUsageNonZero
          (some { geminiSidecar m with estimated := b.estimated }) (geminiSidecar m) =
        { geminiSidecar (mergeGeminiUsage m m) with estimated := b.estimated } := by
      simp [mergeBillingUsageNonZero, sameBillingUsageDialect, geminiSidecar, mergePayload]
    rw [mergeSidecar, mergeSidecar, hfirst, hsecond, or_iff_left hno, ← hstable,
      ← mergeGeminiUsage_self]
    simp [geminiSidecar]

/-- **The usage of a chunk, remembered again**: nothing changes exactly when the
    snapshot counts nothing by modality, and its total is complete or was
    completed by a record that it was merged into. -/
theorem rememberUsage_again (s : StreamState) (m : GeminiUsageMetadata)
    (hnative : m.billingUsage = none) (f : Int) :
    (s.rememberUsage (usageFromGeminiMetadata (some m) f)).rememberUsage
        (usageFromGeminiMetadata (some m) f) =
      s.rememberUsage (usageFromGeminiMetadata (some m) f) ↔
    (m.hasTokens = true → m.toGeminiUsage.Plain ∧
      (m.parts ≤ m.totalTokenCount ∨ Merges s.sidecar m.toGeminiUsage)) := by
  cases htokens : m.hasTokens with
  | false =>
    rw [usageFromGeminiMetadata_zero hnative htokens, rememberUsage_again_iff]
    simp
  | true =>
    obtain ⟨u, hu, hside⟩ := usageFromGeminiMetadata_some hnative htokens f
    rw [hu, rememberUsage_again_iff, hside, mergeSidecar_again_iff]
    simp

/-- **Cumulative snapshots.**  What a stream remembers of its snapshots, what
    `MergeGeminiUsageMetadataNonZero` makes of a record and itself, and what
    remembering a chunk again does. -/
theorem geminiSnapshots_counted_iff (target : Target) :
    (∀ (f : Int) (cs : List GeminiChunk) (ms : List GeminiUsageMetadata)
        (m : GeminiUsageMetadata), snapshots cs = ms ++ [m] → Cumulative (ms ++ [m]) →
      (Remembers (run (convertStreamResponseChunk target f) {} cs) m.toGeminiUsage ↔
        m.hasTokens = true ∧
        (Estimated target f cs → m.tally = estimateTally f) ∧
        (¬ Estimated target f cs → CountedOnce target ms m.toGeminiUsage))) ∧
    (∀ m : GeminiUsageMetadata, mergeGeminiUsageMetadataNonZero m m = m ↔
      m.toGeminiUsage.Stable ∧ ∀ b, m.billingUsage = some b → b.Stable) ∧
    (∀ (s : StreamState) (m : GeminiUsageMetadata), m.billingUsage = none → ∀ f : Int,
      ((s.rememberUsage (usageFromGeminiMetadata (some m) f)).rememberUsage
          (usageFromGeminiMetadata (some m) f) =
        s.rememberUsage (usageFromGeminiMetadata (some m) f) ↔
      (m.hasTokens = true → m.toGeminiUsage.Plain ∧
        (m.parts ≤ m.totalTokenCount ∨ Merges s.sidecar m.toGeminiUsage)))) :=
  ⟨fun f _ _ _ hsnap hcum => remembers_iff target f hsnap hcum,
    mergeGeminiUsageMetadataNonZero_self, rememberUsage_again⟩

def plainFirst : GeminiUsageMetadata :=
  { promptTokenCount := 10, candidatesTokenCount := 2, totalTokenCount := 12 }

def plainLast : GeminiUsageMetadata :=
  { promptTokenCount := 10, candidatesTokenCount := 5, totalTokenCount := 15 }

theorem cumulative_plain : Cumulative ([plainFirst] ++ [plainLast]) := by
  refine ⟨by decide, ?_, List.pairwise_pair.2 ?_⟩
  · intro m hm
    simp only [List.singleton_append, mem_cons, not_mem_nil, or_false] at hm
    obtain rfl | rfl := hm <;> constructor <;> simp [plainFirst, plainLast]
  · constructor <;> simp [plainFirst, plainLast]

theorem geminiSnapshots_counted_plain : Remembers (run (convertStreamResponseChunk .claude 0) {}
      [⟨some plainFirst, false⟩, ⟨some plainLast, true⟩]) plainLast.toGeminiUsage := by
  refine ((geminiSnapshots_counted_iff .claude).1 0 _ [plainFirst] plainLast rfl cumulative_plain).2
    ⟨by decide, ?_, fun _ => ⟨nofun, fun _ => ?_⟩⟩
  · rintro ⟨-, hf, -⟩
    cases hf
  · intro key _
    exact ⟨rfl, rfl⟩

def audioFirst : GeminiUsageMetadata :=
  { promptTokenCount := 10, promptTokensDetails := [⟨"AUDIO", 10⟩], candidatesTokenCount := 2 }

def audioLast : GeminiUsageMetadata :=
  { promptTokenCount := 10, promptTokensDetails := [⟨"AUDIO", 10⟩], candidatesTokenCount := 5 }

theorem cumulative_audio : Cumulative ([audioFirst] ++ [audioLast]) := by
  refine ⟨by decide, ?_, List.pairwise_pair.2 ?_⟩
  · intro m hm
    simp only [List.singleton_append, mem_cons, not_mem_nil, or_false] at hm
    obtain rfl | rfl := hm <;> constructor <;> simp [audioFirst, audioLast]
  · constructor <;> simp [audioFirst, audioLast]

/-- **Counts are doubled and lost.**  The audio tokens of two snapshots are added
    up, and so are those of one record and itself; and when the last chunk of a
    stream to Claude has no metadata, an estimate replaces the snapshot. -/
theorem audioTokens_added : (Cumulative ([audioFirst] ++ [audioLast]) ∧
      ¬ Remembers (run (convertStreamResponseChunk .gemini 0) {}
        [⟨some audioFirst, false⟩, ⟨some audioLast, false⟩]) audioLast.toGeminiUsage ∧
      mergeGeminiUsageMetadataNonZero audioLast audioLast ≠ audioLast) ∧
    (Cumulative ([plainFirst] ++ [plainLast]) ∧
      ¬ Remembers (run (convertStreamResponseChunk .claude 7) {}
        [⟨some plainFirst, false⟩, ⟨some plainLast, false⟩, ⟨none, false⟩])
          plainLast.toGeminiUsage) := by
  have haudio := remembers_iff .gemini 0 (show snapshots [⟨some audioFirst, false⟩,
    ⟨some audioLast, false⟩] = [audioFirst] ++ [audioLast] from rfl) cumulative_audio
  have hplain := remembers_iff .claude 7 (show snapshots [⟨some plainFirst, false⟩,
    ⟨some plainLast, false⟩, ⟨none, false⟩] = [plainFirst] ++ [plainLast] from rfl) cumulative_plain
  refine ⟨⟨cumulative_audio, ?_, by decide +kernel⟩, cumulative_plain, ?_⟩
  · rw [haudio]
    rintro ⟨-, -, honce⟩
    have hzero := ((honce fun h => not_twoSteps_gemini h.1).1 rfl audioFirst
      (mem_singleton.2 rfl) "AUDIO" (by decide)).1
    revert hzero
    decide +kernel
  rw [hplain]
  rintro ⟨-, hest, -⟩
  exact absurd (congrArg Tally.completion (hest ⟨.inl rfl, by decide, _, rfl, rfl⟩)) (by decide)

end NewApi.Convert
