/-
  NewApi.Pricing.Tokens

  From a usage record to token counts with a price each, on the two billing
  paths: `BuildTieredTokenParams` (`service/tiered_settle.go`), which fills the
  variables of a billing expression, and `calculateTextQuotaSummary`
  (`service/text_quota.go`), which multiplies counts by ratios.

  OpenAI records count cache, image and audio tokens inside `PromptTokens`;
  Anthropic records count cache tokens beside it.  The tiered path subtracts
  from the base variable what the expression prices by a variable of its own,
  for OpenAI records only.

  Counts are integers as in the source (an upstream may report anything); the
  float64 they are converted to is exact below 2^53.
-/

import Mathlib.Algebra.Order.Ring.Rat
import Mathlib.Algebra.BigOperators.Group.List.Basic

namespace NewApi.Pricing

/-! ## Usage records -/

/-- `UsageSemantic`; the field is a plain string. -/
inductive UsageSemantic where
  | unset
  | openai
  | anthropic
  | other (name : String)
deriving DecidableEq

structure InputTokenDetails where
  cachedTokens : Int := 0
  cachedCreationTokens : Int := 0
  cacheWriteTokens : Int := 0
  audioTokens : Int := 0
  imageTokens : Int := 0

structure OutputTokenDetails where
  audioTokens : Int := 0
  imageTokens : Int := 0

structure Usage where
  promptTokens : Int
  completionTokens : Int
  usageSemantic : UsageSemantic := .unset
  usageSource : String := ""
  promptTokensDetails : InputTokenDetails := {}
  completionTokenDetails : OutputTokenDetails := {}
  claudeCacheCreation5mTokens : Int := 0
  claudeCacheCreation1hTokens : Int := 0
  /-- `usage.Cost != 0`, on an `any` -/
  hasCost : Bool := false

def InputTokenDetails.cacheCreationTokensTotal (d : InputTokenDetails) : Int :=
  let total := max d.cacheWriteTokens d.cachedCreationTokens
  if total < 0 then 0 else total

/-- What the two paths read of `RelayInfo`. -/
structure RelayInfo where
  /-- `GetFinalRequestRelayFormat() == RelayFormatClaude` -/
  finalFormatClaude : Bool := false
  /-- the channel is an OpenRouter one -/
  openRouter : Bool := false
  usePrice : Bool := false
  customModelRatio : Bool := false
  cacheRatio : ℚ := 1
  imageRatio : ℚ := 1
  completionRatio : ℚ := 1
  cacheCreationRatio : ℚ := 1
  cacheCreationRatio5m : ℚ := 1
  cacheCreationRatio1h : ℚ := 1
  /-- `GetGeminiInputAudioPricePerMillionTokens` is positive for the model -/
  audioInputPriced : Bool := false
  /-- `CalcOpenRouterCacheCreateTokens`, a floating-point formula over the cost -/
  calcOpenRouterCacheCreateTokens : Usage → Int := fun _ => 0

variable (info : RelayInfo)

variable (usage : Usage)

def usageSemanticFromUsage : UsageSemantic :=
  if usage.usageSemantic ≠ .unset then usage.usageSemantic
  else if info.finalFormatClaude then .anthropic
  else .openai

def isClaudeUsageSemantic : Bool :=
  usageSemanticFromUsage info usage = .anthropic

/-! ## The tiered path -/

/-- The variables of a billing expression that stand for token categories. -/
inductive TokenVar where
  | cr
  | cc
  | cc1h
  | img
  | ai
  | imgO
  | ao
deriving DecidableEq

structure TokenParams where
  p : Int
  c : Int
  len : Int
  cr : Int
  cc : Int
  cc1h : Int
  img : Int
  imgO : Int
  ai : Int
  ao : Int

/-- `if usedVars[v] { p -= n }` -/
def exclude (used : Bool) (n p : Int) : Int := if used then p - n else p

def buildTieredTokenParams (isClaude : Bool) (usedVars : TokenVar → Bool) : TokenParams :=
  let p := usage.promptTokens
  let c := usage.completionTokens
  let cr := usage.promptTokensDetails.cachedTokens
  let anthropic := usage.usageSemantic = .anthropic
  let cc5m := if anthropic then usage.claudeCacheCreation5mTokens
    else usage.promptTokensDetails.cacheCreationTokensTotal
  let cc1h := if anthropic then usage.claudeCacheCreation1hTokens else 0
  let img := usage.promptTokensDetails.imageTokens
  let ai := usage.promptTokensDetails.audioTokens
  let imgO := usage.completionTokenDetails.imageTokens
  let ao := usage.completionTokenDetails.audioTokens
  let inputLen := if isClaude then p + cr + cc5m + cc1h else p
  let p := if isClaude then p
    else exclude (usedVars .ai) ai <| exclude (usedVars .img) img <|
      exclude (usedVars .cc1h) cc1h <| exclude (usedVars .cc) cc5m <|
      exclude (usedVars .cr) cr p
  let c := if isClaude then c
    else exclude (usedVars .ao) ao <| exclude (usedVars .imgO) imgO c
  { p := if p < 0 then 0 else p
    c := if c < 0 then 0 else c
    len := inputLen
    cr, cc := cc5m, cc1h, img, imgO, ai, ao }

/-! ## The ratio path -/

def isLegacyClaudeDerivedOpenAIUsage : Bool :=
  if info.finalFormatClaude then false
  else if usage.usageSource ≠ "" ∨ usage.usageSemantic ≠ .unset then false
  else decide (0 < usage.claudeCacheCreation5mTokens ∨ 0 < usage.claudeCacheCreation1hTokens)

/-- The prompt side of a ratio bill: tokens at the model's own price, and tokens
    with a ratio each. -/
structure PromptBill where
  baseTokens : Int
  cached : Int × ℚ
  cachedCreation : List (Int × ℚ)
  image : Int × ℚ
  audioTokens : Int

/-- `summary.CacheCreationTokens`, with the estimate that replaces a missing
    count on OpenRouter channels. -/
def summaryCacheCreationTokens : Int :=
  let counted := usage.promptTokensDetails.cacheCreationTokensTotal
  if info.openRouter ∧ isClaudeUsageSemantic info usage then
    let promptTokens := usage.promptTokens - usage.promptTokensDetails.cachedTokens
    let maybe := info.calcOpenRouterCacheCreateTokens usage
    if counted = 0 ∧ info.cacheCreationRatio ≠ 1 ∧ usage.hasCost ∧
        ¬ (info.usePrice ∨ info.customModelRatio) ∧ 0 ≤ maybe ∧ maybe ≤ promptTokens then maybe
    else counted
  else counted

/-- `summary.PromptTokens` -/
def summaryPromptTokens : Int :=
  if info.openRouter ∧ isClaudeUsageSemantic info usage then
    usage.promptTokens - usage.promptTokensDetails.cachedTokens -
      summaryCacheCreationTokens info usage
  else usage.promptTokens

/-- The cache-creation tokens that `calculateTextQuotaSummary` bills, with their
    ratios. -/
def cachedCreationLines : List (Int × ℚ) :=
  let tokens := summaryCacheCreationTokens info usage
  let tokens5m := usage.claudeCacheCreation5mTokens
  let tokens1h := usage.claudeCacheCreation1hTokens
  if tokens = 0 ∧ ¬ (0 < tokens5m ∨ 0 < tokens1h) then []
  else if ¬ isClaudeUsageSemantic info usage ∧ ¬ isLegacyClaudeDerivedOpenAIUsage info usage then
    [(tokens, info.cacheCreationRatio)]
  else
    [(max (tokens - tokens5m - tokens1h) 0, info.cacheCreationRatio),
      (tokens5m, info.cacheCreationRatio5m), (tokens1h, info.cacheCreationRatio1h)]

/-- The prompt side of `calculateTextQuotaSummary`, for models billed by ratio. -/
def promptBill : PromptBill :=
  let cached := usage.promptTokensDetails.cachedTokens
  let image := usage.promptTokensDetails.imageTokens
  let audio := usage.promptTokensDetails.audioTokens
  let inside := ¬ isClaudeUsageSemantic info usage ∧ ¬ isLegacyClaudeDerivedOpenAIUsage info usage
  let base := summaryPromptTokens info usage
  let base := if inside then base - cached else base
  let base := if inside then base - summaryCacheCreationTokens info usage else base
  let base := base - image
  let base := if info.audioInputPriced then base - audio else base
  { baseTokens := max base 0
    cached := (cached, info.cacheRatio)
    cachedCreation := cachedCreationLines info usage
    image := (image, info.imageRatio)
    audioTokens := if info.audioInputPriced then audio else 0 }

/-- `promptQuota`, before the model and group ratios. -/
def PromptBill.quota (b : PromptBill) : ℚ :=
  b.baseTokens + b.cached.1 * b.cached.2 + b.image.1 * b.image.2 +
    (b.cachedCreation.map fun line => (line.1 : ℚ) * line.2).sum

def PromptBill.creationTokens (b : PromptBill) : Int := (b.cachedCreation.map Prod.fst).sum

/-! ## Every token priced once -/

/-- The cache-creation tokens of an Anthropic record: the aggregate, or the sum
    of the two lifetimes where that is more. -/
def Usage.creationTokens : Int :=
  max usage.promptTokensDetails.cacheCreationTokensTotal
    (usage.claudeCacheCreation5mTokens + usage.claudeCacheCreation1hTokens)

def Usage.totalInput (isClaude : Bool) : Int :=
  if isClaude then
    usage.promptTokens + usage.promptTokensDetails.cachedTokens + usage.creationTokens
  else usage.promptTokens

/-- `n` if the expression uses the variable, else nothing. -/
def counted (used : Bool) (n : Int) : Int := if used then n else 0

variable (t : TokenParams)

variable (usedVars : TokenVar → Bool)

def TokenParams.inputExposed : Int :=
  counted (usedVars .cr) t.cr + counted (usedVars .cc) t.cc + counted (usedVars .cc1h) t.cc1h +
    counted (usedVars .img) t.img + counted (usedVars .ai) t.ai

def TokenParams.outputExposed : Int :=
  counted (usedVars .imgO) t.imgO + counted (usedVars .ao) t.ao

/-- No variable is negative. -/
structure TokenParams.Nonneg (t : TokenParams) : Prop where
  p : 0 ≤ t.p
  c : 0 ≤ t.c
  len : 0 ≤ t.len
  cr : 0 ≤ t.cr
  cc : 0 ≤ t.cc
  cc1h : 0 ≤ t.cc1h
  img : 0 ≤ t.img
  imgO : 0 ≤ t.imgO
  ai : 0 ≤ t.ai
  ao : 0 ≤ t.ao

/-- Each token of the record has one price, and the cache creation is the one
    the ratio path bills. -/
structure PricedOnce (info : RelayInfo) (usage : Usage) (usedVars : TokenVar → Bool)
    (t : TokenParams) : Prop where
  input : t.p + t.inputExposed usedVars = usage.totalInput (isClaudeUsageSemantic info usage)
  output : t.c + t.outputExposed usedVars = usage.completionTokens
  nonneg : t.Nonneg
  creation : t.cc + t.cc1h = (promptBill info usage).creationTokens

/-- The image and audio counts are counts. -/
structure MediaCounts (usage : Usage) : Prop where
  cached : 0 ≤ usage.promptTokensDetails.cachedTokens
  img : 0 ≤ usage.promptTokensDetails.imageTokens
  ai : 0 ≤ usage.promptTokensDetails.audioTokens
  imgO : 0 ≤ usage.completionTokenDetails.imageTokens
  ao : 0 ≤ usage.completionTokenDetails.audioTokens

/-- What an Anthropic record puts under `cc` and `cc1h`. -/
def Usage.lifetimes : Int × Int :=
  if usage.usageSemantic = .anthropic then
    (usage.claudeCacheCreation5mTokens, usage.claudeCacheCreation1hTokens)
  else (usage.promptTokensDetails.cacheCreationTokensTotal, 0)

/-- The aggregate and the lifetimes of an Anthropic record agree. -/
def CreationAgrees : Prop :=
  if usage.usageSemantic = .anthropic then
    summaryCacheCreationTokens info usage ≤
      usage.claudeCacheCreation5mTokens + usage.claudeCacheCreation1hTokens
  else summaryCacheCreationTokens info usage =
      usage.promptTokensDetails.cacheCreationTokensTotal ∧
    usage.claudeCacheCreation5mTokens + usage.claudeCacheCreation1hTokens ≤
      usage.promptTokensDetails.cacheCreationTokensTotal

/-! ## What the two paths count -/

theorem exclude_eq (used : Bool) (n p : Int) : exclude used n p = p - counted used n := by
  cases used <;> simp [exclude, counted]

theorem counted_add_counted_not (used : Bool) (n : Int) :
    counted used n + counted (!used) n = n := by
  cases used <;> simp [counted]

theorem cacheCreationTokensTotal_nonneg (d : InputTokenDetails) :
    0 ≤ d.cacheCreationTokensTotal := by
  unfold InputTokenDetails.cacheCreationTokensTotal
  simp only
  split <;> omega

variable {info : RelayInfo} {usage : Usage}

theorem not_anthropic_of_not_claude
    (h : isClaudeUsageSemantic info usage = false) : usage.usageSemantic ≠ .anthropic := by
  intro hsem
  simp [isClaudeUsageSemantic, usageSemanticFromUsage, hsem] at h

theorem summaryCacheCreationTokens_cases (info : RelayInfo) (usage : Usage) :
    summaryCacheCreationTokens info usage = usage.promptTokensDetails.cacheCreationTokensTotal ∨
    usage.promptTokensDetails.cacheCreationTokensTotal = 0 ∧
      0 ≤ summaryCacheCreationTokens info usage := by
  simp only [summaryCacheCreationTokens]
  split
  · split
    · rename_i h
      exact .inr ⟨h.1, h.2.2.2.2.1⟩
    · exact .inl rfl
  · exact .inl rfl

theorem summaryCacheCreationTokens_of_not_claude (h : isClaudeUsageSemantic info usage = false) :
    summaryCacheCreationTokens info usage = usage.promptTokensDetails.cacheCreationTokensTotal := by
  simp [summaryCacheCreationTokens, h]

theorem creationTokens_of_plain (hclaude : isClaudeUsageSemantic info usage = false)
    (hlegacy : isLegacyClaudeDerivedOpenAIUsage info usage = false) :
    (promptBill info usage).creationTokens =
      usage.promptTokensDetails.cacheCreationTokensTotal := by
  have htokens := summaryCacheCreationTokens_of_not_claude hclaude
  simp only [PromptBill.creationTokens, promptBill, cachedCreationLines, hclaude, hlegacy, htokens]
  split
  · rename_i h
    simp [h.1]
  · simp

theorem creationTokens_of_split (h : isClaudeUsageSemantic info usage = true ∨
      isLegacyClaudeDerivedOpenAIUsage info usage = true) : (promptBill info usage).creationTokens =
      if summaryCacheCreationTokens info usage = 0 ∧ ¬ (0 < usage.claudeCacheCreation5mTokens ∨
        0 < usage.claudeCacheCreation1hTokens) then 0
      else max (summaryCacheCreationTokens info usage)
        (usage.claudeCacheCreation5mTokens + usage.claudeCacheCreation1hTokens) := by
  have hno : ¬ (¬ isClaudeUsageSemantic info usage = true ∧
      ¬ isLegacyClaudeDerivedOpenAIUsage info usage = true) := by
    tauto
  simp only [PromptBill.creationTokens, promptBill, cachedCreationLines, if_neg hno]
  split
  · simp
  · simp only [List.map_cons, List.map_nil, List.sum_cons, List.sum_nil]
    omega

theorem buildTieredTokenParams_inside (hsem : usage.usageSemantic ≠ .anthropic)
    (usedVars : TokenVar → Bool) : buildTieredTokenParams usage false usedVars =
      let d := usage.promptTokensDetails
      let o := usage.completionTokenDetails
      let cc := d.cacheCreationTokensTotal
      { p := max (usage.promptTokens - counted (usedVars .cr) d.cachedTokens -
          counted (usedVars .cc) cc - counted (usedVars .img) d.imageTokens -
          counted (usedVars .ai) d.audioTokens) 0
        c := max (usage.completionTokens - counted (usedVars .imgO) o.imageTokens -
          counted (usedVars .ao) o.audioTokens) 0
        len := usage.promptTokens
        cr := d.cachedTokens, cc, cc1h := 0, img := d.imageTokens, imgO := o.imageTokens
        ai := d.audioTokens, ao := o.audioTokens } := by
  have hzero : counted (usedVars .cc1h) 0 = 0 := by simp [counted]
  have hclamp : ∀ n : Int, (if n < 0 then 0 else n) = max n 0 := by
    intro n
    split <;> omega
  simp only [buildTieredTokenParams, hsem, exclude_eq, hclamp, if_false, Bool.false_eq_true, hzero,
    sub_zero]

theorem buildTieredTokenParams_beside (usage : Usage) (usedVars : TokenVar → Bool) :
    buildTieredTokenParams usage true usedVars =
      let d := usage.promptTokensDetails
      let o := usage.completionTokenDetails
      { p := max usage.promptTokens 0
        c := max usage.completionTokens 0
        len := usage.promptTokens + d.cachedTokens + usage.lifetimes.1 + usage.lifetimes.2
        cr := d.cachedTokens, cc := usage.lifetimes.1, cc1h := usage.lifetimes.2
        img := d.imageTokens, imgO := o.imageTokens, ai := d.audioTokens, ao := o.audioTokens } := by
  have hclamp : ∀ n : Int, (if n < 0 then 0 else n) = max n 0 := by
    intro n
    split <;> omega
  by_cases hsem : usage.usageSemantic = .anthropic
  · simp only [buildTieredTokenParams, Usage.lifetimes, hsem, hclamp, if_true]
  · simp only [buildTieredTokenParams, Usage.lifetimes, hsem, hclamp, if_true, if_false]

theorem creationAgrees_iff (h : isClaudeUsageSemantic info usage = true)
    (hpos : 0 ≤ usage.lifetimes.1 ∧ 0 ≤ usage.lifetimes.2) :
    usage.lifetimes.1 + usage.lifetimes.2 = (promptBill info usage).creationTokens ↔
      CreationAgrees info usage := by
  have hcases := summaryCacheCreationTokens_cases info usage
  rw [creationTokens_of_split (.inl h)]
  by_cases hsem : usage.usageSemantic = .anthropic
  · simp only [Usage.lifetimes, CreationAgrees, hsem, if_true] at hpos ⊢
    split <;> omega
  · simp only [Usage.lifetimes, CreationAgrees, hsem, if_false] at hpos ⊢
    split <;> omega

theorem creationTokens_eq_lifetimes (h : CreationAgrees info usage) :
    usage.creationTokens = usage.lifetimes.1 + usage.lifetimes.2 := by
  have hcases := summaryCacheCreationTokens_cases info usage
  by_cases hsem : usage.usageSemantic = .anthropic
  · simp only [Usage.lifetimes, Usage.creationTokens, CreationAgrees, hsem, if_true] at h ⊢
    omega
  · simp only [Usage.lifetimes, Usage.creationTokens, CreationAgrees, hsem, if_false] at h ⊢
    omega

/-- The counts of the record that the paths read are counts. -/
structure Counts (usage : Usage) : Prop where
  prompt : 0 ≤ usage.promptTokens
  completion : 0 ≤ usage.completionTokens
  media : MediaCounts usage
  creation5m : 0 ≤ usage.claudeCacheCreation5mTokens
  creation1h : 0 ≤ usage.claudeCacheCreation1hTokens

instance (usage : Usage) : Decidable (Counts usage) :=
  decidable_of_iff (0 ≤ usage.promptTokens ∧ 0 ≤ usage.completionTokens ∧
      (0 ≤ usage.promptTokensDetails.cachedTokens ∧ 0 ≤ usage.promptTokensDetails.imageTokens ∧
        0 ≤ usage.promptTokensDetails.audioTokens ∧
        0 ≤ usage.completionTokenDetails.imageTokens ∧
        0 ≤ usage.completionTokenDetails.audioTokens) ∧
      0 ≤ usage.claudeCacheCreation5mTokens ∧ 0 ≤ usage.claudeCacheCreation1hTokens)
    ⟨fun ⟨hp, hc, ⟨hcr, himg, hai, himgO, hao⟩, h5m, h1h⟩ =>
        ⟨hp, hc, ⟨hcr, himg, hai, himgO, hao⟩, h5m, h1h⟩,
      fun h => ⟨h.prompt, h.completion, ⟨h.media.cached, h.media.img, h.media.ai, h.media.imgO,
        h.media.ao⟩, h.creation5m, h.creation1h⟩⟩

/-- The cache tokens of the record that the expression has no variable for. -/
def TokenParams.cacheUnnamed : Int :=
  counted (!usedVars .cr) t.cr + counted (!usedVars .cc) t.cc + counted (!usedVars .cc1h) t.cc1h

/-- The image and audio input tokens that the expression has a variable for. -/
def TokenParams.mediaNamed : Int :=
  counted (usedVars .img) t.img + counted (usedVars .ai) t.ai

theorem lifetimes_nonneg (h : Counts usage) : 0 ≤ usage.lifetimes.1 ∧ 0 ≤ usage.lifetimes.2 := by
  unfold Usage.lifetimes
  split
  · exact ⟨h.creation5m, h.creation1h⟩
  · exact ⟨cacheCreationTokensTotal_nonneg _, le_rfl⟩

theorem buildTieredTokenParams_nonneg (h : Counts usage) (usedVars : TokenVar → Bool) :
    (buildTieredTokenParams usage (isClaudeUsageSemantic info usage) usedVars).Nonneg := by
  have hm := h.media
  cases hclaude : isClaudeUsageSemantic info usage with
  | false =>
    rw [buildTieredTokenParams_inside (not_anthropic_of_not_claude hclaude)]
    exact ⟨le_max_right _ _, le_max_right _ _, h.prompt, hm.cached,
      cacheCreationTokensTotal_nonneg _, le_rfl, hm.img, hm.imgO, hm.ai, hm.ao⟩
  | true =>
    have hlife := lifetimes_nonneg h
    have hlen : 0 ≤ usage.promptTokens + usage.promptTokensDetails.cachedTokens +
        usage.lifetimes.1 + usage.lifetimes.2 := by
      have hprompt := h.prompt
      have hcached := hm.cached
      omega
    rw [buildTieredTokenParams_beside]
    exact ⟨le_max_right _ _, le_max_right _ _, hlen, hm.cached, hlife.1, hlife.2, hm.img, hm.imgO,
      hm.ai, hm.ao⟩

/-- **Tiered pricing accounts for every token.**  Nothing is negative.  Of an
    OpenAI record the base variable and the named categories make up the total,
    and where the named categories overlap beyond it the base is zero.  Of an
    Anthropic record, from which nothing is subtracted, they make up the total
    but for the cache tokens without a variable and the media tokens with one.
    The cache creation counted is the one the ratio path bills. -/
theorem tieredTokens_accounted (info : RelayInfo) (usage : Usage) (usedVars : TokenVar → Bool)
    (h : Counts usage) :
    let t := buildTieredTokenParams usage (isClaudeUsageSemantic info usage) usedVars
    t.Nonneg ∧
    (isClaudeUsageSemantic info usage = false →
      t.p + t.inputExposed usedVars = max (usage.totalInput false) (t.inputExposed usedVars) ∧
      t.c + t.outputExposed usedVars = max usage.completionTokens (t.outputExposed usedVars) ∧
      (isLegacyClaudeDerivedOpenAIUsage info usage = false →
        t.cc + t.cc1h = (promptBill info usage).creationTokens)) ∧
    (isClaudeUsageSemantic info usage = true → CreationAgrees info usage →
      t.p + t.inputExposed usedVars + t.cacheUnnamed usedVars =
        usage.totalInput true + t.mediaNamed usedVars ∧
      t.c = usage.completionTokens ∧ t.len = usage.totalInput true ∧
      t.cc + t.cc1h = (promptBill info usage).creationTokens) := by
  refine ⟨buildTieredTokenParams_nonneg h usedVars, fun hclaude => ?_, fun hclaude hagrees => ?_⟩
  · have hzero : counted (usedVars .cc1h) 0 = 0 := by simp [counted]
    rw [hclaude, buildTieredTokenParams_inside (not_anthropic_of_not_claude hclaude)]
    simp only [TokenParams.inputExposed, TokenParams.outputExposed, Usage.totalInput, hzero,
      Bool.false_eq_true, if_false]
    refine ⟨by omega, by omega, fun hlegacy => ?_⟩
    rw [creationTokens_of_plain hclaude hlegacy, add_zero]
  have htotal := creationTokens_eq_lifetimes hagrees
  have hcr := counted_add_counted_not (usedVars .cr) usage.promptTokensDetails.cachedTokens
  have h5m := counted_add_counted_not (usedVars .cc) usage.lifetimes.1
  have h1h := counted_add_counted_not (usedVars .cc1h) usage.lifetimes.2
  have hp := h.prompt
  have hc := h.completion
  rw [hclaude, buildTieredTokenParams_beside]
  simp only [TokenParams.inputExposed, TokenParams.cacheUnnamed, TokenParams.mediaNamed,
    Usage.totalInput, if_true]
  refine ⟨by omega, by omega, by omega, ?_⟩
  exact (creationAgrees_iff hclaude (lifetimes_nonneg h)).2 hagrees

/-- An OpenAI record, and an Anthropic one whose expression prices cache reads. -/
def cachedUsage (semantic : UsageSemantic) : Usage :=
  { promptTokens := 1000, completionTokens := 500, usageSemantic := semantic
    promptTokensDetails := { cachedTokens := 200 } }

theorem tieredTokens_accounted_cached :
    let t := buildTieredTokenParams (cachedUsage .openai) false (fun v => v = .cr)
    Counts (cachedUsage .openai) ∧ t.p = 800 ∧
      t.p + t.inputExposed (fun v => v = .cr) = max 1000 200 := by
  have h := tieredTokens_accounted {} (cachedUsage .openai) (fun v => v = .cr) (by decide)
  exact ⟨by decide, by decide, (h.2.1 (by decide)).1⟩

def overlappingUsage : Usage :=
  { promptTokens := 100, completionTokens := 10, usageSemantic := .openai
    promptTokensDetails := { cachedTokens := 80, cacheWriteTokens := 60 } }

/-- Cache reads and writes that together exceed the prompt are priced as they
    are, 140 tokens of 100; an expression without `cr` leaves the cache reads of
    an Anthropic record unpriced; and a negative count comes through. -/
theorem overlap_and_unnamed_not_pricedOnce :
    ¬ PricedOnce {} overlappingUsage (fun v => v = .cr ∨ v = .cc)
        (buildTieredTokenParams overlappingUsage false fun v => v = .cr ∨ v = .cc) ∧
    ¬ PricedOnce {} (cachedUsage .anthropic) (fun _ => false)
        (buildTieredTokenParams (cachedUsage .anthropic) true fun _ => false) ∧
    ¬ PricedOnce {} { cachedUsage .openai with promptTokensDetails := { cachedTokens := -5 } }
        (fun v => v = .cr) (buildTieredTokenParams
          { cachedUsage .openai with promptTokensDetails := { cachedTokens := -5 } } false
          fun v => v = .cr) := by
  refine ⟨fun h => ?_, fun h => ?_, fun h => ?_⟩
  · have hinput := h.input
    revert hinput
    decide
  · have hinput := h.input
    revert hinput
    decide
  have hcr := h.nonneg.cr
  revert hcr
  decide

end NewApi.Pricing
