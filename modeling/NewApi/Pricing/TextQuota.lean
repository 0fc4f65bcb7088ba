/-
  NewApi.Pricing.TextQuota

  What a text request costs (`calculateTextQuotaSummary`, `service/text_quota.go`):
  the prompt side of `Pricing.Tokens`, the completion, the surcharges for tools,
  and the rounding of `Realtime.Price`.

  Decimals are rationals: `NewFromFloat`, `Add`, `Mul` and `Div` are exact.
-/

import NewApi.Lib.Text
import NewApi.Pricing.Tokens
import NewApi.Realtime.Price
import Mathlib.Data.List.Sort
import Mathlib.Data.Prod.Lex
import Mathlib.Tactic.Positivity

namespace NewApi.Pricing

open NewApi.Realtime (roundHalfAway quotaFromDecimal maxQuota minQuota quotaFromDecimal_nonneg)
open NewApi.Lib

/-! ## Rounding -/

theorem roundHalfAway_mono {d e : ℚ} (h : d ≤ e) : roundHalfAway d ≤ roundHalfAway e := by
  unfold roundHalfAway
  by_cases hd : 0 ≤ d
  · rw [if_pos hd, if_pos (hd.trans h)]
    exact Int.floor_le_floor (by linarith)
  by_cases he : 0 ≤ e
  · rw [if_neg hd, if_pos he]
    have hleft : 0 ≤ ⌊-d + 1 / 2⌋ := Int.floor_nonneg.2 (by linarith)
    have hright : 0 ≤ ⌊e + 1 / 2⌋ := Int.floor_nonneg.2 (by linarith)
    omega
  rw [if_neg hd, if_neg he]
  have hfloor : ⌊-e + 1 / 2⌋ ≤ ⌊-d + 1 / 2⌋ := Int.floor_le_floor (by linarith)
  omega

theorem quotaFromDecimal_mono {d e : ℚ} (h : d ≤ e) : quotaFromDecimal d ≤ quotaFromDecimal e := by
  have hround := roundHalfAway_mono h
  have hbounds : minQuota ≤ maxQuota := by decide
  unfold quotaFromDecimal
  split_ifs <;> omega

/-! ## Tools -/

def maxInt : Int := 2 ^ 63 - 1

structure ToolSurchargeItem where
  name : String
  count : Int
  price : ℚ

/-- What `calculateTextQuotaSummary` reads of `RelayInfo`, of the request's context and
    of the settings. -/
structure TextRelayInfo extends RelayInfo where
  modelName : String
  modelRatio : ℚ
  groupRatio : ℚ
  modelPrice : ℚ := 0
  quotaPerUnit : ℚ
  /-- `otherRatios`, without those that are no finite numbers -/
  otherRatios : List ℚ := []
  /-- `GetGeminiInputAudioPricePerMillionTokens` -/
  audioInputPrice : ℚ := 0
  priced : audioInputPriced = decide (0 < audioInputPrice)
  estimatePromptTokens : Int := 0
  /-- `RelayMode == RelayModeResponses` -/
  responsesMode : Bool := false
  /-- the tools of `ResponsesUsageInfo`, with their `CallCount` -/
  builtInTools : List (String × Int) := []
  /-- `claude_web_search_requests` of the context -/
  claudeWebSearchRequests : Int := 0
  /-- `gemini_google_search_call` of the context -/
  geminiGoogleSearchCall : Bool := false
  /-- `GetToolPriceForModel`, where it is a finite number -/
  toolPrice : String → String → ℚ := fun _ _ => 0

variable (info : TextRelayInfo)

def collectToolSurchargeItem (items : List ToolSurchargeItem) (name : String) (count : Int) :
    List ToolSurchargeItem :=
  if count ≤ 0 then items
  else
    let price := info.toolPrice name info.modelName
    if price ≤ 0 then items else items ++ [⟨name, count, price⟩]

/-- The order that `mergeToolSurchargeItems` sorts by. -/
def surchargeOrder (a b : ToolSurchargeItem) : Prop :=
  if a.name = b.name then a.price ≤ b.price else a.name ≤ b.name

instance : DecidableRel surchargeOrder := fun a b =>
  if h : a.name = b.name then
    decidable_of_iff (a.price ≤ b.price) (by rw [surchargeOrder, if_pos h])
  else decidable_of_iff (a.name ≤ b.name) (by rw [surchargeOrder, if_neg h])

/-- One round of the loop in `mergeToolSurchargeItems`. -/
def mergeItem (merged : List ToolSurchargeItem) (item : ToolSurchargeItem) : List ToolSurchargeItem :=
  match merged.getLast? with
  | some last =>
    if last.name = item.name ∧ last.price = item.price then
      merged.dropLast ++
        [{ last with count := if maxInt - last.count < item.count then maxInt
                              else last.count + item.count }]
    else merged ++ [item]
  | none => merged ++ [item]

def mergeToolSurchargeItems (items : List ToolSurchargeItem) : List ToolSurchargeItem :=
  (items.insertionSort surchargeOrder).foldl mergeItem []

/-- The items that `calculateTextToolCallSurcharge` collects. -/
def toolSurchargeItems : List ToolSurchargeItem :=
  let items := info.builtInTools.foldl
    (fun items tool => collectToolSurchargeItem info items tool.1 tool.2) []
  let items := if ¬ info.responsesMode ∧ Text.hasSuffix info.modelName "search-preview" then
      collectToolSurchargeItem info items "web_search_preview" 1 else items
  let items := collectToolSurchargeItem info items "web_search" info.claudeWebSearchRequests
  if info.geminiGoogleSearchCall then collectToolSurchargeItem info items "google_search" 1 else items

def calculateTextToolCallSurcharge : ℚ :=
  ((mergeToolSurchargeItems (toolSurchargeItems info)).map fun item =>
    item.price * item.count / 1000 * info.groupRatio * info.quotaPerUnit).sum

/-! ## The summary -/

def applyOtherRatiosToDecimal (ratios : List ℚ) (value : ℚ) : ℚ :=
  ratios.foldl (fun value ratio => if 0 < ratio ∧ ratio ≠ 1 then value * ratio else value) value

def orEstimate (usage : Option Usage) : Usage :=
  usage.getD { promptTokens := info.estimatePromptTokens, completionTokens := 0 }

/-- `ratio`, the effective ratio. -/
def TextRelayInfo.ratio : ℚ := info.modelRatio * info.groupRatio

def audioInputQuota (audioTokens : Int) : ℚ :=
  info.audioInputPrice / 1000000 * audioTokens * info.groupRatio * info.quotaPerUnit

/-- The tokens priced by ratio, before tools. -/
def tokenQuota (usage : Usage) : ℚ :=
  let bill := promptBill info.toRelayInfo usage
  applyOtherRatiosToDecimal info.otherRatios
    ((bill.quota + usage.completionTokens * info.completionRatio) * info.ratio +
      audioInputQuota info bill.audioTokens)

/-- `quotaCalculateDecimal`, as it is rounded. -/
def quotaCalculateDecimal (usage : Usage) : ℚ :=
  if info.usePrice then
    applyOtherRatiosToDecimal info.otherRatios
        (info.modelPrice * info.quotaPerUnit * info.groupRatio) +
      calculateTextToolCallSurcharge info
  else
    let quota := tokenQuota info usage + calculateTextToolCallSurcharge info
    if info.ratio ≠ 0 ∧ quota ≤ 0 then 1 else quota

/-- `hasBillableUsage`; `FixedPriceBilling` is set later. -/
def hasBillableUsage (usage : Usage) : Bool :=
  0 < usage.promptTokens + usage.completionTokens ||
    0 < usage.promptTokensDetails.cachedTokens ||
    0 < summaryCacheCreationTokens info.toRelayInfo usage ||
    0 < usage.claudeCacheCreation5mTokens || 0 < usage.claudeCacheCreation1hTokens ||
    calculateTextToolCallSurcharge info != 0

/-- `summary.Quota` of `calculateTextQuotaSummary` -/
def calculateTextQuotaSummary (usage : Option Usage) : Int :=
  let usage := orEstimate info usage
  let quota := quotaFromDecimal (quotaCalculateDecimal info usage)
  if ¬ hasBillableUsage info usage then 0
  else if info.ratio ≠ 0 ∧ quota = 0 then 1
  else quota

/-- `CalcOpenRouterCacheCreateTokens` over rationals; a quotient by zero is a clamp, and
    so is a result out of range. -/
def calcOpenRouterCacheCreateTokens (cost : ℚ) (usage : Usage) : Int :=
  if info.cacheCreationRatio = 1 then 0
  else
    let quotaPrice := info.modelRatio / info.quotaPerUnit
    let promptCacheCreatePrice := quotaPrice * info.cacheCreationRatio
    let promptCacheReadPrice := quotaPrice * info.cacheRatio
    let completionPrice := quotaPrice * info.completionRatio
    let value := (cost - usage.promptTokens * quotaPrice +
        usage.promptTokensDetails.cachedTokens * (quotaPrice - promptCacheReadPrice) -
        usage.completionTokens * completionPrice) / (promptCacheCreatePrice - quotaPrice)
    if promptCacheCreatePrice - quotaPrice = 0 ∨ maxQuota < roundHalfAway value ∨
        roundHalfAway value < minQuota then -1
    else roundHalfAway value

/-! ## Non-negative parts -/

/-- No ratio and no price is negative. -/
structure TextRelayInfo.Nonneg : Prop where
  cacheRatio : 0 ≤ info.cacheRatio
  imageRatio : 0 ≤ info.imageRatio
  completionRatio : 0 ≤ info.completionRatio
  cacheCreationRatio : 0 ≤ info.cacheCreationRatio
  cacheCreationRatio5m : 0 ≤ info.cacheCreationRatio5m
  cacheCreationRatio1h : 0 ≤ info.cacheCreationRatio1h
  modelRatio : 0 ≤ info.modelRatio
  groupRatio : 0 ≤ info.groupRatio
  modelPrice : 0 ≤ info.modelPrice
  quotaPerUnit : 0 ≤ info.quotaPerUnit

/-- No count is negative. -/
structure Usage.Nonneg (usage : Usage) : Prop where
  promptTokens : 0 ≤ usage.promptTokens
  completionTokens : 0 ≤ usage.completionTokens
  cached : 0 ≤ usage.promptTokensDetails.cachedTokens
  image : 0 ≤ usage.promptTokensDetails.imageTokens
  audio : 0 ≤ usage.promptTokensDetails.audioTokens
  tokens5m : 0 ≤ usage.claudeCacheCreation5mTokens
  tokens1h : 0 ≤ usage.claudeCacheCreation1hTokens

variable {info}

theorem mem_collectToolSurchargeItem {items : List ToolSurchargeItem} {name : String} {count : Int}
    {item : ToolSurchargeItem} (h : item ∈ collectToolSurchargeItem info items name count) :
    item ∈ items ∨ (0 < item.count ∧ 0 < item.price) := by
  unfold collectToolSurchargeItem at h
  simp only at h
  split at h
  · exact .inl h
  rename_i hcount
  split at h
  · exact .inl h
  rename_i hprice
  obtain hmem | hmem := List.mem_append.1 h
  · exact .inl hmem
  · rw [List.mem_singleton.1 hmem]
    exact .inr ⟨not_le.1 hcount, not_le.1 hprice⟩

variable (info) in
theorem builtIn_items_pos (tools : List (String × Int)) {items : List ToolSurchargeItem}
    (hitems : ∀ i ∈ items, 0 < i.count ∧ 0 < i.price) :
    ∀ i ∈ tools.foldl (fun items tool => collectToolSurchargeItem info items tool.1 tool.2) items,
      0 < i.count ∧ 0 < i.price := by
  induction tools generalizing items with
  | nil => exact hitems
  | cons tool tools ih =>
    apply ih
    intro i hi
    obtain hmem | hpos := mem_collectToolSurchargeItem hi
    · exact hitems i hmem
    · exact hpos

theorem toolSurchargeItems_pos : ∀ i ∈ toolSurchargeItems info, 0 < i.count ∧ 0 < i.price := by
  have hcollect : ∀ {items : List ToolSurchargeItem} {name : String} {count : Int},
      (∀ i ∈ items, 0 < i.count ∧ 0 < i.price) →
        ∀ i ∈ collectToolSurchargeItem info items name count, 0 < i.count ∧ 0 < i.price := by
    intro items name count hitems i hi
    obtain hmem | hpos := mem_collectToolSurchargeItem hi
    · exact hitems i hmem
    · exact hpos
  have hbuiltIn := builtIn_items_pos info info.builtInTools (fun i hi => absurd hi List.not_mem_nil)
  unfold toolSurchargeItems
  by_cases hpreview : ¬ info.responsesMode = true ∧ Text.hasSuffix info.modelName "search-preview" = true
  · simp only [if_pos hpreview]
    split_ifs
    · exact hcollect (hcollect (hcollect hbuiltIn))
    · exact hcollect (hcollect hbuiltIn)
  split_ifs
  · exact hcollect (hcollect hbuiltIn)
  · exact hcollect hbuiltIn

theorem mergeItem_nonneg {merged : List ToolSurchargeItem} {item : ToolSurchargeItem}
    (hmerged : ∀ i ∈ merged, 0 ≤ i.count ∧ 0 ≤ i.price) (hitem : 0 ≤ item.count ∧ 0 ≤ item.price) :
    ∀ i ∈ mergeItem merged item, 0 ≤ i.count ∧ 0 ≤ i.price := by
  have happend : ∀ i ∈ merged ++ [item], 0 ≤ i.count ∧ 0 ≤ i.price := by
    intro i hi
    obtain hmem | hmem := List.mem_append.1 hi
    · exact hmerged i hmem
    · rw [List.mem_singleton.1 hmem]
      exact hitem
  unfold mergeItem
  cases hlast : merged.getLast? with
  | none => exact happend
  | some last =>
    have hlastPos := hmerged last (List.mem_of_getLast? hlast)
    by_cases hsame : last.name = item.name ∧ last.price = item.price
    · simp only [if_pos hsame]
      intro i hi
      obtain hmem | hmem := List.mem_append.1 hi
      · exact hmerged i (List.mem_of_mem_dropLast hmem)
      rw [List.mem_singleton.1 hmem]
      refine ⟨?_, hlastPos.2⟩
      show 0 ≤ if maxInt - last.count < item.count then maxInt else last.count + item.count
      split_ifs
      · decide
      · exact add_nonneg hlastPos.1 hitem.1
    · simp only [if_neg hsame]
      exact happend

theorem foldl_mergeItem_nonneg (items : List ToolSurchargeItem) {merged : List ToolSurchargeItem}
    (hmerged : ∀ i ∈ merged, 0 ≤ i.count ∧ 0 ≤ i.price)
    (hitems : ∀ i ∈ items, 0 ≤ i.count ∧ 0 ≤ i.price) :
    ∀ i ∈ items.foldl mergeItem merged, 0 ≤ i.count ∧ 0 ≤ i.price := by
  induction items generalizing merged with
  | nil => exact hmerged
  | cons item items ih =>
    exact ih (mergeItem_nonneg hmerged (hitems item List.mem_cons_self))
      fun i hi => hitems i (List.mem_cons_of_mem _ hi)

theorem toolCallSurcharge_nonneg (h : info.Nonneg) : 0 ≤ calculateTextToolCallSurcharge info := by
  apply List.sum_nonneg
  intro x hx
  obtain ⟨item, hitem, rfl⟩ := List.mem_map.1 hx
  have hsorted : ∀ i ∈ (toolSurchargeItems info).insertionSort surchargeOrder,
      0 ≤ i.count ∧ 0 ≤ i.price := by
    intro i hi
    have hpos := toolSurchargeItems_pos i ((List.mem_insertionSort _).1 hi)
    exact ⟨hpos.1.le, hpos.2.le⟩
  obtain ⟨hcount, hprice⟩ := foldl_mergeItem_nonneg _ (fun i hi => absurd hi List.not_mem_nil) hsorted
    item hitem
  have hgroup := h.groupRatio
  have hunit := h.quotaPerUnit
  positivity

theorem applyOtherRatiosToDecimal_mono (ratios : List ℚ) {v w : ℚ} (h : v ≤ w) :
    applyOtherRatiosToDecimal ratios v ≤ applyOtherRatiosToDecimal ratios w := by
  induction ratios generalizing v w with
  | nil => exact h
  | cons ratio ratios ih =>
    apply ih
    by_cases hvalid : 0 < ratio ∧ ratio ≠ 1
    · simp only [if_pos hvalid]
      exact mul_le_mul_of_nonneg_right h hvalid.1.le
    · simp only [if_neg hvalid]
      exact h

theorem applyOtherRatiosToDecimal_zero (ratios : List ℚ) : applyOtherRatiosToDecimal ratios 0 = 0 := by
  induction ratios with
  | nil => rfl
  | cons ratio ratios ih =>
    show applyOtherRatiosToDecimal ratios (if _ then 0 * ratio else 0) = 0
    rw [zero_mul, ite_self, ih]

theorem applyOtherRatiosToDecimal_nonneg (ratios : List ℚ) {v : ℚ} (h : 0 ≤ v) :
    0 ≤ applyOtherRatiosToDecimal ratios v := by
  have hmono := applyOtherRatiosToDecimal_mono ratios h
  rwa [applyOtherRatiosToDecimal_zero] at hmono

theorem summaryCacheCreationTokens_nonneg (info : RelayInfo) (usage : Usage) :
    0 ≤ summaryCacheCreationTokens info usage := by
  have hcounted := cacheCreationTokensTotal_nonneg usage.promptTokensDetails
  unfold summaryCacheCreationTokens
  simp only
  split_ifs with h1 h2
  · exact h2.2.2.2.2.1
  · exact hcounted
  · exact hcounted

variable {usage : Usage}

section
variable (h : info.Nonneg)
include h

theorem cachedCreationLines_nonneg (hu : usage.Nonneg) :
    ∀ line ∈ cachedCreationLines info.toRelayInfo usage, 0 ≤ (line.1 : ℚ) * line.2 := by
  have htokens := summaryCacheCreationTokens_nonneg info.toRelayInfo usage
  have hmul : ∀ {n : Int} {r : ℚ}, 0 ≤ n → 0 ≤ r → 0 ≤ (n : ℚ) * r := fun hn hr =>
    mul_nonneg (by exact_mod_cast hn) hr
  intro line hline
  unfold cachedCreationLines at hline
  simp only at hline
  split_ifs at hline
  · exact absurd hline List.not_mem_nil
  · rw [List.mem_singleton.1 hline]
    exact hmul htokens h.cacheCreationRatio
  simp only [List.mem_cons, List.not_mem_nil, or_false] at hline
  obtain rfl | rfl | rfl := hline
  · exact hmul (le_max_right _ _) h.cacheCreationRatio
  · exact hmul hu.tokens5m h.cacheCreationRatio5m
  · exact hmul hu.tokens1h h.cacheCreationRatio1h

theorem promptBill_quota_nonneg (hu : usage.Nonneg) :
    0 ≤ (promptBill info.toRelayInfo usage).quota := by
  have hbase : (0 : ℚ) ≤ (promptBill info.toRelayInfo usage).baseTokens := by
    exact_mod_cast le_max_right _ _
  have hcached : (0 : ℚ) ≤ usage.promptTokensDetails.cachedTokens := by exact_mod_cast hu.cached
  have himage : (0 : ℚ) ≤ usage.promptTokensDetails.imageTokens := by exact_mod_cast hu.image
  have hlines := cachedCreationLines_nonneg h hu
  have hsum : 0 ≤ ((cachedCreationLines info.toRelayInfo usage).map fun line => (line.1 : ℚ) * line.2).sum := by
    apply List.sum_nonneg
    intro x hx
    obtain ⟨line, hline, rfl⟩ := List.mem_map.1 hx
    exact hlines line hline
  have hcacheRatio := h.cacheRatio
  have himageRatio := h.imageRatio
  show 0 ≤ _ + (usage.promptTokensDetails.cachedTokens : ℚ) * info.cacheRatio +
    (usage.promptTokensDetails.imageTokens : ℚ) * info.imageRatio + _
  positivity

theorem ratio_nonneg : 0 ≤ info.ratio := mul_nonneg h.modelRatio h.groupRatio

theorem audioInputQuota_nonneg (hu : usage.Nonneg) :
    0 ≤ audioInputQuota info (promptBill info.toRelayInfo usage).audioTokens := by
  show 0 ≤ audioInputQuota info (if info.audioInputPriced then _ else 0)
  unfold audioInputQuota
  have hpriced := info.priced
  cases hprice : info.audioInputPriced with
  | false => simp
  | true =>
    rw [hprice] at hpriced
    have hpos : 0 < info.audioInputPrice := of_decide_eq_true hpriced.symm
    have haudio : (0 : ℚ) ≤ usage.promptTokensDetails.audioTokens := by exact_mod_cast hu.audio
    have hgroup := h.groupRatio
    have hunit := h.quotaPerUnit
    positivity

theorem tokenQuota_nonneg (hu : usage.Nonneg) : 0 ≤ tokenQuota info usage := by
  have hprompt := promptBill_quota_nonneg h hu
  have haudio := audioInputQuota_nonneg h hu
  have hratio := ratio_nonneg h
  have hcompletion : (0 : ℚ) ≤ usage.completionTokens := by exact_mod_cast hu.completionTokens
  have hcompletionRatio := h.completionRatio
  apply applyOtherRatiosToDecimal_nonneg
  positivity

end

def callQuota (info : TextRelayInfo) : ℚ :=
  applyOtherRatiosToDecimal info.otherRatios (info.modelPrice * info.quotaPerUnit * info.groupRatio) +
    calculateTextToolCallSurcharge info

def plainQuota (info : TextRelayInfo) (usage : Usage) : ℚ :=
  if info.usePrice then callQuota info
  else tokenQuota info usage + calculateTextToolCallSurcharge info

theorem plainQuota_nonneg (h : info.Nonneg) (hu : usage.Nonneg) : 0 ≤ plainQuota info usage := by
  have htools := toolCallSurcharge_nonneg h
  have htokens := tokenQuota_nonneg h hu
  have hprice := h.modelPrice
  have hgroup := h.groupRatio
  have hunit := h.quotaPerUnit
  have hcall : 0 ≤ applyOtherRatiosToDecimal info.otherRatios
      (info.modelPrice * info.quotaPerUnit * info.groupRatio) :=
    applyOtherRatiosToDecimal_nonneg _ (by positivity)
  unfold plainQuota callQuota
  split_ifs <;> linarith

theorem calculateTextQuotaSummary_eq (h : info.Nonneg) (usage : Option Usage)
    (hu : (orEstimate info usage).Nonneg) :
    calculateTextQuotaSummary info usage =
      if hasBillableUsage info (orEstimate info usage) then
        if info.ratio ≠ 0 then max 1 (quotaFromDecimal (plainQuota info (orEstimate info usage)))
        else quotaFromDecimal (plainQuota info (orEstimate info usage))
      else 0 := by
  have hplain := plainQuota_nonneg h hu
  have hquota := quotaFromDecimal_nonneg hplain
  have hone : quotaFromDecimal 1 = 1 := by decide +kernel
  have hzero : quotaFromDecimal 0 = 0 := by decide +kernel
  have hdecimal : quotaCalculateDecimal info (orEstimate info usage) =
      if info.usePrice = false ∧ info.ratio ≠ 0 ∧ plainQuota info (orEstimate info usage) ≤ 0 then 1
      else plainQuota info (orEstimate info usage) := by
    unfold quotaCalculateDecimal plainQuota callQuota
    cases info.usePrice <;> simp
  unfold calculateTextQuotaSummary
  simp only [hdecimal]
  by_cases hbill : hasBillableUsage info (orEstimate info usage) = true
  · simp only [hbill, not_true_eq_false, if_false, if_true]
    by_cases hratio : info.ratio = 0
    · simp [hratio]
    by_cases hle : plainQuota info (orEstimate info usage) ≤ 0
    · rw [le_antisymm hle hplain]
      split_ifs <;> simp_all
    · simp only [hratio, hle, and_false, if_false, ne_eq, not_false_eq_true, true_and, if_true]
      split_ifs <;> omega
  · simp only [hbill, if_true, if_false, not_false_eq_true, Bool.false_eq_true]

/-! ## Monotonicity -/

/-- The count of created cache tokens is inferred from what OpenRouter charged. -/
def Inferred (info : TextRelayInfo) (usage : Usage) : Prop :=
  info.openRouter = true ∧ isClaudeUsageSemantic info.toRelayInfo usage = true ∧
    usage.promptTokensDetails.cacheCreationTokensTotal = 0 ∧ info.cacheCreationRatio ≠ 1 ∧
    usage.hasCost = true ∧ ¬ (info.usePrice = true ∨ info.customModelRatio = true)

theorem summaryCacheCreationTokens_of_not_inferred (h : ¬ Inferred info usage) :
    summaryCacheCreationTokens info.toRelayInfo usage =
      usage.promptTokensDetails.cacheCreationTokensTotal := by
  unfold summaryCacheCreationTokens
  by_cases hopen : info.openRouter = true ∧ isClaudeUsageSemantic info.toRelayInfo usage = true
  · rw [if_pos hopen, if_neg]
    rintro ⟨hcounted, hratio, hcost, hcustom, -, -⟩
    exact h ⟨hopen.1, hopen.2, hcounted, hratio, hcost, hcustom⟩
  · rw [if_neg hopen]

def Usage.grow (usage : Usage) (prompt completion : Int) : Usage :=
  { usage with promptTokens := prompt, completionTokens := completion }

variable {p c : Int}

theorem summaryPromptTokens_grow (h : ¬ Inferred info usage) (hp : usage.promptTokens ≤ p) :
    summaryPromptTokens info.toRelayInfo usage ≤ summaryPromptTokens info.toRelayInfo (usage.grow p c) := by
  have hgrown : ¬ Inferred info (usage.grow p c) := h
  have hsemantic : isClaudeUsageSemantic info.toRelayInfo (usage.grow p c) =
      isClaudeUsageSemantic info.toRelayInfo usage := rfl
  unfold summaryPromptTokens
  rw [summaryCacheCreationTokens_of_not_inferred h, summaryCacheCreationTokens_of_not_inferred hgrown,
    hsemantic]
  split_ifs
  · exact sub_le_sub_right (sub_le_sub_right hp _) _
  · exact hp

theorem cachedCreationLines_grow (h : ¬ Inferred info usage) (p c : Int) :
    cachedCreationLines info.toRelayInfo (usage.grow p c) = cachedCreationLines info.toRelayInfo usage := by
  have hgrown : ¬ Inferred info (usage.grow p c) := h
  unfold cachedCreationLines
  rw [summaryCacheCreationTokens_of_not_inferred h, summaryCacheCreationTokens_of_not_inferred hgrown]
  rfl

/-- What is taken off the prompt because it has a price of its own. -/
def deducted (info : RelayInfo) (usage : Usage) : Int :=
  (if isClaudeUsageSemantic info usage = true ∨ isLegacyClaudeDerivedOpenAIUsage info usage = true then 0
    else usage.promptTokensDetails.cachedTokens + summaryCacheCreationTokens info usage) +
    usage.promptTokensDetails.imageTokens +
    if info.audioInputPriced then usage.promptTokensDetails.audioTokens else 0

theorem baseTokens_eq (info : RelayInfo) (usage : Usage) :
    (promptBill info usage).baseTokens = max (summaryPromptTokens info usage - deducted info usage) 0 := by
  unfold promptBill deducted
  cases isClaudeUsageSemantic info usage <;> cases isLegacyClaudeDerivedOpenAIUsage info usage <;>
    cases info.audioInputPriced <;> simp <;> omega

theorem promptBill_quota_grow (h : ¬ Inferred info usage) (hp : usage.promptTokens ≤ p) :
    (promptBill info.toRelayInfo usage).quota ≤ (promptBill info.toRelayInfo (usage.grow p c)).quota := by
  have hgrown : ¬ Inferred info (usage.grow p c) := h
  have hdeducted : deducted info.toRelayInfo (usage.grow p c) = deducted info.toRelayInfo usage := by
    unfold deducted
    rw [summaryCacheCreationTokens_of_not_inferred h, summaryCacheCreationTokens_of_not_inferred hgrown]
    rfl
  have hbase : (promptBill info.toRelayInfo usage).baseTokens ≤
      (promptBill info.toRelayInfo (usage.grow p c)).baseTokens := by
    rw [baseTokens_eq, baseTokens_eq, hdeducted]
    exact max_le_max (sub_le_sub_right (summaryPromptTokens_grow h hp) _) le_rfl
  have hcast : ((promptBill info.toRelayInfo usage).baseTokens : ℚ) ≤
      (promptBill info.toRelayInfo (usage.grow p c)).baseTokens := by exact_mod_cast hbase
  have hcreation : (promptBill info.toRelayInfo (usage.grow p c)).cachedCreation =
      (promptBill info.toRelayInfo usage).cachedCreation := cachedCreationLines_grow h p c
  have hcached : (promptBill info.toRelayInfo (usage.grow p c)).cached =
      (promptBill info.toRelayInfo usage).cached := rfl
  have himage : (promptBill info.toRelayInfo (usage.grow p c)).image =
      (promptBill info.toRelayInfo usage).image := rfl
  unfold PromptBill.quota
  rw [hcreation, hcached, himage]
  linarith

theorem tokenQuota_grow (hinfo : info.Nonneg) (h : ¬ Inferred info usage)
    (hp : usage.promptTokens ≤ p) (hc : usage.completionTokens ≤ c) :
    tokenQuota info usage ≤ tokenQuota info (usage.grow p c) := by
  have hprompt := promptBill_quota_grow (c := c) h hp
  have hcompletion : (usage.completionTokens : ℚ) * info.completionRatio ≤ c * info.completionRatio :=
    mul_le_mul_of_nonneg_right (by exact_mod_cast hc) hinfo.completionRatio
  apply applyOtherRatiosToDecimal_mono
  apply add_le_add _ le_rfl
  exact mul_le_mul_of_nonneg_right (add_le_add hprompt hcompletion) (ratio_nonneg hinfo)

theorem plainQuota_grow (hinfo : info.Nonneg) (h : ¬ Inferred info usage)
    (hp : usage.promptTokens ≤ p) (hc : usage.completionTokens ≤ c) :
    plainQuota info usage ≤ plainQuota info (usage.grow p c) := by
  unfold plainQuota
  split_ifs
  · exact le_rfl
  · exact add_le_add (tokenQuota_grow hinfo h hp hc) le_rfl

theorem hasBillableUsage_grow (h : ¬ Inferred info usage)
    (hp : usage.promptTokens ≤ p) (hc : usage.completionTokens ≤ c)
    (hbill : hasBillableUsage info usage = true) : hasBillableUsage info (usage.grow p c) = true := by
  have hgrown : ¬ Inferred info (usage.grow p c) := h
  unfold hasBillableUsage at hbill ⊢
  rw [summaryCacheCreationTokens_of_not_inferred h] at hbill
  rw [summaryCacheCreationTokens_of_not_inferred hgrown]
  by_cases htotal : 0 < usage.promptTokens + usage.completionTokens
  · have hmore : 0 < (usage.grow p c).promptTokens + (usage.grow p c).completionTokens :=
      lt_of_lt_of_le htotal (add_le_add hp hc)
    simp [hmore]
  simp only [htotal, decide_false, Bool.false_or] at hbill
  simp only [Bool.or_eq_true] at hbill ⊢
  tauto

theorem calculateTextQuotaSummary_grow (hinfo : info.Nonneg) (hu : usage.Nonneg)
    (h : ¬ Inferred info usage) (hp : usage.promptTokens ≤ p) (hc : usage.completionTokens ≤ c) :
    calculateTextQuotaSummary info (some usage) ≤
      calculateTextQuotaSummary info (some (usage.grow p c)) := by
  have hgrown : (usage.grow p c).Nonneg :=
    ⟨hu.promptTokens.trans hp, hu.completionTokens.trans hc, hu.cached, hu.image, hu.audio, hu.tokens5m,
      hu.tokens1h⟩
  have hmono := quotaFromDecimal_mono (plainQuota_grow hinfo h hp hc)
  have hnonneg := quotaFromDecimal_nonneg (plainQuota_nonneg hinfo hgrown)
  have hbill := hasBillableUsage_grow h hp hc
  rw [calculateTextQuotaSummary_eq hinfo (some usage) hu,
    calculateTextQuotaSummary_eq hinfo (some (usage.grow p c)) hgrown]
  have hsome : ∀ u, orEstimate info (some u) = u := fun _ => rfl
  rw [hsome, hsome]
  by_cases hbefore : hasBillableUsage info usage = true
  · rw [if_pos hbefore, if_pos (hbill hbefore)]
    split_ifs
    · exact max_le_max le_rfl hmono
    · exact hmono
  rw [if_neg hbefore]
  split_ifs
  · exact zero_le_one.trans (le_max_left _ _)
  · exact hnonneg
  · exact le_rfl

/-- **The quota of a text request**: never negative, at least 1 for billable usage
    under a ratio that is not zero, 0 without billable usage, and no lower for more
    prompt or completion tokens, unless the created cache tokens are inferred. -/
structure TextQuotaSound (info : TextRelayInfo) : Prop where
  nonneg : ∀ usage, (orEstimate info usage).Nonneg → 0 ≤ calculateTextQuotaSummary info usage
  floored : ∀ usage, (orEstimate info usage).Nonneg → info.ratio ≠ 0 →
    hasBillableUsage info (orEstimate info usage) = true → 1 ≤ calculateTextQuotaSummary info usage
  free : ∀ usage, hasBillableUsage info (orEstimate info usage) = false →
    calculateTextQuotaSummary info usage = 0
  monotone : ∀ usage p c, usage.Nonneg → ¬ Inferred info usage → usage.promptTokens ≤ p →
    usage.completionTokens ≤ c → calculateTextQuotaSummary info (some usage) ≤
      calculateTextQuotaSummary info (some (usage.grow p c))

theorem textQuota_sound {info : TextRelayInfo} (hinfo : info.Nonneg) : TextQuotaSound info where
  nonneg usage hu := by
    have hquota := quotaFromDecimal_nonneg (plainQuota_nonneg hinfo hu)
    rw [calculateTextQuotaSummary_eq hinfo usage hu]
    split_ifs
    · exact zero_le_one.trans (le_max_left _ _)
    · exact hquota
    · exact le_rfl
  floored usage hu hratio hbill := by
    rw [calculateTextQuotaSummary_eq hinfo usage hu, if_pos hbill, if_pos hratio]
    exact le_max_left _ _
  free usage hbill := by
    unfold calculateTextQuotaSummary
    simp [hbill]
  monotone usage p c hu h hp hc := calculateTextQuotaSummary_grow hinfo hu h hp hc

def plainInfo : TextRelayInfo :=
  { modelName := "gpt-4o", modelRatio := 5 / 4, groupRatio := 1, quotaPerUnit := 500000, priced := rfl }

theorem plainInfo_sound : plainInfo.Nonneg ∧ TextQuotaSound plainInfo := by
  have hinfo : plainInfo.Nonneg := by constructor <;> decide +kernel
  exact ⟨hinfo, textQuota_sound hinfo⟩

/-- A Claude request on an OpenRouter channel, with cache creation at three times the price. -/
def openRouterSettings : TextRelayInfo :=
  { modelName := "anthropic/claude-sonnet-4", modelRatio := 3 / 2, groupRatio := 1
    quotaPerUnit := 500000, cacheCreationRatio := 3, openRouter := true, finalFormatClaude := true
    priced := rfl }

def openRouterInfo : TextRelayInfo :=
  { openRouterSettings with
      calcOpenRouterCacheCreateTokens :=
        calcOpenRouterCacheCreateTokens openRouterSettings (39 / 2500000) }

/-- One token more costs one less: the inferred count is rounded. -/
theorem openRouter_not_monotone : openRouterInfo.Nonneg ∧
      calculateTextQuotaSummary openRouterInfo
        (some { promptTokens := 4, completionTokens := 0, hasCost := true }) = 9 ∧
      calculateTextQuotaSummary openRouterInfo
        (some { promptTokens := 5, completionTokens := 0, hasCost := true }) = 8 := by
  refine ⟨?_, by decide +kernel, by decide +kernel⟩
  constructor <;> decide +kernel

end NewApi.Pricing
