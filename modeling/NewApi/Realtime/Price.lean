/-
  NewApi.Realtime.Price

  What a realtime usage costs: `calculateAudioQuota` of `service/quota.go` over
  exact decimals, and the rounding and clamping of `common/quota_math.go`.

  Decimals are rationals: `decimal.NewFromFloat`, `Add` and `Mul` are exact.
-/

import Mathlib.Data.Rat.Floor

namespace NewApi.Realtime

/-! ## Usage -/

/-- `RealtimeUsage`, with the token details the handler adds up. -/
structure RealtimeUsage where
  totalTokens : Int := 0
  inputTokens : Int := 0
  outputTokens : Int := 0
  inputCached : Int := 0
  inputText : Int := 0
  inputAudio : Int := 0
  outputText : Int := 0
  outputAudio : Int := 0

/-- `a += b`, field by field -/
def RealtimeUsage.add (a b : RealtimeUsage) : RealtimeUsage where
  totalTokens := a.totalTokens + b.totalTokens
  inputTokens := a.inputTokens + b.inputTokens
  outputTokens := a.outputTokens + b.outputTokens
  inputCached := a.inputCached + b.inputCached
  inputText := a.inputText + b.inputText
  inputAudio := a.inputAudio + b.inputAudio
  outputText := a.outputText + b.outputText
  outputAudio := a.outputAudio + b.outputAudio

/-- The tokens of a message to the model, as `CountTokenRealtime` counts them. -/
def RealtimeUsage.input (textToken audioToken : Int) : RealtimeUsage where
  totalTokens := textToken + audioToken
  inputTokens := textToken + audioToken
  inputText := textToken
  inputAudio := audioToken

def RealtimeUsage.output (textToken audioToken : Int) : RealtimeUsage where
  totalTokens := textToken + audioToken
  outputTokens := textToken + audioToken
  outputText := textToken
  outputAudio := audioToken

/-! ## Settings -/

/-- The tables of `ratio_setting`, as they stand when they are read. -/
structure RatioSetting where
  /-- `GetGroupRatio` -/
  groupRatio : String → ℚ
  /-- `GetGroupGroupRatio`, by user group and using group -/
  groupGroupRatio : String → String → Option ℚ
  /-- `GetModelRatio` -/
  modelRatio : String → ℚ
  /-- `GetCompletionRatio` -/
  completionRatio : String → ℚ
  /-- `GetAudioRatio` -/
  audioRatio : String → ℚ
  /-- `GetAudioCompletionRatio` -/
  audioCompletionRatio : String → ℚ
  /-- `common.QuotaPerUnit` -/
  quotaPerUnit : ℚ

structure QuotaInfo where
  inputText : Int
  inputAudio : Int
  outputText : Int
  outputAudio : Int
  modelName : String
  usePrice : Bool
  modelPrice : ℚ := 0
  modelRatio : ℚ
  groupRatio : ℚ

/-! ## Rounding -/

/-- `decimal.Round(0)`: half away from zero. -/
def roundHalfAway (d : ℚ) : Int := if 0 ≤ d then ⌊d + 1 / 2⌋ else -⌊-d + 1 / 2⌋

/-- `MaxQuota = math.MaxInt32` -/
def maxQuota : Int := 2 ^ 31 - 1

/-- `MinQuota = math.MinInt32` -/
def minQuota : Int := -2 ^ 31

/-- `QuotaFromDecimalChecked`, less the record of the clamp that goes into the
    log. -/
def quotaFromDecimal (d : ℚ) : Int :=
  if maxQuota < roundHalfAway d then maxQuota
  else if roundHalfAway d < minQuota then minQuota
  else roundHalfAway d

theorem roundHalfAway_nonneg {d : ℚ} (h : 0 ≤ d) : 0 ≤ roundHalfAway d := by
  unfold roundHalfAway
  rw [if_pos h]
  apply Int.floor_nonneg.mpr
  linarith

theorem roundHalfAway_le_one {d : ℚ} (h : d < 3 / 2) : roundHalfAway d ≤ 1 := by
  unfold roundHalfAway
  split
  · have hlt : ⌊d + 1 / 2⌋ < 2 := by
      apply Int.floor_lt.mpr
      push_cast
      linarith
    omega
  have hnn : 0 ≤ ⌊-d + 1 / 2⌋ := by
    apply Int.floor_nonneg.mpr
    linarith
  omega

theorem quotaFromDecimal_nonneg {d : ℚ} (h : 0 ≤ d) : 0 ≤ quotaFromDecimal d := by
  have hr := roundHalfAway_nonneg h
  unfold quotaFromDecimal
  split
  · decide
  split
  · rename_i hlo
    omega
  · exact hr

theorem quotaFromDecimal_le_one {d : ℚ} (h : d < 3 / 2) : quotaFromDecimal d ≤ 1 := by
  have hr := roundHalfAway_le_one h
  unfold quotaFromDecimal
  split
  · rename_i hhi
    omega
  split
  · decide
  · exact hr

/-! ## calculateAudioQuota -/

variable (r : RatioSetting)

/-- The tokens of each kind, weighted, times the ratio. -/
def weightedTokens (info : QuotaInfo) : ℚ :=
  (info.inputText + info.outputText * r.completionRatio info.modelName +
      info.inputAudio * r.audioRatio info.modelName +
      info.outputAudio * r.audioRatio info.modelName * r.audioCompletionRatio info.modelName) *
    (info.groupRatio * info.modelRatio)

/-- The decimal `calculateAudioQuota` rounds: a price per call, or the weighted
    tokens with 1 in place of what is not positive while the ratio is not zero. -/
def audioQuotaDecimal (info : QuotaInfo) : ℚ :=
  if info.usePrice then info.modelPrice * r.quotaPerUnit * info.groupRatio
  else if info.groupRatio * info.modelRatio ≠ 0 ∧ weightedTokens r info ≤ 0 then 1
  else weightedTokens r info

def calculateAudioQuota (info : QuotaInfo) : Int :=
  quotaFromDecimal (audioQuotaDecimal r info)

theorem audioQuotaDecimal_nonneg {info : QuotaInfo}
    (h : info.usePrice = false ∨ info.modelPrice = 0) : 0 ≤ audioQuotaDecimal r info := by
  unfold audioQuotaDecimal
  split
  · rename_i huse
    rcases h with h | h
    · rw [h] at huse
      cases huse
    · rw [h, zero_mul, zero_mul]
  split
  · exact zero_le_one
  rename_i hpos
  by_cases hratio : info.groupRatio * info.modelRatio = 0
  · rw [weightedTokens, hratio, mul_zero]
  · have hlt : ¬ weightedTokens r info ≤ 0 := fun hle => hpos ⟨hratio, hle⟩
    exact le_of_lt (not_le.mp hlt)

theorem calculateAudioQuota_nonneg {info : QuotaInfo}
    (h : info.usePrice = false ∨ info.modelPrice = 0) : 0 ≤ calculateAudioQuota r info :=
  quotaFromDecimal_nonneg (audioQuotaDecimal_nonneg r h)

end NewApi.Realtime
