/-
  NewApi.Convert.GeminiMeaning

  The two decoders of Gemini usage metadata: `UsageFromGeminiMetadata`, whose
  counts are shown to the client, and `canonicalGeminiUsage`, whose counts are
  settled.  They differ in how they read a modality and in what they do with a
  total that is below the prompt.

  Counts are sums without a bound here.
-/

import NewApi.Convert.UsageStream

namespace NewApi.Convert

/-! ## Entries spelled as the display decoder expects them -/

variable (key : String)

variable (ds : List GeminiTokenDetail)

def spelled : Int :=
  (ds.map fun d => if d.modality = key then d.tokenCount else 0).sum

/-- The tokens of the entries that only `normalizeGeminiModality` reads as `key`. -/
def respelled : Int :=
  (ds.map fun d => if d.key = key ∧ d.modality ≠ key then d.tokenCount else 0).sum

@[simp] theorem spelled_nil : spelled key [] = 0 := rfl

@[simp] theorem spelled_cons (d : GeminiTokenDetail) (ds : List GeminiTokenDetail) :
    spelled key (d :: ds) = (if d.modality = key then d.tokenCount else 0) + spelled key ds := by
  simp [spelled]

@[simp] theorem respelled_cons (d : GeminiTokenDetail) (ds : List GeminiTokenDetail) :
    respelled key (d :: ds) =
      (if d.key = key ∧ d.modality ≠ key then d.tokenCount else 0) + respelled key ds := by
  simp [respelled]

theorem normalizeGeminiModality_of_mem {key : String} (h : key ∈ modalities) :
    normalizeGeminiModality key = key := by
  have hall : ∀ k ∈ modalities, normalizeGeminiModality k = k := by decide +kernel
  exact hall key h

theorem counted_eq_spelled_add {key : String} (h : key ∈ modalities) (ds : List GeminiTokenDetail) :
    counted key ds = spelled key ds + respelled key ds := by
  have hself := normalizeGeminiModality_of_mem h
  induction ds with
  | nil => rfl
  | cons d ds ih =>
    rw [counted_cons, spelled_cons, respelled_cons, ih]
    by_cases hmod : d.modality = key
    · have hkey : d.key = key := by
        show normalizeGeminiModality d.modality = key
        rw [hmod, hself]
      simp only [hkey, hmod, ne_eq, not_true_eq_false, and_false, if_true, if_false]
      omega
    by_cases hkey : d.key = key
    · simp only [hkey, hmod, ne_eq, not_false_eq_true, and_self, if_true, if_false]
      omega
    · simp only [hkey, hmod, false_and, if_false]
      omega

theorem foldl_addDisplayInput (details : InputTokenDetails) : ds.foldl addDisplayInput details =
      { details with
          audioTokens := details.audioTokens + spelled "AUDIO" ds
          imageTokens := details.imageTokens + spelled "IMAGE" ds
          textTokens := details.textTokens + spelled "TEXT" ds } := by
  induction ds generalizing details with
  | nil => simp
  | cons d ds ih =>
    rw [List.foldl_cons, ih]
    unfold addDisplayInput
    by_cases haudio : d.modality = "AUDIO"
    · simp [haudio, add_assoc]
    by_cases himage : d.modality = "IMAGE"
    · simp [himage, add_assoc]
    by_cases htext : d.modality = "TEXT"
    · simp [htext, add_assoc]
    · simp [haudio, himage, htext]

theorem foldl_addDisplayOutput (details : OutputTokenDetails) : ds.foldl addDisplayOutput details =
      { details with
          audioTokens := details.audioTokens + spelled "AUDIO" ds
          imageTokens := details.imageTokens + spelled "IMAGE" ds
          textTokens := details.textTokens + spelled "TEXT" ds } := by
  induction ds generalizing details with
  | nil => simp
  | cons d ds ih =>
    rw [List.foldl_cons, ih]
    unfold addDisplayOutput
    by_cases haudio : d.modality = "AUDIO"
    · simp [haudio, add_assoc]
    by_cases himage : d.modality = "IMAGE"
    · simp [himage, add_assoc]
    by_cases htext : d.modality = "TEXT"
    · simp [htext, add_assoc]
    · simp [haudio, himage, htext]

/-! ## The counts of the two decoders -/

namespace GeminiUsage

variable (m : GeminiUsage)

def prompt : Int := m.promptTokenCount + m.toolUsePromptTokenCount

def output : Int := m.candidatesTokenCount + m.thoughtsTokenCount

def promptSpelled (key : String) : Int :=
  spelled key m.promptTokensDetails + spelled key m.toolUsePromptTokensDetails

def promptRespelled (key : String) : Int :=
  respelled key m.promptTokensDetails + respelled key m.toolUsePromptTokensDetails

theorem promptIn_eq {key : String} (h : key ∈ modalities) :
    m.promptIn key = m.promptSpelled key + m.promptRespelled key := by
  show counted key _ + counted key _ = (spelled key _ + spelled key _) + (respelled key _ + respelled key _)
  rw [counted_eq_spelled_add h, counted_eq_spelled_add h]
  omega

theorem candidatesIn_eq {key : String} (h : key ∈ modalities) : m.candidatesIn key =
      spelled key m.candidatesTokensDetails + respelled key m.candidatesTokensDetails :=
  counted_eq_spelled_add h _

/-- The text count when the whole prompt stands in for missing text and audio. -/
def textOr (text audio : Int) : Int := if 0 < m.prompt ∧ text = 0 ∧ audio = 0 then m.prompt else text

def displayCompletion : Int :=
  if 0 < m.totalTokenCount ∧ m.output ≤ 0 then m.totalTokenCount - m.prompt else m.output

def settledCompletion : Int :=
  if m.totalTokenCount = 0 then m.output
  else if m.output ≤ 0 then max (m.totalTokenCount - m.prompt) 0
  else m.output

end GeminiUsage

theorem tally_display {m : GeminiUsageMetadata} {u : Usage}
    (h : usageFromGeminiMetadata (some m) 0 = some u) :
    u.tally =
    { prompt := m.prompt
      completion := m.displayCompletion
      cached := m.cachedContentTokenCount
      reasoning := m.thoughtsTokenCount
      promptText := m.textOr (m.promptSpelled "TEXT") (m.promptSpelled "AUDIO")
      promptImage := m.promptSpelled "IMAGE"
      promptAudio := m.promptSpelled "AUDIO"
      completionText := spelled "TEXT" m.candidatesTokensDetails
      completionImage := spelled "IMAGE" m.candidatesTokensDetails
      completionAudio := spelled "AUDIO" m.candidatesTokensDetails } := by
  simp only [usageFromGeminiMetadata, Option.some.injEq] at h
  subst h
  simp only [OpenAIUsage.tally, foldl_addDisplayInput, foldl_addDisplayOutput, promptOrFallback,
    lt_irrefl, and_false, if_false, zero_add]
  unfold GeminiUsage.textOr GeminiUsage.displayCompletion GeminiUsage.promptSpelled
    GeminiUsage.prompt GeminiUsage.output
  split_ifs <;> rfl

variable (m : GeminiUsage)

theorem tally_settled : m.tally =
    { prompt := m.prompt
      completion := m.settledCompletion
      cached := m.cachedContentTokenCount
      reasoning := m.thoughtsTokenCount
      promptText := m.textOr (m.promptIn "TEXT") (m.promptIn "AUDIO")
      promptImage := m.promptIn "IMAGE"
      promptAudio := m.promptIn "AUDIO"
      completionText := m.candidatesIn "TEXT"
      completionImage := m.candidatesIn "IMAGE"
      completionAudio := m.candidatesIn "AUDIO" } := by
  unfold GeminiUsage.tally canonicalGeminiUsage OpenAIUsage.tally
  simp only [foldl_addGeminiInputTokenDetail, foldl_addGeminiOutputTokenDetail, zero_add]
  unfold GeminiUsage.textOr GeminiUsage.settledCompletion GeminiUsage.promptIn
    GeminiUsage.candidatesIn GeminiUsage.prompt GeminiUsage.output
  split_ifs <;> rfl

/-! ## When the two decoders agree -/

/-- No count is negative. -/
structure Tally.NonNeg (t : Tally) : Prop where
  prompt : 0 ≤ t.prompt
  completion : 0 ≤ t.completion
  cached : 0 ≤ t.cached
  reasoning : 0 ≤ t.reasoning
  promptText : 0 ≤ t.promptText
  promptImage : 0 ≤ t.promptImage
  promptAudio : 0 ≤ t.promptAudio
  completionText : 0 ≤ t.completionText
  completionImage : 0 ≤ t.completionImage
  completionAudio : 0 ≤ t.completionAudio

/-- The entries that only the settling decoder reads add up to nothing.  Text is
    the exception: both decoders let the whole prompt stand in for it. -/
structure GeminiUsage.Spelled (m : GeminiUsage) : Prop where
  image : m.promptRespelled "IMAGE" = 0
  audio : m.promptRespelled "AUDIO" = 0
  text : m.promptRespelled "TEXT" = 0 ∨
    (0 < m.prompt ∧ m.promptSpelled "AUDIO" = 0 ∧
      ((m.promptSpelled "TEXT" = 0 ∧ m.promptRespelled "TEXT" = m.prompt) ∨
        (m.promptSpelled "TEXT" = m.prompt ∧ m.promptRespelled "TEXT" = -m.prompt)))
  candidates : ∀ key ∈ modalities, respelled key m.candidatesTokensDetails = 0

/-- A completion count that is made up from the total is not made up from a total
    below the prompt. -/
def GeminiUsage.Covered : Prop :=
  0 < m.output ∨ m.totalTokenCount = 0 ∨ (0 < m.totalTokenCount ∧ m.prompt ≤ m.totalTokenCount) ∨
    (m.totalTokenCount < 0 ∧ m.output = 0 ∧ m.totalTokenCount ≤ m.prompt)

theorem completion_eq_iff : m.displayCompletion = m.settledCompletion ↔ m.Covered := by
  unfold GeminiUsage.displayCompletion GeminiUsage.settledCompletion GeminiUsage.Covered
  split_ifs <;> omega

theorem textOr_eq_iff (text more audio : Int) : m.textOr text audio = m.textOr (text + more) audio ↔
      more = 0 ∨ (0 < m.prompt ∧ audio = 0 ∧
        ((text = 0 ∧ more = m.prompt) ∨ (text = m.prompt ∧ more = -m.prompt))) := by
  unfold GeminiUsage.textOr
  split_ifs <;> omega

theorem Tally.eq_iff (s t : Tally) : s = t ↔
    (s.prompt = t.prompt ∧ s.completion = t.completion ∧ s.cached = t.cached ∧
      s.reasoning = t.reasoning) ∧
    (s.promptText = t.promptText ∧ s.promptImage = t.promptImage ∧ s.promptAudio = t.promptAudio) ∧
    (s.completionText = t.completionText ∧ s.completionImage = t.completionImage ∧
      s.completionAudio = t.completionAudio) := by
  constructor
  · rintro rfl
    exact ⟨⟨rfl, rfl, rfl, rfl⟩, ⟨rfl, rfl, rfl⟩, ⟨rfl, rfl, rfl⟩⟩
  cases s
  cases t
  rintro ⟨⟨rfl, rfl, rfl, rfl⟩, ⟨rfl, rfl, rfl⟩, ⟨rfl, rfl, rfl⟩⟩
  rfl

theorem tally_display_eq_iff {m : GeminiUsageMetadata} {u : Usage}
    (h : usageFromGeminiMetadata (some m) 0 = some u) :
    u.tally = m.tally ↔ m.Spelled ∧ m.Covered := by
  have htext : m.promptIn "TEXT" = m.promptSpelled "TEXT" + m.promptRespelled "TEXT" :=
    m.promptIn_eq (by decide)
  have himage : m.promptIn "IMAGE" = m.promptSpelled "IMAGE" + m.promptRespelled "IMAGE" :=
    m.promptIn_eq (by decide)
  have haudio : m.promptIn "AUDIO" = m.promptSpelled "AUDIO" + m.promptRespelled "AUDIO" :=
    m.promptIn_eq (by decide)
  have hcand : ∀ key ∈ modalities, m.candidatesIn key =
      spelled key m.candidatesTokensDetails + respelled key m.candidatesTokensDetails :=
    fun key hkey => m.candidatesIn_eq hkey
  rw [tally_display h, tally_settled, Tally.eq_iff]
  simp only [true_and, and_true, completion_eq_iff]
  constructor
  · rintro ⟨hcovered, ⟨heqText, heqImage, heqAudio⟩, hctext, hcimage, hcaudio⟩
    have hnoAudio : m.promptRespelled "AUDIO" = 0 := by omega
    rw [← heqAudio, htext, textOr_eq_iff] at heqText
    refine ⟨⟨by omega, hnoAudio, heqText, ?_⟩, hcovered⟩
    intro key hkey
    have hsum := hcand key hkey
    simp only [modalities, List.mem_cons, List.not_mem_nil, or_false] at hkey
    obtain rfl | rfl | rfl := hkey <;> omega
  rintro ⟨hs, hcovered⟩
  have heqAudio : m.promptIn "AUDIO" = m.promptSpelled "AUDIO" := by
    have hzero := hs.audio
    omega
  have hcandEq : ∀ key ∈ modalities, spelled key m.candidatesTokensDetails = m.candidatesIn key := by
    intro key hkey
    have hsum := hcand key hkey
    have hzero := hs.candidates key hkey
    omega
  refine ⟨hcovered, ⟨?_, ?_, heqAudio.symm⟩, hcandEq "TEXT" (by decide),
    hcandEq "IMAGE" (by decide), hcandEq "AUDIO" (by decide)⟩
  · rw [heqAudio, htext]
    exact (textOr_eq_iff _ _ _ _).2 hs.text
  · have hzero := hs.image
    omega

theorem tally_nonneg {m : GeminiUsage} (h : m.NonNeg) : m.tally.NonNeg := by
  have hprompt : 0 ≤ m.prompt := Int.add_nonneg h.prompt h.toolUse
  have houtput : 0 ≤ m.output := Int.add_nonneg h.candidates h.thoughts
  have htext := h.promptIn "TEXT"
  rw [tally_settled]
  refine ⟨hprompt, ?_, h.cached, h.thoughts, ?_, h.promptIn _, h.promptIn _, h.candidatesIn _,
    h.candidatesIn _, h.candidatesIn _⟩
  · show 0 ≤ m.settledCompletion
    unfold GeminiUsage.settledCompletion
    split_ifs <;> omega
  unfold GeminiUsage.textOr
  split_ifs <;> omega

/-- The record means the same when it is shown and when it is settled. -/
def OneMeaning (m : GeminiUsageMetadata) : Prop :=
  ∃ u b c, usageFromGeminiMetadata (some m) 0 = some u ∧
    newGeminiChatBillingUsage m.toGeminiUsage = some b ∧ b.canonicalUsage = some c ∧
    u.tally = c.tally ∧ (m.NonNeg → u.tally.NonNeg ∧ c.tally.NonNeg)

/-- The counts shown are the counts settled if and only if every modality that
    counts is spelled out in capitals and no total falls below the prompt it includes. -/
theorem oneMeaning_iff {m : GeminiUsageMetadata} (h : m.hasTokens = true) :
    OneMeaning m ↔ m.Spelled ∧ m.Covered := by
  have hbilling : newGeminiChatBillingUsage m.toGeminiUsage = some (geminiSidecar m.toGeminiUsage) := by
    simp [newGeminiChatBillingUsage, h, geminiSidecar]
  constructor
  · rintro ⟨u, b, c, hu, hb, hc, heq, -⟩
    rw [hbilling, Option.some.injEq] at hb
    subst hb
    rw [canonicalUsage_gemini h, Option.some.injEq] at hc
    subst hc
    exact (tally_display_eq_iff hu).1 heq
  intro hcond
  have heq := (tally_display_eq_iff (m := m) rfl).2 hcond
  refine ⟨_, _, _, rfl, hbilling, canonicalUsage_gemini h, heq, fun hnonneg => ?_⟩
  rw [heq]
  exact ⟨tally_nonneg hnonneg, tally_nonneg hnonneg⟩

def lowerAudio : GeminiUsageMetadata :=
  { promptTokenCount := 100, promptTokensDetails := [⟨"audio", 40⟩, ⟨"TEXT", 60⟩] }

theorem not_oneMeaning_lowerAudio :
    lowerAudio.billingUsage = none ∧ lowerAudio.hasTokens = true ∧ ¬ OneMeaning lowerAudio := by
  refine ⟨rfl, by decide +kernel, ?_⟩
  rintro ⟨u, b, c, hu, hb, hc, heq, -⟩
  have hshown : u.tally.promptAudio = 0 := by
    obtain rfl := Option.some.inj hu
    decide +kernel
  have hbilled : b = geminiSidecar lowerAudio.toGeminiUsage := by
    have hall : newGeminiChatBillingUsage lowerAudio.toGeminiUsage =
        some (geminiSidecar lowerAudio.toGeminiUsage) := by decide +kernel
    exact Option.some.inj (hb.symm.trans hall)
  have hsettled : c.tally.promptAudio = 40 := by
    subst hbilled
    rw [canonicalUsage_gemini (by decide +kernel)] at hc
    obtain rfl := Option.some.inj hc
    decide +kernel
  rw [heq, hsettled] at hshown
  exact absurd hshown (by decide)

theorem oneMeaning_upperAudio :
    OneMeaning { promptTokenCount := 100, promptTokensDetails := [⟨"AUDIO", 40⟩, ⟨"TEXT", 60⟩] } :=
  (oneMeaning_iff (by decide +kernel)).2
    ⟨⟨by decide +kernel, by decide +kernel, .inl (by decide +kernel), by decide +kernel⟩,
      .inr (.inl rfl)⟩

end NewApi.Convert
