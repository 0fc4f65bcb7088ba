/-
  NewApi.Reasoning.Intent

  Reasoning intents and how they are carried by a request to a chat model and by a
  request for a response (`relaykit/relayconvert/reasoning/intent.go`).

  Besides the public fields a request carries a state that is not part of its JSON, so
  that the next conversion in the process finds the exact controls.
-/

import NewApi.Lib.Text

namespace NewApi.Reasoning

open NewApi.Lib.Text

/-- `unicode.ToLower` -/
structure Lowercase where
  lower : Char → Char
  keeps : ∀ c, 'a' ≤ c → c ≤ 'z' → lower c = c

inductive Source
  | unset | explicit | native | suffix | pivot
deriving DecidableEq

structure Intent where
  mode : String := ""
  effort : String := ""
  budgetTokens : Option Int := none
  includeThoughts : Option Bool := none
  source : Source := .unset
  budgetSource : Source := .unset
deriving DecidableEq

def Intent.HasStrength (i : Intent) : Prop := i.mode ≠ "" ∨ i.effort ≠ "" ∨ i.budgetTokens ≠ none

def Intent.IsEmpty (i : Intent) : Prop := ¬ i.HasStrength ∧ i.includeThoughts = none

instance (i : Intent) : Decidable i.HasStrength := inferInstanceAs (Decidable (_ ∨ _ ∨ _))
instance (i : Intent) : Decidable i.IsEmpty := inferInstanceAs (Decidable (_ ∧ _))

inductive IntentError
  | unsupportedEffort (value : String)
  | unsupportedMode (mode : String)
  | budget (budget : Int)
  /-- `ErrEffortConflict` -/
  | conflict
  | invalidReasoning
deriving DecidableEq

/-- `EffortNone` to `EffortMax` -/
def efforts : List String := ["none", "minimal", "low", "medium", "high", "xhigh", "max"]

/-- `ModeUnset` to `ModeDisabled` -/
def modes : List String := ["", "enabled", "adaptive", "disabled"]

section

variable (l : Lowercase)

def parseEffort (value : String) : Except IntentError String :=
  let effort := toLower l.lower (trimSpace value)
  if effort = "" then .ok ""
  else if effort ∈ efforts then .ok effort
  else .error (.unsupportedEffort value)

/-- What `normalizeIntent` makes of a budget. -/
def normalizeBudget (intent : Intent) : Except IntentError Intent :=
  match intent.budgetTokens with
  | none => .ok intent
  | some budget =>
    if budget < -1 then .error (.budget budget)
    else if budget = 0 then
      if intent.mode = "enabled" ∨ intent.mode = "adaptive" ∨
          (intent.effort ≠ "" ∧ intent.effort ≠ "none") then .error .conflict
      else .ok { intent with mode := "disabled", effort := "none" }
    else if intent.mode = "disabled" ∨ intent.effort = "none" then .error .conflict
    else if intent.mode = "" then .ok { intent with mode := "enabled" }
    else .ok intent

def normalizeIntent (intent : Intent) : Except IntentError Intent :=
  match parseEffort l intent.effort with
  | .error err => .error err
  | .ok effort =>
    if intent.mode ∉ modes then .error (.unsupportedMode intent.mode)
    else match normalizeBudget { intent with effort } with
      | .error err => .error err
      | .ok intent =>
        if intent.effort = "none" then
          if intent.mode = "enabled" ∨ intent.mode = "adaptive" then .error .conflict
          else .ok { intent with mode := "disabled" }
        else .ok intent

def effortFromBudget (budget : Int) : String :=
  if budget = 0 then "none"
  else if budget < 0 then "high"
  else if budget ≤ 1024 then "low"
  else if budget ≤ 8192 then "medium"
  else "high"

def effectiveEffort (intent : Intent) : String :=
  match normalizeIntent l intent with
  | .error _ => ""
  | .ok intent =>
    if intent.mode = "disabled" then "none"
    else if intent.effort ≠ "" then intent.effort
    else match intent.budgetTokens with
      | some budget => effortFromBudget budget
      | none => if intent.mode = "enabled" ∨ intent.mode = "adaptive" then "high" else ""

def Intent.Disabled (i : Intent) : Prop := i.mode = "disabled" ∨ i.effort = "none"

instance (i : Intent) : Decidable i.Disabled := inferInstanceAs (Decidable (_ ∨ _))

/-- `MergeExplicit`; the model is named in its errors only. -/
def mergeExplicit (primary secondary : Intent) : Except IntentError Intent := do
  let primary ← normalizeIntent l primary
  let secondary ← normalizeIntent l secondary
  if primary.IsEmpty then return secondary
  if secondary.IsEmpty then return primary
  if primary.HasStrength ∧ secondary.HasStrength ∧ ¬ (primary.Disabled ↔ secondary.Disabled) then
    throw .conflict
  if primary.effort ≠ "" ∧ secondary.effort ≠ "" ∧ primary.effort ≠ secondary.effort then
    throw .conflict
  if primary.budgetTokens ≠ none ∧ secondary.budgetTokens ≠ none ∧
      primary.budgetTokens ≠ secondary.budgetTokens then throw .conflict
  normalizeIntent l
    { mode := if primary.mode ≠ "" then primary.mode else secondary.mode
      effort := if primary.effort ≠ "" then primary.effort else secondary.effort
      budgetTokens := primary.budgetTokens.or secondary.budgetTokens
      includeThoughts := primary.includeThoughts.or secondary.includeThoughts
      source := secondary.source
      budgetSource :=
        if primary.budgetTokens ≠ none then primary.budgetSource else secondary.budgetSource }

/-- `dto.ReasoningConversionState` -/
structure ConversionState where
  mode : String
  effort : String
  budgetTokens : Option Int
  includeThoughts : Option Bool

/-- `openRouterReasoning` -/
structure OpenRouterReasoning where
  enabled : Option Bool
  effort : String
  maxTokens : Option Int
  exclude : Option Bool

/-- The reasoning fields of `dto.GeneralOpenAIRequest`; `reasoning` is decoded, `some none`
    where it cannot be. -/
structure ChatRequest where
  reasoningEffort : String := ""
  reasoning : Option (Option OpenRouterReasoning) := none
  reasoningConversion : Option ConversionState := none

/-- `dto.Reasoning` -/
structure ResponsesReasoning where
  effort : String
  summary : String

/-- The reasoning fields of `dto.OpenAIResponsesRequest`. -/
structure ResponsesRequest where
  reasoning : Option ResponsesReasoning := none
  reasoningConversion : Option ConversionState := none

def ConversionState.pivot (s : ConversionState) : Intent :=
  { mode := s.mode, effort := s.effort, budgetTokens := s.budgetTokens
    includeThoughts := s.includeThoughts, source := .pivot, budgetSource := .pivot }

def Intent.state (i : Intent) : ConversionState :=
  ⟨i.mode, i.effort, i.budgetTokens, i.includeThoughts⟩

/-- The nested `reasoning` object of a chat request. -/
def nestedIntent (raw : OpenRouterReasoning) : Except IntentError Intent := do
  let nested : Intent :=
    { budgetTokens := raw.maxTokens, source := .explicit, budgetSource := .explicit
      mode := match raw.enabled with
        | some true => "enabled"
        | some false => "disabled"
        | none => ""
      effort := if raw.enabled = some false then "none" else ""
      includeThoughts := raw.exclude.map (!·) }
  if raw.effort = "" then return nested
  let effort ← parseEffort l raw.effort
  return { nested with
    effort
    mode := if effort = "none" then "disabled"
      else if nested.mode = "" then "enabled" else nested.mode }

/-- The strength that a request states, dropped where it is what the state says. -/
def statedUnlessPivot (stated : Intent) (effort : String) (state : ConversionState) : Intent :=
  if effort ≠ "" ∧ effort = effectiveEffort l state.pivot then
    { stated with effort := "", mode := "" }
  else stated

def fromOpenAIChat (req : ChatRequest) : Except IntentError Intent := do
  let effort ← parseEffort l req.reasoningEffort
  let intent : Intent := if req.reasoningEffort = "" then { source := .explicit }
    else { source := .explicit, effort, mode := if effort = "none" then "disabled" else "enabled" }
  let intent ← match req.reasoning with
    | none => .ok intent
    | some none => .error .invalidReasoning
    | some (some raw) => do mergeExplicit l intent (← nestedIntent l raw)
  match req.reasoningConversion with
  | none => normalizeIntent l intent
  | some state => mergeExplicit l (statedUnlessPivot l intent req.reasoningEffort state) state.pivot

def applyToOpenAIChat (req : ChatRequest) (intent : Intent) : Except IntentError ChatRequest := do
  let intent ← normalizeIntent l intent
  let effort := effectiveEffort l intent
  return { req with
    reasoningEffort := if effort ≠ "" then effort else req.reasoningEffort
    reasoningConversion := if intent.IsEmpty then req.reasoningConversion else some intent.state }

def applyToOpenAIResponses (req : ResponsesRequest) (intent : Intent) :
    Except IntentError ResponsesRequest := do
  let intent ← normalizeIntent l intent
  let effort := effectiveEffort l intent
  return {
    reasoning := if effort ≠ "" then some
        { effort
          summary := if effort = "none" ∨ intent.includeThoughts = some false then "" else "detailed" }
      else req.reasoning
    reasoningConversion := if intent.IsEmpty then req.reasoningConversion else some intent.state }

/-- What the `reasoning` object of a request for a response says. -/
def responsesIntent (reasoning : ResponsesReasoning) : Except IntentError Intent := do
  let effort ← parseEffort l reasoning.effort
  return {
    source := .explicit
    effort := if reasoning.effort = "" then "" else effort
    mode := if reasoning.effort = "" then "" else if effort = "none" then "disabled" else "enabled"
    includeThoughts := if reasoning.summary ≠ "" then some true else none }

def fromOpenAIResponses (req : ResponsesRequest) : Except IntentError Intent := do
  let intent ← (req.reasoning.map (responsesIntent l)).getD (.ok {})
  let effort := (req.reasoning.map ResponsesReasoning.effort).getD ""
  match req.reasoningConversion with
  | none => normalizeIntent l intent
  | some state => mergeExplicit l (statedUnlessPivot l intent effort state) state.pivot

/-- The requests an intent is written to. -/
inductive Protocol
  | chat | responses

def hop (p : Protocol) (intent : Intent) : Except IntentError Intent :=
  match p with
  | .chat => do fromOpenAIChat l (← applyToOpenAIChat l {} intent)
  | .responses => do fromOpenAIResponses l (← applyToOpenAIResponses l {} intent)

def carry : List Protocol → Intent → Except IntentError Intent
  | [], intent => normalizeIntent l intent
  | p :: ps, intent => do carry ps (← hop l p intent)

/-! ### Normalized intents -/

theorem parseEffort_of_mem {e : String} (he : e ∈ "" :: efforts) : parseEffort l e = .ok e := by
  have hletters : ∀ e ∈ "" :: efforts, trimSpace e = e ∧
      e.toList.all fun c => 'a' ≤ c ∧ c ≤ 'z' := by decide +kernel
  obtain ⟨htrim, hall⟩ := hletters e he
  have hrange : ∀ c ∈ e.toList, 'a' ≤ c ∧ c ≤ 'z' := by simpa using hall
  have hlower : toLower l.lower e = e := by
    have hmap : e.toList.map l.lower = e.toList :=
      (List.map_congr_left fun c hc => l.keeps c (hrange c hc).1 (hrange c hc).2).trans
        (List.map_id' _)
    rw [toLower, hmap, String.ofList_toList]
  unfold parseEffort
  simp only [htrim, hlower]
  split
  · rename_i hnil
    rw [hnil]
  · rename_i hne
    rw [if_pos ((List.mem_cons.1 he).resolve_left hne)]

theorem parseEffort_mem {value e : String} (h : parseEffort l value = .ok e) :
    e ∈ "" :: efforts := by
  unfold parseEffort at h
  generalize toLower l.lower (trimSpace value) = effort at h
  dsimp only at h
  split at h
  · rw [← Except.ok.inj h]
    exact List.mem_cons_self
  split at h
  · rename_i hmem
    rw [← Except.ok.inj h]
    exact List.mem_cons_of_mem _ hmem
  · cases h

/-- What `normalizeIntent` returns. -/
structure Intent.Normal (i : Intent) : Prop where
  effort : i.effort ∈ "" :: efforts
  mode : i.mode ∈ modes
  none : i.effort = "none" → i.mode = "disabled"
  zero : i.budgetTokens = some 0 → i.effort = "none"
  budget : ∀ b, i.budgetTokens = some b → -1 ≤ b ∧
    (b ≠ 0 → i.mode ≠ "" ∧ i.mode ≠ "disabled" ∧ i.effort ≠ "none")

theorem normalBudget {i r : Intent} (heffort : i.effort ∈ "" :: efforts) (hmode : i.mode ∈ modes)
    (h : normalizeBudget i = .ok r) :
    r.effort ∈ "" :: efforts ∧ r.mode ∈ modes ∧ (r.budgetTokens = some 0 → r.effort = "none") ∧
      ∀ b, r.budgetTokens = some b → -1 ≤ b ∧
        (b ≠ 0 → r.mode ≠ "" ∧ r.mode ≠ "disabled" ∧ r.effort ≠ "none") := by
  unfold normalizeBudget at h
  cases hb : i.budgetTokens with
  | none =>
    rw [hb] at h
    cases h
    exact ⟨heffort, hmode, by simp [hb], by simp [hb]⟩
  | some b =>
    rw [hb] at h
    dsimp only at h
    split at h
    · cases h
    split at h
    · rename_i hzero
      split at h <;> cases h
      refine ⟨by simp [efforts], by simp [modes], fun _ => rfl, fun b' hb' => ?_⟩
      cases hb'
      exact ⟨by omega, fun hne => absurd hzero hne⟩
    rename_i hzero
    split at h
    · cases h
    rename_i hon
    simp only [not_or] at hon
    split at h <;> cases h
    · refine ⟨heffort, by simp [modes], fun h0 => absurd (Option.some.inj h0) hzero,
        fun b' hb' => ?_⟩
      cases hb'
      exact ⟨by omega, fun _ => ⟨by simp, by simp, hon.2⟩⟩
    rename_i hset
    refine ⟨heffort, hmode, fun h0 => ?_, fun b' hb' => ?_⟩
    · rw [hb] at h0
      exact absurd (Option.some.inj h0) hzero
    rw [hb] at hb'
    cases hb'
    exact ⟨by omega, fun _ => ⟨hset, hon.1, hon.2⟩⟩

theorem normal_of_normalizeIntent {i n : Intent} (h : normalizeIntent l i = .ok n) : n.Normal := by
  unfold normalizeIntent at h
  split at h
  · cases h
  rename_i e heffort
  split at h
  · cases h
  rename_i hmode
  split at h
  · cases h
  rename_i r hr
  obtain ⟨he, hm, hzero, hbudget⟩ := normalBudget (i := { i with effort := e })
    (parseEffort_mem l heffort) (Classical.not_not.1 hmode) hr
  split at h
  · rename_i hnone
    split at h <;> cases h
    refine ⟨he, by simp [modes], fun _ => rfl, hzero, fun b hb => ?_⟩
    exact ⟨(hbudget b hb).1, fun hne => absurd hnone ((hbudget b hb).2 hne).2.2⟩
  rename_i hsome
  cases h
  exact ⟨he, hm, fun hnone => absurd hnone hsome, hzero, hbudget⟩

theorem Intent.Normal.normalizeIntent {i : Intent} (h : i.Normal) :
    Reasoning.normalizeIntent l i = .ok i := by
  have hbudget : normalizeBudget i = .ok i := by
    unfold normalizeBudget
    cases hb : i.budgetTokens with
    | none => rfl
    | some b =>
      obtain ⟨hlow, hon⟩ := h.budget b hb
      dsimp only
      rw [if_neg (by omega)]
      split
      · rename_i hzero
        subst hzero
        have hnone := h.zero hb
        have hmode := h.none hnone
        rw [if_neg (by simp [hnone, hmode])]
        cases i
        simp_all
      rename_i hne
      obtain ⟨hset, hdis, hnone⟩ := hon hne
      rw [if_neg (by simp [hdis, hnone]), if_neg hset]
  unfold Reasoning.normalizeIntent
  rw [parseEffort_of_mem l h.effort]
  dsimp only
  rw [if_neg (fun hno => hno h.mode), hbudget]
  dsimp only
  split
  · rename_i hnone
    have hmode := h.none hnone
    rw [if_neg (by simp [hmode])]
    cases i
    simp_all
  · rfl

/-- **The normalized intents**: what normalizing answers is what it leaves as it is. -/
theorem normalizeIntent_range (n : Intent) : ((∃ i, normalizeIntent l i = .ok n) ↔ n.Normal) ∧
      (normalizeIntent l n = .ok n ↔ n.Normal) := by
  have hkept (h : n.Normal) : normalizeIntent l n = .ok n := h.normalizeIntent l
  refine ⟨⟨?_, fun h => ⟨n, hkept h⟩⟩, normal_of_normalizeIntent l, hkept⟩
  rintro ⟨i, hi⟩
  exact normal_of_normalizeIntent l hi

theorem Intent.Normal.pivot {i : Intent} (h : i.Normal) : i.state.pivot.Normal :=
  ⟨h.effort, h.mode, h.none, h.zero, h.budget⟩

/-- A level is stated for an intent that thinks, and nothing for one that says nothing. -/
structure Stated (i : Intent) (e : String) : Prop where
  mem : e ∈ "" :: efforts
  empty : e = "" ↔ ¬ i.HasStrength
  disabled : e = "none" ↔ i.mode = "disabled"

theorem effortFromBudget_mem {b : Int} (hb : b ≠ 0) :
    effortFromBudget b ∈ "" :: efforts ∧ effortFromBudget b ≠ "" ∧ effortFromBudget b ≠ "none" := by
  unfold effortFromBudget
  rw [if_neg hb]
  split_ifs <;> decide

theorem Intent.Normal.stated {i : Intent} (h : i.Normal) : Stated i (effectiveEffort l i) := by
  unfold effectiveEffort
  rw [h.normalizeIntent l]
  dsimp only
  by_cases hdis : i.mode = "disabled"
  · rw [if_pos hdis]
    exact ⟨by decide, ⟨nofun, fun hno => absurd (.inl (by rw [hdis]; decide)) hno⟩,
      iff_of_true rfl hdis⟩
  rw [if_neg hdis]
  by_cases heffort : i.effort = ""
  · rw [if_neg (not_not.2 heffort)]
    cases hb : i.budgetTokens with
    | some b =>
      have hne : b ≠ 0 := by
        rintro rfl
        exact hdis (h.none (h.zero hb))
      obtain ⟨hmem, hset, hon⟩ := effortFromBudget_mem hne
      exact ⟨hmem, iff_of_false hset fun hno => hno (.inr (.inr (by simp [hb]))),
        iff_of_false hon hdis⟩
    | none =>
      dsimp only
      have hmodes : i.mode = "" ∨ i.mode = "enabled" ∨ i.mode = "adaptive" ∨ i.mode = "disabled" := by
        simpa [modes] using h.mode
      split
      · rename_i hmode
        have hset : i.mode ≠ "" := by rcases hmode with hm | hm <;> rw [hm] <;> decide
        exact ⟨by decide, iff_of_false (by decide) fun hno => hno (.inl hset),
          iff_of_false (by decide) hdis⟩
      have hunset : i.mode = "" := by tauto
      refine ⟨by decide, iff_of_true rfl ?_, iff_of_false (by decide) hdis⟩
      rintro (hs | hs | hs)
      · exact hs hunset
      · exact hs heffort
      · exact hs hb
  rw [if_pos heffort]
  exact ⟨h.effort, iff_of_false heffort fun hno => hno (.inr (.inl heffort)),
    iff_of_false (fun hn => hdis (h.none hn)) hdis⟩

/-! ### Hops -/

def Intent.controls (i : Intent) : String × String × Option Int × Option Bool :=
  (i.mode, i.effort, i.budgetTokens, i.includeThoughts)

theorem mergeExplicit_shown {i : Intent} (h : i.Normal) (hne : ¬ i.IsEmpty) (shown : Option Bool)
    (source : Source) : ∃ r, mergeExplicit l { includeThoughts := shown, source } i = .ok r ∧
      r.controls = (i.mode, i.effort, i.budgetTokens, shown.or i.includeThoughts) := by
  have hshown : ({ includeThoughts := shown, source } : Intent).Normal :=
    ⟨by simp, by simp [modes], by simp, by simp, by simp⟩
  unfold mergeExplicit
  rw [hshown.normalizeIntent l, h.normalizeIntent l]
  simp only [bind, Except.bind, pure, Except.pure]
  cases shown with
  | none =>
    rw [if_pos (by simp [Intent.IsEmpty, Intent.HasStrength])]
    exact ⟨i, rfl, rfl⟩
  | some b =>
    rw [if_neg (by simp [Intent.IsEmpty]), if_neg hne, if_neg (by simp [Intent.HasStrength]),
      if_neg (by simp), if_neg (by simp)]
    have hnormal : ({ i with includeThoughts := some b } : Intent).Normal :=
      ⟨h.effort, h.mode, h.none, h.zero, h.budget⟩
    have hmerged := hnormal.normalizeIntent l
    exact ⟨_, hmerged, rfl⟩

theorem hop_eq {p : Protocol} {i n : Intent} (h : normalizeIntent l i = .ok n) :
    hop l p i = hop l p n := by
  have hn := (normal_of_normalizeIntent l h).normalizeIntent l
  cases p <;> simp only [hop, applyToOpenAIChat, applyToOpenAIResponses, h, hn]

theorem merge_stated {i : Intent} (stated : Intent) (h : i.Normal) (hne : ¬ i.IsEmpty) {e : String}
    (he : e = effectiveEffort l i) (hstated : e = "" → stated.effort = "" ∧ stated.mode = "")
    (hbudget : stated.budgetTokens = none) (hsource : stated.budgetSource = .unset) :
    ∃ r, mergeExplicit l (statedUnlessPivot l stated e i.state) i.state.pivot = .ok r ∧
      r.controls = (i.mode, i.effort, i.budgetTokens, stated.includeThoughts.or i.includeThoughts) := by
  have hpivot : effectiveEffort l i.state.pivot = effectiveEffort l i := by
    unfold effectiveEffort
    rw [h.normalizeIntent l, h.pivot.normalizeIntent l]
    rfl
  have hcleared : statedUnlessPivot l stated e i.state =
      { includeThoughts := stated.includeThoughts, source := stated.source } := by
    unfold statedUnlessPivot
    rw [hpivot, ← he]
    cases stated
    subst hbudget hsource
    split
    · rfl
    rename_i hno
    obtain ⟨heffort, hmode⟩ := hstated (by_contra fun hset => hno ⟨hset, rfl⟩)
    subst heffort hmode
    rfl
  rw [hcleared]
  exact mergeExplicit_shown l h.pivot hne _ _

theorem hop_chat {i : Intent} (h : i.Normal) :
    ∃ r, hop l .chat i = .ok r ∧ r.controls = i.controls := by
  have hs := h.stated l
  have hparse := parseEffort_of_mem l hs.mem
  simp only [hop, applyToOpenAIChat, h.normalizeIntent l, bind, Except.bind, pure, Except.pure]
  have heffort : (if effectiveEffort l i ≠ "" then effectiveEffort l i else "") =
      effectiveEffort l i := by
    split
    · rfl
    · rename_i hno
      exact (not_not.1 hno).symm
  simp only [heffort, fromOpenAIChat, hparse, bind, Except.bind]
  by_cases hempty : i.IsEmpty
  · rw [if_pos hempty, if_pos (hs.empty.2 hempty.1)]
    have hnormal : ({ source := .explicit } : Intent).Normal :=
      ⟨by simp, by simp [modes], by simp, by simp, by simp⟩
    refine ⟨_, hnormal.normalizeIntent l, ?_⟩
    have hno := hempty.1
    simp only [Intent.HasStrength, not_or, not_not] at hno
    simp only [Intent.controls, hno.1, hno.2.1, hno.2.2, hempty.2]
  rw [if_neg hempty]
  generalize hstated : (if effectiveEffort l i = "" then ({ source := .explicit } : Intent) else _) =
    stated
  have hkind : stated.budgetTokens = none ∧ stated.budgetSource = .unset ∧
      stated.includeThoughts = none ∧
        (effectiveEffort l i = "" → stated.effort = "" ∧ stated.mode = "") := by
    subst hstated
    split
    · exact ⟨rfl, rfl, rfl, fun _ => ⟨rfl, rfl⟩⟩
    · rename_i hset
      exact ⟨rfl, rfl, rfl, fun hno => absurd hno hset⟩
  obtain ⟨r, hr, hcontrols⟩ := merge_stated l stated h hempty rfl hkind.2.2.2 hkind.1 hkind.2.1
  refine ⟨r, hr, ?_⟩
  rw [hcontrols, hkind.2.2.1]
  rfl

/-- The intent thinks at some level, and does not say whether that is shown. -/
def Intent.Unshown (i : Intent) : Prop :=
  i.includeThoughts = none ∧ i.HasStrength ∧ i.mode ≠ "disabled"

theorem hop_responses {i : Intent} (h : i.Normal) :
    ∃ r, hop l .responses i = .ok r ∧ r.mode = i.mode ∧ r.effort = i.effort ∧
      r.budgetTokens = i.budgetTokens ∧ (r.includeThoughts = i.includeThoughts ↔ ¬ i.Unshown) := by
  have hs := h.stated l
  have hparse := parseEffort_of_mem l hs.mem
  simp only [hop, applyToOpenAIResponses, h.normalizeIntent l, bind, Except.bind, pure, Except.pure,
    fromOpenAIResponses]
  by_cases he : effectiveEffort l i = ""
  · -- Nothing is stated.
    have hno := hs.empty.1 he
    have hshown : ¬ i.Unshown := fun hu => hno hu.2.1
    rw [if_neg (not_not.2 he)]
    by_cases hempty : i.IsEmpty
    · rw [if_pos hempty]
      have hnormal : ({} : Intent).Normal := ⟨by simp, by simp [modes], by simp, by simp, by simp⟩
      simp only [Intent.HasStrength, not_or, not_not] at hno
      refine ⟨_, hnormal.normalizeIntent l, hno.1.symm, hno.2.1.symm, hno.2.2.symm, ?_⟩
      exact iff_of_true hempty.2.symm hshown
    rw [if_neg hempty]
    obtain ⟨r, hr, hcontrols⟩ := merge_stated l {} h hempty he.symm
      (fun _ => ⟨rfl, rfl⟩) rfl rfl
    simp only [Intent.controls, Option.none_or, Prod.mk.injEq] at hcontrols
    exact ⟨r, hr, hcontrols.1, hcontrols.2.1, hcontrols.2.2.1,
      iff_of_true hcontrols.2.2.2 hshown⟩
  have hstrength : i.HasStrength := not_not.1 (mt hs.empty.2 he)
  have hempty : ¬ i.IsEmpty := fun hno => hno.1 hstrength
  rw [if_pos he, if_neg hempty]
  simp only [Option.map_some, Option.getD_some, responsesIntent, hparse, bind, Except.bind, pure,
    Except.pure, if_neg he]
  generalize hsummary : (if effectiveEffort l i = "none" ∨ i.includeThoughts = some false then ""
    else "detailed") = summary
  obtain ⟨r, hr, hcontrols⟩ := merge_stated l
    ⟨if effectiveEffort l i = "none" then "disabled" else "enabled",
      effectiveEffort l i, none, if summary ≠ "" then some true else none, .explicit, .unset⟩
    h hempty rfl (fun hno => absurd hno he) rfl rfl
  simp only [Intent.controls, Prod.mk.injEq] at hcontrols
  refine ⟨r, hr, hcontrols.1, hcontrols.2.1, hcontrols.2.2.1, ?_⟩
  have hasked : (if summary ≠ "" then some true else none) =
      if effectiveEffort l i = "none" ∨ i.includeThoughts = some false then none
      else some true := by
    rw [← hsummary]
    split <;> rfl
  rw [hcontrols.2.2.2, hasked]
  by_cases hdis : i.mode = "disabled"
  · rw [if_pos (.inl (hs.disabled.2 hdis))]
    exact iff_of_true rfl fun hu => hu.2.2 hdis
  have hlevel : effectiveEffort l i ≠ "none" := mt hs.disabled.1 hdis
  rcases hshow : i.includeThoughts with _ | _ | _
  · rw [if_neg (by simp [hlevel])]
    exact iff_of_false (by simp) (not_not.2 ⟨hshow, hstrength, hdis⟩)
  · rw [if_pos (.inr rfl)]
    exact iff_of_true rfl fun hu => by simp [Intent.Unshown, hshow] at hu
  · rw [if_neg (by simp [hlevel])]
    exact iff_of_true rfl fun hu => by simp [Intent.Unshown, hshow] at hu

theorem carry_keeps {n : Intent} (h : n.Normal) (hshown : ¬ n.Unshown) (ps : List Protocol) :
    ∃ r, carry l ps n = .ok r ∧ r.controls = n.controls := by
  induction ps generalizing n with
  | nil => exact ⟨n, h.normalizeIntent l, rfl⟩
  | cons p ps ih =>
    -- One hop gives an intent with the same controls, which is as normal.
    obtain ⟨r, hr, hcontrols⟩ : ∃ r, hop l p n = .ok r ∧ r.controls = n.controls := by
      cases p with
      | chat => exact hop_chat l h
      | responses =>
        obtain ⟨r, hr, hm, he, hb, hi⟩ := hop_responses l h
        exact ⟨r, hr, by simp only [Intent.controls, hm, he, hb, hi.2 hshown]⟩
    simp only [Intent.controls, Prod.mk.injEq] at hcontrols
    obtain ⟨hm, he, hb, hi⟩ := hcontrols
    have hnormal : r.Normal :=
      ⟨he ▸ h.effort, hm ▸ h.mode, by rw [hm, he]; exact h.none, by rw [hb, he]; exact h.zero,
        by rw [hb, hm, he]; exact h.budget⟩
    have hrshown : ¬ r.Unshown := by
      simp only [Intent.Unshown, Intent.HasStrength, hm, he, hb, hi]
      exact hshown
    obtain ⟨r', hr', hcontrols'⟩ := ih hnormal hrshown
    refine ⟨r', ?_, ?_⟩
    · simp only [carry, hr, bind, Except.bind]
      exact hr'
    · rw [hcontrols']
      simp only [Intent.controls, hm, he, hb, hi]

/-- **When an intent survives the pivot.**  A chat request always gives it back.  A request
    for a response, and any chain with one, asks for a summary where the intent thinks and
    does not say whether that is shown. -/
theorem carry_keeps_iff (l : Lowercase) {i n : Intent} (h : normalizeIntent l i = .ok n) :
    (∃ r, hop l .chat i = .ok r ∧ r.controls = n.controls) ∧
    ((∃ r, hop l .responses i = .ok r ∧ r.controls = n.controls) ↔ ¬ n.Unshown) ∧
    ((∀ ps, ∃ r, carry l ps i = .ok r ∧ r.controls = n.controls) ↔ ¬ n.Unshown) := by
  have hn := normal_of_normalizeIntent l h
  obtain ⟨r, hr, hm, he, hb, hi⟩ := hop_responses l hn
  have hone : (∃ r, hop l .responses i = .ok r ∧ r.controls = n.controls) ↔ ¬ n.Unshown := by
    rw [hop_eq l h, hr, ← hi]
    simp only [Except.ok.injEq, exists_eq_left', Intent.controls, hm, he, hb, Prod.mk.injEq,
      true_and]
  refine ⟨?_, hone, fun hall => ?_, fun hshown ps => ?_⟩
  · rw [hop_eq l h]
    exact hop_chat l hn
  · -- A chain of one request for a response.
    obtain ⟨r', hr', hcontrols⟩ := hall [.responses]
    simp only [carry, hop_eq l h, hr, bind, Except.bind] at hr'
    have hnormal : r.Normal :=
      ⟨he ▸ hn.effort, hm ▸ hn.mode, by rw [hm, he]; exact hn.none, by rw [hb, he]; exact hn.zero,
        by rw [hb, hm, he]; exact hn.budget⟩
    rw [hnormal.normalizeIntent l] at hr'
    rw [← Except.ok.inj hr'] at hcontrols
    exact hone.1 ⟨r, (hop_eq l h).trans hr, hcontrols⟩
  cases ps with
  | nil => exact ⟨n, h, rfl⟩
  | cons p ps =>
    obtain ⟨r', hr'⟩ := carry_keeps l hn hshown (p :: ps)
    simp only [carry, hop_eq l h] at hr' ⊢
    exact ⟨r', hr'⟩

/-- `unicode.ToLower` on ASCII. -/
def asciiLowercase : Lowercase where
  lower c := if 'A' ≤ c ∧ c ≤ 'Z' then Char.ofNat (c.toNat + 32) else c
  keeps c hlo _ := if_neg fun h => absurd (Char.le_trans hlo h.2) (by decide)

theorem carry_keeps_budget :
    ∃ r, carry asciiLowercase [.responses, .chat, .responses]
        ⟨"", " High", some 4096, some false, .native, .native⟩ = .ok r ∧
      r.controls = ("enabled", "high", some 4096, some false) :=
  ((carry_keeps_iff asciiLowercase
    (show normalizeIntent asciiLowercase ⟨"", " High", some 4096, some false, .native, .native⟩ =
      .ok ⟨"enabled", "high", some 4096, some false, .native, .native⟩ by decide +kernel)).2.2).2
    (by simp [Intent.Unshown]) _

/-- An effort alone comes back with a summary asked for. -/
theorem not_kept_effort : ¬ ∃ r, hop asciiLowercase .responses { effort := "high" } = .ok r ∧
      r.controls = ("", "high", none, none) := by
  have hrun : hop asciiLowercase .responses { effort := "high" } =
      .ok ⟨"", "high", none, some true, .pivot, .pivot⟩ := by decide +kernel
  rintro ⟨r, hr, hcontrols⟩
  rw [hrun] at hr
  cases hr
  exact absurd hcontrols (by decide)

end

end NewApi.Reasoning
