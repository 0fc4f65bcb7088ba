/-
  NewApi.Convert.ChatToGeminiStream

  A chat stream as a Gemini stream
  (`relaykit/relayconvert/internal/oai_chat/to_gemini_chat_resp.go`).

  The maps of the converter are keyed by the choice first, so its state is one value for
  each choice (`ChoiceState`); a tool is its position in `toolsByChoice`.  `Calls` says
  which tool call a delta belongs to, from the deltas before it alone: the call of its
  id, or else the call last met at its index unless that has another id, or else a new
  one.  The state of a choice is a function of them (`ChoiceState.of`).
-/

import NewApi.Lib.Grouping
import NewApi.Lib.JsonValue
import NewApi.Lib.Text

namespace NewApi.ChatToGemini

open Function (update_of_ne)
open List (filter_append map_cons mem_append mem_map mem_singleton nodup_cons)
open NewApi.Lib NewApi.Lib.Text

/-! ## Chunks and candidates -/

structure ToolCallResponse where
  index : Option ℤ
  id : String
  name : String
  arguments : String

/-- A choice of a chunk; `content` is `Delta.GetContentString()`. -/
structure ChunkChoice where
  index : ℤ
  content : String
  toolCalls : List ToolCallResponse
  finishReason : Option String

/-- `dto.ChatCompletionsStreamResponse` -/
structure Chunk (U : Type) where
  choices : List ChunkChoice
  usage : Option U

inductive GeminiPart (N : Type) where
  | text (s : String)
  | functionCall (id name : String) (args : List (String × JsonValue N))

structure GeminiCandidate (N : Type) where
  index : ℤ
  parts : List (GeminiPart N)
  finishReason : Option String

/-- The metadata is made from the usage alone. -/
structure GeminiResponse (N U : Type) where
  candidates : List (GeminiCandidate N)
  usage : Option U

inductive StreamError where
  | afterFinalization
  | choiceAfterCompletion (choice : ℤ)
  | negativeIndex (choice index : ℤ)
  | toolAfterCompletion (choice index : ℤ)
  | changedID (choice index : ℤ) (old new : String)
  | changedName (choice index : ℤ) (old new : String)
  | noName (choice : ℤ)

/-- `strconv.Quote` is the parameter `quote`. -/
def StreamError.message (quote : String → String) : StreamError → String
  | afterFinalization => "OpenAI chat to Gemini stream received data after finalization"
  | choiceAfterCompletion choice =>
    "OpenAI chat choice " ++ toString choice ++ " received data after completion"
  | negativeIndex choice index =>
    "OpenAI chat choice " ++ toString choice ++ " has negative tool-call index " ++ toString index
  | toolAfterCompletion choice index =>
    "OpenAI chat choice " ++ toString choice ++ " tool-call index " ++ toString index ++
      " received data after completion"
  | changedID choice index old new =>
    "OpenAI chat choice " ++ toString choice ++ " tool-call index " ++ toString index ++
      " changed id from " ++ quote old ++ " to " ++ quote new
  | changedName choice index old new =>
    "OpenAI chat choice " ++ toString choice ++ " tool-call index " ++ toString index ++
      " changed name from " ++ quote old ++ " to " ++ quote new
  | noName choice =>
    "OpenAI chat choice " ++ toString choice ++ " has a tool call without a function name"

/-! ## The converter -/

/-- `chatToGeminiStreamTool` -/
structure StreamTool where
  id : String
  name : String
  arguments : String
  emitted : Bool

def StreamTool.new : StreamTool := ⟨"", "", "", false⟩

/-- What `ChatToGeminiStreamState` keeps for a choice. -/
structure ChoiceState where
  tools : List StreamTool
  toolByIndex : ℤ → Option ℕ
  toolByID : String → Option ℕ
  finished : Bool

def ChoiceState.new : ChoiceState := ⟨[], fun _ => none, fun _ => none, false⟩

def ChoiceState.tool (t : ChoiceState) (k : ℕ) : StreamTool := (t.tools[k]?).getD .new

/-- `ChatToGeminiStreamState`.  The keys of `seenChoices` are listed once; the choices that
    have tools are among them. -/
structure StreamState (U : Type) where
  choices : ℤ → ChoiceState
  seenChoices : List ℤ
  usage : Option U
  usageEmitted : Bool
  finalized : Bool

/-- `NewChatToGeminiStreamState` -/
def StreamState.new {U : Type} : StreamState U := ⟨fun _ => .new, [], none, false, false⟩

/-- `appendToolCallDelta`, with the index that the call has by now. -/
def appendToolCallDelta (choiceIndex : ℤ) (t : ChoiceState) (toolIndex : ℤ)
    (call : ToolCallResponse) : ChoiceState × Option StreamError :=
  if toolIndex < 0 then (t, some (.negativeIndex choiceIndex toolIndex))
  else
    let incomingID := trimSpace call.id
    let byID := if incomingID ≠ "" then t.toolByID incomingID else none
    let found := (byID.or (t.toolByIndex toolIndex)).filter fun k =>
      ¬ (incomingID ≠ "" ∧ (t.tool k).id ≠ "" ∧ (t.tool k).id ≠ incomingID)
    let k := found.getD t.tools.length
    let tools := if found.isSome then t.tools else t.tools ++ [.new]
    let t := { t with
      tools := tools, toolByIndex := Function.update t.toolByIndex toolIndex (some k) }
    let tool := t.tool k
    if tool.emitted then (t, some (.toolAfterCompletion choiceIndex toolIndex))
    else if incomingID ≠ "" ∧ tool.id ≠ "" ∧ tool.id ≠ incomingID then
      (t, some (.changedID choiceIndex toolIndex tool.id incomingID))
    else
      let tool := if incomingID ≠ "" then { tool with id := incomingID } else tool
      let t := if incomingID ≠ "" then
          { t with
            tools := t.tools.set k tool
            toolByID := Function.update t.toolByID incomingID (some k) }
        else t
      let incomingName := trimSpace call.name
      if incomingName ≠ "" ∧ tool.name ≠ "" ∧ tool.name ≠ incomingName then
        (t, some (.changedName choiceIndex toolIndex tool.name incomingName))
      else
        let tool := if incomingName ≠ "" then { tool with name := incomingName } else tool
        let tool := { tool with arguments := tool.arguments ++ call.arguments }
        ({ t with tools := t.tools.set k tool }, none)

/-- The loop over the tool calls of a choice, from a position on. -/
def appendToolCalls (choiceIndex : ℤ) (t : ChoiceState) (position : ℕ) :
    List ToolCallResponse → ChoiceState × Option StreamError
  | [] => (t, none)
  | call :: calls =>
    match appendToolCallDelta choiceIndex t (call.index.getD position) call with
    | (t, some e) => (t, some e)
    | (t, none) => appendToolCalls choiceIndex t (position + 1) calls

section

variable {N U : Type} (unmarshal : String → Option (List (String × JsonValue N)))

/-- `unmarshal` reads an object, if the text is one. -/
def geminiFunctionArguments (raw : String) : List (String × JsonValue N) :=
  if trimSpace raw = "" ∨ trimSpace raw = "null" then []
  else (unmarshal raw).getD [("arguments", .string raw)]

def StreamTool.part (tool : StreamTool) : GeminiPart N :=
  .functionCall tool.id tool.name (geminiFunctionArguments unmarshal tool.arguments)

def finishChoice (choiceIndex : ℤ) (t : ChoiceState) :
    ChoiceState × Except StreamError (List (GeminiPart N)) :=
  let pending := t.tools.filter fun tool => !tool.emitted
  if pending.any fun tool => tool.name = "" then (t, .error (.noName choiceIndex))
  else ({ t with tools := t.tools.map fun tool => { tool with emitted := true } },
    .ok (pending.map (StreamTool.part unmarshal)))

def geminiFinishReason (finishReason : String) : String :=
  match trimSpace finishReason with
  | "length" => "MAX_TOKENS"
  | "content_filter" => "SAFETY"
  | _ => "STOP"

def ChunkChoice.finish (choice : ChunkChoice) : Option String :=
  choice.finishReason.filter fun reason => trimSpace reason ≠ ""

def ChunkChoice.text (choice : ChunkChoice) : List (GeminiPart N) :=
  if choice.content ≠ "" then [.text choice.content] else []

/-- What `ConvertChunk` does with a choice. -/
def convertChoice (t : ChoiceState) (choice : ChunkChoice) :
    ChoiceState × Except StreamError (List (GeminiCandidate N)) :=
  if t.finished then
    if choice.content ≠ "" ∨ choice.toolCalls ≠ [] then
      (t, .error (.choiceAfterCompletion choice.index))
    else (t, .ok [])
  else match appendToolCalls choice.index t 0 choice.toolCalls with
    | (t, some e) => (t, .error e)
    | (t, none) => match choice.finish with
      | none => (t, .ok (if choice.content ≠ "" then [⟨choice.index, choice.text, none⟩] else []))
      | some reason => match finishChoice unmarshal choice.index t with
        | (t, .error e) => (t, .error e)
        | (t, .ok parts) => ({ t with finished := true },
          .ok [⟨choice.index, choice.text ++ parts, some (geminiFinishReason reason)⟩])

def convertChoices (s : StreamState U) :
    List ChunkChoice → StreamState U × Except StreamError (List (GeminiCandidate N))
  | [] => (s, .ok [])
  | choice :: rest =>
    let (t, result) := convertChoice unmarshal (s.choices choice.index) choice
    let s := { s with
      choices := Function.update s.choices choice.index t
      seenChoices :=
        if choice.index ∈ s.seenChoices then s.seenChoices else s.seenChoices ++ [choice.index] }
    match result with
    | .error e => (s, .error e)
    | .ok candidates => match convertChoices s rest with
      | (s, .error e) => (s, .error e)
      | (s, .ok more) => (s, .ok (candidates ++ more))

/-- `UsageFromChatUsage` is the parameter `normalize`. -/
def convertChunk (normalize : U → U) (s : StreamState U) (response : Chunk U) :
    StreamState U × Except StreamError (List (GeminiResponse N U)) :=
  if s.finalized then (s, .error .afterFinalization)
  else
    let s := { s with usage := (response.usage.map normalize).or s.usage }
    match convertChoices unmarshal s response.choices with
    | (s, .error e) => (s, .error e)
    | (s, .ok []) =>
      if response.usage.isSome ∧ s.seenChoices.any (fun c => (s.choices c).finished) then
        ({ s with usageEmitted := true }, .ok [⟨[], s.usage⟩])
      else (s, .ok [])
    | (s, .ok candidates) =>
      ({ s with usageEmitted := s.usageEmitted || response.usage.isSome },
        .ok [⟨candidates, response.usage⟩])

def finishChoices (s : StreamState U) :
    List ℤ → StreamState U × Except StreamError (List (GeminiCandidate N))
  | [] => (s, .ok [])
  | c :: rest => match finishChoice unmarshal c (s.choices c) with
    | (t, .error e) => ({ s with choices := Function.update s.choices c t }, .error e)
    | (t, .ok parts) =>
      match finishChoices { s with choices := Function.update s.choices c t } rest with
      | (s, .error e) => (s, .error e)
      | (s, .ok more) => (s, .ok (⟨c, parts, some "STOP"⟩ :: more))

def finalize (s : StreamState U) : StreamState U × Except StreamError (List (GeminiResponse N U)) :=
  if s.finalized then (s, .ok [])
  else
    let choiceIndexes := s.seenChoices.filter fun c =>
      (s.choices c).tools.any (fun tool => !tool.emitted) || !(s.choices c).finished
    match finishChoices unmarshal s (choiceIndexes.mergeSort fun a b => decide (a ≤ b)) with
    | (s, .error e) => (s, .error e)
    | (s, .ok []) =>
      if s.usage.isNone || s.usageEmitted then ({ s with finalized := true }, .ok [])
      else ({ s with finalized := true, usageEmitted := true }, .ok [⟨[], s.usage⟩])
    | (s, .ok candidates) =>
      ({ s with finalized := true, usageEmitted := s.usage.isSome }, .ok [⟨candidates, s.usage⟩])

/-- `ConvertChunk` for every chunk of a list, up to the first that it does not accept. -/
def convertChunks (normalize : U → U) (s : StreamState U) :
    List (Chunk U) → StreamState U × Except StreamError (List (GeminiResponse N U))
  | [] => (s, .ok [])
  | chunk :: chunks => match convertChunk unmarshal normalize s chunk with
    | (s, .error e) => (s, .error e)
    | (s, .ok responses) => match convertChunks normalize s chunks with
      | (s, .error e) => (s, .error e)
      | (s, .ok more) => (s, .ok (responses ++ more))

end

/-! ## Which call a delta belongs to -/

/-- A delta of a tool call. -/
structure Delta where
  index : ℤ
  id : String
  name : String
  arguments : String

def ToolCallResponse.delta (call : ToolCallResponse) (position : ℕ) : Delta :=
  ⟨call.index.getD position, trimSpace call.id, trimSpace call.name, call.arguments⟩

def deltasFrom (position : ℕ) : List ToolCallResponse → List Delta
  | [] => []
  | call :: calls => call.delta position :: deltasFrom (position + 1) calls

/-- The deltas so far, each with the number of its call, and the number of calls. -/
structure Calls where
  history : List (Delta × ℕ)
  count : ℕ

namespace Calls

variable (g : Calls)

def byIndex (index : ℤ) : Option ℕ :=
  (lastBy (fun e => e.1.index) g.history index).map Prod.snd

def byID (id : String) : Option ℕ :=
  if id = "" then none else (lastBy (fun e => e.1.id) g.history id).map Prod.snd

def deltas (k : ℕ) : List Delta := (g.history.filter (·.2 = k)).map Prod.fst

def known (texts : List String) : String := (texts.filter (· ≠ "")).getLast?.getD ""

/-- The call `k` as far as it is known: its arguments are those of its deltas, joined. -/
def tool (k : ℕ) : StreamTool where
  id := known ((g.deltas k).map Delta.id)
  name := known ((g.deltas k).map Delta.name)
  arguments := String.join ((g.deltas k).map Delta.arguments)
  emitted := false

variable (d : Delta)

/-- The call of a delta: that of its id, or the one last met at its index unless it has
    another id. -/
def find : Option ℕ :=
  (g.byID d.id).or ((g.byIndex d.index).filter fun k =>
    d.id = "" ∨ (g.tool k).id = "" ∨ (g.tool k).id = d.id)

def add : Calls :=
  let k := (g.find d).getD g.count
  ⟨g.history ++ [(d, k)], max g.count (k + 1)⟩

def of (ds : List Delta) : Calls := ds.foldl add ⟨[], 0⟩

/-- The numbers are those of calls, and no call has two ids. -/
structure Wf (g : Calls) : Prop where
  lt : ∀ e ∈ g.history, e.2 < g.count
  id : ∀ e ∈ g.history, e.1.id ≠ "" → (g.tool e.2).id = e.1.id

theorem known_concat (texts : List String) (s : String) :
    known (texts ++ [s]) = if s ≠ "" then s else known texts := by
  by_cases h : s = "" <;> simp [known, h]

theorem deltas_concat (k n j : ℕ) : (⟨g.history ++ [(d, k)], n⟩ : Calls).deltas j =
      if k = j then g.deltas j ++ [d] else g.deltas j := by
  by_cases h : k = j <;> simp [deltas, filter_append, h]

theorem tool_concat_ne {k j : ℕ} (n : ℕ) (h : k ≠ j) :
    (⟨g.history ++ [(d, k)], n⟩ : Calls).tool j = g.tool j := by
  simp only [tool, deltas_concat, if_neg h]

theorem tool_concat_self (k n : ℕ) : (⟨g.history ++ [(d, k)], n⟩ : Calls).tool k = { g.tool k with
        id := if d.id ≠ "" then d.id else (g.tool k).id
        name := if d.name ≠ "" then d.name else (g.tool k).name
        arguments := (g.tool k).arguments ++ d.arguments } := by
  simp only [tool, deltas_concat, if_true, List.map_append, List.map_singleton, known_concat]
  simp [String.join_append]

theorem byIndex_mem {g : Calls} {index : ℤ} {k : ℕ} (h : g.byIndex index = some k) :
    ∃ e ∈ g.history, e.2 = k := by
  obtain ⟨e, he, rfl⟩ := Option.map_eq_some_iff.mp h
  exact ⟨e, (lastBy_eq_some he).1, rfl⟩

theorem byID_mem {g : Calls} {id : String} {k : ℕ} (h : g.byID id = some k) :
    ∃ e ∈ g.history, e.2 = k ∧ e.1.id = id ∧ id ≠ "" := by
  unfold byID at h
  split at h
  · cases h
  rename_i hid
  obtain ⟨e, he, rfl⟩ := Option.map_eq_some_iff.mp h
  obtain ⟨hmem, heq⟩ := lastBy_eq_some he
  exact ⟨e, hmem, rfl, heq, hid⟩

theorem find_spec {g : Calls} (h : g.Wf) {d : Delta} {k : ℕ} (hk : g.find d = some k) :
    k < g.count ∧ (d.id = "" ∨ (g.tool k).id = "" ∨ (g.tool k).id = d.id) := by
  rcases Option.or_eq_some_iff.mp hk with hk | ⟨-, hk⟩
  · obtain ⟨e, he, rfl, hid, hne⟩ := byID_mem hk
    have htool := h.id e he (hid ▸ hne)
    exact ⟨h.lt e he, Or.inr (Or.inr (htool.trans hid))⟩
  obtain ⟨hk, hid⟩ := Option.filter_eq_some_iff.mp hk
  obtain ⟨e, he, rfl⟩ := byIndex_mem hk
  exact ⟨h.lt e he, by simpa using hid⟩

theorem tool_count {g : Calls} (h : g.Wf) : g.tool g.count = .new := by
  have hdeltas : g.deltas g.count = [] := by
    rw [deltas, List.map_eq_nil_iff, List.filter_eq_nil_iff]
    intro e he
    have := h.lt e he
    simp only [decide_eq_true_eq]
    omega
  rw [tool, hdeltas]
  rfl

theorem Wf.add {g : Calls} (h : g.Wf) (d : Delta) : (g.add d).Wf := by
  have hfound : ∀ e ∈ g.history, e.2 = (g.find d).getD g.count →
      d.id = "" ∨ (g.tool e.2).id = "" ∨ (g.tool e.2).id = d.id := by
    intro e he hk
    cases hf : g.find d with
    | none =>
      have := h.lt e he
      rw [hf, Option.getD_none] at hk
      omega
    | some k =>
      rw [hf, Option.getD_some] at hk
      rw [hk]
      exact (find_spec h hf).2
  unfold Calls.add
  generalize (g.find d).getD g.count = k at hfound ⊢
  constructor
  · intro e he
    rcases mem_append.mp he with he | he
    · have := h.lt e he
      exact Nat.lt_of_lt_of_le this (Nat.le_max_left ..)
    · rw [mem_singleton.mp he]
      exact Nat.lt_of_lt_of_le (Nat.lt_succ_self k) (Nat.le_max_right ..)
  intro e he hid
  rcases mem_append.mp he with he | he
  · have htool := h.id e he hid
    by_cases hk : k = e.2
    · rw [← hk, tool_concat_self]
      rw [← hk] at htool
      have := hfound e he hk.symm
      rw [← hk, htool] at this
      by_cases hd : d.id = ""
      · simp [hd, htool]
      simp only [ne_eq, hd, not_false_eq_true, if_true]
      rcases this with hd' | hempty | heq
      · exact absurd hd' hd
      · exact absurd hempty hid
      · exact heq.symm
    · rw [tool_concat_ne g d _ hk, htool]
  rw [mem_singleton.mp he] at hid ⊢
  rw [tool_concat_self]
  simp only [ne_eq] at hid
  simp [hid]

theorem Wf.foldl {g : Calls} (h : g.Wf) (ds : List Delta) : (ds.foldl Calls.add g).Wf := by
  induction ds generalizing g with
  | nil => exact h
  | cons d ds ih => exact ih (h.add d)

theorem Wf.of (ds : List Delta) : (Calls.of ds).Wf :=
  Wf.foldl ⟨by simp, by simp⟩ ds

theorem byIndex_add : (g.add d).byIndex =
      Function.update g.byIndex d.index (some ((g.find d).getD g.count)) := by
  funext index
  simp only [byIndex, add, lastBy_concat]
  by_cases h : index = d.index
  · subst h
    simp
  · simp [update_of_ne h, byIndex]

theorem byID_add : (g.add d).byID = if d.id ≠ "" then
      Function.update g.byID d.id (some ((g.find d).getD g.count)) else g.byID := by
  funext id
  simp only [byID, add, lastBy_concat]
  by_cases hd : d.id = ""
  · by_cases hid : id = ""
    · simp [hd, hid, byID]
    · simp [hd, hid, byID]
  by_cases h : id = d.id
  · subst h
    simp [hd]
  · simp [hd, update_of_ne h, byID]

end Calls

/-! ## The state of a choice -/

def ChoiceState.of (g : Calls) : ChoiceState :=
  ⟨(List.range g.count).map g.tool, g.byIndex, g.byID, false⟩

theorem tool_of {g : Calls} {k : ℕ} (h : k < g.count) : (ChoiceState.of g).tool k = g.tool k := by
  simp [ChoiceState.tool, ChoiceState.of, h]

theorem tools_set (g : Calls) {k : ℕ} (hk : k ≤ g.count) (tool : StreamTool) :
    ((if k < g.count then (List.range g.count).map g.tool
        else (List.range g.count).map g.tool ++ [.new]).set k tool) =
      (List.range (max g.count (k + 1))).map fun j => if j = k then tool else g.tool j := by
  apply List.ext_getElem?
  intro j
  rcases Nat.lt_or_eq_of_le hk with hlt | rfl
  · rw [if_pos hlt, Nat.max_eq_left (by omega)]
    by_cases hj : j = k
    · subst hj
      simp [hlt]
    · rw [List.getElem?_set_ne (Ne.symm hj)]
      by_cases hcount : j < g.count <;> simp [hcount, hj]
  rw [if_neg (lt_irrefl _), Nat.max_eq_right (by omega), List.range_succ, List.map_append]
  have hset : ((List.range g.count).map g.tool ++ [StreamTool.new]).set g.count tool =
      (List.range g.count).map g.tool ++ [tool] := by
    simp
  have hold : (List.range g.count).map (fun j => if j = g.count then tool else g.tool j) =
      (List.range g.count).map g.tool := by
    apply List.map_congr_left
    intro j hj
    have := List.mem_range.mp hj
    rw [if_neg (by omega)]
  rw [hset, hold]
  simp

/-- The answer is another than the error of the first branch. -/
theorem right_of_ite {p : Prop} [Decidable p] {t t' : ChoiceState} {e : StreamError}
    {r : Option StreamError} {x : ChoiceState × Option StreamError}
    (h : (if p then (t, some e) else x) = (t', r)) (hne : some e ≠ r) : x = (t', r) := by
  split at h
  · exact absurd (congrArg Prod.snd h) hne
  · exact h

theorem appendToolCallDelta_ok {choice index : ℤ} {t t' : ChoiceState} {call : ToolCallResponse}
    {found : Option ℕ}
    (hfound : (((if trimSpace call.id ≠ "" then t.toolByID (trimSpace call.id) else none).or
      (t.toolByIndex index)).filter fun k => ¬ (trimSpace call.id ≠ "" ∧ (t.tool k).id ≠ "" ∧
        (t.tool k).id ≠ trimSpace call.id)) = found)
    (h : appendToolCallDelta choice t index call = (t', none)) :
    let k := found.getD t.tools.length
    let tools := if found.isSome then t.tools else t.tools ++ [.new]
    let tool := (tools[k]?).getD .new
    t' = { t with
      tools := tools.set k { tool with
        id := if trimSpace call.id ≠ "" then trimSpace call.id else tool.id
        name := if trimSpace call.name ≠ "" then trimSpace call.name else tool.name
        arguments := tool.arguments ++ call.arguments }
      toolByIndex := Function.update t.toolByIndex index (some k)
      toolByID := if trimSpace call.id ≠ "" then
        Function.update t.toolByID (trimSpace call.id) (some k) else t.toolByID } := by
  unfold appendToolCallDelta at h
  dsimp only at h ⊢
  rw [hfound] at h
  iterate 4 replace h := right_of_ite h (by simp)
  cases h
  by_cases hid : trimSpace call.id = "" <;> by_cases hname : trimSpace call.name = "" <;>
    simp [hid, hname, ChoiceState.tool]

theorem found_eq_find {g : Calls} (h : g.Wf) (d : Delta) :
    (((if d.id ≠ "" then g.byID d.id else none).or (g.byIndex d.index)).filter fun k =>
      ¬ (d.id ≠ "" ∧ ((ChoiceState.of g).tool k).id ≠ "" ∧
        ((ChoiceState.of g).tool k).id ≠ d.id)) = g.find d := by
  have hindex : ∀ k, g.byIndex d.index = some k → (ChoiceState.of g).tool k = g.tool k := by
    intro k hk
    obtain ⟨e, he, rfl⟩ := Calls.byIndex_mem hk
    exact tool_of (h.lt e he)
  unfold Calls.find
  by_cases hid : d.id = ""
  · have hnone : g.byID "" = none := by rw [Calls.byID, if_pos rfl]
    simp [hid, hnone]
  rw [if_pos hid]
  cases hb : g.byID d.id with
  | some k =>
    obtain ⟨e, he, rfl, heq, hne⟩ := Calls.byID_mem hb
    have htool := h.id e he (heq ▸ hne)
    simp [tool_of (h.lt e he), htool, heq]
  | none =>
    cases hi : g.byIndex d.index with
    | none => rfl
    | some k =>
      simp only [Option.none_or, Option.filter_some, hindex k hi, decide_eq_true_eq]
      by_cases h₁ : (g.tool k).id = "" <;> by_cases h₂ : (g.tool k).id = d.id <;>
        simp [h₁, h₂, hid]

/-- **The state follows the calls**, one delta at a time. -/
theorem appendToolCallDelta_of {g : Calls} (h : g.Wf) {choice : ℤ} {call : ToolCallResponse}
    {position : ℕ} {t : ChoiceState}
    (hrun : appendToolCallDelta choice (.of g) (call.index.getD position) call = (t, none)) :
    t = .of (g.add (call.delta position)) := by
  have hok := appendToolCallDelta_ok (found_eq_find h (call.delta position)) hrun
  -- what is found is an old tool, and otherwise the tool is the next one
  obtain ⟨k, hk, hle, hiff⟩ : ∃ k, (g.find (call.delta position)).getD g.count = k ∧
      k ≤ g.count ∧ ((g.find (call.delta position)).isSome = true ↔ k < g.count) := by
    refine ⟨_, rfl, ?_⟩
    cases hf : g.find (call.delta position) with
    | none => simp
    | some k =>
      have := (Calls.find_spec h hf).1
      simp only [Option.getD_some, Option.isSome_some, true_iff]
      omega
  have hlen : (ChoiceState.of g).tools.length = g.count := by simp [ChoiceState.of]
  have htools : (if (g.find (call.delta position)).isSome = true then (ChoiceState.of g).tools
      else (ChoiceState.of g).tools ++ [.new]) =
        if k < g.count then (List.range g.count).map g.tool
        else (List.range g.count).map g.tool ++ [.new] := by
    simp only [hiff, ChoiceState.of]
  have htool : ((if k < g.count then (List.range g.count).map g.tool
      else (List.range g.count).map g.tool ++ [.new])[k]?).getD .new = g.tool k := by
    rcases Nat.lt_or_eq_of_le hle with hlt | rfl
    · simp [hlt]
    · simp [Calls.tool_count h]
  simp only [hlen, hk, htools, htool, tools_set g hle] at hok
  rw [hok, ChoiceState.of, ChoiceState.of, Calls.byIndex_add, Calls.byID_add, Calls.add, hk,
    ChoiceState.mk.injEq]
  refine ⟨?_, rfl, rfl, rfl⟩
  apply List.map_congr_left
  intro j _
  by_cases hj : j = k
  · subst hj
    rw [if_pos rfl, Calls.tool_concat_self]
    rfl
  · rw [if_neg hj, Calls.tool_concat_ne g _ _ (Ne.symm hj)]

theorem appendToolCalls_of {g : Calls} (h : g.Wf) {choice : ℤ} {calls : List ToolCallResponse}
    {position : ℕ} {t : ChoiceState}
    (hrun : appendToolCalls choice (.of g) position calls = (t, none)) :
    t = .of ((deltasFrom position calls).foldl Calls.add g) := by
  induction calls generalizing g position with
  | nil =>
    cases hrun
    rfl
  | cons call calls ih =>
    rw [appendToolCalls] at hrun
    split at hrun
    · cases hrun
    rename_i t₁ h₁
    cases appendToolCallDelta_of h h₁
    exact ih (h.add _) hrun

theorem appendToolCalls_ne_noName {choice c : ℤ} {t t' : ChoiceState}
    {calls : List ToolCallResponse} {position : ℕ} :
    appendToolCalls choice t position calls ≠ (t', some (.noName c)) := by
  induction calls generalizing t position with
  | nil => simp [appendToolCalls]
  | cons call calls ih =>
    rw [appendToolCalls]
    split
    · rename_i t₁ e h₁
      intro h
      cases h
      unfold appendToolCallDelta at h₁
      iterate 4 replace h₁ := right_of_ite h₁ (by simp)
      cases h₁
    · exact ih

/-! ## One choice -/

section

variable {N U : Type} (unmarshal : String → Option (List (String × JsonValue N)))

def Calls.parts (g : Calls) : List (GeminiPart N) :=
  (List.range g.count).map fun k => (g.tool k).part unmarshal

def textPart : GeminiPart N → Option String
  | .text s => some s
  | _ => none

def isCall : GeminiPart N → Bool
  | .functionCall _ _ _ => true
  | _ => false

def texts (cs : List (GeminiCandidate N)) : List String :=
  cs.flatMap fun c => c.parts.filterMap textPart

def calls (cs : List (GeminiCandidate N)) : List (GeminiPart N) :=
  cs.flatMap fun c => c.parts.filter isCall

variable (es : List ChunkChoice)

def textDeltas : List String := (es.map ChunkChoice.content).filter (· ≠ "")

def toolDeltas : List Delta :=
  es.flatMap fun e => deltasFrom 0 e.toolCalls

/-- The candidates of a choice: one with a finish reason, and it is the last; each text
    delta once and in order; each tool call in one part, with its arguments joined. -/
structure Complete (es : List ChunkChoice) (cs : List (GeminiCandidate N)) : Prop where
  finish : ∃ front last, cs = front ++ [last] ∧ (∀ c ∈ front, c.finishReason = none) ∧
    last.finishReason.isSome
  texts : texts cs = textDeltas es
  calls : calls cs = (Calls.of (toolDeltas es)).parts unmarshal

/-- How far a choice is, after the entries `es` and with the candidates `cs`. -/
inductive Progress (es : List ChunkChoice) (t : ChoiceState) (cs : List (GeminiCandidate N)) : Prop
  | pending (state : t = .of (Calls.of (toolDeltas es)))
      (unfinished : ∀ c ∈ cs, c.finishReason = none) (texts : texts cs = textDeltas es)
      (calls : calls cs = [])
  | done (finished : t.finished = true) (emitted : ∀ tool ∈ t.tools, tool.emitted = true)
      (complete : Complete unmarshal es cs)

variable {unmarshal}

theorem emitted_of {g : Calls} : ∀ tool ∈ (ChoiceState.of g).tools, tool.emitted = false := by
  intro tool htool
  obtain ⟨k, -, rfl⟩ := mem_map.mp htool
  rfl

theorem finishChoice_of_ok {g : Calls} {choice : ℤ} {t : ChoiceState} {parts : List (GeminiPart N)}
    (h : finishChoice unmarshal choice (.of g) = (t, .ok parts)) :
    parts = g.parts unmarshal ∧ ∀ tool ∈ t.tools, tool.emitted = true := by
  have hpending : (ChoiceState.of g).tools.filter (fun tool => !tool.emitted) =
      (ChoiceState.of g).tools := by
    rw [List.filter_eq_self]
    intro tool htool
    rw [emitted_of tool htool]
    rfl
  unfold finishChoice at h
  simp only [hpending] at h
  split at h
  · cases h
  cases h
  constructor
  · simp [ChoiceState.of, Calls.parts]
  intro tool htool
  obtain ⟨tool, -, rfl⟩ := mem_map.mp htool
  rfl

theorem finishChoice_error {t t' : ChoiceState} {choice : ℤ} {e : StreamError}
    (h : finishChoice unmarshal choice t = (t', .error e)) : t' = t ∧ e = .noName choice := by
  unfold finishChoice at h
  simp only [] at h
  split at h
  · cases h
    exact ⟨rfl, rfl⟩
  · cases h

theorem Progress.new : Progress unmarshal [] .new [] := by
  refine .pending ?_ (by simp) rfl rfl
  have hid : (Calls.of []).byID = fun _ => none := by
    funext id
    rw [Calls.byID]
    split <;> rfl
  rw [toolDeltas, List.flatMap_nil, ChoiceState.of, hid]
  rfl

theorem textDeltas_concat (e : ChunkChoice) :
    textDeltas (es ++ [e]) = textDeltas es ++ if e.content ≠ "" then [e.content] else [] := by
  by_cases h : e.content = "" <;> simp [textDeltas, h]

theorem of_toolDeltas_concat (e : ChunkChoice) : Calls.of (toolDeltas (es ++ [e])) =
      (deltasFrom 0 e.toolCalls).foldl Calls.add (Calls.of (toolDeltas es)) := by
  simp [toolDeltas, Calls.of]

theorem texts_append (cs ds : List (GeminiCandidate N)) : texts (cs ++ ds) = texts cs ++ texts ds :=
  List.flatMap_append

theorem calls_append (cs ds : List (GeminiCandidate N)) : calls (cs ++ ds) = calls cs ++ calls ds :=
  List.flatMap_append

theorem filterMap_parts (g : Calls) : (g.parts unmarshal).filterMap textPart = [] := by
  rw [List.filterMap_eq_nil_iff]
  intro p hp
  obtain ⟨k, -, rfl⟩ := mem_map.mp hp
  rfl

theorem filter_parts (g : Calls) : (g.parts unmarshal).filter isCall = g.parts unmarshal := by
  rw [List.filter_eq_self]
  intro p hp
  obtain ⟨k, -, rfl⟩ := mem_map.mp hp
  rfl

theorem texts_calls_singleton (e : ChunkChoice) (g : Calls) (reason : Option String) :
    texts [(⟨e.index, e.text ++ g.parts unmarshal, reason⟩ : GeminiCandidate N)] =
        (if e.content ≠ "" then [e.content] else []) ∧
      calls [(⟨e.index, e.text ++ g.parts unmarshal, reason⟩ : GeminiCandidate N)] =
        g.parts unmarshal := by
  by_cases h : e.content = "" <;>
    simp [texts, calls, ChunkChoice.text, h, filterMap_parts, filter_parts, textPart, isCall]

/-- **One entry of a choice.** -/
theorem Progress.convert {es : List ChunkChoice} {t t' : ChoiceState}
    {cs new : List (GeminiCandidate N)} {e : ChunkChoice} (h : Progress unmarshal es t cs)
    (hrun : convertChoice unmarshal t e = (t', .ok new)) :
    Progress unmarshal (es ++ [e]) t' (cs ++ new) ∧ ∀ c ∈ new, c.index = e.index := by
  rw [convertChoice] at hrun
  cases h with
  | done finished emitted complete =>
    rw [if_pos finished] at hrun
    split at hrun
    · cases hrun
    rename_i hempty
    cases hrun
    rw [not_or, not_not, not_not] at hempty
    refine ⟨.done finished emitted ⟨?_, ?_, ?_⟩, by simp⟩
    · simpa using complete.finish
    · rw [textDeltas_concat, List.append_nil, complete.texts]
      simp [hempty.1]
    · rw [of_toolDeltas_concat, hempty.2, List.append_nil, complete.calls]
      rfl
  | pending state unfinished htexts hcalls =>
    subst state
    rw [if_neg (by simp [ChoiceState.of])] at hrun
    split at hrun
    · cases hrun
    rename_i t₁ h₁
    have hwf := Calls.Wf.of (toolDeltas es)
    have hstate := appendToolCalls_of hwf h₁
    rw [← of_toolDeltas_concat] at hstate
    subst hstate
    split at hrun
    · cases hrun
      refine ⟨.pending rfl ?_ ?_ ?_, ?_⟩
      · intro c hc
        rcases mem_append.mp hc with hc | hc
        · exact unfinished c hc
        split at hc
        · rw [mem_singleton.mp hc]
        · cases hc
      · rw [texts_append, htexts, textDeltas_concat]
        by_cases hc : e.content = "" <;> simp [hc, texts, ChunkChoice.text, textPart]
      · rw [calls_append, hcalls]
        by_cases hc : e.content = "" <;> simp [hc, calls, ChunkChoice.text, isCall]
      intro c hc
      split at hc
      · rw [mem_singleton.mp hc]
      · cases hc
    split at hrun
    · cases hrun
    rename_i hfinish
    cases hrun
    obtain ⟨rfl, hemitted⟩ := finishChoice_of_ok hfinish
    refine ⟨.done rfl hemitted ⟨⟨cs, _, rfl, unfinished, rfl⟩, ?_, ?_⟩, ?_⟩
    · rw [texts_append, htexts, textDeltas_concat, (texts_calls_singleton e _ _).1]
    · rw [calls_append, hcalls, (texts_calls_singleton e _ _).2]
      rfl
    · intro c hc
      rw [mem_singleton.mp hc]

theorem Progress.convert_noName {es : List ChunkChoice} {t t' : ChoiceState}
    {cs : List (GeminiCandidate N)} {e : ChunkChoice} {c : ℤ} (h : Progress unmarshal es t cs)
    (hrun : convertChoice unmarshal t e = (t', .error (.noName c))) :
    c = e.index ∧ ∀ tool ∈ t'.tools, tool.emitted = false := by
  rw [convertChoice] at hrun
  cases h with
  | done finished _ _ =>
    rw [if_pos finished] at hrun
    split at hrun <;> cases hrun
  | pending state _ _ _ =>
    subst state
    rw [if_neg (by simp [ChoiceState.of])] at hrun
    split at hrun
    · rename_i h₁
      cases hrun
      exact absurd h₁ appendToolCalls_ne_noName
    rename_i t₁ h₁
    cases appendToolCalls_of (Calls.Wf.of (toolDeltas es)) h₁
    split at hrun
    · cases hrun
    split at hrun
    · rename_i hfinish
      cases hrun
      obtain ⟨rfl, herror⟩ := finishChoice_error hfinish
      exact ⟨StreamError.noName.inj herror, emitted_of⟩
    · cases hrun

/-! ## The stream -/

variable (unmarshal) in
/-- Every choice is as far as its entries, and those that have one are seen. -/
structure Invariant (es : List ChunkChoice) (s : StreamState U) (cs : List (GeminiCandidate N)) :
    Prop where
  progress : ∀ c, Progress unmarshal (es.filter (·.index = c)) (s.choices c)
    (cs.filter (·.index = c))
  seen : ∀ c, c ∈ s.seenChoices ↔ es.filter (·.index = c) ≠ []
  nodup : s.seenChoices.Nodup
  own : ∀ x ∈ cs, es.filter (·.index = x.index) ≠ []
  live : s.finalized = false

theorem Invariant.new : Invariant unmarshal [] (StreamState.new : StreamState U) [] :=
  ⟨fun _ => Progress.new, fun c => by simp [StreamState.new], by simp [StreamState.new], by simp,
    rfl⟩

theorem Invariant.convert {es : List ChunkChoice} {s : StreamState U}
    {cs new : List (GeminiCandidate N)} (h : Invariant unmarshal es s cs)
    {e : ChunkChoice} {t : ChoiceState}
    (hrun : convertChoice unmarshal (s.choices e.index) e = (t, .ok new)) :
    Invariant unmarshal (es ++ [e]) { s with
      choices := Function.update s.choices e.index t
      seenChoices :=
        if e.index ∈ s.seenChoices then s.seenChoices else s.seenChoices ++ [e.index] }
      (cs ++ new) := by
  obtain ⟨hprogress, hindex⟩ := (h.progress e.index).convert hrun
  constructor
  · intro c
    rw [filter_append, filter_append]
    by_cases hc : c = e.index
    · subst hc
      have hnew : new.filter (·.index = e.index) = new := by
        rw [List.filter_eq_self]
        exact fun x hx => decide_eq_true (hindex x hx)
      simpa [hnew] using hprogress
    have hnew : new.filter (·.index = c) = [] := by
      rw [List.filter_eq_nil_iff]
      intro x hx
      simpa [hindex x hx] using Ne.symm hc
    simpa [hnew, Ne.symm hc, update_of_ne hc] using h.progress c
  · intro c
    have hseen := h.seen c
    by_cases hc : c = e.index
    · subst hc
      split <;> simp_all
    · split <;> simp_all [Ne.symm hc]
  · dsimp only
    split
    · exact h.nodup
    rename_i hnew
    exact List.nodup_append.mpr ⟨h.nodup, List.nodup_singleton _, by
      intro a ha b hb
      rw [mem_singleton.mp hb]
      rintro rfl
      exact hnew ha⟩
  · intro x hx
    rw [filter_append]
    rcases mem_append.mp hx with hx | hx
    · simp [h.own x hx]
    · simp [hindex x hx]
  · exact h.live

theorem Invariant.choices {es rest : List ChunkChoice} {s s' : StreamState U}
    {cs new : List (GeminiCandidate N)} (h : Invariant unmarshal es s cs)
    (hrun : convertChoices unmarshal s rest = (s', .ok new)) :
    Invariant unmarshal (es ++ rest) s' (cs ++ new) := by
  induction rest generalizing es s cs new with
  | nil =>
    cases hrun
    simpa using h
  | cons e rest ih =>
    rw [convertChoices] at hrun
    rcases hr : convertChoice unmarshal (s.choices e.index) e with ⟨t, result⟩
    simp only [hr] at hrun
    split at hrun
    · cases hrun
    split at hrun
    · cases hrun
    rename_i hrest
    cases hrun
    have := ih (h.convert hr) hrest
    simpa using this

theorem Invariant.choices_noName {es rest : List ChunkChoice} {s s' : StreamState U}
    {cs : List (GeminiCandidate N)} {c : ℤ} (h : Invariant unmarshal es s cs)
    (hrun : convertChoices unmarshal s rest = (s', .error (.noName c))) :
    ∀ tool ∈ (s'.choices c).tools, tool.emitted = false := by
  induction rest generalizing es s cs with
  | nil => cases hrun
  | cons e rest ih =>
    rw [convertChoices] at hrun
    rcases hr : convertChoice unmarshal (s.choices e.index) e with ⟨t, result⟩
    simp only [hr] at hrun
    split at hrun
    · cases hrun
      obtain ⟨rfl, hemitted⟩ := (h.progress e.index).convert_noName hr
      simpa using hemitted
    split at hrun
    · rename_i hrest
      cases hrun
      exact ih (h.convert hr) hrest
    · cases hrun

theorem convertChunk_ok {normalize : U → U} {s s' : StreamState U} {chunk : Chunk U}
    {responses : List (GeminiResponse N U)}
    (hrun : convertChunk unmarshal normalize s chunk = (s', .ok responses)) :
    ∃ s₁, convertChoices unmarshal
        { s with usage := (chunk.usage.map normalize).or s.usage } chunk.choices =
          (s₁, .ok (responses.flatMap GeminiResponse.candidates)) ∧
      s'.choices = s₁.choices ∧ s'.seenChoices = s₁.seenChoices ∧
      s'.finalized = s₁.finalized := by
  unfold convertChunk at hrun
  split at hrun
  · cases hrun
  dsimp only at hrun
  split at hrun
  · cases hrun
  · rename_i s₁ h₁
    refine ⟨s₁, ?_⟩
    split at hrun <;> cases hrun <;> exact ⟨by simpa using h₁, rfl, rfl, rfl⟩
  rename_i s₁ candidates _ h₁
  cases hrun
  exact ⟨s₁, by simpa using h₁, rfl, rfl, rfl⟩

theorem Invariant.chunks {normalize : U → U} {es : List ChunkChoice} {s s' : StreamState U}
    {cs : List (GeminiCandidate N)} {chunks : List (Chunk U)}
    {responses : List (GeminiResponse N U)} (h : Invariant unmarshal es s cs)
    (hrun : convertChunks unmarshal normalize s chunks = (s', .ok responses)) :
    Invariant unmarshal (es ++ chunks.flatMap Chunk.choices) s'
      (cs ++ responses.flatMap GeminiResponse.candidates) := by
  induction chunks generalizing es s cs responses with
  | nil =>
    cases hrun
    simpa using h
  | cons chunk chunks ih =>
    rw [convertChunks] at hrun
    split at hrun
    · cases hrun
    rename_i s₁ responses₁ h₁
    split at hrun
    · cases hrun
    rename_i hrest
    cases hrun
    obtain ⟨s₂, h₂, hchoices, hseen, hlive⟩ := convertChunk_ok h₁
    have h₀ : Invariant unmarshal es
        { s with usage := (chunk.usage.map normalize).or s.usage } cs :=
      ⟨h.progress, h.seen, h.nodup, h.own, h.live⟩
    have hi := h₀.choices h₂
    have hnext : Invariant unmarshal (es ++ chunk.choices) s₁ _ :=
      ⟨fun c => hchoices ▸ hi.progress c, fun c => hseen ▸ hi.seen c, hseen ▸ hi.nodup,
        hi.own, hlive.trans hi.live⟩
    simpa using ih hnext hrest

theorem finishChoices_ok {s s' : StreamState U} {order : List ℤ} {new : List (GeminiCandidate N)}
    {G : ℤ → Calls} (hnodup : order.Nodup) (hG : ∀ c ∈ order, s.choices c = .of (G c))
    (hrun : finishChoices unmarshal s order = (s', .ok new)) :
    new = order.map fun c => ⟨c, (G c).parts unmarshal, some "STOP"⟩ := by
  induction order generalizing s new with
  | nil =>
    cases hrun
    rfl
  | cons c rest ih =>
    rw [finishChoices] at hrun
    split at hrun
    · cases hrun
    rename_i t parts hfinish
    split at hrun
    · cases hrun
    rename_i hrest
    cases hrun
    obtain ⟨hc, hnodup⟩ := nodup_cons.mp hnodup
    rw [hG c List.mem_cons_self] at hfinish
    obtain ⟨rfl, -⟩ := finishChoice_of_ok hfinish
    rw [map_cons, ← ih hnodup _ hrest]
    intro d hd
    have hne : d ≠ c := by
      rintro rfl
      exact hc hd
    exact (update_of_ne hne ..).trans (hG d (List.mem_cons_of_mem c hd))

theorem finishChoices_noName {s s' : StreamState U} {order : List ℤ} {G : ℤ → Calls} {c : ℤ}
    (hnodup : order.Nodup) (hG : ∀ c ∈ order, s.choices c = .of (G c))
    (hrun : finishChoices unmarshal s order = (s', .error (.noName c))) :
    ∀ tool ∈ (s'.choices c).tools, tool.emitted = false := by
  induction order generalizing s with
  | nil => cases hrun
  | cons d rest ih =>
    rw [finishChoices] at hrun
    split at hrun
    · rename_i hfinish
      cases hrun
      obtain ⟨rfl, herror⟩ := finishChoice_error hfinish
      cases herror
      simpa [hG c List.mem_cons_self] using emitted_of (g := G c)
    split at hrun
    · rename_i hrest
      cases hrun
      obtain ⟨hd, hnodup⟩ := nodup_cons.mp hnodup
      refine ih hnodup ?_ hrest
      intro a ha
      have hne : a ≠ d := by
        rintro rfl
        exact hd ha
      exact (update_of_ne hne ..).trans (hG a (List.mem_cons_of_mem d ha))
    · cases hrun

/-- The choices that `Finalize` goes through. -/
def leftChoices (s : StreamState U) : List ℤ :=
  (s.seenChoices.filter fun c => (s.choices c).tools.any (fun tool => !tool.emitted) ||
    !(s.choices c).finished).mergeSort fun a b => decide (a ≤ b)

theorem finalize_ok {s s' : StreamState U} {last : List (GeminiResponse N U)}
    (hfinal : s.finalized = false) (hrun : finalize unmarshal s = (s', .ok last)) :
    ∃ s₁, finishChoices unmarshal s (leftChoices s) =
      (s₁, .ok (last.flatMap GeminiResponse.candidates)) := by
  unfold finalize at hrun
  rw [if_neg (by simp [hfinal])] at hrun
  dsimp only at hrun
  split at hrun
  · cases hrun
  · rename_i s₁ h₁
    refine ⟨s₁, ?_⟩
    rw [leftChoices]
    split at hrun <;> cases hrun <;> simpa using h₁
  rename_i s₁ candidates _ h₁
  cases hrun
  exact ⟨s₁, by rw [leftChoices]; simpa using h₁⟩

theorem finalize_error {s s' : StreamState U} {e : StreamError}
    (hrun : finalize unmarshal s = (s', .error e)) :
    finishChoices unmarshal s (leftChoices s) = (s', .error e) := by
  unfold finalize at hrun
  split at hrun
  · cases hrun
  dsimp only at hrun
  split at hrun
  · rename_i h₁
    cases hrun
    exact h₁
  · split at hrun <;> cases hrun
  · cases hrun

theorem Invariant.left {es : List ChunkChoice} {s : StreamState U} {cs : List (GeminiCandidate N)}
    (h : Invariant unmarshal es s cs) : (leftChoices s).Nodup ∧
      (∀ c ∈ leftChoices s, es.filter (·.index = c) ≠ [] ∧
        s.choices c = .of (Calls.of (toolDeltas (es.filter (·.index = c)))) ∧
        (∀ x ∈ cs.filter (·.index = c), x.finishReason = none) ∧
        texts (cs.filter (·.index = c)) = textDeltas (es.filter (·.index = c)) ∧
        calls (cs.filter (·.index = c)) = []) ∧
      ∀ c, es.filter (·.index = c) ≠ [] → c ∉ leftChoices s →
        Complete unmarshal (es.filter (·.index = c)) (cs.filter (·.index = c)) := by
  have hmem : ∀ c, c ∈ leftChoices s ↔ es.filter (·.index = c) ≠ [] ∧
      ((s.choices c).tools.any (fun tool => !tool.emitted) ||
        !(s.choices c).finished) = true := by
    intro c
    rw [leftChoices, List.mem_mergeSort, List.mem_filter, h.seen]
  refine ⟨?_, ?_, ?_⟩
  · rw [leftChoices, List.Perm.nodup_iff (List.mergeSort_perm ..)]
    exact h.nodup.filter _
  · intro c hc
    obtain ⟨hes, hleft⟩ := (hmem c).mp hc
    refine ⟨hes, ?_⟩
    cases h.progress c with
    | pending state unfinished texts calls => exact ⟨state, unfinished, texts, calls⟩
    | done finished emitted complete =>
      simp only [finished, Bool.not_true, Bool.or_false, List.any_eq_true,
        Bool.not_eq_true'] at hleft
      obtain ⟨tool, htool, hfalse⟩ := hleft
      rw [emitted tool htool] at hfalse
      cases hfalse
  intro c hes hc
  cases h.progress c with
  | done finished emitted complete => exact complete
  | pending state unfinished texts calls =>
    refine absurd ((hmem c).mpr ⟨hes, ?_⟩) hc
    rw [state]
    simp [ChoiceState.of]

theorem filter_left {order : List ℤ} (hnodup : order.Nodup) (f : ℤ → List (GeminiPart N)) (c : ℤ) :
    (order.map fun d => (⟨d, f d, some "STOP"⟩ : GeminiCandidate N)).filter (·.index = c) =
      if c ∈ order then [⟨c, f c, some "STOP"⟩] else [] := by
  induction order with
  | nil => rfl
  | cons d rest ih =>
    obtain ⟨hd, hnodup⟩ := nodup_cons.mp hnodup
    rw [map_cons, List.filter_cons, ih hnodup]
    by_cases hdc : d = c
    · subst hdc
      simp [hd]
    · simp [hdc, Ne.symm hdc]

/-- **Every choice once, every text once, every call once and whole.**  And where a choice
    fails because a tool has no name, none of its tools has been marked. -/
theorem stream_complete {normalize : U → U} {chunks : List (Chunk U)} {s : StreamState U}
    {responses : List (GeminiResponse N U)}
    (accepted : convertChunks unmarshal normalize .new chunks = (s, .ok responses)) :
    (∀ s' last, finalize unmarshal s = (s', .ok last) → ∀ c,
      let es := (chunks.flatMap Chunk.choices).filter (·.index = c)
      let cs := ((responses ++ last).flatMap GeminiResponse.candidates).filter (·.index = c)
      if es = [] then cs = [] else Complete unmarshal es cs) ∧
    (∀ chunk s' c, convertChunk unmarshal normalize s chunk = (s', .error (.noName c)) →
      ∀ tool ∈ (s'.choices c).tools, tool.emitted = false) ∧
    ∀ s' c, finalize unmarshal s = (s', .error (.noName c)) →
      ∀ tool ∈ (s'.choices c).tools, tool.emitted = false := by
  have h : Invariant unmarshal ([] ++ chunks.flatMap Chunk.choices) s _ :=
    Invariant.new.chunks accepted
  rw [List.nil_append, List.nil_append] at h
  obtain ⟨hnodup, hleft, hdone⟩ := h.left
  refine ⟨?_, ?_, ?_⟩
  · intro s' last hrun c
    obtain ⟨s₁, h₁⟩ := finalize_ok h.live hrun
    have hnew := finishChoices_ok hnodup (fun d hd => (hleft d hd).2.1) h₁
    dsimp only
    rw [List.flatMap_append, filter_append, hnew, filter_left hnodup]
    split
    · rename_i hes
      have hold : (responses.flatMap GeminiResponse.candidates).filter (·.index = c) = [] := by
        rw [List.filter_eq_nil_iff]
        intro x hx hindex
        have hx := h.own x hx
        rw [of_decide_eq_true hindex] at hx
        exact hx hes
      rw [hold, if_neg fun hc => (hleft c hc).1 hes, List.append_nil]
    rename_i hes
    split
    · rename_i hc
      obtain ⟨-, -, hunfinished, htexts, hcalls⟩ := hleft c hc
      refine ⟨⟨_, _, rfl, hunfinished, rfl⟩, ?_, ?_⟩
      · rw [texts_append, htexts]
        simp [texts, filterMap_parts]
      · rw [calls_append, hcalls]
        simp [calls, filter_parts]
    rename_i hc
    rw [List.append_nil]
    exact hdone c hes hc
  · intro chunk s' c hrun
    unfold convertChunk at hrun
    rw [if_neg (by simp [h.live])] at hrun
    dsimp only at hrun
    have h₀ : Invariant unmarshal (chunks.flatMap Chunk.choices)
        { s with usage := (chunk.usage.map normalize).or s.usage } _ :=
      ⟨h.progress, h.seen, h.nodup, h.own, h.live⟩
    split at hrun
    · rename_i h₁
      cases hrun
      exact h₀.choices_noName h₁
    · split at hrun <;> cases hrun
    · cases hrun
  · intro s' c hrun
    exact finishChoices_noName hnodup (fun d hd => (hleft d hd).2.1) (finalize_error hrun)

end

/-- A call that gets its id late and whose arguments come in two pieces, beside a choice
    that is left to `Finalize`. -/
def sampleChunks : List (Chunk Unit) :=
  [⟨[⟨0, "Hi", [⟨none, "", "f", "\x7b"⟩], none⟩, ⟨1, "Ho", [], none⟩], none⟩,
    ⟨[⟨0, "", [⟨some 0, " a ", "", "\x7d"⟩], some "tool_calls"⟩], some ()⟩]

def readEmpty (s : String) : Option (List (String × JsonValue Unit)) :=
  if s = "\x7b\x7d" then some [] else none

theorem exists_of_isOk {σ ε α : Type} {p : σ × Except ε α} (h : p.2.isOk = true) :
    ∃ s a, p = (s, .ok a) := by
  obtain ⟨s, result⟩ := p
  cases result with
  | error e => cases h
  | ok a => exact ⟨s, a, rfl⟩

theorem stream_complete_sample : ∃ s responses s' last,
    convertChunks readEmpty id .new sampleChunks = (s, .ok responses) ∧
      finalize readEmpty s = (s', .ok last) ∧
      Complete readEmpty [⟨0, "Hi", [⟨none, "", "f", "\x7b"⟩], none⟩,
        ⟨0, "", [⟨some 0, " a ", "", "\x7d"⟩], some "tool_calls"⟩]
        (((responses ++ last).flatMap GeminiResponse.candidates).filter (·.index = 0)) := by
  obtain ⟨s, responses, h⟩ := exists_of_isOk
    (show (convertChunks readEmpty id .new sampleChunks).2.isOk = true by decide +kernel)
  have hs :
      (finalize readEmpty (convertChunks readEmpty id .new sampleChunks).1).2.isOk = true := by
    decide +kernel
  rw [h] at hs
  obtain ⟨s', last, hlast⟩ := exists_of_isOk hs
  exact ⟨s, responses, s', last, h, hlast, (stream_complete h).1 s' last hlast 0⟩

end NewApi.ChatToGemini
