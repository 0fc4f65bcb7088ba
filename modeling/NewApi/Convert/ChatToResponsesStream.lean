/-
  NewApi.Convert.ChatToResponsesStream

  What the converter from chat to Responses makes of a whole stream.

  A run is a list of calls, each a chunk or a hosted call, and an end.  The calls
  are first taken apart into the deltas they append (`Op`).  Every delta keeps the
  items and the log together as long as its item has not ended.  A delta that comes
  later is sent all the same, unless it is a tool call, and no later event makes up
  for it.
-/

import NewApi.Convert.ChatToResponsesItems

namespace NewApi.Convert

open NewApi.Lib
open NewApi.Subscription (trimSpace)

/-! ## Runs -/

/-- A call between the start and the end of a stream. -/
inductive StreamCall where
  | chunk (chunk : ChatChunk)
  | startHosted (start : HostedToolStreamStart)
  | completeHosted (result : HostedToolStreamResult)

/-- The call that ends a stream. -/
inductive StreamEnd where
  | finalize
  | fail (code message param : String)

section
variable (codec : HostedCodec)

variable (s : ChatToResponsesStreamState)

def convertCall : StreamCall → Except ChatChunkError ChatToResponsesStreamState
  | .chunk chunk => s.convertChunk chunk
  | .startHosted start => .ok (s.startHostedTool codec start).2
  | .completeHosted result => .ok (s.completeHostedTool codec result).2

def endStream : StreamEnd → ChatToResponsesStreamState
  | .finalize => s.finalize
  | .fail code message param => s.fail code message param

/-- What the calls do one after the other. -/
inductive Op where
  | begin (chunk : ChatChunk)
  | reasoning (delta : Bytes)
  | text (delta : Bytes)
  | annotations (raw : RawAnnotations)
  | toolCall (toolCall : ToolCall)
  | finish (reason : Option String)
  | startHosted (start : HostedToolStreamStart)
  | completeHosted (result : HostedToolStreamResult)

def perform : Op → Except ChatChunkError ChatToResponsesStreamState
  | .begin chunk => .ok (s.beginChunk chunk)
  | .reasoning delta => .ok (s.appendReasoningDelta delta)
  | .text delta => .ok (s.appendTextDelta delta)
  | .annotations raw => s.appendAnnotationDelta raw
  | .toolCall toolCall => s.appendToolCallDelta toolCall
  | .finish reason => .ok (s.finishChoice reason)
  | .startHosted start => .ok (s.startHostedTool codec start).2
  | .completeHosted result => .ok (s.completeHostedTool codec result).2

/-- The deltas of a choice that are not empty, and its finish reason. -/
def ChatChoice.ops (choice : ChatChoice) : List Op :=
  (if choice.delta.getReasoningContent = [] then []
    else [.reasoning choice.delta.getReasoningContent]) ++
  (if choice.delta.getContentString = [] then [] else [.text choice.delta.getContentString]) ++
  (if choice.delta.annotations = .absent then [] else [.annotations choice.delta.annotations]) ++
  choice.delta.toolCalls.map .toolCall ++ [.finish choice.finishReason]

def StreamCall.ops : StreamCall → List Op
  | .chunk c => .begin c :: c.choices.flatMap ChatChoice.ops
  | .startHosted start => [.startHosted start]
  | .completeHosted result => [.completeHosted result]

/-- The delta is for an item that no finish reason has ended.  (A tool call for an
    ended item is an error.) -/
def OnTime : Op → Prop
  | .reasoning _ => s.reasoningDone = false
  | .text _ => s.textDone = false
  | .annotations (.list (_ :: _)) => s.textDone = false
  | _ => True

instance (s : ChatToResponsesStreamState) : (op : Op) → Decidable (OnTime s op)
  | .reasoning _ => inferInstanceAs (Decidable (s.reasoningDone = false))
  | .text _ => inferInstanceAs (Decidable (s.textDone = false))
  | .annotations (.list (_ :: _)) => inferInstanceAs (Decidable (s.textDone = false))
  | .annotations (.list []) | .annotations .absent | .annotations .invalid | .begin _
  | .toolCall _ | .finish _ | .startHosted _ | .completeHosted _ => instDecidableTrue

theorem tryRun_toolCalls (toolCalls : List ToolCall) :
    tryRun (perform codec) s (toolCalls.map .toolCall) =
      toolCalls.foldlM ChatToResponsesStreamState.appendToolCallDelta s := by
  induction toolCalls generalizing s with
  | nil => rfl
  | cons toolCall toolCalls ih =>
    rw [List.foldlM_cons, List.map_cons]
    show (s.appendToolCallDelta toolCall).bind _ = (s.appendToolCallDelta toolCall).bind _
    cases s.appendToolCallDelta toolCall with
    | ok t => exact ih t
    | error e => rfl

theorem convertChoice_eq_tryRun (choice : ChatChoice) :
    s.convertChoice choice = tryRun (perform codec) s choice.ops := by
  unfold ChatToResponsesStreamState.convertChoice ChatToResponsesStreamState.appendTexts
    ChatToResponsesStreamState.appendAnnotations ChatChoice.ops
  simp only [List.append_assoc, tryRun_append, tryRun_toolCalls]
  split_ifs <;> simp only [tryRun_singleton, tryRun_nil, perform] <;> rfl

theorem convertCall_eq_tryRun (call : StreamCall) :
    convertCall codec s call = tryRun (perform codec) s call.ops := by
  cases call with
  | chunk c =>
    show c.choices.foldlM ChatToResponsesStreamState.convertChoice (s.beginChunk c) =
      tryRun (perform codec) (s.beginChunk c) (c.choices.flatMap ChatChoice.ops)
    rw [foldlM_eq_tryRun]
    exact tryRun_flatMap (convertChoice_eq_tryRun codec) _ _
  | startHosted start => rfl
  | completeHosted result => rfl

end

/-! ## Calls -/

namespace ChatToResponsesStreamState

variable {s s' : ChatToResponsesStreamState}

theorem consistent_appendAnnotationDelta {raw : RawAnnotations} (h : s.Consistent)
    (hopen : OnTime s (.annotations raw)) (hs' : s.appendAnnotationDelta raw = .ok s') :
    s'.Consistent := by
  have hs := consistent_startText h
  obtain ⟨annotations, hraw, hs'⟩ := bind_eq_ok.1 hs'
  cases hs'
  cases raw with
  | absent =>
    cases hraw
    exact hs
  | invalid => cases hraw
  | list raw =>
    cases hraw
    cases raw with
    | nil => exact hs
    | cons a raw =>
      have hdone : s.startText.textDone = false := (startText_textDone s).trans hopen
      exact consistent_addAnnotations _ hs (startText_textStarted s) hdone

theorem consistent_finishChoice (h : s.Consistent) (reason : Option String) :
    (s.finishChoice reason).Consistent := by
  unfold finishChoice
  split
  · split
    · exact h
    · exact (ends_doneDeltaEvents _).consistent ⟨h.next, h.items⟩
  · exact h

theorem consistent_perform {codec : HostedCodec} {op : Op} (h : s.Consistent) (hop : OnTime s op)
    (hs' : perform codec s op = .ok s') : s'.Consistent := by
  cases op with
  | begin chunk =>
    cases hs'
    exact consistent_ensureCreated ⟨h.next, h.items⟩
  | reasoning delta =>
    cases hs'
    exact consistent_appendReasoningDelta h hop delta
  | text delta =>
    cases hs'
    exact consistent_appendTextDelta h hop delta
  | annotations raw => exact consistent_appendAnnotationDelta h hop hs'
  | toolCall toolCall => exact consistent_appendToolCallDelta h hs'
  | finish reason =>
    cases hs'
    exact consistent_finishChoice h reason
  | startHosted start =>
    cases hs'
    exact consistent_startHostedTool codec start h
  | completeHosted result =>
    cases hs'
    exact consistent_completeHostedTool codec result h

def Late (log : List StreamEvent) : Prop :=
  ∃ i p, [.closed, .part p].Sublist (history itemView i log)

theorem Late.append {log : List StreamEvent} (h : Late log) (rest : List StreamEvent) :
    Late (log ++ rest) := by
  obtain ⟨i, p, h⟩ := h
  refine ⟨i, p, ?_⟩
  rw [history_append]
  exact h.trans (List.sublist_append_left _ _)

section
variable (h : s.Consistent)
include h

theorem placed_of_closed {r : OutputRef} (hclosed : (s.held r).closed = true) :
    ∃ i, s.place r = some i := by
  by_contra hnone
  have hplace : s.place r = none := by
    cases hr : s.place r with
    | none => rfl
    | some i => exact absurd ⟨i, hr⟩ hnone
  rw [(h.items.unplaced r hplace).2] at hclosed
  cases hclosed

theorem startText_of_textDone (hdone : s.textDone = true) :
    s.startText = s ∧ s.place .message = some s.textOutputIndex := by
  obtain ⟨i, hi⟩ := placed_of_closed (r := .message) h hdone
  have hstart : s.textStarted = true := by
    by_contra hstart
    simp [place, hstart] at hi
  exact ⟨by simp [startText, hstart], by simp [place, hstart]⟩

theorem startReasoning_of_reasoningDone (hdone : s.reasoningDone = true) :
    s.startReasoning = s ∧ s.place .reasoning = some s.reasoningIndex := by
  obtain ⟨i, hi⟩ := placed_of_closed (r := .reasoning) h hdone
  have hstart : s.reasoningStarted = true := by
    by_contra hstart
    simp [place, hstart] at hi
  exact ⟨by simp [startReasoning, hstart], by simp [place, hstart]⟩

theorem late_annotationAdded (hdone : s.textDone = true) (a : Annotation) :
    Late (s.annotationAdded a).sent := by
  obtain ⟨-, hplace⟩ := startText_of_textDone h hdone
  refine ⟨some s.textOutputIndex, [], ?_⟩
  have hlate := h.items.event_late (s := { s with annotations := s.annotations ++ [a] })
    (e := { type := .outputTextAnnotationAdded, outputIndex := some s.textOutputIndex
            contentIndex := some 0, annotationIndex := some s.annotations.length
            annotation := .value (some a), itemID := s.messageID })
    hplace rfl rfl hdone []
  rwa [List.append_nil] at hlate

theorem late_perform {codec : HostedCodec} {op : Op} (hop : ¬ OnTime s op)
    (hs' : perform codec s op = .ok s') : Late s'.sent := by
  cases op with
  | reasoning delta =>
    cases hs'
    have hdone : s.reasoningDone = true := by simpa [OnTime] using hop
    obtain ⟨hsame, hplace⟩ := startReasoning_of_reasoningDone h hdone
    refine ⟨some s.reasoningIndex, delta, ?_⟩
    have hlate := h.items.event_late (s := { s with reasoning := s.reasoning ++ delta })
      (e := { type := .reasoningSummaryDelta, outputIndex := some s.reasoningIndex
              summaryIndex := some 0, delta := delta, itemID := s.reasoningID })
      hplace rfl rfl hdone []
    rw [List.append_nil] at hlate
    simpa only [appendReasoningDelta, hsame] using hlate
  | text delta =>
    cases hs'
    have hdone : s.textDone = true := by simpa [OnTime] using hop
    obtain ⟨hsame, hplace⟩ := startText_of_textDone h hdone
    refine ⟨some s.textOutputIndex, delta, ?_⟩
    have hlate := h.items.event_late (s := { s with text := s.text ++ delta })
      (e := { type := .outputTextDelta, outputIndex := some s.textOutputIndex
              contentIndex := some 0, delta := delta, itemID := s.messageID })
      hplace rfl rfl hdone []
    rw [List.append_nil] at hlate
    simpa only [appendTextDelta, hsame] using hlate
  | annotations raw =>
    cases raw with
    | absent => exact absurd trivial hop
    | invalid => cases hs'
    | list raw =>
      cases raw with
      | nil => exact absurd trivial hop
      | cons a raw =>
        cases hs'
        have hdone : s.textDone = true := by simpa [OnTime] using hop
        obtain ⟨hsame, -⟩ := startText_of_textDone h hdone
        rw [hsame, List.map_cons, List.foldl_cons]
        obtain ⟨es, hes, -⟩ := (extends_foldl extends_annotationAdded (raw.map flattenCitation)
          (s.annotationAdded (flattenCitation a))).sent
        rw [hes]
        exact (late_annotationAdded h hdone _).append es
  | begin chunk | toolCall toolCall | finish reason | startHosted start | completeHosted result =>
    exact absurd trivial hop

end

end ChatToResponsesStreamState

namespace ChatToResponsesStreamState

variable {s s' : ChatToResponsesStreamState} {emit : Bool}

/-- The log begins with the one `response.created` event, and has no end yet. -/
def Begun (log : List StreamEvent) : Prop :=
  ∃ first rest, log = first :: rest ∧ first.type = .created ∧ ∀ e ∈ rest, Quiet e

/-- The stream is going on.  As long as nothing was sent there is no hosted call. -/
structure Running (emit : Bool) (s : ChatToResponsesStreamState) : Prop where
  emits : s.emitSequenceNumber = emit
  finalized : s.finalized = false
  numbered : s.Numbered
  begun : s.sentCreated = true → Begun s.sent
  fresh : s.sentCreated = false → s.sent = [] ∧ s.hostedByID = ∅

theorem running_new (id model : String) (now : Int) (emit : Bool) :
    Running emit (newChatToResponsesStreamState id model now emit) :=
  ⟨rfl, rfl, fun _ => ⟨rfl, rfl⟩, nofun, fun _ => ⟨rfl, rfl⟩⟩

theorem Begun.append {log es : List StreamEvent} (h : Begun log) (hes : ∀ e ∈ es, Quiet e) :
    Begun (log ++ es) := by
  obtain ⟨first, rest, rfl, hfirst, hrest⟩ := h
  refine ⟨first, rest ++ es, rfl, hfirst, fun e he => ?_⟩
  rcases List.mem_append.1 he with he | he
  · exact hrest e he
  · exact hes e he

theorem Running.extends (h : Running emit s) (hcreated : s.sentCreated = true) (hs' : Extends s s') :
    Running emit s' := by
  obtain ⟨es, hes, hquiet⟩ := hs'.sent
  refine ⟨hs'.emit.trans h.emits, hs'.finalized.trans h.finalized, hs'.numbered h.numbered,
    fun _ => ?_, fun hnot => ?_⟩
  · rw [hes]
    exact (h.begun hcreated).append hquiet
  · rw [hs'.sentCreated, hcreated] at hnot
    cases hnot

theorem ensureCreated_sentCreated (s : ChatToResponsesStreamState) :
    s.ensureCreated.sentCreated = true := by
  unfold ensureCreated
  split
  · assumption
  · rfl

theorem running_ensureCreated (hemits : s.emitSequenceNumber = emit)
    (hfinalized : s.finalized = false) (hnumbered : s.Numbered)
    (hbegun : s.sentCreated = true → Begun s.sent) (hfresh : s.sentCreated = false → s.sent = []) :
    Running emit s.ensureCreated := by
  have hcreated := ensureCreated_sentCreated s
  refine ⟨?_, ?_, ?_, fun _ => ?_, fun hnot => by rw [hcreated] at hnot; cases hnot⟩ <;>
    unfold ensureCreated <;> split
  · exact hemits
  · exact hemits
  · exact hfinalized
  · exact hfinalized
  · exact hnumbered
  · exact Numbered.event (s := { s with sentCreated := true }) hnumbered _
  · rename_i hsent
    exact hbegun hsent
  rename_i hsent
  have hnil : s.sent = [] := hfresh (by simpa using hsent)
  refine ⟨_, [], congrArg (· ++ [_]) hnil, ?_, by simp⟩
  exact numbered_type _ _

theorem extends_appendTexts (s : ChatToResponsesStreamState) (delta : ChatDelta) :
    Extends s (s.appendTexts delta) := by
  unfold appendTexts
  dsimp only
  split_ifs
  · exact .refl s
  · exact extends_appendReasoningDelta s _
  · exact extends_appendTextDelta s _
  · exact (extends_appendReasoningDelta s _).trans (extends_appendTextDelta _ _)

theorem extends_convertChoice {choice : ChatChoice} (h : s.convertChoice choice = .ok s') :
    Extends s s' := by
  obtain ⟨t, ht, h⟩ := bind_eq_ok.1 h
  obtain ⟨u, hu, h⟩ := bind_eq_ok.1 h
  cases h
  rw [foldlM_eq_tryRun] at hu
  have htools : Extends t u := tryRun_invariant_all (Extends t)
    (fun _ _ _ hx hstep => hx.trans (extends_appendToolCallDelta hstep)) (.refl t) hu
  refine Extends.trans ?_ (extends_finishChoice u choice.finishReason)
  refine Extends.trans ?_ htools
  refine (extends_appendTexts s choice.delta).trans ?_
  unfold appendAnnotations at ht
  split at ht
  · cases ht
    exact .refl _
  · exact extends_appendAnnotationDelta ht

theorem running_convertChunk {chunk : ChatChunk} (h : Running emit s)
    (hs' : s.convertChunk chunk = .ok s') : Running emit s' := by
  unfold convertChunk at hs'
  rw [foldlM_eq_tryRun] at hs'
  have hbegin : Running emit (s.beginChunk chunk) :=
    running_ensureCreated h.emits h.finalized h.numbered h.begun fun hnot => (h.fresh hnot).1
  have hextends : Extends (s.beginChunk chunk) s' := tryRun_invariant_all (Extends _)
    (fun _ _ _ hx hstep => hx.trans (extends_convertChoice hstep)) (.refl _) hs'
  exact hbegin.extends (ensureCreated_sentCreated _) hextends

theorem extends_describeHosted (s : ChatToResponsesStreamState) (output : ResponsesOutput)
    (index : Int) : Extends s (s.describeHosted output index) := by
  unfold describeHosted
  dsimp only
  split_ifs
  · refine Extends.event ?_ ⟨nofun, rfl⟩
    refine Extends.event ?_ ⟨nofun, rfl⟩
    refine Extends.event ?_ ⟨nofun, rfl⟩
    exact Extends.event (.refl s) ⟨nofun, rfl⟩
  · refine Extends.event ?_ ⟨nofun, rfl⟩
    refine Extends.event ?_ ⟨nofun, rfl⟩
    exact Extends.event (.refl s) ⟨nofun, rfl⟩
  · refine Extends.event ?_ ⟨nofun, rfl⟩
    exact Extends.event (.refl s) ⟨nofun, rfl⟩
  · exact Extends.event (.refl s) ⟨nofun, rfl⟩

variable (codec : HostedCodec)

theorem running_startHostedTool (start : HostedToolStreamStart)
    (h : Running emit s) : Running emit (s.startHostedTool codec start).2 := by
  unfold startHostedTool
  split
  · exact h
  rename_i output _
  let tool : HostedTool := { outputIndex := s.nextOutputIndex, output }
  let t := (s.nextIndex (.hosted output.id)).setHosted output.id tool
  have hcreated : Running emit t.ensureCreated :=
    running_ensureCreated h.emits h.finalized h.numbered h.begun fun hnot => (h.fresh hnot).1
  have hadded : Extends t.ensureCreated (s.addHosted output) :=
    Extends.event (.refl t.ensureCreated) ⟨nofun, rfl⟩
  exact hcreated.extends (ensureCreated_sentCreated t)
    (hadded.trans (extends_describeHosted _ output s.nextOutputIndex))

theorem extends_completeHostedTool (result : HostedToolStreamResult)
    (s : ChatToResponsesStreamState) : Extends s (s.completeHostedTool codec result).2 := by
  unfold completeHostedTool
  dsimp only
  split
  · exact .refl s
  split_ifs
  · exact .refl s
  · exact .refl s
  split
  · exact extends_of_eq rfl rfl rfl rfl rfl
  refine Extends.event ?_ ⟨nofun, rfl⟩
  refine Extends.hostedEnd ?_ _ _ _
  exact extends_of_eq rfl rfl rfl rfl rfl

theorem running_completeHostedTool (result : HostedToolStreamResult)
    (h : Running emit s) : Running emit (s.completeHostedTool codec result).2 := by
  by_cases hcreated : s.sentCreated = true
  · exact h.extends hcreated (extends_completeHostedTool codec result s)
  -- nothing was sent, so there is no call to complete
  have hnone : s.hostedByID.lookup (trimSpace result.id) = none := by
    rw [(h.fresh (by simpa using hcreated)).2]
    exact AList.lookup_empty _
  unfold completeHostedTool
  simp only [hnone]
  exact h

theorem running_convertCall {codec : HostedCodec} {call : StreamCall} (h : Running emit s)
    (hs' : convertCall codec s call = .ok s') : Running emit s' := by
  cases call with
  | chunk c => exact running_convertChunk h hs'
  | startHosted start =>
    cases hs'
    exact running_startHostedTool codec start h
  | completeHosted result =>
    cases hs'
    exact running_completeHostedTool codec result h

theorem Extends.grows (h : Extends s s') : ∃ es, s'.sent = s.sent ++ es := by
  obtain ⟨es, hes, -⟩ := h.sent
  exact ⟨es, hes⟩

theorem sent_ensureCreated (s : ChatToResponsesStreamState) :
    ∃ es, s.ensureCreated.sent = s.sent ++ es := by
  unfold ensureCreated
  split
  · exact ⟨[], by simp⟩
  · exact ⟨_, rfl⟩

theorem sent_startHostedTool (start : HostedToolStreamStart) (s : ChatToResponsesStreamState) :
    ∃ es, (s.startHostedTool codec start).2.sent = s.sent ++ es := by
  unfold startHostedTool
  split
  · exact ⟨[], by simp⟩
  rename_i output _
  let tool : HostedTool := { outputIndex := s.nextOutputIndex, output }
  let t := (s.nextIndex (.hosted output.id)).setHosted output.id tool
  obtain ⟨es, hes⟩ := sent_ensureCreated t
  have hadded : Extends t.ensureCreated (s.addHosted output) :=
    Extends.event (.refl t.ensureCreated) ⟨nofun, rfl⟩
  obtain ⟨es', hes'⟩ :=
    (hadded.trans (extends_describeHosted _ output s.nextOutputIndex)).grows
  refine ⟨es ++ es', ?_⟩
  rw [hes', hes, List.append_assoc]
  rfl

theorem sent_perform {codec : HostedCodec} {op : Op} (hs' : perform codec s op = .ok s') :
    ∃ es, s'.sent = s.sent ++ es := by
  cases op with
  | begin chunk =>
    cases hs'
    exact sent_ensureCreated _
  | reasoning delta =>
    cases hs'
    exact (extends_appendReasoningDelta s delta).grows
  | text delta =>
    cases hs'
    exact (extends_appendTextDelta s delta).grows
  | annotations raw => exact (extends_appendAnnotationDelta hs').grows
  | toolCall toolCall => exact (extends_appendToolCallDelta hs').grows
  | finish reason =>
    cases hs'
    exact (extends_finishChoice s reason).grows
  | startHosted start =>
    cases hs'
    exact sent_startHostedTool codec start s
  | completeHosted result =>
    cases hs'
    exact (extends_completeHostedTool codec result s).grows

end ChatToResponsesStreamState

/-! ## The end of the stream -/

namespace ChatToResponsesStreamState

variable {s s' : ChatToResponsesStreamState} {emit : Bool}

theorem outputItem_of_placed {r : OutputRef} (h : s.place r ≠ none) (status : Status) :
    ∃ item, s.outputItem status r = some item ∧ itemValue item = (s.held r).value ∧
      itemIdentity item = s.named r := by
  cases r with
  | message => exact ⟨_, rfl, by simp [itemValue, messageOutput, held], rfl⟩
  | reasoning => exact ⟨_, rfl, by simp [itemValue, reasoningOutput, held], rfl⟩
  | tool k =>
    cases hk : s.toolsByIndex.lookup k with
    | none => exact absurd (by simp [place, hk]) h
    | some tool =>
      exact ⟨toolOutput tool status, by simp [outputItem, hk],
        by simp [itemValue, toolOutput, held, hk], by simp [itemIdentity, toolOutput, named, hk]⟩
  | hosted id =>
    cases hid : s.hostedByID.lookup id with
    | none => exact absurd (by simp [place, hid]) h
    | some tool =>
      exact ⟨tool.output, by simp [outputItem, hid], by simp [held, hid], by simp [named, hid]⟩

theorem lists_output (h : s.Consistent) (hended : ∀ r ∈ s.outputOrder, (s.held r).closed = true)
    (status : Status) : Lists s.sent (s.outputOrder.filterMap (s.outputItem status)) := by
  have hplaced : ∀ r ∈ s.outputOrder, s.place r ≠ none := by
    intro r hr hnone
    exact (h.items.unplaced r hnone).1 hr
  obtain ⟨item, hitem⟩ : ∃ item : OutputRef → ResponsesOutput, ∀ r ∈ s.outputOrder,
      s.outputItem status r = some (item r) ∧ itemValue (item r) = (s.held r).value ∧
        itemIdentity (item r) = s.named r := by
    refine ⟨fun r => (s.outputItem status r).getD { type := .message }, fun r hr => ?_⟩
    obtain ⟨item, hsome, hvalue, hname⟩ := outputItem_of_placed (hplaced r hr) status
    simp [hsome, hvalue, hname]
  have houtput : s.outputOrder.filterMap (s.outputItem status) = s.outputOrder.map item := by
    rw [List.filterMap_congr fun r hr => (hitem r hr).1]
    exact congrFun List.filterMap_eq_map' _
  rw [houtput]
  refine ⟨?_, ?_, ?_⟩
  · rw [h.items.indexes, List.length_map]
  · rw [h.items.announced, List.map_map]
    exact List.map_congr_left fun r hr => (hitem r hr).2.2.symm
  have htable : itemTable s.outputOrder s.held = endedItems (s.outputOrder.map item) := by
    funext i
    unfold itemTable endedItems
    split
    · rename_i n
      rw [List.getElem?_map]
      cases hn : s.outputOrder[n]? with
      | none => rfl
      | some r =>
        have hr : r ∈ s.outputOrder := List.mem_of_getElem? hn
        simp [(hitem r hr).2.1, ← hended r hr]
    · rfl
  rw [← htable]
  exact h.items.tracks

theorem wellFormed_event {e : StreamEvent} {response : ResponsesResponse}
    (hemits : s.emitSequenceNumber = emit) (hnumbered : s.Numbered) (hbegun : Begun s.sent)
    (h : s.Consistent) (hended : ∀ r ∈ s.outputOrder, (s.held r).closed = true)
    (hterminal : e.isTerminal = true) (hmark : itemMark e = none) (hcreated : e.type ≠ .created)
    (hresponse : e.response = some response) {status : Status}
    (houtput : response.output = s.outputOrder.filterMap (s.outputItem status)) :
    WellFormedStream emit (s.event e).sent := by
  obtain ⟨first, rest, hlog, hfirst, hrest⟩ := hbegun
  have hfinal : (s.event e).Consistent := ⟨h.next, h.items.event_skip hmark⟩
  refine ⟨⟨first, rest ++ [s.numbered e], ?_, hfirst, ?_⟩, ?_, s.sent, s.numbered e, response, rfl, ?_,
    ?_, ?_, ?_⟩
  · show s.sent ++ [s.numbered e] = _
    rw [hlog, List.cons_append]
  · intro x hx
    rcases List.mem_append.1 hx with hx | hx
    · exact (hrest x hx).1
    · rw [List.mem_singleton.1 hx, numbered_type]
      exact hcreated
  · intro hemit
    exact (hnumbered.event e (hemits.trans hemit)).2
  · rwa [numbered_isTerminal]
  · intro x hx
    rw [hlog] at hx
    rcases List.mem_cons.1 hx with rfl | hx
    · simp [StreamEvent.isTerminal, hfirst]
    · exact (hrest x hx).2
  · rwa [numbered_response]
  · rw [houtput]
    exact lists_output hfinal hended status

theorem closed_doneDeltaEvents (hs : s.Consistent) :
    ∀ r ∈ s.doneDeltaEvents.outputOrder, (s.doneDeltaEvents.held r).closed = true := by
  have hends := ends_doneDeltaEvents s
  intro r hr
  rw [hends.order] at hr
  exact hends.ended r hr fun hnone => (hs.items.unplaced r hnone).1 hr

theorem wellFormed_finalize (h : Running emit s) (hcreated : s.sentCreated = true)
    (hs : s.Consistent) : WellFormedStream emit s.finalize.sent := by
  have hdone := h.extends hcreated (extends_doneDeltaEvents s)
  have hdone' := (ends_doneDeltaEvents s).consistent hs
  unfold finalize
  rw [if_neg (by simp [h.finalized])]
  let t := { s.doneDeltaEvents with finalized := true }
  have hbegun : Begun t.sent := hdone.begun ((extends_doneDeltaEvents s).sentCreated.trans hcreated)
  refine wellFormed_event (s := t) hdone.emits hdone.numbered hbegun ⟨hdone'.next, hdone'.items⟩
    (closed_doneDeltaEvents hs) ?_ ?_ ?_ rfl rfl
  · dsimp only
    split <;> rfl
  · dsimp only
    split <;> rfl
  · dsimp only
    split <;> nofun

theorem wellFormed_fail (h : Running emit s) (hs : s.Consistent) (code message param : String) :
    WellFormedStream emit (s.fail code message param).sent := by
  unfold fail
  rw [if_neg (by simp [h.finalized])]
  let t := { s with status := .failed }.ensureCreated
  have hcreated : t.sentCreated = true := ensureCreated_sentCreated _
  have hrunning : Running emit t :=
    running_ensureCreated h.emits h.finalized h.numbered h.begun fun hnot => (h.fresh hnot).1
  have ht : t.Consistent := consistent_ensureCreated ⟨hs.next, hs.items⟩
  have hdone := hrunning.extends hcreated (extends_doneDeltaEvents t)
  have hdone' := (ends_doneDeltaEvents t).consistent ht
  have hbegun : Begun t.doneDeltaEvents.sent :=
    hdone.begun ((extends_doneDeltaEvents t).sentCreated.trans hcreated)
  -- the `error` event comes before the terminal one
  let u := { t.doneDeltaEvents with finalized := true }
  refine wellFormed_event (s := u.event _) hdone.emits (Numbered.event (s := u) hdone.numbered _) ?_
    ⟨hdone'.next, Items.event_skip (s := u) hdone'.items rfl⟩ (closed_doneDeltaEvents ht)
    rfl rfl nofun rfl rfl
  refine hbegun.append fun e he => ?_
  rw [List.mem_singleton.1 he]
  unfold Quiet
  rw [numbered_type, numbered_isTerminal]
  exact ⟨nofun, rfl⟩

theorem sent_finalize (h : s.finalized = false) :
    ∃ last, s.finalize.sent = s.doneDeltaEvents.sent ++ [last] ∧ last.type ≠ .created := by
  unfold finalize
  rw [if_neg (by simp [h])]
  refine ⟨_, rfl, ?_⟩
  rw [numbered_type]
  split <;> nofun

theorem not_wellFormed_finalize (h : Running emit s) (hcreated : s.sentCreated = false) :
    ¬ WellFormedStream emit s.finalize.sent := by
  rintro ⟨⟨first, rest, hlog, hfirst, -⟩, -, -⟩
  obtain ⟨last, hlast, htype⟩ := sent_finalize h.finalized
  obtain ⟨es, hes, hquiet⟩ := (extends_doneDeltaEvents s).sent
  rw [hlast, hes, (h.fresh hcreated).1, List.nil_append] at hlog
  cases es with
  | nil =>
    cases hlog
    exact htype hfirst
  | cons _ es =>
    cases hlog
    exact (hquiet first List.mem_cons_self).1 hfirst

end ChatToResponsesStreamState

theorem sent_endStream (s : ChatToResponsesStreamState) (ending : StreamEnd) :
    ∃ es, (endStream s ending).sent = s.sent ++ es := by
  cases ending with
  | finalize =>
    obtain ⟨es, hes⟩ := (ChatToResponsesStreamState.extends_doneDeltaEvents s).grows
    by_cases hfinalized : s.finalized = true
    · exact ⟨[], by simp [endStream, ChatToResponsesStreamState.finalize, hfinalized]⟩
    obtain ⟨last, hlast, -⟩ :=
      ChatToResponsesStreamState.sent_finalize (s := s) (by simpa using hfinalized)
    exact ⟨es ++ [last], by rw [endStream, hlast, hes, List.append_assoc]⟩
  | fail code message param =>
    by_cases hfinalized : s.finalized = true
    · exact ⟨[], by simp [endStream, ChatToResponsesStreamState.fail, hfinalized]⟩
    let t := { s with status := .failed }.ensureCreated
    obtain ⟨es, hes⟩ := ChatToResponsesStreamState.sent_ensureCreated { s with status := .failed }
    obtain ⟨es', hes'⟩ := (ChatToResponsesStreamState.extends_doneDeltaEvents t).grows
    obtain ⟨a, b, hab⟩ :
        ∃ a b, (s.fail code message param).sent = t.doneDeltaEvents.sent ++ [a] ++ [b] := by
      unfold ChatToResponsesStreamState.fail
      rw [if_neg hfinalized]
      exact ⟨_, _, rfl⟩
    refine ⟨es ++ es' ++ [a, b], ?_⟩
    rw [endStream, hab, hes', show t.sent = s.sent ++ es from hes]
    simp

/-- **Chat to Responses.**  However the calls of a stream follow one another, its
    events form a well-formed Responses stream exactly when no text, reasoning or
    annotation comes for an item that an earlier finish reason has ended, and the
    stream is not finalized before it has begun. -/
theorem chatToResponses_wellFormed_iff (codec : HostedCodec) (id model : String) (now : Int)
    (emit : Bool) (calls : List StreamCall) (ending : StreamEnd) {s : ChatToResponsesStreamState}
    (hrun : tryRun (convertCall codec) (newChatToResponsesStreamState id model now emit) calls = .ok s) :
    WellFormedStream emit (endStream s ending).sent ↔
      TryMeets OnTime (perform codec) (newChatToResponsesStreamState id model now emit)
        (calls.flatMap StreamCall.ops) ∧
      (ending = .finalize → s.sentCreated = true) := by
  have hrunning : s.Running emit := tryRun_invariant_all
    (ChatToResponsesStreamState.Running emit)
    (fun _ _ _ h hstep => ChatToResponsesStreamState.running_convertCall h hstep)
    (ChatToResponsesStreamState.running_new id model now emit) hrun
  rw [tryRun_flatMap (convertCall_eq_tryRun codec)] at hrun
  have hnew := ChatToResponsesStreamState.consistent_new id model now emit
  constructor
  · intro hwell
    refine ⟨?_, ?_⟩
    · by_contra hlate
      obtain ⟨before, op, after, t, u, -, hmeets, hbefore, hop, hu, hafter⟩ :=
        exists_first_unmet hrun hlate
      have ht : t.Consistent := tryRun_invariant ChatToResponsesStreamState.Consistent
        (fun _ _ _ h hC hstep => ChatToResponsesStreamState.consistent_perform h hC hstep)
        hnew hmeets hbefore
      have hu : ChatToResponsesStreamState.Late u.sent :=
        ChatToResponsesStreamState.late_perform ht hop hu
      have hs : ChatToResponsesStreamState.Late s.sent := tryRun_invariant_all
        (fun s => ChatToResponsesStreamState.Late s.sent) (fun _ _ _ h hstep => by
          obtain ⟨es, hes⟩ := ChatToResponsesStreamState.sent_perform hstep
          rw [hes]
          exact h.append es) hu hafter
      obtain ⟨es, hes⟩ := sent_endStream s ending
      obtain ⟨i, p, hsub⟩ := hs.append es
      obtain ⟨-, -, -, -, response, -, -, -, -, hlists⟩ := hwell
      rw [hes] at hlists
      exact not_traces_of_late hsub _ (hlists.tracks i)
    rintro rfl
    by_contra hnot
    exact ChatToResponsesStreamState.not_wellFormed_finalize hrunning (by simpa using hnot) hwell
  rintro ⟨hmeets, hcreated⟩
  have hs : s.Consistent := tryRun_invariant ChatToResponsesStreamState.Consistent
    (fun _ _ _ h hC hstep => ChatToResponsesStreamState.consistent_perform h hC hstep)
    hnew hmeets hrun
  cases ending with
  | finalize =>
    exact ChatToResponsesStreamState.wellFormed_finalize hrunning (hcreated rfl) hs
  | fail code message param =>
    exact ChatToResponsesStreamState.wellFormed_fail hrunning hs code message param

def emptyPayloads : HostedCodec where
  valid := fun _ => false
  isString := fun _ => false
  quote := fun value => [34] ++ value ++ [34]
  normalizeWebSearchAction := fun _ => none

/-- Text, a tool call and a finish reason. -/
def textAndTool : List StreamCall :=
  [.chunk { choices := [{ delta := { content := some [97] } }] },
   .chunk { choices := [{ delta := { toolCalls := [{ id := "c", name := "f", arguments := [98] }] }
                          finishReason := some "tool_calls" }] }]

theorem chatToResponses_wellFormed_textAndTool : ∃ s,
    tryRun (convertCall emptyPayloads) (newChatToResponsesStreamState "r" "m" 1 true) textAndTool = .ok s ∧
      WellFormedStream true (endStream s .finalize).sent := by
  obtain ⟨s, hs, hcreated⟩ := exists_of_map_eq_ok
    (x := tryRun (convertCall emptyPayloads) (newChatToResponsesStreamState "r" "m" 1 true) textAndTool)
    (f := ChatToResponsesStreamState.sentCreated) (c := true) (by decide +kernel)
  exact ⟨s, hs, (chatToResponses_wellFormed_iff emptyPayloads "r" "m" 1 true _ .finalize hs).2
    ⟨by decide +kernel, fun _ => hcreated⟩⟩

def textAfterFinish : List StreamCall :=
  [.chunk { choices := [{ delta := { content := some [97] }, finishReason := some "stop" }] },
   .chunk { choices := [{ delta := { content := some [98] } }] }]

theorem textAfterFinish_sent : ∃ s,
    tryRun (convertCall emptyPayloads) (newChatToResponsesStreamState "r" "m" 1 true) textAfterFinish =
        .ok s ∧
      ¬ WellFormedStream true (endStream s .finalize).sent := by
  obtain ⟨s, hs, hlog⟩ := exists_of_map_eq_ok
    (x := tryRun (convertCall emptyPayloads) (newChatToResponsesStreamState "r" "m" 1 true)
      textAfterFinish)
    (f := fun s => history itemView (some 0) (endStream s .finalize).sent)
    (c := [.opened, .part [97], .closed, .part [98]]) (by decide +kernel)
  refine ⟨s, hs, ?_⟩
  rintro ⟨-, -, -, -, response, -, -, -, -, hlists⟩
  have htraces := hlists.tracks (some 0)
  rw [hlog] at htraces
  exact not_traces_of_late (p := [98]) (by decide) _ htraces

end NewApi.Convert
