/-
  NewApi.Convert.ChatToResponsesItems

  What the methods of the converter from chat to Responses do to its items.

  `Extends` says of each method that it only sends further events, under the next
  sequence numbers; `Consistent` that what the state says about the items is what
  the log does; `Ends` which items a method has ended.
-/

import NewApi.Lib.Fallible
import NewApi.Convert.ResponsesStream
import NewApi.Convert.ChatToResponses

namespace NewApi.Convert

open NewApi.Lib
open NewApi.Subscription (trimSpace)

/-! ## The log only grows -/

namespace ChatToResponsesStreamState

variable {s s' s'' : ChatToResponsesStreamState}

variable (s)

variable (e : StreamEvent)

@[simp] theorem numbered_type : (s.numbered e).type = e.type := by
  unfold numbered
  split <;> rfl

@[simp] theorem numbered_response : (s.numbered e).response = e.response := by
  unfold numbered
  split <;> rfl

@[simp] theorem numbered_isTerminal : (s.numbered e).isTerminal = e.isTerminal := by
  simp [StreamEvent.isTerminal]

theorem numbered_outputIndex : (s.numbered e).outputIndex = e.outputIndex := by
  unfold numbered
  split <;> rfl

theorem numbered_item : (s.numbered e).item = e.item := by
  unfold numbered
  split <;> rfl

theorem itemMark_numbered : itemMark (s.numbered e) = itemMark e := by
  unfold numbered
  split <;> rfl

def Numbered : Prop :=
  s.emitSequenceNumber = true → s.nextSequenceNumber = s.sent.length ∧
    s.sent.map (·.sequenceNumber) = (List.range s.sent.length).map some

variable {s}

theorem Numbered.event (h : s.Numbered) (e : StreamEvent) : (s.event e).Numbered := by
  intro hemit
  have hemit' : s.emitSequenceNumber = true := hemit
  obtain ⟨hnext, hmap⟩ := h hemit'
  simp only [ChatToResponsesStreamState.event, numbered, hemit', if_true, List.length_append,
    List.length_singleton, List.map_append, List.map_singleton, List.range_succ, hmap, hnext,
    and_self]

def Quiet : Prop := e.type ≠ .created ∧ e.isTerminal = false

/-- From `s` to `s'` only such events were sent. -/
structure Extends (s s' : ChatToResponsesStreamState) : Prop where
  sent : ∃ es, s'.sent = s.sent ++ es ∧ ∀ e ∈ es, Quiet e
  emit : s'.emitSequenceNumber = s.emitSequenceNumber
  finalized : s'.finalized = s.finalized
  sentCreated : s'.sentCreated = s.sentCreated
  numbered : s.Numbered → s'.Numbered

theorem extends_of_eq (hsent : s'.sent = s.sent)
    (hnext : s'.nextSequenceNumber = s.nextSequenceNumber)
    (hemit : s'.emitSequenceNumber = s.emitSequenceNumber)
    (hfinalized : s'.finalized = s.finalized) (hcreated : s'.sentCreated = s.sentCreated) :
    Extends s s' := by
  refine ⟨⟨[], by simp [hsent], by simp⟩, hemit, hfinalized, hcreated, fun h => ?_⟩
  unfold Numbered
  rw [hsent, hnext, hemit]
  exact h

theorem Extends.refl (s : ChatToResponsesStreamState) : Extends s s :=
  extends_of_eq rfl rfl rfl rfl rfl

theorem Extends.trans (h : Extends s s') (h' : Extends s' s'') : Extends s s'' := by
  obtain ⟨es, hes, hquiet⟩ := h.sent
  obtain ⟨es', hes', hquiet'⟩ := h'.sent
  refine ⟨⟨es ++ es', by simp [hes', hes], ?_⟩, h'.emit.trans h.emit, h'.finalized.trans h.finalized,
    h'.sentCreated.trans h.sentCreated, fun hn => h'.numbered (h.numbered hn)⟩
  intro e he
  rcases List.mem_append.1 he with he | he
  · exact hquiet e he
  · exact hquiet' e he

theorem Extends.event (h : Extends s s') {e : StreamEvent} (he : Quiet e) :
    Extends s (s'.event e) := by
  refine h.trans ⟨⟨[s'.numbered e], rfl, ?_⟩, rfl, rfl, rfl, fun hn => hn.event e⟩
  intro x hx
  rw [List.mem_singleton.1 hx]
  simpa [Quiet] using he

theorem extends_foldl {β : Type*} {f : ChatToResponsesStreamState → β → ChatToResponsesStreamState}
    (hf : ∀ s b, Extends s (f s b)) (bs : List β) (s : ChatToResponsesStreamState) :
    Extends s (bs.foldl f s) := by
  induction bs generalizing s with
  | nil => exact .refl s
  | cons b bs ih => exact (hf s b).trans (ih (f s b))

variable (s)

theorem extends_startText : Extends s s.startText := by
  unfold startText
  split
  · exact .refl s
  · refine Extends.event ?_ ⟨nofun, rfl⟩
    exact extends_of_eq rfl rfl rfl rfl rfl

theorem extends_appendTextDelta (delta : Bytes) : Extends s (s.appendTextDelta delta) := by
  refine (extends_startText s).trans (Extends.event ?_ ⟨nofun, rfl⟩)
  exact extends_of_eq rfl rfl rfl rfl rfl

theorem extends_annotationAdded (a : Annotation) : Extends s (s.annotationAdded a) := by
  refine Extends.event ?_ ⟨nofun, rfl⟩
  exact extends_of_eq rfl rfl rfl rfl rfl

theorem extends_startReasoning : Extends s s.startReasoning := by
  unfold startReasoning
  split
  · exact .refl s
  · refine Extends.event ?_ ⟨nofun, rfl⟩
    exact extends_of_eq rfl rfl rfl rfl rfl

theorem extends_appendReasoningDelta (delta : Bytes) :
    Extends s (s.appendReasoningDelta delta) := by
  refine (extends_startReasoning s).trans (Extends.event ?_ ⟨nofun, rfl⟩)
  exact extends_of_eq rfl rfl rfl rfl rfl

variable {s}

theorem extends_appendAnnotationDelta {raw : RawAnnotations}
    (h : s.appendAnnotationDelta raw = .ok s') : Extends s s' := by
  obtain ⟨annotations, -, h⟩ := bind_eq_ok.1 h
  cases h
  exact (extends_startText s).trans (extends_foldl extends_annotationAdded annotations s.startText)

variable (s)

theorem extends_startTool (chatIndex : Int) (toolCall : ToolCall) :
    Extends s (s.startTool chatIndex toolCall).2 := by
  unfold startTool
  split
  · exact .refl s
  · refine Extends.event ?_ ⟨nofun, rfl⟩
    exact extends_of_eq rfl rfl rfl rfl rfl

theorem extends_addArguments (chatIndex : Int) (tool : StreamTool)
    (arguments : Bytes) : Extends s (s.addArguments chatIndex tool arguments) := by
  unfold addArguments
  split
  · exact extends_of_eq rfl rfl rfl rfl rfl
  · refine Extends.event ?_ ⟨nofun, rfl⟩
    exact extends_of_eq rfl rfl rfl rfl rfl

variable {s}

theorem extends_appendToolCallDelta {toolCall : ToolCall}
    (h : s.appendToolCallDelta toolCall = .ok s') : Extends s s' := by
  obtain ⟨tool, -, h⟩ := bind_eq_ok.1 h
  cases h
  exact (extends_startTool s _ toolCall).trans (extends_addArguments _ _ _ _)

variable (s)

theorem extends_closeText (status : Status) : Extends s (s.closeText status) := by
  unfold closeText
  split
  · refine Extends.event ?_ ⟨nofun, rfl⟩
    refine Extends.event ?_ ⟨nofun, rfl⟩
    exact extends_of_eq rfl rfl rfl rfl rfl
  · exact .refl s

theorem extends_closeReasoning (status : Status) : Extends s (s.closeReasoning status) := by
  unfold closeReasoning
  split
  · refine Extends.event ?_ ⟨nofun, rfl⟩
    refine Extends.event ?_ ⟨nofun, rfl⟩
    exact extends_of_eq rfl rfl rfl rfl rfl
  · exact .refl s

variable {s}

theorem extends_closeTool (status : Status) (s : ChatToResponsesStreamState) (chatIndex : Int) :
    Extends s (closeTool status s chatIndex) := by
  unfold closeTool
  split
  · split
    · exact .refl s
    refine Extends.event ?_ ⟨nofun, rfl⟩
    refine Extends.event ?_ ⟨nofun, rfl⟩
    exact extends_of_eq rfl rfl rfl rfl rfl
  · exact .refl s

theorem Extends.hostedEnd (h : Extends s s') (tool : HostedTool) (itemID : String) (failed : Bool) :
    Extends s (s'.hostedEnd tool itemID failed) := by
  unfold ChatToResponsesStreamState.hostedEnd
  split
  · exact h.event ⟨nofun, rfl⟩
  · exact h

variable (s)

theorem extends_closeHosted (ref : OutputRef) : Extends s (s.closeHosted ref) := by
  unfold closeHosted
  split
  · split
    · split
      · exact .refl s
      refine Extends.event ?_ ⟨nofun, rfl⟩
      split
      · refine Extends.hostedEnd ?_ _ _ _
        exact extends_of_eq rfl rfl rfl rfl rfl
      · exact extends_of_eq rfl rfl rfl rfl rfl
    · exact .refl s
  · exact .refl s

theorem extends_doneDeltaEvents : Extends s s.doneDeltaEvents := by
  refine Extends.trans ?_ (extends_foldl extends_closeHosted _ _)
  refine Extends.trans ?_ (extends_foldl (extends_closeTool s.outputStatus) _ _)
  exact (extends_closeText s _).trans (extends_closeReasoning _ _)

theorem extends_finishChoice (reason : Option String) : Extends s (s.finishChoice reason) := by
  unfold finishChoice
  split
  · split
    · exact .refl s
    · refine Extends.trans ?_ (extends_doneDeltaEvents _)
      exact extends_of_eq rfl rfl rfl rfl rfl
  · exact .refl s

variable {s}

end ChatToResponsesStreamState

/-! ## The items and the events of a state -/

section
open ChatToResponsesStreamState
variable {order : List OutputRef} {place place' : OutputRef → Option Int}
  {held held' : OutputRef → Held UInt8} {named named' : OutputRef → OutputType × String}
  {s : ChatToResponsesStreamState} {e : StreamEvent} {r : OutputRef}

section
variable (h : Items order place held named s.sent)
include h

theorem Items.event_skip (he : itemMark e = none) : Items order place held named (s.event e).sent :=
  h.skip (by rwa [itemMark_numbered])

theorem Items.event_opening (hr : place r = none) {item : ResponsesOutput}
    (htype : e.type = .outputItemAdded) (hitem : e.item = some item)
    (hindex : e.outputIndex = some (order.length : Int)) (hname : named' r = itemIdentity item)
    (hheld : held' r = {}) (hplace : place' r = some (order.length : Int))
    (hother : ∀ r', r' ≠ r → place' r' = place r' ∧ held' r' = held r' ∧ named' r' = named r') :
    Items (order ++ [r]) place' held' named' (s.event e).sent :=
  h.opening hr (by rwa [numbered_type]) (by rwa [numbered_outputIndex]) (by rwa [numbered_item])
    hname hheld hplace hother

theorem Items.event_adding {i : Int} (hr : place r = some i) {p : Bytes}
    (he : itemMark e = some (.part p)) (hindex : e.outputIndex = some i)
    (hopen : (held r).closed = false) (hheld : held' r = ⟨(held r).value ++ p, false⟩)
    (hother : ∀ r', r' ≠ r → held' r' = held r') : Items order place held' named (s.event e).sent :=
  h.adding hr (by rwa [itemMark_numbered]) (by rwa [numbered_outputIndex]) hopen hheld hother

theorem Items.event_closing {i : Int} (hr : place r = some i) (he : itemMark e = some .closed)
    (hindex : e.outputIndex = some i) (hopen : (held r).closed = false)
    (hheld : held' r = ⟨(held r).value, true⟩) (hother : ∀ r', r' ≠ r → held' r' = held r') : Items order place held' named (s.event e).sent :=
  h.closing hr (by rwa [itemMark_numbered]) (by rwa [numbered_outputIndex]) hopen hheld hother

theorem Items.event_late {i : Int} (hr : place r = some i) {p : Bytes}
    (he : itemMark e = some (.part p)) (hindex : e.outputIndex = some i)
    (hclosed : (held r).closed = true) (rest : List StreamEvent) :
    [.closed, .part p].Sublist (history itemView (some i) ((s.event e).sent ++ rest)) :=
  h.late hr (by rwa [itemMark_numbered]) (by rwa [numbered_outputIndex]) hclosed rest

end

end

namespace ChatToResponsesStreamState

variable {s s' : ChatToResponsesStreamState}

variable (s)

/-- The output index of an item that was announced. -/
def place : OutputRef → Option Int
  | .message => if s.textStarted then some s.textOutputIndex else none
  | .reasoning => if s.reasoningStarted then some s.reasoningIndex else none
  | .tool chatIndex => (s.toolsByIndex.lookup chatIndex).map (·.outputIndex)
  | .hosted id => (s.hostedByID.lookup id).map (·.outputIndex)

/-- The value of an item so far, and whether it has ended. -/
def held : OutputRef → Held UInt8
  | .message => ⟨s.text, s.textDone⟩
  | .reasoning => ⟨s.reasoning, s.reasoningDone⟩
  | .tool chatIndex =>
    ((s.toolsByIndex.lookup chatIndex).map fun tool => ⟨tool.arguments, tool.done⟩).getD {}
  | .hosted id =>
    ((s.hostedByID.lookup id).map fun tool => ⟨itemValue tool.output, tool.done⟩).getD {}

/-- The identity of an item. -/
def named : OutputRef → OutputType × String
  | .message => (.message, "")
  | .reasoning => (.reasoning, "")
  | .tool chatIndex => (.functionCall, ((s.toolsByIndex.lookup chatIndex).map (·.itemID)).getD "")
  | .hosted id =>
    ((s.hostedByID.lookup id).map fun tool => itemIdentity tool.output).getD (.other "", "")

variable {s}

/-- The state says of the items what its log does. -/
structure Consistent (s : ChatToResponsesStreamState) : Prop where
  next : s.nextOutputIndex = s.outputOrder.length
  items : Items s.outputOrder s.place s.held s.named s.sent

theorem consistent_new (id model : String) (now : Int) (emit : Bool) :
    (newChatToResponsesStreamState id model now emit).Consistent := by
  refine ⟨rfl, ⟨?_, rfl, rfl, List.nodup_nil, ?_, ?_⟩⟩
  · intro i
    cases i with
    | none => rfl
    | some i => cases i <;> rfl
  · intro r i h
    cases r <;> cases h
  · intro r _
    exact ⟨List.not_mem_nil, by cases r <;> rfl⟩

/-! ### Message and reasoning -/

theorem forall_ne_message {P : OutputRef → Prop} (hreasoning : P .reasoning)
    (htool : ∀ chatIndex, P (.tool chatIndex)) (hhosted : ∀ id, P (.hosted id)) :
    ∀ r, r ≠ .message → P r
  | .message, h => absurd rfl h
  | .reasoning, _ => hreasoning
  | .tool chatIndex, _ => htool chatIndex
  | .hosted id, _ => hhosted id

theorem forall_ne_reasoning {P : OutputRef → Prop} (hmessage : P .message)
    (htool : ∀ chatIndex, P (.tool chatIndex)) (hhosted : ∀ id, P (.hosted id)) :
    ∀ r, r ≠ .reasoning → P r
  | .message, _ => hmessage
  | .reasoning, h => absurd rfl h
  | .tool chatIndex, _ => htool chatIndex
  | .hosted id, _ => hhosted id

theorem consistent_ensureCreated (h : s.Consistent) : s.ensureCreated.Consistent := by
  unfold ensureCreated
  split
  · exact h
  · exact ⟨h.next, h.items.event_skip rfl⟩

theorem consistent_startText (h : s.Consistent) : s.startText.Consistent := by
  unfold startText
  split
  · exact h
  rename_i hstart
  have hplace : s.place .message = none := by simp [place, hstart]
  have hheld : s.held .message = {} := (h.items.unplaced .message hplace).2
  refine ⟨by simp [event, nextIndex, h.next], ?_⟩
  refine h.items.event_opening (r := .message) hplace rfl rfl ?_ rfl hheld ?_ ?_
  · rw [h.next]
  · simp [place, event, h.next]
  · exact forall_ne_message ⟨rfl, rfl, rfl⟩ (fun _ => ⟨rfl, rfl, rfl⟩) fun _ => ⟨rfl, rfl, rfl⟩

theorem consistent_startReasoning (h : s.Consistent) : s.startReasoning.Consistent := by
  unfold startReasoning
  split
  · exact h
  rename_i hstart
  have hplace : s.place .reasoning = none := by simp [place, hstart]
  have hheld : s.held .reasoning = {} := (h.items.unplaced .reasoning hplace).2
  refine ⟨by simp [event, nextIndex, h.next], ?_⟩
  refine h.items.event_opening (r := .reasoning) hplace rfl rfl ?_ rfl hheld ?_ ?_
  · rw [h.next]
  · simp [place, event, h.next]
  · exact forall_ne_reasoning ⟨rfl, rfl, rfl⟩ (fun _ => ⟨rfl, rfl, rfl⟩) fun _ => ⟨rfl, rfl, rfl⟩

variable (s)

theorem startText_place : s.startText.place .message = some s.startText.textOutputIndex := by
  unfold startText
  split
  · rename_i hstart
    simp [place, hstart]
  · rfl

theorem startText_textDone : s.startText.textDone = s.textDone := by
  unfold startText
  split <;> rfl

theorem startReasoning_place :
    s.startReasoning.place .reasoning = some s.startReasoning.reasoningIndex := by
  unfold startReasoning
  split
  · rename_i hstart
    simp [place, hstart]
  · rfl

theorem startReasoning_reasoningDone : s.startReasoning.reasoningDone = s.reasoningDone := by
  unfold startReasoning
  split <;> rfl

variable {s}

theorem consistent_appendTextDelta (h : s.Consistent) (hopen : s.textDone = false) (delta : Bytes) :
    (s.appendTextDelta delta).Consistent := by
  have hs := consistent_startText h
  have hdone : s.startText.textDone = false := (startText_textDone s).trans hopen
  refine ⟨hs.next, ?_⟩
  refine hs.items.event_adding (r := .message) (startText_place s) rfl rfl hdone ?_ ?_
  · simp [held, appendTextDelta, event, hdone]
  · exact forall_ne_message rfl (fun _ => rfl) fun _ => rfl

theorem consistent_appendReasoningDelta (h : s.Consistent) (hopen : s.reasoningDone = false)
    (delta : Bytes) : (s.appendReasoningDelta delta).Consistent := by
  have hs := consistent_startReasoning h
  have hdone : s.startReasoning.reasoningDone = false :=
    (startReasoning_reasoningDone s).trans hopen
  refine ⟨hs.next, ?_⟩
  refine hs.items.event_adding (r := .reasoning) (startReasoning_place s) rfl rfl hdone ?_ ?_
  · simp [held, appendReasoningDelta, event, hdone]
  · exact forall_ne_reasoning rfl (fun _ => rfl) fun _ => rfl

theorem consistent_annotationAdded (h : s.Consistent) (hstart : s.textStarted = true)
    (hopen : s.textDone = false) (a : Annotation) : (s.annotationAdded a).Consistent := by
  refine ⟨h.next, ?_⟩
  refine h.items.event_adding (r := .message) (i := s.textOutputIndex) ?_ rfl rfl hopen ?_ ?_
  · simp [place, annotationAdded, event, hstart]
  · simp [held, annotationAdded, event, hopen]
  · exact forall_ne_message rfl (fun _ => rfl) fun _ => rfl

theorem consistent_addAnnotations (annotations : List Annotation) (h : s.Consistent)
    (hstart : s.textStarted = true) (hopen : s.textDone = false) :
    (annotations.foldl annotationAdded s).Consistent := by
  induction annotations generalizing s with
  | nil => exact h
  | cons a annotations ih =>
    exact ih (consistent_annotationAdded h hstart hopen a) hstart hopen

theorem startText_textStarted (s : ChatToResponsesStreamState) : s.startText.textStarted = true := by
  unfold startText
  split
  · assumption
  · rfl

/-! ### Tools -/

section
variable {k : Int} {tool tool' : StreamTool}

theorem forall_ne_tool {P : OutputRef → Prop} (hmessage : P .message) (hreasoning : P .reasoning)
    (htool : ∀ k', k' ≠ k → P (.tool k')) (hhosted : ∀ id, P (.hosted id)) : ∀ r, r ≠ .tool k → P r
  | .message, _ => hmessage
  | .reasoning, _ => hreasoning
  | .tool k', h => htool k' fun hk => h (by rw [hk])
  | .hosted id, _ => hhosted id

theorem setTool_lookup (s : ChatToResponsesStreamState) (k : Int) (tool : StreamTool) :
    (s.setTool k tool).toolsByIndex.lookup k = some tool := AList.lookup_insert _

theorem setTool_lookup_ne (s : ChatToResponsesStreamState) (tool : StreamTool) {k' : Int}
    (hk : k' ≠ k) : (s.setTool k tool).toolsByIndex.lookup k' = s.toolsByIndex.lookup k' :=
  AList.lookup_insert_ne hk

theorem place_setTool (h : s.toolsByIndex.lookup k = some tool)
    (hindex : tool'.outputIndex = tool.outputIndex) : (s.setTool k tool').place = s.place := by
  funext r
  by_cases hr : r = .tool k
  · subst hr
    simp [place, setTool_lookup, h, hindex]
  revert r
  refine forall_ne_tool rfl rfl (fun k' hk => ?_) fun _ => rfl
  simp [place, setTool_lookup_ne s tool' hk]

theorem named_setTool (h : s.toolsByIndex.lookup k = some tool) (hid : tool'.itemID = tool.itemID) :
    (s.setTool k tool').named = s.named := by
  funext r
  by_cases hr : r = .tool k
  · subst hr
    simp [named, setTool_lookup, h, hid]
  revert r
  refine forall_ne_tool rfl rfl (fun k' hk => ?_) fun _ => rfl
  simp [named, setTool_lookup_ne s tool' hk]

variable (s)

theorem held_setTool (k : Int) (tool : StreamTool) :
    (s.setTool k tool).held (.tool k) = ⟨tool.arguments, tool.done⟩ := by
  simp [held, setTool_lookup]

theorem held_setTool_ne (k : Int) (tool : StreamTool) :
    ∀ r, r ≠ .tool k → (s.setTool k tool).held r = s.held r := by
  refine forall_ne_tool rfl rfl (fun k' hk => ?_) fun _ => rfl
  simp [held, setTool_lookup_ne s tool hk]

theorem startTool_lookup (k : Int) (toolCall : ToolCall) :
    (s.startTool k toolCall).2.toolsByIndex.lookup k = some (s.startTool k toolCall).1 := by
  unfold startTool
  split
  · assumption
  · exact AList.lookup_insert _

variable {s}

theorem consistent_startTool (h : s.Consistent) (k : Int) (toolCall : ToolCall) :
    (s.startTool k toolCall).2.Consistent := by
  unfold startTool
  split
  · exact h
  rename_i hnone
  have hplace : s.place (.tool k) = none := by simp [place, hnone]
  refine ⟨by simp [event, setTool, nextIndex, h.next], ?_⟩
  refine h.items.event_opening (r := .tool k) hplace rfl rfl ?_ ?_ ?_ ?_ ?_
  · simp [newTool, h.next]
  · simp [named, itemIdentity, event, setTool]
  · simp [held, event, setTool, newTool]
  · simp [place, event, setTool, newTool, h.next]
  · refine forall_ne_tool ⟨rfl, rfl, rfl⟩ ⟨rfl, rfl, rfl⟩ (fun k' hk => ?_) fun _ => ⟨rfl, rfl, rfl⟩
    simp [place, held, named, event, setTool, nextIndex, AList.lookup_insert_ne hk]

theorem identifyTool_ok {toolCall : ToolCall} (h : identifyTool tool toolCall = .ok tool') :
    tool.done = false ∧ tool'.done = false ∧ tool'.outputIndex = tool.outputIndex ∧
      tool'.itemID = tool.itemID ∧ tool'.arguments = tool.arguments := by
  unfold identifyTool at h
  dsimp only at h
  split_ifs at h with hdone <;> cases h <;>
    exact ⟨by simpa using hdone, by simpa using hdone, rfl, rfl, rfl⟩

theorem consistent_addArguments (h : s.Consistent) (hlookup : s.toolsByIndex.lookup k = some tool)
    (hopen : tool.done = false) (hopen' : tool'.done = false)
    (hindex : tool'.outputIndex = tool.outputIndex) (hid : tool'.itemID = tool.itemID)
    (hargs : tool'.arguments = tool.arguments) (arguments : Bytes) :
    (s.addArguments k tool' arguments).Consistent := by
  have hplace : s.place (.tool k) = some tool.outputIndex := by simp [place, hlookup]
  have hheld : s.held (.tool k) = ⟨tool.arguments, false⟩ := by simp [held, hlookup, hopen]
  unfold addArguments
  split
  · refine ⟨h.next, ?_⟩
    have hheld' : (s.setTool k tool').held = s.held := by
      funext r
      by_cases hr : r = .tool k
      · rw [hr, held_setTool, hheld, hargs, hopen']
      · exact held_setTool_ne s k tool' r hr
    rw [place_setTool hlookup hindex, named_setTool hlookup hid, hheld']
    exact h.items
  let grown := { tool' with arguments := tool'.arguments ++ arguments }
  have hplace' : (s.setTool k grown).place = s.place := place_setTool hlookup hindex
  have hnamed' : (s.setTool k grown).named = s.named := named_setTool hlookup hid
  refine ⟨h.next, ?_⟩
  show Items s.outputOrder (s.setTool k grown).place (s.setTool k grown).held
    (s.setTool k grown).named ((s.setTool k grown).event _).sent
  rw [hplace', hnamed']
  refine Items.event_adding (s := s.setTool k grown) h.items hplace rfl ?_ ?_ ?_
    (held_setTool_ne s k grown)
  · exact congrArg some hindex
  · rw [hheld]
  · rw [held_setTool, hheld]
    simp [grown, hargs, hopen']

theorem consistent_appendToolCallDelta {toolCall : ToolCall} (h : s.Consistent)
    (hs' : s.appendToolCallDelta toolCall = .ok s') : s'.Consistent := by
  obtain ⟨tool', hidentify, hs'⟩ := bind_eq_ok.1 hs'
  cases hs'
  obtain ⟨hopen, hopen', hindex, hid, hargs⟩ := identifyTool_ok hidentify
  exact consistent_addArguments (consistent_startTool h _ toolCall) (startTool_lookup s _ toolCall)
    hopen hopen' hindex hid hargs toolCall.arguments

end

/-! ### Hosted calls -/

section
variable {k : String} {tool tool' : HostedTool}

theorem forall_ne_hosted {P : OutputRef → Prop} (hmessage : P .message) (hreasoning : P .reasoning)
    (htool : ∀ chatIndex, P (.tool chatIndex)) (hhosted : ∀ k', k' ≠ k → P (.hosted k')) :
    ∀ r, r ≠ .hosted k → P r
  | .message, _ => hmessage
  | .reasoning, _ => hreasoning
  | .tool chatIndex, _ => htool chatIndex
  | .hosted k', h => hhosted k' fun hk => h (by rw [hk])

variable (s)

theorem setHosted_lookup (k : String) (tool : HostedTool) :
    (s.setHosted k tool).hostedByID.lookup k = some tool := AList.lookup_insert _

theorem setHosted_lookup_ne (tool : HostedTool) {k' : String}
    (hk : k' ≠ k) : (s.setHosted k tool).hostedByID.lookup k' = s.hostedByID.lookup k' :=
  AList.lookup_insert_ne hk

variable {s}

theorem place_setHosted (h : s.hostedByID.lookup k = some tool)
    (hindex : tool'.outputIndex = tool.outputIndex) : (s.setHosted k tool').place = s.place := by
  funext r
  by_cases hr : r = .hosted k
  · subst hr
    simp [place, setHosted_lookup, h, hindex]
  revert r
  refine forall_ne_hosted rfl rfl (fun _ => rfl) fun k' hk => ?_
  simp [place, setHosted_lookup_ne s tool' hk]

theorem named_setHosted (h : s.hostedByID.lookup k = some tool)
    (hid : itemIdentity tool'.output = itemIdentity tool.output) :
    (s.setHosted k tool').named = s.named := by
  funext r
  by_cases hr : r = .hosted k
  · subst hr
    simp [named, setHosted_lookup, h, hid]
  revert r
  refine forall_ne_hosted rfl rfl (fun _ => rfl) fun k' hk => ?_
  simp [named, setHosted_lookup_ne s tool' hk]

variable (s)

theorem held_setHosted (k : String) (tool : HostedTool) :
    (s.setHosted k tool).held (.hosted k) = ⟨itemValue tool.output, tool.done⟩ := by
  simp [held, setHosted_lookup]

theorem held_setHosted_ne (k : String) (tool : HostedTool) :
    ∀ r, r ≠ .hosted k → (s.setHosted k tool).held r = s.held r := by
  refine forall_ne_hosted rfl rfl (fun _ => rfl) fun k' hk => ?_
  simp [held, setHosted_lookup_ne s tool hk]

variable {s}

theorem items_ensureCreated {order : List OutputRef} {place : OutputRef → Option Int}
    {held : OutputRef → Held UInt8} {named : OutputRef → OutputType × String}
    (h : Items order place held named s.sent) :
    Items order place held named s.ensureCreated.sent := by
  unfold ensureCreated
  split
  · exact h
  · exact Items.event_skip h rfl

theorem ensureCreated_items (s : ChatToResponsesStreamState) :
    s.ensureCreated.nextOutputIndex = s.nextOutputIndex ∧
      s.ensureCreated.outputOrder = s.outputOrder ∧ s.ensureCreated.place = s.place ∧
      s.ensureCreated.held = s.held ∧ s.ensureCreated.named = s.named := by
  unfold ensureCreated
  split <;> exact ⟨rfl, rfl, rfl, rfl, rfl⟩

theorem items_addHosted (h : s.Consistent) {output : ResponsesOutput}
    (hnone : s.hostedByID.lookup output.id = none) :
    Items (s.addHosted output).outputOrder (s.addHosted output).place
      (Function.update (s.addHosted output).held (.hosted output.id) {}) (s.addHosted output).named
      (s.addHosted output).sent := by
  let tool : HostedTool := { outputIndex := s.nextOutputIndex, output }
  let t := (s.nextIndex (.hosted output.id)).setHosted output.id tool
  obtain ⟨-, horder, hplace, hheld, hnamed⟩ := ensureCreated_items t
  have hunplaced : s.place (.hosted output.id) = none := by simp [place, hnone]
  have hsent : Items s.outputOrder s.place s.held s.named t.ensureCreated.sent :=
    items_ensureCreated h.items
  show Items t.ensureCreated.outputOrder t.ensureCreated.place
    (Function.update t.ensureCreated.held _ _) t.ensureCreated.named (t.ensureCreated.event _).sent
  rw [horder, hplace, hheld, hnamed]
  refine hsent.event_opening (r := .hosted output.id) hunplaced rfl rfl ?_ ?_ ?_ ?_ ?_
  · rw [h.next]
  · rw [show t.named (.hosted output.id) = itemIdentity output by simp [t, named, setHosted, tool]]
    split <;> rfl
  · rw [Function.update_self]
  · simp [t, place, setHosted, tool, h.next]
  intro r hr
  rw [Function.update_of_ne hr]
  revert r
  refine forall_ne_hosted ⟨rfl, rfl, rfl⟩ ⟨rfl, rfl, rfl⟩ (fun _ => ⟨rfl, rfl, rfl⟩) fun k' hk => ?_
  simp [t, place, held, named, setHosted, nextIndex, AList.lookup_insert_ne hk]

theorem addHosted_next (h : s.Consistent) (output : ResponsesOutput) :
    (s.addHosted output).nextOutputIndex = (s.addHosted output).outputOrder.length := by
  let tool : HostedTool := { outputIndex := s.nextOutputIndex, output }
  let t := (s.nextIndex (.hosted output.id)).setHosted output.id tool
  obtain ⟨hnext, horder, -⟩ := ensureCreated_items t
  show t.ensureCreated.nextOutputIndex = t.ensureCreated.outputOrder.length
  rw [hnext, horder]
  simp [t, setHosted, nextIndex, h.next]

theorem addHosted_lookup (s : ChatToResponsesStreamState) (output : ResponsesOutput) :
    (s.addHosted output).hostedByID.lookup output.id =
      some { outputIndex := s.nextOutputIndex, output } := by
  unfold addHosted ensureCreated
  dsimp only
  split <;> exact AList.lookup_insert _

theorem consistent_describeHosted {output : ResponsesOutput}
    (hnext : s.nextOutputIndex = s.outputOrder.length)
    (hlookup : s.hostedByID.lookup output.id = some tool) (houtput : tool.output = output)
    (hopen : tool.done = false) (htype : output.type = .webSearchCall ∨ output.type = .mcpCall)
    (h : Items s.outputOrder s.place (Function.update s.held (.hosted output.id) {}) s.named s.sent) :
    (s.describeHosted output tool.outputIndex).Consistent := by
  have hplace : s.place (.hosted output.id) = some tool.outputIndex := by simp [place, hlookup]
  have hheld : s.held (.hosted output.id) = ⟨itemValue output, false⟩ := by
    simp [held, hlookup, houtput, hopen]
  unfold describeHosted
  dsimp only
  rcases htype with htype | htype
  · have hempty : Function.update s.held (.hosted output.id) {} = s.held := by
      rw [Function.update_eq_self_iff, hheld]
      simp [itemValue, htype]
    rw [hempty] at h
    rw [if_pos htype, if_neg (by simp [htype])]
    refine ⟨hnext, ?_⟩
    exact (Items.event_skip (Items.event_skip h rfl) rfl)
  rw [if_pos htype, if_neg (by simp [htype])]
  refine ⟨hnext, ?_⟩
  refine Items.event_skip ?_ rfl
  refine Items.event_adding (r := .hosted output.id) (Items.event_skip h rfl) hplace rfl rfl ?_ ?_ ?_
  · simp
  · simp only [Function.update_self, List.nil_append]
    exact hheld.trans (by simp [itemValue, htype])
  intro r hr
  rw [Function.update_of_ne hr]
  rfl

theorem hostedOutput_ok {codec : HostedCodec} {start : HostedToolStreamStart}
    {output : ResponsesOutput} (h : hostedOutput codec start = .ok output) :
    output.type = start.type ∧ output.id = trimSpace start.id := by
  unfold hostedOutput at h
  split at h
  · split at h <;> cases h
    exact ⟨rfl, rfl⟩
  · split at h
    · cases h
    · split at h <;> cases h
      exact ⟨rfl, rfl⟩
  · cases h
  · cases h
    exact ⟨rfl, rfl⟩

theorem checkHostedStart_ok {codec : HostedCodec} {start : HostedToolStreamStart}
    {output : ResponsesOutput} (h : s.checkHostedStart codec start = .ok output) :
    s.hostedByID.lookup output.id = none ∧
      (output.type = .webSearchCall ∨ output.type = .mcpCall) := by
  unfold checkHostedStart at h
  dsimp only at h
  split_ifs at h with hid hdup htype hcaller
  obtain ⟨ht, hi⟩ := hostedOutput_ok h
  rw [ht, hi]
  refine ⟨by simpa using hdup, ?_⟩
  by_contra hnot
  exact htype (not_or.1 hnot)

theorem consistent_startHostedTool (codec : HostedCodec) (start : HostedToolStreamStart)
    (h : s.Consistent) : (s.startHostedTool codec start).2.Consistent := by
  unfold startHostedTool
  split
  · exact h
  rename_i output hcheck
  obtain ⟨hnone, htype⟩ := checkHostedStart_ok hcheck
  exact consistent_describeHosted (addHosted_next h output) (addHosted_lookup s output) rfl rfl htype
    (items_addHosted h hnone)

theorem completeHostedOutput_same (codec : HostedCodec) (tool : HostedTool)
    (result : HostedToolStreamResult) :
    (completeHostedOutput codec tool result).2.outputIndex = tool.outputIndex ∧
      itemIdentity (completeHostedOutput codec tool result).2.output = itemIdentity tool.output ∧
      itemValue (completeHostedOutput codec tool result).2.output = itemValue tool.output ∧
      (completeHostedOutput codec tool result).2.done =
        (tool.done || (completeHostedOutput codec tool result).1.isNone) := by
  unfold completeHostedOutput
  dsimp only
  split
  · simp [itemIdentity, itemValue]
  · split
    · simp [itemIdentity, itemValue]
    · split <;> simp [itemIdentity, itemValue]
  · split <;> simp [itemIdentity, itemValue]

theorem items_hostedEnd {order : List OutputRef} {place : OutputRef → Option Int}
    {held : OutputRef → Held UInt8} {named : OutputRef → OutputType × String}
    (h : Items order place held named s.sent) (tool : HostedTool) (itemID : String) (failed : Bool) :
    Items order place held named (s.hostedEnd tool itemID failed).sent := by
  unfold hostedEnd
  split
  · exact h.event_skip rfl
  · exact h

theorem hostedEnd_items (s : ChatToResponsesStreamState) (tool : HostedTool) (itemID : String)
    (failed : Bool) : (s.hostedEnd tool itemID failed).nextOutputIndex = s.nextOutputIndex ∧
      (s.hostedEnd tool itemID failed).outputOrder = s.outputOrder ∧
      (s.hostedEnd tool itemID failed).place = s.place ∧
      (s.hostedEnd tool itemID failed).held = s.held ∧
      (s.hostedEnd tool itemID failed).named = s.named := by
  unfold hostedEnd
  split <;> exact ⟨rfl, rfl, rfl, rfl, rfl⟩

/-- The call `k` ends as `tool'`, in `t` and with the event `e`. -/
structure HostedDone (s t : ChatToResponsesStreamState) (k : String) (tool tool' : HostedTool)
    (e : StreamEvent) : Prop where
  lookup : s.hostedByID.lookup k = some tool
  wasOpen : tool.done = false
  done : tool'.done = true
  index : tool'.outputIndex = tool.outputIndex
  id : itemIdentity tool'.output = itemIdentity tool.output
  value : itemValue tool'.output = itemValue tool.output
  items : s.Consistent → Items s.outputOrder s.place s.held s.named t.sent
  next : t.nextOutputIndex = s.nextOutputIndex
  order : t.outputOrder = s.outputOrder
  place : t.place = (s.setHosted k tool').place
  held : t.held = (s.setHosted k tool').held
  named : t.named = (s.setHosted k tool').named
  mark : itemMark e = some .closed
  at_ : e.outputIndex = some tool'.outputIndex

theorem HostedDone.consistent {t : ChatToResponsesStreamState} {e : StreamEvent}
    (hd : HostedDone s t k tool tool' e) (h : s.Consistent) : (t.event e).Consistent := by
  refine ⟨(hd.next.trans h.next).trans (by rw [← hd.order]; rfl), ?_⟩
  show Items t.outputOrder t.place t.held t.named (t.event e).sent
  rw [hd.order, hd.place, hd.held, hd.named, place_setHosted hd.lookup hd.index,
    named_setHosted hd.lookup hd.id]
  refine (hd.items h).event_closing (r := .hosted k) (i := tool.outputIndex) ?_ hd.mark
    (by rw [hd.at_, hd.index]) ?_ ?_ (held_setHosted_ne s k tool')
  · simp [ChatToResponsesStreamState.place, hd.lookup]
  · simp [ChatToResponsesStreamState.held, hd.lookup, hd.wasOpen]
  · rw [held_setHosted, hd.value, hd.done]
    simp [ChatToResponsesStreamState.held, hd.lookup]

theorem consistent_completeHostedTool (codec : HostedCodec) (result : HostedToolStreamResult)
    (h : s.Consistent) : (s.completeHostedTool codec result).2.Consistent := by
  unfold completeHostedTool
  dsimp only
  split
  · exact h
  rename_i tool hlookup
  obtain ⟨hindex, hid, hvalue, hdone⟩ := completeHostedOutput_same codec tool result
  split_ifs with hclosed htype
  · exact h
  · exact h
  have hopen : tool.done = false := by simpa using hclosed
  split
  · rename_i e tool' hcomplete
    rw [hcomplete] at hindex hid hvalue hdone
    have hopen' : tool'.done = false := by simpa [hopen] using hdone
    refine ⟨h.next, ?_⟩
    have hheld : (s.setHosted (trimSpace result.id) tool').held = s.held := by
      funext r
      by_cases hr : r = .hosted (trimSpace result.id)
      · rw [hr, held_setHosted, hopen']
        simp [held, hlookup, hopen, hvalue]
      · exact held_setHosted_ne s _ tool' r hr
    rw [place_setHosted hlookup hindex, named_setHosted hlookup hid, hheld]
    exact h.items
  rename_i tool' hcomplete
  rw [hcomplete] at hindex hid hvalue hdone
  have hdone' : tool'.done = true := by simpa using hdone
  let t := s.setHosted (trimSpace result.id) tool'
  let failed : Bool := result.isError || decide (trimSpace result.errorCode ≠ "")
  obtain ⟨hnext, horder, hplace, hheld, hnamed⟩ :=
    hostedEnd_items t tool' (trimSpace result.id) failed
  exact HostedDone.consistent ⟨hlookup, hopen, hdone', hindex, hid, hvalue,
    fun h => items_hostedEnd (s := t) h.items tool' _ failed, hnext, horder, hplace, hheld, hnamed,
    rfl, rfl⟩ h

end

/-! ### Ends of items -/

/-- From `s` to `s'` items were only ended, and those of `P` that exist were. -/
structure Ends (P : OutputRef → Prop) (s s' : ChatToResponsesStreamState) : Prop where
  consistent : s.Consistent → s'.Consistent
  order : s'.outputOrder = s.outputOrder
  place : s'.place = s.place
  keeps : ∀ r, (s.held r).closed = true → (s'.held r).closed = true
  ended : ∀ r, P r → s.place r ≠ none → (s'.held r).closed = true

theorem Ends.refl {P : OutputRef → Prop} (s : ChatToResponsesStreamState)
    (hP : ∀ r, P r → s.place r ≠ none → (s.held r).closed = true) : Ends P s s :=
  ⟨fun h => h, rfl, rfl, fun _ h => h, hP⟩

theorem Ends.trans {P Q : OutputRef → Prop} {s'' : ChatToResponsesStreamState} (h : Ends P s s')
    (h' : Ends Q s' s'') : Ends (fun r => P r ∨ Q r) s s'' := by
  refine ⟨fun hs => h'.consistent (h.consistent hs), h'.order.trans h.order, h'.place.trans h.place,
    fun r hr => h'.keeps r (h.keeps r hr), ?_⟩
  rintro r (hP | hQ) hr
  · exact h'.keeps r (h.ended r hP hr)
  · exact h'.ended r hQ (by rwa [h.place])

theorem Ends.mono {P Q : OutputRef → Prop} (h : Ends P s s') (hQ : ∀ r, Q r → P r) : Ends Q s s' :=
  { h with ended := fun r hr => h.ended r (hQ r hr) }

theorem ends_foldl {β : Type*} {P : β → OutputRef → Prop}
    {f : ChatToResponsesStreamState → β → ChatToResponsesStreamState}
    (hf : ∀ s b, Ends (P b) s (f s b)) (bs : List β) (s : ChatToResponsesStreamState) :
    Ends (fun r => ∃ b ∈ bs, P b r) s (bs.foldl f s) := by
  induction bs generalizing s with
  | nil => exact .refl s (by simp)
  | cons b bs ih =>
    refine ((hf s b).trans (ih (f s b))).mono ?_
    rintro r ⟨b', hb', hP⟩
    rcases List.mem_cons.1 hb' with rfl | hb'
    · exact .inl hP
    · exact .inr ⟨b', hb', hP⟩

/-- One item is closed, and the others stay as they are. -/
theorem ends_of_closed {r₀ : OutputRef} (hconsistent : s.Consistent → s'.Consistent)
    (horder : s'.outputOrder = s.outputOrder) (hplace : s'.place = s.place)
    (hclosed : (s'.held r₀).closed = true) (hother : ∀ r, r ≠ r₀ → s'.held r = s.held r) :
    Ends (· = r₀) s s' := by
  refine ⟨hconsistent, horder, hplace, fun r hr => ?_, ?_⟩
  · by_cases hr₀ : r = r₀
    · rwa [hr₀]
    · rwa [hother r hr₀]
  · rintro r rfl -
    exact hclosed

variable (s)

theorem ends_closeText (status : Status) : Ends (· = .message) s (s.closeText status) := by
  unfold closeText
  split
  · rename_i hopen
    obtain ⟨hstart, hdone⟩ := hopen
    refine ends_of_closed (fun h => ⟨h.next, ?_⟩) rfl rfl rfl
      (forall_ne_message rfl (fun _ => rfl) fun _ => rfl)
    refine Items.event_closing (r := .message) (i := s.textOutputIndex)
      (Items.event_skip h.items rfl) ?_ rfl rfl ?_ rfl
      (forall_ne_message rfl (fun _ => rfl) fun _ => rfl)
    · simp [place, event, hstart]
    · simpa [held] using hdone
  rename_i hopen
  refine .refl s ?_
  rintro r rfl hr
  by_contra hdone
  apply hopen
  refine ⟨?_, hdone⟩
  by_contra hstart
  exact hr (by simp [place, hstart])

theorem ends_closeReasoning (status : Status) :
    Ends (· = .reasoning) s (s.closeReasoning status) := by
  unfold closeReasoning
  split
  · rename_i hopen
    obtain ⟨hstart, hdone⟩ := hopen
    refine ends_of_closed (fun h => ⟨h.next, ?_⟩) rfl rfl rfl
      (forall_ne_reasoning rfl (fun _ => rfl) fun _ => rfl)
    refine Items.event_closing (r := .reasoning) (i := s.reasoningIndex)
      (Items.event_skip h.items rfl) ?_ rfl rfl ?_ rfl
      (forall_ne_reasoning rfl (fun _ => rfl) fun _ => rfl)
    · simp [place, event, hstart]
    · simpa [held] using hdone
  rename_i hopen
  refine .refl s ?_
  rintro r rfl hr
  by_contra hdone
  apply hopen
  refine ⟨?_, hdone⟩
  by_contra hstart
  exact hr (by simp [place, hstart])

variable {s}

theorem ends_closeTool (status : Status) (s : ChatToResponsesStreamState) (k : Int) :
    Ends (· = .tool k) s (closeTool status s k) := by
  unfold closeTool
  split
  · rename_i tool hlookup
    split
    · rename_i hdone
      refine .refl s ?_
      rintro r rfl -
      simp [held, hlookup, hdone]
    rename_i hdone
    have hopen : tool.done = false := by simpa using hdone
    let ended := { tool with done := true }
    have hplace : (s.setTool k ended).place = s.place := place_setTool hlookup rfl
    have hnamed : (s.setTool k ended).named = s.named := named_setTool hlookup rfl
    have hheld : (s.setTool k ended).held (.tool k) = ⟨tool.arguments, true⟩ := held_setTool s k ended
    refine ends_of_closed (fun h => ⟨h.next, ?_⟩) rfl hplace (congrArg Held.closed hheld)
      (held_setTool_ne s k ended)
    show Items s.outputOrder (s.setTool k ended).place (s.setTool k ended).held
      (s.setTool k ended).named (((s.setTool k ended).event _).event _).sent
    rw [hplace, hnamed]
    have hitems : Items s.outputOrder s.place s.held s.named (s.setTool k ended).sent := h.items
    refine Items.event_closing (r := .tool k) (i := tool.outputIndex) (hitems.event_skip rfl)
      ?_ rfl rfl ?_ ?_ (held_setTool_ne s k ended)
    · simp [place, hlookup]
    · simp [held, hlookup, hopen]
    · rw [hheld]
      simp [held, hlookup]
  rename_i hnone
  refine .refl s ?_
  rintro r rfl hr
  exact absurd (by simp [place, hnone]) hr

theorem abandonHosted_same (tool : HostedTool) (failed : Bool) :
    (abandonHosted tool failed).outputIndex = tool.outputIndex ∧
      itemIdentity (abandonHosted tool failed).output = itemIdentity tool.output ∧
      itemValue (abandonHosted tool failed).output = itemValue tool.output := by
  unfold abandonHosted
  split_ifs <;> exact ⟨rfl, rfl, rfl⟩

theorem HostedDone.ends {k : String} {tool tool' : HostedTool} {t : ChatToResponsesStreamState}
    {e : StreamEvent} (hd : HostedDone s t k tool tool' e) :
    Ends (· = .hosted k) s (t.event e) := by
  refine ends_of_closed hd.consistent hd.order
    (hd.place.trans (place_setHosted hd.lookup hd.index)) ?_ fun r hr => ?_
  · show (t.held (.hosted k)).closed = true
    rw [hd.held, held_setHosted, hd.done]
  · show t.held r = s.held r
    rw [hd.held, held_setHosted_ne s k tool' r hr]

theorem ends_closeHosted (s : ChatToResponsesStreamState) (ref : OutputRef) :
    Ends (fun r => r = ref ∧ ∃ id, ref = .hosted id) s (s.closeHosted ref) := by
  unfold closeHosted
  split
  · rename_i k
    split
    · rename_i tool hlookup
      split
      · rename_i hdone
        refine .refl s ?_
        rintro r ⟨rfl, -⟩ -
        simp [held, hlookup, hdone]
      rename_i hdone
      have hopen : tool.done = false := by simpa using hdone
      generalize decide (s.status = .failed) = failed
      obtain ⟨hindex, hid, hvalue⟩ := abandonHosted_same tool failed
      refine Ends.mono (P := (· = .hosted k)) ?_ fun r hr => hr.1
      cases failed with
      | true =>
        let tool' := abandonHosted tool true
        obtain ⟨hnext, horder, hplace, hheld, hnamed⟩ :=
          hostedEnd_items (s.setHosted k tool') tool' tool'.output.id true
        exact HostedDone.ends ⟨hlookup, hopen, rfl, hindex, hid, hvalue,
          fun h => items_hostedEnd (s := s.setHosted k tool') h.items tool' _ true,
          hnext, horder, hplace, hheld, hnamed, rfl, rfl⟩
      | false =>
        exact HostedDone.ends ⟨hlookup, hopen, rfl, hindex, hid, hvalue, fun h => h.items,
          rfl, rfl, rfl, rfl, rfl, rfl, rfl⟩
    rename_i hnone
    refine .refl s ?_
    rintro r ⟨rfl, -⟩ hr
    exact absurd (by simp [place, hnone]) hr
  rename_i href
  refine .refl s ?_
  rintro r ⟨rfl, id, rfl⟩
  exact absurd rfl (href id)

theorem mem_sortedTools {k : Int} (h : s.place (.tool k) ≠ none) : k ∈ s.sortedTools := by
  unfold sortedTools
  rw [List.mem_insertionSort, ← AList.mem_keys, ← AList.lookup_isSome]
  simpa [place, Option.isSome_iff_ne_none] using h

theorem ends_doneDeltaEvents (s : ChatToResponsesStreamState) :
    Ends (· ∈ s.outputOrder) s s.doneDeltaEvents := by
  let t := (s.closeText s.outputStatus).closeReasoning s.outputStatus
  let u := t.sortedTools.foldl (closeTool s.outputStatus) t
  have htexts : Ends _ s t := (ends_closeText s _).trans (ends_closeReasoning _ _)
  have htools : Ends _ s u := htexts.trans (ends_foldl (ends_closeTool _) t.sortedTools t)
  have hall := htools.trans (ends_foldl ends_closeHosted u.outputOrder u)
  refine { hall with ended := fun r hr hplace => hall.ended r ?_ hplace }
  cases r with
  | message => exact .inl (.inl (.inl rfl))
  | reasoning => exact .inl (.inl (.inr rfl))
  | tool k =>
    rw [← htexts.place] at hplace
    exact .inl (.inr ⟨k, mem_sortedTools hplace, rfl⟩)
  | hosted id => exact .inr ⟨.hosted id, htools.order ▸ hr, rfl, id, rfl⟩

end ChatToResponsesStreamState

end NewApi.Convert
