/-
  NewApi.Convert.ChatRoundTrip

  A chat stream through Responses and back.

  `Mirror` goes along the two converters: the second one has read every event the
  first has sent, and shows its client what was read from the chunks so far.  The
  deltas keep it one by one.  The done events and the terminal event only repeat what
  was shown, and the second converter sends none of it again.
-/

import NewApi.Convert.ChatToResponsesItems
import NewApi.Convert.ResponsesToChatReply

namespace NewApi.Convert

open List (flatMap_cons map_append map_map map_set mem_append mem_cons_of_mem mem_cons_self
  mem_map mem_map_of_mem mem_singleton)
open NewApi.Lib
open NewApi.Subscription (trimSpace trimSpace_trimSpace)

/-! ## Chat streams -/

/-- A delta that goes on with a tool call, or begins one with a name and an id that no
    other has. -/
def Fits (calls : List ToolCall) (delta : ToolCall) : Prop :=
  (∀ call ∈ calls, call.chatIndex = delta.chatIndex →
    (trimSpace delta.id = "" ∨ trimSpace delta.id = trimSpace call.id) ∧
      (trimSpace delta.name = "" ∨ trimSpace delta.name = trimSpace call.name)) ∧
  ((∀ call ∈ calls, call.chatIndex ≠ delta.chatIndex) →
    trimSpace delta.id ≠ "" ∧ trimSpace delta.name ≠ "" ∧
      ∀ call ∈ calls, trimSpace call.id ≠ trimSpace delta.id)

instance (calls : List ToolCall) (delta : ToolCall) : Decidable (Fits calls delta) :=
  inferInstanceAs (Decidable (_ ∧ _))

/-- The choice has neither content nor a finish reason. -/
structure ChatChoice.Blank (choice : ChatChoice) : Prop where
  text : choice.delta.getContentString = []
  reasoning : choice.delta.getReasoningContent = []
  toolCalls : choice.delta.toolCalls = []
  reason : choice.reason = none

/-- The choices of a stream with one finish reason, after all content. -/
structure ChatStream (choices : List ChatChoice) (reason : String) : Prop where
  annotations : ∀ choice ∈ choices, choice.delta.annotations ≠ .invalid
  named : Meets Fits addToolCall [] (choices.flatMap (·.delta.toolCalls))
  finish : ∃ before last after, choices = before ++ last :: after ∧
    (∀ choice ∈ before, choice.reason = none) ∧ last.reason = some reason ∧
    ∀ choice ∈ after, choice.Blank
  reason : reason = "length" ∨ reason = "content_filter" ∨
    reason = if choices.flatMap (·.delta.toolCalls) = [] then "stop" else "tool_calls"

/-! ## The two converters side by side -/

def OutputRef.isCall : OutputRef → Bool
  | .tool _ | .hosted _ => true
  | .message | .reasoning => false

def StreamTool.announced (t : StreamTool) : Announced where
  outputIndex := t.outputIndex
  id := t.itemID
  name := t.name
  arguments := t.arguments

def StreamTool.call (t : StreamTool) : ToolCall where
  index := some t.chatIndex
  id := t.itemID
  name := t.name
  arguments := t.arguments

def StreamTool.extend (t : StreamTool) (delta : Bytes) : StreamTool :=
  { t with arguments := t.arguments ++ delta }

/-- The tools of a state, in the order of their items, and no hosted calls. -/
structure Tools (tools : List StreamTool) (byIndex : AList fun _ : Int => StreamTool)
    (order : List OutputRef) (next : Nat) : Prop where
  of_mem : ∀ t ∈ tools, byIndex.lookup t.chatIndex = some t
  of_lookup : ∀ k t, byIndex.lookup k = some t → t ∈ tools ∧ t.chatIndex = k
  order : order.filter OutputRef.isCall = tools.map fun t => .tool t.chatIndex
  below : ∀ t ∈ tools, t.outputIndex < next
  own : ∀ t ∈ tools, t.callID = t.itemID
  nodup : (tools.map (·.chatIndex)).Nodup

def statusAfter : List String → Status × Option String
  | [] => (.completed, none)
  | reason :: _ => responsesStatusFromChatFinishReason reason

/-- The second converter, started in `c₀`, has read every event the first one has
    sent, and shows what was read from the chunks. -/
structure Mirror (c₀ : ResponsesToChatStreamState) (input : ChatReply) (tools : List StreamTool)
    (s : ChatToResponsesStreamState) (c : ResponsesToChatStreamState) : Prop where
  fed : tryRun ResponsesToChatStreamState.convertEvent c₀ s.sent = .ok c
  shows : c.Shows (tools.map StreamTool.announced) input.text input.reasoning
  items : Tools tools s.toolsByIndex s.outputOrder s.nextOutputIndex
  text : s.text = input.text
  reasoning : s.reasoning = input.reasoning
  calls : input.toolCalls.map ToolCall.trimmed = tools.map StreamTool.call
  going : input.finishReasons = [] → c.needsReasoningSummaryBreak = false ∧ ∀ t ∈ tools, t.done = false
  status : (s.status, s.incompleteDetails) = statusAfter input.finishReasons
  finalized : s.finalized = false

section
open ChatToResponsesStreamState ResponsesToChatStreamState

variable {c₀ c c' : ResponsesToChatStreamState} {s : ChatToResponsesStreamState} {input : ChatReply}
  {tools : List StreamTool}

theorem convertEvent_numbered (c : ResponsesToChatStreamState) (s : ChatToResponsesStreamState)
    (e : StreamEvent) : c.convertEvent (s.numbered e) = c.convertEvent e := by
  unfold numbered
  split
  · rfl
  · rfl

theorem fed_event {e : StreamEvent}
    (h : tryRun ResponsesToChatStreamState.convertEvent c₀ s.sent = .ok c)
    (hc : c.convertEvent e = .ok c') :
    tryRun ResponsesToChatStreamState.convertEvent c₀ (s.event e).sent = .ok c' := by
  refine tryRun_append_eq_ok.2 ⟨c, h, ?_⟩
  rw [tryRun_singleton, convertEvent_numbered]
  exact hc

theorem Mirror.skip (h : Mirror c₀ input tools s c) {e : StreamEvent}
    (he : c.convertEvent e = .ok c) : Mirror c₀ input tools (s.event e) c :=
  { h with fed := fed_event h.fed he }

variable {byIndex : AList fun _ : Int => StreamTool} {order : List OutputRef} {next : Nat}

theorem Tools.nextItem
    (h : Tools tools byIndex order next) {ref : OutputRef} (href : ref.isCall = false) :
    Tools tools byIndex (order ++ [ref]) (next + 1) := by
  refine { h with order := ?_, below := fun t ht => ?_ }
  · rw [List.filter_append, h.order, List.filter_singleton, href]
    exact List.append_nil _
  have hlt := h.below t ht
  push_cast
  omega

section
variable (h : Mirror c₀ input tools s c)
include h

theorem Mirror.startText : Mirror c₀ input tools s.startText c := by
  unfold ChatToResponsesStreamState.startText
  split
  · exact h
  have hnext : Mirror c₀ input tools
      { s.nextIndex .message with textStarted := true, textOutputIndex := s.nextOutputIndex } c :=
    { h with items := h.items.nextItem rfl }
  exact hnext.skip rfl

theorem Mirror.startReasoning : Mirror c₀ input tools s.startReasoning c := by
  unfold ChatToResponsesStreamState.startReasoning
  split
  · exact h
  have hnext : Mirror c₀ input tools
      { s.nextIndex .reasoning with reasoningStarted := true, reasoningIndex := s.nextOutputIndex } c :=
    { h with items := h.items.nextItem rfl }
  exact hnext.skip rfl

theorem Mirror.appendText {delta : Bytes} (hdelta : delta ≠ []) :
    ∃ c', Mirror c₀ { input with text := input.text ++ delta } tools (s.appendTextDelta delta) c' := by
  have hstart := h.startText
  refine ⟨c.textDelta delta, ?_⟩
  exact
    { hstart with
      fed := fed_event (s := { s.startText with text := s.startText.text ++ delta }) hstart.fed rfl
      shows := hstart.shows.textDelta hdelta
      text := congrArg (· ++ delta) hstart.text
      going := fun hgoing =>
        ⟨(textDelta_break c delta).trans (hstart.going hgoing).1, (hstart.going hgoing).2⟩ }

theorem Mirror.appendReasoning (hgoing : input.finishReasons = []) {delta : Bytes}
    (hdelta : delta ≠ []) :
    ∃ c', Mirror c₀ { input with reasoning := input.reasoning ++ delta } tools
      (s.appendReasoningDelta delta) c' := by
  have hstart := h.startReasoning
  refine ⟨c.reasoningDelta delta, ?_⟩
  exact
    { hstart with
      fed := fed_event (s := { s.startReasoning with reasoning := s.startReasoning.reasoning ++ delta })
        hstart.fed rfl
      shows := hstart.shows.reasoningDelta (h.going hgoing).1 hdelta
      reasoning := congrArg (· ++ delta) hstart.reasoning
      going := fun hgoing => ⟨reasoningDelta_break c hdelta, (hstart.going hgoing).2⟩ }

theorem Mirror.annotationAdded (a : Annotation) :
    ∃ c', Mirror c₀ input tools (s.annotationAdded a) c' := by
  obtain ⟨c', hc', hshows, hbreak⟩ := h.shows.annotationDelta a
  refine ⟨c', ?_⟩
  exact
    { h with
      fed := fed_event (s := { s with annotations := s.annotations ++ [a] }) h.fed hc'
      shows := hshows
      going := fun hgoing => ⟨hbreak.trans (h.going hgoing).1, (h.going hgoing).2⟩ }

omit h in
theorem Mirror.annotationsAdded (annotations : List Annotation) (h : Mirror c₀ input tools s c) :
    ∃ c', Mirror c₀ input tools (annotations.foldl ChatToResponsesStreamState.annotationAdded s) c' := by
  induction annotations generalizing s c with
  | nil => exact ⟨c, h⟩
  | cons a annotations ih =>
    obtain ⟨c₁, h₁⟩ := h.annotationAdded a
    exact ih h₁

theorem Mirror.appendAnnotations {delta : ChatDelta} (hvalid : delta.annotations ≠ .invalid) :
    ∃ s' c', s.appendAnnotations delta = .ok s' ∧ Mirror c₀ input tools s' c' := by
  unfold ChatToResponsesStreamState.appendAnnotations
  split
  · exact ⟨s, c, rfl, h⟩
  cases hraw : delta.annotations with
  | absent => exact ⟨s.startText, c, rfl, h.startText⟩
  | invalid => exact absurd hraw hvalid
  | list annotations =>
    obtain ⟨c', h'⟩ := h.startText.annotationsAdded (annotations.map flattenCitation)
    exact ⟨_, c', rfl, h'⟩

end

/-! ### Tool calls -/

variable {i : Nat}

theorem Mirror.at_call (h : Mirror c₀ input tools s c) {call : ToolCall}
    (hi : input.toolCalls[i]? = some call) : ∃ t, tools[i]? = some t ∧ call.trimmed = t.call := by
  have hmap := congrArg (·[i]?) h.calls
  simp only [List.getElem?_map, hi, Option.map_some] at hmap
  obtain ⟨t, ht, hcall⟩ := Option.map_eq_some_iff.1 hmap.symm
  exact ⟨t, ht, hcall.symm⟩

theorem Mirror.chatIndexes (h : Mirror c₀ input tools s c) :
    input.toolCalls.map ToolCall.chatIndex = tools.map (·.chatIndex) := by
  have hmap := congrArg (List.map ToolCall.chatIndex) h.calls
  rw [map_map, map_map] at hmap
  exact hmap

variable {t : StreamTool}

theorem Mirror.named (h : Mirror c₀ input tools s c) (ht : t ∈ tools) : t.announced.Named :=
  h.shows.named _ (mem_map_of_mem ht)

theorem map_set_of_eq {α β : Type*} {f : α → β} {l : List α} {a b : α} (hi : l[i]? = some a)
    (hf : f b = f a) : (l.set i b).map f = l.map f := by
  ext1 j
  rw [List.getElem?_map, List.getElem?_map]
  by_cases hij : i = j
  · subst hij
    rw [List.getElem?_set_self (List.getElem?_eq_some_iff.1 hi).1, hi, Option.map_some, Option.map_some, hf]
  · rw [List.getElem?_set_ne hij]

theorem Tools.set (h : Tools tools byIndex order next) {t' : StreamTool} (hi : tools[i]? = some t)
    (hindex : t'.chatIndex = t.chatIndex) (houtput : t'.outputIndex = t.outputIndex)
    (hown : t'.callID = t'.itemID) :
    Tools (tools.set i t') (byIndex.insert t.chatIndex t') order next := by
  have hlt : i < tools.length := (List.getElem?_eq_some_iff.1 hi).1
  have hmap : (tools.set i t').map (·.chatIndex) = tools.map (·.chatIndex) := map_set_of_eq hi hindex
  have hmem : ∀ u ∈ tools.set i t', u = t' ∨ (u ∈ tools ∧ u.chatIndex ≠ t.chatIndex) := by
    intro u hu
    obtain ⟨j, hj⟩ := List.getElem?_of_mem hu
    by_cases hij : i = j
    · subst hij
      rw [List.getElem?_set_self hlt] at hj
      exact .inl (Option.some.inj hj).symm
    rw [List.getElem?_set_ne hij] at hj
    refine .inr ⟨List.mem_of_getElem? hj, fun hsame => hij ?_⟩
    have hi' : (tools.map (·.chatIndex))[i]? = some t.chatIndex := by
      rw [List.getElem?_map, hi]
      rfl
    have hj' : (tools.map (·.chatIndex))[j]? = some t.chatIndex := by
      rw [List.getElem?_map, hj, ← hsame]
      rfl
    have hlen : i < (tools.map (·.chatIndex)).length := by simpa using hlt
    exact (List.getElem?_inj hlen h.nodup).1 (hi'.trans hj'.symm)
  refine ⟨fun u hu => ?_, fun k u hk => ?_, ?_, fun u hu => ?_, fun u hu => ?_, ?_⟩
  · rcases hmem u hu with rfl | ⟨hu, hne⟩
    · rw [hindex, AList.lookup_insert]
    · rw [AList.lookup_insert_ne hne]
      exact h.of_mem u hu
  · by_cases hk' : k = t.chatIndex
    · subst hk'
      rw [AList.lookup_insert] at hk
      cases hk
      exact ⟨List.mem_set hlt _, hindex⟩
    rw [AList.lookup_insert_ne hk'] at hk
    obtain ⟨hu, hku⟩ := h.of_lookup k u hk
    obtain ⟨j, hj⟩ := List.getElem?_of_mem hu
    have hij : i ≠ j := by
      rintro rfl
      cases hi.symm.trans hj
      exact hk' hku.symm
    refine ⟨List.mem_of_getElem? (i := j) ?_, hku⟩
    rw [List.getElem?_set_ne hij]
    exact hj
  · have href := congrArg (List.map OutputRef.tool) hmap
    rw [map_map, map_map] at href
    exact h.order.trans href.symm
  · rcases hmem u hu with rfl | ⟨hu, -⟩
    · rw [houtput]
      exact h.below t (List.mem_of_getElem? hi)
    · exact h.below u hu
  · rcases hmem u hu with rfl | ⟨hu, -⟩
    · exact hown
    · exact h.own u hu
  · rw [hmap]
    exact h.nodup

section
variable (h : Mirror c₀ input tools s c)
include h

theorem Mirror.addArguments (hgoing : input.finishReasons = []) (hi : tools[i]? = some t)
    (delta : Bytes) {calls : List ToolCall}
    (hcalls : calls.map ToolCall.trimmed = (tools.set i (t.extend delta)).map StreamTool.call) :
    ∃ c', Mirror c₀ { input with toolCalls := calls } (tools.set i (t.extend delta))
      (s.addArguments t.chatIndex t delta) c' := by
  obtain ⟨hbreak, hopen⟩ := h.going hgoing
  have hmem := List.mem_of_getElem? hi
  have hitems : Tools (tools.set i (t.extend delta)) (s.toolsByIndex.insert t.chatIndex (t.extend delta))
      s.outputOrder s.nextOutputIndex := h.items.set hi rfl rfl (h.items.own t hmem)
  have hdone : ∀ u ∈ tools.set i (t.extend delta), u.done = false := by
    intro u hu
    rcases List.mem_or_eq_of_mem_set hu with hu | rfl
    · exact hopen u hu
    · exact hopen t hmem
  unfold ChatToResponsesStreamState.addArguments
  split
  · rename_i hnil
    have hsame : t.extend delta = t := by
      simp [StreamTool.extend, hnil]
    have hset : tools.set i t = tools := by
      obtain ⟨hlt, hget⟩ := List.getElem?_eq_some_iff.1 hi
      rw [← hget, List.set_getElem_self]
    rw [hsame, hset] at hitems hcalls ⊢
    exact ⟨c, { h with items := hitems, calls := hcalls }⟩
  rename_i hne
  let e : StreamEvent :=
    { type := .functionArgsDelta, outputIndex := some t.outputIndex, itemID := t.itemID
      delta := delta }
  have hannounced : (tools.map StreamTool.announced)[i]? = some t.announced := by
    rw [List.getElem?_map, hi]
    rfl
  have hindex : e.outputIndex = some t.announced.outputIndex := rfl
  have hshows := h.shows.argumentsDelta hannounced hindex hne
  have hset : (tools.set i (t.extend delta)).map StreamTool.announced =
      (tools.map StreamTool.announced).set i (t.announced.extend delta) := map_set
  refine ⟨c.toolArgumentsDelta e, ?_⟩
  exact
    { h with
      fed := fed_event (s := s.setTool t.chatIndex (t.extend delta)) h.fed rfl
      shows := by
        rw [hset]
        exact hshows
      items := hitems
      calls := hcalls
      going := fun _ => ⟨(toolArgumentsDelta_break c e).trans hbreak, hdone⟩ }

omit h in
theorem Tools.append
    (h : Tools tools byIndex order next) (hnew : ∀ u ∈ tools, u.chatIndex ≠ t.chatIndex)
    (hindex : t.outputIndex = (next : Int)) (hown : t.callID = t.itemID) :
    Tools (tools ++ [t]) (byIndex.insert t.chatIndex t) (order ++ [.tool t.chatIndex]) (next + 1) := by
  refine ⟨fun u hu => ?_, fun k u hk => ?_, ?_, fun u hu => ?_, fun u hu => ?_, ?_⟩
  · rcases mem_append.1 hu with hu | hu
    · rw [AList.lookup_insert_ne (hnew u hu)]
      exact h.of_mem u hu
    · rw [mem_singleton.1 hu]
      exact AList.lookup_insert _
  · by_cases hk' : k = t.chatIndex
    · subst hk'
      rw [AList.lookup_insert] at hk
      cases hk
      exact ⟨by simp, rfl⟩
    rw [AList.lookup_insert_ne hk'] at hk
    obtain ⟨hu, hku⟩ := h.of_lookup k u hk
    exact ⟨List.mem_append_left _ hu, hku⟩
  · rw [List.filter_append, h.order, map_append]
    rfl
  · push_cast
    rcases mem_append.1 hu with hu | hu
    · have hlt := h.below u hu
      omega
    · rw [mem_singleton.1 hu, hindex]
      omega
  · rcases mem_append.1 hu with hu | hu
    · exact h.own u hu
    · rw [mem_singleton.1 hu]
      exact hown
  rw [map_append, List.nodup_append]
  refine ⟨h.nodup, by simp, ?_⟩
  intro k hk k' hk'
  obtain ⟨u, hu, rfl⟩ := mem_map.1 hk
  rw [mem_singleton.1 hk']
  exact hnew u hu

/-- The first delta of a tool call, without its arguments. -/
theorem Mirror.startTool (hgoing : input.finishReasons = []) {delta : ToolCall}
    (hnew : ∀ call ∈ input.toolCalls, call.chatIndex ≠ delta.chatIndex)
    (hid : trimSpace delta.id ≠ "") (hname : trimSpace delta.name ≠ "")
    (hids : ∀ call ∈ input.toolCalls, trimSpace call.id ≠ trimSpace delta.id) :
    ∃ t s₁ c₁, s.startTool delta.chatIndex delta = (t, s₁) ∧ t.chatIndex = delta.chatIndex ∧
      t.call = { delta.trimmed with arguments := [] } ∧ t.done = false ∧ t.callID = t.itemID ∧
      Mirror c₀ { input with toolCalls := input.toolCalls ++ [{ delta with arguments := [] }] }
        (tools ++ [t]) s₁ c₁ := by
  obtain ⟨hbreak, hopen⟩ := h.going hgoing
  let t := s.newTool delta.chatIndex delta
  let item : ResponsesOutput :=
    { type := .functionCall, id := t.itemID, status := .inProgress, callId := t.callIDOrItem
      name := t.name }
  let e : StreamEvent :=
    { type := .outputItemAdded, outputIndex := some t.outputIndex, itemID := t.itemID
      item := some item }
  have hitemID : t.itemID = trimSpace delta.id := if_neg hid
  have hcallID : t.callIDOrItem = trimSpace delta.id := if_neg hid
  have hchat : ∀ u ∈ tools, u.chatIndex ≠ delta.chatIndex := by
    intro u hu
    have hin : u.chatIndex ∈ input.toolCalls.map ToolCall.chatIndex := by
      rw [h.chatIndexes]
      exact mem_map_of_mem hu
    obtain ⟨call, hcall, heq⟩ := mem_map.1 hin
    rw [← heq]
    exact hnew call hcall
  have hidsOf : ∀ u ∈ tools, u.itemID ≠ trimSpace delta.id := by
    intro u hu
    have hin : u.call ∈ input.toolCalls.map ToolCall.trimmed := by
      rw [h.calls]
      exact mem_map_of_mem hu
    obtain ⟨call, hcall, heq⟩ := mem_map.1 hin
    have hsame : trimSpace call.id = u.itemID := congrArg ToolCall.id heq
    rw [← hsame]
    exact hids call hcall
  have hnone : s.toolsByIndex.lookup delta.chatIndex = none := by
    by_contra hsome
    obtain ⟨u, hu⟩ := Option.ne_none_iff_exists'.1 hsome
    obtain ⟨hmem, hindex⟩ := h.items.of_lookup _ u hu
    exact hchat u hmem hindex
  have hnamed : t.announced.Named := by
    refine ⟨?_, ?_, hname, trimSpace_trimSpace _⟩
    · rw [show t.announced.id = t.itemID from rfl, hitemID]
      exact hid
    · rw [show t.announced.id = t.itemID from rfl, hitemID]
      exact trimSpace_trimSpace _
  have hfresh : ∀ u ∈ tools.map StreamTool.announced,
      u.outputIndex ≠ t.announced.outputIndex ∧ u.id ≠ t.announced.id := by
    intro _ hmem
    obtain ⟨u, hu, rfl⟩ := mem_map.1 hmem
    refine ⟨(h.items.below u hu).ne, ?_⟩
    rw [show t.announced.id = t.itemID from rfl, hitemID]
    exact hidsOf u hu
  have hitem : e.item = some item := rfl
  have hindex : e.outputIndex = some t.announced.outputIndex := rfl
  have his : t.announced.Is item := ⟨rfl, hcallID.trans hitemID.symm, rfl, .inl rfl⟩
  have hshows := h.shows.itemNew hnamed rfl hfresh hitem hindex his
  have hcall : t.call = { delta.trimmed with arguments := [] } := by
    show ({ t.call with id := t.itemID } : ToolCall) = _
    rw [hitemID]
    rfl
  refine ⟨t, _, c.outputItem e, by rw [ChatToResponsesStreamState.startTool, hnone], rfl, hcall, rfl,
    hitemID.symm, ?_⟩
  exact
    { h with
      fed := fed_event (s := (s.nextIndex (.tool delta.chatIndex)).setTool delta.chatIndex t) h.fed rfl
      shows := by
        rw [map_append]
        exact hshows
      items := h.items.append hchat rfl hitemID.symm
      calls := by
        rw [map_append, map_append, h.calls, List.map_singleton, List.map_singleton, hcall]
        rfl
      going := fun _ => by
        refine ⟨(toolItem_break c e item).trans hbreak, fun u hu => ?_⟩
        rcases mem_append.1 hu with hu | hu
        · exact hopen u hu
        · rw [mem_singleton.1 hu]
          rfl }

omit h in
theorem identifyTool_same {delta : ToolCall} (hdone : t.done = false)
    (hid : trimSpace delta.id = "" ∨ trimSpace delta.id = t.callID)
    (hname : trimSpace delta.name = "" ∨ trimSpace delta.name = t.name) :
    identifyTool t delta = .ok t := by
  unfold identifyTool
  rw [if_neg (by simp [hdone])]
  rcases hid with hid | hid <;> rcases hname with hname | hname <;> simp [hid, hname]

/-- A delta of a tool call that fits in. -/
theorem Mirror.appendToolCall (hgoing : input.finishReasons = []) {delta : ToolCall}
    (hfits : Fits input.toolCalls delta) :
    ∃ s' tools' c', s.appendToolCallDelta delta = .ok s' ∧
      Mirror c₀ { input with toolCalls := addToolCall input.toolCalls delta } tools' s' c' := by
  unfold appendToolCallDelta
  rw [show delta.index.getD 0 = delta.chatIndex from rfl]
  by_cases hold : ∃ call ∈ input.toolCalls, call.chatIndex = delta.chatIndex
  · obtain ⟨call, hmemCall, hindex⟩ := hold
    obtain ⟨hid, hname⟩ := hfits.1 call hmemCall hindex
    obtain ⟨i, hi⟩ := List.getElem?_of_mem hmemCall
    obtain ⟨t, ht, hcall⟩ := h.at_call hi
    have hmem := List.mem_of_getElem? ht
    have htindex : t.chatIndex = call.chatIndex := (congrArg ToolCall.chatIndex hcall).symm
    have htid : trimSpace call.id = t.itemID := congrArg ToolCall.id hcall
    have htname : trimSpace call.name = t.name := congrArg ToolCall.name hcall
    have htargs : call.arguments = t.arguments := congrArg ToolCall.arguments hcall
    have hlookup : s.toolsByIndex.lookup delta.chatIndex = some t := by
      rw [← hindex, ← htindex]
      exact h.items.of_mem t hmem
    have hstart : s.startTool delta.chatIndex delta = (t, s) := by
      unfold ChatToResponsesStreamState.startTool
      rw [hlookup]
    have hsame : identifyTool t delta = .ok t := by
      refine identifyTool_same ((h.going hgoing).2 t hmem) ?_ ?_
      · rwa [h.items.own t hmem, ← htid]
      · rwa [← htname]
    have hnodup : (input.toolCalls.map ToolCall.chatIndex).Nodup := by
      rw [h.chatIndexes]
      exact h.items.nodup
    have hmerge : (call.merge delta).trimmed = (t.extend delta.arguments).call := by
      have hne : call.id ≠ "" := by
        intro hnil
        exact (h.named hmem).id (htid.symm.trans (by rw [hnil]; rfl))
      have hne' : call.name ≠ "" := by
        intro hnil
        exact (h.named hmem).name (htname.symm.trans (by rw [hnil]; rfl))
      simp [ToolCall.merge, ToolCall.trimmed, StreamTool.call, StreamTool.extend, hne, hne', htid, htname,
        htargs, htindex, ToolCall.chatIndex]
    have hcalls : (addToolCall input.toolCalls delta).map ToolCall.trimmed =
        (tools.set i (t.extend delta.arguments)).map StreamTool.call := by
      rw [addToolCall_known hnodup hi hindex, map_set, map_set, h.calls, hmerge]
    obtain ⟨c', h'⟩ := h.addArguments hgoing ht delta.arguments hcalls
    refine ⟨_, _, c', ?_, h'⟩
    dsimp only
    rw [hstart, hsame, ← hindex, ← htindex]
    rfl
  have hnew : ∀ call ∈ input.toolCalls, call.chatIndex ≠ delta.chatIndex :=
    fun call hcall hindex => hold ⟨call, hcall, hindex⟩
  obtain ⟨hid, hname, hids⟩ := hfits.2 hnew
  obtain ⟨t, s₁, c₁, hstart, hindex, hcall, hdone, hown, h₁⟩ := h.startTool hgoing hnew hid hname hids
  have htid : t.itemID = trimSpace delta.id := congrArg ToolCall.id hcall
  have htname : t.name = trimSpace delta.name := congrArg ToolCall.name hcall
  have htargs : t.arguments = [] := congrArg ToolCall.arguments hcall
  have hsame : identifyTool t delta = .ok t :=
    identifyTool_same hdone (.inr (htid.symm.trans hown.symm)) (.inr htname.symm)
  have hlast : (tools ++ [t])[tools.length]? = some t := List.getElem?_concat_length
  have hset : (tools ++ [t]).set tools.length (t.extend delta.arguments) =
      tools ++ [t.extend delta.arguments] := by
    rw [List.set_append_right _ _ (Nat.le_refl _), Nat.sub_self, List.set_cons_zero]
  have hcalls : (addToolCall input.toolCalls delta).map ToolCall.trimmed =
      ((tools ++ [t]).set tools.length (t.extend delta.arguments)).map StreamTool.call := by
    rw [addToolCall_new hnew, hset, map_append, map_append, h.calls]
    simp [ToolCall.trimmed, StreamTool.call, StreamTool.extend, htid, htname, htargs, hindex]
  obtain ⟨c', h'⟩ := h₁.addArguments hgoing hlast delta.arguments hcalls
  refine ⟨_, _, c', ?_, h'⟩
  dsimp only
  rw [hstart, hsame, ← hindex]
  rfl

theorem Mirror.appendToolCalls (hgoing : input.finishReasons = []) {deltas : List ToolCall}
    (hfits : Meets Fits addToolCall input.toolCalls deltas) :
    ∃ s' tools' c', deltas.foldlM appendToolCallDelta s = .ok s' ∧
      Mirror c₀ { input with toolCalls := deltas.foldl addToolCall input.toolCalls } tools' s' c' := by
  let Rel (calls : List ToolCall) (s : ChatToResponsesStreamState) : Prop :=
    ∃ tools c, Mirror c₀ { input with toolCalls := calls } tools s c
  have hstep : ∀ calls s delta, Rel calls s → Fits calls delta →
      ∃ s', appendToolCallDelta s delta = .ok s' ∧ Rel (addToolCall calls delta) s' := by
    rintro calls s delta ⟨tools, c, h⟩ hdelta
    obtain ⟨s', tools', c', hs', h'⟩ := h.appendToolCall hgoing hdelta
    exact ⟨s', hs', tools', c', h'⟩
  have hrel : Rel input.toolCalls s := ⟨tools, c, h⟩
  obtain ⟨s', hs', tools', c', h'⟩ := tryRun_follows Rel hstep hrel hfits
  rw [foldlM_eq_tryRun]
  exact ⟨s', tools', c', hs', h'⟩

end

/-! ### The end of the items -/

theorem Mirror.closeText (h : Mirror c₀ input tools s c) (status : Status) :
    Mirror c₀ input tools (s.closeText status) c := by
  unfold ChatToResponsesStreamState.closeText
  split
  · have hdone : Mirror c₀ input tools { s with textDone := true } c := { h with }
    exact (hdone.skip rfl).skip rfl
  · exact h

theorem Mirror.closeReasoning (h : Mirror c₀ input tools s c) (hended : input.finishReasons ≠ [])
    (status : Status) : ∃ c', Mirror c₀ input tools (s.closeReasoning status) c' := by
  unfold ChatToResponsesStreamState.closeReasoning
  split
  · have hpart : c.Shows (tools.map StreamTool.announced) input.text input.reasoning →
        c.endReasoningPart.Shows (tools.map StreamTool.announced) input.text input.reasoning := by
      intro hshows
      unfold endReasoningPart
      split
      · exact { hshows with }
      · exact hshows
    let e : StreamEvent :=
      { type := .reasoningSummaryDone, outputIndex := some s.reasoningIndex, summaryIndex := some 0
        itemID := s.reasoningID
        text := if s.emitSequenceNumber then some s.reasoning else none
        part := if s.emitSequenceNumber then none else some { text := s.reasoning } }
    have hdone : Mirror c₀ input tools ({ s with reasoningDone := true }.event e) c.endReasoningPart :=
      { h with
        fed := fed_event (s := { s with reasoningDone := true }) (e := e) h.fed rfl
        shows := hpart h.shows
        going := fun hgoing => absurd hgoing hended }
    exact ⟨_, hdone.skip rfl⟩
  · exact ⟨c, h⟩

theorem is_toolOutput (hown : t.callID = t.itemID) (status : Status) :
    t.announced.Is (toolOutput t status) := by
  refine ⟨rfl, ?_, rfl, .inr rfl⟩
  show t.callIDOrItem = t.itemID
  unfold StreamTool.callIDOrItem
  split
  · rfl
  · exact hown

theorem Mirror.closeTool (h : Mirror c₀ input tools s c) (hended : input.finishReasons ≠ [])
    (status : Status) (k : Int) :
    ∃ tools' c', Mirror c₀ input tools' (closeTool status s k) c' := by
  unfold ChatToResponsesStreamState.closeTool
  split
  · rename_i t hlookup
    split
    · exact ⟨tools, c, h⟩
    obtain ⟨hmem, hk⟩ := h.items.of_lookup k t hlookup
    obtain ⟨i, hi⟩ := List.getElem?_of_mem hmem
    have hown := h.items.own t hmem
    let t' := { t with done := true }
    have hannounced : (tools.set i t').map StreamTool.announced = tools.map StreamTool.announced :=
      map_set_of_eq hi rfl
    have hshown : t.announced ∈ tools.map StreamTool.announced := mem_map_of_mem hmem
    let e₁ : StreamEvent :=
      { type := .functionArgsDone, outputIndex := some t.outputIndex, itemID := t.itemID
        arguments := if s.emitSequenceNumber then some t.arguments else none
        name := if s.emitSequenceNumber then t.name else "" }
    let e₂ : StreamEvent :=
      { type := .outputItemDone, outputIndex := some t.outputIndex, item := some (toolOutput t status) }
    have hflush : c.convertEvent e₁ = .ok c :=
      congrArg Except.ok (h.shows.flushPendingTool_eq hshown (show e₁.outputIndex = _ from rfl))
    have hitem : e₂.item = some (toolOutput t status) := rfl
    have hindex : e₂.outputIndex = some t.announced.outputIndex := rfl
    have hshows := h.shows.itemAgain hshown hitem hindex (is_toolOutput hown status)
    have hset : Mirror c₀ input (tools.set i t') (s.setTool k t') c :=
      { h with
        shows := by
          rw [hannounced]
          exact h.shows
        items := by
          rw [← hk]
          exact h.items.set hi rfl rfl hown
        calls := h.calls.trans (map_set_of_eq (b := t') hi rfl).symm
        going := fun hgoing => absurd hgoing hended }
    have hargs := hset.skip hflush
    refine ⟨tools.set i t', c.outputItem e₂, ?_⟩
    exact
      { hargs with
        fed := fed_event hargs.fed rfl
        shows := by
          rw [hannounced]
          exact hshows
        going := fun hgoing => absurd hgoing hended }
  · exact ⟨tools, c, h⟩

theorem Mirror.closeTools (hended : input.finishReasons ≠ []) (status : Status) (ks : List Int)
    (h : Mirror c₀ input tools s c) :
    ∃ tools' c', Mirror c₀ input tools' (ks.foldl (ChatToResponsesStreamState.closeTool status) s) c' := by
  induction ks generalizing s c tools with
  | nil => exact ⟨tools, c, h⟩
  | cons k ks ih =>
    obtain ⟨tools₁, c₁, h₁⟩ := h.closeTool hended status k
    exact ih h₁

theorem Tools.not_hosted
    (h : Tools tools byIndex order next) (id : String) : OutputRef.hosted id ∉ order := by
  intro hmem
  have hfilter : OutputRef.hosted id ∈ order.filter OutputRef.isCall := List.mem_filter.2 ⟨hmem, rfl⟩
  rw [h.order] at hfilter
  obtain ⟨t, -, ht⟩ := mem_map.1 hfilter
  cases ht

theorem closeHosted_eq (refs : List OutputRef) (hrefs : ∀ id, OutputRef.hosted id ∉ refs)
    (s : ChatToResponsesStreamState) : refs.foldl ChatToResponsesStreamState.closeHosted s = s := by
  induction refs with
  | nil => rfl
  | cons ref refs ih =>
    have href : s.closeHosted ref = s := by
      unfold closeHosted
      split
      · exact absurd mem_cons_self (hrefs _)
      · rfl
    rw [List.foldl_cons, href]
    exact ih fun id hid => hrefs id (mem_cons_of_mem _ hid)

theorem Mirror.doneDeltaEvents (h : Mirror c₀ input tools s c) (hended : input.finishReasons ≠ []) :
    ∃ tools' c', Mirror c₀ input tools' s.doneDeltaEvents c' := by
  unfold ChatToResponsesStreamState.doneDeltaEvents
  obtain ⟨c₁, h₁⟩ := (h.closeText s.outputStatus).closeReasoning hended s.outputStatus
  obtain ⟨tools₂, c₂, h₂⟩ := Mirror.closeTools hended s.outputStatus _ h₁
  refine ⟨tools₂, c₂, ?_⟩
  rw [closeHosted_eq _ h₂.items.not_hosted]
  exact h₂

theorem Mirror.finishChoice (h : Mirror c₀ input tools s c) (choice : ChatChoice)
    (hgoing : input.finishReasons = [] ∨ choice.reason = none) :
    ∃ tools' c', Mirror c₀ { input with finishReasons := input.finishReasons ++ choice.reason.toList }
      tools' (s.finishChoice choice.finishReason) c' := by
  unfold ChatToResponsesStreamState.finishChoice ChatChoice.reason
  unfold ChatChoice.reason at hgoing
  split
  · rename_i reason hreason
    rw [hreason] at hgoing
    split
    · rename_i hblank
      refine ⟨tools, c, ?_⟩
      simpa [hreason, hblank, Option.filter] using h
    rename_i hblank
    have hfilter : (some reason).filter (trimSpace · ≠ "") = some reason := by
      simp [Option.filter, hblank]
    rw [hfilter] at hgoing
    rw [hreason, hfilter]
    have hnil : input.finishReasons = [] := hgoing.resolve_right nofun
    have hended : Mirror c₀ { input with finishReasons := input.finishReasons ++ [reason] } tools
        (s.applyFinishReason reason) c :=
      { h with
        going := fun hgoing => by
          rw [hnil] at hgoing
          cases hgoing
        status := by
          rw [hnil]
          rfl }
    exact hended.doneDeltaEvents (by simp)
  rename_i hnone
  refine ⟨tools, c, ?_⟩
  simpa [hnone] using h

/-! ### Chunks -/

/-- What a choice may bring after what was read. -/
structure Allowed (input : ChatReply) (choice : ChatChoice) : Prop where
  annotations : choice.delta.annotations ≠ .invalid
  fits : Meets Fits addToolCall input.toolCalls choice.delta.toolCalls
  going : input.finishReasons = [] ∨ choice.Blank

section
variable (h : Mirror c₀ input tools s c)
include h

theorem Mirror.appendTexts (hgoing : input.finishReasons = []) (delta : ChatDelta) : ∃ c', Mirror c₀
      { input with
        text := input.text ++ delta.getContentString
        reasoning := input.reasoning ++ delta.getReasoningContent } tools (s.appendTexts delta) c' := by
  unfold ChatToResponsesStreamState.appendTexts
  dsimp only
  obtain ⟨c₁, h₁⟩ : ∃ c₁, Mirror c₀
      { input with reasoning := input.reasoning ++ delta.getReasoningContent } tools
      (if delta.getReasoningContent = [] then s else s.appendReasoningDelta delta.getReasoningContent)
      c₁ := by
    split
    · rename_i hnil
      rw [hnil, List.append_nil]
      exact ⟨c, h⟩
    · rename_i hne
      exact h.appendReasoning hgoing hne
  split
  · rename_i hnil
    rw [hnil, List.append_nil]
    exact ⟨c₁, h₁⟩
  · rename_i hne
    exact h₁.appendText hne

theorem Mirror.convertChoice {choice : ChatChoice} (hallowed : Allowed input choice) :
    ∃ s' tools' c', s.convertChoice choice = .ok s' ∧ Mirror c₀ (input.add choice) tools' s' c' := by
  obtain ⟨hvalid, hfits, hgoing⟩ := hallowed
  unfold ChatToResponsesStreamState.convertChoice
  rcases hgoing with hgoing | hblank
  · obtain ⟨c₁, h₁⟩ := h.appendTexts hgoing choice.delta
    obtain ⟨s₂, c₂, hs₂, h₂⟩ := h₁.appendAnnotations hvalid
    obtain ⟨s₃, tools₃, c₃, hs₃, h₃⟩ := h₂.appendToolCalls hgoing hfits
    obtain ⟨tools₄, c₄, h₄⟩ := h₃.finishChoice choice (.inl hgoing)
    refine ⟨_, tools₄, c₄, ?_, h₄⟩
    rw [hs₂]
    show (choice.delta.toolCalls.foldlM appendToolCallDelta s₂).bind _ = _
    rw [hs₃]
    rfl
  have hadd : input.add choice = input := by
    simp [ChatReply.add, hblank.text, hblank.reasoning, hblank.toolCalls, hblank.reason]
  have htexts : s.appendTexts choice.delta = s := by
    simp [ChatToResponsesStreamState.appendTexts, hblank.text, hblank.reasoning]
  obtain ⟨s₂, c₂, hs₂, h₂⟩ := h.appendAnnotations hvalid
  obtain ⟨tools₄, c₄, h₄⟩ := h₂.finishChoice choice (.inr hblank.reason)
  rw [hblank.reason, Option.toList_none, List.append_nil] at h₄
  rw [hadd, htexts, hs₂]
  refine ⟨_, tools₄, c₄, ?_, h₄⟩
  rw [hblank.toolCalls]
  rfl

theorem Mirror.beginChunk (chunk : ChatChunk) :
    ∃ c', Mirror c₀ input tools (s.beginChunk chunk) c' := by
  let s₁ := { s with
    id := if s.id = "" then chunk.id else s.id
    model := if s.model = "" then chunk.model else s.model
    created := if s.created = 0 then chunk.created else s.created }
  have h₁ : Mirror c₀ input tools s₁ c := { h with }
  show ∃ c', Mirror c₀ input tools s₁.ensureCreated c'
  unfold ensureCreated
  split
  · exact ⟨c, h₁⟩
  let response := { s₁ with sentCreated := true }.createdResponse
  refine ⟨(c.applyResponseMetadata (some response)).ensureStart, ?_⟩
  exact
    { h₁ with
      fed := fed_event (s := { s₁ with sentCreated := true }) h₁.fed rfl
      shows := (h.shows.metadata (some response)).start
      going := fun hgoing => ⟨(ensureStart_break _).trans (h.going hgoing).1, (h.going hgoing).2⟩ }

end

def addChunk (input : ChatReply) (chunk : ChatChunk) : ChatReply := run ChatReply.add input chunk.choices

theorem Mirror.convertChunk (h : Mirror c₀ input tools s c) {chunk : ChatChunk}
    (hallowed : Meets Allowed ChatReply.add input chunk.choices) :
    ∃ s' tools' c', s.convertChunk chunk = .ok s' ∧ Mirror c₀ (addChunk input chunk) tools' s' c' := by
  let Rel (input : ChatReply) (s : ChatToResponsesStreamState) : Prop := ∃ tools c, Mirror c₀ input tools s c
  have hstep : ∀ input s choice, Rel input s → Allowed input choice →
      ∃ s', s.convertChoice choice = .ok s' ∧ Rel (input.add choice) s' := by
    rintro input s choice ⟨tools, c, h⟩ hchoice
    obtain ⟨s', tools', c', hs', h'⟩ := h.convertChoice hchoice
    exact ⟨s', hs', tools', c', h'⟩
  obtain ⟨c₁, h₁⟩ := h.beginChunk chunk
  have hrel : Rel input (s.beginChunk chunk) := ⟨tools, c₁, h₁⟩
  obtain ⟨s', hs', tools', c', h'⟩ := tryRun_follows Rel hstep hrel hallowed
  unfold ChatToResponsesStreamState.convertChunk
  rw [foldlM_eq_tryRun]
  exact ⟨s', tools', c', hs', h'⟩

theorem Mirror.convertChunks (chunks : List ChatChunk) (h : Mirror c₀ input tools s c)
    (hallowed : Meets Allowed ChatReply.add input (chunks.flatMap (·.choices))) :
    ∃ s' tools' c', chunks.foldlM ChatToResponsesStreamState.convertChunk s = .ok s' ∧
      Mirror c₀ ((chunks.flatMap (·.choices)).foldl ChatReply.add input) tools' s' c' := by
  induction chunks generalizing input tools s c with
  | nil => exact ⟨s, tools, c, rfl, h⟩
  | cons chunk chunks ih =>
    rw [flatMap_cons, meets_append] at hallowed
    obtain ⟨s₁, tools₁, c₁, hs₁, h₁⟩ := h.convertChunk hallowed.1
    obtain ⟨s', tools', c', hs', h'⟩ := ih h₁ hallowed.2
    refine ⟨s', tools', c', ?_, ?_⟩
    · rw [List.foldlM_cons, hs₁]
      exact hs'
    · rw [flatMap_cons, List.foldl_append]
      exact h'

/-! ### The end of the stream -/

theorem Mirror.repeats (h : Mirror c₀ input tools s c) : ∀ output ∈ s.finalResponse.output,
      Repeats (tools.map StreamTool.announced) input.text input.reasoning output := by
  intro output houtput
  obtain ⟨ref, href, hitem⟩ := List.mem_filterMap.1 houtput
  cases ref with
  | message =>
    cases hitem
    refine ⟨fun _ hnil => ?_, ?_, nofun, nofun⟩
    · show [s.text].flatten = []
      rw [h.text, hnil]
      rfl
    intro content hcontent hnone
    rw [mem_singleton.1 hcontent] at hnone
    obtain ⟨a, -, ha⟩ := mem_map.1 hnone
    cases ha
  | reasoning =>
    cases hitem
    refine ⟨nofun, nofun, fun _ hnil => ?_, nofun⟩
    show appendSeparatedText [] s.reasoning = []
    rw [h.reasoning, hnil]
    rfl
  | tool k =>
    obtain ⟨t, ht, rfl⟩ := Option.map_eq_some_iff.1 hitem
    obtain ⟨hmem, -⟩ := h.items.of_lookup k t ht
    exact ⟨nofun, nofun, nofun, fun _ =>
      ⟨t.announced, mem_map_of_mem hmem, is_toolOutput (h.items.own t hmem) _⟩⟩
  | hosted id => exact absurd href (h.items.not_hosted id)

theorem Mirror.finalize (h : Mirror c₀ input tools s c) (hended : input.finishReasons ≠ []) :
    ∃ (tools' : List StreamTool) (c' : ResponsesToChatStreamState) (response : ResponsesResponse),
      tryRun ResponsesToChatStreamState.convertEvent c₀ s.finalize.sent = .ok c' ∧
      c'.finalized = true ∧ input.toolCalls.map ToolCall.trimmed = tools'.map StreamTool.call ∧
      (response.status, response.incompleteDetails) = statusAfter input.finishReasons ∧
      readChat c'.sent =
        { text := input.text, reasoning := input.reasoning
          toolCalls := (tools'.map StreamTool.announced).mapIdx Announced.call
          finishReasons := [(responsesFinishReasonFromStatus response).getD
            (if tools'.map StreamTool.announced = [] then "stop" else "tool_calls")] } := by
  obtain ⟨tools', c₁, h₁⟩ := h.doneDeltaEvents hended
  let s₁ := { s.doneDeltaEvents with finalized := true }
  obtain ⟨c', hc', hfinalized, hreply⟩ := h₁.shows.finish h₁.repeats
  refine ⟨tools', c', s₁.finalResponse, ?_, hfinalized, h₁.calls, h₁.status, hreply⟩
  unfold ChatToResponsesStreamState.finalize
  rw [if_neg (by simp [h.finalized])]
  refine fed_event (s := s₁) h₁.fed ?_
  split
  · rename_i hincomplete
    have hsame : ensureIncompleteResponse (some s₁.finalResponse) = s₁.finalResponse := by
      unfold ensureIncompleteResponse
      rw [Option.getD_some, if_neg]
      rw [show s₁.finalResponse.status = .incomplete from hincomplete]
      nofun
    show c₁.finish (some (ensureIncompleteResponse (some s₁.finalResponse))) = .ok c'
    rw [hsame]
    exact hc'
  · exact hc'

end

/-! ## The round trip -/

/-- What tells tool calls apart: their ids, their names and their arguments. -/
def ToolCall.content (call : ToolCall) : String × String × Bytes := (call.id, call.name, call.arguments)

/-- The same reply, without the blanks around ids and names. -/
structure SameReply (input output : ChatReply) : Prop where
  text : output.text = input.text
  reasoning : output.reasoning = input.reasoning
  toolCalls : output.toolCalls.map ToolCall.content = input.toolCalls.map fun call => call.trimmed.content
  finishReasons : output.finishReasons = input.finishReasons

theorem allowed_before {choices : List ChatChoice} (input : ChatReply)
    (hannotations : ∀ choice ∈ choices, choice.delta.annotations ≠ .invalid)
    (hnamed : Meets Fits addToolCall input.toolCalls (choices.flatMap (·.delta.toolCalls)))
    (hnone : ∀ choice ∈ choices, choice.reason = none) (hgoing : input.finishReasons = []) :
    Meets Allowed ChatReply.add input choices ∧
      (run ChatReply.add input choices).finishReasons = [] ∧
      (run ChatReply.add input choices).toolCalls =
        run addToolCall input.toolCalls (choices.flatMap (·.delta.toolCalls)) := by
  induction choices generalizing input with
  | nil => exact ⟨trivial, hgoing, rfl⟩
  | cons choice choices ih =>
    rw [flatMap_cons, meets_append] at hnamed
    have hreason := hnone choice mem_cons_self
    obtain ⟨hmeets, hreasons, hcalls⟩ := ih (input.add choice)
      (fun x hx => hannotations x (mem_cons_of_mem _ hx)) hnamed.2
      (fun x hx => hnone x (mem_cons_of_mem _ hx)) (by
        show input.finishReasons ++ choice.reason.toList = []
        rw [hgoing, hreason]
        rfl)
    refine ⟨⟨⟨hannotations choice mem_cons_self, hnamed.1, .inl hgoing⟩, hmeets⟩, hreasons, ?_⟩
    rw [run_cons, hcalls, flatMap_cons, run_append]
    rfl

theorem allowed_after {choices : List ChatChoice} (input : ChatReply)
    (hannotations : ∀ choice ∈ choices, choice.delta.annotations ≠ .invalid)
    (hblank : ∀ choice ∈ choices, choice.Blank) :
    Meets Allowed ChatReply.add input choices ∧ run ChatReply.add input choices = input := by
  induction choices with
  | nil => exact ⟨trivial, rfl⟩
  | cons choice choices ih =>
    have hchoice := hblank choice mem_cons_self
    have hadd : input.add choice = input := by
      simp [ChatReply.add, hchoice.text, hchoice.reasoning, hchoice.toolCalls, hchoice.reason]
    obtain ⟨hmeets, hrun⟩ := ih (fun x hx => hannotations x (mem_cons_of_mem _ hx))
      fun x hx => hblank x (mem_cons_of_mem _ hx)
    refine ⟨⟨⟨hannotations choice mem_cons_self, ?_, .inr hchoice⟩, ?_⟩, ?_⟩
    · rw [hchoice.toolCalls]
      trivial
    · rwa [hadd]
    · rwa [run_cons, hadd]

theorem ChatStream.allowed {choices : List ChatChoice} {reason : String} (h : ChatStream choices reason) :
    Meets Allowed ChatReply.add {} choices ∧
      (run ChatReply.add {} choices).finishReasons = [reason] ∧
      (run ChatReply.add {} choices).toolCalls =
        run addToolCall [] (choices.flatMap (·.delta.toolCalls)) := by
  obtain ⟨before, last, after, rfl, hbefore, hlast, hafter⟩ := h.finish
  have hannotations := h.annotations
  have hnamed := h.named
  rw [List.flatMap_append, flatMap_cons, meets_append, meets_append] at hnamed
  obtain ⟨hnamedBefore, hnamedLast, -⟩ := hnamed
  obtain ⟨hmeets, hreasons, hcalls⟩ := allowed_before {}
    (fun x hx => hannotations x (List.mem_append_left _ hx)) hnamedBefore hbefore rfl
  let input := run ChatReply.add {} before
  obtain ⟨hmeets', hrun⟩ := allowed_after (input.add last)
    (fun x hx => hannotations x (List.mem_append_right _ (mem_cons_of_mem _ hx))) hafter
  have hnone : after.flatMap (·.delta.toolCalls) = [] := by
    rw [List.flatMap_eq_nil_iff]
    exact fun x hx => (hafter x hx).toolCalls
  refine ⟨?_, ?_, ?_⟩
  · rw [meets_append]
    refine ⟨hmeets, ⟨hannotations last (by simp), ?_, .inl hreasons⟩, hmeets'⟩
    rw [hcalls]
    exact hnamedLast
  · rw [run_append, run_cons, hrun]
    show input.finishReasons ++ last.reason.toList = [reason]
    rw [hreasons, hlast]
    rfl
  rw [run_append, run_cons, hrun, List.flatMap_append, flatMap_cons, run_append, run_append, hnone]
  show last.delta.toolCalls.foldl addToolCall input.toolCalls = _
  rw [hcalls]
  rfl

theorem addToolCall_ne_nil (calls : List ToolCall) (delta : ToolCall) : addToolCall calls delta ≠ [] := by
  unfold addToolCall
  split
  · rename_i i hi
    intro hnil
    have hlen := congrArg List.length hnil
    rw [List.length_modify, List.length_nil, List.length_eq_zero_iff] at hlen
    rw [hlen] at hi
    cases hi
  · simp

theorem addToolCalls_eq_nil {deltas : List ToolCall} : run addToolCall [] deltas = [] ↔ deltas = [] := by
  constructor
  · intro hnil
    cases deltas.eq_nil_or_concat with
    | inl h => exact h
    | inr h =>
      obtain ⟨before, delta, rfl⟩ := h
      rw [List.concat_eq_append, run_append] at hnil
      exact absurd hnil (addToolCall_ne_nil _ delta)
  · rintro rfl
    rfl

theorem finishReason_back {response : ResponsesResponse} {reason fallback : String}
    (hstatus : (response.status, response.incompleteDetails) = responsesStatusFromChatFinishReason reason)
    (hreason : reason = "length" ∨ reason = "content_filter" ∨ reason = fallback)
    (hfallback : fallback = "stop" ∨ fallback = "tool_calls") :
    (responsesFinishReasonFromStatus response).getD fallback = reason := by
  unfold responsesFinishReasonFromStatus
  rcases hreason with rfl | rfl | rfl
  · have hlength : responsesStatusFromChatFinishReason "length" = (.incomplete, some "max_output_tokens") := by
      decide +kernel
    obtain ⟨hs, hd⟩ := Prod.mk.inj (hstatus.trans hlength)
    rw [hs, hd]
    rfl
  · have hfilter : responsesStatusFromChatFinishReason "content_filter" =
        (.incomplete, some "content_filter") := by
      decide +kernel
    obtain ⟨hs, hd⟩ := Prod.mk.inj (hstatus.trans hfilter)
    rw [hs, hd]
    rfl
  have hcompleted : responsesStatusFromChatFinishReason reason = (.completed, none) := by
    rcases hfallback with rfl | rfl
    · decide +kernel
    · decide +kernel
  obtain ⟨hs, -⟩ := Prod.mk.inj (hstatus.trans hcompleted)
  rw [hs]
  rfl

theorem content_calls (shown : List Announced) :
    (shown.mapIdx Announced.call).map ToolCall.content = shown.map fun t => (t.id, t.name, t.arguments) := by
  ext1 i
  rw [List.getElem?_map, List.getElem?_mapIdx, List.getElem?_map]
  cases shown[i]? with
  | none => rfl
  | some t => rfl

/-- **Chat to Responses to chat.** A chat stream comes back with the text, the reasoning,
    the tool calls and the one finish reason it had; only blanks around ids and names
    are gone. -/
theorem chat_responses_chat (id model : String) (now : Int) (emit : Bool) (model' : String) (now' : Int)
    (includeUsage : Bool) (chunks : List ChatChunk) (reason : String)
    (h : ChatStream (chunks.flatMap (·.choices)) reason) :
    ∃ s c, chunks.foldlM ChatToResponsesStreamState.convertChunk
        (newChatToResponsesStreamState id model now emit) = .ok s ∧
      s.finalize.sent.foldlM ResponsesToChatStreamState.convertEvent
        (newResponsesToChatStreamState model' now' includeUsage) = .ok c ∧
      SameReply (readChat chunks) (readChat (c.finalize none).sent) ∧
      (readChat (c.finalize none).sent).finishReasons = [reason] := by
  obtain ⟨hallowed, hreasons, hcalls⟩ := h.allowed
  have hstart : Mirror (newResponsesToChatStreamState model' now' includeUsage) {} []
      (newChatToResponsesStreamState id model now emit)
      (newResponsesToChatStreamState model' now' includeUsage) :=
    { fed := rfl
      shows := ResponsesToChatStreamState.shows_new model' now' includeUsage
      items := ⟨nofun, nofun, rfl, nofun, nofun, List.nodup_nil⟩
      text := rfl
      reasoning := rfl
      calls := rfl
      going := fun _ => ⟨rfl, nofun⟩
      status := rfl
      finalized := rfl }
  obtain ⟨s, tools, c, hs, hmirror⟩ := hstart.convertChunks chunks hallowed
  have hread : (chunks.flatMap (·.choices)).foldl ChatReply.add {} = readChat chunks := rfl
  rw [hread] at hmirror
  have hended : (readChat chunks).finishReasons = [reason] := hreasons
  obtain ⟨tools', c', response, hc', hfinalized, hcalls', hstatus, hreply⟩ :=
    hmirror.finalize (by rw [hended]; nofun)
  have hfinal : c'.finalize none = c' := by
    unfold ResponsesToChatStreamState.finalize
    rw [if_pos hfinalized]
  have hnil : tools'.map StreamTool.announced = [] ↔ (chunks.flatMap (·.choices)).flatMap
      (·.delta.toolCalls) = [] := by
    rw [← addToolCalls_eq_nil, ← hcalls, List.map_eq_nil_iff, ← List.map_eq_nil_iff (f := StreamTool.call),
      ← hcalls', List.map_eq_nil_iff]
    rfl
  have hfinish : (responsesFinishReasonFromStatus response).getD
      (if tools'.map StreamTool.announced = [] then "stop" else "tool_calls") = reason := by
    rw [hended] at hstatus
    refine finishReason_back hstatus ?_ ?_
    · simp only [hnil]
      exact h.reason
    split
    · exact .inl rfl
    · exact .inr rfl
  refine ⟨s, c', hs, ?_, ?_, ?_⟩
  · rw [foldlM_eq_tryRun]
    exact hc'
  · rw [hfinal, hreply, hfinish]
    refine ⟨rfl, rfl, ?_, hended.symm⟩
    have hcontent := congrArg (List.map ToolCall.content) hcalls'
    rw [map_map, map_map] at hcontent
    rw [content_calls, map_map]
    exact hcontent.symm
  · rw [hfinal, hreply, hfinish]

/-- Reasoning, text and two tool calls in turns, and a chunk without choices at the end. -/
def textAndTwoTools : List ChatChunk :=
  [{ choices := [{ delta := { reasoningContent := some [114] } }] },
   { choices := [{ delta := { content := some [116]
                              toolCalls := [{ index := some 1, id := "c1", name := "f", arguments := [97] }] } }] },
   { choices := [{ delta := { toolCalls := [{ index := some 0, id := "c0", name := "g" },
                                            { index := some 1, arguments := [98] }] } }] },
   { choices := [{ delta := {}, finishReason := some "tool_calls" }] },
   {}]

theorem chat_responses_chat_textAndTwoTools :
    ∃ s c, textAndTwoTools.foldlM ChatToResponsesStreamState.convertChunk
        (newChatToResponsesStreamState "r" "m" 1 true) = .ok s ∧
      s.finalize.sent.foldlM ResponsesToChatStreamState.convertEvent
        (newResponsesToChatStreamState "m" 1 true) = .ok c ∧
      SameReply (readChat textAndTwoTools) (readChat (c.finalize none).sent) ∧
      (readChat (c.finalize none).sent).finishReasons = ["tool_calls"] := by
  refine chat_responses_chat "r" "m" 1 true "m" 1 true textAndTwoTools "tool_calls" ⟨?_, ?_, ?_, ?_⟩
  · decide
  · decide +kernel
  · exact ⟨(textAndTwoTools.take 3).flatMap (·.choices), { finishReason := some "tool_calls" }, [], rfl,
      by decide +kernel, by decide +kernel, nofun⟩
  · exact .inr (.inr rfl)

def paddedID : List ChatChunk :=
  [{ choices := [{ delta := { toolCalls := [{ id := " a", name := "f", arguments := [120] }] } }] },
   { choices := [{ finishReason := some "tool_calls" }] }]

def malformedAnnotations : List ChatChunk :=
  [{ choices := [{ delta := { content := some [120], annotations := .invalid } }] },
   { choices := [{ finishReason := some "stop" }] }]

theorem paddedID_trimmed_and_malformedAnnotations_refused :
    (∃ s c, paddedID.foldlM ChatToResponsesStreamState.convertChunk
        (newChatToResponsesStreamState "r" "m" 1 true) = .ok s ∧
      s.finalize.sent.foldlM ResponsesToChatStreamState.convertEvent
        (newResponsesToChatStreamState "m" 1 true) = .ok c ∧
      (readChat (c.finalize none).sent).toolCalls.map ToolCall.content ≠
        (readChat paddedID).toolCalls.map ToolCall.content) ∧
    malformedAnnotations.foldlM ChatToResponsesStreamState.convertChunk
      (newChatToResponsesStreamState "r" "m" 1 true) = .error .invalidAnnotations := by
  refine ⟨?_, by rfl⟩
  obtain ⟨s, hs, hback⟩ := exists_of_map_eq_ok
    (x := paddedID.foldlM ChatToResponsesStreamState.convertChunk
      (newChatToResponsesStreamState "r" "m" 1 true))
    (f := fun s => (s.finalize.sent.foldlM ResponsesToChatStreamState.convertEvent
      (newResponsesToChatStreamState "m" 1 true)).map fun c =>
        (readChat (c.finalize none).sent).toolCalls.map ToolCall.content)
    (c := .ok [("a", "f", [120])]) (by decide +kernel)
  obtain ⟨c, hc, hcalls⟩ := exists_of_map_eq_ok hback
  refine ⟨s, c, hs, hc, ?_⟩
  rw [hcalls]
  decide +kernel

end NewApi.Convert
