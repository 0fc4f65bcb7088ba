/-
  NewApi.Convert.ResponsesToChatReply

  What the converter from Responses to chat has shown its client.

  `Shows` ties the chunks a state has sent to what it remembers: every tool it knows
  was announced and all of its arguments were sent, under the keys of its output
  index, its item id and its call id.  An event that only repeats what was shown
  changes at most the keys; the lemmas below say what each other event adds.
-/

import NewApi.Convert.ChatReply
import NewApi.Convert.ResponsesToChat
import Mathlib.Data.List.Dedup

namespace NewApi.Convert

open Option (bind_some map_some ne_none_iff_exists' some_or)
open NewApi.Subscription (trimSpace)

/-- A tool call that was announced under an output index. -/
structure Announced where
  outputIndex : Int
  id : String
  name : String
  arguments : Bytes

/-- Its id and its name are not blank, and have no blanks around them. -/
structure Announced.Named (t : Announced) : Prop where
  id : t.id ≠ ""
  trimmedID : trimSpace t.id = t.id
  name : t.name ≠ ""
  trimmedName : trimSpace t.name = t.name

def Announced.fresh (t : Announced) : ResponsesStreamTool where
  key := .output t.outputIndex
  callID := t.id
  itemID := t.id
  name := t.name

def Announced.tool (t : Announced) : ResponsesStreamTool where
  key := .output t.outputIndex
  callID := t.id
  itemID := t.id
  name := t.name
  arguments := t.arguments
  sent := true
  nameSent := true
  argsSentAt := t.arguments.length

def Announced.call (i : Nat) (t : Announced) : ToolCall where
  index := some (i : Int)
  id := t.id
  name := t.name
  arguments := t.arguments

def Announced.extend (t : Announced) (delta : Bytes) : Announced :=
  { t with arguments := t.arguments ++ delta }

/-- What an item may say of a tool that was shown. -/
structure Announced.Is (t : Announced) (item : ResponsesOutput) : Prop where
  id : item.id = t.id
  callId : item.callId = t.id
  name : item.name = t.name
  arguments : item.arguments = [] ∨ item.arguments = t.arguments

theorem Announced.Is.eventItemID {t : Announced} {item : ResponsesOutput} (h : t.Is item)
    (ht : t.Named) {event : StreamEvent} (hevent : event.item = some item) :
    responseStreamEventItemID event = t.id := by
  unfold responseStreamEventItemID
  rw [hevent]
  simp [h.id, ht.trimmedID, ht.id]

namespace ResponsesToChatStreamState

variable {c : ResponsesToChatStreamState}

/-! ## Chunks -/

theorem readChat_send (c : ResponsesToChatStreamState) (delta : ChatDelta) :
    readChat (c.send delta).sent = (readChat c.sent).add { delta } :=
  readChat_append c.sent [c.makeChunk delta none]

theorem silent_nil : Silent [] := fun _ => rfl

theorem silent_of_delta {delta : ChatDelta} (htext : delta.getContentString = [])
    (hreasoning : delta.getReasoningContent = []) (htools : delta.toolCalls = []) :
    Silent [c.makeChunk delta none] := by
  intro reply
  show reply.add { delta } = reply
  simp [ChatReply.add, htext, hreasoning, htools, ChatChoice.reason]

theorem ensureStart_eq (c : ResponsesToChatStreamState) : ∃ chunks, Silent chunks ∧
    c.ensureStart = { c with sentStart := true, sent := c.sent ++ chunks } := by
  unfold ensureStart
  split
  · rename_i hstart
    refine ⟨[], silent_nil, ?_⟩
    rw [List.append_nil, ← hstart]
  · exact ⟨_, silent_of_delta (c := { c with sentStart := true }) rfl rfl rfl, rfl⟩

/-! ## What was shown -/

/-- The `i`-th tool is found under all its keys. -/
structure Known (toolByKey : AList fun _ : ToolKey => Nat) (byIndex : AList fun _ : Int => ToolKey)
    (byItem : AList fun _ : String => ToolKey) (i : Nat) (t : Announced) : Prop where
  index : byIndex.lookup t.outputIndex = some (.output t.outputIndex)
  output : toolByKey.lookup (.output t.outputIndex) = some i
  item : (byItem.lookup t.id).bind toolByKey.lookup = some i
  onlyItem : ∀ j, toolByKey.lookup (.item t.id) = some j → j = i

/-- The client has read this text, this reasoning and these tool calls, and the state
    knows no other tools. -/
structure Shows (shown : List Announced) (text reasoning : Bytes) (c : ResponsesToChatStreamState) :
    Prop where
  reply : readChat c.sent = { text, reasoning, toolCalls := shown.mapIdx Announced.call }
  hasText : text ≠ [] → c.hasSentText = true
  hasReasoning : reasoning ≠ [] → c.hasSentReasoning = true
  saw : c.sawToolCall = true ↔ shown ≠ []
  finalized : c.finalized = false
  tools : c.tools = shown.map Announced.tool
  named : ∀ t ∈ shown, t.Named
  noneByIndex : c.pendingArgsByOutputIndex = ∅
  noneByItem : c.pendingArgsByItemID = ∅
  known : ∀ i t, shown[i]? = some t → Known c.toolByKey c.outputIndexToKey c.itemIDToKey i t
  keys : ∀ key j, c.toolByKey.lookup key = some j →
    ∃ t ∈ shown, key = .output t.outputIndex ∨ key = .item t.id
  items : ∀ id key, c.itemIDToKey.lookup id = some key → ∃ t ∈ shown, t.id = id
  calls : ∀ id key, c.callIDToKey.lookup id = some key → ∃ t ∈ shown, t.id = id

variable {shown : List Announced} {text reasoning : Bytes}

theorem shows_new (model : String) (now : Int) (includeUsage : Bool) :
    Shows [] [] [] (newResponsesToChatStreamState model now includeUsage) := by
  refine ⟨rfl, nofun, nofun, ?_, rfl, rfl, nofun, rfl, rfl, nofun, nofun, nofun, nofun⟩
  exact ⟨nofun, fun h => absurd rfl h⟩

section
variable (h : Shows shown text reasoning c)
include h

theorem Shows.quiet {chunks : List ChatChunk} (hchunks : Silent chunks) (id model : String)
    (created : Int) (start : Bool) (count : Nat) (needsBreak : Bool) : Shows shown text reasoning
      { c with
        id, model, created, sentStart := start, sentAnnotationCount := count
        needsReasoningSummaryBreak := needsBreak, sent := c.sent ++ chunks } :=
  { h with
    reply := (readChat_silent hchunks _).trans h.reply }

theorem Shows.start : Shows shown text reasoning c.ensureStart := by
  obtain ⟨chunks, hsilent, heq⟩ := ensureStart_eq c
  rw [heq]
  exact h.quiet hsilent c.id c.model c.created true c.sentAnnotationCount c.needsReasoningSummaryBreak

theorem Shows.metadata (response : Option ResponsesResponse) :
    Shows shown text reasoning (c.applyResponseMetadata response) := by
  cases response with
  | none => exact h
  | some response =>
    have hquiet := h.quiet silent_nil (if response.id ≠ "" ∧ c.id = "" then response.id else c.id)
      (if response.model ≠ "" then response.model else c.model)
      (if response.createdAt ≠ 0 then response.createdAt else c.created) c.sentStart
      c.sentAnnotationCount c.needsReasoningSummaryBreak
    rwa [List.append_nil] at hquiet

theorem Shows.textDelta {delta : Bytes} (hdelta : delta ≠ []) :
    Shows shown (text ++ delta) reasoning (c.textDelta delta) := by
  unfold ResponsesToChatStreamState.textDelta
  rw [if_neg hdelta]
  have hflag : Shows shown text reasoning { c with hasSentText := true } :=
    { h with hasText := fun _ => rfl }
  obtain ⟨chunks, hsilent, heq⟩ := ensureStart_eq { c with hasSentText := true }
  have hstart := hflag.start
  rw [heq] at hstart ⊢
  exact
    { hstart with
      reply := by
        rw [readChat_send, hstart.reply]
        simp [ChatReply.add, ChatDelta.getContentString, ChatDelta.getReasoningContent,
          ChatChoice.reason]
      hasText := fun _ => rfl }

theorem Shows.reasoningDelta (hbreak : c.needsReasoningSummaryBreak = false) {delta : Bytes}
    (hdelta : delta ≠ []) : Shows shown text (reasoning ++ delta) (c.reasoningDelta delta) := by
  unfold ResponsesToChatStreamState.reasoningDelta
  rw [if_neg hdelta]
  simp only [hbreak, Bool.false_eq_true, if_false]
  let c' := { c with needsReasoningSummaryBreak := false, hasSentReasoning := true }
  have hflag : Shows shown text reasoning c' :=
    { h with hasReasoning := fun _ => rfl }
  obtain ⟨chunks, hsilent, heq⟩ := ensureStart_eq c'
  have hstart := hflag.start
  rw [heq] at hstart ⊢
  exact
    { hstart with
      reply := by
        rw [readChat_send, hstart.reply]
        simp [ChatReply.add, ChatDelta.getContentString, ChatDelta.getReasoningContent,
          ChatChoice.reason]
      hasReasoning := fun _ => rfl }

end

/-! ## Tools that were shown -/

variable {i : Nat}

theorem updateTool_of_fixed {tool : ResponsesStreamTool}
    {f : ResponsesStreamTool → ResponsesStreamTool} (hi : c.tools[i]? = some tool)
    (hf : f tool = tool) : c.updateTool i f = c := by
  have hmodify : c.tools.modify i f = c.tools := by
    rw [List.modify_eq_set_getElem?, hi]
    show c.tools.set i (f tool) = c.tools
    rw [hf]
    obtain ⟨hlt, hget⟩ := List.getElem?_eq_some_iff.1 hi
    rw [← hget, List.set_getElem_self]
  unfold updateTool
  rw [hmodify]

variable {t : Announced}

theorem Shows.tool (h : Shows shown text reasoning c)
    (hi : shown[i]? = some t) : c.tools[i]? = some t.tool := by
  rw [h.tools, List.getElem?_map, hi]
  rfl

theorem argsDelta_tool (t : Announced) : t.tool.argsDelta [] = [] := by
  unfold ResponsesStreamTool.argsDelta
  rw [if_pos rfl]
  exact List.drop_length

theorem toolDelta_shown (h : c.tools = shown.map Announced.tool) (i : Nat) : c.toolDelta i [] = c := by
  unfold toolDelta
  cases hi : c.tools[i]? with
  | none => rfl
  | some tool =>
    rw [h, List.getElem?_map] at hi
    obtain ⟨t, -, rfl⟩ := Option.map_eq_some_iff.1 hi
    show (if t.tool.Idle (t.tool.argsDelta []) then c else _) = c
    rw [argsDelta_tool, if_pos ⟨rfl, rfl, .inr rfl⟩]

theorem claimOutputIndex_eq (h : c.pendingArgsByOutputIndex = ∅) (i : Nat) (key : ToolKey)
    (outputIndex : Int) : c.claimOutputIndex i key (some outputIndex) =
      { c with outputIndexToKey := c.outputIndexToKey.insert outputIndex key } := by
  simp [claimOutputIndex, h]

theorem claimItemID_eq (h : c.pendingArgsByItemID = ∅) (i : Nat) (key : ToolKey) {id : String}
    (hid : id ≠ "") : c.claimItemID i key id =
      { c.updateTool i ({ · with itemID := id }) with itemIDToKey := c.itemIDToKey.insert id key } := by
  simp [claimItemID, h, hid, updateTool]

variable {item : ResponsesOutput}

theorem claimIdentity_eq (h : t.Is item) (ht : t.Named) (i : Nat) (key : ToolKey) :
    c.claimIdentity i key item =
      { c.updateTool i (·.identify item) with callIDToKey := c.callIDToKey.insert t.id key } := by
  simp [claimIdentity, h.callId, ht.trimmedID, ht.id, updateTool]

theorem identify_tool (h : t.Is item) (ht : t.Named) {tool : ResponsesStreamTool} :
    tool.identify item = { tool with callID := t.id, name := t.name } := by
  simp [ResponsesStreamTool.identify, h.callId, h.name, ht.trimmedID, ht.trimmedName, ht.id, ht.name]

theorem withArguments_tool (h : t.Is item) : t.tool.withArguments item.arguments = t.tool := by
  unfold ResponsesStreamTool.withArguments
  split
  · rfl
  rename_i hne
  rw [h.arguments.resolve_left hne]
  rfl

variable {event : StreamEvent}

section
variable (h : Shows shown text reasoning c)
include h

theorem Shows.toolItem_known (hi : shown[i]? = some t) (hevent : event.item = some item)
    (his : t.Is item) {key : ToolKey} (hkey : keyForEvent event = some key)
    {byKey : AList fun _ : ToolKey => Nat}
    (hfound : c.lookupTool key event item = (i, { c with toolByKey := byKey })) :
    ∃ byIndex, (∀ outputIndex, event.outputIndex = some outputIndex →
        byIndex = c.outputIndexToKey.insert outputIndex key) ∧
      (event.outputIndex = none → byIndex = c.outputIndexToKey) ∧
      c.toolItem event item =
        { c with
          toolByKey := byKey
          outputIndexToKey := byIndex
          itemIDToKey := c.itemIDToKey.insert t.id key
          callIDToKey := c.callIDToKey.insert t.id key } := by
  have ht := h.named t (List.mem_of_getElem? hi)
  let c₁ := { c with toolByKey := byKey }
  obtain ⟨byIndex, hsome, hnone, hclaim⟩ : ∃ byIndex,
      (∀ outputIndex, event.outputIndex = some outputIndex →
        byIndex = c.outputIndexToKey.insert outputIndex key) ∧
      (event.outputIndex = none → byIndex = c.outputIndexToKey) ∧
      c₁.claimOutputIndex i key event.outputIndex = { c₁ with outputIndexToKey := byIndex } := by
    cases hindex : event.outputIndex with
    | none => exact ⟨_, nofun, fun _ => rfl, rfl⟩
    | some outputIndex =>
      refine ⟨_, ?_, nofun, claimOutputIndex_eq (c := c₁) h.noneByIndex i key outputIndex⟩
      rintro _ ⟨⟩
      rfl
  refine ⟨byIndex, hsome, hnone, ?_⟩
  have htool : c.tools[i]? = some t.tool := h.tool hi
  let c₂ := { c₁ with outputIndexToKey := byIndex }
  let c₃ := { c₂ with itemIDToKey := c.itemIDToKey.insert t.id key }
  let c₄ := { c₃ with callIDToKey := c.callIDToKey.insert t.id key }
  have hitem : c₂.claimItemID i key t.id = c₃ := by
    refine (claimItemID_eq (c := c₂) h.noneByItem i key ht.id).trans ?_
    rw [updateTool_of_fixed (c := c₂) htool rfl]
  have hidentity : c₃.claimIdentity i key item = c₄ := by
    refine (claimIdentity_eq (c := c₃) his ht i key).trans ?_
    rw [updateTool_of_fixed (c := c₃) htool (identify_tool his ht)]
  have hensure : c.ensureToolForEvent event item = some (i, c₄) := by
    unfold ensureToolForEvent
    rw [hkey, some_or, map_some]
    rw [hfound, his.eventItemID ht hevent]
    show some (i, ((c₁.claimOutputIndex i key event.outputIndex).claimItemID i key t.id).claimIdentity i
      key item) = some (i, c₄)
    rw [hclaim, hitem, hidentity]
  unfold ResponsesToChatStreamState.toolItem
  rw [hensure]
  show (c₄.updateTool i _).toolDelta i [] = c₄
  rw [updateTool_of_fixed (c := c₄) htool (withArguments_tool his), toolDelta_shown (c := c₄) h.tools]

theorem Shows.same_of_id {j : Nat} {u : Announced} (hi : shown[i]? = some t)
    (hj : shown[j]? = some u) (hid : u.id = t.id) : i = j := by
  have hitem := (h.known j u hj).item
  rw [hid, (h.known i t hi).item] at hitem
  exact Option.some.inj hitem

/-- A tool that was shown may be found under a further key of its own. -/
theorem Shows.rekeyed (hi : shown[i]? = some t) {key : ToolKey}
    (hkey : key = .output t.outputIndex ∨ key = .item t.id) {byKey : AList fun _ : ToolKey => Nat}
    (hself : byKey.lookup key = some i)
    (hother : ∀ key', key' ≠ key → byKey.lookup key' = c.toolByKey.lookup key')
    {byIndex : AList fun _ : Int => ToolKey}
    (hindex : ∀ o, byIndex.lookup o = c.outputIndexToKey.lookup o) : Shows shown text reasoning
      { c with
        toolByKey := byKey
        outputIndexToKey := byIndex
        itemIDToKey := c.itemIDToKey.insert t.id key
        callIDToKey := c.callIDToKey.insert t.id key } := by
  have hmem : t ∈ shown := List.mem_of_getElem? hi
  have hold : ∀ j, c.toolByKey.lookup key = some j → j = i := by
    intro j hj
    rcases hkey with rfl | rfl
    · exact Option.some.inj (hj.symm.trans (h.known i t hi).output)
    · exact (h.known i t hi).onlyItem j hj
  refine { h with known := ?_, keys := ?_, items := ?_, calls := ?_ }
  · intro j u hj
    have hu := h.known j u hj
    refine ⟨?_, ?_, ?_, ?_⟩
    · rw [hindex]
      exact hu.index
    · by_cases hk : ToolKey.output u.outputIndex = key
      · have hsame := hu.output
        rw [hk] at hsame ⊢
        rw [hself, hold j hsame]
      · exact (hother _ hk).trans hu.output
    · by_cases hid : u.id = t.id
      · rw [hid, AList.lookup_insert, bind_some]
        exact hself.trans (congrArg some (h.same_of_id hi hj hid))
      rw [AList.lookup_insert_ne hid]
      obtain ⟨k, hk, hlookup⟩ := Option.bind_eq_some_iff.1 hu.item
      rw [hk, bind_some]
      by_cases hkk : k = key
      · rw [hkk] at hlookup ⊢
        rw [hself, hold j hlookup]
      · exact (hother k hkk).trans hlookup
    intro j' hj'
    by_cases hk : ToolKey.item u.id = key
    · rw [hk, hself] at hj'
      rcases hkey with rfl | rfl
      · cases hk
      · cases hj'
        exact h.same_of_id hi hj (ToolKey.item.inj hk)
    · rw [hother _ hk] at hj'
      exact hu.onlyItem j' hj'
  · intro k j hk
    by_cases hkk : k = key
    · exact ⟨t, hmem, hkk ▸ hkey⟩
    · rw [hother k hkk] at hk
      exact h.keys k j hk
  · intro id k hk
    by_cases hid : id = t.id
    · exact ⟨t, hmem, hid.symm⟩
    · rw [AList.lookup_insert_ne hid] at hk
      exact h.items id k hk
  intro id k hk
  by_cases hid : id = t.id
  · exact ⟨t, hmem, hid.symm⟩
  · rw [AList.lookup_insert_ne hid] at hk
    exact h.calls id k hk

theorem Shows.itemAgain (ht : t ∈ shown) (hevent : event.item = some item)
    (hindex : event.outputIndex = some t.outputIndex) (his : t.Is item) :
    Shows shown text reasoning (c.toolItem event item) := by
  obtain ⟨i, hi⟩ := List.getElem?_of_mem ht
  have hknown := h.known i t hi
  have hkey : keyForEvent event = some (.output t.outputIndex) := by
    unfold keyForEvent
    rw [hindex]
  have hfound : c.lookupTool (.output t.outputIndex) event item = (i, c) := by
    unfold lookupTool
    rw [hknown.output]
  obtain ⟨byIndex, hsome, -, heq⟩ := h.toolItem_known hi hevent his hkey hfound
  rw [heq]
  refine h.rekeyed hi (.inl rfl) hknown.output (fun _ _ => rfl) fun o => ?_
  rw [hsome _ hindex]
  by_cases ho : o = t.outputIndex
  · rw [ho, AList.lookup_insert, hknown.index]
  · exact AList.lookup_insert_ne ho

theorem Shows.itemAtEnd (ht : t ∈ shown) (his : t.Is item) :
    Shows shown text reasoning (c.toolItem { type := .other "", item := some item } item) := by
  obtain ⟨i, hi⟩ := List.getElem?_of_mem ht
  have hknown := h.known i t hi
  have hnamed := h.named t ht
  let event : StreamEvent := { type := .other "", item := some item }
  have hkey : keyForEvent event = some (.item t.id) := by
    simp [event, keyForEvent, itemKey, his.id, hnamed.trimmedID, hnamed.id]
  have hitemID : responseStreamEventItemID event = t.id := his.eventItemID hnamed rfl
  obtain ⟨byKey, hself, hother, hfound⟩ : ∃ byKey : AList fun _ : ToolKey => Nat,
      byKey.lookup (.item t.id) = some i ∧
      (∀ key', key' ≠ .item t.id → byKey.lookup key' = c.toolByKey.lookup key') ∧
      c.lookupTool (.item t.id) event item = (i, { c with toolByKey := byKey }) := by
    unfold lookupTool
    cases hlookup : c.toolByKey.lookup (.item t.id) with
    | some j =>
      have hj := hknown.onlyItem j hlookup
      subst hj
      exact ⟨c.toolByKey, hlookup, fun _ _ => rfl, rfl⟩
    | none =>
      have halias : c.aliasedTool event item = some i := by
        unfold aliasedTool keyOfItemID
        rw [hitemID, if_neg hnamed.id, hknown.item, some_or]
      rw [halias]
      exact ⟨c.toolByKey.insert (.item t.id) i, AList.lookup_insert _,
        fun _ hne => AList.lookup_insert_ne hne, rfl⟩
  have hitem : event.item = some item := rfl
  obtain ⟨byIndex, -, hnone, heq⟩ := h.toolItem_known hi hitem his hkey hfound
  rw [heq]
  exact h.rekeyed hi (.inr rfl) hself hother fun o => by rw [hnone rfl]

end

/-! ## What is new -/

theorem updateTool_last {l : List ResponsesStreamTool} {tool : ResponsesStreamTool}
    (h : c.tools = l ++ [tool]) (f : ResponsesStreamTool → ResponsesStreamTool) :
    c.updateTool l.length f = { c with tools := l ++ [f tool] } := by
  unfold updateTool
  rw [h, List.modify_eq_set_getElem?, List.getElem?_concat_length]
  show { c with tools := (l ++ [tool]).set l.length (f tool) } = _
  rw [List.set_append_right _ _ (Nat.le_refl _), Nat.sub_self, List.set_cons_zero]

/-- An item under a new output index and with a new id makes a tool. -/
theorem Shows.ensureNew (h : Shows shown text reasoning c) (ht : t.Named)
    (hnew : ∀ u ∈ shown, u.outputIndex ≠ t.outputIndex ∧ u.id ≠ t.id)
     (hevent : event.item = some item)
    (hindex : event.outputIndex = some t.outputIndex) (his : t.Is item) :
    c.ensureToolForEvent event item = some (c.tools.length,
      { c with
        tools := c.tools ++ [t.fresh]
        toolByKey := c.toolByKey.insert (.output t.outputIndex) c.tools.length
        outputIndexToKey := c.outputIndexToKey.insert t.outputIndex (.output t.outputIndex)
        itemIDToKey := c.itemIDToKey.insert t.id (.output t.outputIndex)
        callIDToKey := c.callIDToKey.insert t.id (.output t.outputIndex) }) := by
  let key : ToolKey := .output t.outputIndex
  let n := c.tools.length
  have hkey : keyForEvent event = some key := by
    unfold keyForEvent
    rw [hindex]
  have hnokey : c.toolByKey.lookup key = none := by
    by_contra hsome
    obtain ⟨j, hj⟩ := ne_none_iff_exists'.1 hsome
    obtain ⟨u, hu, heq | heq⟩ := h.keys key j hj
    · exact (hnew u hu).1 (ToolKey.output.inj heq).symm
    · exact absurd (show ToolKey.output t.outputIndex = .item u.id from heq) nofun
  have hnoitem : c.itemIDToKey.lookup t.id = none := by
    by_contra hsome
    obtain ⟨k, hk⟩ := ne_none_iff_exists'.1 hsome
    obtain ⟨u, hu, heq⟩ := h.items _ k hk
    exact (hnew u hu).2 heq
  have hnocall : c.callIDToKey.lookup t.id = none := by
    by_contra hsome
    obtain ⟨k, hk⟩ := ne_none_iff_exists'.1 hsome
    obtain ⟨u, hu, heq⟩ := h.calls _ k hk
    exact (hnew u hu).2 heq
  have hitemID := his.eventItemID ht hevent
  let c₁ := c.addTool { key }
  let c₂ := { c₁ with outputIndexToKey := c.outputIndexToKey.insert t.outputIndex key }
  let unnamed : ResponsesStreamTool := { key, itemID := t.id }
  let c₃ := { c₂ with
    tools := c.tools ++ [unnamed]
    itemIDToKey := c.itemIDToKey.insert t.id key }
  let c₄ := { c₃ with
    tools := c.tools ++ [t.fresh]
    callIDToKey := c.callIDToKey.insert t.id key }
  have hfound : c.lookupTool key event item = (n, c₁) := by
    have hnoalias : c.aliasedTool event item = none := by
      unfold aliasedTool keyOfItemID keyOfCallID
      rw [hitemID, his.callId, ht.trimmedID, hnoitem, hnocall]
      simp
    unfold lookupTool
    rw [hnokey, hnoalias]
  have hclaim : c₁.claimOutputIndex n key (some t.outputIndex) = c₂ :=
    claimOutputIndex_eq (c := c₁) h.noneByIndex n key t.outputIndex
  have hitem : c₂.claimItemID n key t.id = c₃ := by
    refine (claimItemID_eq (c := c₂) h.noneByItem n key ht.id).trans ?_
    rw [updateTool_last (c := c₂) (l := c.tools) rfl]
    rfl
  have hidentity : c₃.claimIdentity n key item = c₄ := by
    refine (claimIdentity_eq (c := c₃) his ht n key).trans ?_
    rw [updateTool_last (c := c₃) (l := c.tools) rfl, identify_tool his ht]
    rfl
  unfold ensureToolForEvent
  rw [hkey, some_or, map_some]
  rw [hfound, hitemID, hindex]
  show some (n, ((c₁.claimOutputIndex n key (some t.outputIndex)).claimItemID n key t.id).claimIdentity n
    key item) = some (n, c₄)
  rw [hclaim, hitem, hidentity]

theorem chatIndex_call (i : Nat) (t : Announced) : (t.call i).chatIndex = i := rfl

theorem chatIndex_calls (shown : List Announced) :
    (shown.mapIdx Announced.call).map ToolCall.chatIndex =
      (List.range shown.length).map fun i : Nat => (i : Int) := by
  ext1 i
  rw [List.getElem?_map, List.getElem?_mapIdx, List.getElem?_map]
  by_cases hi : i < shown.length
  · rw [List.getElem?_eq_getElem hi, List.getElem?_range hi]
    rfl
  · rw [List.getElem?_eq_none (by omega), List.getElem?_eq_none (by simp; omega)]
    rfl

theorem nodup_calls (shown : List Announced) :
    ((shown.mapIdx Announced.call).map ToolCall.chatIndex).Nodup := by
  rw [chatIndex_calls]
  exact List.nodup_range.map fun i j hij => Int.ofNat.inj hij

theorem readChat_toolCall (c : ResponsesToChatStreamState) (call : ToolCall) :
    readChat (c.send { toolCalls := [call] }).sent =
      { readChat c.sent with toolCalls := addToolCall (readChat c.sent).toolCalls call } := by
  rw [readChat_send]
  simp [ChatReply.add, ChatDelta.getContentString, ChatDelta.getReasoningContent, ChatChoice.reason]

/-- A new item announces a tool call without arguments. -/
theorem Shows.itemNew (h : Shows shown text reasoning c) (ht : t.Named)
    (hargs : t.arguments = []) (hnew : ∀ u ∈ shown, u.outputIndex ≠ t.outputIndex ∧ u.id ≠ t.id)
     (hevent : event.item = some item)
    (hindex : event.outputIndex = some t.outputIndex) (his : t.Is item) :
    Shows (shown ++ [t]) text reasoning (c.toolItem event item) := by
  have hnone : item.arguments = [] := by
    rcases his.arguments with hnil | hsame
    · exact hnil
    · rw [hsame, hargs]
  have hlength : c.tools.length = shown.length := by rw [h.tools, List.length_map]
  let key : ToolKey := .output t.outputIndex
  let c₁ := { c with
    tools := c.tools ++ [t.fresh]
    toolByKey := c.toolByKey.insert key c.tools.length
    outputIndexToKey := c.outputIndexToKey.insert t.outputIndex key
    itemIDToKey := c.itemIDToKey.insert t.id key
    callIDToKey := c.callIDToKey.insert t.id key }
  let c₂ := { c₁ with tools := c.tools ++ [t.tool], sawToolCall := true }
  have hsent : c.toolItem event item = c₂.ensureStart.send { toolCalls := [t.call shown.length] } := by
    unfold ResponsesToChatStreamState.toolItem
    rw [h.ensureNew ht hnew hevent hindex his, hnone]
    show (c₁.updateTool c.tools.length _).toolDelta c.tools.length [] = _
    rw [updateTool_last (c := c₁) (l := c.tools) rfl]
    show c₁.toolDelta c.tools.length [] = _
    unfold toolDelta
    rw [show c₁.tools[c.tools.length]? = some t.fresh from List.getElem?_concat_length]
    dsimp only
    rw [show t.fresh.argsDelta [] = [] from rfl, if_neg (fun hidle => by cases hidle.1), hlength]
    have hafter : t.fresh.afterCall [] = t.tool := by
      simp [Announced.fresh, Announced.tool, ResponsesStreamTool.afterCall, hargs, ht.name]
    have hcall : t.fresh.call shown.length [] = t.call shown.length := by
      simp [Announced.fresh, Announced.call, ResponsesStreamTool.call, hargs, ht.trimmedID, ht.id]
    have hset : c₁.setTool shown.length t.tool = { c₁ with tools := c.tools ++ [t.tool] } := by
      show { c₁ with tools := (c.tools ++ [t.fresh]).set shown.length t.tool } = _
      rw [← hlength, List.set_append_right _ _ (Nat.le_refl _), Nat.sub_self, List.set_cons_zero]
    rw [hafter, hcall, hset]
  obtain ⟨chunks, hsilent, heq⟩ := ensureStart_eq c₂
  rw [hsent, heq]
  have hknown : ∀ i u, shown[i]? = some u →
      Known c₂.toolByKey c₂.outputIndexToKey c₂.itemIDToKey i u := by
    intro i u hi
    have hu := h.known i u hi
    obtain ⟨hneIndex, hneID⟩ := hnew u (List.mem_of_getElem? hi)
    have hneKey : ToolKey.output u.outputIndex ≠ key := fun hk => hneIndex (ToolKey.output.inj hk)
    refine ⟨?_, ?_, ?_, ?_⟩
    · exact (AList.lookup_insert_ne hneIndex).trans hu.index
    · exact (AList.lookup_insert_ne hneKey).trans hu.output
    · rw [AList.lookup_insert_ne hneID]
      obtain ⟨k, hk, hlookup⟩ := Option.bind_eq_some_iff.1 hu.item
      rw [hk, bind_some]
      have hkk : k ≠ key := by
        rintro rfl
        obtain ⟨v, hv, hsame | hsame⟩ := h.keys _ i hlookup
        · exact (hnew v hv).1 (ToolKey.output.inj hsame).symm
        · exact absurd (show ToolKey.output t.outputIndex = .item v.id from hsame) nofun
      exact (AList.lookup_insert_ne hkk).trans hlookup
    intro j hj
    have hne : ToolKey.item u.id ≠ key := nofun
    exact hu.onlyItem j ((AList.lookup_insert_ne hne).symm.trans hj)
  refine
    { h with
      reply := ?_, saw := ?_, tools := ?_, named := ?_, known := ?_, keys := ?_, items := ?_, calls := ?_ }
  · rw [readChat_toolCall]
    have hreply : readChat (c₂.sent ++ chunks) = _ := (readChat_silent hsilent c.sent).trans h.reply
    rw [hreply]
    rw [addToolCall_new, List.mapIdx_concat]
    intro call hcall
    obtain ⟨i, hi, rfl⟩ := List.mem_mapIdx.1 hcall
    simp only [chatIndex_call]
    omega
  · exact ⟨fun _ => by simp, fun _ => rfl⟩
  · show c.tools ++ [t.tool] = _
    rw [h.tools, List.map_append, List.map_singleton]
  · intro u hu
    rcases List.mem_append.1 hu with hu | hu
    · exact h.named u hu
    · rw [List.mem_singleton.1 hu]
      exact ht
  · intro i u hi
    by_cases hlt : i < shown.length
    · rw [List.getElem?_append_left hlt] at hi
      exact hknown i u hi
    obtain ⟨rfl, rfl⟩ : i = shown.length ∧ t = u := by
      rw [List.getElem?_append_right (by omega)] at hi
      have hzero : i - shown.length = 0 := by
        by_contra hne
        rw [List.getElem?_eq_none (by simp; omega)] at hi
        cases hi
      rw [hzero] at hi
      exact ⟨by omega, Option.some.inj hi⟩
    refine ⟨AList.lookup_insert _, ?_, ?_, ?_⟩
    · exact (AList.lookup_insert _).trans (congrArg some hlength)
    · show (AList.lookup t.id (c.itemIDToKey.insert t.id key)).bind _ = _
      rw [AList.lookup_insert, bind_some]
      exact (AList.lookup_insert _).trans (congrArg some hlength)
    intro j hj
    have hne : ToolKey.item t.id ≠ key := nofun
    obtain ⟨v, hv, hsame | hsame⟩ := h.keys _ j ((AList.lookup_insert_ne hne).symm.trans hj)
    · cases hsame
    · exact absurd (ToolKey.item.inj hsame).symm (hnew v hv).2
  · intro k j hk
    by_cases hkk : k = key
    · exact ⟨t, by simp, .inl hkk⟩
    · obtain ⟨u, hu, hor⟩ := h.keys k j ((AList.lookup_insert_ne hkk).symm.trans hk)
      exact ⟨u, List.mem_append_left _ hu, hor⟩
  · intro id k hk
    by_cases hid : id = t.id
    · exact ⟨t, by simp, hid.symm⟩
    · obtain ⟨u, hu, hsame⟩ := h.items id k ((AList.lookup_insert_ne hid).symm.trans hk)
      exact ⟨u, List.mem_append_left _ hu, hsame⟩
  intro id k hk
  by_cases hid : id = t.id
  · exact ⟨t, by simp, hid.symm⟩
  · obtain ⟨u, hu, hsame⟩ := h.calls id k ((AList.lookup_insert_ne hid).symm.trans hk)
    exact ⟨u, List.mem_append_left _ hu, hsame⟩

theorem mapIdx_call_set (shown : List Announced) (i : Nat) (t : Announced) :
    (shown.set i t).mapIdx Announced.call = (shown.mapIdx Announced.call).set i (t.call i) := by
  ext1 j
  rw [List.getElem?_mapIdx, List.getElem?_set, List.getElem?_set, List.getElem?_mapIdx,
    List.length_mapIdx]
  by_cases hij : i = j
  · subst hij
    simp only [if_true]
    split <;> rfl
  · rw [if_neg hij, if_neg hij]

theorem exists_mem_extend (hi : shown[i]? = some t) (delta : Bytes)
    {P : Int → String → Prop} (h : ∃ u ∈ shown, P u.outputIndex u.id) :
    ∃ u ∈ shown.set i (t.extend delta), P u.outputIndex u.id := by
  obtain ⟨u, hu, hP⟩ := h
  obtain ⟨j, hj⟩ := List.getElem?_of_mem hu
  have hlt : i < shown.length := (List.getElem?_eq_some_iff.1 hi).1
  by_cases hij : i = j
  · subst hij
    cases hi.symm.trans hj
    exact ⟨t.extend delta, List.mem_set hlt _, hP⟩
  refine ⟨u, List.mem_of_getElem? (i := j) ?_, hP⟩
  rw [List.getElem?_set_ne hij]
  exact hj

section
variable (h : Shows shown text reasoning c)
include h

/-- A delta of the arguments is sent on. -/
theorem Shows.argumentsDelta (hi : shown[i]? = some t)
    (hindex : event.outputIndex = some t.outputIndex) (hdelta : event.delta ≠ []) :
    Shows (shown.set i (t.extend event.delta)) text reasoning (c.toolArgumentsDelta event) := by
  have hknown := h.known i t hi
  have htool := h.tool hi
  have hlt : i < shown.length := (List.getElem?_eq_some_iff.1 hi).1
  let t' := t.extend event.delta
  let longer : ResponsesStreamTool := { t.tool with arguments := t.arguments ++ event.delta }
  let c₁ := { c with tools := c.tools.set i longer }
  let c₂ := { c with tools := c.tools.set i t'.tool, sawToolCall := true }
  let call : ToolCall := { index := some (i : Int), id := t.id, arguments := event.delta }
  have hfind : c.findToolForEvent event = some i := by
    unfold findToolForEvent findKeyForEvent
    rw [hindex, bind_some, hknown.index, some_or, bind_some, hknown.output]
  have hlength : i < c.tools.length := by
    rw [h.tools, List.length_map]
    exact hlt
  have hsent : c.toolArgumentsDelta event = c₂.ensureStart.send { toolCalls := [call] } := by
    unfold toolArgumentsDelta
    rw [if_neg hdelta, hfind]
    dsimp only
    have hupdate : (c.updateTool i fun tool => { tool with arguments := tool.arguments ++ event.delta }) =
        c₁ := by
      unfold updateTool
      rw [List.modify_eq_set_getElem?, htool]
      rfl
    rw [hupdate]
    unfold toolDelta
    rw [show c₁.tools[i]? = some longer from List.getElem?_set_self hlength]
    dsimp only
    have hargs : longer.argsDelta event.delta = event.delta := if_neg hdelta
    rw [hargs, if_neg fun hidle => hdelta hidle.2.1]
    have hafter : longer.afterCall event.delta = t'.tool := by
      simp [longer, t', Announced.tool, Announced.extend, ResponsesStreamTool.afterCall]
    have hcall : longer.call i event.delta = call := by
      have hnamed := h.named t (List.mem_of_getElem? hi)
      simp [longer, call, Announced.tool, ResponsesStreamTool.call, hnamed.trimmedID, hnamed.id]
    have hset : c₁.setTool i t'.tool = { c with tools := c.tools.set i t'.tool } := by
      show { c with tools := (c.tools.set i longer).set i t'.tool } = _
      rw [List.set_set]
    rw [hafter, hcall, hset]
  obtain ⟨chunks, hsilent, heq⟩ := ensureStart_eq c₂
  rw [hsent, heq]
  refine
    { h with
      reply := ?_, saw := ?_, tools := ?_, named := ?_, known := ?_, keys := ?_, items := ?_, calls := ?_ }
  · rw [readChat_toolCall]
    have hreply : readChat (c₂.sent ++ chunks) = _ := (readChat_silent hsilent c.sent).trans h.reply
    rw [hreply]
    have hcalls : (shown.mapIdx Announced.call)[i]? = some (t.call i) := by
      rw [List.getElem?_mapIdx, hi]
      rfl
    have hsame : (t.call i).chatIndex = call.chatIndex := rfl
    rw [addToolCall_known (nodup_calls shown) hcalls hsame, mapIdx_call_set]
    have hnamed := h.named t (List.mem_of_getElem? hi)
    have hmerge : (t.call i).merge call = t'.call i := by
      simp [ToolCall.merge, Announced.call, Announced.extend, call, t', hnamed.id, hnamed.name]
    rw [hmerge]
  · refine ⟨fun _ hnil => ?_, fun _ => rfl⟩
    have hlen := congrArg List.length hnil
    simp only [List.length_set, List.length_nil] at hlen
    omega
  · show c.tools.set i t'.tool = _
    rw [List.map_set, h.tools]
  · intro u hu
    rcases List.mem_or_eq_of_mem_set hu with hu | rfl
    · exact h.named u hu
    · have hnamed := h.named t (List.mem_of_getElem? hi)
      exact ⟨hnamed.id, hnamed.trimmedID, hnamed.name, hnamed.trimmedName⟩
  · intro j u hj
    by_cases hij : i = j
    · subst hij
      rw [List.getElem?_set_self hlt] at hj
      cases hj
      exact ⟨hknown.index, hknown.output, hknown.item, hknown.onlyItem⟩
    · rw [List.getElem?_set_ne hij] at hj
      exact h.known j u hj
  · intro k j hk
    exact exists_mem_extend hi event.delta
      (P := fun o id => k = .output o ∨ k = .item id) (h.keys k j hk)
  · intro id k hk
    exact exists_mem_extend hi event.delta (P := fun _ id' => id' = id) (h.items id k hk)
  · intro id k hk
    exact exists_mem_extend hi event.delta (P := fun _ id' => id' = id) (h.calls id k hk)

theorem Shows.flushPendingTool_eq (ht : t ∈ shown)
    (hindex : event.outputIndex = some t.outputIndex) : c.flushPendingTool event = c := by
  obtain ⟨i, hi⟩ := List.getElem?_of_mem ht
  have hknown := h.known i t hi
  have hfind : c.findToolForEvent event = some i := by
    unfold findToolForEvent findKeyForEvent
    rw [hindex, bind_some, hknown.index, some_or, bind_some, hknown.output]
  unfold flushPendingTool
  rw [hfind]
  exact toolDelta_shown h.tools i

theorem Shows.annotationDelta (a : Annotation) :
    ∃ c', c.annotationDelta (some a) = .ok c' ∧ Shows shown text reasoning c' ∧
      c'.needsReasoningSummaryBreak = c.needsReasoningSummaryBreak := by
  obtain ⟨converted, hconverted⟩ : ∃ converted, responseAnnotationToChat (some a) = .ok converted := by
    unfold responseAnnotationToChat
    dsimp only
    split_ifs
    · exact ⟨_, rfl⟩
    · exact ⟨_, rfl⟩
  let c₁ := { c with sentAnnotationCount := c.sentAnnotationCount + 1 }
  obtain ⟨chunks, hsilent, heq⟩ := ensureStart_eq c₁
  refine ⟨c₁.ensureStart.send { annotations := .list [converted] }, ?_, ?_, ?_⟩
  · unfold ResponsesToChatStreamState.annotationDelta
    rw [hconverted]
    rfl
  · have hcounted : Shows shown text reasoning c₁ := { h with }
    have hstart := hcounted.start
    have hchunk : Silent [c₁.ensureStart.makeChunk { annotations := .list [converted] } none] :=
      silent_of_delta rfl rfl rfl
    exact hstart.quiet hchunk c₁.ensureStart.id c₁.ensureStart.model c₁.ensureStart.created
      c₁.ensureStart.sentStart c₁.ensureStart.sentAnnotationCount
      c₁.ensureStart.needsReasoningSummaryBreak
  · rw [heq]
    rfl

end

theorem Shows.annotationDeltas (annotations : List (Option Annotation))
    (hsome : ∀ a ∈ annotations, a ≠ none) (h : Shows shown text reasoning c) :
    ∃ c', annotations.foldlM ResponsesToChatStreamState.annotationDelta c = .ok c' ∧
      Shows shown text reasoning c' := by
  induction annotations generalizing c with
  | nil => exact ⟨c, rfl, h⟩
  | cons a annotations ih =>
    obtain ⟨a, rfl⟩ := ne_none_iff_exists'.1 (hsome a List.mem_cons_self)
    obtain ⟨c₁, hc₁, h₁, -⟩ := h.annotationDelta a
    obtain ⟨c₂, hc₂, h₂⟩ := ih (fun b hb => hsome b (List.mem_cons_of_mem _ hb)) h₁
    refine ⟨c₂, ?_, h₂⟩
    rw [List.foldlM_cons, hc₁]
    exact hc₂

/-! ## The break between parts of reasoning -/

variable (c)

@[simp] theorem ensureStart_break :
    c.ensureStart.needsReasoningSummaryBreak = c.needsReasoningSummaryBreak := by
  unfold ensureStart
  split
  · rfl
  · rfl

theorem textDelta_break (delta : Bytes) :
    (c.textDelta delta).needsReasoningSummaryBreak = c.needsReasoningSummaryBreak := by
  unfold ResponsesToChatStreamState.textDelta
  split
  · rfl
  · exact ensureStart_break _

theorem reasoningDelta_break {delta : Bytes} (h : delta ≠ []) :
    (c.reasoningDelta delta).needsReasoningSummaryBreak = false := by
  unfold ResponsesToChatStreamState.reasoningDelta
  rw [if_neg h]
  exact ensureStart_break _

theorem toolDelta_break (i : Nat) (delta : Bytes) :
    (c.toolDelta i delta).needsReasoningSummaryBreak = c.needsReasoningSummaryBreak := by
  unfold toolDelta
  split
  · rfl
  dsimp only
  split
  · rfl
  · exact ensureStart_break _

theorem lookupTool_break (key : ToolKey) (event : StreamEvent) (item : ResponsesOutput) :
    (c.lookupTool key event item).2.needsReasoningSummaryBreak = c.needsReasoningSummaryBreak := by
  unfold lookupTool
  split
  · rfl
  split
  · rfl
  · rfl

theorem claimOutputIndex_break (i : Nat) (key : ToolKey) (outputIndex : Option Int) :
    (c.claimOutputIndex i key outputIndex).needsReasoningSummaryBreak = c.needsReasoningSummaryBreak := by
  unfold claimOutputIndex
  split
  · rfl
  dsimp only
  split
  · rfl
  · rfl

theorem claimItemID_break (i : Nat) (key : ToolKey) (itemID : String) :
    (c.claimItemID i key itemID).needsReasoningSummaryBreak = c.needsReasoningSummaryBreak := by
  unfold claimItemID
  split
  · rfl
  dsimp only
  split
  · rfl
  · rfl

theorem claimIdentity_break (i : Nat) (key : ToolKey) (item : ResponsesOutput) :
    (c.claimIdentity i key item).needsReasoningSummaryBreak = c.needsReasoningSummaryBreak := by
  unfold claimIdentity
  split
  · rfl
  · rfl

theorem toolItem_break (event : StreamEvent) (item : ResponsesOutput) :
    (c.toolItem event item).needsReasoningSummaryBreak = c.needsReasoningSummaryBreak := by
  unfold ResponsesToChatStreamState.toolItem
  split
  · rfl
  rename_i i c' hensure
  obtain ⟨key, -, hkey⟩ := Option.map_eq_some_iff.1 hensure
  have hc' := congrArg (fun found => found.2.needsReasoningSummaryBreak) hkey
  rw [claimIdentity_break, claimItemID_break, claimOutputIndex_break, lookupTool_break] at hc'
  rw [toolDelta_break]
  exact hc'.symm

theorem toolArgumentsDelta_break (event : StreamEvent) :
    (c.toolArgumentsDelta event).needsReasoningSummaryBreak = c.needsReasoningSummaryBreak := by
  unfold toolArgumentsDelta
  split
  · rfl
  split
  · exact toolDelta_break _ _ _
  split
  · rfl
  dsimp only
  split
  · rfl
  · rfl

variable {c}

/-! ## The end of the stream -/

/-- An item of the final response that repeats what was shown. -/
structure Repeats (shown : List Announced) (text reasoning : Bytes) (output : ResponsesOutput) :
    Prop where
  message : output.type = .message → text = [] → messageOutputText output = []
  annotations : ∀ content ∈ output.content, none ∉ content.annotations
  reasoning : output.type = .reasoning → reasoning = [] → reasoningOutputText output = []
  tool : isResponsesToolOutputType output.type = true → ∃ t ∈ shown, t.Is output

theorem Shows.remainingAnnotationChunks (h : Shows shown text reasoning c) {output : ResponsesOutput}
    (hsome : ∀ content ∈ output.content, none ∉ content.annotations) (count : Nat) :
    ∃ c', c.remainingAnnotationChunks output count = .ok c' ∧ Shows shown text reasoning c' := by
  refine Shows.annotationDeltas _ ?_ h
  rintro a ha rfl
  obtain ⟨l, hl, hmem⟩ := List.mem_flatten.1 (List.mem_of_mem_drop ha)
  obtain ⟨content, hcontent, rfl⟩ := List.mem_map.1 hl
  exact hsome content hcontent hmem

theorem Shows.terminalOutput (h : Shows shown text reasoning c) {output : ResponsesOutput}
    (hrepeats : Repeats shown text reasoning output) {hadText hadReasoning : Bool}
    (htext : text ≠ [] → hadText = true) (hreasoning : reasoning ≠ [] → hadReasoning = true)
    (count : Nat) :
    ∃ acc, ResponsesToChatStreamState.terminalOutput hadText hadReasoning (c, count) output = .ok acc ∧
      Shows shown text reasoning acc.1 := by
  unfold ResponsesToChatStreamState.terminalOutput
  dsimp only
  split_ifs with hmessage hhad hreason htool
  · obtain ⟨c', hc', h'⟩ := h.remainingAnnotationChunks hrepeats.annotations count
    refine ⟨(c', count + responsesOutputAnnotationCount output), ?_, h'⟩
    rw [hc']
    rfl
  · have hempty : messageOutputText output = [] := by
      refine hrepeats.message hmessage ?_
      by_contra hne
      exact hhad (htext hne)
    obtain ⟨c', hc', h'⟩ := h.remainingAnnotationChunks hrepeats.annotations count
    refine ⟨(c', count + responsesOutputAnnotationCount output), ?_, h'⟩
    rw [show c.textDelta (messageOutputText output) = c from if_pos hempty, hc']
    rfl
  · have hempty : reasoningOutputText output = [] := by
      refine hrepeats.reasoning hreason.1 ?_
      by_contra hne
      exact hreason.2 (hreasoning hne)
    refine ⟨_, rfl, ?_⟩
    rw [show c.reasoningDelta (reasoningOutputText output) = c from if_pos hempty]
    exact h
  · obtain ⟨t, ht, his⟩ := hrepeats.tool htool
    exact ⟨_, rfl, h.itemAtEnd ht his⟩
  · exact ⟨_, rfl, h⟩

theorem Shows.terminalOutputs {hadText hadReasoning : Bool} (htext : text ≠ [] → hadText = true)
    (hreasoning : reasoning ≠ [] → hadReasoning = true) (outputs : List ResponsesOutput)
    (hrepeats : ∀ output ∈ outputs, Repeats shown text reasoning output)
    (h : Shows shown text reasoning c) (count : Nat) :
    ∃ acc, outputs.foldlM (ResponsesToChatStreamState.terminalOutput hadText hadReasoning) (c, count) =
        .ok acc ∧ Shows shown text reasoning acc.1 := by
  induction outputs generalizing c count with
  | nil => exact ⟨_, rfl, h⟩
  | cons output outputs ih =>
    obtain ⟨acc, hacc, h₁⟩ :=
      h.terminalOutput (hrepeats output List.mem_cons_self) htext hreasoning count
    obtain ⟨acc', hacc', h₂⟩ := ih (fun o ho => hrepeats o (List.mem_cons_of_mem _ ho)) h₁ acc.2
    refine ⟨acc', ?_, h₂⟩
    rw [List.foldlM_cons, hacc]
    exact hacc'

theorem updateTool_append_nil (c : ResponsesToChatStreamState) (i : Nat) :
    (c.updateTool i fun tool => { tool with arguments := tool.arguments ++ [] }) = c := by
  have hsame : (fun tool : ResponsesStreamTool => { tool with arguments := tool.arguments ++ [] }) =
      fun tool => tool := by
    funext tool
    simp
  rw [hsame]
  exact congrArg (fun l => { c with tools := l }) (List.modify_id i c.tools)

theorem takePending_eq (hindex : c.pendingArgsByOutputIndex = ∅) (hitem : c.pendingArgsByItemID = ∅)
    (i : Nat) (key : ToolKey) : c.takePending i key = c := by
  cases key with
  | output o =>
    have hnil : (c.pendingArgsByOutputIndex.lookup o).getD [] = [] := by
      rw [hindex]
      rfl
    have herase : c.pendingArgsByOutputIndex.erase o = c.pendingArgsByOutputIndex := by
      rw [hindex]
      rfl
    unfold takePending
    dsimp only
    rw [hnil, herase, updateTool_append_nil]
  | item itemID =>
    have hnil : (c.pendingArgsByItemID.lookup itemID).getD [] = [] := by
      rw [hitem]
      rfl
    have herase : c.pendingArgsByItemID.erase itemID = c.pendingArgsByItemID := by
      rw [hitem]
      rfl
    unfold takePending
    dsimp only
    rw [hnil, herase, updateTool_append_nil]
  | call callID => rfl

theorem flushAllPendingTools_shown (htools : c.tools = shown.map Announced.tool)
    (hindex : c.pendingArgsByOutputIndex = ∅) (hitem : c.pendingArgsByItemID = ∅) :
    c.flushAllPendingTools = c := by
  have hkeys : ∀ key ∈ c.flushKeys, key ∈ c.toolByKey := by
    intro key hkey
    unfold flushKeys at hkey
    rw [List.mem_insertionSort, List.mem_dedup, hindex, hitem] at hkey
    simpa [← AList.mem_keys] using hkey
  have hflush : ∀ key ∈ c.toolByKey, c.flushKey key = c := by
    intro key hkey
    obtain ⟨i, hi⟩ := Option.isSome_iff_exists.1 (AList.lookup_isSome.2 hkey)
    unfold flushKey
    rw [hi]
    dsimp only
    rw [takePending_eq hindex hitem, toolDelta_shown htools]
  unfold flushAllPendingTools
  generalize c.flushKeys = keys at hkeys
  induction keys with
  | nil => rfl
  | cons key keys ih =>
    rw [List.foldl_cons, hflush key (hkeys key List.mem_cons_self)]
    exact ih fun k hk => hkeys k (List.mem_cons_of_mem _ hk)

theorem finishReason_not_blank (c : ResponsesToChatStreamState) (response : Option ResponsesResponse) :
    trimSpace (c.finishReason response) ≠ "" := by
  have hreason : c.finishReason response = "length" ∨ c.finishReason response = "content_filter" ∨
      c.finishReason response = "tool_calls" ∨ c.finishReason response = "stop" := by
    unfold finishReason responsesFinishReasonFromStatus
    cases response with
    | none =>
      split_ifs <;> simp
    | some response =>
      simp only [bind_some]
      split_ifs <;> simp
  rcases hreason with h | h | h | h <;> rw [h] <;> decide +kernel

theorem Shows.finalize (h : Shows shown text reasoning c) (response : Option ResponsesResponse) :
    (c.finalize response).finalized = true ∧
      readChat (c.finalize response).sent =
        { text, reasoning, toolCalls := shown.mapIdx Announced.call
          finishReasons := [(response.bind responsesFinishReasonFromStatus).getD
            (if shown = [] then "stop" else "tool_calls")] } := by
  let c₁ := { c with finalized := true }
  have hflush : c₁.flushAllPendingTools = c₁ :=
    flushAllPendingTools_shown (c := c₁) h.tools h.noneByIndex h.noneByItem
  obtain ⟨chunks, hsilent, heq⟩ := ensureStart_eq c₁
  have hblank := finishReason_not_blank c₁.ensureStart response
  have hreason : c₁.ensureStart.finishReason response =
      (response.bind responsesFinishReasonFromStatus).getD
        (if shown = [] then "stop" else "tool_calls") := by
    rw [heq]
    unfold finishReason
    congr 1
    by_cases hnil : shown = []
    · rw [if_pos hnil, if_neg fun hsaw => h.saw.1 hsaw hnil]
    · rw [if_neg hnil, if_pos (h.saw.2 hnil)]
  unfold ResponsesToChatStreamState.finalize
  rw [if_neg (by simp [h.finalized])]
  rw [show ({ c with finalized := true } : ResponsesToChatStreamState) = c₁ from rfl, hflush]
  refine ⟨?_, ?_⟩
  · rw [heq]
  have hstart : readChat c₁.ensureStart.sent = readChat c.sent := by
    rw [heq]
    exact readChat_silent hsilent c.sent
  have husage : Silent (if c₁.ensureStart.includeUsage then
      [{ id := c₁.ensureStart.id, created := c₁.ensureStart.created,
         model := c₁.ensureStart.model : ChatChunk }] else []) := by
    split
    · exact fun _ => rfl
    · exact silent_nil
  rw [readChat_silent husage, readChat_append, hstart, h.reply]
  show ChatReply.add _ { finishReason := some (c₁.ensureStart.finishReason response) } = _
  rw [← hreason]
  simp [ChatReply.add, ChatDelta.getContentString, ChatDelta.getReasoningContent, ChatChoice.reason,
    Option.filter, hblank]

theorem Shows.finish (h : Shows shown text reasoning c) {response : ResponsesResponse}
    (hrepeats : ∀ output ∈ response.output, Repeats shown text reasoning output) :
    ∃ c', c.finish (some response) = .ok c' ∧ c'.finalized = true ∧
      readChat c'.sent =
        { text, reasoning, toolCalls := shown.mapIdx Announced.call
          finishReasons := [(responsesFinishReasonFromStatus response).getD
            (if shown = [] then "stop" else "tool_calls")] } := by
  have hmeta := h.metadata (some response)
  obtain ⟨acc, hacc, hshows⟩ := Shows.terminalOutputs hmeta.hasText hmeta.hasReasoning response.output
    hrepeats hmeta 0
  obtain ⟨hfinalized, hreply⟩ := hshows.finalize (some response)
  refine ⟨_, ?_, hfinalized, hreply⟩
  unfold ResponsesToChatStreamState.finish terminalOutputChunks
  dsimp only
  rw [hacc]
  rfl

end ResponsesToChatStreamState

end NewApi.Convert
