/-
  NewApi.Convert.ChatToClaudeStream

  What the converter from chat to Claude makes of a whole stream.

  `Mirror` connects its state with the blocks of the chat stream: which block is
  open, or which group of tool calls, and where it finds the calls of the group.
  Every method keeps it as long as the chunk is `Carried`.
-/

import NewApi.Convert.ChatToClaudeBlocks

namespace NewApi.Convert

open Function (update_of_ne update_self)
open NewApi.Lib
open NewApi.Subscription (trimSpace)

/-! ## The state of the converter -/

namespace ClaudeConvertInfo

variable (uuid : Nat → String) {s : ClaudeConvertInfo} {r : ChatBlocks} {blocks : List ReplyBlock}
variable {base : Nat}

theorem startToolBlock_eq (s : ClaudeConvertInfo) (k : Nat) (tool : ClaudeStreamToolCall) :
    s.startToolBlock k tool = { s with
      sent := s.sent ++ (.contentBlockStart tool.blockIndex (.toolUse tool.id tool.name) ::
        if tool.pendingArguments = [] then []
        else [.contentBlockDelta tool.blockIndex (.inputJson tool.pendingArguments)])
      toolCalls := s.toolCalls.set k { tool with started := true, pendingArguments := [] } } := by
  unfold startToolBlock
  split
  · rfl
  · simp [send, setTool]

theorem startPendingToolBlock_spec (h : Group s.sent base s.toolCalls blocks) (k : Nat) :
    ∃ log tools n, s.startPendingToolBlock uuid k =
        { s with sent := log, toolCalls := tools, generated := n } ∧
      Group log base tools blocks ∧ (∀ j, j ≠ k → tools[j]? = s.toolCalls[j]?) ∧
      tools.length = s.toolCalls.length ∧
      ∀ tool, tools[k]? = some tool → tool.started = true ∨ tool.name = "" := by
  unfold startPendingToolBlock
  split
  · rename_i hk
    refine ⟨s.sent, s.toolCalls, s.generated, rfl, h, fun _ _ => rfl, rfl, fun tool htool => ?_⟩
    rw [hk] at htool
    cases htool
  rename_i tool hk
  obtain ⟨c, hc, hmatch⟩ := h.calls k tool hk
  have hlt := (List.getElem?_eq_some_iff.1 hk).1
  split
  · rename_i hskip
    refine ⟨s.sent, s.toolCalls, s.generated, rfl, h, fun _ _ => rfl, rfl, fun t ht => ?_⟩
    cases hk.symm.trans ht
    exact hskip
  rename_i hskip
  obtain ⟨hidle, hname⟩ := not_or.1 hskip
  -- whatever the id is, it is that of the call if the call has one
  have hstart : ∀ id, (c.id ≠ "" → id = c.id) → ∃ log tools,
      (∀ n, { s with generated := n }.startToolBlock k { tool with id := id } =
        { s with sent := log, toolCalls := tools, generated := n }) ∧
      Group log base tools blocks ∧ (∀ j, j ≠ k → tools[j]? = s.toolCalls[j]?) ∧
      tools.length = s.toolCalls.length ∧
      ∀ t, tools[k]? = some t → t.started = true ∨ t.name = "" := by
    intro id hid
    have hgroup := h.start hk (by simpa using hidle) hname id fun c' hc' => by
      cases hc.symm.trans hc'
      exact hid
    refine ⟨_, _, fun n => startToolBlock_eq { s with generated := n } k { tool with id := id },
      hgroup, fun j hj => ?_, List.length_set, fun t ht => ?_⟩
    · exact List.getElem?_set_ne (Ne.symm hj)
    rw [List.getElem?_set_self hlt] at ht
    cases ht
    exact .inl rfl
  split
  · rename_i hempty
    obtain ⟨log, tools, heq, hrest⟩ := hstart ("toolu_" ++ uuid s.generated) fun hid =>
      absurd ((hmatch.id hid).symm.trans hempty) hid
    exact ⟨log, tools, _, heq _, hrest⟩
  · obtain ⟨log, tools, heq, hrest⟩ := hstart tool.id hmatch.id
    exact ⟨log, tools, _, heq s.generated, hrest⟩

theorem startPendingToolBlocks_spec (h : Group s.sent base s.toolCalls blocks) (n : Nat) :
    ∃ log tools g, (List.range n).foldl (startPendingToolBlock uuid) s =
        { s with sent := log, toolCalls := tools, generated := g } ∧
      Group log base tools blocks ∧ tools.length = s.toolCalls.length ∧
      ∀ j tool, j < n → tools[j]? = some tool → tool.started = true ∨ tool.name = "" := by
  induction n with
  | zero => exact ⟨s.sent, s.toolCalls, s.generated, rfl, h, rfl, fun _ _ hlt => absurd hlt (by omega)⟩
  | succ n ih =>
    obtain ⟨log, tools, g, heq, hgroup, hlength, hall⟩ := ih
    rw [List.range_succ, List.foldl_append, heq]
    let s₁ : ClaudeConvertInfo := { s with sent := log, toolCalls := tools, generated := g }
    obtain ⟨log', tools', g', heq', hgroup', hother, hlength', hlast⟩ :=
      startPendingToolBlock_spec uuid (s := s₁) hgroup n
    refine ⟨log', tools', g', heq', hgroup', hlength'.trans hlength, fun j tool hlt hj => ?_⟩
    by_cases hjn : j = n
    · subst hjn
      exact hlast tool hj
    · rw [hother j hjn] at hj
      exact hall j tool (by omega) hj

/-- What no block changes. -/
structure Frame (s s' : ClaudeConvertInfo) : Prop where
  done : s'.done = s.done
  count : s'.sendResponseCount = s.sendResponseCount

theorem Frame.trans {s' s'' : ClaudeConvertInfo} (h : Frame s s') (h' : Frame s' s'') : Frame s s'' :=
  ⟨h'.done.trans h.done, h'.count.trans h.count⟩

/-- No block is open. -/
structure Between (s : ClaudeConvertInfo) (blocks : List ReplyBlock) : Prop where
  last : s.lastMessagesType = none
  index : s.index = blocks.length
  wrote : Wrote s.sent blocks (closedTable blocks)

/-- The position of a call in the group that begins at `base`. -/
def localTo (base k : Nat) : Option Nat := if base ≤ k then some (k - base) else none

/-- The converter finds the calls of the group that is open. -/
structure Known (base : Nat) (tools : List ClaudeStreamToolCall) (byIndex : Int → Option Nat)
    (byID : String → Option Nat) (r : ChatBlocks) : Prop where
  edge : ∀ i, i + 1 = base → ∃ b, r.blocks[i]? = some b ∧ b.kind ≠ .toolUse
  index : ∀ i, byIndex i = (r.byIndex i).bind (localTo base)
  id : ∀ id, byID id = (r.byID id).bind (localTo base)
  ids : ∀ j tool c, tools[j]? = some tool → r.blocks[base + j]? = some (.call c) →
    tool.id = c.id ∧ (tool.started = true → c.id ≠ "")

/-- The converter shows what the chat stream has so far. -/
def Mirror (s : ClaudeConvertInfo) (r : ChatBlocks) : Prop :=
  match s.lastMessagesType with
  | none => s.index = 0 ∧ r.blocks = [] ∧ Wrote s.sent [] (closedTable [])
  | some .toolUse => s.toolCalls ≠ [] ∧ Group s.sent s.toolCallBaseIndex s.toolCalls r.blocks ∧
      Known s.toolCallBaseIndex s.toolCalls s.toolCallByIndex s.toolCallByID r
  | some kind => Opened s.sent s.index kind r.blocks

theorem appendStopOpenBlocks_spec (h : s.Mirror r) : ∃ log tools n, s.appendStopOpenBlocks uuid =
        { s with sent := log, toolCalls := tools, generated := n } ∧
      Wrote log r.blocks (closedTable r.blocks) ∧ tools.length = s.toolCalls.length := by
  unfold Mirror at h
  unfold appendStopOpenBlocks startPendingToolBlocks
  cases hlast : s.lastMessagesType with
  | none =>
    rw [hlast] at h
    obtain ⟨-, hblocks, hwrote⟩ := h
    refine ⟨s.sent, s.toolCalls, s.generated, ?_, ?_, rfl⟩
    · simp [stopOpenBlocks, hlast, sendAll]
    · rw [hblocks]
      exact hwrote
  | some kind =>
    rw [hlast] at h
    cases kind with
    | toolUse =>
      obtain ⟨hsome, hgroup, -⟩ := h
      obtain ⟨log, tools, n, heq, hgroup', hlength, hall⟩ :=
        startPendingToolBlocks_spec uuid hgroup s.toolCalls.length
      have htools : tools ≠ [] := by
        intro hnil
        rw [hnil] at hlength
        exact hsome (List.length_eq_zero_iff.1 hlength.symm)
      refine ⟨log ++ (startedBlocks tools).map .contentBlockStop, tools, n, ?_, ?_, hlength⟩
      · rw [if_neg (by simp), heq]
        simp [stopOpenBlocks, hlast, sendAll, htools, startedBlocks]
      refine hgroup'.close fun tool htool => ?_
      obtain ⟨j, hj⟩ := List.mem_iff_getElem?.1 htool
      refine hall j tool ?_ hj
      rw [← hlength]
      exact (List.getElem?_eq_some_iff.1 hj).1
    | text | thinking =>
      refine ⟨_, s.toolCalls, s.generated, ?_, h.close (by decide), rfl⟩
      simp [stopOpenBlocks, hlast, sendAll]

theorem frame_advance (h : s.Mirror r) : Frame s (s.stopOpenBlocksAndAdvance uuid) := by
  obtain ⟨log, tools, n, heq, -⟩ := appendStopOpenBlocks_spec uuid h
  unfold stopOpenBlocksAndAdvance
  split
  · exact ⟨rfl, rfl⟩
  · dsimp only
    rw [heq]
    exact ⟨rfl, rfl⟩
  rw [heq]
  exact ⟨rfl, rfl⟩

theorem between_advance (h : s.Mirror r) : (s.stopOpenBlocksAndAdvance uuid).Between r.blocks := by
  obtain ⟨log, tools, n, heq, hwrote, hlength⟩ := appendStopOpenBlocks_spec uuid h
  unfold stopOpenBlocksAndAdvance
  unfold Mirror at h
  cases hlast : s.lastMessagesType with
  | none =>
    rw [hlast] at h
    obtain ⟨hindex, hblocks, hwrote'⟩ := h
    refine ⟨hlast, ?_, ?_⟩
    · rw [hindex, hblocks]
      rfl
    · rw [hblocks]
      exact hwrote'
  | some kind =>
    rw [hlast] at h
    cases kind with
    | toolUse =>
      obtain ⟨-, hgroup, -⟩ := h
      rw [heq]
      refine ⟨rfl, ?_, hwrote⟩
      show s.toolCallBaseIndex + tools.length = _
      rw [hlength, hgroup.length]
    | text | thinking =>
      obtain ⟨⟨before, b, hblocks, -, hn⟩, -⟩ := h
      rw [heq]
      refine ⟨rfl, ?_, hwrote⟩
      simp [hblocks, hn]

/-! ### Text, thinking and citations -/

theorem Mirror.last (h : s.Mirror r) :
    s.lastMessagesType = r.blocks.getLast?.map ReplyBlock.kind := by
  unfold Mirror at h
  cases hlast : s.lastMessagesType with
  | none =>
    rw [hlast] at h
    rw [h.2.1]
    rfl
  | some kind =>
    rw [hlast] at h
    cases kind with
    | toolUse =>
      obtain ⟨hsome, hgroup, -⟩ := h
      have hpos := List.length_pos_iff.2 hsome
      have hlength := hgroup.length
      obtain ⟨c, hc, -⟩ := hgroup.calls (s.toolCalls.length - 1) _ (List.getElem?_eq_getElem (by omega))
      rw [List.getLast?_eq_getElem?, hlength, Nat.add_sub_assoc hpos, hc]
      rfl
    | text | thinking =>
      obtain ⟨⟨before, b, hblocks, hkind, -⟩, -⟩ := h
      simp [hblocks, hkind]

variable {kind : BlockKind}

section
variable (hkind : kind ≠ .toolUse) (hlast : s.lastMessagesType = some kind)
include hkind hlast

theorem mirror_of_opened (h : Opened s.sent s.index kind r.blocks) : s.Mirror r := by
  unfold Mirror
  rw [hlast]
  cases kind with
  | toolUse => exact absurd rfl hkind
  | text => exact h
  | thinking => exact h

theorem opened_of_mirror (h : s.Mirror r) : Opened s.sent s.index kind r.blocks := by
  unfold Mirror at h
  rw [hlast] at h
  cases kind with
  | toolUse => exact absurd rfl hkind
  | text => exact h
  | thinking => exact h

end

theorem ensureBlock_spec (h : s.Mirror r) (hkind : kind ≠ .toolUse)
    {block : ContentBlock} (hshown : Shown (.ofKind kind []) block) :
    Opened (s.ensureBlock uuid kind block).sent (s.ensureBlock uuid kind block).index kind
        (r.extend kind []).blocks ∧
      (s.ensureBlock uuid kind block).lastMessagesType = some kind := by
  unfold ensureBlock
  by_cases hlast : s.lastMessagesType = some kind
  · rw [if_pos hlast]
    have hopened := opened_of_mirror hkind hlast h
    obtain ⟨before, b, hblocks, rfl, -⟩ := hopened.last
    rw [ChatBlocks.extend_last hblocks, ChatBlocks.append_nil, ← hblocks]
    exact ⟨hopened, hlast⟩
  rw [if_neg hlast]
  have hbetween := between_advance uuid h
  rw [show (r.extend kind []).blocks = r.blocks ++ [.ofKind kind []] from
    if_neg fun hsame => hlast (h.last.trans hsame)]
  have hopened := hbetween.wrote.opening hshown
  rw [← hbetween.index] at hopened
  exact ⟨hopened, rfl⟩

theorem frame_ensureBlock (h : s.Mirror r) (kind : BlockKind) (block : ContentBlock) :
    Frame s (s.ensureBlock uuid kind block) := by
  unfold ensureBlock
  split
  · exact ⟨rfl, rfl⟩
  · exact ⟨(frame_advance uuid h).done, (frame_advance uuid h).count⟩

theorem mirror_append (h : s.Mirror r) (hkind : kind ≠ .toolUse)
    {block : ContentBlock} (hshown : Shown (.ofKind kind []) block) {delta : BlockDelta}
    (hdelta : delta.kind = kind) : ((s.ensureBlock uuid kind block).send
      (.contentBlockDelta (s.ensureBlock uuid kind block).index delta)).Mirror
        (r.extend kind delta.value) := by
  obtain ⟨hopened, hlast⟩ := ensureBlock_spec uuid h hkind hshown
  obtain ⟨before, b, hblocks, -, -⟩ := hopened.last
  have hsent := hopened.send hdelta hblocks
  rw [← ChatBlocks.extend_of_extend_nil hblocks] at hsent
  exact mirror_of_opened hkind hlast hsent

theorem opened_citations {log : List ClaudeEvent} {n : Nat} (h : Opened log n .text blocks)
    (citations : List Citation) :
    Opened (log ++ citations.map fun citation => .contentBlockDelta n (.citations citation)) n .text
      blocks := by
  induction citations generalizing log with
  | nil => simpa using h
  | cons citation citations ih =>
    obtain ⟨before, b, hblocks, -, -⟩ := h.last
    have hkind : (BlockDelta.citations citation).kind = .text := rfl
    have hsent := h.send hkind hblocks
    rw [show b.append (BlockDelta.citations citation).value = b from ChatBlocks.append_nil b,
      ← hblocks] at hsent
    have hrest := ih hsent
    rwa [List.append_assoc] at hrest

theorem mirror_appendCitationDeltas (h : s.Mirror r) (raw : RawAnnotations) :
    (s.appendCitationDeltas uuid raw).Mirror
      (if chatAnnotationsToClaude raw = [] then r else r.extend .text []) := by
  unfold appendCitationDeltas
  dsimp only
  split
  · exact h
  have hshown : Shown (.ofKind .text []) .text := trivial
  obtain ⟨hopened, hlast⟩ := ensureBlock_spec uuid h (by decide) hshown
  exact mirror_of_opened (by decide) hlast (opened_citations hopened _)

theorem frame_appendCitationDeltas (h : s.Mirror r) (raw : RawAnnotations) :
    Frame s (s.appendCitationDeltas uuid raw) := by
  unfold appendCitationDeltas
  dsimp only
  split
  · exact ⟨rfl, rfl⟩
  · have hensure := frame_ensureBlock uuid h .text .text
    exact ⟨hensure.done, hensure.count⟩

/-! ### Tool calls -/

/-- The converter is in a group of tool calls, perhaps before its first fragment. -/
structure InGroup (s : ClaudeConvertInfo) (r : ChatBlocks) : Prop where
  last : s.lastMessagesType = some .toolUse
  group : Group s.sent s.toolCallBaseIndex s.toolCalls r.blocks
  known : Known s.toolCallBaseIndex s.toolCalls s.toolCallByIndex s.toolCallByID r

theorem inGroup_openToolCalls (h : s.Mirror r) (hok : r.Ok) : (s.openToolCalls uuid).InGroup r := by
  unfold openToolCalls
  by_cases hlast : s.lastMessagesType = some .toolUse
  · rw [if_pos hlast]
    have hmirror := h
    unfold Mirror at hmirror
    rw [hlast] at hmirror
    exact ⟨hlast, hmirror.2.1, hmirror.2.2⟩
  rw [if_neg hlast]
  have hbetween := between_advance uuid h
  have hgroup := hbetween.wrote.group
  rw [← hbetween.index] at hgroup
  refine ⟨rfl, hgroup, fun i hi => ?_, fun i => ?_, fun id => ?_, by simp⟩
  · have hi' : i + 1 = r.blocks.length := hi.trans hbetween.index
    refine ⟨r.blocks[i], List.getElem?_eq_getElem (by omega), fun hkind => hlast ?_⟩
    rw [h.last, List.getLast?_eq_getElem?, show r.blocks.length - 1 = i by omega,
      List.getElem?_eq_getElem (by omega)]
    exact congrArg some hkind
  · show none = (r.byIndex i).bind (localTo (s.stopOpenBlocksAndAdvance uuid).index)
    cases hk : r.byIndex i with
    | none => rfl
    | some k =>
      obtain ⟨c, hc⟩ := hok.index i k hk
      have hlt := (List.getElem?_eq_some_iff.1 hc).1
      rw [hbetween.index]
      exact (if_neg (by omega)).symm
  show none = (r.byID id).bind (localTo (s.stopOpenBlocksAndAdvance uuid).index)
  cases hk : r.byID id with
  | none => rfl
  | some k =>
    obtain ⟨c, hc, -⟩ := hok.id id k hk
    have hlt := (List.getElem?_eq_some_iff.1 hc).1
    rw [hbetween.index]
    exact (if_neg (by omega)).symm

theorem find_local (h : s.InGroup r) (hok : r.Ok) {delta : ToolCall}
    (hin : ∀ k, r.find delta = some k → s.toolCallBaseIndex ≤ k) :
    findToolCall s.toolCallByIndex s.toolCallByID s.toolID delta.chatIndex (trimSpace delta.id) =
      (r.find delta).map (· - s.toolCallBaseIndex) := by
  have hlength := h.group.length
  -- inside the group both sides look at the same id
  have hid : ∀ k, s.toolCallBaseIndex ≤ k → s.toolID (k - s.toolCallBaseIndex) = r.idAt k := by
    intro k hk
    obtain ⟨j, rfl⟩ := Nat.exists_eq_add_of_le hk
    rw [Nat.add_sub_cancel_left]
    unfold toolID ChatBlocks.idAt
    cases hj : s.toolCalls[j]? with
    | none =>
      have := List.getElem?_eq_none_iff.1 hj
      rw [List.getElem?_eq_none (by omega)]
      rfl
    | some tool =>
      obtain ⟨c, hc, -⟩ := h.group.calls j tool hj
      rw [hc]
      exact (h.known.ids j tool c hj hc).1
  have hin' := hin
  unfold ChatBlocks.find at hin' ⊢
  unfold findToolCall at hin' ⊢
  rw [h.known.index, h.known.id]
  generalize trimSpace delta.id = id at *
  by_cases hne : id ≠ ""
  · rw [if_pos hne, if_pos hne] at *
    cases hbyID : r.byID id with
    | some k =>
      -- the call with the id is found, and it is in the group
      obtain ⟨c, hc, hcid⟩ := hok.id id k hbyID
      have hidAt : r.idAt k = id := by simp [ChatBlocks.idAt, hc, ReplyBlock.callID, hcid]
      rw [hbyID] at hin'
      have hle : s.toolCallBaseIndex ≤ k := hin' k (by simp [hidAt])
      simp [localTo, hle, hid k hle, hidAt, Option.filter]
    | none =>
      rw [hbyID] at hin'
      cases hbyIndex : r.byIndex delta.chatIndex with
      | none => simp
      | some k =>
        rw [hbyIndex] at hin'
        by_cases hle : s.toolCallBaseIndex ≤ k
        · by_cases hsame : r.idAt k = "" ∨ r.idAt k = id
          · simp [localTo, hle, hid k hle, hsame, Option.filter]
          · simp [localTo, hle, hid k hle, hsame, hne, Option.filter]
        have hother : ¬ (r.idAt k = "" ∨ r.idAt k = id) := by
          intro hsame
          refine hle (hin' k ?_)
          rcases hsame with hsame | hsame <;> simp [Option.filter, hsame]
        simp [localTo, hle, hother, hne, Option.filter]
  rw [if_neg hne, if_neg hne] at *
  cases hbyIndex : r.byIndex delta.chatIndex with
  | none => simp
  | some k =>
    rw [hbyIndex] at hin'
    have hle : s.toolCallBaseIndex ≤ k := hin' k (by simp [hne])
    simp [localTo, hle, hne, Option.filter]

section
variable {j : Nat} {tool : ClaudeStreamToolCall} {c : ToolCall}

theorem set_tool_self {tools : List ClaudeStreamToolCall} (hj : tools[j]? = some tool) :
    tools.set j tool = tools := by
  obtain ⟨hlt, hget⟩ := List.getElem?_eq_some_iff.1 hj
  rw [← hget]
  exact List.set_getElem_self hlt

theorem identifyTool_eq (hj : s.toolCalls[j]? = some tool) (id : String) :
    s.identifyTool j id = { s with
      toolCalls := s.toolCalls.set j { tool with id := if tool.id = "" then id else tool.id }
      toolCallByID := if tool.id = "" ∧ id ≠ "" then Function.update s.toolCallByID id (some j)
        else s.toolCallByID } := by
  unfold identifyTool
  rw [hj]
  dsimp only
  by_cases hnew : tool.id = "" ∧ id ≠ ""
  · rw [if_pos hnew, if_pos hnew, if_pos hnew.1]
    rfl
  rw [if_neg hnew, if_neg hnew]
  have hsame : (if tool.id = "" then id else tool.id) = tool.id := by
    by_cases hempty : tool.id = ""
    · rw [if_pos hempty, hempty]
      by_contra hne
      exact hnew ⟨hempty, hne⟩
    · exact if_neg hempty
  rw [hsame, set_tool_self hj]

theorem name_eq (tool : ClaudeStreamToolCall) (name : String) :
    (if tool.name = "" then { tool with name := name } else tool) =
      { tool with name := if tool.name = "" then name else tool.name } := by
  split <;> rfl

theorem appendToTool_started (hj : s.toolCalls[j]? = some tool) (hstarted : tool.started = true)
    (hname : tool.name ≠ "") (toolCall : ToolCall) : s.appendToTool j toolCall = { s with
      sent := s.sent ++ if toolCall.arguments = [] then []
        else [.contentBlockDelta tool.blockIndex (.inputJson toolCall.arguments)] } := by
  unfold appendToTool
  rw [hj]
  dsimp only
  rw [if_neg hname, if_pos hstarted]
  unfold setTool
  rw [set_tool_self hj]
  split
  · rw [List.append_nil]
  · rfl

def waiting (tool : ClaudeStreamToolCall) (toolCall : ToolCall) : ClaudeStreamToolCall :=
  { tool with
    name := if tool.name = "" then trimSpace toolCall.name else tool.name
    pendingArguments := tool.pendingArguments ++ toolCall.arguments }

theorem appendToTool_idle (hj : s.toolCalls[j]? = some tool) (hidle : tool.started = false)
    (toolCall : ToolCall) : s.appendToTool j toolCall =
      if (waiting tool toolCall).id ≠ "" ∧ (waiting tool toolCall).name ≠ "" then
        s.startToolBlock j (waiting tool toolCall)
      else s.setTool j (waiting tool toolCall) := by
  unfold appendToTool
  rw [hj]
  dsimp only
  rw [name_eq, if_neg (by simp [hidle])]
  rfl

theorem appendToTool_spec (h : Group s.sent base s.toolCalls blocks) (hj : s.toolCalls[j]? = some tool)
    (hc : blocks[base + j]? = some (.call c)) (delta : ToolCall)
    (hid : tool.id = (c.merge delta.trimmed).id) (hstartedID : tool.started = true → c.id ≠ "") :
    ∃ log tool', s.appendToTool j delta =
        { s with sent := log, toolCalls := s.toolCalls.set j tool' } ∧
      Group log base (s.toolCalls.set j tool')
        (blocks.set (base + j) (.call (c.merge delta.trimmed))) ∧
      tool'.id = tool.id ∧ (tool'.started = true → tool.id ≠ "") := by
  have hlt := (List.getElem?_eq_some_iff.1 hj).1
  have hmatch : Matches (base + j) tool c := by
    obtain ⟨c₁, hc₁, hmatch⟩ := h.calls j tool hj
    cases hc.symm.trans hc₁
    exact hmatch
  cases hstarted : tool.started with
  | true =>
    have hname := (hmatch.started hstarted).1
    have hne := hstartedID hstarted
    have hmergeID : (c.merge delta.trimmed).id = c.id := if_neg hne
    have hmergeName : (c.merge delta.trimmed).name = c.name := if_neg (hmatch.name ▸ hname)
    refine ⟨s.sent ++ if delta.arguments = [] then []
      else [.contentBlockDelta tool.blockIndex (.inputJson delta.arguments)], tool, ?_, ?_, rfl,
      fun _ => ?_⟩
    · rw [appendToTool_started hj hstarted hname, set_tool_self hj]
    · rw [set_tool_self hj, hmatch.index]
      exact h.more hj hc hstarted hmergeID hmergeName rfl
    · rw [hid, hmergeID]
      exact hne
  | false =>
    have hwaiting : Matches (base + j) (waiting tool delta) (c.merge delta.trimmed) := by
      refine ⟨hmatch.index, ?_, fun _ => hid, fun hst => ?_, fun _ => ?_⟩
      · show (if tool.name = "" then _ else _) = _
        rw [hmatch.name]
        rfl
      · exact nomatch hstarted.symm.trans hst
      show tool.pendingArguments ++ delta.arguments = _
      rw [hmatch.idle hstarted]
      rfl
    have hgroup := h.wait hj hc hstarted (show (waiting tool delta).started = false from hstarted) hwaiting
    rw [appendToTool_idle hj hstarted]
    split
    · rename_i hready
      have hset := List.getElem?_set_self (a := waiting tool delta) hlt
      have hstart := hgroup.start hset hstarted hready.2 (waiting tool delta).id fun c' hc' => by
        rw [List.getElem?_set_self (List.getElem?_eq_some_iff.1 hc).1] at hc'
        cases hc'
        exact hwaiting.id
      rw [List.set_set] at hstart
      exact ⟨_, _, startToolBlock_eq s j _, hstart, rfl, fun _ => hready.1⟩
    · exact ⟨s.sent, _, rfl, hgroup, rfl, fun hst => nomatch hstarted.symm.trans hst⟩

theorem group_identify {log : List ClaudeEvent} {tools : List ClaudeStreamToolCall} {id : String}
    (h : Group log base tools blocks) (hj : tools[j]? = some tool)
    (hc : blocks[base + j]? = some (.call c)) (hid : tool.id = c.id)
    (hstartedID : tool.started = true → c.id ≠ "") :
    Group log base (tools.set j { tool with id := if tool.id = "" then id else tool.id }) blocks := by
  obtain ⟨c₁, hc₁, hmatch⟩ := h.calls j tool hj
  cases hc.symm.trans hc₁
  cases hstarted : tool.started with
  | true =>
    have hne : tool.id ≠ "" := by
      rw [hid]
      exact hstartedID hstarted
    rw [if_neg hne, ← hstarted, set_tool_self hj]
    exact h
  | false =>
    have hidle' : ({ tool with id := if tool.id = "" then id else tool.id } : ClaudeStreamToolCall).started =
        false := hstarted
    have hwait := h.wait hj hc hstarted hidle'
      ⟨hmatch.index, hmatch.name, fun hne => (if_neg (hid ▸ hne)).trans hid, hmatch.started, hmatch.idle⟩
    rw [set_call_self hc, hstarted] at hwait
    exact hwait

theorem localTo_add (base j : Nat) : localTo base (base + j) = some j := by
  simp [localTo]

theorem ensureTool_spec (h : s.InGroup r) (hok : r.Ok) {delta : ToolCall}
    (hin : ∀ k, r.find delta = some k → s.toolCallBaseIndex ≤ k) : ∃ j tool c tools blocks,
      s.ensureTool delta.chatIndex (trimSpace delta.id) = (j, { s with
        toolCalls := tools
        toolCallByIndex := Function.update s.toolCallByIndex delta.chatIndex (some j) }) ∧
      (r.find delta).getD r.blocks.length = s.toolCallBaseIndex + j ∧
      Group s.sent s.toolCallBaseIndex tools blocks ∧
      tools[j]? = some tool ∧ blocks[s.toolCallBaseIndex + j]? = some (.call c) ∧
      (∀ i t c, tools[i]? = some t → blocks[s.toolCallBaseIndex + i]? = some (.call c) →
        t.id = c.id ∧ (t.started = true → c.id ≠ "")) ∧
      (r.addToolCall delta).blocks =
        blocks.set (s.toolCallBaseIndex + j) (.call (c.merge delta.trimmed)) ∧
      r.idAt (s.toolCallBaseIndex + j) = c.id ∧
      (∀ i b, i < s.toolCallBaseIndex → r.blocks[i]? = some b → blocks[i]? = some b) := by
  have hlength := h.group.length
  have hfound := find_local h hok hin
  unfold ensureTool
  rw [hfound]
  obtain ⟨k, c, hfind, hc, hblocks⟩ | ⟨hfind, hblocks⟩ := hok.addToolCall_blocks delta
  · obtain ⟨j, rfl⟩ := Nat.exists_eq_add_of_le (hin k hfind)
    have hlt := (List.getElem?_eq_some_iff.1 hc).1
    have hj : j < s.toolCalls.length := by omega
    refine ⟨j, s.toolCalls[j], c, s.toolCalls, r.blocks, ?_, by simp [hfind], h.group,
      List.getElem?_eq_getElem hj, hc, h.known.ids, hblocks, ?_, fun _ _ _ hb => hb⟩
    · simp [hfind]
    · simp [ChatBlocks.idAt, hc, ReplyBlock.callID]
  let tool : ClaudeStreamToolCall := { blockIndex := s.toolCallBaseIndex + s.toolCalls.length }
  have hj : (s.toolCalls ++ [tool])[s.toolCalls.length]? = some tool := by simp
  have hcall : (r.blocks ++ [ReplyBlock.call {}])[s.toolCallBaseIndex + s.toolCalls.length]? =
      some (.call {}) := by simp [← hlength]
  refine ⟨s.toolCalls.length, tool, {}, s.toolCalls ++ [tool], r.blocks ++ [.call {}], ?_, ?_,
    h.group.new, hj, hcall, fun i t c ht hc => ?_, ?_, ?_, fun i b hi hb => ?_⟩
  · simp [hfind, tool]
  · simp [hfind, hlength]
  · rcases Nat.lt_trichotomy i s.toolCalls.length with hlt | rfl | hgt
    · rw [List.getElem?_append_left hlt] at ht
      rw [List.getElem?_append_left (by omega)] at hc
      exact h.known.ids i t c ht hc
    · cases hj.symm.trans ht
      cases hcall.symm.trans hc
      exact ⟨rfl, fun h => by cases h⟩
    · rw [List.getElem?_eq_none (by simp; omega)] at ht
      cases ht
  · rw [hblocks, ← hlength]
    simp
  · rw [← hlength]
    simp [ChatBlocks.idAt]
  · rw [List.getElem?_append_left (List.getElem?_eq_some_iff.1 hb).1]
    exact hb

/-- One fragment. -/
theorem inGroup_appendToolCall (h : s.InGroup r) (hok : r.Ok) {delta : ToolCall}
    (hin : ∀ k, r.find delta = some k → s.toolCallBaseIndex ≤ k) :
    (s.appendToolCall delta).InGroup (r.addToolCall delta) ∧
      (s.appendToolCall delta).toolCalls ≠ [] ∧
      Frame s (s.appendToolCall delta) := by
  obtain ⟨j, tool, c, tools, blocks, hensure, hk, hgroup, hj, hc, hids, hblocks, hidAt, hlow⟩ :=
    ensureTool_spec h hok hin
  let s₁ : ClaudeConvertInfo := { s with
    toolCalls := tools
    toolCallByIndex := Function.update s.toolCallByIndex delta.chatIndex (some j) }
  have hlt := (List.getElem?_eq_some_iff.1 hj).1
  obtain ⟨hid, hstartedID⟩ := hids j tool c hj hc
  let tool₁ : ClaudeStreamToolCall :=
    { tool with id := if tool.id = "" then trimSpace delta.id else tool.id }
  let s₂ : ClaudeConvertInfo := { s₁ with
    toolCalls := tools.set j tool₁
    toolCallByID := if tool.id = "" ∧ trimSpace delta.id ≠ "" then
        Function.update s.toolCallByID (trimSpace delta.id) (some j)
      else s.toolCallByID }
  have hidentify : s₁.identifyTool j (trimSpace delta.id) = s₂ := identifyTool_eq hj _
  have hgroup₂ : Group s₂.sent s.toolCallBaseIndex s₂.toolCalls blocks :=
    group_identify hgroup hj hc hid hstartedID
  have hmergeID : tool₁.id = (c.merge delta.trimmed).id := by
    show (if tool.id = "" then _ else _) = _
    rw [hid]
    rfl
  have hj₂ : s₂.toolCalls[j]? = some tool₁ := List.getElem?_set_self hlt
  obtain ⟨log, tool', happend, hgroup', hid', hstarted'⟩ :=
    appendToTool_spec hgroup₂ hj₂ hc delta hmergeID hstartedID
  have hs' : s.appendToolCall delta =
      { s₂ with sent := log, toolCalls := (tools.set j tool₁).set j tool' } := by
    unfold appendToolCall
    dsimp only
    rw [hensure]
    rw [hidentify]
    exact happend
  rw [hs']
  refine ⟨⟨h.last, ?_, ?_⟩, ?_, rfl, rfl⟩
  · rw [hblocks]
    exact hgroup'
  · refine ⟨fun i hi => ?_, fun i => ?_, fun id => ?_, fun i t c₁ ht hc₁ => ?_⟩
    · obtain ⟨b, hb, hkind⟩ := h.known.edge i hi
      have hi' : i + 1 = s.toolCallBaseIndex := hi
      refine ⟨b, ?_, hkind⟩
      rw [hblocks, List.getElem?_set_ne (by omega)]
      exact hlow i b (by omega) hb
    · show Function.update s.toolCallByIndex delta.chatIndex (some j) i =
        (Function.update r.byIndex delta.chatIndex (some _) i).bind _
      rw [hk]
      by_cases hi : i = delta.chatIndex
      · subst hi
        rw [update_self, update_self]
        exact (localTo_add _ j).symm
      · rw [update_of_ne hi, update_of_ne hi]
        exact h.known.index i
    · show (if tool.id = "" ∧ trimSpace delta.id ≠ "" then _ else _ : String → Option Nat) id =
        ((if r.idAt _ = "" ∧ trimSpace delta.id ≠ "" then _ else _ : String → Option Nat) id).bind _
      rw [hk, hidAt, ← hid]
      split
      · by_cases hsame : id = trimSpace delta.id
        · subst hsame
          rw [update_self, update_self]
          exact (localTo_add _ j).symm
        · rw [update_of_ne hsame, update_of_ne hsame]
          exact h.known.id id
      · exact h.known.id id
    have ht' : ((tools.set j tool₁).set j tool')[i]? = some t := ht
    have hc' : (r.addToolCall delta).blocks[s.toolCallBaseIndex + i]? = some (.call c₁) := hc₁
    rw [hblocks] at hc'
    by_cases hij : j = i
    · subst hij
      rw [List.getElem?_set_self (by simpa using hlt)] at ht'
      rw [List.getElem?_set_self (List.getElem?_eq_some_iff.1 hc).1] at hc'
      cases ht'
      cases hc'
      rw [← hmergeID]
      exact ⟨hid', hstarted'⟩
    rw [List.getElem?_set_ne hij, List.getElem?_set_ne hij] at ht'
    rw [List.getElem?_set_ne (by omega)] at hc'
    exact hids i t c₁ ht' hc'
  intro hnil
  have hnil' : (tools.set j tool₁).set j tool' = [] := hnil
  have : tools.length = 0 := by simpa using congrArg List.length hnil'
  omega

end

/-! ## Chunks -/

theorem InGroup.base_le (h : s.InGroup r) {delta : ToolCall} (hcont : r.Continues delta) (k : Nat)
    (hk : r.find delta = some k) : s.toolCallBaseIndex ≤ k := by
  by_contra hlt
  obtain ⟨b, hb, hkind⟩ := h.known.edge (s.toolCallBaseIndex - 1) (by omega)
  refine hkind (hcont k hk b ?_)
  have hdrop : (r.blocks.drop k)[s.toolCallBaseIndex - 1 - k]? = some b := by
    rw [List.getElem?_drop, show k + (s.toolCallBaseIndex - 1 - k) = s.toolCallBaseIndex - 1 by omega]
    exact hb
  exact List.mem_of_getElem? hdrop

theorem inGroup_appendToolCalls (h : s.InGroup r) (hok : r.Ok) {deltas : List ToolCall}
    (hmeets : Meets ChatBlocks.Continues ChatBlocks.addToolCall r deltas) :
    (deltas.foldl appendToolCall s).InGroup (deltas.foldl ChatBlocks.addToolCall r) ∧
      (deltas ≠ [] ∨ s.toolCalls ≠ [] → (deltas.foldl appendToolCall s).toolCalls ≠ []) ∧
      Frame s (deltas.foldl appendToolCall s) := by
  induction deltas generalizing s r with
  | nil => exact ⟨h, fun hsome => hsome.resolve_left (fun hnot => hnot rfl), rfl, rfl⟩
  | cons delta deltas ih =>
    obtain ⟨hcont, hrest⟩ := hmeets
    obtain ⟨hin, hsome, hframe⟩ := inGroup_appendToolCall h hok (h.base_le hcont)
    obtain ⟨hin', hsome', hframe'⟩ := ih hin (hok.addToolCall delta) hrest
    rw [List.foldl_cons, List.foldl_cons]
    exact ⟨hin', fun _ => hsome' (Or.inr hsome), hframe.trans hframe'⟩

theorem mirror_of_inGroup (h : s.InGroup r) (hsome : s.toolCalls ≠ []) : s.Mirror r := by
  unfold Mirror
  rw [h.last]
  exact ⟨hsome, h.group, h.known⟩

/-- A delta whose content does not get in its own way: tool calls come without text
    and without reasoning, and reasoning comes without text. -/
def Plain (d : ChatDelta) : Prop :=
  (d.toolCalls = [] ∨ d.getReasoningContent = [] ∧ d.getContentString = []) ∧
    (d.getReasoningContent = [] ∨ d.getContentString = [])

theorem indexedToolCalls_eq_nil {d : ChatDelta} : d.indexedToolCalls = [] ↔ d.toolCalls = [] := by
  simp [ChatDelta.indexedToolCalls]

theorem mirror_appendContent (h : s.Mirror r) (hok : r.Ok) {d : ChatDelta} (hplain : Plain d)
    (hmeets : Meets ChatBlocks.Continues ChatBlocks.addToolCall r d.indexedToolCalls) :
    let s' := if d.toolCalls ≠ [] then s.appendToolCalls uuid d
      else if d.getReasoningContent ≠ [] then s.appendReasoning uuid d.getReasoningContent
      else if d.getContentString ≠ [] then s.appendText uuid d.getContentString
      else s
    let r₁ := if d.getReasoningContent = [] then r else r.extend .thinking d.getReasoningContent
    let r₂ := if d.getContentString = [] then r₁ else r₁.extend .text d.getContentString
    s'.Mirror (d.indexedToolCalls.foldl ChatBlocks.addToolCall r₂) ∧ Frame s s' := by
  obtain ⟨hcalls, htext⟩ := hplain
  dsimp only
  by_cases hnone : d.toolCalls = []
  · rw [if_neg (not_not.2 hnone), indexedToolCalls_eq_nil.2 hnone, List.foldl_nil]
    by_cases hreasoning : d.getReasoningContent = []
    · rw [if_neg (not_not.2 hreasoning), if_pos hreasoning]
      by_cases hcontent : d.getContentString = []
      · rw [if_neg (not_not.2 hcontent), if_pos hcontent]
        exact ⟨h, rfl, rfl⟩
      rw [if_pos hcontent, if_neg hcontent]
      have hframe := frame_ensureBlock uuid h .text .text
      have hshown : Shown (.ofKind .text []) .text := trivial
      have hkind : (BlockDelta.text d.getContentString).kind = .text := rfl
      exact ⟨mirror_append uuid h (by decide) hshown hkind, hframe.done, hframe.count⟩
    rw [if_pos hreasoning, if_neg hreasoning, if_pos (htext.resolve_left hreasoning)]
    have hframe := frame_ensureBlock uuid h .thinking .thinking
    have hshown : Shown (.ofKind .thinking []) .thinking := trivial
    have hkind : (BlockDelta.thinking d.getReasoningContent).kind = .thinking := rfl
    exact ⟨mirror_append uuid h (by decide) hshown hkind, hframe.done, hframe.count⟩
  obtain ⟨hreasoning, hcontent⟩ := hcalls.resolve_left hnone
  rw [if_pos hnone, if_pos hreasoning, if_pos hcontent]
  obtain ⟨hin, hsome, hframe⟩ := inGroup_appendToolCalls (inGroup_openToolCalls uuid h hok) hok hmeets
  have hsome' := hsome (.inl fun hnil => hnone (indexedToolCalls_eq_nil.1 hnil))
  refine ⟨mirror_of_inGroup ⟨hin.last, hin.group, hin.known⟩ hsome', ?_⟩
  refine Frame.trans ?_ ⟨hframe.done, hframe.count⟩
  unfold openToolCalls
  split
  · exact ⟨rfl, rfl⟩
  · exact ⟨(frame_advance uuid h).done, (frame_advance uuid h).count⟩

theorem mirror_appendDelta (h : s.Mirror r) (hok : r.Ok) {d : ChatDelta} (hplain : Plain d)
    (hmeets : Meets ChatBlocks.Continues ChatBlocks.addToolCall r d.indexedToolCalls) :
    (s.appendDelta uuid d).Mirror (r.addDelta d) ∧ Frame s (s.appendDelta uuid d) := by
  obtain ⟨hmirror, hframe⟩ := mirror_appendContent uuid h hok hplain hmeets
  exact ⟨mirror_appendCitationDeltas uuid hmirror d.annotations,
    hframe.trans (frame_appendCitationDeltas uuid hmirror d.annotations)⟩

def Ended (log : List ClaudeEvent) (blocks : List ReplyBlock) : Prop :=
  ∃ body stopReason, log = body ++ [.messageDelta stopReason, .messageStop] ∧
    Wrote body blocks (closedTable blocks)

def Fine (s : ClaudeConvertInfo) (r : ChatBlocks) : Prop :=
  if s.done then Ended s.sent r.blocks else s.Mirror r

theorem ended_endMessage (h : s.Mirror r) (stopReason : String) :
    Ended (s.endMessage uuid stopReason).sent r.blocks ∧
      (s.endMessage uuid stopReason).sendResponseCount = s.sendResponseCount := by
  obtain ⟨log, tools, n, heq, hwrote, -⟩ := appendStopOpenBlocks_spec uuid h
  unfold endMessage
  rw [heq]
  exact ⟨⟨log, stopReason, rfl, hwrote⟩, rfl⟩

theorem mirror_rememberUsage (h : s.Mirror r) (usage : Option Usage) :
    (s.rememberUsage usage).Mirror r ∧ Frame s (s.rememberUsage usage) := by
  cases usage with
  | none | some usage => exact ⟨h, rfl, rfl⟩

theorem fine_end (h : s.Mirror r) (hlive : s.done = false) (usage : Option Usage)
    (stopReason : ClaudeConvertInfo → String) :
    let s' := s.rememberUsage usage
    let s'' := if s'.usage.isSome then s'.endMessage uuid (stopReason s') else s'
    Fine s'' r ∧ s''.sendResponseCount = s.sendResponseCount := by
  obtain ⟨hmirror, hframe⟩ := mirror_rememberUsage h usage
  dsimp only
  split
  · obtain ⟨hended, hcount⟩ := ended_endMessage uuid hmirror (stopReason (s.rememberUsage usage))
    refine ⟨?_, hcount.trans hframe.count⟩
    unfold Fine
    rw [if_pos (show (endMessage uuid _ _).done = true from rfl)]
    exact hended
  refine ⟨?_, hframe.count⟩
  unfold Fine
  rw [if_neg (by simp [hframe.done, hlive])]
  exact hmirror

variable {chunk : UsageChunk}

theorem fine_convertChoices (h : s.Mirror r) (hok : r.Ok) (hlive : s.done = false)
    (hone : chunk.choices.length ≤ 1) (hcarried : ∀ choice ∈ chunk.choices, Plain choice.delta ∧
      Meets ChatBlocks.Continues ChatBlocks.addToolCall r choice.delta.indexedToolCalls) :
    Fine (s.convertChoices uuid chunk) (r.addChunk chunk) ∧
      (s.convertChoices uuid chunk).sendResponseCount = s.sendResponseCount := by
  unfold convertChoices ChatBlocks.addChunk
  match hchoices : chunk.choices with
  | [] => exact fine_end uuid h hlive chunk.usage fun s => stopReasonOrEndTurn s.finishReason
  | [choice] =>
    obtain ⟨hplain, hmeets⟩ := hcarried choice (by simp [hchoices])
    dsimp only [List.foldl_cons, List.foldl_nil]
    by_cases hempty : choice.finishReason.getD "" = ""
    · rw [if_neg (not_not.2 hempty), if_pos hempty]
      obtain ⟨hmirror, hframe⟩ := mirror_appendDelta uuid h hok hplain hmeets
      refine ⟨?_, hframe.count⟩
      unfold Fine
      rw [if_neg (by simp [hframe.done, hlive])]
      exact hmirror
    rw [if_pos hempty, if_neg hempty]
    let s₁ : ClaudeConvertInfo := { s with finishReason := choice.finishReason.getD "" }
    obtain ⟨hmirror, hframe⟩ := mirror_appendDelta uuid (s := s₁) h hok hplain hmeets
    obtain ⟨hfine, hcount⟩ := fine_end uuid hmirror (hframe.done.trans hlive) chunk.usage
      fun s => stopReasonOpenAI2Claude s.finishReason
    exact ⟨hfine, hcount.trans hframe.count⟩
  | _ :: _ :: _ =>
    rw [hchoices] at hone
    simp at hone

def Blank (chunk : UsageChunk) : Prop :=
  ∀ choice ∈ chunk.choices, choice.delta.getReasoningContent = [] ∧
    choice.delta.getContentString = [] ∧ choice.delta.toolCalls = [] ∧
    chatAnnotationsToClaude choice.delta.annotations = []

theorem addChunk_blank (h : Blank chunk) (r : ChatBlocks) : r.addChunk chunk = r := by
  unfold ChatBlocks.addChunk
  unfold Blank at h
  generalize chunk.choices = choices at h
  induction choices with
  | nil => rfl
  | cons choice choices ih =>
    obtain ⟨hreasoning, hcontent, hcalls, hcitations⟩ := h choice List.mem_cons_self
    have hsame : r.addDelta choice.delta = r := by
      simp [ChatBlocks.addDelta, hreasoning, hcontent, hcitations, indexedToolCalls_eq_nil.2 hcalls]
    rw [List.foldl_cons, hsame]
    exact ih fun choice' hchoice' => h choice' (List.mem_cons_of_mem _ hchoice')

/-- A chunk that is carried over whole: nothing comes after the end, no content of the
    delta hides another, and its fragments continue calls of the open group only. -/
def Carried (p : ClaudeConvertInfo × ChatBlocks) (chunk : UsageChunk) : Prop :=
  (p.1.done = true → Blank chunk) ∧
    ∀ choice ∈ chunk.choices, Plain choice.delta ∧
      Meets ChatBlocks.Continues ChatBlocks.addToolCall p.2 choice.delta.indexedToolCalls

def streamBoth (p : ClaudeConvertInfo × ChatBlocks) (chunk : UsageChunk) :
    ClaudeConvertInfo × ChatBlocks :=
  (p.1.streamResponse uuid chunk, p.2.addChunk chunk)

theorem run_streamBoth (chunks : List UsageChunk) (p : ClaudeConvertInfo × ChatBlocks) :
    run (streamBoth uuid) p chunks = (run (streamResponse uuid) p.1 chunks, run ChatBlocks.addChunk p.2 chunks) := by
  induction chunks generalizing p with
  | nil => rfl
  | cons chunk chunks ih => exact ih _

/-- What every chunk after the first keeps. -/
structure Steady (p : ClaudeConvertInfo × ChatBlocks) : Prop where
  ok : p.2.Ok
  count : p.1.sendResponseCount ≠ 0
  fine : Fine p.1 p.2

theorem steady_step {p : ClaudeConvertInfo × ChatBlocks} (h : Steady p)
    (hone : chunk.choices.length ≤ 1) (hcarried : Carried p chunk) : Steady (streamBoth uuid p chunk) := by
  obtain ⟨s, r⟩ := p
  obtain ⟨hok, hcount, hfine⟩ := h
  have hcount' : s.sendResponseCount ≠ 0 := hcount
  have hok' : r.Ok := hok
  let s₁ : ClaudeConvertInfo := { s with sendResponseCount := s.sendResponseCount + 1 }
  show Steady (if s₁.done then s₁ else (s₁.startMessage chunk).convertChoices uuid chunk, r.addChunk chunk)
  by_cases hdone : s.done = true
  · have hended : Ended s.sent r.blocks := by simpa [Fine, hdone] using hfine
    rw [if_pos (show s₁.done = true from hdone), addChunk_blank (hcarried.1 hdone)]
    refine ⟨hok', Nat.succ_ne_zero _, ?_⟩
    unfold Fine
    rw [if_pos (show s₁.done = true from hdone)]
    exact hended
  have hmirror : s.Mirror r := by simpa [Fine, hdone] using hfine
  have hlive : s₁.done = false := by simpa using hdone
  have hstart : s₁.startMessage chunk = s₁ := if_pos fun hcount₁ => hcount' (Nat.succ.inj hcount₁)
  obtain ⟨hfine', hcount''⟩ := fine_convertChoices uuid (s := s₁) hmirror hok' hlive hone hcarried.2
  rw [if_neg (by simp [hlive]), hstart]
  refine ⟨hok'.addChunk chunk, ?_, hfine'⟩
  rw [hcount'']
  exact Nat.succ_ne_zero _

theorem steady_first (hone : chunk.choices.length ≤ 1)
    (hcarried : Carried ({}, {}) chunk) : Steady (streamBoth uuid ({}, {}) chunk) := by
  let s₁ : ClaudeConvertInfo := { sendResponseCount := 1 }
  have hwrote : Wrote [.messageStart chunk.id chunk.model] [] (closedTable []) := by
    refine ⟨⟨_, [], rfl, rfl, rfl, fun _ h => by cases h⟩, fun i => ?_, ?_, ?_, fun _ _ => rfl⟩
    · exact rfl
    · intro i block hi
      cases List.mem_singleton.1 hi
    · intro i delta hi
      cases List.mem_singleton.1 hi
  have hstart : (s₁.startMessage chunk).Mirror {} ∧ (s₁.startMessage chunk).done = false ∧
      (s₁.startMessage chunk).sendResponseCount = 1 := by
    unfold startMessage
    rw [if_neg (not_not.2 rfl)]
    cases chunk.usage with
    | none => exact ⟨⟨rfl, rfl, hwrote⟩, rfl, rfl⟩
    | some usage =>
      dsimp only
      split
      · exact ⟨⟨rfl, rfl, hwrote⟩, rfl, rfl⟩
      · exact ⟨⟨rfl, rfl, hwrote⟩, rfl, rfl⟩
  obtain ⟨hmirror, hlive, hcount⟩ := hstart
  obtain ⟨hfine, hcount'⟩ := fine_convertChoices uuid hmirror ChatBlocks.ok_nil hlive hone hcarried.2
  refine ⟨ChatBlocks.ok_nil.addChunk chunk, ?_, hfine⟩
  show ((s₁.startMessage chunk).convertChoices uuid chunk).sendResponseCount ≠ 0
  rw [hcount', hcount]
  decide

theorem steady_run {chunks : List UsageChunk} (hsome : chunks ≠ [])
    (hone : ∀ chunk ∈ chunks, chunk.choices.length ≤ 1)
    (hmeets : Meets Carried (streamBoth uuid) ({}, {}) chunks) :
    Steady (run (streamBoth uuid) ({}, {}) chunks) := by
  cases chunks with
  | nil => exact absurd rfl hsome
  | cons chunk chunks =>
    obtain ⟨hfirst, hrest⟩ := hmeets
    have hsteady := steady_first uuid (hone chunk List.mem_cons_self) hfirst
    have hone' : ∀ c ∈ chunks, c.choices.length ≤ 1 := fun c hc => hone c (List.mem_cons_of_mem _ hc)
    rw [run_cons]
    clear hone hsome hfirst
    generalize streamBoth uuid ({}, {}) chunk = p at *
    induction chunks generalizing p with
    | nil => exact hsteady
    | cons c cs ih =>
      exact ih (fun c' hc' => hone' c' (List.mem_cons_of_mem _ hc')) (streamBoth uuid p c) hrest.2
        (steady_step uuid hsteady (hone' c List.mem_cons_self) hrest.1)

theorem ended_finalize (h : Fine s r) : Ended (s.finalize uuid).sent r.blocks := by
  unfold finalize
  unfold Fine at h
  split
  · rename_i hdone
    rwa [if_pos hdone] at h
  rename_i hdone
  rw [if_neg hdone] at h
  exact (ended_endMessage uuid h _).1

instance (d : ChatDelta) : Decidable (Plain d) := inferInstanceAs (Decidable (_ ∧ _))

instance (chunk : UsageChunk) : Decidable (Blank chunk) :=
  inferInstanceAs (Decidable (∀ choice ∈ chunk.choices, _))

instance (p : ClaudeConvertInfo × ChatBlocks) (chunk : UsageChunk) : Decidable (Carried p chunk) :=
  inferInstanceAs (Decidable (_ ∧ _))

end ClaudeConvertInfo

/-! ## Whole streams -/

/-- A well-formed Claude stream that carries the whole chat stream. -/
structure Lossless (log : List ClaudeEvent) (chunks : List UsageChunk) : Prop where
  wellFormed : WellFormedClaude log (chatBlocks chunks).values
  indexes : ∃ n, ∀ i, (∃ block, .contentBlockStart i block ∈ log) ↔ i < n
  kinds : ∀ i delta, .contentBlockDelta i delta ∈ log →
    ∃ block, .contentBlockStart i block ∈ log ∧ block.kind = delta.kind
  text : deltaContent .text log = (readChat (chunks.map (·.toChatChunk))).text
  thinking : deltaContent .thinking log = (readChat (chunks.map (·.toChatChunk))).reasoning
  tools : ∀ i c, (chatBlocks chunks).blocks[i]? = some (.call c) → c.name ≠ "" →
    ∃ id, .contentBlockStart i (.toolUse id c.name) ∈ log ∧ (c.id ≠ "" → id = c.id)

def ChatBlocks.Gapless (r : ChatBlocks) : Prop :=
  r.blocks.Pairwise fun b b' => b'.named = true → b.named = true

instance (r : ChatBlocks) : Decidable r.Gapless :=
  inferInstanceAs (Decidable (r.blocks.Pairwise _))

theorem exists_iff_lt_takeWhile {α : Type*} {p : α → Bool} {l : List α}
    (h : l.Pairwise fun a b => p b = true → p a = true) (i : Nat) :
    (∃ a, l[i]? = some a ∧ p a = true) ↔ i < (l.takeWhile p).length := by
  induction l generalizing i with
  | nil => simp
  | cons x l ih =>
    obtain ⟨hx, hl⟩ := List.pairwise_cons.1 h
    by_cases hp : p x = true
    · rw [List.takeWhile_cons_of_pos hp]
      cases i with
      | zero => simp [hp]
      | succ i => simpa using ih hl i
    rw [List.takeWhile_cons_of_neg hp]
    simp only [List.length_nil, Nat.not_lt_zero, iff_false]
    rintro ⟨a, ha, hpa⟩
    cases i with
    | zero =>
      cases ha
      exact hp hpa
    | succ i => exact hp (hx a (List.mem_of_getElem? ha) hpa)

theorem closedTable_eq_values (r : ChatBlocks) :
    closedTable r.blocks = fun i => (r.values i).map fun value => ⟨value, true⟩ := by
  funext i
  unfold closedTable ChatBlocks.values
  cases r.blocks[i]? with
  | none => rfl
  | some b =>
    cases hnamed : b.named with
    | true | false => simp [hnamed]

theorem closedTable_ne_none {blocks : List ReplyBlock} {i : Nat} :
    closedTable blocks i ≠ none ↔ ∃ b, blocks[i]? = some b ∧ b.named = true := by
  unfold closedTable
  cases blocks[i]? with
  | none => simp
  | some b => simp

/-- What an ended stream shows. -/
theorem lossless_of_ended {log : List ClaudeEvent} {chunks : List UsageChunk}
    (h : ClaudeConvertInfo.Ended log (chatBlocks chunks).blocks) (hgapless : (chatBlocks chunks).Gapless) :
    Lossless log chunks := by
  obtain ⟨body, stopReason, rfl, hwrote⟩ := h
  have hstart : ∀ i block, .contentBlockStart i block ∈ body ++ [.messageDelta stopReason, .messageStop] ↔
      .contentBlockStart i block ∈ body := by simp
  have hdelta : ∀ i delta, .contentBlockDelta i delta ∈ body ++ [.messageDelta stopReason, .messageStop] ↔
      .contentBlockDelta i delta ∈ body := by simp
  have hcontent : ∀ kind, deltaContent kind (body ++ [.messageDelta stopReason, .messageStop]) =
      deltaContent kind body := by
    intro kind
    rw [deltaContent_append]
    simp [deltaContent]
  obtain ⟨htext, hthinking⟩ := content_chatBlocks chunks
  refine ⟨?_, ?_, ?_, ?_, ?_, ?_⟩
  · obtain ⟨first, rest, rfl, hfirst, hfirst', hrest⟩ := hwrote.begins
    refine ⟨⟨first, rest ++ [.messageDelta stopReason, .messageStop], rfl, hfirst, fun e he => ?_⟩, ?_,
      first :: rest, stopReason, rfl, fun e he => ?_⟩
    · rcases List.mem_append.1 he with he | he
      · exact (hrest e he).1
      rcases List.mem_cons.1 he with rfl | he
      · rfl
      · rw [List.mem_singleton.1 he]
        rfl
    · rw [← closedTable_eq_values]
      have htracks := (hwrote.tracks.skip (e := .messageDelta stopReason) rfl).skip (e := .messageStop) rfl
      rwa [List.append_assoc] at htracks
    rcases List.mem_cons.1 he with rfl | he
    · exact hfirst'
    · exact (hrest e he).2
  · refine ⟨((chatBlocks chunks).blocks.takeWhile ReplyBlock.named).length, fun i => ?_⟩
    simp only [hstart]
    rw [started_iff hwrote.tracks, closedTable_ne_none]
    exact exists_iff_lt_takeWhile hgapless i
  · intro i delta hi
    rw [hdelta] at hi
    obtain ⟨b, hb, hkind⟩ := hwrote.deltas i delta hi
    have hsome : closedTable (chatBlocks chunks).blocks i ≠ none := by
      intro hnone
      have htraces := hwrote.tracks i
      rw [hnone] at htraces
      have hmem : Mark.part delta.value ∈ history blockView i body :=
        List.mem_filterMap.2 ⟨_, hi, by simp [markAt, blockView]⟩
      rw [show history blockView i body = [] from htraces] at hmem
      cases hmem
    obtain ⟨block, hblock⟩ := (started_iff hwrote.tracks i).2 hsome
    obtain ⟨b', hb', hshown⟩ := hwrote.starts i block hblock
    cases hb.symm.trans hb'
    exact ⟨block, (hstart i block).2 hblock, hshown.kind.symm.trans hkind⟩
  · rw [hcontent, hwrote.content .text (by decide)]
    exact htext
  · rw [hcontent, hwrote.content .thinking (by decide)]
    exact hthinking
  intro i c hc hname
  obtain ⟨block, hblock⟩ := (started_iff hwrote.tracks i).2
    (closedTable_ne_none.2 ⟨_, hc, by simpa [ReplyBlock.named] using hname⟩)
  obtain ⟨b, hb, hshown⟩ := hwrote.starts i block hblock
  cases hc.symm.trans hb
  cases block with
  | toolUse id name =>
    obtain ⟨rfl, -, hid⟩ := hshown
    exact ⟨id, (hstart i _).2 hblock, hid⟩
  | text | thinking => exact absurd hshown id

/-- **Chat to Claude.**  A stream of chunks with at most one choice each, of which there
    is one, becomes a well-formed Claude stream that loses nothing, as long as every
    chunk is carried over and no call without a name stands before another block. -/
theorem chatToClaude_lossless (uuid : Nat → String) (chunks : List UsageChunk)
    (hone : ∀ chunk ∈ chunks, chunk.choices.length ≤ 1) (hsome : chunks ≠ [])
    (hcarried : Meets ClaudeConvertInfo.Carried (ClaudeConvertInfo.streamBoth uuid) ({}, {}) chunks)
    (hgapless : (chatBlocks chunks).Gapless) : Lossless (chatToClaude uuid chunks) chunks := by
  have hsteady := ClaudeConvertInfo.steady_run uuid hsome hone hcarried
  rw [ClaudeConvertInfo.run_streamBoth] at hsteady
  exact lossless_of_ended (ClaudeConvertInfo.ended_finalize uuid hsteady.fine) hgapless

/-- Reasoning, text, two tool calls at once, the first without an id, and the end. -/
def textAndParallelTools : List UsageChunk :=
  [{ choices := [{ delta := { reasoning := some [114] } }] },
   { choices := [{ delta := { content := some [116] } }] },
   { choices := [{ delta := { toolCalls :=
      [{ name := "f", arguments := [97] }, { index := some 1, id := "c", name := "g" }] } }] },
   { choices := [{ delta := { toolCalls := [{ index := some 0, arguments := [98] }] } }] },
   { choices := [{ finishReason := some "tool_calls" }], usage := some {} }]

theorem chatToClaude_lossless_parallelTools :
    Lossless (chatToClaude (fun _ => "u") textAndParallelTools) textAndParallelTools :=
  chatToClaude_lossless _ _ (by decide) (by decide) (by decide +kernel) (by decide +kernel)

def reasoningWithText : List UsageChunk :=
  [{ choices := [{ delta := { reasoning := some [114], content := some [116] } }] }]

theorem reasoningWithText_loses_text : (∀ chunk ∈ reasoningWithText, chunk.choices.length ≤ 1) ∧
      ¬ Lossless (chatToClaude (fun _ => "u") reasoningWithText) reasoningWithText := by
  refine ⟨by decide, fun h => ?_⟩
  have htext := h.text
  revert htext
  decide +kernel

end NewApi.Convert
