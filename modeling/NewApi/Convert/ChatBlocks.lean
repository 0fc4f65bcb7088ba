/-
  NewApi.Convert.ChatBlocks

  The blocks a chat stream stands for: its reasoning and its text in the order they
  came in, cut where another kind of content comes between, and one block for every
  tool call, begun where its first fragment stands.

  A fragment continues the call that has its id, or else the last call at its index
  unless that call has another id.
-/

import NewApi.Convert.ChatToClaude

namespace NewApi.Convert

open NewApi.Lib
open NewApi.Subscription (trimSpace)

/-- A block of a reply. -/
inductive ReplyBlock where
  | text (value : Bytes)
  | thinking (value : Bytes)
  | call (c : ToolCall)

namespace ReplyBlock

def kind : ReplyBlock → BlockKind
  | .text _ => .text
  | .thinking _ => .thinking
  | .call _ => .toolUse

def value : ReplyBlock → Bytes
  | .text value | .thinking value => value
  | .call c => c.arguments

/-- A call is known by its name; all other blocks are there once they are begun. -/
def named : ReplyBlock → Bool
  | .call c => c.name ≠ ""
  | _ => true

def callID : ReplyBlock → String
  | .call c => c.id
  | _ => ""

def content (kind : BlockKind) (b : ReplyBlock) : Bytes := if b.kind = kind then b.value else []

def append (more : Bytes) : ReplyBlock → ReplyBlock
  | .text value => .text (value ++ more)
  | .thinking value => .thinking (value ++ more)
  | .call c => .call { c with arguments := c.arguments ++ more }

def merge (delta : ToolCall) : ReplyBlock → ReplyBlock
  | .call c => .call (c.merge delta)
  | block => block

@[simp] theorem kind_append (more : Bytes) (b : ReplyBlock) : (b.append more).kind = b.kind := by
  cases b <;> rfl

@[simp] theorem value_append (more : Bytes) (b : ReplyBlock) :
    (b.append more).value = b.value ++ more := by
  cases b <;> rfl

end ReplyBlock

def ReplyBlock.ofKind : BlockKind → Bytes → ReplyBlock
  | .text, value => .text value
  | .thinking, value => .thinking value
  | .toolUse, value => .call { arguments := value }

@[simp] theorem ReplyBlock.kind_ofKind (kind : BlockKind) (value : Bytes) :
    (ReplyBlock.ofKind kind value).kind = kind := by
  cases kind <;> rfl

@[simp] theorem ReplyBlock.value_ofKind (kind : BlockKind) (value : Bytes) :
    (ReplyBlock.ofKind kind value).value = value := by
  cases kind <;> rfl

/-- The blocks so far, and where the calls are found. -/
structure ChatBlocks where
  blocks : List ReplyBlock := []
  byIndex : Int → Option Nat := fun _ => none
  byID : String → Option Nat := fun _ => none

namespace ChatBlocks

variable (r : ChatBlocks)

def idAt (k : Nat) : String := (r.blocks[k]?.map ReplyBlock.callID).getD ""

def find (delta : ToolCall) : Option Nat :=
  findToolCall r.byIndex r.byID r.idAt delta.chatIndex (trimSpace delta.id)

def Continues (delta : ToolCall) : Prop :=
  ∀ k ∈ r.find delta, ∀ b ∈ r.blocks.drop k, b.kind = .toolUse

instance (r : ChatBlocks) (delta : ToolCall) : Decidable (r.Continues delta) :=
  inferInstanceAs (Decidable (∀ k ∈ r.find delta, ∀ b ∈ r.blocks.drop k, b.kind = .toolUse))

/-- The blocks with a further fragment of a call. -/
def addToolCall (delta : ToolCall) : ChatBlocks :=
  let k := (r.find delta).getD r.blocks.length
  let blocks := if r.find delta = none then r.blocks ++ [.call {}] else r.blocks
  { blocks := blocks.modify k (ReplyBlock.merge delta.trimmed)
    byIndex := Function.update r.byIndex delta.chatIndex (some k)
    byID := if r.idAt k = "" ∧ trimSpace delta.id ≠ "" then
        Function.update r.byID (trimSpace delta.id) (some k)
      else r.byID }

/-- The blocks with more text or more reasoning. -/
def extend (kind : BlockKind) (more : Bytes) : ChatBlocks :=
  { r with
    blocks :=
      if r.blocks.getLast?.map ReplyBlock.kind = some kind then
        r.blocks.modify (r.blocks.length - 1) (ReplyBlock.append more)
      else r.blocks ++ [ReplyBlock.ofKind kind more] }

/-- The blocks with a further delta.  Citations are part of a text. -/
def addDelta (d : ChatDelta) : ChatBlocks :=
  let r := if d.getReasoningContent = [] then r else r.extend .thinking d.getReasoningContent
  let r := if d.getContentString = [] then r else r.extend .text d.getContentString
  let r := d.indexedToolCalls.foldl addToolCall r
  if chatAnnotationsToClaude d.annotations = [] then r else r.extend .text []

def addChunk (chunk : UsageChunk) : ChatBlocks :=
  chunk.choices.foldl (fun r choice => r.addDelta choice.delta) r

def values (i : Nat) : Option Bytes :=
  r.blocks[i]?.bind fun block => if block.named then some block.value else none

def content (r : ChatBlocks) (kind : BlockKind) : Bytes := r.blocks.flatMap (ReplyBlock.content kind)

end ChatBlocks

variable (chunks : List UsageChunk)

def chatBlocks : ChatBlocks := run ChatBlocks.addChunk {} chunks

namespace ChatBlocks

variable {r : ChatBlocks} {delta : ToolCall} {k : Nat}

/-! ## What one addition does -/

theorem extend_blocks (r : ChatBlocks) (kind : BlockKind) (more : Bytes) :
    (∃ before b, r.blocks = before ++ [b] ∧ b.kind = kind ∧
        (r.extend kind more).blocks = before ++ [b.append more]) ∨
      (r.blocks.getLast?.map ReplyBlock.kind ≠ some kind ∧
        (r.extend kind more).blocks = r.blocks ++ [ReplyBlock.ofKind kind more]) := by
  unfold extend
  by_cases hlast : r.blocks.getLast?.map ReplyBlock.kind = some kind
  · obtain ⟨b, hb, hkind⟩ := Option.map_eq_some_iff.1 hlast
    obtain ⟨before, hblocks⟩ := List.getLast?_eq_some_iff.1 hb
    refine .inl ⟨before, b, hblocks, hkind, ?_⟩
    rw [if_pos hlast, hblocks]
    simp [List.modify_eq_set_getElem?]
  · exact .inr ⟨hlast, if_neg hlast⟩

theorem append_nil (b : ReplyBlock) : b.append [] = b := by
  cases b <;> simp [ReplyBlock.append]

theorem extend_last {before : List ReplyBlock} {b : ReplyBlock} (hblocks : r.blocks = before ++ [b])
    (more : Bytes) : (r.extend b.kind more).blocks = before ++ [b.append more] := by
  obtain ⟨before', b', hblocks', -, hext⟩ | ⟨hlast, -⟩ := extend_blocks r b.kind more
  · obtain ⟨rfl, hb⟩ := List.append_inj' (hblocks.symm.trans hblocks') rfl
    cases hb
    exact hext
  · exact absurd (by simp [hblocks]) hlast

theorem extend_of_extend_nil {kind : BlockKind} {before : List ReplyBlock} {b : ReplyBlock}
    (h : (r.extend kind []).blocks = before ++ [b]) (more : Bytes) :
    (r.extend kind more).blocks = before ++ [b.append more] := by
  obtain ⟨before', b', hblocks, rfl, hext⟩ | ⟨hlast, hext⟩ := extend_blocks r kind []
  · obtain ⟨rfl, hb⟩ := List.append_inj' (hext.symm.trans h) rfl
    cases hb
    rw [append_nil]
    exact extend_last hblocks more
  obtain ⟨rfl, hb⟩ := List.append_inj' (hext.symm.trans h) rfl
  cases hb
  rw [show (r.extend kind more).blocks = _ from if_neg hlast]
  cases kind <;> rfl

/-- Where the calls are found. -/
structure Ok (r : ChatBlocks) : Prop where
  index : ∀ i k, r.byIndex i = some k → ∃ call, r.blocks[k]? = some (.call call)
  blank : r.byID "" = none
  id : ∀ id k, r.byID id = some k → ∃ call, r.blocks[k]? = some (.call call) ∧ call.id = id

theorem ok_nil : Ok {} := ⟨nofun, rfl, nofun⟩

theorem findToolCall_some {byIndex : Int → Option Nat} {byID : String → Option Nat}
    {idAt : Nat → String} {index : Int} {id : String}
    (hk : findToolCall byIndex byID idAt index id = some k) :
    (id ≠ "" ∧ byID id = some k ∨ byIndex index = some k) ∧
      (id = "" ∨ idAt k = "" ∨ idAt k = id) := by
  obtain ⟨hfound, hsame⟩ := Option.filter_eq_some_iff.1 hk
  refine ⟨?_, ?_⟩
  · rcases Option.or_eq_some_iff.1 hfound with hid | ⟨-, hindex⟩
    · by_cases hne : id ≠ ""
      · rw [if_pos hne] at hid
        exact .inl ⟨hne, hid⟩
      · rw [if_neg hne] at hid
        cases hid
    · exact .inr hindex
  · simpa using hsame

theorem Ok.find (h : r.Ok) (hk : r.find delta = some k) : ∃ c, r.blocks[k]? = some (.call c) := by
  obtain ⟨⟨-, hid⟩ | hindex, -⟩ := findToolCall_some hk
  · obtain ⟨c, hc, -⟩ := h.id _ _ hid
    exact ⟨c, hc⟩
  · exact h.index _ _ hindex

theorem Ok.addToolCall_blocks (h : r.Ok) (delta : ToolCall) :
    (∃ k call, r.find delta = some k ∧ r.blocks[k]? = some (.call call) ∧
        (r.addToolCall delta).blocks = r.blocks.set k (.call (call.merge delta.trimmed))) ∨
      (r.find delta = none ∧
        (r.addToolCall delta).blocks =
          r.blocks ++ [.call (({} : ToolCall).merge delta.trimmed)]) := by
  unfold addToolCall
  cases hfind : r.find delta with
  | some k =>
    obtain ⟨call, hcall⟩ := h.find hfind
    refine .inl ⟨k, call, rfl, hcall, ?_⟩
    show r.blocks.modify k _ = _
    rw [List.modify_eq_set_getElem?, hcall]
    simp [ReplyBlock.merge]
  | none =>
    refine .inr ⟨rfl, ?_⟩
    simp [List.modify_eq_set_getElem?, ReplyBlock.merge]

/-! ## The calls stay where they are -/

def Keeps (blocks blocks' : List ReplyBlock) : Prop :=
  ∀ (k : Nat) (c : ToolCall), blocks[k]? = some (.call c) →
    ∃ c', blocks'[k]? = some (.call c') ∧ (c.id ≠ "" → c'.id = c.id)

theorem Ok.keep {blocks' : List ReplyBlock} (h : r.Ok) (hkeep : Keeps r.blocks blocks') :
    Ok { r with blocks := blocks' } := by
  refine ⟨fun i k hk => ?_, h.blank, fun id k hk => ?_⟩
  · obtain ⟨c, hc⟩ := h.index i k hk
    obtain ⟨c', hc', -⟩ := hkeep k c hc
    exact ⟨c', hc'⟩
  obtain ⟨c, hc, rfl⟩ := h.id id k hk
  obtain ⟨c', hc', hsame⟩ := hkeep k c hc
  refine ⟨c', hc', hsame fun hempty => ?_⟩
  have hblank := h.blank
  rw [← hempty] at hblank
  exact nomatch hblank.symm.trans hk

theorem keeps_append (blocks more : List ReplyBlock) : Keeps blocks (blocks ++ more) := by
  intro k c hc
  refine ⟨c, ?_, fun _ => rfl⟩
  rw [List.getElem?_append_left (List.getElem?_eq_some_iff.1 hc).1]
  exact hc

theorem keeps_set {blocks : List ReplyBlock} {c : ToolCall} (hk : blocks[k]? = some (.call c))
    (delta : ToolCall) : Keeps blocks (blocks.set k (.call (c.merge delta))) := by
  intro j c' hc'
  by_cases hjk : k = j
  · subst hjk
    cases hk.symm.trans hc'
    refine ⟨c.merge delta, ?_, fun hid => if_neg hid⟩
    rw [List.getElem?_set_self (List.getElem?_eq_some_iff.1 hk).1]
  refine ⟨c', ?_, fun _ => rfl⟩
  rw [List.getElem?_set_ne hjk]
  exact hc'

theorem Ok.extend (h : r.Ok) {kind : BlockKind} (hkind : kind ≠ .toolUse) (more : Bytes) :
    (r.extend kind more).Ok := by
  refine h.keep ?_
  obtain ⟨before, b, hblocks, hb, hext⟩ | ⟨-, hext⟩ := extend_blocks r kind more
  · show Keeps _ (r.extend kind more).blocks
    rw [hext, hblocks]
    intro k c hc
    refine ⟨c, ?_, fun _ => rfl⟩
    have hlt : k < before.length := by
      by_contra hge
      rw [List.getElem?_append_right (by omega)] at hc
      obtain ⟨hlt, hget⟩ := List.getElem?_eq_some_iff.1 hc
      obtain rfl : b = .call c := by simpa using hget
      exact hkind hb.symm
    rw [List.getElem?_append_left hlt] at hc ⊢
    exact hc
  show Keeps _ (r.extend kind more).blocks
  rw [hext]
  exact keeps_append _ _

theorem Ok.addToolCall_get (h : r.Ok) (delta : ToolCall) :
    ∃ c : ToolCall, (r.addToolCall delta).blocks[(r.find delta).getD r.blocks.length]? =
        some (.call (c.merge delta.trimmed)) ∧
      r.idAt ((r.find delta).getD r.blocks.length) = c.id := by
  obtain ⟨k, c, hfind, hc, hblocks⟩ | ⟨hfind, hblocks⟩ := h.addToolCall_blocks delta
  · refine ⟨c, ?_, ?_⟩
    · rw [hblocks, hfind]
      exact List.getElem?_set_self (List.getElem?_eq_some_iff.1 hc).1
    · simp [hfind, idAt, hc, ReplyBlock.callID]
  refine ⟨{}, ?_, ?_⟩
  · rw [hblocks, hfind]
    simp
  · simp [hfind, idAt]

theorem Ok.addToolCall (h : r.Ok) (delta : ToolCall) : (r.addToolCall delta).Ok := by
  have hkeep : Keeps r.blocks (r.addToolCall delta).blocks := by
    obtain ⟨k, c, -, hc, hblocks⟩ | ⟨-, hblocks⟩ := h.addToolCall_blocks delta
    · rw [hblocks]
      exact keeps_set hc _
    · rw [hblocks]
      exact keeps_append _ _
  have hkept := h.keep hkeep
  obtain ⟨c, hget, hid⟩ := h.addToolCall_get delta
  refine ⟨fun i k hk => ?_, ?_, fun id k hk => ?_⟩
  · by_cases hi : i = delta.chatIndex
    · subst hi
      rw [show (r.addToolCall delta).byIndex delta.chatIndex = _ from Function.update_self ..] at hk
      cases hk
      exact ⟨_, hget⟩
    · rw [show (r.addToolCall delta).byIndex i = r.byIndex i from Function.update_of_ne hi ..] at hk
      exact hkept.index i k hk
  · show (if _ then _ else _ : String → Option Nat) "" = none
    split
    · rename_i hnew
      rw [Function.update_of_ne (Ne.symm hnew.2)]
      exact h.blank
    · exact h.blank
  have hk' : (if r.idAt ((r.find delta).getD r.blocks.length) = "" ∧ trimSpace delta.id ≠ "" then
      Function.update r.byID (trimSpace delta.id) (some ((r.find delta).getD r.blocks.length))
    else r.byID) id = some k := hk
  split at hk'
  · rename_i hnew
    by_cases hsame : id = trimSpace delta.id
    · subst hsame
      rw [Function.update_self] at hk'
      cases hk'
      refine ⟨_, hget, ?_⟩
      exact if_pos (hid.symm.trans hnew.1)
    · rw [Function.update_of_ne hsame] at hk'
      exact hkept.id id k hk'
  · exact hkept.id id k hk'

/-! ## Text and reasoning -/

theorem content_extend (r : ChatBlocks) (kind kind' : BlockKind) (more : Bytes) :
    (r.extend kind more).content kind' = r.content kind' ++ if kind = kind' then more else [] := by
  unfold content
  obtain ⟨before, b, hblocks, rfl, hext⟩ | ⟨-, hext⟩ := extend_blocks r kind more
  · rw [hext, hblocks]
    by_cases hkind : b.kind = kind'
    · simp [ReplyBlock.content, hkind]
    · simp [ReplyBlock.content, hkind]
  rw [hext]
  by_cases hkind : kind = kind'
  · simp [ReplyBlock.content, hkind]
  · simp [ReplyBlock.content, hkind]

theorem content_set_call {blocks : List ReplyBlock} {kind : BlockKind} {c : ToolCall}
    (hk : blocks[k]? = some (.call c)) (c' : ToolCall) (hkind : kind ≠ .toolUse) :
    (blocks.set k (.call c')).flatMap (ReplyBlock.content kind) =
      blocks.flatMap (ReplyBlock.content kind) := by
  have hcall : ∀ c, ReplyBlock.content kind (.call c) = [] := fun c => if_neg (Ne.symm hkind)
  obtain ⟨hlt, hget⟩ := List.getElem?_eq_some_iff.1 hk
  have hsplit : blocks = blocks.take k ++ .call c :: blocks.drop (k + 1) := by
    rw [← hget, List.cons_getElem_drop_succ, List.take_append_drop]
  rw [List.set_eq_take_append_cons_drop, if_pos hlt]
  conv_rhs => rw [hsplit]
  simp only [List.flatMap_append, List.flatMap_cons, hcall]

theorem Ok.content_addToolCall (h : r.Ok) {kind : BlockKind} (hkind : kind ≠ .toolUse)
    (delta : ToolCall) : (r.addToolCall delta).content kind = r.content kind := by
  unfold content
  obtain ⟨k, c, -, hc, hblocks⟩ | ⟨-, hblocks⟩ := h.addToolCall_blocks delta
  · rw [hblocks]
    exact content_set_call hc _ hkind
  · rw [hblocks]
    simp [ReplyBlock.content, ReplyBlock.kind, Ne.symm hkind]

theorem Ok.addToolCalls (h : r.Ok) (kind : BlockKind) (hkind : kind ≠ .toolUse)
    (deltas : List ToolCall) : (deltas.foldl ChatBlocks.addToolCall r).Ok ∧
      (deltas.foldl ChatBlocks.addToolCall r).content kind = r.content kind := by
  induction deltas generalizing r with
  | nil => exact ⟨h, rfl⟩
  | cons delta deltas ih =>
    obtain ⟨hok, hcontent⟩ := ih (h.addToolCall delta)
    exact ⟨hok, hcontent.trans (h.content_addToolCall hkind delta)⟩

theorem Ok.extendUnless (h : r.Ok) (kind : BlockKind) (hkind : kind ≠ .toolUse) (more : Bytes) :
    (if more = [] then r else r.extend kind more).Ok := by
  split
  · exact h
  · exact h.extend hkind more

theorem content_extendUnless (r : ChatBlocks) (kind kind' : BlockKind) (more : Bytes) :
    (if more = [] then r else r.extend kind more).content kind' =
      r.content kind' ++ if kind = kind' then more else [] := by
  split
  · rename_i hmore
    simp [hmore]
  · exact content_extend r kind kind' more

theorem Ok.addDelta (h : r.Ok) (d : ChatDelta) : (r.addDelta d).Ok := by
  have hreasoning := h.extendUnless .thinking (by decide) d.getReasoningContent
  have htext := hreasoning.extendUnless .text (by decide) d.getContentString
  have hcalls := (htext.addToolCalls .text (by decide) d.indexedToolCalls).1
  unfold ChatBlocks.addDelta
  dsimp only
  split
  · exact hcalls
  · exact hcalls.extend (by decide) []

theorem Ok.content_addDelta (h : r.Ok) (d : ChatDelta) {kind : BlockKind} (hkind : kind ≠ .toolUse) :
    (r.addDelta d).content kind = r.content kind ++
      ((if .thinking = kind then d.getReasoningContent else []) ++
        if .text = kind then d.getContentString else []) := by
  have hreasoning := h.extendUnless .thinking (by decide) d.getReasoningContent
  have htext := hreasoning.extendUnless .text (by decide) d.getContentString
  have hcalls := (htext.addToolCalls kind hkind d.indexedToolCalls).2
  rw [content_extendUnless, content_extendUnless] at hcalls
  unfold ChatBlocks.addDelta
  dsimp only
  split
  · rw [hcalls, List.append_assoc]
  · rw [content_extend, hcalls]
    simp

theorem Ok.addChunk (h : r.Ok) (chunk : UsageChunk) : (r.addChunk chunk).Ok := by
  unfold ChatBlocks.addChunk
  induction chunk.choices generalizing r with
  | nil => exact h
  | cons choice choices ih => exact ih (h.addDelta choice.delta)

theorem Ok.content_addChoices (h : r.Ok) {reply : ChatReply} (choices : List ChatChoice)
    (htext : r.content .text = reply.text) (hreasoning : r.content .thinking = reply.reasoning) :
    (choices.foldl (fun r choice => r.addDelta choice.delta) r).content .text =
        (choices.foldl ChatReply.add reply).text ∧
      (choices.foldl (fun r choice => r.addDelta choice.delta) r).content .thinking =
        (choices.foldl ChatReply.add reply).reasoning := by
  induction choices generalizing r reply with
  | nil => exact ⟨htext, hreasoning⟩
  | cons choice choices ih =>
    refine ih (h.addDelta choice.delta) ?_ ?_
    · rw [h.content_addDelta choice.delta (by decide), htext]
      simp [ChatReply.add]
    · rw [h.content_addDelta choice.delta (by decide), hreasoning]
      simp [ChatReply.add]

end ChatBlocks

theorem chatBlocks_eq :
    chatBlocks chunks = (chunks.flatMap (·.choices)).foldl (fun r choice => r.addDelta choice.delta) {} := by
  rw [List.foldl_flatMap]
  rfl

theorem content_chatBlocks :
    (chatBlocks chunks).content .text = (readChat (chunks.map (·.toChatChunk))).text ∧
      (chatBlocks chunks).content .thinking = (readChat (chunks.map (·.toChatChunk))).reasoning := by
  rw [chatBlocks_eq, show readChat (chunks.map (·.toChatChunk)) =
    (chunks.flatMap (·.choices)).foldl ChatReply.add {} by rw [readChat, List.flatMap_map]]
  exact ChatBlocks.ok_nil.content_addChoices _ rfl rfl

end NewApi.Convert
