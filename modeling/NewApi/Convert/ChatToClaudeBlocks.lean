/-
  NewApi.Convert.ChatToClaudeBlocks

  What the events sent so far show of the blocks of a chat stream.

  `Wrote` says it up to a table of the blocks.  A converter has one block of text or
  thinking open (`Opened`), or a group of tool calls (`Group`); every block before is
  closed and holds all of its value.  Each change of an open block is one lemma.
-/

import NewApi.Convert.ChatBlocks

namespace NewApi.Convert

open List (mem_append mem_cons mem_map mem_singleton)
open NewApi.Lib

/-! ## What the events show -/

def deltaContent (kind : BlockKind) (log : List ClaudeEvent) : Bytes :=
  log.flatMap fun e => match e with
    | .contentBlockDelta _ delta => if delta.kind = kind then delta.value else []
    | _ => []

/-- A block that is started as the block of the chat stream it is.  The id of a call
    that has none may be any. -/
def Shown : ReplyBlock → ContentBlock → Prop
  | .text _, .text => True
  | .thinking _, .thinking => True
  | .call c, .toolUse id name => name = c.name ∧ name ≠ "" ∧ (c.id ≠ "" → id = c.id)
  | _, _ => False

theorem Shown.kind {b : ReplyBlock} {block : ContentBlock} (h : Shown b block) :
    b.kind = block.kind := by
  cases b <;> cases block <;> first | rfl | exact absurd h id

def Begins (log : List ClaudeEvent) : Prop :=
  ∃ first rest, log = first :: rest ∧ first.isMessageStart = true ∧ first.isEnding = false ∧
    ∀ e ∈ rest, e.Inner

/-- The events show these blocks, as far as the table goes. -/
structure Wrote (log : List ClaudeEvent) (blocks : List ReplyBlock)
    (table : Nat → Option (Held UInt8)) : Prop where
  begins : Begins log
  tracks : Tracks blockView log table
  starts : ∀ i block, .contentBlockStart i block ∈ log → ∃ b, blocks[i]? = some b ∧ Shown b block
  deltas : ∀ i delta, .contentBlockDelta i delta ∈ log →
    ∃ b, blocks[i]? = some b ∧ b.kind = delta.kind
  content : ∀ kind, kind ≠ .toolUse →
    deltaContent kind log = blocks.flatMap (ReplyBlock.content kind)

theorem Begins.append {log es : List ClaudeEvent} (h : Begins log) (hes : ∀ e ∈ es, e.Inner) :
    Begins (log ++ es) := by
  obtain ⟨first, rest, rfl, hfirst, hfirst', hrest⟩ := h
  refine ⟨first, rest ++ es, rfl, hfirst, hfirst', fun e he => ?_⟩
  rcases mem_append.1 he with he | he
  · exact hrest e he
  · exact hes e he

theorem deltaContent_append (kind : BlockKind) (log es : List ClaudeEvent) :
    deltaContent kind (log ++ es) = deltaContent kind log ++ deltaContent kind es :=
  List.flatMap_append

section
variable {log es : List ClaudeEvent} {blocks blocks' : List ReplyBlock}
variable {table table' : Nat → Option (Held UInt8)}

def Grows (log : List ClaudeEvent) (blocks blocks' : List ReplyBlock) : Prop :=
  ∀ i b, blocks[i]? = some b → ∃ b', blocks'[i]? = some b' ∧ b'.kind = b.kind ∧
    ∀ block, .contentBlockStart i block ∈ log → Shown b block → Shown b' block

theorem Grows.refl (log : List ClaudeEvent) (blocks : List ReplyBlock) : Grows log blocks blocks :=
  fun _ b hb => ⟨b, hb, rfl, fun _ _ h => h⟩

theorem Grows.append (log : List ClaudeEvent) (blocks more : List ReplyBlock) :
    Grows log blocks (blocks ++ more) := by
  intro i b hb
  refine ⟨b, ?_, rfl, fun _ _ h => h⟩
  rw [List.getElem?_append_left (List.getElem?_eq_some_iff.1 hb).1]
  exact hb

theorem Grows.set {k : Nat} {b b' : ReplyBlock} (hb : blocks[k]? = some b) (hkind : b'.kind = b.kind)
    (hshown : ∀ block, .contentBlockStart k block ∈ log → Shown b block → Shown b' block) :
    Grows log blocks (blocks.set k b') := by
  intro i x hx
  by_cases hik : k = i
  · subst hik
    cases hb.symm.trans hx
    exact ⟨b', List.getElem?_set_self (List.getElem?_eq_some_iff.1 hb).1, hkind, hshown⟩
  refine ⟨x, ?_, rfl, fun _ _ h => h⟩
  rw [List.getElem?_set_ne hik]
  exact hx

section
variable (h : Wrote log blocks table) (hgrows : Grows log blocks blocks')
include h hgrows

theorem Wrote.step
    (hinner : ∀ e ∈ es, e.Inner) (htracks : Tracks blockView (log ++ es) table')
    (hstarts : ∀ i block, .contentBlockStart i block ∈ es → ∃ b, blocks'[i]? = some b ∧ Shown b block)
    (hdeltas : ∀ i delta, .contentBlockDelta i delta ∈ es →
      ∃ b, blocks'[i]? = some b ∧ b.kind = delta.kind)
    (hcontent : ∀ kind, kind ≠ .toolUse → blocks'.flatMap (ReplyBlock.content kind) =
      blocks.flatMap (ReplyBlock.content kind) ++ deltaContent kind es) :
    Wrote (log ++ es) blocks' table' := by
  refine ⟨h.begins.append hinner, htracks, fun i block hi => ?_, fun i delta hi => ?_,
    fun kind hkind => ?_⟩
  · rcases mem_append.1 hi with hi | hi
    · obtain ⟨b, hb, hshown⟩ := h.starts i block hi
      obtain ⟨b', hb', -, hkeep⟩ := hgrows i b hb
      exact ⟨b', hb', hkeep block hi hshown⟩
    · exact hstarts i block hi
  · rcases mem_append.1 hi with hi | hi
    · obtain ⟨b, hb, hkind⟩ := h.deltas i delta hi
      obtain ⟨b', hb', hkind', -⟩ := hgrows i b hb
      exact ⟨b', hb', hkind'.trans hkind⟩
    · exact hdeltas i delta hi
  · rw [deltaContent_append, h.content kind hkind, hcontent kind hkind]

theorem Wrote.grow
    (htable : table' = table)
    (hcontent : ∀ kind, kind ≠ .toolUse → blocks'.flatMap (ReplyBlock.content kind) =
      blocks.flatMap (ReplyBlock.content kind)) : Wrote log blocks' table' := by
  subst htable
  have hstep : Wrote (log ++ []) blocks' _ := h.step hgrows nofun (by simpa using h.tracks) nofun nofun
    fun kind hkind => by simpa [deltaContent] using hcontent kind hkind
  simpa using hstep

end

theorem started_iff (h : Tracks blockView log table) (i : Nat) :
    (∃ block, ClaudeEvent.contentBlockStart i block ∈ log) ↔ table i ≠ none := by
  have hmarks : (∃ block, ClaudeEvent.contentBlockStart i block ∈ log) ↔
      Mark.opened ∈ history blockView i log := by
    simp only [history, List.mem_filterMap]
    constructor
    · rintro ⟨block, hmem⟩
      exact ⟨_, hmem, by simp [markAt, blockView]⟩
    rintro ⟨e, hmem, hmark⟩
    cases e with
    | contentBlockStart j block =>
      simp only [markAt, blockView, Option.bind_some] at hmark
      split at hmark
      · rename_i hij
        exact ⟨block, hij ▸ hmem⟩
      · cases hmark
    | contentBlockDelta j delta | contentBlockStop j =>
      simp only [markAt, blockView, Option.bind_some] at hmark
      split at hmark <;> cases hmark
    | messageStart id model | messageDelta reason | messageStop => cases hmark
  rw [hmarks]
  have htraces := h i
  cases htable : table i with
  | none =>
    rw [htable] at htraces
    rw [show history blockView i log = [] from htraces]
    simp
  | some b =>
    rw [htable] at htraces
    obtain ⟨parts, -, hhist⟩ := htraces
    rw [hhist]
    simp

end

/-! ## Tables -/

def closedTable (blocks : List ReplyBlock) (i : Nat) : Option (Held UInt8) :=
  blocks[i]?.bind fun b => if b.named then some ⟨b.value, true⟩ else none

def openTable (n : Nat) (blocks : List ReplyBlock) (i : Nat) : Option (Held UInt8) :=
  if i < n then closedTable blocks i else blocks[i]?.map fun b => ⟨b.value, false⟩

/-- The tool calls of a group are open once they have started. -/
def groupTable (base : Nat) (tools : List ClaudeStreamToolCall) (blocks : List ReplyBlock) (i : Nat) :
    Option (Held UInt8) :=
  if i < base then closedTable blocks i
  else if tools[i - base]?.any (·.started) then blocks[i]?.map fun b => ⟨b.value, false⟩
  else none

/-- A tool of the converter and the call it is. -/
structure Matches (i : Nat) (tool : ClaudeStreamToolCall) (c : ToolCall) : Prop where
  index : tool.blockIndex = i
  name : tool.name = c.name
  id : c.id ≠ "" → tool.id = c.id
  started : tool.started = true → tool.name ≠ "" ∧ tool.pendingArguments = []
  idle : tool.started = false → tool.pendingArguments = c.arguments

/-- A group of tool calls is open. -/
structure Group (log : List ClaudeEvent) (base : Nat) (tools : List ClaudeStreamToolCall)
    (blocks : List ReplyBlock) : Prop where
  length : blocks.length = base + tools.length
  calls : ∀ j tool, tools[j]? = some tool → ∃ c, blocks[base + j]? = some (.call c) ∧
    Matches (base + j) tool c
  wrote : Wrote log blocks (groupTable base tools blocks)

/-- A block of text or thinking is open. -/
structure Opened (log : List ClaudeEvent) (n : Nat) (kind : BlockKind) (blocks : List ReplyBlock) :
    Prop where
  last : ∃ before b, blocks = before ++ [b] ∧ b.kind = kind ∧ before.length = n
  wrote : Wrote log blocks (openTable n blocks)

section
variable {log : List ClaudeEvent} {base n : Nat} {tools : List ClaudeStreamToolCall}
variable {blocks : List ReplyBlock} {kind : BlockKind}

theorem closedTable_append_left {i : Nat} (hi : i < blocks.length) (more : List ReplyBlock) :
    closedTable (blocks ++ more) i = closedTable blocks i := by
  unfold closedTable
  rw [List.getElem?_append_left hi]

theorem closedTable_of_ge {i : Nat} (hi : blocks.length ≤ i) : closedTable blocks i = none := by
  unfold closedTable
  rw [List.getElem?_eq_none hi]
  rfl

/-! ### Text and thinking -/

theorem Wrote.opening (h : Wrote log blocks (closedTable blocks)) {block : ContentBlock}
    (hshown : Shown (.ofKind kind []) block) :
    Opened (log ++ [.contentBlockStart blocks.length block]) blocks.length kind
      (blocks ++ [.ofKind kind []]) := by
  refine ⟨⟨blocks, _, rfl, ReplyBlock.kind_ofKind kind [], rfl⟩, ?_⟩
  refine h.step (.append _ _ _) ?_ ?_ ?_ ?_ ?_
  · intro e he
    rw [mem_singleton.1 he]
    exact ⟨rfl, rfl⟩
  · refine h.tracks.opening (i := blocks.length) rfl (closedTable_of_ge (Nat.le_refl _)) ?_ ?_
    · simp [openTable]
    intro j hj
    unfold openTable
    split
    · rename_i hlt
      exact closedTable_append_left hlt _
    · rw [closedTable_of_ge (by omega), List.getElem?_eq_none (by simp; omega)]
      rfl
  · intro i block' hi
    cases mem_singleton.1 hi
    exact ⟨_, by simp, hshown⟩
  · intro i delta hi
    cases mem_singleton.1 hi
  · intro kind' _
    simp [deltaContent, ReplyBlock.content]

theorem Opened.send (h : Opened log n kind blocks) {delta : BlockDelta} (hdelta : delta.kind = kind)
    {before : List ReplyBlock} {b : ReplyBlock} (hblocks : blocks = before ++ [b]) :
    Opened (log ++ [.contentBlockDelta n delta]) n kind (before ++ [b.append delta.value]) := by
  subst hblocks
  obtain ⟨⟨before', b', hsame, hkind, hn⟩, hwrote⟩ := h
  obtain ⟨rfl, hb⟩ := List.append_inj' hsame rfl
  cases hb
  refine ⟨⟨before, _, rfl, by simpa using hkind, hn⟩, ?_⟩
  have hset : before ++ [b.append delta.value] = (before ++ [b]).set n (b.append delta.value) := by
    simp [← hn]
  refine hwrote.step ?_ ?_ ?_ ?_ ?_ ?_
  · rw [hset]
    have hb : (before ++ [b])[n]? = some b := by simp [← hn]
    refine .set hb (ReplyBlock.kind_append _ _) fun block _ hshown => ?_
    cases b <;> cases block <;> exact hshown
  · intro e he
    rw [mem_singleton.1 he]
    exact ⟨rfl, rfl⟩
  · have hopen : openTable n (before ++ [b]) n = some ⟨b.value, false⟩ := by simp [openTable, ← hn]
    refine hwrote.tracks.adding (i := n) (p := delta.value) rfl hopen ?_ ?_
    · simp [openTable, ← hn]
    intro j hj
    unfold openTable
    split
    · rename_i hlt
      rw [closedTable_append_left (by omega), closedTable_append_left (by omega)]
    · rw [List.getElem?_eq_none (by simp; omega), List.getElem?_eq_none (by simp; omega)]
  · intro i block hi
    cases mem_singleton.1 hi
  · intro i delta' hi
    cases mem_singleton.1 hi
    exact ⟨b.append delta.value, by simp [← hn], by simp [hkind, hdelta]⟩
  intro kind' _
  by_cases hk : kind = kind'
  · simp [deltaContent, ReplyBlock.content, hdelta, hkind, hk]
  · simp [deltaContent, ReplyBlock.content, hdelta, hkind, hk]

theorem Opened.close (h : Opened log n kind blocks) (hkind : kind ≠ .toolUse) :
    Wrote (log ++ [.contentBlockStop n]) blocks (closedTable blocks) := by
  obtain ⟨⟨before, b, rfl, hb, hn⟩, hwrote⟩ := h
  have hnamed : b.named = true := by
    cases b with
    | call c => exact absurd hb (Ne.symm hkind)
    | text value => rfl
    | thinking value => rfl
  refine hwrote.step (.refl _ _) ?_ ?_ ?_ ?_ ?_
  · intro e he
    rw [mem_singleton.1 he]
    exact ⟨rfl, rfl⟩
  · have hopen : openTable n (before ++ [b]) n = some ⟨b.value, false⟩ := by simp [openTable, ← hn]
    refine hwrote.tracks.closing (i := n) rfl hopen ?_ ?_
    · simp [closedTable, ← hn, hnamed]
    intro j hj
    unfold openTable
    split
    · rfl
    · rw [closedTable_of_ge (by simp; omega), List.getElem?_eq_none (by simp; omega)]
      rfl
  · intro i block hi
    cases mem_singleton.1 hi
  · intro i delta hi
    cases mem_singleton.1 hi
  · intro kind' _
    simp [deltaContent]

/-! ### Groups of tool calls -/

theorem groupTable_of_lt {i : Nat} (hi : i < base) :
    groupTable base tools blocks i = closedTable blocks i := if_pos hi

theorem groupTable_add (j : Nat) : groupTable base tools blocks (base + j) =
      if tools[j]?.any (·.started) then blocks[base + j]?.map fun b => ⟨b.value, false⟩ else none := by
  unfold groupTable
  rw [if_neg (by omega), Nat.add_sub_cancel_left]

theorem groupTable_eq {tools' : List ClaudeStreamToolCall} {blocks' : List ReplyBlock} {i : Nat}
    (hlow : i < base → closedTable blocks' i = closedTable blocks i) (hhigh : ∀ j, i = base + j →
      tools'[j]?.any (·.started) = tools[j]?.any (·.started) ∧
        (tools[j]?.any (·.started) = true → blocks'[i]? = blocks[i]?)) :
    groupTable base tools' blocks' i = groupTable base tools blocks i := by
  by_cases hi : i < base
  · rw [groupTable_of_lt hi, groupTable_of_lt hi, hlow hi]
  obtain ⟨j, rfl⟩ := Nat.exists_eq_add_of_le (Nat.le_of_not_lt hi)
  obtain ⟨hsame, hblock⟩ := hhigh j rfl
  rw [groupTable_add, groupTable_add, hsame]
  split
  · rename_i hstarted
    rw [hblock hstarted]
  · rfl

theorem Wrote.group (h : Wrote log blocks (closedTable blocks)) : Group log blocks.length [] blocks := by
  refine ⟨rfl, nofun, ?_⟩
  have htable : groupTable blocks.length [] blocks = closedTable blocks := by
    funext i
    by_cases hi : i < blocks.length
    · exact groupTable_of_lt hi
    · rw [closedTable_of_ge (by omega)]
      simp [groupTable, hi]
  rw [htable]
  exact h

theorem Group.new (h : Group log base tools blocks) :
    Group log base (tools ++ [{ blockIndex := base + tools.length }]) (blocks ++ [.call {}]) := by
  have hlen := h.length
  refine ⟨by simp [hlen, Nat.add_assoc], fun j tool hj => ?_, ?_⟩
  · rcases Nat.lt_trichotomy j tools.length with hlt | rfl | hgt
    · rw [List.getElem?_append_left hlt] at hj
      obtain ⟨c, hc, hmatch⟩ := h.calls j tool hj
      refine ⟨c, ?_, hmatch⟩
      rw [List.getElem?_append_left (by omega)]
      exact hc
    · rw [List.getElem?_append_right (Nat.le_refl _)] at hj
      simp only [Nat.sub_self, List.getElem?_cons_zero, Option.some.injEq] at hj
      subst hj
      refine ⟨{}, ?_, rfl, rfl, fun hid => absurd rfl hid, nofun, fun _ => rfl⟩
      rw [← hlen, List.getElem?_append_right (Nat.le_refl _)]
      simp
    · rw [List.getElem?_eq_none (by simp; omega)] at hj
      cases hj
  refine h.wrote.grow (.append _ _ _) ?_ ?_
  · funext i
    refine groupTable_eq (fun hi => closedTable_append_left (by omega) _) fun j hj => ?_
    subst hj
    rcases Nat.lt_trichotomy j tools.length with hlt | rfl | hgt
    · rw [List.getElem?_append_left hlt, List.getElem?_append_left (by omega)]
      exact ⟨rfl, fun _ => rfl⟩
    · rw [List.getElem?_append_right (Nat.le_refl _)]
      simp
    · rw [List.getElem?_eq_none (by simp; omega), List.getElem?_eq_none (by omega)]
      simp
  · intro kind hkind
    simp [ReplyBlock.content, ReplyBlock.kind, Ne.symm hkind]

variable {j : Nat} {tool : ClaudeStreamToolCall} {c : ToolCall}

theorem Group.calls_set (h : Group log base tools blocks) {tool' : ClaudeStreamToolCall} {c' : ToolCall}
    (hmatch : Matches (base + j) tool' c') (hj : tools[j]? = some tool) :
    (blocks.set (base + j) (.call c')).length = base + (tools.set j tool').length ∧
      ∀ i t, (tools.set j tool')[i]? = some t →
        ∃ c, (blocks.set (base + j) (.call c'))[base + i]? = some (.call c) ∧ Matches (base + i) t c := by
  have hlen := h.length
  have hlt := (List.getElem?_eq_some_iff.1 hj).1
  refine ⟨by simpa using hlen, fun i t ht => ?_⟩
  by_cases hij : j = i
  · subst hij
    rw [List.getElem?_set_self hlt] at ht
    cases ht
    exact ⟨c', List.getElem?_set_self (by omega), hmatch⟩
  rw [List.getElem?_set_ne hij] at ht
  obtain ⟨c, hc, hm⟩ := h.calls i t ht
  refine ⟨c, ?_, hm⟩
  rw [List.getElem?_set_ne (by omega)]
  exact hc

theorem groupTable_set_ne (tools : List ClaudeStreamToolCall) (blocks : List ReplyBlock)
    (tool' : ClaudeStreamToolCall) (c' : ToolCall) {i : Nat} (hi : i ≠ base + j) :
    groupTable base (tools.set j tool') (blocks.set (base + j) (.call c')) i =
      groupTable base tools blocks i := by
  refine groupTable_eq (fun hlt => ?_) fun k hk => ?_
  · unfold closedTable
    rw [List.getElem?_set_ne (by omega)]
  subst hk
  rw [List.getElem?_set_ne (by omega), List.getElem?_set_ne (by omega)]
  exact ⟨rfl, fun _ => rfl⟩

theorem groupTable_set_self (tool' : ClaudeStreamToolCall) (c' : ToolCall)
    (hj : tools[j]? = some tool) (hblock : base + j < blocks.length) :
    groupTable base (tools.set j tool') (blocks.set (base + j) (.call c')) (base + j) =
      if tool'.started then some ⟨c'.arguments, false⟩ else none := by
  rw [groupTable_add, List.getElem?_set_self (List.getElem?_eq_some_iff.1 hj).1,
    List.getElem?_set_self hblock]
  simp [ReplyBlock.value]

theorem groupTable_self (hj : tools[j]? = some tool) (hc : blocks[base + j]? = some (.call c)) :
    groupTable base tools blocks (base + j) =
      if tool.started then some ⟨c.arguments, false⟩ else none := by
  rw [groupTable_add, hj, hc]
  simp [ReplyBlock.value]

theorem Group.wait (h : Group log base tools blocks) (hj : tools[j]? = some tool)
    (hc : blocks[base + j]? = some (.call c)) (hidle : tool.started = false)
    {tool' : ClaudeStreamToolCall} {c' : ToolCall} (hidle' : tool'.started = false)
    (hmatch : Matches (base + j) tool' c') :
    Group log base (tools.set j tool') (blocks.set (base + j) (.call c')) := by
  obtain ⟨hlength, hcalls⟩ := h.calls_set hmatch hj
  have hlt := (List.getElem?_eq_some_iff.1 hc).1
  have hnone : groupTable base tools blocks (base + j) = none := by
    rw [groupTable_self hj hc, hidle]
    rfl
  refine ⟨hlength, hcalls, h.wrote.grow (.set hc rfl fun block hstart _ => ?_) ?_ ?_⟩
  · exact absurd hnone ((started_iff h.wrote.tracks _).1 ⟨block, hstart⟩)
  · funext i
    by_cases hi : i = base + j
    · subst hi
      rw [groupTable_set_self tool' c' hj hlt, hnone, hidle']
      rfl
    · exact groupTable_set_ne tools blocks tool' c' hi
  · intro kind hkind
    exact ChatBlocks.content_set_call hc c' hkind

theorem set_call_self {k : Nat} (hc : blocks[k]? = some (.call c)) :
    blocks.set k (.call c) = blocks := by
  obtain ⟨hlt, hget⟩ := List.getElem?_eq_some_iff.1 hc
  rw [← hget]
  exact List.set_getElem_self hlt

section
variable (h : Group log base tools blocks) (hj : tools[j]? = some tool)
include h hj

/-- A call starts; what it has so far follows at once. -/
theorem Group.start (hidle : tool.started = false) (hname : tool.name ≠ "") (id : String)
    (hid : ∀ c, blocks[base + j]? = some (.call c) → c.id ≠ "" → id = c.id) :
    Group (log ++ (.contentBlockStart tool.blockIndex (.toolUse id tool.name) ::
        if tool.pendingArguments = [] then []
        else [.contentBlockDelta tool.blockIndex (.inputJson tool.pendingArguments)])) base
      (tools.set j { tool with id := id, started := true, pendingArguments := [] }) blocks := by
  obtain ⟨c, hc, hmatch⟩ := h.calls j tool hj
  suffices hstart : ∀ i, base + j = i →
      Group (log ++ (.contentBlockStart i (.toolUse id tool.name) ::
          if tool.pendingArguments = [] then []
          else [.contentBlockDelta i (.inputJson tool.pendingArguments)])) base
        (tools.set j { tool with id := id, started := true, pendingArguments := [] }) blocks from
    hstart _ hmatch.index.symm
  rintro _ rfl
  have hlt := (List.getElem?_eq_some_iff.1 hc).1
  have hshown : Shown (.call c) (.toolUse id tool.name) := ⟨hmatch.name, hname, hid c hc⟩
  have hargs := hmatch.idle hidle
  let tool' : ClaudeStreamToolCall := { tool with id := id, started := true, pendingArguments := [] }
  have hmatch' : Matches (base + j) tool' c :=
    ⟨hmatch.index, hmatch.name, hid c hc, fun _ => ⟨hname, rfl⟩, nofun⟩
  obtain ⟨hlength, hcalls⟩ := h.calls_set hmatch' hj
  have hself : groupTable base (tools.set j tool') blocks (base + j) = some ⟨c.arguments, false⟩ := by
    have hset := groupTable_set_self tool' c hj hlt
    rw [set_call_self hc] at hset
    exact hset
  have hother : ∀ i, i ≠ base + j →
      groupTable base (tools.set j tool') blocks i = groupTable base tools blocks i := by
    intro i hi
    have hset := groupTable_set_ne tools blocks tool' c hi
    rw [set_call_self hc] at hset
    exact hset
  rw [set_call_self hc] at hlength hcalls
  have hnone : groupTable base tools blocks (base + j) = none := by
    rw [groupTable_self hj hc, hidle]
    rfl
  refine ⟨hlength, hcalls, h.wrote.step (.refl _ _) ?_ ?_ ?_ ?_ ?_⟩
  · intro e he
    split at he
    · cases mem_singleton.1 he
      exact ⟨rfl, rfl⟩
    rcases mem_cons.1 he with rfl | he
    · exact ⟨rfl, rfl⟩
    · cases mem_singleton.1 he
      exact ⟨rfl, rfl⟩
  · split
    · rename_i hempty
      refine h.wrote.tracks.opening (i := base + j) rfl hnone ?_ hother
      rw [hself, ← hargs, hempty]
    have hopened : Tracks blockView (log ++ [.contentBlockStart (base + j) (.toolUse id tool.name)])
        (Function.update (groupTable base tools blocks) (base + j) (some {})) :=
      h.wrote.tracks.opening rfl hnone (Function.update_self ..) fun i hi => Function.update_of_ne hi ..
    rw [show ∀ e e' : ClaudeEvent, log ++ [e, e'] = log ++ [e] ++ [e'] by simp]
    refine hopened.adding (p := tool.pendingArguments) rfl (Function.update_self ..) ?_ fun i hi => ?_
    · rw [hself, hargs]
      rfl
    · rw [Function.update_of_ne hi, hother i hi]
  · intro i block hi
    have hblock : i = base + j ∧ block = .toolUse id tool.name := by
      split at hi
      · cases mem_singleton.1 hi
        exact ⟨rfl, rfl⟩
      rcases mem_cons.1 hi with hi | hi
      · cases hi
        exact ⟨rfl, rfl⟩
      · cases mem_singleton.1 hi
    obtain ⟨rfl, rfl⟩ := hblock
    exact ⟨_, hc, hshown⟩
  · intro i delta hi
    split at hi
    · cases mem_singleton.1 hi
    rcases mem_cons.1 hi with hi | hi
    · cases hi
    · cases mem_singleton.1 hi
      exact ⟨_, hc, rfl⟩
  intro kind hkind
  split
  · simp [deltaContent]
  · simp [deltaContent, BlockDelta.kind, Ne.symm hkind]

/-- A fragment of a call that has started. -/
theorem Group.more (hc : blocks[base + j]? = some (.call c)) (hstarted : tool.started = true)
    {c' : ToolCall} {more : Bytes} (hid : c'.id = c.id) (hname : c'.name = c.name)
    (hargs : c'.arguments = c.arguments ++ more) :
    Group (log ++ if more = [] then [] else [.contentBlockDelta (base + j) (.inputJson more)]) base tools
      (blocks.set (base + j) (.call c')) := by
  have hlt := (List.getElem?_eq_some_iff.1 hc).1
  have hmatch : Matches (base + j) tool c := by
    obtain ⟨c₁, hc₁, hmatch⟩ := h.calls j tool hj
    cases hc.symm.trans hc₁
    exact hmatch
  have hmatch' : Matches (base + j) tool c' := by
    refine ⟨hmatch.index, hmatch.name.trans hname.symm, ?_, hmatch.started, fun hidle => ?_⟩
    · rw [hid]
      exact hmatch.id
    · rw [hstarted] at hidle
      cases hidle
  obtain ⟨hlength, hcalls⟩ := h.calls_set hmatch' hj
  have htools : tools.set j tool = tools := by
    obtain ⟨hlt, hget⟩ := List.getElem?_eq_some_iff.1 hj
    rw [← hget]
    exact List.set_getElem_self hlt
  rw [htools] at hlength hcalls
  have hself : groupTable base tools (blocks.set (base + j) (.call c')) (base + j) =
      some ⟨c.arguments ++ more, false⟩ := by
    have hset := groupTable_set_self tool c' hj hlt
    rw [htools, hstarted, hargs] at hset
    exact hset
  have hother : ∀ i, i ≠ base + j → groupTable base tools (blocks.set (base + j) (.call c')) i =
      groupTable base tools blocks i := by
    intro i hi
    have hset := groupTable_set_ne tools blocks tool c' hi
    rw [htools] at hset
    exact hset
  have hopen : groupTable base tools blocks (base + j) = some ⟨c.arguments, false⟩ := by
    rw [groupTable_self hj hc, hstarted]
    rfl
  have hgrows : Grows log blocks (blocks.set (base + j) (.call c')) := by
    refine .set hc rfl fun block _ hshown => ?_
    cases block with
    | toolUse id name =>
      obtain ⟨hsame, hne, hsameID⟩ := hshown
      exact ⟨hsame.trans hname.symm, hne, by rwa [hid]⟩
    | text | thinking => exact hshown
  have hcontent : ∀ kind, kind ≠ .toolUse →
      (blocks.set (base + j) (.call c')).flatMap (ReplyBlock.content kind) =
        blocks.flatMap (ReplyBlock.content kind) := fun kind hkind => ChatBlocks.content_set_call hc c' hkind
  refine ⟨hlength, hcalls, ?_⟩
  split
  · rename_i hempty
    rw [List.append_nil]
    refine h.wrote.grow hgrows (funext fun i => ?_) hcontent
    by_cases hi : i = base + j
    · subst hi
      rw [hself, hopen, hempty, List.append_nil]
    · exact hother i hi
  refine h.wrote.step hgrows ?_ ?_ ?_ ?_ ?_
  · intro e he
    cases mem_singleton.1 he
    exact ⟨rfl, rfl⟩
  · exact h.wrote.tracks.adding (i := base + j) (p := more) rfl hopen hself hother
  · intro i block hi
    cases mem_singleton.1 hi
  · intro i delta hi
    cases mem_singleton.1 hi
    exact ⟨_, List.getElem?_set_self hlt, rfl⟩
  intro kind hkind
  rw [hcontent kind hkind]
  simp [deltaContent, BlockDelta.kind, Ne.symm hkind]

end

def startedBlocks (tools : List ClaudeStreamToolCall) : List Nat :=
  (tools.filter (·.started)).map (·.blockIndex)

section
variable (h : Group log base tools blocks)
include h

theorem Group.blockIndexes :
    tools.map (·.blockIndex) = (List.range tools.length).map (base + ·) := by
  refine List.ext_getElem? fun j => ?_
  rw [List.getElem?_map, List.getElem?_map]
  cases hj : tools[j]? with
  | none =>
    rw [List.getElem?_eq_none (by simpa using List.getElem?_eq_none_iff.1 hj)]
    rfl
  | some tool =>
    obtain ⟨c, -, hmatch⟩ := h.calls j tool hj
    rw [List.getElem?_range (List.getElem?_eq_some_iff.1 hj).1]
    simp [hmatch.index]

theorem Group.mem_startedBlocks (hj : tools[j]? = some tool) :
    base + j ∈ startedBlocks tools ↔ tool.started = true := by
  simp only [startedBlocks, mem_map, List.mem_filter]
  constructor
  · rintro ⟨t, ⟨ht, hstarted⟩, hindex⟩
    obtain ⟨i, hi⟩ := List.mem_iff_getElem?.1 ht
    obtain ⟨c, -, hmatch⟩ := h.calls i t hi
    obtain rfl : i = j := by
      have := hmatch.index
      omega
    cases hi.symm.trans hj
    exact hstarted
  intro hstarted
  obtain ⟨c, -, hmatch⟩ := h.calls j tool hj
  exact ⟨tool, ⟨List.mem_of_getElem? hj, hstarted⟩, hmatch.index⟩

/-- The group ends when every call that has a name has started. -/
theorem Group.close (hall : ∀ tool ∈ tools, tool.started = true ∨ tool.name = "") :
    Wrote (log ++ (startedBlocks tools).map .contentBlockStop) blocks (closedTable blocks) := by
  have hlen := h.length
  have hnodup : (startedBlocks tools).Nodup := by
    have hsub : (startedBlocks tools).Sublist (tools.map (·.blockIndex)) :=
      List.filter_sublist.map _
    refine hsub.nodup ?_
    rw [h.blockIndexes]
    exact List.nodup_range.map fun a b hab => by omega
  have hmem : ∀ i ∈ startedBlocks tools, ∃ j tool c, i = base + j ∧ tools[j]? = some tool ∧
      blocks[i]? = some (.call c) ∧ tool.started = true := by
    intro i hi
    simp only [startedBlocks, mem_map, List.mem_filter] at hi
    obtain ⟨tool, ⟨ht, hstarted⟩, hindex⟩ := hi
    obtain ⟨j, hj⟩ := List.mem_iff_getElem?.1 ht
    obtain ⟨c, hc, hmatch⟩ := h.calls j tool hj
    obtain rfl : i = base + j := hindex.symm.trans hmatch.index
    exact ⟨j, tool, c, rfl, hj, hc, hstarted⟩
  have hclosings := h.wrote.tracks.closings ClaudeEvent.contentBlockStop (fun _ => rfl) hnodup
    fun i hi => by
      obtain ⟨j, tool, c, rfl, hj, hc, hstarted⟩ := hmem i hi
      refine ⟨c.arguments, ?_⟩
      rw [groupTable_self hj hc, hstarted]
      rfl
  have htable : (fun i => if i ∈ startedBlocks tools then
      (groupTable base tools blocks i).map fun b => (⟨b.value, true⟩ : Held UInt8)
      else groupTable base tools blocks i) = closedTable blocks := by
    funext i
    by_cases hi : i < base
    · have hnot : i ∉ startedBlocks tools := by
        intro hin
        obtain ⟨j, _, _, rfl, _⟩ := hmem i hin
        omega
      rw [if_neg hnot, groupTable_of_lt hi]
    obtain ⟨j, rfl⟩ := Nat.exists_eq_add_of_le (Nat.le_of_not_lt hi)
    cases hj : tools[j]? with
    | none =>
      have hge := List.getElem?_eq_none_iff.1 hj
      have hnot : base + j ∉ startedBlocks tools := by
        intro hin
        obtain ⟨j', _, _, heq, hj', _⟩ := hmem _ hin
        have := (List.getElem?_eq_some_iff.1 hj').1
        omega
      rw [if_neg hnot, groupTable_add, hj, closedTable_of_ge (by omega)]
      rfl
    | some tool =>
      obtain ⟨c, hc, hmatch⟩ := h.calls j tool hj
      rw [groupTable_self hj hc]
      by_cases hstarted : tool.started = true
      · have hname : c.name ≠ "" := hmatch.name ▸ (hmatch.started hstarted).1
        rw [if_pos ((h.mem_startedBlocks hj).2 hstarted)]
        simp [hstarted, closedTable, hc, ReplyBlock.named, ReplyBlock.value, hname]
      have hname : c.name = "" := by
        rw [← hmatch.name]
        exact (hall tool (List.mem_of_getElem? hj)).resolve_left hstarted
      rw [if_neg fun hin => hstarted ((h.mem_startedBlocks hj).1 hin)]
      simp [hstarted, closedTable, hc, ReplyBlock.named, hname]
  rw [htable] at hclosings
  refine h.wrote.step (.refl _ _) ?_ hclosings ?_ ?_ ?_
  · intro e he
    obtain ⟨i, -, rfl⟩ := mem_map.1 he
    exact ⟨rfl, rfl⟩
  · intro i block hi
    obtain ⟨_, -, hstop⟩ := mem_map.1 hi
    cases hstop
  · intro i delta hi
    obtain ⟨_, -, hstop⟩ := mem_map.1 hi
    cases hstop
  · intro kind _
    simp [deltaContent, List.flatMap_map]

end

end

end NewApi.Convert
