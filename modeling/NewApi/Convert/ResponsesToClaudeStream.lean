/-
  NewApi.Convert.ResponsesToClaudeStream

  What the converter from Responses to Claude makes of a whole stream, whatever the
  order of its events and whatever indexes and ids they carry.

  Which block an event is for does not matter: every method keeps the invariant at
  any position.  What carries it is the cursor of a block: the bytes up to it are
  the ones its deltas have sent, a block that has not started has sent none, and one
  that was stopped has sent all.
-/

import NewApi.Lib.Fallible
import NewApi.Convert.ResponsesToClaude

namespace NewApi.Convert

open NewApi.Lib

/-! ## Blocks -/

def ClaudeStreamBlock.held (block : ClaudeStreamBlock) : Option (Held UInt8) :=
  if block.started then some ⟨block.value.take block.sentBytes, block.stopped⟩ else none

/-- The cursor of a block at its position. -/
structure ClaudeStreamBlock.Ok (i : Nat) (block : ClaudeStreamBlock) : Prop where
  index : block.index = i
  cursor : block.sentBytes ≤ block.value.length
  idle : block.started = false → block.sentBytes = 0 ∧ block.stopped = false
  all : block.stopped = true → block.sentBytes = block.value.length

namespace ResponsesToClaudeStreamState

variable {s s' : ResponsesToClaudeStreamState} {i : Nat} {block block' : ClaudeStreamBlock}

def table (s : ResponsesToClaudeStreamState) (i : Nat) : Option (Held UInt8) :=
  s.blocks[i]?.bind ClaudeStreamBlock.held

/-- The log of a stream that is going on. -/
structure Begins (s : ResponsesToClaudeStreamState) : Prop where
  fresh : s.sentMessageStart = false → s.sent = []
  begun : s.sentMessageStart = true → ∃ first rest, s.sent = first :: rest ∧
    first.isMessageStart = true ∧ first.isEnding = false ∧ ∀ e ∈ rest, e.Inner

/-- The blocks and the log of a stream that is going on. -/
structure Going (s : ResponsesToClaudeStreamState) : Prop where
  ok : ∀ (i : Nat) (block : ClaudeStreamBlock), s.blocks[i]? = some block → block.Ok i
  next : s.nextBlockIndex = s.blocks.length
  tracks : Tracks blockView s.sent s.table
  log : s.Begins
  live : s.done = false

theorem going_new (id model : String) : (newResponsesToClaudeStreamState id model).Going :=
  ⟨nofun, rfl, fun _ => rfl, ⟨fun _ => rfl, fun h => by cases h⟩, rfl⟩

theorem Going.sentMessageStart (h : s.Going) (hi : s.blocks[i]? = some block)
    (hstarted : block.started = true) : s.sentMessageStart = true := by
  by_contra hnot
  have hsent := h.log.fresh (by simpa using hnot)
  have htraces := h.tracks i
  rw [hsent] at htraces
  simp only [table, hi, Option.bind_some, ClaudeStreamBlock.held, hstarted, if_true] at htraces
  obtain ⟨parts, -, hmarks⟩ := htraces
  cases hmarks

theorem Begins.send (h : s.Begins) (hstart : s.sentMessageStart = true) {e : ClaudeEvent}
    (he : e.Inner) : (s.send e).Begins := by
  refine ⟨fun hnot => ?_, fun _ => ?_⟩
  · have hnot' : s.sentMessageStart = false := hnot
    rw [hstart] at hnot'
    cases hnot'
  obtain ⟨first, rest, hsent, hfirst, hfirst', hrest⟩ := h.begun hstart
  refine ⟨first, rest ++ [e], ?_, hfirst, hfirst', fun x hx => ?_⟩
  · show s.sent ++ [e] = _
    rw [hsent, List.cons_append]
  rcases List.mem_append.1 hx with hx | hx
  · exact hrest x hx
  · rw [List.mem_singleton.1 hx]
    exact he

theorem table_setBlock (hi : s.blocks[i]? = some block) (block' : ClaudeStreamBlock) :
    (s.setBlock i block').table i = block'.held := by
  have hlt : i < s.blocks.length := (List.getElem?_eq_some_iff.1 hi).1
  simp [table, setBlock, List.getElem?_set_self hlt]

theorem table_setBlock_ne {j : Nat} (hj : j ≠ i) (block' : ClaudeStreamBlock) :
    (s.setBlock i block').table j = s.table j := by
  simp [table, setBlock, List.getElem?_set_ne (Ne.symm hj)]

theorem ok_setBlock (h : ∀ (j : Nat) (b : ClaudeStreamBlock), s.blocks[j]? = some b → b.Ok j)
    (hok : block'.Ok i) :
    ∀ (j : Nat) (b : ClaudeStreamBlock), (s.setBlock i block').blocks[j]? = some b → b.Ok j := by
  intro j b hb
  by_cases hj : i = j
  · subst hj
    have hb' : (s.blocks.set i block')[i]? = some b := hb
    rw [List.getElem?_set, if_pos rfl] at hb'
    split at hb' <;> cases hb'
    exact hok
  have hb' : (s.blocks.set i block')[j]? = some b := hb
  rw [List.getElem?_set_ne hj] at hb'
  exact h j b hb'

theorem Going.setBlock (h : s.Going) (hi : s.blocks[i]? = some block) (hok : block'.Ok i)
    (hheld : block'.held = block.held) : (s.setBlock i block').Going := by
  have htable : (s.setBlock i block').table = s.table := by
    funext j
    by_cases hj : j = i
    · subst hj
      rw [table_setBlock hi, hheld]
      simp [table, hi]
    · exact table_setBlock_ne hj block'
  refine ⟨ok_setBlock h.ok hok, ?_, ?_, ⟨h.log.fresh, h.log.begun⟩, h.live⟩
  · rw [show (s.setBlock i block').blocks.length = s.blocks.length from List.length_set]
    exact h.next
  · rw [htable]
    exact h.tracks

theorem Going.setBlock_send (h : s.Going) (hi : s.blocks[i]? = some block) (hok : block'.Ok i)
    (hstart : s.sentMessageStart = true) {e : ClaudeEvent} (he : e.Inner) {m : Mark UInt8}
    (hview : blockView e = some (i, m))
    (htraces : ∀ marks, Traces marks block.held → Traces (marks ++ [m]) block'.held) :
    ((s.setBlock i block').send e).Going := by
  refine ⟨ok_setBlock h.ok hok, ?_, ?_, ?_, h.live⟩
  · rw [show ((s.setBlock i block').send e).blocks.length = s.blocks.length from List.length_set]
    exact h.next
  · refine h.tracks.update hview ?_ fun j hj => table_setBlock_ne hj block'
    show Traces _ ((s.setBlock i block').table i)
    rw [table_setBlock hi]
    refine htraces _ ?_
    have := h.tracks i
    rwa [show s.table i = block.held by simp [table, hi]] at this
  · exact Begins.send (s := s.setBlock i block') ⟨h.log.fresh, h.log.begun⟩ hstart he

theorem going_ensureMessageStart (h : s.Going) : s.ensureMessageStart.Going := by
  unfold ensureMessageStart
  split
  · exact h
  rename_i hnot
  have hsent := h.log.fresh (by simpa using hnot)
  refine ⟨h.ok, h.next, h.tracks.skip rfl, ⟨by rintro ⟨⟩, fun _ => ?_⟩, h.live⟩
  refine ⟨.messageStart s.id s.model, [], ?_, rfl, rfl, by simp⟩
  show s.sent ++ [_] = _
  rw [hsent, List.nil_append]

variable (s)

theorem ensureMessageStart_sent : s.ensureMessageStart.sentMessageStart = true := by
  unfold ensureMessageStart
  split
  · assumption
  · rfl

theorem ensureMessageStart_setBlock (i : Nat) (block : ClaudeStreamBlock) :
    (s.setBlock i block).ensureMessageStart = s.ensureMessageStart.setBlock i block := by
  unfold ensureMessageStart
  split
  · rename_i hsent
    rw [if_pos (show s.sentMessageStart = true from hsent)]
  rename_i hsent
  rw [if_neg (show ¬ s.sentMessageStart = true from hsent)]
  rfl

theorem ensureMessageStart_blocks : s.ensureMessageStart.blocks = s.blocks := by
  unfold ensureMessageStart
  split <;> rfl

variable {s}

theorem going_startBlock (h : s.Going) (i : Nat) : (s.startBlock i).Going := by
  unfold startBlock
  split
  · exact h
  rename_i block hi
  split
  · exact h
  rename_i hidle
  obtain ⟨hstarted, hstopped⟩ := not_or.1 hidle
  split
  · exact h
  rename_i content _
  have hok := h.ok i block hi
  obtain ⟨hzero, hopen⟩ := hok.idle (by simpa using hstarted)
  let t := { s with sawToolCall := s.sawToolCall || content.kind = BlockKind.toolUse }
  have ht : t.ensureMessageStart.Going :=
    going_ensureMessageStart ⟨h.ok, h.next, h.tracks, ⟨h.log.fresh, h.log.begun⟩, h.live⟩
  have hi' : t.ensureMessageStart.blocks[i]? = some block := by
    rw [ensureMessageStart_blocks]
    exact hi
  show ((t.setBlock i { block with started := true }).ensureMessageStart.send _).Going
  rw [ensureMessageStart_setBlock]
  refine ht.setBlock_send (m := .opened) hi' ?_ (ensureMessageStart_sent t) ?_ ?_ ?_
  · exact ⟨hok.index, hok.cursor, by rintro ⟨⟩, hok.all⟩
  · exact ⟨rfl, rfl⟩
  · simp [blockView, hok.index]
  intro marks htraces
  have hmarks : marks = [] := by
    simpa [ClaudeStreamBlock.held, hstarted, Traces] using htraces
  rw [hmarks]
  simp only [ClaudeStreamBlock.held, if_true, hzero, hopen, List.take_zero]
  exact traces_opened

theorem going_sendRest (h : s.Going) (i : Nat) : (s.sendRest i).Going := by
  unfold sendRest
  split
  · exact h
  rename_i block hi
  split
  · exact h
  rename_i hrest
  obtain ⟨hstarted, hmore⟩ := not_or.1 hrest
  have hok := h.ok i block hi
  have hstart : block.started = true := by simpa using hstarted
  have hopen : block.stopped = false := by
    by_contra hstopped
    have := hok.all (by simpa using hstopped)
    omega
  refine h.setBlock_send (m := .part (block.value.drop block.sentBytes)) hi ?_
    (h.sentMessageStart hi hstart) ?_ ?_ ?_
  · exact ⟨hok.index, Nat.le_refl _, by simp [hstart], fun _ => rfl⟩
  · exact ⟨rfl, rfl⟩
  · simp [blockView, hok.index]
  intro marks htraces
  simp only [ClaudeStreamBlock.held, hstart, hopen, if_true] at htraces ⊢
  have := htraces.part (block.value.drop block.sentBytes)
  rw [List.take_append_drop] at this
  rwa [List.take_length]

theorem going_closeBlock (h : s.Going) (hopen : s.isStopped i = false)
    (hall : ∀ block, s.blocks[i]? = some block → block.started = true →
      block.sentBytes = block.value.length) : (s.closeBlock i).Going := by
  unfold closeBlock
  split
  · exact h
  rename_i block hi
  split
  · exact h
  rename_i hstarted
  have hok := h.ok i block hi
  have hstart : block.started = true := by simpa using hstarted
  have hopen' : block.stopped = false := by simpa [isStopped, hi] using hopen
  have hsent := hall block hi hstart
  refine h.setBlock_send (m := .closed) hi ?_ (h.sentMessageStart hi hstart) ?_ ?_ ?_
  · exact ⟨hok.index, hok.cursor, by simp [hstart], fun _ => hsent⟩
  · exact ⟨rfl, rfl⟩
  · simp [blockView, hok.index]
  intro marks htraces
  simp only [ClaudeStreamBlock.held, hstart, hopen', if_true] at htraces ⊢
  exact htraces.close

theorem going_flushBlock (h : s.Going) (i : Nat) : (s.flushBlock i).Going := by
  unfold flushBlock
  split
  · exact h
  · exact going_sendRest (going_startBlock h i) i

/-! ### Stopping a block -/

/-- A block that has sent all it could: all of its value once it has started, and it
    has started if there was anything to start it with. -/
def Flushed (s : ResponsesToClaudeStreamState) (i : Nat) : Prop :=
  ∀ block, s.blocks[i]? = some block → block.stopped = false ∧
    (block.started = true → block.sentBytes = block.value.length) ∧
    (block.started = false → block.content = none)

/-- Nothing but block `i` is changed. -/
structure Only (i : Nat) (s s' : ResponsesToClaudeStreamState) : Prop where
  length : s'.blocks.length = s.blocks.length
  others : ∀ j, j ≠ i → s'.blocks[j]? = s.blocks[j]?

theorem Only.refl (i : Nat) (s : ResponsesToClaudeStreamState) : Only i s s :=
  ⟨rfl, fun _ _ => rfl⟩

theorem Only.trans {s'' : ResponsesToClaudeStreamState} (h : Only i s s') (h' : Only i s' s'') :
    Only i s s'' :=
  ⟨h'.length.trans h.length, fun j hj => (h'.others j hj).trans (h.others j hj)⟩

theorem only_of_set (h : s'.blocks = s.blocks.set i block) : Only i s s' := by
  refine ⟨?_, fun j hj => ?_⟩
  · rw [h, List.length_set]
  · rw [h, List.getElem?_set_ne (Ne.symm hj)]

theorem getElem?_of_set (hi : s.blocks[i]? = some block) (h : s'.blocks = s.blocks.set i block') :
    s'.blocks[i]? = some block' := by
  have hlt : i < s.blocks.length := (List.getElem?_eq_some_iff.1 hi).1
  rw [h, List.getElem?_set_self hlt]

variable (s)

theorem startBlock_blocks (i : Nat) : (s.startBlock i = s ∧ ∀ block, s.blocks[i]? = some block →
        block.started = true ∨ block.stopped = true ∨ block.content = none) ∨
      ∃ block, s.blocks[i]? = some block ∧ block.stopped = false ∧
        (s.startBlock i).blocks = s.blocks.set i { block with started := true } := by
  unfold startBlock
  split
  · rename_i hi
    refine .inl ⟨rfl, fun block hb => ?_⟩
    rw [hi] at hb
    cases hb
  rename_i block hi
  split
  · rename_i hidle
    refine .inl ⟨rfl, fun b hb => ?_⟩
    cases hi.symm.trans hb
    exact hidle.imp_right .inl
  rename_i hidle
  split
  · rename_i hnone
    refine .inl ⟨rfl, fun b hb => ?_⟩
    cases hi.symm.trans hb
    exact .inr (.inr hnone)
  · refine .inr ⟨block, hi, by simpa using (not_or.1 hidle).2, ?_⟩
    exact ensureMessageStart_blocks _

theorem only_startBlock (i : Nat) : Only i s (s.startBlock i) := by
  obtain ⟨hsame, -⟩ | ⟨block, -, -, hset⟩ := startBlock_blocks s i
  · rw [hsame]
    exact .refl i s
  · exact only_of_set hset

theorem sendRest_blocks (i : Nat) : (s.sendRest i = s ∧ ∀ block, s.blocks[i]? = some block →
        block.started = false ∨ block.value.length ≤ block.sentBytes) ∨
      ∃ block, s.blocks[i]? = some block ∧ block.started = true ∧
        (s.sendRest i).blocks = s.blocks.set i { block with sentBytes := block.value.length } := by
  unfold sendRest
  split
  · rename_i hi
    refine .inl ⟨rfl, fun block hb => ?_⟩
    rw [hi] at hb
    cases hb
  rename_i block hi
  split
  · rename_i hrest
    refine .inl ⟨rfl, fun b hb => ?_⟩
    cases hi.symm.trans hb
    simpa using hrest
  · rename_i hrest
    exact .inr ⟨block, hi, by simpa using (not_or.1 hrest).1, rfl⟩

theorem only_sendRest (i : Nat) : Only i s (s.sendRest i) := by
  obtain ⟨hsame, -⟩ | ⟨block, -, -, hset⟩ := sendRest_blocks s i
  · rw [hsame]
    exact .refl i s
  · exact only_of_set hset

theorem only_closeBlock (i : Nat) : Only i s (s.closeBlock i) := by
  unfold closeBlock
  split
  · exact .refl i s
  split
  · exact .refl i s
  · exact only_of_set rfl

variable {s}

theorem flushed_flushBlock (h : s.Going) (hopen : s.isStopped i = false) :
    (s.flushBlock i).Flushed i := by
  have hgoing := going_startBlock h i
  -- after the start the block is not stopped, and it has started if it has a content
  have hstart : ∀ block, (s.startBlock i).blocks[i]? = some block → block.stopped = false ∧
      (block.started = false → block.content = none) := by
    intro block hi
    obtain ⟨hsame, hnone⟩ | ⟨b, hb, hstopped, hset⟩ := startBlock_blocks s i
    · rw [hsame] at hi
      have hstopped : block.stopped = false := by simpa [isStopped, hi] using hopen
      refine ⟨hstopped, fun hidle => ?_⟩
      rcases hnone block hi with hst | hst | hst
      · rw [hidle] at hst
        cases hst
      · rw [hstopped] at hst
        cases hst
      · exact hst
    · cases (getElem?_of_set hb hset).symm.trans hi
      exact ⟨hstopped, fun h => by cases h⟩
  unfold flushBlock
  rw [if_neg (by simp [hopen])]
  intro block hi
  obtain ⟨hsame, hrest⟩ | ⟨b, hb, hst, hset⟩ := sendRest_blocks (s.startBlock i) i
  · rw [hsame] at hi
    obtain ⟨hstopped, hcontent⟩ := hstart block hi
    refine ⟨hstopped, fun hst => ?_, hcontent⟩
    rcases hrest block hi with hidle | hle
    · rw [hst] at hidle
      cases hidle
    · exact Nat.le_antisymm (hgoing.ok i block hi).cursor hle
  cases (getElem?_of_set hb hset).symm.trans hi
  refine ⟨(hstart b hb).1, fun _ => rfl, fun hidle => ?_⟩
  have hidle' : b.started = false := hidle
  rw [hst] at hidle'
  cases hidle'

theorem startBlock_of_flushed (h : s.Flushed i) : s.startBlock i = s := by
  unfold startBlock
  split
  · rfl
  rename_i block hi
  obtain ⟨-, -, hcontent⟩ := h block hi
  split
  · rfl
  · rename_i hidle
    rw [hcontent (by simpa using (not_or.1 hidle).1)]

def StoppedAt (s : ResponsesToClaudeStreamState) (i : Nat) : Prop :=
  ∀ block, s.blocks[i]? = some block → block.started = true → block.stopped = true

theorem stopBlock_spec (h : s.Going) (i : Nat) :
    (s.stopBlock i).Going ∧ Only i s (s.stopBlock i) ∧ (s.stopBlock i).StoppedAt i := by
  unfold stopBlock
  split
  · rename_i hstopped
    refine ⟨h, .refl i s, fun block hi _ => ?_⟩
    simpa [isStopped, hi] using hstopped
  rename_i hopen
  have hflushed := flushed_flushBlock h (i := i) (by simpa using hopen)
  have honly : Only i s (s.flushBlock i) := by
    unfold flushBlock
    rw [if_neg hopen]
    exact (only_startBlock s i).trans (only_sendRest _ i)
  rw [startBlock_of_flushed hflushed]
  refine ⟨?_, honly.trans (only_closeBlock _ i), ?_⟩
  · refine going_closeBlock (going_flushBlock h i) ?_ fun block hi => (hflushed block hi).2.1
    cases hi : (s.flushBlock i).blocks[i]? with
    | none => simp [isStopped, hi]
    | some block => simpa [isStopped, hi] using (hflushed block hi).1
  intro block hi hst
  unfold closeBlock at hi
  split at hi
  · rename_i hnone
    rw [hnone] at hi
    cases hi
  rename_i b hb
  split at hi
  · rename_i hidle
    cases hb.symm.trans hi
    exact absurd hst (by simpa using hidle)
  let b' := { b with stopped := true }
  have hset : (((s.flushBlock i).setBlock i b').send (.contentBlockStop b.index)).blocks[i]? =
      some b' := getElem?_of_set hb rfl
  rw [← Option.some.inj (hset.symm.trans hi)]

theorem stopBlocks_spec (h : s.Going) (indexes : List Nat) : (indexes.foldl stopBlock s).Going ∧
      (indexes.foldl stopBlock s).blocks.length = s.blocks.length ∧
      ∀ i, i ∈ indexes ∨ s.StoppedAt i → (indexes.foldl stopBlock s).StoppedAt i := by
  induction indexes generalizing s with
  | nil => exact ⟨h, rfl, fun i hi => hi.resolve_left List.not_mem_nil⟩
  | cons k indexes ih =>
    obtain ⟨hgoing, honly, hstopped⟩ := stopBlock_spec h k
    obtain ⟨hgoing', hlength, hall⟩ := ih hgoing
    refine ⟨hgoing', hlength.trans honly.length, fun i hi => hall i ?_⟩
    by_cases hik : i = k
    · subst hik
      exact .inr hstopped
    rcases hi with hi | hi
    · exact .inl ((List.mem_cons.1 hi).resolve_left hik)
    refine .inr fun block hb => hi block ?_
    rw [← honly.others i hik]
    exact hb

def values (s : ResponsesToClaudeStreamState) (i : Nat) : Option Bytes :=
  s.blocks[i]?.bind fun block => if block.started then some block.value else none

theorem wellFormed_endMessage (h : s.Going) (response : Option ResponsesResponse) :
    WellFormedClaude (s.endMessage response).sent (s.endMessage response).values := by
  obtain ⟨hgoing, hlength, hstopped⟩ := stopBlocks_spec h (List.range s.blocks.length)
  let t := ((List.range s.blocks.length).foldl stopBlock s).ensureMessageStart
  have hblocks : t.blocks = ((List.range s.blocks.length).foldl stopBlock s).blocks :=
    ensureMessageStart_blocks _
  have ht : t.Going := going_ensureMessageStart hgoing
  obtain ⟨first, rest, hsent, hfirst, hfirst', hrest⟩ := ht.log.begun (ensureMessageStart_sent _)
  have htable : ∀ i, t.table i = (t.values i).map fun value => ⟨value, true⟩ := by
    intro i
    cases hi : t.blocks[i]? with
    | none => simp [table, values, hi]
    | some block =>
      by_cases hst : block.started = true
      · have hlt : i < t.blocks.length := (List.getElem?_eq_some_iff.1 hi).1
        rw [hblocks, hlength] at hlt
        have hclosed : block.stopped = true := by
          refine hstopped i (.inl (List.mem_range.2 hlt)) block ?_ hst
          rw [← hblocks]
          exact hi
        have hall := (ht.ok i block hi).all hclosed
        simp [table, values, hi, ClaudeStreamBlock.held, hst, hclosed, hall]
      · simp [table, values, hi, ClaudeStreamBlock.held, hst]
  have htracks : Tracks blockView t.sent fun i => (t.values i).map fun value => ⟨value, true⟩ := by
    have hfun : t.table = fun i => (t.values i).map fun value => ⟨value, true⟩ := funext htable
    rw [← hfun]
    exact ht.tracks
  let stopReason := responsesClaudeStopReason response t.sawToolCall
  have hlog : (s.endMessage response).sent = t.sent ++ [.messageDelta stopReason] ++ [.messageStop] :=
    rfl
  rw [hlog]
  refine ⟨⟨first, rest ++ [.messageDelta stopReason] ++ [.messageStop], ?_, hfirst, ?_⟩, ?_,
    t.sent, stopReason, ?_, ?_⟩
  · rw [hsent, List.cons_append, List.cons_append]
  · intro e he
    rcases List.mem_append.1 he with he | he
    · rcases List.mem_append.1 he with he | he
      · exact (hrest e he).1
      · rw [List.mem_singleton.1 he]
        rfl
    · rw [List.mem_singleton.1 he]
      rfl
  · exact (htracks.skip rfl).skip rfl
  · rw [List.append_assoc]
    rfl
  intro e he
  rw [hsent] at he
  rcases List.mem_cons.1 he with rfl | he
  · exact hfirst'
  · exact (hrest e he).2

/-! ### Values -/

section
variable (h : s.Going)
include h

theorem going_extendValue (hopen : s.isStopped i = false) (more : Bytes) :
    (s.extendValue i more).Going := by
  unfold extendValue
  split
  · exact h
  rename_i block hi
  have hok := h.ok i block hi
  have hstopped : block.stopped = false := by simpa [isStopped, hi] using hopen
  refine h.setBlock hi ⟨hok.index, ?_, hok.idle, by simp [hstopped]⟩ ?_
  · have := hok.cursor
    simp only [List.length_append]
    omega
  · simp only [ClaudeStreamBlock.held]
    rw [List.take_append_of_le_length hok.cursor]

theorem going_appendDelta (i : Nat) (delta : Bytes) : (s.appendDelta i delta).Going := by
  unfold appendDelta
  split
  · exact h
  · rename_i hopen
    exact going_flushBlock (going_extendValue h (by simpa using (not_or.1 hopen).1) delta) i

theorem going_mergeFinalValue (i : Nat) (finalValue : Bytes) :
    (s.mergeFinalValue i finalValue).Going := by
  unfold mergeFinalValue
  split
  · exact h
  · rename_i hopen
    exact going_flushBlock (going_extendValue h (by simpa using hopen) _) i

theorem going_mergeOptional (i : Nat) (finalValue : Option Bytes) :
    (s.mergeOptional i finalValue).Going := by
  cases finalValue with
  | none => exact h
  | some value => exact going_mergeFinalValue h i value

theorem going_appendReasoningDelta (i : Nat) (delta : Bytes) :
    (s.appendReasoningDelta i delta).Going := by
  unfold appendReasoningDelta
  split
  · exact h
  rename_i block hi
  split
  · have hok := h.ok i block hi
    refine going_appendDelta (h.setBlock hi ?_ ?_) i _
    · exact ⟨hok.index, hok.cursor, hok.idle, hok.all⟩
    · rfl
  · exact going_appendDelta h i delta

theorem going_endReasoningPart (i : Nat) : (s.endReasoningPart i).Going := by
  unfold endReasoningPart
  split
  · exact h
  rename_i block hi
  split
  · exact h
  · have hok := h.ok i block hi
    exact h.setBlock hi ⟨hok.index, hok.cursor, hok.idle, hok.all⟩ rfl

theorem going_citation (hi : s.blocks[i]? = some block) (hstart : block.started = true)
    (hopen : block.stopped = false) (citation : Citation) :
    (s.send (.contentBlockDelta block.index (.citations citation))).Going := by
  have hok := h.ok i block hi
  refine ⟨h.ok, h.next, ?_, h.log.send (h.sentMessageStart hi hstart) ⟨rfl, rfl⟩, h.live⟩
  have hheld : s.table i = some ⟨block.value.take block.sentBytes, false⟩ := by
    simp [table, hi, ClaudeStreamBlock.held, hstart, hopen]
  refine h.tracks.adding (i := i) (p := []) ?_ hheld ?_ fun _ _ => rfl
  · simp [blockView, BlockDelta.value, hok.index]
  · rw [List.append_nil]
    exact hheld

end

theorem going_citations (hi : s.blocks[i]? = some block) (hstart : block.started = true)
    (hopen : block.stopped = false) (citations : List Citation) (h : s.Going) :
    (citations.foldl (fun s citation =>
      s.send (.contentBlockDelta block.index (.citations citation))) s).Going := by
  induction citations generalizing s with
  | nil => exact h
  | cons citation citations ih => exact ih hi (going_citation h hi hstart hopen citation)

theorem startBlock_text (hi : s.blocks[i]? = some block) (hkind : block.kind = .text)
    (hopen : block.stopped = false) :
    ∃ b, (s.startBlock i).blocks[i]? = some b ∧ b.started = true ∧ b.stopped = false ∧
      b.index = block.index := by
  obtain ⟨hsame, hnone⟩ | ⟨b, hb, -, hset⟩ := startBlock_blocks s i
  · rw [hsame]
    rcases hnone block hi with hst | hst | hst
    · exact ⟨block, hi, hst, hopen, rfl⟩
    · rw [hopen] at hst
      cases hst
    · simp [ClaudeStreamBlock.content, hkind] at hst
  · cases hi.symm.trans hb
    exact ⟨_, getElem?_of_set hb hset, rfl, hopen, rfl⟩

theorem going_appendAnnotations (h : s.Going) (i : Nat) (annotations : List (Option Annotation))
    (snapshot : Bool) : (s.appendAnnotations i annotations snapshot).Going := by
  unfold appendAnnotations
  split
  · exact h
  rename_i block hi
  split
  · exact h
  rename_i htext
  obtain ⟨hkind, hstopped⟩ := not_or.1 htext
  split
  · exact h
  rename_i remaining count _
  have hok := h.ok i block hi
  let counted := { block with annotationCount := count }
  have hcounted : counted.Ok i := ⟨hok.index, hok.cursor, hok.idle, hok.all⟩
  have ht : (s.setBlock i counted).Going := h.setBlock hi hcounted rfl
  have hi' : (s.setBlock i counted).blocks[i]? = some counted := getElem?_of_set hi rfl
  dsimp only
  split
  · exact ht
  obtain ⟨b, hb, hst, hopen, hindex⟩ :=
    startBlock_text hi' (by simpa using hkind) (by simpa using hstopped)
  have hcitations := going_citations hb hst hopen
    (responsesAnnotationsToClaude remaining block.value) (going_startBlock ht i)
  rwa [hindex] at hcitations

/-! ### Events -/

section
variable (h : s.Going)
include h

theorem going_applyResponseMetadata (response : Option ResponsesResponse) :
    (s.applyResponseMetadata response).Going := by
  unfold applyResponseMetadata
  split
  · exact h
  · exact ⟨h.ok, h.next, h.tracks, ⟨h.log.fresh, h.log.begun⟩, h.live⟩

theorem going_addBlock (kind : BlockKind) : (s.addBlock kind).Going := by
  have htable : (s.addBlock kind).table = s.table := by
    funext j
    unfold table addBlock
    rcases Nat.lt_trichotomy j s.blocks.length with hlt | rfl | hgt
    · rw [List.getElem?_append_left hlt]
    · simp [ClaudeStreamBlock.held]
    · rw [List.getElem?_eq_none (by simp; omega), List.getElem?_eq_none (by omega)]
  refine ⟨fun j b hb => ?_, ?_, ?_, ⟨h.log.fresh, h.log.begun⟩, h.live⟩
  · have hb' : (s.blocks ++ [_])[j]? = some b := hb
    rcases Nat.lt_trichotomy j s.blocks.length with hlt | rfl | hgt
    · rw [List.getElem?_append_left hlt] at hb'
      exact h.ok j b hb'
    · rw [List.getElem?_append_right (Nat.le_refl _)] at hb'
      simp only [Nat.sub_self, List.getElem?_cons_zero, Option.some.injEq] at hb'
      subst hb'
      exact ⟨h.next, Nat.le_refl _, fun _ => ⟨rfl, rfl⟩, fun h => by cases h⟩
    · rw [List.getElem?_eq_none (by simp; omega)] at hb'
      cases hb'
  · simp [addBlock, h.next]
  · rw [htable]
    exact h.tracks

omit h in
theorem withMetadata_same (block : ClaudeStreamBlock) (event : StreamEvent) :
    (block.withMetadata event).index = block.index ∧
      (block.withMetadata event).started = block.started ∧
      (block.withMetadata event).stopped = block.stopped ∧
      (block.withMetadata event).value = block.value ∧
      (block.withMetadata event).sentBytes = block.sentBytes := by
  unfold ClaudeStreamBlock.withMetadata
  dsimp only
  split
  · split <;> exact ⟨rfl, rfl, rfl, rfl, rfl⟩
  · split_ifs <;> exact ⟨rfl, rfl, rfl, rfl, rfl⟩

theorem going_applyBlockMetadata (hi : s.blocks[i]? = some block) (event : StreamEvent) : (s.applyBlockMetadata i block event).Going := by
  obtain ⟨hindex, hstarted, hstopped, hvalue, hsent⟩ := withMetadata_same block event
  have hok := h.ok i block hi
  have ht : (s.setBlock i (block.withMetadata event)).Going := by
    refine h.setBlock hi ⟨?_, ?_, ?_, ?_⟩ ?_
    · rw [hindex, hok.index]
    · rw [hsent, hvalue]
      exact hok.cursor
    · rw [hstarted, hsent, hstopped]
      exact hok.idle
    · rw [hstopped, hsent, hvalue]
      exact hok.all
    · simp only [ClaudeStreamBlock.held, hstarted, hstopped, hvalue, hsent]
  exact ⟨ht.ok, ht.next, ht.tracks, ⟨ht.log.fresh, ht.log.begun⟩, ht.live⟩

theorem going_ensureBlock {event : StreamEvent} {kind : BlockKind}
    {ensured : Nat × ResponsesToClaudeStreamState} (hs' : s.ensureBlock event kind = .ok ensured) : ensured.2.Going := by
  have hchosen : (s.chooseBlock event kind).2.Going := by
    unfold chooseBlock
    split
    · exact h
    · exact going_addBlock h kind
  unfold ensureBlock at hs'
  dsimp only at hs'
  split at hs'
  · rename_i block hi
    split at hs' <;> cases hs'
    exact going_applyBlockMetadata hchosen hi event
  · cases hs'
    exact hchosen

theorem going_applyItemValue (i : Nat) (kind : BlockKind) (item : ResponsesOutput) :
    (s.applyItemValue i kind item).Going := by
  cases kind with
  | text => exact going_appendAnnotations (going_mergeFinalValue h i _) i _ true
  | thinking | toolUse => exact going_mergeFinalValue h i _

theorem going_applyOutputItem {event : StreamEvent} {stop : Bool}
    (hs' : s.applyOutputItem event stop = .ok s') : s'.Going := by
  unfold applyOutputItem at hs'
  split at hs'
  · cases hs'
    exact h
  split at hs'
  · cases hs'
    exact h
  obtain ⟨ensured, hensure, hs'⟩ := bind_eq_ok.1 hs'
  cases hs'
  have hvalue := going_applyItemValue (going_ensureBlock h hensure) ensured.1
  split
  · exact (stopBlock_spec (hvalue _ _) _).1
  · exact hvalue _ _

end

def Fine (s : ResponsesToClaudeStreamState) : Prop :=
  if s.done then WellFormedClaude s.sent s.values else s.Going

theorem Going.fine (h : s.Going) : s.Fine := by
  unfold Fine
  rw [if_neg (by simp [h.live])]
  exact h

theorem fine_finish {response : Option ResponsesResponse} (h : s.Going)
    (hs' : s.finish response = .ok s') : s'.Fine := by
  unfold finish at hs'
  rw [if_neg (by simp [h.live])] at hs'
  obtain ⟨t, ht, hs'⟩ := bind_eq_ok.1 hs'
  cases hs'
  rw [foldlM_eq_tryRun] at ht
  have hgoing : t.Going := tryRun_invariant_all Going
    (fun _ _ _ hg hstep => going_applyOutputItem hg hstep)
    (going_applyResponseMetadata h response) ht
  exact wellFormed_endMessage hgoing response

theorem fine_ensured {event : StreamEvent} {kind : BlockKind}
    {f : Nat × ResponsesToClaudeStreamState → ResponsesToClaudeStreamState} (h : s.Going)
    (hf : ∀ ensured, ensured.2.Going → (f ensured).Going)
    (hs' : ((s.ensureBlock event kind).bind fun ensured => .ok (f ensured)) = .ok s') : s'.Fine := by
  obtain ⟨ensured, hensure, hs'⟩ := bind_eq_ok.1 hs'
  cases hs'
  exact (hf ensured (going_ensureBlock h hensure)).fine

theorem fine_convertEvent {event : StreamEvent} (h : s.Going)
    (hs' : s.convertEvent event = .ok s') : s'.Fine := by
  unfold convertEvent at hs'
  split at hs'
  · cases hs'
    exact (going_ensureMessageStart h).fine
  · exact fine_ensured h (fun _ hg => going_appendReasoningDelta hg _ _) hs'
  · exact fine_ensured h (fun _ hg => going_appendReasoningDelta hg _ _) hs'
  · exact fine_ensured h (fun _ hg => going_endReasoningPart (going_mergeOptional hg _ _) _) hs'
  · exact fine_ensured h (fun _ hg => going_endReasoningPart (going_mergeOptional hg _ _) _) hs'
  · exact fine_ensured h (fun _ hg => going_appendDelta hg _ _) hs'
  · exact fine_ensured h (fun _ hg => going_mergeOptional hg _ _) hs'
  · obtain ⟨ensured, hensure, hs'⟩ := bind_eq_ok.1 hs'
    split at hs' <;> cases hs'
    exact (going_appendAnnotations (going_ensureBlock h hensure) _ _ _).fine
  · exact (going_applyOutputItem h hs').fine
  · exact (going_applyOutputItem h hs').fine
  · exact fine_ensured h (fun _ hg => going_appendDelta hg _ _) hs'
  · exact fine_ensured h (fun _ hg => going_appendDelta hg _ _) hs'
  · exact fine_ensured h (fun _ hg => going_mergeOptional hg _ _) hs'
  · exact fine_ensured h (fun _ hg => going_mergeOptional hg _ _) hs'
  · exact fine_finish h hs'
  · exact fine_finish h hs'
  · exact fine_finish h hs'
  · cases hs'
  · cases hs'
  · cases hs'
    exact h.fine

theorem fine_convertChunk {event : StreamEvent} (h : s.Fine) (hs' : s.convertChunk event = .ok s') :
    s'.Fine := by
  unfold convertChunk at hs'
  by_cases hdone : s.done = true
  · rw [if_pos hdone] at hs'
    cases hs'
    exact h
  rw [if_neg hdone] at hs'
  unfold Fine at h
  rw [if_neg hdone] at h
  exact fine_convertEvent (going_applyResponseMetadata h event.response) hs'

end ResponsesToClaudeStreamState

/-- **Responses to Claude.**  Whatever Responses events come, in whatever order, and
    however they name their items: unless one of them is an error, the Claude events
    form a well-formed stream, in which each started block has sent exactly the value
    accumulated for it. -/
theorem responsesToClaude_wellFormed (id model : String) (events : List StreamEvent)
    {s : ResponsesToClaudeStreamState} (hrun : tryRun ResponsesToClaudeStreamState.convertChunk
      (newResponsesToClaudeStreamState id model) events = .ok s) :
    WellFormedClaude s.finalize.sent s.finalize.values := by
  have hfine : s.Fine := tryRun_invariant_all ResponsesToClaudeStreamState.Fine
    (fun _ _ _ h hstep => ResponsesToClaudeStreamState.fine_convertChunk h hstep)
    (ResponsesToClaudeStreamState.going_new id model).fine hrun
  unfold ResponsesToClaudeStreamState.finalize
  unfold ResponsesToClaudeStreamState.Fine at hfine
  split
  · rename_i hdone
    rwa [if_pos hdone] at hfine
  rename_i hdone
  rw [if_neg hdone] at hfine
  exact ResponsesToClaudeStreamState.wellFormed_endMessage hfine none

/-- Reasoning and text of items without an index, the arguments of a tool before its
    name, and the end of the response. -/
def unorderedEvents : List StreamEvent :=
  [{ type := .reasoningTextDelta, delta := [97] },
   { type := .functionArgsDelta, outputIndex := some 4, delta := [98] },
   { type := .outputTextDelta, delta := [99] },
   { type := .outputItemDone, outputIndex := some 4
     item := some { type := .functionCall, id := "i", name := "f", arguments := [98, 98] } },
   { type := .completed }]

theorem responsesToClaude_wellFormed_unordered : ∃ s,
    tryRun ResponsesToClaudeStreamState.convertChunk (newResponsesToClaudeStreamState "r" "m")
        unorderedEvents = .ok s ∧
      WellFormedClaude s.finalize.sent s.finalize.values := by
  obtain ⟨s, hs, -⟩ := exists_of_map_eq_ok
    (x := tryRun ResponsesToClaudeStreamState.convertChunk (newResponsesToClaudeStreamState "r" "m")
      unorderedEvents)
    (f := ResponsesToClaudeStreamState.done) (c := true) (by decide +kernel)
  exact ⟨s, hs, responsesToClaude_wellFormed "r" "m" _ hs⟩

end NewApi.Convert
