/-
  NewApi.Convert.ClaudeToChatAgree

  The stream of a Claude message against the whole message: both are converted to
  the same text and the same tool calls, in any split into deltas.  The reasoning
  is the same when one thinking block has it all: the whole message is read to its
  last thinking block only.
-/

import NewApi.Convert.ClaudeToChat
import Mathlib.Data.List.Indexes
import Mathlib.Data.List.Range

namespace NewApi.ClaudeSource

open List (flatMap_append foldl_cons length_append length_singleton map_cons)
open NewApi.Lib
open NewApi.Convert (Bytes ChatChunk ChatChoice ChatDelta ChatReply ToolCall readChat readChat_append
  addToolCall addToolCall_new addToolCall_known)

/-! ## Messages and their streams -/

/-- A content block.  A thinking block may end with deltas for its signature. -/
inductive Block where
  | text (value : Bytes)
  | thinking (value : Bytes) (signatures : Nat)
  | toolUse (id name : String) (input : Bytes)

def Block.value : Block → Bytes
  | text value | thinking value _ | toolUse _ _ value => value

/-- A block with the pieces that its value is streamed in. -/
structure StreamedBlock where
  block : Block
  pieces : List Bytes
  joined : pieces.flatten = block.value

def Block.media : Block → ClaudeMediaMessage
  | text value => { type := "text", text := some value }
  | thinking value _ => { type := "thinking", thinking := some value }
  | toolUse id name input => { type := "tool_use", id, name, input }

/-- The block of its `content_block_start`. -/
def Block.opening : Block → ClaudeMediaMessage
  | text _ => { type := "text", text := some [] }
  | thinking _ _ => { type := "thinking", thinking := some [] }
  | toolUse id name _ => { type := "tool_use", id, name }

/-- The delta of one piece. -/
def Block.piece : Block → Bytes → ClaudeMediaMessage
  | text _, p => { type := "text_delta", text := some p }
  | thinking _ _, p => { type := "thinking_delta", thinking := some p }
  | toolUse _ _ _, p => { type := "input_json_delta", partialJson := some p }

/-- The number of `signature_delta` events. -/
def Block.signatures : Block → Nat
  | thinking _ n => n
  | _ => 0

def startEvent (index : Nat) (block : ClaudeMediaMessage) : ClaudeResponse :=
  { type := "content_block_start", index := some index, contentBlock := some block }

def deltaEvent (index : Nat) (delta : ClaudeMediaMessage) : ClaudeResponse :=
  { type := "content_block_delta", index := some index, delta := some delta }

def signatureDelta : ClaudeMediaMessage := { type := "signature_delta" }

def stopEvent (index : Nat) : ClaudeResponse := { type := "content_block_stop", index := some index }

/-- The events of the block at `index`. -/
def StreamedBlock.events (b : StreamedBlock) (index : Nat) : List ClaudeResponse :=
  startEvent index b.block.opening ::
    (b.pieces.map (fun p => deltaEvent index (b.block.piece p)) ++
      (List.replicate b.block.signatures (deltaEvent index signatureDelta) ++ [stopEvent index]))

/-- The events of blocks from `index` on. -/
def blockEvents (index : Nat) : List StreamedBlock → List ClaudeResponse
  | [] => []
  | b :: bs => b.events index ++ blockEvents (index + 1) bs

/-- A Claude message, with the pieces that it is streamed in. -/
structure SourceMessage where
  id : String
  model : String
  stopReason : String
  blocks : List StreamedBlock

/-- The message as a stream. -/
def SourceMessage.events (m : SourceMessage) : List ClaudeResponse :=
  { type := "message_start", message := some { id := m.id, model := m.model } } ::
    (blockEvents 0 m.blocks ++
      [{ type := "message_delta", delta := some { stopReason := some m.stopReason } },
        { type := "message_stop" }])

def SourceMessage.whole (m : SourceMessage) : ClaudeResponse :=
  { type := "message", id := m.id, model := m.model, stopReason := m.stopReason
    content := m.blocks.map fun b => b.block.media }

/-! ## Following the blocks -/

variable (bs : List Block)

def gathered : Gathered := (bs.map Block.media).foldl gather {}

variable (tools : List ToolCall)

def numbered : List ToolCall :=
  tools.mapIdx fun i call => { call with index := some (i : Int) }

def Block.reasoning : Block → Bytes
  | thinking value n => value ++ List.replicate n 10
  | _ => []

/-- The stream so far stands where the blocks `bs` are read. -/
structure Follows (bs : List Block) (st : ClaudeToChatStreamState × List ChatChunk) : Prop where
  fresh : ∀ i : Int, bs.length ≤ i → st.1.toolIndexByContentBlock i = none
  next : st.1.nextToolIndex = (gathered bs).tools.length
  text : (readChat st.2).text = (gathered bs).responseText
  toolCalls : (readChat st.2).toolCalls = numbered (gathered bs).tools
  reasoning : (readChat st.2).reasoning = bs.flatMap Block.reasoning

theorem gathered_concat (b : Block) : gathered (bs ++ [b]) = gather (gathered bs) b.media := by
  simp [gathered, List.foldl_append]

theorem numbered_concat (call : ToolCall) :
    numbered (tools ++ [call]) = numbered tools ++ [{ call with index := some (tools.length : Int) }] := by
  simp [numbered, List.mapIdx_append]

theorem chatIndex_numbered :
    (numbered tools).map ToolCall.chatIndex = (List.range tools.length).map Int.ofNat := by
  apply List.ext_getElem
  · simp [numbered]
  · intro i hi hi'
    simp [numbered, ToolCall.chatIndex]

theorem chatIndex_lt {tools : List ToolCall} {call : ToolCall} (h : call ∈ numbered tools) :
    call.chatIndex < tools.length := by
  have hmem := List.mem_map_of_mem (f := ToolCall.chatIndex) h
  rw [chatIndex_numbered] at hmem
  obtain ⟨i, hi, heq⟩ := List.mem_map.1 hmem
  have hlt := List.mem_range.1 hi
  rw [← heq]
  exact Int.ofNat_lt.2 hlt

theorem nodup_chatIndex : ((numbered tools).map ToolCall.chatIndex).Nodup := by
  rw [chatIndex_numbered]
  exact List.Nodup.map (fun _ _ h => Int.ofNat.inj h) List.nodup_range

theorem readChat_concat (sent : List ChatChunk) {chunk : ChatChunk} {choice : ChatChoice}
    (h : chunk.choices = [choice]) : readChat (sent ++ [chunk]) = (readChat sent).add choice := by
  rw [readChat_append]
  simp [h]

theorem tryRun_pieces {s : ClaudeToChatStreamState} {event : Bytes → ClaudeResponse}
    {choice : Bytes → ChatChoice}
    (h : ∀ p, ∃ chunk, convertChunk s (event p) = .ok (s, some chunk) ∧ chunk.choices = [choice p])
    (ps : List Bytes) (sent : List ChatChunk) :
    ∃ sent', tryRun convertStep (s, sent) (ps.map event) = .ok (s, sent') ∧
      readChat sent' = (ps.map choice).foldl ChatReply.add (readChat sent) := by
  induction ps generalizing sent with
  | nil => exact ⟨sent, rfl, rfl⟩
  | cons p ps ih =>
    obtain ⟨chunk, hchunk, hchoice⟩ := h p
    obtain ⟨sent', hrun, hread⟩ := ih (sent ++ [chunk])
    refine ⟨sent', ?_, ?_⟩
    · rw [map_cons, tryRun_cons_eq_ok]
      refine ⟨(s, sent ++ [chunk]), ?_, hrun⟩
      simp [convertStep, hchunk, bind, Except.bind]
    · rw [hread, readChat_concat sent hchoice]
      rfl

/-! ## One block -/

/-- The choice of a piece, once its tool has the index `tool`. -/
def pieceChoice (b : Block) (tool : Nat) (p : Bytes) : ChatChoice :=
  { delta := blockDelta tool (b.piece p) }

theorem convertChunk_delta (s : ClaudeToChatStreamState) (k : Nat) (delta : ClaudeMediaMessage) :
    convertChunk s (deltaEvent k delta) =
      if delta.type = "input_json_delta" then convertInputDelta s (deltaEvent k delta) delta
      else .ok (s, streamResponseClaude2OpenAI (deltaEvent k delta)) := rfl

theorem convertChunk_piece (b : Block) {s : ClaudeToChatStreamState} {k tool : Nat}
    (htool : (∃ id name input, b = .toolUse id name input) → s.toolIndexByContentBlock k = some tool)
    (p : Bytes) : ∃ chunk, convertChunk s (deltaEvent k (b.piece p)) = .ok (s, some chunk) ∧
      chunk.choices = [pieceChoice b tool p] := by
  cases b with
  | text value | thinking value n => exact ⟨_, rfl, rfl⟩
  | toolUse id name input =>
    have hindex := htool ⟨id, name, input, rfl⟩
    refine ⟨{ choices := [pieceChoice (.toolUse id name input) tool p] }, ?_, rfl⟩
    have htype : ((Block.toolUse id name input).piece p).type = "input_json_delta" := rfl
    rw [convertChunk_delta, if_pos htype]
    unfold convertInputDelta
    simp only [deltaEvent, Block.piece, hindex]
    rfl

theorem convertChunk_signature (s : ClaudeToChatStreamState) (k : Nat) :
    ∃ chunk, convertChunk s (deltaEvent k signatureDelta) = .ok (s, some chunk) ∧
      chunk.choices = [{ delta := { reasoningContent := some [10] } }] :=
  ⟨_, rfl, rfl⟩

theorem foldl_text_pieces (value : Bytes) (tool : Nat) (ps : List Bytes) (r : ChatReply) :
    (ps.map (pieceChoice (.text value) tool)).foldl ChatReply.add r =
      { r with text := r.text ++ ps.flatten } := by
  induction ps generalizing r with
  | nil => simp
  | cons p ps ih =>
    have hadd : r.add (pieceChoice (.text value) tool p) = { r with text := r.text ++ p } := by
      simp [ChatReply.add, pieceChoice, Block.piece, blockDelta, ChatDelta.getContentString,
        ChatDelta.getReasoningContent, ChatChoice.reason]
    rw [map_cons, foldl_cons, hadd, ih]
    simp

theorem add_reasoning (r : ChatReply) (value : Bytes) :
    r.add { delta := { reasoningContent := some value } } = { r with reasoning := r.reasoning ++ value } := by
  simp [ChatReply.add, ChatDelta.getContentString, ChatDelta.getReasoningContent, ChatChoice.reason]

theorem foldl_thinking_pieces (value : Bytes) (n tool : Nat) (ps : List Bytes) (r : ChatReply) :
    (ps.map (pieceChoice (.thinking value n) tool)).foldl ChatReply.add r =
      { r with reasoning := r.reasoning ++ ps.flatten } := by
  induction ps generalizing r with
  | nil => simp
  | cons p ps ih =>
    have hadd : r.add (pieceChoice (.thinking value n) tool p) =
        { r with reasoning := r.reasoning ++ p } := add_reasoning r p
    rw [map_cons, foldl_cons, hadd, ih]
    simp

theorem foldl_signatures (n : Nat) (r : ChatReply) :
    (List.replicate n ({ delta := { reasoningContent := some [10] } } : ChatChoice)).foldl ChatReply.add r =
      { r with reasoning := r.reasoning ++ List.replicate n 10 } := by
  induction n generalizing r with
  | zero => simp
  | succ n ih =>
    rw [List.replicate_succ, foldl_cons, add_reasoning, ih]
    simp [List.replicate_succ]

theorem foldl_tool_pieces {id name : String} {input : Bytes} {tools : List ToolCall}
    (ps : List Bytes) {r : ChatReply} {call : ToolCall}
    (h : r.toolCalls = numbered (tools ++ [call])) :
    (ps.map (pieceChoice (.toolUse id name input) tools.length)).foldl ChatReply.add r =
      { r with toolCalls := numbered (tools ++ [{ call with arguments := call.arguments ++ ps.flatten }]) } := by
  induction ps generalizing r call with
  | nil => simp [← h]
  | cons p ps ih =>
    have hlast : (numbered (tools ++ [call]))[tools.length]? =
        some { call with index := some (tools.length : Int) } := by
      rw [numbered_concat, List.getElem?_append_right (by simp [numbered])]
      simp [numbered]
    have hmerge : addToolCall (numbered (tools ++ [call]))
        { index := some (tools.length : Int), arguments := p } =
          numbered (tools ++ [{ call with arguments := call.arguments ++ p }]) := by
      have hindex : ToolCall.chatIndex { call with index := some (tools.length : Int) } =
          ToolCall.chatIndex { index := some (tools.length : Int), arguments := p } := rfl
      rw [addToolCall_known (nodup_chatIndex _) hlast hindex, numbered_concat, numbered_concat]
      have hlength : tools.length = (numbered tools).length := by simp [numbered]
      rw [hlength, List.set_append_right _ _ (le_refl _)]
      simp [ToolCall.merge]
    have hadd : r.add (pieceChoice (.toolUse id name input) tools.length p) =
        { r with toolCalls := numbered (tools ++ [{ call with arguments := call.arguments ++ p }]) } := by
      simp only [ChatReply.add, pieceChoice, Block.piece, blockDelta, if_true, foldl_cons,
        List.foldl_nil, Option.getD_some, h, hmerge]
      simp [ChatDelta.getContentString, ChatDelta.getReasoningContent, ChatChoice.reason]
    rw [map_cons, foldl_cons, hadd, ih rfl]
    simp

theorem tryRun_rest (b : StreamedBlock) (s : ClaudeToChatStreamState) (k tool : Nat)
    (htool : (∃ id name input, b.block = .toolUse id name input) →
      s.toolIndexByContentBlock k = some tool) (sent : List ChatChunk) :
    ∃ s' sent', tryRun convertStep (s, sent)
        (b.pieces.map (fun p => deltaEvent k (b.block.piece p)) ++
          (List.replicate b.block.signatures (deltaEvent k signatureDelta) ++ [stopEvent k])) =
        .ok (s', sent') ∧
      s'.toolIndexByContentBlock = s.toolIndexByContentBlock ∧ s'.nextToolIndex = s.nextToolIndex ∧
      readChat sent' = { (b.pieces.map (pieceChoice b.block tool)).foldl ChatReply.add (readChat sent) with
        reasoning := ((b.pieces.map (pieceChoice b.block tool)).foldl ChatReply.add (readChat sent)).reasoning ++
          List.replicate b.block.signatures 10 } := by
  obtain ⟨sent₁, hpieces, hread₁⟩ := tryRun_pieces (convertChunk_piece b.block htool) b.pieces sent
  obtain ⟨sent₂, hsignatures, hread₂⟩ := tryRun_pieces
    (fun _ => convertChunk_signature s k) (List.replicate b.block.signatures []) sent₁
  refine ⟨{ s with blockTypeByContentBlock := Function.update s.blockTypeByContentBlock k none }, sent₂,
    ?_, rfl, rfl, ?_⟩
  · rw [tryRun_append_eq_ok]
    refine ⟨_, hpieces, ?_⟩
    rw [tryRun_append_eq_ok]
    refine ⟨(s, sent₂), ?_, ?_⟩
    · rw [← hsignatures, List.map_replicate]
    · rw [tryRun_singleton]
      simp [convertStep, convertChunk, stopEvent, streamResponseClaude2OpenAI, bind, Except.bind]
  · rw [hread₂, hread₁, List.map_replicate, foldl_signatures]

theorem convertStep_opening {b : Block} (hb : ¬ ∃ id name input, b = .toolUse id name input)
    (s : ClaudeToChatStreamState) (sent : List ChatChunk) (k : Nat) :
    ∃ s' sent', convertStep (s, sent) (startEvent k b.opening) = .ok (s', sent') ∧
      s'.toolIndexByContentBlock = s.toolIndexByContentBlock ∧ s'.nextToolIndex = s.nextToolIndex ∧
      readChat sent' = readChat sent := by
  cases b with
  | toolUse id name input => exact absurd ⟨id, name, input, rfl⟩ hb
  | text value =>
    have htrim : Text.trimSpace "text" = "text" := by decide +kernel
    refine ⟨{ s with blockTypeByContentBlock := Function.update s.blockTypeByContentBlock k (some "text") },
      sent ++ [{ choices := [{ delta := { content := some [] } }] }], ?_, rfl, rfl, ?_⟩
    · simp [convertStep, convertChunk, convertStart, startEvent, Block.opening, htrim,
        isClaudeHostedToolStreamBlock, streamResponseClaude2OpenAI, startDelta, bind, Except.bind]
    · rw [readChat_concat sent rfl]
      simp [ChatReply.add, ChatDelta.getContentString, ChatDelta.getReasoningContent, ChatChoice.reason]
  | thinking value n =>
    have htrim : Text.trimSpace "thinking" = "thinking" := by decide +kernel
    refine ⟨{ s with
        blockTypeByContentBlock := Function.update s.blockTypeByContentBlock k (some "thinking") },
      sent ++ [{ choices := [{}] }], ?_, rfl, rfl, ?_⟩
    · simp [convertStep, convertChunk, convertStart, startEvent, Block.opening, htrim,
        isClaudeHostedToolStreamBlock, streamResponseClaude2OpenAI, startDelta, bind, Except.bind]
    · rw [readChat_concat sent rfl]
      simp [ChatReply.add, ChatDelta.getContentString, ChatDelta.getReasoningContent, ChatChoice.reason]

theorem convertStep_opening_tool (id name : String) (input : Bytes) {s : ClaudeToChatStreamState} {k : Nat}
    (hnew : s.toolIndexByContentBlock k = none) {sent : List ChatChunk} {tools : List ToolCall}
    (htools : (readChat sent).toolCalls = numbered tools) (hnext : s.nextToolIndex = tools.length) :
    ∃ s' sent', convertStep (s, sent) (startEvent k (Block.toolUse id name input).opening) = .ok (s', sent') ∧
      s'.toolIndexByContentBlock = Function.update s.toolIndexByContentBlock k (some tools.length) ∧
      s'.nextToolIndex = tools.length + 1 ∧
      readChat sent' = { readChat sent with toolCalls := numbered (tools ++ [({ id, name } : ToolCall)]) } := by
  have htrim : Text.trimSpace "tool_use" = "tool_use" := by decide +kernel
  refine ⟨{ s with
      blockTypeByContentBlock := Function.update s.blockTypeByContentBlock k (some "tool_use")
      toolIndexByContentBlock := Function.update s.toolIndexByContentBlock k (some tools.length)
      nextToolIndex := tools.length + 1 },
    sent ++ [{ choices := [{ delta := { toolCalls := [{ index := some (tools.length : Int), id, name }] } }] }],
    ?_, rfl, rfl, ?_⟩
  · simp [convertStep, convertChunk, convertStart, startEvent, Block.opening, htrim, hnew, hnext,
      streamResponseClaude2OpenAI, startDelta, bind, Except.bind]
  have hadd : addToolCall (numbered tools) { index := some (tools.length : Int), id, name } =
      numbered (tools ++ [({ id, name } : ToolCall)]) := by
    rw [addToolCall_new, numbered_concat]
    intro call hcall
    exact Int.ne_of_lt (chatIndex_lt hcall)
  rw [readChat_concat sent rfl]
  simp only [ChatReply.add, foldl_cons, List.foldl_nil, htools, hadd]
  simp [ChatDelta.getContentString, ChatDelta.getReasoningContent, ChatChoice.reason]

/-- **One block**: its events are read as the block is gathered. -/
theorem Follows.block {bs : List Block} {st : ClaudeToChatStreamState × List ChatChunk}
    (h : Follows bs st) (b : StreamedBlock) :
    ∃ st', tryRun convertStep st (b.events bs.length) = .ok st' ∧ Follows (bs ++ [b.block]) st' := by
  obtain ⟨s, sent⟩ := st
  have hnew : s.toolIndexByContentBlock (bs.length : Int) = none := h.fresh _ (Int.le_refl _)
  by_cases hb : ∃ id name input, b.block = .toolUse id name input
  · obtain ⟨id, name, input, hblock⟩ := hb
    obtain ⟨s₁, sent₁, hstart, hindexes, hnext, hread₁⟩ :=
      convertStep_opening_tool id name input hnew h.toolCalls h.next
    have htool : s₁.toolIndexByContentBlock (bs.length : Int) = some (gathered bs).tools.length := by
      rw [hindexes, Function.update_self]
    obtain ⟨s', sent', hrest, hindexes', hnext', hread'⟩ := tryRun_rest b s₁ bs.length _ (fun _ => htool) sent₁
    have htools₁ : (readChat sent₁).toolCalls = numbered ((gathered bs).tools ++ [({ id, name } : ToolCall)]) := by
      rw [hread₁]
    have hjoined : b.pieces.flatten = input := by
      have hvalue := b.joined
      rwa [hblock] at hvalue
    rw [hblock, foldl_tool_pieces b.pieces htools₁, hjoined, hread₁] at hread'
    refine ⟨(s', sent'), ?_, ?_⟩
    · unfold StreamedBlock.events
      rw [tryRun_cons_eq_ok, hblock]
      rw [hblock] at hrest
      exact ⟨_, hstart, hrest⟩
    have hgather : gathered (bs ++ [b.block]) = { gathered bs with
        tools := (gathered bs).tools ++ [{ id, name, arguments := input }] } := by
      rw [gathered_concat, hblock]
      rfl
    refine ⟨fun i hi => ?_, ?_, ?_, ?_, ?_⟩
    · rw [length_append, length_singleton] at hi
      rw [hindexes', hindexes, Function.update_of_ne (by omega)]
      exact h.fresh i (by omega)
    · rw [hgather]
      rw [hnext', hnext, length_append, length_singleton]
    · rw [hread', hgather]
      exact h.text
    · rw [hread', hgather]
      rfl
    rw [hread', flatMap_append, hblock]
    rw [h.reasoning]
    rfl
  obtain ⟨s₁, sent₁, hstart, hindexes, hnext, hread₁⟩ := convertStep_opening hb s sent bs.length
  obtain ⟨s', sent', hrest, hindexes', hnext', hread'⟩ :=
    tryRun_rest b s₁ bs.length 0 (fun htool => absurd htool hb) sent₁
  have hrun : tryRun convertStep (s, sent) (b.events bs.length) = .ok (s', sent') := by
    unfold StreamedBlock.events
    rw [tryRun_cons_eq_ok]
    exact ⟨_, hstart, hrest⟩
  have hfresh : ∀ i : Int, (bs ++ [b.block]).length ≤ i → s'.toolIndexByContentBlock i = none := by
    intro i hi
    rw [length_append, length_singleton] at hi
    rw [hindexes', hindexes]
    exact h.fresh i (by omega)
  have hnextEq : s'.nextToolIndex = (gathered bs).tools.length := by
    rw [hnext', hnext]
    exact h.next
  have hjoined := b.joined
  rw [hread₁] at hread'
  refine ⟨(s', sent'), hrun, ?_⟩
  cases hblock : b.block with
  | toolUse id name input => exact absurd ⟨id, name, input, hblock⟩ hb
  | text value =>
    rw [hblock] at hjoined hfresh
    rw [hblock, foldl_text_pieces, hjoined] at hread'
    refine ⟨hfresh, ?_, ?_, ?_, ?_⟩
    · rw [gathered_concat]
      exact hnextEq
    · rw [hread', gathered_concat]
      show (readChat sent).text ++ value = (gathered bs).responseText ++ value
      rw [h.text]
    · rw [hread', gathered_concat]
      exact h.toolCalls
    rw [hread', flatMap_append]
    rw [h.reasoning]
    rfl
  | thinking value n =>
    rw [hblock] at hjoined hfresh
    rw [hblock, foldl_thinking_pieces, hjoined] at hread'
    refine ⟨hfresh, ?_, ?_, ?_, ?_⟩
    · rw [gathered_concat]
      exact hnextEq
    · rw [hread', gathered_concat]
      exact h.text
    · rw [hread', gathered_concat]
      exact h.toolCalls
    rw [hread', flatMap_append]
    show ((readChat sent).reasoning ++ value) ++ List.replicate n 10 = _
    rw [h.reasoning]
    simp [Block.reasoning]

/-! ## A whole message -/

theorem Follows.blocks (bs : List StreamedBlock) {before : List Block}
    {st : ClaudeToChatStreamState × List ChatChunk} (h : Follows before st) :
    ∃ st', tryRun convertStep st (blockEvents before.length bs) = .ok st' ∧
      Follows (before ++ bs.map StreamedBlock.block) st' := by
  induction bs generalizing before st with
  | nil => exact ⟨st, rfl, by simpa using h⟩
  | cons b bs ih =>
    obtain ⟨st₁, hfirst, hfollows⟩ := h.block b
    obtain ⟨st', hrest, hfollows'⟩ := ih hfollows
    rw [length_append, length_singleton] at hrest
    refine ⟨st', ?_, ?_⟩
    · unfold blockEvents
      rw [tryRun_append_eq_ok]
      exact ⟨st₁, hfirst, hrest⟩
    · rw [List.append_assoc] at hfollows'
      exact hfollows'

variable (m : SourceMessage)

theorem stream_follows : ∃ s sent, tryRun convertStep ({}, []) m.events = .ok (s, sent) ∧
      Follows (m.blocks.map StreamedBlock.block) (s, sent) := by
  have hstart : Follows [] (({} : ClaudeToChatStreamState),
      [({ id := m.id, model := m.model,
          choices := [{ delta := { content := some [], role := "assistant" } }] } : ChatChunk)]) :=
    ⟨fun _ _ => rfl, rfl, rfl, rfl, rfl⟩
  obtain ⟨⟨s, sent⟩, hblocks, hfollows⟩ := hstart.blocks m.blocks
  refine ⟨s, sent ++ [{ choices := [{ finishReason := finishReason (some { stopReason := some m.stopReason }) }] }],
    ?_, ?_⟩
  · unfold SourceMessage.events
    rw [tryRun_cons_eq_ok]
    refine ⟨_, rfl, ?_⟩
    rw [tryRun_append_eq_ok]
    refine ⟨(s, sent), hblocks, ?_⟩
    simp [tryRun, convertStep, convertChunk, streamResponseClaude2OpenAI, bind, Except.bind]
  have hread : ∀ choice : ChatChoice, choice.delta = {} → ∀ chunk : ChatChunk, chunk.choices = [choice] →
      readChat (sent ++ [chunk]) = { readChat sent with
        finishReasons := (readChat sent).finishReasons ++ choice.reason.toList } := by
    intro choice hdelta chunk hchunk
    rw [readChat_concat sent hchunk]
    simp [ChatReply.add, hdelta, ChatDelta.getContentString, ChatDelta.getReasoningContent]
  have hlast := hread _ rfl
    { choices := [{ finishReason := finishReason (some { stopReason := some m.stopReason }) }] } rfl
  refine ⟨hfollows.fresh, hfollows.next, ?_, ?_, ?_⟩
  · rw [hlast]
    exact hfollows.text
  · rw [hlast]
    exact hfollows.toolCalls
  · rw [hlast]
    exact hfollows.reasoning

theorem gathered_whole :
    m.whole.content.foldl gather {} = gathered (m.blocks.map StreamedBlock.block) := by
  simp [SourceMessage.whole, gathered, Function.comp_def]

/-! ## Reasoning -/

def Block.thought : Block → Option Bytes
  | thinking value _ => some value
  | _ => none

def thoughts : List Bytes := bs.filterMap Block.thought

/-- The reasoning of the whole message: its last thinking block, or the first block
    when that is empty. -/
def reported : Bytes :=
  let last := (thoughts bs).getLast?.getD []
  if last ≠ [] then last else (bs.head?.bind Block.thought).getD []

theorem thinkingContent_gathered :
    (gathered bs).thinkingContent = (thoughts bs).getLast?.getD [] := by
  induction bs using List.reverseRecOn with
  | nil => rfl
  | append_singleton bs b ih =>
    rw [gathered_concat]
    unfold thoughts at ih ⊢
    cases b with
    | text value | toolUse id name input => simpa [gather, Block.media, Block.thought] using ih
    | thinking value n => simp [gather, Block.media, Block.thought]

theorem reasoning_whole : (responseClaude2OpenAI m.whole).reasoningContent.getD [] =
      reported (m.blocks.map StreamedBlock.block) := by
  have hfirst : (m.whole.content.head?.bind ClaudeMediaMessage.thinking).getD [] =
      ((m.blocks.map StreamedBlock.block).head?.bind Block.thought).getD [] := by
    unfold SourceMessage.whole
    cases m.blocks with
    | nil => rfl
    | cons b bs => cases hb : b.block <;> simp [Block.media, Block.thought, hb]
  unfold responseClaude2OpenAI reported
  simp only [gathered_whole, thinkingContent_gathered, hfirst]
  by_cases hlast : (thoughts (m.blocks.map StreamedBlock.block)).getLast?.getD [] = []
  · simp only [hlast, ne_eq, not_true_eq_false, if_false]
    split_ifs with hhead
    · rw [hhead]
      rfl
    · rfl
  · simp only [hlast, ne_eq, not_false_eq_true, if_true, Option.getD_some]

def visible (text : Bytes) : Bytes := text.filter (· ≠ 10)

/-- `long` is `short` with newlines put into it. -/
def SameUpToNewlines (long short : Bytes) : Prop := short.Sublist long ∧ visible long = visible short

def unreported : List Bytes :=
  if (thoughts bs).getLast?.getD [] ≠ [] then (thoughts bs).dropLast
  else if (bs.head?.bind Block.thought).isSome then (thoughts bs).tail
  else thoughts bs

theorem visible_append (s t : Bytes) : visible (s ++ t) = visible s ++ visible t :=
  List.filter_append s t

theorem visible_replicate (n : Nat) : visible (List.replicate n 10) = [] := by
  simp [visible]

theorem visible_flatten_eq_nil (texts : List Bytes) :
    visible texts.flatten = [] ↔ ∀ t ∈ texts, ∀ b ∈ t, b = 10 := by
  unfold visible
  rw [List.filter_eq_nil_iff]
  constructor
  · intro h t ht b hb
    simpa using h b (List.mem_flatten.2 ⟨t, ht, hb⟩)
  intro h b hb
  obtain ⟨t, ht, hbt⟩ := List.mem_flatten.1 hb
  simp [h t ht b hbt]

theorem visible_reasoning :
    visible (bs.flatMap Block.reasoning) = visible (thoughts bs).flatten := by
  induction bs with
  | nil => rfl
  | cons b bs ih =>
    rw [List.flatMap_cons, visible_append, ih]
    cases b with
    | text value => rfl
    | toolUse id name input => rfl
    | thinking value n =>
      show visible (value ++ List.replicate n 10) ++ _ = visible (value ++ (thoughts bs).flatten)
      rw [visible_append, visible_append, visible_replicate, List.append_nil]

theorem thought_sublist {bs : List Block} {t : Bytes} (h : t ∈ thoughts bs) :
    t.Sublist (bs.flatMap Block.reasoning) := by
  obtain ⟨b, hb, ht⟩ := List.mem_filterMap.1 h
  obtain ⟨before, after, rfl⟩ := List.append_of_mem hb
  cases b with
  | text value => cases ht
  | toolUse id name input => cases ht
  | thinking value n =>
    cases ht
    rw [flatMap_append, List.flatMap_cons]
    have hown : t.Sublist (Block.reasoning (.thinking t n)) := List.sublist_append_left _ _
    exact (hown.trans (List.sublist_append_left _ _)).trans (List.sublist_append_right _ _)

theorem reasoning_iff : SameUpToNewlines (bs.flatMap Block.reasoning) (reported bs) ↔
      ∀ t ∈ unreported bs, ∀ b ∈ t, b = 10 := by
  unfold SameUpToNewlines
  rw [visible_reasoning, ← visible_flatten_eq_nil]
  unfold reported unreported
  by_cases hlast : (thoughts bs).getLast?.getD [] = []
  · simp only [hlast, ne_eq, not_true_eq_false, if_false]
    cases hhead : bs.head?.bind Block.thought with
    | none =>
      show (([] : Bytes).Sublist _ ∧ _ = []) ↔ _
      simp
    | some t =>
      have hthoughts : thoughts bs = t :: (thoughts bs).tail := by
        cases bs with
        | nil => cases hhead
        | cons b bs =>
          have hb : b.thought = some t := hhead
          simp [thoughts, hb]
      have hsublist : t.Sublist (bs.flatMap Block.reasoning) := by
        apply thought_sublist
        rw [hthoughts]
        exact List.mem_cons_self
      have hflatten : visible (thoughts bs).flatten = visible t ++ visible (thoughts bs).tail.flatten := by
        rw [← visible_append, ← List.flatten_cons, ← hthoughts]
      simp only [Option.getD_some, Option.isSome_some, if_true, hflatten, List.append_right_eq_self]
      exact ⟨fun h => h.2, fun h => ⟨hsublist, h⟩⟩
  simp only [hlast, ne_eq, not_false_eq_true, if_true]
  cases hget : (thoughts bs).getLast? with
  | none => exact absurd (by rw [hget]; rfl) hlast
  | some t =>
    obtain ⟨init, hthoughts⟩ := List.getLast?_eq_some_iff.1 hget
    have hsublist : t.Sublist (bs.flatMap Block.reasoning) := by
      apply thought_sublist
      rw [hthoughts]
      simp
    rw [hthoughts, List.dropLast_concat, List.flatten_concat, visible_append, Option.getD_some,
      List.append_left_eq_self]
    exact ⟨fun h => h.2, fun h => ⟨hsublist, h⟩⟩

/-- **The stream agrees with the whole message**: it is converted without an error to
    the same text, the same reasoning but for newlines, and the same tool calls, with
    the indexes 0, 1, 2 and so on. -/
def StreamAgrees : Prop :=
  ∃ s sent, tryRun convertStep ({}, []) m.events = .ok (s, sent) ∧
    (readChat sent).text = (responseClaude2OpenAI m.whole).content ∧
    (readChat sent).toolCalls = numbered (responseClaude2OpenAI m.whole).toolCalls ∧
    SameUpToNewlines (readChat sent).reasoning
      ((responseClaude2OpenAI m.whole).reasoningContent.getD [])

/-- The text and the tool calls agree for every message and every split; the reasoning
    does if and only if every thinking block but the reported one is made of newlines. -/
theorem streamAgrees_iff (m : SourceMessage) :
    StreamAgrees m ↔ ∀ t ∈ unreported (m.blocks.map StreamedBlock.block), ∀ b ∈ t, b = 10 := by
  obtain ⟨s, sent, hrun, hfollows⟩ := stream_follows m
  have hreasoning := hfollows.reasoning
  rw [← reasoning_iff, ← hreasoning, ← reasoning_whole]
  constructor
  · rintro ⟨s', sent', hrun', -, -, hsame⟩
    rw [hrun] at hrun'
    cases hrun'
    exact hsame
  intro hsame
  refine ⟨s, sent, hrun, ?_, ?_, hsame⟩
  · rw [hfollows.text, ← gathered_whole]
    rfl
  · rw [hfollows.toolCalls, ← gathered_whole]
    rfl

/-- A message that thinks twice. -/
def thinksTwice : SourceMessage where
  id := "msg_1"
  model := "claude-sonnet-4"
  stopReason := "tool_use"
  blocks :=
    [⟨.thinking "First".toUTF8.toList 1, ["Fir".toUTF8.toList, "st".toUTF8.toList], by decide +kernel⟩,
      ⟨.toolUse "call_1" "weather" "\x7b\x7d".toUTF8.toList, ["\x7b\x7d".toUTF8.toList], by decide +kernel⟩,
      ⟨.thinking "Then".toUTF8.toList 1, ["Then".toUTF8.toList], by decide +kernel⟩]

theorem thinksTwice_differs : ¬ StreamAgrees thinksTwice := by
  rintro ⟨s, sent, hrun, -, -, -, hvisible⟩
  have hsent : sent = ((tryRun convertStep ({}, []) thinksTwice.events).toOption.map Prod.snd).getD [] := by
    rw [hrun]
    rfl
  rw [hsent] at hvisible
  exact absurd hvisible (by decide +kernel)

end NewApi.ClaudeSource
