/-
  NewApi.Convert.ClaudeToChat

  The converters from Claude Messages to chat completions
  (`relaykit/relayconvert/internal/claude_messages/to_oai_chat_resp.go`): of an
  event of a stream, and of a whole message.  Citations are left out.

  The states of the source are updated in place; here `ConvertChunk` returns the
  next one, and an error ends the stream.
-/

import NewApi.Lib.Fallible
import NewApi.Lib.Text
import NewApi.Convert.ChatReply

namespace NewApi.ClaudeSource

open NewApi.Lib
open NewApi.Convert (Bytes ChatChunk ChatDelta ToolCall)

/-! ## Claude responses -/

/-- `ClaudeMediaMessage`: a content block, a delta, or the message of a `message_start`. -/
structure ClaudeMediaMessage where
  type : String := ""
  text : Option Bytes := none
  thinking : Option Bytes := none
  partialJson : Option Bytes := none
  stopReason : Option String := none
  id : String := ""
  name : String := ""
  model : String := ""
  /-- `Input`, as `Marshal` writes it -/
  input : Bytes := []

/-- `ClaudeResponse`: an event, or a whole message. -/
structure ClaudeResponse where
  type : String
  id : String := ""
  model : String := ""
  stopReason : String := ""
  content : List ClaudeMediaMessage := []
  index : Option Int := none
  contentBlock : Option ClaudeMediaMessage := none
  delta : Option ClaudeMediaMessage := none
  message : Option ClaudeMediaMessage := none

/-- `ClaudeStopReasonToOpenAIFinishReason`; the names are ASCII. -/
def stopReasonClaudeToOpenAI (reason : String) : String :=
  match Text.toLower Char.toLower reason with
  | "stop_sequence" | "end_turn" => "stop"
  | "max_tokens" | "pause_turn" => "length"
  | "tool_use" => "tool_calls"
  | "refusal" => "content_filter"
  | _ => reason

/-! ## One event -/

/-- The delta of a `content_block_start`. -/
def startDelta (index : Int) (block : ClaudeMediaMessage) : ChatDelta :=
  if block.type = "tool_use" then
    { toolCalls := [{ index := some index, id := block.id, name := block.name }] }
  else if block.type = "text" then { content := block.text }
  else {}

/-- The delta of a `content_block_delta`. -/
def blockDelta (index : Int) (delta : ClaudeMediaMessage) : ChatDelta :=
  if delta.type = "input_json_delta" then
    { toolCalls := [{ index := some index, arguments := delta.partialJson.getD [] }] }
  else if delta.type = "signature_delta" then
    { content := delta.text, reasoningContent := some [10] }
  else if delta.type = "thinking_delta" then
    { content := delta.text, reasoningContent := delta.thinking }
  else { content := delta.text }

/-- The finish reason of a `message_delta`. -/
def finishReason (delta : Option ClaudeMediaMessage) : Option String :=
  ((delta.bind ClaudeMediaMessage.stopReason).map stopReasonClaudeToOpenAI).filter (· ≠ "null")

def streamResponseClaude2OpenAI (r : ClaudeResponse) : Option ChatChunk :=
  let fcIdx := r.index.getD 0
  match r.type with
  | "message_start" =>
    some { id := (r.message.map ClaudeMediaMessage.id).getD ""
           model := (r.message.map ClaudeMediaMessage.model).getD r.model
           choices := [{ delta := { content := some [], role := "assistant" } }] }
  | "content_block_start" =>
    r.contentBlock.map fun block => { model := r.model, choices := [{ delta := startDelta fcIdx block }] }
  | "content_block_delta" =>
    some { model := r.model, choices := [{ delta := (r.delta.map (blockDelta fcIdx)).getD {} }] }
  | "message_delta" => some { model := r.model, choices := [{ finishReason := finishReason r.delta }] }
  | _ => none

structure ClaudeToChatStreamState where
  toolIndexByContentBlock : Int → Option Nat := fun _ => none
  blockTypeByContentBlock : Int → Option String := fun _ => none
  nextToolIndex : Nat := 0

def isClaudeHostedToolStreamBlock (blockType : String) : Bool :=
  blockType ∈ ["server_tool_use", "mcp_tool_use", "web_search_tool_result", "mcp_tool_result",
    "code_execution_tool_result", "web_fetch_tool_result"]

variable (s : ClaudeToChatStreamState)

variable (r : ClaudeResponse)

/-- `ConvertChunk` on a `content_block_start` with a block. -/
def convertStart (block : ClaudeMediaMessage) :
    Except String (ClaudeToChatStreamState × Option ChatChunk) :=
  let blockType := Text.trimSpace block.type
  if blockType = "" then .ok (s, streamResponseClaude2OpenAI r)
  else match r.index with
    | none => .error "Claude content block stream start is missing index"
    | some index =>
      let s := { s with
        blockTypeByContentBlock := Function.update s.blockTypeByContentBlock index (some blockType) }
      if blockType = "tool_use" then
        match s.toolIndexByContentBlock index with
        | some toolIndex =>
          .ok (s, streamResponseClaude2OpenAI { r with index := some toolIndex })
        | none =>
          .ok ({ s with
                  toolIndexByContentBlock :=
                    Function.update s.toolIndexByContentBlock index (some s.nextToolIndex)
                  nextToolIndex := s.nextToolIndex + 1 },
            streamResponseClaude2OpenAI { r with index := some s.nextToolIndex })
      else if isClaudeHostedToolStreamBlock blockType then .ok (s, none)
      else .ok (s, streamResponseClaude2OpenAI r)

/-- `ConvertChunk` on an `input_json_delta`. -/
def convertInputDelta (delta : ClaudeMediaMessage) :
    Except String (ClaudeToChatStreamState × Option ChatChunk) :=
  match r.index with
  | none => .error "Claude tool-use stream delta is missing content block index"
  | some index =>
    if delta.partialJson = none then .error "Claude tool-use stream delta is missing partial JSON"
    else match s.toolIndexByContentBlock index with
      | some toolIndex => .ok (s, streamResponseClaude2OpenAI { r with index := some toolIndex })
      | none =>
        if isClaudeHostedToolStreamBlock ((s.blockTypeByContentBlock index).getD "") then .ok (s, none)
        else .error "Claude tool-use stream delta references unknown content block index"

def convertChunk : Except String (ClaudeToChatStreamState × Option ChatChunk) :=
  match r.type, r.contentBlock, r.delta, r.index with
  | "content_block_start", some block, _, _ => convertStart s r block
  | "content_block_delta", _, some delta, _ =>
    if delta.type = "input_json_delta" then convertInputDelta s r delta
    else .ok (s, streamResponseClaude2OpenAI r)
  | "content_block_stop", _, _, some index =>
    .ok ({ s with
            blockTypeByContentBlock := Function.update s.blockTypeByContentBlock index none },
      streamResponseClaude2OpenAI r)
  | _, _, _, _ => .ok (s, streamResponseClaude2OpenAI r)

def convertStep (st : ClaudeToChatStreamState × List ChatChunk) (r : ClaudeResponse) :
    Except String (ClaudeToChatStreamState × List ChatChunk) := do
  let (s, chunk) ← convertChunk st.1 r
  .ok (s, st.2 ++ chunk.toList)

/-! ## A whole message -/

/-- The message of an `OpenAITextResponse`, with its finish reason. -/
structure ChatMessage where
  content : Bytes
  reasoningContent : Option Bytes
  toolCalls : List ToolCall
  finishReason : String

/-- What the loop over the content has gathered. -/
structure Gathered where
  responseText : Bytes := []
  thinkingContent : Bytes := []
  tools : List ToolCall := []

/-- One round of the loop over the content. -/
def gather (g : Gathered) (m : ClaudeMediaMessage) : Gathered :=
  match m.type with
  | "tool_use" => { g with tools := g.tools ++ [{ id := m.id, name := m.name, arguments := m.input }] }
  | "thinking" => { g with thinkingContent := m.thinking.getD g.thinkingContent }
  | "text" => { g with responseText := g.responseText ++ m.text.getD [] }
  | _ => g

def responseClaude2OpenAI : ChatMessage :=
  let responseThinking := (r.content.head?.bind ClaudeMediaMessage.thinking).getD []
  let g := r.content.foldl gather {}
  { content := g.responseText
    reasoningContent :=
      if g.thinkingContent ≠ [] then some g.thinkingContent
      else if responseThinking ≠ [] then some responseThinking
      else none
    toolCalls := g.tools
    finishReason := stopReasonClaudeToOpenAI r.stopReason }

end NewApi.ClaudeSource
