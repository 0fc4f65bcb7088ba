/-
  NewApi.Convert.ChatToClaude

  The converter from a chat stream to a Claude stream
  (`relaykit/relayconvert/internal/oai_chat/to_claude_messages_resp.go`).

  What the functions of the source return is appended to `sent` here.  The tool
  calls they share by pointer are positions in `toolCalls`.  The usage decides when
  the stream ends and is kept for that; the events do not carry it.
-/

import NewApi.Lib.Run
import NewApi.Convert.Usage
import NewApi.Convert.ResponsesToClaude
import NewApi.Convert.ChatReply

namespace NewApi.Convert

open NewApi.Lib
open NewApi.Subscription (trimSpace)

/-- `ChatCompletionsStreamResponse`, with its usage. -/
structure UsageChunk extends ChatChunk where
  usage : Option Usage := none

structure ClaudeStreamToolCall where
  blockIndex : Nat := 0
  id : String := ""
  name : String := ""
  pendingArguments : Bytes := []
  started : Bool := false

/-- `ClaudeConvertInfo`, with `SendResponseCount` of the `Meta` it belongs to and the
    events returned so far.  `LastMessagesType` is the type of the open blocks, of
    which there is none at first.  `generated` counts the calls of `GetUUID`. -/
structure ClaudeConvertInfo where
  lastMessagesType : Option BlockKind := none
  index : Nat := 0
  usage : Option Usage := none
  finishReason : String := ""
  done : Bool := false
  toolCallBaseIndex : Nat := 0
  toolCallMaxIndexOffset : Nat := 0
  toolCalls : List ClaudeStreamToolCall := []
  toolCallByIndex : Int → Option Nat := fun _ => none
  toolCallByID : String → Option Nat := fun _ => none
  sendResponseCount : Nat := 0
  generated : Nat := 0
  sent : List ClaudeEvent := []

/-- `strings.ToLower` on one letter.  Outside ASCII only the two letters matter whose
    lower case is an ASCII one: no reason has others. -/
def toLower (c : Char) : Char :=
  if c = 'İ' then 'i' else if c = '\u212A' then 'k' else c.toLower

/-- `OpenAIFinishReasonToClaudeStopReason` -/
def stopReasonOpenAI2Claude (finishReason : String) : String :=
  let lower := String.ofList (finishReason.toList.map toLower)
  if lower = "stop" then "end_turn"
  else if lower = "stop_sequence" then "stop_sequence"
  else if lower = "length" ∨ lower = "max_tokens" then "max_tokens"
  else if lower = "content_filter" then "refusal"
  else if lower = "tool_calls" then "tool_use"
  else finishReason

def stopReasonOrEndTurn (finishReason : String) : String :=
  let stopReason := stopReasonOpenAI2Claude finishReason
  if stopReason = "" then "end_turn" else stopReason

/-- `chatAnnotationsToClaude`, for the empty text. -/
def chatAnnotationsToClaude : RawAnnotations → List Citation
  | .list annotations => annotations.filterMap fun a => annotationToClaude [] (some a)
  | _ => []

/-- The call a fragment continues: the one with its id, or else the one at its index
    unless that one has another id. -/
def findToolCall (byIndex : Int → Option Nat) (byID : String → Option Nat) (idAt : Nat → String)
    (toolIndex : Int) (incomingID : String) : Option Nat :=
  let found := (if incomingID ≠ "" then byID incomingID else none).or (byIndex toolIndex)
  found.filter fun k => ¬ (incomingID ≠ "" ∧ idAt k ≠ "" ∧ idAt k ≠ incomingID)

namespace ClaudeConvertInfo

variable (s : ClaudeConvertInfo)

def send (e : ClaudeEvent) : ClaudeConvertInfo :=
  { s with sent := s.sent ++ [e] }

def sendAll (es : List ClaudeEvent) : ClaudeConvertInfo :=
  { s with sent := s.sent ++ es }

def setTool (k : Nat) (tool : ClaudeStreamToolCall) : ClaudeConvertInfo :=
  { s with toolCalls := s.toolCalls.set k tool }

/-! ## Stopping the open blocks -/

def stopOpenBlocks : List ClaudeEvent :=
  match s.lastMessagesType with
  | none => []
  | some .toolUse =>
    if s.toolCalls = [] then
      (List.range (s.toolCallMaxIndexOffset + 1)).map fun offset =>
        .contentBlockStop (s.toolCallBaseIndex + offset)
    else (s.toolCalls.filter (·.started)).map fun tool => .contentBlockStop tool.blockIndex
  | some _ => [.contentBlockStop s.index]

/-- The start of a tool block, with the arguments that wait for it. -/
def startToolBlock (k : Nat) (tool : ClaudeStreamToolCall) : ClaudeConvertInfo :=
  let s := s.send (.contentBlockStart tool.blockIndex (.toolUse tool.id tool.name))
  let s := if tool.pendingArguments = [] then s
    else s.send (.contentBlockDelta tool.blockIndex (.inputJson tool.pendingArguments))
  s.setTool k { tool with started := true, pendingArguments := [] }

variable (uuid : Nat → String)

variable (s : ClaudeConvertInfo)

/-- One round of the loop in `startPendingToolBlocks`. -/
def startPendingToolBlock (k : Nat) : ClaudeConvertInfo :=
  match s.toolCalls[k]? with
  | none => s
  | some tool =>
    if tool.started ∨ tool.name = "" then s
    else if tool.id = "" then
      { s with generated := s.generated + 1 }.startToolBlock k
        { tool with id := "toolu_" ++ uuid s.generated }
    else s.startToolBlock k tool

def startPendingToolBlocks : ClaudeConvertInfo :=
  if s.lastMessagesType ≠ some .toolUse then s
  else (List.range s.toolCalls.length).foldl (startPendingToolBlock uuid) s

def appendStopOpenBlocks : ClaudeConvertInfo :=
  let s := s.startPendingToolBlocks uuid
  s.sendAll s.stopOpenBlocks

def stopOpenBlocksAndAdvance : ClaudeConvertInfo :=
  match s.lastMessagesType with
  | none => s
  | some .toolUse =>
    let s := s.appendStopOpenBlocks uuid
    { s with
      index := s.toolCallBaseIndex + s.toolCalls.length
      toolCallBaseIndex := 0
      toolCallMaxIndexOffset := 0
      toolCalls := []
      toolCallByIndex := fun _ => none
      toolCallByID := fun _ => none
      lastMessagesType := none }
  | some _ =>
    let s := s.appendStopOpenBlocks uuid
    { s with index := s.index + 1, lastMessagesType := none }

/-! ## Text, thinking and citations -/

/-- A text or thinking block is open. -/
def ensureBlock (kind : BlockKind) (block : ContentBlock) : ClaudeConvertInfo :=
  if s.lastMessagesType = some kind then s
  else
    let s := s.stopOpenBlocksAndAdvance uuid
    { s.send (.contentBlockStart s.index block) with lastMessagesType := some kind }

def appendReasoning (reasoning : Bytes) : ClaudeConvertInfo :=
  let s := s.ensureBlock uuid .thinking .thinking
  s.send (.contentBlockDelta s.index (.thinking reasoning))

def appendText (textContent : Bytes) : ClaudeConvertInfo :=
  let s := s.ensureBlock uuid .text .text
  s.send (.contentBlockDelta s.index (.text textContent))

def appendCitationDeltas (raw : RawAnnotations) : ClaudeConvertInfo :=
  let citations := chatAnnotationsToClaude raw
  if citations = [] then s
  else
    let s := s.ensureBlock uuid .text .text
    s.sendAll (citations.map fun citation => .contentBlockDelta s.index (.citations citation))

/-! ## Tool calls -/

/-- The first fragment of a group of tool calls. -/
def openToolCalls : ClaudeConvertInfo :=
  if s.lastMessagesType = some .toolUse then s
  else
    let s := s.stopOpenBlocksAndAdvance uuid
    { s with
      toolCallBaseIndex := s.index
      toolCallMaxIndexOffset := 0
      toolCalls := []
      toolCallByIndex := fun _ => none
      toolCallByID := fun _ => none
      lastMessagesType := some .toolUse }

def toolID (k : Nat) : String := (s.toolCalls[k]?.map (·.id)).getD ""

/-- The tool a fragment is for, which may be a new one. -/
def ensureTool (toolIndex : Int) (incomingID : String) : Nat × ClaudeConvertInfo :=
  match findToolCall s.toolCallByIndex s.toolCallByID s.toolID toolIndex incomingID with
  | some k => (k, { s with toolCallByIndex := Function.update s.toolCallByIndex toolIndex (some k) })
  | none =>
    let k := s.toolCalls.length
    (k, { s with
      toolCalls := s.toolCalls ++ [{ blockIndex := s.toolCallBaseIndex + k }]
      toolCallByIndex := Function.update s.toolCallByIndex toolIndex (some k) })

/-- The id of a tool that has none yet. -/
def identifyTool (k : Nat) (incomingID : String) : ClaudeConvertInfo :=
  match s.toolCalls[k]? with
  | none => s
  | some tool =>
    if tool.id = "" ∧ incomingID ≠ "" then
      { s.setTool k { tool with id := incomingID } with
        toolCallByID := Function.update s.toolCallByID incomingID (some k) }
    else s

/-- The name and the arguments of a fragment. -/
def appendToTool (k : Nat) (toolCall : ToolCall) : ClaudeConvertInfo :=
  match s.toolCalls[k]? with
  | none => s
  | some tool =>
    let tool := if tool.name = "" then { tool with name := trimSpace toolCall.name } else tool
    if tool.started then
      let s := s.setTool k tool
      if toolCall.arguments = [] then s
      else s.send (.contentBlockDelta tool.blockIndex (.inputJson toolCall.arguments))
    else
      let tool := { tool with pendingArguments := tool.pendingArguments ++ toolCall.arguments }
      if tool.id ≠ "" ∧ tool.name ≠ "" then s.startToolBlock k tool else s.setTool k tool

/-- One round of the loop over `toolCalls`; the index of the call is filled in. -/
def appendToolCall (toolCall : ToolCall) : ClaudeConvertInfo :=
  let incomingID := trimSpace toolCall.id
  let (k, s) := s.ensureTool toolCall.chatIndex incomingID
  (s.identifyTool k incomingID).appendToTool k toolCall

end ClaudeConvertInfo

/-- The tool calls of a delta; one without an index has that of its position. -/
def ChatDelta.indexedToolCalls (d : ChatDelta) : List ToolCall :=
  d.toolCalls.mapIdx fun i toolCall => { toolCall with index := some (toolCall.index.getD i) }

namespace ClaudeConvertInfo

variable (uuid : Nat → String)

variable (s : ClaudeConvertInfo)

/-- The fragments of a delta that has some. -/
def appendToolCalls (d : ChatDelta) : ClaudeConvertInfo :=
  let s := d.indexedToolCalls.foldl appendToolCall (s.openToolCalls uuid)
  { s with
    toolCallMaxIndexOffset := s.toolCalls.length - 1
    index := if s.toolCalls = [] then s.index else s.toolCallBaseIndex + s.toolCalls.length - 1 }

/-- The content of a delta: its tool calls, or else its reasoning, or else its text. -/
def appendDelta (d : ChatDelta) : ClaudeConvertInfo :=
  let s :=
    if d.toolCalls ≠ [] then s.appendToolCalls uuid d
    else if d.getReasoningContent ≠ [] then s.appendReasoning uuid d.getReasoningContent
    else if d.getContentString ≠ [] then s.appendText uuid d.getContentString
    else s
  s.appendCitationDeltas uuid d.annotations

/-! ## The stream -/

/-- `clientVisibleClaudeStreamUsage`, which gives a usage if one is kept afterwards. -/
def rememberUsage (incoming : Option Usage) : ClaudeConvertInfo :=
  match incoming with
  | none => s
  | some incoming => { s with usage := some (mergeUsageNonZero s.usage incoming) }

def endMessage (stopReason : String) : ClaudeConvertInfo :=
  let s := s.appendStopOpenBlocks uuid
  { s.sendAll [.messageDelta stopReason, .messageStop] with done := true }

/-- The `message_start` of the first chunk. -/
def startMessage (chunk : UsageChunk) : ClaudeConvertInfo :=
  if s.sendResponseCount ≠ 1 then s
  else
    let s := match chunk.usage with
      | some usage => if usage.hasTokens then s.rememberUsage (some usage) else s
      | none => s
    s.send (.messageStart chunk.id chunk.model)

/-- The part of `StreamResponseOpenAI2Claude` after the `message_start`. -/
def convertChoices (chunk : UsageChunk) : ClaudeConvertInfo :=
  match chunk.choices with
  | [] =>
    let s := s.rememberUsage chunk.usage
    if s.usage.isSome then s.endMessage uuid (stopReasonOrEndTurn s.finishReason) else s
  | choice :: _ =>
    let reason := choice.finishReason.getD ""
    let s := if reason ≠ "" then { s with finishReason := reason } else s
    let s := s.appendDelta uuid choice.delta
    if reason = "" then s
    else
      let s := s.rememberUsage chunk.usage
      -- without a usage the blocks stay open for a chunk that has one
      if s.usage.isSome then s.endMessage uuid (stopReasonOpenAI2Claude s.finishReason) else s

/-- `StreamResponseOpenAI2Claude`, with the send counter at its next value. -/
def streamResponse (chunk : UsageChunk) : ClaudeConvertInfo :=
  let s := { s with sendResponseCount := s.sendResponseCount + 1 }
  if s.done then s else (s.startMessage chunk).convertChoices uuid chunk

/-- `FinalizeStreamResponseOpenAI2Claude` -/
def finalize : ClaudeConvertInfo :=
  if s.done then s else s.endMessage uuid (stopReasonOrEndTurn s.finishReason)

end ClaudeConvertInfo

def chatToClaude (uuid : Nat → String) (chunks : List UsageChunk) : List ClaudeEvent :=
  ((run (ClaudeConvertInfo.streamResponse uuid) {} chunks).finalize uuid).sent

end NewApi.Convert
