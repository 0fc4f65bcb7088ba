/-
  NewApi.Convert.ResponsesToChat

  The converter from a Responses stream to a chat stream
  (`relaykit/relayconvert/internal/oai_responses/to_oai_chat_stream_resp.go`).

  As in `NewApi.Convert.ChatToResponses` a method appends the chunks it returns to
  `sent`.  A tool's `Index` is the number of tools made before it, so that the tools
  are a list and a pointer to one is its index; several keys may hold one pointer.
  A key `"output:%d"`, `"item:%s"` or `"call:%s"` is its kind and its value, and only
  the order of `flushAllPendingTools` reads it as a string.

  The texts are valid UTF-8, as JSON decoding leaves them.
-/

import NewApi.Convert.ResponsesRead
import Mathlib.Data.List.AList
import Mathlib.Data.List.Sort

namespace NewApi.Convert

open NewApi.Subscription (trimSpace)

/-! ## State -/

/-- The keys of `toolByKey`. -/
inductive ToolKey where
  | output (outputIndex : Int)
  | item (itemID : String)
  | call (callID : String)
deriving DecidableEq

def ToolKey.text : ToolKey → String
  | .output outputIndex => "output:" ++ toString outputIndex
  | .item itemID => "item:" ++ itemID
  | .call callID => "call:" ++ callID

/-- `responsesStreamTool`; `Index` is its position. -/
structure ResponsesStreamTool where
  key : ToolKey
  callID : String := ""
  itemID : String := ""
  name : String := ""
  arguments : Bytes := []
  sent : Bool := false
  nameSent : Bool := false
  argsSentAt : Nat := 0

/-- `ResponsesToChatStreamState`; `nextToolIndex` is the number of `tools`. -/
structure ResponsesToChatStreamState where
  id : String := ""
  model : String
  created : Int
  includeUsage : Bool
  sentStart : Bool := false
  finalized : Bool := false
  hasSentText : Bool := false
  sentAnnotationCount : Nat := 0
  sawToolCall : Bool := false
  hasSentReasoning : Bool := false
  needsReasoningSummaryBreak : Bool := false
  tools : List ResponsesStreamTool := []
  toolByKey : AList fun _ : ToolKey => Nat := ∅
  outputIndexToKey : AList fun _ : Int => ToolKey := ∅
  itemIDToKey : AList fun _ : String => ToolKey := ∅
  callIDToKey : AList fun _ : String => ToolKey := ∅
  pendingArgsByOutputIndex : AList fun _ : Int => Bytes := ∅
  pendingArgsByItemID : AList fun _ : String => Bytes := ∅
  /-- The chunks returned so far. -/
  sent : List ChatChunk := []

/-- `NewResponsesToChatStreamState`, at the time `now`. -/
def newResponsesToChatStreamState (model : String) (now : Int) (includeUsage : Bool) :
    ResponsesToChatStreamState :=
  { model, created := now, includeUsage }

/-- The errors of `ResponsesStreamEventToChatChunks`. -/
inductive ResponsesStreamError where
  /-- `invalid Responses stream annotation`, `invalid Responses annotation` -/
  | annotationInvalid
  /-- `responses stream error: %s` -/
  | streamError (type : EventType)
deriving DecidableEq

def responseAnnotationToChat : Option Annotation → Except ResponsesStreamError Annotation
  | none => .error .annotationInvalid
  | some a =>
    if trimSpace (a.type.getD "") ≠ "url_citation" then .ok a
    else .ok { type := some "url_citation", urlCitation := some { a.toUrlCitation with type := none } }

def responsesOutputAnnotationCount (output : ResponsesOutput) : Nat :=
  (output.content.map (·.annotations.length)).sum

/-- The text of a message in `terminalOutputChunks`. -/
def messageOutputText (output : ResponsesOutput) : Bytes :=
  ((output.content.filter (·.type = "output_text")).map (·.text)).flatten

/-! ## Keys -/

def itemKey (itemID : String) : Option ToolKey :=
  if trimSpace itemID = "" then none else some (.item (trimSpace itemID))

def callKey (callID : String) : Option ToolKey :=
  if trimSpace callID = "" then none else some (.call (trimSpace callID))

def keyForEvent (event : StreamEvent) : Option ToolKey :=
  match event.outputIndex with
  | some outputIndex => some (.output outputIndex)
  | none =>
    match event.item with
    | some item => (itemKey item.id).or ((callKey item.callId).or (itemKey event.itemID))
    | none => itemKey event.itemID

def fallbackToolKey (itemID callID : String) (outputIndex : Option Int) : Option ToolKey :=
  match outputIndex with
  | some outputIndex => some (.output outputIndex)
  | none => (itemKey itemID).or (callKey callID)

def fallbackCallID (event : StreamEvent) : String :=
  if trimSpace event.itemID ≠ "" then trimSpace event.itemID
  else match event.outputIndex with
    | some outputIndex => "call_output_" ++ toString outputIndex
    | none => ""

/-- The call id `flushAllPendingTools` gives a tool it makes. -/
def ToolKey.flushCallID : ToolKey → String
  | .output outputIndex => "call_output_" ++ toString outputIndex
  | .item itemID => itemID
  | .call callID => "call:" ++ callID

namespace ResponsesStreamTool

/-! ## Tools -/

variable (tool : ResponsesStreamTool)

/-- The arguments `toolDelta` sends: the delta, or what was not sent yet. -/
def argsDelta (explicitDelta : Bytes) : Bytes :=
  if explicitDelta = [] then tool.arguments.drop tool.argsSentAt else explicitDelta

/-- `toolDelta` has nothing to say. -/
def Idle (argsDelta : Bytes) : Prop :=
  tool.sent = true ∧ argsDelta = [] ∧ (tool.name = "" ∨ tool.nameSent = true)

instance (tool : ResponsesStreamTool) (argsDelta : Bytes) : Decidable (tool.Idle argsDelta) :=
  inferInstanceAs (Decidable (_ ∧ _ ∧ _))

/-- The tool call of `toolDelta`. -/
def call (index : Nat) (argsDelta : Bytes) : ToolCall where
  index := some (index : Int)
  id := if trimSpace tool.callID = "" then tool.key.text else trimSpace tool.callID
  name := if tool.nameSent then "" else tool.name
  arguments := argsDelta

/-- The tool after `toolDelta`. -/
def afterCall (argsDelta : Bytes) : ResponsesStreamTool :=
  { tool with
    nameSent := tool.nameSent || tool.name ≠ ""
    sent := true
    argsSentAt := tool.argsSentAt + argsDelta.length }

/-- What an item says about its tool. -/
def identify (item : ResponsesOutput) : ResponsesStreamTool :=
  { tool with
    callID :=
      if trimSpace item.callId ≠ "" then trimSpace item.callId
      else if tool.callID = "" then trimSpace item.id
      else tool.callID
    name := if trimSpace item.name ≠ "" then trimSpace item.name else tool.name }

/-- The snapshot of the arguments in `toolItem`, if there is one. -/
def withArguments (args : Bytes) : ResponsesStreamTool :=
  if args = [] then tool else { tool with arguments := args }

end ResponsesStreamTool

namespace ResponsesToChatStreamState

/-! ## Chunks -/

variable (s : ResponsesToChatStreamState)

def makeChunk (delta : ChatDelta) (finishReason : Option String) : ChatChunk where
  id := s.id
  model := s.model
  created := s.created
  choices := [{ delta, finishReason }]

def send (delta : ChatDelta) : ResponsesToChatStreamState :=
  { s with sent := s.sent ++ [s.makeChunk delta none] }

def applyResponseMetadata : Option ResponsesResponse → ResponsesToChatStreamState
  | none => s
  | some response =>
    { s with
      id := if response.id ≠ "" ∧ s.id = "" then response.id else s.id
      model := if response.model ≠ "" then response.model else s.model
      created := if response.createdAt ≠ 0 then response.createdAt else s.created }

def ensureStart : ResponsesToChatStreamState :=
  if s.sentStart then s
  else { s with sentStart := true }.send { role := "assistant", content := some [] }

def textDelta (delta : Bytes) : ResponsesToChatStreamState :=
  if delta = [] then s
  else { s with hasSentText := true }.ensureStart.send { content := some delta }

/-- The delta of `reasoningDelta`, set off from the part before it. -/
def separatedReasoning (delta : Bytes) : Bytes :=
  List.replicate (2 - leadingNewlines delta) newline ++ delta

def reasoningDelta (delta : Bytes) : ResponsesToChatStreamState :=
  if delta = [] then s
  else
    let delta := if s.needsReasoningSummaryBreak then separatedReasoning delta else delta
    { s with needsReasoningSummaryBreak := false, hasSentReasoning := true }.ensureStart.send
      { reasoningContent := some delta }

def endReasoningPart : ResponsesToChatStreamState :=
  if s.hasSentReasoning then { s with needsReasoningSummaryBreak := true } else s

def annotationDelta (a : Option Annotation) :
    Except ResponsesStreamError ResponsesToChatStreamState :=
  (responseAnnotationToChat a).map fun converted =>
    { s with sentAnnotationCount := s.sentAnnotationCount + 1 }.ensureStart.send
      { annotations := .list [converted] }

def annotationRawDelta : RawAnnotation → Except ResponsesStreamError ResponsesToChatStreamState
  | .absent => .ok s
  | .invalid => .error .annotationInvalid
  | .value a => s.annotationDelta a

def remainingAnnotationChunks (output : ResponsesOutput)
    (offset : Nat) : Except ResponsesStreamError ResponsesToChatStreamState :=
  ((output.content.map (·.annotations)).flatten.drop (s.sentAnnotationCount - offset)).foldlM
    annotationDelta s

/-! ## Tools of events -/

def setTool (i : Nat) (tool : ResponsesStreamTool) : ResponsesToChatStreamState :=
  { s with tools := s.tools.set i tool }

def updateTool (i : Nat)
    (f : ResponsesStreamTool → ResponsesStreamTool) : ResponsesToChatStreamState :=
  { s with tools := s.tools.modify i f }

def addTool (tool : ResponsesStreamTool) : ResponsesToChatStreamState :=
  { s with
    tools := s.tools ++ [tool]
    toolByKey := s.toolByKey.insert tool.key s.tools.length }

def toolDelta (i : Nat) (explicitDelta : Bytes) : ResponsesToChatStreamState :=
  match s.tools[i]? with
  | none => s
  | some tool =>
    let argsDelta := tool.argsDelta explicitDelta
    if tool.Idle argsDelta then s
    else
      { s.setTool i (tool.afterCall argsDelta) with sawToolCall := true }.ensureStart.send
        { toolCalls := [tool.call i argsDelta] }

def keyOfItemID (itemID : String) : Option ToolKey :=
  if itemID = "" then none else s.itemIDToKey.lookup itemID

def keyOfCallID (callID : String) : Option ToolKey :=
  if callID = "" then none else s.callIDToKey.lookup callID

variable (event : StreamEvent)

variable (item : ResponsesOutput)

def aliasedTool : Option Nat :=
  ((s.keyOfItemID (responseStreamEventItemID event)).bind s.toolByKey.lookup).or
    ((s.keyOfCallID (trimSpace item.callId)).bind s.toolByKey.lookup)

/-- The lookup of `ensureToolForEvent`: by the key, by the item id or the call id, or
    a new tool. -/
def lookupTool (key : ToolKey) (event : StreamEvent)
    (item : ResponsesOutput) : Nat × ResponsesToChatStreamState :=
  match s.toolByKey.lookup key with
  | some i => (i, s)
  | none =>
    match s.aliasedTool event item with
    | some i => (i, { s with toolByKey := s.toolByKey.insert key i })
    | none => (s.tools.length, s.addTool { key })

/-- The output index of an event becomes one of the tool's, which gets the arguments
    that waited for it. -/
def claimOutputIndex (i : Nat) (key : ToolKey) : Option Int → ResponsesToChatStreamState
  | none => s
  | some outputIndex =>
    let pending := (s.pendingArgsByOutputIndex.lookup outputIndex).getD []
    let s := { s with outputIndexToKey := s.outputIndexToKey.insert outputIndex key }
    if pending = [] then s
    else
      { s.updateTool i fun tool => { tool with arguments := tool.arguments ++ pending } with
        pendingArgsByOutputIndex := s.pendingArgsByOutputIndex.erase outputIndex }

/-- The item id of an event becomes the tool's, which gets the arguments that waited
    for it. -/
def claimItemID (i : Nat) (key : ToolKey) (itemID : String) : ResponsesToChatStreamState :=
  if itemID = "" then s
  else
    let pending := (s.pendingArgsByItemID.lookup itemID).getD []
    let s := { s.updateTool i ({ · with itemID }) with
      itemIDToKey := s.itemIDToKey.insert itemID key }
    if pending = [] then s
    else
      { s.updateTool i fun tool => { tool with arguments := tool.arguments ++ pending } with
        pendingArgsByItemID := s.pendingArgsByItemID.erase itemID }

/-- The call id and the name of an item become the tool's. -/
def claimIdentity (i : Nat) (key : ToolKey) (item : ResponsesOutput) : ResponsesToChatStreamState :=
  let s := s.updateTool i (·.identify item)
  if trimSpace item.callId = "" then s
  else { s with callIDToKey := s.callIDToKey.insert (trimSpace item.callId) key }

def ensureToolForEvent : Option (Nat × ResponsesToChatStreamState) :=
  ((keyForEvent event).or (fallbackToolKey item.id item.callId event.outputIndex)).map fun key =>
    let found := s.lookupTool key event item
    let s := found.2.claimOutputIndex found.1 key event.outputIndex
    let s := s.claimItemID found.1 key (responseStreamEventItemID event)
    (found.1, s.claimIdentity found.1 key item)

/-- The key `findToolForEvent` looks at. -/
def findKeyForEvent : Option ToolKey :=
  (event.outputIndex.bind s.outputIndexToKey.lookup).or
    ((s.keyOfItemID (trimSpace event.itemID)).or
      (if event.item.isSome then keyForEvent event else none))

def findToolForEvent : Option Nat :=
  (s.findKeyForEvent event).bind s.toolByKey.lookup

def ensureFallbackToolForEvent : Option (Nat × ResponsesToChatStreamState) :=
  (fallbackToolKey event.itemID "" event.outputIndex).map fun key =>
    let found :=
      match s.toolByKey.lookup key with
      | some i => (i, s)
      | none => (s.tools.length, s.addTool { key, callID := fallbackCallID event })
    let s := found.2.claimOutputIndex found.1 key event.outputIndex
    (found.1, s.claimItemID found.1 key (responseStreamEventItemID event))

def toolItem : ResponsesToChatStreamState :=
  match s.ensureToolForEvent event item with
  | none => s
  | some (i, s) => (s.updateTool i (·.withArguments item.arguments)).toolDelta i []

def toolArgumentsDelta : ResponsesToChatStreamState :=
  if event.delta = [] then s
  else
    match s.findToolForEvent event with
    | some i =>
      (s.updateTool i fun tool => { tool with arguments := tool.arguments ++ event.delta }).toolDelta i
        event.delta
    | none =>
      match event.outputIndex with
      | some outputIndex =>
        let pending := (s.pendingArgsByOutputIndex.lookup outputIndex).getD []
        { s with
          pendingArgsByOutputIndex :=
            s.pendingArgsByOutputIndex.insert outputIndex (pending ++ event.delta) }
      | none =>
        let itemID := trimSpace event.itemID
        if itemID = "" then s
        else
          let pending := (s.pendingArgsByItemID.lookup itemID).getD []
          { s with
            pendingArgsByItemID := s.pendingArgsByItemID.insert itemID (pending ++ event.delta) }

def flushPendingTool : ResponsesToChatStreamState :=
  match s.findToolForEvent event with
  | some i => s.toolDelta i []
  | none =>
    match s.ensureFallbackToolForEvent event with
    | some (i, s) => s.toolDelta i []
    | none => s

/-! ## The end of the stream -/

/-- The keys of `flushAllPendingTools`, in its order. -/
def flushKeys : List ToolKey :=
  (s.toolByKey.keys ++ s.pendingArgsByOutputIndex.keys.map ToolKey.output ++
    s.pendingArgsByItemID.keys.map ToolKey.item).dedup.insertionSort (·.text ≤ ·.text)

/-- The arguments that wait under a key become the tool's. -/
def takePending (i : Nat) : ToolKey → ResponsesToChatStreamState
  | .output outputIndex =>
    let pending := (s.pendingArgsByOutputIndex.lookup outputIndex).getD []
    { s.updateTool i fun tool => { tool with arguments := tool.arguments ++ pending } with
      pendingArgsByOutputIndex := s.pendingArgsByOutputIndex.erase outputIndex }
  | .item itemID =>
    let pending := (s.pendingArgsByItemID.lookup itemID).getD []
    { s.updateTool i fun tool => { tool with arguments := tool.arguments ++ pending } with
      pendingArgsByItemID := s.pendingArgsByItemID.erase itemID }
  | .call _ => s

/-- `flushAllPendingTools`, one key. -/
def flushKey (key : ToolKey) : ResponsesToChatStreamState :=
  match s.toolByKey.lookup key with
  | some i => (s.takePending i key).toolDelta i []
  | none =>
    ((s.addTool { key, callID := key.flushCallID }).takePending s.tools.length key).toolDelta
      s.tools.length []

def flushAllPendingTools : ResponsesToChatStreamState :=
  s.flushKeys.foldl flushKey s

variable (response : Option ResponsesResponse)

/-- The finish reason of `finalize`. -/
def finishReason : String :=
  (response.bind responsesFinishReasonFromStatus).getD (if s.sawToolCall then "tool_calls" else "stop")

def finalize : ResponsesToChatStreamState :=
  if s.finalized then s
  else
    let s := { s with finalized := true }.flushAllPendingTools.ensureStart
    { s with
      sent := s.sent ++ [s.makeChunk {} (some (s.finishReason response))] ++
        if s.includeUsage then [{ id := s.id, created := s.created, model := s.model }] else [] }

/-- `terminalOutputChunks`, one item; `hadSentText` and `hadSentReasoning` are from
    before the first. -/
def terminalOutput (hadSentText hadSentReasoning : Bool)
    (acc : ResponsesToChatStreamState × Nat) (output : ResponsesOutput) :
    Except ResponsesStreamError (ResponsesToChatStreamState × Nat) :=
  if output.type = .message then
    let s := if hadSentText then acc.1 else acc.1.textDelta (messageOutputText output)
    (s.remainingAnnotationChunks output acc.2).map fun s =>
      (s, acc.2 + responsesOutputAnnotationCount output)
  else if output.type = .reasoning ∧ ¬ hadSentReasoning then
    .ok (acc.1.reasoningDelta (reasoningOutputText output), acc.2)
  else if isResponsesToolOutputType output.type then
    .ok (acc.1.toolItem { type := .other "", item := some output } output, acc.2)
  else .ok acc

def terminalOutputChunks : Except ResponsesStreamError ResponsesToChatStreamState :=
  match response with
  | none => .ok s
  | some response =>
    (response.output.foldlM (terminalOutput s.hasSentText s.hasSentReasoning) (s, 0)).map (·.1)

def finish : Except ResponsesStreamError ResponsesToChatStreamState :=
  ((s.applyResponseMetadata response).terminalOutputChunks response).map (·.finalize response)

/-! ## Events -/

/-- `output_item.added` and `output_item.done` -/
def outputItem : ResponsesToChatStreamState :=
  match event.item with
  | none => s
  | some item => if isResponsesToolOutputType item.type then s.toolItem event item else s

/-- `ResponsesStreamEventToChatChunks` -/
def convertEvent : Except ResponsesStreamError ResponsesToChatStreamState :=
  match event.type with
  | .created => .ok (s.applyResponseMetadata event.response).ensureStart
  | .reasoningSummaryDelta | .reasoningTextDelta => .ok (s.reasoningDelta event.delta)
  | .reasoningSummaryDone | .reasoningTextDone => .ok s.endReasoningPart
  | .outputTextDelta => .ok (s.textDelta event.delta)
  | .outputTextAnnotationAdded => s.annotationRawDelta event.annotation
  | .outputItemAdded | .outputItemDone => .ok (s.outputItem event)
  | .functionArgsDelta | .customToolInputDelta => .ok (s.toolArgumentsDelta event)
  | .functionArgsDone | .customToolInputDone => .ok (s.flushPendingTool event)
  | .completed | .done => s.finish event.response
  | .incomplete => s.finish (some (ensureIncompleteResponse event.response))
  | .failed | .responseError => .error (.streamError event.type)
  | _ => .ok s

end ResponsesToChatStreamState

end NewApi.Convert
