/-
  NewApi.Convert.ResponsesToClaude

  The converter from a Responses stream to a Claude stream
  (`relaykit/relayconvert/internal/oai_responses/to_claude_messages_stream_resp.go`).

  As in `NewApi.Convert.ChatToResponses` a method appends the events it returns to
  `sent`.  A pointer to a block is its position in `blocks`, where blocks are only
  appended; a Go map that is only looked up is a function.
-/

import NewApi.Convert.Claude
import NewApi.Convert.ResponsesRead

namespace NewApi.Convert

open NewApi.Subscription (trimSpace)

/-! ## State -/

/-- `responsesClaudeStreamBlock` -/
structure ClaudeStreamBlock where
  index : Nat
  kind : BlockKind
  itemID : String := ""
  callID : String := ""
  name : String := ""
  started : Bool := false
  stopped : Bool := false
  value : Bytes := []
  sentBytes : Nat := 0
  annotationCount : Nat := 0
  needsReasoningBreak : Bool := false

structure ResponsesToClaudeStreamState where
  id : String
  model : String
  sentMessageStart : Bool := false
  done : Bool := false
  sawToolCall : Bool := false
  nextBlockIndex : Nat := 0
  blocks : List ClaudeStreamBlock := []
  byOutputIndex : Int → Option Nat := fun _ => none
  byItemID : String → Option Nat := fun _ => none
  lastByKind : BlockKind → Option Nat := fun _ => none
  /-- The events returned so far. -/
  sent : List ClaudeEvent := []

def newResponsesToClaudeStreamState (id model : String) : ResponsesToClaudeStreamState :=
  { id := trimSpace id, model := trimSpace model }

/-- The errors of `ConvertChunk`. -/
inductive ClaudeStreamError where
  /-- `Responses output item changed from %s to %s` -/
  | changedKind (old new : BlockKind)
  /-- `invalid Responses stream annotation` -/
  | annotationInvalid
  /-- `responses stream error: %s`; without a message it is the event's type. -/
  | streamError (message : String) (type : EventType)
deriving DecidableEq

/-- What an event says about its block. -/
def ClaudeStreamBlock.withMetadata (block : ClaudeStreamBlock) (event : StreamEvent) :
    ClaudeStreamBlock :=
  let itemID := responseStreamEventItemID event
  let block := if itemID ≠ "" then { block with itemID } else block
  match event.item with
  | none => block
  | some item =>
    let callID := trimSpace item.callId
    let name := trimSpace item.name
    let block :=
      if callID ≠ "" then { block with callID }
      else if block.callID = "" then { block with callID := trimSpace item.id }
      else block
    if name ≠ "" then { block with name } else block

/-- The content of `startBlock`; a tool is not started before it has a name. -/
def ClaudeStreamBlock.content (block : ClaudeStreamBlock) : Option ContentBlock :=
  match block.kind with
  | .text => some .text
  | .thinking => some .thinking
  | .toolUse =>
    if block.name = "" then none
    else some (.toolUse (if block.callID = "" then block.itemID else block.callID) block.name)

/-! ## Citations -/

/-- `responsesCitedText`: the characters from the start index to the end index. -/
def responsesCitedText (text : Bytes) (citation : UrlCitation) : String :=
  match String.fromUTF8? (ByteArray.mk text.toArray), citation.startIndex, citation.endIndex with
  | some text, some start, some stop =>
    if start < 0 ∨ stop ≤ start ∨ text.length < stop then ""
    else String.ofList ((text.toList.drop start.toNat).take (stop - start).toNat)
  | _, _, _ => ""

/-- The citation of one annotation. -/
def annotationToClaude (text : Bytes) (a : Option Annotation) : Option Citation :=
  match a with
  | none => none
  | some a =>
    let citation := a.urlCitation.getD a.toUrlCitation
    if trimSpace (a.type.getD "") ≠ "url_citation" then none
    else if trimSpace citation.url = "" then none
    else some
      { url := trimSpace citation.url
        title := trimSpace citation.title
        citedText :=
          if citation.citedText ≠ "" then citation.citedText else responsesCitedText text citation
        encryptedIndex := citation.encryptedIndex }

def responsesAnnotationsToClaude (annotations : List (Option Annotation)) (text : Bytes) :
    List Citation :=
  annotations.filterMap (annotationToClaude text)

/-- `OpenAIFinishReasonToClaudeStopReason`, on the reasons a status gives. -/
def claudeStopReason (finishReason : String) : String :=
  if finishReason = "length" then "max_tokens"
  else if finishReason = "content_filter" then "refusal"
  else finishReason

def responsesClaudeStopReason (response : Option ResponsesResponse) (sawToolCall : Bool) : String :=
  match response.bind responsesFinishReasonFromStatus with
  | some finishReason => claudeStopReason finishReason
  | none => if sawToolCall then "tool_use" else "end_turn"

def separatedResponsesDelta (delta : Bytes) : Bytes :=
  List.replicate (2 - leadingNewlines delta) newline ++ delta

namespace ResponsesToClaudeStreamState

/-! ## Blocks -/

variable (s : ResponsesToClaudeStreamState)

def send (e : ClaudeEvent) : ResponsesToClaudeStreamState :=
  { s with sent := s.sent ++ [e] }

variable (i : Nat)

def setBlock (block : ClaudeStreamBlock) : ResponsesToClaudeStreamState :=
  { s with blocks := s.blocks.set i block }

def applyResponseMetadata (response : Option ResponsesResponse) : ResponsesToClaudeStreamState :=
  match response with
  | none => s
  | some response =>
    { s with
      id := if response.id ≠ "" then response.id else s.id
      model := if response.model ≠ "" then response.model else s.model }

def ensureMessageStart : ResponsesToClaudeStreamState :=
  if s.sentMessageStart then s
  else { s with sentMessageStart := true }.send (.messageStart s.id s.model)

variable (event : StreamEvent)

def findBlock : Option Nat :=
  (event.outputIndex.bind s.byOutputIndex).or
    (if responseStreamEventItemID event ≠ "" then s.byItemID (responseStreamEventItemID event)
      else none)

variable (kind : BlockKind)

/-- The last block of a kind, for an event that has neither an index nor an id. -/
def lastBlock : Option Nat :=
  (s.lastByKind kind).filter fun i =>
    (s.blocks[i]?.any (¬ ·.stopped)) ∧ event.outputIndex = none ∧ responseStreamEventItemID event = ""

def addBlock : ResponsesToClaudeStreamState :=
  { s with
    nextBlockIndex := s.nextBlockIndex + 1
    blocks := s.blocks ++ [{ index := s.nextBlockIndex, kind }] }

/-- `applyBlockMetadata`, and `lastByKind`. -/
def applyBlockMetadata (block : ClaudeStreamBlock)
    (event : StreamEvent) : ResponsesToClaudeStreamState :=
  { s.setBlock i (block.withMetadata event) with
    byOutputIndex :=
      match event.outputIndex with
      | some index => Function.update s.byOutputIndex index (some i)
      | none => s.byOutputIndex
    byItemID :=
      if responseStreamEventItemID event ≠ "" then
        Function.update s.byItemID (responseStreamEventItemID event) (some i)
      else s.byItemID
    lastByKind := Function.update s.lastByKind block.kind (some i) }

/-- `ensureBlock`, the block of the event. -/
def chooseBlock : Nat × ResponsesToClaudeStreamState :=
  match (s.findBlock event).or (s.lastBlock event kind) with
  | some i => (i, s)
  | none => (s.blocks.length, s.addBlock kind)

def ensureBlock : Except ClaudeStreamError (Nat × ResponsesToClaudeStreamState) :=
  let chosen := s.chooseBlock event kind
  match chosen.2.blocks[chosen.1]? with
  | some block =>
    if block.kind ≠ kind then .error (.changedKind block.kind kind)
    else .ok (chosen.1, chosen.2.applyBlockMetadata chosen.1 block event)
  | none => .ok chosen

def startBlock : ResponsesToClaudeStreamState :=
  match s.blocks[i]? with
  | none => s
  | some block =>
    if block.started ∨ block.stopped then s
    else
      match block.content with
      | none => s
      | some content =>
        let s := { s with sawToolCall := s.sawToolCall || content.kind = BlockKind.toolUse }
        ((s.setBlock i { block with started := true }).ensureMessageStart).send
          (.contentBlockStart block.index content)

/-- `flushBlock`, after the start of the block. -/
def sendRest : ResponsesToClaudeStreamState :=
  match s.blocks[i]? with
  | none => s
  | some block =>
    if ¬ block.started ∨ block.value.length ≤ block.sentBytes then s
    else
      (s.setBlock i { block with sentBytes := block.value.length }).send
        (.contentBlockDelta block.index (.ofKind block.kind (block.value.drop block.sentBytes)))

def isStopped : Bool := s.blocks[i]?.any (·.stopped)

def flushBlock : ResponsesToClaudeStreamState :=
  if s.isStopped i then s else (s.startBlock i).sendRest i

/-- `stopBlock`, after the flush. -/
def closeBlock : ResponsesToClaudeStreamState :=
  match s.blocks[i]? with
  | none => s
  | some block =>
    if ¬ block.started then s
    else (s.setBlock i { block with stopped := true }).send (.contentBlockStop block.index)

def stopBlock : ResponsesToClaudeStreamState :=
  if s.isStopped i then s else ((s.flushBlock i).startBlock i).closeBlock i

def extendValue (more : Bytes) : ResponsesToClaudeStreamState :=
  match s.blocks[i]? with
  | none => s
  | some block => s.setBlock i { block with value := block.value ++ more }

def appendDelta (delta : Bytes) : ResponsesToClaudeStreamState :=
  if s.isStopped i ∨ delta = [] then s else (s.extendValue i delta).flushBlock i

/-- What `mergeFinalValue` adds: a final value that does not extend the current one
    is ignored. -/
def finalValueRest (current finalValue : Bytes) : Bytes :=
  if current = [] then finalValue
  else if current <+: finalValue then finalValue.drop current.length
  else []

def mergeFinalValue (finalValue : Bytes) : ResponsesToClaudeStreamState :=
  if s.isStopped i then s
  else
    (s.extendValue i (finalValueRest ((s.blocks[i]?.map (·.value)).getD []) finalValue)).flushBlock i

/-! ## Annotations -/

/-- The annotations of `appendAnnotations` that are new, and the count after them. -/
def newAnnotations (block : ClaudeStreamBlock) (annotations : List (Option Annotation))
    (snapshot : Bool) : Option (List (Option Annotation) × Nat) :=
  if annotations = [] then none
  else if ¬ snapshot then some (annotations, block.annotationCount + annotations.length)
  else if annotations.length ≤ block.annotationCount then none
  else some (annotations.drop block.annotationCount, annotations.length)

def appendAnnotations
    (annotations : List (Option Annotation)) (snapshot : Bool) : ResponsesToClaudeStreamState :=
  match s.blocks[i]? with
  | none => s
  | some block =>
    if block.kind ≠ .text ∨ block.stopped then s
    else
      match newAnnotations block annotations snapshot with
      | none => s
      | some (remaining, count) =>
        let s := s.setBlock i { block with annotationCount := count }
        let citations := responsesAnnotationsToClaude remaining block.value
        if citations = [] then s
        else
          citations.foldl (fun s citation =>
            s.send (.contentBlockDelta block.index (.citations citation))) (s.startBlock i)

/-! ## Items -/

variable (item : ResponsesOutput)

def itemKind : Option BlockKind :=
  match item.type with
  | .reasoning => some .thinking
  | .message => if item.role ≠ "" ∧ item.role ≠ "assistant" then none else some .text
  | .functionCall | .customToolCall => some .toolUse
  | _ => none

def outputTexts : List OutputContent :=
  item.content.filter (·.type = "output_text")

/-- `applyOutputItem`, the value of the item. -/
def applyItemValue : ResponsesToClaudeStreamState :=
  match kind with
  | .thinking => s.mergeFinalValue i (reasoningOutputText item)
  | .text =>
    (s.mergeFinalValue i ((outputTexts item).map (·.text)).flatten).appendAnnotations i
      ((outputTexts item).map (·.annotations)).flatten true
  | .toolUse => s.mergeFinalValue i item.arguments

def applyOutputItem (stop : Bool) : Except ClaudeStreamError ResponsesToClaudeStreamState :=
  match event.item with
  | none => .ok s
  | some item =>
    match itemKind item with
    | none => .ok s
    | some kind =>
      (s.ensureBlock event kind).bind fun ensured =>
        let s := ensured.2.applyItemValue ensured.1 kind item
        .ok (if stop then s.stopBlock ensured.1 else s)

/-- The events `finish` makes of the items of a response. -/
def itemEvents (output : List ResponsesOutput) : List StreamEvent :=
  output.mapIdx fun index item =>
    { type := .other "", outputIndex := some (index : Int), itemID := item.id, item := some item }

/-- `finish`, after the items. -/
def endMessage (response : Option ResponsesResponse) : ResponsesToClaudeStreamState :=
  let s := ((List.range s.blocks.length).foldl stopBlock s).ensureMessageStart
  { (s.send (.messageDelta (responsesClaudeStopReason response s.sawToolCall))).send .messageStop with
    done := true }

def finish (response : Option ResponsesResponse) :
    Except ClaudeStreamError ResponsesToClaudeStreamState :=
  if s.done then .ok s
  else
    let s := s.applyResponseMetadata response
    (((response.map (itemEvents ·.output)).getD []).foldlM (applyOutputItem · · true) s).bind fun s =>
      .ok (s.endMessage response)

/-! ## Chunks -/

/-- A delta of reasoning, set off from the part before it. -/
def appendReasoningDelta (delta : Bytes) : ResponsesToClaudeStreamState :=
  match s.blocks[i]? with
  | none => s
  | some block =>
    if block.needsReasoningBreak ∧ delta ≠ [] then
      (s.setBlock i { block with needsReasoningBreak := false }).appendDelta i
        (separatedResponsesDelta delta)
    else s.appendDelta i delta

def endReasoningPart : ResponsesToClaudeStreamState :=
  match s.blocks[i]? with
  | none => s
  | some block =>
    if block.value = [] then s else s.setBlock i { block with needsReasoningBreak := true }

def mergeOptional (finalValue : Option Bytes) : ResponsesToClaudeStreamState :=
  match finalValue with
  | some value => s.mergeFinalValue i value
  | none => s

/-- `ConvertChunk`, by the type of the event. -/
def convertEvent : Except ClaudeStreamError ResponsesToClaudeStreamState :=
  match event.type with
  | .created => .ok s.ensureMessageStart
  | .reasoningSummaryDelta | .reasoningTextDelta =>
    (s.ensureBlock event .thinking).bind fun ensured =>
      .ok (ensured.2.appendReasoningDelta ensured.1 event.delta)
  | .reasoningSummaryDone | .reasoningTextDone =>
    (s.ensureBlock event .thinking).bind fun ensured =>
      .ok ((ensured.2.mergeOptional ensured.1 event.text).endReasoningPart ensured.1)
  | .outputTextDelta =>
    (s.ensureBlock event .text).bind fun ensured =>
      .ok (ensured.2.appendDelta ensured.1 event.delta)
  | .outputTextDone =>
    (s.ensureBlock event .text).bind fun ensured =>
      .ok (ensured.2.mergeOptional ensured.1 event.text)
  | .outputTextAnnotationAdded =>
    (s.ensureBlock event .text).bind fun ensured =>
      match event.annotation with
      | .absent | .invalid => .error .annotationInvalid
      | .value a => .ok (ensured.2.appendAnnotations ensured.1 [a] false)
  | .outputItemAdded => s.applyOutputItem event false
  | .outputItemDone => s.applyOutputItem event true
  | .functionArgsDelta | .customToolInputDelta =>
    (s.ensureBlock event .toolUse).bind fun ensured =>
      .ok (ensured.2.appendDelta ensured.1 event.delta)
  | .functionArgsDone | .customToolInputDone =>
    (s.ensureBlock event .toolUse).bind fun ensured =>
      .ok (ensured.2.mergeOptional ensured.1 event.arguments)
  | .completed | .done | .incomplete => s.finish event.response
  | .failed | .responseError => .error (.streamError (trimSpace event.message) event.type)
  | _ => .ok s

def convertChunk : Except ClaudeStreamError ResponsesToClaudeStreamState :=
  if s.done then .ok s else (s.applyResponseMetadata event.response).convertEvent event

/-- `Finalize`, which has no response to fail on. -/
def finalize : ResponsesToClaudeStreamState :=
  if s.done then s else s.endMessage none

end ResponsesToClaudeStreamState

end NewApi.Convert
