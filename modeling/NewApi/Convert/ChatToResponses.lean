/-
  NewApi.Convert.ChatToResponses

  The converter from a chat stream to a Responses stream
  (`relaykit/relayconvert/internal/oai_chat/to_oai_responses_stream_resp.go`).

  A method of the source returns the events it makes; here it appends them to
  `sent`, which nothing reads, so that `sent` is what all calls so far returned.
  A Go map is an association list, and a pointer into it a lookup of its key.

  Of a hosted call's payloads only their JSON is looked at, by the functions of
  `HostedCodec`.
-/

import NewApi.Convert.Responses
import Mathlib.Data.List.AList
import Mathlib.Data.List.Sort

namespace NewApi.Convert

open NewApi.Subscription (trimSpace)

/-! ## State -/

/-- `chatToResponsesStreamTool` -/
structure StreamTool where
  chatIndex : Int
  outputIndex : Int
  itemID : String
  callID : String
  name : String
  arguments : Bytes := []
  done : Bool := false

/-- `callID` -/
def StreamTool.callIDOrItem (t : StreamTool) : String := if t.callID = "" then t.itemID else t.callID

/-- `chatToResponsesHostedTool` -/
structure HostedTool where
  outputIndex : Int
  output : ResponsesOutput
  done : Bool := false

/-- `chatToResponsesOutputRef` -/
inductive OutputRef where
  | message
  | reasoning
  | tool (toolIndex : Int)
  | hosted (hostedID : String)
deriving DecidableEq

structure ChatToResponsesStreamState where
  id : String
  model : String
  created : Int
  emitSequenceNumber : Bool
  status : Status := .completed
  incompleteDetails : Option String := none
  sentCreated : Bool := false
  textOutputIndex : Int := -1
  textStarted : Bool := false
  textDone : Bool := false
  reasoningIndex : Int := -1
  reasoningStarted : Bool := false
  reasoningDone : Bool := false
  finalized : Bool := false
  nextSequenceNumber : Nat := 0
  nextOutputIndex : Nat := 0
  toolsByIndex : AList fun _ : Int => StreamTool := ∅
  hostedByID : AList fun _ : String => HostedTool := ∅
  outputOrder : List OutputRef := []
  text : Bytes := []
  annotations : List Annotation := []
  reasoning : Bytes := []
  /-- The events returned so far. -/
  sent : List StreamEvent := []

/-- `NewChatToResponsesStreamState`, at the time `now`, with `EmitSequenceNumber`. -/
def newChatToResponsesStreamState (id model : String) (now : Int) (emitSequenceNumber : Bool) :
    ChatToResponsesStreamState :=
  { id, model, created := now, emitSequenceNumber }

/-- The errors of a chunk. -/
inductive ChatChunkError where
  /-- `invalid Chat annotations` -/
  | invalidAnnotations
  /-- `tool-call stream index %d received data after completion` -/
  | dataAfterCompletion (chatIndex : Int)
  /-- `tool-call stream index %d changed id from %q to %q` -/
  | changedId (chatIndex : Int) (old new : String)
  /-- `tool-call stream index %d changed name from %q to %q` -/
  | changedName (chatIndex : Int) (old new : String)
deriving DecidableEq

namespace ChatToResponsesStreamState

/-! ## Events and items -/

variable (s : ChatToResponsesStreamState)

def numbered (payload : StreamEvent) : StreamEvent :=
  if s.emitSequenceNumber then { payload with sequenceNumber := some s.nextSequenceNumber }
  else payload

def event (payload : StreamEvent) : ChatToResponsesStreamState :=
  { s with
    nextSequenceNumber :=
      if s.emitSequenceNumber then s.nextSequenceNumber + 1 else s.nextSequenceNumber
    sent := s.sent ++ [s.numbered payload] }

def createdResponse : ResponsesResponse where
  id := s.id
  createdAt := s.created
  status := .inProgress
  model := s.model

def ensureCreated : ChatToResponsesStreamState :=
  if s.sentCreated then s
  else { s with sentCreated := true }.event { type := .created, response := some s.createdResponse }

/-- `nextIndex` and `nextHostedIndex`: the index is `nextOutputIndex` before. -/
def nextIndex (ref : OutputRef) : ChatToResponsesStreamState :=
  { s with nextOutputIndex := s.nextOutputIndex + 1, outputOrder := s.outputOrder ++ [ref] }

def outputStatus : Status :=
  if s.status = .incomplete ∨ s.status = .failed then .incomplete else .completed

def messageID : String := s.id ++ "_msg_0"

def reasoningID : String := s.id ++ "_reasoning_0"

def messageOutput (status : Status) : ResponsesOutput where
  type := .message
  id := s.messageID
  status := status
  role := "assistant"
  content := [{ text := s.text, annotations := s.annotations.map some }]

def reasoningOutput (status : Status) : ResponsesOutput where
  type := .reasoning
  id := s.reasoningID
  status := status
  summary := [{ text := s.reasoning }]

end ChatToResponsesStreamState

def toolOutput (tool : StreamTool) (status : Status) : ResponsesOutput where
  type := .functionCall
  id := tool.itemID
  status := status
  callId := tool.callIDOrItem
  name := tool.name
  arguments := tool.arguments

/-- `hostedTerminalEvent`; a type without events of its own has none. -/
def hostedTerminalEvent (type : OutputType) (failed : Bool) : Option HostedPhase :=
  match type, failed with
  | .webSearchCall, false => some .completed
  | .mcpCall, false => some .completed
  | .mcpCall, true => some .failed
  | _, _ => none

/-- The annotation of `chatAnnotationsToResponses`: a nested citation becomes the
    annotation, with its own `type` if it has one. -/
def flattenCitation (a : Annotation) : Annotation :=
  if trimSpace (a.type.getD "") = "url_citation" then
    match a.urlCitation with
    | some citation =>
      { citation with type := citation.type.or (some "url_citation"), urlCitation := none }
    | none => a
  else a

def chatAnnotationsToResponses : RawAnnotations → Except ChatChunkError (List Annotation)
  | .absent => .ok []
  | .invalid => .error .invalidAnnotations
  | .list annotations => .ok (annotations.map flattenCitation)

def responsesStatusFromChatFinishReason (finishReason : String) : Status × Option String :=
  if trimSpace finishReason = "length" then (.incomplete, some "max_output_tokens")
  else if trimSpace finishReason = "content_filter" then (.incomplete, some "content_filter")
  else (.completed, none)

namespace ChatToResponsesStreamState

/-! ## Deltas -/

variable (s : ChatToResponsesStreamState)

def startText : ChatToResponsesStreamState :=
  if s.textStarted then s
  else
    { s.nextIndex .message with textStarted := true, textOutputIndex := s.nextOutputIndex }.event
      { type := .outputItemAdded
        outputIndex := some s.nextOutputIndex
        item := some { type := .message, id := s.messageID, status := .inProgress,
                       role := "assistant" } }

def appendTextDelta (delta : Bytes) : ChatToResponsesStreamState :=
  let s := s.startText
  { s with text := s.text ++ delta }.event
    { type := .outputTextDelta, outputIndex := some s.textOutputIndex, contentIndex := some 0
      delta := delta, itemID := s.messageID }

/-- One annotation of `appendAnnotationDelta`. -/
def annotationAdded (a : Annotation) : ChatToResponsesStreamState :=
  { s with annotations := s.annotations ++ [a] }.event
    { type := .outputTextAnnotationAdded, outputIndex := some s.textOutputIndex
      contentIndex := some 0, annotationIndex := some s.annotations.length
      annotation := .value (some a), itemID := s.messageID }

def appendAnnotationDelta (raw : RawAnnotations) :
    Except ChatChunkError ChatToResponsesStreamState :=
  (chatAnnotationsToResponses raw).bind fun annotations =>
    .ok (annotations.foldl annotationAdded s.startText)

/-- `appendReasoningDelta`, up to the delta. -/
def startReasoning : ChatToResponsesStreamState :=
  if s.reasoningStarted then s
  else
    { s.nextIndex .reasoning with
      reasoningStarted := true, reasoningIndex := s.nextOutputIndex }.event
      { type := .outputItemAdded
        outputIndex := some s.nextOutputIndex
        item := some { type := .reasoning, id := s.reasoningID, status := .inProgress } }

def appendReasoningDelta (delta : Bytes) : ChatToResponsesStreamState :=
  let s := s.startReasoning
  { s with reasoning := s.reasoning ++ delta }.event
    { type := .reasoningSummaryDelta, outputIndex := some s.reasoningIndex, summaryIndex := some 0
      delta := delta, itemID := s.reasoningID }

variable (chatIndex : Int)

def setTool (tool : StreamTool) : ChatToResponsesStreamState :=
  { s with toolsByIndex := s.toolsByIndex.insert chatIndex tool }

/-- The tool a first delta of its index makes. -/
def newTool (toolCall : ToolCall) : StreamTool where
  chatIndex := chatIndex
  outputIndex := s.nextOutputIndex
  itemID :=
    if trimSpace toolCall.id = "" then s.id ++ "_call_" ++ toString chatIndex
    else trimSpace toolCall.id
  callID := trimSpace toolCall.id
  name := trimSpace toolCall.name

/-- `appendToolCallDelta`, up to the lookup of the tool. -/
def startTool (toolCall : ToolCall) : StreamTool × ChatToResponsesStreamState :=
  match s.toolsByIndex.lookup chatIndex with
  | some tool => (tool, s)
  | none =>
    let tool := s.newTool chatIndex toolCall
    (tool, ((s.nextIndex (.tool chatIndex)).setTool chatIndex tool).event
      { type := .outputItemAdded
        outputIndex := some tool.outputIndex
        itemID := tool.itemID
        item := some { type := .functionCall, id := tool.itemID, status := .inProgress,
                       callId := tool.callIDOrItem, name := tool.name } })

/-- `appendToolCallDelta`, the id and the name. -/
def identifyTool (tool : StreamTool) (toolCall : ToolCall) : Except ChatChunkError StreamTool :=
  let incomingID := trimSpace toolCall.id
  let incomingName := trimSpace toolCall.name
  if tool.done then .error (.dataAfterCompletion tool.chatIndex)
  else if incomingID ≠ "" ∧ tool.callID ≠ "" ∧ tool.callID ≠ incomingID then
    .error (.changedId tool.chatIndex tool.callID incomingID)
  else if incomingName ≠ "" ∧ tool.name ≠ "" ∧ tool.name ≠ incomingName then
    .error (.changedName tool.chatIndex tool.name incomingName)
  else .ok { tool with
    callID := if incomingID ≠ "" then incomingID else tool.callID
    name := if incomingName ≠ "" then incomingName else tool.name }

/-- `appendToolCallDelta`, the arguments. -/
def addArguments (tool : StreamTool) (arguments : Bytes) : ChatToResponsesStreamState :=
  if arguments = [] then s.setTool chatIndex tool
  else
    (s.setTool chatIndex { tool with arguments := tool.arguments ++ arguments }).event
      { type := .functionArgsDelta, outputIndex := some tool.outputIndex, itemID := tool.itemID
        delta := arguments }

def appendToolCallDelta (toolCall : ToolCall) : Except ChatChunkError ChatToResponsesStreamState :=
  let chatIndex := toolCall.index.getD 0
  let started := s.startTool chatIndex toolCall
  (identifyTool started.1 toolCall).bind fun tool =>
    .ok (started.2.addArguments chatIndex tool toolCall.arguments)

/-! ## Ends of items -/

variable (status : Status)

/-- `doneDeltaEvents`, the message. -/
def closeText : ChatToResponsesStreamState :=
  if s.textStarted ∧ ¬ s.textDone then
    ({ s with textDone := true }.event
      { type := .outputTextDone, outputIndex := some s.textOutputIndex, contentIndex := some 0
        itemID := s.messageID
        text := if s.emitSequenceNumber then some s.text else none }).event
      { type := .outputItemDone, outputIndex := some s.textOutputIndex
        item := some (s.messageOutput status) }
  else s

/-- `doneDeltaEvents`, the reasoning. -/
def closeReasoning : ChatToResponsesStreamState :=
  if s.reasoningStarted ∧ ¬ s.reasoningDone then
    ({ s with reasoningDone := true }.event
      { type := .reasoningSummaryDone, outputIndex := some s.reasoningIndex, summaryIndex := some 0
        itemID := s.reasoningID
        text := if s.emitSequenceNumber then some s.reasoning else none
        part := if s.emitSequenceNumber then none else some { text := s.reasoning } }).event
      { type := .outputItemDone, outputIndex := some s.reasoningIndex
        item := some (s.reasoningOutput status) }
  else s

/-- The indexes of `sortedTools`. -/
def sortedTools : List Int :=
  s.toolsByIndex.keys.insertionSort (· ≤ ·)

/-- `doneDeltaEvents`, one tool. -/
def closeTool (s : ChatToResponsesStreamState) (chatIndex : Int) : ChatToResponsesStreamState :=
  match s.toolsByIndex.lookup chatIndex with
  | some tool =>
    if tool.done then s
    else
      ((s.setTool chatIndex { tool with done := true }).event
        { type := .functionArgsDone, outputIndex := some tool.outputIndex, itemID := tool.itemID
          arguments := if s.emitSequenceNumber then some tool.arguments else none
          name := if s.emitSequenceNumber then tool.name else "" }).event
        { type := .outputItemDone, outputIndex := some tool.outputIndex
          item := some (toolOutput tool status) }
  | none => s

def setHosted (id : String) (tool : HostedTool) : ChatToResponsesStreamState :=
  { s with hostedByID := s.hostedByID.insert id tool }

/-- The lifecycle event at the end of a hosted call. -/
def hostedEnd (tool : HostedTool) (itemID : String) (failed : Bool) : ChatToResponsesStreamState :=
  match hostedTerminalEvent tool.output.type failed with
  | some phase =>
    s.event { type := .hosted tool.output.type phase, outputIndex := some tool.outputIndex
              itemID := itemID }
  | none => s

/-- A hosted call that has no result when the stream ends. -/
def abandonHosted (tool : HostedTool) (failed : Bool) : HostedTool :=
  { tool with
    done := true
    output :=
      if ¬ failed then { tool.output with status := .incomplete }
      else if tool.output.type = .mcpCall then
        { tool.output with
          status := .failed, output := []
          itemError := "provider stream failed before hosted-tool result" }
      else { tool.output with status := .failed } }

/-- `doneDeltaEvents`, one reference of `outputOrder`. -/
def closeHosted (ref : OutputRef) : ChatToResponsesStreamState :=
  match ref with
  | .hosted id =>
    match s.hostedByID.lookup id with
    | some tool =>
      if tool.done then s
      else
        let failed : Bool := s.status = .failed
        let s := if failed then s else { s with status := .incomplete }
        let tool := abandonHosted tool failed
        let s := s.setHosted id tool
        (if failed then s.hostedEnd tool tool.output.id true else s).event
          { type := .outputItemDone, outputIndex := some tool.outputIndex
            itemID := tool.output.id, item := some tool.output }
    | none => s
  | _ => s

def doneDeltaEvents : ChatToResponsesStreamState :=
  let status := s.outputStatus
  let s := (s.closeText status).closeReasoning status
  let s := s.sortedTools.foldl (closeTool status) s
  s.outputOrder.foldl closeHosted s

def applyFinishReason (finishReason : String) : ChatToResponsesStreamState :=
  { s with
    status := (responsesStatusFromChatFinishReason finishReason).1
    incompleteDetails := (responsesStatusFromChatFinishReason finishReason).2 }

/-! ## Chunks -/

def finishChoice (finishReason : Option String) : ChatToResponsesStreamState :=
  match finishReason with
  | some reason => if trimSpace reason = "" then s else (s.applyFinishReason reason).doneDeltaEvents
  | none => s

/-- The reasoning and the text of a delta, unless they are empty. -/
def appendTexts (delta : ChatDelta) : ChatToResponsesStreamState :=
  let s :=
    if delta.getReasoningContent = [] then s else s.appendReasoningDelta delta.getReasoningContent
  if delta.getContentString = [] then s else s.appendTextDelta delta.getContentString

def appendAnnotations (delta : ChatDelta) : Except ChatChunkError ChatToResponsesStreamState :=
  if delta.annotations = .absent then .ok s else s.appendAnnotationDelta delta.annotations

/-- `ChatCompletionsStreamChunkToResponsesEvents`, one choice. -/
def convertChoice (choice : ChatChoice) : Except ChatChunkError ChatToResponsesStreamState := do
  let s ← (s.appendTexts choice.delta).appendAnnotations choice.delta
  let s ← choice.delta.toolCalls.foldlM appendToolCallDelta s
  return s.finishChoice choice.finishReason

/-- What a chunk fills in, and the first event. -/
def beginChunk (chunk : ChatChunk) : ChatToResponsesStreamState :=
  { s with
    id := if s.id = "" then chunk.id else s.id
    model := if s.model = "" then chunk.model else s.model
    created := if s.created = 0 then chunk.created else s.created }.ensureCreated

/-- `ChatCompletionsStreamChunkToResponsesEvents` -/
def convertChunk (chunk : ChatChunk) : Except ChatChunkError ChatToResponsesStreamState :=
  chunk.choices.foldlM convertChoice (s.beginChunk chunk)

/-! ## The end of the stream -/

/-- The item of `finalResponse` at a reference. -/
def outputItem : OutputRef → Option ResponsesOutput
  | .message => some (s.messageOutput status)
  | .reasoning => some (s.reasoningOutput status)
  | .tool chatIndex => (s.toolsByIndex.lookup chatIndex).map (toolOutput · status)
  | .hosted id => (s.hostedByID.lookup id).map (·.output)

def finalResponse : ResponsesResponse where
  id := s.id
  createdAt := s.created
  status := s.status
  incompleteDetails := s.incompleteDetails
  model := s.model
  output := s.outputOrder.filterMap (s.outputItem s.outputStatus)

/-- `FinalizeChatCompletionsStreamToResponses` -/
def finalize : ChatToResponsesStreamState :=
  if s.finalized then s
  else
    let s := { s.doneDeltaEvents with finalized := true }
    s.event { type := if s.status = .incomplete then .incomplete else .completed
              response := some s.finalResponse }

def fail (code message param : String) : ChatToResponsesStreamState :=
  if s.finalized then s
  else
    let code := if trimSpace code = "" then "server_error" else trimSpace code
    let message :=
      if trimSpace message = "" then "upstream response stream failed" else trimSpace message
    let s := { s with status := .failed }.ensureCreated
    let s := { s.doneDeltaEvents with finalized := true }
    let s := s.event { type := .error, code := code, message := message, param := param }
    s.event { type := .failed, response := some { s.finalResponse with error := some (code, message) } }

end ChatToResponsesStreamState

/-! ## Hosted calls -/

/-- What is read of a hosted call's payload. -/
structure HostedCodec where
  /-- `kitutil.Valid` -/
  valid : Bytes → Bool
  /-- `kitutil.GetJsonType(value) == "string"` -/
  isString : Bytes → Bool
  /-- `kitutil.Marshal` of a string -/
  quote : Bytes → Bytes
  /-- `dto.NormalizeResponsesWebSearchAction` -/
  normalizeWebSearchAction : Bytes → Option Bytes

structure HostedToolStreamStart where
  type : OutputType
  id : String
  name : String := ""
  action : Bytes := []
  caller : String := ""
  serverLabel : String := ""

/-- `HostedToolStreamResult`; an empty type is `none`. -/
structure HostedToolStreamResult where
  type : Option OutputType := none
  id : String
  result : Bytes := []
  errorCode : String := ""
  isError : Bool := false

/-- The errors of a hosted call. -/
inductive HostedError where
  | missingId
  | duplicateId (id : String)
  | unsupportedType (type : OutputType)
  | callerProvenance (type : OutputType)
  | invalidAction
  | missingContainer
  | missingNameOrLabel
  | invalidArguments
  | unknownCall (id : String)
  | duplicateResult (id : String)
  | changedType (result call : OutputType)
  | invalidResult

section
variable (codec : HostedCodec)

/-- `hostedJSONString`, as `ResponsesArgumentsString` reads it. -/
def hostedJSONString (value : Bytes) : Option Bytes :=
  if value = [] then some [] else if codec.valid value then some value else none

def hostedResultString (value : Bytes) : Option Bytes :=
  if value = [] then some (codec.quote [])
  else if ¬ codec.valid value then none
  else if codec.isString value then some value
  else some (codec.quote value)

/-- The item `StartHostedTool` makes. -/
def hostedOutput (start : HostedToolStreamStart) : Except HostedError ResponsesOutput :=
  let output : ResponsesOutput :=
    { type := start.type, id := trimSpace start.id, status := .inProgress }
  match start.type with
  | .webSearchCall =>
    match codec.normalizeWebSearchAction start.action with
    | some action => .ok { output with action := action }
    | none => .error .invalidAction
  | .mcpCall =>
    if trimSpace start.name = "" ∨ trimSpace start.serverLabel = "" then .error .missingNameOrLabel
    else match hostedJSONString codec start.action with
      | some arguments =>
        .ok { output with
          name := start.name, serverLabel := start.serverLabel, arguments := arguments }
      | none => .error .invalidArguments
  | .codeInterpreterCall => .error .missingContainer
  | _ => .ok output

namespace ChatToResponsesStreamState

variable (s : ChatToResponsesStreamState)

/-- The checks of `StartHostedTool`. -/
def checkHostedStart (start : HostedToolStreamStart) : Except HostedError ResponsesOutput :=
  let caller := trimSpace start.caller
  if trimSpace start.id = "" then .error .missingId
  else if (s.hostedByID.lookup (trimSpace start.id)).isSome then
    .error (.duplicateId (trimSpace start.id))
  else if start.type ≠ .webSearchCall ∧ start.type ≠ .mcpCall then
    .error (.unsupportedType start.type)
  else if caller ≠ "" ∧ caller ≠ "null" then .error (.callerProvenance start.type)
  else hostedOutput codec start

/-- The hosted call is announced, with empty arguments. -/
def addHosted (output : ResponsesOutput) : ChatToResponsesStreamState :=
  let index : Int := s.nextOutputIndex
  let s := (s.nextIndex (.hosted output.id)).setHosted output.id { outputIndex := index, output }
  s.ensureCreated.event
    { type := .outputItemAdded, outputIndex := some index, itemID := output.id
      item := some (if output.type = .mcpCall then { output with arguments := [] } else output) }

/-- What follows the announcement of a hosted call. -/
def describeHosted (output : ResponsesOutput) (index : Int) : ChatToResponsesStreamState :=
  let s := s.event
    { type := .hosted output.type .inProgress, outputIndex := some index, itemID := output.id }
  let s :=
    if output.type = .webSearchCall then
      s.event
        { type := .hosted output.type .searching, outputIndex := some index, itemID := output.id }
    else s
  if output.type = .mcpCall then
    (s.event
      { type := .mcpArgumentsDelta, outputIndex := some index, itemID := output.id
        delta := output.arguments }).event
      { type := .mcpArgumentsDone, outputIndex := some index, itemID := output.id
        arguments := some output.arguments }
  else s

/-- `StartHostedTool`: the error it returns, and the state it leaves. -/
def startHostedTool (start : HostedToolStreamStart) :
    Option HostedError × ChatToResponsesStreamState :=
  match s.checkHostedStart codec start with
  | .error e => (some e, s)
  | .ok output => (none, (s.addHosted output).describeHosted output s.nextOutputIndex)

/-- The hosted call after its result.  An error in the result leaves it completed
    but not done. -/
def completeHostedOutput (tool : HostedTool) (result : HostedToolStreamResult) :
    Option HostedError × HostedTool :=
  let failed : Bool := result.isError || trimSpace result.errorCode ≠ ""
  let output := { tool.output with status := .completed }
  match output.type with
  | .codeInterpreterCall => (some .missingContainer, { tool with output := output })
  | .mcpCall =>
    match hostedResultString codec result.result with
    | none => (some .invalidResult, { tool with output := output })
    | some value =>
      if failed then
        (none, { tool with
          done := true
          output := { output with
            status := .failed, output := []
            itemError :=
              if result.errorCode = "" then "hosted tool execution failed"
              else result.errorCode } })
      else (none, { tool with done := true, output := { output with output := value } })
  | _ =>
    (none, { tool with
      done := true
      output := if failed then { output with status := .failed } else output })

/-- `CompleteHostedTool`: the error it returns, and the state it leaves. -/
def completeHostedTool (result : HostedToolStreamResult) :
    Option HostedError × ChatToResponsesStreamState :=
  let id := trimSpace result.id
  match s.hostedByID.lookup id with
  | none => (some (.unknownCall id), s)
  | some tool =>
    if tool.done then (some (.duplicateResult id), s)
    else if ∃ type ∈ result.type, type ≠ tool.output.type then
      (some (.changedType (result.type.getD tool.output.type) tool.output.type), s)
    else
      match completeHostedOutput codec tool result with
      | (some e, tool) => (some e, s.setHosted id tool)
      | (none, tool) =>
        let failed : Bool := result.isError || trimSpace result.errorCode ≠ ""
        (none, ((s.setHosted id tool).hostedEnd tool id failed).event
          { type := .outputItemDone, outputIndex := some tool.outputIndex, itemID := id
            item := some tool.output })

end ChatToResponsesStreamState

end

end NewApi.Convert
