/-
  NewApi.Convert.Responses

  The values the stream converters read and write: the events of a Responses
  stream (`dto.ResponsesStreamResponse`) and the chunks of a chat stream
  (`dto.ChatCompletionsStreamResponse`).

  Texts and arguments are bytes, as a Go string is: the converters cut them by
  length.  `Arguments` of an item is what `ResponsesArgumentsString` reads from it,
  `Status` of a response what `responseStatusString` does.  The usage is not here:
  `NewApi.Convert.UsageStream` follows it on its own.
-/

import NewApi.Subscription.Store
import Mathlib.Algebra.GroupWithZero.Nat

namespace NewApi.Convert

abbrev Bytes := List UInt8

/-! ## Items and responses -/

/-- The types of output items. -/
inductive OutputType where
  | message | reasoning | functionCall | customToolCall
  | webSearchCall | mcpCall | codeInterpreterCall
  | other (name : String)
deriving DecidableEq

/-- `status` of an item or a response. -/
inductive Status where
  | inProgress | completed | incomplete | failed
  | other (name : String)
deriving DecidableEq

/-- The keys of a `url_citation` object that are read. -/
structure UrlCitation where
  type : Option String := none
  url : String := ""
  title : String := ""
  citedText : String := ""
  encryptedIndex : String := ""
  startIndex : Option Int := none
  endIndex : Option Int := none
deriving DecidableEq

/-- An annotation: its own keys, and the object under `url_citation` if there is
    one. -/
structure Annotation extends UrlCitation where
  urlCitation : Option UrlCitation := none
deriving DecidableEq

/-- `ResponsesOutputContent`.  An annotation that is no object is `none`. -/
structure OutputContent where
  type : String := "output_text"
  text : Bytes := []
  annotations : List (Option Annotation) := []

/-- `ResponsesReasoningSummaryPart` -/
structure SummaryPart where
  type : String := "summary_text"
  text : Bytes := []

structure ResponsesOutput where
  type : OutputType
  id : String := ""
  status : Status := .other ""
  role : String := ""
  content : List OutputContent := []
  summary : List SummaryPart := []
  callId : String := ""
  name : String := ""
  arguments : Bytes := []
  action : Bytes := []
  serverLabel : String := ""
  output : Bytes := []
  itemError : String := ""

/-- `OpenAIResponsesResponse`, with `IncompleteDetails.Reason`. -/
structure ResponsesResponse where
  id : String := ""
  createdAt : Int := 0
  status : Status := .other ""
  incompleteDetails : Option String := none
  error : Option (String × String) := none
  model : String := ""
  output : List ResponsesOutput := []

/-! ## Responses events -/

/-- The phases of a hosted call that have an event of their own. -/
inductive HostedPhase where
  | inProgress | searching | completed | failed
deriving DecidableEq

/-- `event.Type` -/
inductive EventType where
  | created | completed | done | incomplete | failed
  /-- `response.error` -/
  | responseError
  /-- `error` -/
  | error
  | outputTextDelta | outputTextDone | outputTextAnnotationAdded
  | outputItemAdded | outputItemDone
  | functionArgsDelta | functionArgsDone
  | customToolInputDelta | customToolInputDone
  | reasoningSummaryDelta | reasoningSummaryDone
  | reasoningTextDelta | reasoningTextDone
  | mcpArgumentsDelta | mcpArgumentsDone
  | hosted (type : OutputType) (phase : HostedPhase)
  | other (name : String)
deriving DecidableEq

/-- The raw `annotation` of an event, as JSON decodes it. -/
inductive RawAnnotation where
  | absent
  | invalid
  | value (a : Option Annotation)

/-- `ResponsesStreamResponse` -/
structure StreamEvent where
  type : EventType
  response : Option ResponsesResponse := none
  code : String := ""
  message : String := ""
  param : String := ""
  delta : Bytes := []
  arguments : Option Bytes := none
  name : String := ""
  text : Option Bytes := none
  item : Option ResponsesOutput := none
  sequenceNumber : Option Nat := none
  annotation : RawAnnotation := .absent
  annotationIndex : Option Nat := none
  outputIndex : Option Int := none
  contentIndex : Option Int := none
  summaryIndex : Option Int := none
  itemID : String := ""
  part : Option SummaryPart := none

/-! ## Chat chunks -/

/-- `ToolCallResponse` -/
structure ToolCall where
  index : Option Int := none
  id : String := ""
  name : String := ""
  arguments : Bytes := []

/-- The raw `annotations` of a delta, as JSON decodes them into a list of objects. -/
inductive RawAnnotations where
  | absent
  | invalid
  | list (annotations : List Annotation)
deriving DecidableEq

/-- `ChatCompletionsStreamResponseChoiceDelta` -/
structure ChatDelta where
  role : String := ""
  content : Option Bytes := none
  reasoningContent : Option Bytes := none
  reasoning : Option Bytes := none
  annotations : RawAnnotations := .absent
  toolCalls : List ToolCall := []

def ChatDelta.getContentString (d : ChatDelta) : Bytes := d.content.getD []

def ChatDelta.getReasoningContent (d : ChatDelta) : Bytes :=
  (d.reasoningContent.or d.reasoning).getD []

/-- `ChatCompletionsStreamResponseChoice` -/
structure ChatChoice where
  delta : ChatDelta := {}
  finishReason : Option String := none

/-- `ChatCompletionsStreamResponse` -/
structure ChatChunk where
  id : String := ""
  model : String := ""
  created : Int := 0
  choices : List ChatChoice := []

end NewApi.Convert
