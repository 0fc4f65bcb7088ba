/-
  NewApi.Convert.ResponsesRead

  What the converters from Responses read of events and responses
  (`relaykit/relayconvert/internal/oai_responses/to_oai_chat_resp.go`).
-/

import NewApi.Convert.Responses

namespace NewApi.Convert

open NewApi.Subscription (trimSpace)

def newline : UInt8 := 10

def responseStreamEventItemID (event : StreamEvent) : String :=
  match event.item with
  | some item => if trimSpace item.id ≠ "" then trimSpace item.id else trimSpace event.itemID
  | none => trimSpace event.itemID

def isResponsesToolOutputType (type : OutputType) : Bool :=
  type = .functionCall || type = .customToolCall

def leadingNewlines (text : Bytes) : Nat := ((text.take 2).takeWhile (· = newline)).length

def appendSeparatedText (builder text : Bytes) : Bytes :=
  if text = [] then builder
  else if builder = [] then text
  else
    let missing := 2 - leadingNewlines builder.reverse - leadingNewlines text
    builder ++ List.replicate missing newline ++ text

def reasoningOutputText (output : ResponsesOutput) : Bytes :=
  if output.content.any (·.text ≠ []) then
    (output.content.map (·.text)).foldl appendSeparatedText []
  else (output.summary.map (·.text)).foldl appendSeparatedText []

/-- `ResponsesFinishReasonFromStatus`; `none` when the status does not say. -/
def responsesFinishReasonFromStatus (response : ResponsesResponse) : Option String :=
  if response.status ≠ .incomplete then none
  else if trimSpace (response.incompleteDetails.getD "") = "content_filter" then some "content_filter"
  else some "length"

def ensureIncompleteResponse (response : Option ResponsesResponse) : ResponsesResponse :=
  let response := response.getD {}
  if response.status = .other "" then { response with status := .incomplete } else response

end NewApi.Convert
