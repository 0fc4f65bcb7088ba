/-
  NewApi.Convert.ChatResponsesRequest

  The messages of a chat request as the items of a Responses request
  (`oai_chat/to_oai_responses_req.go`), and the messages that are read from such items
  (`oai_responses/to_oai_chat_req.go`).

  A raw JSON field is the value it encodes, `none` where it is absent.  The texts that
  `json.Marshal` and `%v` make of a value are left to `Host`.
-/

import NewApi.Convert.ChatToClaudeRequest
import NewApi.Lib.Text

namespace NewApi.ChatResponsesRequest

open NewApi.Lib NewApi.Lib.Text
open NewApi.ChatRequest (Content MediaContent MessageImageUrl)

variable {N : Type}

/-- `dto.ToolCallRequest`, with the fields of its `Function` that are read. -/
structure ToolCallRequest (N : Type) where
  id : String := ""
  type : String
  name : String
  arguments : String := ""
  custom : Option (JsonValue N) := none

/-- `dto.Message`; `toolCalls` is what `ParseToolCalls` makes of the raw field. -/
structure Message (N : Type) where
  role : String
  content : Content N := .null
  toolCalls : List (ToolCallRequest N) := []
  toolCallId : String := ""

structure Host (N : Type) where
  /-- A value that is not a string, by `json.Marshal`. -/
  marshal : JsonValue N → String
  /-- A content that is not a string, by `json.Marshal`. -/
  marshalContent : Content N → String
  /-- The text of a raw field that is not a string. -/
  rawText : JsonValue N → String
  /-- A number, an array or an object, by `Interface2String`. -/
  format : JsonValue N → String
  /-- What `json.Unmarshal` says of an array with an item that is not an object. -/
  unmarshalError : List (JsonValue N) → String

abbrev Item (N : Type) := List (String × JsonValue N)

/-! ## Chat to Responses -/

def omitEmpty (name s : String) : Item N := if s ≠ "" then [(name, .string s)] else []

def normalizeChatImageURLToString : Option MessageImageUrl → JsonValue N
  | none => .null
  | some img =>
    if img.url ≠ "" then .string img.url
    else .object ([("url", .string "")] ++ omitEmpty "detail" img.detail ++
      [("MimeType", .string img.mimeType)])

/-- A part of a content, in a message of the role. -/
def contentPart (role : String) (part : MediaContent) : JsonValue N :=
  .object <| match part.type with
  | "text" =>
    [("type", .string (if role = "assistant" then "output_text" else "input_text")),
      ("text", .string part.text)]
  | "image_url" =>
    [("type", .string "input_image"), ("image_url", normalizeChatImageURLToString part.imageUrl)]
  | "input_audio" =>
    [("type", .string "input_audio"),
      ("input_audio", part.inputAudio.elim .null fun audio =>
        .object [("data", .string audio.data), ("format", .string audio.format)])]
  | "file" =>
    [("type", .string "input_file"),
      ("file", part.file.elim .null fun file =>
        .object (omitEmpty "filename" file.fileName ++ omitEmpty "file_data" file.fileData ++
          omitEmpty "file_id" file.fileId))]
  | "video_url" =>
    [("type", .string "input_video"),
      ("video_url", part.videoUrl.elim .null fun video => .object [("url", .string video.url)])]
  | other => [("type", .string other)]

/-- The item of a tool call, if it has one. -/
def functionCallItem (call : ToolCallRequest N) : Option (Item N) :=
  if trimSpace call.id = "" then none
  else if call.type ≠ "" ∧ call.type ≠ "function" then none
  else if trimSpace call.name = "" then none
  else some [("type", .string "function_call"), ("call_id", .string call.id),
    ("name", .string (trimSpace call.name)), ("arguments", .string call.arguments)]

variable (host : Host N)

def toolOutput : Content N → String
  | .null => ""
  | .string s => s
  | content => host.marshalContent content

/-- The part of the instructions that a message makes. -/
def instructionsPart (msg : Message N) : Option String :=
  let role := trimSpace msg.role
  if role = "system" ∨ role = "developer" then
    let s := trimSpace <| match msg.content with
      | .null => ""
      | .string s => s
      | content => "\n".intercalate ((content.parseContent.filter fun part =>
          part.type = "text" ∧ trimSpace part.text ≠ "").map fun part => part.text)
    if s ≠ "" then some s else none
  else none

/-- The items that a message makes. -/
def inputItems (msg : Message N) : List (Item N) :=
  let role := trimSpace msg.role
  if role = "" then []
  else if role = "tool" ∨ role = "function" then
    let callID := trimSpace msg.toolCallId
    let output := toolOutput host msg.content
    if callID = "" then
      [[("role", .string "user"), ("content", .string ("[tool_output_missing_call_id] " ++ output))]]
    else
      [[("type", .string "function_call_output"), ("call_id", .string callID),
        ("output", .string output)]]
  else if role = "system" ∨ role = "developer" then []
  else
    let content := match msg.content with
      | .null => .string ""
      | .string s => .string s
      | content => .array (content.parseContent.map (contentPart role))
    [("role", .string role), ("content", content)] ::
      if role = "assistant" then msg.toolCalls.filterMap functionCallItem else []

structure GeneralOpenAIRequest (N : Type) where
  model : String
  n : Option ℤ := none
  messages : List (Message N)

structure OpenAIResponsesRequest (N : Type) where
  instructions : Option (JsonValue N)
  input : Option (JsonValue N)

def chatCompletionsRequestToResponsesRequest (req : GeneralOpenAIRequest N) :
    Except String (OpenAIResponsesRequest N) :=
  if req.model = "" then .error "model is required"
  else if req.n.getD 1 > 1 then
    .error "n>1 is not supported in responses compatibility mode"
  else
    let instructionsParts := req.messages.filterMap instructionsPart
    .ok {
      input := some (.array ((req.messages.flatMap (inputItems host)).map .object))
      instructions :=
        if instructionsParts = [] then none
        else some (.string ("\n\n".intercalate instructionsParts)) }

/-! ## Responses to chat -/

def interface2String : Option (JsonValue N) → String
  | none => ""
  | some .null => ""
  | some (.string s) => s
  | some (.bool b) => if b then "true" else "false"
  | some v => host.format v

variable (item : Item N)

/-- `strings.TrimSpace(kitutil.Interface2String(item[name]))` -/
def trimmedField (name : String) : String :=
  trimSpace (interface2String host (JsonValue.lookup name item))

/-- `responsesArgumentsString`, `responseToolOutputToChatContent` -/
def stringOrJSON : Option (JsonValue N) → String
  | none => ""
  | some .null => ""
  | some (.string s) => s
  | some v => host.marshal v

def responsesCallID : String :=
  if trimmedField host item "call_id" ≠ "" then trimmedField host item "call_id"
  else trimmedField host item "id"

variable (part : Item N)

def membersOrPart (names : List String) : JsonValue N :=
  let members := names.filterMap fun name => (JsonValue.lookup name part).map fun v => (name, v)
  .object (if members = [] then part else members)

def responsesPartPayload (key : String) : JsonValue N :=
  (JsonValue.lookup key part).getD (.object (part.filter fun m => m.1 ≠ "type"))

def responsesVideoPartToChatVideoURL : JsonValue N :=
  match JsonValue.lookup "video_url" part with
  | some video =>
    let url := interface2String host (video.member "url")
    if url ≠ "" then .string url else video
  | none =>
    let url := interface2String host (JsonValue.lookup "url" part)
    if url ≠ "" then .string url else responsesPartPayload part "video_url"

/-- A part that is read, with its text if it is one. -/
def chatPart : JsonValue N × Option String :=
  let media (type key : String) (payload : JsonValue N) :=
    (JsonValue.object [("type", .string type), (key, payload)], none)
  match trimmedField host part "type" with
  | "input_text" | "output_text" | "text" =>
    let text := interface2String host (JsonValue.lookup "text" part)
    (.object [("type", .string "text"), ("text", .string text)], some text)
  | "input_image" => media "image_url" "image_url" <|
    (JsonValue.lookup "image_url" part).getD (membersOrPart part ["url", "file_id", "detail"])
  | "input_file" => media "file" "file" <| (JsonValue.lookup "file" part).getD
    (membersOrPart part ["file_id", "file_data", "filename", "file_url"])
  | "input_audio" => media "input_audio" "input_audio" (responsesPartPayload part "input_audio")
  | "input_video" => media "video_url" "video_url" (responsesVideoPartToChatVideoURL host part)
  | _ => (.object part, none)

def responsesContentPartsToChatContent (parts : List (JsonValue N)) : Content N :=
  let chatParts := parts.map fun rawPart => match rawPart with
    | .object part => chatPart host part
    | _ => (rawPart, none)
  if chatParts.all fun p => p.2.isSome then .string (String.join (chatParts.filterMap (·.2)))
  else .list (chatParts.map fun p => .json p.1)

def responsesInputContentToChatContent : Option (JsonValue N) → Content N
  | none => .string ""
  | some .null => .string ""
  | some (.string s) => .string s
  | some (.array parts) => responsesContentPartsToChatContent host parts
  | some v => .other v

def responsesFunctionCallItemToChatToolCall : Except String (ToolCallRequest N) :=
  let name := trimmedField host item "name"
  if name = "" then .error "function_call item is missing name"
  else .ok {
    id := responsesCallID host item
    type := "function"
    name
    arguments := stringOrJSON host (JsonValue.lookup "arguments" item) }

def responsesCustomToolCallItemToChatToolCall : ToolCallRequest N where
  id := responsesCallID host item
  type := "custom"
  name := trimmedField host item "name"
  arguments := stringOrJSON host (JsonValue.lookup "input" item)
  custom := some (.object item)

def appendToolCallToLastAssistant (messages : List (Message N)) (toolCall : ToolCallRequest N) :
    List (Message N) :=
  match messages.getLast? with
  | some last =>
    if last.role = "assistant" then
      messages.dropLast ++ [{ last with toolCalls := last.toolCalls ++ [toolCall] }]
    else messages ++ [{ role := "assistant", toolCalls := [toolCall] }]
  | none => [{ role := "assistant", toolCalls := [toolCall] }]

def responsesInputItemToChatMessages (messages : List (Message N)) (item : Item N) :
    Except String (List (Message N)) :=
  match trimmedField host item "type" with
  | "function_call" =>
    (responsesFunctionCallItemToChatToolCall host item).map
      (appendToolCallToLastAssistant messages)
  | "custom_tool_call" =>
    .ok (appendToolCallToLastAssistant messages (responsesCustomToolCallItemToChatToolCall host item))
  | "function_call_output" =>
    .ok (messages ++ [{
      role := "tool"
      toolCallId := trimmedField host item "call_id"
      content := .string (stringOrJSON host (JsonValue.lookup "output" item)) }])
  | _ =>
    let role := trimmedField host item "role"
    .ok (messages ++ [{
      role := if role = "" then "user" else role
      content := responsesInputContentToChatContent host (JsonValue.lookup "content" item) }])

/-- An element of a `[]map[string]any`. -/
def asItem : JsonValue N → Option (Item N)
  | .object members => some members
  | .null => some []
  | _ => none

def responsesJSONString : JsonValue N → String
  | .string s => s
  | raw => host.rawText raw

/-- The message that the instructions make. -/
def systemMessage (instructions : Option (JsonValue N)) : List (Message N) :=
  let text := match instructions with
    | none | some .null => ""
    | some raw => responsesJSONString host raw
  if trimSpace text ≠ "" then [{ role := "system", content := .string text }] else []

def responsesRequestMessagesToChat (req : OpenAIResponsesRequest N) :
    Except String (List (Message N)) :=
  let messages := systemMessage host req.instructions
  match req.input with
  | none | some .null => .ok messages
  | some (.string s) => .ok (messages ++ [{ role := "user", content := .string s }])
  | some (.array items) =>
    match items.mapM asItem with
    | some items => items.foldlM (responsesInputItemToChatMessages host) messages
    | none => .error ("invalid input array: " ++ host.unmarshalError items)
  | some (.bool _) => .error "unsupported responses input type \"boolean\""
  | some (.number _) => .error "unsupported responses input type \"number\""
  | some (.object _) => .error "unsupported responses input type \"object\""

/-! ## A request there and back -/

def Trimmed (s : String) : Prop := s ≠ "" ∧ trimSpace s = s

instance : DecidablePred Trimmed := fun _ => inferInstanceAs (Decidable (_ ∧ _))

/-- A call of a function with a trimmed id and name. -/
structure ToolCallRequest.OfFunction (call : ToolCallRequest N) : Prop where
  id : Trimmed call.id
  type : call.type = "" ∨ call.type = "function"
  name : Trimmed call.name

def ToolCallRequest.carried (call : ToolCallRequest N) : ToolCallRequest N where
  id := call.id
  type := "function"
  name := call.name
  arguments := call.arguments

structure Message.IsSystem (msg : Message N) : Prop where
  role : msg.role = "system"
  content : ∃ s, Trimmed s ∧ msg.content = .string s

/-- A message of the user, the assistant or a tool, with a string for content or none. -/
structure Message.OfTurn (msg : Message N) : Prop where
  role : msg.role = "user" ∨ msg.role = "assistant" ∨ msg.role = "tool"
  content : msg.content = .null ∨ ∃ s, msg.content = .string s
  calls : msg.role = "assistant" → ∀ call ∈ msg.toolCalls, call.OfFunction
  callId : msg.role = "tool" → Trimmed msg.toolCallId

/-- The message with an absent content read as empty, the calls of the assistant and the
    id of a tool. -/
def Message.carried (msg : Message N) : Message N where
  role := msg.role
  content := .string (msg.content.stringContent.getD "")
  toolCalls := if msg.role = "assistant" then msg.toolCalls.map ToolCallRequest.carried else []
  toolCallId := if msg.role = "tool" then msg.toolCallId else ""

section

variable (host : Host N)

theorem mapM_asItem (items : List (Item N)) :
    items.mapM (asItem ∘ JsonValue.object) = some items := by
  induction items with
  | nil => rfl
  | cons item items ih => simp [ih, asItem]

variable (messages : List (Message N))

/-- The item of a call, read after a message of the assistant, adds the call to it. -/
theorem functionCallItem_read {last : Message N}
    (hlast : last.role = "assistant") {call : ToolCallRequest N} (hcall : call.OfFunction) :
    ∃ item, functionCallItem call = some item ∧
      responsesInputItemToChatMessages host (messages ++ [last]) item =
        .ok (messages ++ [{ last with toolCalls := last.toolCalls ++ [call.carried] }]) := by
  obtain ⟨⟨hid, hidTrim⟩, htype, hname, hnameTrim⟩ := hcall
  have hread : functionCallItem call = some [("type", .string "function_call"),
      ("call_id", .string call.id), ("name", .string call.name),
      ("arguments", .string call.arguments)] := by
    rw [functionCallItem, if_neg (by rwa [hidTrim]),
      if_neg (fun h => htype.elim h.1 h.2), if_neg (by rwa [hnameTrim]), hnameTrim]
  refine ⟨_, hread, ?_⟩
  have htypeField : trimSpace "function_call" = "function_call" := by decide +kernel
  simp [responsesInputItemToChatMessages, responsesFunctionCallItemToChatToolCall,
    responsesCallID, trimmedField, interface2String, stringOrJSON, JsonValue.lookup,
    appendToolCallToLastAssistant, ToolCallRequest.carried, htypeField, hidTrim, hid, hnameTrim,
    hname, hlast, Except.map]

/-- The items of the calls add them all. -/
theorem functionCallItems_read {last : Message N}
    (hlast : last.role = "assistant") {calls : List (ToolCallRequest N)}
    (hcalls : ∀ call ∈ calls, call.OfFunction) :
    (calls.filterMap functionCallItem).foldlM (responsesInputItemToChatMessages host)
        (messages ++ [last]) = .ok (messages ++
        [{ last with toolCalls := last.toolCalls ++ calls.map ToolCallRequest.carried }]) := by
  induction calls generalizing last with
  | nil => simp; rfl
  | cons call calls ih =>
    obtain ⟨item, hitem, hread⟩ :=
      functionCallItem_read host messages hlast (hcalls call List.mem_cons_self)
    rw [List.filterMap_cons_some hitem, List.foldlM_cons, hread]
    have hrest := @ih { last with toolCalls := last.toolCalls ++ [call.carried] } hlast
      fun c hc => hcalls c (List.mem_cons_of_mem _ hc)
    exact hrest.trans (by simp)

/-- The item of a message with a string is read as a message of the role. -/
theorem messageItem_read {role : String} (hrole : Trimmed role) (s : String) :
    responsesInputItemToChatMessages host messages
        [("role", .string role), ("content", .string s)] =
      .ok (messages ++ [{ role, content := .string s }]) := by
  have htype : trimSpace "" = "" := rfl
  simp [responsesInputItemToChatMessages, trimmedField, interface2String, JsonValue.lookup,
    responsesInputContentToChatContent, htype, hrole.1, hrole.2]

/-- What is sent of the content of a turn. -/
theorem content_of_turn {msg : Message N} (hmsg : msg.OfTurn) :
    ∃ s, msg.content.stringContent.getD "" = s ∧ toolOutput host msg.content = s ∧
      (msg.content = .null ∧ s = "" ∨ msg.content = .string s) := by
  rcases hmsg.content with h | ⟨s, h⟩
  · exact ⟨"", by rw [h]; rfl, by rw [h]; rfl, .inl ⟨h, rfl⟩⟩
  · exact ⟨s, by rw [h]; rfl, by rw [h]; rfl, .inr h⟩

/-- The items of a turn are read as its message. -/
theorem inputItems_read {msg : Message N} (hmsg : msg.OfTurn) :
    (inputItems host msg).foldlM (responsesInputItemToChatMessages host) messages =
      .ok (messages ++ [msg.carried]) := by
  obtain ⟨s, hs, houtput, hcontent⟩ := content_of_turn host hmsg
  have hsent : ∀ role, trimSpace msg.role = role → role = "user" ∨ role = "assistant" →
      inputItems host msg = [("role", .string role), ("content", .string s)] ::
        if role = "assistant" then msg.toolCalls.filterMap functionCallItem else [] := by
    intro role hrole hor
    rcases hcontent with ⟨h, rfl⟩ | h <;> rcases hor with rfl | rfl <;> simp [inputItems, h, hrole]
  rcases hmsg.role with hrole | hrole | hrole
  · have htrim : Trimmed "user" := ⟨by decide, by decide +kernel⟩
    rw [hsent "user" (by rw [hrole, htrim.2]) (.inl rfl), List.foldlM_cons,
      messageItem_read host messages htrim]
    simp [Message.carried, hrole, hs]
  · have htrim : Trimmed "assistant" := ⟨by decide, by decide +kernel⟩
    rw [hsent "assistant" (by rw [hrole, htrim.2]) (.inr rfl), List.foldlM_cons,
      messageItem_read host messages htrim]
    refine (functionCallItems_read host messages rfl (hmsg.calls hrole)).trans ?_
    simp [Message.carried, hrole, hs]
  obtain ⟨hid, hidTrim⟩ := hmsg.callId hrole
  have htool : trimSpace "tool" = "tool" := by decide +kernel
  have htype : trimSpace "function_call_output" = "function_call_output" := by decide +kernel
  simp [inputItems, hrole, htool, hidTrim, hid, houtput, responsesInputItemToChatMessages,
    trimmedField, interface2String, stringOrJSON, JsonValue.lookup, htype, Message.carried, hs]

/-- The items of a list of turns are read as their messages. -/
theorem turns_read {turns : List (Message N)} (hturns : ∀ msg ∈ turns, msg.OfTurn) :
    (turns.flatMap (inputItems host)).foldlM (responsesInputItemToChatMessages host) messages =
      .ok (messages ++ turns.map Message.carried) := by
  induction turns generalizing messages with
  | nil => simp; rfl
  | cons msg turns ih =>
    rw [List.flatMap_cons, List.foldlM_append,
      inputItems_read host messages (hturns msg List.mem_cons_self)]
    refine (ih (messages ++ [msg.carried]) fun m hm => hturns m (List.mem_cons_of_mem _ hm)).trans ?_
    simp

theorem instructionsPart_turn {msg : Message N} (hmsg : msg.OfTurn) :
    instructionsPart msg = none := by
  have hrole : trimSpace msg.role ≠ "system" ∧ trimSpace msg.role ≠ "developer" := by
    rcases hmsg.role with h | h | h <;> rw [h] <;> decide +kernel
  simp [instructionsPart, hrole]

end

/-- A system message makes the instructions, which are read as the message. -/
theorem systemMessage_read (host : Host N) {msg : Message N} (hmsg : msg.IsSystem) :
    ∃ s, instructionsPart msg = some s ∧ inputItems host msg = [] ∧
      systemMessage host (some (.string s)) = [msg.carried] := by
  obtain ⟨hrole, s, ⟨hs, htrim⟩, hcontent⟩ := hmsg
  have hsystem : trimSpace "system" = "system" := by decide +kernel
  refine ⟨s, ?_, ?_, ?_⟩
  · simp [instructionsPart, hrole, hsystem, hcontent, htrim, hs]
  · simp [inputItems, hrole, hsystem]
  · simp [systemMessage, responsesJSONString, htrim, hs, Message.carried, hrole, hcontent,
      Content.stringContent]

/-- The messages that are read from the request made for a list of turns, after a system
    message or none, are those messages: in their order, each with its role, its content,
    its calls and its tool call id. -/
theorem messages_of_request (host : Host N) (req : GeneralOpenAIRequest N)
    (system : Option (Message N)) (turns : List (Message N))
    (hmessages : req.messages = system.toList ++ turns) (hsystem : ∀ msg ∈ system, msg.IsSystem)
    (hturns : ∀ msg ∈ turns, msg.OfTurn) (out : OpenAIResponsesRequest N)
    (hout : chatCompletionsRequestToResponsesRequest host req = .ok out) :
    responsesRequestMessagesToChat host out = .ok (req.messages.map Message.carried) := by
  have hparts : turns.filterMap instructionsPart = [] :=
    List.filterMap_eq_nil_iff.2 fun msg hmsg => instructionsPart_turn (hturns msg hmsg)
  rw [chatCompletionsRequestToResponsesRequest] at hout
  split at hout
  · cases hout
  split at hout
  · cases hout
  cases hout
  rw [responsesRequestMessagesToChat, hmessages]
  cases system with
  | none =>
    have hread := turns_read host [] hturns
    simpa [mapM_asItem, hparts, systemMessage, trimSpace] using hread
  | some msg =>
    obtain ⟨s, hpart, hitems, hmessage⟩ := systemMessage_read host (hsystem msg rfl)
    have hread := turns_read host [msg.carried] hturns
    simpa [mapM_asItem, hparts, hpart, hitems, hmessage] using hread

/-- A message with two calls, one of them told by its result, and one more message of its
    role. -/
def weatherTurns : List (Message Unit) :=
  [{ role := "user", content := .string "Rome?" },
    { role := "assistant", toolCalls := [⟨"c1", "function", "weather", "Rome", none⟩,
        ⟨"c2", "", "time", "", none⟩] },
    { role := "tool", content := .string "sunny", toolCallId := "c1" },
    { role := "assistant", content := .string "Sunny." },
    { role := "assistant", toolCalls := [⟨"c3", "function", "time", "Rome", none⟩] }]

theorem messages_of_request_weather :
    ∃ out, chatCompletionsRequestToResponsesRequest ⟨fun _ => "", fun _ => "", fun _ => "",
        fun _ => "", fun _ => ""⟩
          ⟨"m", none, { role := "system", content := .string "Be brief." } :: weatherTurns⟩ = .ok out ∧
      responsesRequestMessagesToChat ⟨fun _ => "", fun _ => "", fun _ => "", fun _ => "",
        fun _ => ""⟩ out = .ok ({ role := "system", content := .string "Be brief." } ::
          weatherTurns.map Message.carried) := by
  have htrimmed : ∀ s ∈ ["Be brief.", "c1", "c2", "c3", "weather", "time"], Trimmed s := by
    decide +kernel
  refine ⟨_, rfl, messages_of_request _ ⟨"m", none, _⟩
    (some { role := "system", content := .string "Be brief." }) weatherTurns rfl ?_ ?_ _ rfl⟩
  · intro msg hmsg
    cases hmsg
    exact ⟨rfl, "Be brief.", htrimmed _ (by decide), rfl⟩
  intro msg hmsg
  have hcall : ∀ id type name arguments, Trimmed id → (type = "" ∨ type = "function") →
      Trimmed name → ToolCallRequest.OfFunction (N := Unit) ⟨id, type, name, arguments, none⟩ :=
    fun _ _ _ _ hid htype hname => ⟨hid, htype, hname⟩
  simp only [weatherTurns, List.mem_cons, List.not_mem_nil, or_false] at hmsg
  rcases hmsg with rfl | rfl | rfl | rfl | rfl <;> constructor <;> simp [htrimmed, hcall]

end NewApi.ChatResponsesRequest
