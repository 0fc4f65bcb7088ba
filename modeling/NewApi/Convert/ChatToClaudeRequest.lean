/-
  NewApi.Convert.ChatToClaudeRequest

  The messages of a chat request as those of a Claude request
  (`OpenAIChatRequestToClaudeMessages`, `oai_chat/to_claude_messages_req.go`):
  the loop that fuses messages of one role, and the loop that builds the Claude
  messages.  What a file source holds and what the arguments of a tool call are
  decoded to is left to `ClaudeEnv`.
-/

import NewApi.Lib.Fallible
import NewApi.Lib.JsonValue
import Mathlib.Data.List.Infix

namespace NewApi.ChatRequest

open NewApi.Lib

variable {N : Type}

/-! ## Chat messages -/

structure MessageImageUrl where
  url : String := ""
  detail : String := "high"
  mimeType : String := ""

structure MessageInputAudio where
  data : String
  format : String

structure MessageFile where
  fileName : String := ""
  fileData : String := ""
  fileId : String := ""

structure MessageVideoUrl where
  url : String

structure MediaContent where
  type : String
  text : String := ""
  imageUrl : Option MessageImageUrl := none
  inputAudio : Option MessageInputAudio := none
  file : Option MessageFile := none
  videoUrl : Option MessageVideoUrl := none

/-- An element of a `[]any` content. -/
inductive ContentItem (N : Type) where
  | media (m : MediaContent)
  | json (v : JsonValue N)

/-- The `Content` of a message. -/
inductive Content (N : Type) where
  | null
  | string (s : String)
  | media (ms : List MediaContent)
  | list (items : List (ContentItem N))
  | other (v : JsonValue N)

/-- `ToolCallRequest`, with the fields of its `Function` that are read. -/
structure ToolCallRequest where
  id : String
  name : String
  arguments : String

/-- `Message`; `toolCalls` is what `ParseToolCalls` makes of the raw field. -/
structure Message (N : Type) where
  role : String
  content : Content N := .null
  toolCalls : Option (List ToolCallRequest) := none
  toolCallId : String := ""

/-- `IsStringContent` and `StringContent`, on a content that is a string. -/
def Content.stringContent : Content N → Option String
  | string s => some s
  | _ => none

def Content.isNull : Content N → Bool
  | null => true
  | _ => false

/-- The image of an `image_url` item. -/
def parseImageUrl (v : Option (JsonValue N)) : MessageImageUrl :=
  match v with
  | some (.string url) => { url }
  | some (.object members) =>
    { url := ((JsonValue.lookup "url" members).bind JsonValue.asString).getD ""
      detail := ((JsonValue.lookup "detail" members).bind JsonValue.asString).getD "high" }
  | _ => {}

/-- The file of a `file` item. -/
def parseFile (v : JsonValue N) : Option MessageFile :=
  match v.stringMember "file_id", v.stringMember "filename", v.stringMember "file_data" with
  | some fileId, _, _ => some { fileId }
  | none, some fileName, some fileData => some { fileName, fileData }
  | none, _, _ => none

/-- One round of the loop in `ParseContent`. -/
def parseItem : ContentItem N → Option MediaContent
  | .media m => some m
  | .json item => do
    let contentType ← item.stringMember "type"
    match contentType with
    | "text" => (item.stringMember "text").map fun text => { type := "text", text }
    | "image_url" => some { type := "image_url", imageUrl := some (parseImageUrl (item.member "image_url")) }
    | "input_audio" => do
      let audio ← (item.member "input_audio").filter JsonValue.isObject
      let data ← audio.stringMember "data"
      let format ← audio.stringMember "format"
      some { type := "input_audio", inputAudio := some { data, format } }
    | "file" => do
      let file ← (item.member "file").filter JsonValue.isObject
      (parseFile file).map fun f => { type := "file", file := some f }
    | "video_url" =>
      (item.stringMember "video_url").map fun url => { type := "video_url", videoUrl := some { url } }
    | _ => none

def Content.parseContent : Content N → List MediaContent
  | null => []
  | string s => [{ type := "text", text := s }]
  | media ms => ms
  | list items => items.filterMap parseItem
  | other _ => []

/-- What `NewFileSourceFromData` is given. -/
structure FileSource where
  data : String
  mimeType : String

def MediaContent.toFileSource (m : MediaContent) : Option FileSource :=
  match m.type with
  | "image_url" => (m.imageUrl.filter fun img => img.url ≠ "").map fun img => ⟨img.url, img.mimeType⟩
  | "input_audio" => (m.inputAudio.filter fun audio => audio.data ≠ "").map fun audio =>
    ⟨audio.data, if audio.format ≠ "" then "audio/" ++ audio.format else ""⟩
  | "file" => (m.file.filter fun file => file.fileData ≠ "").map fun file => ⟨file.fileData, ""⟩
  | "video_url" => (m.videoUrl.filter fun video => video.url ≠ "").map fun video => ⟨video.url, ""⟩
  | _ => none

/-! ## The first loop: roles, and messages that follow one of their role -/

/-- The roles after the first loop. -/
inductive Role where
  | system | user | assistant | tool
deriving DecidableEq

/-- The `switch` on the role of a message. -/
def normalizeRole (role toolCallId : String) : Role :=
  match role with
  | "developer" | "system" => .system
  | "function" | "tool" => if toolCallId ≠ "" then .tool else .user
  | "assistant" => .assistant
  | _ => .user

def Message.roleOf (m : Message N) : Role := normalizeRole m.role m.toolCallId

/-- A message of `formatMessages`. -/
structure FormatMessage (N : Type) where
  role : Role
  content : Content N := .null
  toolCalls : Option (List ToolCallRequest) := none
  toolCallId : String := ""

def orDots (content : Content N) : Content N :=
  if content.isNull ∨ content.stringContent = some "" then .string "..." else content

/-- `fmtMessage` before a message is fused with the last one. -/
def Message.format (m : Message N) : FormatMessage N where
  role := m.roleOf
  content := m.content
  toolCallId := if m.roleOf = .tool then m.toolCallId else ""
  toolCalls := if m.roleOf = .assistant then m.toolCalls else none

/-- The string content of a message that is fused with the last one. -/
def fusedContent (last : FormatMessage N) (m : Message N) : Option String :=
  if last.role = m.roleOf ∧ last.role ≠ .tool then
    match last.content.stringContent, m.content.stringContent with
    | some s, some t => some (s ++ " " ++ t)
    | _, _ => none
  else none

/-- One round of the first loop, on `formatMessages` and `lastMessage`. -/
def formatStep (st : List (FormatMessage N) × FormatMessage N) (m : Message N) :
    List (FormatMessage N) × FormatMessage N :=
  match fusedContent st.2 m with
  | some s =>
    let fmtMessage := { m.format with content := orDots (.string s) }
    (st.1.dropLast ++ [fmtMessage], fmtMessage)
  | none =>
    let fmtMessage := { m.format with content := orDots m.content }
    (st.1 ++ [fmtMessage], fmtMessage)

def formatMessages (messages : List (Message N)) : List (FormatMessage N) :=
  (messages.foldl formatStep ([], { role := .tool })).1

/-! ## The second loop: Claude messages -/

/-- What the loop calls. -/
structure ClaudeEnv (N : Type) where
  /-- `ResolveBase64Data`: the data and the MIME type of a source. -/
  resolveBase64Data : FileSource → Except String (String × String)
  /-- `inputObj` after the arguments of a call are read into it. -/
  decodeArguments : String → JsonValue N

/-- `ClaudeMediaMessage`, by its type. -/
inductive ClaudeMediaMessage (N : Type) where
  | text (text : String)
  | document (mediaType data : String)
  | image (mediaType data : String)
  | toolUse (id name : String) (input : JsonValue N)
  | toolResult (toolUseId : String) (content : Content N)

/-- The content of a `ClaudeMessage`. -/
inductive ClaudeContent (N : Type) where
  | string (s : String)
  | blocks (bs : List (ClaudeMediaMessage N))

/-- `ClaudeMessage`; `user` or else `assistant`. -/
structure ClaudeMessage (N : Type) where
  role : Role
  content : ClaudeContent N

def placeholderUserMessage : ClaudeMessage N := ⟨.user, .blocks [.text "..."]⟩

/-- `claudeMessages`, `systemMessages` and `isFirstMessage`. -/
structure ClaudeState (N : Type) where
  messages : List (ClaudeMessage N) := []
  system : List String := []
  isFirst : Bool := true

/-- The texts of a content for the system list. -/
def systemTexts (content : Content N) : List String :=
  match content.stringContent with
  | some text => if text ≠ "" then [text] else []
  | none => content.parseContent.filterMap fun m =>
    if m.type = "text" ∧ m.text ≠ "" then some m.text else none

variable (env : ClaudeEnv N)

/-- The block of one part of a message, if any. -/
def mediaBlock (m : MediaContent) : Except String (Option (ClaudeMediaMessage N)) :=
  if m.type = "text" then .ok (if m.text ≠ "" then some (.text m.text) else none)
  else match m.toFileSource with
    | none => .ok none
    | some source => do
      let (data, mimeType) ← env.resolveBase64Data source
      .ok (some (if "application/pdf".isPrefixOf mimeType then .document mimeType data
        else .image mimeType data))

def mediaBlocks : List MediaContent → Except String (List (ClaudeMediaMessage N))
  | [] => .ok []
  | m :: ms => do
    let block ← mediaBlock env m
    let rest ← mediaBlocks ms
    .ok (block.toList ++ rest)

def toolUse (call : ToolCallRequest) : ClaudeMediaMessage N :=
  .toolUse call.id call.name
    (if call.arguments ≠ "" then env.decodeArguments call.arguments else .object [])

def ClaudeContent.toBlocks : ClaudeContent N → List (ClaudeMediaMessage N)
  | string s => [.text s]
  | blocks bs => bs

/-- The tool result at the end of the messages: in the last one if it is the user's. -/
def addToolResult (messages : List (ClaudeMessage N)) (block : ClaudeMediaMessage N) :
    List (ClaudeMessage N) :=
  match messages.getLast? with
  | some last =>
    if last.role = .user then
      messages.dropLast ++ [{ last with content := .blocks (last.content.toBlocks ++ [block]) }]
    else messages ++ [⟨.user, .blocks [block]⟩]
  | none => messages ++ [⟨.user, .blocks [block]⟩]

/-- The content of the Claude message of a user's or an assistant's message. -/
def claudeContent (m : FormatMessage N) : Except String (ClaudeContent N) :=
  match m.content.stringContent, m.toolCalls with
  | some text, none => .ok (.string (if text = "" then "..." else text))
  | _, calls => do
    let media ← mediaBlocks env m.content.parseContent
    .ok (.blocks (media ++ (calls.getD []).map (toolUse env)))

/-- One round of the second loop. -/
def claudeStep (st : ClaudeState N) (m : FormatMessage N) : Except String (ClaudeState N) :=
  if m.role = .system then
    .ok { st with system := st.system ++ systemTexts m.content }
  else
    let opened := if st.isFirst ∧ m.role ≠ .user then st.messages ++ [placeholderUserMessage]
      else st.messages
    if m.role = .tool then
      .ok { st with messages := addToolResult opened (.toolResult m.toolCallId m.content), isFirst := false }
    else do
      let content ← claudeContent env m
      .ok { st with messages := opened ++ [⟨m.role, content⟩], isFirst := false }

/-- The messages and the system list of the Claude request. -/
def claudeMessages (messages : List (Message N)) :
    Except String (List (ClaudeMessage N) × List String) := do
  let st ← tryRun (claudeStep env) {} (formatMessages messages)
  let claudeMessages := if st.messages = [] ∧ st.system ≠ [] then [placeholderUserMessage]
    else st.messages
  .ok (claudeMessages, st.system)

end NewApi.ChatRequest
