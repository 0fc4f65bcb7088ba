/-
  NewApi.Convert.GeminiToChat

  The converters from Gemini responses to chat completions
  (`gemini_chat/to_oai_chat_resp.go`): of a whole response, and of the chunks of a
  stream.  Annotations and usage are left out.

  A call that Gemini gives no id gets a new UUID, which is like no other id; here
  its id is `none`.
-/

import NewApi.Lib.Fallible
import NewApi.Convert.GeminiPartialArgs

namespace NewApi.GeminiSource

open NewApi.Lib

variable {N : Type}

/-! ## Gemini responses -/

structure GeminiInlineData where
  mimeType : String
  data : String

/-- `GeminiPartExecutableCode` -/
structure ExecutableCode where
  language : String
  code : String

/-- `GeminiPart`; a `CodeExecutionResult` is its output. -/
structure GeminiPart (N : Type) where
  text : String := ""
  thought : Bool := false
  inlineData : Option GeminiInlineData := none
  functionCall : Option (FunctionCall N) := none
  executableCode : Option ExecutableCode := none
  codeExecutionResult : Option String := none

structure GeminiChatCandidate (N : Type) where
  parts : List (GeminiPart N)
  finishReason : Option String := none
  index : Int := 0

/-! ## Parts -/

/-- What the two renderers take a part for: the `if` chain they share. -/
inductive PartKind (N : Type) where
  | inline (data : GeminiInlineData)
  | call (call : FunctionCall N)
  | thought (text : String)
  | code (code : ExecutableCode)
  | result (output : String)
  | text (text : String)

def GeminiPart.kind (p : GeminiPart N) : PartKind N :=
  match p.inlineData, p.functionCall with
  | some data, _ => .inline data
  | none, some call => .call call
  | none, none =>
    if p.thought then .thought p.text
    else match p.executableCode, p.codeExecutionResult with
      | some code, _ => .code code
      | none, some output => .result output
      | none, none => .text p.text

/-- The content written so far, and how many pieces it has. -/
structure Written where
  content : String := ""
  appended : Nat := 0

/-- `writeSep`, and then a piece. -/
def Written.write (w : Written) (piece : String) : Written where
  content := if 0 < w.appended then w.content ++ "\n" ++ piece else w.content ++ piece
  appended := w.appended + 1

def inlineLink (label : String) (d : GeminiInlineData) : String :=
  label ++ "(data:" ++ d.mimeType ++ ";base64," ++ d.data ++ ")"

def GeminiInlineData.isImage (d : GeminiInlineData) : Bool := "image".isPrefixOf d.mimeType

def codeBlock (c : ExecutableCode) : String := "```" ++ c.language ++ "\n" ++ c.code ++ "\n```"

def outputBlock (output : String) : String := "```output\n" ++ output ++ "\n```"

/-- `ToolCallResponse`, without its type. -/
structure ToolCallResponse where
  index : Option Nat := none
  id : Option String
  name : String
  arguments : String

variable (marshal : JsonValue N → String)

/-- `geminiResponseToolCall`; `Marshal` does not fail on what was decoded from JSON. -/
def geminiResponseToolCall (call : FunctionCall N) : ToolCallResponse :=
  let callID := Text.trimSpace call.id
  { id := if callID = "" then none else some callID
    name := call.functionName
    arguments := marshal call.arguments }

/-! ## A whole response -/

/-- The choice of an `OpenAITextResponse`. -/
structure OpenAITextResponseChoice where
  index : Int
  content : String := ""
  reasoningContent : Option String := none
  toolCalls : List ToolCallResponse := []
  finishReason : String := "stop"

/-- The visible content and the other fields that the loop over the parts fills in. -/
structure Rendering where
  written : Written := {}
  reasoningContent : Option String := none
  toolCalls : List ToolCallResponse := []
  sawCall : Bool := false

/-- One round of the loop of `ResponseGeminiChat2OpenAI`. -/
def renderPart (r : Rendering) (p : GeminiPart N) : Rendering :=
  match p.kind with
  | .inline d =>
    { r with written := r.written.write (inlineLink (if d.isImage then "![image]" else "[media]") d) }
  | .call call =>
    { r with sawCall := true, toolCalls := r.toolCalls ++ [geminiResponseToolCall marshal call] }
  | .thought text => { r with reasoningContent := some text }
  | .code c => { r with written := r.written.write (codeBlock c) }
  | .result output => { r with written := r.written.write (outputBlock output) }
  | .text text => if text ≠ "\n" then { r with written := r.written.write text } else r

/-- The finish reason of a candidate that is not `STOP`. -/
def finishReasonOf (reason : String) : String :=
  match reason with
  | "MAX_TOKENS" => "length"
  | _ => "content_filter"

/-- One round of the loop over the candidates, with `isToolCall`. -/
def convertCandidate (isToolCall : Bool) (c : GeminiChatCandidate N) :
    OpenAITextResponseChoice × Bool :=
  let r := c.parts.foldl (renderPart marshal) {}
  let isToolCall := isToolCall || !r.toolCalls.isEmpty
  let finishReason := match c.finishReason with
    | none => if r.sawCall then "tool_calls" else "stop"
    | some "STOP" => "stop"
    | some reason => finishReasonOf reason
  ({ index := c.index
     content := r.written.content
     reasoningContent := r.reasoningContent
     toolCalls := r.toolCalls
     finishReason := if isToolCall then "tool_calls" else finishReason }, isToolCall)

/-- The choices of candidates after some with or without a tool call. -/
def convertCandidates (marshal : JsonValue N → String) :
    Bool → List (GeminiChatCandidate N) → List OpenAITextResponseChoice
  | _, [] => []
  | isToolCall, c :: cs =>
    (convertCandidate marshal isToolCall c).1 ::
      convertCandidates marshal (convertCandidate marshal isToolCall c).2 cs

def responseGeminiChat2OpenAI (cs : List (GeminiChatCandidate N)) : List OpenAITextResponseChoice :=
  convertCandidates marshal false cs

/-! ## A chunk of a stream -/

/-- `ChatCompletionsStreamResponseChoice` -/
structure StreamChoice where
  index : Int := 0
  content : Option String := none
  reasoningContent : Option String := none
  toolCalls : List ToolCallResponse := []
  finishReason : Option String := none

/-- What the loop over the parts of a chunk gathers. -/
structure StreamRendering where
  written : Written := {}
  isThought : Bool := false
  isTools : Bool := false
  toolCalls : List ToolCallResponse := []

/-- One round of the loop of `StreamResponseGeminiChat2OpenAI`. -/
def streamPart (r : StreamRendering) (p : GeminiPart N) : StreamRendering :=
  match p.kind with
  | .inline d => if d.isImage then { r with written := r.written.write (inlineLink "![image]" d) } else r
  | .call call =>
    { r with
        isTools := true
        toolCalls := r.toolCalls ++
          [{ geminiResponseToolCall marshal call with index := some r.toolCalls.length }] }
  | .thought text => { r with isThought := true, written := r.written.write text }
  | .code c => { r with written := r.written.write (codeBlock c ++ "\n") }
  | .result output => { r with written := r.written.write (outputBlock output ++ "\n") }
  | .text text => if text ≠ "\n" then { r with written := r.written.write text } else r

/-- The choice of a candidate; `STOP` is left to the terminal chunk. -/
def streamCandidate (c : GeminiChatCandidate N) : StreamChoice :=
  let r := c.parts.foldl (streamPart marshal) {}
  let finishReason := match c.finishReason with
    | none | some "STOP" => none
    | some reason => some (finishReasonOf reason)
  { index := c.index
    content := if r.isThought then none else some r.written.content
    reasoningContent := if r.isThought then some r.written.content else none
    toolCalls := r.toolCalls
    finishReason := if r.isTools then some "tool_calls" else finishReason }

/-- `StreamResponseGeminiChat2OpenAI`: the choices, and whether a candidate stopped. -/
def streamResponseGeminiChat2OpenAI (cs : List (GeminiChatCandidate N)) :
    List StreamChoice × Bool :=
  (cs.map (streamCandidate marshal), cs.any fun c => c.finishReason = some "STOP")

/-! ## The stream -/

structure GeminiToChatStreamState (N : Type) where
  sawToolCall : Bool := false
  finishEmitted : Bool := false
  nextToolIndexByCandidate : Int → Nat := fun _ => 0
  toolIndexByCandidateID : Int → String → Option Nat := fun _ _ => none
  partialToolByCandidate : Int → Option (GeminiPartialToolCall N) := fun _ => none

/-- One round of the loop of `preparePartialFunctionCalls` over the parts of a candidate:
    the call in progress and the parts kept. -/
def preparePart (st : Option (GeminiPartialToolCall N) × List (GeminiPart N)) (p : GeminiPart N) :
    Except PartialError (Option (GeminiPartialToolCall N) × List (GeminiPart N)) :=
  match p.functionCall with
  | none => .ok (st.1, st.2 ++ [p])
  | some call =>
    if st.1.isNone ∧ call.willContinue = none ∧ call.partialArgs = [] then .ok (st.1, st.2 ++ [p])
    else match appendPartialFunctionCall st.1 call with
      | .error e => .error e
      | .ok (.inl current) => .ok (some current, st.2)
      | .ok (.inr completed) => .ok (none, st.2 ++ [{ p with functionCall := some completed }])

def preparePartialFunctionCalls (partials : Int → Option (GeminiPartialToolCall N)) :
    List (GeminiChatCandidate N) →
      Except PartialError ((Int → Option (GeminiPartialToolCall N)) × List (GeminiChatCandidate N))
  | [] => .ok (partials, [])
  | c :: cs => do
    let (current, parts) ← tryRun preparePart (partials c.index, []) c.parts
    let (partials, rest) ←
      preparePartialFunctionCalls (Function.update partials c.index current) cs
    .ok (partials, { c with parts } :: rest)

variable (s : GeminiToChatStreamState N)

/-- The index of a tool call in its candidate: that of its id, or else the next one. -/
def stableIndex (candidate : Int) (id : Option String) : Nat × GeminiToChatStreamState N :=
  match id.bind (s.toolIndexByCandidateID candidate) with
  | some i => (i, s)
  | none =>
    let next := s.nextToolIndexByCandidate candidate
    (next, { s with
      nextToolIndexByCandidate := Function.update s.nextToolIndexByCandidate candidate (next + 1)
      toolIndexByCandidateID :=
        match id with
        | none => s.toolIndexByCandidateID
        | some id => Function.update s.toolIndexByCandidateID candidate
            (Function.update (s.toolIndexByCandidateID candidate) id (some next)) })

/-- The tool calls of a choice with their indexes. -/
def indexToolCalls (candidate : Int) :
    GeminiToChatStreamState N → List ToolCallResponse → List ToolCallResponse × GeminiToChatStreamState N
  | s, [] => ([], s)
  | s, call :: calls =>
    let (i, s) := stableIndex s candidate call.id
    let (rest, s) := indexToolCalls candidate s calls
    ({ call with index := some i } :: rest, s)

/-- The loop of `ConvertChunk` over the choices. -/
def indexChoices : GeminiToChatStreamState N → List StreamChoice → List StreamChoice × GeminiToChatStreamState N
  | s, [] => ([], s)
  | s, choice :: choices =>
    let (toolCalls, s) := indexToolCalls choice.index s choice.toolCalls
    let (rest, s) := indexChoices s choices
    ({ choice with toolCalls } :: rest, s)

def isToolCall (choices : List StreamChoice) : Bool :=
  match choices with
  | [] => false
  | choice :: _ => !choice.toolCalls.isEmpty

/-- Tool calls do not finish a choice if the chunk has no other reason to finish. -/
def clearToolFinish (hasNonStopFinish : Bool) (choices : List StreamChoice) : List StreamChoice :=
  if isToolCall choices ∧ ¬ hasNonStopFinish then
    choices.map fun choice =>
      if choice.finishReason = some "tool_calls" then { choice with finishReason := none } else choice
  else choices

def terminalChunk : List StreamChoice :=
  [{ finishReason := some (if s.sawToolCall then "tool_calls" else "stop") }]

/-- `GeminiToChatStreamState.ConvertChunk`; a chunk is its choices. -/
def convertChunk (candidates : List (GeminiChatCandidate N)) :
    Except PartialError (GeminiToChatStreamState N × List (List StreamChoice)) := do
  let (partials, cs) ← preparePartialFunctionCalls s.partialToolByCandidate candidates
  let s := { s with partialToolByCandidate := partials }
  let hasNonStopFinish := cs.any fun c =>
    c.finishReason.any fun reason => reason ≠ "" && reason ≠ "STOP"
  let (choices, isStop) := streamResponseGeminiChat2OpenAI marshal cs
  let (choices, s) := indexChoices s choices
  let s := { s with sawToolCall := s.sawToolCall || isToolCall choices }
  let choices := clearToolFinish hasNonStopFinish choices
  let s := { s with
    finishEmitted := s.finishEmitted ||
      choices.any fun choice => choice.finishReason.any fun reason => reason ≠ "" }
  if isStop ∧ ¬ s.finishEmitted then
    .ok ({ s with finishEmitted := true }, [choices, terminalChunk s])
  else .ok (s, [choices])

/-- `GeminiToChatStreamState.Finalize`, when no call is in progress. -/
def finalize : GeminiToChatStreamState N × List (List StreamChoice) :=
  if s.finishEmitted then (s, []) else ({ s with finishEmitted := true }, [terminalChunk s])

end NewApi.GeminiSource
