/-
  NewApi.Convert.GeminiPartialArgs

  Function calls that a Gemini stream gives piece by piece
  (`gemini_chat/to_oai_chat_resp.go`): the paths of the pieces, the update of the
  arguments, and the calls that are not complete yet.

  A path is a list of characters: everything it is cut at is ASCII.  `nil` is the
  JSON value `null`, as in the `any` of the source.
-/

import NewApi.Lib.JsonString
import NewApi.Lib.JsonValue
import NewApi.Lib.Text
import Mathlib.Algebra.Group.Nat.Defs

namespace NewApi.GeminiSource

open NewApi.Lib

variable {N : Type}

/-! ## Paths -/

/-- `geminiPartialArgPathSegment` -/
inductive Segment where
  | member (name : String)
  | index (i : Nat)
deriving DecidableEq

/-- The errors of `parseGeminiPartialArgPath`. -/
inductive PathError where
  | unsupportedPath | emptyMember | unsupportedMember | unterminatedSelector | invalidMember
  | unterminatedMember | unsupportedSelector | invalidIndex | indexLimit | argumentsRoot
deriving DecidableEq

def maxGeminiPartialArgArrayIndex : Nat := 4095

/-- The characters up to the closing quote, and what follows it. -/
def scanMember (quote : Char) : List Char → Option (List Char × List Char)
  | [] => none
  | '\\' :: c :: rest => (scanMember quote rest).map fun (inner, after) => ('\\' :: c :: inner, after)
  | ['\\'] => none
  | c :: rest =>
    if c = quote then some ([], rest)
    else (scanMember quote rest).map fun (inner, after) => (c :: inner, after)

def unescapeApostrophes : List Char → List Char
  | '\\' :: '\'' :: rest => '\'' :: unescapeApostrophes rest
  | c :: rest => c :: unescapeApostrophes rest
  | [] => []

def escapeQuotes (cs : List Char) : List Char := cs.flatMap fun c => if c = '"' then ['\\', '"'] else [c]

def isHex (c : Char) : Bool := c.isDigit || ('a' ≤ c && c ≤ 'f') || ('A' ≤ c && c ≤ 'F')

/-- The text between the quotes of a JSON string. -/
def validContent : List Char → Bool
  | [] => true
  | '\\' :: 'u' :: a :: b :: c :: d :: rest => isHex a && isHex b && isHex c && isHex d && validContent rest
  | '\\' :: e :: rest => e ∈ ['"', '\\', '/', 'b', 'f', 'n', 'r', 't'] && validContent rest
  | ['\\'] => false
  | c :: rest => c ≠ '"' && ' ' ≤ c && validContent rest

/-- `Unmarshal` of a quoted text into a string. -/
def unmarshalString (content : List Char) : Option String :=
  if validContent content then
    some (String.ofList (Json.unquote (content.flatMap String.utf8EncodeChar)))
  else none

/-- `parseGeminiPartialArgMember`, after the opening quote. -/
def parseGeminiPartialArgMember (quote : Char) (cs : List Char) : Option (String × List Char) :=
  (scanMember quote cs).bind fun (inner, after) =>
    let content := if quote = '\'' then unescapeApostrophes (escapeQuotes inner) else inner
    (unmarshalString content).map fun member => (member, after)

/-- A selector in brackets, after the opening one. -/
def parseSelector : List Char → Except PathError (Segment × List Char)
  | [] => .error .unterminatedSelector
  | c :: cs =>
    if c = '\'' ∨ c = '"' then
      match parseGeminiPartialArgMember c cs with
      | none => .error .invalidMember
      | some (name, ']' :: rest) => .ok (.member name, rest)
      | some _ => .error .unterminatedMember
    else
      match (c :: cs).span Char.isDigit with
      | (digit :: digits, ']' :: rest) =>
        let index := Nat.ofDigitChars 10 (digit :: digits) 0
        if 2 ^ 63 ≤ index then .error .invalidIndex
        else if maxGeminiPartialArgArrayIndex < index then .error .indexLimit
        else .ok (.index index, rest)
      | _ => .error .unsupportedSelector

/-- The loop of `parseGeminiPartialArgPath`; every round takes a character. -/
def parseSegments : Nat → List Char → Except PathError (List Segment)
  | _, [] => .ok []
  | 0, _ => .error .unsupportedPath
  | fuel + 1, '.' :: cs =>
    let (name, rest) := cs.span fun c => c ≠ '.' && c ≠ '['
    if name = [] then .error .emptyMember
    else if name.any (· ∈ [']', '*', '?']) then .error .unsupportedMember
    else do
      let segments ← parseSegments fuel rest
      .ok (.member (String.ofList name) :: segments)
  | fuel + 1, '[' :: cs => do
    let (segment, rest) ← parseSelector cs
    let segments ← parseSegments fuel rest
    .ok (segment :: segments)
  | _ + 1, _ => .error .unsupportedSelector

def parseGeminiPartialArgPath (jsonPath : String) : Except PathError (List Segment) :=
  match (Text.trimSpace jsonPath).toList with
  | '$' :: cs => do
    let segments ← parseSegments cs.length cs
    if segments = [] then .error .argumentsRoot else .ok segments
  | _ => .error .unsupportedPath

/-! ## Arguments -/

/-- The errors of `setGeminiPartialArgValue`. -/
inductive SetError where
  | indexTraverses | memberTraverses

/-- `object[name] = value` -/
def setMember (name : String) (value : JsonValue N) :
    List (String × JsonValue N) → List (String × JsonValue N)
  | [] => [(name, value)]
  | (n, v) :: rest => if n = name then (n, value) :: rest else (n, v) :: setMember name value rest

/-- The array in which an index is set; what is missing is `nil`. -/
def arrayFor (index : Nat) : JsonValue N → Except SetError (List (JsonValue N))
  | .null => .ok (List.replicate (index + 1) .null)
  | .array items => .ok (items ++ List.replicate (index + 1 - items.length) .null)
  | _ => .error .indexTraverses

def objectFor : JsonValue N → Except SetError (List (String × JsonValue N))
  | .null => .ok []
  | .object members => .ok members
  | _ => .error .memberTraverses

def setLeaf (current value : JsonValue N) (appendString : Bool) : JsonValue N :=
  match appendString, current, value with
  | true, .string existing, .string s => .string (existing ++ s)
  | _, _, value => value

def setGeminiPartialArgValue (value : JsonValue N) (appendString : Bool) :
    JsonValue N → List Segment → Except SetError (JsonValue N)
  | current, [] => .ok (setLeaf current value appendString)
  | current, .index i :: path => do
    let items ← arrayFor i current
    let updated ← setGeminiPartialArgValue value appendString (items.getD i .null) path
    .ok (.array (items.set i updated))
  | current, .member name :: path => do
    let members ← objectFor current
    let updated ← setGeminiPartialArgValue value appendString
      ((JsonValue.lookup name members).getD .null) path
    .ok (.object (setMember name updated members))

/-! ## Calls in pieces -/

/-- `GeminiPartialArg`; `nullValue` says whether the field is there. -/
structure GeminiPartialArg (N : Type) where
  jsonPath : String
  numberValue : Option N := none
  stringValue : Option String := none
  boolValue : Option Bool := none
  nullValue : Bool := false

structure FunctionCall (N : Type) where
  id : String := ""
  functionName : String
  arguments : JsonValue N := .null
  partialArgs : List (GeminiPartialArg N) := []
  willContinue : Option Bool := none

def geminiPartialArgValue (p : GeminiPartialArg N) : Option (JsonValue N) :=
  match p.stringValue, p.numberValue, p.boolValue with
  | some s, _, _ => some (.string s)
  | none, some n, _ => some (.number n)
  | none, none, some b => some (.bool b)
  | none, none, none => if p.nullValue then some .null else none

structure GeminiPartialToolCall (N : Type) where
  id : String := ""
  name : String := ""
  arguments : List (String × JsonValue N) := []

/-- The errors of `appendPartialFunctionCall`. -/
inductive PartialError where
  | changedId | changedName | path (e : PathError) | set (e : SetError) | replacedArguments | withoutName

/-- One round of the loop over the pieces, on the arguments. -/
def appendPartialArg (arguments : List (String × JsonValue N)) (p : GeminiPartialArg N) :
    Except PartialError (List (String × JsonValue N)) :=
  match parseGeminiPartialArgPath p.jsonPath with
  | .error e => .error (.path e)
  | .ok path =>
    match geminiPartialArgValue p with
    | none => .ok arguments
    | some value =>
      match setGeminiPartialArgValue value p.stringValue.isSome (.object arguments) path with
      | .error e => .error (.set e)
      | .ok (.object updated) => .ok updated
      | .ok _ => .error .replacedArguments

def agreed (current given : String) (e : PartialError) : Except PartialError String :=
  let given := Text.trimSpace given
  if given = "" then .ok current
  else if current ≠ "" ∧ current ≠ given then .error e
  else .ok given

/-- `appendPartialFunctionCall` on the call in progress of the candidate, if any: the
    call that is still in progress, or the completed one. -/
def appendPartialFunctionCall (current : Option (GeminiPartialToolCall N)) (call : FunctionCall N) :
    Except PartialError (GeminiPartialToolCall N ⊕ FunctionCall N) := do
  let current := current.getD {}
  let id ← agreed current.id call.id .changedId
  let name ← agreed current.name call.functionName .changedName
  let arguments ← call.partialArgs.foldlM appendPartialArg current.arguments
  if call.willContinue = some true then .ok (.inl { id, name, arguments })
  else if name = "" then .error .withoutName
  else .ok (.inr { id, functionName := name, arguments := .object arguments })

end NewApi.GeminiSource
