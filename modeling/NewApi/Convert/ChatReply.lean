/-
  NewApi.Convert.ChatReply

  What a client reads from a chat stream: the text, the reasoning, the tool calls
  and the finish reasons, added up over the chunks.
-/

import NewApi.Convert.Responses
import Mathlib.Data.List.Nodup

namespace NewApi.Convert

open NewApi.Subscription (trimSpace)

def ToolCall.chatIndex (call : ToolCall) : Int := call.index.getD 0

def ToolCall.trimmed (call : ToolCall) : ToolCall where
  index := some call.chatIndex
  id := trimSpace call.id
  name := trimSpace call.name
  arguments := call.arguments

def ToolCall.merge (call delta : ToolCall) : ToolCall :=
  { call with
    id := if call.id = "" then delta.id else call.id
    name := if call.name = "" then delta.name else call.name
    arguments := call.arguments ++ delta.arguments }

/-- The tool calls with a further delta, in the order in which their indexes came. -/
def addToolCall (calls : List ToolCall) (delta : ToolCall) : List ToolCall :=
  match calls.findIdx? (·.chatIndex = delta.chatIndex) with
  | some i => calls.modify i (·.merge delta)
  | none => calls ++ [delta]

/-- What was read so far. -/
structure ChatReply where
  text : Bytes := []
  reasoning : Bytes := []
  toolCalls : List ToolCall := []
  finishReasons : List String := []

def ChatChoice.reason (choice : ChatChoice) : Option String :=
  choice.finishReason.filter (trimSpace · ≠ "")

/-- What was read, with a further choice. -/
def ChatReply.add (reply : ChatReply) (choice : ChatChoice) : ChatReply where
  text := reply.text ++ choice.delta.getContentString
  reasoning := reply.reasoning ++ choice.delta.getReasoningContent
  toolCalls := choice.delta.toolCalls.foldl addToolCall reply.toolCalls
  finishReasons := reply.finishReasons ++ choice.reason.toList

def readChat (chunks : List ChatChunk) : ChatReply :=
  (chunks.flatMap (·.choices)).foldl ChatReply.add {}

theorem readChat_append (chunks chunks' : List ChatChunk) : readChat (chunks ++ chunks') =
      (chunks'.flatMap (·.choices)).foldl ChatReply.add (readChat chunks) := by
  unfold readChat
  rw [List.flatMap_append, List.foldl_append]

def Silent (chunks : List ChatChunk) : Prop :=
  ∀ reply : ChatReply, (chunks.flatMap (·.choices)).foldl ChatReply.add reply = reply

theorem readChat_silent {chunks : List ChatChunk} (h : Silent chunks) (before : List ChatChunk) :
    readChat (before ++ chunks) = readChat before := by
  rw [readChat_append]
  exact h _

theorem addToolCall_new {calls : List ToolCall} {delta : ToolCall}
    (h : ∀ call ∈ calls, call.chatIndex ≠ delta.chatIndex) :
    addToolCall calls delta = calls ++ [delta] := by
  unfold addToolCall
  rw [List.findIdx?_eq_none_iff.2 fun call hcall => by simpa using h call hcall]

theorem addToolCall_known {calls : List ToolCall} {delta : ToolCall} {i : Nat} {call : ToolCall}
    (hnodup : (calls.map ToolCall.chatIndex).Nodup) (hi : calls[i]? = some call)
    (hindex : call.chatIndex = delta.chatIndex) :
    addToolCall calls delta = calls.set i (call.merge delta) := by
  obtain ⟨hlt, hget⟩ := List.getElem?_eq_some_iff.1 hi
  have hfind : calls.findIdx? (·.chatIndex = delta.chatIndex) = some i := by
    rw [List.findIdx?_eq_some_iff_getElem]
    refine ⟨hlt, by simp [hget, hindex], fun j hj => ?_⟩
    intro heq
    have hilt : i < (calls.map ToolCall.chatIndex).length := by simpa using hlt
    have hsame : (calls.map ToolCall.chatIndex)[j] = (calls.map ToolCall.chatIndex)[i] := by
      simpa [hget, hindex] using heq
    exact hj.ne ((List.Nodup.getElem_inj_iff hnodup).1 hsame)
  unfold addToolCall
  rw [hfind]
  show calls.modify i _ = _
  rw [List.modify_eq_set_getElem?, hi]
  rfl

end NewApi.Convert
