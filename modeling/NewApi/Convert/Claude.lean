/-
  NewApi.Convert.Claude

  The events of a Claude Messages stream (`dto.ClaudeResponse`), and what makes a
  stream of them well formed: it begins with the one `message_start`, every content
  block is started, gets its deltas and is stopped, and one `message_delta` and
  `message_stop` end it.
-/

import NewApi.Lib.Blocks
import NewApi.Convert.Responses

namespace NewApi.Convert

open NewApi.Lib

/-- The types of content blocks. -/
inductive BlockKind where
  | text | thinking | toolUse
deriving DecidableEq

/-- The block a `content_block_start` event opens. -/
inductive ContentBlock where
  | text
  | thinking
  | toolUse (id name : String)

def ContentBlock.kind : ContentBlock → BlockKind
  | .text => .text
  | .thinking => .thinking
  | .toolUse _ _ => .toolUse

/-- A `web_search_result_location` citation. -/
structure Citation where
  url : String
  title : String := ""
  citedText : String := ""
  encryptedIndex : String := ""

/-- The delta of a `content_block_delta` event. -/
inductive BlockDelta where
  | text (value : Bytes)
  | thinking (value : Bytes)
  | inputJson (value : Bytes)
  | citations (citation : Citation)

def BlockDelta.ofKind : BlockKind → Bytes → BlockDelta
  | .text => .text
  | .thinking => .thinking
  | .toolUse => .inputJson

def BlockDelta.value : BlockDelta → Bytes
  | .text value | .thinking value | .inputJson value => value
  | .citations _ => []

def BlockDelta.kind : BlockDelta → BlockKind
  | .text _ | .citations _ => .text
  | .thinking _ => .thinking
  | .inputJson _ => .toolUse

@[simp] theorem BlockDelta.value_ofKind (kind : BlockKind) (value : Bytes) :
    (BlockDelta.ofKind kind value).value = value := by
  cases kind <;> rfl

@[simp] theorem BlockDelta.kind_ofKind (kind : BlockKind) (value : Bytes) :
    (BlockDelta.ofKind kind value).kind = kind := by
  cases kind <;> rfl

/-- `ClaudeResponse` -/
inductive ClaudeEvent where
  | messageStart (id model : String)
  | contentBlockStart (index : Nat) (block : ContentBlock)
  | contentBlockDelta (index : Nat) (delta : BlockDelta)
  | contentBlockStop (index : Nat)
  | messageDelta (stopReason : String)
  | messageStop

def blockView : ClaudeEvent → Option (Nat × Mark UInt8)
  | .contentBlockStart index _ => some (index, .opened)
  | .contentBlockDelta index delta => some (index, .part delta.value)
  | .contentBlockStop index => some (index, .closed)
  | _ => none

def ClaudeEvent.isMessageStart : ClaudeEvent → Bool
  | .messageStart _ _ => true
  | _ => false

def ClaudeEvent.isEnding : ClaudeEvent → Bool
  | .messageDelta _ | .messageStop => true
  | _ => false

def ClaudeEvent.Inner (e : ClaudeEvent) : Prop := e.isMessageStart = false ∧ e.isEnding = false

/-- A Claude stream that carries these values, one for each block it starts: every
    delta lies between the one start and the one stop of its block, and the deltas of
    a block add up to its value. -/
structure WellFormedClaude (log : List ClaudeEvent) (values : Nat → Option Bytes) : Prop where
  start : ∃ first rest, log = first :: rest ∧ first.isMessageStart = true ∧
    ∀ e ∈ rest, e.isMessageStart = false
  blocks : Tracks blockView log fun i => (values i).map fun value => ⟨value, true⟩
  ending : ∃ body stopReason, log = body ++ [.messageDelta stopReason, .messageStop] ∧
    ∀ e ∈ body, e.isEnding = false

end NewApi.Convert
