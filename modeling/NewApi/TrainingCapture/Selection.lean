/-
  NewApi.TrainingCapture.Selection

  Which rows of a signal are new (`dedup.go`, `fingerprint_set.go`): with a
  conversation, what lies behind the stored watermark; without one, the messages
  whose fingerprints the process has not seen.

  The watermarks of a conversation are computed here and stored by the caller.
  The set of seen fingerprints is written while the rows are selected.
-/

import NewApi.Lib.Recent
import NewApi.TrainingCapture.TextIncrement

namespace NewApi.TrainingCapture

open NewApi.Lib

def ascii (s : String) : Bytes := s.toList.map fun c => UInt8.ofNat c.toNat

structure Message where
  role : Bytes
  content : Bytes
  kind : Bytes := []

def roleRequest : Bytes := ascii "request"
def roleAssistant : Bytes := ascii "assistant"
def roleUser : Bytes := ascii "user"

def kindRequestMessage : Bytes := ascii "message"

/-- `KindRequestFull`, `KindRequestSuffix` -/
def RequestKind.text : RequestKind → Bytes
  | .full => ascii "full"
  | .suffix => ascii "suffix"

/-- The digest, and `strings.ToLower(strings.TrimSpace(role))`. -/
structure Hashing where
  sha : Digest
  lowerTrim : Bytes → Bytes

def Hashing.fingerprint (h : Hashing) (m : Message) : String :=
  TrainingCapture.fingerprint h.sha (h.lowerTrim m.role) m.content

/-! ## SelectIncrement -/

structure Watermark where
  uploadedCount : Int := 0
  prefixFingerprint : String := ""

def prefixFingerprint (h : Hashing) (messages : List Message) (n : Int) : String :=
  if n ≤ 0 ∨ messages = [] then ""
  else h.sha.hex ((messages.take n.toNat).flatMap fun m => ascii (h.fingerprint m) ++ [0])

def watermarkAfter (h : Hashing) (messages : List Message) : Watermark :=
  if messages = [] then {}
  else
    { uploadedCount := messages.length,
      prefixFingerprint := prefixFingerprint h messages messages.length }

def selectIncrement (h : Hashing) (messages : List Message) (watermark : Watermark) :
    List Message × Watermark :=
  if messages = [] then ([], watermark)
  else if watermark.uploadedCount < 0 ∨ messages.length < watermark.uploadedCount then
    (messages, watermarkAfter h messages)
  else if watermark.uploadedCount = 0 then (messages, watermarkAfter h messages)
  else if watermark.prefixFingerprint ≠ "" ∧
      prefixFingerprint h messages watermark.uploadedCount ≠ watermark.prefixFingerprint then
    (messages, watermarkAfter h messages)
  else
    let increment := messages.drop watermark.uploadedCount.toNat
    if increment = [] then ([], watermark) else (increment, watermarkAfter h messages)

/-! ### The snapshots of a conversation -/

section Snapshots

variable {h : Hashing} {before messages : List Message}

theorem watermarkAfter_eq :
    watermarkAfter h before = ⟨before.length, prefixFingerprint h before before.length⟩ := by
  cases before <;> rfl

theorem selectIncrement_of_prefix (hpre : before <+: messages) :
    selectIncrement h messages (watermarkAfter h before) =
      (messages.drop before.length, watermarkAfter h messages) := by
  obtain ⟨more, rfl⟩ := hpre
  by_cases hnil : before ++ more = []
  · obtain ⟨rfl, rfl⟩ := List.append_eq_nil_iff.1 hnil
    rfl
  have hsame : prefixFingerprint h (before ++ more) before.length =
      prefixFingerprint h before before.length := by
    cases before <;> simp [prefixFingerprint]
  have hle : ¬ ((before.length : Int) < 0 ∨ ((before ++ more).length : Int) < before.length) := by
    rw [List.length_append]
    omega
  rw [selectIncrement, if_neg hnil, watermarkAfter_eq]
  simp only [if_neg hle, hsame, ne_eq, not_true, and_false, if_false, Int.toNat_natCast,
    List.drop_left]
  split
  · rename_i hzero
    rw [List.length_eq_zero_iff.1 (Int.ofNat_eq_zero.1 hzero)]
    rfl
  · split
    · rename_i hmore
      rw [hmore, List.append_nil, watermarkAfter_eq]
    · rfl

/-- A snapshot is captured, after what was uploaded and with the stored watermark. -/
def captureSnapshot (h : Hashing) (st : List Message × Watermark) (messages : List Message) :
    List Message × Watermark :=
  (st.1 ++ (selectIncrement h messages st.2).1, (selectIncrement h messages st.2).2)

/-- **A conversation that only grows is uploaded message by message, each once**, whichever
    of its states are captured. -/
theorem captured_growing {snapshots : List (List Message)}
    (hgrows : List.IsChain (· <+: ·) (before :: snapshots)) :
    snapshots.foldl (captureSnapshot h) (before, watermarkAfter h before) =
      ((before :: snapshots).getLast (List.cons_ne_nil _ _),
        watermarkAfter h ((before :: snapshots).getLast (List.cons_ne_nil _ _))) := by
  induction snapshots generalizing before with
  | nil => rfl
  | cons messages snapshots ih =>
    obtain ⟨hpre, hgrows⟩ := List.isChain_cons_cons.1 hgrows
    have hjoin : before ++ messages.drop before.length = messages := by
      obtain ⟨more, rfl⟩ := hpre
      rw [List.drop_left]
    rw [List.foldl_cons, captureSnapshot, selectIncrement_of_prefix hpre, hjoin]
    exact ih hgrows

def letters (text : String) : List Message :=
  text.toList.map fun c => { role := roleUser, content := [UInt8.ofNat c.toNat] }

theorem captured_growing_twice : [letters "a", letters "abc"].foldl
    (captureSnapshot ⟨spelled, id⟩) ([], watermarkAfter ⟨spelled, id⟩ []) =
      (letters "abc", watermarkAfter ⟨spelled, id⟩ (letters "abc")) :=
  captured_growing (by simp [letters])

end Snapshots

/-! ## GlobalDedup -/

/-- `BoundedFingerprintSet`, the most recently used first. -/
structure FingerprintSet where
  capacity : Nat
  order : List String
  nodup : order.Nodup
  length_le : order.length ≤ capacity

namespace FingerprintSet

variable (s : FingerprintSet)

variable (fingerprint : String)

def moveToFront (h : fingerprint ∈ s.order) : FingerprintSet where
  capacity := s.capacity
  order := fingerprint :: s.order.erase fingerprint
  nodup := List.nodup_cons.2 ⟨s.nodup.not_mem_erase, s.nodup.erase fingerprint⟩
  length_le := by
    have hlen := List.length_erase_add_one h
    have hle := s.length_le
    rw [List.length_cons]
    omega

/-- `order.PushFront`, and what is least recently used goes. -/
def pushFront (h : fingerprint ∉ s.order) : FingerprintSet where
  capacity := s.capacity
  order := (fingerprint :: s.order).take s.capacity
  nodup := (List.nodup_cons.2 ⟨h, s.nodup⟩).sublist (List.take_sublist _ _)
  length_le := List.length_take_le _ _

/-- `Has`, and the touch of a hit -/
def has : Bool × FingerprintSet :=
  if h : fingerprint ≠ "" ∧ fingerprint ∈ s.order then (true, s.moveToFront fingerprint h.2)
  else (false, s)

def add : FingerprintSet :=
  if fingerprint = "" then s
  else if h : fingerprint ∈ s.order then s.moveToFront fingerprint h
  else s.pushFront fingerprint h

theorem moveToFront_order {fingerprint : String} (h : fingerprint ∈ s.order) :
    (s.moveToFront fingerprint h).order = use s.capacity s.order fingerprint := by
  have hle := (s.moveToFront fingerprint h).length_le
  exact (List.take_of_length_le hle).symm

theorem pushFront_order {fingerprint : String} (h : fingerprint ∉ s.order) :
    (s.pushFront fingerprint h).order = use s.capacity s.order fingerprint := by
  rw [use, List.erase_of_not_mem h, pushFront]

@[ext] theorem ext {s t : FingerprintSet} (hcap : s.capacity = t.capacity)
    (horder : s.order = t.order) : s = t := by
  cases s
  cases t
  cases hcap
  cases horder
  rfl

end FingerprintSet

def globalDedup (h : Hashing) : List Message → FingerprintSet → List Message × FingerprintSet
  | [], seen => ([], seen)
  | m :: messages, seen =>
    match seen.has (h.fingerprint m) with
    | (true, seen) => globalDedup h messages seen
    | (false, seen) =>
      let (out, seen) := globalDedup h messages (seen.add (h.fingerprint m))
      (m :: out, seen)

section GlobalDedup

variable (h : Hashing)

theorem fingerprint_ne_empty (m : Message) : h.fingerprint m ≠ "" := h.sha.nonempty _

theorem globalDedup_seen_before {m : Message} {seen : FingerprintSet}
    (hm : h.fingerprint m ∈ seen.order) (messages : List Message) :
    globalDedup h (m :: messages) seen =
      globalDedup h messages (seen.moveToFront (h.fingerprint m) hm) := by
  rw [globalDedup, FingerprintSet.has, dif_pos ⟨fingerprint_ne_empty h m, hm⟩]

theorem globalDedup_new {m : Message} {seen : FingerprintSet}
    (hm : h.fingerprint m ∉ seen.order) (messages : List Message) :
    globalDedup h (m :: messages) seen =
      (m :: (globalDedup h messages (seen.pushFront (h.fingerprint m) hm)).1,
        (globalDedup h messages (seen.pushFront (h.fingerprint m) hm)).2) := by
  have hadd : seen.add (h.fingerprint m) = seen.pushFront (h.fingerprint m) hm := by
    rw [FingerprintSet.add, if_neg (fingerprint_ne_empty h m), dif_neg hm]
  rw [globalDedup, FingerprintSet.has, dif_neg (fun hboth => hm hboth.2), ← hadd]

theorem globalDedup_order (messages : List Message) (seen : FingerprintSet) :
    (globalDedup h messages seen).2.capacity = seen.capacity ∧
      (globalDedup h messages seen).2.order =
        (messages.map h.fingerprint).foldl (use seen.capacity) seen.order := by
  induction messages generalizing seen with
  | nil => exact ⟨rfl, rfl⟩
  | cons m messages ih =>
    rw [List.map_cons, List.foldl_cons]
    by_cases hm : h.fingerprint m ∈ seen.order
    · rw [globalDedup_seen_before h hm, ← FingerprintSet.moveToFront_order seen hm]
      exact ih _
    · rw [globalDedup_new h hm, ← FingerprintSet.pushFront_order seen hm]
      exact ih _

theorem exists_new_of_globalDedup {messages : List Message} {seen : FingerprintSet}
    (hne : (globalDedup h messages seen).1 ≠ []) :
    ∃ fingerprint ∈ messages.map h.fingerprint, fingerprint ∉ seen.order := by
  induction messages generalizing seen with
  | nil => exact absurd rfl hne
  | cons m messages ih =>
    rw [List.map_cons]
    by_cases hm : h.fingerprint m ∈ seen.order
    · rw [globalDedup_seen_before h hm] at hne
      obtain ⟨fingerprint, hmem, hnew⟩ := ih hne
      refine ⟨fingerprint, List.mem_cons_of_mem _ hmem, fun hold => hnew ?_⟩
      exact (List.perm_cons_erase hm).subset hold
    · exact ⟨_, List.mem_cons_self, hm⟩

theorem globalDedup_append (messages more : List Message) (seen : FingerprintSet) :
    globalDedup h (messages ++ more) seen =
      ((globalDedup h messages seen).1 ++ (globalDedup h more (globalDedup h messages seen).2).1,
        (globalDedup h more (globalDedup h messages seen).2).2) := by
  induction messages generalizing seen with
  | nil => rfl
  | cons m messages ih =>
    rw [List.cons_append, globalDedup, globalDedup]
    rcases seen.has (h.fingerprint m) with ⟨_ | _, seen⟩
    · simp [ih]
    · exact ih seen

/-- **What is uploaded without a conversation**: a message whose fingerprint is not one of
    the last that the set has room for, of those seen before it. -/
theorem globalDedup_concat (messages : List Message) (m : Message) (seen : FingerprintSet) :
    (globalDedup h (messages ++ [m]) seen).1 = (globalDedup h messages seen).1 ++
      if h.fingerprint m ∈ recent seen.capacity
        ((messages.map h.fingerprint).reverse ++ seen.order) then [] else [m] := by
  have horder := (globalDedup_order h messages seen).2
  have hrecent := foldl_use_recent seen.capacity (messages.map h.fingerprint) seen.order
  rw [recent_of_nodup seen.nodup seen.length_le, ← horder] at hrecent
  rw [globalDedup_append, ← hrecent]
  split
  · rename_i hm
    rw [globalDedup_seen_before h hm]
    rfl
  · rename_i hm
    rw [globalDedup_new h hm]
    rfl

end GlobalDedup

def prepareRequestRows (kind : Bytes) (messages : List Message) : List Message :=
  messages.map fun m =>
    let m := if m.role = roleUser then { m with role := roleRequest } else m
    if m.role = roleRequest ∧ m.kind = [] then { m with kind := kind } else m

/-! ## The rows of a signal -/

/-- `CaptureSignal`, as `processSignal` reads it: `reply` and `conversationId`
    are trimmed, `dirPath` is the directory of its day, user and model. -/
structure CaptureSignal where
  userId : Int
  messages : List Message
  reply : Bytes := []
  conversationId : Bytes := []
  tailOnly : Bytes := []
  dirPath : Bytes := []

/-- `TrainingDataWatermark`, the row of a user's conversation -/
structure StoredWatermark where
  uploadedCount : Int := 0
  prefixFingerprint : String := ""
  requestTextBytes : Int := 0
  requestTextHash : String := ""

def isSingleRequestBlob : List Message → Bool
  | [m] => m.role = roleRequest
  | _ => false

def CaptureSignal.sequence (signal : CaptureSignal) : List Message :=
  if !isSingleRequestBlob signal.messages && signal.reply ≠ [] then
    signal.messages ++ [{ role := roleAssistant, content := signal.reply }]
  else signal.messages

/-- What `processSignal` has once the rows are selected. -/
structure Selected where
  rows : List Message
  next : StoredWatermark := {}
  seen : FingerprintSet

/-- The request row of a text and the watermark behind it. -/
def selectText (h : Hashing) (text : Bytes) (current : StoredWatermark) :
    List Message × StoredWatermark :=
  let (suffix, next) := selectTextIncrement h.sha text
    { uploadedBytes := current.requestTextBytes, prefixHash := current.requestTextHash }
  (if suffix = [] then []
    else [{ role := roleRequest, content := suffix, kind := (requestKindFor suffix text).text }],
    { requestTextBytes := next.uploadedBytes, requestTextHash := next.prefixHash })

/-- The selection of `processSignal` up to the increment. -/
def selectRows (h : Hashing) (signal : CaptureSignal) (stored : Option StoredWatermark)
    (seen : FingerprintSet) : Selected :=
  let useTextIncrement := isSingleRequestBlob signal.messages
  let messages := signal.sequence
  if signal.conversationId ≠ [] then
    let current := stored.getD {}
    if useTextIncrement then
      let text := if signal.tailOnly ≠ [] then signal.tailOnly
        else (messages.headD { role := [], content := [] }).content
      let (rows, next) := selectText h text current
      { rows := rows, next := next, seen := seen }
    else
      let (increment, next) := selectIncrement h messages
        { uploadedCount := current.uploadedCount, prefixFingerprint := current.prefixFingerprint }
      { rows := prepareRequestRows kindRequestMessage increment,
        next := { uploadedCount := next.uploadedCount,
                  prefixFingerprint := next.prefixFingerprint },
        seen := seen }
  else
    let (increment, seen) := globalDedup h messages seen
    { rows := prepareRequestRows kindRequestMessage increment, seen := seen }

/-- The selection with the reply behind a text that has moved on. -/
def select (h : Hashing) (signal : CaptureSignal) (stored : Option StoredWatermark)
    (seen : FingerprintSet) : Selected :=
  let s := selectRows h signal stored seen
  if s.rows ≠ [] ∧ isSingleRequestBlob signal.messages ∧ signal.reply ≠ [] then
    { s with rows := s.rows ++ [{ role := roleAssistant, content := signal.reply }] }
  else s

theorem select_of_rows {h : Hashing} {signal : CaptureSignal}
    {stored : Option StoredWatermark} {seen : FingerprintSet} :
    (select h signal stored seen).seen = (selectRows h signal stored seen).seen ∧
      ((select h signal stored seen).rows ≠ [] →
        (selectRows h signal stored seen).rows ≠ []) := by
  unfold select
  simp only
  split
  · rename_i hmoved
    exact ⟨rfl, fun _ => hmoved.1⟩
  · exact ⟨rfl, id⟩

theorem select_seen {h : Hashing} {signal : CaptureSignal} (hconv : signal.conversationId ≠ [])
    (stored : Option StoredWatermark) (seen : FingerprintSet) :
    (select h signal stored seen).seen = seen := by
  rw [select_of_rows.1, selectRows]
  simp only [if_pos hconv]
  split <;> rfl

/-- The signal has more distinct messages than the set holds, and the set is the
    last of them already. -/
def Refills (h : Hashing) (signal : CaptureSignal) (seen : FingerprintSet) : Prop :=
  let latestFirst := (signal.sequence.map h.fingerprint).reverse
  seen.capacity < latestFirst.eraseDups.length ∧ recent seen.capacity latestFirst = seen.order

/-- **Without a conversation rows change the seen set**, unless it is refilled. -/
theorem select_seen_iff {h : Hashing} {signal : CaptureSignal} (hconv : signal.conversationId = [])
    {stored : Option StoredWatermark} {seen : FingerprintSet}
    (hrows : (select h signal stored seen).rows ≠ []) :
    (select h signal stored seen).seen = seen ↔ Refills h signal seen := by
  have hstray : selectRows h signal stored seen =
      { rows := prepareRequestRows kindRequestMessage (globalDedup h signal.sequence seen).1,
        seen := (globalDedup h signal.sequence seen).2 } := by
    rw [selectRows]
    simp only [hconv, ne_eq, not_true, if_false]
  have hne : (globalDedup h signal.sequence seen).1 ≠ [] := by
    intro hnil
    apply select_of_rows.2 hrows
    rw [hstray, hnil]
    rfl
  obtain ⟨hcap, horder⟩ := globalDedup_order h signal.sequence seen
  have hnew := exists_new_of_globalDedup h hne
  rw [select_of_rows.1, hstray]
  rw [FingerprintSet.ext_iff, hcap, horder]
  exact (and_iff_right rfl).trans (foldl_use_eq_self_iff seen.nodup seen.length_le hnew)

end NewApi.TrainingCapture
