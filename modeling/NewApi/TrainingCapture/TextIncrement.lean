/-
  NewApi.TrainingCapture.TextIncrement

  The text increments of the training capture: `SelectTextIncrement` cuts the
  part already uploaded off a conversation's text, `requestKindFor` labels the
  row, and a reader puts the rows together again, replacing its text on a
  'full' row and appending on a 'suffix' row.

  The cut is at the byte length of the last uploaded text, and its guard is a
  fingerprint of the prefix with its white space normalised and its invalid
  bytes read as U+FFFD.  So the reader is exact as long as no edit hides behind
  the normalisation: a prefix that normalises to the uploaded text is that text.
-/

import NewApi.Lib.Run
import Mathlib.Data.List.DropRight

namespace NewApi.TrainingCapture

open NewApi.Lib

abbrev Bytes := List UInt8

/-! ## Runes -/

def runeError : Nat := 0xFFFD

def isContinuation (b : Nat) : Bool := 0x80 ≤ b && b ≤ 0xBF

def acceptsThree (b0 b1 : Nat) : Bool :=
  if b0 = 0xE0 then 0xA0 ≤ b1 && b1 ≤ 0xBF
  else if b0 = 0xED then 0x80 ≤ b1 && b1 ≤ 0x9F
  else 0xE1 ≤ b0 && b0 ≤ 0xEF && isContinuation b1

def acceptsFour (b0 b1 : Nat) : Bool :=
  if b0 = 0xF0 then 0x90 ≤ b1 && b1 ≤ 0xBF
  else if b0 = 0xF4 then 0x80 ≤ b1 && b1 ≤ 0x8F
  else 0xF1 ≤ b0 && b0 ≤ 0xF3 && isContinuation b1

/-- The rune that starts at a byte and its width: an invalid byte is `RuneError`
    of width one. -/
def decodeRune (b0 : UInt8) (rest : Bytes) : Nat × Nat :=
  let b0 := b0.toNat
  if b0 < 0x80 then (b0, 1)
  else
    match rest.map UInt8.toNat with
    | [] => (runeError, 1)
    | b1 :: rest =>
      if 0xC2 ≤ b0 ∧ b0 ≤ 0xDF ∧ isContinuation b1 then (b0 % 32 * 64 + b1 % 64, 2)
      else
        match rest with
        | [] => (runeError, 1)
        | b2 :: rest =>
          if acceptsThree b0 b1 ∧ isContinuation b2 then
            (b0 % 16 * 4096 + b1 % 64 * 64 + b2 % 64, 3)
          else
            match rest with
            | [] => (runeError, 1)
            | b3 :: _ =>
              if acceptsFour b0 b1 ∧ isContinuation b2 ∧ isContinuation b3 then
                (b0 % 8 * 262144 + b1 % 64 * 4096 + b2 % 64 * 64 + b3 % 64, 4)
              else (runeError, 1)

/-- The runes of `for _, r := range s`; `skip` bytes belong to the last one. -/
def runesFrom : Nat → Bytes → List Nat
  | _, [] => []
  | skip + 1, _ :: bs => runesFrom skip bs
  | 0, b :: bs => (decodeRune b bs).1 :: runesFrom ((decodeRune b bs).2 - 1) bs

def runes (s : Bytes) : List Nat := runesFrom 0 s

/-- `WriteRune` -/
def encodeRune (r : Nat) : Bytes :=
  (if r < 0x80 then [r]
  else if r < 0x800 then [0xC0 + r / 64, 0x80 + r % 64]
  else if r < 0x10000 then [0xE0 + r / 4096, 0x80 + r / 64 % 64, 0x80 + r % 64]
  else [0xF0 + r / 262144, 0x80 + r / 4096 % 64, 0x80 + r / 64 % 64, 0x80 + r % 64]).map
    UInt8.ofNat

def isSpace (r : Nat) : Bool :=
  (9 ≤ r && r ≤ 13) || r == 0x20 || r == 0x85 || r == 0xA0 || r == 0x1680 ||
    (0x2000 ≤ r && r ≤ 0x200A) || r == 0x2028 || r == 0x2029 || r == 0x202F || r == 0x205F ||
    r == 0x3000

/-- `strings.TrimSpace` on a text by its runes. -/
def trimSpace (rs : List Nat) : List Nat := (rs.dropWhile isSpace).rdropWhile isSpace

/-! ## Fingerprints -/

/-- The white space that `normalizeContent` folds. -/
def isBlank (r : Nat) : Bool := (9 ≤ r && r ≤ 13) || r == 0x20 || r == 0xA0 || r == 0x3000

/-- The loop of `normalizeContent`: a run of blanks is one space. -/
def foldBlanks : Bool → List Nat → List Nat
  | _, [] => []
  | lastWasSpace, r :: rs =>
    if isBlank r then
      if lastWasSpace then foldBlanks true rs else 0x20 :: foldBlanks true rs
    else r :: foldBlanks false rs

def normalizeContent (content : Bytes) : Bytes :=
  (trimSpace (foldBlanks false (runes content))).flatMap encodeRune

/-- SHA-256 in hexadecimal, taken to be collision free. -/
structure Digest where
  hex : Bytes → String
  injective : Function.Injective hex
  nonempty : ∀ b, hex b ≠ ""

variable (sha : Digest)

/-- `Fingerprint`; the role is lower-case and trimmed already. -/
def fingerprint (role content : Bytes) : String :=
  sha.hex (role ++ 0 :: normalizeContent content)

variable (text : Bytes)

/-- `HashText`: the role is "text". -/
def hashText : String :=
  fingerprint sha [0x74, 0x65, 0x78, 0x74] text

/-! ## Increments and rows -/

structure TextWatermark where
  uploadedBytes : Int := 0
  prefixHash : String := ""

def textWatermarkAfter : TextWatermark :=
  if text = [] then {} else { uploadedBytes := text.length, prefixHash := hashText sha text }

def selectTextIncrement (prev : TextWatermark) : Bytes × TextWatermark :=
  if text = [] then ([], prev)
  else if prev.uploadedBytes ≤ 0 then (text, textWatermarkAfter sha text)
  else if prev.uploadedBytes > text.length then (text, textWatermarkAfter sha text)
  else
    let head := text.take prev.uploadedBytes.toNat
    if prev.prefixHash ≠ "" ∧ hashText sha head ≠ prev.prefixHash then
      (text, textWatermarkAfter sha text)
    else
      let suffix := text.drop prev.uploadedBytes.toNat
      if suffix = [] then ([], prev) else (suffix, textWatermarkAfter sha text)

inductive RequestKind where
  | full
  | suffix

def requestKindFor (suffix whole : Bytes) : RequestKind :=
  if whole ≠ [] ∧ suffix.length = whole.length then .full else .suffix

structure Row where
  kind : RequestKind
  content : Bytes

def read (held : Bytes) (row : Row) : Bytes :=
  match row.kind with
  | .full => row.content
  | .suffix => held ++ row.content

/-- The stored watermark of a conversation, and what a reader of its rows holds. -/
structure Conversation where
  watermark : TextWatermark := {}
  held : Bytes := []

/-- One text of the conversation: a row, and the watermark behind it, if the
    increment is not empty. -/
def capture (c : Conversation) (text : Bytes) : Conversation :=
  let (suffix, next) := selectTextIncrement sha text c.watermark
  if suffix = [] then c
  else { watermark := next, held := read c.held ⟨requestKindFor suffix text, suffix⟩ }

/-! ## When the reader is exact -/

/-- A text that may follow another: it is not emptied, and where its beginning,
    cut at the length of the one before, reads the same with the white space
    normalised, it is the same. -/
def Follows (before text : Bytes) : Prop :=
  (text = [] → before = []) ∧
    (before.length ≤ text.length →
      normalizeContent (text.take before.length) = normalizeContent before →
      text.take before.length = before)

instance (before text : Bytes) : Decidable (Follows before text) :=
  inferInstanceAs (Decidable (_ ∧ _))

def exactAt : Conversation :=
  { watermark := textWatermarkAfter sha text, held := text }

theorem hashText_eq_iff (s t : Bytes) :
    hashText sha s = hashText sha t ↔ normalizeContent s = normalizeContent t := by
  unfold hashText fingerprint
  constructor
  · intro h
    have hbytes := sha.injective h
    rw [List.append_cancel_left_eq, List.cons.injEq] at hbytes
    exact hbytes.2
  · intro h
    rw [h]

theorem hashText_ne_empty : hashText sha text ≠ "" :=
  sha.nonempty _

theorem capture_full {sha : Digest} {c : Conversation} {text : Bytes} (htext : text ≠ [])
    (h : selectTextIncrement sha text c.watermark = (text, textWatermarkAfter sha text)) :
    capture sha c text = exactAt sha text := by
  unfold capture
  rw [h]
  simp [htext, requestKindFor, read, exactAt]

theorem capture_suffix {sha : Digest} {c : Conversation} {text : Bytes} {n : Nat} (hn : 0 < n)
    (hle : n < text.length) (h : selectTextIncrement sha text c.watermark =
      (text.drop n, textWatermarkAfter sha text)) : capture sha c text =
      { watermark := textWatermarkAfter sha text, held := c.held ++ text.drop n } := by
  have hne : text.drop n ≠ [] := by
    rw [Ne, List.drop_eq_nil_iff]
    omega
  have hlen : (text.drop n).length ≠ text.length := by
    rw [List.length_drop]
    omega
  unfold capture
  rw [h]
  simp only [if_neg hne, requestKindFor, hlen, and_false, if_false, read]

theorem capture_none {sha : Digest} {c : Conversation} {text : Bytes}
    (h : (selectTextIncrement sha text c.watermark).1 = []) : capture sha c text = c := by
  unfold capture
  simp [h]

theorem capture_first : capture sha (exactAt sha []) text = exactAt sha text := by
  by_cases htext : text = []
  · subst htext
    exact capture_none (by simp [selectTextIncrement])
  · refine capture_full htext ?_
    simp [selectTextIncrement, htext, exactAt, textWatermarkAfter]

theorem capture_edited {sha : Digest} {before text : Bytes} (hbefore : before ≠ [])
    (htext : text ≠ []) (h : before.length ≤ text.length →
      normalizeContent (text.take before.length) ≠ normalizeContent before) :
    capture sha (exactAt sha before) text = exactAt sha text := by
  refine capture_full htext ?_
  have hpos := List.length_pos_iff.2 hbefore
  unfold selectTextIncrement exactAt textWatermarkAfter
  simp only [if_neg htext, if_neg hbefore, Int.toNat_natCast]
  rw [if_neg (by omega)]
  by_cases hlong : before.length ≤ text.length
  · rw [if_neg (by omega), if_pos]
    exact ⟨hashText_ne_empty sha before, fun heq => h hlong ((hashText_eq_iff sha _ _).1 heq)⟩
  · rw [if_pos (by omega)]

theorem capture_cut {sha : Digest} {before text : Bytes} (hbefore : before ≠ [])
    (hlong : before.length ≤ text.length)
    (h : normalizeContent (text.take before.length) = normalizeContent before) :
    capture sha (exactAt sha before) text =
      if before.length = text.length then exactAt sha before
      else
        { watermark := textWatermarkAfter sha text
          held := before ++ text.drop before.length } := by
  have hpos := List.length_pos_iff.2 hbefore
  have htext : text ≠ [] := by
    rintro rfl
    simp at hlong
    exact hbefore hlong
  have hselect : selectTextIncrement sha text (exactAt sha before).watermark =
      if text.drop before.length = [] then ([], (exactAt sha before).watermark)
      else (text.drop before.length, textWatermarkAfter sha text) := by
    have hhash : hashText sha (text.take before.length) = hashText sha before :=
      (hashText_eq_iff sha _ _).2 h
    unfold selectTextIncrement exactAt textWatermarkAfter
    simp only [if_neg htext, if_neg hbefore, Int.toNat_natCast]
    rw [if_neg (by omega), if_neg (by omega), if_neg (fun hne => hne.2 hhash)]
  by_cases hsame : before.length = text.length
  · rw [if_pos hsame]
    refine capture_none ?_
    rw [hselect, if_pos (List.drop_eq_nil_iff.2 hsame.ge)]
  rw [if_neg hsame]
  refine capture_suffix hpos (by omega) ?_
  rw [hselect, if_neg]
  rw [List.drop_eq_nil_iff]
  omega

theorem capture_exactAt (before text : Bytes) :
    ((capture sha (exactAt sha before) text).held = text ↔ Follows before text) ∧
      (Follows before text → capture sha (exactAt sha before) text = exactAt sha text) := by
  by_cases hbefore : before = []
  · subst hbefore
    rw [capture_first]
    exact ⟨iff_of_true rfl ⟨fun _ => rfl, fun _ _ => rfl⟩, fun _ => rfl⟩
  by_cases htext : text = []
  · -- nothing is uploaded for an empty text
    subst htext
    have hsame : capture sha (exactAt sha before) [] = exactAt sha before :=
      capture_none (by simp [selectTextIncrement])
    rw [hsame]
    exact ⟨iff_of_false hbefore fun h => hbefore (h.1 rfl), fun h => absurd (h.1 rfl) hbefore⟩
  by_cases hcut : before.length ≤ text.length ∧
      normalizeContent (text.take before.length) = normalizeContent before
  · rw [capture_cut hbefore hcut.1 hcut.2]
    have hfollows : Follows before text ↔ text.take before.length = before :=
      ⟨fun h => h.2 hcut.1 hcut.2, fun h => ⟨fun h => absurd h htext, fun _ _ => h⟩⟩
    rw [hfollows]
    by_cases hsame : before.length = text.length
    · rw [if_pos hsame, hsame, List.take_length]
      exact ⟨eq_comm, fun h => by rw [h]⟩
    rw [if_neg hsame]
    constructor
    · constructor
      · intro h
        have htake := congrArg (List.take before.length) h
        rw [List.take_left] at htake
        exact htake.symm
      intro h
      nth_rewrite 1 [← h]
      exact List.take_append_drop _ _
    intro h
    congr 1
    nth_rewrite 1 [← h]
    exact List.take_append_drop _ _
  have hedited : before.length ≤ text.length →
      normalizeContent (text.take before.length) ≠ normalizeContent before :=
    fun hlong heq => hcut ⟨hlong, heq⟩
  rw [capture_edited hbefore htext hedited]
  exact ⟨iff_of_true rfl ⟨fun h => absurd h htext, fun hlong heq => absurd heq (hedited hlong)⟩,
    fun _ => rfl⟩

/-! ## Every sequence of texts -/

theorem exact_from (before : Bytes) (texts : List Bytes) : (∀ n text, texts[n]? = some text →
        (run (capture sha) (exactAt sha before) (texts.take (n + 1))).held = text) ↔
      List.IsChain Follows (before :: texts) := by
  induction texts generalizing before with
  | nil => simp
  | cons text texts ih =>
    rw [List.isChain_cons_cons, ← ih text]
    obtain ⟨hexact, hthen⟩ := capture_exactAt sha before text
    constructor
    · intro h
      have hfollows : Follows before text := hexact.1 (h 0 text rfl)
      refine ⟨hfollows, fun n t ht => ?_⟩
      have hlater := h (n + 1) t ht
      rwa [List.take_succ_cons, run_cons, hthen hfollows] at hlater
    rintro ⟨hfollows, h⟩ n t ht
    rw [List.take_succ_cons, run_cons]
    cases n with
    | zero =>
      obtain rfl : text = t := by simpa using ht
      exact hexact.2 hfollows
    | succ n =>
      rw [hthen hfollows]
      exact h n t ht

/-- A reader of the rows holds every text after it was captured exactly when each
    text follows the one before. -/
theorem captured_text_reconstructs (sha : Digest) (texts : List Bytes) :
    (∀ n text, texts[n]? = some text →
        (run (capture sha) {} (texts.take (n + 1))).held = text) ↔
      List.IsChain Follows ([] :: texts) :=
  exact_from sha [] texts

theorem char_of_byte (b : UInt8) : (Char.ofNat b.toNat).toNat = b.toNat := by
  have hlt := b.toNat_lt
  have hvalid : b.toNat.isValidChar := Or.inl (by omega)
  rw [Char.ofNat, dif_pos hvalid]
  rfl

/-- A digest without collisions. -/
def spelled : Digest where
  hex b := "sha" ++ String.ofList (b.map fun c => Char.ofNat c.toNat)
  injective := by
    intro b b' h
    have hchars := congrArg String.toList h
    simp only [String.toList_append, String.toList_ofList, List.append_cancel_left_eq] at hchars
    refine List.map_injective_iff.2 ?_ hchars
    intro c c' hc
    have hnat := congrArg Char.toNat hc
    rw [char_of_byte, char_of_byte] at hnat
    exact UInt8.toNat_inj.1 hnat
  nonempty b h := by
    have hlen := congrArg String.length h
    simp at hlen

/-- "a b", then "a⇥b!": the tab reads as the space, and the reader is left with
    the space. -/
theorem tab_edit_lost :
    ¬∀ n text, ([[0x61, 0x20, 0x62], [0x61, 0x09, 0x62, 0x21]] : List Bytes)[n]? = some text →
      (run (capture spelled) {}
        (([[0x61, 0x20, 0x62], [0x61, 0x09, 0x62, 0x21]] : List Bytes).take (n + 1))).held =
          text := by
  intro h
  have hsecond := h 1 _ rfl
  exact absurd hsecond (by decide +kernel)

end NewApi.TrainingCapture
