/-
  NewApi.TrainingCapture.Parts

  How a payload becomes parts on the sink (`worker.go`, `naming.go`).

  A payload of JSON lines is cut at line ends into chunks, each chunk is
  compressed by itself, and a chunk that stays too large for one write is cut
  again before it is compressed.  Whatever is cut where, the parts read back one
  after the other are the payload (`unpack_blobs`).

  A part's name carries its number in the directory, and the next number is
  above all that are there, so no part is written over (`partFileName_fresh`).
-/

import NewApi.Lib.Decimal
import Mathlib.Data.List.DropRight

namespace NewApi.TrainingCapture

open List (flatten_cons flatten_singleton length_append mem_cons)
open NewApi.Lib

/-! ## Chunks -/

/-- `'\\n'` -/
def newline : UInt8 := 0x0A

variable (payload : List UInt8)

variable (maxBytes : Nat)

/-- Where the next chunk ends: at the last line end within `maxBytes`, or after
    `maxBytes` where a single line is longer. -/
def cut : Nat :=
  let upToNewline := (payload.take maxBytes).rdropWhile (· ≠ newline)
  if upToNewline.length = 0 then maxBytes else upToNewline.length

theorem cut_pos {maxBytes : Nat} (h : 0 < maxBytes) : 0 < cut payload maxBytes := by
  unfold cut
  simp only
  split <;> omega

/-- The loop of `splitBySize`. -/
def splitLoop (maxBytes : Nat) (hpos : 0 < maxBytes) (payload : List UInt8) : List (List UInt8) :=
  if payload = [] then []
  else if payload.length ≤ maxBytes then [payload]
  else
    payload.take (cut payload maxBytes) ::
      splitLoop maxBytes hpos (payload.drop (cut payload maxBytes))
termination_by payload.length
decreasing_by
  have := cut_pos payload hpos
  rw [List.length_drop]
  omega

/-- `splitBySize`; a bound that is not positive is 0. -/
def splitBySize : List (List UInt8) :=
  if payload = [] then []
  else if h : maxBytes = 0 then [payload]
  else if payload.length ≤ maxBytes then [payload]
  else splitLoop maxBytes (Nat.pos_of_ne_zero h) payload

theorem splitLoop_flatten (hpos : 0 < maxBytes) (payload : List UInt8) :
    (splitLoop maxBytes hpos payload).flatten = payload := by
  induction payload using splitLoop.induct maxBytes hpos with
  | case1 => simp [splitLoop]
  | case2 payload hne hle => rw [splitLoop, if_neg hne, if_pos hle, flatten_singleton]
  | case3 payload hne hlong ih =>
    rw [splitLoop, if_neg hne, if_neg hlong, flatten_cons, ih, List.take_append_drop]

theorem splitLoop_ne_nil (hpos : 0 < maxBytes) (payload : List UInt8) :
    ∀ c ∈ splitLoop maxBytes hpos payload, c ≠ [] := by
  induction payload using splitLoop.induct maxBytes hpos with
  | case1 => simp [splitLoop]
  | case2 payload hne hle =>
    rw [splitLoop, if_neg hne, if_pos hle]
    simpa using hne
  | case3 payload hne hlong ih =>
    rw [splitLoop, if_neg hne, if_neg hlong]
    intro c hc
    rcases mem_cons.1 hc with rfl | hc
    · have h1 := cut_pos payload hpos
      rw [Ne, List.take_eq_nil_iff]
      rintro (h | h)
      · omega
      · exact hne h
    · exact ih c hc

/-- **Nothing is lost between the chunks.** -/
theorem splitBySize_flatten : (splitBySize payload maxBytes).flatten = payload := by
  unfold splitBySize
  split
  · rename_i h
    rw [h, List.flatten_nil]
  split
  · exact flatten_singleton
  split
  · exact flatten_singleton
  · exact splitLoop_flatten _ _ _

theorem splitBySize_ne_nil : ∀ c ∈ splitBySize payload maxBytes, c ≠ [] := by
  unfold splitBySize
  split
  · simp
  rename_i hne
  split
  · simpa using hne
  split
  · simpa using hne
  · exact splitLoop_ne_nil _ _ _

theorem length_lt_of_mem_flatten {L : List (List UInt8)} (hne : ∀ c ∈ L, c ≠ [])
    (hlen : L.length ≠ 1) {c : List UInt8} (hc : c ∈ L) : c.length < L.flatten.length := by
  obtain ⟨l₁, l₂, rfl⟩ := List.append_of_mem hc
  rw [List.flatten_append, flatten_cons, length_append, length_append]
  have hrest : l₁ ≠ [] ∨ l₂ ≠ [] := by
    by_contra hboth
    rw [not_or, not_not, not_not] at hboth
    rw [hboth.1, hboth.2] at hlen
    exact hlen rfl
  have hpos : ∀ l : List (List UInt8), l ≠ [] → (∀ c ∈ l, c ≠ []) → 0 < l.flatten.length := by
    intro l hl hall
    obtain ⟨a, l', rfl⟩ := List.exists_cons_of_ne_nil hl
    have := List.length_pos_iff.2 (hall a List.mem_cons_self)
    rw [flatten_cons, length_append]
    omega
  rcases hrest with h | h
  · have := hpos l₁ h fun c hc => hne c (List.mem_append_left _ hc)
    omega
  · have := hpos l₂ h fun c hc => hne c (List.mem_append_right _ (List.mem_cons_of_mem _ hc))
    omega

theorem splitBySize_shorter {raw : List UInt8} {subSize : Nat}
    (h : ¬ ((splitBySize raw subSize).length = 1 ∧
      ((splitBySize raw subSize).headD []).length = raw.length)) {c : List UInt8}
    (hc : c ∈ splitBySize raw subSize) : c.length < raw.length := by
  have hflat := splitBySize_flatten raw subSize
  have hlen : (splitBySize raw subSize).length ≠ 1 := by
    intro hone
    refine h ⟨hone, ?_⟩
    obtain ⟨a, ha⟩ := List.length_eq_one_iff.1 hone
    rw [ha, flatten_singleton] at hflat
    rw [ha, hflat]
    rfl
  have := length_lt_of_mem_flatten (splitBySize_ne_nil raw subSize) hlen hc
  rwa [hflat] at this

/-! ## Compression -/

/-- The compressor, and what a reader of the parts makes of a part.  `subSize`
    is the estimate `resplitCompressedBetter` starts from, in floats. -/
structure Codec where
  /-- `gzipCompress`; `none` is an error -/
  gzip : List UInt8 → Option (List UInt8)
  unpack : List UInt8 → List UInt8
  unpack_gzip : ∀ c, unpack ((gzip c).getD c) = c
  subSize : List UInt8 → Nat → Nat

theorem flatten_flatMap_of_flatten {β : Type} {f : β → List (List UInt8)} {g : β → List UInt8}
    (h : ∀ c, (f c).flatten = g c) (l : List β) : (l.flatMap f).flatten = (l.map g).flatten := by
  induction l with
  | nil => rfl
  | cons c l ih =>
    rw [List.flatMap_cons, List.flatten_append, h, ih, List.map_cons, flatten_cons]

namespace Codec

variable (z : Codec)

def pack (chunk : List UInt8) : List UInt8 := (z.gzip chunk).getD chunk

def resplitRecursive (z : Codec) (raw : List UInt8) (limit subSize depth : Nat) :
    List (List UInt8) :=
  if (z.gzip raw).any fun blob => blob.length ≤ limit then [raw]
  else if _h : (splitBySize raw subSize).length = 1 ∧
      ((splitBySize raw subSize).headD []).length = raw.length then
    if subSize ≤ 1 ∨ 32 < depth then [raw]
    else z.resplitRecursive raw limit (subSize / 2) (depth + 1)
  else
    (splitBySize raw subSize).attach.flatMap fun ⟨c, _hc⟩ =>
      z.resplitRecursive c limit subSize (depth + 1)
termination_by (raw.length, 33 - depth)
decreasing_by
  · exact Prod.Lex.right _ (by omega)
  · exact Prod.Lex.left _ _ (splitBySize_shorter _h _hc)

def resplitCompressedBetter (raw : List UInt8) (limit : Nat) : List (List UInt8) :=
  if limit = 0 ∨ raw = [] then [raw]
  else z.resplitRecursive raw limit (max 1 (z.subSize raw limit)) 0

def blobsOf (limit : Nat) (rawChunk : List UInt8) : List (List UInt8) :=
  if limit < (z.pack rawChunk).length then
    (z.resplitCompressedBetter rawChunk limit).map z.pack
  else [z.pack rawChunk]

/-- The parts of a payload, in the order `processSignal` writes them. -/
def blobs (maxPartRawBytes limit : Nat) (payload : List UInt8) : List (List UInt8) :=
  (splitBySize payload maxPartRawBytes).flatMap (z.blobsOf limit)

theorem resplitRecursive_flatten (raw : List UInt8) (limit subSize depth : Nat) :
    (z.resplitRecursive raw limit subSize depth).flatten = raw := by
  induction raw, subSize, depth using resplitRecursive.induct z limit with
  | case1 raw subSize depth h => rw [resplitRecursive, if_pos h, flatten_singleton]
  | case2 raw subSize depth h hone hend =>
    rw [resplitRecursive, if_neg h, dif_pos hone, if_pos hend, flatten_singleton]
  | case3 raw subSize depth h hone hend ih =>
    rw [resplitRecursive, if_neg h, dif_pos hone, if_neg hend]
    exact ih
  | case4 raw subSize depth h hmany ih =>
    rw [resplitRecursive, if_neg h, dif_neg hmany]
    have hpieces := flatten_flatMap_of_flatten (g := Subtype.val)
      (fun c : { c // c ∈ splitBySize raw subSize } => ih c.1 c.2)
      (splitBySize raw subSize).attach
    rw [List.attach_map_subtype_val, splitBySize_flatten] at hpieces
    exact hpieces

/-- **However it was cut, a chunk is read back from its parts.** -/
theorem unpack_blobsOf (limit : Nat) (rawChunk : List UInt8) :
    ((z.blobsOf limit rawChunk).map z.unpack).flatten = rawChunk := by
  have hpack : ∀ c, z.unpack (z.pack c) = c := z.unpack_gzip
  unfold blobsOf
  split
  · have hid : z.unpack ∘ z.pack = id := funext hpack
    rw [List.map_map, hid, List.map_id]
    unfold resplitCompressedBetter
    split
    · exact flatten_singleton
    · exact z.resplitRecursive_flatten _ _ _ _
  · rw [List.map_singleton, flatten_singleton, hpack]

/-- **The parts of a payload read back to the payload.** -/
theorem unpack_blobs (maxPartRawBytes limit : Nat) (payload : List UInt8) :
    ((z.blobs maxPartRawBytes limit payload).map z.unpack).flatten = payload := by
  unfold blobs
  rw [List.map_flatMap, flatten_flatMap_of_flatten fun c => z.unpack_blobsOf limit c,
    List.map_id', splitBySize_flatten]

end Codec

/-! ## Names -/

/-- `partFilePrefix`, `partFileSuffix` and the suffix of the earlier format -/
def partFilePrefix : List Char := ['p', 'a', 'r', 't', '-']

def jsonlSuffix : List Char := ['.', 'j', 's', 'o', 'n', 'l']

def partFileSuffix : List Char := jsonlSuffix ++ ['.', 'g', 'z']

def partFileDigits : Nat := 4

/-- `%0*d` -/
def zeroPad (width n : Nat) : List Char :=
  List.replicate (width - (Nat.toDigits 10 n).length) '0' ++ Nat.toDigits 10 n

def partFileName (seq : Nat) : List Char :=
  partFilePrefix ++ zeroPad partFileDigits (max seq 1) ++ partFileSuffix

def parseDigits (digits : List Char) : Nat := (digitsValue digits).getD 0

def parsePartSeq (name : List Char) : Nat :=
  if partFilePrefix.isPrefixOf name then
    let digits := name.drop partFilePrefix.length
    if partFileSuffix.isSuffixOf digits then
      parseDigits (digits.take (digits.length - partFileSuffix.length))
    else if jsonlSuffix.isSuffixOf digits then
      parseDigits (digits.take (digits.length - jsonlSuffix.length))
    else 0
  else 0

def pickNextPartSeq (names : List (List Char)) : Nat :=
  (names.map parsePartSeq).foldl max 0 + 1

theorem ofDigitChars_replicate (k : Nat) (cs : List Char) :
    Nat.ofDigitChars 10 (List.replicate k '0' ++ cs) 0 = Nat.ofDigitChars 10 cs 0 := by
  induction k with
  | zero => rfl
  | succ k ih =>
    rw [List.replicate_succ, List.cons_append, Nat.ofDigitChars_cons]
    exact ih

theorem parseDigits_zeroPad (width n : Nat) : parseDigits (zeroPad width n) = n := by
  have hvalue := digitsValue_toDigits n
  unfold digitsValue at hvalue
  have hdigits : (Nat.toDigits 10 n).all Char.isDigit = true := by
    rw [List.all_eq_true]
    intro c hc
    exact Nat.isDigit_of_mem_toDigits (by decide) (by decide) hc
  rw [if_pos ⟨Nat.toDigits_ne_nil, hdigits⟩] at hvalue
  have hall : (zeroPad width n).all Char.isDigit = true := by
    rw [zeroPad, List.all_append, hdigits, Bool.and_true, List.all_replicate]
    simp
  have hne : zeroPad width n ≠ [] := by simp [zeroPad, Nat.toDigits_ne_nil]
  rw [parseDigits, digitsValue, if_pos ⟨hne, hall⟩, Option.getD_some, zeroPad,
    ofDigitChars_replicate]
  exact Option.some.inj hvalue

theorem parsePartSeq_partFileName {seq : Nat} (h : 1 ≤ seq) :
    parsePartSeq (partFileName seq) = seq := by
  have hmax : max seq 1 = seq := by omega
  have hpre : partFilePrefix.isPrefixOf (partFileName seq) = true := by
    rw [List.isPrefixOf_iff_prefix, partFileName, List.append_assoc]
    exact List.prefix_append _ _
  have hdrop : (partFileName seq).drop partFilePrefix.length =
      zeroPad partFileDigits seq ++ partFileSuffix := by
    rw [partFileName, hmax, List.append_assoc, List.drop_left]
  have hsuf : partFileSuffix.isSuffixOf (zeroPad partFileDigits seq ++ partFileSuffix) = true := by
    rw [List.isSuffixOf_iff_suffix]
    exact List.suffix_append _ _
  unfold parsePartSeq
  simp only [hpre, if_true, hdrop, hsuf]
  rw [length_append, Nat.add_sub_cancel, List.take_left, parseDigits_zeroPad]

theorem partFileName_injective {a b : Nat} (ha : 1 ≤ a) (hb : 1 ≤ b)
    (h : partFileName a = partFileName b) : a = b := by
  rw [← parsePartSeq_partFileName ha, h, parsePartSeq_partFileName hb]

theorem le_foldl_max (l : List Nat) (n : Nat) : n ≤ l.foldl max n ∧ ∀ a ∈ l, a ≤ l.foldl max n := by
  induction l generalizing n with
  | nil => simp
  | cons b l ih =>
    obtain ⟨h1, h2⟩ := ih (max n b)
    rw [List.foldl_cons]
    refine ⟨by omega, ?_⟩
    intro a ha
    rcases mem_cons.1 ha with rfl | ha
    · omega
    · exact h2 a ha

/-- **A name from the next number on is not there yet.** -/
theorem partFileName_fresh (names : List (List Char)) {seq : Nat}
    (h : pickNextPartSeq names ≤ seq) : partFileName seq ∉ names := by
  intro hmem
  have hle := (le_foldl_max (names.map parsePartSeq) 0).2 _ (List.mem_map_of_mem hmem)
  unfold pickNextPartSeq at h
  rw [parsePartSeq_partFileName (by omega)] at hle
  omega

end NewApi.TrainingCapture
