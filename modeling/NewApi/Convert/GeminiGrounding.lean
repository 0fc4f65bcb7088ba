/-
  NewApi.Convert.GeminiGrounding

  Citations of Gemini's search results in the text of a chat
  (`relaykit/relayconvert/internal/gemini_chat/grounding.go`).

  A string is its bytes (`Lib.Utf8`), and the text that is shown for a chunk is an
  argument.  `groundingAnnotations` looks every citation up in the text it has sent, so
  what it cites is there whatever its spans say; `groundingAnnotationsToChat` counts from
  where it has found the part.
-/

import NewApi.Lib.IndexOf
import NewApi.Lib.Utf8

namespace NewApi.GeminiGrounding

open List (append_assoc length_append map_map mem_append not_mem_nil)
open Option (bind_eq_some_iff getD_some)
open NewApi.Lib NewApi.Lib.Utf8

abbrev Bytes := List Nat


/-- `geminiGroundingSource` -/
structure GroundingSource where
  uri : Bytes
  title : Bytes

/-- `geminiGroundingChunk` -/
structure GroundingChunk where
  web : Option GroundingSource
  retrievedContext : Option GroundingSource

/-- `geminiGroundingSupport` -/
structure GroundingSupport where
  partIndex : Option Int
  startIndex : Int
  endIndex : Int
  text : Bytes
  groundingChunkIndices : List Int

/-- `dto.GeminiGroundingMetadata`, before it is decoded. -/
structure GroundingMetadata where
  groundingChunks : Bytes
  groundingSupports : Bytes

/-- What is read of a part. -/
structure GeminiPart where
  text : Bytes
  thought : Bool

/-- A `url_citation`. -/
structure UrlCitation where
  startIndex : ℕ
  endIndex : ℕ
  url : Bytes
  title : Bytes

/-- `%d` -/
def decimal (n : Int) : Bytes :=
  (if n < 0 then [0x2D] else []) ++ (Nat.toDigits 10 n.natAbs).map Char.toNat

def citationKey (keyPrefix : Bytes) (startIndex endIndex : ℕ) (uri : Bytes) : Bytes :=
  keyPrefix ++ decimal startIndex ++ 0x3A :: (decimal endIndex ++ 0x3A :: uri)

/-- `appendGroundingAnnotations`, for the indices of a support.  `seen` holds the keys. -/
def appendGroundingAnnotations (chunks : List GroundingChunk) (startIndex endIndex : ℕ)
    (keyPrefix : Bytes) (seen : List Bytes) : List Int → List UrlCitation × List Bytes
  | [] => ([], seen)
  | chunkIndex :: rest =>
    let source := if chunkIndex < 0 then none
      else (chunks[chunkIndex.toNat]?).bind fun chunk => chunk.web.or chunk.retrievedContext
    let skip := appendGroundingAnnotations chunks startIndex endIndex keyPrefix seen rest
    match source with
    | none => skip
    | some source =>
      let key := citationKey keyPrefix startIndex endIndex source.uri
      if source.uri = [] ∨ key ∈ seen then skip
      else
        let (citations, seen) :=
          appendGroundingAnnotations chunks startIndex endIndex keyPrefix (key :: seen) rest
        (⟨startIndex, endIndex, source.uri, source.title⟩ :: citations, seen)

/-- `renderedGeminiPart` -/
structure RenderedPart where
  text : Bytes
  startByte : Option ℕ

/-- `locateRenderedGeminiParts`, from a position on. -/
def locateFrom (rendered : Bytes) (cursor : ℕ) : List GeminiPart → List RenderedPart
  | [] => []
  | part :: rest =>
    if part.text = [] ∨ part.thought = true ∨ rendered.length < cursor then
      ⟨part.text, none⟩ :: locateFrom rendered cursor rest
    else match indexOf (rendered.drop cursor) part.text with
      | none => ⟨part.text, none⟩ :: locateFrom rendered cursor rest
      | some relative => ⟨part.text, some (cursor + relative)⟩ ::
        locateFrom rendered (cursor + relative + part.text.length) rest

def locateRenderedGeminiParts (content : List GeminiPart) (rendered : Bytes) : List RenderedPart :=
  locateFrom rendered 0 content

/-- `groundingRuneRange`, of a part that starts at `partStart`. -/
def groundingRuneRange (rendered text : Bytes) (partStart : ℕ) (startByte endByte : Int) :
    Option (ℕ × ℕ) :=
  if startByte < 0 ∨ endByte ≤ startByte ∨ (text.length : Int) < endByte then none
  else if ¬ (validString (text.take startByte.toNat) ∧ validString (text.take endByte.toNat)) then
    none
  else
    let partStartRunes := runeCount (rendered.take partStart)
    some (partStartRunes + runeCount (text.take startByte.toNat),
      partStartRunes + runeCount (text.take endByte.toNat))

/-- `s[startByte:endByte]` -/
def slice (s : Bytes) (startByte endByte : Int) : Bytes :=
  (s.drop startByte.toNat).take (endByte.toNat - startByte.toNat)

section

variable (unmarshalChunks : Bytes → Option (List GroundingChunk))
variable (unmarshalSupports : Bytes → Option (List GroundingSupport))

/-- The index of a support that names its part, or of the only part there is. -/
def partIndexOf (support : GroundingSupport) (located : List ℕ) : Option ℕ :=
  match support.partIndex with
  | some i => if i < 0 then none else some i.toNat
  | none => match located with
    | [i] => some i
    | _ => none

/-- The loop over the supports of a whole response. -/
def annotateSupports (parts : List RenderedPart) (rendered : Bytes) (chunks : List GroundingChunk)
    (seen : List Bytes) : List GroundingSupport → List UrlCitation
  | [] => []
  | support :: rest =>
    let located := parts.zipIdx.filterMap fun p => p.1.startByte.map fun _ => p.2
    let range := do
      let part ← (partIndexOf support located).bind fun i => parts[i]?
      let partStart ← part.startByte
      let range ← groundingRuneRange rendered part.text partStart support.startIndex support.endIndex
      if support.text ≠ [] ∧ slice part.text support.startIndex support.endIndex ≠ support.text then
        none
      else some range
    match range with
    | none => annotateSupports parts rendered chunks seen rest
    | some (startIndex, endIndex) =>
      let (citations, seen) := appendGroundingAnnotations chunks startIndex endIndex [] seen
        support.groundingChunkIndices
      citations ++ annotateSupports parts rendered chunks seen rest

/-- The citations that are marshalled. -/
def groundingAnnotationsToChat (metadata : Option GroundingMetadata) (content : List GeminiPart)
    (rendered : Bytes) : List UrlCitation :=
  match metadata with
  | none => []
  | some metadata =>
    if metadata.groundingChunks = [] ∨ metadata.groundingSupports = [] then []
    else match unmarshalChunks metadata.groundingChunks,
        unmarshalSupports metadata.groundingSupports with
      | some chunks, some supports =>
        annotateSupports (locateRenderedGeminiParts content rendered) rendered chunks [] supports
      | _, _ => []

/-- `streamedGeminiPartSpan` -/
structure PartSpan where
  partStartByte : ℕ
  partEndByte : ℕ
  renderedStartByte : ℕ

/-- `streamedGeminiPart` -/
structure StreamedPart where
  text : Bytes
  spans : List PartSpan

/-- `geminiGroundingStreamCandidate`; `partIndexes` are the keys of `parts`. -/
structure StreamCandidate where
  rendered : Bytes
  parts : ℕ → Option StreamedPart
  partIndexes : List ℕ
  chunks : List GroundingChunk

def newGeminiGroundingStreamCandidate : StreamCandidate := ⟨[], fun _ => none, [], []⟩

namespace StreamCandidate

/-- The loop of `appendContent`, from a part on. -/
def appendParts (renderedParts : List RenderedPart) (renderedBase : ℕ) (s : StreamCandidate)
    (index : ℕ) : List GeminiPart → StreamCandidate
  | [] => s
  | part :: rest =>
    if part.text = [] ∨ part.thought = true then
      appendParts renderedParts renderedBase s (index + 1) rest
    else
      let old := (s.parts index).getD ⟨[], []⟩
      let span := if part.text = [0x0A] then none
        else ((renderedParts[index]?).bind RenderedPart.startByte).map fun startByte =>
          (⟨old.text.length, old.text.length + part.text.length, renderedBase + startByte⟩ :
            PartSpan)
      let s := { s with
        parts := Function.update s.parts index
          (some ⟨old.text ++ part.text, old.spans ++ span.toList⟩)
        partIndexes := if index ∈ s.partIndexes then s.partIndexes else s.partIndexes ++ [index] }
      appendParts renderedParts renderedBase s (index + 1) rest

variable (s : StreamCandidate)

def appendContent (content : List GeminiPart) (rendered : Bytes) : StreamCandidate :=
  let s := s.appendParts (locateRenderedGeminiParts content rendered) s.rendered.length 0 content
  { s with rendered := s.rendered ++ rendered }

def appendGroundingChunks (metadata : GroundingMetadata) : StreamCandidate :=
  if metadata.groundingChunks = [] then s
  else match unmarshalChunks metadata.groundingChunks with
    | none => s
    | some chunks => { s with chunks := s.chunks ++ chunks }

def shownParts : List ℕ :=
  s.partIndexes.filter fun i => (s.parts i).any fun part => part.spans ≠ []

def groundingPartIndex (support : GroundingSupport) : Option ℕ :=
  (partIndexOf support s.shownParts).filter fun i =>
    (s.parts i).any fun part => part.spans ≠ []

/-- Where the bytes are in what was sent, by the spans: the first one for the start, the
    last one for the end. -/
def renderedRange (spans : List PartSpan) (startByte endByte : ℕ) : Option (ℕ × ℕ) := do
  let first ← spans.find? fun span => span.partStartByte ≤ startByte ∧ startByte < span.partEndByte
  let last ← spans.reverse.find? fun span =>
    span.partStartByte < endByte ∧ endByte ≤ span.partEndByte
  return (first.renderedStartByte + startByte - first.partStartByte,
    last.renderedStartByte + endByte - last.partStartByte)

/-- `groundingRuneRange` of the stream. -/
def runeRange (partIndex : ℕ) (startByte endByte : Int) : Option (ℕ × ℕ) := do
  let part ← s.parts partIndex
  if startByte < 0 ∨ endByte ≤ startByte ∨ (part.text.length : Int) < endByte then none
  else if ¬ (validString (part.text.take startByte.toNat) ∧
      validString (part.text.take endByte.toNat)) then none
  else
    let (renderedStart, renderedEnd) ←
      renderedRange part.spans startByte.toNat endByte.toNat
    if renderedEnd ≤ renderedStart ∨ s.rendered.length < renderedEnd ∨
        slice s.rendered renderedStart renderedEnd ≠ slice part.text startByte endByte then none
    else if ¬ (validString (s.rendered.take renderedStart) ∧
        validString (s.rendered.take renderedEnd)) then none
    else some (runeCount (s.rendered.take renderedStart), runeCount (s.rendered.take renderedEnd))

/-- The place of a support, if it is cited. -/
def supportRange (support : GroundingSupport) : Option (ℕ × ℕ) := do
  let partIndex ← s.groundingPartIndex support
  let range ← s.runeRange partIndex support.startIndex support.endIndex
  let part ← s.parts partIndex
  if support.text ≠ [] ∧ slice part.text support.startIndex support.endIndex ≠ support.text then
    none
  else some range

/-- The loop over the supports; what is made of each is listed with it. -/
def annotateSupports (s : StreamCandidate) (keyPrefix : Bytes) (seen : List Bytes) :
    List GroundingSupport → List (GroundingSupport × UrlCitation) × List Bytes
  | [] => ([], seen)
  | support :: rest =>
    match s.supportRange support with
    | none => annotateSupports s keyPrefix seen rest
    | some (startIndex, endIndex) =>
      let (citations, seen) := appendGroundingAnnotations s.chunks startIndex endIndex keyPrefix seen
        support.groundingChunkIndices
      let (more, seen) := annotateSupports s keyPrefix seen rest
      (citations.map (support, ·) ++ more, seen)

def groundingAnnotations (metadata : Option GroundingMetadata)
    (candidateIndex : Int) (seen : List Bytes) :
    StreamCandidate × List (GroundingSupport × UrlCitation) × List Bytes :=
  match metadata with
  | none => (s, [], seen)
  | some metadata =>
    let s := s.appendGroundingChunks unmarshalChunks metadata
    if s.chunks = [] ∨ metadata.groundingSupports = [] then (s, [], seen)
    else match unmarshalSupports metadata.groundingSupports with
      | none => (s, [], seen)
      | some supports =>
        (s, s.annotateSupports (decimal candidateIndex ++ [0x3A]) seen supports)

end StreamCandidate

/-- A candidate of a chunk, with the text that its delta shows. -/
structure CandidateChunk where
  index : Int
  content : List GeminiPart
  rendered : Bytes
  metadata : Option GroundingMetadata

/-- `groundingByCandidate` and `sentGroundingAnnotations` -/
structure GroundingState where
  candidates : Int → StreamCandidate
  sent : List Bytes

/-- What `ConvertChunk` does with the grounding of a candidate. -/
def convertCandidate (s : GroundingState) (c : CandidateChunk) :
    GroundingState × List (GroundingSupport × UrlCitation) :=
  let grounding := (s.candidates c.index).appendContent c.content c.rendered
  let (grounding, citations, sent) :=
    grounding.groundingAnnotations unmarshalChunks unmarshalSupports c.metadata c.index s.sent
  (⟨Function.update s.candidates c.index grounding, sent⟩, citations)

/-- The candidates of a stream, one after the other, with the index of the candidate for
    everything that is cited. -/
def convertCandidates (s : GroundingState) :
    List CandidateChunk → GroundingState × List (Int × GroundingSupport × UrlCitation)
  | [] => (s, [])
  | c :: rest =>
    let (s, citations) := convertCandidate unmarshalChunks unmarshalSupports s c
    let (s, more) := convertCandidates s rest
    (s, citations.map (c.index, ·) ++ more)

end

/-! ### What a citation points at -/

/-- The code points of the shown text that a citation names are the bytes of the part that
    its support names. -/
structure Cites (rendered part : Bytes) (support : GroundingSupport) (citation : UrlCitation) :
    Prop where
  nonempty : citation.startIndex < citation.endIndex
  within : citation.endIndex ≤ (codePoints rendered).length
  segment : 0 ≤ support.startIndex ∧ support.startIndex < support.endIndex ∧
    support.endIndex ≤ part.length
  text : (((codePoints rendered).drop citation.startIndex).take
    (citation.endIndex - citation.startIndex)).flatten =
      slice part support.startIndex support.endIndex

theorem split_slice {s : Bytes} {i j : Int} (hij : i ≤ j) :
    s.take j.toNat = s.take i.toNat ++ slice s i j ∧
      s = s.take i.toNat ++ (slice s i j ++ s.drop j.toNat) := by
  have hle : i.toNat ≤ j.toNat := Int.toNat_le_toNat hij
  have htake : s.take j.toNat = s.take i.toNat ++ slice s i j := by
    rw [slice, ← List.take_add, Nat.add_sub_cancel' hle]
  refine ⟨htake, ?_⟩
  rw [← append_assoc, ← htake, List.take_append_drop]

theorem decode_segment {s : Bytes} {i j : Int} (hij : i ≤ j)
    (hi : validString (s.take i.toNat) = true) (hj : validString (s.take j.toNat) = true) :
    validString (slice s i j) = true ∧
      runeCount (s.take j.toNat) = runeCount (s.take i.toNat) + runeCount (slice s i j) := by
  have hdecode := decode_append (b := slice s i j) (.inl hi)
  rw [← (split_slice hij).1] at hdecode
  constructor
  · rw [validString, hdecode, List.all_append, Bool.and_eq_true] at hj
    exact hj.2
  · rw [runeCount, runeCount, hdecode, length_append]
    rfl

theorem slice_ne_nil {s : Bytes} {i j : Int} (hi : 0 ≤ i) (hij : i < j) (hj : j ≤ s.length) :
    slice s i j ≠ [] := by
  intro h
  have hlen := congrArg List.length h
  rw [slice, List.length_take, List.length_drop, List.length_nil] at hlen
  omega

namespace StreamCandidate

def textOf (s : StreamCandidate) (i : ℕ) : Bytes := ((s.parts i).getD ⟨[], []⟩).text

theorem runeRange_cites {s : StreamCandidate} {i : ℕ} {support : GroundingSupport}
    {range : ℕ × ℕ} (h : s.runeRange i support.startIndex support.endIndex = some range)
    (url title : Bytes) : Cites s.rendered (s.textOf i) support ⟨range.1, range.2, url, title⟩ := by
  unfold runeRange at h
  rcases hpart : s.parts i with _ | part
  · rw [hpart] at h
    cases h
  have htext : s.textOf i = part.text := by rw [textOf, hpart, getD_some]
  rw [hpart] at h
  simp only [Option.bind_eq_bind, Option.bind_some] at h
  split at h
  · cases h
  rename_i hsegment
  split at h
  · cases h
  obtain ⟨⟨renderedStart, renderedEnd⟩, -, h⟩ := bind_eq_some_iff.1 h
  split at h
  · cases h
  rename_i hrange
  split at h
  · cases h
  rename_i hvalid
  cases h
  simp only [not_or, Classical.not_not, Nat.not_le, Nat.not_lt, Int.not_le,
    Int.not_lt] at hsegment hrange hvalid
  -- The places in the shown text, as the integers that `slice` takes.
  have hlt : (renderedStart : Int) < renderedEnd := Int.ofNat_lt.2 hrange.1
  have hle : (renderedEnd : Int) ≤ s.rendered.length := Int.ofNat_le.2 hrange.2.1
  have hm := slice_ne_nil (by omega) hlt hle
  obtain ⟨hmid, hcount⟩ := decode_segment (Int.le_of_lt hlt) hvalid.1 hvalid.2
  have hs := (split_slice (s := s.rendered) (Int.le_of_lt hlt)).2
  have hcited := codePoints_part (c := s.rendered.drop renderedEnd) hm
    (decode_append (.inl hvalid.1)) (decode_append (.inl hmid))
  rw [Int.toNat_natCast, Int.toNat_natCast] at hs hcount
  rw [← hs, ← hcount] at hcited
  refine ⟨hcited.1, hcited.2.1, ⟨hsegment.1, hsegment.2.1, ?_⟩, ?_⟩
  · rw [htext]
    exact hsegment.2.2
  have hsub : runeCount (s.rendered.take renderedEnd) -
      runeCount (s.rendered.take renderedStart) =
        runeCount (slice s.rendered renderedStart renderedEnd) := by omega
  rw [htext, hsub, hcited.2.2]
  exact hrange.2.2

def added (part : GeminiPart) : Bytes := if part.thought = true then [] else part.text

/-- What the parts from `k` on add to the text of part `i`. -/
def addedFrom (content : List GeminiPart) (k i : ℕ) : Bytes :=
  if k ≤ i then ((content[i - k]?).map added).getD [] else []

theorem addedFrom_cons (part : GeminiPart) (rest : List GeminiPart) (k i : ℕ) :
    addedFrom (part :: rest) k i =
      (if i = k then added part else []) ++ addedFrom rest (k + 1) i := by
  unfold addedFrom
  rcases Nat.lt_trichotomy i k with hlt | rfl | hgt
  · rw [if_neg (by omega), if_neg (by omega), if_neg (by omega), List.nil_append]
  · rw [if_pos (Nat.le_refl _), if_pos rfl, if_neg (by omega), Nat.sub_self, List.append_nil]
    rfl
  · rw [if_pos (by omega), if_neg (by omega), if_pos (by omega), List.nil_append,
      show i - k = i - (k + 1) + 1 by omega, List.getElem?_cons_succ]

section
variable (renderedParts : List RenderedPart) (renderedBase : ℕ) (content : List GeminiPart) (s : StreamCandidate)
include renderedParts renderedBase content s

theorem textOf_appendParts (k i : ℕ) :
    (appendParts renderedParts renderedBase s k content).textOf i =
      s.textOf i ++ addedFrom content k i := by
  induction content generalizing s k with
  | nil => simp [appendParts, addedFrom]
  | cons part rest ih =>
    rw [addedFrom_cons, ← append_assoc]
    unfold appendParts
    split
    · rename_i hskip
      have hnone : added part = [] := by
        unfold added
        split
        · rfl
        · exact hskip.resolve_right ‹_›
      rw [ih, hnone, ite_self, List.append_nil]
    rename_i hshow
    rw [ih]
    congr 1
    by_cases hi : i = k
    · subst hi
      simp only [textOf, Function.update_self, getD_some, if_true]
      rw [added, if_neg (not_or.1 hshow).2]
    · simp only [textOf, Function.update_of_ne hi, if_neg hi, List.append_nil]

theorem rendered_appendParts (k : ℕ) :
    (appendParts renderedParts renderedBase s k content).rendered = s.rendered := by
  induction content generalizing s k with
  | nil => rfl
  | cons part rest ih =>
    unfold appendParts
    split
    · exact ih s (k + 1)
    · exact ih _ (k + 1)

end

theorem textOf_appendContent (s : StreamCandidate) (content : List GeminiPart) (rendered : Bytes)
    (i : ℕ) : (s.appendContent content rendered).textOf i = s.textOf i ++ addedFrom content 0 i :=
  textOf_appendParts _ _ _ _ _ _

theorem rendered_appendContent (s : StreamCandidate) (content : List GeminiPart)
    (rendered : Bytes) : (s.appendContent content rendered).rendered = s.rendered ++ rendered :=
  congrArg (· ++ rendered) (rendered_appendParts _ _ _ _ _)

theorem appendGroundingChunks_keeps (unmarshalChunks : Bytes → Option (List GroundingChunk))
    (s : StreamCandidate) (metadata : GroundingMetadata) :
    (s.appendGroundingChunks unmarshalChunks metadata).rendered = s.rendered ∧
      (s.appendGroundingChunks unmarshalChunks metadata).parts = s.parts := by
  unfold appendGroundingChunks
  split
  · exact ⟨rfl, rfl⟩
  · split <;> exact ⟨rfl, rfl⟩

theorem partIndexOf_named {support : GroundingSupport} {located : List ℕ} {i : ℕ}
    (h : partIndexOf support located = some i) (j : Int) (hj : support.partIndex = some j) :
    j = i := by
  unfold partIndexOf at h
  rw [hj] at h
  dsimp only at h
  split at h
  · cases h
  · cases h
    omega

theorem supportRange_cites {s : StreamCandidate} {support : GroundingSupport} {range : ℕ × ℕ}
    (h : s.supportRange support = some range) (url title : Bytes) :
    ∃ i : ℕ, (∀ j, support.partIndex = some j → j = i) ∧
      Cites s.rendered (s.textOf i) support ⟨range.1, range.2, url, title⟩ := by
  obtain ⟨i, hi, h⟩ := bind_eq_some_iff.1 h
  obtain ⟨range', hrange, h⟩ := bind_eq_some_iff.1 h
  obtain ⟨part, -, h⟩ := bind_eq_some_iff.1 h
  split at h
  · cases h
  · cases h
    exact ⟨i, partIndexOf_named (Option.filter_eq_some_iff.1 hi).1, runeRange_cites hrange url title⟩

end StreamCandidate

theorem appendGroundingAnnotations_place {chunks : List GroundingChunk} {startIndex endIndex : ℕ}
    {keyPrefix : Bytes} {indices : List Int} {seen : List Bytes} {c : UrlCitation}
    (h : c ∈ (appendGroundingAnnotations chunks startIndex endIndex keyPrefix seen indices).1) :
    c.startIndex = startIndex ∧ c.endIndex = endIndex := by
  induction indices generalizing seen with
  | nil => exact absurd h not_mem_nil
  | cons chunkIndex rest ih =>
    unfold appendGroundingAnnotations at h
    dsimp only at h
    split at h
    · exact ih h
    split at h
    · exact ih h
    rcases List.mem_cons.1 h with rfl | h
    · exact ⟨rfl, rfl⟩
    · exact ih h

theorem StreamCandidate.annotateSupports_cites {s : StreamCandidate} {keyPrefix : Bytes}
    {supports : List GroundingSupport} {seen : List Bytes} {p : GroundingSupport × UrlCitation}
    (h : p ∈ (s.annotateSupports keyPrefix seen supports).1) :
    ∃ i : ℕ, (∀ j, p.1.partIndex = some j → j = i) ∧
      Cites s.rendered (s.textOf i) p.1 p.2 := by
  induction supports generalizing seen with
  | nil => exact absurd h not_mem_nil
  | cons support rest ih =>
    unfold annotateSupports at h
    split at h
    · exact ih h
    rename_i startIndex endIndex hrange
    rcases mem_append.1 h with h | h
    · obtain ⟨c, hc, rfl⟩ := List.mem_map.1 h
      obtain ⟨hs, he⟩ := appendGroundingAnnotations_place hc
      have hcites := supportRange_cites hrange c.url c.title
      rw [← hs, ← he] at hcites
      exact hcites
    · exact ih h

/-! ### Nothing is cited twice -/

/-- The keys are new and are seen afterwards. -/
structure Emits (seen keys seen' : List Bytes) : Prop where
  nodup : keys.Nodup
  fresh : ∀ k ∈ keys, k ∉ seen
  seen_after : ∀ k ∈ keys, k ∈ seen'
  seen_before : ∀ k ∈ seen, k ∈ seen'

theorem Emits.nil (seen : List Bytes) : Emits seen [] seen :=
  ⟨List.nodup_nil, fun _ h => absurd h not_mem_nil, fun _ h => absurd h not_mem_nil,
    fun _ h => h⟩

theorem Emits.append {seen keys seen' keys' seen'' : List Bytes} (h : Emits seen keys seen')
    (h' : Emits seen' keys' seen'') : Emits seen (keys ++ keys') seen'' where
  nodup := List.nodup_append.2 ⟨h.nodup, h'.nodup, fun k hk k' hk' he =>
    h'.fresh k' hk' (he ▸ h.seen_after k hk)⟩
  fresh k hk := by
    rcases mem_append.1 hk with hk | hk
    · exact h.fresh k hk
    · exact fun hs => h'.fresh k hk (h.seen_before k hs)
  seen_after k hk := by
    rcases mem_append.1 hk with hk | hk
    · exact h'.seen_before k (h.seen_after k hk)
    · exact h'.seen_after k hk
  seen_before k hk := h'.seen_before k (h.seen_before k hk)

def UrlCitation.key (keyPrefix : Bytes) (c : UrlCitation) : Bytes :=
  citationKey keyPrefix c.startIndex c.endIndex c.url

theorem appendGroundingAnnotations_emits (chunks : List GroundingChunk) (startIndex endIndex : ℕ)
    (keyPrefix : Bytes) (seen : List Bytes) (indices : List Int) :
    Emits seen ((appendGroundingAnnotations chunks startIndex endIndex keyPrefix seen indices).1.map
        (UrlCitation.key keyPrefix))
      (appendGroundingAnnotations chunks startIndex endIndex keyPrefix seen indices).2 := by
  induction indices generalizing seen with
  | nil => exact .nil seen
  | cons chunkIndex rest ih =>
    unfold appendGroundingAnnotations
    dsimp only
    split
    · exact ih seen
    split
    · exact ih seen
    rename_i source _ hnew
    have hone : Emits seen [citationKey keyPrefix startIndex endIndex source.uri]
        (citationKey keyPrefix startIndex endIndex source.uri :: seen) :=
      ⟨List.nodup_cons.2 ⟨not_mem_nil, List.nodup_nil⟩,
        fun k hk => List.mem_singleton.1 hk ▸ (not_or.1 hnew).2,
        fun k hk => List.mem_singleton.1 hk ▸ List.mem_cons_self,
        fun k hk => List.mem_cons_of_mem _ hk⟩
    exact hone.append (ih _)

theorem StreamCandidate.annotateSupports_emits (s : StreamCandidate) (keyPrefix : Bytes)
    (seen : List Bytes) (supports : List GroundingSupport) :
    Emits seen ((s.annotateSupports keyPrefix seen supports).1.map fun p => p.2.key keyPrefix)
      (s.annotateSupports keyPrefix seen supports).2 := by
  induction supports generalizing seen with
  | nil => exact .nil seen
  | cons support rest ih =>
    unfold annotateSupports
    split
    · exact ih seen
    rename_i startIndex endIndex _
    have h := appendGroundingAnnotations_emits s.chunks startIndex endIndex keyPrefix seen
      support.groundingChunkIndices
    rw [List.map_append, map_map]
    exact h.append (ih _)

section

variable (unmarshalChunks : Bytes → Option (List GroundingChunk))
variable (unmarshalSupports : Bytes → Option (List GroundingSupport))

def candidatePrefix (candidateIndex : Int) : Bytes := decimal candidateIndex ++ [0x3A]

theorem convertCandidate_emits (s : GroundingState) (c : CandidateChunk) :
    Emits s.sent ((convertCandidate unmarshalChunks unmarshalSupports s c).2.map
        fun p => p.2.key (candidatePrefix c.index))
      (convertCandidate unmarshalChunks unmarshalSupports s c).1.sent := by
  unfold convertCandidate StreamCandidate.groundingAnnotations
  dsimp only
  split
  · exact .nil _
  split
  · exact .nil _
  split
  · exact .nil _
  · exact StreamCandidate.annotateSupports_emits _ _ _ _

variable (cs : List CandidateChunk)

theorem convertCandidates_emits (s : GroundingState) :
    Emits s.sent ((convertCandidates unmarshalChunks unmarshalSupports s cs).2.map
        fun e => e.2.2.key (candidatePrefix e.1))
      (convertCandidates unmarshalChunks unmarshalSupports s cs).1.sent := by
  induction cs generalizing s with
  | nil => exact .nil _
  | cons c rest ih =>
    have h := convertCandidate_emits unmarshalChunks unmarshalSupports s c
    unfold convertCandidates
    rw [List.map_append, map_map]
    exact h.append (ih _)

/-! ### The stream -/

def GroundingState.init : GroundingState := ⟨fun _ => newGeminiGroundingStreamCandidate, []⟩

def shownText (index : Int) : Bytes :=
  cs.flatMap fun c => if c.index = index then c.rendered else []

def partText (index : Int) (i : ℕ) : Bytes :=
  cs.flatMap fun c => if c.index = index then
    ((c.content[i]?).map StreamCandidate.added).getD [] else []

theorem groundingAnnotations_keeps (s : StreamCandidate) (metadata : Option GroundingMetadata)
    (candidateIndex : Int) (seen : List Bytes) :
    (s.groundingAnnotations unmarshalChunks unmarshalSupports metadata candidateIndex seen).1.rendered
        = s.rendered ∧
      ∀ i, (s.groundingAnnotations unmarshalChunks unmarshalSupports metadata candidateIndex
        seen).1.textOf i = s.textOf i := by
  unfold StreamCandidate.groundingAnnotations StreamCandidate.textOf
  dsimp only
  split
  · exact ⟨rfl, fun _ => rfl⟩
  rename_i metadata
  have h := StreamCandidate.appendGroundingChunks_keeps unmarshalChunks s metadata
  split
  · exact ⟨h.1, fun i => by rw [h.2]⟩
  · split <;> exact ⟨h.1, fun i => by rw [h.2]⟩

def Holds (s : GroundingState) (cs : List CandidateChunk) : Prop :=
  ∀ index, (s.candidates index).rendered = shownText cs index ∧
    ∀ i, (s.candidates index).textOf i = partText cs index i

theorem Holds.step {s : GroundingState} {cs : List CandidateChunk} (h : Holds s cs)
    (c : CandidateChunk) :
    Holds (convertCandidate unmarshalChunks unmarshalSupports s c).1 (cs ++ [c]) := by
  intro index
  have hkeeps := groundingAnnotations_keeps unmarshalChunks unmarshalSupports
    ((s.candidates c.index).appendContent c.content c.rendered) c.metadata c.index s.sent
  simp only [shownText, partText, List.flatMap_append, List.flatMap_cons, List.flatMap_nil,
    List.append_nil]
  unfold convertCandidate
  by_cases hi : c.index = index
  · subst hi
    simp only [Function.update_self, if_true]
    refine ⟨?_, fun i => ?_⟩
    · rw [hkeeps.1, StreamCandidate.rendered_appendContent, (h c.index).1]
      rfl
    · rw [hkeeps.2, StreamCandidate.textOf_appendContent, (h c.index).2]
      rfl
  · simp only [Function.update_of_ne (Ne.symm hi), if_neg hi, List.append_nil]
    exact h index

theorem holds_run : Holds (convertCandidates unmarshalChunks unmarshalSupports .init cs).1 cs := by
  suffices h : ∀ (rest before : List CandidateChunk) (s : GroundingState), Holds s before →
      Holds (convertCandidates unmarshalChunks unmarshalSupports s rest).1 (before ++ rest) from
    h cs [] .init fun _ => ⟨rfl, fun _ => rfl⟩
  intro rest
  induction rest with
  | nil => exact fun before s h => (List.append_nil before).symm ▸ h
  | cons c rest ih =>
    intro before s h
    rw [List.append_cons]
    exact ih _ _ (h.step unmarshalChunks unmarshalSupports c)

theorem groundingAnnotations_cites {s : StreamCandidate} {metadata : Option GroundingMetadata}
    {candidateIndex : Int} {seen : List Bytes} {p : GroundingSupport × UrlCitation}
    (hp : p ∈ (s.groundingAnnotations unmarshalChunks unmarshalSupports metadata candidateIndex
      seen).2.1) : ∃ i : ℕ, (∀ j, p.1.partIndex = some j → j = i) ∧
      Cites s.rendered (s.textOf i) p.1 p.2 := by
  unfold StreamCandidate.groundingAnnotations at hp
  dsimp only at hp
  split at hp
  · exact absurd hp not_mem_nil
  rename_i metadata
  split at hp
  · exact absurd hp not_mem_nil
  split at hp
  · exact absurd hp not_mem_nil
  have hkeeps := StreamCandidate.appendGroundingChunks_keeps unmarshalChunks s metadata
  obtain ⟨i, hi, hcites⟩ := StreamCandidate.annotateSupports_cites hp
  rw [StreamCandidate.textOf, hkeeps.1, hkeeps.2] at hcites
  exact ⟨i, hi, hcites⟩

theorem convertCandidate_cites {s : GroundingState} {cs : List CandidateChunk} (h : Holds s cs)
    {c : CandidateChunk} {p : GroundingSupport × UrlCitation}
    (hp : p ∈ (convertCandidate unmarshalChunks unmarshalSupports s c).2) :
    ∃ i : ℕ, (∀ j, p.1.partIndex = some j → j = i) ∧
      Cites (shownText (cs ++ [c]) c.index) (partText (cs ++ [c]) c.index i) p.1 p.2 := by
  obtain ⟨i, hi, hcites⟩ := groundingAnnotations_cites unmarshalChunks unmarshalSupports hp
  rw [StreamCandidate.rendered_appendContent, StreamCandidate.textOf_appendContent,
    (h c.index).1, (h c.index).2] at hcites
  refine ⟨i, hi, ?_⟩
  simp only [shownText, partText, List.flatMap_append, List.flatMap_cons, List.flatMap_nil,
    List.append_nil, if_true]
  exact hcites

/-! ### A whole response -/

omit unmarshalChunks unmarshalSupports in
theorem locateFrom_found {rendered : Bytes} {content : List GeminiPart} {cursor i start : ℕ}
    {part : RenderedPart} (hpart : (locateFrom rendered cursor content)[i]? = some part)
    (hstart : part.startByte = some start) :
    (∃ source, content[i]? = some source ∧ source.text = part.text) ∧
      ∃ a b, rendered = a ++ (part.text ++ b) ∧ a.length = start := by
  induction content generalizing cursor i with
  | nil => cases hpart
  | cons source rest ih =>
    unfold locateFrom at hpart
    split at hpart
    · cases i with
      | zero => cases hpart; cases hstart
      | succ i => exact ih hpart
    split at hpart
    · cases i with
      | zero => cases hpart; cases hstart
      | succ i => exact ih hpart
    rename_i relative hindex
    cases i with
    | zero =>
      cases hpart
      cases hstart
      obtain ⟨a, b, hab, ha⟩ := indexOf_eq_some hindex
      refine ⟨⟨source, rfl, rfl⟩, rendered.take cursor ++ a, b, ?_, ?_⟩
      · rw [append_assoc, ← hab, List.take_append_drop]
      · rw [length_append, List.length_take, ha]
        omega
    | succ i => exact ih hpart

omit unmarshalChunks unmarshalSupports in
theorem groundingRuneRange_cites {support : GroundingSupport} {part a b : Bytes} {range : ℕ × ℕ}
    (h : groundingRuneRange (a ++ (part ++ b)) part a.length support.startIndex support.endIndex =
      some range) (url title : Bytes) :
    Cites (a ++ (part ++ b)) part support ⟨range.1, range.2, url, title⟩ := by
  unfold groundingRuneRange at h
  split at h
  · cases h
  rename_i hsegment
  split at h
  · cases h
  rename_i hvalid
  simp only [not_or, Classical.not_not, Int.not_le, Int.not_lt] at hsegment hvalid
  obtain ⟨hstart, hlt, hend⟩ := hsegment
  have hm := slice_ne_nil hstart hlt hend
  obtain ⟨hmid, hcount⟩ := decode_segment (Int.le_of_lt hlt) hvalid.1 hvalid.2
  have hsplit := (split_slice (s := part) (Int.le_of_lt hlt)).2
  cases h
  generalize part.take support.startIndex.toNat = before at *
  generalize hslice : slice part support.startIndex support.endIndex = cited at *
  generalize part.drop support.endIndex.toNat = after at *
  -- Reading can be split where the segment starts and where the part does.
  have hbefore : runeCount (a ++ before) = runeCount a + runeCount before := by
    by_cases hb : before = []
    · subst hb
      rw [List.append_nil]
      rfl
    have hfresh := fresh_of_validString (b := []) hb hvalid.1
    rw [List.append_nil] at hfresh
    rw [runeCount, decode_append (.inr hfresh), length_append]
    rfl
  have hcited := codePoints_part (a := a ++ before) (c := after ++ b) hm
    (decode_append (.inr (fresh_of_validString hm hmid))) (decode_append (.inl hmid))
  have hwhole : a ++ before ++ (cited ++ (after ++ b)) = a ++ (part ++ b) := by
    rw [hsplit]
    simp only [append_assoc]
  rw [hwhole, hbefore] at hcited
  rw [List.take_left] at *
  have hsub : runeCount a + runeCount (part.take support.endIndex.toNat) -
      (runeCount a + runeCount before) = runeCount cited := by omega
  refine ⟨?_, ?_, ⟨hstart, hlt, hend⟩, ?_⟩
  · show runeCount a + runeCount before < runeCount a + _
    omega
  · show runeCount a + _ ≤ _
    omega
  rw [hsub, hslice]
  exact hcited.2.2

omit unmarshalChunks unmarshalSupports in
theorem annotateSupports_cites {content : List GeminiPart} {rendered : Bytes}
    {chunks : List GroundingChunk} {seen : List Bytes} {supports : List GroundingSupport}
    {c : UrlCitation}
    (hc : c ∈ annotateSupports (locateRenderedGeminiParts content rendered) rendered chunks seen
      supports) : ∃ support ∈ supports, ∃ i : ℕ, ∃ part, content[i]? = some part ∧
      (∀ j, support.partIndex = some j → j = i) ∧ Cites rendered part.text support c := by
  induction supports generalizing seen with
  | nil => exact absurd hc not_mem_nil
  | cons support rest ih =>
    -- A citation of a later support.
    have hlater : ∀ {seen}, c ∈ annotateSupports (locateRenderedGeminiParts content rendered)
        rendered chunks seen rest → ∃ s ∈ support :: rest, ∃ i : ℕ, ∃ part,
          content[i]? = some part ∧ (∀ j, s.partIndex = some j → j = i) ∧
            Cites rendered part.text s c := by
      intro seen h
      obtain ⟨s, hs, hcites⟩ := ih h
      exact ⟨s, List.mem_cons_of_mem _ hs, hcites⟩
    unfold annotateSupports at hc
    dsimp only at hc
    split at hc
    · exact hlater hc
    rename_i startIndex endIndex hrange
    rcases mem_append.1 hc with hc | hc
    · obtain ⟨part, hpart, h⟩ := bind_eq_some_iff.1 hrange
      obtain ⟨start, hstart, h⟩ := bind_eq_some_iff.1 h
      obtain ⟨range, hrange, h⟩ := bind_eq_some_iff.1 h
      obtain ⟨i, hi, hpart⟩ := bind_eq_some_iff.1 hpart
      obtain ⟨⟨source, hsource, htext⟩, a, b, hab, ha⟩ := locateFrom_found hpart hstart
      refine ⟨support, List.mem_cons_self, i, source, hsource,
        StreamCandidate.partIndexOf_named hi, ?_⟩
      split at h
      · cases h
      cases h
      obtain ⟨hs, he⟩ := appendGroundingAnnotations_place hc
      rw [hab, ← ha] at hrange
      have hcites := groundingRuneRange_cites hrange c.url c.title
      rw [← hs, ← he] at hcites
      rw [hab, htext]
      exact hcites
    · exact hlater hc

end

end NewApi.GeminiGrounding
