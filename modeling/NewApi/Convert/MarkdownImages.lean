/-
  NewApi.Convert.MarkdownImages

  The images that the text of a chat message holds as Markdown, cut out for Gemini (the
  loop over `![...](data:...)` in
  `relaykit/relayconvert/internal/oai_chat/to_gemini_chat_req.go`).

  A text is its bytes.  Every part is listed with the text it was made of, which the
  source does not keep.
-/

import NewApi.Lib.IndexOf

namespace NewApi.MarkdownImages

open List (append_assoc drop_drop drop_left map_cons not_mem_nil take_left)
open NewApi.Lib

abbrev Bytes := List ℕ

/-- `dto.GeminiPart`, of a text or of an image. -/
inductive GeminiPart
  | text (text : Bytes)
  | inlineData (mimeType data : Bytes)

/-- `![` -/
def imageStart : Bytes := ['!', '['].map Char.toNat

/-- `](data:` -/
def urlStart : Bytes := [']', '(', 'd', 'a', 't', 'a', ':'].map Char.toNat

/-- `)` -/
def urlEnd : Bytes := [')'].map Char.toNat

/-- What one turn of the loop cuts out. -/
structure Image where
  before : Bytes
  dataURL : Bytes
  /-- From `![` to `)`. -/
  span : Bytes
  after : Bytes

/-- The three searches of a turn. -/
def findImage (text : Bytes) : Option Image := do
  let startIdx ← indexOf text imageStart
  let bracketIdx := startIdx + (← indexOf (text.drop startIdx) urlStart)
  let closeIdx := bracketIdx + 2 + (← indexOf (text.drop (bracketIdx + 2)) urlEnd)
  return {
    before := text.take startIdx
    dataURL := (text.drop (bracketIdx + 2)).take (closeIdx - (bracketIdx + 2))
    span := (text.drop startIdx).take (closeIdx + 1 - startIdx)
    after := text.drop (closeIdx + 1) }

theorem opening_of_image {rest opening tail : Bytes}
    (h : imageStart ++ rest = opening ++ (urlStart ++ tail)) : ∃ alt, opening = imageStart ++ alt := by
  rcases opening with _ | ⟨a, _ | ⟨b, alt⟩⟩
  · cases h
  · cases h
  · cases h
    exact ⟨alt, rfl⟩

theorem long_dataURL {tail dataURL after : Bytes}
    (h : urlStart.drop 2 ++ tail = dataURL ++ (urlEnd ++ after)) :
    (urlStart.drop 2).length ≤ dataURL.length := by
  by_contra hshort
  have hlt : dataURL.length < 5 := by
    simpa [urlStart] using hshort
  have hget := congrArg (·[dataURL.length]?) h
  simp only [List.getElem?_append_right (Nat.le_refl _), Nat.sub_self] at hget
  rw [List.getElem?_append_left (by simpa [urlStart] using hlt)] at hget
  rw [show (urlEnd ++ after)[0]? = some 41 from rfl] at hget
  have hno : ∀ n < 5, (urlStart.drop 2)[n]? ≠ some 41 := by decide
  exact hno _ hlt hget

theorem findImage_eq_some {text : Bytes} {image : Image} (h : findImage text = some image) :
    text = image.before ++ (image.span ++ image.after) ∧
      ∃ alt, image.span = imageStart ++ (alt ++ (urlStart.take 2 ++ (image.dataURL ++ urlEnd))) ∧
        urlStart.drop 2 <+: image.dataURL := by
  unfold findImage at h
  simp only [Option.bind_eq_bind, Option.bind_eq_some_iff] at h
  obtain ⟨startIdx, hstart, bracket, hbracket, close, hclose, h⟩ := h
  cases h
  obtain ⟨before, rest, rfl, rfl⟩ := indexOf_eq_some hstart
  rw [drop_left] at hbracket
  obtain ⟨opening, tail, hopen, rfl⟩ := indexOf_eq_some hbracket
  have hdrop : (before ++ (imageStart ++ rest)).drop (before.length + opening.length + 2) =
      urlStart.drop 2 ++ tail := by
    rw [Nat.add_assoc, ← drop_drop, drop_left, hopen, ← drop_drop, drop_left]
    rfl
  rw [hdrop] at hclose
  obtain ⟨dataURL, after, hurl, rfl⟩ := indexOf_eq_some hclose
  -- From `![` on, with the three searches put together.
  have hspan : imageStart ++ rest =
      (opening ++ (urlStart.take 2 ++ (dataURL ++ urlEnd))) ++ after := by
    have hsplit : urlStart ++ tail = urlStart.take 2 ++ (urlStart.drop 2 ++ tail) := rfl
    rw [hopen, hsplit, hurl]
    simp only [append_assoc]
  have hlen : before.length + opening.length + 2 + dataURL.length + 1 - before.length =
      (opening ++ (urlStart.take 2 ++ (dataURL ++ urlEnd))).length := by
    simp only [List.length_append, urlStart, urlEnd, List.length_map, List.length_take,
      List.length_cons, List.length_nil]
    omega
  have hafter : (before ++ (imageStart ++ rest)).drop
      (before.length + opening.length + 2 + dataURL.length + 1) = after := by
    rw [show before.length + opening.length + 2 + dataURL.length + 1 = before.length +
      (opening ++ (urlStart.take 2 ++ (dataURL ++ urlEnd))).length by omega, ← drop_drop,
      drop_left, hspan, drop_left]
  have hclosed : before.length + opening.length + 2 + dataURL.length -
      (before.length + opening.length + 2) = dataURL.length := by omega
  have hcut : ((before ++ (imageStart ++ rest)).drop (before.length + opening.length + 2)).take
      dataURL.length = dataURL := by rw [hdrop, hurl, take_left]
  rw [hclosed, hcut, hafter, take_left, drop_left, hlen, hspan, take_left]
  refine ⟨rfl, ?_⟩
  obtain ⟨alt, halt⟩ := opening_of_image hopen
  refine ⟨alt, by rw [halt, append_assoc], ?_⟩
  exact List.prefix_of_prefix_length_le ⟨tail, rfl⟩ ⟨urlEnd ++ after, hurl.symm⟩
    (long_dataURL hurl)

theorem findImage_shorter {text : Bytes} {image : Image} (h : findImage text = some image) :
    image.after.length < text.length := by
  obtain ⟨htext, alt, hspan, -⟩ := findImage_eq_some h
  have := congrArg List.length htext
  have := congrArg List.length hspan
  simp only [List.length_append, imageStart, List.length_map, List.length_cons] at *
  omega

section

variable (decodeBase64FileData : Bytes → Except String (Bytes × Bytes))

/-- The loop, with the parts it makes. -/
def imageLoop (text : Bytes) : Except String (List (GeminiPart × Bytes)) :=
  match h : findImage text with
  | none => .ok []
  | some image =>
    match decodeBase64FileData image.dataURL with
    | .error err => .error err
    | .ok (format, base64String) =>
      have := findImage_shorter h
      (imageLoop image.after).map fun parts =>
        (if image.before = [] then [] else [(.text image.before, image.before)]) ++
          (.inlineData format base64String, image.span) :: parts
termination_by text.length

/-- The parts for a text content.  `hasMarkdownImage` is that the loop has made a part. -/
def textParts (text : Bytes) : Except String (List (GeminiPart × Bytes)) :=
  if text = [] then .ok []
  else (imageLoop decodeBase64FileData text).map fun parts =>
    if parts = [] then [(.text text, text)] else parts

/-- A text part is the text it was made of, and an image is the data of a Markdown image. -/
def Sourced (p : GeminiPart × Bytes) : Prop :=
  match p.1 with
  | .text text => p.2 = text
  | .inlineData mimeType data => ∃ alt dataURL,
    p.2 = imageStart ++ (alt ++ (urlStart.take 2 ++ (dataURL ++ urlEnd))) ∧
      urlStart.drop 2 <+: dataURL ∧ decodeBase64FileData dataURL = .ok (mimeType, data)

def Preserves (text : Bytes) (parts : List (GeminiPart × Bytes)) : Prop :=
  (∀ p ∈ parts, Sourced decodeBase64FileData p) ∧ (parts.map Prod.snd).flatten = text

end

/-- The last image of a text, from left to right, is at its end. -/
inductive EndsWithImage : Bytes → Prop
  | last {text : Bytes} {image : Image} (hfind : findImage text = some image)
      (hend : image.after = []) : EndsWithImage text
  | more {text : Bytes} {image : Image} (hfind : findImage text = some image)
      (hmore : EndsWithImage image.after) : EndsWithImage text

theorem EndsWithImage.found {text : Bytes} (h : EndsWithImage text) : findImage text ≠ none := by
  cases h <;> simp_all

section

variable {decodeBase64FileData : Bytes → Except String (Bytes × Bytes)}

theorem imageLoop_of_none {text : Bytes} (h : findImage text = none) :
    imageLoop decodeBase64FileData text = .ok [] := by
  rw [imageLoop]
  split
  · rfl
  rename_i himage
  rw [h] at himage
  cases himage

theorem imageLoop_turn {text : Bytes} {image : Image} {parts : List (GeminiPart × Bytes)}
    (h : findImage text = some image) (hrun : imageLoop decodeBase64FileData text = .ok parts) :
    ∃ format base64String more, decodeBase64FileData image.dataURL = .ok (format, base64String) ∧
      imageLoop decodeBase64FileData image.after = .ok more ∧
      parts = (if image.before = [] then [] else [(.text image.before, image.before)]) ++
        (.inlineData format base64String, image.span) :: more := by
  rw [imageLoop] at hrun
  split at hrun
  · rename_i hnone
    rw [h] at hnone
    cases hnone
  rename_i image' himage
  rw [h] at himage
  cases himage
  split at hrun
  · cases hrun
  rename_i format base64String hdecode
  cases hmore : imageLoop decodeBase64FileData image.after with
  | error err =>
    rw [hmore] at hrun
    cases hrun
  | ok more =>
    rw [hmore] at hrun
    cases hrun
    exact ⟨format, base64String, more, hdecode, rfl, rfl⟩

/-- What a run of the loop has made of a text with an image: parts that come from it, up to
    the end of the last image. -/
theorem imageLoop_run {text : Bytes} {parts : List (GeminiPart × Bytes)}
    (himage : findImage text ≠ none) (hrun : imageLoop decodeBase64FileData text = .ok parts) :
    parts ≠ [] ∧ (∀ p ∈ parts, Sourced decodeBase64FileData p) ∧
      ∃ rest, (parts.map Prod.snd).flatten ++ rest = text ∧ (rest = [] ↔ EndsWithImage text) := by
  induction hn : text.length using Nat.strongRecOn generalizing text parts with
  | ind n ih =>
    obtain ⟨image, hfind⟩ := Option.ne_none_iff_exists'.1 himage
    obtain ⟨format, base64String, more, hdecode, hmore, rfl⟩ := imageLoop_turn hfind hrun
    obtain ⟨htext, alt, hspan, hurl⟩ := findImage_eq_some hfind
    have hsource : Sourced decodeBase64FileData (.inlineData format base64String, image.span) :=
      ⟨alt, image.dataURL, hspan, hurl, hdecode⟩
    have hbefore : (((if image.before = [] then [] else
        [(GeminiPart.text image.before, image.before)]) : List (GeminiPart × Bytes)).map
          Prod.snd).flatten = image.before := by
      split
      · rename_i hnil
        exact hnil.symm
      · exact List.append_nil _
    have hhead : ∀ p ∈ (if image.before = [] then [] else
        [(GeminiPart.text image.before, image.before)] : List (GeminiPart × Bytes)),
          Sourced decodeBase64FileData p := by
      intro p hp
      split at hp
      · exact absurd hp not_mem_nil
      · rw [List.mem_singleton.1 hp]
        rfl
    refine ⟨by simp, ?_, ?_⟩
    · intro p hp
      rcases List.mem_append.1 hp with hp | hp
      · exact hhead p hp
      rcases List.mem_cons.1 hp with rfl | hp
      · exact hsource
      by_cases hafter : findImage image.after = none
      · rw [imageLoop_of_none hafter] at hmore
        cases hmore
        exact absurd hp not_mem_nil
      · exact (ih _ (hn ▸ findImage_shorter hfind) hafter hmore rfl).2.1 p hp
    by_cases hafter : findImage image.after = none
    · -- The last image: what comes after it is left over.
      rw [imageLoop_of_none hafter] at hmore
      cases hmore
      refine ⟨image.after, ?_, fun h => .last hfind h, ?_⟩
      · simp only [List.map_append, List.flatten_append, hbefore, map_cons, List.map_nil,
          List.flatten_cons, List.flatten_nil, List.append_nil, append_assoc]
        exact htext.symm
      rintro (⟨hfind', hend⟩ | ⟨hfind', hend⟩)
      · rw [hfind] at hfind'
        cases hfind'
        exact hend
      rw [hfind] at hfind'
      cases hfind'
      exact absurd hafter hend.found
    obtain ⟨-, -, rest, hrest, hiff⟩ := ih _ (hn ▸ findImage_shorter hfind) hafter hmore rfl
    refine ⟨rest, ?_, fun h => .more hfind (hiff.1 h), ?_⟩
    · simp only [List.map_append, List.flatten_append, hbefore, map_cons,
        List.flatten_cons, append_assoc, hrest]
      exact htext.symm
    rintro (⟨hfind', hend⟩ | ⟨hfind', hend⟩)
    · rw [hfind] at hfind'
      cases hfind'
      exact absurd (by rw [hend]; decide) hafter
    rw [hfind] at hfind'
    cases hfind'
    exact hiff.2 hend

theorem imageLoop_last {text format base64String : Bytes} {image : Image}
    (hfind : findImage text = some image)
    (hdecode : decodeBase64FileData image.dataURL = .ok (format, base64String))
    (hnone : findImage image.after = none) : imageLoop decodeBase64FileData text =
      .ok ((if image.before = [] then [] else [(.text image.before, image.before)]) ++
        [(.inlineData format base64String, image.span)]) := by
  rw [imageLoop]
  split
  · rename_i hno
    rw [hfind] at hno
    cases hno
  rename_i image' hfind'
  rw [hfind] at hfind'
  cases hfind'
  simp only [hdecode, imageLoop_of_none hnone]
  rfl

end

/-- `image/png` -/
def samplePng : Bytes := ['i', 'm', 'a', 'g', 'e', '/', 'p', 'n', 'g'].map Char.toNat

/-- `AAAA` -/
def sampleData : Bytes := ['A', 'A', 'A', 'A'].map Char.toNat

/-- `data:image/png;base64,AAAA` -/
def sampleURL : Bytes :=
  urlStart.drop 2 ++ samplePng ++ [';', 'b', 'a', 's', 'e', '6', '4', ','].map Char.toNat ++
    sampleData

/-- `![a](data:image/png;base64,AAAA)` -/
def sampleImage : Bytes := imageStart ++ [0x61] ++ urlStart.take 2 ++ sampleURL ++ urlEnd

def sampleDecode (dataURL : Bytes) : Except String (Bytes × Bytes) :=
  if dataURL = sampleURL then .ok (samplePng, sampleData) else .error "invalid base64 data"

end NewApi.MarkdownImages
