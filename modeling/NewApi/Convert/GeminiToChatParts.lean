/-
  NewApi.Convert.GeminiToChatParts

  The parts of a Gemini candidate, as a whole response and as a chunk shows them:
  which parts have the same text in both, and what becomes of parts whose calls are
  put together.
-/

import NewApi.Convert.GeminiToChat
import Mathlib.Algebra.Order.BigOperators.Group.List
import Mathlib.Algebra.Order.Ring.Nat

namespace NewApi.GeminiSource

open List (countP_cons filterMap_cons foldl_cons length_cons map_cons mem_filterMap sum_cons)
open String (length_append length_empty)
open NewApi.Lib

variable {N : Type} (marshal : JsonValue N → String)

/-! ## Pieces of content -/

def contentOf (pieces : List String) : String := (pieces.foldl Written.write {}).content

theorem measure_write {f : String → Nat} (hf : ∀ a b, f (a ++ b) = f a + f b)
    (pieces : List String) (w : Written) : f (pieces.foldl Written.write w).content =
      f w.content + (pieces.map f).sum
        + f "\n" * (pieces.length - if w.appended = 0 then 1 else 0) := by
  induction pieces generalizing w with
  | nil => simp
  | cons p pieces ih =>
    rw [foldl_cons, ih]
    by_cases hfirst : w.appended = 0
    · simp [Written.write, hfirst, hf]
      omega
    have hpos : 0 < w.appended := Nat.pos_of_ne_zero hfirst
    simp [Written.write, hfirst, hpos, hf, Nat.mul_add]
    omega

theorem length_contentOf (pieces : List String) :
    (contentOf pieces).length = (pieces.map String.length).sum + (pieces.length - 1) := by
  have h := measure_write length_append pieces {}
  have hsep : "\n".length = 1 := by decide
  simpa [contentOf, hsep] using h

def brackets (s : String) : Nat := s.toList.count '['

theorem brackets_append (a b : String) : brackets (a ++ b) = brackets a + brackets b := by
  simp [brackets]

theorem brackets_contentOf (pieces : List String) :
    brackets (contentOf pieces) = (pieces.map brackets).sum := by
  have h := measure_write brackets_append pieces {}
  have hsep : brackets "\n" = 0 := by decide
  have hnone : brackets "" = 0 := by decide
  simpa [contentOf, hsep, hnone] using h

@[simp] theorem contentOf_singleton (p : String) : contentOf [p] = p := by
  simp [contentOf, Written.write]

/-! ## What the renderers make of parts -/

/-- The piece that a whole response shows for a part. -/
def wholePiece (k : PartKind N) : Option String :=
  match k with
  | .inline d => some (inlineLink (if d.isImage then "![image]" else "[media]") d)
  | .call _ => none
  | .thought _ => none
  | .code c => some (codeBlock c)
  | .result output => some (outputBlock output)
  | .text s => if s ≠ "\n" then some s else none

/-- The piece that a chunk has for a part. -/
def streamPiece (k : PartKind N) : Option String :=
  match k with
  | .inline d => if d.isImage then some (inlineLink "![image]" d) else none
  | .call _ => none
  | .thought s => some s
  | .code c => some (codeBlock c ++ "\n")
  | .result output => some (outputBlock output ++ "\n")
  | .text s => if s ≠ "\n" then some s else none

def thoughtOf (k : PartKind N) : Option String :=
  match k with
  | .thought s => some s
  | _ => none

def callOf (k : PartKind N) : Option (FunctionCall N) :=
  match k with
  | .call c => some c
  | _ => none

variable (ps : List (GeminiPart N))

def kinds : List (PartKind N) := ps.map GeminiPart.kind

def callsOf : List (FunctionCall N) := (kinds ps).filterMap callOf

def toolCallsOf : List ToolCallResponse :=
  (callsOf ps).map (geminiResponseToolCall marshal)

@[simp] theorem kinds_cons (p : GeminiPart N) (ps : List (GeminiPart N)) :
    kinds (p :: ps) = p.kind :: kinds ps := rfl

theorem renderParts (r : Rendering) : ps.foldl (renderPart marshal) r =
      { written := ((kinds ps).filterMap wholePiece).foldl Written.write r.written
        reasoningContent := ((kinds ps).filterMap thoughtOf).getLast?.or r.reasoningContent
        toolCalls := r.toolCalls ++ toolCallsOf marshal ps
        sawCall := r.sawCall || !(callsOf ps).isEmpty } := by
  induction ps generalizing r with
  | nil => simp [toolCallsOf, callsOf, kinds]
  | cons p ps ih =>
    rw [foldl_cons, ih]
    unfold renderPart toolCallsOf callsOf
    cases hkind : p.kind with
    | text s =>
      by_cases hnewline : s = "\n"
      · simp [hkind, wholePiece, thoughtOf, callOf, filterMap_cons, hnewline]
      · simp [hkind, wholePiece, thoughtOf, callOf, filterMap_cons, hnewline]
    | thought s =>
      simp only [kinds_cons, hkind, filterMap_cons, wholePiece, thoughtOf, callOf,
        List.getLast?_cons]
      cases ((kinds ps).filterMap thoughtOf).getLast? <;> rfl
    | inline d | call c | code c | result output =>
      simp [hkind, wholePiece, thoughtOf, callOf, filterMap_cons]

def ToolCallResponse.plain (call : ToolCallResponse) : ToolCallResponse := { call with index := none }

theorem streamParts (r : StreamRendering) : ∃ calls, ps.foldl (streamPart marshal) r =
      { written := ((kinds ps).filterMap streamPiece).foldl Written.write r.written
        isThought := r.isThought || !((kinds ps).filterMap thoughtOf).isEmpty
        isTools := r.isTools || !(callsOf ps).isEmpty
        toolCalls := r.toolCalls ++ calls } ∧
      calls.map ToolCallResponse.plain = toolCallsOf marshal ps := by
  induction ps generalizing r with
  | nil => exact ⟨[], by simp [callsOf, kinds], rfl⟩
  | cons p ps ih =>
    obtain ⟨calls, hfold, hcalls⟩ := ih (streamPart marshal r p)
    cases hkind : p.kind with
    | call c =>
      refine ⟨{ geminiResponseToolCall marshal c with index := some r.toolCalls.length } :: calls,
        ?_, ?_⟩
      · rw [foldl_cons, hfold]
        simp [streamPart, hkind, streamPiece, thoughtOf, callOf, callsOf,
          filterMap_cons]
      rw [map_cons, hcalls]
      simp only [toolCallsOf, callsOf, kinds_cons, hkind, filterMap_cons, callOf,
        map_cons]
      rfl
    | text s =>
      refine ⟨calls, ?_, ?_⟩
      · rw [foldl_cons, hfold]
        by_cases hnewline : s = "\n"
        · simp [streamPart, hkind, streamPiece, thoughtOf, callOf, callsOf, filterMap_cons,
            hnewline]
        · simp [streamPart, hkind, streamPiece, thoughtOf, callOf, callsOf, filterMap_cons,
            hnewline]
      · simpa [toolCallsOf, hkind, callOf, callsOf, filterMap_cons] using hcalls
    | inline d =>
      refine ⟨calls, ?_, ?_⟩
      · rw [foldl_cons, hfold]
        by_cases himage : d.isImage = true
        · simp [streamPart, hkind, streamPiece, thoughtOf, callOf, callsOf, filterMap_cons,
            himage]
        · simp [streamPart, hkind, streamPiece, thoughtOf, callOf, callsOf, filterMap_cons,
            himage]
      · simpa [toolCallsOf, hkind, callOf, callsOf, filterMap_cons] using hcalls
    | _ =>
      refine ⟨calls, ?_, ?_⟩
      · rw [foldl_cons, hfold]
        simp [streamPart, hkind, streamPiece, thoughtOf, callOf, callsOf,
          filterMap_cons]
      · simpa [toolCallsOf, hkind, callOf, callsOf, filterMap_cons] using hcalls

/-! ## When the visible text and the reasoning agree -/

def PartKind.isMedia (k : PartKind N) : Bool :=
  match k with
  | .inline d => !d.isImage
  | _ => false

def PartKind.isCode (k : PartKind N) : Bool :=
  match k with
  | .code _ => true
  | .result _ => true
  | _ => false

def PartKind.shows (k : PartKind N) : Bool :=
  match k with
  | .call _ => false
  | .text s => s ≠ "\n"
  | _ => true

def onlyThought (ks : List (PartKind N)) : Bool :=
  match ks.filter PartKind.shows with
  | [.thought _] => true
  | _ => false

/-- Parts whose text both renderers show alike: there is neither a thought nor media nor
    code, or a thought is all there is. -/
def TextOk : Prop :=
  (∀ k ∈ kinds ps, thoughtOf k = none ∧ ¬ k.isMedia ∧ ¬ k.isCode) ∨ onlyThought (kinds ps)

/-- The pieces of two renderers that show the same. -/
def SameText (ps qs : List (GeminiPart N)) : Prop :=
  (if (kinds qs).filterMap thoughtOf = [] then contentOf ((kinds qs).filterMap streamPiece) else "")
      = contentOf ((kinds ps).filterMap wholePiece) ∧
    (if (kinds qs).filterMap thoughtOf = [] then "" else contentOf ((kinds qs).filterMap streamPiece))
      = ((kinds ps).filterMap thoughtOf).getLast?.getD ""

theorem le_length_contentOf {pieces : List String} {p : String} (hp : p ∈ pieces) :
    p.length + (pieces.length - 1) ≤ (contentOf pieces).length := by
  rw [length_contentOf]
  have hle : p.length ≤ (pieces.map String.length).sum :=
    List.single_le_sum (fun _ _ => Nat.zero_le _) _ (List.mem_map_of_mem hp)
  omega

theorem pieces_of_contentOf_empty {pieces : List String} (h : contentOf pieces = "") {p : String}
    (hp : p ∈ pieces) : p = "" := by
  have hle := le_length_contentOf hp
  rw [h, length_empty] at hle
  exact String.length_eq_zero_iff.mp (by omega)

theorem inlineLink_ne_empty (label : String) (d : GeminiInlineData) : inlineLink label d ≠ "" := by
  intro h
  have hlength := congrArg String.length h
  have hlast : ")".length = 1 := by decide
  simp only [inlineLink, length_append, hlast, length_empty] at hlength
  omega

theorem codeBlock_ne_empty (c : ExecutableCode) : codeBlock c ≠ "" := by
  intro h
  have hlength := congrArg String.length h
  have hlast : "\n```".length = 4 := by decide
  simp only [codeBlock, length_append, hlast, length_empty] at hlength
  omega

theorem outputBlock_ne_empty (output : String) : outputBlock output ≠ "" := by
  intro h
  have hlength := congrArg String.length h
  have hlast : "\n```".length = 4 := by decide
  simp only [outputBlock, length_append, hlast, length_empty] at hlength
  omega

variable {k : PartKind N}

theorem plain_of_empty (h : ∀ p, wholePiece k = some p → p = "") :
    ¬ k.isMedia ∧ ¬ k.isCode ∧ (thoughtOf k = none → k.shows = true → k = .text "") := by
  cases k with
  | inline d => exact absurd (h _ rfl) (inlineLink_ne_empty _ _)
  | code c => exact absurd (h _ rfl) (codeBlock_ne_empty _)
  | result output => exact absurd (h _ rfl) (outputBlock_ne_empty _)
  | call c | thought s => exact ⟨by simp [PartKind.isMedia], by simp [PartKind.isCode], nofun⟩
  | text s =>
    refine ⟨by simp [PartKind.isMedia], by simp [PartKind.isCode], fun _ hshows => ?_⟩
    have hne : s ≠ "\n" := by simpa [PartKind.shows] using hshows
    rw [h s (by simp [wholePiece, hne])]

theorem shows_iff (h : ¬ k.isMedia) : k.shows ↔ (streamPiece k).isSome := by
  cases k with
  | inline d =>
    have himage : d.isImage = true := by simpa [PartKind.isMedia] using h
    simp [PartKind.shows, streamPiece, himage]
  | text s =>
    by_cases hnewline : s = "\n"
    · simp [PartKind.shows, streamPiece, hnewline]
    · simp [PartKind.shows, streamPiece, hnewline]
  | call c | thought s | code c | result output => simp [PartKind.shows, streamPiece]

theorem streamPiece_of_thought {s : String} (h : thoughtOf k = some s) :
    k = .thought s ∧ streamPiece k = some s := by
  cases k with
  | thought t => cases h; exact ⟨rfl, rfl⟩
  | inline d => cases h
  | call c => cases h
  | code c => cases h
  | result output => cases h
  | text t => cases h

theorem hidden (h : ¬ k.shows) :
    wholePiece k = none ∧ streamPiece k = none ∧ thoughtOf k = none := by
  cases k with
  | call c => exact ⟨rfl, rfl, rfl⟩
  | text s =>
    have hnewline : s = "\n" := by simpa [PartKind.shows] using h
    simp [wholePiece, streamPiece, thoughtOf, hnewline]
  | inline d | thought t | code c | result output => exact absurd rfl h

theorem streamPiece_eq (hthought : thoughtOf k = none) (hmedia : ¬ k.isMedia)
    (hcode : ¬ k.isCode) : streamPiece k = wholePiece k := by
  cases k with
  | inline d =>
    have himage : d.isImage = true := by simpa [PartKind.isMedia] using hmedia
    simp [streamPiece, wholePiece, himage]
  | thought t => cases hthought
  | code c | result output => simp [PartKind.isCode] at hcode
  | text t => rfl
  | call c => rfl

theorem length_pieces {ks : List (PartKind N)} (h : ∀ k ∈ ks, thoughtOf k = none ∧ ¬ k.isMedia) :
    (ks.filterMap streamPiece).length = (ks.filterMap wholePiece).length ∧
      ((ks.filterMap streamPiece).map String.length).sum =
        ((ks.filterMap wholePiece).map String.length).sum + ks.countP PartKind.isCode := by
  have hnewline : "\n".length = 1 := by decide
  induction ks with
  | nil => exact ⟨rfl, rfl⟩
  | cons k ks ih =>
    obtain ⟨hcount, hsum⟩ := ih fun k hk => h k (List.mem_cons_of_mem _ hk)
    obtain ⟨hthought, hmedia⟩ := h k List.mem_cons_self
    by_cases hcode : k.isCode = true
    · cases k with
      | code c | result output =>
        simp only [filterMap_cons, streamPiece, wholePiece, length_cons, map_cons,
          sum_cons, countP_cons, hcode, length_append, hnewline, if_true]
        omega
      | inline d | call c | thought t | text t => cases hcode
    simp only [filterMap_cons, streamPiece_eq hthought hmedia hcode, countP_cons, hcode]
    cases wholePiece k with
    | none => exact ⟨hcount, hsum⟩
    | some p =>
      simp only [length_cons, map_cons, sum_cons]
      refine ⟨by omega, ?_⟩
      simp only [Bool.false_eq_true, if_false]
      omega

variable {ps : List (GeminiPart N)}

/-- The text is right for parts of which none is lost, when their text is. -/
theorem sameText_self (hmedia : (kinds ps).filterMap thoughtOf = [] → ∀ k ∈ kinds ps, ¬ k.isMedia) :
    SameText ps ps ↔ TextOk ps := by
  unfold SameText TextOk
  generalize kinds ps = ks at hmedia ⊢
  by_cases hthoughts : ks.filterMap thoughtOf = []
  · have hnone : ∀ k ∈ ks, thoughtOf k = none := List.filterMap_eq_nil_iff.mp hthoughts
    have hnot : onlyThought ks = false := by
      unfold onlyThought
      split
      · rename_i s hfilter
        have hmem : PartKind.thought s ∈ ks :=
          List.mem_of_mem_filter (hfilter ▸ List.mem_singleton_self _)
        exact absurd (hnone _ hmem) (by simp [thoughtOf])
      · rfl
    simp only [hthoughts, if_true, List.getLast?_nil, Option.getD_none, and_true, hnot,
      Bool.false_eq_true, or_false]
    constructor
    · intro heq k hk
      obtain ⟨hcount, hsum⟩ := length_pieces fun k hk => ⟨hnone k hk, hmedia hthoughts k hk⟩
      have hlength := congrArg String.length heq
      rw [length_contentOf, length_contentOf, hcount, hsum] at hlength
      have hzero : ks.countP PartKind.isCode = 0 := by omega
      exact ⟨hnone k hk, hmedia hthoughts k hk, List.countP_eq_zero.mp hzero k hk⟩
    · intro h
      rw [List.filterMap_congr fun k hk => streamPiece_eq (h k hk).1 (h k hk).2.1 (h k hk).2.2]
  have hsome : ¬ ∀ k ∈ ks, thoughtOf k = none ∧ ¬ k.isMedia ∧ ¬ k.isCode :=
    fun h => hthoughts (List.filterMap_eq_nil_iff.mpr fun k hk => (h k hk).1)
  simp only [hthoughts, if_false, hsome, false_or]
  constructor
  · rintro ⟨hwhole, hstream⟩
    have hplain : ∀ k ∈ ks, ¬ k.isMedia := fun k hk =>
      (plain_of_empty fun p hp => pieces_of_contentOf_empty hwhole.symm
        (mem_filterMap.mpr ⟨k, hk, hp⟩)).1
    -- the last thought is a piece, as long as the content
    obtain ⟨t, hlast⟩ : ∃ t, (ks.filterMap thoughtOf).getLast? = some t :=
      Option.ne_none_iff_exists'.mp fun hnone => hthoughts (List.getLast?_eq_none_iff.mp hnone)
    obtain ⟨k, hk, hkt⟩ := mem_filterMap.mp (List.mem_of_getLast? hlast)
    obtain ⟨rfl, hpiece⟩ := streamPiece_of_thought hkt
    have hle := le_length_contentOf (mem_filterMap.mpr ⟨_, hk, hpiece⟩)
    rw [hstream, hlast, Option.getD_some] at hle
    have hone : (ks.filter PartKind.shows).length ≤ 1 := by
      rw [← List.countP_eq_length_filter, List.countP_congr fun k hk => shows_iff (hplain k hk),
        ← List.length_filterMap_eq_countP]
      omega
    have hmem : PartKind.thought t ∈ ks.filter PartKind.shows := List.mem_filter.mpr ⟨hk, rfl⟩
    obtain ⟨k, hk⟩ := List.length_eq_one_iff.mp (Nat.le_antisymm hone (List.length_pos_of_mem hmem))
    rw [hk, List.mem_singleton] at hmem
    unfold onlyThought
    rw [hk, ← hmem]
  intro honly
  have hfilter : ∃ t, ks.filter PartKind.shows = [.thought t] := by
    unfold onlyThought at honly
    split at honly
    · rename_i t hfilter
      exact ⟨t, hfilter⟩
    · cases honly
  obtain ⟨t, hfilter⟩ := hfilter
  have hcut : ∀ f : PartKind N → Option String, (∀ k, ¬ k.shows → f k = none) →
      ks.filterMap f = [PartKind.thought t].filterMap f := by
    intro f hf
    rw [← hfilter, List.filterMap_filter]
    refine List.filterMap_congr fun k _ => ?_
    by_cases hk : k.shows = true
    · rw [if_pos hk]
    · rw [if_neg hk, hf k hk]
  rw [hcut wholePiece fun k hk => (hidden hk).1, hcut streamPiece fun k hk => (hidden hk).2.1,
    hcut thoughtOf fun k hk => (hidden hk).2.2]
  exact ⟨rfl, contentOf_singleton t⟩

/-! ## Parts of which calls are put together -/

def Alike (p q : GeminiPart N) : Prop :=
  q.kind = p.kind ∨ ∃ call call', p.kind = .call call ∧ q.kind = .call call'

/-- Of parts with a call some may be lost, and some get another call. -/
inductive Kept : List (GeminiPart N) → List (GeminiPart N) → Prop
  | nil : Kept [] []
  | kept {p q : GeminiPart N} {ps qs : List (GeminiPart N)} : Alike p q → Kept ps qs →
      Kept (p :: ps) (q :: qs)
  | lost {p : GeminiPart N} {ps qs : List (GeminiPart N)} : p.functionCall.isSome → Kept ps qs →
      Kept (p :: ps) qs

/-- The call that a part's call becomes when no call is in progress and it leaves none. -/
def completedCall (call : FunctionCall N) : Option (FunctionCall N) :=
  if call.willContinue = none ∧ call.partialArgs = [] then some call
  else match appendPartialFunctionCall none call with
    | .ok (.inr completed) => some completed
    | _ => none

/-- The part with its call completed. -/
inductive Completed : GeminiPart N → GeminiPart N → Prop
  | plain {p : GeminiPart N} : p.functionCall = none → Completed p p
  | call {p : GeminiPart N} {call completed : FunctionCall N} : p.functionCall = some call →
      completedCall call = some completed → Completed p { p with functionCall := some completed }

variable {p : GeminiPart N}

theorem kind_with_call {call : FunctionCall N} (h : p.functionCall = some call)
    (completed : FunctionCall N) : Alike p { p with functionCall := some completed } := by
  unfold Alike GeminiPart.kind
  cases p.inlineData with
  | some d => exact .inl rfl
  | none => exact .inr ⟨call, completed, by rw [h], rfl⟩

theorem Completed.alike {q : GeminiPart N} (h : Completed p q) : Alike p q := by
  cases h with
  | plain _ => exact .inl rfl
  | call hcall _ => exact kind_with_call hcall _

theorem preparePart_cases {current : Option (GeminiPartialToolCall N)} {acc : List (GeminiPart N)}
    {st : Option (GeminiPartialToolCall N) × List (GeminiPart N)}
    (h : preparePart (current, acc) p = .ok st) :
    (∃ q, st = (if p.functionCall.isSome then none else current, acc ++ [q]) ∧ Alike p q ∧
        (current = none → Completed p q)) ∨
      (p.functionCall.isSome ∧ st.2 = acc) := by
  unfold preparePart at h
  cases hcall : p.functionCall with
  | none =>
    simp only [hcall] at h
    cases h
    exact .inl ⟨p, by simp, .inl rfl, fun _ => .plain hcall⟩
  | some call =>
    simp only [hcall] at h
    by_cases hwhole : current.isNone ∧ call.willContinue = none ∧ call.partialArgs = []
    · rw [if_pos hwhole] at h
      cases h
      have hsame : p = { p with functionCall := some call } := by
        cases p
        cases hcall
        rfl
      have hdone : Completed p { p with functionCall := some call } :=
        .call hcall (by rw [completedCall, if_pos hwhole.2])
      rw [← hsame] at hdone
      exact .inl ⟨p, by simp [Option.isNone_iff_eq_none.mp hwhole.1], .inl rfl, fun _ => hdone⟩
    rw [if_neg hwhole] at h
    cases happend : appendPartialFunctionCall current call with
    | error e =>
      rw [happend] at h
      cases h
    | ok result =>
      rw [happend] at h
      cases result with
      | inl progress =>
        cases h
        exact .inr ⟨rfl, rfl⟩
      | inr completed =>
        cases h
        refine .inl ⟨{ p with functionCall := some completed }, by simp, kind_with_call hcall _,
          fun hnone => .call hcall ?_⟩
        subst hnone
        have hparts : ¬ (call.willContinue = none ∧ call.partialArgs = []) :=
          fun hw => hwhole ⟨rfl, hw⟩
        rw [completedCall, if_neg hparts, happend]

theorem prepareParts_kept {st st' : Option (GeminiPartialToolCall N) × List (GeminiPart N)}
    (h : tryRun preparePart st ps = .ok st') : ∃ qs, st'.2 = st.2 ++ qs ∧ Kept ps qs := by
  induction ps generalizing st with
  | nil =>
    cases h
    exact ⟨[], by simp, .nil⟩
  | cons p ps ih =>
    obtain ⟨t, ht, hrest⟩ := tryRun_cons_eq_ok.mp h
    obtain ⟨qs, hqs, hkept⟩ := ih hrest
    obtain ⟨current, acc⟩ := st
    rcases preparePart_cases ht with ⟨q, rfl, halike, -⟩ | ⟨hcall, hacc⟩
    · exact ⟨q :: qs, by simpa using hqs, .kept halike hkept⟩
    · exact ⟨qs, by rw [hqs, hacc], .lost hcall hkept⟩

variable {qs : List (GeminiPart N)}

theorem Kept.length_le (h : Kept ps qs) : qs.length ≤ ps.length := by
  induction h with
  | nil => exact le_refl _
  | kept _ _ ih => exact Nat.succ_le_succ ih
  | lost _ _ ih => exact Nat.le_succ_of_le ih

theorem prepareParts_completed {acc : List (GeminiPart N)}
    {current : Option (GeminiPartialToolCall N)}
    (h : tryRun preparePart (none, acc) ps = .ok (current, acc ++ qs))
    (hlength : ps.length ≤ qs.length) : current = none ∧ List.Forall₂ Completed ps qs := by
  induction ps generalizing acc qs with
  | nil =>
    obtain ⟨hcurrent, hqs⟩ := Prod.mk.inj (Except.ok.inj h)
    rw [List.self_eq_append_right.mp hqs]
    exact ⟨hcurrent.symm, .nil⟩
  | cons p ps ih =>
    obtain ⟨t, ht, hrest⟩ := tryRun_cons_eq_ok.mp h
    obtain ⟨rs, hrs, hkept⟩ := prepareParts_kept hrest
    have hle := hkept.length_le
    rcases preparePart_cases ht with ⟨q, rfl, -, hdone⟩ | ⟨-, hacc⟩
    · obtain rfl : qs = q :: rs := by
        simpa using hrs
      rw [ite_self, List.append_cons acc q rs] at hrest
      obtain ⟨hcurrent, hcompleted⟩ := ih hrest (by simpa using hlength)
      exact ⟨hcurrent, .cons (hdone rfl) hcompleted⟩
    obtain rfl : qs = rs := by
      simpa [hacc] using hrs
    rw [length_cons] at hlength
    omega

theorem preparePart_of_completed {q : GeminiPart N} (h : Completed p q) (acc : List (GeminiPart N)) :
    preparePart (none, acc) p = .ok (none, acc ++ [q]) := by
  unfold preparePart
  cases h with
  | plain hnone => rw [hnone]
  | @call call completed hcall hcompleted =>
    rw [hcall]
    unfold completedCall at hcompleted
    by_cases hwhole : call.willContinue = none ∧ call.partialArgs = []
    · rw [if_pos hwhole] at hcompleted
      cases hcompleted
      simp only [Option.isNone_none, hwhole, and_self, if_true]
      rw [← hcall]
    rw [if_neg hwhole] at hcompleted
    simp only [Option.isNone_none, true_and, hwhole, if_false]
    split at hcompleted
    · rename_i c happend
      cases hcompleted
      rw [happend]
    · cases hcompleted

theorem prepareParts_of_completed (h : List.Forall₂ Completed ps qs)
    (acc : List (GeminiPart N)) : tryRun preparePart (none, acc) ps = .ok (none, acc ++ qs) := by
  induction h generalizing acc with
  | nil => simp
  | @cons p q ps qs hdone _ ih =>
    rw [tryRun, preparePart_of_completed hdone]
    show tryRun preparePart (none, acc ++ [q]) ps = _
    rw [ih, ← List.append_cons acc q qs]

/-! ## No part is lost when the texts and the calls agree -/

def bracketsIn (f : PartKind N → Option String) (ks : List (PartKind N)) : Nat :=
  ((ks.filterMap f).map brackets).sum

theorem bracketsIn_cons (f : PartKind N → Option String) (k : PartKind N) (ks : List (PartKind N)) :
    bracketsIn f (k :: ks) = (f k).elim 0 brackets + bracketsIn f ks := by
  cases h : f k with
  | none | some p => simp [bracketsIn, h]

theorem label_brackets (b : Bool) : brackets (if b then "![image]" else "[media]") = 1 := by
  cases b <;> decide

theorem inlineLink_brackets (b : Bool) (d : GeminiInlineData) :
    1 ≤ brackets (inlineLink (if b then "![image]" else "[media]") d) := by
  simp only [inlineLink, brackets_append, label_brackets]
  omega

theorem brackets_piece (k : PartKind N) :
    (streamPiece k).elim 0 brackets + (if k.isMedia then 1 else 0) ≤
      (wholePiece k).elim 0 brackets + (thoughtOf k).elim 0 brackets := by
  cases k with
  | inline d =>
    have hone := inlineLink_brackets d.isImage d
    by_cases himage : d.isImage = true
    · simp [streamPiece, wholePiece, thoughtOf, PartKind.isMedia, himage]
    · simp only [himage] at hone
      simpa [streamPiece, wholePiece, thoughtOf, PartKind.isMedia, himage] using hone
  | text s =>
    by_cases hnewline : s = "\n"
    · simp [streamPiece, wholePiece, thoughtOf, PartKind.isMedia, hnewline]
    · simp [streamPiece, wholePiece, thoughtOf, PartKind.isMedia, hnewline]
  | code c | result output =>
    have hnone : brackets "\n" = 0 := by decide
    simp [streamPiece, wholePiece, thoughtOf, PartKind.isMedia, brackets_append, hnone]
  | call c | thought t => simp [streamPiece, wholePiece, thoughtOf, PartKind.isMedia]

theorem brackets_of_call (h : p.functionCall.isSome) :
    1 ≤ (wholePiece p.kind).elim 0 brackets + (if (callOf p.kind).isSome then 1 else 0) := by
  obtain ⟨call, hcall⟩ := Option.isSome_iff_exists.mp h
  cases hdata : p.inlineData with
  | some d =>
    have hkind : p.kind = .inline d := by simp [GeminiPart.kind, hdata]
    have hone := inlineLink_brackets d.isImage d
    simpa [hkind, wholePiece, callOf] using hone
  | none =>
    have hkind : p.kind = .call call := by simp [GeminiPart.kind, hdata, hcall]
    simp [hkind, wholePiece, callOf]

theorem callsOf_cons_length (p : GeminiPart N) (ps : List (GeminiPart N)) :
    (callsOf (p :: ps)).length = (if (callOf p.kind).isSome then 1 else 0) + (callsOf ps).length := by
  cases h : callOf p.kind with
  | none => simp [callsOf, h]
  | some c =>
    simp [callsOf, h]
    omega

theorem Alike.pieces {q : GeminiPart N} (h : Alike p q) :
    wholePiece q.kind = wholePiece p.kind ∧ streamPiece q.kind = streamPiece p.kind ∧
      thoughtOf q.kind = thoughtOf p.kind ∧ (callOf q.kind).isSome = (callOf p.kind).isSome := by
  rcases h with h | ⟨a, b, ha, hb⟩
  · rw [h]
    exact ⟨rfl, rfl, rfl, rfl⟩
  · rw [ha, hb]
    exact ⟨rfl, rfl, rfl, rfl⟩

theorem Kept.brackets (h : Kept ps qs) :
    bracketsIn streamPiece (kinds qs) + (callsOf qs).length + ps.length
        + (kinds qs).countP PartKind.isMedia ≤
      bracketsIn wholePiece (kinds ps) + (callsOf ps).length + qs.length
        + bracketsIn thoughtOf (kinds qs) := by
  induction h with
  | nil => exact le_refl _
  | @kept p q ps qs halike _ ih =>
    have hpiece := brackets_piece q.kind
    obtain ⟨hwhole, -, -, hcall⟩ := halike.pieces
    rw [hwhole] at hpiece
    simp only [kinds_cons, bracketsIn_cons, callsOf_cons_length, length_cons, hcall,
      countP_cons]
    omega
  | @lost p ps qs hcall _ ih =>
    have hone := brackets_of_call hcall
    simp only [kinds_cons, bracketsIn_cons, callsOf_cons_length, length_cons]
    omega

theorem bracketsIn_thoughts_le (ks : List (PartKind N)) :
    bracketsIn thoughtOf ks ≤ bracketsIn streamPiece ks := by
  induction ks with
  | nil => exact le_refl _
  | cons k ks ih =>
    rw [bracketsIn_cons, bracketsIn_cons]
    cases hthought : thoughtOf k with
    | none =>
      rw [Option.elim_none]
      omega
    | some t =>
      rw [(streamPiece_of_thought hthought).2]
      omega

theorem Kept.length_of_sameText (h : Kept ps qs)
    (htext : SameText ps qs) (hcalls : (callsOf ps).length ≤ (callsOf qs).length) :
    ps.length ≤ qs.length ∧
      ((kinds qs).filterMap thoughtOf = [] → ∀ k ∈ kinds qs, ¬ k.isMedia) := by
  have hbrackets := h.brackets
  have hlength := h.length_le
  by_cases hthoughts : (kinds qs).filterMap thoughtOf = []
  · have hsame := congrArg GeminiSource.brackets htext.1
    rw [if_pos hthoughts, brackets_contentOf, brackets_contentOf] at hsame
    have hnone : bracketsIn thoughtOf (kinds qs) = 0 := by simp [bracketsIn, hthoughts]
    unfold bracketsIn at hbrackets hnone
    refine ⟨by omega, fun _ => ?_⟩
    have hzero : (kinds qs).countP PartKind.isMedia = 0 := by omega
    exact List.countP_eq_zero.mp hzero
  have hsame := congrArg GeminiSource.brackets htext.1
  have hempty : GeminiSource.brackets "" = 0 := by decide
  rw [if_neg hthoughts, hempty, brackets_contentOf] at hsame
  have hle := bracketsIn_thoughts_le (kinds qs)
  unfold bracketsIn at hbrackets hle
  exact ⟨by omega, fun hnone => absurd hnone hthoughts⟩

theorem filterMap_kinds_eq (h : List.Forall₂ Completed ps qs)
    {f : PartKind N → Option String} (hf : ∀ p q, Alike p q → f q.kind = f p.kind) :
    (kinds qs).filterMap f = (kinds ps).filterMap f := by
  induction h with
  | nil => rfl
  | @cons p q ps qs hdone _ ih =>
    simp only [kinds_cons, filterMap_cons, hf p q hdone.alike, ih]

theorem sameText_of_completed (h : List.Forall₂ Completed ps qs) :
    SameText ps qs ↔ SameText ps ps := by
  unfold SameText
  rw [filterMap_kinds_eq h fun p q halike => halike.pieces.2.2.1,
    filterMap_kinds_eq h fun p q halike => halike.pieces.2.1]

end NewApi.GeminiSource
