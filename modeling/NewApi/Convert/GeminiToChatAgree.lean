/-
  NewApi.Convert.GeminiToChatAgree

  A Gemini response converted as a whole, and as the one chunk of a stream.  The two
  renderers treat media, code and thoughts differently, a stream merges tool calls
  that share an id, and it ends its choices by other rules.
-/

import NewApi.Convert.GeminiToChatParts
import Mathlib.Data.List.Nodup

namespace NewApi.GeminiSource

open List (any_cons any_map cons_eq_cons foldl_cons forall₂_cons length_cons length_map
  map_congr_left map_cons map_map mem_cons mem_cons_of_mem mem_cons_self mem_filterMap)
open NewApi.Lib

variable {N : Type} (marshal : JsonValue N → String)

/-! ## Finish reasons -/

/-- What the finish reason of a candidate depends on. -/
structure Ending where
  calls : Bool
  reason : Option String
  index : Int

/-- A reason other than `STOP`. -/
def Ending.loud (e : Ending) : Bool := e.reason ≠ none && e.reason ≠ some "STOP"

def Ending.own (e : Ending) : Option String :=
  match e.reason with
  | none | some "STOP" => none
  | some reason => some (finishReasonOf reason)

/-- The finish reasons of a whole response, after candidates with or without calls. -/
def wholeEnds : Bool → List Ending → List String
  | _, [] => []
  | seen, e :: es =>
    (if seen || e.calls then "tool_calls" else e.own.getD "stop") :: wholeEnds (seen || e.calls) es

variable (es : List Ending)

def firstCalls : Bool :=
  match es with
  | [] => false
  | e :: _ => e.calls

def hasNonStopFinish : Bool :=
  es.any fun e => e.reason.any fun reason => reason ≠ "" && reason ≠ "STOP"

def chunkEnd (e : Ending) : Option String :=
  if e.calls then (if firstCalls es ∧ ¬ hasNonStopFinish es then none else some "tool_calls") else e.own

def terminalEnd : List String :=
  if es.any fun e => (chunkEnd es e).isSome then []
  else [if firstCalls es then "tool_calls" else "stop"]

/-- The finish reasons of a stream; the terminal chunk finishes candidate 0. -/
def streamEnds : List (List String) :=
  es.map fun e => (chunkEnd es e).toList ++ if e.index = 0 then terminalEnd es else []

def Quiet : Prop :=
  (∀ e ∈ es, e.index = 0 ∧ (e.calls = false → e.loud = false)) ∧
    ((∃ e ∈ es, e.calls) → firstCalls es ∧ ¬ hasNonStopFinish es)

/-- Every candidate finishes by itself, and none without calls comes after one with calls. -/
def Loud : Prop :=
  (∀ e ∈ es, e.calls ∨ e.loud) ∧ es.Pairwise (fun e e' => e.calls → e'.calls) ∧
    (firstCalls es → hasNonStopFinish es)

def FinishOk : Prop := Quiet es ∨ Loud es

theorem own_isSome (e : Ending) : e.own.isSome = e.loud := by
  unfold Ending.own Ending.loud
  split
  · rename_i h
    simp [h]
  · rename_i h
    simp [h]
  rename_i reason hstop h
  have hne : reason ≠ "STOP" := hstop
  simp [h, hne]

theorem own_of_not_loud {e : Ending} (h : e.loud = false) : e.own = none := by
  rw [← Option.not_isSome_iff_eq_none, own_isSome, h]
  exact Bool.false_ne_true

theorem own_ne_tools (e : Ending) : e.own ≠ some "tool_calls" := by
  unfold Ending.own finishReasonOf
  split
  · nofun
  · nofun
  split
  · decide
  · decide

theorem wholeEnds_true : wholeEnds true es = es.map fun _ => "tool_calls" := by
  induction es with
  | nil => rfl
  | cons e es ih => simp [wholeEnds, ih]

variable {es : List Ending}

theorem wholeEnds_quiet (h : ∀ e ∈ es, e.calls = false ∧ e.loud = false) :
    wholeEnds false es = es.map fun _ => "stop" := by
  induction es with
  | nil => rfl
  | cons e es ih =>
    obtain ⟨hcalls, hquiet⟩ := h e mem_cons_self
    simp [wholeEnds, hcalls, own_of_not_loud hquiet, ih fun e he => h e (mem_cons_of_mem _ he)]

theorem wholeEnds_loud (es : List Ending) (seen : Bool) :
    (es.map fun e => (if e.calls then some "tool_calls" else e.own).toList)
        = (wholeEnds seen es).map (fun reason => [reason]) ↔
      (∀ e ∈ es, e.calls ∨ e.loud) ∧ es.Pairwise (fun e e' => e.calls → e'.calls) ∧
        (seen → ∀ e ∈ es, e.calls) := by
  induction es generalizing seen with
  | nil => simp [wholeEnds]
  | cons e es ih =>
    have hloud := own_isSome e
    have htools := own_ne_tools e
    rw [wholeEnds, map_cons, map_cons, cons_eq_cons, ih, List.pairwise_cons,
      List.forall_mem_cons, List.forall_mem_cons]
    cases hcalls : e.calls with
    | true =>
      simp only [if_true, Bool.or_true, Option.toList_some, true_and, forall_const, true_or]
      tauto
    | false =>
      cases hown : e.own with
      | none =>
        rw [hown, Option.isSome_none] at hloud
        simp [← hloud]
      | some reason =>
        rw [hown, Option.isSome_some] at hloud
        rw [hown] at htools
        have hne : reason ≠ "tool_calls" := fun h => htools (h ▸ rfl)
        cases seen with
        | true => simp [hne]
        | false => simp [← hloud]

theorem chunkEnd_eq_none {e : Ending} : chunkEnd es e = none ↔
      (e.calls = true → firstCalls es ∧ ¬ hasNonStopFinish es) ∧ (e.calls = false → e.loud = false) := by
  have hloud := own_isSome e
  unfold chunkEnd
  cases e.calls with
  | true => simp
  | false =>
    rw [if_neg Bool.false_ne_true, ← hloud]
    simp

theorem chunkEnd_of_quiet (h : Quiet es) {e : Ending} (he : e ∈ es) : chunkEnd es e = none :=
  chunkEnd_eq_none.mpr ⟨fun hcalls => h.2 ⟨e, he, hcalls⟩, (h.1 e he).2⟩

theorem wholeEnds_terminal (h : ∀ e ∈ es, chunkEnd es e = none) :
    wholeEnds false es = es.map fun _ => if firstCalls es then "tool_calls" else "stop" := by
  cases hfirst : firstCalls es with
  | true =>
    cases es with
    | nil => rfl
    | cons e es =>
      have hcalls : e.calls = true := hfirst
      simp [wholeEnds, hcalls, wholeEnds_true]
  | false =>
    refine (wholeEnds_quiet fun e he => ?_).trans (by simp)
    obtain ⟨hcalls, hquiet⟩ := chunkEnd_eq_none.mp (h e he)
    have hnone : e.calls = false :=
      Bool.eq_false_iff.mpr fun htrue => absurd (hcalls htrue).1 (by simp [hfirst])
    exact ⟨hnone, hquiet hnone⟩

/-- A stream finishes every candidate once, and as a whole response does. -/
theorem streamEnds_agree (es : List Ending) :
    streamEnds es = (wholeEnds false es).map (fun reason => [reason]) ↔ FinishOk es := by
  by_cases hnone : ∀ e ∈ es, chunkEnd es e = none
  · -- the terminal chunk is sent
    have hany : es.any (fun e => (chunkEnd es e).isSome) = false :=
      List.any_eq_false.mpr fun e he => by simp [hnone e he]
    have hstream : streamEnds es =
        es.map fun e => if e.index = 0 then [if firstCalls es then "tool_calls" else "stop"] else [] := by
      unfold streamEnds terminalEnd
      rw [hany]
      refine map_congr_left fun e he => ?_
      rw [hnone e he]
      rfl
    rw [hstream, wholeEnds_terminal hnone, map_map, List.map_inj_left]
    constructor
    · intro hindex
      refine .inl ⟨fun e he => ⟨?_, (chunkEnd_eq_none.mp (hnone e he)).2⟩,
        fun ⟨e, he, hcalls⟩ => (chunkEnd_eq_none.mp (hnone e he)).1 hcalls⟩
      by_contra hne
      have hempty := hindex e he
      rw [if_neg hne] at hempty
      cases hempty
    rintro (hquiet | ⟨hends, -, hfirst⟩) e he
    · rw [if_pos (hquiet.1 e he).1]
      rfl
    obtain ⟨hcalls, hloud⟩ := chunkEnd_eq_none.mp (hnone e he)
    have hnot : ¬ e.calls := fun h => (hcalls h).2 (hfirst (hcalls h).1)
    rcases hends e he with h | h
    · exact absurd h hnot
    · exact absurd (hloud (Bool.eq_false_iff.mpr hnot)) (by simp [h])
  -- the candidates finish in the chunk
  have hany : es.any (fun e => (chunkEnd es e).isSome) = true := by
    by_contra hfalse
    refine hnone fun e he => ?_
    have := List.any_eq_false.mp (Bool.eq_false_iff.mpr hfalse) e he
    simpa using this
  have hstream : streamEnds es = es.map fun e => (chunkEnd es e).toList := by
    unfold streamEnds terminalEnd
    rw [hany]
    exact map_congr_left fun e _ => by simp
  have hquiet : ¬ Quiet es := fun h => hnone fun e he => chunkEnd_of_quiet h he
  by_cases hclear : firstCalls es ∧ ¬ hasNonStopFinish es
  · have hloud : ¬ Loud es := fun h => hclear.2 (h.2.2 hclear.1)
    rw [hstream]
    refine iff_of_false ?_ (not_or.mpr ⟨hquiet, hloud⟩)
    cases es with
    | nil => exact absurd hclear.1 Bool.false_ne_true
    | cons e es =>
      have hcalls : e.calls = true := hclear.1
      simp [chunkEnd, hcalls, hclear.1, hclear.2, wholeEnds]
  have hchunk : ∀ e, chunkEnd es e = if e.calls then some "tool_calls" else e.own := by
    intro e
    unfold chunkEnd
    rw [if_neg hclear]
  have hfirst : firstCalls es → hasNonStopFinish es := by tauto
  rw [hstream, map_congr_left fun e _ => congrArg Option.toList (hchunk e), wholeEnds_loud]
  constructor
  · rintro ⟨hends, hpairs, -⟩
    exact .inr ⟨hends, hpairs, hfirst⟩
  rintro (h | ⟨hends, hpairs, -⟩)
  · exact absurd h hquiet
  · exact ⟨hends, hpairs, nofun⟩

/-! ## Tool calls -/

/-- What a client has after a delta: one with the index of an earlier call continues it. -/
def addCall (calls : List ToolCallResponse) (delta : ToolCallResponse) : List ToolCallResponse :=
  if calls.any fun call => call.index = delta.index then
    calls.map fun call =>
      if call.index = delta.index then { call with arguments := call.arguments ++ delta.arguments }
      else call
  else calls ++ [delta]

def callsRead (deltas : List ToolCallResponse) : List ToolCallResponse :=
  (deltas.foldl addCall []).map ToolCallResponse.plain

theorem addCalls_length_le (deltas calls : List ToolCallResponse) :
    (deltas.foldl addCall calls).length ≤ calls.length + deltas.length := by
  induction deltas generalizing calls with
  | nil => exact le_refl _
  | cons d deltas ih =>
    have hle := ih (addCall calls d)
    rw [foldl_cons, length_cons]
    unfold addCall at hle ⊢
    split at hle
    · rename_i hany
      rw [if_pos hany]
      rw [length_map] at hle
      omega
    rename_i hany
    rw [if_neg hany]
    rw [List.length_append, List.length_singleton] at hle
    omega

variable {calls : List ToolCallResponse}

theorem addCalls_of_nodup {deltas : List ToolCallResponse}
    (h : ((calls ++ deltas).map ToolCallResponse.index).Nodup) :
    deltas.foldl addCall calls = calls ++ deltas := by
  induction deltas generalizing calls with
  | nil => simp
  | cons d deltas ih =>
    have hnew : addCall calls d = calls ++ [d] := by
      unfold addCall
      rw [if_neg]
      intro hany
      obtain ⟨call, hcall, heq⟩ := List.any_eq_true.mp hany
      rw [List.map_append, List.nodup_append] at h
      exact h.2.2 _ (List.mem_map_of_mem hcall) _ (List.mem_map_of_mem mem_cons_self)
        (of_decide_eq_true heq)
    rw [foldl_cons, hnew, ih, List.append_assoc, List.singleton_append]
    rwa [List.append_assoc, List.singleton_append]

theorem nodup_of_addCalls {deltas : List ToolCallResponse}
    (hcalls : (calls.map ToolCallResponse.index).Nodup)
    (h : calls.length + deltas.length ≤ (deltas.foldl addCall calls).length) :
    ((calls ++ deltas).map ToolCallResponse.index).Nodup := by
  induction deltas generalizing calls with
  | nil => simpa using hcalls
  | cons d deltas ih =>
    rw [foldl_cons, length_cons] at h
    have hle := addCalls_length_le deltas (addCall calls d)
    by_cases hany : (calls.any fun call => call.index = d.index) = true
    · have hsame : (addCall calls d).length = calls.length := by
        rw [addCall, if_pos hany, length_map]
      omega
    have hnew : addCall calls d = calls ++ [d] := if_neg hany
    rw [hnew] at h
    rw [List.append_cons]
    refine ih ?_ ?_
    · rw [List.map_append, List.nodup_append]
      refine ⟨hcalls, List.nodup_singleton _, ?_⟩
      rintro i hi j hj rfl
      obtain ⟨call, hcall, rfl⟩ := List.mem_map.mp hi
      refine hany (List.any_eq_true.mpr ⟨call, hcall, decide_eq_true ?_⟩)
      simpa using hj
    · rw [List.length_append, List.length_singleton]
      omega

theorem callsRead_eq_iff {deltas : List ToolCallResponse} (h : deltas.length ≤ calls.length) :
    callsRead deltas = calls ↔
      (deltas.map ToolCallResponse.index).Nodup ∧ deltas.map ToolCallResponse.plain = calls := by
  constructor
  · intro heq
    have hnodup : (([] ++ deltas).map ToolCallResponse.index).Nodup := by
      refine nodup_of_addCalls List.nodup_nil ?_
      have hlength := congrArg List.length heq
      rw [callsRead, length_map] at hlength
      simpa [hlength] using h
    have hall := addCalls_of_nodup hnodup
    rw [callsRead, hall] at heq
    exact ⟨hnodup, heq⟩
  rintro ⟨hnodup, heq⟩
  have hall : deltas.foldl addCall [] = [] ++ deltas := addCalls_of_nodup hnodup
  rw [callsRead, hall]
  exact heq

theorem callsRead_length_le (deltas : List ToolCallResponse) :
    (callsRead deltas).length ≤ deltas.length := by
  have hle := addCalls_length_le deltas []
  rw [callsRead, length_map]
  simpa using hle

/-- The ids known have indexes of their own, all of them given before. -/
structure IndexesOk (s : GeminiToChatStreamState N) : Prop where
  known_lt : ∀ c id i, s.toolIndexByCandidateID c id = some i → i < s.nextToolIndexByCandidate c
  known_inj : ∀ c id id' i, s.toolIndexByCandidateID c id = some i →
    s.toolIndexByCandidateID c id' = some i → id = id'

/-- A state whose indexes go on from those of another. -/
structure Continues (c : Int) (s s' : GeminiToChatStreamState N) : Prop where
  next_le : s.nextToolIndexByCandidate c ≤ s'.nextToolIndexByCandidate c
  known_iff : ∀ id i, i < s.nextToolIndexByCandidate c →
    (s'.toolIndexByCandidateID c id = some i ↔ s.toolIndexByCandidateID c id = some i)

/-- The state in which an id, if given, has the next index. -/
def GeminiToChatStreamState.giveNext (s : GeminiToChatStreamState N) (c : Int) (id : Option String) :
    GeminiToChatStreamState N :=
  { s with
    nextToolIndexByCandidate :=
      Function.update s.nextToolIndexByCandidate c (s.nextToolIndexByCandidate c + 1)
    toolIndexByCandidateID :=
      match id with
      | none => s.toolIndexByCandidateID
      | some id => Function.update s.toolIndexByCandidateID c
          (Function.update (s.toolIndexByCandidateID c) id (some (s.nextToolIndexByCandidate c))) }

variable {s : GeminiToChatStreamState N}

theorem stableIndex_of_known {c : Int} {d : String} {i : Nat}
    (h : s.toolIndexByCandidateID c d = some i) : stableIndex s c (some d) = (i, s) := by
  simp [stableIndex, h]

theorem stableIndex_of_new {c : Int} {id : Option String}
    (h : id.bind (s.toolIndexByCandidateID c) = none) :
    stableIndex s c id = (s.nextToolIndexByCandidate c, s.giveNext c id) := by
  rw [stableIndex, h]
  rfl

variable (s)

theorem giveNext_next (c c' : Int) (id : Option String) :
    (s.giveNext c id).nextToolIndexByCandidate c' =
      s.nextToolIndexByCandidate c' + if c' = c then 1 else 0 := by
  by_cases hc : c' = c
  · subst hc
    simp [GeminiToChatStreamState.giveNext]
  · simp [GeminiToChatStreamState.giveNext, hc]

theorem giveNext_known (c c' : Int) (id : Option String) (d : String) :
    (s.giveNext c id).toolIndexByCandidateID c' d =
      if c' = c ∧ id = some d then some (s.nextToolIndexByCandidate c)
      else s.toolIndexByCandidateID c' d := by
  cases id with
  | none => simp [GeminiToChatStreamState.giveNext]
  | some e =>
    by_cases hc : c' = c
    · subst hc
      by_cases hd : e = d
      · subst hd
        simp [GeminiToChatStreamState.giveNext]
      · simp [GeminiToChatStreamState.giveNext, hd, Function.update_of_ne (Ne.symm hd)]
    · simp [GeminiToChatStreamState.giveNext, hc]

variable {s}

theorem IndexesOk.giveNext (hs : IndexesOk s) (c : Int)
    (id : Option String) : IndexesOk (s.giveNext c id) where
  known_lt c' d i h := by
    rw [giveNext_known] at h
    rw [giveNext_next]
    split at h
    · rename_i hd
      cases h
      rw [hd.1, if_pos rfl]
      exact Nat.lt_succ_self _
    · exact Nat.lt_add_right _ (hs.known_lt c' d i h)
  known_inj c' d d' i h h' := by
    rw [giveNext_known] at h h'
    split at h
    · rename_i hd
      cases h
      split at h'
      · rename_i hd'
        exact Option.some.inj (hd.2.symm.trans hd'.2)
      · exact absurd (hs.known_lt c' d' _ h') (by simp [hd.1])
    split at h'
    · rename_i hd'
      cases h'
      exact absurd (hs.known_lt c' d _ h) (by simp [hd'.1])
    · exact hs.known_inj c' d d' i h h'

theorem stableIndex_ok (hs : IndexesOk s) (c : Int) (id : Option String) :
    IndexesOk (stableIndex s c id).2 ∧ Continues c s (stableIndex s c id).2 ∧
      (stableIndex s c id).1 < (stableIndex s c id).2.nextToolIndexByCandidate c ∧
      (∀ d, (stableIndex s c id).2.toolIndexByCandidateID c d = some (stableIndex s c id).1 ↔
        id = some d) ∧
      (∀ i, i < s.nextToolIndexByCandidate c →
        ((stableIndex s c id).1 = i ↔ ∃ d, id = some d ∧ s.toolIndexByCandidateID c d = some i)) := by
  cases hknown : id.bind (s.toolIndexByCandidateID c) with
  | some j =>
    obtain ⟨d, rfl, hd⟩ := Option.bind_eq_some_iff.mp hknown
    rw [stableIndex_of_known hd]
    refine ⟨hs, ⟨le_refl _, fun _ _ _ => Iff.rfl⟩, hs.known_lt c d j hd, fun e => ?_, fun i _ => ?_⟩
    · constructor
      · intro he
        rw [hs.known_inj c d e j hd he]
      intro he
      cases he
      exact hd
    · simp [hd]
  | none =>
    rw [stableIndex_of_new hknown]
    refine ⟨hs.giveNext c id, ⟨?_, fun d i hi => ?_⟩, ?_, fun d => ?_, fun i hi => ?_⟩
    · rw [giveNext_next]
      exact Nat.le_add_right _ _
    · rw [giveNext_known]
      split
      · rename_i hd
        rw [hd.2] at hknown
        have hnone : s.toolIndexByCandidateID c d = none := hknown
        rw [hnone]
        simp only [Option.some.injEq, reduceCtorEq, iff_false]
        omega
      · exact Iff.rfl
    · rw [giveNext_next, if_pos rfl]
      exact Nat.lt_succ_self _
    · rw [giveNext_known]
      split
      · rename_i hd
        exact iff_of_true rfl hd.2
      rename_i hd
      refine iff_of_false (fun h => ?_) fun h => hd ⟨rfl, h⟩
      exact absurd (hs.known_lt c d _ h) (lt_irrefl _)
    refine iff_of_false (by omega) ?_
    rintro ⟨d, rfl, hd⟩
    exact Option.some_ne_none i (hd.symm.trans hknown)

theorem indexToolCalls_cons (c : Int) (s : GeminiToChatStreamState N) (call : ToolCallResponse)
    (calls : List ToolCallResponse) : indexToolCalls c s (call :: calls) =
      ({ call with index := some (stableIndex s c call.id).1 } ::
          (indexToolCalls c (stableIndex s c call.id).2 calls).1,
        (indexToolCalls c (stableIndex s c call.id).2 calls).2) := rfl

theorem indexToolCalls_plain (c : Int) (s : GeminiToChatStreamState N) (calls : List ToolCallResponse) :
    (indexToolCalls c s calls).1.map ToolCallResponse.plain = calls.map ToolCallResponse.plain := by
  induction calls generalizing s with
  | nil => rfl
  | cons call calls ih =>
    rw [indexToolCalls_cons, map_cons, map_cons, ih]
    rfl

theorem indexToolCalls_ok (hs : IndexesOk s) (c : Int)
    (calls : List ToolCallResponse) : IndexesOk (indexToolCalls c s calls).2 := by
  induction calls generalizing s with
  | nil => exact hs
  | cons call calls ih => exact ih (stableIndex_ok hs c call.id).1

theorem index_eq_iff (hs : IndexesOk s) {c : Int} {i : Nat}
    (hi : i < s.nextToolIndexByCandidate c) :
    some i ∈ (indexToolCalls c s calls).1.map ToolCallResponse.index ↔
      ∃ d ∈ calls.filterMap ToolCallResponse.id, s.toolIndexByCandidateID c d = some i := by
  induction calls generalizing s with
  | nil => simp [indexToolCalls]
  | cons call calls ih =>
    obtain ⟨hs', hcontinues, -, -, hhead⟩ := stableIndex_ok hs c call.id
    have htail := ih hs' (lt_of_lt_of_le hi hcontinues.next_le)
    rw [indexToolCalls_cons, map_cons, mem_cons, htail]
    constructor
    · rintro (heq | ⟨d, hd, hknown⟩)
      · obtain ⟨d, hid, hknown⟩ := (hhead i hi).mp (Option.some.inj heq).symm
        exact ⟨d, mem_filterMap.mpr ⟨call, mem_cons_self, hid⟩, hknown⟩
      obtain ⟨call', hcall', hid⟩ := mem_filterMap.mp hd
      exact ⟨d, mem_filterMap.mpr ⟨call', mem_cons_of_mem _ hcall', hid⟩,
        (hcontinues.known_iff d i hi).mp hknown⟩
    rintro ⟨d, hd, hknown⟩
    obtain ⟨call', hcall', hid⟩ := mem_filterMap.mp hd
    rcases mem_cons.mp hcall' with rfl | hcall'
    · exact .inl (congrArg some ((hhead i hi).mpr ⟨d, hid, hknown⟩).symm)
    · exact .inr ⟨d, mem_filterMap.mpr ⟨call', hcall', hid⟩,
        (hcontinues.known_iff d i hi).mpr hknown⟩

theorem indexToolCalls_nodup (hs : IndexesOk s) (c : Int) (calls : List ToolCallResponse) :
    ((indexToolCalls c s calls).1.map ToolCallResponse.index).Nodup ↔
      (calls.filterMap ToolCallResponse.id).Nodup := by
  induction calls generalizing s with
  | nil => simp [indexToolCalls]
  | cons call calls ih =>
    obtain ⟨hs', -, hlt, hown, -⟩ := stableIndex_ok hs c call.id
    rw [indexToolCalls_cons, map_cons, List.nodup_cons, ih hs', index_eq_iff hs' hlt]
    simp only [hown]
    cases hid : call.id with
    | none | some d => simp [hid]

/-- A choice with its tool calls indexed. -/
structure Indexed (choice choice' : StreamChoice) : Prop where
  index : choice'.index = choice.index
  content : choice'.content = choice.content
  reasoning : choice'.reasoningContent = choice.reasoningContent
  finish : choice'.finishReason = choice.finishReason
  plain : choice'.toolCalls.map ToolCallResponse.plain = choice.toolCalls.map ToolCallResponse.plain
  nodup : (choice'.toolCalls.map ToolCallResponse.index).Nodup ↔
    (choice.toolCalls.filterMap ToolCallResponse.id).Nodup

theorem indexToolCalls_frame (c : Int) (s : GeminiToChatStreamState N) (calls : List ToolCallResponse) :
    (indexToolCalls c s calls).2.sawToolCall = s.sawToolCall ∧
      (indexToolCalls c s calls).2.finishEmitted = s.finishEmitted ∧
      (indexToolCalls c s calls).2.partialToolByCandidate = s.partialToolByCandidate := by
  induction calls generalizing s with
  | nil => exact ⟨rfl, rfl, rfl⟩
  | cons call calls ih =>
    have hstable : (stableIndex s c call.id).2 = s ∨
        (stableIndex s c call.id).2 = s.giveNext c call.id := by
      cases hknown : call.id.bind (s.toolIndexByCandidateID c) with
      | some j =>
        obtain ⟨d, hid, hd⟩ := Option.bind_eq_some_iff.mp hknown
        rw [hid, stableIndex_of_known hd]
        exact .inl rfl
      | none =>
        rw [stableIndex_of_new hknown]
        exact .inr rfl
    rw [indexToolCalls_cons]
    have hrest := ih (stableIndex s c call.id).2
    rcases hstable with h | h
    · rwa [h] at hrest ⊢
    · rwa [h] at hrest ⊢

theorem indexChoices_indexed (hs : IndexesOk s) (choices : List StreamChoice) :
    List.Forall₂ Indexed choices (indexChoices s choices).1 ∧
      (indexChoices s choices).2.sawToolCall = s.sawToolCall ∧
      (indexChoices s choices).2.finishEmitted = s.finishEmitted ∧
      (indexChoices s choices).2.partialToolByCandidate = s.partialToolByCandidate := by
  induction choices generalizing s with
  | nil => exact ⟨.nil, rfl, rfl, rfl⟩
  | cons choice choices ih =>
    have hframe := indexToolCalls_frame choice.index s choice.toolCalls
    have hrest := ih (indexToolCalls_ok hs choice.index choice.toolCalls)
    refine ⟨.cons ⟨rfl, rfl, rfl, rfl, indexToolCalls_plain _ _ _, indexToolCalls_nodup hs _ _⟩ hrest.1, ?_, ?_, ?_⟩
    · exact hrest.2.1.trans hframe.1
    · exact hrest.2.2.1.trans hframe.2.1
    · exact hrest.2.2.2.trans hframe.2.2

/-! ## What a client has in the end -/

/-- What a client has of a candidate. -/
structure Received where
  content : String
  reasoning : String
  toolCalls : List ToolCallResponse
  finishes : List String

def OpenAITextResponseChoice.received (choice : OpenAITextResponseChoice) : Received where
  content := choice.content
  reasoning := choice.reasoningContent.getD ""
  toolCalls := choice.toolCalls
  finishes := [choice.finishReason]

/-- The choices of a stream for one candidate, put together. -/
def receivedOf (deltas : List StreamChoice) : Received where
  content := String.join (deltas.map fun d => d.content.getD "")
  reasoning := String.join (deltas.map fun d => d.reasoningContent.getD "")
  toolCalls := callsRead (deltas.flatMap StreamChoice.toolCalls)
  finishes := deltas.filterMap StreamChoice.finishReason

/-- The candidates of the first chunk, each with the later choices of its index. -/
def receive : List (List StreamChoice) → List Received
  | [] => []
  | chunk :: later => chunk.map fun choice =>
    receivedOf (choice :: later.flatten.filter fun d => d.index = choice.index)

/-- As the one chunk of a stream, a response is received as it is as a whole. -/
def Agrees (cs : List (GeminiChatCandidate N)) : Prop :=
  ∃ s chunks, convertChunk marshal {} cs = .ok (s, chunks) ∧
    (∀ i, s.partialToolByCandidate i = none) ∧
    receive (chunks ++ (finalize s).2) =
      (responseGeminiChat2OpenAI marshal cs).map OpenAITextResponseChoice.received

def terminals (ends : List String) : List (List StreamChoice) :=
  ends.map fun reason => [{ finishReason := some reason }]

theorem receive_terminals (chunk : List StreamChoice) (es : List Ending) :
    receive (chunk :: terminals (terminalEnd es)) = chunk.map fun choice =>
      { content := choice.content.getD ""
        reasoning := choice.reasoningContent.getD ""
        toolCalls := callsRead choice.toolCalls
        finishes := choice.finishReason.toList ++ if choice.index = 0 then terminalEnd es else [] } := by
  unfold receive terminals terminalEnd
  refine map_congr_left fun choice _ => ?_
  split
  · cases hfinish : choice.finishReason with
    | none | some r => simp [receivedOf, hfinish]
  by_cases hindex : choice.index = 0
  · cases hfinish : choice.finishReason with
    | none | some r => simp [receivedOf, hfinish, hindex]
  have hne : ¬ (0 = choice.index) := fun h => hindex h.symm
  cases hfinish : choice.finishReason with
  | none | some r => simp [receivedOf, hfinish, hindex, hne]

variable (c : GeminiChatCandidate N)

def GeminiChatCandidate.ending : Ending where
  calls := !(callsOf c.parts).isEmpty
  reason := c.finishReason
  index := c.index

theorem convertCandidate_eq (seen : Bool) (c : GeminiChatCandidate N) :
    convertCandidate marshal seen c =
      ({ index := c.index
         content := contentOf ((kinds c.parts).filterMap wholePiece)
         reasoningContent := ((kinds c.parts).filterMap thoughtOf).getLast?
         toolCalls := toolCallsOf marshal c.parts
         finishReason := if seen || c.ending.calls then "tool_calls" else c.ending.own.getD "stop" },
        seen || c.ending.calls) := by
  have hcalls : (toolCallsOf marshal c.parts).isEmpty = (callsOf c.parts).isEmpty := by
    simp [toolCallsOf]
  unfold convertCandidate
  rw [renderParts]
  simp only [List.nil_append, hcalls, Option.or_none, Bool.false_or, GeminiChatCandidate.ending,
    Ending.own, contentOf]
  by_cases hseen : (seen || !(callsOf c.parts).isEmpty) = true
  · simp only [hseen, if_true]
  obtain ⟨-, hempty⟩ := Bool.or_eq_false_iff.mp (Bool.eq_false_iff.mpr hseen)
  simp only [hempty, Bool.or_false, Bool.false_eq_true, if_false]
  cases c.finishReason with
  | none => rfl
  | some reason =>
    by_cases hstop : reason = "STOP"
    · subst hstop
      rfl
    · simp

theorem received_whole (seen : Bool) (cs : List (GeminiChatCandidate N)) :
    (convertCandidates marshal seen cs).map OpenAITextResponseChoice.received =
      List.zipWith (fun c reason =>
        { content := contentOf ((kinds c.parts).filterMap wholePiece)
          reasoning := ((kinds c.parts).filterMap thoughtOf).getLast?.getD ""
          toolCalls := toolCallsOf marshal c.parts
          finishes := [reason] }) cs (wholeEnds seen (cs.map GeminiChatCandidate.ending)) := by
  induction cs generalizing seen with
  | nil => rfl
  | cons c cs ih =>
    rw [convertCandidates, convertCandidate_eq, map_cons, map_cons, wholeEnds, ih]
    rfl

/-- The choice of a candidate in the chunk, as it is sent. -/
structure ChoiceOf (es : List Ending) (c : GeminiChatCandidate N) (choice : StreamChoice) : Prop where
  index : choice.index = c.index
  content : choice.content.getD "" =
    if (kinds c.parts).filterMap thoughtOf = [] then contentOf ((kinds c.parts).filterMap streamPiece)
    else ""
  reasoning : choice.reasoningContent.getD "" =
    if (kinds c.parts).filterMap thoughtOf = [] then ""
    else contentOf ((kinds c.parts).filterMap streamPiece)
  plain : choice.toolCalls.map ToolCallResponse.plain = toolCallsOf marshal c.parts
  nodup : (choice.toolCalls.map ToolCallResponse.index).Nodup ↔
    ((toolCallsOf marshal c.parts).filterMap ToolCallResponse.id).Nodup
  finish : choice.finishReason = chunkEnd es c.ending

theorem streamCandidate_choice : (streamCandidate marshal c).index = c.index ∧
      (streamCandidate marshal c).content.getD "" =
        (if (kinds c.parts).filterMap thoughtOf = [] then
          contentOf ((kinds c.parts).filterMap streamPiece) else "") ∧
      (streamCandidate marshal c).reasoningContent.getD "" =
        (if (kinds c.parts).filterMap thoughtOf = [] then ""
          else contentOf ((kinds c.parts).filterMap streamPiece)) ∧
      (streamCandidate marshal c).toolCalls.map ToolCallResponse.plain = toolCallsOf marshal c.parts ∧
      (streamCandidate marshal c).finishReason =
        if c.ending.calls then some "tool_calls" else c.ending.own := by
  obtain ⟨calls, hfold, hcalls⟩ := streamParts marshal c.parts {}
  have hthought : (!((kinds c.parts).filterMap thoughtOf).isEmpty) = true ↔
      ¬ (kinds c.parts).filterMap thoughtOf = [] := by simp
  unfold streamCandidate
  simp only [hfold, Bool.false_or, List.nil_append, hcalls, GeminiChatCandidate.ending, Ending.own,
    contentOf, hthought, true_and]
  by_cases hnone : (kinds c.parts).filterMap thoughtOf = []
  · exact ⟨by simp [hnone], by simp [hnone], rfl⟩
  · exact ⟨by simp [hnone], by simp [hnone], rfl⟩

theorem chunkEnd_nonempty (es : List Ending) (e : Ending) :
    ((chunkEnd es e).any fun reason => reason ≠ "") = (chunkEnd es e).isSome := by
  unfold chunkEnd Ending.own finishReasonOf
  split
  · split
    · rfl
    · rfl
  split
  · rfl
  · rfl
  split
  · rfl
  · rfl

variable {cs : List (GeminiChatCandidate N)} {choices : List StreamChoice}

theorem isToolCall_eq
    (h : List.Forall₂ (fun c choice => choice.toolCalls.map ToolCallResponse.plain =
      toolCallsOf marshal c.parts) cs choices) :
    isToolCall choices = firstCalls (cs.map GeminiChatCandidate.ending) := by
  cases h with
  | nil => rfl
  | @cons c choice cs choices hplain _ =>
    have hempty : choice.toolCalls.isEmpty = (callsOf c.parts).isEmpty := by
      rw [← List.isEmpty_map (f := ToolCallResponse.plain), hplain, toolCallsOf, List.isEmpty_map]
    show (!choice.toolCalls.isEmpty) = !(callsOf c.parts).isEmpty
    rw [hempty]

theorem clearToolFinish_choices
    (h : List.Forall₂ Indexed (cs.map (streamCandidate marshal)) choices) :
    isToolCall choices = firstCalls (cs.map GeminiChatCandidate.ending) ∧
      List.Forall₂ (ChoiceOf marshal (cs.map GeminiChatCandidate.ending)) cs
        (clearToolFinish (hasNonStopFinish (cs.map GeminiChatCandidate.ending)) choices) := by
  rw [List.forall₂_map_left_iff] at h
  have hplain : ∀ c choice, Indexed (streamCandidate marshal c) choice →
      choice.toolCalls.map ToolCallResponse.plain = toolCallsOf marshal c.parts :=
    fun c choice hi => hi.plain.trans (streamCandidate_choice marshal c).2.2.2.1
  have htool := isToolCall_eq marshal (h.imp hplain)
  refine ⟨htool, ?_⟩
  generalize cs.map GeminiChatCandidate.ending = es at htool ⊢
  have hids : ∀ c, ((streamCandidate marshal c).toolCalls.filterMap ToolCallResponse.id) =
      (toolCallsOf marshal c.parts).filterMap ToolCallResponse.id := by
    intro c
    rw [← (streamCandidate_choice marshal c).2.2.2.1, List.filterMap_map]
    rfl
  -- a choice with the finish reason that it has in the end
  have hchoice : ∀ c choice finish, Indexed (streamCandidate marshal c) choice →
      finish = chunkEnd es c.ending →
        ChoiceOf marshal es c { choice with finishReason := finish } := by
    intro c choice finish hi hfinish
    obtain ⟨hindex, hcontent, hreasoning, -, -⟩ := streamCandidate_choice marshal c
    exact
      { index := hi.index.trans hindex
        content := by rw [← hcontent, hi.content]
        reasoning := by rw [← hreasoning, hi.reasoning]
        plain := hplain c choice hi
        nodup := by
          rw [← hids]
          exact hi.nodup
        finish := hfinish }
  have hfinish : ∀ c choice, Indexed (streamCandidate marshal c) choice →
      choice.finishReason = if c.ending.calls then some "tool_calls" else c.ending.own :=
    fun c choice hi => hi.finish.trans (streamCandidate_choice marshal c).2.2.2.2
  unfold clearToolFinish
  rw [htool]
  split
  · rename_i hclear
    rw [List.forall₂_map_right_iff]
    refine h.imp fun c choice hi => ?_
    have hown := own_ne_tools c.ending
    have hend := hfinish c choice hi
    cases hcalls : c.ending.calls with
    | true =>
      rw [hcalls, if_pos rfl] at hend
      rw [if_pos hend]
      exact hchoice c choice none hi (by simp [chunkEnd, hcalls, hclear])
    | false =>
      rw [hcalls, if_neg Bool.false_ne_true] at hend
      rw [if_neg (hend ▸ hown)]
      exact hchoice c choice choice.finishReason hi (by simp [chunkEnd, hcalls, hend])
  rename_i hclear
  refine h.imp fun c choice hi => ?_
  exact hchoice c choice choice.finishReason hi (by
    rw [hfinish c choice hi, chunkEnd, if_neg hclear])

theorem choices_emit (h : List.Forall₂ (ChoiceOf marshal es) cs choices) :
    (choices.any fun choice => choice.finishReason.any fun reason => reason ≠ "") =
      cs.any fun c => (chunkEnd es c.ending).isSome := by
  induction h with
  | nil => rfl
  | cons hchoice _ ih => rw [any_cons, any_cons, ih, hchoice.finish, chunkEnd_nonempty]

variable {cs' : List (GeminiChatCandidate N)} {partials : Int → Option (GeminiPartialToolCall N)}

theorem convertChunk_eq (h : preparePartialFunctionCalls (fun _ => none) cs = .ok (partials, cs')) :
    ∃ s chunks choices, convertChunk marshal {} cs = .ok (s, chunks) ∧
      s.partialToolByCandidate = partials ∧
      chunks ++ (finalize s).2 =
        choices :: terminals (terminalEnd (cs'.map GeminiChatCandidate.ending)) ∧
      List.Forall₂ (ChoiceOf marshal (cs'.map GeminiChatCandidate.ending)) cs' choices := by
  have hstart : IndexesOk ({ partialToolByCandidate := partials } : GeminiToChatStreamState N) :=
    ⟨nofun, nofun⟩
  obtain ⟨hindexed, hsaw, hemitted, hpartials⟩ :=
    indexChoices_indexed hstart (cs'.map (streamCandidate marshal))
  obtain ⟨htool, hchoices⟩ := clearToolFinish_choices marshal hindexed
  have hnonStop : (cs'.any fun c => c.finishReason.any fun reason => reason ≠ "" && reason ≠ "STOP") =
      hasNonStopFinish (cs'.map GeminiChatCandidate.ending) := by
    rw [hasNonStopFinish, any_map]
    rfl
  generalize hes : cs'.map GeminiChatCandidate.ending = es at htool hchoices hnonStop ⊢
  have hemit := choices_emit marshal hchoices
  have hany : (cs'.any fun c => (chunkEnd es c.ending).isSome) =
      es.any fun e => (chunkEnd es e).isSome := by
    conv_rhs => rw [← hes, any_map]
    rw [hes]
    rfl
  unfold convertChunk
  rw [h]
  simp only [streamResponseGeminiChat2OpenAI, bind, Except.bind, hnonStop, hsaw, hemitted, hpartials,
    htool, hemit, hany, Bool.false_or]
  cases hsome : es.any fun e => (chunkEnd es e).isSome with
  | true =>
    rw [if_neg (by simp)]
    exact ⟨_, _, _, rfl, rfl, by simp [finalize, terminals, terminalEnd, hsome], hchoices⟩
  | false =>
    have hterminal : terminalEnd es = [if firstCalls es then "tool_calls" else "stop"] := by
      unfold terminalEnd
      rw [hsome]
      rfl
    cases cs'.any fun c => decide (c.finishReason = some "STOP") with
    | true =>
      rw [if_pos ⟨rfl, Bool.false_ne_true⟩]
      exact ⟨_, _, _, rfl, rfl, by simp [finalize, terminals, hterminal, terminalChunk], hchoices⟩
    | false =>
      rw [if_neg (by simp)]
      exact ⟨_, _, _, rfl, rfl, by simp [finalize, terminals, hterminal, terminalChunk], hchoices⟩

/-! ## When a stream agrees with the whole response -/

/-- A candidate of which some calls are put together. -/
structure Prepared (c c' : GeminiChatCandidate N) : Prop where
  index : c'.index = c.index
  reason : c'.finishReason = c.finishReason
  kept : Kept c.parts c'.parts

theorem prepare_cons_eq_ok {partials' : Int → Option (GeminiPartialToolCall N)}
    {c : GeminiChatCandidate N} {ds : List (GeminiChatCandidate N)} :
    preparePartialFunctionCalls partials (c :: cs) = .ok (partials', ds) ↔
      ∃ current parts cs', tryRun preparePart (partials c.index, []) c.parts = .ok (current, parts) ∧
        preparePartialFunctionCalls (Function.update partials c.index current) cs
          = .ok (partials', cs') ∧ ds = { c with parts } :: cs' := by
  rw [preparePartialFunctionCalls]
  cases tryRun preparePart (partials c.index, []) c.parts with
  | error e => simp [bind, Except.bind]
  | ok st =>
    obtain ⟨current, parts⟩ := st
    cases hrest : preparePartialFunctionCalls (Function.update partials c.index current) cs with
    | error e =>
      simp only [bind, Except.bind, hrest, reduceCtorEq, Except.ok.injEq, Prod.mk.injEq,
        false_iff, not_exists]
      rintro current' parts' cs' ⟨⟨rfl, rfl⟩, hok, -⟩
      rw [hrest] at hok
      cases hok
    | ok result =>
      simp only [bind, Except.bind, hrest, Except.ok.injEq, Prod.mk.injEq]
      constructor
      · rintro ⟨rfl, rfl⟩
        exact ⟨current, parts, result.2, ⟨rfl, rfl⟩, hrest, rfl⟩
      rintro ⟨current', parts', cs', ⟨rfl, rfl⟩, hok, rfl⟩
      rw [hrest] at hok
      cases hok
      exact ⟨rfl, rfl⟩

theorem prepare_prepared {partials' : Int → Option (GeminiPartialToolCall N)}
    (h : preparePartialFunctionCalls partials cs = .ok (partials', cs')) :
    List.Forall₂ Prepared cs cs' := by
  induction cs generalizing partials cs' with
  | nil =>
    cases h
    exact .nil
  | cons c cs ih =>
    obtain ⟨current, parts, rest, hparts, hrest, rfl⟩ := prepare_cons_eq_ok.mp h
    obtain ⟨qs, rfl, hkept⟩ := prepareParts_kept hparts
    exact .cons ⟨rfl, rfl, hkept⟩ (ih hrest)

theorem prepare_completed {partials' : Int → Option (GeminiPartialToolCall N)}
    (h : preparePartialFunctionCalls (fun _ => none) cs = .ok (partials', cs'))
    (hlength : List.Forall₂ (fun c c' => c.parts.length ≤ c'.parts.length) cs cs') :
    List.Forall₂ (fun c c' => List.Forall₂ Completed c.parts c'.parts) cs cs' := by
  induction cs generalizing cs' with
  | nil =>
    cases h
    exact .nil
  | cons c cs ih =>
    obtain ⟨current, parts, rest, hparts, hrest, rfl⟩ := prepare_cons_eq_ok.mp h
    rw [forall₂_cons] at hlength
    obtain ⟨rfl, hcompleted⟩ := prepareParts_completed hparts hlength.1
    rw [Function.update_eq_self_iff.mpr rfl] at hrest
    exact .cons hcompleted (ih hrest hlength.2)

theorem prepare_of_completed (h : ∀ c ∈ cs, ∃ qs, List.Forall₂ Completed c.parts qs) :
    ∃ cs', preparePartialFunctionCalls (fun _ => none) cs = .ok (fun _ => none, cs') ∧
      List.Forall₂ (fun c c' => List.Forall₂ Completed c.parts c'.parts) cs cs' := by
  induction cs with
  | nil => exact ⟨[], rfl, .nil⟩
  | cons c cs ih =>
    obtain ⟨cs', hrest, hcompleted⟩ := ih fun c hc => h c (mem_cons_of_mem _ hc)
    obtain ⟨qs, hqs⟩ := h c mem_cons_self
    refine ⟨{ c with parts := qs } :: cs', prepare_cons_eq_ok.mpr ⟨none, qs, cs',
      prepareParts_of_completed hqs [], ?_, rfl⟩, .cons hqs hcompleted⟩
    rw [Function.update_eq_self_iff.mpr rfl]
    exact hrest

theorem map_eq_zipWith_iff {α β γ δ ε : Type*} {f : γ → δ} {g : α → β → δ} {R : α → γ → Prop}
    {F : γ → ε} {G : β → ε} (hsplit : ∀ a b c, f c = g a b ↔ R a c ∧ F c = G b) {as : List α}
    {bs : List β} {cs : List γ} (hlength : as.length = bs.length) :
    cs.map f = List.zipWith g as bs ↔ List.Forall₂ R as cs ∧ cs.map F = bs.map G := by
  induction as generalizing bs cs with
  | nil =>
    obtain rfl := List.eq_nil_of_length_eq_zero hlength.symm
    simp
  | cons a as ih =>
    cases bs with
    | nil => cases hlength
    | cons b bs =>
      cases cs with
      | nil => simp
      | cons c cs =>
        rw [map_cons, List.zipWith_cons_cons, cons_eq_cons, hsplit,
          ih (Nat.succ.inj hlength), forall₂_cons, map_cons, map_cons,
          cons_eq_cons]
        tauto

theorem forall₂_through {α β γ : Type*} {A S : α → β → Prop} {B : β → γ → Prop} {R : α → γ → Prop}
    (h : ∀ a b c, A a b → B b c → R a c → S a b) {as : List α} {bs : List β} {cs : List γ}
    (hA : List.Forall₂ A as bs) (hB : List.Forall₂ B bs cs) (hR : List.Forall₂ R as cs) :
    List.Forall₂ S as bs := by
  induction hA generalizing cs with
  | nil => exact .nil
  | cons ha _ ih =>
    cases hB with
    | cons hb hB =>
      cases hR with
      | cons hr hR => exact .cons (h _ _ _ ha hb hr) (ih hB hR)

theorem forall₂_compose {α β γ : Type*} {A : α → β → Prop} {B : β → γ → Prop} {R : α → γ → Prop}
    {as : List α} {bs : List β} {cs : List γ} (hA : List.Forall₂ A as bs) (hB : List.Forall₂ B bs cs)
    (h : ∀ a ∈ as, ∀ b c, A a b → B b c → R a c) : List.Forall₂ R as cs := by
  induction hA generalizing cs with
  | nil =>
    cases hB
    exact .nil
  | cons ha _ ih =>
    cases hB with
    | cons hb hB =>
      exact .cons (h _ mem_cons_self _ _ ha hb)
        (ih hB fun a ha => h a (mem_cons_of_mem _ ha))

theorem wholeEnds_length (seen : Bool) (es : List Ending) : (wholeEnds seen es).length = es.length := by
  induction es generalizing seen with
  | nil => rfl
  | cons e es ih => rw [wholeEnds, length_cons, length_cons, ih]

/-- A choice shows the text and the calls of a candidate. -/
def ShowsSame (choice : StreamChoice) : Prop :=
  (choice.content.getD "" = contentOf ((kinds c.parts).filterMap wholePiece) ∧
    choice.reasoningContent.getD "" = ((kinds c.parts).filterMap thoughtOf).getLast?.getD "") ∧
  callsRead choice.toolCalls = toolCallsOf marshal c.parts

theorem choices_streamEnds (h : List.Forall₂ (ChoiceOf marshal es) cs choices) :
    choices.map (fun choice => choice.finishReason.toList ++
        if choice.index = 0 then terminalEnd es else []) =
      cs.map fun c => (chunkEnd es c.ending).toList ++ if c.index = 0 then terminalEnd es else [] := by
  induction h with
  | nil => rfl
  | cons hchoice _ ih => rw [map_cons, map_cons, ih, hchoice.finish, hchoice.index]

theorem agrees_of_prepared
    (h : preparePartialFunctionCalls (fun _ => none) cs = .ok (partials, cs')) :
    ∃ choices, List.Forall₂ (ChoiceOf marshal (cs'.map GeminiChatCandidate.ending)) cs' choices ∧
      (Agrees marshal cs ↔ (∀ i, partials i = none) ∧ List.Forall₂ (ShowsSame marshal) cs choices ∧
        streamEnds (cs'.map GeminiChatCandidate.ending) =
          (wholeEnds false (cs.map GeminiChatCandidate.ending)).map fun reason => [reason]) := by
  obtain ⟨s, chunks, choices, hchunk, hpartials, hsent, hchoices⟩ := convertChunk_eq marshal h
  refine ⟨choices, hchoices, ?_⟩
  have hends := choices_streamEnds marshal hchoices
  have hreceive : receive (chunks ++ (finalize s).2) =
        (responseGeminiChat2OpenAI marshal cs).map OpenAITextResponseChoice.received ↔
      List.Forall₂ (ShowsSame marshal) cs choices ∧
        streamEnds (cs'.map GeminiChatCandidate.ending) =
          (wholeEnds false (cs.map GeminiChatCandidate.ending)).map fun reason => [reason] := by
    have hstream : streamEnds (cs'.map GeminiChatCandidate.ending) = _ := map_map.trans hends.symm
    rw [hsent, receive_terminals, responseGeminiChat2OpenAI, received_whole, hstream]
    refine map_eq_zipWith_iff (fun c reason choice => ?_) (by simp [wholeEnds_length])
    simp only [Received.mk.injEq, ShowsSame]
    tauto
  constructor
  · rintro ⟨s', chunks', hchunk', hnone, hsame⟩
    rw [hchunk] at hchunk'
    cases hchunk'
    exact ⟨fun i => hpartials ▸ hnone i, hreceive.mp hsame⟩
  · rintro ⟨hnone, hsame⟩
    exact ⟨s, chunks, hchunk, fun i => hpartials ▸ hnone i, hreceive.mpr hsame⟩

def FunctionCall.givenId (call : FunctionCall N) : Option String :=
  if Text.trimSpace call.id = "" then none else some (Text.trimSpace call.id)

/-- The call of a part is put together at once, and as the whole response has it. -/
def CallKept (p : GeminiPart N) : Prop :=
  ∀ call, p.functionCall = some call → ∃ completed, completedCall call = some completed ∧
    (p.inlineData = none →
      geminiResponseToolCall marshal completed = geminiResponseToolCall marshal call)

/-- A candidate whose text and calls a stream shows as the whole response does. -/
structure Faithful (c : GeminiChatCandidate N) : Prop where
  text : TextOk c.parts
  calls : ∀ p ∈ c.parts, CallKept marshal p
  ids : ((callsOf c.parts).filterMap FunctionCall.givenId).Nodup

theorem toolCallsOf_cons (p : GeminiPart N) (ps : List (GeminiPart N)) :
    toolCallsOf marshal (p :: ps) =
      (callOf p.kind).toList.map (geminiResponseToolCall marshal) ++ toolCallsOf marshal ps := by
  cases h : callOf p.kind with
  | none | some c => simp [toolCallsOf, callsOf, h]

theorem callOf_kind (p : GeminiPart N) :
    callOf p.kind = if p.inlineData = none then p.functionCall else none := by
  unfold GeminiPart.kind
  cases p.inlineData with
  | some d => rfl
  | none =>
    cases p.functionCall with
    | some call => rfl
    | none =>
      simp only [if_true]
      split
      · rfl
      · split <;> rfl

theorem toolCall_of_completed {p q : GeminiPart N} (h : Completed p q) :
    (callOf q.kind).toList.map (geminiResponseToolCall marshal) =
        (callOf p.kind).toList.map (geminiResponseToolCall marshal) ↔ CallKept marshal p := by
  cases h with
  | plain hnone =>
    refine iff_of_true rfl ?_
    intro call hcall
    rw [hnone] at hcall
    cases hcall
  | @call call completed hcall hcompleted =>
    rw [callOf_kind, callOf_kind]
    unfold CallKept
    cases hdata : p.inlineData with
    | some d | none => simp [hcall, hcompleted]

theorem toolCalls_of_completed {ps qs : List (GeminiPart N)} (h : List.Forall₂ Completed ps qs) :
    (callsOf qs).length = (callsOf ps).length ∧
      (toolCallsOf marshal qs = toolCallsOf marshal ps ↔ ∀ p ∈ ps, CallKept marshal p) := by
  induction h with
  | nil => exact ⟨rfl, by simp⟩
  | @cons p q ps qs hdone _ ih =>
    have hsome := hdone.alike.pieces.2.2.2
    refine ⟨by rw [callsOf_cons_length, callsOf_cons_length, hsome, ih.1], ?_⟩
    rw [toolCallsOf_cons, toolCallsOf_cons, List.forall_mem_cons, ← ih.2,
      ← toolCall_of_completed marshal hdone]
    have hlength : ((callOf q.kind).toList.map (geminiResponseToolCall marshal)).length =
        ((callOf p.kind).toList.map (geminiResponseToolCall marshal)).length := by
      rw [length_map, length_map, Option.length_toList, Option.length_toList, hsome]
    constructor
    · intro h
      exact List.append_inj h hlength
    · rintro ⟨hhead, htail⟩
      rw [hhead, htail]

theorem exists_completed {ps : List (GeminiPart N)} (h : ∀ p ∈ ps, CallKept marshal p) :
    ∃ qs, List.Forall₂ Completed ps qs := by
  induction ps with
  | nil => exact ⟨[], .nil⟩
  | cons p ps ih =>
    obtain ⟨qs, hqs⟩ := ih fun p hp => h p (mem_cons_of_mem _ hp)
    cases hcall : p.functionCall with
    | none => exact ⟨p :: qs, .cons (.plain hcall) hqs⟩
    | some call =>
      obtain ⟨completed, hcompleted, -⟩ := h p mem_cons_self call hcall
      exact ⟨_, .cons (.call hcall hcompleted) hqs⟩

theorem ids_toolCallsOf (ps : List (GeminiPart N)) :
    (toolCallsOf marshal ps).filterMap ToolCallResponse.id =
      (callsOf ps).filterMap FunctionCall.givenId := by
  rw [toolCallsOf, List.filterMap_map]
  rfl

theorem Kept.refl (ps : List (GeminiPart N)) : Kept ps ps := by
  induction ps with
  | nil => exact .nil
  | cons p ps ih => exact .kept (.inl rfl) ih

theorem sameText_iff {ps qs : List (GeminiPart N)} (h : List.Forall₂ Completed ps qs) :
    SameText ps qs ↔ TextOk ps := by
  rw [sameText_of_completed h]
  constructor
  · intro hsame
    exact (sameText_self ((Kept.refl ps).length_of_sameText hsame (le_refl _)).2).mp hsame
  intro hok
  refine (sameText_self fun hnone k hk => ?_).mpr hok
  rcases hok with hplain | honly
  · exact (hplain k hk).2.1
  unfold onlyThought at honly
  split at honly
  · rename_i t hfilter
    have hmem : PartKind.thought t ∈ kinds ps :=
      List.mem_of_mem_filter (hfilter ▸ List.mem_singleton_self _)
    exact absurd (List.filterMap_eq_nil_iff.mp hnone _ hmem) (by simp [thoughtOf])
  · cases honly

theorem shows_of_completed {c c' : GeminiChatCandidate N} {choice : StreamChoice}
    (hdone : List.Forall₂ Completed c.parts c'.parts) (h : ChoiceOf marshal es c' choice) :
    ShowsSame marshal c choice ↔ Faithful marshal c := by
  obtain ⟨hcount, htools⟩ := toolCalls_of_completed marshal hdone
  have hlength : choice.toolCalls.length ≤ (toolCallsOf marshal c.parts).length := by
    rw [← length_map (f := ToolCallResponse.plain), h.plain, toolCallsOf, toolCallsOf,
      length_map, length_map, hcount]
  have htext := sameText_iff hdone
  unfold ShowsSame
  rw [h.content, h.reasoning]
  show SameText c.parts c'.parts ∧ _ ↔ _
  rw [htext, callsRead_eq_iff hlength, h.nodup, h.plain, htools]
  constructor
  · rintro ⟨hok, hids, hcalls⟩
    rw [htools.mpr hcalls, ids_toolCallsOf] at hids
    exact ⟨hok, hcalls, hids⟩
  rintro ⟨hok, hcalls, hids⟩
  rw [htools.mpr hcalls, ids_toolCallsOf]
  exact ⟨hok, hids, hcalls⟩

theorem length_of_shows {c c' : GeminiChatCandidate N} {choice : StreamChoice}
    (hprepared : Prepared c c') (h : ChoiceOf marshal es c' choice) (hshows : ShowsSame marshal c choice) :
    c.parts.length ≤ c'.parts.length := by
  have htext : SameText c.parts c'.parts := by
    have hsame := hshows.1
    rw [h.content, h.reasoning] at hsame
    exact hsame
  have hcalls : (callsOf c.parts).length ≤ (callsOf c'.parts).length := by
    have hle := callsRead_length_le choice.toolCalls
    have hplain := congrArg List.length h.plain
    rw [hshows.2] at hle
    rw [length_map] at hplain
    simp only [toolCallsOf, length_map] at hle hplain
    omega
  exact (hprepared.kept.length_of_sameText htext hcalls).1

theorem endings_of_completed (hprepared : List.Forall₂ Prepared cs cs')
    (hdone : List.Forall₂ (fun c c' => List.Forall₂ Completed c.parts c'.parts) cs cs') :
    cs'.map GeminiChatCandidate.ending = cs.map GeminiChatCandidate.ending := by
  induction hprepared with
  | nil => rfl
  | @cons c c' cs cs' hp _ ih =>
    rw [forall₂_cons] at hdone
    have hcount := (toolCalls_of_completed (fun _ => "") hdone.1).1
    have hempty : (callsOf c'.parts).isEmpty = (callsOf c.parts).isEmpty := by
      rw [Bool.eq_iff_iff, List.isEmpty_iff_length_eq_zero, List.isEmpty_iff_length_eq_zero, hcount]
    rw [map_cons, map_cons, ih hdone.2]
    simp only [GeminiChatCandidate.ending, hp.index, hp.reason, hempty]

/-- A response is received as a stream as it is as a whole if and only if every candidate
    is shown faithfully and the candidates finish alike. -/
theorem agrees_iff (cs : List (GeminiChatCandidate N)) : Agrees marshal cs ↔
      (∀ c ∈ cs, Faithful marshal c) ∧ FinishOk (cs.map GeminiChatCandidate.ending) := by
  constructor
  · intro h
    obtain ⟨s, chunks, hchunk, -⟩ := id h
    obtain ⟨⟨partials, cs'⟩, hprepare, -⟩ := bind_eq_ok.mp hchunk
    obtain ⟨choices, hchoices, hagrees⟩ := agrees_of_prepared marshal hprepare
    obtain ⟨-, hshows, hends⟩ := hagrees.mp h
    have hprepared := prepare_prepared hprepare
    have hlength : List.Forall₂ (fun c c' => c.parts.length ≤ c'.parts.length) cs cs' := by
      refine forall₂_through ?_ hprepared hchoices hshows
      intro c c' choice hp hc hs
      exact length_of_shows marshal hp hc hs
    have hdone := prepare_completed hprepare hlength
    have hfaithful : List.Forall₂ (fun c _ => Faithful marshal c ∧ True) cs cs' := by
      refine forall₂_through ?_ hdone hchoices hshows
      intro c c' choice hd hc hs
      exact ⟨(shows_of_completed marshal hd hc).mp hs, trivial⟩
    rw [endings_of_completed hprepared hdone] at hends
    exact ⟨((List.forall₂_and_left _ _).mp hfaithful).1, (streamEnds_agree _).mp hends⟩
  rintro ⟨hfaithful, hfinish⟩
  obtain ⟨cs', hprepare, hdone⟩ :=
    prepare_of_completed fun c hc => exists_completed marshal (hfaithful c hc).calls
  obtain ⟨choices, hchoices, hagrees⟩ := agrees_of_prepared marshal hprepare
  refine hagrees.mpr ⟨fun _ => rfl, ?_, ?_⟩
  · exact forall₂_compose hdone hchoices fun c hc _ _ hd hchoice =>
      (shows_of_completed marshal hd hchoice).mpr (hfaithful c hc)
  · rw [endings_of_completed (prepare_prepared hprepare) hdone]
    exact (streamEnds_agree _).mpr hfinish

def answerAfterThought : List (GeminiChatCandidate Int) :=
  [{ parts := [{ text := "Let me see.", thought := true }, { text := "Hello." }]
     finishReason := some "STOP" }]

/-- A client of the stream has no visible text. -/
theorem not_agrees_answer : ¬ ∀ cs : List (GeminiChatCandidate Int), Agrees (fun _ => "\x7b\x7d") cs := by
  intro h
  obtain ⟨s, chunks, hchunk, -, hsame⟩ := h answerAfterThought
  have hreceived : (convertChunk (fun _ => "\x7b\x7d") {} answerAfterThought).map (fun r =>
        (receive (r.2 ++ (finalize r.1).2)).map Received.content) = .ok [""] := by
    rfl
  rw [hchunk] at hreceived
  have hwhole : ((responseGeminiChat2OpenAI (fun _ => "\x7b\x7d") answerAfterThought).map
        OpenAITextResponseChoice.received).map Received.content = ["Hello."] := by
    rfl
  have hcontent : (receive (chunks ++ (finalize s).2)).map Received.content = [""] :=
    Except.ok.inj hreceived
  rw [hsame, hwhole] at hcontent
  revert hcontent
  decide

end NewApi.GeminiSource
