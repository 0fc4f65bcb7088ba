/-
  NewApi.Convert.ResponsesStream

  Well-formed Responses streams, and the invariant behind them.

  `Items` connects a log of events with what a converter remembers about each of
  its items.  It knows three things an event can do, announce an item, add to it and
  end it, and says of each what the converter must have changed.
-/

import NewApi.Lib.Blocks
import NewApi.Convert.Responses
import Mathlib.Data.List.Nodup

namespace NewApi.Convert

open NewApi.Lib

/-! ## Well-formed Responses streams -/

variable (e : StreamEvent)

/-- What an event does to its item. -/
def itemMark : Option (Mark UInt8) :=
  match e.type with
  | .outputItemAdded => some .opened
  | .outputItemDone => some .closed
  | .outputTextDelta | .reasoningSummaryDelta | .reasoningTextDelta | .functionArgsDelta
  | .customToolInputDelta | .mcpArgumentsDelta => some (.part e.delta)
  | .outputTextAnnotationAdded => some (.part [])
  | _ => none

def itemView : Option (Option Int × Mark UInt8) :=
  (itemMark e).map fun m => (e.outputIndex, m)

/-- The item an `output_item.added` event announces. -/
def announces : Option ResponsesOutput :=
  if e.type = .outputItemAdded then e.item else none

def StreamEvent.isTerminal : Bool :=
  e.type = .completed || e.type = .incomplete || e.type = .failed

/-- The text or the arguments of an item. -/
def itemValue (item : ResponsesOutput) : Bytes :=
  match item.type with
  | .message => (item.content.map (·.text)).flatten
  | .reasoning => (item.summary.map (·.text)).flatten
  | .functionCall | .customToolCall | .mcpCall => item.arguments
  | _ => []

/-- What tells the items of a stream apart: there is at most one message and one
    reasoning item, the others have their ids. -/
def itemIdentity (item : ResponsesOutput) : OutputType × String :=
  (item.type, if item.type = .message ∨ item.type = .reasoning then "" else item.id)

def endedItems (items : List ResponsesOutput) : Option Int → Option (Held UInt8)
  | some (.ofNat n) => items[n]?.map fun item => ⟨itemValue item, true⟩
  | _ => none

/-- The events announce exactly these items, in this order, under the indexes from 0
    on; the deltas of each lie between its announcement and its one end, and add up
    to its value. -/
structure Lists (log : List StreamEvent) (items : List ResponsesOutput) : Prop where
  indexes : openings itemView log = (List.range items.length).map fun n => some (n : Int)
  announced : (log.filterMap announces).map itemIdentity = items.map itemIdentity
  tracks : Tracks itemView log (endedItems items)

/-- A well-formed Responses stream. -/
structure WellFormedStream (emitSequenceNumber : Bool) (log : List StreamEvent) : Prop where
  created : ∃ first rest, log = first :: rest ∧ first.type = .created ∧
    ∀ e ∈ rest, e.type ≠ .created
  numbered : emitSequenceNumber = true →
    log.map (·.sequenceNumber) = (List.range log.length).map some
  terminal : ∃ body last response, log = body ++ [last] ∧ last.isTerminal = true ∧
    (∀ e ∈ body, e.isTerminal = false) ∧ last.response = some response ∧
    Lists log response.output

/-! ## The items and the log -/

def itemTable {ρ : Type*} (order : List ρ) (held : ρ → Held UInt8) :
    Option Int → Option (Held UInt8)
  | some (.ofNat n) => order[n]?.map held
  | _ => none

/-- The log announces the items of `order` one after the other, each under its place,
    and its events build what is held of each. -/
structure Items {ρ : Type*} (order : List ρ) (place : ρ → Option Int) (held : ρ → Held UInt8)
    (named : ρ → OutputType × String) (log : List StreamEvent) : Prop where
  tracks : Tracks itemView log (itemTable order held)
  indexes : openings itemView log = (List.range order.length).map fun n => some (n : Int)
  announced : (log.filterMap announces).map itemIdentity = order.map named
  nodup : order.Nodup
  placed : ∀ r i, place r = some i → ∃ n : Nat, i = n ∧ order[n]? = some r
  unplaced : ∀ r, place r = none → r ∉ order ∧ held r = {}

section
variable {ρ : Type*} {order : List ρ} {place place' : ρ → Option Int} {held held' : ρ → Held UInt8}
  {named named' : ρ → OutputType × String} {log : List StreamEvent} {e : StreamEvent} {r : ρ}

theorem announces_of_mark {m : Mark UInt8} (he : itemMark e = some m) (hm : m ≠ .opened) :
    announces e = none := by
  unfold announces
  rw [if_neg]
  intro htype
  apply hm
  simpa [itemMark, htype] using he.symm

theorem opens_of_mark {m : Mark UInt8} (he : itemMark e = some m) (hm : m ≠ .opened) :
    opens itemView e = none := by
  cases m with
  | opened => exact absurd rfl hm
  | part p | closed => simp [opens, itemView, he]

theorem itemTable_of_ne (hnodup : order.Nodup) {n : Nat} (hn : order[n]? = some r)
    (hother : ∀ r', r' ≠ r → held' r' = held r') {i : Option Int} (hi : i ≠ some (n : Int)) :
    itemTable order held' i = itemTable order held i := by
  unfold itemTable
  split
  · rename_i k
    cases hk : order[k]? with
    | none => rfl
    | some r' =>
      have hne : r' ≠ r := by
        rintro rfl
        have hlt : n < order.length := (List.getElem?_eq_some_iff.1 hn).1
        have : n = k := (List.getElem?_inj hlt hnodup).1 (hn.trans hk.symm)
        exact hi (by rw [this]; rfl)
      simp [hother r' hne]
  · rfl

section
variable (h : Items order place held named log)
include h

theorem Items.skip (he : itemMark e = none) : Items order place held named (log ++ [e]) := by
  have hann : announces e = none := by
    unfold announces
    rw [if_neg]
    intro htype
    simp [itemMark, htype] at he
  refine { h with tracks := ?_, indexes := ?_, announced := ?_ }
  · exact h.tracks.skip (by simp [itemView, he])
  · rw [openings_append, h.indexes]
    simp [openings, opens, itemView, he]
  · rw [List.filterMap_append, List.map_append, h.announced]
    simp [hann]

theorem Items.opening (hr : place r = none) {item : ResponsesOutput}
    (htype : e.type = .outputItemAdded) (hindex : e.outputIndex = some (order.length : Int))
    (hitem : e.item = some item) (hname : named' r = itemIdentity item) (hheld : held' r = {})
    (hplace : place' r = some (order.length : Int))
    (hother : ∀ r', r' ≠ r → place' r' = place r' ∧ held' r' = held r' ∧ named' r' = named r') :
    Items (order ++ [r]) place' held' named' (log ++ [e]) := by
  obtain ⟨hnot, -⟩ := h.unplaced r hr
  have hview : itemView e = some (some (order.length : Int), .opened) := by
    simp [itemView, itemMark, htype, hindex]
  have hsame : ∀ r' ∈ order, r' ≠ r := by
    rintro r' hr' rfl
    exact hnot hr'
  refine ⟨?_, ?_, ?_, ?_, ?_, ?_⟩
  · refine h.tracks.opening hview ?_ ?_ ?_
    · simp [itemTable]
    · simp [itemTable, hheld]
    intro i hi
    unfold itemTable
    split
    · rename_i k
      have hk : k ≠ order.length := by
        rintro rfl
        exact hi rfl
      rcases Nat.lt_or_gt_of_ne hk with hlt | hgt
      · rw [List.getElem?_append_left hlt, List.getElem?_eq_getElem hlt]
        have hne := hsame _ (List.getElem_mem hlt)
        simp [(hother _ hne).2.1]
      · rw [List.getElem?_eq_none (by simp; omega), List.getElem?_eq_none (by omega)]
        rfl
    · rfl
  · rw [openings_append, h.indexes, List.length_append, List.length_singleton, List.range_succ]
    simp [openings, opens, hview]
  · rw [List.filterMap_append, List.map_append, h.announced, List.map_append]
    have hmap : order.map named' = order.map named :=
      List.map_congr_left fun r' hr' => (hother r' (hsame r' hr')).2.2
    simp [announces, htype, hitem, hname, hmap]
  · rw [List.nodup_append]
    refine ⟨h.nodup, List.nodup_singleton r, ?_⟩
    intro r' hr' r'' hr''
    rw [List.mem_singleton.1 hr'']
    exact hsame r' hr'
  · intro r' i hi
    by_cases hne : r' = r
    · subst hne
      rw [hplace] at hi
      exact ⟨order.length, (Option.some.inj hi).symm, by simp⟩
    rw [(hother r' hne).1] at hi
    obtain ⟨n, hn, hget⟩ := h.placed r' i hi
    have hlt : n < order.length := (List.getElem?_eq_some_iff.1 hget).1
    exact ⟨n, hn, by rw [List.getElem?_append_left hlt, hget]⟩
  intro r' hnone
  by_cases hne : r' = r
  · rw [hne, hplace] at hnone
    cases hnone
  rw [(hother r' hne).1] at hnone
  obtain ⟨hmem, hempty⟩ := h.unplaced r' hnone
  exact ⟨by simp [hmem, hne], by rw [(hother r' hne).2.1, hempty]⟩

theorem Items.update {i : Int} (hr : place r = some i) {m : Mark UInt8} (he : itemMark e = some m)
    (hm : m ≠ .opened) (hindex : e.outputIndex = some i)
    (htraces : ∀ marks, Traces marks (some (held r)) → Traces (marks ++ [m]) (some (held' r)))
    (hother : ∀ r', r' ≠ r → held' r' = held r') : Items order place held' named (log ++ [e]) := by
  obtain ⟨n, rfl, hn⟩ := h.placed r i hr
  refine { h with tracks := ?_, indexes := ?_, announced := ?_, unplaced := ?_ }
  · have hat : itemTable order held (some (n : Int)) = some (held r) := by simp [itemTable, hn]
    have hat' : itemTable order held' (some (n : Int)) = some (held' r) := by simp [itemTable, hn]
    refine h.tracks.update (i := some (n : Int)) (m := m) (by simp [itemView, he, hindex]) ?_ ?_
    · rw [hat']
      exact htraces _ (hat ▸ h.tracks (some (n : Int)))
    · exact fun j hj => itemTable_of_ne h.nodup hn hother hj
  · rw [openings_append, h.indexes]
    simp [openings, opens_of_mark he hm]
  · rw [List.filterMap_append, List.map_append, h.announced]
    simp [announces_of_mark he hm]
  intro r' hnone
  have hne : r' ≠ r := by
    rintro rfl
    rw [hr] at hnone
    cases hnone
  rw [hother r' hne]
  exact h.unplaced r' hnone

theorem Items.adding {i : Int} (hr : place r = some i) {p : Bytes}
    (he : itemMark e = some (.part p)) (hindex : e.outputIndex = some i)
    (hopen : (held r).closed = false) (hheld : held' r = ⟨(held r).value ++ p, false⟩)
    (hother : ∀ r', r' ≠ r → held' r' = held r') : Items order place held' named (log ++ [e]) := by
  refine h.update hr he nofun hindex (fun marks htr => ?_) hother
  rw [hheld]
  refine Traces.part ?_ p
  rwa [← hopen]

theorem Items.closing {i : Int} (hr : place r = some i) (he : itemMark e = some .closed)
    (hindex : e.outputIndex = some i) (hopen : (held r).closed = false)
    (hheld : held' r = ⟨(held r).value, true⟩) (hother : ∀ r', r' ≠ r → held' r' = held r') : Items order place held' named (log ++ [e]) := by
  refine h.update hr he nofun hindex (fun marks htr => ?_) hother
  rw [hheld]
  refine Traces.close ?_
  rwa [← hopen]

theorem Items.late {i : Int} (hr : place r = some i) {p : Bytes} (he : itemMark e = some (.part p))
    (hindex : e.outputIndex = some i) (hclosed : (held r).closed = true) (rest : List StreamEvent) :
    [.closed, .part p].Sublist (history itemView (some i) (log ++ [e] ++ rest)) := by
  obtain ⟨n, rfl, hn⟩ := h.placed r i hr
  have hat : itemTable order held (some (n : Int)) = some ⟨(held r).value, true⟩ := by
    simp [itemTable, hn, ← hclosed]
  exact h.tracks.late (by simp [itemView, he, hindex]) hat rest

end

end

end NewApi.Convert
