/-
  NewApi.Lib.Blocks

  Logs of events that build keyed blocks: a block is opened, gets parts, and is
  closed.

  `Tracks` connects a log with a table of what each block holds so far.  What one
  more event does to the table is said once (`skip`, `opening`, `adding`,
  `closing`); a stream converter that keeps such a table then only has to say which
  of the four each of its events is.  `not_traces_of_late` is for the converse: a
  block that gets a part after its end has no history of the right shape, whatever
  comes later.
-/

import Mathlib.Data.List.Range

namespace NewApi.Lib

variable {α κ γ : Type*}

/-- What an event does to its block. -/
inductive Mark (γ : Type*) where
  | opened
  | part (p : List γ)
  | closed
deriving DecidableEq

/-- What a block holds, and whether it was closed. -/
structure Held (γ : Type*) where
  value : List γ := []
  closed : Bool := false

/-- The history of a block that holds this: it was opened, its parts add up to the
    value, and its end is the last of it.  A block that is not there has none. -/
def Traces (marks : List (Mark γ)) : Option (Held γ) → Prop
  | none => marks = []
  | some b => ∃ parts : List (List γ), parts.flatten = b.value ∧
      marks = .opened :: (parts.map .part ++ if b.closed then [.closed] else [])

theorem traces_opened : Traces (γ := γ) [.opened] (some {}) := ⟨[], rfl, rfl⟩

theorem Traces.part {marks : List (Mark γ)} {value : List γ} (h : Traces marks (some ⟨value, false⟩))
    (p : List γ) : Traces (marks ++ [.part p]) (some ⟨value ++ p, false⟩) := by
  obtain ⟨parts, hparts, hmarks⟩ := h
  refine ⟨parts ++ [p], ?_, ?_⟩
  · simpa using hparts
  · rw [hmarks]
    simp

theorem Traces.close {marks : List (Mark γ)} {value : List γ}
    (h : Traces marks (some ⟨value, false⟩)) : Traces (marks ++ [.closed]) (some ⟨value, true⟩) := by
  obtain ⟨parts, hparts, hmarks⟩ := h
  refine ⟨parts, hparts, ?_⟩
  rw [hmarks]
  simp

theorem Traces.mem_closed {marks : List (Mark γ)} {value : List γ}
    (h : Traces marks (some ⟨value, true⟩)) : .closed ∈ marks := by
  obtain ⟨parts, -, hmarks⟩ := h
  rw [hmarks]
  simp

theorem not_traces_of_late {marks : List (Mark γ)} {p : List γ}
    (hlate : [.closed, .part p].Sublist marks) (b : Option (Held γ)) : ¬ Traces marks b := by
  intro h
  cases b with
  | none =>
    rw [show marks = [] from h] at hlate
    cases hlate
  | some b =>
    obtain ⟨parts, -, rfl⟩ := h
    have hparts : Mark.closed ∉ parts.map Mark.part := by simp
    rw [List.sublist_cons_iff] at hlate
    obtain hlate | ⟨r, hr, -⟩ := hlate
    · rw [List.sublist_append_iff] at hlate
      obtain ⟨l, r, hlr, hl, hr⟩ := hlate
      cases l with
      | nil =>
        rw [List.nil_append] at hlr
        subst hlr
        have hlen := hr.length_le
        split at hlen <;> simp at hlen
      | cons x xs =>
        obtain rfl : x = .closed := by simpa using (congrArg List.head? hlr).symm
        exact hparts (hl.subset List.mem_cons_self)
    · cases hr

section
variable (view : α → Option (κ × Mark γ))

def opens (e : α) : Option κ :=
  (view e).bind fun p => match p.2 with
    | .opened => some p.1
    | _ => none

def openings (log : List α) : List κ := log.filterMap (opens view)

theorem openings_append (log rest : List α) :
    openings view (log ++ rest) = openings view log ++ openings view rest := by
  simp [openings]

variable [DecidableEq κ]

/-- What an event is to block `i`. -/
def markAt (i : κ) (e : α) : Option (Mark γ) :=
  (view e).bind fun p => if p.1 = i then some p.2 else none

/-- The events of a log that are about block `i`. -/
def history (i : κ) (log : List α) : List (Mark γ) := log.filterMap (markAt view i)

def Tracks (log : List α) (table : κ → Option (Held γ)) : Prop :=
  ∀ i, Traces (history view i log) (table i)

end

section
variable [DecidableEq κ]
variable {view : α → Option (κ × Mark γ)} {log : List α} {table table' : κ → Option (Held γ)}

theorem history_append (i : κ) (log rest : List α) :
    history view i (log ++ rest) = history view i log ++ history view i rest := by
  simp [history]

section
variable (h : Tracks view log table)
include h

theorem Tracks.skip {e : α} (he : view e = none) : Tracks view (log ++ [e]) table := by
  intro i
  rw [history_append]
  simpa [history, markAt, he] using h i

theorem Tracks.update {e : α} {i : κ} {m : Mark γ} (he : view e = some (i, m))
    (hi : Traces (history view i log ++ [m]) (table' i))
    (hother : ∀ j, j ≠ i → table' j = table j) : Tracks view (log ++ [e]) table' := by
  intro j
  rw [history_append]
  by_cases hij : i = j
  · subst hij
    simpa [history, markAt, he] using hi
  · rw [hother j (Ne.symm hij)]
    simpa [history, markAt, he, hij] using h j

theorem Tracks.opening {e : α} {i : κ} (he : view e = some (i, .opened)) (hi : table i = none)
    (hi' : table' i = some {}) (hother : ∀ j, j ≠ i → table' j = table j) : Tracks view (log ++ [e]) table' := by
  have hnil : history view i log = [] := by
    have := h i
    rwa [hi] at this
  refine h.update he ?_ hother
  rw [hnil, hi']
  exact traces_opened

theorem Tracks.adding {e : α} {i : κ} {p value : List γ} (he : view e = some (i, .part p))
    (hi : table i = some ⟨value, false⟩) (hi' : table' i = some ⟨value ++ p, false⟩)
    (hother : ∀ j, j ≠ i → table' j = table j) : Tracks view (log ++ [e]) table' := by
  refine h.update he ?_ hother
  rw [hi']
  exact Traces.part (hi ▸ h i) p

theorem Tracks.closing {e : α} {i : κ} {value : List γ} (he : view e = some (i, .closed))
    (hi : table i = some ⟨value, false⟩) (hi' : table' i = some ⟨value, true⟩)
    (hother : ∀ j, j ≠ i → table' j = table j) : Tracks view (log ++ [e]) table' := by
  refine h.update he ?_ hother
  rw [hi']
  exact Traces.close (hi ▸ h i)

theorem Tracks.closings (stop : κ → α) (hstop : ∀ i, view (stop i) = some (i, .closed))
    {keys : List κ} (hnodup : keys.Nodup)
    (hopen : ∀ i ∈ keys, ∃ value, table i = some ⟨value, false⟩) :
    Tracks view (log ++ keys.map stop) fun i =>
      if i ∈ keys then (table i).map fun b => ⟨b.value, true⟩ else table i := by
  induction keys generalizing log table with
  | nil => simpa using h
  | cons k keys ih =>
    obtain ⟨hk, hnodup⟩ := List.nodup_cons.1 hnodup
    obtain ⟨value, hvalue⟩ := hopen k List.mem_cons_self
    have hclosed : Tracks view (log ++ [stop k]) (Function.update table k (some ⟨value, true⟩)) :=
      h.closing (hstop k) hvalue (Function.update_self ..) fun j hj => Function.update_of_ne hj ..
    have hne : ∀ i ∈ keys, i ≠ k := fun i hi hik => hk (hik ▸ hi)
    have hrest := ih hclosed hnodup fun i hi => by
      rw [Function.update_of_ne (hne i hi)]
      exact hopen i (List.mem_cons_of_mem _ hi)
    rw [List.append_assoc] at hrest
    refine Eq.mp (congrArg (Tracks view _) (funext fun i => ?_)) hrest
    by_cases hik : i = k
    · subst hik
      simp [hk, hvalue]
    · simp [hik]

theorem Tracks.late {e : α} {i : κ} {p value : List γ} (he : view e = some (i, .part p))
    (hi : table i = some ⟨value, true⟩) (rest : List α) :
    [.closed, .part p].Sublist (history view i (log ++ [e] ++ rest)) := by
  have hclosed : .closed ∈ history view i log := Traces.mem_closed (hi ▸ h i)
  have hpart : history view i [e] = [.part p] := by simp [history, markAt, he]
  rw [history_append, history_append, hpart]
  have hsub := (List.singleton_sublist.2 hclosed).append (List.Sublist.refl [Mark.part p])
  exact hsub.trans (List.sublist_append_left _ _)

end

end

end NewApi.Lib
