/-
  NewApi.Lib.Window

  A log of places taken in time, each by an owner who may give it back, and the
  counts a sliding-window limit is about.

  For an interval `[s, s + d)`:

    * `heldWithin` — the places taken in it and not given back;
    * `heldSince`  — the same without the right end;
    * `lateReturns` — the places taken before it and given back in it.

  Giving a place back in the interval lowers `heldSince` or raises
  `lateReturns`, by one in all (`heldSince_giveBack`).  So a counter that goes
  down by one on every return stays above `heldSince - lateReturns`, whichever
  place it takes the one from.
-/

import Mathlib.Data.List.Count
import Mathlib.Data.List.Perm.Subperm
import Mathlib.Data.Int.Basic

namespace NewApi.Lib

open List (countP_append countP_cons mem_append mem_cons)

/-- A place taken at `time`. -/
structure Place (ι : Type*) where
  owner : ι
  time : Int
  returnedAt : Option Int := none

namespace Place

variable {ι : Type*}

def held (e : Place ι) : Bool := e.returnedAt.isNone

def heldSince (s : Int) (e : Place ι) : Bool := e.held && s ≤ e.time

def heldWithin (s d : Int) (e : Place ι) : Bool := e.held && s ≤ e.time && e.time < s + d

def returnedLate (s d : Int) (e : Place ι) : Bool :=
  e.time < s && e.returnedAt.any fun u => s ≤ u && u < s + d

theorem heldSince_of_heldWithin {s d : Int} {e : Place ι} (h : e.heldWithin s d = true) :
    e.heldSince s = true := by
  simp only [heldWithin, Bool.and_eq_true] at h
  simp only [heldSince, Bool.and_eq_true]
  exact h.1

end Place

abbrev PlaceLog (ι : Type*) := List (Place ι)

namespace PlaceLog

variable {ι : Type*}

def heldSince (s : Int) (log : PlaceLog ι) : Nat := log.countP (Place.heldSince s)

def heldWithin (s d : Int) (log : PlaceLog ι) : Nat := log.countP (Place.heldWithin s d)

def lateReturns (s d : Int) (log : PlaceLog ι) : Nat := log.countP (Place.returnedLate s d)

/-- `o` takes a place. -/
def take (o : ι) (t : Int) (log : PlaceLog ι) : PlaceLog ι := log ++ [{ owner := o, time := t }]

/-- `o` holds a place. -/
def Holds (o : ι) (log : PlaceLog ι) : Prop := ∃ e ∈ log, e.owner = o ∧ e.held = true

instance [DecidableEq ι] (o : ι) (log : PlaceLog ι) : Decidable (Holds o log) :=
  inferInstanceAs (Decidable (∃ e ∈ log, e.owner = o ∧ e.held = true))

/-- `o` gives the oldest place it holds back, at time `u`. -/
def giveBack [DecidableEq ι] (o : ι) (u : Int) : PlaceLog ι → PlaceLog ι
  | [] => []
  | e :: log =>
    if e.owner = o ∧ e.held = true then { e with returnedAt := some u } :: log
    else e :: giveBack o u log

theorem heldWithin_le_heldSince (s d : Int) (log : PlaceLog ι) :
    heldWithin s d log ≤ heldSince s log :=
  List.countP_mono_left fun _ _ => Place.heldSince_of_heldWithin

variable {log : PlaceLog ι}

theorem heldSince_eq_zero {s : Int} (h : ∀ e ∈ log, e.time < s) : heldSince s log = 0 := by
  refine List.countP_eq_zero.2 fun e he => ?_
  have := h e he
  simp only [Place.heldSince, Bool.and_eq_true, decide_eq_true_eq, not_and]
  omega

/-! ## take -/

theorem heldSince_take (s : Int) (o : ι) (t : Int) (log : PlaceLog ι) :
    heldSince s (take o t log) = heldSince s log + if s ≤ t then 1 else 0 := by
  simp [heldSince, take, countP_append, List.countP_singleton, Place.heldSince, Place.held]

theorem heldWithin_take (s d : Int) (o : ι) (t : Int) (log : PlaceLog ι) :
    heldWithin s d (take o t log) = heldWithin s d log + if s ≤ t ∧ t < s + d then 1 else 0 := by
  simp [heldWithin, take, countP_append, List.countP_singleton, Place.heldWithin,
    Place.held]

@[simp] theorem lateReturns_take (s d : Int) (o : ι) (t : Int) (log : PlaceLog ι) :
    lateReturns s d (take o t log) = lateReturns s d log := by
  simp [lateReturns, take, countP_append, Place.returnedLate]

variable {o : ι}

theorem mem_take {t : Int} {e : Place ι} :
    e ∈ take o t log ↔ e ∈ log ∨ e = { owner := o, time := t } := by
  simp [take]

/-! ## giveBack -/

variable [DecidableEq ι]

theorem giveBack_cases (o : ι) (u : Int) (log : PlaceLog ι) :
    (¬ Holds o log ∧ giveBack o u log = log) ∨
    ∃ l₁ e l₂, log = l₁ ++ e :: l₂ ∧ e.owner = o ∧ e.held = true ∧
      (∀ e' ∈ l₁, ¬ (e'.owner = o ∧ e'.held = true)) ∧
      giveBack o u log = l₁ ++ { e with returnedAt := some u } :: l₂ := by
  induction log with
  | nil => exact .inl ⟨by simp [Holds], rfl⟩
  | cons e log ih =>
    by_cases he : e.owner = o ∧ e.held = true
    · exact .inr ⟨[], e, log, rfl, he.1, he.2, by simp, by simp only [giveBack, if_pos he]; rfl⟩
    rcases ih with ⟨hno, heq⟩ | ⟨l₁, e₁, l₂, hlog, ho, hheld, hbefore, heq⟩
    · refine .inl ⟨?_, by simp only [giveBack, if_neg he, heq]⟩
      rintro ⟨e', hmem, he'⟩
      rcases mem_cons.1 hmem with rfl | hmem
      · exact he he'
      · exact hno ⟨e', hmem, he'⟩
    refine .inr ⟨e :: l₁, e₁, l₂, by rw [hlog]; rfl, ho, hheld, ?_, ?_⟩
    · intro e' hmem
      rcases mem_cons.1 hmem with rfl | hmem
      · exact he
      · exact hbefore e' hmem
    · simp only [giveBack, if_neg he, heq]
      rfl

variable {u : Int}

theorem mem_giveBack {e : Place ι} (h : e ∈ giveBack o u log) :
    e ∈ log ∨ ∃ e' ∈ log, e'.owner = o ∧ e = { e' with returnedAt := some u } := by
  rcases giveBack_cases o u log with ⟨-, heq⟩ | ⟨l₁, e₁, l₂, rfl, ho, -, -, heq⟩
  · rw [heq] at h
    exact .inl h
  rw [heq, mem_append, mem_cons] at h
  rcases h with h | rfl | h
  · exact .inl (List.mem_append_left _ h)
  · exact .inr ⟨e₁, by simp, ho, rfl⟩
  · exact .inl (List.mem_append_right _ (List.mem_cons_of_mem _ h))

theorem heldSince_giveBack_le (s : Int) (o : ι) (u : Int) (log : PlaceLog ι) :
    heldSince s (giveBack o u log) ≤ heldSince s log := by
  rcases giveBack_cases o u log with ⟨-, heq⟩ | ⟨l₁, e, l₂, rfl, -, -, -, heq⟩
  · rw [heq]
  · rw [heq]
    simp [heldSince, countP_append, countP_cons, Place.heldSince, Place.held]

theorem heldWithin_giveBack_le (s d : Int) (o : ι) (u : Int) (log : PlaceLog ι) :
    heldWithin s d (giveBack o u log) ≤ heldWithin s d log := by
  rcases giveBack_cases o u log with ⟨-, heq⟩ | ⟨l₁, e, l₂, rfl, -, -, -, heq⟩
  · rw [heq]
  · rw [heq]
    simp [heldWithin, countP_append, countP_cons, Place.heldWithin, Place.held]

theorem lateReturns_giveBack_le (s d : Int) (o : ι) (u : Int) (log : PlaceLog ι) :
    lateReturns s d log ≤ lateReturns s d (giveBack o u log) := by
  rcases giveBack_cases o u log with ⟨-, heq⟩ | ⟨l₁, e, l₂, rfl, -, hheld, -, heq⟩
  · rw [heq]
  rw [heq]
  simp only [Place.held, Option.isNone_iff_eq_none] at hheld
  simp [lateReturns, countP_append, countP_cons, Place.returnedLate, hheld]

/-- **A return in the interval counts once**: against a place taken in it, or as
    a late one. -/
theorem heldSince_giveBack {s d : Int} (ho : Holds o log) (hs : s ≤ u) (hd : u < s + d) :
    heldSince s (giveBack o u log) + lateReturns s d log + 1 =
      heldSince s log + lateReturns s d (giveBack o u log) := by
  rcases giveBack_cases o u log with ⟨hno, -⟩ | ⟨l₁, e, l₂, rfl, -, hheld, -, heq⟩
  · exact absurd ho hno
  rw [heq]
  simp only [Place.held, Option.isNone_iff_eq_none] at hheld
  by_cases ht : s ≤ e.time
  · have hlt : ¬ e.time < s := by omega
    simp [heldSince, lateReturns, countP_append, Place.heldSince, Place.returnedLate,
      Place.held, hheld, ht, hlt]
    omega
  have hlt : e.time < s := by omega
  simp [heldSince, lateReturns, countP_append, Place.heldSince, Place.returnedLate,
    Place.held, hheld, ht, hlt, hs, hd]
  omega

/-- `o` holds a place taken at `t`. -/
def HoldsAt (o : ι) (t : Int) (log : PlaceLog ι) : Prop :=
  ∃ e ∈ log, e.owner = o ∧ e.held = true ∧ e.time = t

omit [DecidableEq ι] in

omit [DecidableEq ι] in
theorem HoldsAt.take {o' : ι} {t t' : Int} (h : HoldsAt o t log) :
    HoldsAt o t (take o' t' log) := by
  obtain ⟨e, he, hrest⟩ := h
  exact ⟨e, mem_take.2 (.inl he), hrest⟩

omit [DecidableEq ι] in
theorem holdsAt_take (o : ι) (t : Int) (log : PlaceLog ι) : HoldsAt o t (take o t log) :=
  ⟨{ owner := o, time := t }, mem_take.2 (.inr rfl), rfl, rfl, rfl⟩

theorem HoldsAt.giveBack_ne {o' : ι} {t : Int} (h : HoldsAt o t log)
    (hne : o ≠ o') : HoldsAt o t (giveBack o' u log) := by
  obtain ⟨e, he, ho, hrest⟩ := h
  rcases giveBack_cases o' u log with ⟨-, heq⟩ | ⟨l₁, e₁, l₂, rfl, ho₁, -, -, heq⟩
  · rw [heq]
    exact ⟨e, he, ho, hrest⟩
  rw [heq]
  rcases mem_append.1 he with he | he
  · exact ⟨e, List.mem_append_left _ he, ho, hrest⟩
  rcases mem_cons.1 he with rfl | he
  · exact absurd (ho.symm.trans ho₁) hne
  · exact ⟨e, List.mem_append_right _ (List.mem_cons_of_mem _ he), ho, hrest⟩

theorem map_owner_giveBack (o : ι) (u : Int) (log : PlaceLog ι) :
    (giveBack o u log).map Place.owner = log.map Place.owner := by
  rcases giveBack_cases o u log with ⟨-, heq⟩ | ⟨l₁, e, l₂, rfl, -, -, -, heq⟩
  · rw [heq]
  · rw [heq]
    simp

theorem held_giveBack (hnd : (log.map Place.owner).Nodup) {e : Place ι} (he : e ∈ giveBack o u log)
    (hheld : e.held = true) : e ∈ log ∧ e.owner ≠ o := by
  rcases giveBack_cases o u log with ⟨hno, heq⟩ | ⟨l₁, e₁, l₂, rfl, ho, -, -, heq⟩
  · rw [heq] at he
    exact ⟨he, fun h => hno ⟨e, he, h, hheld⟩⟩
  rw [heq] at he
  rw [List.map_append, List.map_cons, ho, List.nodup_append] at hnd
  obtain ⟨-, hnd₂, hdis⟩ := hnd
  rcases mem_append.1 he with he | he
  · exact ⟨List.mem_append_left _ he,
      hdis _ (List.mem_map_of_mem he) _ List.mem_cons_self⟩
  rcases mem_cons.1 he with rfl | he
  · simp [Place.held] at hheld
  refine ⟨List.mem_append_right _ (List.mem_cons_of_mem _ he), ?_⟩
  rintro rfl
  exact (List.nodup_cons.1 hnd₂).1 (List.mem_map_of_mem he)

omit [DecidableEq ι] in
theorem length_le_heldWithin {s d : Int} {os : List ι} (hnd : os.Nodup)
    (h : ∀ o ∈ os, ∃ t, HoldsAt o t log ∧ s ≤ t ∧ t < s + d) : os.length ≤ heldWithin s d log := by
  have hsub : os ⊆ (log.filter (Place.heldWithin s d)).map Place.owner := by
    intro o ho
    obtain ⟨t, ⟨e, he, rfl, hheld, rfl⟩, hs, hd⟩ := h o ho
    refine List.mem_map_of_mem (List.mem_filter.2 ⟨he, ?_⟩)
    simp only [Place.heldWithin, hheld, hs, hd, decide_true, Bool.and_self]
  have hlen := (List.subperm_of_subset hnd hsub).length_le
  rwa [List.length_map, ← List.countP_eq_length_filter] at hlen

end PlaceLog
end NewApi.Lib
