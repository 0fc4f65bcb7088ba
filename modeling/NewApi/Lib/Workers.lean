/-
  NewApi.Lib.Workers

  Workers over one shared state: any number of them, each in its own phase,
  one atomic step of one worker at a time.

  A worker's step sees the shared state and its own phase and nothing else, so
  the phase of every other worker is untouched (`step_proc_of_ne`).  An
  invariant is a shared part and one assertion for each worker; to keep it, a
  step re-establishes its own assertion and does not disturb the others'
  (`Holds.step`, the Owicki-Gries rule), and then so does every run
  (`Holds.run`).

  Where each worker owes an amount that its phase says, `Covers` bounds what any
  finitely many of them owe together by a total; `Covers.step` is the rule for
  one step, which only looks at the worker that moves.
-/

import NewApi.Lib.Run
import Mathlib.Algebra.BigOperators.Group.Finset.Basic

namespace NewApi.Lib

variable {σ ι φ α : Type*}

/-- A shared state and the phase of each worker. -/
structure Workers (σ ι φ : Type*) where
  shared : σ
  proc : ι → φ

namespace Workers

variable [DecidableEq ι]

variable (f : ι → σ → φ → α → σ × φ)

variable (w : Workers σ ι φ)

/-- Worker `a.1` takes the step `a.2`. -/
def step (a : ι × α) : Workers σ ι φ :=
  let out := f a.1 w.shared (w.proc a.1) a.2
  { shared := out.1, proc := Function.update w.proc a.1 out.2 }

@[simp] theorem step_shared (i : ι) (a : α) :
    (w.step f (i, a)).shared = (f i w.shared (w.proc i) a).1 := rfl

@[simp] theorem step_proc_self (i : ι)
    (a : α) : (w.step f (i, a)).proc i = (f i w.shared (w.proc i) a).2 := by
  simp [step]

theorem step_proc_of_ne {i j : ι} (h : j ≠ i) (a : α) : (w.step f (i, a)).proc j = w.proc j := by
  simp [step, h]

theorem run_solo (i : ι) (as : List α) :
    ((run (step f) w (as.map (i, ·))).shared, (run (step f) w (as.map (i, ·))).proc i) =
      as.foldl (fun p a => f i p.1 p.2 a) (w.shared, w.proc i) := by
  induction as generalizing w with
  | nil => rfl
  | cons a as ih =>
    rw [List.map_cons, run_cons, ih, step_shared, step_proc_self, List.foldl_cons]

/-- The invariant shape: a shared part, and an assertion about each worker. -/
def Holds (I : σ → Prop) (P : σ → ι → φ → Prop) (w : Workers σ ι φ) : Prop :=
  I w.shared ∧ ∀ i, P w.shared i (w.proc i)

variable {f : ι → σ → φ → α → σ × φ} {w : Workers σ ι φ}

/-- **Owicki-Gries, one step.**  The step keeps the shared part and its own
    assertion, and leaves every other worker's assertion true. -/
theorem Holds.step {I : σ → Prop} {P : σ → ι → φ → Prop} (h : w.Holds I P) (i : ι) (a : α)
    (hself : I (f i w.shared (w.proc i) a).1 ∧
      P (f i w.shared (w.proc i) a).1 i (f i w.shared (w.proc i) a).2)
    (hother : ∀ j, j ≠ i → P w.shared j (w.proc j) →
      P (f i w.shared (w.proc i) a).1 j (w.proc j)) : (w.step f (i, a)).Holds I P := by
  refine ⟨hself.1, fun j => ?_⟩
  by_cases hj : j = i
  · subst hj
    rw [step_proc_self]
    exact hself.2
  · rw [step_proc_of_ne f w hj a]
    exact hother j hj (h.2 j)

/-- **Owicki-Gries, runs.** -/
theorem Holds.run {I : σ → Prop} {P : σ → ι → φ → Prop} {C : Workers σ ι φ → ι × α → Prop}
    (hself : ∀ w i a, w.Holds I P → C w (i, a) → I (f i w.shared (w.proc i) a).1 ∧
      P (f i w.shared (w.proc i) a).1 i (f i w.shared (w.proc i) a).2)
    (hother : ∀ w i a, w.Holds I P → C w (i, a) → ∀ j, j ≠ i → P w.shared j (w.proc j) →
      P (f i w.shared (w.proc i) a).1 j (w.proc j)) {as : List (ι × α)} (h : w.Holds I P)
    (has : Meets C (Workers.step f) w as) : (run (Workers.step f) w as).Holds I P :=
  run_invariant (Holds I P)
    (fun w a hw hc => hw.step a.1 a.2 (hself w a.1 a.2 hw hc) (hother w a.1 a.2 hw hc)) h has

/-- **Rely-guarantee.**  A step of worker `i` changes the shared state only as
    `R i` says, and an assertion about one worker survives what `R` lets the
    others do. -/
theorem Holds.run_rely {I : σ → Prop} {P : σ → ι → φ → Prop}
    {R : ι → σ → σ → Prop} {C : Workers σ ι φ → ι × α → Prop}
    (hself : ∀ w i a, w.Holds I P → C w (i, a) → I (f i w.shared (w.proc i) a).1 ∧
      P (f i w.shared (w.proc i) a).1 i (f i w.shared (w.proc i) a).2 ∧
      R i w.shared (f i w.shared (w.proc i) a).1)
    (hstable : ∀ i j s s' x, j ≠ i → I s → I s' → R i s s' → P s j x → P s' j x)
    {as : List (ι × α)} (h : w.Holds I P)
    (has : Meets C (Workers.step f) w as) : (NewApi.Lib.run (Workers.step f) w as).Holds I P := by
  refine Holds.run (fun w i a hw hc => ?_) (fun w i a hw hc j hj hP => ?_) h has
  · obtain ⟨hI, hP, -⟩ := hself w i a hw hc
    exact ⟨hI, hP⟩
  · obtain ⟨hI, -, hR⟩ := hself w i a hw hc
    exact hstable i j _ _ _ hj hw.1 hI hR hP

/-- `x`, and what any finitely many workers owe, fit into `total`. -/
def Covers (owed : φ → ℤ) (w : Workers σ ι φ) (x total : ℤ) : Prop :=
  ∀ S : Finset ι, x + ∑ j ∈ S, owed (w.proc j) ≤ total

omit [DecidableEq ι] in
theorem Covers.le {owed : φ → ℤ} {x total : ℤ} (h : w.Covers owed x total) : x ≤ total := by
  have h0 := h ∅
  rw [Finset.sum_empty, add_zero] at h0
  exact h0

omit [DecidableEq ι] in
theorem covers_of_owes_nothing {owed : φ → ℤ} {x total : ℤ}
    (h0 : ∀ i, owed (w.proc i) = 0) (h : x ≤ total) : w.Covers owed x total := by
  intro S
  rw [Finset.sum_eq_zero fun i _ => h0 i, add_zero]
  exact h

theorem sum_step (f : ι → σ → φ → α → σ × φ) (owed : φ → ℤ) (w : Workers σ ι φ) (i : ι)
    (a : α) {S : Finset ι} (hi : i ∈ S) :
    ∑ j ∈ S, owed ((w.step f (i, a)).proc j) + owed (w.proc i) =
      ∑ j ∈ S, owed (w.proc j) + owed (f i w.shared (w.proc i) a).2 := by
  have hrest : ∑ j ∈ S.erase i, owed ((w.step f (i, a)).proc j) =
      ∑ j ∈ S.erase i, owed (w.proc j) := by
    refine Finset.sum_congr rfl fun j hj => ?_
    rw [step_proc_of_ne f w (Finset.ne_of_mem_erase hj) a]
  rw [← Finset.add_sum_erase S _ hi, ← Finset.add_sum_erase S (fun j => owed (w.proc j)) hi,
    hrest, step_proc_self]
  omega

/-- **Covers, one step.**  Enough that the moving worker's own change fits. -/
theorem Covers.step {owed : φ → ℤ}
    {x x' total total' : ℤ} (h : w.Covers owed x total) (i : ι) (a : α)
    (hnn : 0 ≤ owed (f i w.shared (w.proc i) a).2)
    (hle : x' + owed (f i w.shared (w.proc i) a).2 + total ≤ x + owed (w.proc i) + total') :
    (w.step f (i, a)).Covers owed x' total' := by
  intro S
  have hold := h (insert i S)
  have hsum := sum_step f owed w i a (Finset.mem_insert_self i S)
  by_cases hi : i ∈ S
  · rw [Finset.insert_eq_of_mem hi] at hold hsum
    omega
  · rw [Finset.sum_insert hi, step_proc_self] at hsum
    omega

end Workers

end NewApi.Lib
