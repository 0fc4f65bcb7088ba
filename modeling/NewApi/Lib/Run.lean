/-
  NewApi.Lib.Run

  Runs of a deterministic labelled step function: the state reached by a list
  of actions, and runs whose every action meets a condition in the state it is
  taken in.

  An action carries everything the environment decides (which party moves,
  which statement fails, what a remote answers), so one `List α` is one
  interleaving and a statement over all lists is a statement over all of them.

  `run_invariant` is the induction rule every safety result goes through: an
  invariant that one conditioned step keeps holds in the state any conditioned
  run ends in, hence (`Meets.take`) in every state the run passes through.
-/

import Mathlib.Data.List.Basic

namespace NewApi.Lib

variable {σ α : Type*}

variable (step : σ → α → σ)

/-- The state after the actions `as`, taken left to right. -/
def run (s : σ) (as : List α) : σ := as.foldl step s

@[simp] theorem run_nil (s : σ) : run step s [] = s := rfl

@[simp] theorem run_cons (s : σ) (a : α) (as : List α) :
    run step s (a :: as) = run step (step s a) as := rfl

theorem run_append (s : σ) (as bs : List α) : run step s (as ++ bs) = run step (run step s as) bs :=
  List.foldl_append

/-- Every action of the run meets `C` in the state it is taken in. -/
def Meets (C : σ → α → Prop) (step : σ → α → σ) : σ → List α → Prop
  | _, [] => True
  | s, a :: as => C s a ∧ Meets C step (step s a) as

instance Meets.decidable (C : σ → α → Prop) [∀ s a, Decidable (C s a)]
    (step : σ → α → σ) : ∀ (s : σ) (as : List α), Decidable (Meets C step s as)
  | _, [] => instDecidableTrue
  | s, a :: as =>
    have := Meets.decidable C step (step s a) as
    inferInstanceAs (Decidable (C s a ∧ Meets C step (step s a) as))

@[simp] theorem meets_nil (C : σ → α → Prop) (step : σ → α → σ) (s : σ) :
    Meets C step s [] := trivial

variable {C : σ → α → Prop} {step : σ → α → σ} {s : σ} {as : List α}

theorem meets_append {bs : List α} :
    Meets C step s (as ++ bs) ↔ Meets C step s as ∧ Meets C step (run step s as) bs := by
  induction as generalizing s with
  | nil => simp
  | cons a as ih =>
    simp only [List.cons_append, Meets, run_cons, ih, and_assoc]

theorem Meets.take (h : Meets C step s as) (n : Nat) : Meets C step s (as.take n) := by
  induction as generalizing s n with
  | nil => simp
  | cons a as ih =>
    cases n with
    | zero => simp
    | succ n => exact ⟨h.1, ih h.2 n⟩

variable {D : σ → α → Prop}

theorem Meets.mono (hCD : ∀ s a, C s a → D s a)
     (h : Meets C step s as) : Meets D step s as := by
  induction as generalizing s with
  | nil => trivial
  | cons a as ih => exact ⟨hCD s a h.1, ih h.2⟩

theorem Meets.and (h : Meets C step s as) (h' : Meets D step s as) :
    Meets (fun s a => C s a ∧ D s a) step s as := by
  induction as generalizing s with
  | nil => trivial
  | cons a as ih => exact ⟨⟨h.1, h'.1⟩, ih h.2 h'.2⟩

variable (Inv : σ → Prop)

/-- **Invariant rule.** What one conditioned step keeps, a conditioned run keeps. -/
theorem run_invariant (hstep : ∀ s a, Inv s → C s a → Inv (step s a))
    (hs : Inv s) (has : Meets C step s as) : Inv (run step s as) := by
  induction as generalizing s with
  | nil => exact hs
  | cons a as ih => exact ih (hstep s a hs has.1) has.2

theorem run_invariant_all (hstep : ∀ s a, Inv s → Inv (step s a)) (as : List α)
    (hs : Inv s) : Inv (run step s as) := by
  induction as generalizing s with
  | nil => exact hs
  | cons a as ih => exact ih (hstep s a hs)

theorem meets_of_forall {P : α → Prop} (h : ∀ a ∈ as, P a) : Meets (fun _ a => P a) step s as := by
  induction as generalizing s with
  | nil => trivial
  | cons a as ih =>
    exact ⟨h a List.mem_cons_self, ih fun b hb => h b (List.mem_cons_of_mem _ hb)⟩

theorem meets_of_invariant (hC : ∀ s a, Inv s → C s a) (hstep : ∀ s a, Inv s → Inv (step s a))
    (hs : Inv s) (as : List α) : Meets C step s as := by
  induction as generalizing s with
  | nil => trivial
  | cons a as ih => exact ⟨hC s a hs, ih (hstep s a hs)⟩

theorem Meets.of_invariant
    (hD : ∀ s a, Inv s → C s a → D s a) (hstep : ∀ s a, Inv s → C s a → Inv (step s a))
    (hs : Inv s) (h : Meets C step s as) : Meets D step s as := by
  induction as generalizing s with
  | nil => trivial
  | cons a as ih => exact ⟨hD s a hs h.1, ih (hstep s a hs h.1) h.2⟩

theorem meets_congr_of_invariant
    (hstep : ∀ s a, Inv s → Inv (step s a)) (hCD : ∀ s a, Inv s → (C s a ↔ D s a))
    (hs : Inv s) (as : List α) : Meets C step s as ↔ Meets D step s as := by
  induction as generalizing s with
  | nil => rfl
  | cons a as ih => exact and_congr (hCD s a hs) (ih (hstep s a hs))

/-- **Exactness rule.** When the condition says of each single step whether the
    invariant survives it, the runs all of whose states meet the invariant are
    the conditioned ones. -/
theorem forall_take_iff_meets
    (hstep : ∀ s a, Inv s → (Inv (step s a) ↔ C s a)) (hs : Inv s) (as : List α) :
    (∀ n, Inv (run step s (as.take n))) ↔ Meets C step s as := by
  constructor
  · intro h
    induction as generalizing s with
    | nil => trivial
    | cons a as ih =>
      have h1 : Inv (step s a) := h 1
      exact ⟨(hstep s a hs).1 h1, ih h1 fun n => h (n + 1)⟩
  · intro h n
    exact run_invariant Inv (fun s a hi hc => (hstep s a hi).2 hc) hs (h.take n)

/-! ## What a run has passed through -/

/-- `P` holds in some state the run has passed through. -/
def Once (step : σ → α → σ) (s : σ) (P : σ → Prop) (as : List α) : Prop :=
  ∃ bs, bs <+: as ∧ P (run step s bs)

/-- `P` holds in some state the run has passed through, and `Q` from there on. -/
def Since (step : σ → α → σ) (s : σ) (P Q : σ → Prop) (as : List α) : Prop :=
  ∃ bs cs, as = bs ++ cs ∧ P (run step s bs) ∧ ∀ ds, ds <+: cs → Q (run step s (bs ++ ds))

variable {P : σ → Prop}

theorem once_nil : Once step s P [] ↔ P s := by
  simp [Once]

theorem once_snoc {a : α} :
    Once step s P (as ++ [a]) ↔ Once step s P as ∨ P (run step s (as ++ [a])) := by
  constructor
  · rintro ⟨bs, hbs, hP⟩
    rcases List.prefix_concat_iff.1 hbs with rfl | hbs
    · exact Or.inr hP
    · exact Or.inl ⟨bs, hbs, hP⟩
  rintro (⟨bs, hbs, hP⟩ | hP)
  · exact ⟨bs, hbs.trans (List.prefix_append as [a]), hP⟩
  · exact ⟨_, List.prefix_refl _, hP⟩

theorem Once.now (h : P (run step s as)) : Once step s P as := ⟨as, List.prefix_refl as, h⟩

theorem Since.of_step {Q : σ → Prop} {a : α}
    (hP : P (run step s as)) (hQ : Q (run step s as)) (hQ' : Q (run step s (as ++ [a]))) :
    Since step s P Q (as ++ [a]) := by
  refine ⟨as, [a], rfl, hP, ?_⟩
  intro ds hds
  have hds' : ds <+: [] ++ [a] := hds
  rcases List.prefix_concat_iff.1 hds' with rfl | hds
  · exact hQ'
  · rw [List.prefix_nil.1 hds, List.append_nil]
    exact hQ

theorem Since.snoc {Q : σ → Prop} {a : α}
    (h : Since step s P Q as) (hQ : Q (run step s (as ++ [a]))) : Since step s P Q (as ++ [a]) := by
  obtain ⟨bs, cs, rfl, hP, hcs⟩ := h
  refine ⟨bs, cs ++ [a], List.append_assoc bs cs [a], hP, ?_⟩
  intro ds hds
  rcases List.prefix_concat_iff.1 hds with rfl | hds
  · rw [← List.append_assoc]
    exact hQ
  · exact hcs ds hds

end NewApi.Lib
