/-
  NewApi.Lib.Fallible

  Runs of a step that may fail: the run fails with its first step that does.

  `TryMeets` says of a run that every action meets a condition in the state it is
  taken in, as long as no step fails.  `tryRun_invariant` is the induction rule for
  it, and `exists_first_unmet` gives the first action that does not meet the
  condition, with the run before it and the run after it.  `tryRun_follows` is the
  simulation rule: a run that follows one of a total step does not fail.
-/

import NewApi.Lib.Run

namespace NewApi.Lib

variable {σ α ε : Type*}

/-- The state after the actions `as`, unless one of them fails. -/
def tryRun (step : σ → α → Except ε σ) : σ → List α → Except ε σ
  | s, [] => .ok s
  | s, a :: as => (step s a).bind fun s' => tryRun step s' as

/-- Every action of the run meets `C` in the state it is taken in. -/
def TryMeets (C : σ → α → Prop) (step : σ → α → Except ε σ) : σ → List α → Prop
  | _, [] => True
  | s, a :: as => C s a ∧ match step s a with
    | .ok s' => TryMeets C step s' as
    | .error _ => True

instance TryMeets.decidable (C : σ → α → Prop) [∀ s a, Decidable (C s a)]
    (step : σ → α → Except ε σ) : ∀ (s : σ) (as : List α), Decidable (TryMeets C step s as)
  | _, [] => instDecidableTrue
  | s, a :: as =>
    have : Decidable (match step s a with
        | .ok s' => TryMeets C step s' as
        | .error _ => True) :=
      match step s a with
      | .ok s' => TryMeets.decidable C step s' as
      | .error _ => instDecidableTrue
    inferInstanceAs (Decidable (C s a ∧ _))

variable {step : σ → α → Except ε σ} {C : σ → α → Prop}

theorem bind_eq_ok {β γ : Type*} {x : Except ε β} {f : β → Except ε γ} {c : γ} :
    x.bind f = .ok c ↔ ∃ b, x = .ok b ∧ f b = .ok c := by
  cases x with
  | ok b | error e => simp [Except.bind]

theorem exists_of_map_eq_ok {β γ : Type*} {x : Except ε β} {f : β → γ} {c : γ}
    (h : x.map f = .ok c) : ∃ b, x = .ok b ∧ f b = c := by
  cases x with
  | ok b => exact ⟨b, rfl, Except.ok.inj h⟩
  | error e => cases h

@[simp] theorem tryRun_nil (s : σ) : tryRun step s [] = .ok s := rfl

@[simp] theorem tryRun_singleton (s : σ) (a : α) : tryRun step s [a] = step s a := by
  show (step s a).bind _ = _
  cases step s a <;> rfl

theorem tryRun_cons_eq_ok {s s' : σ} {a : α} {as : List α} :
    tryRun step s (a :: as) = .ok s' ↔ ∃ t, step s a = .ok t ∧ tryRun step t as = .ok s' :=
  bind_eq_ok

theorem tryRun_append (s : σ) (as bs : List α) :
    tryRun step s (as ++ bs) = (tryRun step s as).bind fun t => tryRun step t bs := by
  induction as generalizing s with
  | nil => rfl
  | cons a as ih =>
    show (step s a).bind _ = ((step s a).bind _).bind _
    cases step s a with
    | ok t => exact ih t
    | error e => rfl

theorem tryRun_append_eq_ok {s s' : σ} {as bs : List α} : tryRun step s (as ++ bs) = .ok s' ↔
      ∃ t, tryRun step s as = .ok t ∧ tryRun step t bs = .ok s' := by
  rw [tryRun_append]
  exact bind_eq_ok

theorem foldlM_eq_tryRun (as : List α) (s : σ) : as.foldlM step s = tryRun step s as := by
  induction as generalizing s with
  | nil => rfl
  | cons a as ih =>
    rw [List.foldlM_cons]
    show (step s a).bind _ = (step s a).bind _
    cases step s a with
    | ok t => exact ih t
    | error e => rfl

theorem tryRun_flatMap {β : Type*} {big : σ → β → Except ε σ} {f : β → List α}
    (hbig : ∀ s b, big s b = tryRun step s (f b)) (bs : List β) (s : σ) :
    tryRun big s bs = tryRun step s (bs.flatMap f) := by
  induction bs generalizing s with
  | nil => rfl
  | cons b bs ih =>
    rw [List.flatMap_cons, tryRun_append, ← hbig]
    show (big s b).bind _ = (big s b).bind _
    cases big s b with
    | ok t => exact ih t
    | error e => rfl

/-- **Invariant rule.** What one conditioned step that succeeds keeps, a conditioned
    run that succeeds keeps. -/
theorem tryRun_invariant (Inv : σ → Prop)
    (hstep : ∀ s a s', Inv s → C s a → step s a = .ok s' → Inv s') {s s' : σ} {as : List α}
    (hs : Inv s) (has : TryMeets C step s as) (hrun : tryRun step s as = .ok s') : Inv s' := by
  induction as generalizing s with
  | nil =>
    cases hrun
    exact hs
  | cons a as ih =>
    obtain ⟨t, ht, hrest⟩ := tryRun_cons_eq_ok.1 hrun
    obtain ⟨hC, hmeets⟩ := has
    rw [ht] at hmeets
    exact ih (hstep s a t hs hC ht) hmeets hrest

theorem tryRun_invariant_all (Inv : σ → Prop)
    (hstep : ∀ s a s', Inv s → step s a = .ok s' → Inv s') {s s' : σ} {as : List α}
    (hs : Inv s) (hrun : tryRun step s as = .ok s') : Inv s' := by
  induction as generalizing s with
  | nil =>
    cases hrun
    exact hs
  | cons a as ih =>
    obtain ⟨t, ht, hrest⟩ := tryRun_cons_eq_ok.1 hrun
    exact ih (hstep s a t hs ht) hrest

/-- **Simulation rule.** When every conditioned action of a total step can be followed,
    so can a conditioned run. -/
theorem tryRun_follows {τ : Type*} (Rel : τ → σ → Prop) {C : τ → α → Prop} {next : τ → α → τ}
    (hstep : ∀ t s a, Rel t s → C t a → ∃ s', step s a = .ok s' ∧ Rel (next t a) s') {t : τ} {s : σ}
    {as : List α} (hs : Rel t s) (has : Meets C next t as) :
    ∃ s', tryRun step s as = .ok s' ∧ Rel (run next t as) s' := by
  induction as generalizing t s with
  | nil => exact ⟨s, rfl, hs⟩
  | cons a as ih =>
    obtain ⟨u, hu, hrel⟩ := hstep t s a hs has.1
    obtain ⟨s', hs', hrel'⟩ := ih hrel has.2
    exact ⟨s', tryRun_cons_eq_ok.2 ⟨u, hu, hs'⟩, hrel'⟩

theorem exists_first_unmet {s s' : σ} {as : List α} (hrun : tryRun step s as = .ok s')
    (hnot : ¬ TryMeets C step s as) :
    ∃ before a after t u, as = before ++ a :: after ∧ TryMeets C step s before ∧
      tryRun step s before = .ok t ∧ ¬ C t a ∧ step t a = .ok u ∧
      tryRun step u after = .ok s' := by
  induction as generalizing s with
  | nil => exact absurd trivial hnot
  | cons a as ih =>
    obtain ⟨t, ht, hrest⟩ := tryRun_cons_eq_ok.1 hrun
    by_cases hC : C s a
    · have hnot' : ¬ TryMeets C step t as := by
        intro h
        apply hnot
        refine ⟨hC, ?_⟩
        rw [ht]
        exact h
      obtain ⟨before, b, after, t', u, rfl, hmeets, hbefore, hb, hu, hafter⟩ := ih hrest hnot'
      refine ⟨a :: before, b, after, t', u, rfl, ?_, ?_, hb, hu, hafter⟩
      · refine ⟨hC, ?_⟩
        rw [ht]
        exact hmeets
      · exact tryRun_cons_eq_ok.2 ⟨t, ht, hbefore⟩
    · exact ⟨[], a, as, s, t, rfl, trivial, rfl, hC, ht, hrest⟩

end NewApi.Lib
