/-
  NewApi.Lib.Orbit

  A loop that goes from a value to the next while a condition holds of it, and keeps the
  one before: `walk`.  It ends exactly if the orbit of the value leaves the condition;
  where the condition holds of finitely many values it ends from every value, unless some
  value comes back to itself.
-/

import Mathlib.Data.Set.Finite.Basic

namespace NewApi.Lib

variable {α : Type*} {f : α → α} {P Q : α → Prop}

/-- `for P(next) { base = next; next = f(base) }`, with a bound on the rounds. -/
def walk (f : α → α) (P : α → Prop) [DecidablePred P] : Nat → α → α → Option (α × α)
  | 0, _, _ => none
  | n + 1, base, next => if P next then walk f P n next (f next) else some (base, next)

def Returns (f : α → α) (P : α → Prop) (x : α) : Prop :=
  ∃ n, 0 < n ∧ f^[n] x = x ∧ ∀ i < n, P (f^[i] x)

section Walk

variable [DecidablePred P] [DecidablePred Q]

variable {n : Nat} {b x : α} {r : α × α}

theorem walk_mono {m : Nat} (h : walk f P n b x = some r) (hm : n ≤ m) :
    walk f P m b x = some r := by
  induction n generalizing m b x with
  | zero => cases h
  | succ n ih =>
    obtain ⟨m, rfl⟩ : ∃ k, m = k + 1 := ⟨m - 1, by omega⟩
    unfold walk at h ⊢
    split
    · rename_i hx
      rw [if_pos hx] at h
      exact ih h (by omega)
    rename_i hx
    rw [if_neg hx] at h
    exact h

theorem walk_stops (h : walk f P n b x = some r) : ¬P r.2 ∧ (¬P x ∧ r = (b, x) ∨
      P x ∧ P r.1 ∧ r.2 = f r.1 ∧ (r.1 = x ∨ ∃ y, P y ∧ r.1 = f y)) := by
  induction n generalizing b x with
  | zero => cases h
  | succ n ih =>
    unfold walk at h
    by_cases hx : P x
    · rw [if_pos hx] at h
      obtain ⟨hstop, hlast⟩ := ih h
      refine ⟨hstop, .inr ⟨hx, ?_⟩⟩
      rcases hlast with ⟨-, rfl⟩ | ⟨-, hr, hnext, hfirst | hfrom⟩
      · exact ⟨hx, rfl, .inl rfl⟩
      · exact ⟨hr, hnext, .inr ⟨x, hx, hfirst⟩⟩
      · exact ⟨hr, hnext, .inr hfrom⟩
    rw [if_neg hx] at h
    cases h
    exact ⟨hx, .inl ⟨hx, rfl⟩⟩

theorem walk_of_not (hx : ¬P x) (h : walk f P n b x = some r) : r = (b, x) := by
  obtain ⟨-, ⟨-, hr⟩ | ⟨hx', -⟩⟩ := walk_stops h
  · exact hr
  · exact absurd hx' hx

theorem walk_of_leaves (h : ¬P (f^[n] x)) : ∃ r, walk f P (n + 1) b x = some r := by
  induction n generalizing b x with
  | zero => exact ⟨(b, x), if_neg h⟩
  | succ n ih =>
    unfold walk
    by_cases hx : P x
    · rw [if_pos hx]
      exact ih h
    · exact ⟨(b, x), if_neg hx⟩

theorem walk_of_stays (h : ∀ i, P (f^[i] x)) (n : Nat) : walk f P n b x = none := by
  induction n generalizing b x with
  | zero => rfl
  | succ n ih =>
    have hx : P x := h 0
    unfold walk
    rw [if_pos hx]
    exact ih fun i => h (i + 1)

theorem walk_split (hPQ : ∀ x, P x → Q x) (h : walk f Q n b x = some r) :
    ∃ r', walk f P n b x = some r' ∧ walk f Q n r'.1 r'.2 = some r := by
  induction n generalizing b x with
  | zero => cases h
  | succ n ih =>
    by_cases hx : P x
    · have h' := h
      unfold walk at h' ⊢
      rw [if_pos (hPQ x hx)] at h'
      rw [if_pos hx]
      obtain ⟨r', hr', hrest⟩ := ih h'
      exact ⟨r', hr', walk_mono hrest (Nat.le_succ n)⟩
    · exact ⟨(b, x), if_neg hx, h⟩

end Walk

/-! ## Coming back -/

theorem iterate_add_mul_return {x : α} {n : Nat} (h : f^[n] x = x) (i k : Nat) :
    f^[i + n * k] x = f^[i] x := by
  induction k with
  | zero => rfl
  | succ k ih =>
    rw [Nat.mul_succ, ← Nat.add_assoc, Function.iterate_add_apply, h]
    exact ih

theorem Returns.stays {x : α} (h : Returns f P x) (i : Nat) : P (f^[i] x) := by
  obtain ⟨n, hpos, hback, hP⟩ := h
  have hmod := iterate_add_mul_return hback (i % n) (i / n)
  rw [Nat.mod_add_div] at hmod
  rw [hmod]
  exact hP _ (Nat.mod_lt i hpos)

theorem exists_leaves (hfin : {x | P x}.Finite) (hno : ∀ x, ¬Returns f P x) (x : α) :
    ∃ n, ¬P (f^[n] x) := by
  by_contra hstay
  have hP : ∀ n, P (f^[n] x) := fun n => not_not.1 fun h => hstay ⟨n, h⟩
  have hinj : ¬Function.Injective fun n => f^[n] x :=
    fun hinj => Set.infinite_of_injective_forall_mem hinj hP hfin
  have hback : ∀ i j, i < j → f^[i] x = f^[j] x → False := by
    intro i j hij heq
    refine hno (f^[i] x) ⟨j - i, by omega, ?_, fun k _ => ?_⟩
    · rw [← Function.iterate_add_apply, Nat.sub_add_cancel (Nat.le_of_lt hij)]
      exact heq.symm
    · rw [← Function.iterate_add_apply]
      exact hP _
  refine hinj fun i j heq => ?_
  rcases lt_trichotomy i j with h | h | h
  · exact absurd heq (hback i j h)
  · exact h
  · exact absurd heq.symm (hback j i h)

theorem not_returns_of_lt {β : Type*} [Preorder β] (μ : α → β)
    (h : ∀ x, P x → P (f x) → μ x < μ (f x)) (x : α) : ¬Returns f P x := by
  rintro hret
  have hup : ∀ n, 0 < n → μ x < μ (f^[n] x) := by
    intro n hpos
    induction n with
    | zero => omega
    | succ n ih =>
      have hnext := hret.stays (n + 1)
      rw [Function.iterate_succ_apply'] at hnext ⊢
      have hstep := h (f^[n] x) (hret.stays n) hnext
      rcases Nat.eq_zero_or_pos n with rfl | hn
      · exact hstep
      · exact lt_trans (ih hn) hstep
  obtain ⟨n, hpos, hback, -⟩ := hret
  have hlt := hup n hpos
  rw [hback] at hlt
  exact lt_irrefl _ hlt

end NewApi.Lib
