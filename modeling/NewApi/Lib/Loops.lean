/-
  NewApi.Lib.Loops

  Three loops over a list: one that keeps an element unless its key was seen
  before, one that goes through the list in batches, and one in which every
  element writes the place that belongs to its key.
-/

import Mathlib.Data.List.Induction
import Mathlib.Data.List.Nodup

namespace NewApi.Lib

variable {α κ γ : Type*} [DecidableEq κ]

/-! ## The first of each key -/

variable (key : α → κ)

def keepNew (st : List κ × List α) (a : α) : List κ × List α :=
  if key a ∈ st.1 then st else (key a :: st.1, st.2 ++ [a])

/-- The elements of `l` whose key does not occur before them. -/
def keepFirst (l : List α) : List α := (l.foldl (keepNew key) ([], [])).2

/-- What the loop knows after the elements `l`. -/
structure Kept (key : α → κ) (l : List α) (st : List κ × List α) : Prop where
  seen : ∀ k, k ∈ st.1 ↔ ∃ a ∈ st.2, key a = k
  sub : ∀ a ∈ st.2, a ∈ l
  covers : ∀ a ∈ l, ∃ b ∈ st.2, key b = key a
  inj : ∀ a ∈ st.2, ∀ b ∈ st.2, key a = key b → a = b

theorem Kept.keepNew {key : α → κ} {l : List α} {st : List κ × List α} (h : Kept key l st)
    (a : α) : Kept key (l ++ [a]) (keepNew key st a) := by
  unfold Lib.keepNew
  by_cases hseen : key a ∈ st.1
  · rw [if_pos hseen]
    obtain ⟨b, hb, hkey⟩ := (h.seen _).1 hseen
    refine ⟨h.seen, fun c hc => List.mem_append_left _ (h.sub c hc), ?_, h.inj⟩
    intro c hc
    rcases List.mem_append.1 hc with hc | hc
    · exact h.covers c hc
    · rw [List.mem_singleton.1 hc]
      exact ⟨b, hb, hkey⟩
  rw [if_neg hseen]
  have hnew : ∀ b ∈ st.2, key b ≠ key a := fun b hb hkey => hseen ((h.seen _).2 ⟨b, hb, hkey⟩)
  refine ⟨?_, ?_, ?_, ?_⟩
  · intro k
    simp only [List.mem_cons, h.seen, List.mem_append, List.not_mem_nil, or_false]
    constructor
    · rintro (rfl | ⟨b, hb, hkey⟩)
      · exact ⟨a, Or.inr rfl, rfl⟩
      · exact ⟨b, Or.inl hb, hkey⟩
    rintro ⟨b, hb | rfl, hkey⟩
    · exact Or.inr ⟨b, hb, hkey⟩
    · exact Or.inl hkey.symm
  · intro c hc
    rcases List.mem_append.1 hc with hc | hc
    · exact List.mem_append_left _ (h.sub c hc)
    · exact List.mem_append_right _ hc
  · intro c hc
    rcases List.mem_append.1 hc with hc | hc
    · obtain ⟨b, hb, hkey⟩ := h.covers c hc
      exact ⟨b, List.mem_append_left _ hb, hkey⟩
    · exact ⟨c, List.mem_append_right _ hc, rfl⟩
  intro c hc b hb hkey
  simp only [List.mem_append, List.mem_singleton] at hc hb
  rcases hc with hc | rfl <;> rcases hb with hb | rfl
  · exact h.inj c hc b hb hkey
  · exact absurd hkey (hnew c hc)
  · exact absurd hkey.symm (hnew b hb)
  · rfl

theorem kept_keepFirst (l : List α) : Kept key l (l.foldl (keepNew key) ([], [])) := by
  induction l using List.reverseRecOn with
  | nil => exact ⟨by simp, by simp, by simp, by simp⟩
  | append_singleton l a ih =>
    rw [List.foldl_append]
    exact ih.keepNew a

theorem mem_of_mem_keepFirst {key : α → κ} {l : List α} {a : α} (h : a ∈ keepFirst key l) : a ∈ l :=
  (kept_keepFirst key l).sub a h

theorem exists_mem_keepFirst {l : List α} {a : α} (h : a ∈ l) :
    ∃ b ∈ keepFirst key l, key b = key a :=
  (kept_keepFirst key l).covers a h

theorem eq_of_mem_keepFirst {key : α → κ} {l : List α} {a b : α} (ha : a ∈ keepFirst key l)
    (hb : b ∈ keepFirst key l) (h : key a = key b) : a = b :=
  (kept_keepFirst key l).inj a ha b hb h

/-! ## Batches -/

/-- The list in batches of `n + 1`, the last one possibly shorter. -/
def batches (n : Nat) : List α → List (List α)
  | [] => []
  | a :: l => (a :: l.take n) :: batches n (l.drop n)
termination_by l => l.length
decreasing_by
  rw [List.length_drop, List.length_cons]
  omega

@[simp] theorem flatten_batches (n : Nat) (l : List α) : (batches n l).flatten = l := by
  fun_induction batches n l with
  | case1 => rfl
  | case2 a l ih => simp [ih]

/-! ## Every element writes its own place -/

/-- A writer that touches only the place of its key, and leaves there what it
    leaves in every place that was `Clean`. -/
structure OwnPlace (key : α → κ) (Clean : γ → Prop) (out : α → γ) (f : (κ → γ) → α → κ → γ) :
    Prop where
  own : ∀ t a, Clean (t (key a)) → f t a (key a) = out a
  frame : ∀ t a k, k ≠ key a → f t a k = t k

section

variable {key : α → κ} {Clean : γ → Prop} {out : α → γ} {f : (κ → γ) → α → κ → γ}

omit [DecidableEq κ] in
theorem OwnPlace.foldl_frame (hf : OwnPlace key Clean out f) {l : List α} {k : κ}
    (hk : ∀ a ∈ l, key a ≠ k) (t : κ → γ) : l.foldl f t k = t k := by
  induction l generalizing t with
  | nil => rfl
  | cons a l ih =>
    rw [List.foldl_cons, ih (fun b hb => hk b (List.mem_cons_of_mem _ hb))]
    exact hf.frame t a k (hk a List.mem_cons_self).symm

omit [DecidableEq κ] in
theorem OwnPlace.foldl_own (hf : OwnPlace key Clean out f) {l : List α}
    (hl : (l.map key).Nodup) {t : κ → γ} (ht : ∀ a ∈ l, Clean (t (key a))) :
    ∀ a ∈ l, l.foldl f t (key a) = out a := by
  induction l generalizing t with
  | nil => simp
  | cons a l ih =>
    rw [List.map_cons, List.nodup_cons] at hl
    have hne : ∀ b ∈ l, key b ≠ key a := fun b hb hkey =>
      hl.1 (hkey ▸ List.mem_map_of_mem hb)
    intro b hb
    rw [List.foldl_cons]
    rcases List.mem_cons.1 hb with rfl | hb
    · rw [hf.foldl_frame hne]
      exact hf.own t b (ht b List.mem_cons_self)
    refine ih hl.2 (fun c hc => ?_) b hb
    rw [hf.frame t a _ (hne c hc)]
    exact ht c (List.mem_cons_of_mem _ hc)

end

end NewApi.Lib
