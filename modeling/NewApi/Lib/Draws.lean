/-
  NewApi.Lib.Draws

  Weighted choice by a walk: a number below the total weight is used up along the
  list, and the entry where it runs out is chosen.  Over all such numbers every
  value is chosen as often as its entries weigh together.
-/

import Mathlib.Algebra.BigOperators.Group.List.Basic
import Mathlib.Algebra.GroupWithZero.Nat

namespace NewApi.Lib

variable {α : Type*}

variable (l : List (α × ℕ))

def totalWeight : ℕ := (l.map Prod.snd).sum

@[simp] theorem totalWeight_cons (e : α × ℕ) (l : List (α × ℕ)) :
    totalWeight (e :: l) = e.2 + totalWeight l := List.sum_cons

/-- The entry in which the number `r` is used up. -/
def pickAt : List (α × ℕ) → ℕ → Option α
  | [], _ => none
  | e :: l, r => if r < e.2 then some e.1 else pickAt l (r - e.2)

theorem pickAt_mem {l : List (α × ℕ)} {r : ℕ} (hr : r < totalWeight l) :
    ∃ e ∈ l, pickAt l r = some e.1 := by
  induction l generalizing r with
  | nil => exact absurd hr (Nat.not_lt_zero r)
  | cons e l ih =>
    by_cases h : r < e.2
    · exact ⟨e, List.mem_cons_self, if_pos h⟩
    rw [totalWeight_cons] at hr
    obtain ⟨e', he', hpick⟩ := ih (r := r - e.2) (by omega)
    exact ⟨e', List.mem_cons_of_mem e he', (if_neg h).trans hpick⟩

variable [DecidableEq α]

def weightOf (a : α) : ℕ := (l.map fun e => if e.1 = a then e.2 else 0).sum

/-- For how many of the numbers below `n` the outcome is `a`. -/
def drawsOf (n : ℕ) (f : ℕ → Option α) (a : α) : ℕ := (List.range n).countP fun r => f r = some a

theorem weightOf_cons (e : α × ℕ) (l : List (α × ℕ)) (a : α) :
    weightOf (e :: l) a = (if e.1 = a then e.2 else 0) + weightOf l a := List.sum_cons

theorem drawsOf_congr {n : ℕ} {f g : ℕ → Option α} (h : ∀ r < n, f r = g r) (a : α) :
    drawsOf n f a = drawsOf n g a := by
  refine List.countP_congr fun r hr => ?_
  rw [h r (List.mem_range.1 hr)]

theorem drawsOf_add (m n : ℕ) (f : ℕ → Option α) (a : α) :
    drawsOf (m + n) f a = drawsOf m f a + drawsOf n (fun r => f (m + r)) a := by
  unfold drawsOf
  rw [List.range_add, List.countP_append, List.countP_map]
  rfl

theorem drawsOf_const (n : ℕ) (b a : α) :
    drawsOf n (fun _ => some b) a = if b = a then n else 0 := by
  by_cases h : b = a
  · rw [if_pos h]
    refine (List.countP_eq_length.2 fun r _ => ?_).trans List.length_range
    exact decide_eq_true (congrArg some h)
  rw [if_neg h]
  refine List.countP_eq_zero.2 fun r _ => ?_
  rw [decide_eq_true_iff]
  exact fun hs => h (Option.some.inj hs)

/-- **Every value is chosen as often as its entries weigh.** -/
theorem drawsOf_pickAt (a : α) : drawsOf (totalWeight l) (pickAt l) a = weightOf l a := by
  induction l with
  | nil => rfl
  | cons e l ih =>
    have hfirst : drawsOf e.2 (pickAt (e :: l)) a = drawsOf e.2 (fun _ => some e.1) a :=
      drawsOf_congr (fun r hr => if_pos hr) a
    have hrest : (fun r => pickAt (e :: l) (e.2 + r)) = pickAt l := by
      funext r
      show (if e.2 + r < e.2 then _ else pickAt l (e.2 + r - e.2)) = _
      rw [if_neg (by omega), Nat.add_sub_cancel_left]
    rw [totalWeight_cons, drawsOf_add, hfirst, hrest, ih, drawsOf_const, weightOf_cons]

theorem exists_of_drawsOf_pos {n : ℕ} {f : ℕ → Option α} {a : α} (h : 0 < drawsOf n f a) :
    ∃ r < n, f r = some a := by
  obtain ⟨r, hr, hf⟩ := List.countP_pos_iff.1 h
  exact ⟨r, List.mem_range.1 hr, of_decide_eq_true hf⟩

theorem drawsOf_pred {n : ℕ} (hn : 0 < n) (f : ℕ → Option α) (a : α) :
    drawsOf n (fun r => f (r - 1)) a + (if f (n - 1) = some a then 1 else 0) =
      drawsOf n f a + if f 0 = some a then 1 else 0 := by
  obtain ⟨m, rfl⟩ : ∃ m, n = m + 1 := ⟨n - 1, by omega⟩
  have hone : ∀ g : ℕ → Option α, drawsOf 1 g a = if g 0 = some a then 1 else 0 := by
    intro g
    show List.countP _ [0] = _
    rw [List.countP_singleton]
    congr 1
    exact decide_eq_true_eq
  have hlast : drawsOf (m + 1) f a = drawsOf m f a + if f m = some a then 1 else 0 := by
    rw [drawsOf_add, hone]
    rfl
  have hfirst : drawsOf (m + 1) (fun r => f (r - 1)) a =
      (if f 0 = some a then 1 else 0) + drawsOf m f a := by
    rw [Nat.add_comm m 1, drawsOf_add, hone]
    congr 1
    exact drawsOf_congr (fun r _ => by rw [Nat.add_sub_cancel_left]) a
  rw [hlast, hfirst, Nat.add_sub_cancel]
  omega

end NewApi.Lib
