/-
  NewApi.Lib.Recent

  The most recently used values, at most `capacity` of them, the latest first.

  A use moves its value to the front, and what does not fit any more goes.  After
  any uses the list is the last `capacity` distinct ones (`foldl_use_recent`), so
  it is unchanged by uses of which one was new only where they are more than fit
  and the list was their last ones already (`foldl_use_eq_self_iff`).
-/

import Mathlib.Data.List.Nodup

namespace NewApi.Lib

open List (eraseDups_cons filter_filter nodup_cons take_succ_cons)

variable {α : Type*} [DecidableEq α]

theorem length_filter_lt (a : α) (l : List α) :
    (l.filter fun b => !b == a).length < (a :: l).length := by
  have := List.length_filter_le (fun b => !b == a) l
  rw [List.length_cons]
  omega

theorem eraseDups_filter (p : α → Bool) (l : List α) :
    (l.filter p).eraseDups = l.eraseDups.filter p := by
  match l with
  | [] => rfl
  | a :: l =>
    have hshort := length_filter_lt a l
    rw [eraseDups_cons]
    by_cases ha : p a = true
    · rw [List.filter_cons_of_pos ha, List.filter_cons_of_pos ha, eraseDups_cons,
        ← eraseDups_filter p, filter_filter, filter_filter]
      simp only [Bool.and_comm]
    rw [List.filter_cons_of_neg ha, List.filter_cons_of_neg ha, ← eraseDups_filter p,
      filter_filter]
    congr 1
    refine List.filter_congr fun b _ => ?_
    -- what passes is not `a`
    by_cases hb : b = a
    · rw [hb, Bool.eq_false_iff.2 ha, Bool.false_and]
    · simp [hb]
termination_by l.length
decreasing_by all_goals exact hshort

theorem nodup_eraseDups (l : List α) : l.eraseDups.Nodup := by
  match l with
  | [] => exact List.nodup_nil
  | a :: l =>
    have hshort := length_filter_lt a l
    rw [eraseDups_cons]
    refine nodup_cons.2 ⟨?_, nodup_eraseDups _⟩
    simp
termination_by l.length
decreasing_by all_goals exact hshort

theorem eraseDups_of_nodup {l : List α} (h : l.Nodup) : l.eraseDups = l := by
  induction l with
  | nil => rfl
  | cons a l ih =>
    rw [nodup_cons] at h
    rw [eraseDups_cons, eraseDups_filter, ih h.2]
    congr 1
    refine List.filter_eq_self.2 fun b hb => ?_
    have hne : b ≠ a := fun hba => h.1 (hba ▸ hb)
    simp [hne]

variable (capacity : Nat)

/-- A use of `x`. -/
def use (l : List α) (x : α) : List α := (x :: l.erase x).take capacity

def recent (history : List α) : List α := history.eraseDups.take capacity

theorem use_take {l : List α} (h : l.Nodup) (capacity : Nat) (x : α) :
    use capacity (l.take capacity) x = use capacity l x := by
  unfold use
  cases capacity with
  | zero => rfl
  | succ n =>
    rw [take_succ_cons, take_succ_cons]
    congr 1
    induction l generalizing n with
    | nil => rfl
    | cons a l ih =>
      rw [nodup_cons] at h
      rw [take_succ_cons]
      by_cases ha : a = x
      · rw [ha, List.erase_cons_head, List.erase_cons_head, List.take_take, Nat.min_self]
      rw [List.erase_cons_tail (by simpa using ha), List.erase_cons_tail (by simpa using ha)]
      cases n with
      | zero => rfl
      | succ n => rw [take_succ_cons, take_succ_cons, ih h.2]

theorem use_recent (history : List α) (x : α) :
    use capacity (recent capacity history) x = recent capacity (x :: history) := by
  rw [recent, use_take (nodup_eraseDups _), use, recent, eraseDups_cons, eraseDups_filter,
    (nodup_eraseDups history).erase_eq_filter]
  rfl

/-- **The list after uses is what was used last.** -/
theorem foldl_use_recent (xs history : List α) : xs.foldl (use capacity) (recent capacity history) =
      recent capacity (xs.reverse ++ history) := by
  induction xs generalizing history with
  | nil => rfl
  | cons x xs ih =>
    rw [List.foldl_cons, use_recent, ih, List.reverse_cons, List.append_assoc,
      List.singleton_append]

theorem recent_of_nodup {capacity : Nat} {l : List α} (h : l.Nodup) (hle : l.length ≤ capacity) :
    recent capacity l = l := by
  rw [recent, eraseDups_of_nodup h, List.take_of_length_le hle]

/-- **Uses with a new value among them change the list**, unless there are more
    than fit and the list was the last of them. -/
theorem foldl_use_eq_self_iff {capacity : Nat} {l xs : List α} (h : l.Nodup)
    (hle : l.length ≤ capacity) (hnew : ∃ x ∈ xs, x ∉ l) : xs.foldl (use capacity) l = l ↔
      capacity < xs.reverse.eraseDups.length ∧ recent capacity xs.reverse = l := by
  have hfold := foldl_use_recent capacity xs l
  rw [recent_of_nodup h hle, recent, List.eraseDups_append] at hfold
  by_cases hfits : xs.reverse.eraseDups.length ≤ capacity
  · refine iff_of_false ?_ fun hboth => absurd hboth.1 (by omega)
    intro hself
    -- all of them are in the list at the end
    obtain ⟨x, hx, hxl⟩ := hnew
    apply hxl
    rw [← hself, hfold, List.take_append, List.take_of_length_le hfits]
    refine List.mem_append_left _ ?_
    rwa [List.mem_eraseDups, List.mem_reverse]
  · rw [hfold, List.take_append_of_le_length (by omega)]
    exact ⟨fun hself => ⟨by omega, hself⟩, fun hboth => hboth.2⟩

end NewApi.Lib
