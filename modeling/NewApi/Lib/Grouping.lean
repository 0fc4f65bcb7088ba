/-
  NewApi.Lib.Grouping

  A list regrouped by a key.

    * `lastBy` — the map that a loop `m[f x] = x` leaves: the last one of a key;
    * `perm_groups` — the groups of the keys, one after the other, are the list.

  The map forgets nothing exactly as long as no two of the list share a key
  (`lastBy_self_iff`).
-/

import Mathlib.Data.List.Nodup
import Mathlib.Data.List.Perm.Basic

namespace NewApi.Lib

variable {α κ : Type*} [DecidableEq κ]

/-- What `m[k]` is after `m[f x] = x` for every `x` of the list. -/
def lastBy (f : α → κ) (l : List α) (k : κ) : Option α := l.reverse.find? (f · = k)

theorem lastBy_concat (f : α → κ) (l : List α) (x : α) :
    lastBy f (l ++ [x]) = Function.update (lastBy f l) (f x) (some x) := by
  funext k
  rw [lastBy, List.reverse_append, List.reverse_singleton, List.singleton_append,
    List.find?_cons]
  by_cases h : f x = k
  · subst h
    simp
  · rw [Function.update_of_ne (Ne.symm h)]
    simp [h, lastBy]

theorem lastBy_eq_some {f : α → κ} {l : List α} {k : κ} {x : α} (h : lastBy f l k = some x) :
    x ∈ l ∧ f x = k := by
  have hmem := List.mem_of_find?_eq_some h
  have hkey := List.find?_some h
  exact ⟨List.mem_reverse.1 hmem, of_decide_eq_true hkey⟩

theorem lastBy_isSome {f : α → κ} {l : List α} {x : α} (hx : x ∈ l) :
    ∃ y, lastBy f l (f x) = some y := by
  have h : (lastBy f l (f x)).isSome := by
    rw [lastBy, List.find?_isSome]
    exact ⟨x, List.mem_reverse.2 hx, by simp⟩
  exact Option.isSome_iff_exists.1 h

/-- **Nothing is overwritten** exactly where no two share a key. -/
theorem lastBy_self_iff {f : α → κ} {l : List α} :
    (∀ x ∈ l, lastBy f l (f x) = some x) ↔ ∀ x ∈ l, ∀ y ∈ l, f x = f y → x = y := by
  constructor
  · intro h x hx y hy hkey
    have hxy := h x hx
    rw [hkey, h y hy] at hxy
    exact (Option.some.inj hxy).symm
  intro h x hx
  obtain ⟨y, hy⟩ := lastBy_isSome (f := f) hx
  obtain ⟨hmem, hkey⟩ := lastBy_eq_some hy
  rw [hy, h y hmem x hx hkey]

/-- **The groups of the keys are the list.** -/
theorem perm_groups {f : α → κ} {keys : List κ} (hkeys : keys.Nodup) :
    ∀ l : List α, (∀ x ∈ l, f x ∈ keys) →
      (keys.flatMap fun k => l.filter (f · = k)).Perm l := by
  induction keys with
  | nil =>
    intro l hl
    rw [List.eq_nil_iff_forall_not_mem.2 fun x hx => absurd (hl x hx) List.not_mem_nil]
    exact .refl _
  | cons k keys ih =>
    intro l hl
    obtain ⟨hk, hkeys⟩ := List.nodup_cons.1 hkeys
    -- the other groups are those of the rest of the list
    have hrest : (keys.flatMap fun k' => l.filter (f · = k')) =
        keys.flatMap fun k' => (l.filter fun x => !decide (f x = k)).filter (f · = k') := by
      refine List.flatMap_congr fun k' hk' => ?_
      rw [List.filter_filter]
      refine List.filter_congr fun x _ => ?_
      have hne : k' ≠ k := fun h => hk (h ▸ hk')
      by_cases hx : f x = k'
      · simp [hx, hne]
      · simp [hx]
    have hmem : ∀ x ∈ l.filter fun x => !decide (f x = k), f x ∈ keys := by
      intro x hx
      obtain ⟨hx, hne⟩ := List.mem_filter.1 hx
      rcases List.mem_cons.1 (hl x hx) with h | h
      · simp [h] at hne
      · exact h
    rw [List.flatMap_cons, hrest]
    exact ((ih hkeys _ hmem).append_left _).trans (List.filter_append_perm _ _)

end NewApi.Lib
