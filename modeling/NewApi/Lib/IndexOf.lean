/-
  NewApi.Lib.IndexOf

  `strings.Index` on lists.
-/

import Mathlib.Data.List.Basic

namespace NewApi.Lib

variable {α : Type*} [DecidableEq α]

/-- `strings.Index` -/
def indexOf (s t : List α) : Option ℕ :=
  if t.isPrefixOf s then some 0
  else match s with
    | [] => none
    | _ :: rest => (indexOf rest t).map (· + 1)

theorem indexOf_eq_some {s t : List α} {i : ℕ} (h : indexOf s t = some i) :
    ∃ a b, s = a ++ (t ++ b) ∧ a.length = i := by
  induction s generalizing i with
  | nil =>
    unfold indexOf at h
    split at h
    · rename_i ht
      obtain ⟨b, hb⟩ := List.isPrefixOf_iff_prefix.1 ht
      cases h
      exact ⟨[], b, hb.symm, rfl⟩
    · cases h
  | cons x rest ih =>
    unfold indexOf at h
    split at h
    · rename_i ht
      obtain ⟨b, hb⟩ := List.isPrefixOf_iff_prefix.1 ht
      cases h
      exact ⟨[], b, hb.symm, rfl⟩
    obtain ⟨j, hj, rfl⟩ := Option.map_eq_some_iff.1 h
    obtain ⟨a, b, rfl, ha⟩ := ih hj
    exact ⟨x :: a, b, rfl, congrArg (· + 1) ha⟩

end NewApi.Lib
