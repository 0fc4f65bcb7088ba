/-
  NewApi.Lib.Keyed

  Sums picked out of a keyed collection: over a list in which no key stands
  twice, the terms of one key add up to the one entry of that key.  And, of a
  map, the part whose entries pass a test and the sum over its entries.
-/

import Mathlib.Data.List.AList
import Mathlib.Algebra.Order.BigOperators.Group.List
import Mathlib.Algebra.Order.Ring.Int
import Mathlib.Algebra.Order.Ring.Nat

namespace NewApi.Lib

variable {α β : Type*} [DecidableEq α]

theorem sum_map_ite_of_nodup {l : List α} (hl : l.Nodup) (f : α → ℤ) (a : α) :
    (l.map fun k => if k = a then f k else 0).sum = if a ∈ l then f a else 0 := by
  induction l with
  | nil => simp
  | cons k l ih =>
    have hk := List.nodup_cons.mp hl
    rw [List.map_cons, List.sum_cons, ih hk.2]
    by_cases h : k = a
    · subst h
      simp [hk.1]
    · have h' : a ≠ k := fun e => h e.symm
      simp [h, h']

theorem sum_entries_eq_lookup (s : AList fun _ : α => β) (f : β → ℤ) (a : α) :
    (s.entries.map fun e => if e.1 = a then f e.2 else 0).sum = ((s.lookup a).map f).getD 0 := by
  obtain ⟨entries, hnd⟩ := s
  show (entries.map _).sum = ((entries.dlookup a).map f).getD 0
  induction entries with
  | nil => rfl
  | cons e es ih =>
    obtain ⟨k, b⟩ := e
    have hk := List.nodupKeys_cons.mp hnd
    rw [List.map_cons, List.sum_cons, ih hk.2]
    by_cases h : k = a
    · subst h
      have hnone : es.dlookup k = none := List.dlookup_eq_none.mpr hk.1
      simp [hnone]
    · rw [List.dlookup_cons_ne _ _ (fun e => h e.symm)]
      simp [h]

end NewApi.Lib

namespace AList

variable {α : Type*} {β : α → Type*} [DecidableEq α]

def keep (s : AList β) (p : ∀ a, β a → Bool) : AList β where
  entries := s.entries.filter fun e => p e.1 e.2
  nodupKeys := s.nodupKeys.sublist List.filter_sublist

theorem lookup_keep (s : AList β) (p : ∀ a, β a → Bool) (a : α) :
    (s.keep p).lookup a = (s.lookup a).filter (p a) := by
  ext b
  rw [Option.filter_eq_some_iff, ← Option.mem_def, ← Option.mem_def, mem_lookup_iff,
    mem_lookup_iff]
  exact List.mem_filter

omit [DecidableEq α] in
theorem length_keep_le (s : AList β) (p : ∀ a, β a → Bool) :
    (s.keep p).entries.length ≤ s.entries.length :=
  List.length_filter_le _ _

theorem length_insert_of_notMem {s : AList β} {a : α} {b : β a} (h : a ∉ s) :
    (s.insert a b).entries.length = s.entries.length + 1 := by
  rw [entries_insert_of_notMem h, List.length_cons]

theorem length_insert_of_mem {s : AList β} {a : α} {b : β a} (h : a ∈ s) :
    (s.insert a b).entries.length = s.entries.length := by
  have hkeys : (s.insert a b).keys.length = s.keys.length := by
    rw [keys_insert, List.length_cons, List.length_erase_of_mem h]
    have hpos : 0 < s.keys.length := List.length_pos_of_mem h
    omega
  unfold keys List.keys at hkeys
  rw [List.length_map, List.length_map] at hkeys
  exact hkeys

theorem length_erase_le (s : AList β) (a : α) : (s.erase a).entries.length ≤ s.entries.length := by
  have hkeys : (s.erase a).keys.length ≤ s.keys.length := by
    rw [keys_erase]
    exact List.length_erase_le
  unfold keys List.keys at hkeys
  rw [List.length_map, List.length_map] at hkeys
  exact hkeys

end AList

namespace AList

variable {α β : Type*} [DecidableEq α]

omit [DecidableEq α] in
/-- The sum of `f` over the values of a map. -/
def total (s : AList fun _ : α => β) (f : β → ℕ) : ℕ := (s.entries.map fun e => f e.2).sum

theorem total_le_of_lookup {s t : AList fun _ : α => β} {f : β → ℕ}
    (h : ∀ a b, s.lookup a = some b → t.lookup a = some b) : s.total f ≤ t.total f := by
  have hsub : s.entries ⊆ t.entries := by
    intro e he
    exact mem_lookup_iff.1 (h e.1 e.2 (mem_lookup_iff.2 he))
  obtain ⟨l, hperm, hsublist⟩ := List.subperm_of_subset s.nodupKeys.nodup hsub
  unfold total
  rw [← (hperm.map fun e => f e.2).sum_eq]
  exact (hsublist.map _).sum_le_sum fun _ _ => Nat.zero_le _

theorem total_congr_lookup {s t : AList fun _ : α => β} {f : β → ℕ}
    (h : ∀ a, s.lookup a = t.lookup a) : s.total f = t.total f :=
  Nat.le_antisymm (total_le_of_lookup fun a _ hb => (h a).symm.trans hb)
    (total_le_of_lookup fun a _ hb => (h a).trans hb)

theorem total_insert (s : AList fun _ : α => β) (f : β → ℕ) (a : α) (b : β) :
    (s.insert a b).total f = f b + (s.erase a).total f := rfl

theorem total_erase_add {s : AList fun _ : α => β} {f : β → ℕ} {a : α} {b : β}
    (h : s.lookup a = some b) : (s.erase a).total f + f b = s.total f := by
  rw [Nat.add_comm, ← total_insert]
  refine total_congr_lookup fun a' => ?_
  by_cases ha : a' = a
  · rw [ha, lookup_insert, h]
  · rw [lookup_insert_ne ha]

theorem total_erase_of_none {s : AList fun _ : α => β} {a : α} (h : s.lookup a = none)
    (f : β → ℕ) : (s.erase a).total f = s.total f := by
  refine total_congr_lookup fun a' => ?_
  by_cases ha : a' = a
  · rw [ha, lookup_erase, h]
  · rw [lookup_erase_ne ha]

end AList
