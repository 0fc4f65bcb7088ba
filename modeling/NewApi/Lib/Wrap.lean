/-
  NewApi.Lib.Wrap

  Signed 64-bit arithmetic: `wrap64` is what is left of an integer, and a value
  in range is left as it is.
-/

import Mathlib.Algebra.Group.Int.Defs

namespace NewApi.Lib

def wrap64 (n : Int) : Int := (n + 2 ^ 63) % 2 ^ 64 - 2 ^ 63

theorem wrap64_of_range {n : Int} (hlo : -2 ^ 63 ≤ n) (hhi : n < 2 ^ 63) : wrap64 n = n := by
  unfold wrap64
  omega

theorem wrap64_range (n : Int) : -2 ^ 63 ≤ wrap64 n ∧ wrap64 n < 2 ^ 63 := by
  unfold wrap64
  omega

theorem wrap64_of_over {n : Int} (hlo : 2 ^ 63 ≤ n) (hhi : n < 2 ^ 63 + 2 ^ 64) :
    wrap64 n = n - 2 ^ 64 := by
  unfold wrap64
  omega

theorem wrap64_add_mul (n k : Int) : wrap64 (n + 2 ^ 64 * k) = wrap64 n := by
  unfold wrap64
  have h : n + 2 ^ 64 * k + 2 ^ 63 = n + 2 ^ 63 + 2 ^ 64 * k := by omega
  rw [h, Int.add_mul_emod_self_left]

theorem wrap64_eq_sub (n : Int) : ∃ k, wrap64 n = n - 2 ^ 64 * k := by
  refine ⟨(n + 2 ^ 63) / 2 ^ 64, ?_⟩
  unfold wrap64
  omega

theorem wrap64_mul (a b : Int) : wrap64 (wrap64 a * b) = wrap64 (a * b) := by
  obtain ⟨k, hk⟩ := wrap64_eq_sub a
  have h : wrap64 a * b + 2 ^ 64 * (k * b) = a * b := by
    rw [hk, Int.sub_mul, Int.mul_assoc]
    omega
  rw [← h, wrap64_add_mul]

theorem wrap64_sub (a b : Int) : wrap64 (wrap64 a - b) = wrap64 (a - b) := by
  obtain ⟨k, hk⟩ := wrap64_eq_sub a
  rw [← wrap64_add_mul (wrap64 a - b) k, hk]
  congr 1
  omega

theorem exists_over {f : Nat → Int} (h0 : f 0 < 2 ^ 63) (hstep : ∀ n, f (n + 1) ≤ f n + 2 ^ 63)
    {N : Nat} (hN : 2 ^ 63 ≤ f N) : ∃ n, 0 < n ∧ n ≤ N ∧ 2 ^ 63 ≤ f n ∧ f n < 2 ^ 64 := by
  induction N with
  | zero => omega
  | succ N ih =>
    by_cases hbefore : 2 ^ 63 ≤ f N
    · obtain ⟨n, hpos, hle, hover⟩ := ih hbefore
      exact ⟨n, hpos, Nat.le_succ_of_le hle, hover⟩
    · have hnext := hstep N
      exact ⟨N + 1, Nat.succ_pos N, Nat.le_refl _, hN, by omega⟩

end NewApi.Lib
