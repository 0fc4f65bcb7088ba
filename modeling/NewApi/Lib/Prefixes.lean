/-
  NewApi.Lib.Prefixes

  Ranges of addresses given by their leading bits.

  Two prefixes are nested or apart (`within_or_within`), so questions about the
  sets that finite lists of prefixes denote are questions about the lists:
  `Inside` and `Apart` are decidable, and `covers_of_inside` and
  `not_covers_of_apart` carry them over to all addresses.
-/

import Mathlib.Data.List.Basic

namespace NewApi.Lib

variable {w : Nat}

/-- The addresses whose first `length` bits are those of `bits`. -/
structure Prefix (w : Nat) where
  bits : BitVec w
  length : Nat

namespace Prefix

def Has (p : Prefix w) (a : BitVec w) : Prop :=
  a >>> (w - p.length) = p.bits >>> (w - p.length)

instance (p : Prefix w) (a : BitVec w) : Decidable (p.Has a) :=
  inferInstanceAs (Decidable (_ = _))

/-- Every address of `p` is one of `q`. -/
def Within (p q : Prefix w) : Prop := q.length ≤ p.length ∧ q.Has p.bits

instance (p q : Prefix w) : Decidable (p.Within q) := inferInstanceAs (Decidable (_ ∧ _))

theorem shift_eq_of_shift_eq {a b : BitVec w} {m n : Nat} (hmn : m ≤ n)
    (h : a >>> (w - n) = b >>> (w - n)) : a >>> (w - m) = b >>> (w - m) := by
  have hshift : w - m = (w - n) + ((w - m) - (w - n)) := by omega
  rw [hshift, BitVec.shiftRight_add, BitVec.shiftRight_add, h]

theorem Has.of_within {p q : Prefix w} {a : BitVec w} (h : p.Has a) (hpq : p.Within q) : q.Has a :=
  (shift_eq_of_shift_eq hpq.1 h).trans hpq.2

/-- **Two prefixes with an address in common are nested.** -/
theorem within_or_within {p q : Prefix w} {a : BitVec w} (hp : p.Has a) (hq : q.Has a) :
    p.Within q ∨ q.Within p := by
  rcases Nat.le_total q.length p.length with hle | hle
  · exact .inl ⟨hle, (shift_eq_of_shift_eq hle hp).symm.trans hq⟩
  · exact .inr ⟨hle, (shift_eq_of_shift_eq hle hq).symm.trans hp⟩

end Prefix

def Covers (ps : List (Prefix w)) (a : BitVec w) : Prop := ∃ p ∈ ps, p.Has a

instance (ps : List (Prefix w)) (a : BitVec w) : Decidable (Covers ps a) :=
  inferInstanceAs (Decidable (∃ p ∈ ps, _))

def Inside (ps qs : List (Prefix w)) : Prop := ∀ p ∈ ps, ∃ q ∈ qs, p.Within q

instance (ps qs : List (Prefix w)) : Decidable (Inside ps qs) :=
  inferInstanceAs (Decidable (∀ p ∈ ps, _))

def Apart (ps qs : List (Prefix w)) : Prop := ∀ p ∈ ps, ∀ q ∈ qs, ¬ p.Within q ∧ ¬ q.Within p

instance (ps qs : List (Prefix w)) : Decidable (Apart ps qs) :=
  inferInstanceAs (Decidable (∀ p ∈ ps, _))

theorem covers_of_inside {ps qs : List (Prefix w)} {a : BitVec w} (h : Inside ps qs)
    (ha : Covers ps a) : Covers qs a := by
  obtain ⟨p, hp, hpa⟩ := ha
  obtain ⟨q, hq, hpq⟩ := h p hp
  exact ⟨q, hq, hpa.of_within hpq⟩

theorem not_covers_of_apart {ps qs : List (Prefix w)} {a : BitVec w} (h : Apart ps qs)
    (ha : Covers ps a) : ¬ Covers qs a := by
  rintro ⟨q, hq, hqa⟩
  obtain ⟨p, hp, hpa⟩ := ha
  rcases Prefix.within_or_within hpa hqa with hpq | hqp
  · exact (h p hp q hq).1 hpq
  · exact (h p hp q hq).2 hqp

theorem covers_append {ps qs : List (Prefix w)} {a : BitVec w} :
    Covers (ps ++ qs) a ↔ Covers ps a ∨ Covers qs a := by
  simp only [Covers, List.mem_append, or_and_right, exists_or]

theorem covers_cons {p : Prefix w} {ps : List (Prefix w)} {a : BitVec w} :
    Covers (p :: ps) a ↔ p.Has a ∨ Covers ps a := by
  simp only [Covers, List.mem_cons, or_and_right, exists_or, exists_eq_left]

@[simp] theorem covers_nil {a : BitVec w} : ¬ Covers [] a := by
  rintro ⟨p, hp, -⟩
  exact List.not_mem_nil hp

theorem and_mask_eq_iff (p a : BitVec w) (k : Nat) :
    p &&& (BitVec.allOnes w <<< k) = a &&& (BitVec.allOnes w <<< k) ↔ a >>> k = p >>> k := by
  constructor
  · intro h
    ext i hi
    have hbit := congrArg (fun x => x.getLsbD (k + i)) h
    by_cases hk : k + i < w
    · have hmask : ¬ k + i < k := by omega
      simpa [hk, hmask, eq_comm] using hbit
    · simp only [BitVec.getElem_ushiftRight]
      rw [BitVec.getLsbD_of_ge _ _ (by omega), BitVec.getLsbD_of_ge _ _ (by omega)]
  intro h
  ext i hi
  have hbit := congrArg (fun x => x.getLsbD (i - k)) h
  by_cases hk : i < k
  · simp [hk]
  have hback : k + (i - k) = i := by omega
  simp only [BitVec.getLsbD_ushiftRight, hback] at hbit
  rw [BitVec.getLsbD_eq_getElem hi, BitVec.getLsbD_eq_getElem hi] at hbit
  simp [hbit]

end NewApi.Lib
