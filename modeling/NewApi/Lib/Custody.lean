/-
  NewApi.Lib.Custody

  Items in custody: places that hold items, no item at two of them nor twice at
  one.  Items move from one place to another, leave, and arrive.
-/

import Mathlib.Data.List.Nodup
import Mathlib.Data.List.Perm.Basic

namespace NewApi.Lib

variable {P α : Type*}

/-- No item is at two places, nor twice at one. -/
structure Exclusive (content : P → List α) : Prop where
  nodup : ∀ p, (content p).Nodup
  apart : ∀ {p q x}, x ∈ content p → x ∈ content q → p = q

namespace Exclusive

variable {c c' : P → List α}

theorem existsUnique (h : Exclusive c) {p : P} {x : α} (hx : x ∈ c p) : ∃! p, x ∈ c p :=
  ⟨p, hx, fun _ hq => h.apart hq hx⟩

/-- Items move from `p` to `q`. -/
theorem move (h : Exclusive c) {p q : P} (hpq : p ≠ q) {moved : List α}
    (hfrom : (c p).Perm (moved ++ c' p)) (hto : (c' q).Perm (moved ++ c q))
    (hrest : ∀ r, r ≠ p → r ≠ q → c' r = c r) :
    Exclusive c' ∧ ∀ x, (∃ r, x ∈ c' r) ↔ ∃ r, x ∈ c r := by
  have hsplit := List.nodup_append.1 (hfrom.nodup_iff.1 (h.nodup p))
  have hp : ∀ x, x ∈ c' p → x ∈ c p := fun x hx => hfrom.mem_iff.2 (List.mem_append_right _ hx)
  have hmoved : ∀ x ∈ moved, x ∈ c p := fun x hx => hfrom.mem_iff.2 (List.mem_append_left _ hx)
  have hq : ∀ x, x ∈ c' q → x ∈ moved ∨ x ∈ c q :=
    fun x hx => List.mem_append.1 (hto.mem_iff.1 hx)
  -- where an item of the new contents was before
  have hback : ∀ r x, x ∈ c' r → x ∈ c r ∨ (r = q ∧ x ∈ moved) := by
    intro r x hx
    by_cases hrp : r = p
    · exact .inl (hrp ▸ hp x (hrp ▸ hx))
    by_cases hrq : r = q
    · subst hrq
      rcases hq x hx with hm | hc
      · exact .inr ⟨rfl, hm⟩
      · exact .inl hc
    · exact .inl (hrest r hrp hrq ▸ hx)
  have hleft : ∀ r x, x ∈ c' r → x ∈ moved → r = q := by
    intro r x hx hm
    rcases hback r x hx with hr | ⟨hr, -⟩
    · obtain rfl := h.apart hr (hmoved x hm)
      exact absurd rfl (hsplit.2.2 x hm x hx)
    · exact hr
  refine ⟨⟨fun r => ?_, fun {r r' x} hr hr' => ?_⟩, fun x => ⟨?_, ?_⟩⟩
  · by_cases hrp : r = p
    · exact hrp ▸ hsplit.2.1
    by_cases hrq : r = q
    · subst hrq
      refine hto.nodup_iff.2 (List.nodup_append.2 ⟨hsplit.1, h.nodup r, ?_⟩)
      rintro x hx y hy rfl
      exact hpq (h.apart (hmoved x hx) hy)
    · exact hrest r hrp hrq ▸ h.nodup r
  · rcases hback r x hr with h1 | ⟨rfl, hm⟩
    · rcases hback r' x hr' with h2 | ⟨rfl, hm⟩
      · exact h.apart h1 h2
      · exact hleft r x hr hm
    · exact (hleft r' x hr' hm).symm
  · rintro ⟨r, hr⟩
    rcases hback r x hr with hc | ⟨-, hm⟩
    · exact ⟨r, hc⟩
    · exact ⟨p, hmoved x hm⟩
  rintro ⟨r, hr⟩
  by_cases hrp : r = p
  · rcases List.mem_append.1 (hfrom.mem_iff.1 (hrp ▸ hr)) with hm | hc
    · exact ⟨q, hto.mem_iff.2 (List.mem_append_left _ hm)⟩
    · exact ⟨p, hc⟩
  by_cases hrq : r = q
  · exact ⟨q, hto.mem_iff.2 (List.mem_append_right _ (hrq ▸ hr))⟩
  · exact ⟨r, (hrest r hrp hrq).symm ▸ hr⟩

theorem leave (h : Exclusive c) {p : P} {x : α} (hfrom : (c p).Perm (x :: c' p))
    (hrest : ∀ r, r ≠ p → c' r = c r) :
    Exclusive c' ∧ (∀ y, y ≠ x → ((∃ r, y ∈ c' r) ↔ ∃ r, y ∈ c r)) ∧ ∃ r, x ∈ c r := by
  have hsub : ∀ r y, y ∈ c' r → y ∈ c r := by
    intro r y hy
    by_cases hrp : r = p
    · exact hrp ▸ hfrom.mem_iff.2 (List.mem_cons_of_mem _ (hrp ▸ hy))
    · exact hrest r hrp ▸ hy
  refine ⟨⟨fun r => ?_, fun hr hr' => h.apart (hsub _ _ hr) (hsub _ _ hr')⟩, fun y hne => ⟨?_, ?_⟩,
    p, hfrom.mem_iff.2 List.mem_cons_self⟩
  · by_cases hrp : r = p
    · exact hrp ▸ (List.nodup_cons.1 (hfrom.nodup_iff.1 (h.nodup p))).2
    · exact hrest r hrp ▸ h.nodup r
  · rintro ⟨r, hr⟩
    exact ⟨r, hsub r y hr⟩
  rintro ⟨r, hr⟩
  by_cases hrp : r = p
  · rcases List.mem_cons.1 (hfrom.mem_iff.1 (hrp ▸ hr)) with hx | hc
    · exact absurd hx hne
    · exact ⟨p, hc⟩
  · exact ⟨r, (hrest r hrp).symm ▸ hr⟩

/-- An item that is nowhere arrives at `q`. -/
theorem arrive (h : Exclusive c) {q : P} {x : α} (hnew : ∀ r, x ∉ c r)
    (hto : (c' q).Perm (x :: c q)) (hrest : ∀ r, r ≠ q → c' r = c r) :
    Exclusive c' ∧ ∀ y, (∃ r, y ∈ c' r) ↔ y = x ∨ ∃ r, y ∈ c r := by
  have hback : ∀ r y, y ∈ c' r → y ∈ c r ∨ (r = q ∧ y = x) := by
    intro r y hy
    by_cases hrq : r = q
    · subst hrq
      rcases List.mem_cons.1 (hto.mem_iff.1 hy) with hx | hc
      · exact .inr ⟨rfl, hx⟩
      · exact .inl hc
    · exact .inl (hrest r hrq ▸ hy)
  refine ⟨⟨fun r => ?_, fun {r r' y} hr hr' => ?_⟩, fun y => ⟨?_, ?_⟩⟩
  · by_cases hrq : r = q
    · subst hrq
      exact hto.nodup_iff.2 (List.nodup_cons.2 ⟨hnew r, h.nodup r⟩)
    · exact hrest r hrq ▸ h.nodup r
  · rcases hback r y hr with h1 | ⟨rfl, rfl⟩
    · rcases hback r' y hr' with h2 | ⟨rfl, rfl⟩
      · exact h.apart h1 h2
      · exact absurd h1 (hnew r)
    rcases hback r' y hr' with h2 | ⟨rfl, -⟩
    · exact absurd h2 (hnew r')
    · rfl
  · rintro ⟨r, hr⟩
    rcases hback r y hr with hc | ⟨-, hx⟩
    · exact .inr ⟨r, hc⟩
    · exact .inl hx
  rintro (rfl | ⟨r, hr⟩)
  · exact ⟨q, hto.mem_iff.2 List.mem_cons_self⟩
  by_cases hrq : r = q
  · exact ⟨q, hto.mem_iff.2 (List.mem_cons_of_mem _ (hrq ▸ hr))⟩
  · exact ⟨r, (hrest r hrq).symm ▸ hr⟩

end Exclusive

end NewApi.Lib
