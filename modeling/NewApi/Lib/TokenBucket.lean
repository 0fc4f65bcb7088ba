/-
  NewApi.Lib.TokenBucket

  Token buckets over an ordered commutative ring, of the integers (a clock of
  whole seconds) or of the rationals.

  A bucket starts full at its first request.  A request refills it by the time
  since the last one, up to its capacity, and then takes its cost out of it or
  is refused.  The clock does not go back (`OnTime`).

  The bound of a window is amortised.  From a level on, what requests take out
  is at most what was there and what has been added since (`admitted_from`);
  whatever came before, the first request of a window finds at most a full
  bucket, so a window of length `e - s` costs at most `capacity + rate * (e - s)`
  (`admitted_le`).
-/

import Mathlib.Tactic.Linarith

set_option linter.unusedSectionVars false

namespace NewApi.Lib.TokenBucket

variable {R : Type*} [CommRing R] [LinearOrder R] [IsStrictOrderedRing R]

/-! ## Buckets -/

/-- What a bucket holds at most, what it gains in one unit of time, and what a
    request takes out of it. -/
structure Rules (R : Type*) [CommRing R] [LinearOrder R] where
  capacity : R
  rate : R
  cost : R
  capacity_nonneg : 0 ≤ capacity
  rate_nonneg : 0 ≤ rate
  cost_nonneg : 0 ≤ cost

/-- What was left of a bucket, and when. -/
structure Level (R : Type*) where
  tokens : R
  updated : R

namespace Rules

/-- What a request at `now` finds: a new bucket is full, an old one is refilled. -/
def level (C : Rules R) (now : R) : Option (Level R) → Level R
  | none => { tokens := C.capacity, updated := now }
  | some b => { tokens := min C.capacity (b.tokens + (now - b.updated) * C.rate), updated := now }

def admits (C : Rules R) (now : R) (b : Option (Level R)) : Bool :=
  decide (C.cost ≤ (C.level now b).tokens)

/-- What a request at `now` leaves. -/
def next (C : Rules R) (now : R) (b : Option (Level R)) : Level R :=
  if C.cost ≤ (C.level now b).tokens then
    { C.level now b with tokens := (C.level now b).tokens - C.cost }
  else C.level now b

/-- The requests at `ts` with their answers. -/
def answers (C : Rules R) : Option (Level R) → List R → List (R × Bool)
  | _, [] => []
  | b, now :: ts => (now, C.admits now b) :: answers C (some (C.next now b)) ts

/-- The bucket after requests at `ts`. -/
def after (C : Rules R) (b : Option (Level R)) (ts : List R) : Option (Level R) :=
  ts.foldl (fun b now => some (C.next now b)) b

end Rules

/-- The admissions from `s` to `e`, both included. -/
def admitted (s e : R) (answers : List (R × Bool)) : Nat :=
  answers.countP fun p => p.2 && decide (s ≤ p.1) && decide (p.1 ≤ e)

def OnTime (b : Option (Level R)) (ts : List R) : Prop :=
  (∀ l ∈ b, ∀ t ∈ ts, l.updated ≤ t) ∧ ts.Pairwise (· ≤ ·)

def Rules.Within (C : Rules R) (b : Level R) : Prop := 0 ≤ b.tokens ∧ b.tokens ≤ C.capacity

variable {C : Rules R} {b : Option (Level R)} {now s e : R} {ts : List R}

theorem Rules.Within.some {l : Level R} (h : C.Within l) : ∀ l' ∈ Option.some l, C.Within l' := by
  rintro l' hl'
  obtain rfl := Option.some.inj hl'
  exact h

/-! ## One request -/

theorem level_updated : (C.level now b).updated = now := by
  cases b <;> rfl

@[simp] theorem next_updated : (C.next now b).updated = now := by
  unfold Rules.next
  split
  · exact level_updated
  · exact level_updated

theorem next_tokens (C : Rules R) (now : R) (b : Option (Level R)) :
    (C.next now b).tokens + (if C.admits now b then C.cost else 0) = (C.level now b).tokens := by
  by_cases h : C.cost ≤ (C.level now b).tokens
  · have hadmits : C.admits now b = true := decide_eq_true h
    rw [Rules.next, if_pos h, if_pos hadmits]
    exact sub_add_cancel _ _
  · have hadmits : ¬ C.admits now b = true := fun ha => h (of_decide_eq_true ha)
    rw [Rules.next, if_neg h, if_neg hadmits, add_zero]

theorem level_le (C : Rules R) (now : R) (b : Option (Level R)) :
    (C.level now b).tokens ≤ C.capacity := by
  cases b with
  | none => exact le_rfl
  | some l => exact min_le_left _ _

theorem level_some_le (C : Rules R) (now : R) (l : Level R) :
    (C.level now (some l)).tokens ≤ l.tokens + (now - l.updated) * C.rate :=
  min_le_right _ _

section
variable (hb : ∀ l ∈ b, C.Within l) (hnow : ∀ l ∈ b, l.updated ≤ now)
include hb hnow

theorem level_nonneg : 0 ≤ (C.level now b).tokens := by
  cases b with
  | none => exact C.capacity_nonneg
  | some l =>
    have hrefill : 0 ≤ (now - l.updated) * C.rate :=
      mul_nonneg (sub_nonneg.2 (hnow l rfl)) C.rate_nonneg
    exact le_min C.capacity_nonneg (add_nonneg (hb l rfl).1 hrefill)

theorem next_within : C.Within (C.next now b) := by
  have hlevel := level_nonneg hb hnow
  unfold Rules.next
  split
  · rename_i hcost
    exact ⟨sub_nonneg.2 hcost, (sub_le_self _ C.cost_nonneg).trans (level_le C now b)⟩
  · exact ⟨hlevel, level_le C now b⟩

end

theorem admits_of_rested (hcost : C.cost ≤ C.capacity) (hb : ∀ l ∈ b, C.Within l)
    (hrested : ∀ l ∈ b, C.cost ≤ (now - l.updated) * C.rate) : C.admits now b = true := by
  refine decide_eq_true ?_
  cases b with
  | none => exact hcost
  | some l =>
    have hnonneg := (hb l rfl).1
    have hregained := hrested l rfl
    exact le_min hcost (by linarith)

/-! ## Runs -/

theorem OnTime.head (h : OnTime b (now :: ts)) : ∀ l ∈ b, l.updated ≤ now :=
  fun l hl => h.1 l hl now List.mem_cons_self

theorem OnTime.tail (h : OnTime b (now :: ts)) : OnTime (some (C.next now b)) ts := by
  refine ⟨?_, (List.pairwise_cons.1 h.2).2⟩
  rintro l hl t ht
  obtain rfl := Option.some.inj hl
  rw [next_updated]
  exact (List.pairwise_cons.1 h.2).1 t ht

theorem OnTime.late (h : OnTime b (now :: ts)) (hnow : e < now) : ∀ t ∈ now :: ts, e < t := by
  rintro t ht
  rcases List.mem_cons.1 ht with rfl | ht
  · exact hnow
  · exact hnow.trans_le ((List.pairwise_cons.1 h.2).1 t ht)

/-- **A bucket stays between nothing and full.** -/
theorem after_within (hb : ∀ l ∈ b, C.Within l) (h : OnTime b ts) :
    ∀ l ∈ C.after b ts, C.Within l := by
  induction ts generalizing b with
  | nil => exact hb
  | cons now ts ih =>
    exact ih (b := some (C.next now b)) (next_within hb h.head).some h.tail

theorem after_updated (h : ∀ l ∈ b, l.updated ≤ e) (hts : ∀ t ∈ ts, t ≤ e) :
    ∀ l ∈ C.after b ts, l.updated ≤ e := by
  induction ts generalizing b with
  | nil => exact h
  | cons now ts ih =>
    refine ih (b := some (C.next now b)) ?_ fun t ht => hts t (List.mem_cons_of_mem _ ht)
    rintro l hl
    obtain rfl := Option.some.inj hl
    rw [next_updated]
    exact hts now List.mem_cons_self

theorem map_fst_answers : (C.answers b ts).map Prod.fst = ts := by
  induction ts generalizing b with
  | nil => rfl
  | cons now ts ih => rw [Rules.answers, List.map_cons, ih]

theorem admitted_cons_le (p : R × Bool) (l : List (R × Bool)) :
    admitted s e (p :: l) ≤ (if p.2 then 1 else 0) + admitted s e l := by
  unfold admitted
  rw [List.countP_cons, Nat.add_comm]
  refine Nat.add_le_add_right ?_ _
  cases p.2 with
  | false => simp
  | true => split <;> simp

theorem admitted_eq_zero (h : ∀ t ∈ ts, e < t) : admitted s e (C.answers b ts) = 0 := by
  refine List.countP_eq_zero.2 fun p hp => ?_
  have hmem : p.1 ∈ (C.answers b ts).map Prod.fst := List.mem_map_of_mem hp
  rw [map_fst_answers] at hmem
  have hlate : e < p.1 := h p.1 hmem
  simp [not_le.2 hlate]

theorem cost_admitted_cons_le (p : R × Bool) (l : List (R × Bool)) :
    C.cost * admitted s e (p :: l) ≤ (if p.2 then C.cost else 0) + C.cost * admitted s e l := by
  have hle : (admitted s e (p :: l) : R) ≤ ((if p.2 then 1 else 0) + admitted s e l : Nat) :=
    Nat.cast_le.2 (admitted_cons_le p l)
  refine (mul_le_mul_of_nonneg_left hle C.cost_nonneg).trans (le_of_eq ?_)
  cases p.2 <;> simp [mul_add]

/-- **The amortised bound.**  What requests take out until `e` was there, or has
    been added since. -/
theorem admitted_from {l : Level R} (hl : C.Within l) (he : l.updated ≤ e)
    (h : OnTime (some l) ts) :
    C.cost * admitted s e (C.answers (some l) ts) ≤ l.tokens + C.rate * (e - l.updated) := by
  induction ts generalizing l with
  | nil =>
    have hadded := mul_nonneg C.rate_nonneg (sub_nonneg.2 he)
    simpa [admitted, Rules.answers] using add_nonneg hl.1 hadded
  | cons now ts ih =>
    by_cases hnow : now ≤ e
    · have hrest := ih (next_within hl.some h.head) (next_updated.trans_le hnow) h.tail
      have hfound := next_tokens C now (some l)
      have hrefill := level_some_le C now l
      rw [next_updated] at hrest
      calc C.cost * admitted s e (C.answers (some l) (now :: ts))
          ≤ (if C.admits now (some l) then C.cost else 0) +
              C.cost * admitted s e (C.answers (some (C.next now (some l))) ts) :=
            cost_admitted_cons_le _ _
        _ ≤ (C.level now (some l)).tokens + C.rate * (e - now) := by linarith
        _ ≤ l.tokens + C.rate * (e - l.updated) := by linarith
    · rw [admitted_eq_zero (h.late (not_le.1 hnow)), Nat.cast_zero, mul_zero]
      exact add_nonneg hl.1 (mul_nonneg C.rate_nonneg (sub_nonneg.2 he))

/-- **The bound of a window.** -/
theorem admitted_le (hb : ∀ l ∈ b, C.Within l) (hse : s ≤ e) (h : OnTime b ts) :
    C.cost * admitted s e (C.answers b ts) ≤ C.capacity + C.rate * (e - s) := by
  have hroom : 0 ≤ C.capacity + C.rate * (e - s) :=
    add_nonneg C.capacity_nonneg (mul_nonneg C.rate_nonneg (sub_nonneg.2 hse))
  induction ts generalizing b with
  | nil => simpa [admitted, Rules.answers] using hroom
  | cons now ts ih =>
    have hnext := next_within hb h.head
    by_cases hearly : now < s
    · -- a request before the window
      have hskip : admitted s e (C.answers b (now :: ts)) =
          admitted s e (C.answers (some (C.next now b)) ts) := by
        simp [admitted, Rules.answers, not_le.2 hearly]
      rw [hskip]
      exact ih hnext.some h.tail
    by_cases hnow : now ≤ e
    · -- the first request of the window
      have hrest := admitted_from (s := s) hnext (next_updated.trans_le hnow) h.tail
      have hfound := next_tokens C now b
      have hfull := level_le C now b
      have hlater := mul_le_mul_of_nonneg_left (sub_le_sub_left (not_lt.1 hearly) e)
        C.rate_nonneg
      rw [next_updated] at hrest
      calc C.cost * admitted s e (C.answers b (now :: ts))
          ≤ (if C.admits now b then C.cost else 0) +
              C.cost * admitted s e (C.answers (some (C.next now b)) ts) :=
            cost_admitted_cons_le _ _
        _ ≤ (C.level now b).tokens + C.rate * (e - now) := by linarith
        _ ≤ C.capacity + C.rate * (e - s) := by linarith
    -- the window is over
    rw [admitted_eq_zero (h.late (not_le.1 hnow)), Nat.cast_zero, mul_zero]
    exact hroom

end NewApi.Lib.TokenBucket
