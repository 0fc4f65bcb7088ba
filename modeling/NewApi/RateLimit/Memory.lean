/-
  NewApi.RateLimit.Memory

  `InMemoryRateLimiter` of `common/rate-limit.go`.

  A key has a queue of time stamps, oldest first.  `Request` appends the stamp
  of an admission while the queue is shorter than the limit, and otherwise puts
  it in the place of the oldest one if that has left the window; `Refund` drops
  the newest stamp, whoever's it is; `clearExpiredItems` drops a whole queue
  that has been idle.  Each of them holds the mutex throughout and is one step.

  Beside the store a `World` keeps the log of admissions and refunds.  The
  stamps in the queue stay at least as many as the admissions held in any
  interval that reaches up to now, less the late refunds (`Bounded.covers`):
  a refund takes some stamp off, and either the refunded admission was one of
  the counted ones or the refund is late.  Since the queue never outgrows the
  limit, so does no interval (`Bounded.bound`).
-/

import NewApi.Lib.Run
import NewApi.Lib.Window
import Mathlib.Algebra.Order.Group.Int

set_option linter.unusedSectionVars false

namespace NewApi.RateLimit.Memory

open Function (update_of_ne update_self)
open Lib

/-! ## One key -/

/-- The entry of a key: `[old <-- new]`, or none. -/
abbrev Queue := Option (List Int)

def request (q : Queue) (now maxRequestNum duration : Int) : Bool × Queue :=
  match q with
  | some queue =>
    if (queue.length : Int) < maxRequestNum then (true, some (queue ++ [now]))
    else
      match queue with
      -- `(*queue)[0]` panics
      | [] => (false, q)
      | oldest :: rest =>
        if duration ≤ now - oldest then (true, some (rest ++ [now])) else (false, q)
  | none =>
    -- `make` panics on a negative capacity
    if maxRequestNum < 0 then (false, q) else (true, some [now])

def refund (q : Queue) : Queue := q.map List.dropLast

/-- The body of the loop in `clearExpiredItems`; `expiration` is
    `int64(l.expirationDuration.Seconds())`. -/
def clearExpired (now expiration : Int) (q : Queue) : Queue :=
  q.filter fun queue => queue.getLast?.any fun last => !(expiration < now - last)

theorem request_cases (q : Queue) (now m d : Int) : request q now m d = (false, q) ∨
    ∃ gone rest, q.getD [] = gone ++ rest ∧ (∀ t ∈ gone, d ≤ now - t) ∧
      (rest.length + 1 : Int) ≤ max (max m 1) (q.getD []).length ∧
      request q now m d = (true, some (rest ++ [now])) := by
  cases q with
  | none =>
    by_cases hm : m < 0
    · exact .inl (by simp only [request, if_pos hm])
    refine .inr ⟨[], [], rfl, by simp, ?_, by simp only [request, if_neg hm]; rfl⟩
    simp only [List.length_nil, Option.getD_none]
    omega
  | some queue =>
    by_cases hlen : (queue.length : Int) < m
    · refine .inr ⟨[], queue, rfl, by simp, ?_, by simp only [request, if_pos hlen]⟩
      omega
    cases queue with
    | nil => exact .inl (by simp only [request, if_neg hlen])
    | cons oldest rest =>
      by_cases hold : d ≤ now - oldest
      · refine .inr ⟨[oldest], rest, rfl, by simpa using hold, ?_, ?_⟩
        · simp only [Option.getD_some, List.length_cons]
          omega
        · simp only [request, if_neg hlen, if_pos hold]
      · exact .inl (by simp only [request, if_neg hlen, if_neg hold])

theorem clearExpired_cases (now expiration : Int) (q : Queue) : clearExpired now expiration q = q ∨
    (clearExpired now expiration q = none ∧
      ∀ queue, q = some queue → ∀ last ∈ queue.getLast?, expiration < now - last) := by
  cases q with
  | none => exact .inl rfl
  | some queue =>
    by_cases hkeep : (queue.getLast?.any fun last => !(expiration < now - last)) = true
    · exact .inl (by simp only [clearExpired, Option.filter_some, hkeep, if_true])
    refine .inr ⟨by simp only [clearExpired, Option.filter_some, if_neg hkeep], ?_⟩
    intro queue' heq last hlast
    obtain rfl := Option.some.inj heq
    rw [hlast, Option.any_some, Bool.not_eq_true', decide_eq_false_iff_not, not_not] at hkeep
    exact hkeep

theorem le_getLast {queue : List Int} (hsorted : queue.Pairwise (· ≤ ·)) {last : Int}
    (hlast : queue.getLast? = some last) : ∀ t ∈ queue, t ≤ last := by
  obtain ⟨init, rfl⟩ := List.getLast?_eq_some_iff.1 hlast
  intro t ht
  rcases List.mem_append.1 ht with ht | ht
  · exact (List.pairwise_append.1 hsorted).2.2 t ht last (by simp)
  · exact le_of_eq (List.mem_singleton.1 ht)

/-! ## The limiter -/

variable {ι : Type*}

/-- The store, the log of who was admitted and refunded, and the clock. -/
structure World (ι : Type*) where
  store : String → Queue
  log : String → PlaceLog ι
  now : Int

/-- `Init`, at time `now`. -/
def World.init (now : Int) : World ι :=
  { store := fun _ => none, log := fun _ => [], now := now }

def World.queue (w : World ι) (key : String) : List Int := (w.store key).getD []

inductive Call (ι : Type*) where
  /-- `o` calls `Request` -/
  | request (o : ι) (key : String) (maxRequestNum duration : Int)
  /-- `o`, who was admitted on the key, fails and calls `Refund` -/
  | refund (o : ι) (key : String)
  | clearExpiredItems (expiration : Int)

variable [DecidableEq ι]

/-- `Request` on behalf of `o`. -/
def World.request (w : World ι) (o : ι) (key : String) (now m d : Int) : Bool × World ι :=
  let (ok, q) := Memory.request (w.store key) now m d
  (ok, { store := Function.update w.store key q,
         log := if ok then Function.update w.log key ((w.log key).take o now) else w.log,
         now := now })

/-- `Refund` on behalf of `o`, who calls it only where it holds a place. -/
def World.refund (w : World ι) (o : ι) (key : String) (now : Int) : World ι :=
  if (w.log key).Holds o then
    { store := Function.update w.store key (Memory.refund (w.store key)),
      log := Function.update w.log key ((w.log key).giveBack o now),
      now := now }
  else { w with now := now }

/-- `clearExpiredItems`, once around. -/
def World.clearExpiredItems (w : World ι) (now expiration : Int) : World ι :=
  { w with store := fun key => clearExpired now expiration (w.store key), now := now }

def World.step (w : World ι) (a : Int × Call ι) : World ι :=
  match a.2 with
  | .request o key m d => (w.request o key a.1 m d).2
  | .refund o key => w.refund o key a.1
  | .clearExpiredItems expiration => w.clearExpiredItems a.1 expiration

section Log

variable {w : World ι} {o o' : ι} {k k' : String} {now m d t : Int}

theorem World.request_holdsAt (h : (w.log k').HoldsAt o' t) :
    ((w.request o k now m d).2.log k').HoldsAt o' t := by
  simp only [World.request]
  split
  · by_cases hk : k' = k
    · subst hk
      rw [update_self]
      exact h.take
    · rwa [update_of_ne hk]
  · exact h

theorem World.request_taken (h : (w.request o k now m d).1 = true) :
    ((w.request o k now m d).2.log k).HoldsAt o now := by
  simp only [World.request] at h ⊢
  rw [if_pos h, update_self]
  exact PlaceLog.holdsAt_take o now _

theorem World.refund_holdsAt (hne : o' ≠ o) (h : (w.log k').HoldsAt o' t) :
    ((w.refund o k now).log k').HoldsAt o' t := by
  unfold World.refund
  split
  · by_cases hk : k' = k
    · subst hk
      simp only [update_self]
      exact h.giveBack_ne hne
    · simpa only [update_of_ne hk] using h
  · exact h

end Log

/-- What a call may do to the window `d` of `key`: on that key the limit is `M`
    at most and the window `d` at least, and a pass spares what is younger
    than `d`. -/
def Call.Within (M : Nat) (d : Int) (key : String) : Call ι → Prop
  | .request _ k m d' => k = key → m ≤ M ∧ d ≤ d'
  | .refund _ _ => True
  | .clearExpiredItems expiration => d ≤ expiration + 1

def Allowed (M : Nat) (d : Int) (key : String) (w : World ι) (a : Int × Call ι) : Prop :=
  w.now ≤ a.1 ∧ a.2.Within M d key

/-- The invariant behind the bound of the interval `[s, s + d)`. -/
structure Bounded (M : Nat) (d s : Int) (key : String) (w : World ι) : Prop where
  sorted : (w.queue key).Pairwise (· ≤ ·)
  past : ∀ t ∈ w.queue key, t ≤ w.now
  len : (w.queue key).length ≤ M
  taken : ∀ e ∈ w.log key, e.time ≤ w.now
  covers : w.now - d < s →
    (w.log key).heldSince s ≤ (w.queue key).countP (fun t => s ≤ t) + (w.log key).lateReturns s d
  bound : (w.log key).heldWithin s d ≤ M + (w.log key).lateReturns s d

theorem countP_ge_eq_zero {s : Int} {l : List Int} (h : ∀ t ∈ l, t < s) :
    l.countP (fun t => decide (s ≤ t)) = 0 := by
  refine List.countP_eq_zero.2 fun t ht => ?_
  have := h t ht
  simpa using this

section Steps

variable {M : Nat} {d s : Int} {key : String} {w : World ι}

section
variable (h : Bounded M d s key w)
include h

theorem Bounded.later {now : Int} (hnow : w.now ≤ now) :
    Bounded M d s key { w with now := now } where
  sorted := h.sorted
  past := fun t ht => (h.past t ht).trans hnow
  len := h.len
  taken := fun e he => (h.taken e he).trans hnow
  covers := fun hs => h.covers (by have : now - d < s := hs; omega)
  bound := h.bound

theorem Bounded.congr {w' : World ι} (hstore : w'.store key = w.store key)
    (hlog : w'.log key = w.log key) (hnow : w'.now = w.now) : Bounded M d s key w' := by
  have hqueue : w'.queue key = w.queue key := by rw [World.queue, World.queue, hstore]
  constructor
  · rw [hqueue]
    exact h.sorted
  · rw [hqueue, hnow]
    exact h.past
  · rw [hqueue]
    exact h.len
  · rw [hlog, hnow]
    exact h.taken
  · rw [hqueue, hlog, hnow]
    exact h.covers
  · rw [hlog]
    exact h.bound

theorem Bounded.admit {now : Int} (hnow : w.now ≤ now) {w' : World ι} {o : ι} {gone rest : List Int}
    (hq : w.queue key = gone ++ rest) (hgone : ∀ t ∈ gone, d ≤ now - t) (hlen : rest.length + 1 ≤ M)
    (hqueue : w'.queue key = rest ++ [now]) (hlog : w'.log key = (w.log key).take o now)
    (hnow' : w'.now = now) : Bounded M d s key w' := by
  have hpast : ∀ t ∈ rest, t ≤ now := fun t ht =>
    (h.past t (by rw [hq]; exact List.mem_append_right _ ht)).trans hnow
  have hcovers : w'.now - d < s → (w'.log key).heldSince s ≤
      (w'.queue key).countP (fun t => s ≤ t) + (w'.log key).lateReturns s d := by
    intro hs
    rw [hnow'] at hs
    have hold := h.covers (by omega)
    have hzero : gone.countP (fun t => decide (s ≤ t)) = 0 := by
      refine countP_ge_eq_zero fun t ht => ?_
      have := hgone t ht
      omega
    rw [hq, List.countP_append, hzero, Nat.zero_add] at hold
    rw [hlog, hqueue, PlaceLog.heldSince_take, PlaceLog.lateReturns_take, List.countP_append,
      List.countP_singleton]
    by_cases hst : s ≤ now
    · simp only [hst, if_true, decide_true]
      omega
    · simp only [hst, if_false, decide_false]
      simpa using hold
  constructor
  · rw [hqueue]
    refine List.pairwise_append.2 ⟨?_, List.pairwise_singleton _ _, ?_⟩
    · have hsorted := h.sorted
      rw [hq] at hsorted
      exact (List.pairwise_append.1 hsorted).2.1
    intro t ht t' ht'
    rw [List.mem_singleton.1 ht']
    exact hpast t ht
  · rw [hqueue, hnow']
    intro t ht
    rcases List.mem_append.1 ht with ht | ht
    · exact hpast t ht
    · exact le_of_eq (List.mem_singleton.1 ht)
  · rw [hqueue, List.length_append, List.length_singleton]
    exact hlen
  · rw [hlog, hnow']
    intro e he
    rcases PlaceLog.mem_take.1 he with he | rfl
    · exact (h.taken e he).trans hnow
    · exact le_refl now
  · exact hcovers
  by_cases hin : s ≤ now ∧ now < s + d
  · -- the interval reaches up to now, so the queue bounds it
    have hc := hcovers (by rw [hnow']; omega)
    have hw := PlaceLog.heldWithin_le_heldSince s d (w'.log key)
    have hl : (w'.queue key).countP (fun t => decide (s ≤ t)) ≤ (w'.queue key).length :=
      List.countP_le_length
    rw [hqueue, List.length_append, List.length_singleton] at hl
    rw [hqueue] at hc
    omega
  have hb := h.bound
  rw [hlog, PlaceLog.heldWithin_take, PlaceLog.lateReturns_take, if_neg hin]
  omega

theorem Bounded.giveBack {now : Int} (hnow : w.now ≤ now) {w' : World ι} {o : ι}
    (ho : (w.log key).Holds o) (hstore : w'.store key = Memory.refund (w.store key))
    (hlog : w'.log key = (w.log key).giveBack o now) (hnow' : w'.now = now) :
    Bounded M d s key w' := by
  have hqueue : w'.queue key = (w.queue key).dropLast := by
    rw [World.queue, World.queue, hstore]
    cases w.store key <;> rfl
  have hsub : ∀ t ∈ w'.queue key, t ∈ w.queue key := fun t ht =>
    List.dropLast_subset _ (hqueue ▸ ht)
  constructor
  · rw [hqueue]
    exact h.sorted.sublist (List.dropLast_sublist _)
  · rw [hnow']
    exact fun t ht => (h.past t (hsub t ht)).trans hnow
  · rw [hqueue, List.length_dropLast]
    have := h.len
    omega
  · rw [hlog, hnow']
    intro e he
    rcases PlaceLog.mem_giveBack he with he | ⟨e', he', -, rfl⟩
    · exact (h.taken e he).trans hnow
    · exact (h.taken e' he').trans hnow
  · rw [hnow']
    intro hs
    have hold := h.covers (by omega)
    by_cases hsn : s ≤ now
    · have hback := PlaceLog.heldSince_giveBack (d := d) ho hsn (by omega : now < s + d)
      have hdrop : (w.queue key).countP (fun t => decide (s ≤ t)) ≤
          (w'.queue key).countP (fun t => decide (s ≤ t)) + 1 := by
        rw [hqueue]
        rcases List.eq_nil_or_concat (w.queue key) with hnil | ⟨init, last, hcat⟩
        · simp [hnil]
        rw [hcat, List.concat_eq_append, List.dropLast_concat, List.countP_append]
        have : [last].countP (fun t => decide (s ≤ t)) ≤ 1 := List.countP_le_length
        omega
      rw [hlog]
      omega
    -- nothing at all has happened since `s`
    have hzero : (w'.log key).heldSince s = 0 := by
      rw [hlog]
      have hle := PlaceLog.heldSince_giveBack_le s o now (w.log key)
      have h0 : (w.log key).heldSince s = 0 := by
        refine PlaceLog.heldSince_eq_zero fun e he => ?_
        have := h.taken e he
        omega
      omega
    omega
  rw [hlog]
  have h1 := PlaceLog.heldWithin_giveBack_le s d o now (w.log key)
  have h2 := PlaceLog.lateReturns_giveBack_le s d o now (w.log key)
  have h3 := h.bound
  omega

theorem Bounded.clear {now expiration : Int} (hnow : w.now ≤ now) (hexp : d ≤ expiration + 1) : Bounded M d s key (w.clearExpiredItems now expiration) := by
  rcases clearExpired_cases now expiration (w.store key) with hkeep | ⟨hdrop, hold⟩
  · refine (h.later hnow).congr ?_ rfl rfl
    exact hkeep
  have hqueue : (w.clearExpiredItems now expiration).queue key = [] := by
    show (clearExpired now expiration (w.store key)).getD [] = []
    rw [hdrop]
    rfl
  constructor
  · rw [hqueue]
    exact List.Pairwise.nil
  · rw [hqueue]
    simp
  · rw [hqueue]
    simp
  · exact fun e he => (h.taken e he).trans hnow
  · intro hs
    have hs' : now - d < s := hs
    have hcov := h.covers (by omega)
    have hzero : (w.queue key).countP (fun t => decide (s ≤ t)) = 0 := by
      refine countP_ge_eq_zero fun t ht => ?_
      cases hq : w.store key with
      | none => simp [World.queue, hq] at ht
      | some queue =>
        have hqk : w.queue key = queue := by simp [World.queue, hq]
        rw [hqk] at ht
        obtain ⟨last, hlast⟩ : ∃ last, queue.getLast? = some last :=
          Option.ne_none_iff_exists'.1 fun hn => by
            rw [List.getLast?_eq_none_iff.1 hn] at ht
            simp at ht
        have h1 := le_getLast (hqk ▸ h.sorted) hlast t ht
        have h2 := hold queue hq last hlast
        omega
    rw [hqueue]
    show (w.log key).heldSince s ≤ 0 + (w.log key).lateReturns s d
    omega
  · exact h.bound

end

/-- **One call keeps the invariant of every interval.** -/
theorem Bounded.step (hM : 0 < M) (h : Bounded M d s key w) {a : Int × Call ι}
    (ha : Allowed M d key w a) : Bounded M d s key (w.step a) := by
  obtain ⟨now, call⟩ := a
  obtain ⟨hnow, hin⟩ := ha
  cases call with
  | request o k m d' =>
    show Bounded M d s key (w.request o k now m d').2
    by_cases hk : k = key
    · subst hk
      obtain ⟨hm, hd⟩ := hin rfl
      rcases request_cases (w.store k) now m d' with hno | ⟨gone, rest, hq, hgone, hlen, hyes⟩
      · refine (h.later hnow).congr ?_ ?_ ?_ <;> simp [World.request, hno]
      refine h.admit hnow hq (fun t ht => hd.trans (hgone t ht)) ?_ (o := o) ?_ ?_ ?_
      · have h1 := h.len
        rw [World.queue] at h1
        omega
      all_goals simp [World.request, World.queue, hyes]
    refine (h.later hnow).congr ?_ ?_ rfl
    · simp [World.request, update_of_ne (Ne.symm hk)]
    simp only [World.request]
    split
    · exact update_of_ne (Ne.symm hk) _ _
    · rfl
  | refund o k =>
    show Bounded M d s key (w.refund o k now)
    unfold World.refund
    split
    · rename_i ho
      by_cases hk : k = key
      · subst hk
        exact h.giveBack hnow ho (update_self _ _ _) (update_self _ _ _) rfl
      · exact (h.later hnow).congr (update_of_ne (Ne.symm hk) _ _)
          (update_of_ne (Ne.symm hk) _ _) rfl
    · exact h.later hnow
  | clearExpiredItems expiration => exact h.clear hnow hin

end Steps

/-! ## Runs -/

theorem Bounded.init (M : Nat) (d s : Int) (key : String) (now : Int) :
    Bounded M d s key (World.init now : World ι) where
  sorted := List.Pairwise.nil
  past := by simp [World.queue, World.init]
  len := by simp [World.queue, World.init]
  taken := by simp [World.init]
  covers := by simp [World.queue, World.init, PlaceLog.heldSince]
  bound := by simp [World.init, PlaceLog.heldWithin]

theorem Bounded.lower {M m : Nat} {d s s' : Int} {key : String} {w : World ι}
    (h : Bounded M d s key w) (hm : (w.queue key).length ≤ m) (hs : w.now < s') :
    Bounded m d s' key w := by
  have hzero : (w.log key).heldSince s' = 0 :=
    PlaceLog.heldSince_eq_zero fun e he => lt_of_le_of_lt (h.taken e he) hs
  refine ⟨h.sorted, h.past, hm, h.taken, fun _ => by omega, ?_⟩
  have := PlaceLog.heldWithin_le_heldSince s' d (w.log key)
  omega

/-- **Any run within the limit keeps every interval to the limit**, late refunds
    apart. -/
theorem run_bounded {M : Nat} (hM : 0 < M) {d s : Int} {key : String} {w : World ι}
    {as : List (Int × Call ι)} (h : Bounded M d s key w)
    (has : Meets (Allowed M d key) World.step w as) : Bounded M d s key (run World.step w as) :=
  run_invariant (Bounded M d s key) (fun _ _ h ha => h.step hM ha) h has

end NewApi.RateLimit.Memory
