/-
  NewApi.RateLimit.Slots

  The two scripts of `middleware/model-rate-limit.go` that reserve and refund a
  success slot.

  The counter of a key is a sorted set of members scored by the time of their
  reservation, with a time to live.  Each script is one step: Redis runs it to
  its end.  A member is the reservation's own (`<nano>-<sequence>`), so a refund
  takes out the slot that was reserved, and unlike in `NewApi.RateLimit.Memory`
  the bound of an interval has no late refunds in it.

  A reservation first removes what left the window, so the set it counts holds
  every slot of an interval that reaches up to now (`Bounded.covers`); the time
  to live, which every reservation renews for a whole window, runs out only
  after the last of them has left the window (`Bounded.ttl`).
-/

import NewApi.Lib.Run
import NewApi.Lib.Window
import Mathlib.Algebra.Order.Group.Int
import Mathlib.Data.List.Nodup

set_option linter.unusedSectionVars false

namespace NewApi.RateLimit.Slots

open Function (update_of_ne update_self)
open List (mem_filter)
open Lib

variable {ι : Type*}

/-! ## One key -/

/-- A sorted set by member, and when it expires. -/
structure ZSet (ι : Type*) where
  members : List (ι × Int)
  expireAt : Option Int

namespace ZSet

def empty : ZSet ι := { members := [], expireAt := none }

def norm (z : ZSet ι) : ZSet ι := if z.members.isEmpty then empty else z

/-- What a command at `now` finds: a key whose time is up is gone. -/
def alive (now : Int) (z : ZSet ι) : ZSet ι :=
  if z.expireAt.any (· ≤ now) then empty else z

/-- `ZREMRANGEBYSCORE key -inf max` -/
def zremrangebyscore (max : Int) (z : ZSet ι) : ZSet ι :=
  norm { z with members := z.members.filter fun p => max < p.2 }

/-- `ZCARD key` -/
def zcard (z : ZSet ι) : Nat := z.members.length

/-- `PEXPIRE key window`, which finds a key or does nothing -/
def pexpire (now window : Int) (z : ZSet ι) : ZSet ι :=
  if z.members.isEmpty then z else { z with expireAt := some (now + window) }

variable [DecidableEq ι]

/-- `ZADD key score member` -/
def zadd (score : Int) (member : ι) (z : ZSet ι) : ZSet ι :=
  { z with members := z.members.filter (·.1 ≠ member) ++ [(member, score)] }

/-- `ZREM key member` -/
def zrem (member : ι) (z : ZSet ι) : ZSet ι :=
  norm { z with members := z.members.filter (·.1 ≠ member) }

@[simp] theorem norm_members (z : ZSet ι) : z.norm.members = z.members := by
  unfold norm
  split
  · rename_i h
    rw [List.isEmpty_iff.1 h]
    rfl
  · rfl

end ZSet

variable [DecidableEq ι]

def reserveSuccessSlotScript (z : ZSet ι) (now window maxCount : Int) (member : ι) :
    Bool × ZSet ι :=
  let z := z.alive now
  let z := if 0 < window then z.zremrangebyscore (now - window) else z
  if 0 < maxCount ∧ maxCount ≤ z.zcard then
    (false, if 0 < window then z.pexpire now window else z)
  else
    let z := z.zadd now member
    (true, if 0 < window then z.pexpire now window else z)

def refundSuccessSlotScript (z : ZSet ι) (now : Int) (member : ι) : ZSet ι :=
  (z.alive now).zrem member

def counted (z : ZSet ι) (now window : Int) : List (ι × Int) :=
  (z.alive now).members.filter fun p => now - window < p.2

/-- **A reservation, by outcome**, for a window and a limit as
    `reserveRedisSuccessSlot` passes them. -/
theorem reserveSuccessSlotScript_cases (z : ZSet ι) (now : Int) {window maxCount : Int}
    (hw : 0 < window) (hm : 0 < maxCount) (member : ι) :
    reserveSuccessSlotScript z now window maxCount member =
      (false, { members := counted z now window, expireAt := some (now + window) }) ∨
    ((counted z now window).length < maxCount ∧
      reserveSuccessSlotScript z now window maxCount member =
        (true, { members := (counted z now window).filter (·.1 ≠ member) ++ [(member, now)],
                 expireAt := some (now + window) })) := by
  have hmem : ((z.alive now).zremrangebyscore (now - window)).members = counted z now window := by
    simp [ZSet.zremrangebyscore, counted]
  unfold reserveSuccessSlotScript
  simp only [if_pos hw]
  by_cases hfull : 0 < maxCount ∧ maxCount ≤ ((z.alive now).zremrangebyscore (now - window)).zcard
  · rw [if_pos hfull]
    refine .inl ?_
    have hne : ((z.alive now).zremrangebyscore (now - window)).members.isEmpty = false := by
      rw [Bool.eq_false_iff]
      intro hempty
      have h0 := List.isEmpty_iff.1 hempty
      have := hfull.2
      rw [ZSet.zcard, h0] at this
      simp only [List.length_nil] at this
      omega
    rw [ZSet.pexpire, hne, hmem]
    rfl
  rw [if_neg hfull]
  refine .inr ⟨?_, ?_⟩
  · rw [ZSet.zcard, hmem] at hfull
    omega
  · rw [ZSet.pexpire, ZSet.zadd, hmem]
    simp

/-! ## The counters -/

/-- The counter of each key, the log of who reserved and gave back, the clock. -/
structure World (ι : Type*) where
  store : String → ZSet ι
  log : String → PlaceLog ι
  now : Int

def World.init (now : Int) : World ι :=
  { store := fun _ => ZSet.empty, log := fun _ => [], now := now }

inductive Call (ι : Type*) where
  | reserve (member : ι) (key : String) (window maxCount : Int)
  /-- the request that reserved `member` fails; `fail`: the script errors, which
      is only logged -/
  | refund (member : ι) (key : String) (fail : Bool)

/-- `reserveSuccessSlotScript` on behalf of the request `member` belongs to. -/
def World.reserve (w : World ι) (member : ι) (key : String) (now window maxCount : Int) :
    Bool × World ι :=
  let (ok, z) := reserveSuccessSlotScript (w.store key) now window maxCount member
  (ok, { store := Function.update w.store key z,
         log := if ok then Function.update w.log key ((w.log key).take member now) else w.log,
         now := now })

/-- `refundRedisSuccessSlot` -/
def World.refund (w : World ι) (member : ι) (key : String) (now : Int) (fail : Bool) : World ι :=
  { store := if fail then w.store else
      Function.update w.store key (refundSuccessSlotScript (w.store key) now member),
    log := Function.update w.log key ((w.log key).giveBack member now),
    now := now }

def World.step (w : World ι) (a : Int × Call ι) : World ι :=
  match a.2 with
  | .reserve member key window maxCount => (w.reserve member key a.1 window maxCount).2
  | .refund member key fail => w.refund member key a.1 fail

section Log

variable {w : World ι} {o o' : ι} {k k' : String} {now window m t : Int}

theorem World.reserve_holdsAt (h : (w.log k').HoldsAt o' t) :
    ((w.reserve o k now window m).2.log k').HoldsAt o' t := by
  simp only [World.reserve]
  split
  · by_cases hk : k' = k
    · subst hk
      rw [update_self]
      exact h.take
    · rwa [update_of_ne hk]
  · exact h

theorem World.reserve_taken (h : (w.reserve o k now window m).1 = true) :
    ((w.reserve o k now window m).2.log k).HoldsAt o now := by
  simp only [World.reserve] at h ⊢
  rw [if_pos h, update_self]
  exact PlaceLog.holdsAt_take o now _

theorem World.mem_reserve {e : Place ι} (h : e ∈ (w.reserve o k now window m).2.log k') :
    e ∈ w.log k' ∨ e.owner = o := by
  simp only [World.reserve] at h
  split at h
  · by_cases hk : k' = k
    · subst hk
      rw [update_self] at h
      rcases PlaceLog.mem_take.1 h with h | rfl
      · exact .inl h
      · exact .inr rfl
    · rw [update_of_ne hk] at h
      exact .inl h
  · exact .inl h

theorem World.refund_holdsAt (hne : o' ≠ o) (fail : Bool) (h : (w.log k').HoldsAt o' t) :
    ((w.refund o k now fail).log k').HoldsAt o' t := by
  simp only [World.refund]
  by_cases hk : k' = k
  · subst hk
    rw [update_self]
    exact h.giveBack_ne hne
  · rwa [update_of_ne hk]

theorem World.mem_refund {fail : Bool} {e : Place ι}
    (h : e ∈ (w.refund o k now fail).log k') : ∃ e' ∈ w.log k', e'.owner = e.owner := by
  simp only [World.refund] at h
  by_cases hk : k' = k
  · subst hk
    rw [update_self] at h
    rcases PlaceLog.mem_giveBack h with h | ⟨e', he', -, rfl⟩
    · exact ⟨e, h, rfl⟩
    · exact ⟨e', he', rfl⟩
  · rw [update_of_ne hk] at h
    exact ⟨e, h, rfl⟩

end Log

/-- What a call may do to the window `d` of `key`: the limit is `M` at most and
    positive, the window `d` at least and positive, the member new. -/
def Call.Within (M : Nat) (d : Int) (key : String) (w : World ι) : Call ι → Prop
  | .reserve member k window maxCount => k = key →
      0 < maxCount ∧ maxCount ≤ M ∧ 0 < window ∧ d ≤ window ∧
        member ∉ (w.log key).map Place.owner
  | .refund _ _ _ => True

def Allowed (M : Nat) (d : Int) (key : String) (w : World ι) (a : Int × Call ι) : Prop :=
  w.now ≤ a.1 ∧ a.2.Within M d key w

/-- The invariant behind the bound of the interval `[s, s + d)`. -/
structure Bounded (M : Nat) (d s : Int) (key : String) (w : World ι) : Prop where
  past : ∀ p ∈ (w.store key).members, p.2 ≤ w.now
  taken : ∀ e ∈ w.log key, e.time ≤ w.now
  single : ((w.log key).map Place.owner).Nodup
  ttl : ∀ x ∈ (w.store key).expireAt, ∀ p ∈ (w.store key).members, p.2 + d ≤ x
  covers : w.now - d < s → ∀ e ∈ w.log key, e.held = true → s ≤ e.time →
    (e.owner, e.time) ∈ (w.store key).members
  bound : (w.log key).heldWithin s d ≤ M

section Steps

variable {M : Nat} {d s : Int} {key : String} {w : World ι}

theorem Bounded.later (h : Bounded M d s key w) {now : Int} (hnow : w.now ≤ now) :
    Bounded M d s key { w with now := now } where
  past := fun p hp => (h.past p hp).trans hnow
  taken := fun e he => (h.taken e he).trans hnow
  single := h.single
  ttl := h.ttl
  covers := fun hs => h.covers (by have : now - d < s := hs; omega)
  bound := h.bound

theorem Bounded.congr (h : Bounded M d s key w) {w' : World ι}
    (hstore : w'.store key = w.store key) (hlog : w'.log key = w.log key)
    (hnow : w'.now = w.now) : Bounded M d s key w' := by
  constructor
  · rw [hstore, hnow]
    exact h.past
  · rw [hlog, hnow]
    exact h.taken
  · rw [hlog]
    exact h.single
  · rw [hstore]
    exact h.ttl
  · rw [hstore, hlog, hnow]
    exact h.covers
  · rw [hlog]
    exact h.bound

theorem mem_alive {z : ZSet ι} {now : Int} {p : ι × Int}
    (hp : p ∈ (z.alive now).members) : p ∈ z.members ∧ (z.alive now).expireAt = z.expireAt := by
  unfold ZSet.alive at hp ⊢
  split at hp
  · simp [ZSet.empty] at hp
  · rename_i h
    exact ⟨hp, by rw [if_neg h]⟩

theorem Bounded.alive (h : Bounded M d s key w) {now : Int} (hs : now - d < s)
    {p : ι × Int} (hp : p ∈ (w.store key).members) (hps : s ≤ p.2) :
    p ∈ ((w.store key).alive now).members := by
  unfold ZSet.alive
  split
  · rename_i hexp
    obtain ⟨x, hx, hle⟩ := Option.any_eq_true _ _ |>.1 hexp
    have h1 := h.ttl x hx p hp
    have h2 : x ≤ now := by simpa using hle
    omega
  · exact hp

theorem Bounded.counted (h : Bounded M d s key w) {now window : Int} (hd : d ≤ window)
    (hnow : w.now ≤ now) (hs : now - d < s) {e : Place ι} (he : e ∈ w.log key)
    (hheld : e.held = true) (hes : s ≤ e.time) :
    (e.owner, e.time) ∈ Slots.counted (w.store key) now window := by
  have hmem := h.covers (by omega) e he hheld hes
  refine mem_filter.2 ⟨h.alive hs hmem hes, ?_⟩
  simp only [decide_eq_true_eq]
  omega

theorem heldSince_le_length {log : PlaceLog ι} (hnd : (log.map Place.owner).Nodup)
    {members : List (ι × Int)}
    (h : ∀ e ∈ log, e.held = true → s ≤ e.time → (e.owner, e.time) ∈ members) :
    log.heldSince s ≤ members.length := by
  have hnd' : ((log.filter (Place.heldSince s)).map fun e => (e.owner, e.time)).Nodup := by
    refine List.Nodup.of_map Prod.fst ?_
    rw [List.map_map]
    exact hnd.sublist (List.Sublist.map _ List.filter_sublist)
  have hsub : (log.filter (Place.heldSince s)).map (fun e => (e.owner, e.time)) ⊆ members := by
    intro p hp
    obtain ⟨e, he, rfl⟩ := List.mem_map.1 hp
    obtain ⟨hlog, hsince⟩ := mem_filter.1 he
    simp only [Place.heldSince, Bool.and_eq_true, decide_eq_true_eq] at hsince
    exact h e hlog hsince.1 hsince.2
  have hlen := (List.subperm_of_subset hnd' hsub).length_le
  rwa [List.length_map, ← List.countP_eq_length_filter] at hlen

section
variable (h : Bounded M d s key w)
include h

theorem Bounded.refused {now window : Int} (hd : d ≤ window)
    (hnow : w.now ≤ now) {w' : World ι}
    (hstore : w'.store key = { members := Slots.counted (w.store key) now window,
                               expireAt := some (now + window) })
    (hlog : w'.log key = w.log key) (hnow' : w'.now = now) : Bounded M d s key w' := by
  have hpast : ∀ p ∈ Slots.counted (w.store key) now window, p.2 ≤ now := fun p hp =>
    (h.past p (mem_alive (mem_filter.1 hp).1).1).trans hnow
  constructor
  · rw [hstore, hnow']
    exact hpast
  · rw [hlog, hnow']
    exact fun e he => (h.taken e he).trans hnow
  · rw [hlog]
    exact h.single
  · rw [hstore]
    intro x hx p hp
    have h1 := hpast p hp
    have h2 : now + window = x := by simpa using hx
    omega
  · rw [hstore, hlog, hnow']
    exact fun hs e he hheld hes => h.counted hd hnow hs he hheld hes
  · rw [hlog]
    exact h.bound

theorem Bounded.admit {now window maxCount : Int} (hd : d ≤ window)
    (hm : maxCount ≤ M) (hnow : w.now ≤ now) {member : ι}
    (hnew : member ∉ (w.log key).map Place.owner)
    (hroom : (Slots.counted (w.store key) now window).length < maxCount) {w' : World ι}
    (hstore : w'.store key =
      { members := (Slots.counted (w.store key) now window).filter (·.1 ≠ member) ++
          [(member, now)],
        expireAt := some (now + window) })
    (hlog : w'.log key = (w.log key).take member now) (hnow' : w'.now = now) :
    Bounded M d s key w' := by
  have hpast : ∀ p ∈ (Slots.counted (w.store key) now window).filter (·.1 ≠ member) ++
      [(member, now)], p.2 ≤ now := by
    intro p hp
    rcases List.mem_append.1 hp with hp | hp
    · exact (h.past p (mem_alive (mem_filter.1 (mem_filter.1 hp).1).1).1).trans hnow
    · rw [List.mem_singleton.1 hp]
  have hsingle : ((w'.log key).map Place.owner).Nodup := by
    rw [hlog, PlaceLog.take, List.map_append]
    exact List.nodup_append.2 ⟨h.single, List.nodup_singleton _, fun o ho o' ho' => by
      rw [List.mem_singleton.1 ho']
      rintro rfl
      exact hnew ho⟩
  have hcovers : w'.now - d < s → ∀ e ∈ w'.log key, e.held = true → s ≤ e.time →
      (e.owner, e.time) ∈ (w'.store key).members := by
    rw [hnow', hlog, hstore]
    intro hs e he hheld hes
    rcases PlaceLog.mem_take.1 he with hold | rfl
    · have hne : e.owner ≠ member := fun heq => hnew (heq ▸ List.mem_map_of_mem hold)
      exact List.mem_append_left _
        (mem_filter.2 ⟨h.counted hd hnow hs hold hheld hes, by simpa using hne⟩)
    · exact List.mem_append_right _ (List.mem_singleton_self _)
  constructor
  · rw [hstore, hnow']
    exact hpast
  · rw [hlog, hnow']
    intro e he
    rcases PlaceLog.mem_take.1 he with he | rfl
    · exact (h.taken e he).trans hnow
    · exact le_refl now
  · exact hsingle
  · rw [hstore]
    intro x hx p hp
    have h1 := hpast p hp
    have h2 : now + window = x := by simpa using hx
    omega
  · exact hcovers
  by_cases hin : s ≤ now ∧ now < s + d
  · -- the interval reaches up to now, so the set bounds it
    have h1 := heldSince_le_length hsingle (hcovers (by rw [hnow']; omega))
    have h2 := PlaceLog.heldWithin_le_heldSince s d (w'.log key)
    have h3 : ((Slots.counted (w.store key) now window).filter (·.1 ≠ member)).length ≤
        (Slots.counted (w.store key) now window).length := List.length_filter_le _ _
    rw [hstore, List.length_append, List.length_singleton] at h1
    omega
  have hb := h.bound
  rw [hlog, PlaceLog.heldWithin_take, if_neg hin]
  omega

theorem Bounded.giveBack {now : Int} (hnow : w.now ≤ now) (member : ι) (fail : Bool) : Bounded M d s key (w.refund member key now fail) := by
  have hlog : (w.refund member key now fail).log key = (w.log key).giveBack member now :=
    update_self _ _ _
  have hsub : ∀ p ∈ ((w.refund member key now fail).store key).members,
      p ∈ (w.store key).members ∧
        ∀ x ∈ ((w.refund member key now fail).store key).expireAt,
          x ∈ (w.store key).expireAt := by
    intro p hp
    cases fail with
    | true => exact ⟨hp, fun _ hx => hx⟩
    | false =>
      have hstore : (w.refund member key now false).store key =
          refundSuccessSlotScript (w.store key) now member := by
        simp [World.refund]
      rw [hstore] at hp ⊢
      unfold refundSuccessSlotScript ZSet.zrem at hp ⊢
      rw [ZSet.norm_members] at hp
      obtain ⟨hold, hexp⟩ := mem_alive (mem_filter.1 hp).1
      refine ⟨hold, fun x hx => ?_⟩
      unfold ZSet.norm at hx
      split at hx
      · simp [ZSet.empty] at hx
      · rwa [← hexp]
  constructor
  · exact fun p hp => (h.past p (hsub p hp).1).trans hnow
  · rw [hlog]
    intro e he
    rcases PlaceLog.mem_giveBack he with he | ⟨e', he', -, rfl⟩
    · exact (h.taken e he).trans hnow
    · exact (h.taken e' he').trans hnow
  · rw [hlog, PlaceLog.map_owner_giveBack]
    exact h.single
  · exact fun x hx p hp => h.ttl x ((hsub p hp).2 x hx) p (hsub p hp).1
  · intro hs e he hheld hes
    have hs' : now - d < s := hs
    rw [hlog] at he
    obtain ⟨hold, hne⟩ := PlaceLog.held_giveBack h.single he hheld
    have hmem := h.covers (by omega) e hold hheld hes
    cases fail with
    | true => exact hmem
    | false =>
      have hstore : (w.refund member key now false).store key =
          refundSuccessSlotScript (w.store key) now member := by
        simp [World.refund]
      rw [hstore, refundSuccessSlotScript, ZSet.zrem, ZSet.norm_members]
      exact mem_filter.2 ⟨h.alive hs' hmem hes, by simpa using hne⟩
  · rw [hlog]
    exact (PlaceLog.heldWithin_giveBack_le s d member now (w.log key)).trans h.bound

/-- **One script keeps the invariant of every interval.** -/
theorem Bounded.step {a : Int × Call ι} (ha : Allowed M d key w a) :
    Bounded M d s key (w.step a) := by
  obtain ⟨now, call⟩ := a
  obtain ⟨hnow, hin⟩ := ha
  cases call with
  | reserve member k window maxCount =>
    show Bounded M d s key (w.reserve member k now window maxCount).2
    by_cases hk : k = key
    · subst hk
      obtain ⟨hpos, hm, hw, hd, hnew⟩ := hin rfl
      rcases reserveSuccessSlotScript_cases (w.store k) now hw hpos member with
        hno | ⟨hroom, hyes⟩
      · refine h.refused hd hnow ?_ ?_ rfl <;> simp [World.reserve, hno]
      · refine h.admit hd hm hnow hnew hroom ?_ ?_ rfl <;> simp [World.reserve, hyes]
    refine (h.later hnow).congr ?_ ?_ rfl
    · simp [World.reserve, update_of_ne (Ne.symm hk)]
    simp only [World.reserve]
    split
    · exact update_of_ne (Ne.symm hk) _ _
    · rfl
  | refund member k fail =>
    show Bounded M d s key (w.refund member k now fail)
    by_cases hk : k = key
    · subst hk
      exact h.giveBack hnow member fail
    refine (h.later hnow).congr ?_ ?_ rfl
    · simp only [World.refund]
      split
      · rfl
      · exact update_of_ne (Ne.symm hk) _ _
    · exact update_of_ne (Ne.symm hk) _ _

end

end Steps

/-! ## Runs -/

theorem Bounded.init (M : Nat) (d s : Int) (key : String) (now : Int) :
    Bounded M d s key (World.init now : World ι) where
  past := by simp [World.init, ZSet.empty]
  taken := by simp [World.init]
  single := by simp [World.init]
  ttl := by simp [World.init, ZSet.empty]
  covers := by simp [World.init]
  bound := by simp [World.init, PlaceLog.heldWithin]

theorem Bounded.lower {M : Nat} (m : Nat) {d s s' : Int} {key : String} {w : World ι}
    (h : Bounded M d s key w) (hs : w.now < s') : Bounded m d s' key w := by
  have hzero : (w.log key).heldSince s' = 0 :=
    PlaceLog.heldSince_eq_zero fun e he => lt_of_le_of_lt (h.taken e he) hs
  refine ⟨h.past, h.taken, h.single, h.ttl, ?_, ?_⟩
  · intro _ e he _ hes
    have := h.taken e he
    omega
  · have := PlaceLog.heldWithin_le_heldSince s' d (w.log key)
    omega

/-- **Any run within the limit keeps every interval to the limit.** -/
theorem run_bounded {M : Nat} {d s : Int} {key : String} {w : World ι}
    {as : List (Int × Call ι)} (h : Bounded M d s key w)
    (has : Meets (Allowed M d key) World.step w as) : Bounded M d s key (run World.step w as) :=
  run_invariant (Bounded M d s key) (fun _ _ h ha => h.step ha) h has

end NewApi.RateLimit.Slots
