/-
  NewApi.RateLimit.Handlers

  `redisRateLimitHandler` and `memoryRateLimitHandler` of
  `middleware/model-rate-limit.go`, for any number of requests at once.

  A request reserves a success place first, then passes the check of the total
  count, is served, and gives the place back unless it succeeded.  Where Redis
  errors, the request goes on with the memory handler; a place it already holds
  in Redis is given back when that returns, whatever became of the request.

  The answers of Redis, of its token bucket and of the handlers behind are the
  environment's, and requests interleave between the calls.  A request's place
  is its own in both logs (`Inv.memHeld`, `Inv.redHeld`), so the successes of an
  interval are counted by the places held in it.
-/

import NewApi.RateLimit.Memory
import NewApi.RateLimit.Slots

namespace NewApi.RateLimit

open Function (update_of_ne update_self)
open Lib

/-! ## Requests -/

/-- What `ModelRequestRateLimit` has found for a request: whose it is and the
    limits of its group. -/
structure Req where
  userId : Int
  group : String
  duration : Int
  totalMaxCount : Int
  successMaxCount : Int

/-- `ModelRequestRateLimitCountMark` -/
def countMark : String := "MRRL"

/-- `ModelRequestRateLimitSuccessCountMark` -/
def successCountMark : String := "MRRLS"

/-- `modelSuccessLimitKeyVersion` -/
def successLimitKeyVersion : String := "v2"

/-- `totalKey` of the memory handler -/
def totalKey (group : String) (userId : Int) : String :=
  countMark ++ group ++ ":" ++ toString userId

/-- `successKey` of the memory handler -/
def successKey (group : String) (userId : Int) : String :=
  successCountMark ++ successLimitKeyVersion ++ group ++ ":" ++ toString userId

/-- `successKey` of the Redis handler -/
def redisSuccessKey (group : String) (userId : Int) : String :=
  "rateLimit:" ++ successCountMark ++ ":" ++ successLimitKeyVersion ++ ":" ++ group ++ ":" ++
    toString userId

/-- How a request ends.  The slot is the time of the place it keeps. -/
inductive Outcome where
  | refused
  | failed
  | servedByRedis (slot : Option Int)
  | servedByMemory (slot : Option Int)
deriving DecidableEq

/-- Where a request is.  `slot` is the place it holds in the handler's own
    counter, `outer` the one it still holds in Redis inside the memory handler. -/
inductive Phase where
  | waiting
  | redisChecking (slot : Option Int)
  | redisServing (slot : Option Int)
  | memoryChecking (outer slot : Option Int)
  | memoryServing (outer slot : Option Int)
  | done (outcome : Outcome)
deriving DecidableEq

def Phase.redisSlot : Phase → Option Int
  | .redisChecking slot | .redisServing slot => slot
  | .memoryChecking outer _ | .memoryServing outer _ => outer
  | .done (.servedByRedis slot) => slot
  | _ => none

def Phase.memorySlot : Phase → Option Int
  | .memoryChecking _ slot | .memoryServing _ slot => slot
  | .done (.servedByMemory slot) => slot
  | _ => none

/-- How `reserveSuccessSlotScript.Run` comes back. -/
inductive Reply where
  | answer
  | error
  /-- the script ran, its reply was lost -/
  | lost

inductive Act (ι : Type*) where
  | arrive (r : ι) (redisEnabled : Bool) (reply : Reply)
  /-- `bucket` is the answer of `tb.Allow`; `refundFail`: a `ZREM` errors -/
  | checkTotal (r : ι) (bucket : Except Unit Bool) (refundFail : Bool)
  /-- `c.Next()` returns with a status, or panics -/
  | finish (r : ι) (status : Option Int) (refundFail : Bool)
  | clearExpiredItems (expiration : Int)

variable {ι : Type*} [DecidableEq ι]

/-- `now` is in milliseconds; the memory limiter reads `time.Now().Unix()`. -/
structure World (ι : Type*) where
  mem : Memory.World ι
  red : Slots.World ι
  phase : ι → Phase
  now : Int

def World.init (now : Int) : World ι :=
  { mem := .init (now / 1000), red := .init now, phase := fun _ => .waiting, now := now }

namespace World

variable (req : ι → Req)

variable (w : World ι)

variable (r : ι)

def setPhase (p : Phase) : World ι :=
  { w with phase := Function.update w.phase r p }

/-- `inMemoryRateLimiter.Refund(successKey)`, where a place was reserved. -/
def giveBackMemory (slot : Option Int) : World ι :=
  if slot.isSome then
    { w with mem := w.mem.refund r (successKey (req r).group (req r).userId) (w.now / 1000) }
  else w

/-- `refundRedisSuccessSlot`, where a place was reserved. -/
def giveBackRedis (slot : Option Int) (fail : Bool) : World ι :=
  if slot.isSome then
    { w with red := w.red.refund r (redisSuccessKey (req r).group (req r).userId) w.now fail }
  else w

/-- `memoryRateLimitHandler` up to the reservation. -/
def enterMemory (outer : Option Int) (refundFail : Bool) : World ι :=
  if 0 < (req r).successMaxCount ∧ 0 < (req r).duration then
    let (ok, mem) := w.mem.request r (successKey (req r).group (req r).userId) (w.now / 1000)
      (req r).successMaxCount (req r).duration
    let w := { w with mem := mem }
    if ok then w.setPhase r (.memoryChecking outer (some (w.now / 1000)))
    else (w.giveBackRedis req r outer refundFail).setPhase r (.done .refused)
  else w.setPhase r (.memoryChecking outer none)

/-- `reserveRedisSuccessSlot`'s script for `r`. -/
def reserve (w : World ι) (r : ι) : Bool × World ι :=
  let (ok, red) := w.red.reserve r (redisSuccessKey (req r).group (req r).userId) w.now
    ((req r).duration * 1000) (req r).successMaxCount
  (ok, { w with red := red })

/-- The handler `ModelRequestRateLimit` picks, up to the reservation. -/
def arrive (redisEnabled : Bool) (reply : Reply) : World ι :=
  if redisEnabled then
    if (req r).successMaxCount ≤ 0 ∨ (req r).duration ≤ 0 then w.setPhase r (.redisChecking none)
    else
      match reply with
      | .error => w.enterMemory req r none false
      | .lost => (w.reserve req r).2.enterMemory req r none false
      | .answer =>
        let (ok, w) := w.reserve req r
        if ok then w.setPhase r (.redisChecking (some w.now))
        else w.setPhase r (.done .refused)
  else w.enterMemory req r none false

/-- The check of the total count, in either handler. -/
def checkTotal (bucket : Except Unit Bool) (refundFail : Bool) : World ι :=
  match w.phase r with
  | .redisChecking slot =>
    if 0 < (req r).totalMaxCount then
      match bucket with
      | .error () => w.enterMemory req r slot refundFail
      | .ok true => w.setPhase r (.redisServing slot)
      | .ok false => (w.giveBackRedis req r slot refundFail).setPhase r (.done .refused)
    else w.setPhase r (.redisServing slot)
  | .memoryChecking outer slot =>
    if 0 < (req r).totalMaxCount then
      let (ok, mem) := w.mem.request r (totalKey (req r).group (req r).userId) (w.now / 1000)
        (req r).totalMaxCount (req r).duration
      let w := { w with mem := mem }
      if ok then w.setPhase r (.memoryServing outer slot)
      else ((w.giveBackMemory req r slot).giveBackRedis req r outer refundFail).setPhase r
        (.done .refused)
    else w.setPhase r (.memoryServing outer slot)
  | _ => w

/-- The rest of either handler: a status below 400 keeps the place. -/
def finish (status : Option Int) (refundFail : Bool) : World ι :=
  let ok := status.any (· < 400)
  match w.phase r with
  | .redisServing slot =>
    if ok then w.setPhase r (.done (.servedByRedis slot))
    else (w.giveBackRedis req r slot refundFail).setPhase r (.done .failed)
  | .memoryServing outer slot =>
    if ok then (w.giveBackRedis req r outer refundFail).setPhase r (.done (.servedByMemory slot))
    else ((w.giveBackMemory req r slot).giveBackRedis req r outer refundFail).setPhase r
      (.done .failed)
  | _ => w

/-- An act at a time. -/
def step (a : Int × Act ι) : World ι :=
  let w := { w with now := a.1 }
  match a.2 with
  | .arrive r redisEnabled reply =>
    if w.phase r = .waiting then w.arrive req r redisEnabled reply else w
  | .checkTotal r bucket refundFail => w.checkTotal req r bucket refundFail
  | .finish r status refundFail => w.finish req r status refundFail
  | .clearExpiredItems expiration =>
    { w with mem := w.mem.clearExpiredItems (w.now / 1000) expiration }

end World

/-- The clock does not go back, and a pass spares what is younger than `d`. -/
def InTime (d : Int) (w : World ι) (a : Int × Act ι) : Prop :=
  w.now ≤ a.1 ∧ ∀ expiration, a.2 = .clearExpiredItems expiration → d ≤ expiration + 1

/-- The limits behind the two counters of `group` and `userId`: each request that
    counts on one of them is limited to `M` at most in a window of `d` at
    least. -/
structure Limits (req : ι → Req) (M : Nat) (d : Int) (group : String) (userId : Int) : Prop where
  success : ∀ r, successKey (req r).group (req r).userId = successKey group userId →
    (req r).successMaxCount ≤ M ∧ d ≤ (req r).duration
  total : ∀ r, totalKey (req r).group (req r).userId = successKey group userId →
    (req r).totalMaxCount ≤ M ∧ d ≤ (req r).duration
  redis : ∀ r, redisSuccessKey (req r).group (req r).userId = redisSuccessKey group userId →
    (req r).successMaxCount ≤ M ∧ d ≤ (req r).duration

/-! ## The invariant -/

section Invariant

variable (req : ι → Req) (M : Nat) (d sm sr : Int) (group : String) (userId : Int)

/-- Both counters are bounded, and a request's phase tells the places it holds.
    `sm` and `sr` are the starts of the two intervals, in seconds and in
    milliseconds. -/
structure Inv (w : World ι) : Prop where
  mem : Memory.Bounded M d sm (successKey group userId) w.mem
  red : Slots.Bounded M (d * 1000) sr (redisSuccessKey group userId) w.red
  memNow : w.mem.now ≤ w.now / 1000
  redNow : w.red.now ≤ w.now
  started : ∀ key, ∀ e ∈ w.red.log key, w.phase e.owner ≠ .waiting
  memHeld : ∀ r t, (w.phase r).memorySlot = some t →
    (w.mem.log (successKey (req r).group (req r).userId)).HoldsAt r t
  redHeld : ∀ r t, (w.phase r).redisSlot = some t →
    (w.red.log (redisSuccessKey (req r).group (req r).userId)).HoldsAt r t

/-- The invariant in the middle of an act of `r`, whose phase is yet to be set. -/
structure Mid (r : ι) (w : World ι) : Prop where
  mem : Memory.Bounded M d sm (successKey group userId) w.mem
  red : Slots.Bounded M (d * 1000) sr (redisSuccessKey group userId) w.red
  memNow : w.mem.now ≤ w.now / 1000
  redNow : w.red.now ≤ w.now
  started : ∀ key, ∀ e ∈ w.red.log key, e.owner ≠ r → w.phase e.owner ≠ .waiting
  memHeld : ∀ r', r' ≠ r → ∀ t, (w.phase r').memorySlot = some t →
    (w.mem.log (successKey (req r').group (req r').userId)).HoldsAt r' t
  redHeld : ∀ r', r' ≠ r → ∀ t, (w.phase r').redisSlot = some t →
    (w.red.log (redisSuccessKey (req r').group (req r').userId)).HoldsAt r' t

end Invariant

section Steps

variable {req : ι → Req} {M : Nat} {d sm sr : Int} {group : String} {userId : Int} {r : ι}
  {w : World ι}

omit [DecidableEq ι] in
theorem Inv.mid (h : Inv req M d sm sr group userId w) (r : ι) :
    Mid req M d sm sr group userId r w where
  mem := h.mem
  red := h.red
  memNow := h.memNow
  redNow := h.redNow
  started := fun key e he _ => h.started key e he
  memHeld := fun r' _ => h.memHeld r'
  redHeld := fun r' _ => h.redHeld r'

theorem Mid.setPhase (h : Mid req M d sm sr group userId r w) {p : Phase} (hp : p ≠ .waiting)
    (hm : ∀ t, p.memorySlot = some t →
      (w.mem.log (successKey (req r).group (req r).userId)).HoldsAt r t)
    (hr : ∀ t, p.redisSlot = some t →
      (w.red.log (redisSuccessKey (req r).group (req r).userId)).HoldsAt r t) :
    Inv req M d sm sr group userId (w.setPhase r p) where
  mem := h.mem
  red := h.red
  memNow := h.memNow
  redNow := h.redNow
  started := by
    intro key e he
    show Function.update w.phase r p e.owner ≠ .waiting
    by_cases hk : e.owner = r
    · rwa [hk, update_self]
    · rw [update_of_ne hk]
      exact h.started key e he hk
  memHeld := by
    intro r' t ht
    have ht' : (Function.update w.phase r p r').memorySlot = some t := ht
    by_cases hk : r' = r
    · subst hk
      rw [update_self] at ht'
      exact hm t ht'
    · rw [update_of_ne hk] at ht'
      exact h.memHeld r' hk t ht'
  redHeld := by
    intro r' t ht
    have ht' : (Function.update w.phase r p r').redisSlot = some t := ht
    by_cases hk : r' = r
    · subst hk
      rw [update_self] at ht'
      exact hr t ht'
    · rw [update_of_ne hk] at ht'
      exact h.redHeld r' hk t ht'

theorem Mid.request (hM : 0 < M) (h : Mid req M d sm sr group userId r w) {key : String}
    {m d' : Int} (hin : key = successKey group userId → m ≤ M ∧ d ≤ d') :
    Mid req M d sm sr group userId r
      { w with mem := (w.mem.request r key (w.now / 1000) m d').2 } where
  mem := h.mem.step hM (a := (w.now / 1000, .request r key m d')) ⟨h.memNow, hin⟩
  red := h.red
  memNow := le_refl _
  redNow := h.redNow
  started := h.started
  memHeld := fun r' hne t ht => Memory.World.request_holdsAt (h.memHeld r' hne t ht)
  redHeld := h.redHeld

theorem Mid.giveBackMemory (hM : 0 < M) (h : Mid req M d sm sr group userId r w)
    (slot : Option Int) : Mid req M d sm sr group userId r (w.giveBackMemory req r slot) := by
  unfold World.giveBackMemory
  split
  · refine ⟨?_, h.red, ?_, h.redNow, h.started, ?_, h.redHeld⟩
    · exact h.mem.step hM
        (a := (w.now / 1000, .refund r (successKey (req r).group (req r).userId)))
        ⟨h.memNow, trivial⟩
    · unfold Memory.World.refund
      split <;> exact le_refl _
    · exact fun r' hne t ht => Memory.World.refund_holdsAt hne (h.memHeld r' hne t ht)
  · exact h

theorem Mid.giveBackRedis (h : Mid req M d sm sr group userId r w) (slot : Option Int)
    (fail : Bool) : Mid req M d sm sr group userId r (w.giveBackRedis req r slot fail) := by
  unfold World.giveBackRedis
  split
  · refine ⟨h.mem, ?_, h.memNow, le_refl _, ?_, h.memHeld, ?_⟩
    · exact h.red.step
        (a := (w.now, .refund r (redisSuccessKey (req r).group (req r).userId) fail))
        ⟨h.redNow, trivial⟩
    · intro key e he hne
      obtain ⟨e', he', howner⟩ := Slots.World.mem_refund he
      rw [← howner] at hne ⊢
      exact h.started key e' he' hne
    · exact fun r' hne t ht => Slots.World.refund_holdsAt hne fail (h.redHeld r' hne t ht)
  · exact h

theorem Mid.reserve (hl : Limits req M d group userId) (h : Mid req M d sm sr group userId r w)
    (hpos : 0 < (req r).successMaxCount) (hd : 0 < (req r).duration)
    (hnew : ∀ key, r ∉ (w.red.log key).map Place.owner) :
    Mid req M d sm sr group userId r (w.reserve req r).2 := by
  refine ⟨h.mem, ?_, h.memNow, le_refl _, ?_, h.memHeld, ?_⟩
  · refine h.red.step (a := (w.now, .reserve r (redisSuccessKey (req r).group (req r).userId)
      ((req r).duration * 1000) (req r).successMaxCount)) ⟨h.redNow, ?_⟩
    intro hk
    obtain ⟨hm, hd'⟩ := hl.redis r hk
    exact ⟨hpos, hm, by omega, by omega, hnew _⟩
  · intro key e he hne
    rcases Slots.World.mem_reserve he with he | he
    · exact h.started key e he hne
    · exact absurd he hne
  · exact fun r' hne t ht => Slots.World.reserve_holdsAt (h.redHeld r' hne t ht)

theorem giveBackRedis_mem (slot : Option Int) (fail : Bool) :
    (w.giveBackRedis req r slot fail).mem = w.mem := by
  unfold World.giveBackRedis
  split <;> rfl

section
variable (hM : 0 < M)
include hM

theorem Mid.enterMemory (hl : Limits req M d group userId)
    (h : Mid req M d sm sr group userId r w) (outer : Option Int) (fail : Bool)
    (hr : ∀ t, outer = some t →
      (w.red.log (redisSuccessKey (req r).group (req r).userId)).HoldsAt r t) :
    Inv req M d sm sr group userId (w.enterMemory req r outer fail) := by
  unfold World.enterMemory
  split
  · have hmid := h.request hM (hl.success r)
    simp only
    split
    · rename_i hok
      refine hmid.setPhase (by simp) ?_ hr
      intro t ht
      obtain rfl := Option.some.inj ht
      exact Memory.World.request_taken hok
    · exact (hmid.giveBackRedis outer fail).setPhase (by simp) (by simp [Phase.memorySlot])
        (by simp [Phase.redisSlot])
  · exact h.setPhase (by simp) (by simp [Phase.memorySlot]) hr

/-- **A request arrives.** -/
theorem Inv.arrive (hl : Limits req M d group userId) (h : Inv req M d sm sr group userId w)
    (hwait : w.phase r = .waiting) (redisEnabled : Bool) (reply : Reply) : Inv req M d sm sr group userId (w.arrive req r redisEnabled reply) := by
  have hnew : ∀ key, r ∉ (w.red.log key).map Place.owner := by
    intro key hmem
    obtain ⟨e, he, rfl⟩ := List.mem_map.1 hmem
    exact h.started key e he hwait
  unfold World.arrive
  split
  · split
    · exact (h.mid r).setPhase (by simp) (by simp [Phase.memorySlot]) (by simp [Phase.redisSlot])
    have hpos : 0 < (req r).successMaxCount := by omega
    have hd : 0 < (req r).duration := by omega
    have hmid := (h.mid r).reserve hl hpos hd hnew
    cases reply with
    | error => exact (h.mid r).enterMemory hM hl none false (by simp)
    | lost => exact hmid.enterMemory hM hl none false (by simp)
    | answer =>
      simp only
      split
      · rename_i hok
        refine hmid.setPhase (by simp) (by simp [Phase.memorySlot]) ?_
        intro t ht
        obtain rfl := Option.some.inj ht
        exact Slots.World.reserve_taken hok
      · exact hmid.setPhase (by simp) (by simp [Phase.memorySlot]) (by simp [Phase.redisSlot])
  · exact (h.mid r).enterMemory hM hl none false (by simp)

theorem Mid.release (h : Mid req M d sm sr group userId r w) (outer slot : Option Int) (fail : Bool)
    {o : Outcome} (ho : o = .refused ∨ o = .failed) :
    Inv req M d sm sr group userId
      (((w.giveBackMemory req r slot).giveBackRedis req r outer fail).setPhase r (.done o)) := by
  refine ((h.giveBackMemory hM slot).giveBackRedis outer fail).setPhase (by simp) ?_ ?_
  · rcases ho with rfl | rfl <;> simp [Phase.memorySlot]
  · rcases ho with rfl | rfl <;> simp [Phase.redisSlot]

/-- **The total count is checked.** -/
theorem Inv.checkTotal (hl : Limits req M d group userId) (h : Inv req M d sm sr group userId w)
    (bucket : Except Unit Bool) (fail : Bool) :
    Inv req M d sm sr group userId (w.checkTotal req r bucket fail) := by
  unfold World.checkTotal
  cases hph : w.phase r with
  | redisChecking slot =>
    have hr : ∀ t, slot = some t →
        (w.red.log (redisSuccessKey (req r).group (req r).userId)).HoldsAt r t := fun t ht =>
      h.redHeld r t (by rw [hph]; exact ht)
    simp only
    split
    · split
      · exact (h.mid r).enterMemory hM hl slot fail hr
      · exact (h.mid r).setPhase (by simp) (by simp [Phase.memorySlot]) hr
      · exact ((h.mid r).giveBackRedis slot fail).setPhase (by simp)
          (by simp [Phase.memorySlot]) (by simp [Phase.redisSlot])
    · exact (h.mid r).setPhase (by simp) (by simp [Phase.memorySlot]) hr
  | memoryChecking outer slot =>
    have hr : ∀ t, outer = some t →
        (w.red.log (redisSuccessKey (req r).group (req r).userId)).HoldsAt r t := fun t ht =>
      h.redHeld r t (by rw [hph]; exact ht)
    have hm : ∀ t, slot = some t →
        (w.mem.log (successKey (req r).group (req r).userId)).HoldsAt r t := fun t ht =>
      h.memHeld r t (by rw [hph]; exact ht)
    simp only
    split
    · have hmid := (h.mid r).request hM (hl.total r)
      split
      · exact hmid.setPhase (by simp)
          (fun t ht => Memory.World.request_holdsAt (hm t ht)) hr
      · exact hmid.release hM outer slot fail (.inl rfl)
    · exact (h.mid r).setPhase (by simp) hm hr
  | _ => exact h

/-- **The handlers behind return.** -/
theorem Inv.finish (h : Inv req M d sm sr group userId w) (status : Option Int) (fail : Bool) : Inv req M d sm sr group userId (w.finish req r status fail) := by
  unfold World.finish
  cases hph : w.phase r with
  | redisServing slot =>
    simp only
    split
    · exact (h.mid r).setPhase (by simp) (by simp [Phase.memorySlot])
        (fun t ht => h.redHeld r t (by rw [hph]; exact ht))
    · exact ((h.mid r).giveBackRedis slot fail).setPhase (by simp)
        (by simp [Phase.memorySlot]) (by simp [Phase.redisSlot])
  | memoryServing outer slot =>
    simp only
    split
    · refine ((h.mid r).giveBackRedis outer fail).setPhase (by simp) ?_
        (by simp [Phase.redisSlot])
      rw [giveBackRedis_mem]
      exact fun t ht => h.memHeld r t (by rw [hph]; exact ht)
    · exact (h.mid r).release hM outer slot fail (.inr rfl)
  | _ => exact h

/-- **One act keeps the invariant.** -/
theorem Inv.step (hl : Limits req M d group userId) (h : Inv req M d sm sr group userId w)
    {a : Int × Act ι} (ha : InTime d w a) : Inv req M d sm sr group userId (w.step req a) := by
  obtain ⟨now, act⟩ := a
  obtain ⟨hnow, hexp⟩ := ha
  have hnow' : w.now ≤ now := hnow
  have hdiv : w.now / 1000 ≤ now / 1000 := Int.ediv_le_ediv (by decide) hnow'
  have hlater : Inv req M d sm sr group userId { w with now := now } :=
    ⟨h.mem, h.red, h.memNow.trans hdiv, h.redNow.trans hnow', h.started, h.memHeld, h.redHeld⟩
  cases act with
  | arrive r redisEnabled reply =>
    simp only [World.step]
    split
    · rename_i hwait
      exact hlater.arrive hM hl hwait redisEnabled reply
    · exact hlater
  | checkTotal r bucket fail => exact hlater.checkTotal hM hl bucket fail
  | finish r status fail => exact hlater.finish hM status fail
  | clearExpiredItems expiration =>
    exact ⟨hlater.mem.clear hlater.memNow (hexp expiration rfl), hlater.red, le_refl _,
      hlater.redNow, hlater.started, hlater.memHeld, hlater.redHeld⟩

end

end Steps

theorem Inv.init (req : ι → Req) (M : Nat) (d sm sr : Int) (group : String) (userId now : Int) :
    Inv req M d sm sr group userId (World.init now) where
  mem := Memory.Bounded.init _ _ _ _ _
  red := Slots.Bounded.init _ _ _ _ _
  memNow := le_refl _
  redNow := le_refl _
  started := by simp [World.init, Slots.World.init]
  memHeld := by simp [World.init, Phase.memorySlot]
  redHeld := by simp [World.init, Phase.redisSlot]

/-! ## Successes -/

/-- The requests are of `userId` in `group`, were served by the memory handler
    and took their places in `[s, s + d)`. -/
def SucceededByMemory (req : ι → Req) (group : String) (userId s d : Int) (w : World ι)
    (rs : List ι) : Prop :=
  ∀ r ∈ rs, (req r).group = group ∧ (req r).userId = userId ∧
    ∃ t, w.phase r = .done (.servedByMemory (some t)) ∧ s ≤ t ∧ t < s + d

def SucceededByRedis (req : ι → Req) (group : String) (userId s d : Int) (w : World ι)
    (rs : List ι) : Prop :=
  ∀ r ∈ rs, (req r).group = group ∧ (req r).userId = userId ∧
    ∃ t, w.phase r = .done (.servedByRedis (some t)) ∧ s ≤ t ∧ t < s + d

section Successes

variable {req : ι → Req} {M : Nat} {d sm sr : Int} {group : String} {userId : Int} {w : World ι}
  {rs : List ι}

omit [DecidableEq ι] in
theorem Inv.memory_successes (h : Inv req M d sm sr group userId w) (hnd : rs.Nodup)
    (hrs : SucceededByMemory req group userId sm d w rs) :
    rs.length ≤ M + (w.mem.log (successKey group userId)).lateReturns sm d := by
  refine le_trans (PlaceLog.length_le_heldWithin hnd ?_) h.mem.bound
  intro r hr
  obtain ⟨rfl, rfl, t, hph, hs, hd⟩ := hrs r hr
  exact ⟨t, h.memHeld r t (by rw [hph]; rfl), hs, hd⟩

omit [DecidableEq ι] in
theorem Inv.redis_successes (h : Inv req M d sm sr group userId w) (hnd : rs.Nodup)
    (hrs : SucceededByRedis req group userId sr (d * 1000) w rs) : rs.length ≤ M := by
  refine le_trans (PlaceLog.length_le_heldWithin hnd ?_) h.red.bound
  intro r hr
  obtain ⟨rfl, rfl, t, hph, hs, hd⟩ := hrs r hr
  exact ⟨t, h.redHeld r t (by rw [hph]; rfl), hs, hd⟩

end Successes

theorem run_inv {req : ι → Req} {M : Nat} (hM : 0 < M) {d sm sr : Int} {group : String}
    {userId : Int} (hl : Limits req M d group userId) {w : World ι} {as : List (Int × Act ι)}
    (h : Inv req M d sm sr group userId w) (has : Meets (InTime d) (World.step req) w as) :
    Inv req M d sm sr group userId (run (World.step req) w as) :=
  run_invariant (Inv req M d sm sr group userId) (fun _ _ h ha => h.step hM hl ha) h has

/-- **The sliding windows.**  An interval holds at most the limit: in memory up
    to the refunds of requests admitted before it, in Redis exactly, and so for
    the successes either handler lets through. -/
theorem window_limits (M : Nat) (hM : 0 < M) (d s now : Int) (key : String) :
    (∀ as : List (Int × Memory.Call ι),
      Meets (Memory.Allowed M d key) Memory.World.step (.init now) as →
      ((run Memory.World.step (.init now) as).log key).heldWithin s d ≤
        M + ((run Memory.World.step (.init now) as).log key).lateReturns s d) ∧
    (∀ (m : Nat) (as bs : List (Int × Memory.Call ι)), 0 < m →
      Meets (Memory.Allowed M d key) Memory.World.step (.init now) as →
      ((run Memory.World.step (.init now) as).queue key).length ≤ m →
      Meets (Memory.Allowed m d key) Memory.World.step
        (run Memory.World.step (.init now) as) bs →
      (run Memory.World.step (.init now) as).now < s →
      ((run Memory.World.step (.init now) (as ++ bs)).log key).heldWithin s d ≤
        m + ((run Memory.World.step (.init now) (as ++ bs)).log key).lateReturns s d) ∧
    (∀ as : List (Int × Slots.Call ι),
      Meets (Slots.Allowed M d key) Slots.World.step (.init now) as →
      ((run Slots.World.step (.init now) as).log key).heldWithin s d ≤ M) ∧
    (∀ (m : Nat) (as bs : List (Int × Slots.Call ι)),
      Meets (Slots.Allowed M d key) Slots.World.step (.init now) as →
      Meets (Slots.Allowed m d key) Slots.World.step
        (run Slots.World.step (.init now) as) bs →
      (run Slots.World.step (.init now) as).now < s →
      ((run Slots.World.step (.init now) (as ++ bs)).log key).heldWithin s d ≤ m) ∧
    (∀ (req : ι → Req) (group : String) (userId : Int) (as : List (Int × Act ι)) (rs : List ι),
      Limits req M d group userId → Meets (InTime d) (World.step req) (.init now) as →
      rs.Nodup →
      (SucceededByMemory req group userId s d (run (World.step req) (.init now) as) rs →
        rs.length ≤ M + ((run (World.step req) (.init now) as).mem.log
          (successKey group userId)).lateReturns s d) ∧
      (SucceededByRedis req group userId s (d * 1000) (run (World.step req) (.init now) as) rs →
        rs.length ≤ M)) := by
  refine ⟨?_, ?_, ?_, ?_, ?_⟩
  · intro as has
    exact (Memory.run_bounded hM (.init M d s key now) has).bound
  · intro m as bs hm has hlen hbs hs
    have h := Memory.run_bounded hM (.init M d s key now) has
    rw [run_append]
    exact (Memory.run_bounded hm (h.lower hlen hs) hbs).bound
  · intro as has
    exact (Slots.run_bounded (.init M d s key now) has).bound
  · intro m as bs has hbs hs
    have h := Slots.run_bounded (.init M d s key now) has
    rw [run_append]
    exact (Slots.run_bounded (h.lower m hs) hbs).bound
  intro req group userId as rs hl has hnd
  have h := run_inv hM hl (.init req M d s s group userId now) has
  exact ⟨h.memory_successes hnd, h.redis_successes hnd⟩

/-! ## Runs -/

/-- Every request is user 7's in group `g`, one success in 10 s. -/
def sameReq (_ : Nat) : Req :=
  { userId := 7, group := "g", duration := 10, totalMaxCount := 0, successMaxCount := 1 }

/-- Request 0 succeeds in memory; request 1 is refused; Redis serves request 2. -/
def servedRun : List (Int × Act Nat) :=
  [(1000, .arrive 0 false .answer), (1000, .checkTotal 0 (.ok true) false),
   (2000, .arrive 1 false .answer), (3000, .finish 0 (some 200) false),
   (4000, .arrive 2 true .answer), (4000, .checkTotal 2 (.ok true) false),
   (5000, .finish 2 (some 200) false)]

theorem servedRun_meets : Meets (InTime 10) (World.step sameReq) (.init 0) servedRun := by
  refine ⟨⟨by decide, ?_⟩, ⟨by decide, ?_⟩, ⟨by decide, ?_⟩, ⟨by decide, ?_⟩, ⟨by decide, ?_⟩,
    ⟨by decide, ?_⟩, ⟨by decide, ?_⟩, trivial⟩ <;> simp

theorem servedRun_one_each :
    (run (World.step sameReq) (.init 0) servedRun).phase 0 = .done (.servedByMemory (some 1)) ∧
    (run (World.step sameReq) (.init 0) servedRun).phase 1 = .done .refused ∧
    [0].length ≤ 1 + ((run (World.step sameReq) (.init 0) servedRun).mem.log
      (successKey "g" 7)).lateReturns 0 10 ∧
    [2].length ≤ 1 := by
  have hl : Limits sameReq 1 10 "g" 7 :=
    ⟨by simp [sameReq], by simp [sameReq], by simp [sameReq]⟩
  obtain ⟨hmem, -⟩ := (window_limits 1 (by decide) 10 0 0 "").2.2.2.2 sameReq "g" 7 servedRun [0]
    hl servedRun_meets (by decide)
  obtain ⟨-, hred⟩ := (window_limits 1 (by decide) 10 0 0 "").2.2.2.2 sameReq "g" 7 servedRun [2]
    hl servedRun_meets (by decide)
  refine ⟨by decide +kernel, by decide +kernel, hmem ?_, hred ?_⟩
  · intro r hr
    obtain rfl := List.mem_singleton.1 hr
    exact ⟨rfl, rfl, 1, by decide +kernel, by decide, by decide⟩
  intro r hr
  obtain rfl := List.mem_singleton.1 hr
  exact ⟨rfl, rfl, 4000, by decide +kernel, by decide, by decide⟩

/-- Three runs of the memory limiter with window 10.  Limit 2, and request 0
    gives its place back: the stamp of request 1 goes, the older one stays and
    makes room at 10, and `[5, 15)` holds 1, 2 and 3.  Limit 5 lowered to 2 after
    4: five more from 10 on.  Limit 1, and a pass that drops what has been idle
    for more than 0 s: two within a second. -/
theorem window_exceeded : 2 < ((run Memory.World.step (.init 0)
      [(0, .request 0 "k" 2 10), (5, .request 1 "k" 2 10), (6, .refund 0 "k"),
       (7, .request 2 "k" 2 10), (10, .request 3 "k" 2 10)]).log "k").heldWithin 5 10 ∧
    2 < ((run Memory.World.step (.init 0)
      [(0, .request 0 "k" 5 10), (1, .request 1 "k" 5 10), (2, .request 2 "k" 5 10),
       (3, .request 3 "k" 5 10), (4, .request 4 "k" 5 10), (10, .request 5 "k" 2 10),
       (11, .request 6 "k" 2 10), (12, .request 7 "k" 2 10), (13, .request 8 "k" 2 10),
       (14, .request 9 "k" 2 10)]).log "k").heldWithin 10 10 ∧
    1 < ((run Memory.World.step (.init 0)
      [(0, .request 0 "k" 1 10), (1, .clearExpiredItems 0),
       (1, .request 1 "k" 1 10)]).log "k").heldWithin 0 10 := by
  decide +kernel

end NewApi.RateLimit
