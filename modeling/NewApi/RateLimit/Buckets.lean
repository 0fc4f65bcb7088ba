/-
  NewApi.RateLimit.Buckets

  The two token buckets: the Lua script `rate_limit.lua` behind the total limit
  of `middleware/model-rate-limit.go`, and `allowTokenQBS` of
  `middleware/token-rate-limit.go`.

  The script counts in whole seconds of the Redis server: a key gains `count`
  tokens a second up to `count * duration`, and a request costs `duration`.  Lua's
  numbers are doubles, exact up to 2^53; `roundedScript_eq` says that nothing is
  rounded while the capacity is within that.  The bucket of a token gains `qbs` a
  second up to `qbs`, a request costs 1, and its numbers are rationals here.
  Both are buckets of `Lib.TokenBucket`.

  Every 1024th call sweeps out the buckets that have been idle for ten minutes.
  A bucket that is gone was full again (`Swept`), so the runs with and without
  the sweep answer alike.
-/

import NewApi.Lib.TokenBucket
import Mathlib

namespace NewApi.RateLimit.Buckets

open Function (update_of_ne update_self)
open Option (filter_some not_mem_none)
open Lib.TokenBucket

/-! ## The script -/

def maxInt64 : Int := 9223372036854775807

def rateLimitDurationSeconds (durationMinutes : Int) : Int :=
  if durationMinutes ≤ 0 then 0
  else if maxInt64 / 60 < durationMinutes then maxInt64
  else durationMinutes * 60

def rateLimitCapacity (count durationSeconds : Int) : Int :=
  if count ≤ 0 ∨ durationSeconds ≤ 0 then 0
  else if maxInt64 / durationSeconds < count then maxInt64
  else count * durationSeconds

structure Config where
  capacity : Int
  rate : Int
  requested : Int

/-- The configuration that `Allow` starts from. -/
def Config.default : Config := { capacity := 10, rate := 1, requested := 1 }

def withCapacity (c : Int) (cfg : Config) : Config := { cfg with capacity := c }

def withRate (r : Int) (cfg : Config) : Config := { cfg with rate := r }

def withRequested (n : Int) (cfg : Config) : Config := { cfg with requested := n }

/-- The hash of a key: what `HMGET key tokens last_time` finds. -/
structure Hash where
  tokens : Option Int
  lastTime : Option Int

def Hash.missing : Hash := { tokens := none, lastTime := none }

/-- `tokens` after the refill -/
def refilled (rate capacity nowInSeconds : Int) (bucket : Hash) : Int :=
  match bucket.tokens, bucket.lastTime with
  | some tokens, some lastTime => min capacity (tokens + (nowInSeconds - lastTime) * rate)
  | _, _ => capacity

/-- `rate_limit.lua` -/
def script (requested rate capacity nowInSeconds : Int) (bucket : Hash) : Bool × Hash :=
  let tokens := refilled rate capacity nowInSeconds bucket
  if requested ≤ tokens then
    (true, { tokens := some (tokens - requested), lastTime := some nowInSeconds })
  else
    (false, { tokens := some tokens, lastTime := some nowInSeconds })

def allow (opts : List (Config → Config)) (nowInSeconds : Int) (bucket : Hash) : Bool × Hash :=
  let config := opts.foldl (fun cfg opt => opt cfg) Config.default
  script config.requested config.rate config.capacity nowInSeconds bucket

/-- The check of the total count in `redisRateLimitHandler`, made for `0 < totalMaxCount`. -/
def allowTotal (totalMaxCount duration nowInSeconds : Int) (bucket : Hash) : Bool × Hash :=
  allow [withCapacity (rateLimitCapacity totalMaxCount duration), withRate totalMaxCount,
    withRequested duration] nowInSeconds bucket

/-- The requests of a key at `times` with their answers. -/
def totalAnswers (count d : Int) : Hash → List Int → List (Int × Bool)
  | _, [] => []
  | bucket, now :: times =>
    (now, (allowTotal count d now bucket).1) ::
      totalAnswers count d (allowTotal count d now bucket).2 times

/-- The bucket of a key after requests at `times`. -/
def totalAfter (count d : Int) (bucket : Hash) (times : List Int) : Hash :=
  times.foldl (fun bucket now => (allowTotal count d now bucket).2) bucket

theorem rateLimitCapacity_eq {count d : Int} (hcount : 0 ≤ count) (hd : 0 ≤ d) :
    rateLimitCapacity count d = min (count * d) maxInt64 := by
  have hmax : (0 : Int) ≤ maxInt64 := by decide
  unfold rateLimitCapacity
  by_cases hzero : count ≤ 0 ∨ d ≤ 0
  · have hprod : count * d = 0 := by
      rcases hzero with h | h
      · rw [le_antisymm h hcount, Int.zero_mul]
      · rw [le_antisymm h hd, Int.mul_zero]
    rw [if_pos hzero, hprod, min_eq_left hmax]
  have hdpos : 0 < d := by omega
  rw [if_neg hzero]
  by_cases hover : maxInt64 / d < count
  · have hbig : maxInt64 < count * d := (Int.ediv_lt_iff_lt_mul hdpos).1 hover
    rw [if_pos hover, min_eq_right hbig.le]
  have hsmall : count * d ≤ maxInt64 :=
    (Int.le_ediv_iff_mul_le hdpos).1 (not_lt.1 hover)
  rw [if_neg hover, min_eq_left hsmall]

/-! ## Rounding -/

/-- `rate_limit.lua` where `round` is what Lua makes of the result of an operation. -/
def roundedScript (round : Int → Int) (requested rate capacity nowInSeconds : Int)
    (bucket : Hash) : Bool × Hash :=
  let tokens :=
    match bucket.tokens, bucket.lastTime with
    | some tokens, some lastTime =>
      min capacity (round (tokens + round (round (nowInSeconds - lastTime) * rate)))
    | _, _ => capacity
  if requested ≤ tokens then
    (true, { tokens := some (round (tokens - requested)), lastTime := some nowInSeconds })
  else
    (false, { tokens := some tokens, lastTime := some nowInSeconds })

/-- The bucket of a key that was last asked at `last` or before. -/
structure Hash.At (last : Int) (bucket : Hash) : Prop where
  tokens : ∀ tokens ∈ bucket.tokens, 0 ≤ tokens
  lastTime : ∀ time ∈ bucket.lastTime, 0 ≤ time ∧ time ≤ last

section Rounding

variable {round : Int → Int} {exact requested rate capacity now last : Int} {bucket : Hash}

theorem Hash.At.script (hbucket : bucket.At last) (hlast : 0 ≤ last) (hnow : last ≤ now)
    (hrate : 0 ≤ rate) (h0 : 0 ≤ capacity) : (script requested rate capacity now bucket).2.At now := by
  have htokens : 0 ≤ refilled rate capacity now bucket := by
    unfold refilled
    split
    · rename_i tokens time htokens htime
      have hsum := hbucket.tokens tokens htokens
      have htime := hbucket.lastTime time htime
      have hadded := Int.mul_nonneg (show 0 ≤ now - time by omega) hrate
      omega
    · exact h0
  unfold RateLimit.Buckets.script
  dsimp only
  split
  · exact ⟨by simp; omega, by simp; omega⟩
  · exact ⟨by simp; omega, by simp; omega⟩

variable (hmono : Monotone round) (hexact : ∀ x, 0 ≤ x → x ≤ exact → round x = x)
  (hcapacity : capacity ≤ exact) (h0 : 0 ≤ capacity)
include hmono hexact hcapacity h0

/-- A sum that is rounded is beyond the capacity, and capped. -/
theorem min_round_add {tokens added : Int} (htokens : 0 ≤ tokens) (hadded : 0 ≤ added) :
    min capacity (round (tokens + round added)) = min capacity (tokens + added) := by
  have htop : round exact = exact := hexact exact (h0.trans hcapacity) le_rfl
  have hlarge : ∀ x, exact ≤ x → exact ≤ round x := fun x hx => htop.symm.trans_le (hmono hx)
  by_cases hsum : tokens + added ≤ exact
  · rw [hexact added hadded (by omega), hexact _ (by omega) hsum]
  have hround : exact ≤ tokens + round added := by
    by_cases h : added ≤ exact
    · rw [hexact added hadded h]
      omega
    · have := hlarge added (by omega)
      omega
  have hover := hlarge _ hround
  rw [min_eq_left (by omega), min_eq_left (by omega)]

variable (hrate : 0 ≤ rate) (hrequested : 0 ≤ requested)
include hrate hrequested

/-- **Where the capacity is a number that Lua has exactly, nothing is rounded.** -/
theorem roundedScript_eq (hnow : now ≤ exact) (hbucket : bucket.At now) :
    roundedScript round requested rate capacity now bucket =
      script requested rate capacity now bucket := by
  have hspend : ∀ tokens ≤ capacity, (if requested ≤ tokens then
        (true, (⟨some (round (tokens - requested)), some now⟩ : Hash))
      else (false, ⟨some tokens, some now⟩)) =
      if requested ≤ tokens then (true, ⟨some (tokens - requested), some now⟩)
      else (false, ⟨some tokens, some now⟩) := by
    intro tokens htokens
    split
    · rw [hexact _ (by omega) (by omega)]
    · rfl
  obtain ⟨tokens, lastTime⟩ := bucket
  unfold roundedScript script refilled
  cases tokens with
  | none => exact hspend _ le_rfl
  | some tokens =>
    cases lastTime with
    | none => exact hspend _ le_rfl
    | some time =>
      have hl := hbucket.lastTime time rfl
      simp only [hexact (now - time) (by omega) (by omega), min_round_add hmono hexact hcapacity h0
        (hbucket.tokens tokens rfl) (Int.mul_nonneg (show 0 ≤ now - time by omega) hrate)]
      exact hspend _ (min_le_left _ _)

/-- The answers of a script to the requests of a key at `times`. -/
def answers (script : Int → Hash → Bool × Hash) : Hash → List Int → List Bool
  | _, [] => []
  | bucket, now :: times => (script now bucket).1 :: answers script (script now bucket).2 times

end Rounding

/-- The total limit's bucket of `count` requests in `d` seconds. -/
def totalRules (count d : Int) (hcount : 0 ≤ count) (hd : 0 ≤ d) : Rules Int where
  capacity := rateLimitCapacity count d
  rate := count
  cost := d
  capacity_nonneg := by
    rw [rateLimitCapacity_eq hcount hd]
    exact le_min (Int.mul_nonneg hcount hd) (by decide)
  rate_nonneg := hcount
  cost_nonneg := hd

def Hash.ofLevel : Option (Level Int) → Hash
  | none => Hash.missing
  | some b => { tokens := some b.tokens, lastTime := some b.updated }

variable {count d : Int}

section
variable (hcount : 0 ≤ count) (hd : 0 ≤ d)
include hcount hd

theorem refilled_ofLevel (now : Int) (b : Option (Level Int)) :
    refilled count (rateLimitCapacity count d) now (Hash.ofLevel b) =
      ((totalRules count d hcount hd).level now b).tokens := by
  cases b <;> rfl

/-- **The script is a request to the bucket.** -/
theorem allowTotal_ofLevel (now : Int) (b : Option (Level Int)) :
    allowTotal count d now (Hash.ofLevel b) = ((totalRules count d hcount hd).admits now b,
        Hash.ofLevel (some ((totalRules count d hcount hd).next now b))) := by
  have hfound := refilled_ofLevel hcount hd now b
  have hupdated : ((totalRules count d hcount hd).level now b).updated = now := level_updated
  show script d count (rateLimitCapacity count d) now (Hash.ofLevel b) = _
  unfold script
  rw [hfound]
  by_cases h : (totalRules count d hcount hd).cost ≤
      ((totalRules count d hcount hd).level now b).tokens
  · rw [Rules.admits, Rules.next, if_pos h, decide_eq_true h, Hash.ofLevel, hupdated]
    exact if_pos h
  · rw [Rules.admits, Rules.next, if_neg h, decide_eq_false h, Hash.ofLevel, hupdated]
    exact if_neg h

theorem totalAnswers_ofLevel (b : Option (Level Int)) (times : List Int) : totalAnswers count d (Hash.ofLevel b) times =
      (totalRules count d hcount hd).answers b times := by
  induction times generalizing b with
  | nil => rfl
  | cons now times ih =>
    rw [totalAnswers, allowTotal_ofLevel hcount hd, ih]
    rfl

theorem totalAfter_ofLevel (b : Option (Level Int)) (times : List Int) : totalAfter count d (Hash.ofLevel b) times =
      Hash.ofLevel ((totalRules count d hcount hd).after b times) := by
  induction times generalizing b with
  | nil => rfl
  | cons now times ih =>
    show totalAfter count d (allowTotal count d now (Hash.ofLevel b)).2 times = _
    rw [allowTotal_ofLevel hcount hd, ih]
    rfl

end

/-- What the total limit makes of requests at `times`, from no key on. -/
structure TotalBounded (count d : Int) (times : List Int) : Prop where
  /-- The capacity is the product, as far as there is such a number. -/
  capacity : rateLimitCapacity count d = min (count * d) maxInt64
  /-- The bucket stays between nothing and full. -/
  kept : ∀ tokens ∈ (totalAfter count d Hash.missing times).tokens,
    0 ≤ tokens ∧ tokens ≤ rateLimitCapacity count d
  /-- `t` seconds admit what the capacity and their tokens pay for, … -/
  window : ∀ (s : Int) (t : Nat),
    d * admitted s (s + t) (totalAnswers count d Hash.missing times) ≤ count * d + count * t
  /-- … as a number of requests. -/
  windowCount : 0 < d → ∀ (s : Int) (t : Nat),
    (admitted s (s + t) (totalAnswers count d Hash.missing times) : Int) ≤
      count + count * t / d
  /-- After `d` seconds without one, a request is admitted. -/
  rested : 1 ≤ count → ∀ now, (∀ time ∈ times, time ≤ now - d) →
    (allowTotal count d now (totalAfter count d Hash.missing times)).1 = true

theorem totalBounded {times : List Int} (hcount : 0 ≤ count) (hd : 0 ≤ d) (hd' : d ≤ maxInt64)
    (htimes : times.Pairwise (· ≤ ·)) : TotalBounded count d times := by
  have hcapacity := rateLimitCapacity_eq hcount hd
  have hnew : ∀ l ∈ (none : Option (Level Int)), (totalRules count d hcount hd).Within l :=
    fun l hl => absurd hl (not_mem_none l)
  have hontime : OnTime none times := ⟨fun l hl => absurd hl (not_mem_none l), htimes⟩
  have hanswers := totalAnswers_ofLevel hcount hd none times
  have hafter := totalAfter_ofLevel hcount hd none times
  have hwithin := after_within hnew hontime
  change totalAnswers count d Hash.missing times = _ at hanswers
  change totalAfter count d Hash.missing times = _ at hafter
  have hwindow : ∀ (s : Int) (t : Nat),
      d * admitted s (s + t) (totalAnswers count d Hash.missing times) ≤
        count * d + count * t := by
    intro s t
    have hle : d * admitted s (s + t) ((totalRules count d hcount hd).answers none times) ≤
        rateLimitCapacity count d + count * (s + t - s) :=
      admitted_le (s := s) hnew (by omega) hontime
    rw [hanswers]
    rw [hcapacity, add_sub_cancel_left] at hle
    exact hle.trans (Int.add_le_add_right (min_le_left _ _) _)
  refine ⟨hcapacity, ?_, hwindow, ?_, ?_⟩
  · intro tokens htokens
    rw [hafter] at htokens
    cases hb : (totalRules count d hcount hd).after none times with
    | none =>
      rw [hb] at htokens
      exact absurd htokens (not_mem_none tokens)
    | some l =>
      rw [hb] at htokens
      obtain rfl := Option.some.inj htokens
      exact hwithin l hb
  · intro hpos s t
    have hle := hwindow s t
    have hsplit : (count * t + count * d) / d = count * t / d + count :=
      Int.add_mul_ediv_right _ _ hpos.ne'
    have hquot : (admitted s (s + t) (totalAnswers count d Hash.missing times) : Int) ≤
        (count * t + count * d) / d := by
      refine (Int.le_ediv_iff_mul_le hpos).2 ?_
      linarith
    omega
  intro hone now hidle
  rw [hafter, allowTotal_ofLevel hcount hd]
  refine admits_of_rested ?_ hwithin fun l hl => ?_
  · show d ≤ rateLimitCapacity count d
    rw [hcapacity]
    exact le_min (le_mul_of_one_le_left hd hone) hd'
  have hlast : l.updated ≤ now - d :=
    after_updated (b := none) (fun l hl => absurd hl (not_mem_none l)) hidle l hl
  calc d ≤ now - l.updated := by omega
    _ ≤ (now - l.updated) * count := le_mul_of_one_le_right (by omega) hone

/-! ## The buckets of tokens -/

/-- An entry of `tokenQBSBuckets`. -/
structure Bucket where
  remaining : Rat
  updated : Rat

/-- `tokenQBSBuckets` -/
structure TokenBuckets where
  tokens : Int → Option Bucket
  sweepCount : Nat

/-- `tokenQBSIdleEvictAfter`, in seconds -/
def tokenQBSIdleEvictAfter : Rat := 600

def tokenQBSSweepEvery : Nat := 1024

variable (now : Rat)

/-- `sweepIdleTokenQBSLocked` -/
def sweepIdle (tokens : Int → Option Bucket) : Int → Option Bucket := fun id =>
  (tokens id).filter fun b => !decide (tokenQBSIdleEvictAfter < now - b.updated)

/-- The first part of `allowTokenQBS`, up to the sweep. -/
def countSweep (s : TokenBuckets) : TokenBuckets :=
  if tokenQBSSweepEvery ≤ s.sweepCount + 1 then
    { tokens := sweepIdle now s.tokens, sweepCount := 0 }
  else { s with sweepCount := s.sweepCount + 1 }

def lookUp (tokenId qbs : Int) (tokens : Int → Option Bucket) : Bucket :=
  (tokens tokenId).getD { remaining := qbs, updated := now }

def refill (qbs : Int) (b : Bucket) : Bucket :=
  let elapsed := now - b.updated
  if 0 < elapsed then
    { remaining :=
        if (qbs : Rat) < b.remaining + elapsed * qbs then qbs else b.remaining + elapsed * qbs
      updated := now }
  else b

/-- The rest of `allowTokenQBS`. -/
def takeToken (tokenId qbs : Int) (tokens : Int → Option Bucket) : Bool × (Int → Option Bucket) :=
  let b := refill now qbs (lookUp now tokenId qbs tokens)
  if b.remaining < 1 then (false, Function.update tokens tokenId (some b))
  else (true, Function.update tokens tokenId (some { b with remaining := b.remaining - 1 }))

/-- A call of `allowTokenQBS`. -/
structure Call where
  now : Rat
  tokenId : Int
  qbs : Int

def allowTokenQBS (c : Call) (s : TokenBuckets) : Bool × TokenBuckets :=
  if c.qbs ≤ 0 then (true, s)
  else
    let counted := countSweep c.now s
    let taken := takeToken c.now c.tokenId c.qbs counted.tokens
    (taken.1, { counted with tokens := taken.2 })

/-- `allowTokenQBS` if it never swept. -/
def allowUnswept (c : Call) (tokens : Int → Option Bucket) : Bool × (Int → Option Bucket) :=
  if c.qbs ≤ 0 then (true, tokens) else takeToken c.now c.tokenId c.qbs tokens

def callAnswers {σ : Type} (allow : Call → σ → Bool × σ) : σ → List Call → List (Call × Bool)
  | _, [] => []
  | s, c :: cs => (c, (allow c s).1) :: callAnswers allow (allow c s).2 cs

def TokenBuckets.empty : TokenBuckets := { tokens := fun _ => none, sweepCount := 0 }

/-- Calls of a token that are let through from `s` to `e`, both included. -/
def admittedOf (tokenId : Int) (s e : Rat) (answers : List (Call × Bool)) : Nat :=
  answers.countP fun p =>
    p.2 && decide (p.1.tokenId = tokenId) && decide (s ≤ p.1.now) && decide (p.1.now ≤ e)

def InOrder (cs : List Call) : Prop := cs.Pairwise fun c c' => c.now ≤ c'.now

/-! ## Swept buckets -/

def Covered (tokens : Int → Option Bucket) : Prop := ∀ id, ∀ b ∈ tokens id, 0 ≤ b.remaining

/-- `swept` is `tokens` without some that have been idle. -/
def Swept (tokens swept : Int → Option Bucket) : Prop :=
  ∀ id, swept id = tokens id ∨
    swept id = none ∧ ∀ b ∈ tokens id, tokenQBSIdleEvictAfter < now - b.updated

variable {now : Rat} {tokenId qbs : Int} {tokens swept : Int → Option Bucket}

theorem refill_remaining_nonneg (hqbs : 0 < qbs) {b : Bucket} (hb : 0 ≤ b.remaining) :
    0 ≤ (refill now qbs b).remaining := by
  have hq : (0 : Rat) ≤ qbs := Int.cast_nonneg hqbs.le
  unfold refill
  simp only
  split
  · rename_i helapsed
    have hadded := mul_nonneg helapsed.le hq
    split
    · exact hq
    · exact add_nonneg hb hadded
  · exact hb

theorem refill_idle (hqbs : 0 < qbs) {b : Bucket} (hb : 0 ≤ b.remaining)
    (hidle : tokenQBSIdleEvictAfter < now - b.updated) :
    refill now qbs b = { remaining := qbs, updated := now } := by
  have hq : (0 : Rat) < qbs := Int.cast_pos.2 hqbs
  have helapsed : (600 : Rat) < now - b.updated := hidle
  have hfull : (qbs : Rat) < b.remaining + (now - b.updated) * qbs := by
    have hmul := mul_lt_mul_of_pos_right helapsed hq
    linarith
  unfold refill
  rw [if_pos (by linarith), if_pos hfull]

theorem refill_new : refill now qbs { remaining := qbs, updated := now } =
    { remaining := qbs, updated := now } := by
  unfold refill
  simp

section
variable (h : Swept now tokens swept)
include h

/-- **A bucket that was swept out was full.** -/
theorem Swept.refill_lookUp (hcovered : Covered tokens) (hqbs : 0 < qbs) : refill now qbs (lookUp now tokenId qbs swept) =
      refill now qbs (lookUp now tokenId qbs tokens) := by
  rcases h tokenId with hsame | ⟨hgone, hidle⟩
  · rw [lookUp, lookUp, hsame]
  cases hb : tokens tokenId with
  | none => rw [lookUp, lookUp, hgone, hb]
  | some b =>
    rw [lookUp, lookUp, hgone, hb]
    exact refill_new.trans (refill_idle hqbs (hcovered tokenId b hb) (hidle b hb)).symm

theorem Swept.mono {now' : Rat} (hnow : now ≤ now') : Swept now' tokens swept := by
  intro id
  rcases h id with hsame | ⟨hgone, hidle⟩
  · exact .inl hsame
  refine .inr ⟨hgone, fun b hb => ?_⟩
  have := hidle b hb
  linarith

theorem Swept.sweepIdle : Swept now tokens (sweepIdle now swept) := by
  intro id
  rcases h id with hsame | ⟨hgone, hidle⟩
  · rw [Buckets.sweepIdle, hsame]
    cases hb : tokens id with
    | none => exact .inl rfl
    | some b =>
      by_cases hidle : tokenQBSIdleEvictAfter < now - b.updated
      · refine .inr ⟨?_, ?_⟩
        · rw [filter_some, decide_eq_true hidle]
          rfl
        rintro b' hb'
        obtain rfl := Option.some.inj hb'
        exact hidle
      refine .inl ?_
      rw [filter_some, decide_eq_false hidle]
      rfl
  · exact .inr ⟨by rw [Buckets.sweepIdle, hgone]; rfl, hidle⟩

theorem Swept.update (b : Option Bucket) :
    Swept now (Function.update tokens tokenId b) (Function.update swept tokenId b) := by
  intro id
  by_cases hid : id = tokenId
  · subst hid
    exact .inl (by rw [update_self, update_self])
  · rw [update_of_ne hid, update_of_ne hid]
    exact h id

end

theorem Covered.update (h : Covered tokens) {b : Bucket} (hb : 0 ≤ b.remaining) :
    Covered (Function.update tokens tokenId (some b)) := by
  rintro id b' hb'
  by_cases hid : id = tokenId
  · subst hid
    rw [update_self] at hb'
    obtain rfl := Option.some.inj hb'
    exact hb
  · rw [update_of_ne hid] at hb'
    exact h id b' hb'

theorem Covered.lookUp (h : Covered tokens) (hqbs : 0 < qbs) :
    0 ≤ (lookUp now tokenId qbs tokens).remaining := by
  unfold Buckets.lookUp
  cases hb : tokens tokenId with
  | none => exact Int.cast_nonneg hqbs.le
  | some b => exact h tokenId b hb

theorem Covered.takeToken (h : Covered tokens) (hqbs : 0 < qbs) :
    Covered (takeToken now tokenId qbs tokens).2 := by
  have hfound : 0 ≤ (refill now qbs (Buckets.lookUp now tokenId qbs tokens)).remaining :=
    refill_remaining_nonneg hqbs (h.lookUp hqbs)
  unfold Buckets.takeToken
  simp only
  split
  · exact h.update hfound
  refine h.update ?_
  linarith

theorem Swept.takeToken (h : Swept now tokens swept) (hcovered : Covered tokens) (hqbs : 0 < qbs) :
    (takeToken now tokenId qbs swept).1 = (takeToken now tokenId qbs tokens).1 ∧
      Swept now (takeToken now tokenId qbs tokens).2 (takeToken now tokenId qbs swept).2 := by
  unfold Buckets.takeToken
  simp only [h.refill_lookUp hcovered hqbs]
  split
  · exact ⟨rfl, h.update _⟩
  · exact ⟨rfl, h.update _⟩

theorem Swept.countSweep {s : TokenBuckets} (h : Swept now tokens s.tokens) :
    Swept now tokens (countSweep now s).tokens := by
  unfold Buckets.countSweep
  split
  · exact h.sweepIdle
  · exact h

/-- **The sweep changes no answer**, from any state that was swept before. -/
theorem callAnswers_swept (now : Rat) {s : TokenBuckets} {cs : List Call}
    (h : Swept now tokens s.tokens) (hcovered : Covered tokens) (hnow : ∀ c ∈ cs, now ≤ c.now) (hcs : InOrder cs) :
    callAnswers allowTokenQBS s cs = callAnswers allowUnswept tokens cs := by
  induction cs generalizing s tokens now with
  | nil => rfl
  | cons c cs ih =>
    have hc := h.mono (hnow c List.mem_cons_self)
    have hlater := (List.pairwise_cons.1 hcs).1
    have hrest := (List.pairwise_cons.1 hcs).2
    rw [callAnswers, callAnswers]
    by_cases hqbs : c.qbs ≤ 0
    · rw [allowTokenQBS, allowUnswept, if_pos hqbs, if_pos hqbs,
        ih c.now hc hcovered hlater hrest]
    have hpos : 0 < c.qbs := by omega
    obtain ⟨hsame, hswept⟩ := hc.countSweep.takeToken hcovered hpos
    rw [allowTokenQBS, allowUnswept, if_neg hqbs, if_neg hqbs,
      ih c.now hswept (hcovered.takeToken hpos) hlater hrest]
    rw [hsame]

/-! ## The bucket of one token -/

def Bucket.level (b : Bucket) : Level Rat := { tokens := b.remaining, updated := b.updated }

/-- A token's bucket of `qbs` requests a second. -/
def qbsRules (qbs : Int) (hqbs : 0 < qbs) : Rules Rat where
  capacity := qbs
  rate := qbs
  cost := 1
  capacity_nonneg := Int.cast_nonneg hqbs.le
  rate_nonneg := Int.cast_nonneg hqbs.le
  cost_nonneg := zero_le_one

def levelOf (tokenId : Int) (tokens : Int → Option Bucket) : Option (Level Rat) :=
  (tokens tokenId).map Bucket.level

def timesOf (tokenId : Int) (cs : List Call) : List Rat :=
  (cs.filter fun c => c.tokenId = tokenId).map Call.now

def answersOf (tokenId : Int) (answers : List (Call × Bool)) : List (Rat × Bool) :=
  (answers.filter fun p => p.1.tokenId = tokenId).map fun p => (p.1.now, p.2)

section
variable (hqbs : 0 < qbs) (hwithin : ∀ l ∈ levelOf tokenId tokens, (qbsRules qbs hqbs).Within l) (hnow : ∀ l ∈ levelOf tokenId tokens, l.updated ≤ now)
include hqbs hwithin hnow

theorem refill_level :
    (refill now qbs (lookUp now tokenId qbs tokens)).level =
      (qbsRules qbs hqbs).level now (levelOf tokenId tokens) := by
  unfold levelOf at *
  unfold lookUp
  cases hb : tokens tokenId with
  | none =>
    show (refill now qbs { remaining := qbs, updated := now }).level = _
    rw [refill_new]
    rfl
  | some b =>
    rw [hb] at hwithin hnow
    have hle : b.remaining ≤ qbs := (hwithin b.level rfl).2
    have hold : b.updated ≤ now := hnow b.level rfl
    show (refill now qbs b).level =
      { tokens := min (qbs : Rat) (b.remaining + (now - b.updated) * qbs), updated := now }
    unfold refill Bucket.level
    by_cases helapsed : 0 < now - b.updated
    · rw [if_pos helapsed]
      simp only [min_def_lt]
    -- no time has gone by
    have hsame : b.updated = now := le_antisymm hold (by linarith)
    rw [if_neg helapsed, hsame, sub_self, zero_mul, add_zero, min_eq_right hle]

/-- **`allowTokenQBS` is a request to the bucket.** -/
theorem takeToken_level : (takeToken now tokenId qbs tokens).1 =
        (qbsRules qbs hqbs).admits now (levelOf tokenId tokens) ∧
      levelOf tokenId (takeToken now tokenId qbs tokens).2 =
        some ((qbsRules qbs hqbs).next now (levelOf tokenId tokens)) := by
  have hfound := refill_level hqbs hwithin hnow
  unfold takeToken Rules.admits Rules.next
  rw [← hfound]
  show _ = decide (1 ≤ (refill now qbs (lookUp now tokenId qbs tokens)).remaining) ∧
    _ = some (if 1 ≤ (refill now qbs (lookUp now tokenId qbs tokens)).remaining then _ else _)
  by_cases h : (refill now qbs (lookUp now tokenId qbs tokens)).remaining < 1
  · simp only [if_pos h, if_neg (not_le.2 h), decide_eq_false (not_le.2 h), levelOf,
      update_self]
    exact ⟨trivial, rfl⟩
  simp only [if_neg h, if_pos (not_lt.1 h), decide_eq_true (not_lt.1 h), levelOf,
    update_self]
  exact ⟨trivial, rfl⟩

end

theorem levelOf_takeToken_ne {id : Int} (h : id ≠ tokenId) :
    levelOf id (takeToken now tokenId qbs tokens).2 = levelOf id tokens := by
  unfold takeToken levelOf
  simp only
  split
  · simp only [update_of_ne h]
  · simp only [update_of_ne h]

theorem levelOf_allowUnswept_ne {id : Int} {c : Call} (h : id ≠ c.tokenId) :
    levelOf id (allowUnswept c tokens).2 = levelOf id tokens := by
  unfold allowUnswept
  split
  · rfl
  · exact levelOf_takeToken_ne h

theorem answersOf_callAnswers (hqbs : 0 < qbs) {cs : List Call}
    (hfixed : ∀ c ∈ cs, c.tokenId = tokenId → c.qbs = qbs)
    (hwithin : ∀ l ∈ levelOf tokenId tokens, (qbsRules qbs hqbs).Within l)
    (hontime : OnTime (levelOf tokenId tokens) (timesOf tokenId cs)) :
    answersOf tokenId (callAnswers allowUnswept tokens cs) =
      (qbsRules qbs hqbs).answers (levelOf tokenId tokens) (timesOf tokenId cs) := by
  induction cs generalizing tokens with
  | nil => rfl
  | cons c cs ih =>
    have hrest : ∀ c ∈ cs, c.tokenId = tokenId → c.qbs = qbs := fun c' hc' =>
      hfixed c' (List.mem_cons_of_mem _ hc')
    by_cases hc : c.tokenId = tokenId
    · have hset : c.qbs = qbs := hfixed c List.mem_cons_self hc
      have htimes : timesOf tokenId (c :: cs) = c.now :: timesOf tokenId cs := by
        simp [timesOf, hc]
      rw [htimes] at hontime ⊢
      obtain ⟨hadmits, hnext⟩ := takeToken_level hqbs hwithin hontime.head
      have hallow : allowUnswept c tokens = takeToken c.now tokenId qbs tokens := by
        rw [allowUnswept, hset, hc, if_neg (not_le.2 hqbs)]
      have htail := @ih (takeToken c.now tokenId qbs tokens).2 hrest
      rw [hnext] at htail
      rw [callAnswers, hallow, Rules.answers,
        ← htail (next_within hwithin hontime.head).some hontime.tail, ← hadmits]
      simp [answersOf, hc]
    have htimes : timesOf tokenId (c :: cs) = timesOf tokenId cs := by
      simp [timesOf, hc]
    have hother : levelOf tokenId (allowUnswept c tokens).2 = levelOf tokenId tokens :=
      levelOf_allowUnswept_ne (Ne.symm hc)
    have htail := @ih (allowUnswept c tokens).2 hrest
    rw [hother] at htail
    rw [htimes] at hontime ⊢
    rw [← htail hwithin hontime, callAnswers]
    simp [answersOf, hc]

theorem admittedOf_eq (tokenId : Int) (s e : Rat) (answers : List (Call × Bool)) :
    admittedOf tokenId s e answers = admitted s e (answersOf tokenId answers) := by
  unfold admittedOf admitted answersOf
  rw [List.countP_map, List.countP_filter]
  refine List.countP_congr fun p _ => ?_
  simp only [Function.comp, Bool.and_eq_true, decide_eq_true_eq]
  tauto

theorem timesOf_sorted {cs : List Call} (h : InOrder cs) (tokenId : Int) :
    (timesOf tokenId cs).Pairwise (· ≤ ·) :=
  List.pairwise_map.2 (h.sublist List.filter_sublist)

/-- What `allowTokenQBS` makes of calls, from no bucket on. -/
structure CallsBounded (cs : List Call) : Prop where
  /-- `t` seconds let at most `qbs * (1 + t)` calls of a token through. -/
  window : ∀ tokenId qbs, 0 < qbs → (∀ c ∈ cs, c.tokenId = tokenId → c.qbs = qbs) →
    ∀ s t : Rat, 0 ≤ t →
      (admittedOf tokenId s (s + t) (callAnswers allowTokenQBS .empty cs) : Rat) ≤
        qbs * (1 + t)
  /-- Without the sweep the answers are the same. -/
  unswept : callAnswers allowTokenQBS .empty cs = callAnswers allowUnswept (fun _ => none) cs

theorem callsBounded {cs : List Call} (hcs : InOrder cs) : CallsBounded cs := by
  have hunswept : callAnswers allowTokenQBS .empty cs =
      callAnswers allowUnswept (fun _ => none) cs := by
    cases cs with
    | nil => rfl
    | cons c cs =>
      refine callAnswers_swept c.now (fun id => .inl rfl)
        (fun id b hb => absurd hb (not_mem_none b)) ?_ hcs
      rintro c' hc'
      rcases List.mem_cons.1 hc' with rfl | hc'
      · exact le_rfl
      · exact (List.pairwise_cons.1 hcs).1 c' hc'
  refine ⟨fun tokenId qbs hqbs hfixed s t ht => ?_, hunswept⟩
  have hnew : ∀ l ∈ levelOf tokenId fun _ => none, (qbsRules qbs hqbs).Within l :=
    fun l hl => absurd hl (not_mem_none l)
  have hontime : OnTime (levelOf tokenId fun _ => none) (timesOf tokenId cs) :=
    ⟨fun l hl => absurd hl (not_mem_none l), timesOf_sorted hcs tokenId⟩
  have hle : 1 * (admitted s (s + t) ((qbsRules qbs hqbs).answers
      (levelOf tokenId fun _ => none) (timesOf tokenId cs)) : Rat) ≤ qbs + qbs * (s + t - s) :=
    admitted_le (s := s) hnew (by linarith) hontime
  rw [hunswept, admittedOf_eq, answersOf_callAnswers hqbs hfixed hnew hontime]
  linarith

/-- **Both buckets bound the rate.** -/
theorem buckets_bound_rate {count d : Int} {times : List Int} (hcount : 0 ≤ count) (hd : 0 ≤ d)
    (hd' : d ≤ maxInt64) (htimes : times.Pairwise (· ≤ ·)) {cs : List Call} (hcs : InOrder cs) :
    TotalBounded count d times ∧ CallsBounded cs :=
  ⟨totalBounded hcount hd hd' htimes, callsBounded hcs⟩

/-- Two requests a minute, and three calls of a token that may make one a second. -/
theorem twoAMinute_bounded : TotalBounded 2 60 [0, 0, 0, 59] ∧
      CallsBounded [⟨0, 7, 1⟩, ⟨0, 7, 1⟩, ⟨3 / 2, 7, 1⟩] := by
  refine buckets_bound_rate (by decide) (by decide) (by decide) (by decide) ?_
  unfold InOrder
  norm_num

end NewApi.RateLimit.Buckets
