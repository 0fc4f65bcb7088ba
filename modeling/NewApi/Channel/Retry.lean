/-
  NewApi.Channel.Retry

  The relay's retry loop over the auto groups of a request
  (`controller/relay.go`) and the selector that drives it,
  `CacheGetRandomSatisfiedChannel` (`service/channel_select.go`).

  The selector keeps the position in the group list in the request context and
  resets the retry counter the loop counts with: when a group has no channel,
  and, with cross-group retry, when the counter has reached `RetryTimes`.  It
  then asks the loop not to count its next increment.

  `GetRandomSatisfiedChannel` maps a retry number past the last priority tier
  to the last tier, so a group that has channels never answers with none.  The
  groups are left after `RetryTimes + 1` attempts, whatever number of tiers
  they have.

  Requests that a combo routes, and a first channel pinned or preferred by
  affinity, do not go through the groups and are not here.
-/

import NewApi.Lib.Run
import Mathlib.Data.List.Sort
import Mathlib.Data.List.Dedup
import Mathlib.Tactic.Ring

namespace NewApi.Channel.Retry

open List (length_append map_cons mem_append mem_singleton sum_cons)
open Option (getD_some)
open NewApi.Lib

/-! ## GetRandomSatisfiedChannel -/

/-- What the selector reads of a channel. -/
structure Candidate where
  id : Int
  priority : Int
  weight : Nat
deriving DecidableEq

/-- The channels of one group that serve the model and pass the filters at the
    moment of the call. -/
abbrev Pool := List Candidate

/-- What chance, and the health-weighted choice where it is switched on, decide. -/
structure Draw where
  health : Option Nat := none
  random : Nat := 0

/-- `sortedUniquePriorities` -/
def tiers (pool : Pool) : List Int := (pool.map Candidate.priority).dedup.insertionSort (· ≥ ·)

/-- The weighted walk: the first channel at which the random weight is used up. -/
def walk (smoothingFactor smoothingAdjustment : Nat) : Int → List Candidate → Option Candidate
  | _, [] => none
  | r, c :: cs =>
    let r := r - (c.weight * smoothingFactor + smoothingAdjustment : Nat)
    if r < 0 then some c else walk smoothingFactor smoothingAdjustment r cs

/-- The choice among the channels of one tier. -/
def pick (draw : Draw) (targets : List Candidate) : Option Candidate :=
  let sumWeight := (targets.map Candidate.weight).sum
  let (sumWeight, factor, adjustment) :=
    if sumWeight = 0 then (targets.length * 100, 1, 100)
    else if sumWeight / targets.length < 10 then (sumWeight, 100, 0)
    else (sumWeight, 1, 0)
  match draw.health.bind fun i => targets[i]? with
  | some c => some c
  | none => walk factor adjustment (draw.random % (sumWeight * factor) : Nat) targets

/-- The tier that retry number `retry` of a group goes to. -/
def tierAt (pool : Pool) (retry : Nat) : Option Int :=
  let unique := tiers pool
  unique[if unique.length ≤ retry then unique.length - 1 else retry]?

def getRandomSatisfiedChannel (pool : Pool) (retry : Nat) (draw : Draw) : Option Candidate :=
  match pool with
  | [] => none
  | [c] => some c
  | pool =>
    match tierAt pool retry with
    | none => none
    | some target => pick draw (pool.filter fun c => c.priority = target)

/-! ## The selector -/

/-- `RetryTimes`, the auto groups of the request and the token's cross-group
    switch. -/
structure Config where
  retryTimes : Nat
  autoGroups : List String
  crossGroupRetry : Bool

/-- `RetryParam` and the context key it works with. -/
structure Cursor where
  retry : Nat := 0
  resetNextTry : Bool := false
  /-- `ContextKeyAutoGroupIndex` -/
  autoGroupIndex : Option Nat := none

def Cursor.increaseRetry (p : Cursor) : Cursor :=
  if p.resetNextTry then { p with resetNextTry := false } else { p with retry := p.retry + 1 }

def Cursor.startGroupIndex (p : Cursor) : Nat := p.autoGroupIndex.getD 0

/-- An attempt: the group it is made in, and the channel. -/
structure Attempt where
  group : Nat
  channel : Candidate
deriving DecidableEq

/-- The loop over the groups from `startGroupIndex` on. -/
def selectFrom (cfg : Config) (draw : Draw) (start : Nat) :
    Nat → List Pool → Cursor → Option Attempt × Cursor
  | _, [], p => (none, p)
  | i, pool :: rest, p =>
    let priorityRetry := if start < i then 0 else p.retry
    match getRandomSatisfiedChannel pool priorityRetry draw with
    | none =>
      selectFrom cfg draw start (i + 1) rest
        { p with autoGroupIndex := some (i + 1), retry := 0 }
    | some channel =>
      if cfg.crossGroupRetry ∧ cfg.retryTimes ≤ priorityRetry then
        (some ⟨i, channel⟩,
          { p with autoGroupIndex := some (i + 1), retry := 0, resetNextTry := true })
      else (some ⟨i, channel⟩, { p with autoGroupIndex := some i })

variable (cfg : Config)

variable (pools : String → Pool)

variable (draw : Draw)

/-- `CacheGetRandomSatisfiedChannel` for token group `auto`; `pools` gives the
    channels of each group. -/
def cacheGetRandomSatisfiedChannel (p : Cursor) : Option Attempt × Cursor :=
  selectFrom cfg draw p.startGroupIndex p.startGroupIndex
    ((cfg.autoGroups.map pools).drop p.startGroupIndex) p

/-! ## The loop -/

/-- What `shouldRetry` looks at. -/
structure RelayError where
  affinitySkip : Bool := false
  channelError : Bool := false
  skipRetry : Bool := false
  suppressesRetry : Bool := false
  statusCode : Int := 500
  alwaysSkipCode : Bool := false
  retryByStatusCode : Bool := true

def shouldRetry (e : RelayError) (retryTimes : Int) : Bool :=
  if e.affinitySkip then false
  else if e.channelError then true
  else if e.skipRetry then false
  else if retryTimes ≤ 0 then false
  else if e.suppressesRetry then false
  else if 200 ≤ e.statusCode ∧ e.statusCode < 300 then false
  else if e.statusCode < 100 ∨ 599 < e.statusCode then true
  else if e.alwaysSkipCode then false
  else e.retryByStatusCode

/-- How an attempt ends. -/
inductive Outcome where
  | success
  /-- the context, the billing or the request body of the attempt fails -/
  | aborted
  | failed (e : RelayError)

/-- What one turn of the loop meets: the channels of every group, chance, and
    how the attempt goes. -/
structure Turn where
  pools : String → Pool
  draw : Draw := {}
  outcome : Outcome

/-- The loop: its counter, the channel that `Distribute` chose for the first
    attempt, and the attempts made so far, which nothing reads. -/
structure Loop where
  cursor : Cursor
  first : Option Attempt := none
  stopped : Bool := false
  attempts : List Attempt := []

/-- The end of a turn in which `a` was attempted. -/
def Loop.close (s : Loop) (cursor : Cursor) (a : Attempt) (o : Outcome) : Loop :=
  let s := { s with first := none, attempts := s.attempts ++ [a] }
  match o with
  | .success => { s with cursor, stopped := true }
  | .aborted => { s with cursor, stopped := true }
  | .failed e =>
    if shouldRetry e (cfg.retryTimes - cursor.retry) then
      { s with cursor := cursor.increaseRetry
               stopped := decide (cfg.retryTimes < cursor.increaseRetry.retry) }
    else { s with cursor, stopped := true }

/-- One turn of the loop in `Relay`, with `getChannel`. -/
def Loop.turn (s : Loop) (t : Turn) : Loop :=
  if s.stopped then s
  else match s.first with
  | some a => s.close cfg s.cursor a t.outcome
  | none =>
    match cacheGetRandomSatisfiedChannel cfg t.pools t.draw s.cursor with
    | (none, cursor) => { s with cursor, stopped := true }
    | (some a, cursor) => s.close cfg cursor a t.outcome

/-- The loop as `Distribute` hands it over.  Where complexity routing changed the
    model afterwards (`enforced`), the first attempt selects anew. -/
def Loop.start (enforced : Bool) : Option Loop :=
  match cacheGetRandomSatisfiedChannel cfg pools draw {} with
  | (none, _) => none
  | (some a, p) =>
    some { cursor := { autoGroupIndex := p.autoGroupIndex }
           first := if enforced then none else some a }

/-! ## What the selector answers -/

variable {pool : Pool}

theorem mem_tiers {q : Int} : q ∈ tiers pool ↔ ∃ c ∈ pool, c.priority = q := by
  simp [tiers]

theorem nodup_tiers (pool : Pool) : (tiers pool).Nodup := by
  exact (List.perm_insertionSort _ _).nodup_iff.2 (List.nodup_dedup _)

theorem tiers_ne_nil (h : pool ≠ []) : tiers pool ≠ [] := by
  obtain ⟨c, cs, rfl⟩ := List.exists_cons_of_ne_nil h
  exact List.ne_nil_of_mem (mem_tiers.2 ⟨c, List.mem_cons_self, rfl⟩)

theorem walk_isSome (factor adjustment : Nat) (cs : List Candidate) (r : Int)
    (h : r < ((cs.map fun c => c.weight * factor + adjustment).sum : Nat)) (h0 : 0 ≤ r) :
    ∃ c ∈ cs, walk factor adjustment r cs = some c := by
  induction cs generalizing r with
  | nil => simp at h; omega
  | cons c cs ih =>
    simp only [walk]
    split
    · exact ⟨c, List.mem_cons_self, rfl⟩
    simp only [map_cons, sum_cons] at h
    obtain ⟨c', hc', heq⟩ := ih (r - (c.weight * factor + adjustment : Nat))
      (by push_cast at h ⊢; omega) (by omega)
    exact ⟨c', List.mem_cons_of_mem c hc', heq⟩

theorem sum_scaled (factor adjustment : Nat) (cs : List Candidate) :
    (cs.map fun c => c.weight * factor + adjustment).sum =
      (cs.map Candidate.weight).sum * factor + cs.length * adjustment := by
  induction cs with
  | nil => simp
  | cons c cs ih =>
    simp only [map_cons, sum_cons, List.length_cons, ih]
    ring

theorem pick_isSome {targets : List Candidate} (h : targets ≠ []) :
    ∃ c ∈ targets, pick draw targets = some c := by
  have hlen : 0 < targets.length := List.length_pos_of_ne_nil h
  have hwalk : ∀ factor adjustment total, 0 < total →
      total = (targets.map Candidate.weight).sum * factor + targets.length * adjustment →
      ∃ c ∈ targets, walk factor adjustment (draw.random % total : Nat) targets = some c := by
    intro factor adjustment total hpos htotal
    refine walk_isSome factor adjustment targets _ ?_ (Int.natCast_nonneg _)
    rw [sum_scaled, ← htotal]
    exact_mod_cast Nat.mod_lt draw.random hpos
  unfold pick
  cases hhealth : draw.health.bind fun i => targets[i]? with
  | some c =>
    obtain ⟨i, -, hi⟩ := Option.bind_eq_some_iff.1 hhealth
    exact ⟨c, List.mem_of_getElem? hi, rfl⟩
  | none =>
    simp only
    split
    · rename_i hzero
      refine hwalk 1 100 _ ?_ ?_
      · simp only
        omega
      · simp [hzero]
    split
    · refine hwalk 100 0 _ ?_ ?_
      · simp only
        omega
      · simp
    refine hwalk 1 0 _ ?_ ?_
    · simp only
      omega
    · simp

theorem tierAt_isSome (h : pool ≠ []) (retry : Nat) :
    ∃ q ∈ tiers pool, tierAt pool retry = some q := by
  have hlen : 0 < (tiers pool).length := List.length_pos_of_ne_nil (tiers_ne_nil h)
  have hlt : (if (tiers pool).length ≤ retry then (tiers pool).length - 1 else retry) <
      (tiers pool).length := by
    split <;> omega
  exact ⟨_, List.getElem_mem hlt, List.getElem?_eq_getElem hlt⟩

/-- **`GetRandomSatisfiedChannel`, in full.**  A group without channels answers
    with none, any other with a channel of the tier the retry number goes to. -/
theorem getRandomSatisfiedChannel_cases (pool : Pool) (retry : Nat) (draw : Draw) :
    (pool = [] ∧ getRandomSatisfiedChannel pool retry draw = none) ∨
    ∃ c ∈ pool, getRandomSatisfiedChannel pool retry draw = some c ∧
      tierAt pool retry = some c.priority := by
  match pool with
  | [] => exact .inl ⟨rfl, rfl⟩
  | [c] =>
    refine .inr ⟨c, mem_singleton.2 rfl, rfl, ?_⟩
    have hone : tiers [c] = [c.priority] := by simp [tiers]
    simp only [tierAt, hone]
    cases retry with
    | zero => rfl
    | succ n => simp
  | c₁ :: c₂ :: cs =>
    have hpool : c₁ :: c₂ :: cs ≠ [] := by simp
    obtain ⟨q, hq, htier⟩ := tierAt_isSome hpool retry
    obtain ⟨c, hc, hprio⟩ := mem_tiers.1 hq
    have hne : (c₁ :: c₂ :: cs).filter (fun c => c.priority = q) ≠ [] :=
      List.ne_nil_of_mem (List.mem_filter.2 ⟨hc, by simpa using hprio⟩)
    obtain ⟨d, hd, hpick⟩ := pick_isSome draw hne
    obtain ⟨hmem, hdq⟩ := List.mem_filter.1 hd
    refine .inr ⟨d, hmem, ?_, ?_⟩
    · simp only [getRandomSatisfiedChannel, htier]
      exact hpick
    · rw [htier, of_decide_eq_true hdq]

/-- The cursor after an attempt in group `g` with retry number `priorityRetry`. -/
def Cursor.after (p : Cursor) (g priorityRetry : Nat) : Cursor :=
  if cfg.crossGroupRetry ∧ cfg.retryTimes ≤ priorityRetry then
    { p with autoGroupIndex := some (g + 1), retry := 0, resetNextTry := true }
  else { p with autoGroupIndex := some g, retry := priorityRetry }

/-- The retry number that group `g` is asked with. -/
def Cursor.priorityRetry (p : Cursor) (start g : Nat) : Nat := if start < g then 0 else p.retry

/-- A selection that finds a channel: the first group with channels, its tier,
    and the cursor afterwards. -/
structure Selection (cfg : Config) (pools : List Pool) (p : Cursor) (start : Nat) (a : Attempt)
    (cursor : Cursor) : Prop where
  le : start ≤ a.group
  pool : ∃ pool, pools[a.group]? = some pool ∧ a.channel ∈ pool ∧
    tierAt pool (p.priorityRetry start a.group) = some a.channel.priority
  skipped : ∀ j, start ≤ j → j < a.group → pools[j]? = some []
  cursor : cursor = p.after cfg a.group (p.priorityRetry start a.group)

theorem selectFrom_cases (start : Nat) (rest : List Pool) :
    ∀ (i : Nat) (pools : List Pool) (p : Cursor), start ≤ i → pools.drop i = rest →
      (∀ j, start ≤ j → j < i → pools[j]? = some []) → (start < i → p.retry = 0) →
      (selectFrom cfg draw start i rest p).1 = none ∨
      ∃ a cursor, selectFrom cfg draw start i rest p = (some a, cursor) ∧
        Selection cfg pools p start a cursor := by
  induction rest with
  | nil => exact fun i pools p _ _ _ _ => .inl rfl
  | cons pool rest ih =>
    intro i pools p hle hdrop hskip hretry
    have hpool : pools[i]? = some pool := by
      rw [← List.head?_drop, hdrop]
      rfl
    have hrest : pools.drop (i + 1) = rest := by
      rw [← List.tail_drop, hdrop]
      rfl
    simp only [selectFrom]
    obtain ⟨rfl, hnone⟩ | ⟨c, hc, hsome, htier⟩ :=
      getRandomSatisfiedChannel_cases pool (if start < i then 0 else p.retry) draw
    · -- an empty group: the search goes on behind it
      rw [hnone]
      have hskip' : ∀ j, start ≤ j → j < i + 1 → pools[j]? = some [] := by
        intro j hj hji
        rcases Nat.lt_succ_iff_lt_or_eq.1 hji with hlt | rfl
        · exact hskip j hj hlt
        · exact hpool
      obtain hnone' | ⟨a, cursor, heq, hsel⟩ := ih (i + 1) pools
        { p with autoGroupIndex := some (i + 1), retry := 0 } (by omega) hrest hskip' (fun _ => rfl)
      · exact .inl hnone'
      have hlt : start < a.group := by
        by_contra hno
        obtain ⟨pool, hp, hmem, -⟩ := hsel.pool
        have heq : a.group = start := by
          have := hsel.le
          omega
        rw [heq, hskip' start le_rfl (by omega)] at hp
        rw [← Option.some.inj hp] at hmem
        cases hmem
      have hpr : ∀ q : Cursor, q.priorityRetry start a.group = 0 := fun q => if_pos hlt
      refine .inr ⟨a, cursor, heq, hsel.le, ?_, hsel.skipped, ?_⟩
      · obtain ⟨pool, hp, hmem, htier⟩ := hsel.pool
        rw [hpr] at htier
        exact ⟨pool, hp, hmem, by rwa [hpr]⟩
      rw [hsel.cursor, hpr, hpr]
      unfold Cursor.after
      split <;> rfl
    rw [hsome]
    refine .inr ⟨⟨i, c⟩, p.after cfg i (p.priorityRetry start i), ?_, hle,
      ⟨pool, hpool, hc, htier⟩, hskip, rfl⟩
    have hsame : (if start < i then 0 else p.retry) = p.retry := by
      split
      · exact (hretry ‹_›).symm
      · rfl
    simp only [Cursor.after, Cursor.priorityRetry, hsame]
    split <;> rfl

/-- **The selector, by outcome.** -/
theorem cacheGetRandomSatisfiedChannel_cases (p : Cursor) :
    (cacheGetRandomSatisfiedChannel cfg pools draw p).1 = none ∨
    ∃ a cursor, cacheGetRandomSatisfiedChannel cfg pools draw p = (some a, cursor) ∧
      Selection cfg (cfg.autoGroups.map pools) p p.startGroupIndex a cursor :=
  selectFrom_cases cfg draw _ _ _ (cfg.autoGroups.map pools) p le_rfl rfl (by omega) (by omega)

def Chosen (s : Loop) (pools : String → Pool) (a : Attempt) (cursor : Cursor) : Prop :=
  (s.first = some a ∧ cursor = s.cursor) ∨
  (s.first = none ∧
    Selection cfg (cfg.autoGroups.map pools) s.cursor s.cursor.startGroupIndex a cursor)

variable {s : Loop}

theorem turn_stopped (h : s.stopped = true) (t : Turn) : s.turn cfg t = s := by
  simp [Loop.turn, h]

/-- **One turn, by outcome.**  It ends the loop without an attempt, makes an
    attempt and ends it, or makes an attempt and goes on. -/
theorem turn_cases (hlive : s.stopped = false) (t : Turn) :
    (∃ cursor, s.turn cfg t = { s with cursor, stopped := true }) ∨
    ∃ a cursor, Chosen cfg s t.pools a cursor ∧
      ((∃ cursor', s.turn cfg t = { s with cursor := cursor', first := none, stopped := true,
                                           attempts := s.attempts ++ [a] }) ∨
        (cursor.increaseRetry.retry ≤ cfg.retryTimes ∧
          s.turn cfg t = { cursor := cursor.increaseRetry, attempts := s.attempts ++ [a] })) := by
  have hclose : ∀ a cursor, (∃ cursor', s.close cfg cursor a t.outcome =
        { s with cursor := cursor', first := none, stopped := true,
                 attempts := s.attempts ++ [a] }) ∨
      (cursor.increaseRetry.retry ≤ cfg.retryTimes ∧ s.close cfg cursor a t.outcome =
        { cursor := cursor.increaseRetry, attempts := s.attempts ++ [a] }) := by
    intro a cursor
    unfold Loop.close
    cases t.outcome with
    | success | aborted => exact .inl ⟨cursor, rfl⟩
    | failed e =>
      simp only
      split
      · by_cases hover : cfg.retryTimes < cursor.increaseRetry.retry
        · exact .inl ⟨cursor.increaseRetry, by rw [decide_eq_true hover]⟩
        · refine .inr ⟨Nat.le_of_not_lt hover, ?_⟩
          rw [decide_eq_false hover]
      · exact .inl ⟨cursor, rfl⟩
  unfold Loop.turn
  rw [hlive, if_neg Bool.false_ne_true]
  cases hfirst : s.first with
  | some a => exact .inr ⟨a, s.cursor, .inl ⟨hfirst, rfl⟩, hclose a s.cursor⟩
  | none =>
    obtain hnone | ⟨a, cursor, heq, hsel⟩ :=
      cacheGetRandomSatisfiedChannel_cases cfg t.pools t.draw s.cursor
    · generalize cacheGetRandomSatisfiedChannel cfg t.pools t.draw s.cursor = out at hnone
      obtain ⟨found, cursor⟩ := out
      subst hnone
      exact .inl ⟨cursor, rfl⟩
    · simp only [heq]
      exact .inr ⟨a, cursor, .inr ⟨hfirst, hsel⟩, hclose a cursor⟩

variable {p : Cursor}

theorem increaseRetry_after (hreset : p.resetNextTry = false) (g priorityRetry : Nat) :
    (p.after cfg g priorityRetry).increaseRetry =
      if cfg.crossGroupRetry ∧ cfg.retryTimes ≤ priorityRetry then
        { retry := 0, resetNextTry := false, autoGroupIndex := some (g + 1) }
      else { retry := priorityRetry + 1, resetNextTry := false, autoGroupIndex := some g } := by
  unfold Cursor.after Cursor.increaseRetry
  split <;> simp [hreset]

/-! ## The number of attempts and the order of groups -/

/-- While the loop runs: the attempts made are covered by the groups left behind
    and the counter, and none of them was made in a group further on. -/
structure Counting (cfg : Config) (s : Loop) : Prop where
  reset : s.cursor.resetNextTry = false
  retry : s.cursor.retry ≤ cfg.retryTimes
  room : s.cursor.startGroupIndex < cfg.autoGroups.length ∨
    s.cursor.startGroupIndex = cfg.autoGroups.length ∧ s.cursor.retry = 0
  count : s.attempts.length ≤ (cfg.retryTimes + 1) * s.cursor.startGroupIndex + s.cursor.retry
  below : ∀ a ∈ s.attempts, a.group ≤ s.cursor.startGroupIndex
  first : ∀ a, s.first = some a → s.attempts = [] ∧ s.cursor.retry = 0 ∧
    a.group < cfg.autoGroups.length ∧ a.group ≤ s.cursor.startGroupIndex ∧
    (s.cursor.startGroupIndex = a.group ∨ cfg.retryTimes = 0)

structure Bounded (cfg : Config) (s : Loop) : Prop where
  total : s.attempts.length ≤ (cfg.retryTimes + 1) * cfg.autoGroups.length
  sorted : s.attempts.Pairwise fun a b => a.group ≤ b.group
  live : s.stopped = false → Counting cfg s

variable {cfg : Config} {cursor : Cursor} {a : Attempt}

theorem Selection.lt_length {pools : List Pool} {start : Nat}
    (h : Selection cfg pools p start a cursor) : a.group < pools.length := by
  obtain ⟨pool, hpool, -⟩ := h.pool
  exact (List.getElem?_eq_some_iff.1 hpool).1

theorem pairwise_append_one {as : List Attempt}
    (h : as.Pairwise fun a b => a.group ≤ b.group) (hle : ∀ b ∈ as, b.group ≤ a.group) :
    (as ++ [a]).Pairwise fun a b => a.group ≤ b.group := by
  refine List.pairwise_append.2 ⟨h, List.pairwise_singleton _ _, fun b hb c hc => ?_⟩
  rw [mem_singleton.1 hc]
  exact hle b hb

variable {pools : String → Pool}

theorem Counting.chosen (h : Counting cfg s)
     (hc : Chosen cfg s pools a cursor) : (∀ b ∈ s.attempts, b.group ≤ a.group) ∧
      s.attempts.length + 1 ≤ (cfg.retryTimes + 1) * cfg.autoGroups.length := by
  obtain ⟨hfirst, -⟩ | ⟨-, hsel⟩ := hc
  · obtain ⟨hnil, -, hlt, -⟩ := h.first a hfirst
    rw [hnil]
    refine ⟨nofun, ?_⟩
    have hpos : 0 < (cfg.retryTimes + 1) * cfg.autoGroups.length :=
      Nat.mul_pos (Nat.succ_pos _) (Nat.zero_lt_of_lt hlt)
    exact hpos
  have hlt := hsel.lt_length
  rw [List.length_map] at hlt
  have hstart : s.cursor.startGroupIndex + 1 ≤ cfg.autoGroups.length := by
    have := hsel.le
    omega
  have hmul := Nat.mul_le_mul_left (cfg.retryTimes + 1) hstart
  rw [Nat.mul_add, Nat.mul_one] at hmul
  refine ⟨fun b hb => (h.below b hb).trans hsel.le, ?_⟩
  have hcount := h.count
  have hretry := h.retry
  omega

/-- The loop that goes on after an attempt. -/
theorem Counting.next (h : Counting cfg s)
     (hc : Chosen cfg s pools a cursor) (hretry : cursor.increaseRetry.retry ≤ cfg.retryTimes) :
    Counting cfg { cursor := cursor.increaseRetry, attempts := s.attempts ++ [a] } := by
  obtain ⟨hfirst, rfl⟩ | ⟨-, hsel⟩ := hc
  · -- the distributor's channel: the counter has not moved yet
    obtain ⟨hnil, hzero, hlt, hle, hwhere⟩ := h.first a hfirst
    have hinc : s.cursor.increaseRetry = { s.cursor with retry := 1 } := by
      simp [Cursor.increaseRetry, h.reset, hzero]
    rw [hinc] at hretry ⊢
    have hpos : cfg.retryTimes ≠ 0 := by
      intro h0
      rw [h0] at hretry
      simp at hretry
    have hstart := hwhere.resolve_right hpos
    have hsame : Cursor.startGroupIndex { s.cursor with retry := 1 } = s.cursor.startGroupIndex :=
      rfl
    refine ⟨h.reset, hretry, .inl ?_, ?_, ?_, nofun⟩
    · rw [hsame, hstart]
      exact hlt
    · simp [hnil]
    intro b hb
    rw [hnil, List.nil_append, mem_singleton] at hb
    rw [hb, hsame]
    exact hle
  have hlt := hsel.lt_length
  rw [List.length_map] at hlt
  have hle := hsel.le
  have hcount := h.count
  have hbelow : ∀ b ∈ s.attempts ++ [a], b.group ≤ a.group := by
    intro b hb
    rcases mem_append.1 hb with hold | hnew
    · exact (h.below b hold).trans hle
    · rw [mem_singleton.1 hnew]
  have hmul := Nat.mul_le_mul_left (cfg.retryTimes + 1) hle
  have hpr : s.cursor.priorityRetry s.cursor.startGroupIndex a.group ≤ cfg.retryTimes ∧
      s.attempts.length ≤ (cfg.retryTimes + 1) * a.group +
        s.cursor.priorityRetry s.cursor.startGroupIndex a.group := by
    have hold := h.retry
    unfold Cursor.priorityRetry
    split
    · rename_i hmoved
      have hstep := Nat.mul_le_mul_left (cfg.retryTimes + 1) (Nat.succ_le_of_lt hmoved)
      rw [Nat.mul_succ] at hstep
      omega
    · omega
  rw [hsel.cursor, increaseRetry_after cfg h.reset] at hretry ⊢
  generalize s.cursor.priorityRetry s.cursor.startGroupIndex a.group = r at hpr hretry ⊢
  split
  · refine ⟨rfl, Nat.zero_le _, ?_, ?_, ?_, nofun⟩
    · rcases Nat.lt_or_eq_of_le (Nat.succ_le_of_lt hlt) with hmore | hlast
      · exact .inl hmore
      · exact .inr ⟨hlast, rfl⟩
    · simp only [Cursor.startGroupIndex, getD_some, length_append,
        List.length_singleton, Nat.mul_succ]
      omega
    · intro b hb
      exact (hbelow b hb).trans (Nat.le_succ _)
  rename_i hstay
  rw [if_neg hstay] at hretry
  refine ⟨rfl, hretry, .inl hlt, ?_, hbelow, nofun⟩
  simp only [Cursor.startGroupIndex, getD_some, length_append, List.length_singleton]
  omega

theorem turn_bounded (cfg : Config) (s : Loop) (t : Turn) (h : Bounded cfg s) :
    Bounded cfg (s.turn cfg t) := by
  cases hstop : s.stopped with
  | true =>
    rwa [turn_stopped cfg hstop]
  | false =>
    have hlive := h.live hstop
    obtain ⟨cursor, heq⟩ | ⟨a, cursor, hc, hend | ⟨hretry, heq⟩⟩ := turn_cases cfg hstop t
    · rw [heq]
      exact ⟨h.total, h.sorted, nofun⟩
    · obtain ⟨hbelow, hroom⟩ := hlive.chosen hc
      obtain ⟨cursor', heq⟩ := hend
      rw [heq]
      refine ⟨?_, pairwise_append_one h.sorted hbelow, nofun⟩
      simpa using hroom
    obtain ⟨hbelow, hroom⟩ := hlive.chosen hc
    rw [heq]
    refine ⟨?_, pairwise_append_one h.sorted hbelow, fun _ => hlive.next hc hretry⟩
    simpa using hroom

theorem start_spec {draw : Draw} {enforced : Bool}
    (h : Loop.start cfg pools draw enforced = some s) :
    ∃ a, s = { cursor := { autoGroupIndex := some (if cfg.crossGroupRetry ∧ cfg.retryTimes ≤ 0
          then a.group + 1 else a.group) }
               first := if enforced then none else some a } ∧
      ∃ pool, (cfg.autoGroups.map pools)[a.group]? = some pool ∧ a.channel ∈ pool ∧
        tierAt pool 0 = some a.channel.priority := by
  unfold Loop.start at h
  obtain hnone | ⟨a, cursor, heq, hsel⟩ := cacheGetRandomSatisfiedChannel_cases cfg pools draw {}
  · generalize cacheGetRandomSatisfiedChannel cfg pools draw {} = out at h hnone
    obtain ⟨found, cursor⟩ := out
    subst hnone
    cases h
  rw [heq] at h
  have hzero : ∀ start, Cursor.priorityRetry {} start a.group = 0 := by
    intro start
    unfold Cursor.priorityRetry
    split <;> rfl
  obtain ⟨pool, hpool, hmem, htier⟩ := hsel.pool
  rw [hzero] at htier
  refine ⟨a, ?_, pool, hpool, hmem, htier⟩
  rw [← Option.some.inj h, hsel.cursor, hzero]
  unfold Cursor.after
  split <;> rfl

theorem bounded_start {draw : Draw} {enforced : Bool}
    (h : Loop.start cfg pools draw enforced = some s) : Bounded cfg s := by
  obtain ⟨a, rfl, pool, hpool, -⟩ := start_spec h
  have hlt : a.group < cfg.autoGroups.length := by
    simpa using (List.getElem?_eq_some_iff.1 hpool).1
  refine ⟨Nat.zero_le _, List.Pairwise.nil, fun _ => ⟨rfl, Nat.zero_le _, ?_, Nat.zero_le _, nofun, ?_⟩⟩
  · simp only [Cursor.startGroupIndex, getD_some]
    split
    · rcases Nat.lt_or_eq_of_le (Nat.succ_le_of_lt hlt) with hmore | hlast
      · exact .inl hmore
      · exact .inr ⟨hlast, trivial⟩
    · exact .inl hlt
  intro b hb
  have hab : a = b := by
    cases enforced with
    | true => cases hb
    | false => exact Option.some.inj hb
  subst hab
  simp only [Cursor.startGroupIndex, getD_some]
  refine ⟨trivial, trivial, hlt, ?_, ?_⟩
  · split <;> omega
  split
  · exact .inr (by omega)
  · exact .inl rfl

/-! ## The order law -/

variable (cfg)

variable (pools)

/-- The channels of the group at position `g`. -/
def groupPool (g : Nat) : Pool :=
  ((cfg.autoGroups.map pools)[g]?).getD []

def HasNext (g : Nat) : Prop :=
  ∃ j, g < j ∧ groupPool cfg pools j ≠ []

/-- Every priority tier of group `g` is among the attempts. -/
def AllTried (as : List Attempt) (g : Nat) : Prop :=
  ∀ q ∈ tiers (groupPool cfg pools g), ∃ a ∈ as, a.group = g ∧ a.channel.priority = q

/-- **The law over `CacheGetRandomSatisfiedChannel`**: of two attempts in a row
    the second is in a later group if and only if every tier of the first one's
    group had been tried. -/
def Lawful (as : List Attempt) : Prop :=
  ∀ k a b, as[k]? = some a → as[k + 1]? = some b → HasNext cfg pools a.group →
    (a.group < b.group ↔ AllTried cfg pools (as.take (k + 1)) a.group)

def Evenly : Prop :=
  ∀ g, groupPool cfg pools g ≠ [] → HasNext cfg pools g →
    (tiers (groupPool cfg pools g)).length = cfg.retryTimes + 1

variable {pools}

variable {cfg}

theorem tierAt_of_lt {r : Nat} (h : r < (tiers pool).length) :
    tierAt pool r = (tiers pool)[r]? := by
  unfold tierAt
  simp only
  rw [if_neg (by omega)]

theorem lawful_append {as : List Attempt} {b : Attempt} (h : Lawful cfg pools as)
    (hlast : ∀ a, as.getLast? = some a → HasNext cfg pools a.group →
      (a.group < b.group ↔ AllTried cfg pools as a.group)) : Lawful cfg pools (as ++ [b]) := by
  intro k a b' ha hb hnext
  rcases Nat.lt_trichotomy (k + 1) as.length with hlt | heq | hgt
  · rw [List.getElem?_append_left (by omega)] at ha
    rw [List.getElem?_append_left hlt] at hb
    rw [List.take_append_of_le_length (by omega)]
    exact h k a b' ha hb hnext
  · rw [List.getElem?_append_left (by omega)] at ha
    rw [List.getElem?_append_right (by omega), heq, Nat.sub_self] at hb
    obtain rfl : b = b' := Option.some.inj hb
    rw [heq, List.take_left']
    · refine hlast a ?_ hnext
      rw [List.getLast?_eq_getElem?, ← heq, Nat.add_sub_cancel]
      exact ha
    · rfl
  rw [List.getElem?_append_right (by omega)] at hb
  have : k + 1 - as.length ≠ 0 := by omega
  obtain ⟨n, hn⟩ := Nat.exists_eq_succ_of_ne_zero this
  rw [hn] at hb
  cases hb

/-- While the loop runs over fixed channels: the attempts in the group at the
    cursor went through the tiers `0, …, retry - 1` and no others, and the last
    attempt was made there, or in a group whose tiers were all tried. -/
structure Tracking (cfg : Config) (pools : String → Pool) (s : Loop) : Prop where
  within : ∀ a ∈ s.attempts, a.group = s.cursor.startGroupIndex → ∃ r < s.cursor.retry,
    tierAt (groupPool cfg pools a.group) r = some a.channel.priority
  covered : ∀ r < s.cursor.retry, ∃ a ∈ s.attempts, a.group = s.cursor.startGroupIndex ∧
    tierAt (groupPool cfg pools a.group) r = some a.channel.priority
  last : ∀ a, s.attempts.getLast? = some a → a.group = s.cursor.startGroupIndex ∨
    a.group < s.cursor.startGroupIndex ∧
      (HasNext cfg pools a.group → AllTried cfg pools s.attempts a.group)
  first : ∀ a, s.first = some a →
    tierAt (groupPool cfg pools a.group) 0 = some a.channel.priority

theorem tierAt_nil (r : Nat) : tierAt [] r = none := by
  simp [tierAt, tiers]

theorem Selection.tier {start : Nat}
    (h : Selection cfg (cfg.autoGroups.map pools) p start a cursor) :
    tierAt (groupPool cfg pools a.group) (p.priorityRetry start a.group) =
      some a.channel.priority := by
  obtain ⟨pool, hpool, -, htier⟩ := h.pool
  rw [groupPool, hpool, getD_some]
  exact htier

theorem Selection.not_skipped {start : Nat}
    (h : Selection cfg (cfg.autoGroups.map pools) p start a cursor)
    (hpool : groupPool cfg pools start ≠ []) : a.group = start := by
  by_contra hne
  have hskip := h.skipped start le_rfl (Nat.lt_of_le_of_ne h.le (Ne.symm hne))
  rw [groupPool, hskip] at hpool
  exact hpool rfl

section
variable (h : Tracking cfg pools s) (hcount : Counting cfg s)
include h hcount

theorem Tracking.lawful (heven : Evenly cfg pools) {b : Attempt}
    (hsel : Selection cfg (cfg.autoGroups.map pools) s.cursor s.cursor.startGroupIndex b cursor)
    (ha : s.attempts.getLast? = some a) (hnext : HasNext cfg pools a.group) :
    a.group < b.group ↔ AllTried cfg pools s.attempts a.group := by
  have hmem : a ∈ s.attempts := List.mem_of_getLast? ha
  obtain hhere | ⟨hleft, htried⟩ := h.last a ha
  · obtain ⟨r, -, htier⟩ := h.within a hmem hhere
    have hpool : groupPool cfg pools a.group ≠ [] := by
      intro hnil
      rw [hnil, tierAt_nil] at htier
      cases htier
    have hb : b.group = a.group := by
      rw [hhere] at hpool ⊢
      exact hsel.not_skipped hpool
    refine iff_of_false (by omega) fun hall => ?_
    -- the tier at the counter is still to come
    have hlen := heven a.group hpool hnext
    have hlt : s.cursor.retry < (tiers (groupPool cfg pools a.group)).length := by
      have := hcount.retry
      omega
    obtain ⟨x, hx, hxg, hxq⟩ := hall _ (List.getElem_mem hlt)
    obtain ⟨r', hr', htier'⟩ := h.within x hx (hxg.trans hhere)
    rw [hxg, tierAt_of_lt (by omega), hxq, ← List.getElem?_eq_getElem hlt] at htier'
    have hsame := (List.getElem?_inj (by omega) (nodup_tiers _)).1 htier'
    omega
  refine iff_of_true ?_ (htried hnext)
  have := hsel.le
  omega

theorem Tracking.inGroup
    (hsel : Selection cfg (cfg.autoGroups.map pools) s.cursor s.cursor.startGroupIndex a cursor)
    {r : Nat} (hr : s.cursor.priorityRetry s.cursor.startGroupIndex a.group = r) :
    (∀ x ∈ s.attempts ++ [a], x.group = a.group → ∃ r' < r + 1,
      tierAt (groupPool cfg pools x.group) r' = some x.channel.priority) ∧
    (∀ r' < r + 1, ∃ x ∈ s.attempts ++ [a], x.group = a.group ∧
      tierAt (groupPool cfg pools x.group) r' = some x.channel.priority) := by
  have htier := hsel.tier
  rw [hr] at htier
  have hold : (∀ x ∈ s.attempts, x.group = a.group → ∃ r' < r,
        tierAt (groupPool cfg pools x.group) r' = some x.channel.priority) ∧
      (∀ r' < r, ∃ x ∈ s.attempts, x.group = a.group ∧
        tierAt (groupPool cfg pools x.group) r' = some x.channel.priority) := by
    rcases Nat.lt_or_eq_of_le hsel.le with hmoved | hhere
    · -- a group the loop has not been in
      have hzero : r = 0 := hr.symm.trans (if_pos hmoved)
      refine ⟨fun x hx hxg => ?_, fun r' hr' => by omega⟩
      have := hcount.below x hx
      omega
    have hretry : r = s.cursor.retry := hr.symm.trans (if_neg (by omega))
    rw [hretry, ← hhere]
    exact ⟨h.within, h.covered⟩
  constructor
  · intro x hx hxg
    rcases mem_append.1 hx with hx | hx
    · obtain ⟨r', hr', ht⟩ := hold.1 x hx hxg
      exact ⟨r', by omega, ht⟩
    · rw [mem_singleton.1 hx]
      exact ⟨r, by omega, htier⟩
  intro r' hr'
  rcases Nat.lt_succ_iff_lt_or_eq.1 hr' with hlt | rfl
  · obtain ⟨x, hx, hrest⟩ := hold.2 r' hlt
    exact ⟨x, List.mem_append_left _ hx, hrest⟩
  · exact ⟨a, List.mem_append_right _ (mem_singleton.2 rfl), rfl, htier⟩

theorem Tracking.next (heven : Evenly cfg pools) (hc : Chosen cfg s pools a cursor)
    (hretry : cursor.increaseRetry.retry ≤ cfg.retryTimes) :
    Tracking cfg pools { cursor := cursor.increaseRetry, attempts := s.attempts ++ [a] } := by
  obtain ⟨hfirst, rfl⟩ | ⟨-, hsel⟩ := hc
  · obtain ⟨hnil, hzero, -, -, hwhere⟩ := hcount.first a hfirst
    have hinc : s.cursor.increaseRetry = { s.cursor with retry := 1 } := by
      simp [Cursor.increaseRetry, hcount.reset, hzero]
    rw [hinc] at hretry ⊢
    have hpos : cfg.retryTimes ≠ 0 := by
      intro h0
      rw [h0] at hretry
      simp at hretry
    have hstart : a.group = Cursor.startGroupIndex { s.cursor with retry := 1 } :=
      (hwhere.resolve_right hpos).symm
    have htier := h.first a hfirst
    rw [hnil, List.nil_append]
    refine ⟨fun b hb _ => ?_, fun r hr => ?_, fun b hb => .inl ?_, nofun⟩
    · rw [mem_singleton.1 hb]
      exact ⟨0, Nat.one_pos, htier⟩
    · obtain rfl : r = 0 := Nat.lt_one_iff.1 hr
      exact ⟨a, mem_singleton.2 rfl, hstart, htier⟩
    rw [List.getLast?_singleton] at hb
    rw [← Option.some.inj hb]
    exact hstart
  have hbelow : ∀ x ∈ s.attempts ++ [a], x.group ≤ a.group := by
    intro x hx
    rcases mem_append.1 hx with hold | hnew
    · exact (hcount.below x hold).trans hsel.le
    · rw [mem_singleton.1 hnew]
  have hlast : ∀ x, (s.attempts ++ [a]).getLast? = some x → x = a := by
    intro x hx
    rw [List.getLast?_concat] at hx
    exact (Option.some.inj hx).symm
  have hle : s.cursor.priorityRetry s.cursor.startGroupIndex a.group ≤ cfg.retryTimes := by
    have := hcount.retry
    unfold Cursor.priorityRetry
    split <;> omega
  have htier := hsel.tier
  obtain ⟨hwithin, hcovered⟩ := h.inGroup hcount hsel rfl
  rw [hsel.cursor, increaseRetry_after cfg hcount.reset]
  generalize s.cursor.priorityRetry s.cursor.startGroupIndex a.group = r
    at hle htier hwithin hcovered ⊢
  split
  · rename_i hleave
    refine ⟨fun x hx hxg => ?_, nofun, fun x hx => .inr ?_, nofun⟩
    · have hup : x.group = a.group + 1 := hxg
      have := hbelow x hx
      omega
    obtain rfl := hlast x hx
    refine ⟨Nat.lt_succ_self _, fun hnext q hq => ?_⟩
    have hpool : groupPool cfg pools x.group ≠ [] := by
      intro hnil
      rw [hnil, tierAt_nil] at htier
      cases htier
    have hlen := heven x.group hpool hnext
    obtain ⟨i, hi, rfl⟩ := List.getElem_of_mem hq
    obtain ⟨y, hy, hyg, hyt⟩ := hcovered i (by omega)
    rw [hyg, tierAt_of_lt hi, List.getElem?_eq_getElem hi] at hyt
    exact ⟨y, hy, hyg, (Option.some.inj hyt).symm⟩
  refine ⟨hwithin, hcovered, fun x hx => .inl ?_, nofun⟩
  obtain rfl := hlast x hx
  rfl

end

/-- The loop over fixed channels, and the law over its attempts. -/
structure Ordered (cfg : Config) (pools : String → Pool) (s : Loop) : Prop where
  bounded : Bounded cfg s
  law : Lawful cfg pools s.attempts
  live : s.stopped = false → Tracking cfg pools s

theorem turn_ordered (heven : Evenly cfg pools) (s : Loop)
    (t : Turn) (h : Ordered cfg pools s) (hfixed : t.pools = pools) :
    Ordered cfg pools (s.turn cfg t) := by
  have hbounded := turn_bounded cfg s t h.bounded
  cases hstop : s.stopped with
  | true =>
    rwa [turn_stopped cfg hstop]
  | false =>
    have hcount := h.bounded.live hstop
    have htrack := h.live hstop
    have hlaw : ∀ {a cursor}, Chosen cfg s t.pools a cursor →
        Lawful cfg pools (s.attempts ++ [a]) := by
      intro a cursor hc
      refine lawful_append h.law fun b hb hnext => ?_
      obtain ⟨hfirst, -⟩ | ⟨-, hsel⟩ := hc
      · rw [(hcount.first a hfirst).1] at hb
        cases hb
      · rw [hfixed] at hsel
        exact htrack.lawful hcount heven hsel hb hnext
    obtain ⟨cursor, heq⟩ | ⟨a, cursor, hc, ⟨cursor', heq⟩ | ⟨hretry, heq⟩⟩ :=
      turn_cases cfg hstop t
    · refine ⟨hbounded, ?_, ?_⟩
      · rw [heq]
        exact h.law
      · rw [heq]
        nofun
    · refine ⟨hbounded, ?_, ?_⟩
      · rw [heq]
        exact hlaw hc
      · rw [heq]
        nofun
    refine ⟨hbounded, ?_, ?_⟩
    · rw [heq]
      exact hlaw hc
    rw [heq]
    intro _
    rw [hfixed] at hc
    exact htrack.next hcount heven hc hretry

theorem ordered_start {pools₀ : String → Pool} {draw : Draw} {enforced : Bool}
    (h : Loop.start cfg pools₀ draw enforced = some s)
    (hfixed : enforced = false → pools₀ = pools) : Ordered cfg pools s := by
  refine ⟨bounded_start h, ?_, fun _ => ?_⟩
  · obtain ⟨a, rfl, -⟩ := start_spec h
    intro k x y hx
    cases hx
  obtain ⟨a, rfl, pool, hpool, -, htier⟩ := start_spec h
  refine ⟨nofun, nofun, nofun, fun b hb => ?_⟩
  cases enforced with
  | true => cases hb
  | false =>
    rw [← Option.some.inj hb, groupPool, ← hfixed rfl, hpool, getD_some]
    exact htier

theorem run_stopped (cfg : Config) (h : s.stopped = true) (ts : List Turn) :
    run (Loop.turn cfg) s ts = s := by
  induction ts with
  | nil => rfl
  | cons t ts ih => rw [run_cons, turn_stopped cfg h, ih]

theorem attempts_of_running (cfg : Config) (s : Loop) (ts : List Turn)
    (h : (run (Loop.turn cfg) s ts).stopped = false) :
    (run (Loop.turn cfg) s ts).attempts.length = s.attempts.length + ts.length := by
  induction ts generalizing s with
  | nil => rfl
  | cons t ts ih =>
    rw [run_cons] at h ⊢
    have hlive : s.stopped = false := by
      by_contra hstop
      rw [Bool.not_eq_false] at hstop
      rw [turn_stopped cfg hstop, run_stopped cfg hstop, hstop] at h
      cases h
    rw [ih _ h, List.length_cons]
    have hended : ∀ {s' : Loop}, s.turn cfg t = s' → s'.stopped ≠ true := by
      intro s' heq hstop
      rw [heq, run_stopped cfg hstop, hstop] at h
      cases h
    obtain ⟨cursor, heq⟩ | ⟨a, cursor, -, ⟨cursor', heq⟩ | ⟨-, heq⟩⟩ := turn_cases cfg hlive t
    · exact absurd rfl (hended heq)
    · exact absurd rfl (hended heq)
    · rw [heq, length_append, List.length_singleton]
      omega

/-- **The retry loop.**  Whatever the channels of the groups are at each turn,
    and whatever the attempts come to, no more than `RetryTimes + 1` attempts for
    each auto group are made, the loop ends, and no attempt is made in a group
    before that of an earlier one.  With cross-group retry and channels that stay
    as they are, the loop keeps to the documented law where every group that can
    be left has `RetryTimes + 1` tiers. -/
theorem autoGroup_retry (cfg : Config) (pools₀ : String → Pool) (draw : Draw) (enforced : Bool)
    (s : Loop) (hstart : Loop.start cfg pools₀ draw enforced = some s) : (∀ ts : List Turn,
      (run (Loop.turn cfg) s ts).attempts.length ≤ (cfg.retryTimes + 1) * cfg.autoGroups.length ∧
      ((cfg.retryTimes + 1) * cfg.autoGroups.length < ts.length →
        (run (Loop.turn cfg) s ts).stopped = true) ∧
      (run (Loop.turn cfg) s ts).attempts.Pairwise fun a b => a.group ≤ b.group) ∧
    (cfg.crossGroupRetry = true → ∀ pools : String → Pool, (enforced = false → pools₀ = pools) →
      Evenly cfg pools → ∀ ts : List Turn, (∀ t ∈ ts, t.pools = pools) →
        Lawful cfg pools (run (Loop.turn cfg) s ts).attempts) := by
  refine ⟨fun ts => ?_, fun _ pools hsame heven ts hfixed => ?_⟩
  · have hbounded := run_invariant_all (Bounded cfg) (turn_bounded cfg) ts (bounded_start hstart)
    refine ⟨hbounded.total, fun hlong => ?_, hbounded.sorted⟩
    by_contra hrunning
    rw [Bool.not_eq_true] at hrunning
    have hcount := attempts_of_running cfg s ts hrunning
    have htotal := hbounded.total
    omega
  have hmeets : Meets (fun _ t => t.pools = pools) (Loop.turn cfg) s ts :=
    meets_of_forall hfixed
  exact (run_invariant (Ordered cfg pools) (turn_ordered heven) (ordered_start hstart hsame)
    hmeets).law

def twoByTwo (group : String) : Pool :=
  if group = "vip" then [⟨1, 10, 1⟩, ⟨2, 5, 1⟩]
  else if group = "default" then [⟨3, 10, 1⟩, ⟨4, 5, 1⟩]
  else []

theorem evenly_twoByTwo : Evenly ⟨1, ["vip", "default"], true⟩ twoByTwo := by
  intro g hpool _
  match g with
  | 0 => decide
  | 1 => decide
  | g + 2 => exact absurd rfl hpool

theorem autoGroup_retry_twoByTwo : ∃ s,
    Loop.start ⟨1, ["vip", "default"], true⟩ twoByTwo {} false = some s ∧
    (∀ ts : List Turn, (∀ t ∈ ts, t.pools = twoByTwo) → Lawful ⟨1, ["vip", "default"], true⟩ twoByTwo
      (run (Loop.turn ⟨1, ["vip", "default"], true⟩) s ts).attempts) := by
  obtain ⟨s, hs⟩ : ∃ s, Loop.start ⟨1, ["vip", "default"], true⟩ twoByTwo {} false = some s :=
    Option.isSome_iff_exists.1 (by decide +kernel)
  exact ⟨s, hs, (autoGroup_retry _ twoByTwo {} false s hs).2 rfl twoByTwo (fun _ => rfl)
    evenly_twoByTwo⟩

/-- **The law fails on its own example**: two groups of two tiers, `RetryTimes` 3.
    When both attempts at the first group have failed, the third is made at its
    last tier again. -/
theorem third_attempt_stays : ∃ s,
    Loop.start ⟨3, ["vip", "default"], true⟩ twoByTwo {} false = some s ∧
    ¬ Lawful ⟨3, ["vip", "default"], true⟩ twoByTwo
      (run (Loop.turn ⟨3, ["vip", "default"], true⟩) s
        (List.replicate 3 ⟨twoByTwo, {}, .failed {}⟩)).attempts := by
  obtain ⟨s, hs⟩ : ∃ s, Loop.start ⟨3, ["vip", "default"], true⟩ twoByTwo {} false = some s :=
    Option.isSome_iff_exists.1 (by decide +kernel)
  have hattempts : (Loop.start ⟨3, ["vip", "default"], true⟩ twoByTwo {} false).map (fun s =>
      (run (Loop.turn ⟨3, ["vip", "default"], true⟩) s
        (List.replicate 3 ⟨twoByTwo, {}, .failed {}⟩)).attempts) =
      some [⟨0, ⟨1, 10, 1⟩⟩, ⟨0, ⟨2, 5, 1⟩⟩, ⟨0, ⟨2, 5, 1⟩⟩] := by
    decide +kernel
  rw [hs, Option.map_some, Option.some.injEq] at hattempts
  refine ⟨s, hs, fun hlaw => ?_⟩
  rw [hattempts] at hlaw
  have hmove := (hlaw 1 ⟨0, ⟨2, 5, 1⟩⟩ ⟨0, ⟨2, 5, 1⟩⟩ rfl rfl ⟨1, by decide, by decide⟩).2
  refine absurd (hmove fun q hq => ?_) (by decide)
  have htiers : tiers (groupPool ⟨3, ["vip", "default"], true⟩ twoByTwo 0) = [10, 5] := by
    decide
  rw [htiers] at hq
  simp only [List.mem_cons, List.not_mem_nil, or_false] at hq
  obtain rfl | rfl := hq
  · exact ⟨⟨0, ⟨1, 10, 1⟩⟩, by decide, rfl, rfl⟩
  · exact ⟨⟨0, ⟨2, 5, 1⟩⟩, by decide, rfl, rfl⟩

end NewApi.Channel.Retry
