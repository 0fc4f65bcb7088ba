/-
  NewApi.Channel.Breaker

  The per-channel circuit breaker of `service/channel_circuit_breaker.go` and
  the one place that reports failures to it, `DecideCooldown`.

  A channel that fails `failureThreshold` times in a row is opened.  After
  `openDuration` the channel is half open: the first request that calls
  `AcquireCircuitProbe` takes the probe slot (`probing`), everyone else is
  refused until the probe's outcome comes in.  A success closes the breaker, a
  failure of a counted class opens it again.

  Two things the table does not know decide whether the slot is given back:

    * an outcome of a class that is not counted (a 400, say) leaves `probing`
      set, and with it the channel refused for good;
    * an outcome is not tied to a request, so one of a request admitted before
      the breaker opened gives the slot back under a probe that still runs.

  `Orderly` excludes exactly these two, and `probeTracked_iff_orderly` says
  that nothing else can go wrong.
-/

import NewApi.Lib.Run

namespace NewApi.Channel

open Function (update_of_ne)
open Option (getD_some map_some)
open NewApi.Lib

/-! ## The breaker's table -/

inductive RelayErrorClass where
  | ok
  | auth
  | rateLimited
  | serverError
  | timeout
  | badRequest
  | capability
  | unknown

/-- The classes both `RegisterChannelCircuitFailure` and `DecideCooldown` act
    on: the upstream is unavailable. -/
def RelayErrorClass.counts : RelayErrorClass → Bool
  | .auth | .rateLimited | .serverError | .timeout => true
  | _ => false

/-- `circuitEntry`; the zero `time.Time` of `openedAt` is `none`. -/
structure CircuitEntry where
  consecutiveFailures : Int := 0
  openedAt : Option Int := none
  probing : Bool := false
deriving DecidableEq

abbrev CircuitTable := Int → Option CircuitEntry

/-- The capability flags and the tuning the two files read: whether the breaker
    and `cooldown_v2` are on, the breaker's threshold and open time, and the
    `CHANNEL_COOLDOWN_*_SECONDS` variables, all times in seconds. -/
structure CircuitConfig where
  enabled : Bool := true
  failureThreshold : Int := 5
  openDuration : Int := 120
  cooldownV2 : Bool := true
  authSeconds : Int := 300
  rateLimitSeconds : Int := 60
  serverErrorSeconds : Int := 60
  timeoutSeconds : Int := 30

variable (cfg : CircuitConfig)

variable (table : CircuitTable)

def registerChannelCircuitSuccess
    (channelId : Int) : CircuitTable :=
  if !cfg.enabled || channelId ≤ 0 then table
  else match table channelId with
  | none => table
  | some e =>
    if e.openedAt = none ∧ e.consecutiveFailures = 0 ∧ e.probing = false then table
    else Function.update table channelId none

/-- `RegisterChannelCircuitFailure`; the answer says whether the breaker has
    just been opened. -/
def registerChannelCircuitFailure (now : Int)
    (channelId : Int) (errClass : RelayErrorClass) : Bool × CircuitTable :=
  if !cfg.enabled || channelId ≤ 0 then (false, table)
  else if !errClass.counts then (false, table)
  else
    let e := (table channelId).getD {}
    if e.probing then
      (true, Function.update table channelId
        (some { e with probing := false, openedAt := some now }))
    else
      let failures := e.consecutiveFailures + 1
      if cfg.failureThreshold ≤ failures ∧ e.openedAt = none then
        (true, Function.update table channelId
          (some { e with consecutiveFailures := failures, openedAt := some now }))
      else
        (false, Function.update table channelId
          (some { e with consecutiveFailures := failures }))

/-- `ChannelCircuitAllows`: the pure candidate filter. -/
def channelCircuitAllows (now : Int)
    (channelId : Int) : Bool :=
  if !cfg.enabled || channelId ≤ 0 then true
  else match table channelId with
  | none => true
  | some e =>
    match e.openedAt with
    | none => true
    | some t => cfg.openDuration ≤ now - t

/-- `AcquireCircuitProbe`: may this request go to the channel now? -/
def acquireCircuitProbe (now : Int)
    (channelId : Int) : Bool × CircuitTable :=
  if !cfg.enabled || channelId ≤ 0 then (true, table)
  else match table channelId with
  | none => (true, table)
  | some e =>
    match e.openedAt with
    | none => (true, table)
    | some t =>
      if now - t < cfg.openDuration then (false, table)
      else if e.probing then (false, table)
      else (true, Function.update table channelId (some { e with probing := true }))

inductive CircuitState where
  | closed
  | open
  | halfOpen

def getChannelCircuitState (now : Int)
    (channelId : Int) : CircuitState × Int :=
  match table channelId with
  | none => (.closed, 0)
  | some e =>
    match e.openedAt with
    | none => if e.consecutiveFailures = 0 then (.closed, 0) else (.closed, e.consecutiveFailures)
    | some t =>
      if cfg.openDuration ≤ now - t then (.halfOpen, e.consecutiveFailures)
      else (.open, e.consecutiveFailures)

/-- `circuitTable[channelId].probing`, `false` without an entry. -/
def probing (table : CircuitTable) (channelId : Int) : Bool :=
  match table channelId with
  | none => false
  | some e => e.probing

/-! ## DecideCooldown -/

/-- `DefaultCooldownCap = 15 * time.Minute` -/
def defaultCooldownCap : Int := 900

/-- `cooldownDuration`: a variable that is not positive falls back to the default. -/
def cooldownDuration (secs dflt : Int) : Int := if secs ≤ 0 then dflt else secs

/-- The `switch` of `DecideCooldown`: how long an error of this class cools the
    channel down, `none` for the classes that do not. -/
def coolFor (retryAfter : Int) : RelayErrorClass → Option Int
  | .auth => some (cooldownDuration cfg.authSeconds 300)
  | .rateLimited =>
    if retryAfter ≤ 0 then some (cooldownDuration cfg.rateLimitSeconds 60)
    else if defaultCooldownCap < retryAfter then some defaultCooldownCap
    else some retryAfter
  | .serverError => some (cooldownDuration cfg.serverErrorSeconds 60)
  | .timeout => some (cooldownDuration cfg.timeoutSeconds 30)
  | _ => none

/-- `DecideCooldown`: until when the channel cools down, and the breaker's table
    after the failure was reported to it. -/
def decideCooldown (now : Int) (channelId : Int)
    (errClass : RelayErrorClass) (retryAfter : Int) : Option Int × CircuitTable :=
  if !cfg.cooldownV2 then (none, table)
  else match coolFor cfg retryAfter errClass with
  | none => (none, table)
  | some duration =>
    (some (now + duration),
      (registerChannelCircuitFailure cfg table now channelId errClass).2)

theorem coolFor_isSome (retryAfter : Int) (c : RelayErrorClass) :
    (coolFor cfg retryAfter c).isSome = c.counts := by
  cases c
  case rateLimited =>
    simp only [coolFor]
    split
    · rfl
    · split <;> rfl
  all_goals rfl

theorem decideCooldown_table (now ch : Int)
    (c : RelayErrorClass) (retryAfter : Int) :
    (decideCooldown cfg table now ch c retryAfter).2 =
      if cfg.cooldownV2 then (registerChannelCircuitFailure cfg table now ch c).2
      else table := by
  unfold decideCooldown
  cases hv : cfg.cooldownV2 with
  | false => rfl
  | true =>
    have hsome := coolFor_isSome cfg retryAfter c
    cases hc : coolFor cfg retryAfter c with
    | some d => rfl
    | none =>
      -- not a counted class: the direct call would return at once as well
      rw [hc] at hsome
      have hcounts : c.counts = false := hsome.symm
      simp only [Bool.not_true, Bool.false_eq_true, if_false, if_true,
        registerChannelCircuitFailure, hcounts, Bool.not_false]
      split <;> rfl

/-! ## Requests around the table -/

/-- How a request to a channel can end, by what it reports to the breaker:
    a success, a failure reported directly or through `DecideCooldown`, or
    nothing at all. -/
inductive Outcome where
  | success
  | failure (errClass : RelayErrorClass)
  | error (errClass : RelayErrorClass) (retryAfter : Int)
  | silent

/-- The table after an outcome was reported. -/
def record (now channelId : Int) :
    Outcome → CircuitTable
  | .success => registerChannelCircuitSuccess cfg table channelId
  | .failure c => (registerChannelCircuitFailure cfg table now channelId c).2
  | .error c retryAfter => (decideCooldown cfg table now channelId c retryAfter).2
  | .silent => table

def Outcome.heard : Outcome → Bool
  | .success => true
  | .failure c => c.counts
  | .error c _ => cfg.cooldownV2 && c.counts
  | .silent => false

def counted (channelId : Int) (o : Outcome) : Bool :=
  cfg.enabled && decide (0 < channelId) && o.heard cfg

/-- The gateway: the breaker's table, the clock, and for each request in flight
    the channel it was admitted to and whether it is that channel's probe. -/
structure Gateway (ι : Type*) where
  table : CircuitTable
  now : Int
  flight : ι → Option (Int × Bool)

/-- What can happen.  `report` is an outcome of a request that never asked
    `AcquireCircuitProbe`: a relay retry that was moved to this channel. -/
inductive Action (ι : Type*) where
  | tick (d : Nat)
  | allows (channelId : Int)
  | acquire (i : ι) (channelId : Int)
  | finish (i : ι) (o : Outcome)
  | report (channelId : Int) (o : Outcome)

variable {ι : Type*} [DecidableEq ι]

def Gateway.start (now : Int) : Gateway ι :=
  { table := fun _ => none, now, flight := fun _ => none }

/-- An admitted request is the probe when its call is the one that set
    `probing`. -/
def Gateway.step (s : Gateway ι) : Action ι → Gateway ι
  | .tick d => { s with now := s.now + d }
  | .allows _ => s
  | .acquire i ch =>
    match s.flight i with
    | some _ => s
    | none =>
      let out := acquireCircuitProbe cfg s.table s.now ch
      if out.1 then
        { s with
          table := out.2
          flight := Function.update s.flight i
            (some (ch, !probing s.table ch && probing out.2 ch)) }
      else { s with table := out.2 }
  | .finish i o =>
    match s.flight i with
    | none => s
    | some (ch, _) =>
      { s with
        table := record cfg s.table s.now ch o
        flight := Function.update s.flight i none }
  | .report ch o => { s with table := record cfg s.table s.now ch o }

/-! ## What the operations do to the table -/

omit [DecidableEq ι] in
theorem probing_update (ch ch' : Int) (e : Option CircuitEntry) :
    probing (Function.update table ch e) ch' =
      if ch' = ch then (e.map CircuitEntry.probing).getD false else probing table ch' := by
  by_cases h : ch' = ch
  · subst h
    cases e <;> simp [probing]
  · simp [probing, h]

theorem probing_getD (ch : Int) :
    ((table ch).getD {}).probing = probing table ch := by
  unfold probing
  cases table ch <;> rfl

variable {cfg : CircuitConfig} {ch : Int}

theorem counted_of_off
    (h : (!cfg.enabled || decide (ch ≤ 0)) = true) (o : Outcome) :
    counted cfg ch o = false := by
  simp only [Bool.or_eq_true, Bool.not_eq_true', decide_eq_true_eq] at h
  rcases h with h | h
  · simp [counted, h]
  · simp [counted, Int.not_lt.2 h]

theorem counted_of_on
    (h : ¬ (!cfg.enabled || decide (ch ≤ 0)) = true) (o : Outcome) :
    counted cfg ch o = o.heard cfg := by
  simp only [Bool.or_eq_true, Bool.not_eq_true', decide_eq_true_eq, not_or,
    Bool.not_eq_false, Int.not_le] at h
  simp [counted, h.1, h.2]

theorem probing_registerSuccess (cfg : CircuitConfig) (table : CircuitTable) (ch ch' : Int) :
    probing (registerChannelCircuitSuccess cfg table ch) ch' =
      if ch' = ch ∧ counted cfg ch .success then false else probing table ch' := by
  by_cases hoff : !cfg.enabled || decide (ch ≤ 0)
  · simp [registerChannelCircuitSuccess, hoff, counted_of_off hoff]
  have hon : counted cfg ch .success = true := counted_of_on hoff .success
  simp only [registerChannelCircuitSuccess, if_neg hoff, hon, and_true]
  cases hrow : table ch with
  | none =>
    by_cases h : ch' = ch
    · simp [h, probing, hrow]
    · simp [h]
  | some e =>
    by_cases hidle : e.openedAt = none ∧ e.consecutiveFailures = 0 ∧ e.probing = false
    · by_cases h : ch' = ch
      · simp [h, hidle, probing, hrow]
      · simp [h, hidle]
    · simp only [if_neg hidle, probing_update]
      rfl

theorem probing_registerFailure (cfg : CircuitConfig) (table : CircuitTable) (now ch ch' : Int)
    (c : RelayErrorClass) :
    probing (registerChannelCircuitFailure cfg table now ch c).2 ch' =
      if ch' = ch ∧ counted cfg ch (.failure c) then false else probing table ch' := by
  by_cases hoff : !cfg.enabled || decide (ch ≤ 0)
  · simp [registerChannelCircuitFailure, hoff, counted_of_off hoff]
  have hon : counted cfg ch (.failure c) = c.counts := counted_of_on hoff (.failure c)
  cases hc : c.counts with
  | false => simp [registerChannelCircuitFailure, hc, hon]
  | true =>
    rw [hc] at hon
    simp only [registerChannelCircuitFailure, if_neg hoff, hc, hon, and_true, Bool.not_true,
      Bool.false_eq_true, if_false, probing_getD]
    cases hp : probing table ch with
    | true => simp only [if_true, probing_update]; rfl
    | false =>
      simp only [Bool.false_eq_true, if_false]
      split
      · simp only [probing_update, map_some, getD_some]
      · simp only [probing_update, map_some, getD_some]

/-- **What an outcome does to the slots.**  A counted one frees its channel's
    slot, whoever holds it; nothing else changes one. -/
theorem probing_record (cfg : CircuitConfig) (table : CircuitTable) (now ch ch' : Int)
    (o : Outcome) :
    probing (record cfg table now ch o) ch' =
      if ch' = ch ∧ counted cfg ch o then false else probing table ch' := by
  cases o with
  | success => exact probing_registerSuccess cfg table ch ch'
  | failure c => exact probing_registerFailure cfg table now ch ch' c
  | silent => simp [record, counted, Outcome.heard]
  | error c retryAfter =>
    simp only [record, decideCooldown_table]
    cases hv : cfg.cooldownV2 with
    | true =>
      rw [if_pos rfl, probing_registerFailure]
      simp [counted, Outcome.heard, hv]
    | false => simp [counted, Outcome.heard, hv]

theorem acquireCircuitProbe_cases (cfg : CircuitConfig) (table : CircuitTable)
    (now ch : Int) :
    acquireCircuitProbe cfg table now ch = (true, table) ∨
    acquireCircuitProbe cfg table now ch = (false, table) ∨
    (probing table ch = false ∧ ∃ e, table ch = some e ∧
      acquireCircuitProbe cfg table now ch =
        (true, Function.update table ch (some { e with probing := true }))) := by
  unfold acquireCircuitProbe
  by_cases hoff : !cfg.enabled || decide (ch ≤ 0)
  · exact .inl (if_pos hoff)
  rw [if_neg hoff]
  cases hrow : table ch with
  | none => exact .inl rfl
  | some e =>
    cases ht : e.openedAt with
    | none => exact .inl (by simp only [ht])
    | some t =>
      simp only [ht]
      by_cases hopen : now - t < cfg.openDuration
      · exact .inr (.inl (if_pos hopen))
      rw [if_neg hopen]
      cases hp : e.probing with
      | true => exact .inr (.inl rfl)
      | false => exact .inr (.inr ⟨by simp [probing, hrow, hp], e, rfl, by simp [ht]⟩)

/-! ## The slot and the probe -/

/-- The slot of a channel is taken exactly while its probe is in flight, and
    there is never a second probe. -/
structure ProbeTracked (s : Gateway ι) : Prop where
  slot : ∀ ch, probing s.table ch = true ↔ ∃ i, s.flight i = some (ch, true)
  single : ∀ ch i j, s.flight i = some (ch, true) → s.flight j = some (ch, true) → i = j

/-- A probe ends with an outcome the breaker counts; and while the slot of a
    channel is taken, no other request's outcome on it is counted. -/
def Orderly (cfg : CircuitConfig) (s : Gateway ι) : Action ι → Prop
  | .finish i o =>
    match s.flight i with
    | none => True
    | some (ch, true) => counted cfg ch o = true
    | some (ch, false) => ¬ (counted cfg ch o = true ∧ probing s.table ch = true)
  | .report ch o => ¬ (counted cfg ch o = true ∧ probing s.table ch = true)
  | _ => True

theorem record_keeps_slots_iff (cfg : CircuitConfig) (table : CircuitTable) (now ch : Int)
    (o : Outcome) :
    (∀ ch', probing (record cfg table now ch o) ch' = probing table ch') ↔
      ¬ (counted cfg ch o = true ∧ probing table ch = true) := by
  constructor
  · rintro h ⟨hc, hp⟩
    have h1 := h ch
    rw [probing_record, if_pos ⟨rfl, hc⟩, hp] at h1
    cases h1
  intro h ch'
  rw [probing_record]
  by_cases hch : ch' = ch ∧ counted cfg ch o = true
  · rw [if_pos hch]
    obtain ⟨rfl, hc⟩ := hch
    have hp : ¬ probing table ch' = true := fun hp => h ⟨hc, hp⟩
    simpa using hp
  · rw [if_neg hch]

variable {s : Gateway ι}

omit [DecidableEq ι] in
theorem ProbeTracked.congr_iff {s' : Gateway ι} (h : ProbeTracked s)
    (hf : ∀ ch i, s'.flight i = some (ch, true) ↔ s.flight i = some (ch, true)) :
    ProbeTracked s' ↔ ∀ ch, probing s'.table ch = probing s.table ch := by
  constructor
  · intro h' ch
    have hiff : probing s'.table ch = true ↔ probing s.table ch = true := by
      rw [h'.slot, h.slot]
      exact exists_congr (hf ch)
    exact Bool.eq_iff_iff.2 hiff
  intro hp
  refine ⟨fun ch => ?_, fun ch i j hi hj => ?_⟩
  · rw [hp, h.slot]
    exact (exists_congr (hf ch)).symm
  · exact h.single ch i j ((hf ch i).1 hi) ((hf ch j).1 hj)

omit [DecidableEq ι] in
theorem probeTracked_start (now : Int) : ProbeTracked (Gateway.start now : Gateway ι) :=
  ⟨by simp [Gateway.start, probing], by simp [Gateway.start]⟩

theorem ProbeTracked.acquire (h : ProbeTracked s) (cfg : CircuitConfig)
    (i : ι) (ch : Int) : ProbeTracked (s.step cfg (.acquire i ch)) := by
  cases hi : s.flight i with
  | some f => simpa only [Gateway.step, hi] using h
  | none =>
    -- the requests that are a probe before and after, when `i` becomes none
    have hsame : ∀ ch' j, Function.update s.flight i (some (ch, false)) j = some (ch', true) ↔
        s.flight j = some (ch', true) := by
      intro ch' j
      by_cases hj : j = i
      · simp [hj, hi]
      · simp [hj]
    obtain hadm | href | ⟨hfree, e, hrow, hslot⟩ :=
      acquireCircuitProbe_cases cfg s.table s.now ch
    · simp only [Gateway.step, hi, hadm, if_true, Bool.not_and_self]
      exact (h.congr_iff hsame).2 fun _ => rfl
    · simp only [Gateway.step, hi, href, Bool.false_eq_true, if_false]
      exact h
    have hnone : ∀ j, s.flight j ≠ some (ch, true) := by
      intro j hj
      have hp := (h.slot ch).2 ⟨j, hj⟩
      rw [hfree] at hp
      cases hp
    simp only [Gateway.step, hi, hslot, if_true, hfree, Bool.not_false, Bool.true_and,
      probing_update, map_some, getD_some]
    refine ⟨fun ch' => ?_, fun ch' j k hj hk => ?_⟩
    · simp only [probing_update, map_some, getD_some]
      by_cases hch : ch' = ch
      · rw [if_pos hch, hch]
        exact ⟨fun _ => ⟨i, by simp⟩, fun _ => rfl⟩
      rw [if_neg hch, h.slot]
      refine exists_congr fun j => ?_
      by_cases hj : j = i
      · simp [hj, hi, Ne.symm hch]
      · simp [hj]
    dsimp only at hj hk
    by_cases hji : j = i
    · by_cases hki : k = i
      · rw [hji, hki]
      · have hch : ch = ch' := by simpa [hji] using hj
        rw [update_of_ne hki, ← hch] at hk
        exact absurd hk (hnone k)
    rw [update_of_ne hji] at hj
    by_cases hki : k = i
    · have hch : ch = ch' := by simpa [hki] using hk
      rw [← hch] at hj
      exact absurd hj (hnone j)
    · rw [update_of_ne hki] at hk
      exact h.single ch' j k hj hk

theorem ProbeTracked.finish_probe_iff (h : ProbeTracked s)
    (cfg : CircuitConfig) {i : ι} (hi : s.flight i = some (ch, true)) (o : Outcome) :
    ProbeTracked (s.step cfg (.finish i o)) ↔ counted cfg ch o = true := by
  have hgone : ∀ j, Function.update s.flight i none j ≠ some (ch, true) := by
    intro j hj
    by_cases hji : j = i
    · simp [hji] at hj
    · rw [update_of_ne hji] at hj
      exact hji (h.single ch j i hj hi)
  simp only [Gateway.step, hi]
  constructor
  · intro h'
    by_contra hc
    -- not counted: the slot is still taken, by nobody
    have hp := (h.slot ch).2 ⟨i, hi⟩
    have hstill : probing (record cfg s.table s.now ch o) ch = true := by
      rw [probing_record, if_neg (fun hcc => hc hcc.2)]
      exact hp
    obtain ⟨j, hj⟩ := (h'.slot ch).1 hstill
    exact hgone j hj
  intro hc
  refine ⟨fun ch' => ?_, fun ch' j k hj hk => ?_⟩
  · simp only [probing_record, hc, and_true]
    by_cases hch : ch' = ch
    · rw [if_pos hch, hch]
      exact iff_of_false Bool.false_ne_true fun ⟨j, hj⟩ => hgone j hj
    rw [if_neg hch, h.slot]
    refine exists_congr fun j => ?_
    by_cases hj : j = i
    · simp [hj, hi, Ne.symm hch]
    · simp [hj]
  have hji : j ≠ i := by
    rintro rfl
    simp at hj
  have hki : k ≠ i := by
    rintro rfl
    simp at hk
  dsimp only at hj hk
  rw [update_of_ne hji] at hj
  rw [update_of_ne hki] at hk
  exact h.single ch' j k hj hk

/-- **One step.**  From a tracked state, the next one is tracked exactly if the
    step is orderly. -/
theorem ProbeTracked.step_iff (h : ProbeTracked s) (cfg : CircuitConfig)
    (a : Action ι) : ProbeTracked (s.step cfg a) ↔ Orderly cfg s a := by
  cases a with
  | tick d => exact iff_of_true ⟨h.slot, h.single⟩ trivial
  | allows ch => exact iff_of_true h trivial
  | acquire i ch => exact iff_of_true (h.acquire cfg i ch) trivial
  | report ch o =>
    have hflight : ∀ ch' j, (s.step cfg (.report ch o)).flight j = some (ch', true) ↔
        s.flight j = some (ch', true) := fun _ _ => Iff.rfl
    rw [h.congr_iff hflight]
    exact record_keeps_slots_iff cfg s.table s.now ch o
  | finish i o =>
    rcases hi : s.flight i with _ | ⟨ch, p⟩
    · simp only [Gateway.step, Orderly, hi, iff_true]
      exact h
    cases p with
    | true =>
      rw [h.finish_probe_iff cfg hi]
      simp only [Orderly, hi]
    | false =>
      have hsame : ∀ ch' j, Function.update s.flight i none j = some (ch', true) ↔
          s.flight j = some (ch', true) := by
        intro ch' j
        by_cases hj : j = i
        · simp [hj, hi]
        · simp [hj]
      simp only [Gateway.step, Orderly, hi]
      rw [h.congr_iff hsame]
      exact record_keeps_slots_iff cfg s.table s.now ch o

/-! ## Open channels -/

def Watched (cfg : CircuitConfig) (s : Gateway ι) : Prop :=
  ∀ ch, s.table ch ≠ none → cfg.enabled = true ∧ 0 < ch

theorem registerSuccess_of_ne_none {table : CircuitTable} {ch' : Int}
    (h : registerChannelCircuitSuccess cfg table ch ch' ≠ none) : table ch' ≠ none := by
  by_cases hch : ch' = ch
  · -- the entry of the reported channel is kept or deleted
    subst hch
    intro hn
    apply h
    simp [registerChannelCircuitSuccess, hn]
  intro hn
  apply h
  unfold registerChannelCircuitSuccess
  split
  · exact hn
  cases table ch with
  | none => exact hn
  | some e =>
    simp only
    split
    · exact hn
    · simpa [hch] using hn

theorem registerFailure_of_ne_none {table : CircuitTable}
    {now ch' : Int} {c : RelayErrorClass}
    (h : (registerChannelCircuitFailure cfg table now ch c).2 ch' ≠ none) :
    table ch' ≠ none ∨ (cfg.enabled = true ∧ 0 < ch') := by
  by_cases hoff : !cfg.enabled || decide (ch ≤ 0)
  · rw [registerChannelCircuitFailure, if_pos hoff] at h
    exact .inl h
  by_cases hch : ch' = ch
  · simp only [Bool.or_eq_true, Bool.not_eq_true', decide_eq_true_eq, not_or,
      Bool.not_eq_false, Int.not_le] at hoff
    exact .inr ⟨hoff.1, hch ▸ hoff.2⟩
  rw [registerChannelCircuitFailure, if_neg hoff] at h
  refine .inl fun hn => h ?_
  cases hc : c.counts with
  | false => simpa using hn
  | true =>
    simp only [Bool.not_true, Bool.false_eq_true, if_false]
    split
    · simpa [hch] using hn
    · split <;> simpa [hch] using hn

theorem record_of_ne_none {table : CircuitTable} {now ch' : Int}
    {o : Outcome} (h : record cfg table now ch o ch' ≠ none) :
    table ch' ≠ none ∨ (cfg.enabled = true ∧ 0 < ch') := by
  cases o with
  | success => exact .inl (registerSuccess_of_ne_none h)
  | failure c => exact registerFailure_of_ne_none h
  | silent => exact .inl h
  | error c retryAfter =>
    simp only [record, decideCooldown_table] at h
    split at h
    · exact registerFailure_of_ne_none h
    · exact .inl h

theorem Watched.step (h : Watched cfg s)
    (a : Action ι) : Watched cfg (s.step cfg a) := by
  have hrec : ∀ ch o, ∀ ch', record cfg s.table s.now ch o ch' ≠ none →
      cfg.enabled = true ∧ 0 < ch' := by
    intro ch o ch' hne
    rcases record_of_ne_none hne with hold | hnew
    · exact h ch' hold
    · exact hnew
  cases a with
  | tick d => exact h
  | allows ch => exact h
  | report ch o => exact hrec ch o
  | finish i o =>
    simp only [Gateway.step]
    split
    · exact h
    · exact hrec _ o
  | acquire i ch =>
    simp only [Gateway.step]
    split
    · exact h
    obtain hadm | href | ⟨-, e, hrow, hslot⟩ :=
      acquireCircuitProbe_cases cfg s.table s.now ch
    · rw [hadm, if_pos rfl]
      exact h
    · rw [href, if_neg Bool.false_ne_true]
      exact h
    simp only [hslot, if_true]
    intro ch' hne
    by_cases hch : ch' = ch
    · exact h ch' (by simp [hch, hrow])
    · exact h ch' (by simpa [hch] using hne)

/-- While a channel is open it is no candidate and no request gets through. -/
def RefusedWhileOpen (cfg : CircuitConfig) (s : Gateway ι) : Prop :=
  ∀ ch, (getChannelCircuitState cfg s.table s.now ch).1 = .open →
    channelCircuitAllows cfg s.table s.now ch = false ∧
    acquireCircuitProbe cfg s.table s.now ch = (false, s.table)

omit [DecidableEq ι] in
theorem Watched.refusedWhileOpen (h : Watched cfg s) :
    RefusedWhileOpen cfg s := by
  intro ch hopen
  cases hrow : s.table ch with
  | none => simp [getChannelCircuitState, hrow] at hopen
  | some e =>
    obtain ⟨hen, hpos⟩ := h ch (by simp [hrow])
    have hoff : (!cfg.enabled || decide (ch ≤ 0)) = false := by
      simp [hen, hpos]
    cases ht : e.openedAt with
    | none =>
      simp only [getChannelCircuitState, hrow, ht] at hopen
      split at hopen <;> cases hopen
    | some t =>
      by_cases hexp : cfg.openDuration ≤ s.now - t
      · simp [getChannelCircuitState, hrow, ht, hexp] at hopen
      · constructor
        · simp [channelCircuitAllows, hoff, hrow, ht, hexp]
        · simp [acquireCircuitProbe, hoff, hrow, ht, Int.not_le.1 hexp]

/-! ## Runs -/

/-- **The breaker over every run.**  From a process start, through any sequence
    of reports, filter calls, acquisitions and endings at any non-decreasing
    times, no request is admitted while a channel is open; and the probe slots
    are held exactly by the one probe in flight in every state passed if and
    only if every step is orderly. -/
theorem probeTracked_iff_orderly (cfg : CircuitConfig) (t : Int) (as : List (Action ι)) :
    ((∀ n, ProbeTracked (run (Gateway.step cfg) (Gateway.start t) (as.take n))) ↔
      Meets (Orderly cfg) (Gateway.step cfg) (Gateway.start t) as) ∧
    ∀ n, RefusedWhileOpen cfg (run (Gateway.step cfg) (Gateway.start t) (as.take n)) := by
  refine ⟨forall_take_iff_meets ProbeTracked (fun s a h => h.step_iff cfg a)
    (probeTracked_start t) as, fun n => ?_⟩
  refine Watched.refusedWhileOpen (run_invariant_all (Watched cfg)
    (fun s a h => h.step a) _ ?_)
  intro ch hne
  exact absurd rfl hne

def tripped : List (Action Nat) :=
  List.replicate 5 (.report 7 (.failure .serverError)) ++ [.tick 120]

def probeAnswered400 : List (Action Nat) :=
  tripped ++ [.acquire 0 7, .finish 0 (.error .badRequest 0)]

/-- A request admitted before the breaker opened times out under the probe. -/
def staleTimeout : List (Action Nat) :=
  [.acquire 9 7] ++ tripped ++ [.acquire 0 7, .finish 9 (.failure .timeout), .tick 120,
    .acquire 1 7]

def fresh (as : List (Action Nat)) : Gateway Nat := run (Gateway.step {}) (Gateway.start 0) as

/-- A 400 leaves the slot of channel 7 taken with no request in flight, and the
    channel refuses every later request; a stale time-out puts two probes in
    flight at once. -/
theorem probeAnswered400_wedges :
    (probing (fresh probeAnswered400).table 7 = true ∧
      (∀ i, (fresh probeAnswered400).flight i = none) ∧
      ∀ d : Nat, (acquireCircuitProbe {} (fresh probeAnswered400).table
        ((fresh probeAnswered400).now + d) 7).1 = false) ∧
    ((fresh staleTimeout).flight 0 = some (7, true) ∧
      (fresh staleTimeout).flight 1 = some (7, true)) := by
  have htable : (fresh probeAnswered400).table 7 =
      some { consecutiveFailures := 5, openedAt := some 0, probing := true } := by decide
  have hnow : (fresh probeAnswered400).now = 120 := by decide
  refine ⟨⟨by decide, fun i => ?_, fun d => ?_⟩, by decide, by decide⟩
  · show Function.update (Function.update (fun _ : Nat => none) 0 (some (7, true))) 0 none i =
      none
    by_cases hi : i = 0
    · simp [hi]
    · simp [hi]
  · simp [acquireCircuitProbe, htable, hnow]

end NewApi.Channel
