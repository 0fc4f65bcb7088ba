/-
  NewApi.Quota.Reserve

  One wallet balance in its three places (the row, the batch queue and the Redis
  hash) and any number of `TryReserveUserQuota` calls on it, interleaved with
  each other, with the expiry of the hash and with the batch updater
  (`model/quota_reserve.go`, `model/user_cache.go`, `model/utils.go`).

  A call is a phase machine whose steps are the single statements: a script, a
  row read, a hash write, a row update.  Between any two of them everything else
  may happen.  The queue is swapped out by one step of the updater and applied
  to the row by a later one.

  `book` is what the wallet is worth: the row plus every delta that is queued or
  swapped out.  A call that has taken its quota from the hash and not yet
  recorded it owes it; the invariant is that the hash never holds more than
  `book` minus all that is owed.  Two steps do not check that: writing a row
  balance into a missing hash, and the conditional update of the row that is the
  fallback.  `Safe` says of these two steps, in the state they are taken in,
  what makes them harmless.
-/

import NewApi.Lib.Workers

namespace NewApi.Quota.Reserve

open NewApi.Lib

/-! ## The stores -/

/-- `RedisEnabled` and `BatchUpdateEnabled` -/
structure Config where
  redisEnabled : Bool
  batchUpdateEnabled : Bool

structure Shared where
  /-- the row's `quota` -/
  db : Int
  /-- the user's entry in `batchUpdateStores` -/
  queue : Int := 0
  /-- deltas a flush has swapped out and not applied yet -/
  flushing : Int := 0
  /-- the hash's `Quota`, where there is a hash -/
  cache : Option Int := none
  /-- the total of all calls that returned `true` -/
  reserved : Int := 0

def Shared.book (s : Shared) : Int := s.db + s.queue + s.flushing

inductive CacheQuotaResult where
  | insufficient
  | ok
  | miss

def userQuotaReserveScript (cache : Option Int) (quota : Nat) : CacheQuotaResult × Option Int :=
  match cache with
  | none => (.miss, none)
  | some c => if c < quota then (.insufficient, some c) else (.ok, some (c - quota))

/-- `userQuotaDeltaScript`: a missing hash stays missing. -/
def userQuotaDeltaScript (cache : Option Int) (delta : Int) : Option Int :=
  cache.map (· + delta)

/-- How a script run ends; `lost` took effect and still errors. -/
inductive ScriptReply where
  | ok
  | error
  | lost
deriving DecidableEq

/-- How `populateUserCache` ends: the hash is written, the write fails and is
    logged, or the auth version is fenced. -/
inductive PopulateReply where
  | written
  | failed
  | fenced

/-! ## TryReserveUserQuota -/

/-- Where a call stands; `quota` is what it was asked for. -/
inductive Phase where
  | idle
  /-- about to run the reserve script, for the second time after a hydration -/
  | script (quota : Nat) (hydrated : Bool)
  /-- in `GetUserCache`, before it looks at the hash -/
  | hydrate (quota : Nat)
  /-- in `GetUserCache`, with the row's balance read -/
  | populate (quota : Nat) (balance : Int)
  /-- about to run `reserveUserQuotaDB` -/
  | fallback (quota : Nat)
  /-- the hash was debited, the row or queue is next -/
  | persist (quota : Nat)
  /-- the row could not be debited, the hash is credited back -/
  | compensate (quota : Nat)
  /-- returned, with an error (`none`) or an answer -/
  | done (answer : Option Bool)

inductive Act where
  | call (quota : Int)
  | script (r : ScriptReply)
  | lookup (redisFails dbFails fenced : Bool)
  | populate (r : PopulateReply)
  | fallback (fails : Bool)
  | persist (fails : Bool)
  | compensate (r : ScriptReply)
  /-- the hash expires -/
  | expire
  /-- `flushBatchUpdateStores` swaps the queue out -/
  | swap
  /-- `updateUserQuotaUsedQuotaAndRequestCount` applies it to the row -/
  | apply

/-- The answer to a reserve script. -/
def afterScript (s : Shared) (quota : Nat) (hydrated : Bool) : ScriptReply → Shared × Phase
  | .error => (s, .fallback quota)
  | .lost => ({ s with cache := (userQuotaReserveScript s.cache quota).2 }, .fallback quota)
  | .ok =>
    match userQuotaReserveScript s.cache quota with
    | (.miss, _) => (s, if hydrated then .fallback quota else .hydrate quota)
    | (.insufficient, _) => (s, .done (some false))
    | (.ok, cache) => ({ s with cache := cache }, .persist quota)

def reserveUserQuotaDB (s : Shared) (quota : Nat) (fails : Bool) : Shared × Phase :=
  if fails then (s, .done none)
  else if quota ≤ s.db then
    ({ s with db := s.db - quota, reserved := s.reserved + quota }, .done (some true))
  else (s, .done (some false))

def persistUserQuotaDelta (cfg : Config) (s : Shared) (quota : Nat) (fails : Bool) :
    Shared × Phase :=
  if cfg.batchUpdateEnabled then
    ({ s with queue := s.queue - quota, reserved := s.reserved + quota }, .done (some true))
  else if fails then (s, .compensate quota)
  else ({ s with db := s.db - quota, reserved := s.reserved + quota }, .done (some true))

variable {ι : Type*}

/-- One step of a call, or of the environment. -/
def step (cfg : Config) (_ : ι) (s : Shared) (φ : Phase) (a : Act) : Shared × Phase :=
  match a, φ with
  | .expire, φ => ({ s with cache := none }, φ)
  | .swap, φ => ({ s with flushing := s.flushing + s.queue, queue := 0 }, φ)
  | .apply, φ => ({ s with db := s.db + s.flushing, flushing := 0 }, φ)
  | .call quota, .idle =>
    if quota < 0 then (s, .done none)
    else if quota = 0 then (s, .done (some true))
    else (s, if cfg.redisEnabled then .script quota.toNat false else .fallback quota.toNat)
  | .script r, .script quota hydrated => afterScript s quota hydrated r
  | .lookup redisFails dbFails fenced, .hydrate quota =>
    if !redisFails && s.cache.isSome then (s, .script quota true)
    -- an error of `GetUserCache` leaves the miss, and a miss falls back
    else (s, if dbFails || fenced then .fallback quota else .populate quota s.db)
  | .populate r, .populate quota balance =>
    match r with
    -- the balance is only written where the hash has none
    | .written => ({ s with cache := some (s.cache.getD balance) }, .script quota true)
    | .failed => (s, .script quota true)
    | .fenced => (s, .fallback quota)
  | .fallback fails, .fallback quota => reserveUserQuotaDB s quota fails
  | .persist fails, .persist quota => persistUserQuotaDelta cfg s quota fails
  | .compensate r, .compensate quota =>
    match r with
    | .error => (s, .done none)
    | _ => ({ s with cache := userQuotaDeltaScript s.cache quota }, .done none)
  | _, φ => (s, φ)

/-! ## The invariant -/

def owed : Phase → Int
  | .persist quota | .compensate quota => quota
  | _ => 0

theorem owed_nonneg (φ : Phase) : 0 ≤ owed φ := by
  cases φ <;> simp [owed]

abbrev System (ι : Type*) := Workers Shared ι Phase

/-- `lo` is the least the wallet may be worth. -/
structure Inv (lo initial : Int) (w : System ι) : Prop where
  floor : w.Covers owed lo w.shared.book
  cached : ∀ c, w.shared.cache = some c → w.Covers owed c w.shared.book
  conserved : w.shared.book + w.shared.reserved = initial

/-- A row balance goes into a missing hash only if it, with everything owed, is
    covered; and the conditional update of the row is taken only if the quota,
    on top of what the hash holds, is. -/
def Safe (w : System ι) (a : ι × Act) : Prop :=
  match w.proc a.1, a.2 with
  | .populate _ balance, .populate .written =>
    w.shared.cache = none → w.Covers owed balance w.shared.book
  | .fallback quota, .fallback false => (quota : Int) ≤ w.shared.db →
      w.Covers owed quota w.shared.book ∧
      ∀ c, w.shared.cache = some c → w.Covers owed (c + quota) w.shared.book
  | _, _ => True

section Steps

variable [DecidableEq ι] {cfg : Config} {lo initial : Int} {w : System ι} {i : ι}

section
variable (h : Inv lo initial w)
include h

theorem Inv.move {a : Act} {s' : Shared} {φ' : Phase}
    (hout : step cfg i w.shared (w.proc i) a = (s', φ'))
    (hcons : s'.book + s'.reserved = w.shared.book + w.shared.reserved)
    (hle : owed φ' + w.shared.book ≤ owed (w.proc i) + s'.book)
    (hcache : ∀ c', s'.cache = some c' → ∃ c, w.shared.cache = some c ∧
      c' + owed φ' + w.shared.book ≤ c + owed (w.proc i) + s'.book) :
    Inv lo initial (w.step (step cfg) (i, a)) := by
  have hnn : 0 ≤ owed (step cfg i w.shared (w.proc i) a).2 := owed_nonneg _
  have hshared : (w.step (step cfg) (i, a)).shared = s' := by
    rw [Workers.step_shared, hout]
  refine ⟨?_, ?_, ?_⟩
  · rw [hshared]
    refine h.floor.step i a hnn ?_
    rw [hout]
    simp only
    omega
  · intro c' hc'
    rw [hshared] at hc' ⊢
    obtain ⟨c, hc, hfit⟩ := hcache c' hc'
    refine (h.cached c hc).step i a hnn ?_
    rw [hout]
    exact hfit
  · rw [hshared, hcons]
    exact h.conserved

theorem Inv.still {a : Act} {φ' : Phase} (hout : step cfg i w.shared (w.proc i) a = (w.shared, φ'))
    (howed : owed φ' = owed (w.proc i)) : Inv lo initial (w.step (step cfg) (i, a)) := by
  refine h.move hout rfl (by omega) fun c hc => ⟨c, hc, by omega⟩

theorem Inv.environment {a : Act} (ha : a = .expire ∨ a = .swap ∨ a = .apply) : Inv lo initial (w.step (step cfg) (i, a)) := by
  rcases ha with rfl | rfl | rfl
  · refine h.move rfl rfl (le_refl _) fun c hc => ?_
    cases hc
  · refine h.move rfl ?_ ?_ fun c hc => ⟨c, hc, ?_⟩
    · simp only [Shared.book]
      omega
    · simp only [Shared.book]
      omega
    · simp only [Shared.book]
      omega
  refine h.move rfl ?_ ?_ fun c hc => ⟨c, hc, ?_⟩
  · simp only [Shared.book]
    omega
  · simp only [Shared.book]
    omega
  · simp only [Shared.book]
    omega

theorem Inv.call (hφ : w.proc i = .idle) (quota : Int) :
    Inv lo initial (w.step (step cfg) (i, .call quota)) := by
  have howed : owed (w.proc i) = 0 := by
    rw [hφ]
    rfl
  have hout : ∃ φ', step cfg i w.shared (w.proc i) (.call quota) = (w.shared, φ') ∧
      owed φ' = 0 := by
    rw [hφ]
    simp only [step]
    split
    · exact ⟨_, rfl, rfl⟩
    split
    · exact ⟨_, rfl, rfl⟩
    · refine ⟨_, rfl, ?_⟩
      split <;> rfl
  obtain ⟨φ', hout, h0⟩ := hout
  exact h.still hout (h0.trans howed.symm)

theorem Inv.lookup {quota : Nat} (hφ : w.proc i = .hydrate quota)
    (redisFails dbFails fenced : Bool) :
    Inv lo initial (w.step (step cfg) (i, .lookup redisFails dbFails fenced)) := by
  have howed : owed (w.proc i) = 0 := by
    rw [hφ]
    rfl
  have hout : ∃ φ', step cfg i w.shared (w.proc i) (.lookup redisFails dbFails fenced) =
      (w.shared, φ') ∧ owed φ' = 0 := by
    rw [hφ]
    simp only [step]
    split
    · exact ⟨_, rfl, rfl⟩
    · refine ⟨_, rfl, ?_⟩
      split <;> rfl
  obtain ⟨φ', hout, h0⟩ := hout
  exact h.still hout (h0.trans howed.symm)

omit h in
theorem userQuotaReserveScript_cases (cache : Option Int) (quota : Nat) :
    (∃ r, r ≠ .ok ∧ userQuotaReserveScript cache quota = (r, cache)) ∨
    ∃ c, cache = some c ∧ quota ≤ c ∧
      userQuotaReserveScript cache quota = (.ok, some (c - quota)) := by
  cases cache with
  | none => exact .inl ⟨.miss, by simp, rfl⟩
  | some c =>
    by_cases hlt : c < quota
    · refine .inl ⟨.insufficient, by simp, ?_⟩
      simp only [userQuotaReserveScript, if_pos hlt]
    · refine .inr ⟨c, rfl, by omega, ?_⟩
      simp only [userQuotaReserveScript, if_neg hlt]

theorem Inv.take (hlo : lo ≤ 0) {a : Act} {quota : Nat} {c : Int}
    (howed : owed (w.proc i) = 0) (hc : w.shared.cache = some c) (hle : (quota : Int) ≤ c)
    (hout : step cfg i w.shared (w.proc i) a =
      ({ w.shared with cache := some (c - quota) }, .persist quota)) :
    Inv lo initial (w.step (step cfg) (i, a)) := by
  have hnn : 0 ≤ owed (step cfg i w.shared (w.proc i) a).2 := owed_nonneg _
  have hcov := h.cached c hc
  refine ⟨?_, fun c' hc' => ?_, ?_⟩
  · refine hcov.step i _ hnn ?_
    rw [Workers.step_shared, hout, howed]
    simp only [owed, Shared.book]
    omega
  · rw [Workers.step_shared, hout] at hc'
    cases hc'
    refine hcov.step i _ hnn ?_
    rw [Workers.step_shared, hout, howed]
    simp only [owed, Shared.book]
    omega
  · rw [Workers.step_shared, hout]
    exact h.conserved

theorem Inv.script (hlo : lo ≤ 0) {quota : Nat} {hydrated : Bool}
    (hφ : w.proc i = .script quota hydrated) (r : ScriptReply) :
    Inv lo initial (w.step (step cfg) (i, .script r)) := by
  have hstep : step cfg i w.shared (w.proc i) (.script r) =
      afterScript w.shared quota hydrated r := by
    rw [hφ]
    rfl
  have howed : owed (w.proc i) = 0 := by
    rw [hφ]
    rfl
  rcases userQuotaReserveScript_cases w.shared.cache quota with ⟨res, hres, hsame⟩ |
    ⟨c, hc, hle, hok⟩
  · -- the hash is as it was
    cases r with
    | error => exact h.still hstep howed.symm
    | lost =>
      have hout : step cfg i w.shared (w.proc i) (.script .lost) =
          (w.shared, .fallback quota) := by
        rw [hstep]
        simp only [afterScript, hsame]
      exact h.still hout howed.symm
    | ok =>
      cases res with
      | ok => exact absurd rfl hres
      | miss =>
        have hout : step cfg i w.shared (w.proc i) (.script .ok) =
            (w.shared, if hydrated then .fallback quota else .hydrate quota) := by
          rw [hstep]
          simp only [afterScript, hsame]
        refine h.still hout ?_
        rw [howed]
        split <;> rfl
      | insufficient =>
        have hout : step cfg i w.shared (w.proc i) (.script .ok) =
            (w.shared, .done (some false)) := by
          rw [hstep]
          simp only [afterScript, hsame]
        exact h.still hout howed.symm
  cases r with
  | error => exact h.still hstep howed.symm
  | lost =>
    -- debited, and the call goes to the row as well
    have hout : step cfg i w.shared (w.proc i) (.script .lost) =
        ({ w.shared with cache := some (c - quota) }, .fallback quota) := by
      rw [hstep]
      simp only [afterScript, hok]
    refine h.move hout rfl (by rw [howed]; exact le_refl _) fun c' hc' => ⟨c, hc, ?_⟩
    cases hc'
    rw [howed]
    simp only [owed, Shared.book]
    omega
  | ok =>
    have hout : step cfg i w.shared (w.proc i) (.script .ok) =
        ({ w.shared with cache := some (c - quota) }, .persist quota) := by
      rw [hstep]
      simp only [afterScript, hok]
    exact h.take hlo howed hc hle hout

theorem Inv.populate {quota : Nat} {balance : Int} (hφ : w.proc i = .populate quota balance)
    (r : PopulateReply)
    (hsafe : r = .written → w.shared.cache = none → w.Covers owed balance w.shared.book) :
    Inv lo initial (w.step (step cfg) (i, .populate r)) := by
  have howed : owed (w.proc i) = 0 := by
    rw [hφ]
    rfl
  cases r with
  | failed =>
    have hout : step cfg i w.shared (w.proc i) (.populate .failed) =
        (w.shared, .script quota true) := by
      rw [hφ]
      rfl
    exact h.still hout howed.symm
  | fenced =>
    have hout : step cfg i w.shared (w.proc i) (.populate .fenced) =
        (w.shared, .fallback quota) := by
      rw [hφ]
      rfl
    exact h.still hout howed.symm
  | written =>
    have hout : step cfg i w.shared (w.proc i) (.populate .written) =
        ({ w.shared with cache := some (w.shared.cache.getD balance) },
          .script quota true) := by
      rw [hφ]
      rfl
    have hnn : 0 ≤ owed (step cfg i w.shared (w.proc i) (.populate .written)).2 :=
      owed_nonneg _
    -- what the hash holds now was there before, or was covered when written
    have hcov : w.Covers owed (w.shared.cache.getD balance) w.shared.book := by
      cases hc : w.shared.cache with
      | none => exact hsafe rfl hc
      | some c => exact h.cached c hc
    refine ⟨?_, fun c' hc' => ?_, ?_⟩
    · refine h.floor.step i _ hnn ?_
      rw [Workers.step_shared, hout, howed]
      exact le_refl _
    · rw [Workers.step_shared, hout] at hc'
      cases hc'
      refine hcov.step i _ hnn ?_
      rw [Workers.step_shared, hout, howed]
      exact le_refl _
    · rw [Workers.step_shared, hout]
      exact h.conserved

theorem Inv.fallback (hlo : lo ≤ 0) {quota : Nat}
    (hφ : w.proc i = .fallback quota) (fails : Bool)
    (hsafe : fails = false → (quota : Int) ≤ w.shared.db →
      w.Covers owed quota w.shared.book ∧
      ∀ c, w.shared.cache = some c → w.Covers owed (c + quota) w.shared.book) :
    Inv lo initial (w.step (step cfg) (i, .fallback fails)) := by
  have howed : owed (w.proc i) = 0 := by
    rw [hφ]
    rfl
  have hstep : step cfg i w.shared (w.proc i) (.fallback fails) =
      reserveUserQuotaDB w.shared quota fails := by
    rw [hφ]
    rfl
  by_cases hf : fails = true
  · rw [reserveUserQuotaDB, if_pos hf] at hstep
    exact h.still hstep howed.symm
  by_cases hle : (quota : Int) ≤ w.shared.db
  · rw [reserveUserQuotaDB, if_neg hf, if_pos hle] at hstep
    obtain ⟨hquota, hcached⟩ := hsafe (by simpa using hf) hle
    have hnn : 0 ≤ owed (step cfg i w.shared (w.proc i) (.fallback fails)).2 := owed_nonneg _
    refine ⟨?_, fun c hc => ?_, ?_⟩
    · refine hquota.step i _ hnn ?_
      rw [Workers.step_shared, hstep, howed]
      simp only [owed, Shared.book]
      omega
    · rw [Workers.step_shared, hstep] at hc
      refine (hcached c hc).step i _ hnn ?_
      rw [Workers.step_shared, hstep, howed]
      simp only [owed, Shared.book]
      omega
    rw [Workers.step_shared, hstep, ← h.conserved]
    simp only [Shared.book]
    omega
  · rw [reserveUserQuotaDB, if_neg hf, if_neg hle] at hstep
    exact h.still hstep howed.symm

theorem Inv.persist {quota : Nat} (hφ : w.proc i = .persist quota) (fails : Bool) : Inv lo initial (w.step (step cfg) (i, .persist fails)) := by
  have howed : owed (w.proc i) = quota := by
    rw [hφ]
    rfl
  have hstep : step cfg i w.shared (w.proc i) (.persist fails) =
      persistUserQuotaDelta cfg w.shared quota fails := by
    rw [hφ]
    rfl
  by_cases hb : cfg.batchUpdateEnabled = true
  · rw [persistUserQuotaDelta, if_pos hb] at hstep
    refine h.move hstep ?_ ?_ fun c hc => ⟨c, hc, ?_⟩
    · simp only [Shared.book]
      omega
    · rw [howed]
      simp only [owed, Shared.book]
      omega
    rw [howed]
    simp only [owed, Shared.book]
    omega
  by_cases hf : fails = true
  · rw [persistUserQuotaDelta, if_neg hb, if_pos hf] at hstep
    exact h.still hstep howed.symm
  rw [persistUserQuotaDelta, if_neg hb, if_neg hf] at hstep
  refine h.move hstep ?_ ?_ fun c hc => ⟨c, hc, ?_⟩
  · simp only [Shared.book]
    omega
  · rw [howed]
    simp only [owed, Shared.book]
    omega
  rw [howed]
  simp only [owed, Shared.book]
  omega

theorem Inv.compensate {quota : Nat} (hφ : w.proc i = .compensate quota) (r : ScriptReply) :
    Inv lo initial (w.step (step cfg) (i, .compensate r)) := by
  have howed : owed (w.proc i) = quota := by
    rw [hφ]
    rfl
  have hcredit : ∀ r', r' ≠ .error → step cfg i w.shared (w.proc i) (.compensate r') =
      ({ w.shared with cache := userQuotaDeltaScript w.shared.cache quota }, .done none) := by
    intro r' hr'
    rw [hφ]
    cases r' with
    | error => exact absurd rfl hr'
    | _ => rfl
  by_cases hr : r = .error
  · have hout : step cfg i w.shared (w.proc i) (.compensate r) = (w.shared, .done none) := by
      rw [hφ, hr]
      rfl
    refine h.move hout rfl ?_ fun c hc => ⟨c, hc, ?_⟩
    · rw [howed]
      simp only [owed]
      omega
    rw [howed]
    simp only [owed]
    omega
  refine h.move (hcredit r hr) rfl ?_ fun c' hc' => ?_
  · rw [howed]
    simp only [owed, Shared.book]
    omega
  obtain ⟨c, hc, rfl⟩ : ∃ c, w.shared.cache = some c ∧ c + quota = c' := by
    simpa [userQuotaDeltaScript] using hc'
  refine ⟨c, hc, ?_⟩
  rw [howed]
  simp only [owed, Shared.book]
  omega

/-- **One step.**  Every safe step keeps the invariant. -/
theorem inv_step (hlo : lo ≤ 0) (a : ι × Act) (hsafe : Safe w a) :
    Inv lo initial (w.step (step cfg) a) := by
  obtain ⟨i, a⟩ := a
  -- an action that does not belong to the phase does nothing
  have hself : ∀ {a : Act}, step cfg i w.shared (w.proc i) a = (w.shared, w.proc i) →
      Inv lo initial (w.step (step cfg) (i, a)) := fun hout => h.still hout rfl
  cases a with
  | expire => exact h.environment (.inl rfl)
  | swap => exact h.environment (.inr (.inl rfl))
  | apply => exact h.environment (.inr (.inr rfl))
  | call quota =>
    cases hφ : w.proc i with
    | idle => exact h.call hφ quota
    | _ => exact hself (by rw [hφ]; rfl)
  | script r =>
    cases hφ : w.proc i with
    | script quota hydrated => exact h.script hlo hφ r
    | _ => exact hself (by rw [hφ]; rfl)
  | lookup redisFails dbFails fenced =>
    cases hφ : w.proc i with
    | hydrate quota => exact h.lookup hφ redisFails dbFails fenced
    | _ => exact hself (by rw [hφ]; rfl)
  | populate r =>
    cases hφ : w.proc i with
    | populate quota balance =>
      refine h.populate hφ r fun hr hnone => ?_
      simp only [Safe, hφ, hr] at hsafe
      exact hsafe hnone
    | _ => exact hself (by rw [hφ]; rfl)
  | fallback fails =>
    cases hφ : w.proc i with
    | fallback quota =>
      refine h.fallback hlo hφ fails fun hf hle => ?_
      simp only [Safe, hφ, hf] at hsafe
      exact hsafe hle
    | _ => exact hself (by rw [hφ]; rfl)
  | persist fails =>
    cases hφ : w.proc i with
    | persist quota => exact h.persist hφ fails
    | _ => exact hself (by rw [hφ]; rfl)
  | compensate r =>
    cases hφ : w.proc i with
    | compensate quota => exact h.compensate hφ r
    | _ => exact hself (by rw [hφ]; rfl)

end

end Steps

/-! ## Runs -/

/-- A wallet with `initial` on its row and nothing anywhere else. -/
def start (ι : Type*) (initial : Int) : System ι :=
  { shared := { db := initial }, proc := fun _ => .idle }

theorem inv_start (ι : Type*) (initial : Int) : Inv (min initial 0) initial (start ι initial) := by
  have hbook : (start ι initial).shared.book = initial := by
    simp [start, Shared.book]
  refine ⟨?_, fun c hc => ?_, ?_⟩
  · refine Workers.covers_of_owes_nothing (fun _ => rfl) ?_
    rw [hbook]
    exact min_le_left initial 0
  · cases hc
  · rw [hbook]
    exact add_zero initial

/-- **Reservations do not overspend.**  In every state of every run whose steps
    are safe, whatever the wallet started with: the persisted quota with all
    queued deltas has not gone below zero (or below a negative start), and no
    more has been reserved than was there. -/
theorem reservations_do_not_overspend (ι : Type*) [DecidableEq ι] (cfg : Config)
    (initial : Int) (as : List (ι × Act))
    (h : Meets Safe (Workers.step (step cfg)) (start ι initial) as) (n : Nat) : min initial 0 ≤
      (run (Workers.step (step cfg)) (start ι initial) (as.take n)).shared.book ∧
    (run (Workers.step (step cfg)) (start ι initial) (as.take n)).shared.reserved ≤
      max initial 0 := by
  have hinv : Inv (min initial 0) initial
      (run (Workers.step (step cfg)) (start ι initial) (as.take n)) :=
    run_invariant (Inv (min initial 0) initial)
      (fun w a hw ha => inv_step hw (min_le_right initial 0) a ha) (inv_start ι initial)
      (h.take n)
  have hbook := hinv.floor.le
  have hcons := hinv.conserved
  refine ⟨hbook, ?_⟩
  omega

def coldReserve (i : Nat) (quota : Int) : List (Nat × Act) :=
  [(i, .call quota), (i, .script .ok), (i, .lookup false false false), (i, .populate .written),
    (i, .script .ok), (i, .persist false)]

def warmReserve (i : Nat) (quota : Int) : List (Nat × Act) :=
  [(i, .call quota), (i, .script .ok), (i, .persist false)]

theorem reservations_do_not_overspend_batch :
    (run (Workers.step (step ⟨true, true⟩)) (start Nat 100)
      (coldReserve 0 60 ++ warmReserve 1 60)).shared.reserved ≤ max 100 0 := by
  have hcold : ∀ i, owed ((run (Workers.step (step ⟨true, true⟩)) (start Nat 100)
      ((coldReserve 0 60).take 3)).proc i) = 0 := by
    intro i
    by_cases hi : i = 0
    · subst hi
      rfl
    · simp [run, coldReserve, Workers.step, Function.update_of_ne hi, start, owed]
  have h := reservations_do_not_overspend Nat ⟨true, true⟩ 100
    (coldReserve 0 60 ++ warmReserve 1 60)
    ⟨trivial, by exact trivial, by exact trivial,
      by exact fun _ => Workers.covers_of_owes_nothing hcold (by decide),
      by exact trivial, by exact trivial, by exact trivial, by exact trivial, by exact trivial,
      trivial⟩ 9
  exact h.2

/-- A reservation, the expiry of the hash and a second one, while the first is
    still queued. -/
def rehydrated : System Nat :=
  run (Workers.step (step ⟨true, true⟩)) (start Nat 100)
    (coldReserve 0 100 ++ [(0, .expire)] ++ coldReserve 1 100)

/-- Without batches: call 0 fills the hash and is refused; the script of call 1
    fails, so it takes from the row; call 2 takes from the hash. -/
def fellBack : System Nat :=
  run (Workers.step (step ⟨true, false⟩)) (start Nat 100)
    (coldReserve 0 101 ++ [(1, .call 100), (1, .script .error), (1, .fallback false)] ++
      warmReserve 2 100)

/-- Both times 200 are reserved of 100 and the wallet ends at -100. -/
theorem reservations_overspend :
    (rehydrated.shared.reserved = 200 ∧ rehydrated.shared.book = -100) ∧
    (fellBack.shared.reserved = 200 ∧ fellBack.shared.book = -100) :=
  ⟨⟨rfl, rfl⟩, ⟨rfl, rfl⟩⟩

end NewApi.Quota.Reserve
