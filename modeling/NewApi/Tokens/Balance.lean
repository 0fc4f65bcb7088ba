/-
  NewApi.Tokens.Balance

  One token balance in its three places (the row, the batch queue and the Redis
  hash) and any number of calls on it: `TryReserveTokenQuota`,
  `DecreaseTokenQuota`, `IncreaseTokenQuota`, `GetTokenByKey` and the batch
  flush, interleaved statement by statement, with expiry of the hash and with
  failing statements (`model/quota_reserve.go`, `model/token.go`,
  `model/token_cache.go`, `model/utils.go`).

  The delta that a charge sends to the hash runs on its own, before or after the
  write of the row, also when the call has long returned: such a call stays in
  flight until both have run.

  `RemainQuota + UsedQuota` is one constant everywhere, and a refused
  reservation has touched neither row nor queue, whatever happens.  That hash
  and row agree once everything has settled needs more: a delta that is lost, or
  that reaches only one of the two, must meet no hash, and a snapshot must be up
  to date when it is published (`Clean`).
-/

import NewApi.Quota.Reserve
import Mathlib.Data.Fintype.Basic

namespace NewApi.Tokens.Balance

open NewApi.Lib
open NewApi.Quota.Reserve (Config CacheQuotaResult ScriptReply)

/-! ## The stores -/

/-- `RemainQuota` and `UsedQuota`. -/
structure Quotas where
  remain : Int
  used : Int
deriving DecidableEq

def Quotas.total (q : Quotas) : Int := q.remain + q.used

/-- `remain + delta`, `used - delta` -/
def Quotas.add (q : Quotas) (delta : Int) : Quotas := ⟨q.remain + delta, q.used - delta⟩

@[simp] theorem Quotas.total_add (q : Quotas) (delta : Int) : (q.add delta).total = q.total := by
  unfold Quotas.total Quotas.add
  simp only
  omega

@[simp] theorem Quotas.remain_add (q : Quotas) (delta : Int) :
    (q.add delta).remain = q.remain + delta := rfl

structure Shared where
  row : Quotas
  /-- the token's entry in `batchUpdateStores`, 0 when there is none -/
  queue : Int := 0
  hash : Option Quotas := none

def Shared.book (s : Shared) : Int := s.row.remain + s.queue

def maxInt : Int := 2 ^ 63 - 1

def minInt : Int := -2 ^ 63

/-- `addNewRecord`: a sum that overflows is cut off. -/
def addNewRecord (old value : Int) : Int :=
  if maxInt < old + value then maxInt
  else if old + value < minInt then minInt
  else old + value

def tokenQuotaReserveScript (hash : Option Quotas) (quota : Nat) :
    CacheQuotaResult × Option Quotas :=
  match hash with
  | none => (.miss, none)
  | some h => if h.remain < quota then (.insufficient, some h) else (.ok, some (h.add (-quota)))

/-- `tokenQuotaDeltaScript`: a missing hash stays missing. -/
def tokenQuotaDeltaScript (hash : Option Quotas) (delta : Int) : Option Quotas :=
  hash.map (·.add delta)

/-- How the script of `cacheInitToken` ends: it runs, a fence stops it, or it
    fails. -/
inductive InitReply where
  | ran
  | fenced
  | failed

/-! ## The calls -/

/-- What a call returns: an answer, or an error. -/
inductive Answer where
  | ok (answer : Bool)
  | error

inductive Phase where
  | idle
  /-- about to run the reserve script, for the second time after a hydration -/
  | reserveScript (quota : Nat) (hydrated : Bool)
  /-- about to run `reserveTokenQuotaDB` -/
  | reserveDB (quota : Nat)
  /-- the hash was debited, the row or queue is next -/
  | persist (quota : Nat)
  /-- the row could not be debited, the hash is credited back -/
  | compensate (quota : Nat)
  /-- a charge or a credit: whether its script has still to run, and what the
      call has returned -/
  | delta (delta : Int) (script : Bool) (answer : Option Answer)
  /-- `GetTokenByKey`, about to look at the hash -/
  | lookup
  /-- `GetTokenByKey`, about to read the row; for a reservation, its quota -/
  | readRow (reserving : Option Nat)
  /-- `GetTokenByKey`, about to run `cacheInitToken` on its snapshot -/
  | publish (snapshot : Quotas) (reserving : Option Nat)
  /-- a flush, with the delta it has swapped out -/
  | flush (delta : Int)
  | done (answer : Answer)

inductive Act where
  | reserve (quota : Int) (unlimited : Bool)
  | decrease (quota : Int)
  | increase (quota : Int)
  | get (fromDB : Bool)
  /-- `flushBatchUpdateStores` swaps the queue out -/
  | swap
  | script (r : ScriptReply)
  | row (fails : Bool)
  | lookup (fails : Bool)
  | read (fails : Bool)
  | init (r : InitReply)
  /-- the hash expires -/
  | expire

def Phase.free : Phase → Bool
  | .idle | .done _ => true
  | _ => false

def Act.starts : Act → Bool
  | .reserve _ _ | .decrease _ | .increase _ | .get _ | .swap => true
  | _ => false

variable (cfg : Config)

/-- The common part of `DecreaseTokenQuota` and `IncreaseTokenQuota`. -/
def startDelta (delta : Int) : Phase := .delta delta cfg.redisEnabled none

/-- `TryReserveTokenQuota` up to its first statement. -/
def startReserve (quota : Int) (unlimited : Bool) : Phase :=
  if quota < 0 then .done .error
  else if quota = 0 then .done (.ok true)
  else if unlimited then startDelta cfg (-quota)
  else if cfg.redisEnabled then .reserveScript quota.toNat false
  else .reserveDB quota.toNat

variable (s : Shared)

def start (φ : Phase) : Act → Shared × Phase
  | .reserve quota unlimited => (s, startReserve cfg quota unlimited)
  | .decrease quota => (s, if quota < 0 then .done .error else startDelta cfg (-quota))
  | .increase quota => (s, if quota < 0 then .done .error else startDelta cfg quota)
  | .get fromDB => (s, if !fromDB && cfg.redisEnabled then .lookup else .readRow none)
  | .swap => ({ s with queue := 0 }, .flush s.queue)
  | _ => (s, φ)

/-- The answer to a reserve script. -/
def afterReserveScript (quota : Nat) (hydrated : Bool) : ScriptReply → Shared × Phase
  | .error => (s, .reserveDB quota)
  | .lost => ({ s with hash := (tokenQuotaReserveScript s.hash quota).2 }, .reserveDB quota)
  | .ok =>
    match tokenQuotaReserveScript s.hash quota with
    | (.miss, _) => (s, if hydrated then .reserveDB quota else .readRow (some quota))
    | (.insufficient, _) => (s, .done (.ok false))
    | (.ok, hash) => ({ s with hash := hash }, .persist quota)

def reserveTokenQuotaDB (quota : Nat) (fails : Bool) : Shared × Phase :=
  if fails then (s, .done .error)
  else if quota ≤ s.row.remain then ({ s with row := s.row.add (-quota) }, .done (.ok true))
  else (s, .done (.ok false))

variable (delta : Int)

/-- A delta for the row: queued in batch mode, else written unless the statement
    fails; whether it was. -/
def moveRow (fails : Bool) : Bool × Shared :=
  if cfg.batchUpdateEnabled then (true, { s with queue := addNewRecord s.queue delta })
  else if fails then (false, s)
  else (true, { s with row := s.row.add delta })

def persistTokenQuotaDelta (quota : Nat) (fails : Bool) : Shared × Phase :=
  match moveRow cfg s (-quota) fails with
  | (true, s') => (s', .done (.ok true))
  | (false, s') => (s', .compensate quota)

def applyDelta : ScriptReply → Shared
  | .error => s
  | _ => { s with hash := tokenQuotaDeltaScript s.hash delta }

/-- A charge or credit stays in flight until its script has run and it has
    returned. -/
def settleDelta : Bool → Option Answer → Phase
  | false, some answer => .done answer
  | script, answer => .delta delta script answer

def deltaRow (script fails : Bool) : Shared × Phase :=
  match moveRow cfg s delta fails with
  | (true, s') => (s', settleDelta delta script (some (.ok true)))
  | (false, s') => (s', settleDelta delta script (some .error))

def flushRow (fails : Bool) : Shared × Phase :=
  (if fails then s else { s with row := s.row.add delta }, .done (.ok true))

/-- The row read by `GetTokenByKey`. -/
def readRow (reserving : Option Nat) (fails : Bool) : Phase :=
  match reserving with
  | none =>
    if fails then .done .error
    else if cfg.redisEnabled then .publish s.row none
    else .done (.ok true)
  | some quota => if fails then .reserveDB quota else .publish s.row (some quota)

/-- `cacheInitToken` and what follows it. -/
def publish (snapshot : Quotas) (reserving : Option Nat) (r : InitReply) : Shared × Phase :=
  (match r with
   | .ran => { s with hash := some (s.hash.getD snapshot) }
   | .fenced | .failed => s,
   match reserving with
   | none => .done (.ok true)
   | some quota => .reserveScript quota true)

/-- One statement of a call, or of the environment. -/
def next (φ : Phase) (a : Act) : Shared × Phase :=
  match a, φ with
  | .expire, φ => ({ s with hash := none }, φ)
  | .script r, .reserveScript quota hydrated => afterReserveScript s quota hydrated r
  | .script r, .compensate quota => (applyDelta s quota r, .done .error)
  | .script r, .delta d true answer => (applyDelta s d r, settleDelta d false answer)
  | .row fails, .reserveDB quota => reserveTokenQuotaDB s quota fails
  | .row fails, .persist quota => persistTokenQuotaDelta cfg s quota fails
  | .row fails, .delta d script none => deltaRow cfg s d script fails
  | .row fails, .flush d => flushRow s d fails
  | .lookup fails, .lookup =>
    (s, if fails || s.hash.isNone then .readRow none else .done (.ok true))
  | .read fails, .readRow reserving => (s, readRow cfg s reserving fails)
  | .init r, .publish snapshot reserving => publish s snapshot reserving r
  | a, φ => if φ.free then start cfg s φ a else (s, φ)

/-- A caller: where its call stands, and whether the call has changed the row or
    the queue. -/
structure Caller where
  phase : Phase := .idle
  touched : Bool := false

variable {ι : Type*}

def step (_ : ι) (s : Shared) (c : Caller) (a : Act) : Shared × Caller :=
  let out := next cfg s c.phase a
  (out.1,
   { phase := out.2,
     touched := (c.touched && !(c.phase.free && a.starts)) ||
       decide (out.1.row ≠ s.row ∨ out.1.queue ≠ s.queue) })

abbrev System (ι : Type*) := Workers Shared ι Caller

def fresh (ι : Type*) (row : Quotas) : System ι where
  shared := { row := row }
  proc _ := {}

/-! ## One statement at a time -/

section Statements

variable {cfg : Config} {s : Shared} {φ : Phase} {a : Act}

theorem next_elim {P : Shared × Phase → Prop}
    (hexpire : a = .expire → P ({ s with hash := none }, φ))
    (hscript : ∀ r quota hydrated, a = .script r → φ = .reserveScript quota hydrated →
      P (afterReserveScript s quota hydrated r))
    (hcompensate : ∀ r quota, a = .script r → φ = .compensate quota →
      P (applyDelta s quota r, .done .error))
    (hdelta : ∀ r d answer, a = .script r → φ = .delta d true answer →
      P (applyDelta s d r, settleDelta d false answer))
    (hreserve : ∀ fails quota, a = .row fails → φ = .reserveDB quota →
      P (reserveTokenQuotaDB s quota fails))
    (hpersist : ∀ fails quota, a = .row fails → φ = .persist quota →
      P (persistTokenQuotaDelta cfg s quota fails))
    (hrow : ∀ fails d script, a = .row fails → φ = .delta d script none →
      P (deltaRow cfg s d script fails))
    (hflush : ∀ fails d, a = .row fails → φ = .flush d → P (flushRow s d fails))
    (hlookup : ∀ fails, a = .lookup fails → φ = .lookup →
      P (s, if fails || s.hash.isNone then .readRow none else .done (.ok true)))
    (hread : ∀ fails reserving, a = .read fails → φ = .readRow reserving →
      P (s, readRow cfg s reserving fails))
    (hinit : ∀ r snapshot reserving, a = .init r → φ = .publish snapshot reserving →
      P (publish s snapshot reserving r))
    (hstart : φ.free = true → P (start cfg s φ a))
    (hstill : (φ.free && a.starts) = false → P (s, φ)) : P (next cfg s φ a) := by
  unfold next
  split
  case h_1 => exact hexpire rfl
  case h_2 r quota hydrated => exact hscript r quota hydrated rfl rfl
  case h_3 r quota => exact hcompensate r quota rfl rfl
  case h_4 r d answer => exact hdelta r d answer rfl rfl
  case h_5 fails quota => exact hreserve fails quota rfl rfl
  case h_6 fails quota => exact hpersist fails quota rfl rfl
  case h_7 fails d script => exact hrow fails d script rfl rfl
  case h_8 fails d => exact hflush fails d rfl rfl
  case h_9 fails => exact hlookup fails rfl rfl
  case h_10 fails reserving => exact hread fails reserving rfl rfl
  case h_11 r snapshot reserving => exact hinit r snapshot reserving rfl rfl
  case h_12 =>
    by_cases hfree : φ.free = true
    · rw [if_pos hfree]
      exact hstart hfree
    · rw [if_neg hfree]
      exact hstill (by simp [hfree])

/-- Where a call stands before its first statement. -/
def Phase.Opening (cfg : Config) : Phase → Prop
  | .idle | .done _ | .reserveDB _ | .readRow none => True
  | .reserveScript _ _ | .lookup => cfg.redisEnabled = true
  | .delta _ script answer => script = cfg.redisEnabled ∧ answer = none
  | _ => False

theorem startReserve_opening (cfg : Config) (quota : Int) (unlimited : Bool) :
    (startReserve cfg quota unlimited).Opening cfg := by
  unfold startReserve
  split
  · trivial
  split
  · trivial
  split
  · exact ⟨rfl, rfl⟩
  split
  · assumption
  · trivial

theorem start_cases (cfg : Config) (s : Shared) (φ : Phase) (a : Act) :
    (a.starts = false ∧ start cfg s φ a = (s, φ)) ∨
    (a.starts = true ∧ ∃ φ', start cfg s φ a = (s, φ') ∧ φ'.Opening cfg) ∨
    (a = .swap ∧ start cfg s φ a = ({ s with queue := 0 }, .flush s.queue)) := by
  cases a with
  | reserve quota unlimited =>
    exact Or.inr (Or.inl ⟨rfl, _, rfl, startReserve_opening cfg quota unlimited⟩)
  | decrease quota | increase quota =>
    refine Or.inr (Or.inl ⟨rfl, _, rfl, ?_⟩)
    split
    · trivial
    · exact ⟨rfl, rfl⟩
  | get fromDB =>
    refine Or.inr (Or.inl ⟨rfl, _, rfl, ?_⟩)
    split
    · rename_i h
      rw [Bool.and_eq_true] at h
      exact h.2
    · trivial
  | swap => exact Or.inr (Or.inr ⟨rfl, rfl⟩)
  | script r | row fails | lookup fails | read fails | init r | expire => exact Or.inl ⟨rfl, rfl⟩

theorem tokenQuotaReserveScript_cases (hash : Option Quotas) (quota : Nat) :
    (hash = none ∧ tokenQuotaReserveScript hash quota = (.miss, none)) ∨
    (∃ h, hash = some h ∧ h.remain < quota ∧
      tokenQuotaReserveScript hash quota = (.insufficient, some h)) ∨
    (∃ h, hash = some h ∧ quota ≤ h.remain ∧
      tokenQuotaReserveScript hash quota = (.ok, some (h.add (-quota)))) := by
  cases hash with
  | none => exact Or.inl ⟨rfl, rfl⟩
  | some h =>
    by_cases hlt : h.remain < quota
    · exact Or.inr (Or.inl ⟨h, rfl, hlt, if_pos hlt⟩)
    · exact Or.inr (Or.inr ⟨h, rfl, by omega, if_neg hlt⟩)

theorem afterReserveScript_cases (s : Shared) (quota : Nat) (hydrated : Bool) (r : ScriptReply) :
    (∃ φ', afterReserveScript s quota hydrated r = (s, φ') ∧
      (φ' = .reserveDB quota ∨ φ' = .readRow (some quota) ∨ φ' = .done (.ok false))) ∨
    (∃ h φ', s.hash = some h ∧ quota ≤ h.remain ∧
      afterReserveScript s quota hydrated r = ({ s with hash := some (h.add (-quota)) }, φ') ∧
      (φ' = .persist quota ∨ φ' = .reserveDB quota ∧ r = .lost)) := by
  obtain ⟨hnone, hrun⟩ | ⟨h, hh, hlt, hrun⟩ | ⟨h, hh, hle, hrun⟩ :=
    tokenQuotaReserveScript_cases s.hash quota
  · refine Or.inl ?_
    cases r with
    | error => exact ⟨_, rfl, Or.inl rfl⟩
    | lost =>
      refine ⟨.reserveDB quota, ?_, Or.inl rfl⟩
      simp only [afterReserveScript, hrun, ← hnone]
    | ok =>
      cases hydrated with
      | true => exact ⟨.reserveDB quota, by simp only [afterReserveScript, hrun]; rfl, Or.inl rfl⟩
      | false =>
        exact ⟨.readRow (some quota), by simp only [afterReserveScript, hrun]; rfl,
          Or.inr (Or.inl rfl)⟩
  · refine Or.inl ?_
    cases r with
    | error => exact ⟨_, rfl, Or.inl rfl⟩
    | lost =>
      refine ⟨.reserveDB quota, ?_, Or.inl rfl⟩
      simp only [afterReserveScript, hrun, ← hh]
    | ok => exact ⟨.done (.ok false), by simp only [afterReserveScript, hrun], Or.inr (Or.inr rfl)⟩
  cases r with
  | error => exact Or.inl ⟨_, rfl, Or.inl rfl⟩
  | lost =>
    exact Or.inr ⟨h, .reserveDB quota, hh, hle, by simp only [afterReserveScript, hrun],
      Or.inr ⟨rfl, rfl⟩⟩
  | ok =>
    exact Or.inr ⟨h, .persist quota, hh, hle, by simp only [afterReserveScript, hrun],
      Or.inl rfl⟩

theorem applyDelta_hash {d : Int} {r : ScriptReply} {h' : Quotas}
    (hafter : (applyDelta s d r).hash = some h') :
    ∃ h, s.hash = some h ∧ (h' = h ∧ r = .error ∨ h' = h.add d ∧ r ≠ .error) := by
  have hran : tokenQuotaDeltaScript s.hash d = some h' →
      ∃ h, s.hash = some h ∧ h' = h.add d := by
    intro hsome
    unfold tokenQuotaDeltaScript at hsome
    rw [Option.map_eq_some_iff] at hsome
    obtain ⟨h, hh, rfl⟩ := hsome
    exact ⟨h, hh, rfl⟩
  cases r with
  | error => exact ⟨h', hafter, Or.inl ⟨rfl, rfl⟩⟩
  | ok | lost =>
    obtain ⟨h, hh, rfl⟩ := hran hafter
    exact ⟨h, hh, Or.inr ⟨rfl, by decide⟩⟩

@[simp] theorem applyDelta_row (d : Int) (r : ScriptReply) : (applyDelta s d r).row = s.row := by
  cases r <;> rfl

@[simp] theorem applyDelta_queue (d : Int) (r : ScriptReply) :
    (applyDelta s d r).queue = s.queue := by
  cases r <;> rfl

theorem moveRow_cases (cfg : Config) (s : Shared) (d : Int) (fails : Bool) :
    (cfg.batchUpdateEnabled = true ∧
      moveRow cfg s d fails = (true, { s with queue := addNewRecord s.queue d })) ∨
    (cfg.batchUpdateEnabled = false ∧ fails = true ∧ moveRow cfg s d fails = (false, s)) ∨
    (cfg.batchUpdateEnabled = false ∧ fails = false ∧
      moveRow cfg s d fails = (true, { s with row := s.row.add d })) := by
  unfold moveRow
  cases hb : cfg.batchUpdateEnabled with
  | true => exact Or.inl ⟨rfl, rfl⟩
  | false =>
    cases fails with
    | true => exact Or.inr (Or.inl ⟨rfl, rfl, rfl⟩)
    | false => exact Or.inr (Or.inr ⟨rfl, rfl, rfl⟩)

end Statements

/-! ## One constant -/

def Phase.usesRedis : Phase → Bool
  | .reserveScript _ _ | .persist _ | .compensate _ | .lookup | .publish _ _ => true
  | .readRow reserving => reserving.isSome
  | .delta _ script _ => script
  | _ => false

/-- Row and hash carry the total. -/
structure Totals (cfg : Config) (total : Int) (s : Shared) : Prop where
  row : s.row.total = total
  hash : ∀ h, s.hash = some h → h.total = total ∧ cfg.redisEnabled = true

/-- A snapshot carries the total. -/
structure Phase.Carries (cfg : Config) (total : Int) (φ : Phase) : Prop where
  redis : φ.usesRedis = true → cfg.redisEnabled = true
  snapshot : ∀ snapshot reserving, φ = .publish snapshot reserving → snapshot.total = total

section Totals

variable {cfg : Config} {total : Int} {s : Shared} {φ : Phase}

theorem carries_of_no_redis (h : φ.usesRedis = false) : φ.Carries cfg total where
  redis h' := by rw [h] at h'; cases h'
  snapshot := by rintro snapshot reserving rfl; cases h

theorem carries_of_enabled (h : cfg.redisEnabled = true)
    (hpublish : ∀ snapshot reserving, φ ≠ .publish snapshot reserving) : φ.Carries cfg total where
  redis _ := h
  snapshot snapshot reserving heq := absurd heq (hpublish snapshot reserving)

theorem Phase.Opening.carries (h : φ.Opening cfg) : φ.Carries cfg total := by
  cases φ with
  | delta d script answer =>
    exact ⟨fun hs => h.1.symm.trans hs, by rintro _ _ ⟨⟩⟩
  | reserveScript quota hydrated | lookup => exact carries_of_enabled h (by rintro _ _ ⟨⟩)
  | readRow reserving =>
    cases reserving with
    | none => exact carries_of_no_redis rfl
    | some quota => exact h.elim
  | idle | done answer | reserveDB quota => exact carries_of_no_redis rfl
  | persist quota | compensate quota | publish snapshot reserving | flush d => exact h.elim

theorem settleDelta_carries {d : Int} {script : Bool} {answer : Option Answer}
    (h : script = true → cfg.redisEnabled = true) : (settleDelta d script answer).Carries cfg total := by
  cases script with
  | true => exact carries_of_enabled (h rfl) (by rintro _ _ ⟨⟩)
  | false => cases answer <;> exact carries_of_no_redis rfl

theorem Totals.applyDelta (hs : Totals cfg total s) (d : Int) (r : ScriptReply) :
    Totals cfg total (applyDelta s d r) where
  row := by rw [applyDelta_row]; exact hs.row
  hash h' hh' := by
    obtain ⟨h, hh, ⟨rfl, -⟩ | ⟨rfl, -⟩⟩ := applyDelta_hash hh'
    · exact hs.hash _ hh
    · rw [Quotas.total_add]
      exact hs.hash h hh

theorem Totals.moveRow (hs : Totals cfg total s) (d : Int) (fails : Bool) :
    Totals cfg total (moveRow cfg s d fails).2 := by
  obtain ⟨-, hm⟩ | ⟨-, -, hm⟩ | ⟨-, -, hm⟩ := moveRow_cases cfg s d fails
  · rw [hm]
    exact ⟨hs.row, hs.hash⟩
  · rw [hm]
    exact hs
  · rw [hm]
    exact ⟨by rw [Quotas.total_add]; exact hs.row, hs.hash⟩

/-- Every statement keeps the total. -/
theorem next_totals (a : Act) (hs : Totals cfg total s) (hφ : φ.Carries cfg total) :
    Totals cfg total (next cfg s φ a).1 ∧ (next cfg s φ a).2.Carries cfg total := by
  have hfail : ∀ φ' : Phase, φ'.usesRedis = false → Totals cfg total s ∧ φ'.Carries cfg total :=
    fun φ' h => ⟨hs, carries_of_no_redis h⟩
  refine next_elim (P := fun out => Totals cfg total out.1 ∧ out.2.Carries cfg total)
    ?expire ?script ?compensate ?delta ?reserve ?persist ?row ?flush ?lookup ?read ?init ?start
    fun _ => ⟨hs, hφ⟩
  case expire =>
    intro _
    exact ⟨⟨hs.row, by rintro h ⟨⟩⟩, hφ⟩
  case script =>
    rintro r quota hydrated - rfl
    have hredis := hφ.redis rfl
    obtain ⟨φ', hout, hφ'⟩ | ⟨h, φ', hh, -, hout, hφ'⟩ :=
      afterReserveScript_cases s quota hydrated r
    · rw [hout]
      refine ⟨hs, carries_of_enabled hredis ?_⟩
      rcases hφ' with rfl | rfl | rfl <;> rintro _ _ ⟨⟩
    rw [hout]
    refine ⟨⟨hs.row, ?_⟩, carries_of_enabled hredis ?_⟩
    · rintro h' ⟨⟩
      rw [Quotas.total_add]
      exact hs.hash h hh
    · rcases hφ' with rfl | ⟨rfl, -⟩ <;> rintro _ _ ⟨⟩
  case compensate =>
    rintro r quota - -
    exact ⟨hs.applyDelta quota r, carries_of_no_redis rfl⟩
  case delta =>
    rintro r d answer - -
    exact ⟨hs.applyDelta d r, settleDelta_carries (by simp)⟩
  case reserve =>
    rintro fails quota - -
    unfold reserveTokenQuotaDB
    split
    · exact hfail _ rfl
    split
    · exact ⟨⟨by rw [Quotas.total_add]; exact hs.row, hs.hash⟩, carries_of_no_redis rfl⟩
    · exact hfail _ rfl
  case persist =>
    rintro fails quota - rfl
    have hmove := hs.moveRow (-quota) fails
    have hredis := hφ.redis rfl
    unfold persistTokenQuotaDelta
    split
    · rename_i s' heq
      rw [heq] at hmove
      exact ⟨hmove, carries_of_no_redis rfl⟩
    rename_i s' heq
    rw [heq] at hmove
    exact ⟨hmove, carries_of_enabled hredis (by rintro _ _ ⟨⟩)⟩
  case row =>
    rintro fails d script - rfl
    have hmove := hs.moveRow d fails
    unfold deltaRow
    split
    · rename_i s' heq
      rw [heq] at hmove
      exact ⟨hmove, settleDelta_carries hφ.redis⟩
    rename_i s' heq
    rw [heq] at hmove
    exact ⟨hmove, settleDelta_carries hφ.redis⟩
  case flush =>
    rintro fails d - -
    refine ⟨?_, carries_of_no_redis rfl⟩
    cases fails with
    | true => exact hs
    | false => exact ⟨by show (s.row.add d).total = total; rw [Quotas.total_add]; exact hs.row, hs.hash⟩
  case lookup =>
    rintro fails - -
    split <;> exact hfail _ rfl
  case read =>
    rintro fails reserving - rfl
    refine ⟨hs, ?_⟩
    cases reserving with
    | none =>
      show (if fails then Phase.done .error else if cfg.redisEnabled then .publish s.row none
        else .done (.ok true)).Carries cfg total
      split
      · exact carries_of_no_redis rfl
      split
      · rename_i hredis
        exact ⟨fun _ => hredis, by rintro _ _ ⟨⟩; exact hs.row⟩
      · exact carries_of_no_redis rfl
    | some quota =>
      have hredis := hφ.redis rfl
      show (if fails then Phase.reserveDB quota else .publish s.row (some quota)).Carries cfg total
      split
      · exact carries_of_no_redis rfl
      · exact ⟨fun _ => hredis, by rintro _ _ ⟨⟩; exact hs.row⟩
  case init =>
    rintro r snapshot reserving - rfl
    have hredis := hφ.redis rfl
    have hsnapshot := hφ.snapshot snapshot reserving rfl
    refine ⟨?_, ?_⟩
    · cases r with
      | ran =>
        refine ⟨hs.row, ?_⟩
        rintro h ⟨⟩
        cases hh : s.hash with
        | none => exact ⟨hsnapshot, hredis⟩
        | some h => exact hs.hash h hh
      | fenced => exact hs
      | failed => exact hs
    cases reserving with
    | none => exact carries_of_no_redis rfl
    | some quota => exact carries_of_enabled hredis (by rintro _ _ ⟨⟩)
  case start =>
    intro _
    obtain ⟨-, hout⟩ | ⟨-, φ', hout, hopen⟩ | ⟨-, hout⟩ := start_cases cfg s φ a
    · rw [hout]
      exact ⟨hs, hφ⟩
    · rw [hout]
      exact ⟨hs, hopen.carries⟩
    · rw [hout]
      exact ⟨⟨hs.row, hs.hash⟩, carries_of_no_redis rfl⟩

end Totals

/-! ## A refused call has written nothing -/

def Phase.answer : Phase → Option Answer
  | .done answer => some answer
  | .delta _ _ answer => answer
  | _ => none

def Phase.written : Phase → Bool
  | .done (.ok true) | .delta _ _ (some (.ok true)) | .flush _ => true
  | _ => false

theorem settleDelta_written (d : Int) (script : Bool) :
    (settleDelta d script (some (.ok true))).written = true := by
  cases script <;> rfl

section Written

variable {cfg : Config} {s : Shared} {φ : Phase} {a : Act}

/-- A statement that writes to the row or the queue ends the call with `true`,
    and a call stays where it has ended. -/
theorem next_written (h : (next cfg s φ a).1.row ≠ s.row ∨ (next cfg s φ a).1.queue ≠ s.queue ∨
      φ.written = true ∧ (φ.free && a.starts) = false) : (next cfg s φ a).2.written = true := by
  revert h
  refine next_elim (P := fun out => out.1.row ≠ s.row ∨ out.1.queue ≠ s.queue ∨
      φ.written = true ∧ (φ.free && a.starts) = false → out.2.written = true)
    ?expire ?script ?compensate ?delta ?reserve ?persist ?row ?flush ?lookup ?read ?init ?start
    ?still
  case expire =>
    rintro - (h | h | ⟨hw, -⟩)
    · exact absurd rfl h
    · exact absurd rfl h
    · exact hw
  case script =>
    rintro r quota hydrated - rfl
    obtain ⟨φ', hout, -⟩ | ⟨q, φ', -, -, hout, -⟩ := afterReserveScript_cases s quota hydrated r
    all_goals
      rw [hout]
      rintro (h | h | ⟨hw, -⟩)
      · exact absurd rfl h
      · exact absurd rfl h
      · cases hw
  case compensate =>
    rintro r quota - rfl (h | h | ⟨hw, -⟩)
    · exact absurd (applyDelta_row _ _) h
    · exact absurd (applyDelta_queue _ _) h
    · cases hw
  case delta =>
    rintro r d answer - rfl (h | h | ⟨hw, -⟩)
    · exact absurd (applyDelta_row _ _) h
    · exact absurd (applyDelta_queue _ _) h
    · match answer, hw with
      | some (.ok true), _ => rfl
  case reserve =>
    rintro fails quota - rfl
    unfold reserveTokenQuotaDB
    split
    · rintro (h | h | ⟨hw, -⟩)
      · exact absurd rfl h
      · exact absurd rfl h
      · cases hw
    split
    · exact fun _ => rfl
    rintro (h | h | ⟨hw, -⟩)
    · exact absurd rfl h
    · exact absurd rfl h
    · cases hw
  case persist =>
    rintro fails quota - rfl
    unfold persistTokenQuotaDelta
    obtain ⟨-, hm⟩ | ⟨-, -, hm⟩ | ⟨-, -, hm⟩ := moveRow_cases cfg s (-quota) fails
    · rw [hm]
      exact fun _ => rfl
    · rw [hm]
      rintro (h | h | ⟨hw, -⟩)
      · exact absurd rfl h
      · exact absurd rfl h
      · cases hw
    · rw [hm]
      exact fun _ => rfl
  case row =>
    rintro fails d script - rfl
    unfold deltaRow
    obtain ⟨-, hm⟩ | ⟨-, -, hm⟩ | ⟨-, -, hm⟩ := moveRow_cases cfg s d fails
    · rw [hm]
      exact fun _ => settleDelta_written d script
    · rw [hm]
      rintro (h | h | ⟨hw, -⟩)
      · exact absurd rfl h
      · exact absurd rfl h
      · cases hw
    · rw [hm]
      exact fun _ => settleDelta_written d script
  case flush =>
    rintro fails d - rfl _
    rfl
  case lookup =>
    rintro fails - rfl (h | h | ⟨hw, -⟩)
    · exact absurd rfl h
    · exact absurd rfl h
    · cases hw
  case read =>
    rintro fails reserving - rfl (h | h | ⟨hw, -⟩)
    · exact absurd rfl h
    · exact absurd rfl h
    · cases hw
  case init =>
    rintro r snapshot reserving - rfl (h | h | ⟨hw, -⟩)
    · cases r <;> exact absurd rfl h
    · cases r <;> exact absurd rfl h
    · cases hw
  case start =>
    intro hfree
    obtain ⟨-, hout⟩ | ⟨hstarts, φ', hout, -⟩ | ⟨-, hout⟩ := start_cases cfg s φ a
    · rw [hout]
      rintro (h | h | ⟨hw, -⟩)
      · exact absurd rfl h
      · exact absurd rfl h
      · exact hw
    · rw [hout]
      rintro (h | h | ⟨-, hsame⟩)
      · exact absurd rfl h
      · exact absurd rfl h
      · rw [hfree, hstarts] at hsame
        cases hsame
    · rw [hout]
      exact fun _ => rfl
  case still =>
    rintro - (h | h | ⟨hw, -⟩)
    · exact absurd rfl h
    · exact absurd rfl h
    · exact hw

end Written

theorem answer_of_written {φ : Phase} (h : φ.written = true) :
    φ.answer ≠ some (.ok false) ∧ φ.answer ≠ some .error := by
  match φ, h with
  | .done (.ok true), _ => exact ⟨by simp [Phase.answer], by simp [Phase.answer]⟩
  | .delta d script (some (.ok true)), _ => exact ⟨by simp [Phase.answer], by simp [Phase.answer]⟩
  | .flush d, _ => exact ⟨by simp [Phase.answer], by simp [Phase.answer]⟩

/-! ## Deltas on their way -/

/-- What a call has still to bring to the row or the queue, less what it has
    still to bring to the hash. -/
def net : Phase → Int
  | .persist quota => -quota
  | .compensate quota => -quota
  | .delta d script answer => (if answer = none then d else 0) - (if script then d else 0)
  | .flush d => d
  | _ => 0

/-- The condition on a statement while `due` is what the hash should carry. -/
def CleanAct (cfg : Config) (due : Int) (s : Shared) : Phase → Act → Prop
  -- the snapshot of a publication is up to date
  | .publish snapshot _, .init .ran => s.hash = none → snapshot.remain = due
  -- no reservation is counted in the hash and then, in spite of an error, again
  | .reserveScript quota _, .script .lost => ∀ h, s.hash = some h → h.remain < quota
  -- the fallback does not pass a hash by
  | .reserveDB quota, .row false => s.hash = none ∨ s.row.remain < quota
  -- no delta is lost while there is a hash
  | .compensate _, .script .error => s.hash = none
  | .delta d true _, .script .error => s.hash = none ∨ d = 0
  | .delta d _ none, .row fails =>
    s.hash = none ∨
      (if cfg.batchUpdateEnabled then addNewRecord s.queue d = s.queue + d
       else fails = false ∨ d = 0)
  | .persist quota, .row _ =>
    s.hash = none ∨ cfg.batchUpdateEnabled = false ∨
      addNewRecord s.queue (-quota) = s.queue + -quota
  | .flush d, .row true => s.hash = none ∨ d = 0
  | _, _ => True

/-- What a statement does to the hash it does to `book` and `net`. -/
def Tracks (due : Int) (s : Shared) (φ : Phase) (out : Shared × Phase) : Prop :=
  ∀ h', out.1.hash = some h' →
    h'.remain = due + (out.1.book - s.book) + (net out.2 - net φ)

theorem net_delta (d : Int) (script : Bool) (answer : Option Answer) :
    net (.delta d script answer) =
      (if answer = none then d else 0) - (if script = true then d else 0) := rfl

theorem net_settleDelta (d : Int) (script : Bool) (answer : Option Answer) :
    net (settleDelta d script answer) =
      (if answer = none then d else 0) - (if script = true then d else 0) := by
  cases script with
  | true => rfl
  | false =>
    cases answer with
    | none => rfl
    | some answer => simp [settleDelta, net]

theorem net_persist (quota : Nat) : net (.persist quota) = -(quota : Int) := rfl

theorem net_compensate (quota : Nat) : net (.compensate quota) = -(quota : Int) := rfl

theorem net_done (answer : Answer) : net (.done answer) = 0 := rfl

theorem net_reserveScript (quota : Nat) (hydrated : Bool) :
    net (.reserveScript quota hydrated) = 0 := rfl

theorem net_publish (snapshot : Quotas) (reserving : Option Nat) :
    net (.publish snapshot reserving) = 0 := rfl

section Tracks

variable {cfg : Config} {total due : Int} {s : Shared} {φ : Phase} {a : Act}

theorem tracks_still (hbal : ∀ h, s.hash = some h → h.remain = due) {φ' : Phase}
    (hnet : net φ' = net φ) : Tracks due s φ (s, φ') := by
  intro h' hh'
  have hdue := hbal h' hh'
  simp only
  omega

theorem Phase.Opening.net_eq (hopen : φ.Opening cfg) (hredis : cfg.redisEnabled = true) :
    net φ = 0 := by
  cases φ with
  | delta d script answer =>
    obtain ⟨hscript, hanswer⟩ := hopen
    simp [net, hscript, hanswer, hredis]
  | persist quota | compensate quota | flush d => exact hopen.elim
  | _ => rfl

theorem net_of_free (h : φ.free = true) : net φ = 0 := by
  cases φ with
  | idle => rfl
  | done answer => rfl
  | _ => cases h

theorem next_tracks (hs : Totals cfg total s) (hclean : CleanAct cfg due s φ a)
    (hbal : ∀ h, s.hash = some h → h.remain = due) : Tracks due s φ (next cfg s φ a) := by
  refine next_elim (P := Tracks due s φ)
    ?expire ?script ?compensate ?delta ?reserve ?persist ?row ?flush ?lookup ?read ?init ?start
    fun _ => tracks_still hbal rfl
  case expire => rintro - h' ⟨⟩
  case script =>
    rintro r quota hydrated rfl rfl
    obtain ⟨φ', hout, hφ'⟩ | ⟨h, φ', hh, hle, hout, hφ'⟩ :=
      afterReserveScript_cases s quota hydrated r
    · rw [hout]
      refine tracks_still hbal ?_
      rcases hφ' with rfl | rfl | rfl <;> rfl
    rw [hout]
    rcases hφ' with rfl | ⟨rfl, rfl⟩
    · rintro h' ⟨⟩
      have hdue := hbal h hh
      simp only [Quotas.remain_add, net_persist, net_reserveScript, Shared.book]
      omega
    · have hlt := hclean h hh
      omega
  case compensate =>
    rintro r quota rfl rfl h' hh'
    obtain ⟨h, hh, ⟨rfl, rfl⟩ | ⟨rfl, -⟩⟩ := applyDelta_hash hh'
    · have hnone : s.hash = none := hclean
      rw [hnone] at hh
      cases hh
    have hdue := hbal h hh
    simp only [Quotas.remain_add, net_compensate, net_done, Shared.book, applyDelta_row,
      applyDelta_queue]
    omega
  case delta =>
    rintro r d answer rfl rfl h' hh'
    obtain ⟨h, hh, ⟨rfl, rfl⟩ | ⟨rfl, -⟩⟩ := applyDelta_hash hh'
    · have hdue := hbal _ hh
      obtain hnone | hzero : s.hash = none ∨ d = 0 := hclean
      · rw [hnone] at hh
        cases hh
      simp only [net_settleDelta, net_delta, Shared.book, applyDelta_row, applyDelta_queue]
      omega
    have hdue := hbal h hh
    simp only [Quotas.remain_add, net_settleDelta, net_delta, Shared.book, applyDelta_row,
      applyDelta_queue]
    simp only [Bool.false_eq_true, if_false, if_true]
    omega
  case reserve =>
    rintro fails quota rfl rfl
    unfold reserveTokenQuotaDB
    split
    · exact tracks_still hbal rfl
    split
    · rename_i hfails hle
      have hfalse : fails = false := by simpa using hfails
      subst hfalse
      intro h' hh'
      obtain hnone | hlt : s.hash = none ∨ s.row.remain < quota := hclean
      · have hsome : s.hash = some h' := hh'
        rw [hnone] at hsome
        cases hsome
      · omega
    · exact tracks_still hbal rfl
  case persist =>
    rintro fails quota rfl rfl
    have hclean : s.hash = none ∨ cfg.batchUpdateEnabled = false ∨
        addNewRecord s.queue (-quota) = s.queue + -quota := hclean
    unfold persistTokenQuotaDelta
    obtain ⟨hb, hm⟩ | ⟨-, -, hm⟩ | ⟨-, -, hm⟩ := moveRow_cases cfg s (-quota) fails
    · rw [hm]
      intro h' hh'
      have hsome : s.hash = some h' := hh'
      have hdue := hbal h' hsome
      rcases hclean with hnone | hmode | hfits
      · rw [hnone] at hsome
        cases hsome
      · rw [hb] at hmode
        cases hmode
      · simp only [net_persist, net_done, Shared.book, hfits]
        omega
    · rw [hm]
      exact tracks_still hbal rfl
    rw [hm]
    intro h' hh'
    have hdue := hbal h' hh'
    simp only [net_persist, net_done, Shared.book, Quotas.remain_add]
    omega
  case row =>
    rintro fails d script rfl rfl
    have hclean : s.hash = none ∨ (if cfg.batchUpdateEnabled then
        addNewRecord s.queue d = s.queue + d else fails = false ∨ d = 0) := by
      cases script <;> exact hclean
    unfold deltaRow
    obtain ⟨hb, hm⟩ | ⟨hb, hf, hm⟩ | ⟨-, -, hm⟩ := moveRow_cases cfg s d fails
    · rw [hm]
      intro h' hh'
      have hsome : s.hash = some h' := hh'
      have hdue := hbal h' hsome
      rw [hb, if_pos rfl] at hclean
      rcases hclean with hnone | hfits
      · rw [hnone] at hsome
        cases hsome
      simp only [net_settleDelta, net_delta, Shared.book, hfits]
      simp only [reduceCtorEq, if_false, if_true]
      omega
    · rw [hm]
      intro h' hh'
      have hsome : s.hash = some h' := hh'
      have hdue := hbal h' hsome
      rw [hb, hf, if_neg (by simp)] at hclean
      obtain hnone | hzero : s.hash = none ∨ d = 0 := by simpa using hclean
      · rw [hnone] at hsome
        cases hsome
      simp only [net_settleDelta, net_delta, hzero]
      simp only [ite_self]
      omega
    rw [hm]
    intro h' hh'
    have hdue := hbal h' hh'
    simp only [net_settleDelta, net_delta, Shared.book, Quotas.remain_add]
    simp only [reduceCtorEq, if_false, if_true]
    omega
  case flush =>
    rintro fails d rfl rfl h' hh'
    cases fails with
    | true =>
      have hdue := hbal h' hh'
      obtain hnone | hzero : s.hash = none ∨ d = 0 := hclean
      · have hsome : s.hash = some h' := hh'
        rw [hnone] at hsome
        cases hsome
      · show h'.remain = due + (s.book - s.book) + (0 - d)
        omega
    | false =>
      have hdue := hbal h' hh'
      show h'.remain = due + ((s.row.remain + d + s.queue) - (s.row.remain + s.queue)) + (0 - d)
      omega
  case lookup =>
    rintro fails - rfl
    refine tracks_still hbal ?_
    split <;> rfl
  case read =>
    rintro fails reserving - rfl
    refine tracks_still hbal ?_
    unfold readRow
    cases reserving with
    | none =>
      dsimp only
      split
      · rfl
      split <;> rfl
    | some quota =>
      dsimp only
      split <;> rfl
  case init =>
    rintro r snapshot reserving rfl rfl
    have hnet : net (publish s snapshot reserving r).2 = 0 := by
      cases reserving <;> rfl
    cases r with
    | ran =>
      have hclean : s.hash = none → snapshot.remain = due := hclean
      intro h' hh'
      rw [hnet]
      have hsame : (publish s snapshot reserving .ran).1.book = s.book := rfl
      rw [hsame]
      have hget : h' = s.hash.getD snapshot := (Option.some.inj hh').symm
      subst hget
      cases hh : s.hash with
      | none =>
        have hdue := hclean hh
        simp only [Option.getD_none, net_publish]
        omega
      | some h =>
        have hdue := hbal h hh
        simp only [Option.getD_some, net_publish]
        omega
    | fenced | failed => exact tracks_still hbal (hnet.trans (net_publish _ _).symm)
  case start =>
    intro hfree
    have hnet := net_of_free hfree
    obtain ⟨-, hout⟩ | ⟨-, φ', hout, hopen⟩ | ⟨-, hout⟩ := start_cases cfg s φ a
    · rw [hout]
      exact tracks_still hbal rfl
    · rw [hout]
      intro h' hh'
      exact tracks_still hbal (by rw [hopen.net_eq (hs.hash h' hh').2, hnet]) h' hh'
    rw [hout]
    intro h' hh'
    have hdue := hbal h' hh'
    have hflush : net (.flush s.queue) = s.queue := rfl
    rw [hnet, hflush]
    simp only [Shared.book]
    omega

end Tracks

/-! ## Runs -/

section Runs

variable [Fintype ι] [DecidableEq ι]

variable (w : System ι)

/-- What the hash should carry: the row, the queue and what is on its way to
    them, less what is still on its way to the hash. -/
def due : Int := w.shared.book + ∑ j, net (w.proc j).phase

def Balanced : Prop := ∀ h, w.shared.hash = some h → h.remain = due w

def Clean (a : ι × Act) : Prop :=
  CleanAct cfg (due w) w.shared (w.proc a.1).phase a.2

def Settled : Prop :=
  (∀ i, (w.proc i).phase.free = true) ∧ w.shared.queue = 0

def Sound (total : Int) (w : System ι) : Prop :=
  w.Holds (Totals cfg total) fun _ _ c =>
    c.phase.Carries cfg total ∧ (c.touched = true → c.phase.written = true)

omit [Fintype ι] in
theorem Sound.step {cfg : Config} {total : Int} {w : System ι} (h : Sound cfg total w)
    (a : ι × Act) : Sound cfg total (w.step (step cfg) a) := by
  obtain ⟨i, a⟩ := a
  obtain ⟨hshared, hproc⟩ := h
  refine Workers.Holds.step ⟨hshared, hproc⟩ i a ?_ fun j _ hj => hj
  obtain ⟨hcarries, htouched⟩ := hproc i
  obtain ⟨hs', hφ'⟩ := next_totals a hshared hcarries
  refine ⟨hs', hφ', fun h => next_written ?_⟩
  -- touched before and not started anew, or by this very statement
  have hcases : ((w.proc i).touched && !((w.proc i).phase.free && a.starts)) = true ∨
      ((next cfg w.shared (w.proc i).phase a).1.row ≠ w.shared.row ∨
        (next cfg w.shared (w.proc i).phase a).1.queue ≠ w.shared.queue) := by
    simpa [Balance.step] using h
  rcases hcases with hold | hrow | hqueue
  · rw [Bool.and_eq_true] at hold
    exact Or.inr (Or.inr ⟨htouched hold.1, by simpa only [Bool.not_eq_true'] using hold.2⟩)
  · exact Or.inl hrow
  · exact Or.inr (Or.inl hqueue)

theorem due_step (i : ι) (a : Act) : due (w.step (step cfg) (i, a)) =
      due w + ((next cfg w.shared (w.proc i).phase a).1.book - w.shared.book) +
        (net (next cfg w.shared (w.proc i).phase a).2 - net (w.proc i).phase) := by
  have hsum := Workers.sum_step (step cfg) (fun c : Caller => net c.phase) w i a
    (Finset.mem_univ i)
  have hbook : (w.step (step cfg) (i, a)).shared.book =
      (next cfg w.shared (w.proc i).phase a).1.book := rfl
  have hown : net (step cfg i w.shared (w.proc i) a).2.phase =
      net (next cfg w.shared (w.proc i).phase a).2 := rfl
  unfold due
  rw [hbook]
  rw [hown] at hsum
  omega

theorem Balanced.step {cfg : Config} {total : Int} {w : System ι} (hs : Sound cfg total w)
    (h : Balanced w) (a : ι × Act) (hclean : Clean cfg w a) : Balanced (w.step (step cfg) a) := by
  obtain ⟨i, a⟩ := a
  intro h' hh'
  rw [due_step]
  exact next_tracks hs.1 hclean h h' hh'

omit [Fintype ι] [DecidableEq ι] in
theorem sound_fresh (row : Quotas) : Sound cfg row.total (fresh ι row) :=
  ⟨⟨rfl, by rintro h ⟨⟩⟩, fun _ => ⟨carries_of_no_redis rfl, by rintro ⟨⟩⟩⟩

omit [Fintype ι] in
theorem sound_run (row : Quotas) (as : List (ι × Act)) :
    Sound cfg row.total (run (Workers.step (step cfg)) (fresh ι row) as) :=
  run_invariant_all (Sound cfg row.total) (fun _ a h => h.step a) as (sound_fresh cfg row)

theorem balanced_run (row : Quotas) {as : List (ι × Act)}
    (hclean : Meets (Clean cfg) (Workers.step (step cfg)) (fresh ι row) as) :
    Balanced (run (Workers.step (step cfg)) (fresh ι row) as) := by
  have hboth : Sound cfg row.total (run (Workers.step (step cfg)) (fresh ι row) as) ∧
      Balanced (run (Workers.step (step cfg)) (fresh ι row) as) :=
    run_invariant (fun w => Sound cfg row.total w ∧ Balanced w)
      (fun _ a h hc => ⟨h.1.step a, h.2.step h.1 a hc⟩)
      ⟨sound_fresh cfg row, by rintro h ⟨⟩⟩ hclean
  exact hboth.2

omit [DecidableEq ι] in
theorem due_of_settled {w : System ι} (h : Settled w) : due w = w.shared.row.remain := by
  have hnet : ∀ i, net (w.proc i).phase = 0 := fun i => net_of_free (h.1 i)
  unfold due Shared.book
  rw [Finset.sum_eq_zero fun i _ => hnet i, h.2]
  omega

/-- Whatever the interleaving and the failures: remaining and used quota add up
    to one constant in the row and in the hash, and a call that returned `false`
    or an error has changed neither row nor queue.  And in every run whose steps
    are clean, hash and row agree in every settled state. -/
theorem token_balance_conserved (cfg : Config) (row : Quotas) (as : List (ι × Act)) :
    ((run (Workers.step (step cfg)) (fresh ι row) as).shared.row.total = row.total ∧
      ∀ h, (run (Workers.step (step cfg)) (fresh ι row) as).shared.hash = some h →
        h.total = row.total) ∧
    (∀ i, ((run (Workers.step (step cfg)) (fresh ι row) as).proc i).phase.answer =
          some (.ok false) ∨
        ((run (Workers.step (step cfg)) (fresh ι row) as).proc i).phase.answer = some .error →
      ((run (Workers.step (step cfg)) (fresh ι row) as).proc i).touched = false) ∧
    (Meets (Clean cfg) (Workers.step (step cfg)) (fresh ι row) as →
      Settled (run (Workers.step (step cfg)) (fresh ι row) as) →
      ∀ h, (run (Workers.step (step cfg)) (fresh ι row) as).shared.hash = some h →
        h.remain = (run (Workers.step (step cfg)) (fresh ι row) as).shared.row.remain) := by
  obtain ⟨hshared, hproc⟩ := sound_run cfg row as
  refine ⟨⟨hshared.row, fun h hh => (hshared.hash h hh).1⟩, ?_, ?_⟩
  · intro i hanswer
    by_contra htouched
    have hwritten := (hproc i).2 (by simpa using htouched)
    obtain ⟨hfalse, herror⟩ := answer_of_written hwritten
    rcases hanswer with h | h
    · exact hfalse h
    · exact herror h
  · intro hclean hsettled h hh
    rw [balanced_run cfg row hclean h hh, due_of_settled hsettled]

end Runs

def warmReserve : List (Fin 1 × Act) :=
  [(0, .get true), (0, .read false), (0, .init .ran),
   (0, .reserve 30 false), (0, .script .ok), (0, .row false)]

theorem warmReserve_agrees : Quotas.remain ⟨70, 30⟩ =
      (run (Workers.step (step ⟨true, false⟩)) (fresh (Fin 1) ⟨100, 0⟩)
        warmReserve).shared.row.remain := by
  refine (token_balance_conserved ⟨true, false⟩ ⟨100, 0⟩ warmReserve).2.2 ?_
    ⟨by decide, by decide⟩ ⟨70, 30⟩ (by decide)
  refine ⟨trivial, trivial, fun _ => ?_, trivial, trivial, Or.inr (Or.inl rfl), trivial⟩
  decide

/-- A reader that is overtaken by a charge between its read and its publication. -/
def overtakenRead : List (Fin 2 × Act) :=
  [(0, .get true), (0, .read false),
   (1, .decrease 10), (1, .script .ok), (1, .row false),
   (0, .init .ran)]

/-- Everything has settled, and the hash carries 100 where the row carries 90. -/
theorem overtakenRead_leaves_old_balance :
    Settled (run (Workers.step (step ⟨true, false⟩)) (fresh (Fin 2) ⟨100, 0⟩) overtakenRead) ∧
      ¬∀ h, (run (Workers.step (step ⟨true, false⟩)) (fresh (Fin 2) ⟨100, 0⟩)
          overtakenRead).shared.hash = some h →
        h.remain = (run (Workers.step (step ⟨true, false⟩)) (fresh (Fin 2) ⟨100, 0⟩)
          overtakenRead).shared.row.remain := by
  refine ⟨⟨by decide, by decide⟩, fun h => ?_⟩
  exact absurd (h ⟨100, 0⟩ (by decide)) (by decide)

end NewApi.Tokens.Balance
