/-
  NewApi.Auth.AccountLockout

  The ledger of failed logins (`service/account_lockout.go`) with its settings
  (`setting/operation_setting/login_lockout_setting.go`).

  The ledger maps a normalised account to its recent failures and its lock, and
  holds at most `loginLockoutMaxTrackedAccounts` accounts: when it is full, stale
  entries are dropped, and if that makes no room a new account is not entered.
  Times are nanoseconds since the zero `time.Time`, so that `IsZero` is `= 0`;
  the clock readings of one call are one time.
-/

import NewApi.Lib.Run
import NewApi.Lib.Keyed
import Mathlib

namespace NewApi.Auth

open NewApi.Lib

/-! ## Settings -/

structure LoginLockoutSetting where
  enabled : Bool
  threshold : Int
  windowSeconds : Int
  baseLockSeconds : Int
  maxLockSeconds : Int

def loginLockoutSetting : LoginLockoutSetting := ⟨true, 20, 1200, 300, 900⟩

namespace LoginLockoutSetting

variable (cfg : LoginLockoutSetting)

def getLoginLockoutThreshold : Int :=
  if cfg.threshold > 0 then cfg.threshold else 20

def getLoginLockoutWindowSeconds : Int :=
  if cfg.windowSeconds > 0 then cfg.windowSeconds else 1200

def getLoginLockoutBaseLockSeconds : Int :=
  if cfg.baseLockSeconds > 0 then cfg.baseLockSeconds else 300

def getLoginLockoutMaxLockSeconds : Int :=
  if cfg.maxLockSeconds ≤ 0 then 900
  else if cfg.maxLockSeconds < cfg.getLoginLockoutBaseLockSeconds then
    cfg.getLoginLockoutBaseLockSeconds
  else cfg.maxLockSeconds

end LoginLockoutSetting

/-! ## Time -/

def int64 (x : Int) : Int := x.bmod (2 ^ 64)

/-- `time.Duration(seconds) * time.Second` -/
def duration (seconds : Int) : Int := int64 (seconds * 1000000000)

/-- `t.Sub(u)`, which saturates. -/
def timeSub (t u : Int) : Int := max (-(2 ^ 63)) (min (t - u) (2 ^ 63 - 1))

/-- `t.Unix()` -/
def unix (t : Int) : Int := t / 1000000000 - 62135596800

/-! ## One account -/

structure LoginLockoutEntry where
  failures : List Int := []
  lockLevel : Nat := 0
  lockedUntil : Int := 0
  trackedUntil : Int := 0
  lastSeen : Int := 0

/-- The loop of `loginLockoutBackoff` with `n` rounds to go, and its end. -/
def backoffSeconds (maximum : Int) : Nat → Int → Int
  | 0, seconds => if seconds > maximum then maximum else seconds
  | n + 1, seconds =>
    let doubled := int64 (seconds * 2)
    if doubled ≥ maximum then maximum else backoffSeconds maximum n doubled

variable (cfg : LoginLockoutSetting)

def loginLockoutBackoff (level : Nat) : Int :=
  duration (backoffSeconds cfg.getLoginLockoutMaxLockSeconds (level - 1)
    cfg.getLoginLockoutBaseLockSeconds)

def LoginLockoutEntry.recordFailure (entry : LoginLockoutEntry)
    (now : Int) : LoginLockoutEntry × Bool :=
  if entry.lockedUntil > now then ({ entry with lastSeen := now }, true)
  else
    let threshold := cfg.getLoginLockoutThreshold
    let window := cfg.getLoginLockoutWindowSeconds
    let cutoff := unix now - window
    let appended := entry.failures.filter (fun t => decide (t > cutoff)) ++ [unix now]
    let failures :=
      if (appended.length : Int) > threshold then
        appended.drop (appended.length - threshold.toNat)
      else appended
    if (failures.length : Int) < threshold then
      ({ entry with lastSeen := now, failures := failures }, false)
    else
      let lockLevel := if entry.lockLevel < 30 then entry.lockLevel + 1 else entry.lockLevel
      let lockedUntil := now + loginLockoutBackoff cfg lockLevel
      ({ failures := [], lockLevel := lockLevel, lockedUntil := lockedUntil,
         trackedUntil := lockedUntil + duration window, lastSeen := now }, true)

/-- `loginLockoutEntryIsLiveLocked` -/
def LoginLockoutEntry.isLive (entry : LoginLockoutEntry) (now : Int) : Bool :=
  decide (entry.lockedUntil > now) ||
    (decide (entry.trackedUntil ≠ 0) && decide (entry.trackedUntil > now)) ||
    decide (timeSub now entry.lastSeen ≤ duration cfg.getLoginLockoutWindowSeconds)

/-! ## The ledger -/

def loginLockoutMaxTrackedAccounts : Nat := 5000

/-- A Go string is a sequence of bytes, and the key may be cut inside a rune. -/
abbrev LoginLockoutStore := AList fun _ : ByteArray => LoginLockoutEntry

/-- `strings.ToLower` and `strings.TrimSpace` -/
structure StringsPkg where
  toLower : String → String
  trimSpace : String → String

variable (strings : StringsPkg)

def normalizeAccountKey (account : String) : ByteArray :=
  let key := (strings.toLower (strings.trimSpace account)).toByteArray
  if key.size > 255 then key.extract 0 255 else key

variable (store : LoginLockoutStore)

def lookupLoginLockoutEntry (key : ByteArray) : Option LoginLockoutEntry :=
  if key.size = 0 then none else store.lookup key

/-- The lock of any of the accounts, read at `now`. -/
def accountLockoutStatus (cfg : LoginLockoutSetting)
    (store : LoginLockoutStore) (now : Int) (accounts : List String) : Bool :=
  cfg.enabled && accounts.any fun account =>
    (lookupLoginLockoutEntry store (normalizeAccountKey strings account)).any fun entry =>
      decide (entry.lockedUntil > now)

/-- `loginLockoutTidy`, and `dropExpiredLoginLockoutEntriesLocked` -/
def loginLockoutTidy (now : Int) : LoginLockoutStore :=
  store.keep fun _ entry => entry.isLive cfg now

/-- The store and the entry to record in, with `false` for the temporary one of a
    full ledger. -/
def getOrCreateLoginLockoutEntry
    (key : ByteArray) (now : Int) : LoginLockoutStore × LoginLockoutEntry × Bool :=
  match store.lookup key with
  | some entry => (store, entry, true)
  | none =>
    let store :=
      if store.entries.length ≥ loginLockoutMaxTrackedAccounts then
        loginLockoutTidy cfg store now
      else store
    if store.entries.length ≥ loginLockoutMaxTrackedAccounts then (store, {}, false)
    else (store.insert key { lastSeen := now }, { lastSeen := now }, true)

def accountLockoutRecordFailure (cfg : LoginLockoutSetting)
    (store : LoginLockoutStore) (now : Int) (account : String) : LoginLockoutStore × Bool :=
  if !cfg.enabled then (store, false)
  else
    let key := normalizeAccountKey strings account
    if key.size = 0 then (store, false)
    else
      let (store, entry, stored) := getOrCreateLoginLockoutEntry cfg store key now
      let (entry, locked) := entry.recordFailure cfg now
      (if stored then store.insert key entry else store, locked)

def recordPasswordAuthSuccess (account : String) : LoginLockoutStore :=
  let key := normalizeAccountKey strings account
  if key.size = 0 then store else store.erase key

/-! ## Runs -/

inductive LockoutEvent where
  | failure (account : String)
  | success (account : String)
  | tidy

structure LockoutAct where
  time : Nat
  event : LockoutEvent

/-- The ledger and the time of the last event. -/
structure Lockout where
  now : Nat
  store : LoginLockoutStore

def Lockout.step (cfg : LoginLockoutSetting) (s : Lockout) (a : LockoutAct) : Lockout where
  now := a.time
  store :=
    match a.event with
    | .failure account => (accountLockoutRecordFailure strings cfg s.store a.time account).1
    | .success account => recordPasswordAuthSuccess strings s.store account
    | .tidy => loginLockoutTidy cfg s.store a.time

def Lockout.start : Lockout := { now := 0, store := ∅ }

def Forward (s : Lockout) (a : LockoutAct) : Prop := s.now ≤ a.time

end NewApi.Auth
