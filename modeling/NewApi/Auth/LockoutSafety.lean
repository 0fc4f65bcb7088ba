/-
  NewApi.Auth.LockoutSafety

  What the ledger of failed logins promises for one account, whatever the others
  do.

  An account that failed at `t1` keeps its entry through the whole window that
  starts there: dropping stale entries spares whoever was seen within the window
  (`isLive_of_seen`), and nothing else removes it but its own success.  So its
  failures add up (`Counting`), and the one that completes the threshold locks.
  The one thing other accounts can take from it is the place in the ledger its
  first failure needs (`HasRoom`).
-/

import NewApi.Auth.AccountLockout

namespace NewApi.Auth

open List (map_cons mem_cons_of_mem mem_cons_self mem_map)
open NewApi.Lib

/-! ## Settings and durations -/

namespace LoginLockoutSetting

/-- The settings in seconds can be written as a `time.Duration`. -/
structure Fits (cfg : LoginLockoutSetting) : Prop where
  window : cfg.getLoginLockoutWindowSeconds * 1000000000 < 2 ^ 63
  baseLock : cfg.getLoginLockoutBaseLockSeconds * 1000000000 < 2 ^ 63
  maxLock : cfg.getLoginLockoutMaxLockSeconds * 1000000000 < 2 ^ 63

variable (cfg : LoginLockoutSetting)

theorem threshold_pos : 0 < cfg.getLoginLockoutThreshold := by
  unfold getLoginLockoutThreshold
  split <;> omega

theorem window_pos : 0 < cfg.getLoginLockoutWindowSeconds := by
  unfold getLoginLockoutWindowSeconds
  split <;> omega

theorem base_pos : 0 < cfg.getLoginLockoutBaseLockSeconds := by
  unfold getLoginLockoutBaseLockSeconds
  split <;> omega

theorem max_pos : 0 < cfg.getLoginLockoutMaxLockSeconds := by
  unfold getLoginLockoutMaxLockSeconds
  split
  · omega
  · split <;> omega

end LoginLockoutSetting

theorem int64_eq {x : Int} (h0 : 0 ≤ x) (h : x < 2 ^ 63) : int64 x = x := by
  apply Int.bmod_eq_of_le
  · omega
  · omega

theorem duration_eq {seconds : Int} (h0 : 0 ≤ seconds) (h : seconds * 1000000000 < 2 ^ 63) :
    duration seconds = seconds * 1000000000 := by
  apply int64_eq
  · omega
  · exact h

theorem backoffSeconds_eq {maximum : Int} (hmax : maximum * 1000000000 < 2 ^ 63) (n : Nat)
    {seconds : Int} (h0 : 0 < seconds) (hs : seconds * 1000000000 < 2 ^ 63) :
    backoffSeconds maximum n seconds = min (seconds * 2 ^ n) maximum := by
  induction n generalizing seconds with
  | zero =>
    unfold backoffSeconds
    split <;> omega
  | succ n ih =>
    have hdouble : int64 (seconds * 2) = seconds * 2 := int64_eq (by omega) (by omega)
    have hgrows : seconds * 2 * 1 ≤ seconds * 2 * 2 ^ n :=
      Int.mul_le_mul_of_nonneg_left (Int.pow_pos (by decide)) (by omega)
    unfold backoffSeconds
    dsimp only
    rw [hdouble, Int.pow_succ', ← Int.mul_assoc]
    split
    · omega
    · apply ih
      · omega
      · omega

theorem backoffSeconds_bounds {maximum : Int} (hpos : 0 < maximum)
    (hmax : maximum * 1000000000 < 2 ^ 63) (n : Nat) {seconds : Int} (h0 : 0 < seconds)
    (hs : seconds * 1000000000 < 2 ^ 63) :
    0 < backoffSeconds maximum n seconds ∧ backoffSeconds maximum n seconds ≤ maximum := by
  have hgrown : 0 < seconds * 2 ^ n := Int.mul_pos h0 (Int.pow_pos (by decide))
  rw [backoffSeconds_eq hmax n h0 hs]
  omega

theorem loginLockoutBackoff_bounds {cfg : LoginLockoutSetting} (hfits : cfg.Fits) (level : Nat) :
    0 < loginLockoutBackoff cfg level ∧
      loginLockoutBackoff cfg level ≤ duration cfg.getLoginLockoutMaxLockSeconds := by
  have hpos := cfg.max_pos
  have hmax := hfits.maxLock
  obtain ⟨h0, hle⟩ := backoffSeconds_bounds hpos hmax (level - 1) cfg.base_pos hfits.baseLock
  unfold loginLockoutBackoff
  rw [duration_eq (by omega) (by omega), duration_eq (by omega) hmax]
  constructor <;> omega

/-- **Each lock is twice as long as the one before**, up to the longest, whatever their
    number. -/
theorem lockout_doubles {cfg : LoginLockoutSetting} (hfits : cfg.Fits) (level : Nat) :
    loginLockoutBackoff cfg (level + 1) = 1000000000 *
      min (cfg.getLoginLockoutBaseLockSeconds * 2 ^ level) cfg.getLoginLockoutMaxLockSeconds := by
  have hmax := hfits.maxLock
  obtain ⟨h0, hle⟩ := backoffSeconds_bounds cfg.max_pos hmax level cfg.base_pos hfits.baseLock
  rw [loginLockoutBackoff, Nat.add_sub_cancel, duration_eq (by omega) (by omega),
    backoffSeconds_eq hmax level cfg.base_pos hfits.baseLock, Int.mul_comm]

theorem lockout_doubles_default : loginLockoutBackoff loginLockoutSetting 2 = 600000000000 :=
  lockout_doubles (by constructor <;> decide) 1

/-! ## One account -/

section entry

variable {cfg : LoginLockoutSetting} {entry : LoginLockoutEntry} {now : Int}

theorem recordFailure_of_locked (h : entry.lockedUntil > now) :
    entry.recordFailure cfg now = ({ entry with lastSeen := now }, true) := by
  unfold LoginLockoutEntry.recordFailure
  rw [if_pos h]

/-- The failures an unlocked account has left in the window, with the new one. -/
def LoginLockoutEntry.counted (cfg : LoginLockoutSetting) (entry : LoginLockoutEntry)
    (now : Int) : List Int :=
  entry.failures.filter (fun t => decide (t > unix now - cfg.getLoginLockoutWindowSeconds)) ++
    [unix now]

theorem recordFailure_of_below (h : entry.lockedUntil ≤ now)
    (hlt : ((entry.counted cfg now).length : Int) < cfg.getLoginLockoutThreshold) :
    entry.recordFailure cfg now =
      ({ entry with lastSeen := now, failures := entry.counted cfg now }, false) := by
  have hcut : ¬((entry.counted cfg now).length : Int) > cfg.getLoginLockoutThreshold := by omega
  unfold LoginLockoutEntry.counted at hlt hcut ⊢
  unfold LoginLockoutEntry.recordFailure
  rw [if_neg (by omega)]
  simp only [if_neg hcut, if_pos hlt]

theorem recordFailure_of_reached (h : entry.lockedUntil ≤ now)
    (hge : cfg.getLoginLockoutThreshold ≤ ((entry.counted cfg now).length : Int)) :
    ∃ level, entry.recordFailure cfg now =
      ({ failures := [], lockLevel := level, lockedUntil := now + loginLockoutBackoff cfg level,
         trackedUntil := now + loginLockoutBackoff cfg level +
           duration cfg.getLoginLockoutWindowSeconds, lastSeen := now }, true) := by
  refine ⟨if entry.lockLevel < 30 then entry.lockLevel + 1 else entry.lockLevel, ?_⟩
  unfold LoginLockoutEntry.counted at hge
  unfold LoginLockoutEntry.recordFailure
  rw [if_neg (by omega), if_neg]
  split
  · rw [List.length_drop]
    omega
  · omega

theorem recordFailure_lastSeen (cfg : LoginLockoutSetting) (entry : LoginLockoutEntry)
    (now : Int) : (entry.recordFailure cfg now).1.lastSeen = now := by
  unfold LoginLockoutEntry.recordFailure
  dsimp only
  repeat' split
  all_goals rfl

theorem recordFailure_bounds (hfits : cfg.Fits) (now : Int)
    (hlt : (entry.failures.length : Int) < cfg.getLoginLockoutThreshold) :
    (((entry.recordFailure cfg now).1.failures.length : Int) < cfg.getLoginLockoutThreshold) ∧
      ((entry.recordFailure cfg now).1.lockedUntil = entry.lockedUntil ∨
        (entry.recordFailure cfg now).1.lockedUntil ≤
          now + duration cfg.getLoginLockoutMaxLockSeconds) := by
  by_cases hl : entry.lockedUntil > now
  · rw [recordFailure_of_locked hl]
    exact ⟨hlt, Or.inl rfl⟩
  by_cases hc : ((entry.counted cfg now).length : Int) < cfg.getLoginLockoutThreshold
  · rw [recordFailure_of_below (by omega) hc]
    exact ⟨hc, Or.inl rfl⟩
  obtain ⟨level, heq⟩ := recordFailure_of_reached (by omega : entry.lockedUntil ≤ now)
    (by omega : cfg.getLoginLockoutThreshold ≤ _)
  have hle := (loginLockoutBackoff_bounds hfits level).2
  rw [heq]
  refine ⟨cfg.threshold_pos, Or.inr ?_⟩
  dsimp only
  omega

theorem isLive_of_seen (hfits : cfg.Fits) {t1 : Int} (hseen : t1 ≤ entry.lastSeen)
    (hwin : unix now - cfg.getLoginLockoutWindowSeconds < unix t1) :
    entry.isLive cfg now = true := by
  have hw := cfg.window_pos
  have hdur := duration_eq (Int.le_of_lt hw) hfits.window
  have hlast : timeSub now entry.lastSeen ≤ duration cfg.getLoginLockoutWindowSeconds := by
    rw [hdur]
    unfold unix at hwin
    unfold timeSub
    omega
  unfold LoginLockoutEntry.isLive
  rw [decide_eq_true hlast, Bool.or_true]

theorem recordFailure_counts (hfits : cfg.Fits) {since : Int} {j : Nat}
    (hl : entry.lockedUntil ≤ now) (hj : j ≤ entry.failures.countP fun t => decide (t > since))
    (hback : unix now - cfg.getLoginLockoutWindowSeconds ≤ since) (hsince : since < unix now) :
    ((entry.recordFailure cfg now).1.lockedUntil ≤ now →
      j + 1 ≤ (entry.recordFailure cfg now).1.failures.countP fun t => decide (t > since)) ∧
    (cfg.getLoginLockoutThreshold ≤ ((j + 1 : Nat) : Int) →
      (entry.recordFailure cfg now).1.lockedUntil > now) := by
  have hcount : j + 1 ≤ (entry.counted cfg now).countP fun t => decide (t > since) := by
    unfold LoginLockoutEntry.counted
    rw [List.countP_append, List.countP_filter, List.countP_singleton, if_pos (by simpa using hsince)]
    have hsame : (entry.failures.countP fun t => decide (t > since) &&
        decide (t > unix now - cfg.getLoginLockoutWindowSeconds)) =
        entry.failures.countP fun t => decide (t > since) := by
      refine List.countP_congr fun t _ => ?_
      simp only [Bool.and_eq_true, decide_eq_true_eq]
      omega
    omega
  have hlen : j + 1 ≤ (entry.counted cfg now).length := hcount.trans List.countP_le_length
  by_cases hc : ((entry.counted cfg now).length : Int) < cfg.getLoginLockoutThreshold
  · rw [recordFailure_of_below hl hc]
    exact ⟨fun _ => hcount, fun hthr => by omega⟩
  obtain ⟨level, heq⟩ := recordFailure_of_reached hl
    (by omega : cfg.getLoginLockoutThreshold ≤ ((entry.counted cfg now).length : Int))
  have hpos := (loginLockoutBackoff_bounds hfits level).1
  rw [heq]
  dsimp only
  exact ⟨fun hle => by omega, fun _ => by omega⟩

end entry

/-! ## The ledger -/

variable (strings : StringsPkg) (cfg : LoginLockoutSetting)

variable (store : LoginLockoutStore)

/-- A failure of the account would be entered: it has an entry, or there is room,
    if need be after the stale entries are dropped. -/
def HasRoom (key : ByteArray) (now : Int) : Prop :=
  key ∈ store ∨ store.entries.length < loginLockoutMaxTrackedAccounts ∨
    (loginLockoutTidy cfg store now).entries.length < loginLockoutMaxTrackedAccounts

theorem lookup_tidy (now : Int) (key : ByteArray) : (loginLockoutTidy cfg store now).lookup key =
      (store.lookup key).filter fun entry => entry.isLive cfg now :=
  AList.lookup_keep store _ key

theorem getOrCreate_cases (key : ByteArray) (now : Int) : (∃ entry, store.lookup key = some entry ∧
      getOrCreateLoginLockoutEntry cfg store key now = (store, entry, true)) ∨
    (key ∉ store ∧ ∃ store', (store' = store ∨ store' = loginLockoutTidy cfg store now) ∧
      ((store'.entries.length < loginLockoutMaxTrackedAccounts ∧
        getOrCreateLoginLockoutEntry cfg store key now =
          (store'.insert key { lastSeen := now }, { lastSeen := now }, true)) ∨
      (¬HasRoom cfg store key now ∧
        getOrCreateLoginLockoutEntry cfg store key now = (store', {}, false)))) := by
  unfold getOrCreateLoginLockoutEntry
  cases hk : store.lookup key with
  | some entry => exact Or.inl ⟨entry, rfl, rfl⟩
  | none =>
    have hnot : key ∉ store := AList.lookup_eq_none.1 hk
    refine Or.inr ⟨hnot, ?_⟩
    by_cases hfull : store.entries.length ≥ loginLockoutMaxTrackedAccounts
    · rw [if_pos hfull]
      refine ⟨_, Or.inr rfl, ?_⟩
      by_cases hstill : (loginLockoutTidy cfg store now).entries.length ≥
          loginLockoutMaxTrackedAccounts
      · rw [if_pos hstill]
        refine Or.inr ⟨?_, rfl⟩
        rintro (hmem | hlt | hlt)
        · exact hnot hmem
        · omega
        · omega
      · rw [if_neg hstill]
        exact Or.inl ⟨Nat.lt_of_not_le hstill, rfl⟩
    rw [if_neg hfull]
    refine ⟨_, Or.inl rfl, ?_⟩
    rw [if_neg hfull]
    exact Or.inl ⟨Nat.lt_of_not_le hfull, rfl⟩

variable {strings cfg}

def LockoutEvent.concerns (strings : StringsPkg) (key : ByteArray) : LockoutEvent → Prop
  | .failure account => normalizeAccountKey strings account = key
  | .success account => normalizeAccountKey strings account = key
  | .tidy => False

theorem step_lookup_other (cfg : LoginLockoutSetting) (s : Lockout) {a : LockoutAct}
    {key : ByteArray} (h : ¬a.event.concerns strings key) :
    (s.step strings cfg a).store.lookup key = s.store.lookup key ∨
      (s.step strings cfg a).store.lookup key =
        (s.store.lookup key).filter fun entry => entry.isLive cfg a.time := by
  obtain ⟨time, event⟩ := a
  unfold Lockout.step
  cases event with
  | tidy => exact Or.inr (lookup_tidy cfg s.store time key)
  | success account =>
    have hne : key ≠ normalizeAccountKey strings account := fun heq => h heq.symm
    unfold recordPasswordAuthSuccess
    dsimp only
    split
    · exact Or.inl rfl
    · exact Or.inl (AList.lookup_erase_ne hne)
  | failure account =>
    have hne : key ≠ normalizeAccountKey strings account := fun heq => h heq.symm
    dsimp only
    unfold accountLockoutRecordFailure
    split
    · exact Or.inl rfl
    dsimp only
    split
    · exact Or.inl rfl
    rcases getOrCreate_cases cfg s.store (normalizeAccountKey strings account) time with
      ⟨entry, -, heq⟩ | ⟨-, store', hstore', ⟨-, heq⟩ | ⟨-, heq⟩⟩
    · rw [heq]
      exact Or.inl (AList.lookup_insert_ne hne)
    · rw [heq]
      rw [if_pos rfl, AList.lookup_insert_ne hne, AList.lookup_insert_ne hne]
      rcases hstore' with rfl | rfl
      · exact Or.inl rfl
      · exact Or.inr (lookup_tidy cfg s.store time key)
    rw [heq]
    rw [if_neg Bool.false_ne_true]
    rcases hstore' with rfl | rfl
    · exact Or.inl rfl
    · exact Or.inr (lookup_tidy cfg s.store time key)

variable {account : String}

theorem step_lookup_failure (hon : cfg.enabled = true) (s : Lockout) (time : Nat)
    (hkey : (normalizeAccountKey strings account).size ≠ 0) :
    (∃ entry, ((s.store.lookup (normalizeAccountKey strings account) = some entry) ∨
        (normalizeAccountKey strings account ∉ s.store ∧ entry = { lastSeen := time })) ∧
      (s.step strings cfg ⟨time, .failure account⟩).store.lookup
        (normalizeAccountKey strings account) = some (entry.recordFailure cfg time).1) ∨
    (¬HasRoom cfg s.store (normalizeAccountKey strings account) time ∧
      (s.step strings cfg ⟨time, .failure account⟩).store.lookup
        (normalizeAccountKey strings account) = none) := by
  unfold Lockout.step
  dsimp only
  unfold accountLockoutRecordFailure
  rw [if_neg (by rw [hon]; decide)]
  rw [if_neg hkey]
  rcases getOrCreate_cases cfg s.store (normalizeAccountKey strings account) time with
    ⟨entry, hentry, heq⟩ | ⟨hnot, store', hstore', ⟨-, heq⟩ | ⟨hfull, heq⟩⟩
  · rw [heq]
    exact Or.inl ⟨entry, Or.inl hentry, AList.lookup_insert _⟩
  · rw [heq]
    exact Or.inl ⟨_, Or.inr ⟨hnot, rfl⟩, AList.lookup_insert _⟩
  rw [heq]
  refine Or.inr ⟨hfull, ?_⟩
  dsimp only
  rw [if_neg Bool.false_ne_true]
  rcases hstore' with rfl | rfl
  · exact AList.lookup_eq_none.2 hnot
  · rw [lookup_tidy, AList.lookup_eq_none.2 hnot]
    rfl

variable {s : Lockout}

theorem step_lookup_success {time : Nat} (hkey : (normalizeAccountKey strings account).size ≠ 0) :
    (s.step strings cfg ⟨time, .success account⟩).store.lookup
      (normalizeAccountKey strings account) = none := by
  unfold Lockout.step
  unfold recordPasswordAuthSuccess
  dsimp only
  rw [if_neg hkey]
  exact AList.lookup_erase _ _

/-! ## Every run -/

/-- The ledger is bounded, an entry holds fewer failures than the threshold, and
    a lock ends within the maximum of now. -/
structure Sound (cfg : LoginLockoutSetting) (s : Lockout) : Prop where
  bounded : s.store.entries.length ≤ loginLockoutMaxTrackedAccounts
  failures : ∀ key entry, s.store.lookup key = some entry →
    (entry.failures.length : Int) < cfg.getLoginLockoutThreshold
  locks : ∀ key entry, s.store.lookup key = some entry →
    entry.lockedUntil ≤ s.now + duration cfg.getLoginLockoutMaxLockSeconds

theorem step_entry {a : LockoutAct} {key : ByteArray} {entry : LoginLockoutEntry}
    (h : (s.step strings cfg a).store.lookup key = some entry) : s.store.lookup key = some entry ∨
      ∃ before, (s.store.lookup key = some before ∨ before = { lastSeen := a.time }) ∧
        entry = (before.recordFailure cfg a.time).1 := by
  by_cases hc : a.event.concerns strings key
  · obtain ⟨time, event⟩ := a
    cases event with
    | tidy => exact hc.elim
    | success account =>
      obtain rfl : normalizeAccountKey strings account = key := hc
      by_cases hkey : (normalizeAccountKey strings account).size = 0
      · unfold Lockout.step recordPasswordAuthSuccess at h
        dsimp only at h
        rw [if_pos hkey] at h
        exact Or.inl h
      · rw [step_lookup_success hkey] at h
        cases h
    | failure account =>
      obtain rfl : normalizeAccountKey strings account = key := hc
      by_cases hon : cfg.enabled = true
      · by_cases hkey : (normalizeAccountKey strings account).size = 0
        · unfold Lockout.step accountLockoutRecordFailure at h
          dsimp only at h
          rw [if_neg (by rw [hon]; decide), if_pos hkey] at h
          exact Or.inl h
        rcases step_lookup_failure hon s time hkey with
          ⟨before, hbefore, heq⟩ | ⟨-, heq⟩
        · rw [heq] at h
          refine Or.inr ⟨before, ?_, (Option.some.inj h).symm⟩
          rcases hbefore with hb | ⟨-, hb⟩
          · exact Or.inl hb
          · exact Or.inr hb
        · rw [heq] at h
          cases h
      unfold Lockout.step accountLockoutRecordFailure at h
      dsimp only at h
      rw [if_pos (by simpa using hon)] at h
      exact Or.inl h
  rcases step_lookup_other cfg s hc with heq | heq
  · rw [heq] at h
    exact Or.inl h
  · rw [heq] at h
    exact Or.inl (Option.filter_eq_some_iff.1 h).1

theorem step_length (h : s.store.entries.length ≤ loginLockoutMaxTrackedAccounts) (a : LockoutAct) :
    (s.step strings cfg a).store.entries.length ≤ loginLockoutMaxTrackedAccounts := by
  obtain ⟨time, event⟩ := a
  unfold Lockout.step
  cases event with
  | tidy => exact (AList.length_keep_le _ _).trans h
  | success account =>
    unfold recordPasswordAuthSuccess
    dsimp only
    split
    · exact h
    · exact (AList.length_erase_le _ _).trans h
  | failure account =>
    dsimp only
    unfold accountLockoutRecordFailure
    split
    · exact h
    dsimp only
    split
    · exact h
    rcases getOrCreate_cases cfg s.store (normalizeAccountKey strings account) time with
      ⟨entry, hentry, heq⟩ | ⟨hnot, store', hstore', ⟨hlt, heq⟩ | ⟨-, heq⟩⟩
    · rw [heq]
      rw [if_pos rfl, AList.length_insert_of_mem]
      · exact h
      · rw [← AList.lookup_isSome, hentry]
        rfl
    · have hnot' : normalizeAccountKey strings account ∉ store' := by
        rcases hstore' with rfl | rfl
        · exact hnot
        · rw [← AList.lookup_eq_none, lookup_tidy, AList.lookup_eq_none.2 hnot]
          rfl
      rw [heq]
      rw [if_pos rfl, AList.length_insert_of_mem, AList.length_insert_of_notMem hnot']
      · exact hlt
      · exact (AList.mem_insert _).2 (Or.inl rfl)
    rw [heq]
    rw [if_neg Bool.false_ne_true]
    rcases hstore' with rfl | rfl
    · exact h
    · exact (AList.length_keep_le _ _).trans h

theorem Sound.step (hfits : cfg.Fits) (h : Sound cfg s) {a : LockoutAct}
    (ha : Forward s a) : Sound cfg (s.step strings cfg a) := by
  have hnow : (s.now : Int) ≤ a.time := Int.ofNat_le.2 ha
  have hmax := duration_eq (Int.le_of_lt cfg.max_pos) hfits.maxLock
  have hpos := cfg.max_pos
  have hthr := cfg.threshold_pos
  -- what a failure is recorded in is an entry of the ledger or an empty one
  have hbefore : ∀ key before, (s.store.lookup key = some before ∨
      before = ({ lastSeen := a.time } : LoginLockoutEntry)) →
      (before.failures.length : Int) < cfg.getLoginLockoutThreshold ∧
        before.lockedUntil ≤ a.time + duration cfg.getLoginLockoutMaxLockSeconds := by
    rintro key before (hb | rfl)
    · have hl := h.locks key before hb
      exact ⟨h.failures key before hb, by omega⟩
    · exact ⟨hthr, by dsimp only; omega⟩
  refine ⟨step_length h.bounded a, ?_, ?_⟩
  · intro key entry hentry
    rcases step_entry hentry with hold | ⟨before, hb, rfl⟩
    · exact h.failures key entry hold
    · exact (recordFailure_bounds hfits _ (hbefore key before hb).1).1
  intro key entry hentry
  change entry.lockedUntil ≤ a.time + duration cfg.getLoginLockoutMaxLockSeconds
  rcases step_entry hentry with hold | ⟨before, hb, rfl⟩
  · have hl := h.locks key entry hold
    omega
  have hbb := hbefore key before hb
  rcases (recordFailure_bounds hfits a.time hbb.1).2 with heq | hle
  · rw [heq]
    exact hbb.2
  · exact hle

theorem Sound.run (hfits : cfg.Fits) {as : List LockoutAct}
    (has : Meets Forward (Lockout.step strings cfg) Lockout.start as) :
    Sound cfg (run (Lockout.step strings cfg) Lockout.start as) := by
  refine run_invariant (Sound cfg) (fun s a hs ha => hs.step hfits ha) ?_ has
  refine ⟨Nat.zero_le _, ?_, ?_⟩
  · intro key entry h
    cases h
  · intro key entry h
    cases h

/-! ## One account among others -/

theorem status_iff (hon : cfg.enabled = true) {store : LoginLockoutStore} {now : Int}
    (hkey : (normalizeAccountKey strings account).size ≠ 0) :
    accountLockoutStatus strings cfg store now [account] = true ↔
      ∃ entry, store.lookup (normalizeAccountKey strings account) = some entry ∧
        entry.lockedUntil > now := by
  unfold accountLockoutStatus lookupLoginLockoutEntry
  rw [hon, Bool.true_and, List.any_cons, List.any_nil, Bool.or_false, if_neg hkey,
    Option.any_eq_true]
  simp only [decide_eq_true_eq]

def LockoutAct.failureOf (strings : StringsPkg) (account : String) (a : LockoutAct) : Bool :=
  match a.event with
  | .failure account' => normalizeAccountKey strings account' = normalizeAccountKey strings account
  | _ => false

def LockoutAct.successOf (strings : StringsPkg) (account : String) (a : LockoutAct) : Bool :=
  match a.event with
  | .success account' => normalizeAccountKey strings account' = normalizeAccountKey strings account
  | _ => false

instance (s : Lockout) (a : LockoutAct) : Decidable (Forward s a) :=
  inferInstanceAs (Decidable (s.now ≤ a.time))

def StaysUnlocked (strings : StringsPkg) (cfg : LoginLockoutSetting) (account : String)
    (s : Lockout) (a : LockoutAct) : Prop :=
  accountLockoutStatus strings cfg (s.step strings cfg a).store a.time [account] = false

instance (account : String) (s : Lockout) (a : LockoutAct) :
    Decidable (StaysUnlocked strings cfg account s a) :=
  inferInstanceAs (Decidable (_ = false))

/-- The account has an entry, seen at `t1` or later and not locked, with `j`
    failures after `since`. -/
def Counting (key : ByteArray) (t1 since : Int) (j : Nat) (s : Lockout) : Prop :=
  ∃ entry, s.store.lookup key = some entry ∧ t1 ≤ entry.lastSeen ∧ entry.lockedUntil ≤ s.now ∧
    j ≤ entry.failures.countP fun t => decide (t > since)

section burst

variable {account : String} {t1 since : Int}

variable {s : Lockout} {a : LockoutAct} {entry : LoginLockoutEntry}

section
variable (hon : cfg.enabled = true)
include hon

theorem StaysUnlocked.le
    (hkey : (normalizeAccountKey strings account).size ≠ 0)
    (h : StaysUnlocked strings cfg account s a)
    (hentry : (s.step strings cfg a).store.lookup (normalizeAccountKey strings account) =
      some entry) : entry.lockedUntil ≤ a.time := by
  by_contra hgt
  have hlocked := (status_iff hon hkey).2 ⟨entry, hentry, Int.lt_of_not_ge hgt⟩
  rw [h] at hlocked
  cases hlocked

theorem step_failure_entry (hkey : (normalizeAccountKey strings account).size ≠ 0)
    (hf : a.failureOf strings account = true)
    (hentry : s.store.lookup (normalizeAccountKey strings account) = some entry) :
    (s.step strings cfg a).store.lookup (normalizeAccountKey strings account) =
      some (entry.recordFailure cfg a.time).1 := by
  obtain ⟨time, event⟩ := a
  cases event with
  | success account' => cases hf
  | tidy => cases hf
  | failure account' =>
    have hk : normalizeAccountKey strings account' = normalizeAccountKey strings account :=
      of_decide_eq_true hf
    rcases step_lookup_failure hon s time (hk ▸ hkey) with ⟨before, hb, heq⟩ | ⟨hno, -⟩
    · rw [hk] at hb heq
      rcases hb with hb | ⟨hnot, -⟩
      · rw [Option.some.inj (hentry.symm.trans hb)]
        exact heq
      · rw [← AList.lookup_eq_none, hentry] at hnot
        cases hnot
    rw [hk] at hno
    refine absurd (Or.inl ?_) hno
    rw [← AList.lookup_isSome, hentry]
    rfl

theorem step_failure_room (hkey : (normalizeAccountKey strings account).size ≠ 0)
    (hf : a.failureOf strings account = true)
    (hunl : accountLockoutStatus strings cfg s.store a.time [account] = false)
    (hroom : HasRoom cfg s.store (normalizeAccountKey strings account) a.time) :
    ∃ entry : LoginLockoutEntry, entry.lockedUntil ≤ a.time ∧
      (s.step strings cfg a).store.lookup (normalizeAccountKey strings account) =
        some (entry.recordFailure cfg a.time).1 := by
  cases hentry : s.store.lookup (normalizeAccountKey strings account) with
  | some entry =>
    refine ⟨entry, ?_, step_failure_entry hon hkey hf hentry⟩
    by_contra hgt
    rw [(status_iff hon hkey).2 ⟨entry, hentry, Int.lt_of_not_ge hgt⟩] at hunl
    cases hunl
  | none =>
    obtain ⟨time, event⟩ := a
    cases event with
    | success account' => cases hf
    | tidy => cases hf
    | failure account' =>
      have hk : normalizeAccountKey strings account' = normalizeAccountKey strings account :=
        of_decide_eq_true hf
      rcases step_lookup_failure hon s time (hk ▸ hkey) with ⟨before, hb, heq⟩ | ⟨hno, -⟩
      · rw [hk] at hb heq
        refine ⟨before, ?_, heq⟩
        rcases hb with hb | ⟨-, rfl⟩
        · rw [hentry] at hb
          cases hb
        · exact Int.natCast_nonneg time
      · rw [hk] at hno
        exact absurd hroom hno

omit hon in
theorem step_other_entry
    (hf : a.failureOf strings account = false) (hsucc : a.successOf strings account = false)
    (hentry : s.store.lookup (normalizeAccountKey strings account) = some entry)
    (hlive : entry.isLive cfg a.time = true) :
    (s.step strings cfg a).store.lookup (normalizeAccountKey strings account) = some entry := by
  have hother : ¬a.event.concerns strings (normalizeAccountKey strings account) := by
    obtain ⟨time, event⟩ := a
    cases event with
    | failure account' => exact fun hk => of_decide_eq_false hf hk
    | success account' => exact fun hk => of_decide_eq_false hsucc hk
    | tidy => exact id
  rcases step_lookup_other cfg s hother with heq | heq
  · rw [heq, hentry]
  · rw [heq, hentry, Option.filter_some, if_pos hlive]

theorem Counting.step (hfits : cfg.Fits) (hkey : (normalizeAccountKey strings account).size ≠ 0)
    {j : Nat} (h : Counting (normalizeAccountKey strings account) t1 since j s) (hfwd : Forward s a)
    (ht1 : t1 ≤ a.time) (hback : unix a.time - cfg.getLoginLockoutWindowSeconds ≤ since)
    (hsince : since < unix t1) (hunl : StaysUnlocked strings cfg account s a)
    (hsucc : a.successOf strings account = false) :
    Counting (normalizeAccountKey strings account) t1 since
      (j + if a.failureOf strings account then 1 else 0) (s.step strings cfg a) := by
  obtain ⟨entry, hentry, hseen, hle, hj⟩ := h
  have hnow : (s.now : Int) ≤ a.time := Int.ofNat_le.2 hfwd
  have hunix : unix t1 ≤ unix a.time := by
    unfold unix
    omega
  have hunlocked : entry.lockedUntil ≤ a.time := by omega
  have hnew : since < unix a.time := by omega
  cases hf : a.failureOf strings account with
  | true =>
    have heq := step_failure_entry hon hkey hf hentry
    have hrec := recordFailure_counts hfits hunlocked hj hback hnew
    have hun := hunl.le hon hkey heq
    refine ⟨_, heq, ?_, hun, hrec.1 hun⟩
    rw [recordFailure_lastSeen]
    exact ht1
  | false =>
    have hlive : entry.isLive cfg a.time = true := isLive_of_seen hfits hseen (by omega)
    exact ⟨entry, step_other_entry hf hsucc hentry hlive, hseen, hunlocked, hj⟩

omit hon in
theorem forward_last {ms : List LockoutAct} {last : LockoutAct}
    (h : Meets Forward (Lockout.step strings cfg) s (ms ++ [last])) : s.now ≤ last.time := by
  induction ms generalizing s with
  | nil => exact h.1
  | cons a ms ih => exact Nat.le_trans h.1 (ih h.2)

theorem Counting.run (hfits : cfg.Fits) (hkey : (normalizeAccountKey strings account).size ≠ 0)
    {ms : List LockoutAct} {last : LockoutAct} {j : Nat}
    (h : Counting (normalizeAccountKey strings account) t1 since j s) (ht1 : t1 ≤ s.now)
    (hfwd : Meets Forward (Lockout.step strings cfg) s (ms ++ [last]))
    (hback : unix last.time - cfg.getLoginLockoutWindowSeconds ≤ since) (hsince : since < unix t1)
    (hunl : Meets (StaysUnlocked strings cfg account) (Lockout.step strings cfg) s ms)
    (hsucc : ∀ a ∈ ms, a.successOf strings account = false) :
    Counting (normalizeAccountKey strings account) t1 since
      (j + ms.countP (·.failureOf strings account))
      (NewApi.Lib.run (Lockout.step strings cfg) s ms) ∧
    (NewApi.Lib.run (Lockout.step strings cfg) s ms).now ≤ last.time ∧
    t1 ≤ (NewApi.Lib.run (Lockout.step strings cfg) s ms).now := by
  induction ms generalizing s j with
  | nil => exact ⟨h, hfwd.1, ht1⟩
  | cons a ms ih =>
    have hfirst : Forward s a := hfwd.1
    have hnow : (s.now : Int) ≤ a.time := Int.ofNat_le.2 hfirst
    have hlast : (a.time : Int) ≤ last.time := Int.ofNat_le.2 (forward_last hfwd.2)
    have hback' : unix a.time - cfg.getLoginLockoutWindowSeconds ≤ since := by
      unfold unix at hback ⊢
      omega
    have hstep := h.step hon hfits hkey hfirst (by omega) hback' hsince hunl.1
      (hsucc a mem_cons_self)
    have hrest := ih hstep (by change t1 ≤ (a.time : Int); omega) hfwd.2 hunl.2
      fun b hb => hsucc b (mem_cons_of_mem a hb)
    rw [List.countP_cons, Nat.add_comm (ms.countP _), ← Nat.add_assoc]
    exact hrest

/-- **The burst locks.**  Failures of one account that reach the threshold within
    the window, with no success of it and no lock of it in between, and whose
    first one finds a place in the ledger: the last one locks it. -/
theorem burst_locks (hfits : cfg.Fits)
    (hkey : (normalizeAccountKey strings account).size ≠ 0)
    {ms : List LockoutAct} {first last : LockoutAct}
    (hfwd : Meets Forward (Lockout.step strings cfg) s (ms ++ [last]))
    (hhead : (ms ++ [last]).head? = some first)
    (hff : first.failureOf strings account = true) (hlf : last.failureOf strings account = true)
    (hcount : cfg.getLoginLockoutThreshold ≤
      ((ms ++ [last]).countP (·.failureOf strings account) : Nat))
    (hsucc : ∀ a ∈ ms ++ [last], a.successOf strings account = false)
    (hwin : unix last.time - cfg.getLoginLockoutWindowSeconds < unix first.time)
    (hbefore : accountLockoutStatus strings cfg s.store first.time [account] = false)
    (hunl : Meets (StaysUnlocked strings cfg account) (Lockout.step strings cfg) s ms)
    (hroom : HasRoom cfg s.store (normalizeAccountKey strings account) first.time) :
    accountLockoutStatus strings cfg
      (NewApi.Lib.run (Lockout.step strings cfg) s (ms ++ [last])).store last.time [account] =
        true := by
  rw [status_iff hon hkey, run_append]
  rw [List.countP_append, List.countP_singleton, if_pos hlf] at hcount
  cases ms with
  | nil =>
    obtain rfl : last = first := Option.some.inj hhead
    obtain ⟨entry, hle, heq⟩ := step_failure_room hon hkey hff hbefore hroom
    have hrec := recordFailure_counts hfits hle (Nat.zero_le _) (Int.le_refl _) hwin
    rw [List.countP_nil] at hcount
    exact ⟨_, heq, hrec.2 hcount⟩
  | cons a ms =>
    obtain rfl : a = first := Option.some.inj hhead
    obtain ⟨entry, hle, heq⟩ := step_failure_room hon hkey hff hbefore hroom
    have hlast : (a.time : Int) ≤ last.time := Int.ofNat_le.2 (forward_last hfwd.2)
    have hback : unix a.time - cfg.getLoginLockoutWindowSeconds ≤
        unix last.time - cfg.getLoginLockoutWindowSeconds := by
      unfold unix
      omega
    -- after the first failure one is counted, after the others all but the last
    have hrec := recordFailure_counts hfits hle (Nat.zero_le _) hback hwin
    have hun := hunl.1.le hon hkey heq
    have hone : Counting (normalizeAccountKey strings account) a.time
        (unix last.time - cfg.getLoginLockoutWindowSeconds) 1 (s.step strings cfg a) := by
      refine ⟨_, heq, ?_, hun, hrec.1 hun⟩
      rw [recordFailure_lastSeen]
    obtain ⟨⟨entry', hentry', -, hle', hj⟩, hnow, ht1⟩ := hone.run hon hfits hkey
      (Int.le_refl _) hfwd.2 (Int.le_refl _) hwin hunl.2
      fun b hb => hsucc b (mem_cons_of_mem a (List.mem_append_left [last] hb))
    have hnow' : entry'.lockedUntil ≤ last.time := hle'.trans (Int.ofNat_le.2 hnow)
    have hnew : unix last.time - cfg.getLoginLockoutWindowSeconds < unix last.time := by omega
    have hlock := (recordFailure_counts hfits hnow' hj (Int.le_refl _) hnew).2
    refine ⟨_, step_failure_entry hon hkey hlf hentry', hlock ?_⟩
    rw [List.countP_cons, if_pos hff] at hcount
    omega

theorem step_locked (hkey : (normalizeAccountKey strings account).size ≠ 0)
    (hsucc : a.successOf strings account = false)
    (hentry : s.store.lookup (normalizeAccountKey strings account) = some entry)
    (hlocked : entry.lockedUntil > a.time) :
    ∃ entry', (s.step strings cfg a).store.lookup (normalizeAccountKey strings account) =
      some entry' ∧ entry'.lockedUntil = entry.lockedUntil := by
  cases hf : a.failureOf strings account with
  | true =>
    refine ⟨_, step_failure_entry hon hkey hf hentry, ?_⟩
    rw [recordFailure_of_locked hlocked]
  | false =>
    have hlive : entry.isLive cfg a.time = true := by
      unfold LoginLockoutEntry.isLive
      rw [decide_eq_true hlocked, Bool.true_or, Bool.true_or]
    exact ⟨entry, step_other_entry hf hsucc hentry hlive, rfl⟩

end

end burst

/-- **Account lockout.**  In every state a run of failures, successes and tidy
    passes reaches: a burst of failures of one account locks it, whatever the
    others do, if its first failure finds a place in the ledger; no event but a
    success of the account moves the end of its lock; no lock has more than the
    maximum left to run; and the ledger is bounded. -/
theorem account_lockout (strings : StringsPkg) (cfg : LoginLockoutSetting)
    (hon : cfg.enabled = true) (hfits : cfg.Fits) (pre : List LockoutAct)
    (hpre : Meets Forward (Lockout.step strings cfg) Lockout.start pre) (s : Lockout)
    (hs : s = run (Lockout.step strings cfg) Lockout.start pre) (account : String)
    (hkey : (normalizeAccountKey strings account).size ≠ 0) :
    (∀ ms first last, Meets Forward (Lockout.step strings cfg) s (ms ++ [last]) →
      (ms ++ [last]).head? = some first →
      first.failureOf strings account = true → last.failureOf strings account = true →
      cfg.getLoginLockoutThreshold ≤ ((ms ++ [last]).countP (·.failureOf strings account) : Nat) →
      (∀ a ∈ ms ++ [last], a.successOf strings account = false) →
      unix last.time - cfg.getLoginLockoutWindowSeconds < unix first.time →
      accountLockoutStatus strings cfg s.store first.time [account] = false →
      Meets (StaysUnlocked strings cfg account) (Lockout.step strings cfg) s ms →
      HasRoom cfg s.store (normalizeAccountKey strings account) first.time →
      accountLockoutStatus strings cfg
        (run (Lockout.step strings cfg) s (ms ++ [last])).store last.time [account] = true) ∧
    (∀ a : LockoutAct, a.successOf strings account = false → ∀ entry,
      s.store.lookup (normalizeAccountKey strings account) = some entry →
      entry.lockedUntil > a.time →
      ∃ entry', (s.step strings cfg a).store.lookup (normalizeAccountKey strings account) =
        some entry' ∧ entry'.lockedUntil = entry.lockedUntil) ∧
    (∀ key entry, s.store.lookup key = some entry →
      entry.lockedUntil ≤ s.now + cfg.getLoginLockoutMaxLockSeconds * 1000000000) ∧
    s.store.entries.length ≤ loginLockoutMaxTrackedAccounts := by
  have hsound : Sound cfg s := by
    rw [hs]
    exact Sound.run hfits hpre
  refine ⟨?_, ?_, ?_, hsound.bounded⟩
  · intro ms first last hfwd hhead hff hlf hcount hsucc hwin hbefore hunl hroom
    exact burst_locks hon hfits hkey hfwd hhead hff hlf hcount hsucc hwin hbefore hunl hroom
  · intro a hsucc entry hentry hlocked
    exact step_locked hon hkey hsucc hentry hlocked
  intro key entry hentry
  rw [← duration_eq (Int.le_of_lt cfg.max_pos) hfits.maxLock]
  exact hsound.locks key entry hentry

/-! ## A full ledger -/

theorem step_failure_new (hon : cfg.enabled = true) (time : Nat)
    (hkey : (normalizeAccountKey strings account).size ≠ 0)
    (hnot : normalizeAccountKey strings account ∉ s.store)
    (hlt : s.store.entries.length < loginLockoutMaxTrackedAccounts) :
    (s.step strings cfg ⟨time, .failure account⟩).store =
      (s.store.insert (normalizeAccountKey strings account) { lastSeen := time }).insert
        (normalizeAccountKey strings account)
        (({ lastSeen := time } : LoginLockoutEntry).recordFailure cfg time).1 := by
  unfold Lockout.step
  dsimp only
  unfold accountLockoutRecordFailure getOrCreateLoginLockoutEntry
  rw [if_neg (by rw [hon]; decide)]
  rw [if_neg hkey, AList.lookup_eq_none.2 hnot]
  rw [if_neg (Nat.not_le.2 hlt), if_neg (Nat.not_le.2 hlt)]
  rfl

theorem fill_run (hon : cfg.enabled = true) (time : Nat) {accounts : List String}
    (hnd : (accounts.map (normalizeAccountKey strings)).Nodup)
    (hkeys : ∀ account ∈ accounts, (normalizeAccountKey strings account).size ≠ 0)
    (hnew : ∀ account ∈ accounts, normalizeAccountKey strings account ∉ s.store)
    (hroom : s.store.entries.length + accounts.length ≤ loginLockoutMaxTrackedAccounts)
    (hseen : ∀ key entry, s.store.lookup key = some entry → entry.lastSeen = time) :
    (run (Lockout.step strings cfg) s
        (accounts.map fun account => ⟨time, .failure account⟩)).store.entries.length =
        s.store.entries.length + accounts.length ∧
      (∀ key entry, (run (Lockout.step strings cfg) s
        (accounts.map fun account => ⟨time, .failure account⟩)).store.lookup key = some entry →
        entry.lastSeen = time) ∧
      ∀ key, key ∈ (run (Lockout.step strings cfg) s
        (accounts.map fun account => ⟨time, .failure account⟩)).store →
        key ∈ s.store ∨ key ∈ accounts.map (normalizeAccountKey strings) := by
  induction accounts generalizing s with
  | nil => exact ⟨rfl, hseen, fun key h => Or.inl h⟩
  | cons account accounts ih =>
    rw [map_cons, List.nodup_cons] at hnd
    rw [List.length_cons] at hroom
    have hnot := hnew account mem_cons_self
    have hstore := step_failure_new hon time (hkeys account mem_cons_self) hnot (by omega)
    have hlen : (s.step strings cfg ⟨time, .failure account⟩).store.entries.length =
        s.store.entries.length + 1 := by
      rw [hstore, AList.length_insert_of_mem ((AList.mem_insert _).2 (Or.inl rfl)),
        AList.length_insert_of_notMem hnot]
    have hmem : ∀ key, key ∈ (s.step strings cfg ⟨time, .failure account⟩).store ↔
        key = normalizeAccountKey strings account ∨ key ∈ s.store := by
      intro key
      rw [hstore, AList.mem_insert, AList.mem_insert]
      tauto
    have hseen' : ∀ key entry, (s.step strings cfg ⟨time, .failure account⟩).store.lookup key =
        some entry → entry.lastSeen = time := by
      intro key entry hentry
      by_cases hk : key = normalizeAccountKey strings account
      · subst hk
        rw [hstore, AList.lookup_insert] at hentry
        rw [← Option.some.inj hentry, recordFailure_lastSeen]
      · rw [hstore, AList.lookup_insert_ne hk, AList.lookup_insert_ne hk] at hentry
        exact hseen key entry hentry
    have hnew' : ∀ account' ∈ accounts, normalizeAccountKey strings account' ∉
        (s.step strings cfg ⟨time, .failure account⟩).store := by
      intro account' hin hmem'
      rcases (hmem _).1 hmem' with heq | hold
      · exact hnd.1 (heq ▸ List.mem_map_of_mem hin)
      · exact hnew account' (mem_cons_of_mem _ hin) hold
    obtain ⟨h1, h2, h3⟩ := ih hnd.2 (fun b hb => hkeys b (mem_cons_of_mem _ hb)) hnew'
      (by omega) hseen'
    rw [map_cons, run_cons]
    refine ⟨?_, h2, ?_⟩
    · rw [h1, hlen, List.length_cons]
      omega
    intro key hkey
    rw [map_cons, List.mem_cons]
    rcases h3 key hkey with hold | hin
    · rcases (hmem key).1 hold with heq | hold
      · exact Or.inr (Or.inl heq)
      · exact Or.inl hold
    · exact Or.inr (Or.inr hin)

theorem full_run (time : Nat) (hfits : cfg.Fits)
    (hnot : normalizeAccountKey strings account ∉ s.store)
    (hfull : s.store.entries.length = loginLockoutMaxTrackedAccounts)
    (hseen : ∀ key entry, s.store.lookup key = some entry → entry.lastSeen = time) (n : Nat) :
    (run (Lockout.step strings cfg) s (List.replicate n ⟨time, .failure account⟩)).store =
      s.store := by
  induction n generalizing s with
  | zero => rfl
  | succ n ih =>
    have hw := cfg.window_pos
    have htidy : loginLockoutTidy cfg s.store time = s.store := by
      refine AList.ext (List.filter_eq_self.2 fun e he => ?_)
      have hlast := hseen e.1 e.2 (AList.mem_lookup_iff.2 he)
      exact isLive_of_seen hfits (Int.le_of_eq hlast.symm) (by omega)
    have hstep : (s.step strings cfg ⟨time, .failure account⟩).store = s.store := by
      unfold Lockout.step
      dsimp only
      unfold accountLockoutRecordFailure getOrCreateLoginLockoutEntry
      split
      · rfl
      dsimp only
      split
      · rfl
      rw [AList.lookup_eq_none.2 hnot]
      rw [if_pos (Nat.le_of_eq hfull.symm), htidy, if_pos (Nat.le_of_eq hfull.symm)]
      rfl
    rw [List.replicate_succ, run_cons, ih, hstep]
    · rw [hstep]
      exact hnot
    · rw [hstep]
      exact hfull
    · rw [hstep]
      exact hseen

/-- Accounts whose names `strings.ToLower` and `strings.TrimSpace` leave as they are. -/
def plainStrings : StringsPkg := ⟨id, id⟩

/-- Enough different names to fill the ledger, one CJK character each; not to be
    computed with. -/
@[irreducible] def crowd : List String :=
  (List.range loginLockoutMaxTrackedAccounts).map fun i =>
    String.singleton (Char.ofNat (0x4E00 + i))

theorem normalize_singleton (c : Char) :
    normalizeAccountKey plainStrings (String.singleton c) = (String.singleton c).toByteArray := by
  refine if_neg ?_
  change ¬(String.singleton c).utf8ByteSize > 255
  rw [String.utf8ByteSize_singleton]
  have hsize := c.utf8Size_le_four
  omega

theorem toNat_ofNat_cjk {i : Nat} (h : i < loginLockoutMaxTrackedAccounts) :
    (Char.ofNat (0x4E00 + i)).toNat = 0x4E00 + i := by
  have hvalid : (0x4E00 + i).isValidChar := by
    unfold loginLockoutMaxTrackedAccounts at h
    left
    omega
  unfold Char.ofNat
  rw [dif_pos hvalid]
  rfl

theorem crowd_keys : (crowd.map (normalizeAccountKey plainStrings)).Nodup ∧
      ∀ name ∈ crowd, (normalizeAccountKey plainStrings name).size ≠ 0 ∧
        normalizeAccountKey plainStrings name ≠ normalizeAccountKey plainStrings "alice" := by
  constructor
  · unfold crowd
    rw [List.map_map]
    refine List.Nodup.map_on ?_ List.nodup_range
    intro i hi j hj heq
    simp only [Function.comp_apply, normalize_singleton, String.toByteArray_inj,
      String.singleton_inj] at heq
    have hi' := toNat_ofNat_cjk (List.mem_range.1 hi)
    have hj' := toNat_ofNat_cjk (List.mem_range.1 hj)
    rw [heq] at hi'
    omega
  intro name hname
  unfold crowd at hname
  obtain ⟨i, -, rfl⟩ := mem_map.1 hname
  rw [normalize_singleton]
  constructor
  · change (String.singleton _).utf8ByteSize ≠ 0
    rw [String.utf8ByteSize_singleton]
    exact Nat.ne_of_gt (Char.utf8Size_pos _)
  intro heq
  have halice : normalizeAccountKey plainStrings "alice" = "alice".toByteArray := by
    decide +kernel
  rw [halice, String.toByteArray_inj] at heq
  have hlen := congrArg String.length heq
  rw [String.length_singleton] at hlen
  exact absurd hlen (by decide)

def attackTime : Nat := 63870000000 * 1000000000

def crowdFails : List LockoutAct := crowd.map fun name => ⟨attackTime, .failure name⟩

def crowded : Lockout :=
  run (Lockout.step plainStrings loginLockoutSetting) Lockout.start crowdFails

theorem loginLockoutSetting_fits : loginLockoutSetting.Fits := by
  constructor <;> decide

theorem forward_of_const (s : Lockout) {as : List LockoutAct} (time : Nat) (hs : s.now ≤ time)
    (has : ∀ a ∈ as, a.time = time) : Meets Forward (Lockout.step strings cfg) s as := by
  induction as generalizing s with
  | nil => trivial
  | cons a as ih =>
    have ha : a.time = time := has a mem_cons_self
    refine ⟨?_, ih _ ?_ fun b hb => has b (mem_cons_of_mem a hb)⟩
    · unfold Forward
      rw [ha]
      exact hs
    · exact Nat.le_of_eq ha

theorem crowded_full : crowded.store.entries.length = loginLockoutMaxTrackedAccounts ∧
      (∀ key entry, crowded.store.lookup key = some entry → entry.lastSeen = attackTime) ∧
      normalizeAccountKey plainStrings "alice" ∉ crowded.store := by
  have hlenc : crowd.length = loginLockoutMaxTrackedAccounts := by
    unfold crowd
    rw [List.length_map, List.length_range]
  have hempty : ∀ name ∈ crowd, normalizeAccountKey plainStrings name ∉ Lockout.start.store :=
    fun name _ => AList.notMem_empty _
  have hzero : Lockout.start.store.entries.length = 0 := rfl
  have hon : loginLockoutSetting.enabled = true := rfl
  obtain ⟨hlen, hseen, hmem⟩ := fill_run hon attackTime crowd_keys.1
    (fun name h => (crowd_keys.2 name h).1) hempty (by omega) (fun key entry h => by cases h)
  rw [hzero, hlenc, Nat.zero_add] at hlen
  refine ⟨hlen, hseen, ?_⟩
  intro halice
  rcases hmem _ halice with hold | hin
  · exact AList.notMem_empty _ hold
  · obtain ⟨name, hname, heq⟩ := mem_map.1 hin
    exact (crowd_keys.2 name hname).2 heq

/-- With the ledger full of others, `alice` fails as often as the threshold (and as
    often as one likes) within one second and is not locked. -/
theorem crowd_evades_lockout : loginLockoutSetting.getLoginLockoutThreshold = 20 ∧
    Meets Forward (Lockout.step plainStrings loginLockoutSetting) Lockout.start
      (crowdFails ++ List.replicate 20 ⟨attackTime, .failure "alice"⟩) ∧
    ∀ n, accountLockoutStatus plainStrings loginLockoutSetting
      (run (Lockout.step plainStrings loginLockoutSetting) Lockout.start
        (crowdFails ++ List.replicate n ⟨attackTime, .failure "alice"⟩)).store attackTime
      ["alice"] = false := by
  obtain ⟨hlen, hseen, hnot⟩ := crowded_full
  have hstart : Lockout.start.now ≤ attackTime := Nat.zero_le attackTime
  have htimes : ∀ a ∈ crowdFails ++ List.replicate 20 ⟨attackTime, .failure "alice"⟩,
      a.time = attackTime := by
    intro a ha
    rcases List.mem_append.1 ha with ha | ha
    · obtain ⟨name, -, rfl⟩ := mem_map.1 ha
      rfl
    · rw [List.eq_of_mem_replicate ha]
  refine ⟨by decide, forward_of_const Lockout.start attackTime hstart htimes, ?_⟩
  · intro n
    have hstore := full_run attackTime loginLockoutSetting_fits hnot hlen hseen n
    have hkey : (normalizeAccountKey plainStrings "alice").size ≠ 0 := by decide +kernel
    rw [run_append, ← Bool.not_eq_true, status_iff rfl hkey]
    rintro ⟨entry, hentry, -⟩
    rw [← crowded] at hentry
    rw [hstore, AList.lookup_eq_none.2 hnot] at hentry
    cases hentry

/-- Three failures of `bob` among others, with a threshold of three. -/
def bobFails : List LockoutAct :=
  [⟨attackTime, .failure "bob"⟩, ⟨attackTime, .failure "carol"⟩,
    ⟨attackTime + 1000000000, .failure "bob"⟩, ⟨attackTime + 2000000000, .tidy⟩]

theorem bobFails_locks : accountLockoutStatus plainStrings ⟨true, 3, 60, 30, 120⟩
      (run (Lockout.step plainStrings ⟨true, 3, 60, 30, 120⟩) Lockout.start
        (bobFails ++ [⟨attackTime + 3000000000, .failure "bob"⟩])).store
      ((attackTime + 3000000000 : Nat) : Int) ["bob"] = true := by
  have hlock := (account_lockout plainStrings ⟨true, 3, 60, 30, 120⟩ rfl
    (by constructor <;> decide) [] trivial Lockout.start rfl "bob" (by decide +kernel)).1
  refine hlock bobFails ⟨attackTime, .failure "bob"⟩ ⟨attackTime + 3000000000, .failure "bob"⟩
    ?_ rfl rfl rfl ?_ ?_ ?_ ?_ ?_ (Or.inr (Or.inl (by decide)))
  all_goals decide +kernel

end NewApi.Auth
