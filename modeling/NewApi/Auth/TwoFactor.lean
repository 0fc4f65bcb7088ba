/-
  NewApi.Auth.TwoFactor

  Verification of a second factor (`VerifyTwoFactorCode` of
  `service/security_verification.go`, `model/twofa.go`, `common/totp.go`).

  A call works on the row as it was loaded: it looks at the lock there, compares
  the code, and then either counts a failure, by compare-and-swap on the row, or
  writes the whole usage state over it.  Every statement is a step of its own,
  so the row that is written need not be the row that was loaded.

  The log says what the calls have done; the properties are read off it.
-/

import Mathlib
import NewApi.Lib.Workers
import NewApi.Subscription.Store

namespace NewApi.Auth.TwoFactor

open NewApi.Lib

/-! ## Codes -/

/-- `len` of a Go string. -/
def byteLen (cs : List Char) : Nat := (cs.map Char.utf8Size).sum

def isDigit (c : Char) : Bool := '0' ≤ c && c ≤ '9'

/-- Whether `strconv.Atoi` reads a string of six bytes. -/
def atoiReads : List Char → Bool
  | '+' :: cs => !cs.isEmpty && cs.all isDigit
  | '-' :: cs => !cs.isEmpty && cs.all isDigit
  | cs => !cs.isEmpty && cs.all isDigit

def validateNumericCode (code : List Char) : Option (List Char) :=
  let code := code.filter (· ≠ ' ')
  if byteLen code ≠ 6 then none
  else if atoiReads code then some code
  else none

def backupCodeLength : Nat := 8

/-- What the code asks of the packages it uses: `unicode.ToUpper`, the one-time
    password of the user's secret at a time, and the password hash. -/
structure Packages where
  toUpper : Char → Char
  totpValidate : Int → List Char → Bool
  validatePasswordAndHash : List Char → String → Bool

variable (pkg : Packages)

def cleanBackupCode (code : List Char) : List Char :=
  (code.filter (· ≠ '-')).map pkg.toUpper

def validateBackupCode (code : List Char) : Bool :=
  let cleanCode := cleanBackupCode pkg code
  byteLen cleanCode = backupCodeLength &&
    cleanCode.all fun c => ('A' ≤ c && c ≤ 'Z') || isDigit c

def normalizeBackupCode (code : List Char) : List Char :=
  let cleanCode := cleanBackupCode pkg code
  if byteLen cleanCode = backupCodeLength then cleanCode.take 4 ++ '-' :: cleanCode.drop 4
  else code

/-- `common.ValidateTOTPCode`, at a time -/
def validateTOTPCode (now : Int) (code : List Char) : Bool :=
  let cleanCode := code.filter (· ≠ ' ')
  if byteLen cleanCode ≠ 6 then false else pkg.totpValidate now cleanCode

/-! ## The rows -/

def maxFailAttempts : Nat := 5

/-- `LockoutDuration`, in nanoseconds -/
def lockoutDuration : Int := 300 * 1000000000

/-- `TwoFA`; times in nanoseconds -/
structure TwoFA where
  isEnabled : Bool := true
  failedAttempts : Nat := 0
  lockedUntil : Option Int := none
  lastUsedAt : Option Int := none

/-- `TwoFABackupCode` -/
structure BackupCode where
  id : Int
  codeHash : String
  isUsed : Bool := false

def InForce (lockedUntil : Option Int) (now : Int) : Prop := ∃ t ∈ lockedUntil, now < t

instance (lockedUntil : Option Int) (now : Int) : Decidable (InForce lockedUntil now) :=
  inferInstanceAs (Decidable (∃ t ∈ lockedUntil, now < t))

/-- What a call has done, with the row's lock and the time where they matter. -/
inductive Event (ι : Type) where
  /-- a code was compared, and right or wrong -/
  | compared (caller : ι) (right : Bool) (lockedUntil : Option Int) (now : Int)
  /-- a failure was counted, for a compared code or another; it may set a lock -/
  | counted (caller : ι) (compared locks : Bool) (lockedUntil : Option Int) (now : Int)
  /-- the usage state was written after a success -/
  | succeeded (caller : ι) (lockedUntil : Option Int) (now : Int)
  /-- a backup code was used up -/
  | used (caller : ι) (id : Int)
deriving DecidableEq

structure World (ι : Type) where
  row : TwoFA := {}
  backupCodes : List BackupCode
  now : Int
  /-- latest first -/
  log : List (Event ι) := []

inductive Outcome where
  | ok
  | notEnabled
  | locked
  /-- `ErrVerificationFailed` -/
  | failed
  /-- a statement failed, or five counting attempts met a conflict -/
  | error

/-! ## A verification -/

/-- Where a call stands; `t` is the row as it was loaded. -/
inductive Phase where
  | idle
  | loaded (t : TwoFA) (code : List Char)
  /-- not locked, as far as the loaded row says -/
  | checked (t : TwoFA) (code : List Char)
  | totp (t : TwoFA) (code : List Char)
  | backup (t : TwoFA) (code : List Char)
  /-- the unused codes have been read -/
  | fetched (t : TwoFA) (code : List Char) (codes : List BackupCode)
  /-- one of them matched -/
  | matched (t : TwoFA) (id : Int)
  /-- `IncrementFailedAttempts`, with attempts left -/
  | failing (t : TwoFA) (compared : Bool) (left : Nat)
  /-- the row has been read again -/
  | reread (t : TwoFA) (compared : Bool) (left : Nat) (current : TwoFA)
  | counting (t : TwoFA) (compared : Bool) (left : Nat) (current : TwoFA) (now : Int)
  /-- the code was right; `now` is when -/
  | passing (t : TwoFA) (now : Int)
  | done (r : Outcome)

inductive Act where
  | load (code : String)
  /-- the next statement or test of the call -/
  | next
  /-- the next statement fails -/
  | fail
  | tick (d : Nat)

variable {ι : Type} [DecidableEq ι]

def maxUpdateRetries : Nat := 5

def World.logs (s : World ι) (e : Event ι) : World ι := { s with log := e :: s.log }

def compare (i : ι) (s : World ι) (t : TwoFA) (right : Bool) (ifRight : Phase) : World ι × Phase :=
  (s.logs (.compared i right s.row.lockedUntil s.now),
    if right then ifRight else .failing t true maxUpdateRetries)

/-- The codes that `ValidateBackupCode` finds. -/
def unused (codes : List BackupCode) : List BackupCode := codes.filter (!·.isUsed)

def matching (code : List Char) (codes : List BackupCode) : Option BackupCode :=
  codes.find? fun bc => pkg.validatePasswordAndHash (normalizeBackupCode pkg code) bc.codeHash

def compareBackupCodes (i : ι) (s : World ι) (t : TwoFA) (code : List Char)
    (codes : List BackupCode) : World ι × Phase :=
  match matching pkg code codes with
  | some bc => compare i s t true (.matched t bc.id)
  | none => compare i s t false (.failing t true maxUpdateRetries)

/-- Its conditional update. -/
def useBackupCode (i : ι) (s : World ι) (t : TwoFA) (id : Int) : World ι × Phase :=
  if s.backupCodes.any fun bc => bc.id = id && !bc.isUsed then
    ({ s with
      backupCodes := s.backupCodes.map fun bc => if bc.id = id then { bc with isUsed := true } else bc
      log := .used i id :: s.log }, .passing t s.now)
  else (s, .failing t false maxUpdateRetries)

/-- The conditional update of `IncrementFailedAttempts`. -/
def countFailure (i : ι) (s : World ι) (t : TwoFA) (compared : Bool) (left : Nat) (current : TwoFA)
    (now : Int) : World ι × Phase :=
  let nextFailedAttempts := current.failedAttempts + 1
  let locks : Bool := maxFailAttempts ≤ nextFailedAttempts
  if s.row.failedAttempts = current.failedAttempts ∧ ¬InForce s.row.lockedUntil now then
    ({ s with
      row := { s.row with
        failedAttempts := nextFailedAttempts
        lockedUntil := if locks then some (now + lockoutDuration) else current.lockedUntil }
      log := .counted i compared locks s.row.lockedUntil s.now :: s.log }, .done .failed)
  else if left ≤ 1 then (s, .done .error)
  else (s, .failing t compared (left - 1))

/-- `updateUsageState` after a success. -/
def writeSuccess (i : ι) (s : World ι) (now : Int) : World ι × Phase :=
  ({ s with
    row := { s.row with failedAttempts := 0, lockedUntil := none, lastUsedAt := some now }
    log := .succeeded i s.row.lockedUntil s.now :: s.log }, .done .ok)

/-- `VerifyTwoFactorCode`, the kind of code. -/
def classify (t : TwoFA) (now : Int) (code : List Char) : Phase :=
  match validateNumericCode code with
  | some numeric => if InForce t.lockedUntil now then .done .locked else .totp t numeric
  | none =>
    if validateBackupCode pkg code then
      if InForce t.lockedUntil now then .done .locked else .backup t code
    else .failing t false maxUpdateRetries

def next (i : ι) (s : World ι) : Phase → World ι × Phase
  | .loaded t code =>
    if t.isEnabled = false then (s, .done .notEnabled)
    else if InForce t.lockedUntil s.now then (s, .done .locked)
    else (s, .checked t code)
  | .checked t code => (s, classify pkg t s.now code)
  | .totp t code => compare i s t (validateTOTPCode pkg s.now code) (.passing t s.now)
  | .backup t code => (s, .fetched t code (unused s.backupCodes))
  | .fetched t code codes => compareBackupCodes pkg i s t code codes
  | .matched t id => useBackupCode i s t id
  | .failing t compared left => (s, .reread t compared left s.row)
  | .reread t compared left current =>
    if InForce current.lockedUntil s.now then (s, .done .failed)
    else (s, .counting t compared left current s.now)
  | .counting t compared left current now => countFailure i s t compared left current now
  | .passing _ now => writeSuccess i s now
  | phase => (s, phase)

/-- One step of call `i`. -/
def step (i : ι) (s : World ι) (phase : Phase) : Act → World ι × Phase
  | .load code =>
    match phase with
    | .idle => (s, .loaded s.row (Subscription.trimSpace code).toList)
    | _ => (s, phase)
  | .next => next pkg i s phase
  | .fail =>
    match phase with
    | .idle => (s, phase)
    | .done r => (s, .done r)
    | _ => (s, .done .error)
  | .tick d => ({ s with now := s.now + d }, phase)

/-! ## What the log says -/

def wrongs : List (Event ι) → Nat
  | [] => 0
  | .succeeded _ _ _ :: _ => 0
  | .compared _ false _ _ :: log => wrongs log + 1
  | _ :: log => wrongs log

def lockSet : List (Event ι) → Bool
  | [] => false
  | .succeeded _ _ _ :: _ => false
  | .counted _ _ true _ _ :: _ => true
  | _ :: log => lockSet log

def inFlight : List (Event ι) → Nat
  | [] => 0
  | .compared _ false _ _ :: log => inFlight log + 1
  | .counted _ true _ _ _ :: log => inFlight log - 1
  | _ :: log => inFlight log

def countOf (i : ι) : List (Event ι) → Nat
  | [] => 0
  | .counted j _ _ _ _ :: log => if j = i then countOf i log + 1 else countOf i log
  | _ :: log => countOf i log

def usedIds : List (Event ι) → List Int
  | [] => []
  | .used _ id :: log => id :: usedIds log
  | _ :: log => usedIds log

def Event.Unlocked : Event ι → Prop
  | .compared _ _ lockedUntil now => ¬InForce lockedUntil now
  | .counted _ _ _ lockedUntil now => ¬InForce lockedUntil now
  | .succeeded _ lockedUntil now => ¬InForce lockedUntil now
  | .used _ _ => True

def Phase.counts : Phase → Nat
  | .done .failed => 1
  | _ => 0

structure Guarded (w : Workers (World ι) ι Phase) : Prop where
  /-- before a lock is set, at most so many wrong codes are compared -/
  guesses : lockSet w.shared.log = false → wrongs w.shared.log ≤ maxFailAttempts
  /-- no code is compared under a lock, and no lock is overwritten before its end -/
  unlocked : ∀ e ∈ w.shared.log, e.Unlocked
  /-- a call that answers with a failure has counted it once, and no other has -/
  counted : ∀ i, countOf i w.shared.log = (w.proc i).counts
  /-- no backup code is used up twice -/
  once : (usedIds w.shared.log).Nodup

/-! ## Undisturbed verifications -/

def Current (s : World ι) (t : TwoFA) : Prop :=
  s.row.lockedUntil = t.lockedUntil ∨ s.row.lockedUntil = none

/-- The failures on record and the wrong codes in flight leave room for one more. -/
def Room (s : World ι) : Prop :=
  s.row.failedAttempts < maxFailAttempts →
    s.row.failedAttempts + inFlight s.log < maxFailAttempts

/-- Where a call compares, counts or writes, nobody has set a lock since it loaded
    the row; and a wrong code is compared only while there is room. -/
def Settled (s : World ι) : Phase → Prop
  | .totp t code => Current s t ∧ (validateTOTPCode pkg s.now code = false → Room s)
  | .fetched t code codes => Current s t ∧
      (matching pkg code codes = none → Room s)
  | .failing t _ _ => Current s t
  | .passing t _ => Current s t
  | _ => True

def Undisturbed (w : Workers (World ι) ι Phase) : ι × Act → Prop
  | (i, .next) => Settled pkg w.shared (w.proc i)
  | _ => True

theorem InForce.mono {lockedUntil : Option Int} {now now' : Int} (h : InForce lockedUntil now')
    (hle : now ≤ now') : InForce lockedUntil now := by
  obtain ⟨t, ht, hlt⟩ := h
  exact ⟨t, ht, by omega⟩

theorem not_inForce_none (now : Int) : ¬InForce none now := by
  rintro ⟨t, ht, -⟩
  cases ht

omit [DecidableEq ι] in
theorem Current.unlocked {s : World ι} {t : TwoFA} (h : Current s t)
    (ht : ¬InForce t.lockedUntil s.now) : ¬InForce s.row.lockedUntil s.now := by
  rcases h with h | h
  · rwa [h]
  · rw [h]
    exact not_inForce_none s.now

/-- What holds of rows and log. -/
structure Kept (s : World ι) : Prop where
  guesses : lockSet s.log = false → s.row.failedAttempts < maxFailAttempts ∧
    wrongs s.log ≤ s.row.failedAttempts + inFlight s.log ∧ wrongs s.log ≤ maxFailAttempts
  unlocked : ∀ e ∈ s.log, e.Unlocked
  once : (usedIds s.log).Nodup
  used : ∀ id ∈ usedIds s.log, ∀ bc ∈ s.backupCodes, bc.id = id → bc.isUsed = true

/-- The lock of the row that a call works on has ended. -/
def PhaseOk (s : World ι) : Phase → Prop
  | .checked t _ => ¬InForce t.lockedUntil s.now
  | .totp t _ => ¬InForce t.lockedUntil s.now
  | .backup t _ => ¬InForce t.lockedUntil s.now
  | .fetched t _ _ => ¬InForce t.lockedUntil s.now
  | .matched t _ => ¬InForce t.lockedUntil s.now
  | .failing t _ _ => ¬InForce t.lockedUntil s.now
  | .reread t _ _ current => ¬InForce t.lockedUntil s.now ∧ ¬InForce current.lockedUntil s.now
  | .counting t _ _ _ now => ¬InForce t.lockedUntil s.now ∧ now ≤ s.now
  | .passing t _ => ¬InForce t.lockedUntil s.now
  | _ => True

omit [DecidableEq ι] in
theorem PhaseOk.later {s s' : World ι} {x : Phase} (h : PhaseOk s x) (hnow : s.now ≤ s'.now) :
    PhaseOk s' x := by
  have hlater : ∀ lockedUntil, ¬InForce lockedUntil s.now → ¬InForce lockedUntil s'.now :=
    fun lockedUntil hnot hin => hnot (hin.mono hnow)
  cases x with
  | reread t c l current => exact ⟨hlater _ h.1, hlater _ h.2⟩
  | counting t c l current now => exact ⟨hlater _ h.1, le_trans h.2 hnow⟩
  | checked | totp | backup | fetched | matched | failing | passing => exact hlater _ h
  | idle | loaded | done => trivial

/-- What a step of call `i` leads to. -/
structure Result (i : ι) (s : World ι) (x : Phase) (out : World ι × Phase) : Prop where
  kept : Kept out.1
  phase : PhaseOk out.1 out.2
  now : s.now ≤ out.1.now
  counts : countOf i out.1.log + x.counts = countOf i s.log + out.2.counts
  others : ∀ j, j ≠ i → countOf j out.1.log = countOf j s.log

variable {pkg} {i : ι} {s : World ι} {x : Phase}

theorem Result.stays (hk : Kept s) {x' : Phase} (hx' : PhaseOk s x')
    (hcounts : x.counts = x'.counts) : Result i s x (s, x') :=
  ⟨hk, hx', le_rfl, by rw [hcounts], fun _ _ => rfl⟩

theorem compare_result (hk : Kept s) {t : TwoFA} {right : Bool} {ifRight : Phase}
    (ht : ¬InForce t.lockedUntil s.now) (hcurrent : Current s t)
    (hroom : right = false → Room s) (hright : right = true → PhaseOk s ifRight)
    (hopen : ifRight.counts = 0) (hx : x.counts = 0) :
    Result i s x (compare i s t right ifRight) := by
  have hunlocked : ∀ e ∈ Event.compared i right s.row.lockedUntil s.now :: s.log, e.Unlocked := by
    intro e he
    rcases List.mem_cons.1 he with rfl | hold
    · exact hcurrent.unlocked ht
    · exact hk.unlocked e hold
  cases right with
  | true =>
    refine ⟨⟨hk.guesses, hunlocked, hk.once, hk.used⟩, (hright rfl).later le_rfl, le_rfl, ?_,
      fun _ _ => rfl⟩
    show countOf i s.log + x.counts = countOf i s.log + ifRight.counts
    rw [hx, hopen]
  | false =>
    refine ⟨⟨fun hset => ?_, hunlocked, hk.once, hk.used⟩, ht, le_rfl, ?_, fun _ _ => rfl⟩
    · obtain ⟨hfew, hwrong, -⟩ := hk.guesses hset
      have hspace := hroom rfl hfew
      show s.row.failedAttempts < maxFailAttempts ∧
        wrongs s.log + 1 ≤ s.row.failedAttempts + (inFlight s.log + 1) ∧
        wrongs s.log + 1 ≤ maxFailAttempts
      omega
    · show countOf i s.log + x.counts = countOf i s.log + 0
      rw [hx]

theorem useBackupCode_result (hk : Kept s) {t : TwoFA} {id : Int}
    (ht : ¬InForce t.lockedUntil s.now) : Result i s (.matched t id) (useBackupCode i s t id) := by
  unfold useBackupCode
  by_cases hany : s.backupCodes.any (fun bc => bc.id = id && !bc.isUsed) = true
  · rw [if_pos hany]
    obtain ⟨bc, hbc, hunused⟩ := List.any_eq_true.1 hany
    simp only [Bool.and_eq_true, decide_eq_true_eq, Bool.not_eq_true'] at hunused
    have hnew : id ∉ usedIds s.log := by
      intro hmem
      have hused := hk.used id hmem bc hbc hunused.1
      rw [hunused.2] at hused
      cases hused
    refine ⟨⟨hk.guesses, fun e he => ?_, List.nodup_cons.2 ⟨hnew, hk.once⟩,
      fun id' hid' bc' hbc' heq => ?_⟩, ht, le_rfl, rfl, fun _ _ => rfl⟩
    · rcases List.mem_cons.1 he with rfl | hold
      · trivial
      · exact hk.unlocked e hold
    obtain ⟨bc₀, hbc₀, rfl⟩ := List.mem_map.1 hbc'
    by_cases hid : bc₀.id = id
    · rw [if_pos hid]
    rw [if_neg hid] at heq ⊢
    rcases List.mem_cons.1 hid' with rfl | hold
    · exact absurd heq hid
    · exact hk.used id' hold bc₀ hbc₀ heq
  · rw [if_neg hany]
    exact .stays hk ht rfl

theorem countFailure_result (hk : Kept s) {t : TwoFA} {compared : Bool} {left : Nat}
    {current : TwoFA} {now : Int} (ht : ¬InForce t.lockedUntil s.now) (hnow : now ≤ s.now) :
    Result i s (.counting t compared left current now)
      (countFailure i s t compared left current now) := by
  unfold countFailure
  by_cases hcas : s.row.failedAttempts = current.failedAttempts ∧ ¬InForce s.row.lockedUntil now
  · simp only [if_pos hcas]
    obtain ⟨hsame, hunlocked⟩ := hcas
    refine ⟨⟨fun hset => ?_, fun e he => ?_, hk.once, hk.used⟩, trivial, le_rfl, ?_,
      fun j hij => ?_⟩
    · -- below the limit no lock is set, and what was in flight is on record
      by_cases hmax : maxFailAttempts ≤ current.failedAttempts + 1
      · rw [decide_eq_true hmax] at hset
        cases hset
      rw [decide_eq_false hmax] at hset
      obtain ⟨hfew, hwrong, hbound⟩ := hk.guesses hset
      cases compared with
      | true =>
        show current.failedAttempts + 1 < maxFailAttempts ∧
          wrongs s.log ≤ current.failedAttempts + 1 + (inFlight s.log - 1) ∧
          wrongs s.log ≤ maxFailAttempts
        omega
      | false =>
        show current.failedAttempts + 1 < maxFailAttempts ∧
          wrongs s.log ≤ current.failedAttempts + 1 + inFlight s.log ∧
          wrongs s.log ≤ maxFailAttempts
        omega
    · rcases List.mem_cons.1 he with rfl | hold
      · exact fun hin => hunlocked (hin.mono hnow)
      · exact hk.unlocked e hold
    · show (if i = i then countOf i s.log + 1 else countOf i s.log) + 0 = countOf i s.log + 1
      rw [if_pos rfl]
    · exact if_neg (Ne.symm hij)
  simp only [if_neg hcas]
  by_cases hleft : left ≤ 1
  · rw [if_pos hleft]
    exact .stays hk trivial rfl
  · rw [if_neg hleft]
    exact .stays hk ht rfl

theorem writeSuccess_result (hk : Kept s) {t : TwoFA} {now : Int}
    (ht : ¬InForce t.lockedUntil s.now) (hcurrent : Current s t) :
    Result i s (.passing t now) (writeSuccess i s now) := by
  refine ⟨⟨fun _ => ?_, fun e he => ?_, hk.once, hk.used⟩, trivial, le_rfl, rfl, fun _ _ => rfl⟩
  · show 0 < maxFailAttempts ∧ 0 ≤ 0 + inFlight s.log ∧ 0 ≤ maxFailAttempts
    exact ⟨by decide, Nat.zero_le _, Nat.zero_le _⟩
  rcases List.mem_cons.1 he with rfl | hold
  · exact hcurrent.unlocked ht
  · exact hk.unlocked e hold

omit [DecidableEq ι] in
theorem classify_ok {t : TwoFA} {code : List Char} (ht : ¬InForce t.lockedUntil s.now) :
    PhaseOk s (classify pkg t s.now code) ∧ (classify pkg t s.now code).counts = 0 := by
  unfold classify
  cases validateNumericCode code with
  | some numeric =>
    simp only [if_neg ht]
    exact ⟨ht, rfl⟩
  | none =>
    cases validateBackupCode pkg code with
    | true =>
      simp only [if_true, if_neg ht]
      exact ⟨ht, rfl⟩
    | false => exact ⟨ht, rfl⟩

theorem next_result (hk : Kept s) (hx : PhaseOk s x) (h : Settled pkg s x) :
    Result i s x (next pkg i s x) := by
  cases x with
  | idle | done r => exact .stays hk trivial rfl
  | loaded t code =>
    show Result i s _ (if _ then _ else if _ then _ else _)
    by_cases henabled : t.isEnabled = false
    · rw [if_pos henabled]
      exact .stays hk trivial rfl
    rw [if_neg henabled]
    by_cases hlocked : InForce t.lockedUntil s.now
    · rw [if_pos hlocked]
      exact .stays hk trivial rfl
    · rw [if_neg hlocked]
      exact .stays hk hlocked rfl
  | checked t code =>
    obtain ⟨hok, hcounts⟩ := classify_ok hx
    exact .stays hk hok hcounts.symm
  | totp t code => exact compare_result hk hx h.1 h.2 (fun _ => hx) rfl rfl
  | backup t code => exact .stays hk hx rfl
  | fetched t code codes =>
    obtain ⟨hcurrent, hroom⟩ := h
    show Result i s _ (compareBackupCodes pkg i s t code codes)
    unfold compareBackupCodes
    cases hmatch : matching pkg code codes with
    | some bc =>
      have htrue : true = false → Room s := fun hfalse => absurd hfalse (by decide)
      exact compare_result hk hx hcurrent htrue (fun _ => hx) rfl rfl
    | none => exact compare_result hk hx hcurrent (fun _ => hroom hmatch) (fun _ => hx) rfl rfl
  | matched t id => exact useBackupCode_result hk hx
  | failing t compared left => exact .stays hk ⟨hx, Current.unlocked h hx⟩ rfl
  | reread t compared left current =>
    show Result i s _ (if _ then _ else _)
    rw [if_neg hx.2]
    exact .stays hk ⟨hx.1, le_rfl⟩ rfl
  | counting t compared left current now => exact countFailure_result hk hx.1 hx.2
  | passing t now => exact writeSuccess_result hk hx h

/-- **What a step of an undisturbed verification leads to.** -/
theorem step_result {w : Workers (World ι) ι Phase} {i : ι} {a : Act} (hk : Kept w.shared)
    (hx : PhaseOk w.shared (w.proc i)) (h : Undisturbed pkg w (i, a)) :
    Result i w.shared (w.proc i) (step pkg i w.shared (w.proc i) a) := by
  cases a with
  | load code =>
    cases hphase : w.proc i with
    | idle => exact .stays hk trivial rfl
    | _ =>
      rw [hphase] at hx
      exact .stays hk hx rfl
  | next => exact next_result hk hx h
  | fail =>
    cases hphase : w.proc i with
    | _ => exact .stays hk trivial rfl
  | tick d =>
    have hnow : w.shared.now ≤ w.shared.now + d := by omega
    exact ⟨⟨hk.guesses, hk.unlocked, hk.once, hk.used⟩, hx.later hnow, hnow, rfl,
      fun _ _ => rfl⟩

def Inv : Workers (World ι) ι Phase → Prop :=
  Workers.Holds Kept fun s i x => PhaseOk s x ∧ countOf i s.log = x.counts

theorem Inv.step {w : Workers (World ι) ι Phase} (h : Inv w) {a : ι × Act}
    (ha : Undisturbed pkg w a) : Inv (w.step (step pkg) a) := by
  obtain ⟨i, a⟩ := a
  obtain ⟨hx, hcounts⟩ := h.2 i
  have hresult := step_result h.1 hx ha
  refine Workers.Holds.step h i a ⟨hresult.kept, hresult.phase, ?_⟩ fun j hij hj => ?_
  · have hsum := hresult.counts
    omega
  · exact ⟨hj.1.later hresult.now, (hresult.others j hij).trans hj.2⟩

theorem Inv.guarded {w : Workers (World ι) ι Phase} (h : Inv w) : Guarded w where
  guesses hset := (h.1.guesses hset).2.2
  unlocked := h.1.unlocked
  counted i := (h.2 i).2
  once := h.1.once

def enrolled (ι : Type) (backupCodes : List BackupCode) (now : Int) : Workers (World ι) ι Phase :=
  ⟨{ backupCodes, now }, fun _ => .idle⟩

theorem inv_enrolled (backupCodes : List BackupCode) (now : Int) :
    Inv (enrolled ι backupCodes now) := by
  refine ⟨⟨fun _ => ?_, fun e he => absurd he List.not_mem_nil, List.nodup_nil,
    fun id hid => absurd hid List.not_mem_nil⟩, fun i => ⟨trivial, rfl⟩⟩
  show 0 < maxFailAttempts ∧ 0 ≤ 0 + 0 ∧ 0 ≤ maxFailAttempts
  decide

/-- **Guessing is bounded** in every run of undisturbed verifications. -/
theorem undisturbed_runs_guarded (pkg : Packages) (backupCodes : List BackupCode) (now : Int)
    (as : List (ι × Act))
    (h : Meets (Undisturbed pkg) (Workers.step (step pkg)) (enrolled ι backupCodes now) as) :
    Guarded (run (Workers.step (step pkg)) (enrolled ι backupCodes now) as) :=
  (run_invariant Inv (fun _ _ hinv ha => hinv.step ha) (inv_enrolled backupCodes now) h).guarded

instance (s : World ι) (t : TwoFA) : Decidable (Current s t) :=
  inferInstanceAs (Decidable (_ ∨ _))

instance (s : World ι) : Decidable (Room s) := inferInstanceAs (Decidable (_ → _))

instance (pkg : Packages) (s : World ι) : ∀ x, Decidable (Settled pkg s x)
  | .totp _ _ => inferInstanceAs (Decidable (_ ∧ (_ → _)))
  | .fetched _ _ _ => inferInstanceAs (Decidable (_ ∧ (_ → _)))
  | .failing t _ _ => inferInstanceAs (Decidable (Current s t))
  | .passing t _ => inferInstanceAs (Decidable (Current s t))
  | .idle | .loaded _ _ | .checked _ _ | .backup _ _ | .matched _ _ | .reread _ _ _ _
  | .counting _ _ _ _ _ | .done _ => instDecidableTrue

instance (pkg : Packages) (w : Workers (World ι) ι Phase) : ∀ a, Decidable (Undisturbed pkg w a)
  | (_, .next) => inferInstanceAs (Decidable (Settled pkg _ _))
  | (_, .load _) | (_, .fail) | (_, .tick _) => instDecidableTrue

/-- A factor whose password is always 123456, and hashes that are no hashes. -/
def plainPackages : Packages where
  toUpper := Char.toUpper
  totpValidate _ code := code = "123456".toList
  validatePasswordAndHash code hash := String.ofList code = hash

def wrongThenRight : List (Nat × Act) :=
  (0, .load "000000") :: List.replicate 6 (0, .next) ++
    (1, .load "123 456") :: List.replicate 4 (1, .next)

theorem wrongThenRight_guarded :
    Guarded (run (Workers.step (step plainPackages)) (enrolled Nat [] 0) wrongThenRight) := by
  refine undisturbed_runs_guarded plainPackages [] 0 wrongThenRight ?_
  decide +kernel

def sixAtOnce : List (Nat × Act) :=
  (List.range 6).flatMap fun i => (i, .load "000000") :: List.replicate 3 (i, .next)

def lockOverwritten : List (Nat × Act) :=
  (9, .load "123456") :: List.replicate 3 (9, .next) ++
    ((List.range 5).flatMap fun i => (i, .load "000000") :: List.replicate 6 (i, .next)) ++
      [(9, .next)]

/-- **Guessed and unlocked.**  Six wrong codes are compared before a lock is set,
    and the lock that the five set is gone when the success is written. -/
theorem sixAtOnce_lockOverwritten :
    ¬Guarded (run (Workers.step (step plainPackages)) (enrolled Nat [] 0) sixAtOnce) ∧
      ¬Guarded (run (Workers.step (step plainPackages)) (enrolled Nat [] 0) lockOverwritten) := by
  refine ⟨fun h => ?_, fun h => ?_⟩
  · exact absurd (h.guesses (by decide +kernel)) (by decide +kernel)
  have hwritten : Event.succeeded 9 (some lockoutDuration) 0 ∈
      (run (Workers.step (step plainPackages)) (enrolled Nat [] 0) lockOverwritten).shared.log := by
    decide +kernel
  exact absurd (h.unlocked _ hwritten) (not_not.2 (by decide +kernel))

end NewApi.Auth.TwoFactor
