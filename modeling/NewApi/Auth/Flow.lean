/-
  NewApi.Auth.Flow

  One-time authentication flows and external assertions
  (`model/auth_flow.go`): a row for each, under the unique hash of its token.

  A flow is consumed by a conditional update in a transaction that then runs the
  caller's action and may roll back; an assertion is accepted by inserting a row
  that is consumed from the start, so that its replay is the row itself.  A
  cleanup removes rows by two rules, a day after their expiry and a day after
  they were consumed.

  Transactions are workers that meet at the row locks.  A statement that finds
  the row written by another transaction waits, which here is a step without
  effect; the clock moves between any two steps.
-/

import NewApi.Lib.Workers
import NewApi.Subscription.Store

set_option linter.unusedSectionVars false

namespace NewApi.Auth.Flow

open Function (update_of_ne update_self)
open NewApi.Lib

/-! ## The table -/

/-- `AuthFlow`; times in nanoseconds.  The row's `token_hash` is its key. -/
structure Row where
  purpose : String
  provider : String := ""
  intent : String := ""
  userId : Int := 0
  sessionId : String := ""
  payload : String := ""
  expiresAt : Int
  consumedAt : Option Int := none
deriving DecidableEq

structure AuthFlowMatch where
  purpose : String
  provider : String := ""
  intent : String := ""
  userId : Int := 0
  sessionId : String := ""

/-- The fields of `applyAuthFlowMatch`: the purpose, and each other that is named. -/
def AuthFlowMatch.agrees (m : AuthFlowMatch) (r : Row) : Prop :=
  r.purpose = m.purpose ∧ (m.provider ≠ "" → r.provider = m.provider) ∧
    (m.intent ≠ "" → r.intent = m.intent) ∧ (m.userId ≠ 0 → r.userId = m.userId) ∧
    (m.sessionId ≠ "" → r.sessionId = m.sessionId)

instance (m : AuthFlowMatch) (r : Row) : Decidable (m.agrees r) :=
  inferInstanceAs (Decidable (_ ∧ _ ∧ _ ∧ _ ∧ _))

def authFlowDefaultCleanupRetention : Int := 24 * 3600 * 1000000000

/-- The `WHERE` of `DeleteExpiredAuthFlows(now)`. -/
def Row.deleted (r : Row) (now : Int) : Prop :=
  r.expiresAt < now - authFlowDefaultCleanupRetention ∨
    ∃ t ∈ r.consumedAt, t < now - authFlowDefaultCleanupRetention

instance (r : Row) (now : Int) : Decidable (r.deleted now) :=
  inferInstanceAs (Decidable (_ ∨ ∃ t ∈ r.consumedAt, _))

inductive Err where
  | invalid
  | consumed
  | expired
  /-- what the action or a statement returned -/
  | failed

inductive Call where
  | consume (token : String) (m : AuthFlowMatch)
  | claim (purpose assertion : String) (expiresAt : Int)

def Call.claims : Call → Bool
  | .consume _ _ => false
  | .claim _ _ _ => true

def Call.token : Call → String
  | .consume token _ => token
  | .claim purpose assertion _ => "external:" ++ purpose ++ ":" ++ assertion

/-- `ClaimExternalAuthAssertionWithTx` trims what it is given. -/
def Call.trimmed : Call → Call
  | .consume token m => .consume token m
  | .claim purpose assertion expiresAt =>
    .claim (Subscription.trimSpace purpose) (Subscription.trimSpace assertion) expiresAt

def Call.accepted (now : Int) : Call → Prop
  | .consume token m => token ≠ "" ∧ m.purpose ≠ ""
  | .claim purpose assertion expiresAt => purpose ≠ "" ∧ assertion ≠ "" ∧ now < expiresAt

instance (now : Int) : ∀ c : Call, Decidable (c.accepted now)
  | .consume _ _ => inferInstanceAs (Decidable (_ ∧ _))
  | .claim _ _ _ => inferInstanceAs (Decidable (_ ∧ _ ∧ _))

/-- A transaction that has committed: whose it is, the row as it left it, and
    when it last looked at the table before that. -/
structure Commit (ι : Type) where
  caller : ι
  call : Call
  row : Row
  lookedAt : Int

structure World (ι : Type) where
  flows : String → Option Row
  /-- the transaction that has written the row, or is about to insert it -/
  locks : String → Option ι := fun _ => none
  now : Int
  /-- latest first -/
  commits : List (Commit ι) := []

/-! ## The transactions -/

/-- Where a transaction stands; `now` is the time it took at its start. -/
inductive Phase where
  | idle
  | begun (c : Call) (now : Int)
  /-- the update is done, and has changed a row or none -/
  | updated (token : String) (m : AuthFlowMatch) (now : Int) (affected : Bool)
  /-- the flow is claimed and the action runs -/
  | acting (token : String) (m : AuthFlowMatch) (row : Row) (lookedAt : Int)
  /-- nothing is left but the commit -/
  | ready (c : Call) (row : Row) (lookedAt : Int)
  | done (r : Except Err Row)

inductive Act where
  | call (c : Call)
  /-- the `UPDATE`, or the `INSERT … ON CONFLICT DO NOTHING` -/
  | write
  /-- `First`, and the tests on what it found -/
  | first
  | action (ok : Bool)
  | commit (ok : Bool)
  /-- a statement fails -/
  | fail
  | tick (d : Nat)
  /-- a pass of `DeleteExpiredAuthFlows(now)` comes to a row -/
  | delete (now : Int) (key : String)

variable {ι : Type} [DecidableEq ι]

def finish (s : World ι) (i : ι) (r : Except Err Row) : World ι × Phase :=
  ({ s with locks := fun h => if s.locks h = some i then none else s.locks h }, .done r)

variable (hash : String → String)

/-- `ConsumeAuthFlowWithAction`, its `UPDATE`. -/
def updateFlow (i : ι) (s : World ι) (phase : Phase) (token : String)
    (m : AuthFlowMatch) (now : Int) : World ι × Phase :=
  match s.flows (hash token) with
  | none => (s, .updated token m now false)
  | some row =>
    if m.agrees row ∧ row.consumedAt = none ∧ now < row.expiresAt then
      if s.locks (hash token) = none then
        ({ s with locks := Function.update s.locks (hash token) (some i) },
          .updated token m now true)
      else (s, phase)
    else (s, .updated token m now false)

/-- `ClaimExternalAuthAssertionWithTx`, its `INSERT`. -/
def insertFlow (i : ι) (s : World ι) (phase : Phase) (c : Call)
    (purpose : String) (expiresAt now : Int) : World ι × Phase :=
  if s.flows (hash c.token) ≠ none then finish s i (.error .consumed)
  else if s.locks (hash c.token) = none then
    ({ s with locks := Function.update s.locks (hash c.token) (some i) },
      .ready c { purpose, expiresAt, consumedAt := some now } s.now)
  else (s, phase)

/-- What the transaction's own `First` finds. -/
def ownRow (s : World ι) (token : String) (m : AuthFlowMatch) (now : Int)
    (affected : Bool) : Option Row :=
  ((s.flows (hash token)).filter (m.agrees ·)).map fun row =>
    if affected then { row with consumedAt := some now } else row

/-- `ConsumeAuthFlowWithAction`, between its `UPDATE` and the action. -/
def checkFlow (i : ι) (s : World ι) (token : String)
    (m : AuthFlowMatch) (now : Int) (affected : Bool) : World ι × Phase :=
  match ownRow hash s token m now affected with
  | none => finish s i (.error .invalid)
  | some row =>
    if affected = false ∧ row.consumedAt ≠ none then finish s i (.error .consumed)
    else if row.expiresAt ≤ s.now then finish s i (.error .expired)
    else if affected = false then finish s i (.error .invalid)
    else (s, .acting token m row s.now)

/-- `DeleteExpiredAuthFlows(now)`, at one row. -/
def deleteFlow (s : World ι) (now : Int) (key : String) : World ι :=
  match s.flows key with
  | none => s
  | some row =>
    if now ≤ s.now ∧ row.deleted now ∧ s.locks key = none then
      { s with flows := Function.update s.flows key none }
    else s

/-- One step of transaction `i`. -/
def step (i : ι) (s : World ι) (phase : Phase) : Act → World ι × Phase
  | .call c =>
    match phase with
    | .idle =>
      if c.trimmed.accepted s.now then (s, .begun c.trimmed s.now)
      else (s, .done (.error .invalid))
    | _ => (s, phase)
  | .write =>
    match phase with
    | .begun (.consume token m) now => updateFlow hash i s phase token m now
    | .begun (.claim purpose assertion expiresAt) now =>
      insertFlow hash i s phase (.claim purpose assertion expiresAt) purpose expiresAt now
    | _ => (s, phase)
  | .first =>
    match phase with
    | .updated token m now affected => checkFlow hash i s token m now affected
    | _ => (s, phase)
  | .action ok =>
    match phase with
    | .acting token m row lookedAt =>
      if ok then (s, .ready (.consume token m) row lookedAt)
      else finish s i (.error .failed)
    | _ => (s, phase)
  | .commit ok =>
    match phase with
    | .ready c row lookedAt =>
      if ok then
        finish { s with
          flows := Function.update s.flows (hash c.token) (some row)
          commits := ⟨i, c, row, lookedAt⟩ :: s.commits } i (.ok row)
      else finish s i (.error .failed)
    | _ => (s, phase)
  | .fail =>
    match phase with
    | .idle => (s, phase)
    | .done r => (s, .done r)
    | _ => finish s i (.error .failed)
  | .tick d => ({ s with now := s.now + d }, phase)
  | .delete now key => (deleteFlow s now key, phase)

/-! ## What a step can do -/

variable {hash : String → String} {i : ι} {s : World ι} {x : Phase}

/-- The moves of transaction `i`; `D` is what is known of a row that a cleanup
    removes. -/
inductive Move (hash : String → String) (D : String → Row → Prop) (i : ι) (s : World ι)
    (x : Phase) : World ι → Phase → Prop where
  | stay : Move hash D i s x s x
  | refused (e : Err) (hx : ∀ r, x ≠ .done r) :
      Move hash D i s x (finish s i (.error e)).1 (.done (.error e))
  | invalid (hx : x = .idle) : Move hash D i s x s (.done (.error .invalid))
  | begins (c : Call) (hx : x = .idle) : Move hash D i s x s (.begun c s.now)
  | misses (token : String) (m : AuthFlowMatch) (now : Int)
      (hx : x = .begun (.consume token m) now) : Move hash D i s x s (.updated token m now false)
  | claims (token : String) (m : AuthFlowMatch) (now : Int) (row : Row)
      (hx : x = .begun (.consume token m) now) (hrow : s.flows (hash token) = some row)
      (hm : m.agrees row) (hfresh : row.consumedAt = none) (hnow : now < row.expiresAt)
      (hfree : s.locks (hash token) = none) :
      Move hash D i s x
        { s with locks := Function.update s.locks (hash token) (some i) }
        (.updated token m now true)
  | inserts (c : Call) (row : Row) (hx : ∃ now, x = .begun c now)
      (hc : ∃ purpose assertion, c = .claim purpose assertion row.expiresAt)
      (hused : row.consumedAt ≠ none) (hnone : s.flows (hash c.token) = none)
      (hfree : s.locks (hash c.token) = none) :
      Move hash D i s x
        { s with locks := Function.update s.locks (hash c.token) (some i) }
        (.ready c row s.now)
  | checks (token : String) (m : AuthFlowMatch) (now : Int) (row : Row)
      (hx : x = .updated token m now true) (hrow : s.flows (hash token) = some row)
      (hnow : s.now < row.expiresAt) :
      Move hash D i s x s (.acting token m { row with consumedAt := some now } s.now)
  | acts (token : String) (m : AuthFlowMatch) (row : Row) (lookedAt : Int)
      (hx : x = .acting token m row lookedAt) :
      Move hash D i s x s (.ready (.consume token m) row lookedAt)
  | commits (c : Call) (row : Row) (lookedAt : Int) (hx : x = .ready c row lookedAt) :
      Move hash D i s x
        (finish { s with
          flows := Function.update s.flows (hash c.token) (some row)
          commits := ⟨i, c, row, lookedAt⟩ :: s.commits } i (.ok row)).1
        (.done (.ok row))
  | ticks (d : Nat) : Move hash D i s x { s with now := s.now + d } x
  | deletes (key : String) (row : Row) (hrow : s.flows key = some row) (hD : D key row)
      (hfree : s.locks key = none) :
      Move hash D i s x { s with flows := Function.update s.flows key none } x

variable {now : Int}

variable (D : String → Row → Prop)

theorem updateFlow_move {token : String} {m : AuthFlowMatch}
    (hx : x = .begun (.consume token m) now) :
    Move hash D i s x (updateFlow hash i s x token m now).1
      (updateFlow hash i s x token m now).2 := by
  unfold updateFlow
  cases hrow : s.flows (hash token) with
  | none => exact .misses token m now hx
  | some row =>
    by_cases hwhere : m.agrees row ∧ row.consumedAt = none ∧ now < row.expiresAt
    · simp only [if_pos hwhere]
      by_cases hfree : s.locks (hash token) = none
      · simp only [if_pos hfree]
        obtain ⟨hm, hfresh, hnow⟩ := hwhere
        exact .claims token m now row hx hrow hm hfresh hnow hfree
      · simp only [if_neg hfree]
        exact .stay
    · simp only [if_neg hwhere]
      exact .misses token m now hx

theorem insertFlow_move {purpose assertion : String}
    {expiresAt : Int} (hx : x = .begun (.claim purpose assertion expiresAt) now) : Move hash D i s x
      (insertFlow hash i s x (.claim purpose assertion expiresAt) purpose expiresAt now).1
      (insertFlow hash i s x (.claim purpose assertion expiresAt) purpose expiresAt now).2 := by
  unfold insertFlow
  by_cases hrow : s.flows (hash (Call.claim purpose assertion expiresAt).token) = none
  · rw [if_neg (not_not.2 hrow)]
    by_cases hfree : s.locks (hash (Call.claim purpose assertion expiresAt).token) = none
    · rw [if_pos hfree]
      exact .inserts (.claim purpose assertion expiresAt)
        { purpose, expiresAt, consumedAt := some now } ⟨now, hx⟩ ⟨purpose, assertion, rfl⟩
        (Option.some_ne_none _) hrow hfree
    · rw [if_neg hfree]
      exact .stay
  · rw [if_pos hrow]
    exact .refused .consumed fun r hr => by rw [hx] at hr; cases hr

theorem checkFlow_move {token : String} {m : AuthFlowMatch}
    {affected : Bool} (hx : x = .updated token m now affected) :
    Move hash D i s x (checkFlow hash i s token m now affected).1
      (checkFlow hash i s token m now affected).2 := by
  have hrefused : ∀ e, Move hash D i s x (finish s i (.error e)).1 (.done (.error e)) :=
    fun e => .refused e fun r hr => by rw [hx] at hr; cases hr
  unfold checkFlow
  cases hown : ownRow hash s token m now affected with
  | none => exact hrefused .invalid
  | some own =>
    obtain ⟨row, hfound, rfl⟩ := Option.map_eq_some_iff.1 hown
    obtain ⟨hrow, -⟩ := Option.filter_eq_some_iff.1 hfound
    cases affected with
    | false =>
      by_cases hused : row.consumedAt = none
      · by_cases hlate : row.expiresAt ≤ s.now
        · simp only [hused, hlate, Bool.false_eq_true, if_false, ne_eq, not_true_eq_false,
            and_false, if_true]
          exact hrefused .expired
        simp only [hused, hlate, Bool.false_eq_true, if_false, ne_eq, not_true_eq_false,
          and_false, if_true]
        exact hrefused .invalid
      simp only [hused, Bool.false_eq_true, if_false, ne_eq, not_false_eq_true, and_self,
        if_true]
      exact hrefused .consumed
    | true =>
      by_cases hlate : row.expiresAt ≤ s.now
      · simp only [hlate, Bool.true_eq_false, if_true, false_and, if_false]
        exact hrefused .expired
      · simp only [hlate, Bool.true_eq_false, if_true, false_and, if_false]
        exact .checks token m now row hx hrow (not_le.1 hlate)

variable {D : String → Row → Prop}

theorem deleteFlow_move {key : String}
    (hD : ∀ row, s.flows key = some row → now ≤ s.now → row.deleted now → D key row) :
    Move hash D i s x (deleteFlow s now key) x := by
  unfold deleteFlow
  cases hrow : s.flows key with
  | none => exact .stay
  | some row =>
    by_cases hdel : now ≤ s.now ∧ row.deleted now ∧ s.locks key = none
    · simp only [if_pos hdel]
      exact .deletes key row hrow (hD row hrow hdel.1 hdel.2.1) hdel.2.2
    · simp only [if_neg hdel]
      exact .stay

/-- **Every step is one of the moves.** -/
theorem step_move (D : String → Row → Prop) (a : Act)
    (hD : ∀ now key row, a = .delete now key → s.flows key = some row → now ≤ s.now →
      row.deleted now → D key row) :
    Move hash D i s x (step hash i s x a).1 (step hash i s x a).2 := by
  cases a with
  | call c =>
    cases x with
    | idle =>
      by_cases hc : c.trimmed.accepted s.now
      · have hstep : step hash i s .idle (.call c) = (s, .begun c.trimmed s.now) := if_pos hc
        rw [hstep]
        exact .begins _ rfl
      have hstep : step hash i s .idle (.call c) = (s, .done (.error .invalid)) := if_neg hc
      rw [hstep]
      exact .invalid rfl
    | _ => exact .stay
  | write =>
    cases x with
    | begun c now =>
      cases c with
      | consume token m => exact updateFlow_move D rfl
      | claim purpose assertion expiresAt => exact insertFlow_move D rfl
    | _ => exact .stay
  | first =>
    cases x with
    | updated token m now affected => exact checkFlow_move D rfl
    | _ => exact .stay
  | action ok =>
    cases x with
    | acting token m row lookedAt =>
      cases ok with
      | true => exact .acts token m row lookedAt rfl
      | false => exact .refused .failed fun r hr => by cases hr
    | _ => exact .stay
  | commit ok =>
    cases x with
    | ready c row lookedAt =>
      cases ok with
      | true => exact .commits c row lookedAt rfl
      | false => exact .refused .failed fun r hr => by cases hr
    | _ => exact .stay
  | fail =>
    cases x with
    | idle | done r => exact .stay
    | begun | updated | acting | ready => exact .refused .failed fun r hr => by cases hr
  | tick d => exact .ticks d
  | delete now key => exact deleteFlow_move fun row hrow => hD now key row rfl hrow

/-! ## Used once -/

/-- A commit consumed the flow `r`: it agreed with the fields that the match
    names, and was not yet consumed; it had not expired when the call started,
    nor when it looked again before the action. -/
def Commit.Consumed (c : Commit ι) (m : AuthFlowMatch) (r : Row) : Prop :=
  r.consumedAt = none ∧ m.agrees r ∧ c.lookedAt < r.expiresAt ∧
    ∃ now, now < r.expiresAt ∧ c.row = { r with consumedAt := some now }

/-- What holds of the table in every state; `flows₀` is the table at the start. -/
structure Kept (hash : String → String) (flows₀ : String → Option Row) (s : World ι) : Prop where
  fresh : ∀ h r, s.flows h = some r → r.consumedAt = none → flows₀ h = some r
  spent : ∀ c ∈ s.commits, ∀ r, s.flows (hash c.call.token) = some r → r.consumedAt ≠ none
  consumed : ∀ c ∈ s.commits, ∀ token m, c.call = .consume token m →
    ∃ r, flows₀ (hash token) = some r ∧ c.Consumed m r
  claimed : ∀ c ∈ s.commits, ∀ purpose assertion expiresAt,
    c.call = .claim purpose assertion expiresAt → c.row.expiresAt = expiresAt
  once : s.commits.Pairwise fun c c' => c.call.claims = false → c'.call.claims = false →
    hash c.call.token ≠ hash c'.call.token

/-- A transaction that has claimed a flow has it to itself. -/
def Claimed (hash : String → String) (s : World ι) (i : ι) (token : String) (m : AuthFlowMatch)
    (row : Row) (lookedAt : Int) : Prop :=
  s.locks (hash token) = some i ∧ ∃ r, s.flows (hash token) = some r ∧
    (Commit.mk i (.consume token m) row lookedAt).Consumed m r

/-- The assertion about transaction `i`. -/
def Ok (hash : String → String) (s : World ι) (i : ι) : Phase → Prop
  | .updated token m now true => s.locks (hash token) = some i ∧
      ∃ r, s.flows (hash token) = some r ∧ r.consumedAt = none ∧ m.agrees r ∧ now < r.expiresAt
  | .acting token m row lookedAt => Claimed hash s i token m row lookedAt
  | .ready (.consume token m) row lookedAt => Claimed hash s i token m row lookedAt
  | .ready (.claim purpose assertion expiresAt) row _ =>
    s.locks (hash (Call.claim purpose assertion expiresAt).token) = some i ∧
      s.flows (hash (Call.claim purpose assertion expiresAt).token) = none ∧
      row.expiresAt = expiresAt ∧ row.consumedAt ≠ none
  | _ => True

def Answered (s : World ι) (i : ι) (x : Phase) : Prop :=
  ∀ c ∈ s.commits, c.caller = i → x = .done (.ok c.row)

/-- What a step of another transaction leaves to `j`. -/
structure Leaves (hash : String → String) (j : ι) (s s' : World ι) : Prop where
  locks : ∀ h, s.locks h = some j → s'.locks h = some j ∧ s'.flows h = s.flows h
  commits : ∀ c ∈ s'.commits, c ∈ s.commits ∨
    c.caller ≠ j ∧ s.locks (hash c.call.token) ≠ some j

variable {j : ι} {s' : World ι}

theorem Leaves.ok {s : World ι} (h : Leaves hash j s s') {x : Phase}
    (hx : Ok hash s j x) : Ok hash s' j x := by
  have hclaimed : ∀ {token m row lookedAt}, Claimed hash s j token m row lookedAt →
      Claimed hash s' j token m row lookedAt := by
    rintro token m row lookedAt ⟨hlock, hrow⟩
    obtain ⟨hlock', hflow⟩ := h.locks _ hlock
    exact ⟨hlock', by rwa [hflow]⟩
  cases x with
  | idle => trivial
  | begun c now => trivial
  | updated token m now affected =>
    cases affected with
    | false => trivial
    | true =>
      obtain ⟨hlock, hrow⟩ := hx
      obtain ⟨hlock', hflow⟩ := h.locks _ hlock
      exact ⟨hlock', by rwa [hflow]⟩
  | acting token m row lookedAt => exact hclaimed hx
  | ready c row lookedAt =>
    cases c with
    | consume token m => exact hclaimed hx
    | claim purpose assertion expiresAt =>
      obtain ⟨hlock, hnone, hrow⟩ := hx
      obtain ⟨hlock', hflow⟩ := h.locks _ hlock
      exact ⟨hlock', by rwa [hflow], hrow⟩
  | done r => trivial

theorem Leaves.answered {s : World ι} (h : Leaves hash j s s') {x : Phase}
    (hx : Answered s j x) : Answered s' j x := by
  intro c hc hcaller
  rcases h.commits c hc with hold | ⟨hne, -⟩
  · exact hx c hold hcaller
  · exact absurd hcaller hne

theorem leaves_tick (hash : String → String) (j : ι) (s : World ι) (now : Int) :
    Leaves hash j s { s with now } :=
  ⟨fun _ hlock => ⟨hlock, rfl⟩, fun _ hc => .inl hc⟩

theorem leaves_delete (hash : String → String) (j : ι) {s : World ι} {key : String}
    (hfree : s.locks key = none) :
    Leaves hash j s { s with flows := Function.update s.flows key none } := by
  refine ⟨fun k hlock => ⟨hlock, update_of_ne ?_ _ _⟩, fun _ hc => .inl hc⟩
  rintro rfl
  rw [hfree] at hlock
  cases hlock

variable {c : Call} {row : Row} {lookedAt : Int}

theorem Ok.lock (h : Ok hash s i (.ready c row lookedAt)) : s.locks (hash c.token) = some i := by
  cases c with
  | consume token m | claim purpose assertion expiresAt => exact h.1

theorem finish_locks_of_ne {h : String} {r : Except Err Row} (hij : j ≠ i)
    (hj : s.locks h = some j) : (finish s i r).1.locks h = some j := by
  show (if s.locks h = some i then none else s.locks h) = some j
  rw [hj, if_neg fun heq => hij (Option.some.inj heq)]

theorem Move.leaves {x' : Phase} (h : Move hash D i s x s' x') (hx : Ok hash s i x) (hij : j ≠ i) :
    Leaves hash j s s' := by
  have hsame : ∀ locks, (∀ k, s.locks k = some j → locks k = some j) →
      Leaves hash j s { s with locks } :=
    fun locks hlocks => ⟨fun k hk => ⟨hlocks k hk, rfl⟩, fun c hc => .inl hc⟩
  have hupdate : ∀ key, s.locks key = none →
      Leaves hash j s { s with locks := Function.update s.locks key (some i) } := by
    intro key hfree
    refine hsame _ fun k hk => ?_
    rw [update_of_ne, hk]
    rintro rfl
    rw [hfree] at hk
    cases hk
  cases h with
  | stay | invalid hx | begins c hx | misses token m now hx | checks token m now row hx hrow hnow
  | acts token m row lookedAt hx => exact hsame s.locks fun k hk => hk
  | refused e hx => exact hsame _ fun k hk => finish_locks_of_ne (r := .error e) hij hk
  | claims token m now row hx hrow hm hfresh hnow hfree | inserts c row hx hc hused hnone hfree =>
    exact hupdate _ hfree
  | ticks d => exact leaves_tick hash j s _
  | commits c row lookedAt hx' =>
    subst hx'
    have hlock := hx.lock
    refine ⟨fun k hk => ⟨finish_locks_of_ne hij hk, ?_⟩, fun c' hc' => ?_⟩
    · refine update_of_ne ?_ _ _
      rintro rfl
      exact hij (Option.some.inj (hk.symm.trans hlock))
    rcases List.mem_cons.1 hc' with rfl | hold
    · refine .inr ⟨hij.symm, fun hj => ?_⟩
      exact hij (Option.some.inj (hj.symm.trans hlock))
    · exact .inl hold
  | deletes key row hrow hD hfree => exact leaves_delete hash j hfree

theorem Ok.used (h : Ok hash s i (.ready c row lookedAt)) : row.consumedAt ≠ none := by
  cases c with
  | consume token m =>
    obtain ⟨-, r, -, -, -, -, now, -, rfl⟩ := h
    exact Option.some_ne_none _
  | claim purpose assertion expiresAt => exact h.2.2.2

theorem Answered.of_not_done (h : Answered s i x) (hx : ∀ r, x ≠ .done r) (y : Phase) :
    Answered s i y :=
  fun c hc hcaller => absurd (h c hc hcaller) (hx _)

variable {flows₀ : String → Option Row}

theorem Kept.commits (h : Kept hash flows₀ s) (hok : Ok hash s i (.ready c row lookedAt)) :
    Kept hash flows₀ (finish { s with
      flows := Function.update s.flows (hash c.token) (some row)
      commits := ⟨i, c, row, lookedAt⟩ :: s.commits } i (.ok row)).1 := by
  -- the row under the key is consumed, the other rows are as they were
  have hflows : ∀ k r, Function.update s.flows (hash c.token) (some row) k = some r →
      r.consumedAt ≠ none ∨ s.flows k = some r := by
    intro k r hr
    by_cases hk : k = hash c.token
    · subst hk
      rw [update_self] at hr
      obtain rfl := Option.some.inj hr
      exact .inl hok.used
    · rw [update_of_ne hk] at hr
      exact .inr hr
  refine ⟨fun k r hr hfresh => ?_, fun c' hc' r hr => ?_, fun c' hc' token m hcall => ?_,
    fun c' hc' purpose assertion expiresAt hcall => ?_, List.pairwise_cons.2 ⟨?_, h.once⟩⟩
  · rcases hflows k r hr with hused | hold
    · exact absurd hfresh hused
    · exact h.fresh k r hold hfresh
  · rcases List.mem_cons.1 hc' with rfl | hold
    · have hself : Function.update s.flows (hash c.token) (some row) (hash c.token) = some r := hr
      rw [update_self] at hself
      obtain rfl := Option.some.inj hself
      exact hok.used
    rcases hflows _ r hr with hused | hr
    · exact hused
    · exact h.spent c' hold r hr
  · rcases List.mem_cons.1 hc' with rfl | hold
    · obtain rfl : c = .consume token m := hcall
      obtain ⟨-, r, hr, hconsumed⟩ := hok
      exact ⟨r, h.fresh _ r hr hconsumed.1, hconsumed⟩
    · exact h.consumed c' hold token m hcall
  · rcases List.mem_cons.1 hc' with rfl | hold
    · obtain rfl : c = .claim purpose assertion expiresAt := hcall
      exact hok.2.2.1
    · exact h.claimed c' hold purpose assertion expiresAt hcall
  intro c' hc' hconsume _ hkey
  cases c with
  | consume token m =>
    obtain ⟨-, r, hr, hfresh, -⟩ := hok
    refine h.spent c' hc' r ?_ hfresh
    rwa [← hkey]
  | claim purpose assertion expiresAt => cases hconsume

/-- **What transaction `i` does keeps the table and its own assertion.** -/
theorem Move.self
    {x' : Phase} (h : Move hash D i s x s' x') (hk : Kept hash flows₀ s) (hok : Ok hash s i x)
    (ha : Answered s i x) : Kept hash flows₀ s' ∧ Ok hash s' i x' ∧ Answered s' i x' := by
  cases h with
  | stay => exact ⟨hk, hok, ha⟩
  | refused e hx =>
    exact ⟨⟨hk.fresh, hk.spent, hk.consumed, hk.claimed, hk.once⟩, trivial,
      ha.of_not_done hx _⟩
  | invalid hx | begins c hx | misses token m now hx =>
    subst hx
    exact ⟨hk, trivial, ha.of_not_done (fun _ h => Phase.noConfusion h) _⟩
  | claims token m now row hx hrow hm hfresh hnow hfree =>
    subst hx
    refine ⟨⟨hk.fresh, hk.spent, hk.consumed, hk.claimed, hk.once⟩, ⟨?_, row, hrow, hfresh, hm,
      hnow⟩, ha.of_not_done (fun _ h => Phase.noConfusion h) _⟩
    exact update_self ..
  | inserts c row hx hc hused hnone hfree =>
    obtain ⟨now, rfl⟩ := hx
    obtain ⟨purpose, assertion, rfl⟩ := hc
    refine ⟨⟨hk.fresh, hk.spent, hk.consumed, hk.claimed, hk.once⟩, ⟨?_, hnone, rfl, hused⟩,
      ha.of_not_done (fun _ h => Phase.noConfusion h) _⟩
    exact update_self ..
  | checks token m now row hx hrow hnow =>
    subst hx
    obtain ⟨hlock, r, hr, hfresh, hm, hbefore⟩ := hok
    obtain rfl : row = r := Option.some.inj (hrow.symm.trans hr)
    exact ⟨hk, ⟨hlock, row, hr, hfresh, hm, hnow, now, hbefore, rfl⟩, ha.of_not_done (fun _ h => Phase.noConfusion h) _⟩
  | acts token m row lookedAt hx =>
    subst hx
    exact ⟨hk, hok, ha.of_not_done (fun _ h => Phase.noConfusion h) _⟩
  | commits c row lookedAt hx =>
    subst hx
    refine ⟨hk.commits hok, trivial, fun c' hc' hcaller => ?_⟩
    rcases List.mem_cons.1 hc' with rfl | hold
    · rfl
    · exact Phase.noConfusion (ha c' hold hcaller)
  | ticks d =>
    exact ⟨⟨hk.fresh, hk.spent, hk.consumed, hk.claimed, hk.once⟩,
      (leaves_tick hash i s _).ok hok, ha⟩
  | deletes key row hrow hD hfree =>
    have hleft : ∀ k r, Function.update s.flows key none k = some r → s.flows k = some r := by
      intro k r hr
      by_cases hkey : k = key
      · rw [hkey, update_self] at hr
        cases hr
      · rwa [update_of_ne hkey] at hr
    exact ⟨⟨fun k r hr => hk.fresh k r (hleft k r hr), fun c hc r hr =>
      hk.spent c hc r (hleft _ r hr), hk.consumed, hk.claimed, hk.once⟩,
      (leaves_delete hash i hfree).ok hok, ha⟩

def Inv (hash : String → String) (flows₀ : String → Option Row) : Workers (World ι) ι Phase → Prop :=
  Workers.Holds (Kept hash flows₀) fun s i x => Ok hash s i x ∧ Answered s i x

theorem Inv.move {w : Workers (World ι) ι Phase} (h : Inv hash flows₀ w) (i : ι) (a : Act)
    (hmove : Move hash D i w.shared (w.proc i) (step hash i w.shared (w.proc i) a).1
      (step hash i w.shared (w.proc i) a).2) : Inv hash flows₀ (w.step (step hash) (i, a)) := by
  obtain ⟨hok, ha⟩ := h.2 i
  refine h.step i a (hmove.self h.1 hok ha) fun j hij hj => ?_
  exact ⟨(hmove.leaves hok hij).ok hj.1, (hmove.leaves hok hij).answered hj.2⟩

def opened (ι : Type) (flows₀ : String → Option Row) (now : Int) : Workers (World ι) ι Phase :=
  ⟨{ flows := flows₀, now }, fun _ => .idle⟩

theorem inv_opened (flows₀ : String → Option Row) (now : Int) :
    Inv hash flows₀ (opened ι flows₀ now) :=
  have hnone : ∀ c ∈ (opened ι flows₀ now).shared.commits, False :=
    fun _ hc => List.not_mem_nil hc
  ⟨⟨fun _ _ hr _ => hr, fun c hc => (hnone c hc).elim, fun c hc => (hnone c hc).elim,
    fun c hc => (hnone c hc).elim, List.Pairwise.nil⟩,
    fun _ => ⟨trivial, fun c hc => (hnone c hc).elim⟩⟩

variable (hash)

theorem inv_run (flows₀ : String → Option Row) (now : Int) (as : List (ι × Act)) :
    Inv hash flows₀ (run (Workers.step (step hash)) (opened ι flows₀ now) as) :=
  run_invariant_all (Inv hash flows₀)
    (fun _ a h => h.move (D := fun _ _ => True) a.1 a.2 (step_move _ a.2 fun _ _ _ _ _ _ _ => trivial))
    as (inv_opened flows₀ now)

/-! ## Accepted once -/

def AcceptedOnce (s : World ι) : Prop :=
  s.commits.Pairwise fun later earlier => later.call.claims = true → earlier.call.claims = true →
    hash later.call.token = hash earlier.call.token → earlier.row.expiresAt ≤ later.lookedAt

def Standing (s : World ι) : Prop :=
  ∀ c ∈ s.commits, c.call.claims = true → c.row.expiresAt ≤ s.now ∨
    s.flows (hash c.call.token) = some c.row ∧ c.row.consumedAt ≠ none

/-- An assertion about to be accepted comes after those accepted under its key. -/
def After (s : World ι) : Phase → Prop
  | .ready (.claim purpose assertion expiresAt) _ lookedAt =>
    ∀ c ∈ s.commits, c.call.claims = true →
      hash c.call.token = hash (Call.claim purpose assertion expiresAt).token →
        c.row.expiresAt ≤ lookedAt
  | _ => True

def External (key : String) : Prop :=
  ∃ purpose assertion, key = hash ("external:" ++ purpose ++ ":" ++ assertion)

def Spares (w : Workers (World ι) ι Phase) : ι × Act → Prop
  | (_, .delete now key) => ∀ row, w.shared.flows key = some row → now ≤ w.shared.now →
      row.deleted now → External hash key → row.expiresAt ≤ w.shared.now
  | _ => True

variable {hash}

theorem Commit.external {c : Commit ι} (h : c.call.claims = true) :
    External hash (hash c.call.token) := by
  obtain ⟨caller, call, row, lookedAt⟩ := c
  cases call with
  | consume token m => cases h
  | claim purpose assertion expiresAt => exact ⟨purpose, assertion, rfl⟩

theorem Leaves.after (h : Leaves hash j s s') (hok : Ok hash s j x)
    (hx : After hash s x) : After hash s' x := by
  cases x with
  | ready c row lookedAt =>
    cases c with
    | consume token m => trivial
    | claim purpose assertion expiresAt =>
      intro c hc hclaims hkey
      rcases h.commits c hc with hold | ⟨-, hlock⟩
      · exact hx c hold hclaims hkey
      · rw [hkey] at hlock
        exact absurd hok.1 hlock
  | _ => trivial

theorem Standing.of_now (h : Standing hash s) (hflows : s'.flows = s.flows)
    (hcommits : s'.commits = s.commits) (hnow : s.now ≤ s'.now) : Standing hash s' := by
  intro c hc hclaims
  rw [hcommits] at hc
  rcases h c hc hclaims with hlate | hrow
  · exact .inl (hlate.trans hnow)
  · exact .inr (by rwa [hflows])

theorem Standing.commits (h : Standing hash s) (hok : Ok hash s i (.ready c row lookedAt)) :
    Standing hash (finish { s with
      flows := Function.update s.flows (hash c.token) (some row)
      commits := ⟨i, c, row, lookedAt⟩ :: s.commits } i (.ok row)).1 := by
  intro c' hc' hclaims
  rcases List.mem_cons.1 hc' with rfl | hold
  · exact .inr ⟨update_self .., hok.used⟩
  rcases h c' hold hclaims with hlate | ⟨hrow, hused⟩
  · exact .inl hlate
  refine .inr ⟨?_, hused⟩
  refine (update_of_ne ?_ _ _).trans hrow
  intro hkey
  rw [hkey] at hrow
  cases c with
  | consume token m =>
    obtain ⟨-, r, hr, hfresh, -⟩ := hok
    obtain rfl : c'.row = r := Option.some.inj (hrow.symm.trans hr)
    exact hused hfresh
  | claim purpose assertion expiresAt =>
    have hnone := hok.2.1
    rw [hnone] at hrow
    cases hrow

theorem AcceptedOnce.commits (h : AcceptedOnce hash s)
    (hafter : After hash s (.ready c row lookedAt)) : AcceptedOnce hash (finish { s with
      flows := Function.update s.flows (hash c.token) (some row)
      commits := ⟨i, c, row, lookedAt⟩ :: s.commits } i (.ok row)).1 := by
  refine List.pairwise_cons.2 ⟨fun c' hc' hclaims hclaims' hkey => ?_, h⟩
  cases c with
  | consume token m => cases hclaims
  | claim purpose assertion expiresAt => exact hafter c' hc' hclaims' hkey.symm

theorem Move.accepted {x' : Phase}
    (h : Move hash (fun key row => External hash key → row.expiresAt ≤ s.now) i s x s' x')
    (hok : Ok hash s i x) (hst : Standing hash s) (honce : AcceptedOnce hash s)
    (hafter : After hash s x) : Standing hash s' ∧ AcceptedOnce hash s' ∧ After hash s' x' := by
  have hsame : ∀ locks, Standing hash { s with locks } :=
    fun locks => hst.of_now rfl rfl le_rfl
  cases h with
  | stay => exact ⟨hst, honce, hafter⟩
  | refused e hx | claims token m now row hx hrow hm hfresh hnow hfree =>
    exact ⟨hsame _, honce, trivial⟩
  | invalid hx | begins c hx | misses token m now hx | checks token m now row hx hrow hnow
  | acts token m row lookedAt hx => exact ⟨hst, honce, trivial⟩
  | inserts c row hx hc hused hnone hfree =>
    obtain ⟨purpose, assertion, rfl⟩ := hc
    refine ⟨hsame _, honce, fun c hc hclaims hkey => ?_⟩
    rcases hst c hc hclaims with hlate | ⟨hrow, -⟩
    · exact hlate
    · rw [hkey, hnone] at hrow
      cases hrow
  | commits c row lookedAt hx =>
    subst hx
    exact ⟨hst.commits hok, honce.commits hafter, trivial⟩
  | ticks d =>
    refine ⟨hst.of_now rfl rfl ?_, honce, (leaves_tick hash i s _).after hok hafter⟩
    show s.now ≤ s.now + d
    omega
  | deletes key row hrow hD hfree =>
    refine ⟨fun c hc hclaims => ?_, honce, (leaves_delete hash i hfree).after hok hafter⟩
    rcases hst c hc hclaims with hlate | ⟨hstands, hused⟩
    · exact .inl hlate
    by_cases hkey : hash c.call.token = key
    · subst hkey
      obtain rfl : c.row = row := Option.some.inj (hstands.symm.trans hrow)
      exact .inl (hD (Commit.external hclaims))
    · exact .inr ⟨(update_of_ne hkey _ _).trans hstands, hused⟩

theorem spares_move {w : Workers (World ι) ι Phase} {i : ι} {a : Act} (h : Spares hash w (i, a)) :
    Move hash (fun key row => External hash key → row.expiresAt ≤ w.shared.now) i w.shared
      (w.proc i) (step hash i w.shared (w.proc i) a).1 (step hash i w.shared (w.proc i) a).2 := by
  refine step_move _ a fun now key row ha hrow hnow hdel => ?_
  subst ha
  exact h row hrow hnow hdel

theorem acceptedOnce_run (hash : String → String) (flows₀ : String → Option Row) (now : Int)
    (as : List (ι × Act))
    (h : Meets (Spares hash) (Workers.step (step hash)) (opened ι flows₀ now) as) :
    AcceptedOnce hash (run (Workers.step (step hash)) (opened ι flows₀ now) as).shared := by
  have hinv := run_invariant (fun w : Workers (World ι) ι Phase => Inv hash flows₀ w ∧
      Workers.Holds (fun s => Standing hash s ∧ AcceptedOnce hash s)
        (fun s _ x => After hash s x) w) (C := Spares hash)
    ?_ ⟨inv_opened flows₀ now, ⟨fun c hc => absurd hc List.not_mem_nil, List.Pairwise.nil⟩,
      fun _ => trivial⟩ h
  · exact hinv.2.1.2
  rintro w ⟨i, a⟩ ⟨hinv, hacc⟩ hspares
  have hmove := spares_move hspares
  refine ⟨hinv.move i a hmove, hacc.step i a ?_ fun j hij hj => ?_⟩
  · have hself := hmove.accepted (hinv.2 i).1 hacc.1.1 hacc.1.2 (hacc.2 i)
    exact ⟨⟨hself.1, hself.2.1⟩, hself.2.2⟩
  · exact (hmove.leaves (hinv.2 i).1 hij).after (hinv.2 j).1 hj

/-! ## The flows of all runs -/

/-- What the transactions have made of the flows that were there. -/
structure UsedOnce (hash : String → String) (flows₀ : String → Option Row)
    (w : Workers (World ι) ι Phase) : Prop where
  /-- no two commits consumed the same token's flow -/
  once : w.shared.commits.Pairwise fun c c' => c.call.claims = false → c'.call.claims = false →
    hash c.call.token ≠ hash c'.call.token
  /-- each consumed the token's flow, before its expiry and with a match that agrees -/
  consumed : ∀ c ∈ w.shared.commits, ∀ token m, c.call = .consume token m →
    ∃ r, flows₀ (hash token) = some r ∧ c.Consumed m r
  claimed : ∀ c ∈ w.shared.commits, ∀ purpose assertion expiresAt,
    c.call = .claim purpose assertion expiresAt → c.row.expiresAt = expiresAt
  /-- whoever has committed has answered with the row, and nobody else has -/
  answered : ∀ c ∈ w.shared.commits, w.proc c.caller = .done (.ok c.row)
  /-- when the action fails the flow is free, and as it was -/
  unconsumed : ∀ i token m row lookedAt, w.proc i = .acting token m row lookedAt →
    ∃ r, (w.step (step hash) (i, .action false)).shared.flows (hash token) = some r ∧
      r.consumedAt = none ∧ flows₀ (hash token) = some r ∧
      (w.step (step hash) (i, .action false)).shared.locks (hash token) = none

theorem Inv.usedOnce {w : Workers (World ι) ι Phase}
    (h : Inv hash flows₀ w) : UsedOnce hash flows₀ w where
  once := h.1.once
  consumed := h.1.consumed
  claimed := h.1.claimed
  answered c hc := (h.2 c.caller).2 c hc rfl
  unconsumed i token m row lookedAt hi := by
    have hok := (h.2 i).1
    rw [hi] at hok
    obtain ⟨hlock, r, hr, hfresh, -⟩ := hok
    have hstep : (w.step (step hash) (i, .action false)).shared =
        (finish w.shared i (.error .failed)).1 := by
      rw [Workers.step_shared, hi]
      rfl
    refine ⟨r, ?_, hfresh, h.1.fresh _ r hr hfresh, ?_⟩
    · rw [hstep]
      exact hr
    · rw [hstep]
      exact if_pos hlock

/-- **Flows are used once, and assertions as long as they are kept.** -/
theorem flows_used_once (hash : String → String) (flows₀ : String → Option Row) (now : Int)
    (as : List (ι × Act)) :
    UsedOnce hash flows₀ (run (Workers.step (step hash)) (opened ι flows₀ now) as) ∧
      (Meets (Spares hash) (Workers.step (step hash)) (opened ι flows₀ now) as →
        AcceptedOnce hash (run (Workers.step (step hash)) (opened ι flows₀ now) as).shared) :=
  ⟨(inv_run hash flows₀ now as).usedOnce, acceptedOnce_run hash flows₀ now as⟩

def hour : Int := 3600 * 1000000000

/-- The same assertion, good for three days, comes twice, with `hours` and a
    cleanup between. -/
def acceptedTwice (hours : Nat) : List (Bool × Act) :=
  [(false, .call (.claim "telegram_assertion" "signed" (72 * hour))), (false, .write),
    (false, .commit true),
    (true, .tick (hours * hour.toNat)),
    (true, .delete (hours * hour) "external:telegram_assertion:signed"),
    (true, .call (.claim "telegram_assertion" "signed" (72 * hour))), (true, .write),
    (true, .commit true)]

/-- A day later the row is still there. -/
theorem acceptedTwice_refused : AcceptedOnce id
    (run (Workers.step (step id)) (opened Bool (fun _ => none) 0) (acceptedTwice 24)).shared := by
  refine (flows_used_once id (fun _ => none) 0 (acceptedTwice 24)).2 ?_
  refine ⟨trivial, trivial, trivial, trivial, ?_, trivial, trivial, trivial, trivial⟩
  intro row hrow _ hdel
  have hkept : (run (Workers.step (step id)) (opened Bool (fun _ => none) 0)
      ((acceptedTwice 24).take 4)).shared.flows "external:telegram_assertion:signed" =
        some ⟨"telegram_assertion", "", "", 0, "", "", 72 * hour, some 0⟩ := by
    decide +kernel
  obtain rfl := Option.some.inj (hrow.symm.trans hkept)
  exact absurd hdel (by decide +kernel)

/-- **Accepted twice.**  An hour after that the cleanup has removed the row, and
    the assertion is accepted again, long before it expires. -/
theorem acceptedTwice_after_cleanup : ¬AcceptedOnce id
    (run (Workers.step (step id)) (opened Bool (fun _ => none) 0) (acceptedTwice 25)).shared := by
  intro h
  have hpairs : ((run (Workers.step (step id)) (opened Bool (fun _ => none) 0)
      (acceptedTwice 25)).shared.commits.map fun c => (c.call.claims, c.call.token,
        c.row.expiresAt, c.lookedAt)).Pairwise fun later earlier => later.1 = true →
          earlier.1 = true → later.2.1 = earlier.2.1 → earlier.2.2.1 ≤ later.2.2.2 :=
    List.pairwise_map.2 h
  exact absurd hpairs (by decide +kernel)

end NewApi.Auth.Flow
