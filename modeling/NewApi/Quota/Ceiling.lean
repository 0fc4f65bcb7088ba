/-
  NewApi.Quota.Ceiling

  The wallet ceiling: `users.quota` against `MaxWalletQuota`, over the paths
  that add to the column.

    * `creditTopUpQuota` — top-up callbacks, manual completion and quota codes:
      one conditional update;
    * `IncreaseUserQuota` in direct mode — refunds and settlements: one
      conditional update;
    * `IncreaseUserQuota` in batch mode — the amount is checked, the sum that
      builds up in the queue is not;
    * the flush of the batch updater — `quota = quota + ?`, with no condition.

  The updater is the one of `NewApi.Quota.Batch`, step by step.
-/

import NewApi.Quota.Conservation
import NewApi.Payment.Wallet

namespace NewApi.Quota.Ceiling

open NewApi.Lib Batch Billing Payment

inductive WalletErr where
  /-- `"quota 不能为负数！"` -/
  | negativeQuota
  /-- `"wallet quota exceeds …"` of `ValidateWalletQuota` -/
  | quotaTooLarge
  /-- `ErrWalletQuotaLimitExceeded` -/
  | walletQuotaLimitExceeded
  /-- the statement failed, or there is no such row -/
  | database
deriving DecidableEq

/-! ## The paths -/

variable (s : State)

/-- `increaseUserQuota`: increment and ceiling in one statement. -/
def increaseUserQuotaDB (id : Int) (quota : Int64) (fails : Bool) : Except WalletErr Unit × State :=
  if fails then (.error .database, s)
  else if s.db .userQuota id ≤ maxWalletQuota - quota.toInt then
    (.ok (), { s with db := s.db.add .userQuota id quota.toInt })
  else (.error .walletQuotaLimitExceeded, s)

variable (batchUpdateEnabled : Bool)

/-- `IncreaseUserQuota` under a value of `BatchUpdateEnabled`; `db` asks for the
    direct mode. -/
def increaseUserQuota (s : State) (id : Int) (quota : Int64)
    (db fails : Bool) : Except WalletErr Unit × State :=
  if quota.toInt < 0 then (.error .negativeQuota, s)
  else if maxWalletQuota < quota.toInt then (.error .quotaTooLarge, s)
  else if ¬ db ∧ batchUpdateEnabled then (.ok (), step s (.add .userQuota id quota))
  else increaseUserQuotaDB s id quota fails

/-- `DecreaseUserQuota`; reservations debit in the same two ways. -/
def decreaseUserQuota (s : State) (id : Int) (quota : Int64)
    (db fails : Bool) : Except WalletErr Unit × State :=
  if quota.toInt < 0 then (.error .negativeQuota, s)
  else if ¬ db ∧ batchUpdateEnabled then (.ok (), step s (.add .userQuota id (-quota)))
  else if fails then (.error .database, s)
  else (.ok (), { s with db := s.db.add .userQuota id (-quota.toInt) })

def walletUsers (db : Db) : Users := fun id => some { quota := db .userQuota id }

/-- `creditTopUpQuota` on the column. -/
def creditWallet (id creditedQuota : Int) : Except TopUpErr Unit × State :=
  match creditTopUpQuota (walletUsers s.db) id creditedQuota (fun user => user) with
  | .error e => (.error e, s)
  | .ok users =>
    (.ok (), { s with db := fun c u =>
      if c = .userQuota then balance users u else s.db c u })

inductive WalletAction where
  | credit (id creditedQuota : Int)
  | increase (id : Int) (quota : Int64) (db fails : Bool)
  | decrease (id : Int) (quota : Int64) (db fails : Bool)
  /-- a step of the batch updater, or a record another path queues -/
  | updater (a : Act)

def walletStep (s : State) : WalletAction → State
  | .credit id credited => (creditWallet s id credited).2
  | .increase id quota db fails => (increaseUserQuota batchUpdateEnabled s id quota db fails).2
  | .decrease id quota db fails => (decreaseUserQuota batchUpdateEnabled s id quota db fails).2
  | .updater a => step s a

/-! ## The ceiling, path by path -/

def UnderCeiling : Prop := ∀ id, s.db .userQuota id ≤ maxWalletQuota

/-- The `n`-th row update that the flush of `who` still has to make. -/
def nextJob (who : Flusher) (n : Nat) : Option Job :=
  match s.flush who with
  | some (.applying jobs) => jobs[n]?
  | _ => none

def JobFits (db : Db) : Job → Prop
  | .user id quota _ _ => db .userQuota id + quota.toInt ≤ maxWalletQuota
  | _ => True

def FlushFits : WalletAction → Prop
  | .updater (.row who n true) => ∀ job ∈ nextJob s who n, JobFits s.db job
  | _ => True

theorem UnderCeiling.congr {s s' : State} (h : UnderCeiling s)
    (hdb : ∀ id, s'.db .userQuota id = s.db .userQuota id) : UnderCeiling s' := by
  intro id
  rw [hdb id]
  exact h id

theorem UnderCeiling.add {s : State} (h : UnderCeiling s) {id value : Int}
    (hfits : s.db .userQuota id + value ≤ maxWalletQuota) :
    UnderCeiling { s with db := s.db.add .userQuota id value } := by
  intro id'
  by_cases hid : id' = id
  · subst hid
    simpa [Db.add] using hfits
  · simpa [Db.add, hid] using h id'

theorem UnderCeiling.credit {s : State} (h : UnderCeiling s) (id credited : Int) :
    UnderCeiling (creditWallet s id credited).2 := by
  unfold creditWallet
  cases hcredit : creditTopUpQuota (walletUsers s.db) id credited (fun user => user) with
  | error e => exact h
  | ok users =>
    obtain ⟨user, huser, -, hle, rfl⟩ := creditTopUpQuota_ok hcredit
    intro u
    by_cases hu : u = id
    · subst hu
      simpa [balance] using hle
    · simpa [balance, Function.update_of_ne hu, walletUsers] using h u

theorem UnderCeiling.increase {s : State} (h : UnderCeiling s) (enabled : Bool) (id : Int)
    (quota : Int64) (db fails : Bool) :
    UnderCeiling (increaseUserQuota enabled s id quota db fails).2 := by
  unfold increaseUserQuota
  split
  · exact h
  split
  · exact h
  split
  · exact h.congr fun _ => rfl
  unfold increaseUserQuotaDB
  split
  · exact h
  split
  · rename_i hle
    exact h.add (by omega)
  · exact h

theorem UnderCeiling.decrease {s : State} (h : UnderCeiling s) (enabled : Bool) (id : Int)
    (quota : Int64) (db fails : Bool) :
    UnderCeiling (decreaseUserQuota enabled s id quota db fails).2 := by
  unfold decreaseUserQuota
  split
  · exact h
  split
  · exact h.congr fun _ => rfl
  split
  · exact h
  · have := h id
    exact h.add (by omega)

theorem updater_writes (a : Act) : (∃ who n job, a = .row who n true ∧ nextJob s who n = some job ∧
      (step s a).db = job.write s.db) ∨
    ((step s a).db = s.db ∧ FlushFits s (.updater a)) := by
  cases a with
  | row who n ok =>
    have hstep : (step s (.row who n ok)).db =
        (nextJob s who n).elim s.db fun job => (s.update job ok).db := by
      simp only [step, nextJob]
      cases s.flush who with
      | none => rfl
      | some f =>
        cases f with
        | swapping todo stores h => rfl
        | applying jobs =>
          simp only
          cases jobs[n]? with
          | none => rfl
          | some job => exact setFlush_db _ _ _
    cases ok with
    | false =>
      refine .inr ⟨hstep.trans ?_, trivial⟩
      cases nextJob s who n with
      | none => rfl
      | some job => rfl
    | true =>
      cases hjob : nextJob s who n with
      | none =>
        rw [hjob] at hstep
        refine .inr ⟨hstep, fun job hmem => ?_⟩
        rw [hjob] at hmem
        cases hmem
      | some job =>
        rw [hjob] at hstep
        exact .inl ⟨who, n, job, rfl, hjob, hstep⟩
  | add t id value => exact .inr ⟨rfl, trivial⟩
  | swap who =>
    refine .inr ⟨?_, trivial⟩
    simp only [step]
    split
    · exact setFlush_db _ _ _
    · rfl
  | _ =>
    refine .inr ⟨?_, trivial⟩
    simp only [step]
    repeat' split
    all_goals rfl

theorem underCeiling_write_iff {s : State} (h : UnderCeiling s) (job : Job) :
    (∀ id, job.write s.db .userQuota id ≤ maxWalletQuota) ↔ JobFits s.db job := by
  have hwrite : ∀ id, job.write s.db .userQuota id =
      s.db .userQuota id + job.carries .userQuota id := write_column job s.db .userQuota
  cases job with
  | token id' quota | channel id' quota =>
    refine iff_of_true (fun id => ?_) trivial
    rw [hwrite id]
    simpa [Job.carries] using h id
  | user id' quota usedQuota requestCount =>
    constructor
    · intro hall
      have hid := hall id'
      rw [hwrite id'] at hid
      simpa [Job.carries, JobFits] using hid
    intro hfits id
    rw [hwrite id]
    by_cases hid : id' = id
    · subst hid
      simpa [Job.carries, JobFits] using hfits
    · simpa [Job.carries, hid] using h id

/-- **One step.**  The ceiling survives it if and only if a row update of a
    flush, where the step is one, fits. -/
theorem underCeiling_step_iff (enabled : Bool) (s : State) (a : WalletAction)
    (h : UnderCeiling s) : UnderCeiling (walletStep enabled s a) ↔ FlushFits s a := by
  cases a with
  | credit id credited => exact iff_of_true (h.credit id credited) trivial
  | increase id quota db fails => exact iff_of_true (h.increase enabled id quota db fails) trivial
  | decrease id quota db fails => exact iff_of_true (h.decrease enabled id quota db fails) trivial
  | updater a =>
    obtain ⟨who, n, job, rfl, hjob, hdb⟩ | ⟨hdb, hfits⟩ := updater_writes s a
    · have hceil : UnderCeiling (walletStep enabled s (.updater (.row who n true))) ↔
          ∀ id, job.write s.db .userQuota id ≤ maxWalletQuota := by
        rw [← hdb]
        rfl
      have hnext : FlushFits s (.updater (.row who n true)) ↔ JobFits s.db job := by
        show (∀ job ∈ nextJob s who n, JobFits s.db job) ↔ JobFits s.db job
        rw [hjob]
        simp
      rw [hceil, hnext]
      exact underCeiling_write_iff h job
    · exact iff_of_true (h.congr fun id => congrFun (congrFun hdb _) id) hfits

/-! ## Runs -/

/-- **The wallet ceiling.**  From balances under it, every persisted balance of
    the run stays under it if and only if every user row update of a flush
    carries a sum that fits. -/
theorem walletCeiling_iff (enabled : Bool) {s : State} (h : UnderCeiling s)
    (as : List WalletAction) : (∀ n, UnderCeiling (run (walletStep enabled) s (as.take n))) ↔
      Meets FlushFits (walletStep enabled) s as :=
  forall_take_iff_meets UnderCeiling (underCeiling_step_iff enabled) h as

def flushOnce : List WalletAction :=
  [.updater .tick, .updater (.swap .worker), .updater (.swap .worker), .updater (.swap .worker),
   .updater (.swap .worker), .updater (.swap .worker), .updater (.row .worker 0 true)]

def smallWallets : State := step (initial fun _ _ => 1000) .init

def fullWallets : State := step (initial fun _ _ => maxWalletQuota - 10) .init

def refundAndTopUp : List WalletAction :=
  [.increase 1 100 false false, .credit 1 50] ++ flushOnce

theorem walletCeiling_smallWallets : UnderCeiling smallWallets ∧
    (∀ n, UnderCeiling (run (walletStep true) smallWallets (refundAndTopUp.take n))) ∧
    (run (walletStep true) smallWallets refundAndTopUp).db .userQuota 1 = 1150 := by
  have h : UnderCeiling smallWallets := by
    intro id
    show (1000 : Int) ≤ maxWalletQuota
    decide
  have hfits : FlushFits (run (walletStep true) smallWallets (refundAndTopUp.take 8))
      (.updater (.row .worker 0 true)) := by
    have hjob : nextJob (run (walletStep true) smallWallets (refundAndTopUp.take 8)) .worker 0 =
        some (.user 1 100 0 0) := by decide +kernel
    intro job hmem
    rw [hjob] at hmem
    rw [← Option.some.inj hmem]
    show (_ : Int) ≤ _
    decide +kernel
  refine ⟨h, (walletCeiling_iff true h refundAndTopUp).2 ?_, by decide +kernel⟩
  exact ⟨trivial, trivial, trivial, trivial, trivial, trivial, trivial, trivial, hfits, trivial⟩

/-- A queued refund of 100 takes a balance 90 past the ceiling. -/
theorem queuedRefund_over_ceiling : UnderCeiling fullWallets ∧
    (increaseUserQuota true fullWallets 1 100 false false).1 = .ok () ∧
    (run (walletStep true) fullWallets (.increase 1 100 false false :: flushOnce)).db .userQuota 1 =
      maxWalletQuota + 90 := by
  refine ⟨fun id => ?_, by decide +kernel, by decide +kernel⟩
  show maxWalletQuota - 10 ≤ maxWalletQuota
  omega

end NewApi.Quota.Ceiling
