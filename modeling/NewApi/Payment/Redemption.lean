/-
  NewApi.Payment.Redemption

  `Redeem` (`model/redemption.go`) for one code, called by any number of users
  at once.

  A call is one transaction.  Its first statement locks the code's row, so a
  second call waits there until the first commits or rolls back; after that
  come the checks and the writes to the code and its usage records, then the
  reward, then the commit.  Every call is a worker with these as its steps, and
  steps of different calls interleave.  Writes are seen by others at the commit
  only.  A statement may fail at either of the two later steps; the reward may
  be refused as well (ceiling of the wallet, plan missing or taken down,
  purchase limit).

  A one-time code (`MaxUses = 0`) ends as `used`.  A code for several users
  counts its usage records and ends as `disabled`.
-/

import NewApi.Lib.Workers
import NewApi.Payment.Wallet
import NewApi.Subscription.Table

namespace NewApi.Payment

open NewApi.Lib Subscription Billing

/-! ## The code and its records -/

/-- `RedemptionCodeStatusEnabled` and the others. -/
inductive CodeStatus where
  | enabled
  | disabled
  | used
deriving DecidableEq

/-- The columns of `Redemption` that `Redeem` reads and writes. -/
structure Redemption where
  status : CodeStatus := .enabled
  quota : Int
  redeemedTime : Int := 0
  usedUserId : Int := 0
  expiredTime : Int := 0
  maxUses : Int := 0
  planId : Int := 0

structure RedemptionUsage where
  userId : Int
  quota : Int
  createdTime : Int

structure RedeemResult where
  quota : Int := 0
  planId : Int := 0
  planName : String := ""

/-- Why a redemption failed.  The caller sees `ErrRedeemFailed` for all but the
    first; the log has the reason. -/
inductive RedeemErr where
  /-- `"无效的 user id"` -/
  | invalidUser
  /-- `"该兑换码已被使用"` -/
  | alreadyUsed
  /-- `"该兑换码已过期"` -/
  | expired
  /-- `"兑换码关联的订阅套餐不存在"` -/
  | planMissing
  /-- `"该订阅套餐已下架"` -/
  | planDisabled
  | grant (e : GrantErr)
  | credit (e : TopUpErr)
  | database

/-- A redemption that was committed. -/
structure Success where
  userId : Int
  result : RedeemResult

/-- The committed tables, and the call that has the code's row locked.
    `successes` and `otherChanges` are histories: nothing reads them. -/
structure Shop where
  code : Redemption
  usages : List RedemptionUsage := []
  users : Users
  subs : Db
  holder : Option Nat := none
  successes : List Success := []
  otherChanges : Int → Int := fun _ => 0

/-- How far a call has come. -/
inductive Phase where
  | idle
  /-- in its transaction, before the lock -/
  | waiting (userId : Int)
  /-- the row is locked and read -/
  | holding (userId : Int) (redemption : Redemption)
  /-- the code and the usage record are written, not committed -/
  | marked (userId : Int) (redemption written : Redemption) (usage : Option RedemptionUsage)
  | done (answer : Except RedeemErr RedeemResult)

/-! ## The statements -/

/-- The writes to a one-time code: `enabled` to `used`, conditionally. -/
def markOnce (s : Shop) (userId : Int) : Except RedeemErr (Redemption × Option RedemptionUsage) :=
  if s.code.status = .enabled then
    .ok ({ s.code with status := .used, redeemedTime := s.subs.now, usedUserId := userId }, none)
  else .error .alreadyUsed

/-- The writes to a code for several users: counts, the conditional update, the
    usage record, and the status when the last use is taken. -/
def markUse (s : Shop) (userId : Int) (redemption : Redemption) :
    Except RedeemErr (Redemption × Option RedemptionUsage) :=
  let used : Int := s.usages.length
  let userUsed := (s.usages.filter fun r => r.userId = userId).length
  let remaining := redemption.maxUses - used
  if 0 < userUsed then .error .alreadyUsed
  else if remaining ≤ 0 then .error .alreadyUsed
  else if s.code.status = .enabled ∧ 0 < s.code.maxUses - used then
    let written := { s.code with redeemedTime := s.subs.now, usedUserId := userId }
    .ok (if remaining = 1 then { written with status := .disabled } else written,
      some ⟨userId, redemption.quota, s.subs.now⟩)
  else .error .alreadyUsed

/-- Checks and writes after the lock. -/
def markCode (s : Shop) (userId : Int) (redemption : Redemption) :
    Except RedeemErr (Redemption × Option RedemptionUsage) :=
  if redemption.status ≠ .enabled then .error .alreadyUsed
  else if redemption.expiredTime ≠ 0 ∧ redemption.expiredTime < s.subs.now then .error .expired
  else if redemption.maxUses ≤ 0 then markOnce s userId
  else markUse s userId redemption

variable (cal : Calendar)

/-- The reward of a subscription code. -/
def grantPlan (db : Db) (userId planId : Int) : Except RedeemErr RedeemResult × Db :=
  match db.plans.getSubscriptionPlanById planId with
  | (none, ps) => (.error .planMissing, { db with plans := ps })
  | (some plan, ps) =>
    let db := { db with plans := ps }
    if ¬ plan.enabled then (.error .planDisabled, db)
    else match createUserSubscriptionFromPlanTx cal db userId plan with
    | (.error e, _) => (.error (.grant e), db)
    | (.ok _, db') => (.ok { planId := plan.id, planName := plan.title }, db')

/-- The reward: a subscription, or quota. -/
def giveReward (s : Shop) (userId : Int) (redemption : Redemption) :
    Except RedeemErr RedeemResult × Users × Db :=
  if 0 < redemption.planId then
    let out := grantPlan cal s.subs userId redemption.planId
    (out.1, s.users, out.2)
  else match creditTopUpQuota s.users userId redemption.quota (fun user => user) with
  | .error e => (.error (.credit e), s.users, s.subs)
  | .ok users => (.ok { quota := redemption.quota }, users, s.subs)

inductive RedeemAction where
  | call (userId : Int)
  | lock
  | mark (fails : Bool)
  | reward (fails : Bool)
  /-- any other change of a balance -/
  | otherChange (userId delta : Int)
  /-- any other call on subscriptions and plans, and the passing of time -/
  | otherSubs (db : Db)

def rollback (s : Shop) (e : RedeemErr) : Shop × Phase := ({ s with holder := none }, .done (.error e))

/-- One step of call `i` of `Redeem`. -/
def redeemStep (i : Nat) (s : Shop) (phase : Phase) : RedeemAction → Shop × Phase
  | .call userId =>
    match phase with
    | .idle => if userId = 0 then (s, .done (.error .invalidUser)) else (s, .waiting userId)
    | _ => (s, phase)
  | .lock =>
    match phase, s.holder with
    | .waiting userId, none => ({ s with holder := some i }, .holding userId s.code)
    | _, _ => (s, phase)
  | .mark fails =>
    match phase with
    | .holding userId redemption =>
      if fails then rollback s .database
      else match markCode s userId redemption with
      | .error e => rollback s e
      | .ok (written, usage) => (s, .marked userId redemption written usage)
    | _ => (s, phase)
  | .reward fails =>
    match phase with
    | .marked userId redemption written usage =>
      if fails then rollback s .database
      else match giveReward cal s userId redemption with
      | (.error e, _, subs) => rollback { s with subs } e
      | (.ok result, users, subs) =>
        ({ s with
            code := written, usages := s.usages ++ usage.toList, users, subs, holder := none,
            successes := s.successes ++ [⟨userId, result⟩] },
          .done (.ok result))
    | _ => (s, phase)
  | .otherChange u delta =>
    match s.users u with
    | none => (s, phase)
    | some user =>
      ({ s with
          users := Function.update s.users u (some { user with quota := user.quota + delta })
          otherChanges := Function.update s.otherChanges u (s.otherChanges u + delta) }, phase)
  | .otherSubs db => ({ s with subs := db }, phase)

/-! ## Limits -/

variable (c : Redemption)

def useLimit : Int := if c.maxUses ≤ 0 then 1 else c.maxUses

def exhausted : CodeStatus := if c.maxUses ≤ 0 then .used else .disabled

def rewardQuota : Int := if 0 < c.planId then 0 else c.quota

def redeemers (s : Shop) : List Int := s.successes.map Success.userId

/-- What holds of the committed tables, the code having been issued as `c`. -/
structure Counted (c : Redemption) (users₀ : Users) (s : Shop) : Prop where
  maxUses : s.code.maxUses = c.maxUses
  quota : s.code.quota = c.quota
  planId : s.code.planId = c.planId
  once : (redeemers s).Nodup
  within : (s.successes.length : Int) ≤ useLimit c
  status : s.code.status =
    if (s.successes.length : Int) = useLimit c then exhausted c else .enabled
  records : 0 < c.maxUses → s.usages.map RedemptionUsage.userId = redeemers s
  balances : ∀ u, balance s.users u = balance users₀ u + s.otherChanges u +
    if u ∈ redeemers s then rewardQuota c else 0

/-- What the uncommitted writes of a call for `userId` are. -/
structure Marks (c : Redemption) (s : Shop) (userId : Int) (written : Redemption)
    (usage : Option RedemptionUsage) : Prop where
  new : userId ∉ redeemers s
  room : (s.successes.length : Int) < useLimit c
  code : ∃ t, written = { s.code with
    status := if (s.successes.length : Int) + 1 = useLimit c then exhausted c else .enabled
    redeemedTime := t
    usedUserId := userId }
  usage : 0 < c.maxUses → ∃ r, usage = some r ∧ r.userId = userId

/-- The assertion about call `i`: from the lock on, the row is as it was read. -/
def CallOk (s : Shop) (i : Nat) : Phase → Prop
  | .holding _ redemption => s.holder = some i ∧ redemption = s.code
  | .marked userId redemption written usage =>
    s.holder = some i ∧ redemption = s.code ∧ Marks c s userId written usage
  | _ => True

variable {c : Redemption} {users₀ : Users} {s : Shop}

section
variable (h : Counted c users₀ s)
include h

theorem Counted.enabled_room (hen : s.code.status = .enabled) :
    (s.successes.length : Int) < useLimit c := by
  have hle := h.within
  have hne : (s.successes.length : Int) ≠ useLimit c := by
    intro heq
    have hst := h.status
    rw [if_pos heq, hen, exhausted] at hst
    split at hst
    · cases hst
    · cases hst
  omega

theorem markCode_marks {userId : Int} {written : Redemption} {usage : Option RedemptionUsage}
    (hmark : markCode s userId s.code = .ok (written, usage)) : Marks c s userId written usage := by
  unfold markCode at hmark
  split_ifs at hmark with hen hexp hmax
  · -- a one-time code: nobody has redeemed it yet
    rw [h.maxUses] at hmax
    have hroom := h.enabled_room (not_not.1 hen)
    have hlimit : useLimit c = 1 := if_pos hmax
    have hzero : s.successes = [] := by
      rw [hlimit] at hroom
      exact List.eq_nil_of_length_eq_zero (by omega)
    rw [markOnce, if_pos (not_not.1 hen)] at hmark
    obtain ⟨rfl, rfl⟩ := Prod.mk.inj (Except.ok.inj hmark)
    refine ⟨?_, hroom, ⟨s.subs.now, ?_⟩, fun hpos => by omega⟩
    · simp [redeemers, hzero]
    · simp [hlimit, hzero, exhausted, hmax]
  -- a code for several users
  have hpos : 0 < c.maxUses := by
    rw [← h.maxUses]
    omega
  have hlimit : useLimit c = c.maxUses := if_neg (by omega)
  have hlen : (s.usages.length : Int) = s.successes.length := by
    have := congrArg List.length (h.records hpos)
    simp only [redeemers, List.length_map] at this
    omega
  unfold markUse at hmark
  simp only at hmark
  split_ifs at hmark with huser hrem hcas hlast
  all_goals obtain ⟨rfl, rfl⟩ := Prod.mk.inj (Except.ok.inj hmark)
  all_goals
    have hnew : userId ∉ redeemers s := by
      intro hmem
      rw [← h.records hpos] at hmem
      obtain ⟨r, hr, hru⟩ := List.mem_map.1 hmem
      refine huser (List.length_pos_of_mem (List.mem_filter.2 ⟨hr, decide_eq_true hru⟩))
    have hmaxEq := h.maxUses
    have hroom : (s.successes.length : Int) < useLimit c := by omega
  · refine ⟨hnew, hroom, ⟨s.subs.now, ?_⟩, fun _ => ⟨_, rfl, rfl⟩⟩
    have hfull : (s.successes.length : Int) + 1 = useLimit c := by omega
    have hex : exhausted c = .disabled := if_neg (by omega)
    rw [if_pos hfull, hex]
  refine ⟨hnew, hroom, ⟨s.subs.now, ?_⟩, fun _ => ⟨_, rfl, rfl⟩⟩
  have hmore : ¬ (s.successes.length : Int) + 1 = useLimit c := by omega
  rw [if_neg hmore, ← hcas.1]

omit h in
/-- **The reward, by outcome.** -/
theorem giveReward_cases (s : Shop) (userId : Int) (r : Redemption) :
    (∃ e db, giveReward cal s userId r = (.error e, s.users, db) ∧
      db.rows = s.subs.rows ∧ db.groups = s.subs.groups) ∨
    (∃ result users db, giveReward cal s userId r = (.ok result, users, db) ∧
      ∀ u, balance users u = balance s.users u + if userId = u then rewardQuota r else 0) := by
  unfold giveReward rewardQuota
  by_cases hplan : 0 < r.planId
  · rw [if_pos hplan, if_pos hplan]
    unfold grantPlan
    rcases hload : s.subs.plans.getSubscriptionPlanById r.planId with ⟨plan | _, ps⟩
    · exact .inl ⟨_, _, rfl, rfl, rfl⟩
    rename_i plan
    simp only
    split
    · exact .inl ⟨_, _, rfl, rfl, rfl⟩
    rcases hcreate : createUserSubscriptionFromPlanTx cal { s.subs with plans := ps } userId
      plan with ⟨e | row, db⟩
    · exact .inl ⟨_, _, rfl, rfl, rfl⟩
    · exact .inr ⟨_, _, _, rfl, fun u => by simp⟩
  rw [if_neg hplan, if_neg hplan]
  cases hcredit : creditTopUpQuota s.users userId r.quota (fun user => user) with
  | error e => exact .inl ⟨_, _, rfl, rfl, rfl⟩
  | ok users => exact .inr ⟨_, _, _, rfl, balance_creditTopUpQuota hcredit⟩

theorem Counted.commit
    {userId : Int} {written : Redemption} {usage : Option RedemptionUsage}
    (hmarks : Marks c s userId written usage) (result : RedeemResult) {users : Users}
    (hbal : ∀ u, balance users u =
      balance s.users u + if userId = u then rewardQuota s.code else 0) (subs : Db) :
    Counted c users₀
      { s with
        code := written, usages := s.usages ++ usage.toList, users, subs, holder := none,
        successes := s.successes ++ [⟨userId, result⟩] } := by
  obtain ⟨t, rfl⟩ := hmarks.code
  have hroom := hmarks.room
  have hnew := hmarks.new
  have hmem : ∀ u, u ∈ (s.successes ++ [(⟨userId, result⟩ : Success)]).map Success.userId ↔
      u ∈ redeemers s ∨ u = userId := by
    intro u
    simp [redeemers]
  have hlen : ((s.successes ++ [(⟨userId, result⟩ : Success)]).length : Int) =
      s.successes.length + 1 := by
    simp
  refine ⟨h.maxUses, h.quota, h.planId, ?_, ?_, ?_, ?_, ?_⟩
  · show ((s.successes ++ [(⟨userId, result⟩ : Success)]).map Success.userId).Nodup
    rw [List.map_append]
    exact List.Nodup.append h.once (List.nodup_singleton _)
      (List.disjoint_singleton.2 hnew)
  · show ((s.successes ++ [(⟨userId, result⟩ : Success)]).length : Int) ≤ useLimit c
    omega
  · rw [hlen]
  · intro hpos
    obtain ⟨r, rfl, hru⟩ := hmarks.usage hpos
    rw [List.map_append, h.records hpos]
    simp [redeemers, hru]
  intro u
  have hquota : rewardQuota s.code = rewardQuota c := by
    rw [rewardQuota, rewardQuota, h.quota, h.planId]
  show balance users u = balance users₀ u + s.otherChanges u +
    if u ∈ (s.successes ++ [(⟨userId, result⟩ : Success)]).map Success.userId
    then rewardQuota c else 0
  rw [hbal u, h.balances u, hquota]
  by_cases hu : userId = u
  · subst hu
    rw [if_neg hnew, if_pos rfl, if_pos ((hmem userId).2 (.inr rfl))]
    omega
  rw [if_neg hu, add_zero]
  refine congrArg _ (if_congr ?_ rfl rfl)
  rw [hmem u]
  exact ⟨.inl, fun hor => hor.resolve_right fun heq => hu heq.symm⟩

theorem Counted.congr {s' : Shop} (hcode : s'.code = s.code) (husages : s'.usages = s.usages)
    (hsucc : s'.successes = s.successes) (husers : s'.users = s.users)
    (hothers : s'.otherChanges = s.otherChanges) : Counted c users₀ s' := by
  obtain ⟨h1, h2, h3, h4, h5, h6, h7, h8⟩ := h
  refine ⟨?_, ?_, ?_, ?_, ?_, ?_, ?_, ?_⟩ <;>
    simp only [redeemers, hcode, husages, hsucc, husers, hothers] <;> assumption

theorem Counted.otherChange {u : Int} {user : User} (huser : s.users u = some user) (delta : Int) :
    Counted c users₀
      { s with
        users := Function.update s.users u (some { user with quota := user.quota + delta })
        otherChanges := Function.update s.otherChanges u (s.otherChanges u + delta) } := by
  refine ⟨h.maxUses, h.quota, h.planId, h.once, h.within, h.status, h.records, fun v => ?_⟩
  have hold := h.balances v
  by_cases hv : v = u
  · subst hv
    simp only [balance, huser] at hold
    show balance (Function.update s.users v _) v = balance users₀ v +
      Function.update s.otherChanges v _ v + if v ∈ redeemers s then rewardQuota c else 0
    simp only [balance, Function.update_self] at hold ⊢
    omega
  show balance (Function.update s.users u _) v = balance users₀ v +
    Function.update s.otherChanges u _ v + if v ∈ redeemers s then rewardQuota c else 0
  simpa [balance, Function.update_of_ne hv] using hold

end

variable {i : Nat} {phase : Phase}

theorem redeemStep_others (cal : Calendar) (hi : CallOk c s i phase) (a : RedeemAction) :
    let out := redeemStep cal i s phase a
    (out.1.code = s.code ∧ out.1.successes = s.successes ∧ out.1.holder = s.holder) ∨
      s.holder = none ∨ s.holder = some i := by
  cases a with
  | call userId =>
    left
    simp only [redeemStep]
    split
    · split
      · exact ⟨rfl, rfl, rfl⟩
      · exact ⟨rfl, rfl, rfl⟩
    · exact ⟨rfl, rfl, rfl⟩
  | lock =>
    simp only [redeemStep]
    split
    · rename_i hfree
      exact .inr (.inl hfree)
    · exact .inl ⟨rfl, rfl, rfl⟩
  | mark fails =>
    cases phase with
    | holding userId redemption => exact .inr (.inr hi.1)
    | _ => exact .inl ⟨rfl, rfl, rfl⟩
  | reward fails =>
    cases phase with
    | marked userId redemption written usage => exact .inr (.inr hi.1)
    | _ => exact .inl ⟨rfl, rfl, rfl⟩
  | otherChange u delta =>
    left
    simp only [redeemStep]
    split
    · exact ⟨rfl, rfl, rfl⟩
    · exact ⟨rfl, rfl, rfl⟩
  | otherSubs db => exact .inl ⟨rfl, rfl, rfl⟩

theorem CallOk.congr {s' : Shop}
    (h : CallOk c s i phase) (hcode : s'.code = s.code) (hsucc : s'.successes = s.successes)
    (hholder : s'.holder = s.holder) : CallOk c s' i phase := by
  cases phase with
  | holding userId redemption => exact ⟨hholder.trans h.1, h.2.trans hcode.symm⟩
  | marked userId redemption written usage =>
    obtain ⟨hh, hread, h1, h2, h3, h4⟩ := h
    refine ⟨hholder.trans hh, hread.trans hcode.symm, ?_, ?_, ?_, h4⟩ <;>
      simp only [redeemers, hcode, hsucc] <;> assumption
  | _ => trivial

theorem CallOk.other {j : Nat}
    (hi : CallOk c s i phase) (a : RedeemAction) {phase' : Phase} (hij : j ≠ i)
    (hj : CallOk c s j phase') : CallOk c (redeemStep cal i s phase a).1 j phase' := by
  have hfree : s.holder = some j → ¬ (s.holder = none ∨ s.holder = some i) := by
    rintro hh (h | h)
    · rw [h] at hh
      cases hh
    · exact hij (Option.some.inj (hh.symm.trans h))
  have hkeep : s.holder = some j → CallOk c (redeemStep cal i s phase a).1 j phase' := by
    intro hh
    obtain ⟨hcode, hsucc, hholder⟩ := (redeemStep_others cal hi a).resolve_right (hfree hh)
    exact hj.congr hcode hsucc hholder
  cases phase' with
  | holding userId redemption | marked userId redemption written usage => exact hkeep hj.1
  | _ => trivial

theorem redeemStep_self (h : Counted c users₀ s) (hi : CallOk c s i phase) (a : RedeemAction) :
    Counted c users₀ (redeemStep cal i s phase a).1 ∧
      CallOk c (redeemStep cal i s phase a).1 i (redeemStep cal i s phase a).2 := by
  cases a with
  | call userId =>
    simp only [redeemStep]
    split
    · split
      · exact ⟨h, trivial⟩
      · exact ⟨h, trivial⟩
    · exact ⟨h, hi⟩
  | lock =>
    simp only [redeemStep]
    split
    · exact ⟨h.congr rfl rfl rfl rfl rfl, rfl, rfl⟩
    · exact ⟨h, hi⟩
  | mark fails =>
    cases phase with
    | holding userId redemption =>
      obtain ⟨hh, rfl⟩ := hi
      simp only [redeemStep]
      split
      · exact ⟨h.congr rfl rfl rfl rfl rfl, trivial⟩
      cases hmark : markCode s userId s.code with
      | error e => exact ⟨h.congr rfl rfl rfl rfl rfl, trivial⟩
      | ok out => exact ⟨h, hh, rfl, markCode_marks h hmark⟩
    | _ => exact ⟨h, hi⟩
  | reward fails =>
    cases phase with
    | marked userId redemption written usage =>
      obtain ⟨-, rfl, hmarks⟩ := hi
      simp only [redeemStep]
      split
      · exact ⟨h.congr rfl rfl rfl rfl rfl, trivial⟩
      obtain ⟨e, db, heq, -, -⟩ | ⟨result, users, db, heq, hbal⟩ :=
        giveReward_cases cal s userId s.code
      · rw [heq]
        exact ⟨h.congr rfl rfl rfl rfl rfl, trivial⟩
      · rw [heq]
        exact ⟨h.commit hmarks result hbal db, trivial⟩
    | _ => exact ⟨h, hi⟩
  | otherChange u delta =>
    simp only [redeemStep]
    cases huser : s.users u with
    | none => exact ⟨h, hi⟩
    | some user => exact ⟨h.otherChange huser delta, hi.congr rfl rfl rfl⟩
  | otherSubs db => exact ⟨h.congr rfl rfl rfl rfl rfl, hi.congr rfl rfl rfl⟩

/-! ## Runs -/

def redeemRun (s : Shop) (as : List (Nat × RedeemAction)) : Workers Shop Nat Phase :=
  run (Workers.step (redeemStep cal)) ⟨s, fun _ => .idle⟩ as

/-- A code that was just issued. -/
structure Issued (s : Shop) : Prop where
  enabled : s.code.status = .enabled
  unused : s.usages = []
  fresh : s.successes = []
  unchanged : ∀ u, s.otherChanges u = 0

theorem Issued.counted (h : Issued s) : Counted s.code s.users s := by
  have hlimit : (0 : Int) < useLimit s.code := by
    unfold useLimit
    split <;> omega
  have hnone : redeemers s = [] := by rw [redeemers, h.fresh]; rfl
  have hlen : (s.successes.length : Int) = 0 := by rw [h.fresh]; rfl
  refine ⟨rfl, rfl, rfl, ?_, by omega, ?_, fun _ => ?_, fun u => ?_⟩
  · rw [hnone]
    exact List.nodup_nil
  · rw [h.enabled, hlen, if_neg (by omega)]
  · rw [h.unused, hnone]
    rfl
  · rw [hnone, h.unchanged u, if_neg List.not_mem_nil]
    omega

/-- Code, usage records, balances and subscriptions are as before, but for what
    happens outside `Redeem`. -/
def Untouched (s s' : Shop) (a : RedeemAction) : Prop :=
  s'.code = s.code ∧ s'.usages = s.usages ∧ s'.successes = s.successes ∧
  (s'.users = s.users ∨ ∃ u delta, a = .otherChange u delta) ∧
  ((s'.subs.rows = s.subs.rows ∧ s'.subs.groups = s.subs.groups) ∨ ∃ db, a = .otherSubs db)

theorem Untouched.same {s' : Shop} {a : RedeemAction} (hcode : s'.code = s.code)
    (husages : s'.usages = s.usages) (hsucc : s'.successes = s.successes)
    (husers : s'.users = s.users) (hrows : s'.subs.rows = s.subs.rows)
    (hgroups : s'.subs.groups = s.subs.groups) : Untouched s s' a :=
  ⟨hcode, husages, hsucc, .inl husers, .inl ⟨hrows, hgroups⟩⟩

theorem redeemStep_untouched (i : Nat) (s : Shop) (phase : Phase) (a : RedeemAction) :
    (∃ userId redemption written usage result,
      phase = .marked userId redemption written usage ∧
        (redeemStep cal i s phase a).2 = .done (.ok result)) ∨
      Untouched s (redeemStep cal i s phase a).1 a := by
  cases a with
  | call userId =>
    right
    simp only [redeemStep]
    split
    · split
      · exact Untouched.same rfl rfl rfl rfl rfl rfl
      · exact Untouched.same rfl rfl rfl rfl rfl rfl
    · exact Untouched.same rfl rfl rfl rfl rfl rfl
  | lock =>
    right
    simp only [redeemStep]
    split
    · exact Untouched.same rfl rfl rfl rfl rfl rfl
    · exact Untouched.same rfl rfl rfl rfl rfl rfl
  | mark fails =>
    right
    cases phase with
    | holding userId redemption =>
      simp only [redeemStep]
      split
      · exact Untouched.same rfl rfl rfl rfl rfl rfl
      cases markCode s userId redemption with
      | error e | ok out => exact Untouched.same rfl rfl rfl rfl rfl rfl
    | _ => exact Untouched.same rfl rfl rfl rfl rfl rfl
  | reward fails =>
    cases phase with
    | marked userId redemption written usage =>
      simp only [redeemStep]
      split
      · exact .inr (Untouched.same rfl rfl rfl rfl rfl rfl)
      obtain ⟨e, db, heq, hrows, hgroups⟩ | ⟨result, users, db, heq, -⟩ :=
        giveReward_cases cal s userId redemption
      · rw [heq]
        exact .inr (Untouched.same rfl rfl rfl rfl hrows hgroups)
      · rw [heq]
        exact .inl ⟨userId, redemption, written, usage, result, rfl, rfl⟩
    | _ => exact .inr (Untouched.same rfl rfl rfl rfl rfl rfl)
  | otherChange u delta =>
    right
    simp only [redeemStep]
    split
    · exact Untouched.same rfl rfl rfl rfl rfl rfl
    · exact ⟨rfl, rfl, rfl, .inr ⟨u, delta, rfl⟩, .inl ⟨rfl, rfl⟩⟩
  | otherSubs db => exact .inr ⟨rfl, rfl, rfl, .inl rfl, .inr ⟨db, rfl⟩⟩

theorem redeemRun_holds (h : Issued s) (as : List (Nat × RedeemAction)) :
    (redeemRun cal s as).Holds (Counted s.code s.users) (CallOk s.code) := by
  refine Workers.Holds.run (C := fun _ _ => True) ?_ ?_ ⟨h.counted, fun _ => trivial⟩ ?_
  · intro w i a hw _
    exact redeemStep_self cal hw.1 (hw.2 i) a
  · intro w i a hw _ j hij hj
    exact CallOk.other cal (hw.2 i) a hij hj
  · exact meets_of_invariant (fun _ => True) (fun _ _ _ => trivial) (fun _ _ _ => trivial)
      trivial as

/-- **Redemption limits.**  In every interleaving of calls: each user at most
    once, never more users than the limit, and the status leaves `enabled` with
    the last of them; balances move by one reward for each of those users; and
    a step that is not the commit of a successful call changes nothing. -/
theorem redeem_limits (cal : Calendar) {s : Shop} (h : Issued s) (as : List (Nat × RedeemAction)) :
    ((redeemers (redeemRun cal s as).shared).Nodup ∧
      ((redeemRun cal s as).shared.successes.length : Int) ≤ useLimit s.code ∧
      (redeemRun cal s as).shared.code.status =
        (if ((redeemRun cal s as).shared.successes.length : Int) = useLimit s.code
          then exhausted s.code else .enabled) ∧
      ∀ u, balance (redeemRun cal s as).shared.users u =
        balance s.users u + (redeemRun cal s as).shared.otherChanges u +
          if u ∈ redeemers (redeemRun cal s as).shared then rewardQuota s.code else 0) ∧
    ∀ i a,
      (∃ userId redemption written usage result,
        (redeemRun cal s as).proc i = .marked userId redemption written usage ∧
          (redeemRun cal s (as ++ [(i, a)])).proc i = .done (.ok result)) ∨
        Untouched (redeemRun cal s as).shared (redeemRun cal s (as ++ [(i, a)])).shared a := by
  have hinv := (redeemRun_holds cal h as).1
  refine ⟨⟨hinv.once, hinv.within, hinv.status, hinv.balances⟩, fun i a => ?_⟩
  have hstep : redeemRun cal s (as ++ [(i, a)]) =
      Workers.step (redeemStep cal) (redeemRun cal s as) (i, a) := by
    rw [redeemRun, run_append]
    rfl
  rw [hstep, Workers.step_proc_self, Workers.step_shared]
  exact redeemStep_untouched cal i _ _ a

/-- A shop with one code and two users with money, a third near the ceiling. -/
def shopWith (code : Redemption) : Shop where
  code
  users u :=
    if u = 1 ∨ u = 2 then some { quota := 10 }
    else if u = 3 then some { quota := maxWalletQuota } else none
  subs := Db.empty 100

/-- Three calls at once on a code for two users: user 3's credit is refused and
    rolled back, users 1 and 2 get theirs. -/
def threeAtOnce : List (Nat × RedeemAction) :=
  [(0, .call 3), (1, .call 1), (2, .call 2), (0, .lock), (1, .lock), (0, .mark false),
   (0, .reward false), (1, .lock), (1, .mark false), (2, .lock), (1, .reward false), (2, .lock),
   (2, .mark false), (2, .reward false)]

theorem redeem_limits_threeAtOnce :
    redeemers (redeemRun flatCalendar (shopWith ⟨.enabled, 5, 0, 0, 0, 2, 0⟩) threeAtOnce).shared =
      [1, 2] ∧
    (redeemRun flatCalendar (shopWith ⟨.enabled, 5, 0, 0, 0, 2, 0⟩) threeAtOnce).shared.code.status =
      .disabled ∧
    balance (redeemRun flatCalendar (shopWith ⟨.enabled, 5, 0, 0, 0, 2, 0⟩) threeAtOnce).shared.users
      2 = 15 := by
  have hrun := redeem_limits flatCalendar
    (⟨rfl, rfl, rfl, fun _ => rfl⟩ : Issued (shopWith ⟨.enabled, 5, 0, 0, 0, 2, 0⟩)) threeAtOnce
  have hwho : redeemers
      (redeemRun flatCalendar (shopWith ⟨.enabled, 5, 0, 0, 0, 2, 0⟩) threeAtOnce).shared =
        [1, 2] := by decide +kernel
  refine ⟨hwho, ?_, ?_⟩
  · rw [hrun.1.2.2.1]
    decide +kernel
  · rw [hrun.1.2.2.2 2, hwho]
    decide +kernel

/-- Both uses of the code are taken, and its status is not `used`. -/
theorem twoUses_end_disabled : (redeemRun flatCalendar (shopWith ⟨.enabled, 5, 0, 0, 0, 2, 0⟩)
      [(0, .call 1), (0, .lock), (0, .mark false), (0, .reward false),
       (1, .call 2), (1, .lock), (1, .mark false), (1, .reward false)]).shared.successes.length =
        2 ∧
    (redeemRun flatCalendar (shopWith ⟨.enabled, 5, 0, 0, 0, 2, 0⟩)
      [(0, .call 1), (0, .lock), (0, .mark false), (0, .reward false),
       (1, .call 2), (1, .lock), (1, .mark false), (1, .reward false)]).shared.code.status ≠
        .used := by
  decide +kernel

end NewApi.Payment
