/-
  NewApi.SystemTasks.Lease

  System tasks and the lock that leases each type to one runner
  (`model/system_task.go`).

  Two tables: `system_tasks`, with unique indexes on `task_id` and on
  `active_key`, and `system_task_locks`, one row for each type.  A call is a
  sequence of statements on them; each is one step, and between any two the
  caller may stall or crash (never move again).  The clock is read where the
  source reads it, so the time a statement compares with may be old.

  Runner `i` claims under its own id `runner i`; its claims come one after the
  other.  The other calls may come from any goroutine and name any runner.
-/

import NewApi.Lib.Workers

namespace NewApi.SystemTasks

/-! ## The tables -/

inductive Status where
  | pending
  | running
  | succeeded
  | failed
deriving DecidableEq

structure SystemTask where
  id : Nat
  taskID : String
  type : String
  status : Status
  activeKey : Option String
  state : String
  result : String
  error : String
  lockedBy : String
deriving DecidableEq

structure SystemTaskLock where
  type : String
  taskID : String
  lockedBy : String
  lockedUntil : Nat
deriving DecidableEq

structure TaskDB where
  /-- Unix seconds -/
  now : Nat
  tasks : List SystemTask
  locks : List SystemTaskLock

namespace TaskDB

variable (db : TaskDB)

/-- `UPDATE system_tasks SET … WHERE …` -/
def update (p : SystemTask → Bool) (f : SystemTask → SystemTask) : TaskDB :=
  { db with tasks := db.tasks.map fun t => if p t then f t else t }

/-- `RowsAffected` of such an update -/
def matched (p : SystemTask → Bool) : Nat := db.tasks.countP p

/-- `UPDATE system_task_locks SET … WHERE …` -/
def updateLocks (p : SystemTaskLock → Bool) (f : SystemTaskLock → SystemTaskLock) : TaskDB :=
  { db with locks := db.locks.map fun l => if p l then f l else l }

/-- `DELETE FROM system_task_locks WHERE …` -/
def deleteLocks (p : SystemTaskLock → Bool) : TaskDB :=
  { db with locks := db.locks.filter fun l => !p l }

/-- The INSERT of `CreateSystemTask`, refused by either unique index. -/
def insertTask (taskType taskID state : String) : Option TaskDB :=
  if db.tasks.any fun t => t.taskID == taskID || t.activeKey == some taskType then none
  else
    some { db with tasks := db.tasks ++
      [{ id := db.tasks.length, taskID := taskID, type := taskType, status := .pending,
         activeKey := some taskType, state := state, result := "", error := "",
         lockedBy := "" }] }

def insertLock (l : SystemTaskLock) : Option TaskDB :=
  if db.locks.any fun l' => l'.type == l.type then none
  else some { db with locks := db.locks ++ [l] }

/-- `EXISTS (SELECT 1 FROM system_task_locks WHERE …)`: the runner holds the
    task's lock, unexpired at `now`. -/
def holdsLock (taskID lockedBy : String) (now : Nat) : Bool :=
  db.locks.any fun l => l.taskID == taskID && l.lockedBy == lockedBy && decide (now ≤ l.lockedUntil)

end TaskDB

/-! ## The calls -/

inductive TaskOp where
  /-- `CreateSystemTask`; the generated id is the environment's -/
  | create (taskType taskID state : String)
  /-- `ClaimSystemTask` -/
  | claim (id : Nat) (taskType : String) (lockUntil : Nat)
  /-- `UpdateSystemTaskState` -/
  | updateState (taskID lockedBy state : String)
  /-- `RenewSystemTaskLock` -/
  | renew (taskID lockedBy : String) (lockUntil : Nat)
  /-- `FinishSystemTask`, succeeded or failed -/
  | finishTask (taskID lockedBy : String) (succeeded : Bool) (result error : String)
  /-- `ExpireStaleSystemTaskLocks` with the time it is called at -/
  | expire
deriving DecidableEq

/-- A claim: its arguments, the time it started at and the task it read. -/
structure Claim where
  id : Nat
  type : String
  runnerID : String
  lockUntil : Nat
  now : Nat
  taskID : String
deriving DecidableEq

inductive TaskOutcome where
  | ok
  /-- the claimed task -/
  | claimed (t : SystemTask)
  | notClaimed
  /-- `ErrSystemTaskLockLost` -/
  | lockLost
  | failed
deriving DecidableEq

inductive TaskPhase where
  | idle
  | returned (o : TaskOutcome)
  | createRow (taskType taskID state : String)
  | claimRead (id : Nat) (taskType : String) (lockUntil now : Nat)
  /-- `acquireSystemTaskLock`, about to insert the lock -/
  | claimInsert (c : Claim)
  /-- the insert failed, about to read the lock -/
  | claimExisting (c : Claim)
  /-- the lock was found expired, naming `old` -/
  | claimTake (c : Claim) (old : String)
  /-- the lock is taken over from `old` -/
  | claimMark (c : Claim) (old : String)
  /-- about to set the task running -/
  | claimRun (c : Claim)
  | claimReload (c : Claim)
  /-- about to give the lock back and return `o` -/
  | claimRelease (c : Claim) (o : TaskOutcome)
  | stateWrite (taskID lockedBy state : String) (now : Nat)
  | stateCheck (taskID lockedBy : String) (now : Nat)
  | renewLock (taskID lockedBy : String) (lockUntil now : Nat)
  | finishWrite (taskID lockedBy : String) (succeeded : Bool) (result error : String) (now : Nat)
  | finishRelease (taskID lockedBy : String)
  | expireRead (now : Nat)
  | expireMark (now : Nat) (locks : List SystemTaskLock)
  | expireDelete (now : Nat) (l : SystemTaskLock) (locks : List SystemTaskLock)
deriving DecidableEq

inductive TaskAct where
  | tick (d : Nat)
  | begin (op : TaskOp)
  /-- the next statement, and whether the database fails it -/
  | next (dbFails : Bool)
  | finish
deriving DecidableEq

def markSystemTaskLeaseExpired (db : TaskDB) (taskID : String) : TaskDB :=
  db.update (fun t => t.taskID == taskID && t.status == .running)
    fun t => { t with status := .failed, activeKey := none, error := "task lease expired" }

def releaseSystemTaskLock (db : TaskDB) (taskID lockedBy : String) : TaskDB :=
  db.deleteLocks fun l => l.taskID == taskID && l.lockedBy == lockedBy

def ownedRunning (db : TaskDB) (taskID lockedBy : String) (now : Nat) (t : SystemTask) : Bool :=
  t.taskID == taskID && t.status == .running && t.lockedBy == lockedBy &&
    db.holdsLock t.taskID lockedBy now

def pendingRow (id : Nat) (taskType : String) (t : SystemTask) : Bool :=
  t.id == id && t.type == taskType && t.status == .pending

/-- The first reading of the clock and the arguments of a call. -/
def TaskOp.start (db : TaskDB) : TaskOp → TaskPhase
  | .create taskType taskID state => .createRow taskType taskID state
  | .claim id taskType lockUntil => .claimRead id taskType lockUntil db.now
  | .updateState taskID lockedBy state => .stateWrite taskID lockedBy state db.now
  | .renew taskID lockedBy lockUntil => .renewLock taskID lockedBy lockUntil db.now
  | .finishTask taskID lockedBy succeeded result error =>
    .finishWrite taskID lockedBy succeeded result error db.now
  | .expire => .expireRead db.now

/-- The next statement of a call of the runner `runnerID`. -/
def TaskPhase.next (runnerID : String) (db : TaskDB) (dbFails : Bool) :
    TaskPhase → TaskDB × TaskPhase
  | .idle => (db, .idle)
  | .returned o => (db, .returned o)
  | .createRow taskType taskID state =>
    if dbFails then (db, .returned .failed)
    else
      match db.insertTask taskType taskID state with
      | some db' => (db', .returned .ok)
      | none => (db, .returned .failed)
  | .claimRead id taskType lockUntil now =>
    if dbFails then (db, .returned .failed)
    else
      match db.tasks.find? (pendingRow id taskType) with
      | some t => (db, .claimInsert ⟨id, taskType, runnerID, lockUntil, now, t.taskID⟩)
      | none => (db, .returned .notClaimed)
  | .claimInsert c =>
    -- any error of the insert leads to the read
    match if dbFails then none else db.insertLock ⟨c.type, c.taskID, c.runnerID, c.lockUntil⟩ with
    | some db' => (db', .claimRun c)
    | none => (db, .claimExisting c)
  | .claimExisting c =>
    if dbFails then (db, .returned .failed)
    else
      match db.locks.find? fun l => l.type == c.type with
      | none => (db, .returned .notClaimed)
      | some l =>
        if c.now ≤ l.lockedUntil then (db, .returned .notClaimed)
        else (db, .claimTake c l.taskID)
  | .claimTake c old =>
    if dbFails then (db, .returned .failed)
    else
      let stale (l : SystemTaskLock) : Bool := l.type == c.type && decide (l.lockedUntil < c.now)
      if db.locks.any stale then
        (db.updateLocks stale fun l =>
            { l with taskID := c.taskID, lockedBy := c.runnerID, lockedUntil := c.lockUntil },
          if old ≠ "" ∧ old ≠ c.taskID then .claimMark c old else .claimRun c)
      else (db, .returned .notClaimed)
  | .claimMark c old =>
    if dbFails then (db, .claimRelease c .failed)
    else (markSystemTaskLeaseExpired db old, .claimRun c)
  | .claimRun c =>
    if dbFails then (db, .claimRelease c .failed)
    else if db.matched (pendingRow c.id c.type) = 0 then (db, .claimRelease c .notClaimed)
    else
      (db.update (pendingRow c.id c.type) fun t =>
          { t with status := .running, lockedBy := c.runnerID }, .claimReload c)
  | .claimReload c =>
    if dbFails then (db, .returned .failed)
    else
      match db.tasks.find? fun t => t.id == c.id with
      | some t => (db, .returned (.claimed t))
      | none => (db, .returned .failed)
  | .claimRelease c o =>
    -- an error of the release is ignored
    (if dbFails then db else releaseSystemTaskLock db c.taskID c.runnerID, .returned o)
  | .stateWrite taskID lockedBy state now =>
    if dbFails then (db, .returned .failed)
    else
      (db.update (ownedRunning db taskID lockedBy now) fun t => { t with state := state },
        if db.matched (ownedRunning db taskID lockedBy now) = 0 then
          .stateCheck taskID lockedBy now
        else .returned .ok)
  | .stateCheck taskID lockedBy now =>
    if dbFails then (db, .returned .failed)
    else
      (db, .returned (if db.matched (ownedRunning db taskID lockedBy now) = 0 then .lockLost
        else .ok))
  | .renewLock taskID lockedBy lockUntil now =>
    if dbFails then (db, .returned .failed)
    else
      let own (l : SystemTaskLock) : Bool :=
        l.taskID == taskID && l.lockedBy == lockedBy && decide (now ≤ l.lockedUntil)
      (db.updateLocks own fun l => { l with lockedUntil := lockUntil },
        .returned (if db.locks.any own then .ok else .lockLost))
  | .finishWrite taskID lockedBy succeeded result error now =>
    if dbFails then (db, .returned .failed)
    else if db.matched (ownedRunning db taskID lockedBy now) = 0 then (db, .returned .lockLost)
    else
      (db.update (ownedRunning db taskID lockedBy now) fun t =>
          { t with status := if succeeded then .succeeded else .failed, activeKey := none,
                   result := result, error := error }, .finishRelease taskID lockedBy)
  | .finishRelease taskID lockedBy =>
    if dbFails then (db, .returned .failed)
    else (releaseSystemTaskLock db taskID lockedBy, .returned .ok)
  | .expireRead now =>
    if dbFails then (db, .returned .failed)
    else (db, .expireMark now (db.locks.filter fun l => decide (l.lockedUntil < now)))
  | .expireMark now locks =>
    match locks with
    | [] => (db, .returned .ok)
    | l :: locks =>
      if dbFails then (db, .returned .failed)
      else (markSystemTaskLeaseExpired db l.taskID, .expireDelete now l locks)
  | .expireDelete now l locks =>
    if dbFails then (db, .returned .failed)
    else
      (db.deleteLocks fun l' => l'.type == l.type && l'.taskID == l.taskID &&
          l'.lockedBy == l.lockedBy && decide (l'.lockedUntil < now), .expireMark now locks)

variable {ι : Type*}

/-- One step of caller `i`. -/
def taskStep (runner : ι → String) (i : ι) (db : TaskDB) (φ : TaskPhase) (a : TaskAct) :
    TaskDB × TaskPhase :=
  match a with
  | .tick d => ({ db with now := db.now + d }, φ)
  | .begin op => (db, if φ = .idle then op.start db else φ)
  | .next dbFails => φ.next (runner i) db dbFails
  | .finish =>
    match φ with
    | .returned _ => (db, .idle)
    | φ => (db, φ)

def TaskDB.fresh (now : Nat) : NewApi.Lib.Workers TaskDB ι TaskPhase where
  shared := { now := now, tasks := [], locks := [] }
  proc := fun _ => .idle

end NewApi.SystemTasks
