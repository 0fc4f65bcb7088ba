/-
  NewApi.Auth.UserCache

  The cached user (`model/user_cache.go`, `model/user_auth_cache.go`): the row of
  one user, the Redis hash that copies it, the pending fence and the committed
  version floor.

  The hash and the fence expire, the floor does not.  Three scripts write them;
  readers look at the hash and at the two floors in separate commands.  As for
  sessions, a call moves one statement at a time and the environment decides
  when, and which statements fail.

  Of the user only the group and the auth version are kept.  A bump's UPDATE and
  its COMMIT are one statement (the row is locked in between); a bump that the
  caller's transaction rolls back never reaches it.
-/

import NewApi.Auth.Session

namespace NewApi.Auth

/-! ## The row and the three keys -/

/-- The row, and what of it is cached. -/
structure UserBase where
  group : String
  authVersion : Nat
deriving DecidableEq

/-- A Redis value with the time it is dropped. -/
structure Expiring (α : Type) where
  value : α
  expireAt : Nat

/-- What Redis finds of it at time `now`. -/
def Expiring.live {α : Type} (now : Nat) (x : Option (Expiring α)) : Option α :=
  (x.filter fun x => now < x.expireAt).map Expiring.value

structure UserWorld where
  /-- milliseconds -/
  now : Nat
  row : UserBase
  /-- `user:<id>` -/
  hash : Option (Expiring UserBase)
  /-- `auth:user:fence:<id>` -/
  fence : Option (Expiring Nat)
  /-- `auth:user:version:<id>`, 0 when it was never set -/
  committed : Nat

namespace UserWorld

variable (w : UserWorld)

def liveHash : Option UserBase := Expiring.live w.now w.hash

/-- `tonumber(redis.call('GET', fence) or '0')` -/
def pending : Nat := (Expiring.live w.now w.fence).getD 0

/-- `tonumber(redis.call('HGET', hash, 'AuthVersion') or '0')` -/
def current : Nat := (w.liveHash.map UserBase.authVersion).getD 0

def getUserAuthVersionFloor : Nat := max w.pending w.committed

end UserWorld

variable (cfg : SessionConfig)

/-- `userAuthFenceTTLSeconds`, in milliseconds -/
def userAuthFenceTTL : Nat :=
  (userCacheTTLSeconds cfg + max (userCacheTTLSeconds cfg) 60) * 1000

/-! ## The scripts -/

variable (w : UserWorld)

/-- The first half of both user scripts, once `incoming` is not refused: raise
    the committed floor, drop the fence that `incoming` reaches. -/
def admitVersion (incoming : Nat) : UserWorld :=
  { w with committed := max w.committed incoming,
           fence := if 0 < w.pending ∧ w.pending ≤ incoming then none else w.fence }

/-- `pending > incoming or committed > incoming or current > incoming` -/
def refused (incoming : Nat) : Bool :=
  incoming < w.pending || incoming < w.committed || incoming < w.current

/-- The script of `writeUserCache` and its verdict. -/
def writeUserCacheScript (user : UserBase) (includeQuota : Bool) : UserWorld × Bool :=
  if refused w user.authVersion then (w, false)
  else if includeQuota = false ∧ w.liveHash = none then (admitVersion w user.authVersion, true)
  else
    ({ admitVersion w user.authVersion with hash := some ⟨user, w.now + userCacheTTL cfg⟩ }, true)

/-- The script of `updateUserCacheFieldAtVersion`; `group` is the value when the
    field is `Group`. -/
def updateFieldScript (group : Option String) (authVersion : Nat) : UserWorld × Bool :=
  if refused w authVersion then (w, false)
  else
    match w.hash, w.liveHash with
    | some h, some user =>
      if user.authVersion ≠ authVersion then (admitVersion w authVersion, true)
      else
        ({ admitVersion w authVersion with
            hash := some ⟨{ user with group := group.getD user.group }, h.expireAt⟩ }, true)
    | _, _ => (admitVersion w authVersion, true)

/-- The script of `SetUserAuthVersionFence`. -/
def fenceScript (authVersion : Nat) : UserWorld :=
  if w.pending ≤ authVersion then
    { w with fence := some ⟨authVersion, w.now + userAuthFenceTTL cfg⟩ }
  else w

/-- The script of `publishCommittedUserAuthVersion`. -/
def publishCommittedScript (authVersion : Nat) : UserWorld :=
  admitVersion w authVersion

/-! ## The calls -/

inductive UserOp where
  /-- `GetUserCache` -/
  | get
  /-- `updateUserCache`, on a user read from the database -/
  | update
  /-- `updateUserCacheField`; `some g` writes the group -/
  | field (group : Option String)
  /-- `BumpUserAuthVersion`; `viaFloor` when the caller publishes with
      `publishCommittedUserAuthVersion` instead (the deletion of a user) -/
  | bump (viaFloor : Bool)
  /-- a change of the group in the database, then `RefreshUserGroupCache` -/
  | setGroup (group : String)

inductive UserError where
  /-- `ErrUserAuthCachePending` -/
  | pending
  /-- `ErrUserAuthVersionConflict` -/
  | conflict
  /-- the transaction was rolled back -/
  | rolledBack
  | invalid
  | cache
  | database
  /-- "user group changed repeatedly during cache refresh" -/
  | unstable
deriving DecidableEq

inductive UserOutcome where
  | user (u : UserBase)
  | bumped (next : Nat)
  | ok
  | failed (e : UserError)
deriving DecidableEq

inductive UserPhase where
  | idle
  | returned (o : UserOutcome)
  /-- `cacheGetUserBase`, about to read the hash -/
  | getHash
  /-- the hash is read, the floors are not -/
  | getFloor (u : UserBase)
  | getRow
  /-- the row is read, the floors are not -/
  | getRowFloor (u : UserBase)
  | populate (u : UserBase)
  | updateRow
  | updateWrite (u : UserBase)
  | fieldRow (group : Option String)
  | fieldWrite (group : Option String) (authVersion : Nat)
  /-- `IncrementUserAuthVersionWithTx`, `left` turns of its loop remain -/
  | bumpRow (left : Nat) (viaFloor : Bool)
  | bumpFence (old left : Nat) (viaFloor : Bool)
  | bumpCommit (old left : Nat) (viaFloor : Bool)
  /-- the version is stored; `PublishUserAuthCache` -/
  | bumpPublishRow (next : Nat)
  | bumpPublish (next : Nat) (u : UserBase)
  | bumpFloor (next : Nat)
  | groupRow (group : String)
  /-- `RefreshUserGroupCache`, about to read the row -/
  | refreshRow
  | refreshWrite (u : UserBase) (left : Nat)
  | refreshVerify (u : UserBase) (left : Nat)
  | refreshLast (u : UserBase)
deriving DecidableEq

/-- What the environment answers to one statement. -/
structure UserEnv where
  redis : RedisReply := .ok
  dbFails : Bool := false
  /-- for the COMMIT of a bump -/
  rollback : Bool := false

inductive UserAct where
  | tick (d : Nat)
  | begin (op : UserOp)
  | next (env : UserEnv)
  | finish

/-- The version `IncrementUserAuthVersionWithTx` moves to. -/
def nextAuthVersion (old : Nat) : Nat := max old 1 + 1

def UserOp.start : UserOp → UserPhase
  | .get => .getHash
  | .update => .updateRow
  | .field group => .fieldRow group
  | .bump viaFloor => .bumpRow 3 viaFloor
  | .setGroup group => .groupRow group

/-- One run of a script: the world it leaves, and what the caller learns
    (`none`: an error of Redis). -/
def evalScript (reply : RedisReply) (w : UserWorld) (out : UserWorld × Bool) :
    UserWorld × Option Bool :=
  match reply with
  | .ok => (out.1, some out.2)
  | .lost => (out.1, none)
  | .down => (w, none)

/-- The result of `writeUserCache` and `updateUserCacheFieldAtVersion`. -/
def scriptError : Option Bool → Option UserError
  | some true => none
  | some false => some .pending
  | none => some .cache

def writeUserCache (reply : RedisReply) (w : UserWorld) (u : UserBase)
    (includeQuota : Bool) : UserWorld × Option UserError :=
  if u.authVersion = 0 then (w, some .invalid)
  else
    let out := evalScript reply w (writeUserCacheScript cfg w u includeQuota)
    (out.1, scriptError out.2)

def updateUserCacheFieldAtVersion (reply : RedisReply) (w : UserWorld) (group : Option String)
    (authVersion : Nat) : UserWorld × Option UserError :=
  if authVersion = 0 then (w, some .invalid)
  else
    let out := evalScript reply w (updateFieldScript w group authVersion)
    (out.1, scriptError out.2)

def orFail (e : Option UserError) (φ : UserPhase) : UserPhase :=
  match e with
  | none => φ
  | some e => .returned (.failed e)

/-- The next statement of a call. -/
def UserPhase.next (cfg : SessionConfig) (w : UserWorld) (env : UserEnv) :
    UserPhase → UserWorld × UserPhase
  | .idle => (w, .idle)
  | .returned o => (w, .returned o)
  | .getHash =>
    if env.redis ≠ .ok then (w, .getRow)
    else
      match w.liveHash with
      | none => (w, .getRow)
      | some u => (w, if u.authVersion = 0 then .getRow else .getFloor u)
  | .getFloor u =>
    if env.redis ≠ .ok then (w, .getRow)
    else
      (w, if u.authVersion < w.getUserAuthVersionFloor then .getRow else .returned (.user u))
  | .getRow =>
    if env.dbFails then (w, .returned (.failed .database)) else (w, .getRowFloor w.row)
  | .getRowFloor u =>
    -- an error of the floor read is ignored
    if env.redis = .ok ∧ u.authVersion < w.getUserAuthVersionFloor then
      (w, .returned (.failed .pending))
    else (w, .populate u)
  | .populate u =>
    let out := writeUserCache cfg env.redis w u true
    (out.1, if out.2 = some .pending then .returned (.failed .pending)
      else .returned (.user u))
  | .updateRow =>
    if env.dbFails then (w, .returned (.failed .database)) else (w, .updateWrite w.row)
  | .updateWrite u =>
    let out := writeUserCache cfg env.redis w u false
    (out.1, orFail out.2 (.returned .ok))
  | .fieldRow group =>
    if env.dbFails then (w, .returned (.failed .database))
    else (w, .fieldWrite group w.row.authVersion)
  | .fieldWrite group authVersion =>
    let out := updateUserCacheFieldAtVersion env.redis w group authVersion
    (out.1, orFail out.2 (.returned .ok))
  | .bumpRow left viaFloor =>
    match left with
    | 0 => (w, .returned (.failed .conflict))
    | left + 1 =>
      if env.dbFails then (w, .returned (.failed .database))
      else (w, .bumpFence w.row.authVersion left viaFloor)
  | .bumpFence old left viaFloor =>
    match env.redis with
    | .ok => (fenceScript cfg w (nextAuthVersion old), .bumpCommit old left viaFloor)
    | .lost => (fenceScript cfg w (nextAuthVersion old), .returned (.failed .cache))
    | .down => (w, .returned (.failed .cache))
  | .bumpCommit old left viaFloor =>
    if env.dbFails ∨ env.rollback then (w, .returned (.failed .rolledBack))
    else if w.row.authVersion = old then
      ({ w with row := { w.row with authVersion := nextAuthVersion old } },
        if viaFloor then .bumpFloor (nextAuthVersion old)
        else .bumpPublishRow (nextAuthVersion old))
    else (w, .bumpRow left viaFloor)
  | .bumpPublishRow next =>
    if env.dbFails then (w, .returned (.failed .database)) else (w, .bumpPublish next w.row)
  | .bumpPublish next u =>
    let out := writeUserCache cfg env.redis w u false
    (out.1, orFail out.2 (.returned (.bumped next)))
  | .bumpFloor next =>
    match env.redis with
    | .ok => (publishCommittedScript w next, .returned (.bumped next))
    | .lost => (publishCommittedScript w next, .returned (.failed .cache))
    | .down => (w, .returned (.failed .cache))
  | .groupRow group =>
    if env.dbFails then (w, .returned (.failed .database))
    else ({ w with row := { w.row with group := group } }, .refreshRow)
  | .refreshRow =>
    if env.dbFails then (w, .returned (.failed .database)) else (w, .refreshWrite w.row 3)
  | .refreshWrite u left =>
    let out := updateUserCacheFieldAtVersion env.redis w (some u.group) u.authVersion
    (out.1, orFail out.2 (.refreshVerify u left))
  | .refreshVerify u left =>
    if env.dbFails then (w, .returned (.failed .database))
    else if w.row.authVersion = u.authVersion ∧ w.row.group = u.group then (w, .returned .ok)
    else
      match left with
      | 0 | 1 => (w, .refreshLast w.row)
      | left + 2 => (w, .refreshWrite w.row (left + 1))
  | .refreshLast u =>
    let out := updateUserCacheFieldAtVersion env.redis w (some u.group) u.authVersion
    (out.1, orFail out.2 (.returned (.failed .unstable)))

variable {ι : Type*}

/-- One step of caller `i`. -/
def userStep (_ : ι) (w : UserWorld) (φ : UserPhase) (a : UserAct) : UserWorld × UserPhase :=
  match a with
  | .tick d => ({ w with now := w.now + d }, φ)
  | .begin op => (w, if φ = .idle then op.start else φ)
  | .next env => φ.next cfg w env
  | .finish =>
    match φ with
    | .returned _ => (w, .idle)
    | φ => (w, φ)

def UserWorld.fresh (now : Nat) (row : UserBase) : NewApi.Lib.Workers UserWorld ι UserPhase where
  shared := { now := now, row := row, hash := none, fence := none, committed := 0 }
  proc := fun _ => .idle

end NewApi.Auth
