/-
  NewApi.Auth.Session

  A login session: the row of `user_sessions`, its copy in Redis and the calls
  of `model/user_session.go` that read and write the two.

  Everything is about one session (one `sid`, one Redis key).  Time is one
  clock, in milliseconds for the cache and in seconds for the row.  A call is a
  phase that moves one statement at a time: a read of the clock, a database
  statement, a script run by Redis.  The environment decides when a call moves,
  whether the statement fails, and how much time passes in between.

  A transaction without a Redis call inside is one statement; the one of
  `RevokeUserSessionByRefreshHash`, which publishes its fence between its read
  and its update, is two, and no lock is held in between (on SQLite
  `lockForUpdate` is a no-op).
-/

import NewApi.Lib.Workers

namespace NewApi.Auth

/-! ## The row and the cache entry -/

inductive SessionStatus where
  | active
  | revoking
  | revoked
deriving DecidableEq

/-- `UserSession`; the times are Unix seconds. -/
structure UserSession where
  userID : Nat
  version : Nat
  userAuthVersion : Nat
  status : SessionStatus
  refreshHash : String
  previousRefreshHash : String
  previousValidUntil : Nat
  lastActiveAt : Nat
  expiresAt : Nat
  revokedAt : Nat
  revokedReason : String
deriving DecidableEq

/-- `userSessionCacheEntry` -/
structure CacheEntry where
  userID : Nat
  version : Nat
  userAuthVersion : Nat
  status : SessionStatus
  lastActiveAt : Nat
  expiresAt : Nat
  revokedAt : Nat
  revokedReason : String
  cacheSchema : Nat

def userSessionCacheSchema : Nat := 1

namespace UserSession

variable (s : UserSession)

def cacheEntry : CacheEntry where
  userID := s.userID
  version := s.version
  userAuthVersion := s.userAuthVersion
  status := s.status
  lastActiveAt := s.lastActiveAt
  expiresAt := s.expiresAt
  revokedAt := s.revokedAt
  revokedReason := s.revokedReason
  cacheSchema := userSessionCacheSchema

/-- `Status != active || RevokedAt != 0 || ExpiresAt <= now`, the check every
    call makes of a row it has read. -/
def inactive (now : Nat) : Bool :=
  s.status != .active || s.revokedAt != 0 || s.expiresAt ≤ now

def revokedBy (now : Nat) (reason : String) : UserSession :=
  { s with status := .revoked, revokedAt := now, revokedReason := reason }

/-- The session `writeUserSessionDenyFence` publishes. -/
def fenced (now : Nat) (reason : String) : UserSession :=
  { s with status := .revoking, revokedAt := now, revokedReason := reason }

def expiresAtMilli : Nat := s.expiresAt * 1000

end UserSession

/-- `entry.session()`; the digests are not cached. -/
def CacheEntry.session (e : CacheEntry) : UserSession where
  userID := e.userID
  version := e.version
  userAuthVersion := e.userAuthVersion
  status := e.status
  refreshHash := ""
  previousRefreshHash := ""
  previousValidUntil := 0
  lastActiveAt := e.lastActiveAt
  expiresAt := e.expiresAt
  revokedAt := e.revokedAt
  revokedReason := e.revokedReason

/-- The hash under the session's key, with the time Redis drops it. -/
structure CachedSession where
  entry : CacheEntry
  expireAt : Nat

structure World where
  /-- milliseconds -/
  now : Nat
  row : Option UserSession
  cache : Option CachedSession

namespace World

/-- `time.Now().Unix()` -/
def unix (w : World) : Nat := w.now / 1000

def live (w : World) : Option CachedSession := w.cache.filter fun c => w.now < c.expireAt

end World

structure SessionConfig where
  /-- `common.RedisKeyCacheSeconds()` -/
  redisKeyCacheSeconds : Int

variable (cfg : SessionConfig)

def userCacheTTLSeconds : Nat :=
  if cfg.redisKeyCacheSeconds ≤ 0 then 60 else cfg.redisKeyCacheSeconds.toNat

def userCacheTTL : Nat := userCacheTTLSeconds cfg * 1000

def minuteCache : SessionConfig := { redisKeyCacheSeconds := 60 }

variable (w : World)

def userSessionCacheDeadline : Nat := w.now + userCacheTTL cfg

/-! ## Reading and writing the cache -/

/-- The errors of the calls, those a caller tells apart. -/
inductive SessionError where
  | invalid
  | inactive
  /-- `errUserSessionCacheObservationStale` -/
  | stale
  | refreshInvalid
  | refreshReuse
  | notFound
  /-- Redis failed, or holds a hash of another schema -/
  | cache
  | database
deriving DecidableEq

/-- `getUserSessionCache`, on a Redis that answers. -/
def getUserSessionCache : Except SessionError UserSession :=
  match w.live with
  | none => .error .cache
  | some c =>
    if c.entry.cacheSchema ≠ userSessionCacheSchema ∨ c.entry.userID = 0 ∨
        c.entry.version = 0 ∨ c.entry.userAuthVersion = 0 then .error .cache
    else if c.entry.session.inactive w.unix then .error .inactive
    else .ok c.entry.session

/-- The part of `writeUserSessionCache` before the script: the expiry argument
    of an active snapshot is a time (PEXPIREAT), that of a deny entry a duration
    (PEXPIRE). -/
def redisExpiration (now : Nat) (s : UserSession)
    (cacheDeadline : Option Nat) : Except SessionError Nat :=
  if s.status = .active then
    match cacheDeadline with
    | none => .error .invalid
    | some deadline =>
      if deadline ≤ now then .error .stale
      else if s.expiresAtMilli ≤ now then .error .inactive
      else
        let cacheExpiresAt := if s.expiresAtMilli < deadline then s.expiresAtMilli else deadline
        if cacheExpiresAt - now < 1 then .error .stale else .ok cacheExpiresAt
  else
    let ttl := min (s.expiresAtMilli - now) (userCacheTTL cfg)
    .ok (if ttl = 0 then 1000 else ttl)

def hset (e : CacheEntry) (expiration : Nat) : World :=
  { w with cache := some ⟨e, if e.status = .active then expiration else w.now + expiration⟩ }

/-- The script of `writeUserSessionCache` and its verdict. -/
def cacheScript (e : CacheEntry) (expiration : Nat) : World × Bool :=
  match w.live with
  | some c =>
    if e.status = .active ∧ c.entry.status ≠ .active then (w, false)
    else if e.version < c.entry.version then (w, false)
    else (hset w e expiration, true)
  | none => (hset w e expiration, true)

/-- `confirmUserSessionActiveSnapshot`: the row still is the snapshot. -/
def confirmUserSessionActiveSnapshot (s : UserSession) : Except SessionError Unit :=
  if s.userID = 0 ∨ s.version = 0 ∨ s.userAuthVersion = 0 then .error .invalid
  else
    match w.row with
    | none => .error .inactive
    | some r =>
      if r.userID = s.userID ∧ r.status = .active ∧ r.revokedAt = 0 ∧ w.unix < r.expiresAt ∧
          r.version = s.version ∧ r.userAuthVersion = s.userAuthVersion then .ok ()
      else .error .inactive

/-! ## Calls and their phases -/

/-- The arguments of `RotateUserSessionRefresh`. -/
structure RotateArgs where
  userID : Nat
  presentedHash : String
  nextHash : String
  now : Nat
  graceSeconds : Nat
deriving DecidableEq

/-- The arguments of `AdvanceUserSessionAuthVersion`. -/
structure AdvanceArgs where
  userID : Nat
  expectedSessionVersion : Nat
  expectedUserAuthVersion : Nat
  nextUserAuthVersion : Nat
deriving DecidableEq

inductive Op where
  /-- `CreateUserSession` -/
  | create (session : UserSession)
  /-- `GetUserSessionCached` -/
  | get
  /-- `RotateUserSessionRefresh` -/
  | rotate (args : RotateArgs)
  /-- `AdvanceUserSessionAuthVersion` -/
  | advance (args : AdvanceArgs)
  /-- `RevokeUserSession` -/
  | revoke (userID : Nat) (reason : String)
  /-- `RevokeUserSessionByRefreshHash` -/
  | revokeByRefreshHash (presentedHash reason : String)
  /-- `revokeUserSessions`; `excluded` when the session is the one to keep -/
  | revokeSessions (userID : Nat) (excluded : Bool) (reason : String)

/-- The call that revokes, between its fence and its return. -/
inductive Revoker where
  /-- a replayed refresh digest in `RotateUserSessionRefresh` -/
  | reuse (now : Nat)
  | single (userID now : Nat) (reason : String)
  | byRefreshHash (now : Nat) (reason : String)
  | bulk (userID now : Nat) (reason : String)
deriving DecidableEq

/-- What a call wants its cache write for. -/
inductive Purpose where
  /-- `GetUserSessionCached`, an active row -/
  | fill
  /-- `GetUserSessionCached`, any other row -/
  | deny
  | created
  | rotated
  | advanced
  | fence (v : Revoker)
  | tombstone (v : Revoker)
deriving DecidableEq

/-- What a call returns. -/
inductive Outcome where
  | session (s : UserSession)
  /-- `ErrUserSessionRefreshRace`, with the row read -/
  | race (s : UserSession)
  | failed (e : SessionError)
  /-- whether the call revoked the session -/
  | revoked (done : Bool)
deriving DecidableEq

inductive Phase where
  | idle
  | returned (o : Outcome)
  | getCache
  | getDeadline
  | getRow (deadline : Nat)
  /-- the row is read, the clock not yet -/
  | getCheck (s : UserSession) (deadline : Nat)
  | createRow (s : UserSession) (deadline now : Nat)
  /-- `left` turns of the loop remain -/
  | rotateDeadline (q : RotateArgs) (left : Nat)
  | rotateRow (q : RotateArgs) (left deadline : Nat)
  | rotateSwap (q : RotateArgs) (left deadline : Nat) (s : UserSession)
  | advanceNow (q : AdvanceArgs) (deadline : Nat)
  | advanceRow (q : AdvanceArgs) (deadline now : Nat)
  | revokeRow (userID now : Nat) (reason : String)
  | revokeHashRow (presentedHash : String) (now : Nat) (reason : String)
  /-- `done` when an earlier turn of the loop revoked the session -/
  | revokeBulkRow (userID now : Nat) (excluded : Bool) (reason : String) (done : Bool)
  /-- the fence is out; `s` is the session it denies -/
  | commit (s : UserSession) (v : Revoker)
  /-- `writeUserSessionCache` is entered -/
  | publish (s : UserSession) (deadline : Option Nat) (p : Purpose)
  /-- the script is sent -/
  | eval (s : UserSession) (deadline : Option Nat) (expiration : Nat) (p : Purpose)
  /-- an active snapshot is written, the clock not yet read again -/
  | complete (s : UserSession) (deadline : Option Nat) (p : Purpose)
  | confirm (s : UserSession)
deriving DecidableEq

inductive RedisReply where
  | ok
  /-- not executed -/
  | down
  /-- executed, the reply lost -/
  | lost
deriving DecidableEq

/-- What the environment answers to one statement. -/
structure Env where
  redis : RedisReply := .ok
  dbFails : Bool := false
deriving DecidableEq

inductive Act where
  | tick (d : Nat)
  | begin (op : Op)
  | next (env : Env)
  /-- the result has been taken -/
  | finish

/-! ## The calls, statement by statement -/

/-- The checks of `createUserSessionWithTx` and the defaults it fills in. -/
def createdSession (s : UserSession) (now : Nat) : Option UserSession :=
  if s.userID = 0 ∨ s.userAuthVersion = 0 ∨ s.refreshHash = "" ∨ s.expiresAt ≤ now then none
  else
    let s := if s.version = 0 then { s with version := 1 } else s
    if s.status ≠ .active ∨ s.revokedAt ≠ 0 then none
    else some (if s.lastActiveAt = 0 then { s with lastActiveAt := now } else s)

/-- The first statements of a call: argument checks and readings of the clock. -/
def Op.start : Op → Phase
  | .create s => .createRow s (userSessionCacheDeadline cfg w) w.unix
  | .get => .getCache
  | .rotate q =>
    if q.userID = 0 ∨ q.presentedHash = "" ∨ q.nextHash = "" ∨ q.presentedHash = q.nextHash then
      .returned (.failed .invalid)
    else .rotateDeadline (if q.now = 0 then { q with now := w.unix } else q) 3
  | .advance q =>
    if q.userID = 0 ∨ q.expectedSessionVersion = 0 ∨ q.expectedUserAuthVersion = 0 ∨
        q.nextUserAuthVersion ≤ q.expectedUserAuthVersion then
      .returned (.failed .invalid)
    else .advanceNow q (userSessionCacheDeadline cfg w)
  | .revoke userID reason =>
    if userID = 0 then .returned (.failed .invalid) else .revokeRow userID w.unix reason
  | .revokeByRefreshHash presentedHash reason =>
    if presentedHash = "" then .returned (.failed .invalid)
    else .revokeHashRow presentedHash w.unix reason
  | .revokeSessions userID excluded reason =>
    if userID = 0 then .returned (.failed .invalid)
    else .revokeBulkRow userID w.unix excluded reason false

/-- What a call does when its revocation is through and its tombstone written
    or given up. -/
def Revoker.finish : Revoker → Phase
  | .reuse _ => .returned (.failed .refreshReuse)
  | .single _ _ _ | .byRefreshHash _ _ => .returned (.revoked true)
  | .bulk userID now reason => .revokeBulkRow userID now false reason true

/-- What a call does with the result of `writeUserSessionCache`. -/
def afterWrite (s : UserSession) : Purpose → Option SessionError → Phase
  | .fill, none | .created, none | .rotated, none | .advanced, none => .returned (.session s)
  | .fill, some .stale | .created, some .stale | .rotated, some .stale
  | .advanced, some .stale => .confirm s
  | .fill, some .inactive | .created, some .inactive | .rotated, some .inactive =>
    .returned (.failed .inactive)
  -- any other error is logged
  | .fill, some _ | .created, some _ | .rotated, some _ => .returned (.session s)
  | .advanced, some e => .returned (.failed e)
  | .deny, _ => .returned (.failed .inactive)
  | .fence v, none => .commit s v
  | .fence _, some e => .returned (.failed e)
  | .tombstone v, _ => v.finish

/-- The UPDATE of a revoking call: the row it leaves and where the call goes. -/
def Revoker.commit (v : Revoker) (w : World) (s : UserSession) : World × Phase :=
  let tombstone (s : UserSession) : Phase :=
    .publish { s with status := .revoked } none (.tombstone v)
  match v with
  | .reuse now =>
    match w.row with
    | some r =>
      if r.userID = s.userID ∧ ¬ r.inactive now then
        ({ w with row := some (r.revokedBy now "refresh_reuse") }, tombstone s)
      else (w, .returned (.failed .inactive))
    | none => (w, .returned (.failed .inactive))
  | .single userID now reason =>
    match w.row with
    | some r =>
      if r.userID ≠ userID then (w, .returned (.failed .notFound))
      else if r.inactive now then (w, .returned (.revoked false))
      else ({ w with row := some (r.revokedBy now reason) }, tombstone s)
    | none => (w, .returned (.failed .notFound))
  | .byRefreshHash now reason =>
    match w.row with
    | some r =>
      if r.status = .active then
        ({ w with row := some (r.revokedBy now reason) }, tombstone s)
      else (w, .returned (.revoked false))
    | none => (w, .returned (.revoked false))
  | .bulk userID now reason =>
    match w.row with
    | some r =>
      -- the tombstone carries the row as the transaction locked it
      if r.status = .active then
        ({ w with row := some (r.revokedBy now reason) }, tombstone (r.revokedBy now reason))
      else (w, .revokeBulkRow userID now false reason false)
    | none => (w, .revokeBulkRow userID now false reason false)

/-- The next statement of a call. -/
def Phase.next (env : Env) : Phase → World × Phase
  | .idle => (w, .idle)
  | .returned o => (w, .returned o)
  | .getCache =>
    if env.redis = .ok then
      match getUserSessionCache w with
      | .ok s => (w, .returned (.session s))
      | .error .inactive => (w, .returned (.failed .inactive))
      | .error _ => (w, .getDeadline)
    else (w, .getDeadline)
  | .getDeadline => (w, .getRow (userSessionCacheDeadline cfg w))
  | .getRow deadline =>
    if env.dbFails then (w, .returned (.failed .database))
    else
      match w.row with
      | some s => (w, .getCheck s deadline)
      | none => (w, .returned (.failed .notFound))
  | .getCheck s deadline =>
    if s.inactive w.unix then (w, .publish { s with status := .revoked } none .deny)
    else (w, .publish s (some deadline) .fill)
  | .createRow s deadline now =>
    match createdSession s now with
    | none => (w, .returned (.failed .invalid))
    | some s =>
      if env.dbFails ∨ w.row.isSome then (w, .returned (.failed .database))
      else ({ w with row := some s }, .publish s (some deadline) .created)
  | .rotateDeadline q left =>
    match left with
    | 0 => (w, .returned (.failed .refreshInvalid))
    | left + 1 => (w, .rotateRow q left (userSessionCacheDeadline cfg w))
  | .rotateRow q left deadline =>
    if env.dbFails then (w, .returned (.failed .database))
    else
      match w.row with
      | none => (w, .returned (.failed .notFound))
      | some s =>
        if s.userID ≠ q.userID then (w, .returned (.failed .notFound))
        else if s.inactive q.now then (w, .returned (.failed .inactive))
        else if s.refreshHash = q.presentedHash then (w, .rotateSwap q left deadline s)
        else if s.previousRefreshHash = "" ∨ s.previousRefreshHash ≠ q.presentedHash then
          (w, .returned (.failed .refreshInvalid))
        else if q.now ≤ s.previousValidUntil then (w, .returned (.race s))
        else (w, .publish (s.fenced q.now "refresh_reuse") none (.fence (.reuse q.now)))
  | .rotateSwap q left deadline s =>
    if env.dbFails then (w, .returned (.failed .database))
    else
      let rotated (r : UserSession) : UserSession :=
        { r with previousRefreshHash := s.refreshHash,
                 previousValidUntil := q.now + q.graceSeconds,
                 refreshHash := q.nextHash, lastActiveAt := q.now }
      match w.row with
      | some r =>
        if r.userID = q.userID ∧ ¬ r.inactive q.now ∧ r.refreshHash = q.presentedHash then
          ({ w with row := some (rotated r) }, .publish (rotated s) (some deadline) .rotated)
        else (w, .rotateDeadline q left)
      | none => (w, .rotateDeadline q left)
  | .advanceNow q deadline => (w, .advanceRow q deadline w.unix)
  | .advanceRow q deadline now =>
    if env.dbFails then (w, .returned (.failed .database))
    else
      match w.row with
      | none => (w, .returned (.failed .notFound))
      | some s =>
        if s.userID ≠ q.userID then (w, .returned (.failed .notFound))
        else if s.status ≠ .active ∨ s.expiresAt ≤ now ∨
            s.version ≠ q.expectedSessionVersion ∨
            s.userAuthVersion ≠ q.expectedUserAuthVersion then
          (w, .returned (.failed .inactive))
        else
          let s := { s with version := s.version + 1,
                            userAuthVersion := q.nextUserAuthVersion, lastActiveAt := now }
          ({ w with row := some s }, .publish s (some deadline) .advanced)
  | .revokeRow userID now reason =>
    if env.dbFails then (w, .returned (.failed .database))
    else
      match w.row with
      | none => (w, .returned (.revoked false))
      | some s =>
        if s.userID ≠ userID ∨ s.inactive now then (w, .returned (.revoked false))
        else (w, .publish (s.fenced now reason) none (.fence (.single userID now reason)))
  | .revokeHashRow presentedHash now reason =>
    if env.dbFails then (w, .returned (.failed .database))
    else
      match w.row with
      | none => (w, .returned (.revoked false))
      | some s =>
        let validCurrent := s.refreshHash = presentedHash
        let validPrevious := s.previousRefreshHash ≠ "" ∧ now ≤ s.previousValidUntil ∧
          s.previousRefreshHash = presentedHash
        if s.inactive now ∨ ¬ (validCurrent ∨ validPrevious) then
          (w, .returned (.revoked false))
        else (w, .publish (s.fenced now reason) none (.fence (.byRefreshHash now reason)))
  | .revokeBulkRow userID now excluded reason done =>
    if env.dbFails then (w, .returned (.failed .database))
    else
      match w.row with
      | none => (w, .returned (.revoked done))
      | some s =>
        if s.userID ≠ userID ∨ s.status ≠ .active ∨ s.expiresAt ≤ now ∨ excluded then
          (w, .returned (.revoked done))
        else (w, .publish (s.fenced now reason) none (.fence (.bulk userID now reason)))
  | .commit s v =>
    if env.dbFails then (w, .returned (.failed .database)) else v.commit w s
  | .publish s deadline p =>
    match redisExpiration cfg w.now s deadline with
    | .ok x => (w, .eval s deadline x p)
    | .error e => (w, afterWrite s p (some e))
  | .eval s deadline x p =>
    match env.redis with
    | .down => (w, afterWrite s p (some .cache))
    | .lost => ((cacheScript w s.cacheEntry x).1, afterWrite s p (some .cache))
    | .ok =>
      let out := cacheScript w s.cacheEntry x
      if out.2 then
        (out.1, if s.status = .active then .complete s deadline p else afterWrite s p none)
      else (out.1, afterWrite s p (some .inactive))
  | .complete s deadline p =>
    if deadline.getD 0 ≤ w.now then (w, afterWrite s p (some .stale))
    else if s.expiresAtMilli ≤ w.now then (w, afterWrite s p (some .inactive))
    else (w, afterWrite s p none)
  | .confirm s =>
    if env.dbFails then (w, .returned (.failed .database))
    else
      match confirmUserSessionActiveSnapshot w s with
      | .ok _ => (w, .returned (.session s))
      | .error e => (w, .returned (.failed e))

variable {ι : Type*}

/-- One step of caller `i`. -/
def sessionStep (_ : ι) (w : World) (φ : Phase) (a : Act) : World × Phase :=
  match a with
  | .tick d => ({ w with now := w.now + d }, φ)
  | .begin op => (w, if φ = .idle then op.start cfg w else φ)
  | .next env => φ.next cfg w env
  | .finish =>
    match φ with
    | .returned _ => (w, .idle)
    | φ => (w, φ)

def World.fresh (now : Nat) : NewApi.Lib.Workers World ι Phase where
  shared := { now := now, row := none, cache := none }
  proc := fun _ => .idle

end NewApi.Auth
