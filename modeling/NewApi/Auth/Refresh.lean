/-
  NewApi.Auth.Refresh

  `RefreshLoginSession` (`service/auth_session.go`) on one session: look the
  session up, look at the user, and exchange the presented refresh secret for
  the next one.

  A call runs the statements of `GetUserSessionCached`, then those of
  `RotateUserSessionRefresh`, or, when the user was disabled or has another
  auth version, those of `RevokeUserSession`.  The digest of a secret and the
  derivation of the next one (both HMAC) are parameters; what is asked of them
  is `RefreshKeys`.
-/

import NewApi.Auth.SessionCalls

namespace NewApi.Auth

/-! ## The call -/

/-- `hashRefreshSecret`, and `deriveNextRefreshSecret` for the session's sid. -/
structure RefreshKeys where
  hashRefreshSecret : String → String
  deriveNextRefreshSecret : String → String

/-- Digests are not empty, digests and derived secrets do not collide, and the
    random first secret is not a derived one. -/
structure RefreshKeys.Ideal (k : RefreshKeys) (first : String) : Prop where
  hash_ne_empty : ∀ secret, k.hashRefreshSecret secret ≠ ""
  hash_injective : Function.Injective k.hashRefreshSecret
  derive_injective : Function.Injective k.deriveNextRefreshSecret
  first_not_derived : ∀ secret, k.deriveNextRefreshSecret secret ≠ first

/-- `RefreshReplayWindow`, in seconds -/
def refreshReplayWindow : Nat := 30

/-- What a look at the user yields: enabled, and the auth version. -/
structure UserLook where
  enabled : Bool
  authVersion : Nat
deriving DecidableEq

inductive RefreshError where
  /-- `ErrLoginSessionRevoked` -/
  | sessionRevoked
  /-- `ErrRefreshTokenInvalid` -/
  | tokenInvalid
  /-- `ErrRefreshRace` -/
  | race
  /-- an error of the user store, of the session store or of `issueAuthBundle` -/
  | other
deriving DecidableEq

inductive RefreshResult where
  /-- the refresh secret of the bundle and the session it is for -/
  | bundle (secret : String) (s : UserSession)
  | failed (e : RefreshError)
deriving DecidableEq

inductive RefreshPhase where
  | idle
  /-- in `GetUserSessionCached` -/
  | getting (secret : String) (φ : Phase)
  /-- the session is found, the user not looked at -/
  | checking (secret : String) (s : UserSession)
  /-- in `RevokeUserSession`, for `user_security_changed` -/
  | revoking (secret : String) (φ : Phase)
  /-- in `RotateUserSessionRefresh` -/
  | rotating (secret : String) (φ : Phase)
  | done (secret : String) (res : RefreshResult)
deriving DecidableEq

inductive RefreshAct where
  | tick (d : Nat)
  | begin (secret : String)
  | next (env : Env)
  /-- `GetUserCache` and `GetSelfUserById` -/
  | lookUp (userCache currentUser : Option UserLook)
  /-- `issueAuthBundle` -/
  | issue (ok : Bool)
  | finish
deriving DecidableEq

/-- The arguments of the rotation. -/
def rotateArgs (k : RefreshKeys) (secret : String) (userID now : Nat) : RotateArgs where
  userID := userID
  presentedHash := k.hashRefreshSecret secret
  nextHash := k.hashRefreshSecret (k.deriveNextRefreshSecret secret)
  now := now
  graceSeconds := refreshReplayWindow

/-- What the call makes of the result of `GetUserSessionCached`. -/
def afterGet (secret : String) : Outcome → RefreshPhase
  | .session s => .checking secret s
  | .failed .inactive => .done secret (.failed .sessionRevoked)
  | _ => .done secret (.failed .tokenInvalid)

/-- What the call makes of the user. -/
def afterLookUp (cfg : SessionConfig) (k : RefreshKeys) (w : World) (secret : String)
    (s : UserSession) : Option UserLook → Option UserLook → RefreshPhase
  | some userCache, some currentUser =>
    if userCache.enabled = false ∨ userCache.authVersion ≠ s.userAuthVersion ∨
        currentUser.enabled = false ∨ currentUser.authVersion ≠ s.userAuthVersion then
      .revoking secret ((Op.revoke s.userID "user_security_changed").start cfg w)
    else
      .rotating secret ((Op.rotate (rotateArgs k secret s.userID w.unix)).start cfg w)
  | _, _ => .done secret (.failed .other)

/-- What the call makes of the result of `RotateUserSessionRefresh`; `ok` is
    whether `issueAuthBundle` succeeds, where it is called. -/
def afterRotate (k : RefreshKeys) (secret : String) (ok : Bool) : Outcome → RefreshResult
  | .session s =>
    if ok then .bundle (k.deriveNextRefreshSecret secret) s else .failed .other
  | .race s =>
    if k.hashRefreshSecret (k.deriveNextRefreshSecret secret) = s.refreshHash then
      if ok then .bundle (k.deriveNextRefreshSecret secret) s else .failed .other
    else .failed .race
  | .failed .refreshReuse => .failed .sessionRevoked
  | .failed .refreshInvalid => .failed .tokenInvalid
  | _ => .failed .other

variable {ι : Type*}

/-- One step of caller `i`. -/
def refreshStep (cfg : SessionConfig) (k : RefreshKeys) (_ : ι) (w : World) (ρ : RefreshPhase)
    (a : RefreshAct) : World × RefreshPhase :=
  match ρ, a with
  | ρ, .tick d => ({ w with now := w.now + d }, ρ)
  | .idle, .begin secret => (w, .getting secret (Op.get.start cfg w))
  | .getting secret (.returned o), .next _ => (w, afterGet secret o)
  | .getting secret φ, .next env =>
    ((φ.next cfg w env).1, .getting secret (φ.next cfg w env).2)
  | .checking secret s, .lookUp userCache currentUser =>
    if s.inactive w.unix then (w, .done secret (.failed .sessionRevoked))
    else (w, afterLookUp cfg k w secret s userCache currentUser)
  | .revoking secret (.returned _), .next _ => (w, .done secret (.failed .sessionRevoked))
  | .revoking secret φ, .next env =>
    ((φ.next cfg w env).1, .revoking secret (φ.next cfg w env).2)
  | .rotating secret (.returned o), .issue ok => (w, .done secret (afterRotate k secret ok o))
  | .rotating secret φ, .next env =>
    ((φ.next cfg w env).1, .rotating secret (φ.next cfg w env).2)
  | .done _ _, .finish => (w, .idle)
  | ρ, _ => (w, ρ)

/-! ## What the parts of a call do to the row -/

variable {cfg : SessionConfig} {k : RefreshKeys} {w w' : World} {φ : Phase} {env : Env}
  {secret : String}

/-- `r'` is `r`, possibly revoked. -/
structure RowKept (r r' : UserSession) : Prop where
  userID : r'.userID = r.userID
  version : r'.version = r.version
  refreshHash : r'.refreshHash = r.refreshHash
  previousRefreshHash : r'.previousRefreshHash = r.previousRefreshHash
  previousValidUntil : r'.previousValidUntil = r.previousValidUntil
  expiresAt : r'.expiresAt = r.expiresAt
  status : r'.status = .revoked ∨ r'.status = r.status ∧ r'.revokedAt = r.revokedAt

theorem RowKept.refl (r : UserSession) : RowKept r r :=
  ⟨rfl, rfl, rfl, rfl, rfl, rfl, Or.inr ⟨rfl, rfl⟩⟩

theorem rowKept_revokedBy (r : UserSession) (now : Nat) (reason : String) :
    RowKept r (r.revokedBy now reason) :=
  ⟨rfl, rfl, rfl, rfl, rfl, rfl, Or.inl rfl⟩

variable {r : UserSession}

theorem RowKept.inactive {r' : UserSession} {now : Nat} (h : RowKept r r')
    (hr : r.inactive now ≠ true) : r'.status = .revoked ∨ r'.inactive now ≠ true := by
  rcases h.status with hs | ⟨hs, ha⟩
  · exact Or.inl hs
  right
  rw [UserSession.inactive, hs, ha, h.expiresAt]
  exact hr

theorem Revoker.commit_kept (v : Revoker) (s : UserSession)
    (hr : w.row = some r) : ∃ r', (v.commit w s).1.row = some r' ∧ RowKept r r' := by
  cases v <;> simp only [Revoker.commit, hr] <;> repeat' split
  all_goals first
    | exact ⟨r, hr, RowKept.refl r⟩
    | exact ⟨_, rfl, rowKept_revokedBy r _ _⟩

theorem next_kept (hr : w.row = some r)
    (hswap : ∀ q left d s, φ ≠ .rotateSwap q left d s) (hadv : ∀ q d now, φ ≠ .advanceRow q d now) :
    ∃ r', (φ.next cfg w env).1.row = some r' ∧ RowKept r r' := by
  cases φ with
  | rotateSwap q left d s => exact absurd rfl (hswap q left d s)
  | advanceRow q d now => exact absurd rfl (hadv q d now)
  | commit s v =>
    simp only [Phase.next]
    split
    · exact ⟨r, hr, RowKept.refl r⟩
    · exact v.commit_kept s hr
  | eval s d x p =>
    refine ⟨r, ?_, RowKept.refl r⟩
    simp only [Phase.next]
    repeat' split
    all_goals first
      | exact hr
      | rw [cacheScript_row, hr]
  | createRow s d now =>
    refine ⟨r, ?_, RowKept.refl r⟩
    simp only [Phase.next, hr, Option.isSome_some, or_true, if_true]
    split <;> exact hr
  | _ =>
    refine ⟨r, ?_, RowKept.refl r⟩
    simp only [Phase.next]
    repeat' split
    all_goals exact hr

/-- The phases of `GetUserSessionCached`. -/
def Phase.InGet : Phase → Prop
  | .getCache | .getDeadline | .getRow _ | .getCheck _ _ | .confirm _ | .returned _ => True
  | .publish _ _ p | .eval _ _ _ p | .complete _ _ p => p = .fill ∨ p = .deny
  | _ => False

/-- The phases of `RevokeUserSession`. -/
def Phase.InRevoke : Phase → Prop
  | .revokeRow _ _ _ | .returned _ => True
  | .publish _ _ p | .eval _ _ _ p | .complete _ _ p =>
    ∃ userID now reason, p = .fence (.single userID now reason) ∨
      p = .tombstone (.single userID now reason)
  | .commit _ v => ∃ userID now reason, v = .single userID now reason
  | _ => False

/-- The phases of `RotateUserSessionRefresh` for the presented secret. -/
def Phase.InRotate (k : RefreshKeys) (secret : String) : Phase → Prop
  | .rotateDeadline q _ | .rotateRow q _ _ =>
    q.presentedHash = k.hashRefreshSecret secret ∧
      q.nextHash = k.hashRefreshSecret (k.deriveNextRefreshSecret secret)
  | .rotateSwap q _ _ s =>
    (q.presentedHash = k.hashRefreshSecret secret ∧
      q.nextHash = k.hashRefreshSecret (k.deriveNextRefreshSecret secret)) ∧
    s.refreshHash = q.presentedHash
  | .publish _ _ p | .eval _ _ _ p | .complete _ _ p =>
    p = .rotated ∨ ∃ now, p = .fence (.reuse now) ∨ p = .tombstone (.reuse now)
  | .commit _ v => ∃ now, v = .reuse now
  | .confirm _ | .returned _ => True
  | _ => False

variable {s : UserSession}

variable (e : Option SessionError)

theorem afterWrite_inGet {p : Purpose} (hp : p = .fill ∨ p = .deny) : (afterWrite s p e).InGet := by
  rcases hp with rfl | rfl
  · rcases e with _ | e
    · trivial
    · cases e <;> trivial
  · trivial

theorem Phase.InGet.next (h : φ.InGet) : (φ.next cfg w env).2.InGet := by
  cases φ with
  | getCheck s d =>
    simp only [Phase.next]
    split
    · exact Or.inr rfl
    · exact Or.inl rfl
  | publish s d p =>
    simp only [Phase.next]
    split
    · exact h
    · exact afterWrite_inGet _ h
  | eval s d x p =>
    simp only [Phase.next]
    repeat' split
    all_goals first
      | exact afterWrite_inGet _ h
      | exact h
  | complete s d p =>
    simp only [Phase.next]
    repeat' split
    all_goals exact afterWrite_inGet _ h
  | getCache | getDeadline | getRow | confirm | returned =>
    simp only [Phase.next]
    repeat' split
    all_goals trivial
  | _ => exact h.elim

theorem afterWrite_inRevoke {p : Purpose}
    (hp : ∃ userID now reason, p = .fence (.single userID now reason) ∨
      p = .tombstone (.single userID now reason)) : (afterWrite s p e).InRevoke := by
  obtain ⟨userID, now, reason, rfl | rfl⟩ := hp
  · rcases e with _ | e
    · exact ⟨userID, now, reason, rfl⟩
    · trivial
  · trivial

theorem Phase.InRevoke.next (h : φ.InRevoke) : (φ.next cfg w env).2.InRevoke := by
  cases φ with
  | revokeRow userID now reason =>
    simp only [Phase.next]
    repeat' split
    all_goals first
      | trivial
      | exact ⟨userID, now, reason, Or.inl rfl⟩
  | publish s d p =>
    simp only [Phase.next]
    split
    · exact h
    · exact afterWrite_inRevoke _ h
  | eval s d x p =>
    simp only [Phase.next]
    repeat' split
    all_goals first
      | exact afterWrite_inRevoke _ h
      | exact h
  | complete s d p =>
    simp only [Phase.next]
    repeat' split
    all_goals exact afterWrite_inRevoke _ h
  | commit s v =>
    obtain ⟨userID, now, reason, rfl⟩ := h
    simp only [Phase.next, Revoker.commit]
    repeat' split
    all_goals first
      | trivial
      | exact ⟨userID, now, reason, Or.inr rfl⟩
  | returned o => trivial
  | _ => exact h.elim

theorem afterWrite_inRotate {p : Purpose}
    (hp : p = .rotated ∨ ∃ now, p = .fence (.reuse now) ∨ p = .tombstone (.reuse now)) :
    (afterWrite s p e).InRotate k secret := by
  obtain rfl | ⟨now, rfl | rfl⟩ := hp
  · rcases e with _ | e
    · trivial
    · cases e <;> trivial
  · rcases e with _ | e
    · exact ⟨now, rfl⟩
    · trivial
  · trivial

theorem Phase.InRotate.next (h : φ.InRotate k secret) : (φ.next cfg w env).2.InRotate k secret := by
  cases φ with
  | rotateDeadline q left =>
    cases left with
    | zero => trivial
    | succ left => exact h
  | rotateRow q left d =>
    simp only [Phase.next]
    repeat' split
    all_goals first
      | trivial
      | exact Or.inr ⟨q.now, Or.inl rfl⟩
  | rotateSwap q left d s =>
    simp only [Phase.next]
    repeat' split
    all_goals first
      | trivial
      | exact h.1
      | exact Or.inl rfl
  | publish s d p =>
    simp only [Phase.next]
    split
    · exact h
    · exact afterWrite_inRotate _ h
  | eval s d x p =>
    simp only [Phase.next]
    repeat' split
    all_goals first
      | exact afterWrite_inRotate _ h
      | exact h
  | complete s d p =>
    simp only [Phase.next]
    repeat' split
    all_goals exact afterWrite_inRotate _ h
  | commit s v =>
    obtain ⟨now, rfl⟩ := h
    simp only [Phase.next, Revoker.commit]
    repeat' split
    all_goals first
      | trivial
      | exact Or.inr ⟨now, Or.inr rfl⟩
  | confirm s =>
    simp only [Phase.next]
    repeat' split
    all_goals trivial
  | returned o => trivial
  | _ => exact h.elim

/-- The user and the version of every snapshot and argument a call holds. -/
def Phase.Tied (userID version : Nat) : Phase → Prop
  | .getCheck s _ | .commit s _ | .publish s _ _ | .eval s _ _ _ | .complete s _ _ | .confirm s =>
    s.userID = userID ∧ s.version = version
  | .rotateDeadline q _ | .rotateRow q _ _ => q.userID = userID
  | .rotateSwap q _ _ s => q.userID = userID ∧ s.userID = userID ∧ s.version = version
  | .returned (.session s) => s.userID = userID
  | _ => True

/-- The row is of this user and version, the cache of no higher one. -/
structure World.Tied (userID version : Nat) (w : World) : Prop where
  row : ∀ r, w.row = some r → r.userID = userID ∧ r.version = version
  cache : ∀ c, w.cache = some c → c.entry.userID = userID ∧ c.entry.version ≤ version

variable {userID version : Nat}

theorem afterWrite_tied (hs : s.userID = userID ∧ s.version = version)
    (p : Purpose) (e : Option SessionError) : (afterWrite s p e).Tied userID version := by
  unfold afterWrite
  split
  all_goals first
    | trivial
    | exact hs.1
    | exact hs
    | (rename Revoker => v; cases v <;> trivial)

theorem cacheScript_tied {x : Nat} (h : w.Tied userID version)
    (hs : s.userID = userID ∧ s.version = version) :
    (cacheScript w s.cacheEntry x).1.Tied userID version := by
  rcases cacheScript_cases w s.cacheEntry x with ⟨-, hw⟩ | ⟨-, hw, -⟩
  · rw [hw]
    exact h
  rw [hw]
  refine ⟨h.row, ?_⟩
  intro c hc
  obtain rfl := Option.some.inj hc
  exact ⟨hs.1, Nat.le_of_eq hs.2⟩

theorem Revoker.commit_tied (v : Revoker) (h : w.Tied userID version)
    (hs : s.userID = userID ∧ s.version = version) :
    (v.commit w s).1.Tied userID version ∧ (v.commit w s).2.Tied userID version := by
  have hrow : ∀ r now reason, w.row = some r →
      ({ w with row := some (r.revokedBy now reason) } : World).Tied userID version := by
    intro r now reason hr
    refine ⟨?_, h.cache⟩
    intro r' hr'
    obtain rfl := Option.some.inj hr'
    exact h.row r hr
  cases v <;> simp only [Revoker.commit] <;> repeat' split
  all_goals first
    | exact ⟨h, trivial⟩
    | exact ⟨hrow _ _ _ ‹w.row = some _›, hs⟩
    | (rename_i r hr _; exact ⟨hrow r _ _ hr, h.row r hr⟩)

theorem getUserSessionCache_tied (h : w.Tied userID version)
    (hs : getUserSessionCache w = .ok s) : s.userID = userID := by
  unfold getUserSessionCache at hs
  split at hs
  · cases hs
  rename_i c hc
  split at hs
  · cases hs
  split at hs
  · cases hs
  injection hs with hs
  subst hs
  exact (h.cache c (live_eq_some.1 hc).1).1

/-- No statement of a refresh mixes up users or versions. -/
theorem next_tied (hr : w.row = some r) (hw : w.Tied userID version)
    (hφ : φ.Tied userID version) (hadv : ∀ q d now, φ ≠ .advanceRow q d now) :
    (φ.next cfg w env).1.Tied userID version ∧ (φ.next cfg w env).2.Tied userID version := by
  have hr' := hw.row r hr
  cases φ with
  | advanceRow q d now => exact absurd rfl (hadv q d now)
  | getCache =>
    simp only [Phase.next]
    repeat' split
    · rename_i s hs
      exact ⟨hw, getUserSessionCache_tied hw hs⟩
    all_goals exact ⟨hw, trivial⟩
  | getCheck s d =>
    simp only [Phase.next]
    split <;> exact ⟨hw, hφ⟩
  | createRow s d now =>
    simp only [Phase.next, hr, Option.isSome_some, or_true, if_true]
    split <;> exact ⟨hw, trivial⟩
  | rotateDeadline q left =>
    cases left with
    | zero => exact ⟨hw, trivial⟩
    | succ left => exact ⟨hw, hφ⟩
  | rotateSwap q left d s =>
    simp only [Phase.next, hr]
    split
    · exact ⟨hw, trivial⟩
    split
    · refine ⟨⟨?_, hw.cache⟩, hφ.2⟩
      intro r₀ hr₀
      obtain rfl := Option.some.inj hr₀
      exact hr'
    · exact ⟨hw, hφ.1⟩
  | commit s v =>
    simp only [Phase.next]
    split
    · exact ⟨hw, trivial⟩
    · exact v.commit_tied hw hφ
  | publish s d p =>
    simp only [Phase.next]
    split
    · exact ⟨hw, hφ⟩
    · exact ⟨hw, afterWrite_tied hφ _ _⟩
  | eval s d x p =>
    simp only [Phase.next]
    repeat' split
    all_goals first
      | exact ⟨hw, afterWrite_tied hφ _ _⟩
      | exact ⟨cacheScript_tied hw hφ, afterWrite_tied hφ _ _⟩
      | exact ⟨cacheScript_tied hw hφ, hφ⟩
  | complete s d p =>
    simp only [Phase.next]
    repeat' split
    all_goals exact ⟨hw, afterWrite_tied hφ _ _⟩
  | confirm s =>
    simp only [Phase.next]
    repeat' split
    all_goals first
      | exact ⟨hw, hφ.1⟩
      | exact ⟨hw, trivial⟩
  | returned o => exact ⟨hw, hφ⟩
  | idle | getDeadline | advanceNow => exact ⟨hw, trivial⟩
  | getRow | rotateRow | revokeRow | revokeHashRow | revokeBulkRow =>
    simp only [Phase.next, hr]
    repeat' split
    all_goals first
      | exact ⟨hw, trivial⟩
      | exact ⟨hw, hr'⟩
      | exact ⟨hw, hφ, hr'⟩

end NewApi.Auth
