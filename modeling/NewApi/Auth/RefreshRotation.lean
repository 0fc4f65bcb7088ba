/-
  NewApi.Auth.RefreshRotation

  Rotation of refresh secrets under any interleaving of refresh calls.

  The secrets the row has ever stored form a chain: the first one, what is
  derived from it, and so on.  The row always stores the digest of the `n`-th
  one and, as the previous digest, that of the one before (`Generation`); every
  rotation moves it from `n` to `n + 1`, and with ideal keys no digest of the
  chain comes back.  That is the invariant everything is read off from; the
  calls add what they have seen of the row on the way (`Justified`).
-/

import NewApi.Auth.Refresh

namespace NewApi.Auth

open NewApi.Lib

variable {ι : Type*} {cfg : SessionConfig} {k : RefreshKeys} {first secret : String}
  {w w' : World} {φ : Phase} {ρ : RefreshPhase} {env : Env} {userID version : Nat}

/-! ## The chain of secrets -/

/-- The secret after `n` rotations. -/
def secretAt (k : RefreshKeys) (first : String) (n : Nat) : String :=
  k.deriveNextRefreshSecret^[n] first

theorem secretAt_succ (n : Nat) :
    secretAt k first (n + 1) = k.deriveNextRefreshSecret (secretAt k first n) :=
  Function.iterate_succ_apply' _ _ _

variable {n : Nat}

theorem secretAt_injective (hk : k.Ideal first) {m : Nat}
    (h : secretAt k first m = secretAt k first n) : m = n := by
  induction m generalizing n with
  | zero =>
    cases n with
    | zero => rfl
    | succ n =>
      rw [secretAt_succ] at h
      exact absurd h.symm (hk.first_not_derived _)
  | succ m ih =>
    cases n with
    | zero =>
      rw [secretAt_succ] at h
      exact absurd h (hk.first_not_derived _)
    | succ n =>
      rw [secretAt_succ, secretAt_succ] at h
      rw [ih (hk.derive_injective h)]

/-- The row stores the digest of the `n`-th secret and of the one before. -/
structure Generation (k : RefreshKeys) (first : String) (r : UserSession) (n : Nat) : Prop where
  current : r.refreshHash = k.hashRefreshSecret (secretAt k first n)
  previous : r.previousRefreshHash = "" ∨
    ∃ m, n = m + 1 ∧ r.previousRefreshHash = k.hashRefreshSecret (secretAt k first m)

variable {r : UserSession}

theorem Generation.kept {r' : UserSession} (h : Generation k first r n)
    (hr : RowKept r r') : Generation k first r' n where
  current := by rw [hr.refreshHash, h.current]
  previous := by rw [hr.previousRefreshHash]; exact h.previous

def UserSession.rotatedBy (r : UserSession) (q : RotateArgs) : UserSession :=
  { r with previousRefreshHash := q.presentedHash, previousValidUntil := q.now + q.graceSeconds,
           refreshHash := q.nextHash, lastActiveAt := q.now }

theorem Generation.rotated {q : RotateArgs} (hk : k.Ideal first)
    (h : Generation k first r n) (hq : q.presentedHash = k.hashRefreshSecret secret)
    (hq' : q.nextHash = k.hashRefreshSecret (k.deriveNextRefreshSecret secret))
    (hr : r.refreshHash = q.presentedHash) : Generation k first (r.rotatedBy q) (n + 1) := by
  have hsecret : secret = secretAt k first n :=
    hk.hash_injective (hq.symm.trans (hr.symm.trans h.current))
  constructor
  · rw [secretAt_succ, ← hsecret]
    exact hq'
  · exact Or.inr ⟨n, rfl, by rw [← hsecret]; exact hq⟩

/-! ## What the rotation has seen of the row -/

/-- The rotation has been granted: by its own swap or by the replay window. -/
def Phase.granted : Phase → Bool
  | .publish _ _ .rotated | .eval _ _ _ .rotated | .complete _ _ .rotated | .confirm _
  | .returned (.session _) | .returned (.race _) => true
  | _ => false

/-- The rotation has found the presented digest in the row. -/
def Phase.known : Phase → Bool
  | .rotateSwap _ _ _ _ | .commit _ _ => true
  | .publish _ _ (.fence _) | .eval _ _ _ (.fence _) | .complete _ _ (.fence _)
  | .publish _ _ (.tombstone _) | .eval _ _ _ (.tombstone _) | .complete _ _ (.tombstone _) => true
  | _ => false

variable {s : UserSession}

theorem afterWrite_granted {p : Purpose} {e : Option SessionError}
    (hp : p = .rotated ∨ ∃ now, p = .fence (.reuse now) ∨ p = .tombstone (.reuse now))
    (h : (afterWrite s p e).granted = true) : p = .rotated := by
  obtain rfl | ⟨now, rfl | rfl⟩ := hp
  · rfl
  · cases e <;> cases h
  · cases h

theorem afterWrite_known {p : Purpose} {e : Option SessionError}
    (hp : p = .rotated ∨ ∃ now, p = .fence (.reuse now) ∨ p = .tombstone (.reuse now))
    (h : (afterWrite s p e).known = true) : ∃ now, p = .fence (.reuse now) := by
  obtain rfl | ⟨now, rfl | rfl⟩ := hp
  · rcases e with _ | e
    · cases h
    · cases e <;> cases h
  · exact ⟨now, rfl⟩
  · cases h

/-- How a rotation comes to be granted. -/
theorem granted_next (hφ : φ.InRotate k secret) (h : (φ.next cfg w env).2.granted = true) :
    φ.granted = true ∨
    (∃ q left d s r, φ = .rotateSwap q left d s ∧ w.row = some r ∧ r.inactive q.now ≠ true ∧
      r.refreshHash = q.presentedHash) ∨
    (∃ q left d r, φ = .rotateRow q left d ∧ w.row = some r ∧ r.inactive q.now ≠ true ∧
      r.previousRefreshHash ≠ "" ∧ r.previousRefreshHash = q.presentedHash ∧
      q.now ≤ r.previousValidUntil) := by
  cases φ with
  | rotateDeadline q left => cases left <;> cases h
  | rotateRow q left d =>
    right; right
    simp only [Phase.next] at h
    split at h
    · cases h
    cases hr : w.row with
    | none =>
      rw [hr] at h
      cases h
    | some r =>
      simp only [hr] at h
      split at h
      · cases h
      split at h
      · cases h
      rename_i hin
      split at h
      · cases h
      split at h
      · cases h
      rename_i hprev
      push Not at hprev
      split at h
      · rename_i hnow
        exact ⟨q, left, d, r, rfl, rfl, hin, hprev.1, hprev.2, hnow⟩
      · cases h
  | rotateSwap q left d s =>
    right; left
    simp only [Phase.next] at h
    split at h
    · cases h
    cases hr : w.row with
    | none =>
      rw [hr] at h
      cases h
    | some r =>
      simp only [hr] at h
      split at h
      · rename_i hc
        exact ⟨q, left, d, s, r, rfl, rfl, hc.2.1, hc.2.2⟩
      · cases h
  | publish s d p =>
    left
    simp only [Phase.next] at h
    split at h
    · rcases hφ with rfl | ⟨now, rfl | rfl⟩
      · rfl
      · cases h
      · cases h
    · rw [afterWrite_granted hφ h]
      rfl
  | eval s d x p =>
    left
    have hp : p = .rotated := by
      simp only [Phase.next] at h
      repeat' split at h
      all_goals first
        | exact afterWrite_granted hφ h
        | (rcases hφ with rfl | ⟨now, rfl | rfl⟩ <;> first | rfl | cases h)
    rw [hp]
    rfl
  | complete s d p =>
    left
    have hp : p = .rotated := by
      simp only [Phase.next] at h
      repeat' split at h
      all_goals exact afterWrite_granted hφ h
    rw [hp]
    rfl
  | commit s v =>
    obtain ⟨now, rfl⟩ := hφ
    simp only [Phase.next, Revoker.commit] at h
    repeat' split at h
    all_goals cases h
  | confirm s => exact Or.inl rfl
  | returned o => exact Or.inl h
  | _ => exact hφ.elim

/-- How a rotation comes to know that its digest is or was the current one. -/
theorem known_next (hφ : φ.InRotate k secret) (h : (φ.next cfg w env).2.known = true) :
    φ.known = true ∨
    (∃ q left d r, φ = .rotateRow q left d ∧ w.row = some r ∧
      (r.refreshHash = q.presentedHash ∨
        r.previousRefreshHash ≠ "" ∧ r.previousRefreshHash = q.presentedHash)) := by
  cases φ with
  | rotateDeadline q left => cases left <;> cases h
  | rotateRow q left d =>
    right
    simp only [Phase.next] at h
    split at h
    · cases h
    cases hr : w.row with
    | none =>
      rw [hr] at h
      cases h
    | some r =>
      simp only [hr] at h
      split at h
      · cases h
      split at h
      · cases h
      split at h
      · rename_i hcur
        exact ⟨q, left, d, r, rfl, rfl, Or.inl hcur⟩
      split at h
      · cases h
      rename_i hprev
      push Not at hprev
      exact ⟨q, left, d, r, rfl, rfl, Or.inr hprev⟩
  | rotateSwap q left d s | commit s v => exact Or.inl rfl
  | publish s d p =>
    left
    simp only [Phase.next] at h
    split at h
    · rcases hφ with rfl | ⟨now, rfl | rfl⟩
      · cases h
      · rfl
      · rfl
    · obtain ⟨now, rfl⟩ := afterWrite_known hφ h
      rfl
  | eval s d x p | complete s d p =>
    left
    rcases hφ with rfl | ⟨now, rfl | rfl⟩
    · exfalso
      simp only [Phase.next] at h
      repeat' split at h
      all_goals cases h
    · rfl
    · rfl
  | confirm s =>
    simp only [Phase.next] at h
    repeat' split at h
    all_goals cases h
  | returned o => cases h
  | _ => exact hφ.elim

theorem rotate_next_row (hr : w.row = some r) (hφ : φ.InRotate k secret) :
    (∃ r', (φ.next cfg w env).1.row = some r' ∧ RowKept r r') ∨
    (∃ q left d s, φ = .rotateSwap q left d s ∧ r.refreshHash = q.presentedHash ∧
      (φ.next cfg w env).1.row = some (r.rotatedBy q)) := by
  by_cases hswap : ∃ q left d s, φ = .rotateSwap q left d s
  · obtain ⟨q, left, d, s, rfl⟩ := hswap
    simp only [Phase.next, hr]
    split
    · exact Or.inl ⟨r, hr, RowKept.refl r⟩
    split
    · rename_i hc
      refine Or.inr ⟨q, left, d, s, rfl, hc.2.2, ?_⟩
      simp only [hφ.2]
      rfl
    · exact Or.inl ⟨r, hr, RowKept.refl r⟩
  push Not at hswap
  refine Or.inl (next_kept hr hswap ?_)
  rintro q d now rfl
  exact hφ.elim

/-! ## One step of a refresh call -/

/-- Where a refresh call stands, and whose session it is about. -/
def RefreshPhase.Shape (k : RefreshKeys) (userID version : Nat) : RefreshPhase → Prop
  | .getting _ φ => φ.InGet ∧ φ.Tied userID version
  | .checking _ s => s.userID = userID
  | .revoking _ φ => φ.InRevoke ∧ φ.Tied userID version
  | .rotating secret φ => φ.InRotate k secret ∧ φ.Tied userID version
  | _ => True

/-- What one step of a caller is: time, a statement of one of the three calls it
    makes, or a step of its own that leaves the world alone. -/
inductive RefreshMove (cfg : SessionConfig) (k : RefreshKeys) (w : World) :
    RefreshPhase → RefreshAct → World × RefreshPhase → Prop where
  | tick (ρ : RefreshPhase) (d : Nat) :
      RefreshMove cfg k w ρ (.tick d) ({ w with now := w.now + d }, ρ)
  | stay (ρ : RefreshPhase) (a : RefreshAct) : RefreshMove cfg k w ρ a (w, ρ)
  | begin (secret : String) :
      RefreshMove cfg k w .idle (.begin secret) (w, .getting secret .getCache)
  | get (secret : String) (φ : Phase) (env : Env) :
      RefreshMove cfg k w (.getting secret φ) (.next env)
        ((φ.next cfg w env).1, .getting secret (φ.next cfg w env).2)
  | got (secret : String) (o : Outcome) (env : Env) :
      RefreshMove cfg k w (.getting secret (.returned o)) (.next env) (w, afterGet secret o)
  | inactive (secret : String) (s : UserSession) (u c : Option UserLook) :
      RefreshMove cfg k w (.checking secret s) (.lookUp u c)
        (w, .done secret (.failed .sessionRevoked))
  | lookUp (secret : String) (s : UserSession) (u c : Option UserLook) :
      RefreshMove cfg k w (.checking secret s) (.lookUp u c) (w, afterLookUp cfg k w secret s u c)
  | revoke (secret : String) (φ : Phase) (env : Env) :
      RefreshMove cfg k w (.revoking secret φ) (.next env)
        ((φ.next cfg w env).1, .revoking secret (φ.next cfg w env).2)
  | revoked (secret : String) (o : Outcome) (env : Env) :
      RefreshMove cfg k w (.revoking secret (.returned o)) (.next env)
        (w, .done secret (.failed .sessionRevoked))
  | rotate (secret : String) (φ : Phase) (env : Env) :
      RefreshMove cfg k w (.rotating secret φ) (.next env)
        ((φ.next cfg w env).1, .rotating secret (φ.next cfg w env).2)
  | issue (secret : String) (o : Outcome) (ok : Bool) :
      RefreshMove cfg k w (.rotating secret (.returned o)) (.issue ok)
        (w, .done secret (afterRotate k secret ok o))
  | finish (secret : String) (res : RefreshResult) :
      RefreshMove cfg k w (.done secret res) .finish (w, .idle)

theorem refreshStep_move (cfg : SessionConfig) (k : RefreshKeys) (i : ι) (w : World)
    (ρ : RefreshPhase) (a : RefreshAct) : RefreshMove cfg k w ρ a (refreshStep cfg k i w ρ a) := by
  unfold refreshStep
  split
  all_goals first
    | constructor
    | (split <;> constructor)

theorem afterLookUp_shape (w : World) (hs : s.userID = userID)
    (u c : Option UserLook) : (afterLookUp cfg k w secret s u c).Shape k userID version := by
  unfold afterLookUp
  split
  · split
    · simp only [Op.start]
      split <;> exact ⟨trivial, trivial⟩
    simp only [Op.start]
    split
    · exact ⟨trivial, trivial⟩
    refine ⟨?_, ?_⟩
    · split <;> exact ⟨rfl, rfl⟩
    · split <;> exact hs
  · trivial

variable {a : RefreshAct}

theorem RefreshMove.shape {out : World × RefreshPhase}
    (hm : RefreshMove cfg k w ρ a out) (hr : w.row = some r) (hw : w.Tied userID version)
    (hρ : ρ.Shape k userID version) : out.1.Tied userID version ∧ out.2.Shape k userID version := by
  have hnext (φ env) := @next_tied cfg w φ env r userID version hr hw
  cases hm with
  | tick => exact ⟨⟨hw.row, hw.cache⟩, hρ⟩
  | stay => exact ⟨hw, hρ⟩
  | begin secret => exact ⟨hw, trivial, trivial⟩
  | get secret φ env | revoke secret φ env | rotate secret φ env =>
    have h := hnext φ env hρ.2 (by rintro q d now rfl; exact hρ.1)
    exact ⟨h.1, hρ.1.next, h.2⟩
  | got secret o env =>
    refine ⟨hw, ?_⟩
    unfold afterGet
    split
    · exact hρ.2
    · trivial
    · trivial
  | inactive | revoked | issue | finish => exact ⟨hw, trivial⟩
  | lookUp secret s u c => exact ⟨hw, afterLookUp_shape w hρ u c⟩

theorem RefreshMove.row {out : World × RefreshPhase}
    (hm : RefreshMove cfg k w ρ a out) (hr : w.row = some r) (hρ : ρ.Shape k userID version) :
    (∃ r', out.1.row = some r' ∧ RowKept r r') ∨
    (∃ secret q left d s, ρ = .rotating secret (.rotateSwap q left d s) ∧
      r.refreshHash = q.presentedHash ∧ out.1.row = some (r.rotatedBy q)) := by
  cases hm with
  | get secret φ env | revoke secret φ env =>
    left
    refine next_kept hr ?_ ?_
    · rintro q left d s rfl
      exact hρ.1
    · rintro q d now rfl
      exact hρ.1
  | rotate secret φ env =>
    have hrow := @rotate_next_row cfg k secret w φ env r hr hρ.1
    rcases hrow with h | ⟨q, left, d, s, rfl, h⟩
    · exact Or.inl h
    · exact Or.inr ⟨secret, q, left, d, s, rfl, h⟩
  | _ => exact Or.inl ⟨r, hr, RowKept.refl r⟩

/-! ## Runs -/

/-- The session as it was created, whatever of it is cached. -/
structure RefreshStart (k : RefreshKeys) (first : String) (w : World) (r : UserSession) : Prop where
  row : w.row = some r
  current : r.refreshHash = k.hashRefreshSecret first
  previous : r.previousRefreshHash = ""
  cache : ∀ c, w.cache = some c → c.entry.userID = r.userID ∧ c.entry.version ≤ r.version

def noCalls (w : World) : Workers World ι RefreshPhase where
  shared := w
  proc := fun _ => .idle

/-- The row stores the digest `h` as the current one. -/
def StoresHash (h : String) (ws : Workers World ι RefreshPhase) : Prop :=
  ws.shared.row.map UserSession.refreshHash = some h

/-- Caller `i` is in a call. -/
def Busy (i : ι) (ws : Workers World ι RefreshPhase) : Prop := ws.proc i ≠ .idle

/-- Caller `i` is about to swap in the next secret and the row stores the
    presented one; or it is about to read the row, which stores the presented
    one as the previous, within its replay window, and the next as the current. -/
def Grants (k : RefreshKeys) (i : ι) (secret : String) (ws : Workers World ι RefreshPhase) : Prop :=
  ∃ q left d r, ws.shared.row = some r ∧ r.inactive q.now ≠ true ∧
    ((∃ s, ws.proc i = .rotating secret (.rotateSwap q left d s)) ∧
        r.refreshHash = k.hashRefreshSecret secret ∧
        q.nextHash = k.hashRefreshSecret (k.deriveNextRefreshSecret secret) ∨
      ws.proc i = .rotating secret (.rotateRow q left d) ∧
        r.previousRefreshHash = k.hashRefreshSecret secret ∧ q.now ≤ r.previousValidUntil ∧
        r.refreshHash = k.hashRefreshSecret (k.deriveNextRefreshSecret secret))

variable [DecidableEq ι]

/-- The state after a run of refresh calls that starts in `w`. -/
def refreshRun (cfg : SessionConfig) (k : RefreshKeys) (w : World) (as : List (ι × RefreshAct)) :
    Workers World ι RefreshPhase :=
  run (Workers.step (refreshStep cfg k)) (noCalls w) as

/-- In the run, caller `i`'s call with this secret has found the user disabled
    or at another auth version than the session. -/
def UserChanged (cfg : SessionConfig) (k : RefreshKeys) (w : World) (i : ι) (secret : String)
    (as : List (ι × RefreshAct)) : Prop :=
  ∃ bs cs s u c, as = bs ++ (i, .lookUp (some u) (some c)) :: cs ∧
    (refreshRun cfg k w bs).proc i = .checking secret s ∧
    (u.enabled = false ∨ u.authVersion ≠ s.userAuthVersion ∨
      c.enabled = false ∨ c.authVersion ≠ s.userAuthVersion)

abbrev WasCurrent (cfg : SessionConfig) (k : RefreshKeys) (w : World) (secret : String)
    (as : List (ι × RefreshAct)) : Prop :=
  Once (Workers.step (refreshStep cfg k)) (noCalls w)
    (StoresHash (k.hashRefreshSecret secret)) as

/-- In the run, caller `i`'s call was granted the next secret. -/
abbrev WasGranted (cfg : SessionConfig) (k : RefreshKeys) (w : World) (i : ι) (secret : String)
    (as : List (ι × RefreshAct)) : Prop :=
  Since (Workers.step (refreshStep cfg k)) (noCalls w) (Grants k i secret) (Busy i) as

/-- What the run has shown a caller. -/
def Justified (cfg : SessionConfig) (k : RefreshKeys) (w : World) (i : ι)
    (as : List (ι × RefreshAct)) : RefreshPhase → Prop
  | .revoking secret _ => UserChanged cfg k w i secret as
  | .rotating secret φ =>
    (φ.granted = true → WasGranted cfg k w i secret as) ∧
    (φ.known = true → WasCurrent cfg k w secret as)
  | .done secret (.bundle next _) =>
    next = k.deriveNextRefreshSecret secret ∧ WasGranted cfg k w i secret as
  | _ => True

variable {i : ι} {as : List (ι × RefreshAct)}

theorem Justified.snoc {ia : ι × RefreshAct}
    (h : Justified cfg k w i as ρ) (hbusy : Busy i (refreshRun cfg k w (as ++ [ia]))) :
    Justified cfg k w i (as ++ [ia]) ρ := by
  cases ρ with
  | revoking secret φ =>
    obtain ⟨bs, cs, s, u, c, rfl, hs⟩ := h
    exact ⟨bs, cs ++ [ia], s, u, c, by simp, hs⟩
  | rotating secret φ =>
    refine ⟨fun hg => (h.1 hg).snoc hbusy, fun hn => ?_⟩
    exact once_snoc.2 (Or.inl (h.2 hn))
  | done secret res =>
    cases res with
    | bundle next s => exact ⟨h.1, h.2.snoc hbusy⟩
    | failed e => trivial
  | _ => trivial

structure RefreshInv (cfg : SessionConfig) (k : RefreshKeys) (first : String) (w : World)
    (userID version : Nat) (as : List (ι × RefreshAct)) : Prop where
  row : ∃ r n, (refreshRun cfg k w as).shared.row = some r ∧ Generation k first r n ∧
    ∀ h, Once (Workers.step (refreshStep cfg k)) (noCalls w) (StoresHash h) as ↔
      ∃ j, j ≤ n ∧ h = k.hashRefreshSecret (secretAt k first j)
  tied : (refreshRun cfg k w as).shared.Tied userID version
  shape : ∀ i, ((refreshRun cfg k w as).proc i).Shape k userID version
  justified : ∀ i, Justified cfg k w i as ((refreshRun cfg k w as).proc i)

theorem refreshRun_snoc (w : World) (as : List (ι × RefreshAct)) (ia : ι × RefreshAct) :
    refreshRun cfg k w (as ++ [ia]) = (refreshRun cfg k w as).step (refreshStep cfg k) ia := by
  rw [refreshRun, run_append]
  rfl

theorem once_refreshRun_snoc {P : Workers World ι RefreshPhase → Prop} {ia : ι × RefreshAct} :
    Once (Workers.step (refreshStep cfg k)) (noCalls w) P (as ++ [ia]) ↔
      Once (Workers.step (refreshStep cfg k)) (noCalls w) P as ∨
        P (refreshRun cfg k w (as ++ [ia])) :=
  once_snoc

omit [DecidableEq ι] in
theorem storesHash_iff {ws : Workers World ι RefreshPhase} {h : String}
    (hr : ws.shared.row = some r) : StoresHash h ws ↔ r.refreshHash = h := by
  simp [StoresHash, hr]

theorem refreshInv_nil (hs : RefreshStart k first w r) :
    RefreshInv (ι := ι) cfg k first w r.userID r.version [] where
  row := by
    refine ⟨r, 0, hs.row, ⟨hs.current, Or.inl hs.previous⟩, ?_⟩
    intro h
    have hrow : (noCalls w : Workers World ι RefreshPhase).shared.row = some r := hs.row
    rw [once_nil, storesHash_iff hrow, hs.current]
    constructor
    · rintro rfl
      exact ⟨0, Nat.le_refl 0, rfl⟩
    rintro ⟨j, hj, rfl⟩
    rw [Nat.le_zero.1 hj]
    rfl
  tied := by
    refine ⟨?_, hs.cache⟩
    intro r' hr'
    obtain rfl : r = r' := Option.some.inj (hs.row.symm.trans hr')
    exact ⟨rfl, rfl⟩
  shape := fun _ => trivial
  justified := fun _ => trivial

theorem RefreshInv.row_snoc (hk : k.Ideal first)
    (h : RefreshInv cfg k first w userID version as) (ia : ι × RefreshAct) :
    ∃ r n, (refreshRun cfg k w (as ++ [ia])).shared.row = some r ∧ Generation k first r n ∧
      ∀ h, Once (Workers.step (refreshStep cfg k)) (noCalls w) (StoresHash h) (as ++ [ia]) ↔
        ∃ j, j ≤ n ∧ h = k.hashRefreshSecret (secretAt k first j) := by
  obtain ⟨i, a⟩ := ia
  obtain ⟨r, n, hr, hg, hstored⟩ := h.row
  have hm := refreshStep_move cfg k i (refreshRun cfg k w as).shared
    ((refreshRun cfg k w as).proc i) a
  rcases hm.row hr (h.shape i) with ⟨r', hr', hkept⟩ | ⟨secret, q, left, d, s, hρ, hcur, hr'⟩
  · have hrow : (refreshRun cfg k w (as ++ [(i, a)])).shared.row = some r' := by
      rw [refreshRun_snoc, Workers.step_shared, hr']
    have hg' := hg.kept hkept
    refine ⟨r', n, hrow, hg', ?_⟩
    intro x
    rw [once_refreshRun_snoc, hstored, storesHash_iff hrow, hg'.current]
    constructor
    · rintro (hj | rfl)
      · exact hj
      · exact ⟨n, Nat.le_refl n, rfl⟩
    · exact Or.inl
  have hrow : (refreshRun cfg k w (as ++ [(i, a)])).shared.row = some (r.rotatedBy q) := by
    rw [refreshRun_snoc, Workers.step_shared, hr']
  have hshape := h.shape i
  rw [hρ] at hshape
  have hg' : Generation k first (r.rotatedBy q) (n + 1) :=
    hg.rotated hk hshape.1.1.1 hshape.1.1.2 hcur
  refine ⟨_, n + 1, hrow, hg', ?_⟩
  intro x
  rw [once_refreshRun_snoc, hstored, storesHash_iff hrow, hg'.current]
  constructor
  · rintro (⟨j, hj, hx⟩ | rfl)
    · exact ⟨j, Nat.le_succ_of_le hj, hx⟩
    · exact ⟨n + 1, Nat.le_refl _, rfl⟩
  rintro ⟨j, hj, hx⟩
  rcases Nat.le_or_eq_of_le_succ hj with hj | rfl
  · exact Or.inl ⟨j, hj, hx⟩
  · exact Or.inr hx.symm

theorem RefreshInv.wasCurrent (h : RefreshInv cfg k first w userID version as)
    (hr : (refreshRun cfg k w as).shared.row = some r)
    (hs : r.refreshHash = k.hashRefreshSecret secret ∨
      r.previousRefreshHash ≠ "" ∧ r.previousRefreshHash = k.hashRefreshSecret secret) :
    WasCurrent cfg k w secret as := by
  obtain ⟨r', n, hr', hg, hstored⟩ := h.row
  obtain rfl : r = r' := Option.some.inj (hr.symm.trans hr')
  rcases hs with hs | ⟨hne, hs⟩
  · exact (hstored _).2 ⟨n, Nat.le_refl n, by rw [← hs, hg.current]⟩
  rcases hg.previous with hp | ⟨m, rfl, hp⟩
  · exact absurd hp hne
  · exact (hstored _).2 ⟨m, Nat.le_succ m, by rw [← hs, hp]⟩

theorem Generation.next_of_previous (hk : k.Ideal first)
    (hg : Generation k first r n) (hne : r.previousRefreshHash ≠ "")
    (hs : r.previousRefreshHash = k.hashRefreshSecret secret) :
    r.refreshHash = k.hashRefreshSecret (k.deriveNextRefreshSecret secret) := by
  rcases hg.previous with hp | ⟨m, rfl, hp⟩
  · exact absurd hp hne
  · have hsecret : secret = secretAt k first m := hk.hash_injective (hs.symm.trans hp)
    rw [hg.current, secretAt_succ, hsecret]

theorem afterRotate_bundle {o : Outcome} {ok : Bool} {next : String}
    (h : afterRotate k secret ok o = .bundle next s) :
    next = k.deriveNextRefreshSecret secret ∧ (Phase.returned o).granted = true := by
  unfold afterRotate at h
  split at h
  · split at h
    · injection h with h1 h2
      exact ⟨h1.symm, rfl⟩
    · cases h
  · split at h
    · split at h
      · injection h with h1 h2
        exact ⟨h1.symm, rfl⟩
      · cases h
    · cases h
  · cases h
  · cases h
  · cases h

section
variable (hk : k.Ideal first) (h : RefreshInv cfg k first w userID version as)
include hk h

/-- What the mover has been shown after its step. -/
theorem RefreshInv.justified_self (i : ι) (a : RefreshAct) :
    Justified cfg k w i (as ++ [(i, a)]) ((refreshRun cfg k w (as ++ [(i, a)])).proc i) := by
  have hproc : (refreshRun cfg k w (as ++ [(i, a)])).proc i =
      (refreshStep cfg k i (refreshRun cfg k w as).shared
        ((refreshRun cfg k w as).proc i) a).2 := by
    rw [refreshRun_snoc, Workers.step_proc_self]
  have hm := refreshStep_move cfg k i (refreshRun cfg k w as).shared
    ((refreshRun cfg k w as).proc i) a
  have hshape := h.shape i
  have hjust := h.justified i
  rw [hproc]
  generalize hρ : (refreshRun cfg k w as).proc i = ρ at hm hshape hjust hproc
  generalize hout : refreshStep cfg k i (refreshRun cfg k w as).shared ρ a = out at hm hproc
  have hbusy : out.2 ≠ .idle → Busy i (refreshRun cfg k w (as ++ [(i, a)])) := by
    intro hne
    rw [Busy, hproc]
    exact hne
  cases hm with
  | tick d | stay a =>
    by_cases hi : ρ = .idle
    · rw [hi]
      trivial
    · exact hjust.snoc (hbusy hi)
  | begin secret => trivial
  | get secret φ env => trivial
  | got secret o env =>
    unfold afterGet
    split <;> trivial
  | inactive secret s u c => trivial
  | lookUp secret s u c =>
    unfold afterLookUp
    split
    · split
      · rename_i u c hc
        exact ⟨as, [], s, u, c, rfl, hρ, hc⟩
      simp only [Op.start]
      split
      · exact ⟨by rintro ⟨⟩, fun h => by cases h⟩
      · exact ⟨by rintro ⟨⟩, fun h => by cases h⟩
    · trivial
  | revoke secret φ env => exact hjust.snoc (hbusy (fun h => by cases h))
  | revoked secret o env => trivial
  | rotate secret φ env =>
    have hb : Busy i (refreshRun cfg k w (as ++ [(i, .next env)])) := hbusy (fun h => by cases h)
    have hb₀ : Busy i (refreshRun cfg k w as) := by
      rw [Busy, hρ]
      exact fun h => by cases h
    refine ⟨fun hg => ?_, fun hn => ?_⟩
    · rcases granted_next hshape.1 hg with hg | ⟨q, left, d, s, r, rfl, hr, hin, hcur⟩ |
        ⟨q, left, d, r, rfl, hr, hin, hne, hprev, hnow⟩
      · exact (hjust.1 hg).snoc hb
      · have hargs := hshape.1.1
        refine Since.of_step ⟨q, left, d, r, hr, hin, Or.inl ⟨⟨s, hρ⟩, ?_, hargs.2⟩⟩ hb₀ hb
        rw [hcur, hargs.1]
      have hargs := hshape.1
      obtain ⟨r', n, hr', hgen, -⟩ := h.row
      obtain rfl : r = r' := Option.some.inj (hr.symm.trans hr')
      rw [hargs.1] at hprev
      exact Since.of_step ⟨q, left, d, r, hr, hin,
        Or.inr ⟨hρ, hprev, hnow, hgen.next_of_previous hk hne hprev⟩⟩ hb₀ hb
    refine once_refreshRun_snoc.2 (Or.inl ?_)
    rcases known_next hshape.1 hn with hn | ⟨q, left, d, r, rfl, hr, hfound⟩
    · exact hjust.2 hn
    · rw [hshape.1.1] at hfound
      exact h.wasCurrent hr hfound
  | issue secret o ok =>
    cases hres : afterRotate k secret ok o with
    | bundle next s =>
      obtain ⟨hnext, hg⟩ := afterRotate_bundle hres
      exact ⟨hnext, (hjust.1 hg).snoc (hbusy (fun h => by cases h))⟩
    | failed e => trivial
  | finish secret res => trivial

theorem RefreshInv.snoc (ia : ι × RefreshAct) :
    RefreshInv cfg k first w userID version (as ++ [ia]) := by
  obtain ⟨i, a⟩ := ia
  obtain ⟨r, -, hr, -⟩ := h.row
  have hself := (refreshStep_move cfg k i (refreshRun cfg k w as).shared
    ((refreshRun cfg k w as).proc i) a).shape hr h.tied (h.shape i)
  refine ⟨h.row_snoc hk (i, a), ?_, ?_, ?_⟩
  · rw [refreshRun_snoc, Workers.step_shared]
    exact hself.1
  · intro j
    rw [refreshRun_snoc]
    by_cases hji : j = i
    · subst hji
      rw [Workers.step_proc_self]
      exact hself.2
    · rw [Workers.step_proc_of_ne _ _ hji]
      exact h.shape j
  intro j
  by_cases hji : j = i
  · subst hji
    exact h.justified_self hk j a
  have hj : (refreshRun cfg k w (as ++ [(i, a)])).proc j =
      (refreshRun cfg k w as).proc j := by
    rw [refreshRun_snoc, Workers.step_proc_of_ne _ _ hji]
  rw [hj]
  by_cases hidle : (refreshRun cfg k w as).proc j = .idle
  · rw [hidle]
    trivial
  refine (h.justified j).snoc ?_
  rw [Busy, hj]
  exact hidle

end

theorem refreshInv_run (cfg : SessionConfig) (hk : k.Ideal first)
    (hs : RefreshStart k first w r) (as : List (ι × RefreshAct)) : RefreshInv cfg k first w r.userID r.version as := by
  induction as using List.reverseRecOn with
  | nil => exact refreshInv_nil hs
  | append_singleton as ia ih => exact ih.snoc hk ia

/-! ## One winner for each stored digest -/

/-- The step replaces the stored digest `h`. -/
def ReplacesHash (cfg : SessionConfig) (k : RefreshKeys) (h : String)
    (ws : Workers World ι RefreshPhase) (ia : ι × RefreshAct) : Prop :=
  StoresHash h ws ∧ ¬ StoresHash h (ws.step (refreshStep cfg k) ia)

theorem replaced_once (hk : k.Ideal first) (hs : RefreshStart k first w r)
    {h : String} {bs : List (ι × RefreshAct)} {a b : ι × RefreshAct}
    (ha : ReplacesHash cfg k h (refreshRun cfg k w as) a) :
    ¬ ReplacesHash cfg k h (refreshRun cfg k w (as ++ a :: bs)) b := by
  rintro ⟨hb, -⟩
  obtain ⟨hstored, hreplaced⟩ := ha
  rw [← refreshRun_snoc] at hreplaced
  obtain ⟨r₁, n₁, hr₁, hg₁, hset₁⟩ := (refreshInv_run cfg hk hs (as ++ [a])).row
  obtain ⟨r₂, n₂, hr₂, hg₂, hset₂⟩ := (refreshInv_run cfg hk hs (as ++ a :: bs)).row
  -- `h` was stored before the step, so it is one of the first `n₁` digests
  have honce : Once (Workers.step (refreshStep cfg k)) (noCalls w) (StoresHash h) (as ++ [a]) :=
    once_refreshRun_snoc.2 (Or.inl (Once.now hstored))
  obtain ⟨j, hj, rfl⟩ := (hset₁ h).1 honce
  have hj₂ : j = n₂ := by
    rw [storesHash_iff hr₂, hg₂.current] at hb
    exact (secretAt_injective hk (hk.hash_injective hb)).symm
  -- and the digest that replaced it is stored by the end
  have hn₁ : Once (Workers.step (refreshStep cfg k)) (noCalls w)
      (StoresHash (k.hashRefreshSecret (secretAt k first n₁))) (as ++ a :: bs) := by
    refine ⟨as ++ [a], ⟨bs, by simp⟩, ?_⟩
    exact (storesHash_iff hr₁).2 hg₁.current
  obtain ⟨j', hj', heq⟩ := (hset₂ _).1 hn₁
  have hn₁' : n₁ = j' := secretAt_injective hk (hk.hash_injective heq)
  have hjn : j = n₁ := by omega
  rw [storesHash_iff hr₁, hg₁.current, hjn] at hreplaced
  exact hreplaced rfl

/-! ## A replayed predecessor -/

theorem row_active_or_revoked {ws : Workers World ι RefreshPhase} {t : Nat}
    (hshape : ∀ i, (ws.proc i).Shape k userID version) (hr : ws.shared.row = some r)
    (h : r.status = .revoked ∨ r.inactive t ≠ true) (ia : ι × RefreshAct) :
    ∃ r', (ws.step (refreshStep cfg k) ia).shared.row = some r' ∧
      (r'.status = .revoked ∨ r.status ≠ .revoked ∧ r'.inactive t ≠ true) := by
  have hm := refreshStep_move cfg k ia.1 ws.shared (ws.proc ia.1) ia.2
  rcases hm.row hr (hshape ia.1) with ⟨r', hr', hkept⟩ | ⟨_, q, _, _, _, -, -, hr'⟩
  · refine ⟨r', hr', ?_⟩
    by_cases hrev : r.status = .revoked
    · rcases hkept.status with hs | ⟨hs, -⟩
      · exact Or.inl hs
      · exact Or.inl (hs.trans hrev)
    rcases hkept.inactive (h.resolve_left hrev) with hs | hs
    · exact Or.inl hs
    · exact Or.inr ⟨hrev, hs⟩
  refine ⟨_, hr', ?_⟩
  by_cases hrev : r.status = .revoked
  · exact Or.inl hrev
  · exact Or.inr ⟨hrev, h.resolve_left hrev⟩

/-- How far a call is that has found its secret replayed at time `t`. -/
def ReuseStage (secret : String) (t : Nat) : Nat → RefreshPhase → Prop
  | 0, ρ => ∃ s, ρ = .rotating secret (.publish s none (.fence (.reuse t))) ∧ s.status ≠ .active
  | 1, ρ => ∃ s x, ρ = .rotating secret (.eval s none x (.fence (.reuse t))) ∧ s.status ≠ .active
  | 2, ρ => ∃ s, ρ = .rotating secret (.commit s (.reuse t))
  | _, _ => False

omit [DecidableEq ι] in
theorem ReuseStage.wait {t : Nat} (h : ReuseStage secret t n ρ)
    (ha : ∀ env, a ≠ .next env) : ReuseStage secret t n (refreshStep cfg k i w ρ a).2 := by
  have hsame : (refreshStep cfg k i w ρ a).2 = ρ := by
    rcases n with _ | _ | _ | n
    · obtain ⟨s, rfl, -⟩ := h
      cases a <;> first | rfl | exact absurd rfl (ha _)
    · obtain ⟨s, x, rfl, -⟩ := h
      cases a <;> first | rfl | exact absurd rfl (ha _)
    · obtain ⟨s, rfl⟩ := h
      cases a <;> first | rfl | exact absurd rfl (ha _)
    · exact h.elim
  rw [hsame]
  exact h

theorem ReuseStage.next {ws : Workers World ι RefreshPhase} {t : Nat}
    (h : ReuseStage secret t n (ws.proc i)) (hw : ws.shared.Tied userID version)
    (hshape : (ws.proc i).Shape k userID version) (hr : ws.shared.row = some r)
    (hact : r.inactive t ≠ true) :
    ReuseStage secret t (n + 1) ((ws.step (refreshStep cfg k) (i, .next {})).proc i) ∨
    ∃ r', (ws.step (refreshStep cfg k) (i, .next {})).shared.row = some r' ∧
      r'.status = .revoked := by
  rw [Workers.step_proc_self, Workers.step_shared]
  rcases n with _ | _ | _ | n
  · obtain ⟨s, hρ, hs⟩ := h
    left
    rw [hρ]
    simp only [refreshStep, Phase.next, redisExpiration_deny hs]
    exact ⟨s, _, rfl, hs⟩
  · obtain ⟨s, x, hρ, hs⟩ := h
    left
    rw [hρ] at hshape ⊢
    have haccept : (cacheScript ws.shared s.cacheEntry x).2 = true := by
      have hs' : s.cacheEntry.status ≠ .active := hs
      unfold cacheScript
      split
      · rename_i c hc
        have hv := (hw.cache c (live_eq_some.1 hc).1).2
        have hsv : s.cacheEntry.version = version := hshape.2.2
        rw [if_neg (fun hd => hs' hd.1), if_neg (by omega)]
      · rfl
    simp only [refreshStep, Phase.next, haccept, if_true, if_neg hs]
    exact ⟨s, rfl⟩
  · obtain ⟨s, hρ⟩ := h
    right
    rw [hρ] at hshape ⊢
    have hu : r.userID = s.userID := (hw.row r hr).1.trans hshape.2.1.symm
    refine ⟨r.revokedBy t "refresh_reuse", ?_, rfl⟩
    simp only [refreshStep, Phase.next, Revoker.commit, hr]
    rw [if_neg (by simp), if_pos ⟨hu, hact⟩]
  · exact h.elim

/-- A call that reads its secret as the previous one after its window, and whose
    next three statements do not fail, revokes the session. -/
theorem replayed_predecessor_revokes {r₀ : UserSession} {q : RotateArgs} {left d : Nat}
    (hk : k.Ideal first) (hs : RefreshStart k first w r₀)
    (hi : (refreshRun cfg k w as).proc i = .rotating secret (.rotateRow q left d))
    (hr : (refreshRun cfg k w as).shared.row = some r) (hact : r.inactive q.now ≠ true)
    (hprev : r.previousRefreshHash = k.hashRefreshSecret secret)
    (hlate : r.previousValidUntil < q.now) (bs : List (ι × RefreshAct))
    (hok : ∀ env, (i, .next env) ∈ bs → env = {}) :
    ∃ r', (refreshRun cfg k w (as ++ (i, .next {}) :: bs)).shared.row = some r' ∧
      (r'.status = .revoked ∨ r'.inactive q.now ≠ true ∧
        ∃ n, bs.count (i, .next {}) ≤ n ∧ ReuseStage secret q.now n
          ((refreshRun cfg k w (as ++ (i, .next {}) :: bs)).proc i)) := by
  induction bs using List.reverseRecOn with
  | nil =>
    have hinv := refreshInv_run cfg hk hs as
    have hshape := hinv.shape i
    rw [hi] at hshape
    obtain ⟨r', n, hr', hg, -⟩ := hinv.row
    obtain rfl : r = r' := Option.some.inj (hr.symm.trans hr')
    have hne : r.previousRefreshHash ≠ "" := by
      rw [hprev]
      exact hk.hash_ne_empty secret
    -- the current digest is that of the next secret, so not the presented one
    have hcur : r.refreshHash ≠ q.presentedHash := by
      rw [hshape.1.1]
      rcases hg.previous with hp | ⟨m, rfl, hp⟩
      · exact absurd hp hne
      intro heq
      have hsecret : secretAt k first (m + 1) = secretAt k first m :=
        (hk.hash_injective (hg.current.symm.trans heq)).trans
          (hk.hash_injective (hprev.symm.trans hp))
      have := secretAt_injective hk hsecret
      omega
    have hu : r.userID = q.userID := (hinv.tied.row r hr).1.trans hshape.2.symm
    have hnext : refreshStep cfg k i (refreshRun cfg k w as).shared
        ((refreshRun cfg k w as).proc i) (.next {}) =
        ((refreshRun cfg k w as).shared, .rotating secret
          (.publish (r.fenced q.now "refresh_reuse") none (.fence (.reuse q.now)))) := by
      rw [hi]
      simp only [refreshStep, Phase.next, hr]
      rw [if_neg (by simp), if_neg (not_not.2 hu), if_neg hact, if_neg hcur,
        if_neg (by rw [hshape.1.1]; exact not_or.2 ⟨hne, not_not.2 hprev⟩), if_neg (by omega)]
    rw [refreshRun_snoc, Workers.step_shared, Workers.step_proc_self, hnext]
    exact ⟨r, hr, Or.inr ⟨hact, 0, Nat.le_refl 0, _, rfl, fun h => by cases h⟩⟩
  | append_singleton bs ia ih =>
    obtain ⟨r', hr', hstage⟩ := ih fun env henv => hok env (List.mem_append_left _ henv)
    have hinv := refreshInv_run cfg hk hs (as ++ (i, .next {}) :: bs)
    have hsnoc : refreshRun cfg k w (as ++ (i, .next {}) :: (bs ++ [ia])) =
        (refreshRun cfg k w (as ++ (i, .next {}) :: bs)).step (refreshStep cfg k) ia := by
      rw [← refreshRun_snoc]
      simp
    rw [hsnoc]
    obtain ⟨r'', hr'', hrow⟩ := row_active_or_revoked hinv.shape hr'
      (hstage.imp_right And.left) ia
    refine ⟨r'', hr'', ?_⟩
    rcases hrow with hrev | ⟨hnot, hact'⟩
    · exact Or.inl hrev
    obtain ⟨hact₀, n, hn, hst⟩ := hstage.resolve_left hnot
    by_cases hown : ∃ env, ia = (i, .next env)
    · obtain ⟨env, rfl⟩ := hown
      obtain rfl := hok env (List.mem_append_right _ (List.mem_singleton.2 rfl))
      rcases hst.next hinv.tied (hinv.shape i) hr' hact₀ with hst' | ⟨r₁, hr₁, hrev⟩
      · refine Or.inr ⟨hact', n + 1, ?_, hst'⟩
        rw [List.count_append, List.count_singleton_self]
        omega
      · rw [hr₁] at hr''
        exact Or.inl (Option.some.inj hr'' ▸ hrev)
    refine Or.inr ⟨hact', n, ?_, ?_⟩
    · have hzero : [ia].count (i, .next {}) = 0 := by
        refine List.count_eq_zero_of_not_mem fun hmem => ?_
        exact hown ⟨{}, (List.mem_singleton.1 hmem).symm⟩
      rw [List.count_append, hzero]
      exact hn
    obtain ⟨j, a⟩ := ia
    by_cases hji : i = j
    · subst hji
      rw [Workers.step_proc_self]
      exact hst.wait fun env ha => hown ⟨env, by rw [ha]⟩
    · rw [Workers.step_proc_of_ne _ _ hji]
      exact hst

/-! ## A secret that was never current -/

def RefreshPhase.presents : RefreshPhase → Option String
  | .idle => none
  | .getting secret _ | .checking secret _ | .revoking secret _ | .rotating secret _
  | .done secret _ => some secret

theorem next_row_of_not_known (hφ : φ.InRotate k secret) (hn : φ.known = false) :
    (φ.next cfg w env).1.row = w.row := by
  cases φ with
  | eval s d x p =>
    simp only [Phase.next]
    repeat' split
    all_goals first
      | rfl
      | rw [cacheScript_row]
  | rotateSwap | commit => cases hn
  | createRow | advanceRow => exact hφ.elim
  | _ =>
    simp only [Phase.next]
    repeat' split
    all_goals rfl

theorem inGet_row (hφ : φ.InGet) : (φ.next cfg w env).1.row = w.row := by
  cases φ with
  | eval s d x p =>
    simp only [Phase.next]
    repeat' split
    all_goals first
      | rfl
      | rw [cacheScript_row]
  | rotateSwap | commit | createRow | advanceRow => exact hφ.elim
  | _ =>
    simp only [Phase.next]
    repeat' split
    all_goals rfl

theorem unknown_secret_keeps_row {r₀ : UserSession}
    (hk : k.Ideal first) (hs : RefreshStart k first w r₀)
    (hi : ((refreshRun cfg k w as).proc i).presents = some secret)
    (hnew : ¬ WasCurrent cfg k w secret as) :
    (refreshRun cfg k w (as ++ [(i, a)])).shared.row = (refreshRun cfg k w as).shared.row ∨
    UserChanged cfg k w i secret as := by
  have hinv := refreshInv_run cfg hk hs as
  have hshape := hinv.shape i
  have hjust := hinv.justified i
  rw [refreshRun_snoc, Workers.step_shared]
  have hm := refreshStep_move cfg k i (refreshRun cfg k w as).shared
    ((refreshRun cfg k w as).proc i) a
  generalize (refreshRun cfg k w as).proc i = ρ at hi hshape hjust hm
  generalize refreshStep cfg k i (refreshRun cfg k w as).shared ρ a = out at hm
  cases hm with
  | get secret' φ env => exact Or.inl (inGet_row hshape.1)
  | revoke secret' φ env =>
    obtain rfl := Option.some.inj hi
    exact Or.inr hjust
  | rotate secret' φ env =>
    obtain rfl := Option.some.inj hi
    left
    refine next_row_of_not_known hshape.1 ?_
    rw [← Bool.not_eq_true]
    exact fun hn => hnew (hjust.2 hn)
  | _ => exact Or.inl rfl

/-- **Refresh-token rotation.** -/
theorem refresh_rotation (cfg : SessionConfig) {k : RefreshKeys} {first : String} {w : World}
    {r₀ : UserSession} (hk : k.Ideal first) (hs : RefreshStart k first w r₀) :
    -- a stored digest is replaced at most once
    (∀ (as bs : List (ι × RefreshAct)) (a b : ι × RefreshAct) (h : String),
      ReplacesHash cfg k h (refreshRun cfg k w as) a →
      ¬ ReplacesHash cfg k h (refreshRun cfg k w (as ++ a :: bs)) b) ∧
    -- a bundle is only given for the current secret or for its predecessor in the window
    (∀ (as : List (ι × RefreshAct)) (i : ι) (secret next : String) (s : UserSession),
      (refreshRun cfg k w as).proc i = .done secret (.bundle next s) →
      next = k.deriveNextRefreshSecret secret ∧ WasGranted cfg k w i secret as) ∧
    -- the predecessor after its window revokes, once fence and update went through
    (∀ (as bs : List (ι × RefreshAct)) (i : ι) (secret : String) (q : RotateArgs)
      (left d : Nat) (r : UserSession),
      (refreshRun cfg k w as).proc i = .rotating secret (.rotateRow q left d) →
      (refreshRun cfg k w as).shared.row = some r → r.inactive q.now ≠ true →
      r.previousRefreshHash = k.hashRefreshSecret secret → r.previousValidUntil < q.now →
      (∀ env, (i, .next env) ∈ bs → env = {}) → 3 ≤ bs.count (i, .next {}) →
      ∃ r', (refreshRun cfg k w (as ++ (i, .next {}) :: bs)).shared.row = some r' ∧
        r'.status = .revoked) ∧
    -- a secret that was never current changes nothing, unless the user changed
    (∀ (as : List (ι × RefreshAct)) (i : ι) (a : RefreshAct) (secret : String),
      ((refreshRun cfg k w as).proc i).presents = some secret →
      ¬ WasCurrent cfg k w secret as →
      (refreshRun cfg k w (as ++ [(i, a)])).shared.row = (refreshRun cfg k w as).shared.row ∨
      UserChanged cfg k w i secret as) := by
  refine ⟨?_, ?_, ?_, ?_⟩
  · intro as bs a b h ha
    exact replaced_once hk hs ha
  · intro as i secret next s hi
    have hjust := (refreshInv_run cfg hk hs as).justified i
    rw [hi] at hjust
    exact hjust
  · intro as bs i secret q left d r hi hr hact hprev hlate hok hcount
    obtain ⟨r', hr', hrev | ⟨-, n, hn, hst⟩⟩ :=
      replayed_predecessor_revokes hk hs hi hr hact hprev hlate bs hok
    · exact ⟨r', hr', hrev⟩
    · obtain ⟨m, rfl⟩ : ∃ m, n = m + 3 := ⟨n - 3, by omega⟩
      exact hst.elim
  · intro as i a secret hi hnew
    exact unknown_secret_keeps_row hk hs hi hnew

/-! ## Where the claim of the caller is not enough -/

/-- Keys that do not collide: the digest marks the secret, the next secret is
    longer. -/
def markKeys : RefreshKeys where
  hashRefreshSecret := fun secret => "#" ++ secret
  deriveNextRefreshSecret := fun secret => secret ++ "+"

theorem markKeys_ideal : markKeys.Ideal "s" where
  hash_ne_empty := by
    intro secret h
    have hlen := congrArg String.length h
    simp [markKeys] at hlen
  hash_injective := by
    intro a b h
    exact String.append_right_inj "#" |>.1 h
  derive_injective := by
    intro a b h
    exact String.append_left_inj "+" |>.1 h
  first_not_derived := by
    intro secret h
    have hlist := congrArg String.toList h
    simp only [markKeys, String.toList_append] at hlist
    have hlast := congrArg List.getLast? hlist
    have hplus : "+".toList.getLast? = some '+' := by decide
    rw [List.getLast?_append, hplus, Option.some_or] at hlast
    revert hlast
    decide

/-- A session of user 1 with the first secret `s`, at time 1000 s, not cached. -/
def sessionWorld : World where
  now := 1000000
  row := some
    { userID := 1, version := 1, userAuthVersion := 1, status := .active, refreshHash := "#s",
      previousRefreshHash := "", previousValidUntil := 0, lastActiveAt := 1, expiresAt := 9000,
      revokedAt := 0, revokedReason := "" }
  cache := none

def enabledUser (authVersion : Nat) : Option UserLook := some ⟨true, authVersion⟩

/-- Caller 0 presents a wrong secret while the user has moved to auth version 2. -/
def wrongSecretRun : List (Nat × RefreshAct) :=
  [(0, .begin "wrong"), (0, .next {}), (0, .next {}), (0, .next {}), (0, .next {}), (0, .next {}),
   (0, .next {}), (0, .next {}), (0, .next {}), (0, .lookUp (enabledUser 2) (enabledUser 2)),
   (0, .next {}), (0, .next {}), (0, .next {})]

/-- Caller 0 exchanges `s`, and presents it again 31 seconds later. -/
def replayRun : List (Nat × RefreshAct) :=
  [(0, .begin "s"), (0, .next {}), (0, .next {}), (0, .next {}), (0, .next {}), (0, .next {}),
   (0, .next {}), (0, .next {}), (0, .next {}), (0, .lookUp (enabledUser 1) (enabledUser 1)),
   (0, .next {}), (0, .next {}), (0, .next {}), (0, .next {}), (0, .next {}), (0, .next {}),
   (0, .issue true), (0, .finish), (0, .tick 31000),
   (0, .begin "s"), (0, .next {}), (0, .next {}),
   (0, .lookUp (enabledUser 1) (enabledUser 1)), (0, .next {})]

def replayArgs : RotateArgs := rotateArgs markKeys "s" 1 1031

/-- The row it finds. -/
def replayRow : UserSession where
  userID := 1
  version := 1
  userAuthVersion := 1
  status := .active
  refreshHash := "#s+"
  previousRefreshHash := "#s"
  previousValidUntil := 1030
  lastActiveAt := 1000
  expiresAt := 9000
  revokedAt := 0
  revokedReason := ""

theorem refreshStart_session :
    RefreshStart markKeys "s" sessionWorld (sessionWorld.row.get (by decide)) where
  row := by decide +kernel
  current := by decide +kernel
  previous := by decide +kernel
  cache := (fun _ h => by cases h)

instance StoresHash.decidable (h : String) (ws : Workers World Nat RefreshPhase) :
    Decidable (StoresHash h ws) :=
  inferInstanceAs (Decidable (ws.shared.row.map UserSession.refreshHash = some h))

theorem wrong_never_current : ¬ WasCurrent minuteCache markKeys sessionWorld "wrong"
    wrongSecretRun := by
  rintro ⟨bs, hbs, h⟩
  have hall : ∀ n < 14, ¬ StoresHash (markKeys.hashRefreshSecret "wrong")
      (refreshRun minuteCache markKeys sessionWorld (wrongSecretRun.take n)) := by
    decide +kernel
  have hlen : bs.length < 14 := Nat.lt_succ_of_le hbs.length_le
  rw [List.prefix_iff_eq_take.1 hbs] at h
  exact hall bs.length hlen h

/-- A wrong secret revokes the session of a user whose auth version moved on,
    and a replayed predecessor does not when Redis refuses the fence. -/
theorem wrongSecret_revokes_and_failedFence_keeps :
    (¬ ∀ (as : List (Nat × RefreshAct)) (i : Nat) (a : RefreshAct) (secret : String),
      ((refreshRun minuteCache markKeys sessionWorld as).proc i).presents = some secret →
      ¬ WasCurrent minuteCache markKeys sessionWorld secret as →
      (refreshRun minuteCache markKeys sessionWorld (as ++ [(i, a)])).shared.row =
        (refreshRun minuteCache markKeys sessionWorld as).shared.row) ∧
    (¬ ∀ (as bs : List (Nat × RefreshAct)) (i : Nat) (secret : String) (q : RotateArgs)
      (left d : Nat) (r : UserSession) (res : RefreshResult),
      (refreshRun minuteCache markKeys sessionWorld as).proc i =
        .rotating secret (.rotateRow q left d) →
      (refreshRun minuteCache markKeys sessionWorld as).shared.row = some r →
      r.inactive q.now ≠ true → r.previousRefreshHash = markKeys.hashRefreshSecret secret →
      r.previousValidUntil < q.now →
      (refreshRun minuteCache markKeys sessionWorld (as ++ bs)).proc i = .done secret res →
      ∃ r', (refreshRun minuteCache markKeys sessionWorld (as ++ bs)).shared.row = some r' ∧
        r'.status = .revoked) := by
  constructor
  · intro h
    have hrow := h wrongSecretRun 0 (.next {}) "wrong" (by decide +kernel) wrong_never_current
    revert hrow
    decide +kernel
  intro h
  obtain ⟨r', hr', hrev⟩ := h replayRun
    [(0, .next {}), (0, .next {}), (0, .next { redis := .down }), (0, .issue true)] 0 "s"
    replayArgs 2 1091000 replayRow (.failed .other) (by decide +kernel) (by decide +kernel)
    (by decide +kernel) (by decide +kernel) (by decide +kernel) (by decide +kernel)
  have hrow : (refreshRun minuteCache markKeys sessionWorld (replayRun ++
      [(0, .next {}), (0, .next {}), (0, .next { redis := .down }), (0, .issue true)])).shared.row
      = some replayRow := by decide +kernel
  rw [hrow] at hr'
  rw [← Option.some.inj hr'] at hrev
  cases hrev

/-- With Redis up the replay revokes the session. -/
theorem replay_revokes_session :
    ∃ r', (refreshRun minuteCache markKeys sessionWorld (replayRun ++ (0, .next {}) ::
        [(0, .next {}), (0, .next {}), (0, .next {})])).shared.row = some r' ∧
      r'.status = .revoked := by
  refine (refresh_rotation (ι := Nat) minuteCache markKeys_ideal refreshStart_session).2.2.1
    replayRun [(0, .next {}), (0, .next {}), (0, .next {})] 0 "s" replayArgs 2 1091000 replayRow
    (by decide +kernel) (by decide +kernel) (by decide +kernel) (by decide +kernel)
    (by decide +kernel) ?_ (by decide +kernel)
  intro env henv
  simp only [List.mem_cons, Prod.mk.injEq, RefreshAct.next.injEq, true_and, List.not_mem_nil,
    or_false, or_self] at henv
  exact henv

end NewApi.Auth
