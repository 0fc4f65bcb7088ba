/-
  NewApi.Auth.SessionRevoked

  A revoked session stays revoked.

  The row is revoked once and for all.  The cache is the hard part: an active
  snapshot that was read before the revocation may be written long after it.
  What keeps it out is a deny entry that lives at least as long as the snapshot
  would: `Seal w H` says that no active entry is found, and that the key denies
  until `H` or `H` is past.  `Sealed` adds that every snapshot on its way to the
  cache ends by `H`; no step breaks it, whatever fails.

  A tombstone that lands seals the session, since no deadline is further away
  than one TTL.  The fence alone does not: it is published before the commit, so
  a row read between the two gives a snapshot that outlives it.
-/

import NewApi.Auth.SessionCalls

namespace NewApi.Auth

open NewApi.Lib

variable {ι : Type*} {cfg : SessionConfig} {w w' : World} {φ : Phase} {env : Env}

/-! ## The seal -/

/-- The row is revoked, the key shows no active entry, and it denies until `H`
    unless `H` is past. -/
structure Seal (cfg : SessionConfig) (w : World) (H : Nat) : Prop where
  revoked : ∃ r, w.row = some r ∧ r.status = .revoked ∧ H ≤ r.expiresAtMilli
  near : H ≤ w.now + userCacheTTL cfg
  noActive : ∀ c, w.live = some c → c.entry.status ≠ .active
  denies : H ≤ w.now ∨ ∃ c, w.cache = some c ∧ c.entry.status ≠ .active ∧ H ≤ c.expireAt

variable {H : Nat}

theorem Seal.later (h : Seal cfg w H) (hw : w.Later w') (hc : w'.cache = w.cache) :
    Seal cfg w' H where
  revoked := by
    obtain ⟨r, hr, hrev, hH⟩ := h.revoked
    obtain ⟨r', hr', he, hrev'⟩ := hw.row r hr
    refine ⟨r', hr', hrev' hrev, ?_⟩
    rw [UserSession.expiresAtMilli, he]
    exact hH
  near := by
    have := h.near
    have := hw.now
    omega
  noActive := by
    intro c hl
    obtain ⟨hcache, hlt⟩ := live_eq_some.1 hl
    have := hw.now
    exact h.noActive c (live_eq_some.2 ⟨hc ▸ hcache, by omega⟩)
  denies := by
    rcases h.denies with hp | ⟨c, hcache, hst, hH⟩
    · left
      have := hw.now
      omega
    · exact Or.inr ⟨c, hc ▸ hcache, hst, hH⟩

theorem Seal.past (h : Seal cfg w H) (hl : w.live = none) : H ≤ w.now := by
  rcases h.denies with hp | ⟨c, hcache, -, hH⟩
  · exact hp
  by_contra hlt
  have hlive : w.live = some c := live_eq_some.2 ⟨hcache, by omega⟩
  rw [hl] at hlive
  cases hlive

variable {s : UserSession} {x : Nat}

theorem le_of_soundExpiration (hs : s.status ≠ .active)
    (hx : SoundExpiration cfg w s x) (hE : H ≤ s.expiresAtMilli)
    (hn : H ≤ w.now + userCacheTTL cfg) : H ≤ w.now ∨ H ≤ w.now + x := by
  rw [SoundExpiration, if_neg hs] at hx
  omega

theorem hset_live {e : CacheEntry} {c : CachedSession}
    (h : (hset w e x).live = some c) : c.entry = e := by
  obtain ⟨hc, -⟩ := live_eq_some.1 h
  rw [← Option.some.inj hc]

theorem Seal.script (h : Seal cfg w H)
    (hx : SoundExpiration cfg w s x) (ha : s.status = .active → x ≤ H)
    (he : ∃ r, w.row = some r ∧ r.expiresAt = s.expiresAt) :
    Seal cfg (cacheScript w s.cacheEntry x).1 H := by
  rcases cacheScript_cases w s.cacheEntry x with ⟨-, hsame⟩ | ⟨-, hset', hlive⟩
  · rw [hsame]
    exact h
  rw [hset']
  obtain ⟨r, hr, hrev, hH⟩ := h.revoked
  by_cases hs : s.status = .active
  · -- the key was free, so `H` is past, and the entry ends by `H`
    have hfree : w.live = none := by
      cases hl : w.live with
      | none => rfl
      | some c => exact absurd (hlive hs c hl) (h.noActive c hl)
    have hpast := h.past hfree
    have hxH := ha hs
    refine ⟨⟨r, hr, hrev, hH⟩, h.near, ?_, Or.inl hpast⟩
    intro c hl
    obtain ⟨hc, hlt⟩ := live_eq_some.1 hl
    obtain rfl := Option.some.inj hc
    have hst : s.cacheEntry.status = .active := hs
    simp only [hset, hst, if_true] at hlt
    omega
  obtain ⟨r', hr', he'⟩ := he
  obtain rfl : r = r' := Option.some.inj (hr.symm.trans hr')
  have hst : s.cacheEntry.status ≠ .active := hs
  have hE : H ≤ s.expiresAtMilli := by
    rw [UserSession.expiresAtMilli, ← he']
    exact hH
  refine ⟨⟨r, hr, hrev, hH⟩, h.near, ?_, ?_⟩
  · intro c hl
    rw [hset_live hl]
    exact hst
  rcases le_of_soundExpiration hs hx hE h.near with hp | hp
  · exact Or.inl hp
  refine Or.inr ⟨_, rfl, hst, ?_⟩
  simp only [hst, if_false]
  exact hp

variable {r : UserSession}

theorem seal_of_tombstone (hr : w.row = some r)
    (hrev : r.status = .revoked) (he : r.expiresAt = s.expiresAt) (hs : s.status ≠ .active)
    (hx : SoundExpiration cfg w s x) :
    Seal cfg (hset w s.cacheEntry x) (min r.expiresAtMilli (w.now + userCacheTTL cfg)) := by
  have hst : s.cacheEntry.status ≠ .active := hs
  refine ⟨⟨r, hr, hrev, Nat.min_le_left _ _⟩, Nat.min_le_right _ _, ?_, ?_⟩
  · intro c hl
    rw [hset_live hl]
    exact hst
  have hE : min r.expiresAtMilli (w.now + userCacheTTL cfg) ≤ s.expiresAtMilli := by
    simp only [UserSession.expiresAtMilli, he]
    omega
  rcases le_of_soundExpiration hs hx hE (Nat.min_le_right _ _) with hp | hp
  · exact Or.inl hp
  refine Or.inr ⟨_, rfl, hst, ?_⟩
  simp only [hst, if_false]
  exact hp

theorem afterWrite_installs (s : UserSession) (p : Purpose) (e : Option SessionError) :
    (afterWrite s p e).installs = none := by
  unfold afterWrite
  split
  all_goals first
    | rfl
    | (rename Revoker => v; cases v <;> rfl)

theorem Revoker.commit_installs (v : Revoker) (s : UserSession) :
    (v.commit w s).2.installs = none := by
  cases v <;> simp only [Revoker.commit] <;> repeat' split
  all_goals rfl

theorem inactive_of_revoked {now : Nat} (h : s.status = .revoked) : s.inactive now = true := by
  simp [UserSession.inactive, h]

theorem next_installs {b : Nat} (hr : w.row = some r)
    (hrev : r.status = .revoked) (h : (φ.next cfg w env).2.installs = some b) :
    φ.installs = some b := by
  have hin : ∀ now, r.inactive now = true := fun now => inactive_of_revoked hrev
  cases φ with
  | getCheck s d =>
    simp only [Phase.next] at h
    split at h
    · cases h
    · exact h
  | publish s d p =>
    simp only [Phase.next] at h
    split at h
    · rename_i x hx
      simp only [Phase.installs] at h
      split at h
      · rename_i hs
        obtain ⟨d', rfl, rfl⟩ := redisExpiration_active hs hx
        simp only [Phase.installs, if_pos hs]
        exact h
      · cases h
    · rw [afterWrite_installs] at h
      cases h
  | eval s d x p =>
    simp only [Phase.next] at h
    repeat' split at h
    all_goals first
      | (rw [afterWrite_installs] at h; cases h)
      | cases h
  | complete s d p =>
    simp only [Phase.next] at h
    repeat' split at h
    all_goals rw [afterWrite_installs] at h
    all_goals cases h
  | commit s v =>
    simp only [Phase.next] at h
    split at h
    · cases h
    · rw [v.commit_installs] at h
      cases h
  | getRow d =>
    simp only [Phase.next, hr] at h
    split at h
    · cases h
    · simp [Phase.installs, hrev] at h
  | rotateDeadline q left => cases left <;> cases h
  | _ =>
    simp [Phase.next, hr, hrev, hin] at h
    repeat' split at h
    all_goals cases h

theorem begin_installs (w : World) (op : Op) : (op.start cfg w).installs = none := by
  cases op <;> simp only [Op.start] <;> repeat' split
  all_goals rfl

variable {i : ι}

theorem sessionStep_installs {a : Act} {b : Nat} (hr : w.row = some r)
    (hrev : r.status = .revoked) (h : (sessionStep cfg i w φ a).2.installs = some b) :
    φ.installs = some b := by
  cases a with
  | tick d => exact h
  | begin op =>
    simp only [sessionStep] at h
    split at h
    · rw [begin_installs] at h
      cases h
    · exact h
  | next env => exact next_installs hr hrev h
  | finish =>
    cases φ with
    | returned o => cases h
    | _ => exact h

theorem Seal.step {a : Act} (h : Seal cfg w H) (hφ : φ.Sound cfg w)
    (hb : ∀ b, φ.installs = some b → b ≤ H) : Seal cfg (sessionStep cfg i w φ a).1 H := by
  have hlater : w.Later (sessionStep cfg i w φ a).1 := sessionStep_later i a
  cases a with
  | tick d => exact h.later hlater rfl
  | begin op => exact h
  | finish => cases φ <;> exact h
  | next env =>
    by_cases he : ∃ s d x p, φ = .eval s d x p
    · obtain ⟨s, d, x, p, rfl⟩ := he
      have hscript : Seal cfg (cacheScript w s.cacheEntry x).1 H := by
        refine h.script (hφ.expiration s d x p rfl) ?_ (hφ.carried s rfl)
        intro hs
        exact hb x (by simp [Phase.installs, hs])
      simp only [sessionStep, Phase.next]
      split
      · exact h
      · exact hscript
      · split <;> exact hscript
    · push Not at he
      exact h.later hlater (next_cache he)

variable [DecidableEq ι] {ws : Workers World ι Phase}

/-- Some time seals the session and every snapshot on its way ends by then. -/
def Sealed (cfg : SessionConfig) (ws : Workers World ι Phase) : Prop :=
  ∃ H, Seal cfg ws.shared H ∧ ∀ i b, (ws.proc i).installs = some b → b ≤ H

theorem Sealed.step (h : Sealed cfg ws) (hs : ∀ i, (ws.proc i).Sound cfg ws.shared)
    (ia : ι × Act) : Sealed cfg (ws.step (sessionStep cfg) ia) := by
  obtain ⟨H, hH, hb⟩ := h
  obtain ⟨i, a⟩ := ia
  obtain ⟨r, hr, hrev, -⟩ := hH.revoked
  refine ⟨H, hH.step (hs i) (hb i), ?_⟩
  intro j b hj
  by_cases hji : j = i
  · subst hji
    rw [Workers.step_proc_self] at hj
    exact hb j b (sessionStep_installs hr hrev hj)
  · rw [Workers.step_proc_of_ne _ _ hji] at hj
    exact hb j b hj

/-! ## Calls that start once the session is sealed -/

/-- The call holds nothing that says the session is active. -/
def Phase.Clean : Phase → Prop
  | .returned (.session _) | .complete _ _ _ | .confirm _ | .rotateSwap _ _ _ _ | .commit _ _ =>
    False
  | .getCheck s _ => s.status ≠ .active
  | .publish s _ p | .eval s _ _ p => s.status ≠ .active ∧ p = .deny
  | _ => True

theorem getUserSessionCache_of_seal (h : Seal cfg w H) (s : UserSession) :
    getUserSessionCache w ≠ .ok s := by
  intro hget
  unfold getUserSessionCache at hget
  split at hget
  · cases hget
  rename_i c hc
  split at hget
  · cases hget
  split at hget
  · cases hget
  · rename_i hin
    exact h.noActive c hc (not_inactive hin).1

/-- A call that starts on a sealed session learns nothing else from then on. -/
theorem next_clean (h : Seal cfg w H) (hφ : φ.Clean) : (φ.next cfg w env).2.Clean := by
  obtain ⟨r, hr, hrev, -⟩ := h.revoked
  have hin : ∀ now, r.inactive now = true := fun now => inactive_of_revoked hrev
  have hne : r.status ≠ .active := by
    rw [hrev]
    exact fun h => by cases h
  cases φ with
  | idle => trivial
  | returned o => exact hφ
  | getCache =>
    simp only [Phase.next]
    split
    · split
      · rename_i s hs
        exact absurd hs (getUserSessionCache_of_seal h s)
      · trivial
      · trivial
    · trivial
  | getDeadline => trivial
  | getRow d =>
    simp only [Phase.next, hr]
    split
    · trivial
    · exact hne
  | getCheck s d =>
    have hs : s.inactive w.unix = true := by
      by_contra hs
      exact hφ (not_inactive hs).1
    simp only [Phase.next, hs, if_true]
    exact ⟨by rintro ⟨⟩, rfl⟩
  | createRow s d now =>
    simp only [Phase.next, hr, Option.isSome_some, or_true, if_true]
    split <;> trivial
  | rotateDeadline q left => cases left <;> trivial
  | rotateRow q left d =>
    simp only [Phase.next, hr, hin, if_true]
    split
    · trivial
    · split <;> trivial
  | rotateSwap q left d s | commit s v | complete s d p | confirm s => exact hφ.elim
  | advanceNow q d => trivial
  | advanceRow q d now =>
    simp only [Phase.next, hr]
    split
    · trivial
    split
    · trivial
    · rw [if_pos (Or.inl hne)]
      trivial
  | revokeRow userID now reason =>
    simp only [Phase.next, hr, hin, or_true, if_true]
    split <;> trivial
  | revokeHashRow presentedHash now reason =>
    simp only [Phase.next, hr, hin, true_or, if_true]
    split <;> trivial
  | revokeBulkRow userID now excluded reason done =>
    simp only [Phase.next, hr]
    split
    · trivial
    · rw [if_pos (Or.inr (Or.inl hne))]
      trivial
  | publish s d p =>
    obtain ⟨hs, rfl⟩ := hφ
    simp only [Phase.next, redisExpiration_deny hs]
    exact ⟨hs, rfl⟩
  | eval s d x p =>
    obtain ⟨hs, rfl⟩ := hφ
    simp only [Phase.next, if_neg hs]
    split
    · trivial
    · trivial
    · split <;> trivial

omit [DecidableEq ι] in
theorem sessionStep_clean {a : Act} (h : Seal cfg w H) (hφ : φ.Clean) :
    (sessionStep cfg i w φ a).2.Clean := by
  cases a with
  | tick d => exact hφ
  | begin op =>
    simp only [sessionStep]
    split
    · cases op <;> simp only [Op.start] <;> repeat' split
      all_goals trivial
    · exact hφ
  | next env => exact next_clean h hφ
  | finish =>
    cases φ with
    | returned o => trivial
    | _ => exact hφ

/-! ## Runs -/

/-- The call has revoked the session and written its tombstone or given it up. -/
def Phase.reports : Phase → Bool
  | .returned (.revoked done) => done
  | .revokeBulkRow _ _ _ _ done => done
  | _ => false

/-- What has to hold when a call writes the tombstone of its revocation: Redis
    runs the script and the script does not refuse it, or the key holds no
    active entry and every active snapshot on its way to the cache ends now or
    before the deny entry does. -/
def TombstoneCovers (ws : Workers World ι Phase) (ia : ι × Act) : Prop :=
  ∀ s d x v env, ws.proc ia.1 = .eval s d x (.tombstone v) → ia.2 = .next env →
    (env.redis ≠ .down ∧ (cacheScript ws.shared s.cacheEntry x).2 = true) ∨
    ((∀ c, ws.shared.live = some c → c.entry.status ≠ .active) ∧
      ∀ j b, (ws.proc j).installs = some b →
        b ≤ ws.shared.now ∨ ∃ c, ws.shared.live = some c ∧ b ≤ c.expireAt)

theorem afterWrite_reports {p : Purpose} {e : Option SessionError}
    (h : (afterWrite s p e).reports = true) : ∃ v, p = .tombstone v := by
  unfold afterWrite at h
  split at h
  all_goals first
    | exact ⟨_, rfl⟩
    | cases h

theorem Revoker.commit_reports (v : Revoker) (s : UserSession) :
    (v.commit w s).2.reports = false := by
  cases v <;> simp only [Revoker.commit] <;> repeat' split
  all_goals rfl

theorem next_reports (hφ : φ.Sound cfg w) (h : (φ.next cfg w env).2.reports = true) :
    φ.reports = true ∨ ∃ s d x v, φ = .eval s d x (.tombstone v) := by
  cases φ with
  | returned o => exact Or.inl h
  | revokeBulkRow userID now excluded reason done =>
    left
    simp only [Phase.next] at h
    repeat' split at h
    all_goals first
      | exact h
      | cases h
  | publish s d p =>
    simp only [Phase.next] at h
    split at h
    · cases h
    rename_i e he
    obtain ⟨v, rfl⟩ := afterWrite_reports h
    have hs := (hφ.tombstone s rfl).1
    rw [redisExpiration_deny (by rw [hs]; intro h; cases h)] at he
    cases he
  | eval s d x p =>
    right
    have hp : ∃ v, p = .tombstone v := by
      simp only [Phase.next] at h
      repeat' split at h
      all_goals first
        | exact afterWrite_reports h
        | cases h
    obtain ⟨v, rfl⟩ := hp
    exact ⟨s, d, x, v, rfl⟩
  | complete s d p =>
    have hp : ∃ v, p = .tombstone v := by
      simp only [Phase.next] at h
      repeat' split at h
      all_goals exact afterWrite_reports h
    obtain ⟨v, rfl⟩ := hp
    have hs := (hφ.tombstone s rfl).1
    rw [hφ.completed s d _ rfl] at hs
    cases hs
  | commit s v =>
    simp only [Phase.next] at h
    split at h
    · cases h
    · rw [v.commit_reports] at h
      cases h
  | rotateDeadline q left => cases left <;> cases h
  | _ =>
    simp only [Phase.next] at h
    repeat' split at h
    all_goals cases h

omit [DecidableEq ι] in
theorem installs_le {b : Nat} (hφ : φ.Sound cfg w) (h : φ.installs = some b) :
    b ≤ w.now + userCacheTTL cfg ∧ ∃ r, w.row = some r ∧ b ≤ r.expiresAtMilli := by
  have hmin : ∀ (d : Nat) (s : UserSession), d ≤ w.now + userCacheTTL cfg →
      (∃ r, w.row = some r ∧ r.expiresAt = s.expiresAt) →
      min d s.expiresAtMilli ≤ w.now + userCacheTTL cfg ∧
        ∃ r, w.row = some r ∧ min d s.expiresAtMilli ≤ r.expiresAtMilli := by
    rintro d s hd ⟨r, hr, he⟩
    refine ⟨by omega, r, hr, ?_⟩
    simp only [UserSession.expiresAtMilli, he]
    omega
  cases φ with
  | getCheck s d =>
    simp only [Phase.installs] at h
    split at h
    · obtain rfl := Option.some.inj h
      exact hmin d s (hφ.deadline d rfl) (hφ.carried s rfl)
    · cases h
  | publish s d p =>
    cases d with
    | none => cases h
    | some d =>
      simp only [Phase.installs] at h
      split at h
      · obtain rfl := Option.some.inj h
        exact hmin d s (hφ.deadline d rfl) (hφ.carried s rfl)
      · cases h
  | eval s d x p =>
    simp only [Phase.installs] at h
    split at h
    · rename_i hs
      obtain rfl := Option.some.inj h
      have hx := hφ.expiration s d x p rfl
      rw [SoundExpiration, if_pos hs] at hx
      obtain ⟨r, hr, he⟩ := hφ.carried s rfl
      refine ⟨hx.1, r, hr, ?_⟩
      rw [UserSession.expiresAtMilli, he]
      exact hx.2
    · cases h
  | _ => cases h

omit [DecidableEq ι] in
theorem sealed_of_covers (hs : ∀ i, (ws.proc i).Sound cfg ws.shared)
    (hr : ws.shared.row = some r) (hrev : r.status = .revoked)
    (ha : ∀ c, ws.shared.live = some c → c.entry.status ≠ .active)
    (hb : ∀ j b, (ws.proc j).installs = some b →
      b ≤ ws.shared.now ∨ ∃ c, ws.shared.live = some c ∧ b ≤ c.expireAt) : Sealed cfg ws := by
  have hle : ∀ j b, (ws.proc j).installs = some b →
      b ≤ r.expiresAtMilli ∧ b ≤ ws.shared.now + userCacheTTL cfg := by
    intro j b hj
    obtain ⟨h1, r', hr', h2⟩ := installs_le (hs j) hj
    obtain rfl : r = r' := Option.some.inj (hr.symm.trans hr')
    exact ⟨h2, h1⟩
  cases hl : ws.shared.live with
  | none =>
    refine ⟨min r.expiresAtMilli ws.shared.now,
      ⟨⟨r, hr, hrev, Nat.min_le_left _ _⟩, by omega, ha, Or.inl (Nat.min_le_right _ _)⟩, ?_⟩
    intro j b hj
    have h1 := hle j b hj
    rcases hb j b hj with h2 | ⟨c, hc, -⟩
    · omega
    · rw [hl] at hc
      cases hc
  | some c =>
    obtain ⟨hcache, hlt⟩ := live_eq_some.1 hl
    refine ⟨min (min r.expiresAtMilli (ws.shared.now + userCacheTTL cfg)) c.expireAt,
      ⟨⟨r, hr, hrev, by omega⟩, by omega, ha,
        Or.inr ⟨c, hcache, ha c hl, Nat.min_le_right _ _⟩⟩, ?_⟩
    intro j b hj
    have h1 := hle j b hj
    rcases hb j b hj with h2 | ⟨c', hc', h2⟩
    · omega
    · obtain rfl : c = c' := Option.some.inj (hl.symm.trans hc')
      omega

theorem Revoker.finish_installs (v : Revoker) : v.finish.installs = none := by
  cases v <;> rfl

/-- The write of a tombstone that covers the session seals it. -/
theorem sealed_of_tombstone {d : Option Nat} {v : Revoker}
    (hs : ∀ i, (ws.proc i).Sound cfg ws.shared) (hi : ws.proc i = .eval s d x (.tombstone v))
    (hc : TombstoneCovers ws (i, .next env)) :
    Sealed cfg (ws.step (sessionStep cfg) (i, .next env)) := by
  have hsi := hi ▸ hs i
  obtain ⟨hst, r, hr, hrev⟩ := hsi.tombstone s rfl
  have hna : s.status ≠ .active := by
    rw [hst]
    exact fun h => by cases h
  obtain ⟨r', hr', he⟩ := hsi.carried s rfl
  obtain rfl : r = r' := Option.some.inj (hr.symm.trans hr')
  have hproc : (ws.step (sessionStep cfg) (i, .next env)).proc i = v.finish := by
    rw [Workers.step_proc_self, hi]
    simp only [sessionStep, Phase.next, if_neg hna]
    split
    · rfl
    · rfl
    · split <;> rfl
  -- the caller itself goes on without a snapshot
  have hinst : ∀ j b, ((ws.step (sessionStep cfg) (i, .next env)).proc j).installs = some b →
      (ws.proc j).installs = some b := by
    intro j b hj
    by_cases hji : j = i
    · rw [hji, hproc, v.finish_installs] at hj
      cases hj
    · rwa [Workers.step_proc_of_ne _ _ hji] at hj
  have hshared : (ws.step (sessionStep cfg) (i, .next env)).shared =
      if env.redis = .down then ws.shared else (cacheScript ws.shared s.cacheEntry x).1 := by
    rw [Workers.step_shared, hi]
    simp only [sessionStep, Phase.next]
    cases env.redis with
    | down => rfl
    | lost => rfl
    | ok =>
      simp only [reduceCtorEq, if_false]
      split <;> rfl
  by_cases hland : env.redis ≠ .down ∧ (cacheScript ws.shared s.cacheEntry x).2 = true
  · refine ⟨min r.expiresAtMilli (ws.shared.now + userCacheTTL cfg), ?_, ?_⟩
    · rw [hshared, if_neg hland.1]
      rcases cacheScript_cases ws.shared s.cacheEntry x with ⟨hno, -⟩ | ⟨-, hset', -⟩
      · rw [hland.2] at hno
        cases hno
      · rw [hset']
        exact seal_of_tombstone hr hrev he hna (hsi.expiration s d x _ rfl)
    intro j b hj
    obtain ⟨h1, r', hr', h2⟩ := installs_le (hs j) (hinst j b hj)
    obtain rfl : r = r' := Option.some.inj (hr.symm.trans hr')
    omega
  have hsame : (ws.step (sessionStep cfg) (i, .next env)).shared = ws.shared := by
    rw [hshared]
    split
    · rfl
    rename_i hd
    rcases cacheScript_cases ws.shared s.cacheEntry x with ⟨-, hsame⟩ | ⟨hyes, -⟩
    · exact hsame
    · exact absurd ⟨hd, hyes⟩ hland
  obtain ⟨ha, hb⟩ := (hc s d x v env hi rfl).resolve_left hland
  obtain ⟨H, hH, hbH⟩ := sealed_of_covers hs hr hrev ha hb
  refine ⟨H, ?_, fun j b hj => hbH j b (hinst j b hj)⟩
  rw [hsame]
  exact hH

/-- What holds in every state of a run: the calls are sound, and a session
    whose revocation is reported is sealed. -/
structure RevokedInv (cfg : SessionConfig) (ws : Workers World ι Phase) : Prop where
  sound : ∀ i, (ws.proc i).Sound cfg ws.shared
  reported : ∀ i, (ws.proc i).reports = true → Sealed cfg ws

omit [DecidableEq ι] in
theorem revokedInv_fresh (now : Nat) : RevokedInv cfg (World.fresh (ι := ι) now) where
  sound := fun _ => sound_of_nothing rfl rfl rfl
  reported := (fun _ h => by cases h)

theorem step_sound (h : ∀ i, (ws.proc i).Sound cfg ws.shared) (ia : ι × Act) (j : ι) :
    ((ws.step (sessionStep cfg) ia).proc j).Sound cfg (ws.step (sessionStep cfg) ia).shared := by
  obtain ⟨i, a⟩ := ia
  by_cases hji : j = i
  · subst hji
    rw [Workers.step_proc_self, Workers.step_shared]
    exact sessionStep_sound (h j)
  · rw [Workers.step_proc_of_ne _ _ hji, Workers.step_shared]
    exact (h j).later (sessionStep_later i a)

theorem RevokedInv.step {ia : ι × Act} (h : RevokedInv cfg ws) (hc : TombstoneCovers ws ia) :
    RevokedInv cfg (ws.step (sessionStep cfg) ia) where
  sound := step_sound h.sound ia
  reported := by
    obtain ⟨i, a⟩ := ia
    intro j hj
    by_cases hji : j = i
    · subst hji
      rw [Workers.step_proc_self] at hj
      cases a with
      | tick d => exact (h.reported j hj).step h.sound _
      | begin op =>
        simp only [sessionStep] at hj
        split at hj
        · exfalso
          cases op <;> simp only [Op.start] at hj <;> repeat' split at hj
          all_goals cases hj
        · exact (h.reported j hj).step h.sound _
      | finish =>
        cases hφ : ws.proc j with
        | returned o =>
          rw [hφ] at hj
          cases hj
        | _ =>
          rw [hφ] at hj
          exact (h.reported j (by rw [hφ]; exact hj)).step h.sound _
      | next env =>
        rcases next_reports (h.sound j) hj with hrep | ⟨s, d, x, v, hφ⟩
        · exact (h.reported j hrep).step h.sound _
        · exact sealed_of_tombstone h.sound hφ hc
    · rw [Workers.step_proc_of_ne _ _ hji] at hj
      exact (h.reported j hj).step h.sound _

def sessionRun (cfg : SessionConfig) (now : Nat) (as : List (ι × Act)) : Workers World ι Phase :=
  run (Workers.step (sessionStep cfg)) (World.fresh now) as

theorem sessionRun_append (now : Nat) (as bs : List (ι × Act)) : sessionRun cfg now (as ++ bs) =
      run (Workers.step (sessionStep cfg)) (sessionRun cfg now as) bs := by
  rw [sessionRun, run_append, sessionRun]

theorem run_later (as : List (ι × Act)) :
    ws.shared.Later (run (Workers.step (sessionStep cfg)) ws as).shared :=
  run_invariant_all (fun ws' : Workers World ι Phase => ws.shared.Later ws'.shared)
    (fun _ ia h => h.trans (sessionStep_later ia.1 ia.2)) as (World.Later.refl _)

section
variable (hs : ∀ i, (ws.proc i).Sound cfg ws.shared) (h : Sealed cfg ws)
include hs h

theorem run_sealed (as : List (ι × Act)) : (∀ i, ((run (Workers.step (sessionStep cfg)) ws as).proc i).Sound cfg
      (run (Workers.step (sessionStep cfg)) ws as).shared) ∧
    Sealed cfg (run (Workers.step (sessionStep cfg)) ws as) :=
  run_invariant_all (fun ws => (∀ i, (ws.proc i).Sound cfg ws.shared) ∧ Sealed cfg ws)
    (fun _ ia h => ⟨step_sound h.1 ia, h.2.step h.1 ia⟩) as ⟨hs, h⟩

theorem run_clean (hi : (ws.proc i).Clean) (as : List (ι × Act)) :
    ((run (Workers.step (sessionStep cfg)) ws as).proc i).Clean := by
  refine (run_invariant_all (fun ws => ((∀ i, (ws.proc i).Sound cfg ws.shared) ∧ Sealed cfg ws) ∧
    (ws.proc i).Clean) ?_ as ⟨⟨hs, h⟩, hi⟩).2
  rintro ws ⟨j, a⟩ ⟨⟨hs, hseal⟩, hi⟩
  refine ⟨⟨step_sound hs _, hseal.step hs _⟩, ?_⟩
  obtain ⟨H, hH, -⟩ := hseal
  by_cases hij : i = j
  · subst hij
    rw [Workers.step_proc_self]
    exact sessionStep_clean hH hi
  · rw [Workers.step_proc_of_ne _ _ hij]
    exact hi

end

/-- **A revoked session stays revoked.**  In a run in which every tombstone
    covers its session: once a revoke call has returned success, a caller that
    is idle then or later is never handed the session.  In every run the stored
    status stays revoked. -/
theorem revoked_session_stays_revoked (cfg : SessionConfig) (now : Nat)
    (as₁ as₂ as₃ : List (ι × Act)) :
    (Meets TombstoneCovers (Workers.step (sessionStep cfg)) (World.fresh now) (as₁ ++ as₂ ++ as₃) →
      ∀ r i, (sessionRun cfg now as₁).proc r = .returned (.revoked true) →
        (sessionRun cfg now (as₁ ++ as₂)).proc i = .idle →
        ∀ s, (sessionRun cfg now (as₁ ++ as₂ ++ as₃)).proc i ≠ .returned (.session s)) ∧
    (∀ row, (sessionRun cfg now as₁).shared.row = some row → row.status = .revoked →
      ∃ row', (sessionRun cfg now (as₁ ++ as₂)).shared.row = some row' ∧
        row'.status = .revoked) := by
  constructor
  · intro hmeets r i hr hi s hget
    rw [List.append_assoc, meets_append] at hmeets
    have hinv : RevokedInv cfg (sessionRun cfg now as₁) :=
      run_invariant (RevokedInv cfg) (fun _ _ h hc => h.step hc) (revokedInv_fresh now) hmeets.1
    have hsealed : Sealed cfg (sessionRun cfg now as₁) := by
      refine hinv.reported r ?_
      rw [hr]
      rfl
    have hlater := run_sealed hinv.sound hsealed as₂
    rw [← sessionRun_append] at hlater
    have hclean : ((sessionRun cfg now (as₁ ++ as₂)).proc i).Clean := by
      rw [hi]
      trivial
    have hend := run_clean hlater.1 hlater.2 hclean as₃
    rw [← sessionRun_append, hget] at hend
    exact hend
  intro row hrow hrev
  have hlater : (sessionRun cfg now as₁).shared.Later
      (sessionRun cfg now (as₁ ++ as₂)).shared := by
    rw [sessionRun_append]
    exact run_later as₂
  obtain ⟨row', hrow', -, hrev'⟩ := hlater.row row hrow
  exact ⟨row', hrow', hrev' hrev⟩

/-! ## One session, logged out -/

def loginRow : UserSession where
  userID := 1
  version := 1
  userAuthVersion := 1
  status := .active
  refreshHash := "h0"
  previousRefreshHash := ""
  previousValidUntil := 0
  lastActiveAt := 1
  expiresAt := 1000
  revokedAt := 0
  revokedReason := ""

/-- Caller 0 creates the session while Redis is down, caller 1 misses the cache;
    caller 0 publishes the fence, and 10 ms later caller 1 captures its deadline
    and reads the row, before caller 0 commits.  `tombstone` is what Redis
    answers to the tombstone. -/
def logoutRun (tombstone : RedisReply) : List (Nat × Act) :=
  [(0, .begin (.create loginRow)), (0, .next {}), (0, .next {}), (0, .next { redis := .down }),
   (0, .finish),
   (1, .begin .get), (1, .next {}),
   (0, .begin (.revoke 1 "logout")), (0, .next {}), (0, .next {}), (0, .next {}),
   (2, .tick 10),
   (1, .next {}), (1, .next {}),
   (0, .next {}), (0, .next {}), (0, .next { redis := tombstone })]

def afterLogout : List (Nat × Act) :=
  [(1, .next {}), (1, .next {}), (1, .next {}), (2, .begin .get), (2, .next {})]

/-- With the tombstone lost the snapshot of caller 1 outlives the fence, and
    caller 2 is handed the session after its logout was reported. -/
theorem lostTombstone_serves_revoked_session : ¬ ∀ (as₁ as₂ as₃ : List (Nat × Act)) (r i : Nat),
      (sessionRun minuteCache 0 as₁).proc r = .returned (.revoked true) →
      (sessionRun minuteCache 0 (as₁ ++ as₂)).proc i = .idle →
      ∀ s, (sessionRun minuteCache 0 (as₁ ++ as₂ ++ as₃)).proc i ≠ .returned (.session s) := by
  intro h
  refine h (logoutRun .down) [(2, .tick 59990)] afterLogout 0 2 ?_ ?_
    loginRow.cacheEntry.session ?_
  · decide +kernel
  · decide +kernel
  · decide +kernel

def tombstoneLands (ws : Workers World ι Phase) (ia : ι × Act) : Bool :=
  match ws.proc ia.1, ia.2 with
  | .eval s _ x (.tombstone _), .next env =>
    env.redis != .down && (cacheScript ws.shared s.cacheEntry x).2
  | _, _ => true

omit [DecidableEq ι] in
theorem covers_of_lands (ia : ι × Act) (h : tombstoneLands ws ia = true) :
    TombstoneCovers ws ia := by
  intro s d x v env hs ha
  left
  simp only [tombstoneLands, hs, ha, Bool.and_eq_true, bne_iff_ne] at h
  exact h

/-- The same logout with the tombstone written: caller 1 is too late, caller 2
    is turned away. -/
theorem logout_stays_revoked :
    (sessionRun minuteCache 0 (logoutRun .ok)).proc 0 = .returned (.revoked true) ∧
    (∀ s, (sessionRun minuteCache 0 (logoutRun .ok ++ [(2, .tick 59990)] ++ afterLogout)).proc 2 ≠
      .returned (.session s)) := by
  have hmeets : Meets TombstoneCovers (Workers.step (sessionStep minuteCache))
      (World.fresh 0) (logoutRun .ok ++ [(2, .tick 59990)] ++ afterLogout) := by
    refine Meets.mono (C := fun ws ia => tombstoneLands ws ia = true)
      (fun ws ia h => covers_of_lands ia h) ?_
    decide +kernel
  refine ⟨by decide +kernel, ?_⟩
  exact (revoked_session_stays_revoked minuteCache 0 (logoutRun .ok) [(2, .tick 59990)]
    afterLogout).1 hmeets 0 2 (by decide +kernel) (by decide +kernel)

end NewApi.Auth
