/-
  NewApi.Auth.SessionCalls

  What the calls on a session leave alone and what each one in flight knows.

  A step never moves the clock back, never loses the row, never changes when
  the session ends and never undoes a revocation (`World.Later`).  A call in
  flight holds at most one snapshot of the row and one cache deadline; both keep
  their relation to the clock and the row while others move (`Phase.Sound`).
-/

import NewApi.Auth.Session

namespace NewApi.Auth

open NewApi.Lib

variable {ι : Type*} {cfg : SessionConfig} {w w' : World} {φ : Phase} {env : Env}

/-! ## What a step does to the stored row -/

/-- The clock does not go back, the row stays, its end is fixed and a
    revocation is final. -/
structure World.Later (w w' : World) : Prop where
  now : w.now ≤ w'.now
  row : ∀ r, w.row = some r → ∃ r', w'.row = some r' ∧ r'.expiresAt = r.expiresAt ∧
    (r.status = .revoked → r'.status = .revoked)

theorem World.Later.refl (w : World) : w.Later w :=
  ⟨Nat.le_refl _, fun r h => ⟨r, h, rfl, id⟩⟩

theorem World.Later.trans {w'' : World} (h : w.Later w') (h' : w'.Later w'') : w.Later w'' := by
  refine ⟨Nat.le_trans h.now h'.now, ?_⟩
  intro r hr
  obtain ⟨r', hr', he, hs⟩ := h.row r hr
  obtain ⟨r'', hr'', he', hs'⟩ := h'.row r' hr'
  exact ⟨r'', hr'', he'.trans he, fun hrev => hs' (hs hrev)⟩

variable {r : UserSession}

theorem World.Later.setRow {r' : UserSession} (hr : w.row = some r)
    (he : r'.expiresAt = r.expiresAt) (hs : r.status = .revoked → r'.status = .revoked) :
    w.Later { w with row := some r' } := by
  refine ⟨Nat.le_refl _, ?_⟩
  intro r₀ h₀
  obtain rfl : r₀ = r := Option.some.inj (h₀.symm.trans hr)
  exact ⟨r', rfl, he, hs⟩

theorem World.Later.setCache (c : Option CachedSession) : w.Later { w with cache := c } :=
  ⟨Nat.le_refl _, fun r h => ⟨r, h, rfl, id⟩⟩

variable {s : UserSession}

theorem not_inactive {now : Nat} (h : s.inactive now ≠ true) :
    s.status = .active ∧ s.revokedAt = 0 ∧ now < s.expiresAt := by
  rw [ne_eq, Bool.not_eq_true] at h
  simp only [UserSession.inactive, Bool.or_eq_false_iff, bne_eq_false_iff_eq,
    decide_eq_false_iff_not, not_le] at h
  exact ⟨h.1.1, h.1.2, h.2⟩

theorem live_eq_some {c : CachedSession} :
    w.live = some c ↔ w.cache = some c ∧ w.now < c.expireAt := by
  simp [World.live, Option.filter_eq_some_iff]

theorem cacheScript_later (e : CacheEntry) (x : Nat) : w.Later (cacheScript w e x).1 := by
  unfold cacheScript
  split
  · split
    · exact World.Later.refl w
    split
    · exact World.Later.refl w
    · exact World.Later.setCache _
  · exact World.Later.setCache _

theorem cacheScript_row (e : CacheEntry) (x : Nat) : (cacheScript w e x).1.row = w.row := by
  unfold cacheScript
  split
  · split
    · rfl
    · split <;> rfl
  · rfl

theorem cacheScript_cases (w : World) (e : CacheEntry) (x : Nat) :
    ((cacheScript w e x).2 = false ∧ (cacheScript w e x).1 = w) ∨
    ((cacheScript w e x).2 = true ∧ (cacheScript w e x).1 = hset w e x ∧
      (e.status = .active → ∀ c, w.live = some c → c.entry.status = .active)) := by
  unfold cacheScript
  cases hl : w.live with
  | none => exact Or.inr ⟨rfl, rfl, fun _ c hc => nomatch hc⟩
  | some c =>
    by_cases hd : e.status = .active ∧ c.entry.status ≠ .active
    · exact Or.inl ⟨by simp [hd], by simp [hd]⟩
    by_cases hv : e.version < c.entry.version
    · exact Or.inl ⟨by simp [hd, hv], by simp [hd, hv]⟩
    refine Or.inr ⟨by simp [hd, hv], by simp [hd, hv], ?_⟩
    intro he c' hc'
    obtain rfl : c = c' := Option.some.inj hc'
    by_contra hne
    exact hd ⟨he, hne⟩

theorem Revoker.commit_cache (v : Revoker) (s : UserSession) :
    (v.commit w s).1.cache = w.cache := by
  cases v <;> simp only [Revoker.commit] <;> repeat' split
  all_goals rfl

theorem Revoker.commit_later (v : Revoker) (s : UserSession) : w.Later (v.commit w s).1 := by
  cases v <;> simp only [Revoker.commit] <;> repeat' split
  all_goals first
    | exact World.Later.refl w
    | (refine World.Later.setRow ‹_› ?_ ?_ <;> intros <;> rfl)

theorem next_cache (h : ∀ s d x p, φ ≠ .eval s d x p) : (φ.next cfg w env).1.cache = w.cache := by
  cases φ <;> simp only [Phase.next] <;> (try exact absurd rfl (h _ _ _ _))
  case commit s v => split <;> [rfl; exact v.commit_cache s]
  all_goals repeat' split
  all_goals rfl

theorem next_later : w.Later (φ.next cfg w env).1 := by
  cases φ <;> simp only [Phase.next]
  case commit s v => split <;> [exact World.Later.refl w; exact v.commit_later s]
  case eval s d x p =>
    repeat' split
    all_goals first
      | exact World.Later.refl w
      | exact cacheScript_later _ _
  case createRow s d now =>
    repeat' split
    · exact World.Later.refl w
    · exact World.Later.refl w
    rename_i h
    refine ⟨Nat.le_refl _, fun r hr => absurd (Or.inr ?_) h⟩
    rw [hr]
    rfl
  all_goals repeat' split
  all_goals first
    | exact World.Later.refl w
    | (refine World.Later.setRow ‹_› ?_ ?_ <;> intros <;> first | rfl | assumption)

theorem sessionStep_later (i : ι) (a : Act) : w.Later (sessionStep cfg i w φ a).1 := by
  cases a with
  | tick d => exact ⟨Nat.le_add_right _ _, fun r h => ⟨r, h, rfl, id⟩⟩
  | begin op => exact World.Later.refl w
  | next env => exact next_later
  | finish => cases φ <;> exact World.Later.refl w

/-! ## What a call in flight knows -/

def Phase.carried : Phase → Option UserSession
  | .getCheck s _ | .rotateSwap _ _ _ s | .commit s _ | .publish s _ _ | .eval s _ _ _
  | .complete s _ _ | .confirm s => some s
  | _ => none

def Phase.deadline : Phase → Option Nat
  | .getRow d | .getCheck _ d | .createRow _ d _ | .rotateRow _ _ d | .rotateSwap _ _ d _
  | .advanceNow _ d | .advanceRow _ d _ => some d
  | .publish _ d _ => d
  | _ => none

/-- How long an active snapshot lives that a call is about to put in the cache. -/
def Phase.installs : Phase → Option Nat
  | .getCheck s d => if s.status = .active then some (min d s.expiresAtMilli) else none
  | .publish s (some d) _ => if s.status = .active then some (min d s.expiresAtMilli) else none
  | .eval s _ x _ => if s.status = .active then some x else none
  | _ => none

def Phase.tombstone : Phase → Option UserSession
  | .publish s _ (.tombstone _) | .eval s _ _ (.tombstone _)
  | .complete s _ (.tombstone _) => some s
  | _ => none

theorem tombstone_eval (s : UserSession) (d : Option Nat) (x : Nat) (p : Purpose) :
    (Phase.eval s d x p).tombstone = (Phase.publish s d p).tombstone := by
  cases p <;> rfl

theorem tombstone_complete (s : UserSession) (d : Option Nat) (x : Nat) (p : Purpose) :
    (Phase.complete s d p).tombstone = (Phase.eval s d x p).tombstone := by
  cases p <;> rfl

def Phase.scripted : Phase → Bool
  | .eval _ _ _ _ | .complete _ _ _ => true
  | _ => false

/-- The expiry argument of a script that is on its way. -/
def SoundExpiration (cfg : SessionConfig) (w : World) (s : UserSession) (x : Nat) : Prop :=
  if s.status = .active then x ≤ w.now + userCacheTTL cfg ∧ x ≤ s.expiresAtMilli
  else min s.expiresAtMilli (w.now + userCacheTTL cfg) ≤ w.now + x ∨ s.expiresAtMilli ≤ w.now

structure Phase.Sound (cfg : SessionConfig) (w : World) (φ : Phase) : Prop where
  carried : ∀ s, φ.carried = some s → ∃ r, w.row = some r ∧ r.expiresAt = s.expiresAt
  deadline : ∀ d, φ.deadline = some d → d ≤ w.now + userCacheTTL cfg
  expiration : ∀ s d x p, φ = .eval s d x p → SoundExpiration cfg w s x
  completed : ∀ s d p, φ = .complete s d p → s.status = .active
  tombstone : ∀ s, φ.tombstone = some s →
    s.status = .revoked ∧ ∃ r, w.row = some r ∧ r.status = .revoked

theorem SoundExpiration.later {x : Nat} (h : SoundExpiration cfg w s x)
    (hw : w.Later w') : SoundExpiration cfg w' s x := by
  have hn := hw.now
  unfold SoundExpiration at h ⊢
  split at h <;> rename_i hs
  · rw [if_pos hs]
    omega
  · rw [if_neg hs]
    omega

theorem Phase.Sound.later (h : φ.Sound cfg w) (hw : w.Later w') : φ.Sound cfg w' where
  carried := by
    intro s hs
    obtain ⟨r, hr, he⟩ := h.carried s hs
    obtain ⟨r', hr', he', -⟩ := hw.row r hr
    exact ⟨r', hr', he'.trans he⟩
  deadline := by
    intro d hd
    have := h.deadline d hd
    have := hw.now
    omega
  expiration := fun s d x p hφ => (h.expiration s d x p hφ).later hw
  completed := h.completed
  tombstone := by
    intro s hs
    obtain ⟨hst, r, hr, hrev⟩ := h.tombstone s hs
    obtain ⟨r', hr', -, hrev'⟩ := hw.row r hr
    exact ⟨hst, r', hr', hrev' hrev⟩

theorem no_deadline (h : φ.deadline = none) {n : Nat} : ∀ d, φ.deadline = some d → d ≤ n := by
  simp [h]

theorem sound_of_deadline (hc : φ.carried = none)
    (hd : ∀ d, φ.deadline = some d → d ≤ w.now + userCacheTTL cfg)
    (ht : φ.tombstone = none) : φ.Sound cfg w where
  carried := by simp [hc]
  deadline := hd
  expiration := by
    rintro s d x p rfl
    cases hc
  completed := by
    rintro s d p rfl
    cases hc
  tombstone := by simp [ht]

theorem sound_of_nothing (hc : φ.carried = none) (hd : φ.deadline = none)
    (ht : φ.tombstone = none) : φ.Sound cfg w :=
  sound_of_deadline hc (no_deadline hd) ht

theorem sound_returned (o : Outcome) : (Phase.returned o).Sound cfg w :=
  sound_of_nothing rfl rfl rfl

theorem sound_of_row (hr : w.row = some r)
    (hc : φ.carried.map UserSession.expiresAt = some r.expiresAt)
    (hd : ∀ d, φ.deadline = some d → d ≤ w.now + userCacheTTL cfg)
    (hs : φ.scripted = false) (ht : φ.tombstone = none) : φ.Sound cfg w where
  carried := by
    intro s hs
    rw [hs] at hc
    exact ⟨r, hr, (Option.some.inj hc).symm⟩
  deadline := hd
  expiration := by
    rintro s d x p rfl
    cases hs
  completed := by
    rintro s d p rfl
    cases hs
  tombstone := by simp [ht]

theorem Revoker.finish_sound (v : Revoker) : v.finish.Sound cfg w := by
  cases v <;> exact sound_of_nothing rfl rfl rfl

theorem afterWrite_sound (hr : w.row = some r)
    (he : r.expiresAt = s.expiresAt) (p : Purpose) (e : Option SessionError) :
    (afterWrite s p e).Sound cfg w := by
  unfold afterWrite
  split
  all_goals first
    | exact sound_returned _
    | exact Revoker.finish_sound _
    | exact sound_of_row hr (congrArg some he.symm) (no_deadline rfl) rfl rfl

theorem sound_tombstone (v : Revoker) (hr : w.row = some r)
    (hrev : r.status = .revoked) (he : r.expiresAt = s.expiresAt) :
    (Phase.publish { s with status := .revoked } none (.tombstone v)).Sound cfg w where
  carried := by
    intro s' hs'
    obtain rfl := Option.some.inj hs'
    exact ⟨r, hr, he⟩
  deadline := no_deadline rfl
  expiration := by rintro _ _ _ _ ⟨⟩
  completed := by rintro _ _ _ ⟨⟩
  tombstone := by
    intro s' hs'
    obtain rfl := Option.some.inj hs'
    exact ⟨rfl, r, hr, hrev⟩

theorem Revoker.commit_sound (v : Revoker) (hr : w.row = some r)
    (he : r.expiresAt = s.expiresAt) : (v.commit w s).2.Sound cfg (v.commit w s).1 := by
  cases v <;> simp only [Revoker.commit, hr] <;> repeat' split
  all_goals first
    | exact sound_returned _
    | exact sound_of_nothing rfl rfl rfl
    | exact sound_tombstone _ rfl rfl he
    | exact sound_tombstone _ rfl rfl rfl

theorem redisExpiration_active {now : Nat} {deadline : Option Nat} {x : Nat}
    (hs : s.status = .active) (h : redisExpiration cfg now s deadline = .ok x) :
    ∃ d, deadline = some d ∧ x = min d s.expiresAtMilli := by
  cases deadline with
  | none =>
    simp only [redisExpiration, if_pos hs] at h
    cases h
  | some d =>
    refine ⟨d, rfl, ?_⟩
    simp only [redisExpiration, if_pos hs] at h
    split_ifs at h <;> injection h <;> omega

theorem redisExpiration_deny {now : Nat} {deadline : Option Nat}
    (hs : s.status ≠ .active) : redisExpiration cfg now s deadline =
      .ok (if min (s.expiresAtMilli - now) (userCacheTTL cfg) = 0 then 1000
        else min (s.expiresAtMilli - now) (userCacheTTL cfg)) := by
  unfold redisExpiration
  rw [if_neg hs]

theorem userCacheTTL_pos (cfg : SessionConfig) : 0 < userCacheTTL cfg := by
  unfold userCacheTTL userCacheTTLSeconds
  split <;> omega

theorem redisExpiration_sound {deadline : Option Nat} {x : Nat}
    (hd : ∀ d, deadline = some d → d ≤ w.now + userCacheTTL cfg)
    (h : redisExpiration cfg w.now s deadline = .ok x) : SoundExpiration cfg w s x := by
  unfold SoundExpiration
  by_cases hs : s.status = .active
  · rw [if_pos hs]
    obtain ⟨d, rfl, rfl⟩ := redisExpiration_active hs h
    have := hd d rfl
    omega
  rw [if_neg hs]
  rw [redisExpiration_deny hs] at h
  have := userCacheTTL_pos cfg
  injection h with h
  split at h <;> omega

/-- A statement keeps what its call knows. -/
theorem next_sound (h : φ.Sound cfg w) : (φ.next cfg w env).2.Sound cfg (φ.next cfg w env).1 := by
  cases φ with
  | idle => exact sound_of_nothing rfl rfl rfl
  | returned o => exact sound_returned o
  | getCache =>
    simp only [Phase.next]
    repeat' split
    all_goals exact sound_of_nothing rfl rfl rfl
  | getDeadline =>
    refine sound_of_deadline rfl ?_ rfl
    intro d hd
    obtain rfl := Option.some.inj hd
    exact Nat.le_refl _
  | getRow d =>
    simp only [Phase.next]
    split
    · exact sound_returned _
    split
    · rename_i s hs
      exact sound_of_row hs rfl h.deadline rfl rfl
    · exact sound_returned _
  | getCheck s d =>
    obtain ⟨r, hr, he⟩ := h.carried s rfl
    simp only [Phase.next]
    split
    · exact sound_of_row hr (congrArg some he.symm) (no_deadline rfl) rfl rfl
    · exact sound_of_row hr (congrArg some he.symm) h.deadline rfl rfl
  | createRow s d now =>
    simp only [Phase.next]
    split
    · exact sound_returned _
    split
    · exact sound_returned _
    · exact sound_of_row rfl rfl h.deadline rfl rfl
  | rotateDeadline q left =>
    cases left with
    | zero => exact sound_returned _
    | succ left =>
      refine sound_of_deadline rfl ?_ rfl
      intro d hd
      obtain rfl := Option.some.inj hd
      exact Nat.le_refl _
  | rotateRow q left d =>
    simp only [Phase.next]
    repeat' split
    all_goals first
      | exact sound_returned _
      | exact sound_of_row ‹w.row = some _› rfl h.deadline rfl rfl
      | (have hrow := ‹w.row = some _›; exact sound_of_row hrow rfl (no_deadline rfl) rfl rfl)
  | rotateSwap q left d s =>
    obtain ⟨r, hr, he⟩ := h.carried s rfl
    simp only [Phase.next, hr]
    split
    · exact sound_returned _
    split
    · exact sound_of_row rfl (congrArg some he.symm) h.deadline rfl rfl
    · exact sound_of_nothing rfl rfl rfl
  | advanceNow q d => exact sound_of_deadline rfl h.deadline rfl
  | advanceRow q d now =>
    simp only [Phase.next]
    repeat' split
    all_goals first
      | exact sound_returned _
      | exact sound_of_row rfl rfl h.deadline rfl rfl
  | revokeRow userID now reason | revokeHashRow presentedHash now reason
  | revokeBulkRow userID now excluded reason done =>
    simp only [Phase.next]
    repeat' split
    all_goals first
      | exact sound_returned _
      | (have hrow := ‹w.row = some _›; exact sound_of_row hrow rfl (no_deadline rfl) rfl rfl)
  | commit s v =>
    obtain ⟨r, hr, he⟩ := h.carried s rfl
    simp only [Phase.next]
    split
    · exact sound_returned _
    · exact v.commit_sound hr he
  | publish s d p =>
    obtain ⟨r, hr, he⟩ := h.carried s rfl
    simp only [Phase.next]
    split
    · rename_i x hx
      refine ⟨?_, no_deadline rfl, ?_, by rintro _ _ _ ⟨⟩, ?_⟩
      · intro s' hs'
        obtain rfl := Option.some.inj hs'
        exact ⟨r, hr, he⟩
      · intro s' d' x' p' heq
        cases heq
        exact redisExpiration_sound h.deadline hx
      intro s' hs'
      rw [tombstone_eval] at hs'
      exact h.tombstone s' hs'
    · exact afterWrite_sound hr he _ _
  | eval s d x p =>
    obtain ⟨r, hr, he⟩ := h.carried s rfl
    have hr' : (cacheScript w s.cacheEntry x).1.row = some r := by rw [cacheScript_row, hr]
    simp only [Phase.next]
    split
    · exact afterWrite_sound hr he _ _
    · exact afterWrite_sound hr' he _ _
    split
    · split
      · rename_i hs
        refine ⟨?_, no_deadline rfl, by rintro _ _ _ _ ⟨⟩, ?_, ?_⟩
        · intro s' hs'
          obtain rfl := Option.some.inj hs'
          exact ⟨r, hr', he⟩
        · intro s' d' p' heq
          cases heq
          exact hs
        intro s' hs'
        rw [tombstone_complete (x := x)] at hs'
        obtain ⟨hst, r₀, hr₀, hrev⟩ := h.tombstone s' hs'
        exact ⟨hst, r₀, by rw [cacheScript_row, hr₀], hrev⟩
      · exact afterWrite_sound hr' he _ _
    · exact afterWrite_sound hr' he _ _
  | complete s d p =>
    obtain ⟨r, hr, he⟩ := h.carried s rfl
    simp only [Phase.next]
    repeat' split
    all_goals exact afterWrite_sound hr he _ _
  | confirm s =>
    simp only [Phase.next]
    repeat' split
    all_goals exact sound_returned _

theorem sessionStep_sound {i : ι} {a : Act} (h : φ.Sound cfg w) :
    (sessionStep cfg i w φ a).2.Sound cfg (sessionStep cfg i w φ a).1 := by
  cases a with
  | tick d => exact h.later (sessionStep_later (φ := φ) i (.tick d))
  | begin op =>
    simp only [sessionStep]
    split
    · cases op <;> simp only [Op.start] <;> repeat' split
      all_goals first
        | exact sound_of_nothing rfl rfl rfl
        | exact sound_of_deadline rfl (fun d hd => (Option.some.inj hd) ▸ Nat.le_refl _) rfl
    · exact h
  | next env => exact next_sound h
  | finish =>
    cases φ with
    | returned o => exact sound_of_nothing rfl rfl rfl
    | _ => exact h

end NewApi.Auth
