/-
  NewApi.Auth.UserAuthFence

  The auth-version fence of the cached user.

  The version in the row only grows, and so does the committed floor, which is
  raised to nothing that was not in the row (`UserWorld.Later`, `Bounded`).  A
  bump that has returned has raised the floor to its version, so a reader that
  starts later either sees the floor above what the hash holds or reads the row
  itself.  The fence matters before: it keeps readers out while the bump is
  undecided, and when it has run out nothing is left of a bump that was rolled
  back.
-/

import NewApi.Auth.UserCache

namespace NewApi.Auth

open NewApi.Lib

variable {ι : Type*} {cfg : SessionConfig} {w w' : UserWorld} {φ : UserPhase} {env : UserEnv}
  {reply : RedisReply} {first : Nat}

/-! ## What a step does to the versions -/

/-- Nothing that is counted goes back. -/
structure UserWorld.Later (w w' : UserWorld) : Prop where
  now : w.now ≤ w'.now
  row : w.row.authVersion ≤ w'.row.authVersion
  committed : w.committed ≤ w'.committed

theorem UserWorld.Later.refl (w : UserWorld) : w.Later w :=
  ⟨Nat.le_refl _, Nat.le_refl _, Nat.le_refl _⟩

theorem UserWorld.Later.trans {w'' : UserWorld} (h : w.Later w') (h' : w'.Later w'') :
    w.Later w'' :=
  ⟨h.now.trans h'.now, h.row.trans h'.row, h.committed.trans h'.committed⟩

theorem admitVersion_later (v : Nat) : w.Later (admitVersion w v) :=
  ⟨Nat.le_refl _, Nat.le_refl _, Nat.le_max_left _ _⟩

theorem writeUserCacheScript_later (u : UserBase) (q : Bool) :
    w.Later (writeUserCacheScript cfg w u q).1 := by
  unfold writeUserCacheScript
  split
  · exact UserWorld.Later.refl w
  split
  · exact admitVersion_later _
  · exact ⟨Nat.le_refl _, Nat.le_refl _, Nat.le_max_left _ _⟩

theorem updateFieldScript_later (g : Option String) (v : Nat) :
    w.Later (updateFieldScript w g v).1 := by
  unfold updateFieldScript
  split
  · exact UserWorld.Later.refl w
  split
  · split
    · exact admitVersion_later _
    · exact ⟨Nat.le_refl _, Nat.le_refl _, Nat.le_max_left _ _⟩
  · exact admitVersion_later _

theorem fenceScript_later (v : Nat) : w.Later (fenceScript cfg w v) := by
  unfold fenceScript
  split <;> exact ⟨Nat.le_refl _, Nat.le_refl _, Nat.le_refl _⟩

variable {P : UserWorld → Prop}

theorem evalScript_of {out : UserWorld × Bool} (hw : P w) (hout : P out.1) :
    P (evalScript reply w out).1 := by
  cases reply
  · exact hout
  · exact hw
  · exact hout

variable {u : UserBase}

theorem writeUserCache_of {q : Bool} (hw : P w)
    (hout : P (writeUserCacheScript cfg w u q).1) : P (writeUserCache cfg reply w u q).1 := by
  unfold writeUserCache
  split
  · exact hw
  · exact evalScript_of hw hout

variable {v : Nat}

theorem updateField_of {g : Option String} (hw : P w)
    (hout : P (updateFieldScript w g v).1) : P (updateUserCacheFieldAtVersion reply w g v).1 := by
  unfold updateUserCacheFieldAtVersion
  split
  · exact hw
  · exact evalScript_of hw hout

theorem userNext_of (hw : P w)
    (hwrite : ∀ u q, (φ = .populate u ∨ φ = .updateWrite u ∨ ∃ n, φ = .bumpPublish n u) →
      P (writeUserCacheScript cfg w u q).1)
    (hfield : ∀ g v, (φ = .fieldWrite g v ∨ (∃ u left, φ = .refreshWrite u left ∧
      g = some u.group ∧ v = u.authVersion) ∨ ∃ u, φ = .refreshLast u ∧ g = some u.group ∧
      v = u.authVersion) → P (updateFieldScript w g v).1)
    (hfence : ∀ old left b, φ = .bumpFence old left b → P (fenceScript cfg w (nextAuthVersion old)))
    (hfloor : ∀ n, φ = .bumpFloor n → P (publishCommittedScript w n))
    (hcommit : ∀ old left b, φ = .bumpCommit old left b → w.row.authVersion = old →
      P { w with row := { w.row with authVersion := nextAuthVersion old } })
    (hgroup : ∀ g, φ = .groupRow g → P { w with row := { w.row with group := g } }) :
    P (φ.next cfg w env).1 := by
  cases φ with
  | populate u => exact writeUserCache_of hw (hwrite u true (Or.inl rfl))
  | updateWrite u => exact writeUserCache_of hw (hwrite u false (Or.inr (Or.inl rfl)))
  | bumpPublish n u => exact writeUserCache_of hw (hwrite u false (Or.inr (Or.inr ⟨n, rfl⟩)))
  | fieldWrite g v => exact updateField_of hw (hfield g v (Or.inl rfl))
  | refreshWrite u left =>
    exact updateField_of hw (hfield _ _ (Or.inr (Or.inl ⟨u, left, rfl, rfl, rfl⟩)))
  | refreshLast u => exact updateField_of hw (hfield _ _ (Or.inr (Or.inr ⟨u, rfl, rfl, rfl⟩)))
  | bumpFence old left b =>
    simp only [UserPhase.next]
    split
    · exact hfence old left b rfl
    · exact hfence old left b rfl
    · exact hw
  | bumpFloor n =>
    simp only [UserPhase.next]
    split
    · exact hfloor n rfl
    · exact hfloor n rfl
    · exact hw
  | bumpCommit old left b =>
    simp only [UserPhase.next]
    split
    · exact hw
    split
    · exact hcommit old left b rfl ‹_›
    · exact hw
  | groupRow g =>
    simp only [UserPhase.next]
    split
    · exact hw
    · exact hgroup g rfl
  | _ =>
    simp only [UserPhase.next]
    repeat' split
    all_goals exact hw

theorem userNext_later : w.Later (φ.next cfg w env).1 := by
  refine userNext_of (P := w.Later) (UserWorld.Later.refl w) ?_ ?_ ?_ ?_ ?_ ?_
  · intro u q _
    exact writeUserCacheScript_later u q
  · intro g v _
    exact updateFieldScript_later g v
  · intro old left b _
    exact fenceScript_later _
  · intro n _
    exact admitVersion_later n
  · intro old left b _ hold
    refine ⟨Nat.le_refl _, ?_, Nat.le_refl _⟩
    simp only [nextAuthVersion]
    omega
  · intro g _
    exact ⟨Nat.le_refl _, Nat.le_refl _, Nat.le_refl _⟩

theorem userStep_later (i : ι) (a : UserAct) : w.Later (userStep cfg i w φ a).1 := by
  cases a with
  | tick d => exact ⟨Nat.le_add_right _ _, Nat.le_refl _, Nat.le_refl _⟩
  | begin op => exact UserWorld.Later.refl w
  | next env => exact userNext_later
  | finish => cases φ <;> exact UserWorld.Later.refl w

/-! ## Versions come from the row -/

/-- Every version in Redis is one the row has or had; `first` is the version the
    user started with. -/
structure UserWorld.Bounded (first : Nat) (w : UserWorld) : Prop where
  row : first ≤ w.row.authVersion
  committed : w.committed ≤ w.row.authVersion
  hash : ∀ h, w.hash = some h → first ≤ h.value.authVersion ∧
    h.value.authVersion ≤ w.row.authVersion

/-- The auth version a call holds of a user it has read. -/
def UserPhase.holds : UserPhase → Option Nat
  | .getFloor u | .getRowFloor u | .populate u | .updateWrite u | .bumpPublish _ u
  | .refreshWrite u _ | .refreshVerify u _ | .refreshLast u => some u.authVersion
  | .fieldWrite _ v => some v
  | .returned (.user u) => some u.authVersion
  | _ => none

def UserPhase.stored : UserPhase → Option Nat
  | .bumpPublishRow n | .bumpPublish n _ | .bumpFloor n | .returned (.bumped n) => some n
  | _ => none

structure UserPhase.Sound (first : Nat) (w : UserWorld) (φ : UserPhase) : Prop where
  holds : ∀ v, φ.holds = some v → first ≤ v ∧ v ≤ w.row.authVersion
  stored : ∀ n, φ.stored = some n → n ≤ w.row.authVersion
  published : ∀ n u, φ = .bumpPublish n u → n ≤ u.authVersion
  bumped : ∀ n, φ = .returned (.bumped n) → n ≤ w.committed

theorem UserPhase.Sound.later (h : φ.Sound first w) (hw : w.Later w') : φ.Sound first w' where
  holds := fun v hv => ⟨(h.holds v hv).1, (h.holds v hv).2.trans hw.row⟩
  stored := fun n hn => (h.stored n hn).trans hw.row
  published := h.published
  bumped := fun n hn => (h.bumped n hn).trans hw.committed

theorem userSound_of_nothing (hh : φ.holds = none) (hs : φ.stored = none) : φ.Sound first w where
  holds := by
    intro v hv
    rw [hh] at hv
    cases hv
  stored := by
    intro n hn
    rw [hs] at hn
    cases hn
  published := by
    rintro n u rfl
    cases hs
  bumped := by
    rintro n rfl
    cases hs

theorem userSound_of_version (hh : φ.holds = some v) (hs : φ.stored = none)
    (hv : first ≤ v ∧ v ≤ w.row.authVersion) : φ.Sound first w where
  holds := by
    intro v' hv'
    obtain rfl : v = v' := Option.some.inj (hh.symm.trans hv')
    exact hv
  stored := by
    intro n hn
    rw [hs] at hn
    cases hn
  published := by
    rintro n u rfl
    cases hs
  bumped := by
    rintro n rfl
    cases hs

theorem admitVersion_bounded (hw : w.Bounded first) (hv : v ≤ w.row.authVersion) :
    (admitVersion w v).Bounded first :=
  ⟨hw.row, Nat.max_le.2 ⟨hw.committed, hv⟩, hw.hash⟩

theorem liveHash_eq_some :
    w.liveHash = some u ↔ ∃ h, w.hash = some h ∧ w.now < h.expireAt ∧ h.value = u := by
  simp [UserWorld.liveHash, Expiring.live, Option.filter_eq_some_iff, and_assoc]

theorem UserWorld.Bounded.liveHash (hw : w.Bounded first)
    (hu : w.liveHash = some u) : first ≤ u.authVersion ∧ u.authVersion ≤ w.row.authVersion := by
  obtain ⟨h, hh, -, rfl⟩ := liveHash_eq_some.1 hu
  exact hw.hash h hh

theorem writeUserCacheScript_bounded (q : Bool) (hw : w.Bounded first)
    (hu : first ≤ u.authVersion ∧ u.authVersion ≤ w.row.authVersion) :
    (writeUserCacheScript cfg w u q).1.Bounded first := by
  have hraised := admitVersion_bounded hw hu.2
  unfold writeUserCacheScript
  split
  · exact hw
  split
  · exact hraised
  refine ⟨hraised.row, hraised.committed, ?_⟩
  intro h hh
  obtain rfl := Option.some.inj hh
  exact hu

theorem updateFieldScript_bounded (g : Option String) (hw : w.Bounded first)
    (hv : v ≤ w.row.authVersion) : (updateFieldScript w g v).1.Bounded first := by
  have hraised := admitVersion_bounded hw hv
  unfold updateFieldScript
  split
  · exact hw
  split
  · split
    · exact hraised
    rename_i h u hh hu _
    have hlive := hw.liveHash hu
    refine ⟨hraised.row, hraised.committed, ?_⟩
    intro h' hh'
    obtain rfl := Option.some.inj hh'
    exact hlive
  · exact hraised

theorem userNext_bounded (hw : w.Bounded first) (hφ : φ.Sound first w) :
    (φ.next cfg w env).1.Bounded first := by
  refine userNext_of (P := UserWorld.Bounded first) hw ?_ ?_ ?_ ?_ ?_ ?_
  · intro u q hu
    refine writeUserCacheScript_bounded q hw (hφ.holds u.authVersion ?_)
    rcases hu with rfl | rfl | ⟨n, rfl⟩ <;> rfl
  · intro g v hv
    refine updateFieldScript_bounded g hw (hφ.holds v ?_).2
    rcases hv with rfl | ⟨u, left, rfl, -, rfl⟩ | ⟨u, rfl, -, rfl⟩ <;> rfl
  · intro old left b _
    unfold fenceScript
    split
    · exact ⟨hw.row, hw.committed, hw.hash⟩
    · exact hw
  · rintro n rfl
    exact admitVersion_bounded hw (hφ.stored n rfl)
  · intro old left b _ hold
    have hle : w.row.authVersion ≤ nextAuthVersion old := by
      simp only [nextAuthVersion]
      omega
    refine ⟨hw.row.trans hle, hw.committed.trans hle, ?_⟩
    intro h hh
    exact ⟨(hw.hash h hh).1, (hw.hash h hh).2.trans hle⟩
  · intro g _
    exact ⟨hw.row, hw.committed, hw.hash⟩

theorem orFail_sound {e : Option UserError} (h : e = none → φ.Sound first w) :
    (orFail e φ).Sound first w := by
  cases e with
  | none => exact h rfl
  | some e => exact userSound_of_nothing rfl rfl

theorem writeUserCache_committed {q : Bool} (h : (writeUserCache cfg reply w u q).2 = none) :
    u.authVersion ≤ (writeUserCache cfg reply w u q).1.committed := by
  unfold writeUserCache at h ⊢
  split at h
  · cases h
  rename_i hv
  rw [if_neg hv]
  cases reply with
  | down => cases h
  | lost => cases h
  | ok =>
    unfold writeUserCacheScript at h ⊢
    split at h
    · cases h
    rename_i hr
    rw [if_neg hr]
    split <;> exact Nat.le_max_right _ _

/-- A statement keeps what its call knows. -/
theorem userNext_sound (hw : w.Bounded first) (hφ : φ.Sound first w) :
    (φ.next cfg w env).2.Sound first (φ.next cfg w env).1 := by
  have hrow : first ≤ w.row.authVersion ∧ w.row.authVersion ≤ w.row.authVersion :=
    ⟨hw.row, Nat.le_refl _⟩
  cases φ with
  | idle => exact hφ
  | returned o => exact hφ
  | getHash =>
    simp only [UserPhase.next]
    split
    · exact userSound_of_nothing rfl rfl
    split
    · exact userSound_of_nothing rfl rfl
    rename_i u hu
    split
    · exact userSound_of_nothing rfl rfl
    · exact userSound_of_version rfl rfl (hw.liveHash hu)
  | getFloor u =>
    simp only [UserPhase.next]
    split
    · exact userSound_of_nothing rfl rfl
    split
    · exact userSound_of_nothing rfl rfl
    · exact userSound_of_version rfl rfl (hφ.holds _ rfl)
  | getRow | updateRow | fieldRow g | refreshRow =>
    simp only [UserPhase.next]
    split
    · exact userSound_of_nothing rfl rfl
    · exact userSound_of_version rfl rfl hrow
  | getRowFloor u =>
    simp only [UserPhase.next]
    split
    · exact userSound_of_nothing rfl rfl
    · exact userSound_of_version rfl rfl (hφ.holds _ rfl)
  | populate u =>
    have hl : w.Later (UserPhase.next cfg w env (.populate u)).1 := userNext_later
    have hu := (hφ.later hl).holds u.authVersion rfl
    simp only [UserPhase.next] at hu ⊢
    split
    · exact userSound_of_nothing rfl rfl
    · exact userSound_of_version rfl rfl hu
  | updateWrite u | fieldWrite g v | refreshLast u =>
    exact orFail_sound fun _ => userSound_of_nothing rfl rfl
  | bumpRow left b =>
    cases left with
    | zero => exact userSound_of_nothing rfl rfl
    | succ left =>
      simp only [UserPhase.next]
      split <;> exact userSound_of_nothing rfl rfl
  | bumpFence old left b | groupRow g =>
    simp only [UserPhase.next]
    split <;> exact userSound_of_nothing rfl rfl
  | bumpCommit old left b =>
    simp only [UserPhase.next]
    split
    · exact userSound_of_nothing rfl rfl
    split
    · cases b
      · exact ⟨nofun, fun n hn => Nat.le_of_eq (Option.some.inj hn).symm, nofun, nofun⟩
      · exact ⟨nofun, fun n hn => Nat.le_of_eq (Option.some.inj hn).symm, nofun, nofun⟩
    · exact userSound_of_nothing rfl rfl
  | bumpPublishRow n =>
    simp only [UserPhase.next]
    split
    · exact userSound_of_nothing rfl rfl
    refine ⟨?_, hφ.stored, ?_, nofun⟩
    · intro v hv
      obtain rfl := Option.some.inj hv
      exact hrow
    intro n' u' heq
    cases heq
    exact hφ.stored n rfl
  | bumpPublish n u =>
    have hl : w.Later (UserPhase.next cfg w env (.bumpPublish n u)).1 := userNext_later
    have hs := (hφ.later hl).stored n rfl
    refine orFail_sound fun he => ⟨nofun, ?_, nofun, ?_⟩
    · intro n' hn'
      obtain rfl := Option.some.inj hn'
      exact hs
    intro n' heq
    cases heq
    exact (hφ.published n u rfl).trans (writeUserCache_committed he)
  | bumpFloor n =>
    have hs := hφ.stored n rfl
    simp only [UserPhase.next]
    split
    · refine ⟨nofun, ?_, nofun, ?_⟩
      · intro n' hn'
        obtain rfl := Option.some.inj hn'
        exact hs
      intro n' heq
      cases heq
      exact Nat.le_max_right _ _
    · exact userSound_of_nothing rfl rfl
    · exact userSound_of_nothing rfl rfl
  | refreshWrite u left =>
    have hl : w.Later (UserPhase.next cfg w env (.refreshWrite u left)).1 := userNext_later
    have hu := (hφ.later hl).holds u.authVersion rfl
    exact orFail_sound fun _ => userSound_of_version rfl rfl hu
  | refreshVerify u left =>
    simp only [UserPhase.next]
    split
    · exact userSound_of_nothing rfl rfl
    split
    · exact userSound_of_nothing rfl rfl
    · split <;> exact userSound_of_version rfl rfl hrow

variable {i : ι} {a : UserAct}

theorem userStep_bounded (hw : w.Bounded first) (hφ : φ.Sound first w) :
    (userStep cfg i w φ a).1.Bounded first := by
  cases a with
  | tick d => exact ⟨hw.row, hw.committed, hw.hash⟩
  | begin op => exact hw
  | next env => exact userNext_bounded hw hφ
  | finish => cases φ <;> exact hw

theorem userStep_sound (hw : w.Bounded first) (hφ : φ.Sound first w) :
    (userStep cfg i w φ a).2.Sound first (userStep cfg i w φ a).1 := by
  cases a with
  | tick d => exact hφ.later (userStep_later i (.tick d))
  | begin op =>
    simp only [userStep]
    split
    · cases op <;> exact userSound_of_nothing rfl rfl
    · exact hφ
  | next env => exact userNext_sound hw hφ
  | finish =>
    cases φ with
    | returned o => exact userSound_of_nothing rfl rfl
    | _ => exact hφ

variable [DecidableEq ι]

/-- The state a run of calls ends in, the user being stored and nothing cached. -/
def userRun (cfg : SessionConfig) (now : Nat) (row : UserBase) (as : List (ι × UserAct)) :
    Workers UserWorld ι UserPhase :=
  run (Workers.step (userStep cfg)) (UserWorld.fresh now row) as

theorem userRun_append (now : Nat) (row : UserBase) (as bs : List (ι × UserAct)) :
    userRun cfg now row (as ++ bs) =
      run (Workers.step (userStep cfg)) (userRun cfg now row as) bs := by
  rw [userRun, run_append, userRun]

abbrev UserInv (first : Nat) (ws : Workers UserWorld ι UserPhase) : Prop :=
  ws.Holds (UserWorld.Bounded first) (fun w _ φ => φ.Sound first w)

theorem userInv_run (cfg : SessionConfig) (now : Nat) (row : UserBase) (as : List (ι × UserAct)) :
    UserInv row.authVersion (userRun cfg now row as) := by
  refine run_invariant_all (UserInv row.authVersion) ?_ as ?_
  · rintro ws ⟨i, a⟩ h
    refine h.step i a ⟨userStep_bounded h.1 (h.2 i), userStep_sound h.1 (h.2 i)⟩ ?_
    intro j _ hj
    exact hj.later (userStep_later i a)
  · exact ⟨⟨Nat.le_refl _, Nat.zero_le _, nofun⟩, fun _ => userSound_of_nothing rfl rfl⟩

theorem userRun_later {ws : Workers UserWorld ι UserPhase} (as : List (ι × UserAct)) :
    ws.shared.Later (run (Workers.step (userStep cfg)) ws as).shared :=
  run_invariant_all (fun ws' : Workers UserWorld ι UserPhase => ws.shared.Later ws'.shared)
    (fun _ ia h => h.trans (userStep_later ia.1 ia.2)) as (UserWorld.Later.refl _)

/-! ## Readers that start after a bump has returned -/

/-- The bump to `v` is in the row and in the floor. -/
def UserWorld.Reached (v : Nat) (w : UserWorld) : Prop :=
  v ≤ w.row.authVersion ∧ v ≤ w.committed

theorem UserWorld.Reached.later (h : w.Reached v) (hw : w.Later w') : w'.Reached v :=
  ⟨h.1.trans hw.row, h.2.trans hw.committed⟩

/-- The call has not taken over a user below `v`; what it has of the hash it
    still has to compare with the floor. -/
def UserPhase.NotBelow (v : Nat) : UserPhase → Prop
  | .getRowFloor u | .populate u | .returned (.user u) => v ≤ u.authVersion
  | _ => True

theorem orFail_notBelow {e : Option UserError} (h : φ.NotBelow v) : (orFail e φ).NotBelow v := by
  cases e with
  | none => exact h
  | some e => trivial

theorem userNext_notBelow (hw : w.Reached v) (hφ : φ.NotBelow v) :
    (φ.next cfg w env).2.NotBelow v := by
  cases φ with
  | returned o => exact hφ
  | getHash =>
    simp only [UserPhase.next]
    split
    · trivial
    split
    · trivial
    · simp only
      split <;> trivial
  | getFloor u =>
    simp only [UserPhase.next]
    split
    · trivial
    split
    · trivial
    rename_i hfloor
    have hv : v ≤ w.getUserAuthVersionFloor := hw.2.trans (Nat.le_max_right _ _)
    exact hv.trans (Nat.le_of_not_lt hfloor)
  | getRow =>
    simp only [UserPhase.next]
    split
    · trivial
    · exact hw.1
  | getRowFloor u | populate u =>
    simp only [UserPhase.next]
    split
    · trivial
    · exact hφ
  | updateWrite | fieldWrite | bumpPublish | refreshWrite | refreshLast =>
    exact orFail_notBelow trivial
  | bumpRow left b =>
    cases left with
    | zero => trivial
    | succ left =>
      simp only [UserPhase.next]
      split <;> trivial
  | bumpCommit old left b =>
    simp only [UserPhase.next]
    split
    · trivial
    split
    · cases b <;> trivial
    · trivial
  | _ =>
    simp only [UserPhase.next]
    repeat' split
    all_goals trivial

omit [DecidableEq ι] in
theorem userStep_notBelow (hw : w.Reached v) (hφ : φ.NotBelow v) :
    (userStep cfg i w φ a).2.NotBelow v := by
  cases a with
  | tick d => exact hφ
  | begin op =>
    simp only [userStep]
    split
    · cases op <;> trivial
    · exact hφ
  | next env => exact userNext_notBelow hw hφ
  | finish =>
    cases φ with
    | returned o => trivial
    | _ => exact hφ

theorem run_notBelow (cfg : SessionConfig) {ws : Workers UserWorld ι UserPhase}
    (hw : ws.shared.Reached v) (hi : (ws.proc i).NotBelow v) (as : List (ι × UserAct)) :
    ((run (Workers.step (userStep cfg)) ws as).proc i).NotBelow v := by
  refine (run_invariant_all (fun ws : Workers UserWorld ι UserPhase =>
    ws.shared.Reached v ∧ (ws.proc i).NotBelow v) ?_ as ⟨hw, hi⟩).2
  rintro ws ⟨j, a⟩ ⟨hw, hi⟩
  refine ⟨hw.later (userStep_later j a), ?_⟩
  by_cases hij : i = j
  · subst hij
    rw [Workers.step_proc_self]
    exact userStep_notBelow hw hi
  · rw [Workers.step_proc_of_ne _ _ hij]
    exact hi

/-! ## While the hash lives -/

theorem current_of_live (h : w.liveHash = some u) : w.current = u.authVersion := by
  simp [UserWorld.current, h]

variable {u₀ : UserBase}

section
variable (h₀ : w.liveHash = some u₀)
include h₀

theorem writeUserCacheScript_hash {u₁ : UserBase} {q : Bool}
    (h₁ : (writeUserCacheScript cfg w u q).1.liveHash = some u₁) :
    u₀.authVersion ≤ u₁.authVersion := by
  unfold writeUserCacheScript at h₁
  split at h₁
  · rw [h₀] at h₁
    rw [Option.some.inj h₁]
  rename_i hr
  split at h₁
  · have hl : (admitVersion w u.authVersion).liveHash = w.liveHash := rfl
    rw [hl, h₀] at h₁
    rw [Option.some.inj h₁]
  obtain ⟨h, hh, -, rfl⟩ := liveHash_eq_some.1 h₁
  obtain rfl := Option.some.inj hh
  simp only [refused, Bool.or_eq_true, decide_eq_true_eq, not_or, not_lt] at hr
  rw [← current_of_live h₀]
  exact hr.2

theorem updateFieldScript_hash {g : Option String} {u₁ : UserBase}
    (h₁ : (updateFieldScript w g v).1.liveHash = some u₁) : u₀.authVersion ≤ u₁.authVersion := by
  unfold updateFieldScript at h₁
  split at h₁
  · rw [h₀] at h₁
    rw [Option.some.inj h₁]
  split at h₁
  · rename_i h u hh hu
    obtain rfl : u₀ = u := Option.some.inj (h₀.symm.trans hu)
    split at h₁
    · have hl : (admitVersion w v).liveHash = w.liveHash := rfl
      rw [hl, h₀] at h₁
      rw [Option.some.inj h₁]
    obtain ⟨h', hh', -, rfl⟩ := liveHash_eq_some.1 h₁
    obtain rfl := Option.some.inj hh'
    exact Nat.le_refl _
  have hl : (admitVersion w v).liveHash = w.liveHash := rfl
  rw [hl, h₀] at h₁
  rw [Option.some.inj h₁]

omit [DecidableEq ι] in
theorem userStep_hash {u₁ : UserBase} (h₁ : (userStep cfg i w φ a).1.liveHash = some u₁) : u₀.authVersion ≤ u₁.authVersion := by
  have hsame : ∀ w' : UserWorld, w'.hash = w.hash → w'.liveHash = some u₁ →
      u₀.authVersion ≤ u₁.authVersion := by
    intro w' hw' hu₁
    obtain ⟨h, hh, -, rfl⟩ := liveHash_eq_some.1 h₀
    obtain ⟨h', hh', -, rfl⟩ := liveHash_eq_some.1 hu₁
    rw [hw', hh] at hh'
    rw [Option.some.inj hh']
  cases a with
  | tick d => exact hsame { w with now := w.now + d } rfl h₁
  | begin op => exact hsame w rfl h₁
  | finish => cases φ <;> exact hsame w rfl h₁
  | next env =>
    revert h₁
    refine userNext_of (P := fun w' => w'.liveHash = some u₁ → _) (hsame w rfl) ?_ ?_ ?_ ?_ ?_ ?_
    · intro u q _
      exact writeUserCacheScript_hash h₀
    · intro g v _
      exact updateFieldScript_hash h₀
    · intro old left b _
      unfold fenceScript
      split
      · exact hsame _ rfl
      · exact hsame _ rfl
    · intro n _
      exact hsame _ rfl
    · intro old left b _ _
      exact hsame _ rfl
    · intro g _
      exact hsame _ rfl

end

theorem run_hash {ws : Workers UserWorld ι UserPhase} (as : List (ι × UserAct))
    (h₀ : ws.shared.liveHash = some u₀) (hlives : ∀ bs, bs <+: as →
      (run (Workers.step (userStep cfg)) ws bs).shared.liveHash.isSome = true) :
    ∃ u₁, (run (Workers.step (userStep cfg)) ws as).shared.liveHash = some u₁ ∧
      u₀.authVersion ≤ u₁.authVersion := by
  induction as using List.reverseRecOn with
  | nil => exact ⟨u₀, h₀, Nat.le_refl _⟩
  | append_singleton as ia ih =>
    obtain ⟨u₁, hu₁, hle⟩ := ih fun bs hbs => hlives bs (hbs.trans (List.prefix_append _ _))
    obtain ⟨u₂, hu₂⟩ := Option.isSome_iff_exists.1 (hlives _ (List.prefix_refl _))
    refine ⟨u₂, hu₂, hle.trans ?_⟩
    rw [run_append] at hu₂
    exact userStep_hash hu₁ hu₂

/-! ## Once the fence has run out -/

/-- The statements of one undisturbed `GetUserCache`. -/
def getAlone : List UserAct :=
  [.begin .get, .next {}, .next {}, .next {}, .next {}, .next {}]

theorem getRow_alone (cfg : SessionConfig) (hp : w.pending = 0) (hc : w.committed ≤ w.row.authVersion)
    (hh : w.current ≤ w.row.authVersion) :
    ∃ w', (UserPhase.getRow.next cfg w {}) = (w, .getRowFloor w.row) ∧
      ((UserPhase.getRowFloor w.row).next cfg w {}) = (w, .populate w.row) ∧
      ((UserPhase.populate w.row).next cfg w {}) = (w', .returned (.user w.row)) := by
  have hfloor : ¬ w.row.authVersion < w.getUserAuthVersionFloor := by
    rw [UserWorld.getUserAuthVersionFloor, hp]
    omega
  have hnot : refused w w.row.authVersion = false := by
    simp only [refused, hp, Bool.or_eq_false_iff, decide_eq_false_iff_not]
    omega
  have hpend : (writeUserCache cfg .ok w w.row true).2 ≠ some .pending := by
    unfold writeUserCache
    split
    · nofun
    · simp [evalScript, writeUserCacheScript, hnot, scriptError]
  refine ⟨(writeUserCache cfg .ok w w.row true).1, by simp [UserPhase.next], ?_, ?_⟩
  · simp [UserPhase.next, hfloor]
  · simp only [UserPhase.next, if_neg hpend]

omit [DecidableEq ι] in
theorem getAlone_returns (cfg : SessionConfig) (i : ι) (hw : w.Bounded first) (hp : w.pending = 0) :
    ∃ w' u, getAlone.foldl (fun p a => userStep cfg i p.1 p.2 a) (w, .idle) =
      (w', .returned (.user u)) ∧
      (first ≤ u.authVersion ∧ w.committed ≤ u.authVersion ∧
        u.authVersion ≤ w.row.authVersion) := by
  have hrow : first ≤ w.row.authVersion ∧ w.committed ≤ w.row.authVersion ∧
      w.row.authVersion ≤ w.row.authVersion := ⟨hw.row, hw.committed, Nat.le_refl _⟩
  have hcur : w.current ≤ w.row.authVersion := by
    cases hl : w.liveHash with
    | none => simp [UserWorld.current, hl]
    | some u =>
      rw [current_of_live hl]
      exact (hw.liveHash hl).2
  obtain ⟨w', h1, h2, h3⟩ := getRow_alone cfg hp hw.committed hcur
  have hret : ∀ (w : UserWorld) (o : UserOutcome),
      (UserPhase.returned o).next cfg w {} = (w, .returned o) := fun _ _ => rfl
  simp only [getAlone, List.foldl_cons, List.foldl_nil, userStep, if_true, UserOp.start]
  cases hl : w.liveHash with
  | none =>
    have h0 : UserPhase.getHash.next cfg w {} = (w, .getRow) := by simp [UserPhase.next, hl]
    rw [h0, h1, h2, h3, hret]
    exact ⟨w', w.row, rfl, hrow⟩
  | some u =>
    by_cases hz : u.authVersion = 0
    · have h0 : UserPhase.getHash.next cfg w {} = (w, .getRow) := by
        simp [UserPhase.next, hl, hz]
      rw [h0, h1, h2, h3, hret]
      exact ⟨w', w.row, rfl, hrow⟩
    have h0 : UserPhase.getHash.next cfg w {} = (w, .getFloor u) := by
      simp [UserPhase.next, hl, hz]
    by_cases hlow : u.authVersion < w.getUserAuthVersionFloor
    · have h4 : (UserPhase.getFloor u).next cfg w {} = (w, .getRow) := by
        simp [UserPhase.next, hlow]
      rw [h0, h4, h1, h2, h3]
      exact ⟨w', w.row, rfl, hrow⟩
    have h4 : (UserPhase.getFloor u).next cfg w {} = (w, .returned (.user u)) := by
      simp [UserPhase.next, hlow]
    rw [h0, h4, hret, hret, hret]
    refine ⟨w, u, rfl, ?_⟩
    have hb := hw.liveHash hl
    rw [UserWorld.getUserAuthVersionFloor, hp] at hlow
    omega

end NewApi.Auth
