/-
  NewApi.Auth.UserGroupCache

  The cached group of a user against the stored one.

  A change of the group keeps the auth version, so the version floors do not
  order it.  `RefreshUserGroupCache` writes, reads the row again and repeats
  until the row is what it wrote: while the cached group is wrong, some refresh
  is on its way to repair it (`Repairs`), whatever other refreshes write in
  between.  `GetUserCache` writes the group it has read and does not look
  again; a population that comes after the last refresh has looked leaves its
  old group behind.
-/

import NewApi.Auth.UserAuthFence

namespace NewApi.Auth

open NewApi.Lib

variable {ι : Type*} {cfg : SessionConfig} {w w' : UserWorld} {φ : UserPhase} {env : UserEnv}

/-! ## Refreshes that still have to write -/

/-- The call will write the group again: it has not written since it read the
    row, or the row has changed since and it will notice. -/
def Repairs (stored : String) : UserPhase → Prop
  | .refreshRow | .refreshWrite _ _ | .refreshLast _ => True
  | .refreshVerify u _ => u.group ≠ stored
  | _ => False

/-- In `RefreshUserGroupCache`. -/
def UserPhase.refreshing : UserPhase → Bool
  | .refreshRow | .refreshWrite _ _ | .refreshVerify _ _ | .refreshLast _ => true
  | _ => false

/-- In a call that this interleaving has: `GetUserCache`, or a change of the
    group with its refresh. -/
def UserPhase.GroupCall : UserPhase → Prop
  | .idle | .returned _ | .getHash | .getFloor _ | .getRow | .getRowFloor _ | .populate _
  | .groupRow _ | .refreshRow | .refreshWrite _ _ | .refreshVerify _ _ | .refreshLast _ => True
  | _ => False

theorem orFail_groupCall {e : Option UserError} (h : φ.GroupCall) : (orFail e φ).GroupCall := by
  cases e with
  | none => exact h
  | some e => trivial

theorem userNext_groupCall (h : φ.GroupCall) : (φ.next cfg w env).2.GroupCall := by
  cases φ with
  | refreshWrite | refreshLast => exact orFail_groupCall trivial
  | idle | returned | getHash | getFloor | getRow | getRowFloor | populate | groupRow | refreshRow
  | refreshVerify =>
    simp only [UserPhase.next]
    repeat' split
    all_goals trivial
  | _ => exact h.elim

theorem userNext_authVersion (h : φ.GroupCall) :
    (φ.next cfg w env).1.row.authVersion = w.row.authVersion := by
  refine userNext_of (P := fun w' => w'.row.authVersion = w.row.authVersion) rfl ?_ ?_ ?_ ?_ ?_ ?_
  · intro u q _
    unfold writeUserCacheScript
    split
    · rfl
    · split <;> rfl
  · intro g v _
    unfold updateFieldScript
    split
    · rfl
    split
    · split <;> rfl
    · rfl
  · rintro old left b rfl
    exact h.elim
  · rintro n rfl
    exact h.elim
  · rintro old left b rfl
    exact h.elim
  · intro g _
    rfl

theorem refreshWrite_group {u u₁ : UserBase} {reply : RedisReply} {first : Nat}
    (hw : w.Bounded first) (hfirst : w.row.authVersion = first) (hu : u.authVersion = first)
    (hok : (updateUserCacheFieldAtVersion reply w (some u.group) u.authVersion).2 = none)
    (hl : (updateUserCacheFieldAtVersion reply w (some u.group) u.authVersion).1.liveHash =
      some u₁) : u₁.group = u.group := by
  unfold updateUserCacheFieldAtVersion at hok hl
  split at hok
  · cases hok
  rename_i hz
  rw [if_neg hz] at hl
  cases reply with
  | down | lost => cases hok
  | ok =>
    unfold updateFieldScript at hok hl
    split at hok
    · cases hok
    rename_i hr
    rw [if_neg hr] at hl
    split at hl
    · rename_i h u₀ hh hu₀
      have hv := hw.liveHash hu₀
      rw [if_neg (not_not.2 (by omega))] at hl
      obtain ⟨h', hh', -, rfl⟩ := liveHash_eq_some.1 hl
      obtain rfl := Option.some.inj hh'
      rfl
    rename_i hnone
    -- no live hash before, so none after
    obtain ⟨h', hh', hlt, rfl⟩ := liveHash_eq_some.1 hl
    exact absurd (liveHash_eq_some.2 ⟨h', hh', hlt, rfl⟩)
      (fun hlive => hnone h' h'.value hh' hlive)

theorem userNext_same (h : φ.GroupCall) (hp : ∀ u, φ ≠ .populate u)
    (hg : ∀ g, φ ≠ .groupRow g) (hr : ∀ u left, φ ≠ .refreshWrite u left)
    (hlast : ∀ u, φ ≠ .refreshLast u) : (φ.next cfg w env).1 = w := by
  refine userNext_of (P := fun w' => w' = w) rfl ?_ ?_ ?_ ?_ ?_ ?_
  · rintro u q (rfl | rfl | ⟨n, rfl⟩)
    · exact absurd rfl (hp u)
    · exact h.elim
    · exact h.elim
  · rintro g v (rfl | ⟨u, left, rfl, -⟩ | ⟨u, rfl, -⟩)
    · exact h.elim
    · exact absurd rfl (hr u left)
    · exact absurd rfl (hlast u)
  · rintro old left b rfl
    exact h.elim
  · rintro n rfl
    exact h.elim
  · rintro old left b rfl
    exact h.elim
  · rintro g rfl
    exact absurd rfl (hg g)

theorem populate_group {u u₁ : UserBase}
    (hl : ((UserPhase.populate u).next cfg w env).1.liveHash = some u₁) :
    w.liveHash = some u₁ ∨ u₁ = u ∧ env.redis ≠ .down := by
  simp only [UserPhase.next, writeUserCache] at hl
  split at hl
  · exact Or.inl hl
  have hscript : (writeUserCacheScript cfg w u true).1.liveHash = some u₁ →
      w.liveHash = some u₁ ∨ u₁ = u := by
    unfold writeUserCacheScript
    split
    · exact Or.inl
    rw [if_neg (by simp)]
    intro hl
    obtain ⟨h, hh, -, rfl⟩ := liveHash_eq_some.1 hl
    obtain rfl := Option.some.inj hh
    exact Or.inr rfl
  cases hr : env.redis with
  | down =>
    rw [hr] at hl
    exact Or.inl hl
  | lost | ok =>
    rw [hr] at hl
    exact (hscript hl).imp_right fun h => ⟨h, fun h => by cases h⟩

theorem populate_row (cfg : SessionConfig) {u : UserBase} : ((UserPhase.populate u).next cfg w env).1.row = w.row := by
  refine writeUserCache_of (P := fun w' => w'.row = w.row) rfl ?_
  unfold writeUserCacheScript
  split
  · rfl
  · split <;> rfl

theorem refreshWrite_row (cfg : SessionConfig) {u : UserBase} {left : Nat} :
    ((UserPhase.refreshWrite u left).next cfg w env).1.row = w.row := by
  refine updateField_of (P := fun w' => w'.row = w.row) rfl ?_
  unfold updateFieldScript
  split
  · rfl
  split
  · split <;> rfl
  · rfl

/-! ## Runs -/

variable {ws : Workers UserWorld ι UserPhase} {first : Nat}

/-- The step belongs to an interleaving of reads and of group changes whose
    refreshes do not fail. -/
structure GroupStep (cfg : SessionConfig) (ws : Workers UserWorld ι UserPhase) (ia : ι × UserAct) :
    Prop where
  op : ∀ op, ia.2 = .begin op → op = .get ∨ ∃ g, op = .setGroup g
  refreshed : ∀ env, ia.2 = .next env → (ws.proc ia.1).refreshing = true →
    ∀ e, ((ws.proc ia.1).next cfg ws.shared env).2 ≠ .returned (.failed e)

variable (ws)

/-- What a population writes is the stored group, or a refresh will still repair
    it, or Redis does not run it. -/
def PopulateFresh (ia : ι × UserAct) : Prop :=
  ∀ u env, ws.proc ia.1 = .populate u → ia.2 = .next env →
    u.group = ws.shared.row.group ∨ (∃ j, Repairs ws.shared.row.group (ws.proc j)) ∨
      env.redis = .down

def GroupAgrees : Prop :=
  ∀ u, ws.shared.liveHash = some u →
    u.group = ws.shared.row.group ∨ ∃ i, Repairs ws.shared.row.group (ws.proc i)

variable {ws}

variable [DecidableEq ι]

theorem GroupAgrees.step {i : ι} {a : UserAct} (h : GroupAgrees ws)
    (hrow : (userStep cfg i ws.shared (ws.proc i) a).1.row = ws.shared.row)
    (hhash : ∀ u, (userStep cfg i ws.shared (ws.proc i) a).1.liveHash = some u →
      ws.shared.liveHash = some u) (hrep : Repairs ws.shared.row.group (ws.proc i) →
      Repairs ws.shared.row.group (userStep cfg i ws.shared (ws.proc i) a).2) :
    GroupAgrees (ws.step (userStep cfg) (i, a)) := by
  intro u hu
  rw [Workers.step_shared] at hu ⊢
  rw [hrow]
  rcases h u (hhash u hu) with hg | ⟨j, hj⟩
  · exact Or.inl hg
  refine Or.inr ⟨j, ?_⟩
  by_cases hji : j = i
  · subst hji
    rw [Workers.step_proc_self]
    exact hrep hj
  · rw [Workers.step_proc_of_ne _ _ hji]
    exact hj

theorem groupAgrees_of_repairs {i : ι} {a : UserAct}
    (hrep : Repairs (userStep cfg i ws.shared (ws.proc i) a).1.row.group
      (userStep cfg i ws.shared (ws.proc i) a).2) :
    GroupAgrees (ws.step (userStep cfg) (i, a)) := by
  intro u _
  refine Or.inr ⟨i, ?_⟩
  rw [Workers.step_proc_self, Workers.step_shared]
  exact hrep

/-- The invariant of an interleaving of reads and group changes. -/
structure GroupInv (first : Nat) (ws : Workers UserWorld ι UserPhase) : Prop where
  user : UserInv first ws
  version : ws.shared.row.authVersion = first
  calls : ∀ i, (ws.proc i).GroupCall
  agrees : GroupAgrees ws

/-- One statement keeps the agreement. -/
theorem GroupInv.next_agrees (h : GroupInv first ws) {i : ι} (hs : GroupStep cfg ws (i, .next env))
    (hp : PopulateFresh ws (i, .next env)) :
    GroupAgrees (ws.step (userStep cfg) (i, .next env)) := by
  have hcall := h.calls i
  have hsound := h.user.2 i
  have hrefreshed := hs.refreshed env rfl
  cases hφ : ws.proc i with
  | populate u =>
    intro u₁ hu₁
    have hrow : (userStep cfg i ws.shared (ws.proc i) (.next env)).1.row = ws.shared.row := by
      rw [hφ]
      exact populate_row cfg
    rw [Workers.step_shared] at hu₁ ⊢
    rw [hrow]
    have hrest : (∃ j, Repairs ws.shared.row.group (ws.proc j)) →
        ∃ j, Repairs ws.shared.row.group ((ws.step (userStep cfg) (i, .next env)).proc j) := by
      rintro ⟨j, hj⟩
      refine ⟨j, ?_⟩
      have hji : j ≠ i := by
        rintro rfl
        rw [hφ] at hj
        exact hj
      rw [Workers.step_proc_of_ne _ _ hji]
      exact hj
    simp only [hφ, userStep] at hu₁
    rcases populate_group hu₁ with hold | ⟨rfl, hup⟩
    · exact (h.agrees u₁ hold).imp_right hrest
    rcases hp _ env hφ rfl with hg | hrep | hdown
    · exact Or.inl hg
    · exact Or.inr (hrest hrep)
    · exact absurd hdown hup
  | groupRow g =>
    by_cases hdb : env.dbFails = true
    · refine h.agrees.step ?_ ?_ ?_
      · simp [hφ, userStep, UserPhase.next, hdb]
      · intro u hu
        simpa [hφ, userStep, UserPhase.next, hdb] using hu
      · rw [hφ]
        exact False.elim
    refine groupAgrees_of_repairs ?_
    simp only [hφ, userStep, UserPhase.next, if_neg hdb]
    trivial
  | refreshRow =>
    rw [hφ] at hrefreshed
    refine groupAgrees_of_repairs ?_
    simp only [hφ, userStep, UserPhase.next] at hrefreshed ⊢
    split
    · rename_i hdb
      exact absurd (by simp [hdb]) (hrefreshed rfl .database)
    · trivial
  | refreshWrite u left =>
    rw [hφ] at hrefreshed hsound
    have hrow : (userStep cfg i ws.shared (ws.proc i) (.next env)).1.row = ws.shared.row := by
      rw [hφ]
      exact refreshWrite_row cfg
    have hok : (updateUserCacheFieldAtVersion env.redis ws.shared (some u.group)
        u.authVersion).2 = none := by
      cases he : (updateUserCacheFieldAtVersion env.redis ws.shared (some u.group)
          u.authVersion).2 with
      | none => rfl
      | some e =>
        refine absurd ?_ (hrefreshed rfl e)
        simp only [UserPhase.next, he, orFail]
    have hv : u.authVersion = first := by
      have := hsound.holds u.authVersion rfl
      have := h.version
      omega
    by_cases hg : u.group = ws.shared.row.group
    · intro u₁ hu₁
      left
      rw [Workers.step_shared] at hu₁ ⊢
      rw [hrow]
      simp only [hφ, userStep, UserPhase.next] at hu₁
      rw [refreshWrite_group h.user.1 h.version hv hok hu₁, hg]
    refine groupAgrees_of_repairs ?_
    rw [hrow]
    simp only [hφ, userStep, UserPhase.next, hok, orFail]
    exact hg
  | refreshVerify u left =>
    rw [hφ] at hrefreshed
    have hsame : ((UserPhase.refreshVerify u left).next cfg ws.shared env).1 = ws.shared :=
      userNext_same trivial (fun _ h => by cases h) (fun _ h => by cases h) (fun _ _ h => by cases h) (fun _ h => by cases h)
    by_cases hg : u.group = ws.shared.row.group
    · refine h.agrees.step ?_ ?_ ?_
      · simp only [hφ, userStep, hsame]
      · intro v hv
        simpa only [hφ, userStep, hsame] using hv
      · rw [hφ]
        exact fun hrep => absurd hg hrep
    refine groupAgrees_of_repairs ?_
    simp only [hφ, userStep, UserPhase.next] at hrefreshed ⊢
    split
    · rename_i hdb
      exact absurd (by simp [hdb]) (hrefreshed rfl .database)
    · rw [if_neg (fun hc => hg hc.2.symm)]
      split <;> trivial
  | refreshLast u =>
    rw [hφ] at hrefreshed
    exfalso
    cases he : (updateUserCacheFieldAtVersion env.redis ws.shared (some u.group)
        u.authVersion).2 with
    | none => exact hrefreshed rfl .unstable (by simp only [UserPhase.next, he, orFail])
    | some e => exact hrefreshed rfl e (by simp only [UserPhase.next, he, orFail])
  | idle | returned | getHash | getFloor | getRow | getRowFloor =>
    rw [hφ] at hcall
    have hsame : ((ws.proc i).next cfg ws.shared env).1 = ws.shared := by
      rw [hφ]
      exact userNext_same hcall (fun _ h => by cases h) (fun _ h => by cases h) (fun _ _ h => by cases h) (fun _ h => by cases h)
    refine h.agrees.step ?_ ?_ ?_
    · simp only [userStep, hsame]
    · intro v hv
      simpa only [userStep, hsame] using hv
    · rw [hφ]
      exact False.elim
  | _ =>
    rw [hφ] at hcall
    exact hcall.elim

theorem GroupInv.step_agrees (h : GroupInv first ws) {ia : ι × UserAct}
    (hs : GroupStep cfg ws ia) (hp : PopulateFresh ws ia) :
    GroupAgrees (ws.step (userStep cfg) ia) := by
  obtain ⟨i, a⟩ := ia
  cases a with
  | next env => exact h.next_agrees hs hp
  | tick d =>
    refine h.agrees.step rfl ?_ id
    intro u hu
    obtain ⟨x, hx, hlt, rfl⟩ := liveHash_eq_some.1 hu
    have hlt' : ws.shared.now + d < x.expireAt := hlt
    exact liveHash_eq_some.2 ⟨x, hx, by omega, rfl⟩
  | begin op =>
    refine h.agrees.step rfl (fun _ => id) ?_
    simp only [userStep]
    split
    · rename_i hidle
      rw [hidle]
      exact False.elim
    · exact id
  | finish =>
    cases hφ : ws.proc i with
    | returned o =>
      refine h.agrees.step ?_ ?_ ?_
      · rw [hφ]
        rfl
      · rw [hφ]
        exact fun _ => id
      · rw [hφ]
        exact False.elim
    | _ =>
      refine h.agrees.step ?_ ?_ ?_
      · rw [hφ]
        rfl
      · rw [hφ]
        exact fun _ => id
      · rw [hφ]
        exact id

theorem GroupInv.step (h : GroupInv first ws) {ia : ι × UserAct} (hs : GroupStep cfg ws ia)
    (hp : PopulateFresh ws ia) : GroupInv first (ws.step (userStep cfg) ia) := by
  obtain ⟨i, a⟩ := ia
  refine ⟨?_, ?_, ?_, h.step_agrees hs hp⟩
  · refine h.user.step i a ⟨userStep_bounded h.user.1 (h.user.2 i),
      userStep_sound h.user.1 (h.user.2 i)⟩ ?_
    intro j _ hj
    exact hj.later (userStep_later i a)
  · rw [Workers.step_shared, ← h.version]
    cases a with
    | next env => exact userNext_authVersion (h.calls i)
    | tick d => rfl
    | begin op => rfl
    | finish =>
      simp only [userStep]
      split <;> rfl
  intro j
  by_cases hji : j = i
  · subst hji
    rw [Workers.step_proc_self]
    have hj := h.calls j
    cases a with
    | next env => exact userNext_groupCall hj
    | tick d => exact hj
    | begin op =>
      simp only [userStep]
      split
      · rcases hs.op op rfl with rfl | ⟨g, rfl⟩ <;> trivial
      · exact hj
    | finish =>
      simp only [userStep]
      split
      · trivial
      · exact hj
  · rw [Workers.step_proc_of_ne _ _ hji]
    exact h.calls j

def Quiet (ws : Workers UserWorld ι UserPhase) : Prop :=
  ∀ i, ws.proc i = .idle ∨ ∃ o, ws.proc i = .returned o

/-- **The cached group converges.**  In a run of reads and group changes whose
    refreshes return nil and whose populations are fresh: whenever no call is in
    flight the cached user, if there is one, has the stored group. -/
theorem cached_group_converges (cfg : SessionConfig) (now : Nat) (row : UserBase)
    (as : List (ι × UserAct))
    (hsteps : Meets (GroupStep cfg) (Workers.step (userStep cfg)) (UserWorld.fresh now row) as)
    (hfresh : Meets PopulateFresh (Workers.step (userStep cfg)) (UserWorld.fresh now row) as) :
    ∀ bs, bs <+: as → Quiet (userRun cfg now row bs) →
      ∀ u, (userRun cfg now row bs).shared.liveHash = some u →
        u.group = (userRun cfg now row bs).shared.row.group := by
  rintro bs ⟨cs, rfl⟩ hquiet u hu
  have hboth : Meets (fun ws ia => GroupStep cfg ws ia ∧ PopulateFresh ws ia)
      (Workers.step (userStep cfg)) (UserWorld.fresh now row) bs :=
    (meets_append.1 hsteps).1.and (meets_append.1 hfresh).1
  have hinv : GroupInv row.authVersion (userRun cfg now row bs) := by
    refine run_invariant (GroupInv row.authVersion) (fun _ _ h hc => h.step hc.1 hc.2) ?_ hboth
    refine ⟨?_, rfl, fun _ => trivial, fun _ h => by cases h⟩
    exact ⟨⟨Nat.le_refl _, Nat.zero_le _, fun _ h => by cases h⟩, fun _ => userSound_of_nothing rfl rfl⟩
  rcases hinv.agrees u hu with hg | ⟨i, hi⟩
  · exact hg
  rcases hquiet i with hidle | ⟨o, ho⟩
  · rw [hidle] at hi
    exact hi.elim
  · rw [ho] at hi
    exact hi.elim

/-! ## A read that is overtaken by a change -/

def defaultUser : UserBase := { group := "default", authVersion := 1 }

/-- The reader (`false`) misses the cache and reads the row; the other caller
    moves the user to `vip` and refreshes the cache, which holds nothing. -/
def overtakenRead : List (Bool × UserAct) :=
  [(false, .begin .get), (false, .next {}), (false, .next {}), (false, .next {}),
   (true, .begin (.setGroup "vip")), (true, .next {}), (true, .next {}), (true, .next {}),
   (true, .next {})]

/-- The same with the population before the change. -/
def undisturbedRead : List (Bool × UserAct) :=
  [(false, .begin .get), (false, .next {}), (false, .next {}), (false, .next {}), (false, .next {}),
   (true, .begin (.setGroup "vip")), (true, .next {}), (true, .next {}), (true, .next {}),
   (true, .next {})]

/-- A test of `GroupStep`. -/
def groupStepOk (cfg : SessionConfig) (ws : Workers UserWorld ι UserPhase) (ia : ι × UserAct) :
    Bool :=
  match ia.2 with
  | .begin op =>
    match op with
    | .get | .setGroup _ => true
    | _ => false
  | .next env =>
    match ((ws.proc ia.1).next cfg ws.shared env).2 with
    | .returned (.failed _) => !(ws.proc ia.1).refreshing
    | _ => true
  | _ => true

omit [DecidableEq ι] in
theorem groupStep_of_ok (ia : ι × UserAct) (h : groupStepOk cfg ws ia = true) :
    GroupStep cfg ws ia where
  op := by
    intro op hop
    rw [groupStepOk, hop] at h
    cases op with
    | get => exact Or.inl rfl
    | setGroup g => exact Or.inr ⟨g, rfl⟩
    | _ => cases h
  refreshed := by
    intro env henv hr e he
    rw [groupStepOk, henv] at h
    simp [he, hr] at h

/-- A test of `PopulateFresh` that looks at the written group only. -/
def populateFreshOk (ws : Workers UserWorld ι UserPhase) (ia : ι × UserAct) : Bool :=
  match ws.proc ia.1 with
  | .populate u => u.group == ws.shared.row.group
  | _ => true

omit [DecidableEq ι] in
theorem populateFresh_of_ok (ia : ι × UserAct) (h : populateFreshOk ws ia = true) :
    PopulateFresh ws ia := by
  intro u env hu _
  rw [populateFreshOk, hu] at h
  exact Or.inl (beq_iff_eq.1 h)

/-- The population that was overtaken leaves the old group in the cache. -/
theorem overtakenRead_leaves_old_group : ¬ ∀ as : List (Bool × UserAct),
      Meets (GroupStep minuteCache) (Workers.step (userStep minuteCache))
        (UserWorld.fresh 0 defaultUser) as →
      Quiet (userRun minuteCache 0 defaultUser as) →
      ∀ u, (userRun minuteCache 0 defaultUser as).shared.liveHash = some u →
        u.group = (userRun minuteCache 0 defaultUser as).shared.row.group := by
  intro h
  have hgroup := h (overtakenRead ++ [(false, .next {})]) ?_ ?_ defaultUser ?_
  · revert hgroup
    decide +kernel
  · refine Meets.mono (C := fun ws ia => groupStepOk minuteCache ws ia = true)
      (fun _ ia hok => groupStep_of_ok ia hok) ?_
    decide +kernel
  · intro i
    right
    cases i with
    | false => exact ⟨.user defaultUser, by decide +kernel⟩
    | true => exact ⟨.ok, by decide +kernel⟩
  · decide +kernel

theorem undisturbedRead_group :
    (userRun minuteCache 0 defaultUser undisturbedRead).shared.liveHash.map UserBase.group =
      some "vip" := by
  rcases hhash : (userRun minuteCache 0 defaultUser undisturbedRead).shared.liveHash with _ | u
  · exact absurd hhash (by decide +kernel)
  rw [Option.map_some, Option.some_inj]
  have hstored : (userRun minuteCache 0 defaultUser undisturbedRead).shared.row.group = "vip" := by
    decide +kernel
  rw [← hstored]
  refine cached_group_converges minuteCache 0 defaultUser undisturbedRead ?_ ?_ undisturbedRead
    (List.prefix_refl _) ?_ u hhash
  · refine Meets.mono (C := fun ws ia => groupStepOk minuteCache ws ia = true)
      (fun _ ia hok => groupStep_of_ok ia hok) ?_
    decide +kernel
  · refine Meets.mono (C := fun ws ia => populateFreshOk ws ia = true)
      (fun _ ia hok => populateFresh_of_ok ia hok) ?_
    decide +kernel
  intro i
  right
  cases i with
  | false => exact ⟨.user defaultUser, by decide +kernel⟩
  | true => exact ⟨.ok, by decide +kernel⟩

end NewApi.Auth
