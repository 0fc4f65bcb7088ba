/-
  NewApi.Subscription.Group

  The user's group while subscriptions upgrade it and end.

  A row remembers the group the user had when it was bought.  When it ends and
  no other live row holds a group, the user goes back to that one, provided the
  group is still the one the row gave.  While another live row exists the group
  is kept as it is, also when it is the ended row's.

  Bought one after the other (a new row only once the earlier ones were expired
  or cancelled) every row remembers the original group, and the user is back in
  it whenever no row is open.  Rows that overlap remember each other's groups,
  and what the user ends up with depends on which of them ends last.
-/

import NewApi.Lib.Run
import NewApi.Subscription.Table

namespace NewApi.Subscription

open NewApi.Lib

/-! ## Calls -/

/-- A plan with an upgrade group and no explicit downgrade group. -/
structure UpgradingPlan where
  plan : SubscriptionPlan
  upgrades : trimSpace plan.upgradeGroup ≠ ""
  noDowngrade : trimSpace plan.downgradeGroup = ""

inductive GroupAction where
  | tick (d : Nat)
  | purchase (userId : Int) (p : UpgradingPlan)
  | expireDue (limit : Int)
  | cancel (id : Int)
  | delete (id : Int)

def groupStep (cal : Calendar) (db : Db) : GroupAction → Db
  | .tick d => { db with now := db.now + d }
  | .purchase u p => (createUserSubscriptionFromPlanTx cal db u p.plan).2
  | .expireDue limit => expireDueSubscriptions db limit
  | .cancel id => adminInvalidateUserSubscription db id
  | .delete id => adminDeleteUserSubscription db id

/-- The upgrade group of the row a call creates for the user, if it creates one. -/
def created (cal : Calendar) (u : Int) (db : Db) : GroupAction → Option String
  | .purchase u' p =>
    match activeRow db u' p.plan.id, (createUserSubscriptionFromPlanTx cal db u' p.plan).1 with
    | none, .ok row => if u' = u then some row.upgradeGroup else none
    | _, _ => none
  | _ => none

/-- The upgrade group of the row created last for the user in a run, `g` if
    none was. -/
def lastCreated (cal : Calendar) (u : Int) (db : Db) (g : String) : List GroupAction → String
  | [] => g
  | a :: as => lastCreated cal u (groupStep cal db a) ((created cal u db a).getD g) as

/-! ## Calls on other users' rows -/

/-- Nothing of user `u` changed. -/
structure SameFor (u : Int) (db db' : Db) : Prop where
  rows : ∀ r, r.userId = u → (r ∈ db'.rows ↔ r ∈ db.rows)
  group : db'.groups u = db.groups u

theorem SameFor.refl (u : Int) (db : Db) : SameFor u db db := ⟨fun _ _ => Iff.rfl, rfl⟩

variable {u : Int}

theorem SameFor.trans {db₁ db₂ db₃ : Db} (h₁ : SameFor u db₁ db₂)
    (h₂ : SameFor u db₂ db₃) : SameFor u db₁ db₃ where
  rows r hr := (h₂.rows r hr).trans (h₁.rows r hr)
  group := h₂.group.trans h₁.group

variable {w : Int}

theorem SameFor.setGroup (db : Db) (hw : w ≠ u) (g : String) : SameFor u db (db.setGroup w g) :=
  ⟨fun _ _ => Iff.rfl, Function.update_of_ne (Ne.symm hw) _ _⟩

variable {db : Db}

theorem SameFor.save (hids : Ids db) {s row : SubRow} (hs : s ∈ db.rows)
    (hid : s.id = row.id) (hsu : s.userId ≠ u) (hrow : row.userId = s.userId) :
    SameFor u db (db.save row) := by
  refine ⟨fun r hr => ⟨fun h => ?_, fun h => ?_⟩, rfl⟩
  · rcases mem_save_cases h with rfl | ⟨hold, -⟩
    · exact absurd (hrow ▸ hr) hsu
    · exact hold
  refine mem_save_of_ne h fun heq => hsu ?_
  rw [hids.eq hs h (hid.trans heq.symm)]
  exact hr

variable (db)

theorem SameFor.insertRow {row : SubRow} (hw : row.userId ≠ u) :
    SameFor u db (insertRow db row) := by
  have hrows : ∀ r, r.userId = u → (r ∈ db.rows ++ [row] ↔ r ∈ db.rows) := by
    intro r hr
    rw [List.mem_append, List.mem_singleton]
    refine ⟨fun h => h.resolve_right ?_, Or.inl⟩
    rintro rfl
    exact hw hr
  unfold NewApi.Subscription.insertRow
  split
  · exact ⟨hrows, (SameFor.setGroup db hw _).group⟩
  · exact ⟨hrows, rfl⟩

@[simp] theorem moveTo_rows (w : Int) (t : String) : (moveTo db w t).rows = db.rows := by
  unfold moveTo
  split <;> rfl

@[simp] theorem moveTo_now (w : Int) (t : String) : (moveTo db w t).now = db.now := by
  unfold moveTo
  split <;> rfl

@[simp] theorem moveTo_nextId (w : Int) (t : String) : (moveTo db w t).nextId = db.nextId := by
  unfold moveTo
  split <;> rfl

theorem SameFor.moveTo (hw : w ≠ u) (t : String) : SameFor u db (moveTo db w t) := by
  unfold NewApi.Subscription.moveTo
  split
  · exact SameFor.refl u db
  · exact SameFor.setGroup db hw t

theorem downgradeUserGroup_frame (sub : SubRow) :
    (downgradeUserGroup db sub).rows = db.rows ∧ (downgradeUserGroup db sub).now = db.now ∧
      (downgradeUserGroup db sub).nextId = db.nextId := by
  unfold downgradeUserGroup
  split
  · exact ⟨rfl, rfl, rfl⟩
  split
  · exact ⟨rfl, rfl, rfl⟩
  · exact ⟨moveTo_rows _ _ _, moveTo_now _ _ _, moveTo_nextId _ _ _⟩

variable {sub : SubRow}

theorem SameFor.downgradeUserGroup (hw : sub.userId ≠ u) :
    SameFor u db (downgradeUserGroup db sub) := by
  unfold NewApi.Subscription.downgradeUserGroup
  split
  · exact SameFor.refl u db
  split
  · exact SameFor.refl u db
  · exact SameFor.moveTo db hw _

def swept (userId : Int) : Db :=
  { db with rows := db.rows.map fun r =>
    if r.userId = userId ∧ r.status = .active ∧ 0 < r.endTime ∧ r.endTime ≤ db.now then
      { r with status := .expired } else r }

variable {db}

variable {r : SubRow}

theorem mem_swept (h : r ∈ (swept db w).rows) :
    (r ∈ db.rows ∧ ¬ (r.userId = w ∧ r.status = .active ∧ 0 < r.endTime ∧ r.endTime ≤ db.now)) ∨
    ∃ s ∈ db.rows, s.userId = w ∧ s.status = .active ∧ s.endTime ≤ db.now ∧
      r = { s with status := .expired } := by
  obtain ⟨s, hs, rfl⟩ := List.mem_map.1 h
  by_cases hdue : s.userId = w ∧ s.status = .active ∧ 0 < s.endTime ∧ s.endTime ≤ db.now
  · rw [if_pos hdue]
    exact .inr ⟨s, hs, hdue.1, hdue.2.1, hdue.2.2.2, rfl⟩
  · rw [if_neg hdue]
    exact .inl ⟨hs, hdue⟩

theorem mem_swept_of_not_due (h : r ∈ db.rows)
    (hdue : ¬ (r.userId = w ∧ r.status = .active ∧ 0 < r.endTime ∧ r.endTime ≤ db.now)) :
    r ∈ (swept db w).rows :=
  List.mem_map.2 ⟨r, h, if_neg hdue⟩

theorem mem_swept_of_due (h : r ∈ db.rows)
    (hdue : r.userId = w ∧ r.status = .active ∧ 0 < r.endTime ∧ r.endTime ≤ db.now) :
    { r with status := .expired } ∈ (swept db w).rows :=
  List.mem_map.2 ⟨r, h, if_pos hdue⟩

theorem Ids.swept (h : Ids db) (w : Int) : Ids (swept db w) := by
  refine h.map _ fun r => ?_
  split <;> rfl

theorem SameFor.swept (db : Db) (hw : w ≠ u) : SameFor u db (swept db w) := by
  refine ⟨fun r hr => ⟨fun h => ?_, fun h => ?_⟩, rfl⟩
  · rcases mem_swept h with ⟨hold, -⟩ | ⟨s, -, hsw, -, -, rfl⟩
    · exact hold
    · exact absurd (hsw.symm.trans hr) hw
  · exact mem_swept_of_not_due h fun hdue => hw (hdue.1.symm.trans hr)

/-- **An expiry, by outcome.**  After the sweep a live upgrading row keeps the
    group; otherwise the row that expired last decides. -/
theorem expireUser_cases (db : Db) (w : Int) : (expireUser db w = swept db w ∧
      ((∃ r ∈ (swept db w).rows, r.userId = w ∧ r.Live db.now ∧ r.upgradeGroup ≠ "") ∨
        ∀ r ∈ (swept db w).rows, r.userId = w → r.status = .expired → r.upgradeGroup = "")) ∨
    ((¬ ∃ r ∈ (swept db w).rows, r.userId = w ∧ r.Live db.now ∧ r.upgradeGroup ≠ "") ∧
      ∃ s, pick lastFirst ((swept db w).rows.filter fun r => r.userId = w ∧ r.status = .expired ∧
          (r.downgradeGroup ≠ "" ∨ r.upgradeGroup ≠ "")) = some s ∧
        (expireUser db w = moveTo (swept db w) w (fallback s (db.groups w)) ∨
          (expireUser db w = swept db w ∧ (trimSpace s.downgradeGroup = "" ∧
            (trimSpace s.upgradeGroup = "" ∨ trimSpace s.prevUserGroup = ""))))) := by
  unfold expireUser
  dsimp only
  split
  · rename_i hlive
    exact .inl ⟨rfl, .inl hlive⟩
  rename_i hlive
  split
  · rename_i hpick
    refine .inl ⟨rfl, .inr fun r hr hu hexp => ?_⟩
    by_contra hup
    have hnot := List.filter_eq_nil_iff.1 (pick_eq_none hpick) r hr
    exact hnot (decide_eq_true ⟨hu, hexp, .inr hup⟩)
  rename_i s hpick
  refine .inr ⟨hlive, s, hpick, ?_⟩
  split
  · rename_i hskip
    exact .inr ⟨rfl, hskip⟩
  · exact .inl rfl

theorem SameFor.expireUser (db : Db) (hw : w ≠ u) : SameFor u db (expireUser db w) := by
  have hswept := SameFor.swept db hw
  rcases expireUser_cases db w with ⟨heq, -⟩ | ⟨-, s, -, heq | ⟨heq, -⟩⟩
  · rw [heq]
    exact hswept
  · rw [heq]
    exact hswept.trans (SameFor.moveTo _ hw _)
  · rw [heq]
    exact hswept

theorem expireUser_frame (db : Db) (w : Int) :
    (expireUser db w).rows = (swept db w).rows ∧ (expireUser db w).now = db.now ∧
      (expireUser db w).nextId = db.nextId := by
  rcases expireUser_cases db w with ⟨heq, -⟩ | ⟨-, s, -, heq | ⟨heq, -⟩⟩
  · rw [heq]
    exact ⟨rfl, rfl, rfl⟩
  · rw [heq]
    exact ⟨moveTo_rows _ _ _, moveTo_now _ _ _, moveTo_nextId _ _ _⟩
  · rw [heq]
    exact ⟨rfl, rfl, rfl⟩

theorem Ids.expireUser (h : Ids db) (w : Int) : Ids (expireUser db w) :=
  (h.swept w).congr (expireUser_frame db w).1 (expireUser_frame db w).2.2

/-! ## The group while a row is live -/

def LiveUpgrade (u : Int) (db : Db) : Prop :=
  ∃ r ∈ db.rows, r.userId = u ∧ r.Live db.now ∧ r.upgradeGroup ≠ ""

def Keeps (u : Int) (db db' : Db) : Prop :=
  LiveUpgrade u db' → LiveUpgrade u db ∧ db'.groups u = db.groups u

variable {db' : Db}

theorem SameFor.keeps (h : SameFor u db db') (hnow : db.now ≤ db'.now) : Keeps u db db' := by
  rintro ⟨r, hr, hu, hlive, hup⟩
  exact ⟨⟨r, (h.rows r hu).1 hr, hu, ⟨hlive.1, by have := hlive.2; omega⟩, hup⟩, h.group⟩

theorem Keeps.trans {db₁ db₂ db₃ : Db} (h₁ : Keeps u db₁ db₂) (h₂ : Keeps u db₂ db₃) :
    Keeps u db₁ db₃ := by
  intro hlive
  obtain ⟨hlive₂, hg₂⟩ := h₂ hlive
  obtain ⟨hlive₁, hg₁⟩ := h₁ hlive₂
  exact ⟨hlive₁, hg₂.trans hg₁⟩

theorem downgradeUserGroup_of_live (hr : r ∈ db.rows)
    (hu : r.userId = sub.userId) (hlive : r.Live db.now) (hid : r.id ≠ sub.id)
    (hup : r.upgradeGroup ≠ "") : downgradeUserGroup db sub = db := by
  unfold downgradeUserGroup
  split
  · rfl
  · rw [if_pos ⟨r, hr, hu, hlive, hid, hup⟩]

/-- **A cancellation, by outcome.** -/
theorem adminInvalidateUserSubscription_cases (db : Db) (id : Int) :
    adminInvalidateUserSubscription db id = db ∨
    ∃ sub ∈ db.rows, sub.id = id ∧ adminInvalidateUserSubscription db id =
      downgradeUserGroup (db.save (sub.cancelledAt db.now)) sub := by
  by_cases hid : id ≤ 0
  · exact .inl (if_pos hid)
  unfold adminInvalidateUserSubscription
  rw [if_neg hid]
  cases hfind : db.find id with
  | none => exact .inl rfl
  | some sub => exact .inr ⟨sub, (find_some hfind).1, (find_some hfind).2, rfl⟩

def removed (db : Db) (sub : SubRow) : Db :=
  { downgradeUserGroup db sub with rows := db.rows.filter fun r => r.id ≠ sub.id }

theorem mem_removed : r ∈ (removed db sub).rows ↔ r ∈ db.rows ∧ r.id ≠ sub.id := by
  simp [removed]

theorem removed_groups (db : Db) (sub : SubRow) :
    (removed db sub).groups = (downgradeUserGroup db sub).groups := by
  simp only [removed]

theorem removed_now (db : Db) (sub : SubRow) : (removed db sub).now = db.now := by
  exact (downgradeUserGroup_frame db sub).2.1

theorem Ids.removed (h : Ids db) (sub : SubRow) : Ids (NewApi.Subscription.removed db sub) := by
  refine (h.filter fun r => r.id ≠ sub.id).congr ?_ ?_
  · simp only [NewApi.Subscription.removed]
  · simp only [NewApi.Subscription.removed]
    exact (downgradeUserGroup_frame db sub).2.2

/-- **A deletion, by outcome.** -/
theorem adminDeleteUserSubscription_cases (db : Db) (id : Int) :
    adminDeleteUserSubscription db id = db ∨
    ∃ sub ∈ db.rows, sub.id = id ∧ adminDeleteUserSubscription db id = removed db sub := by
  by_cases hid : id ≤ 0
  · exact .inl (if_pos hid)
  unfold adminDeleteUserSubscription
  rw [if_neg hid]
  cases hfind : db.find id with
  | none => exact .inl rfl
  | some sub =>
    obtain ⟨hsub, rfl⟩ := find_some hfind
    refine .inr ⟨sub, hsub, rfl, ?_⟩
    simp only [removed, (downgradeUserGroup_frame db sub).1]

theorem SameFor.cancel (hids : Ids db) (hsub : sub ∈ db.rows) (hw : sub.userId ≠ u) :
    SameFor u db (NewApi.Subscription.downgradeUserGroup
      (db.save (sub.cancelledAt db.now)) sub) := by
  have hsave : SameFor u db (db.save (sub.cancelledAt db.now)) :=
    SameFor.save hids hsub rfl hw rfl
  exact hsave.trans (SameFor.downgradeUserGroup _ hw)

theorem adminInvalidate_keeps (hids : Ids db) (id u : Int) :
    Keeps u db (adminInvalidateUserSubscription db id) := by
  rcases adminInvalidateUserSubscription_cases db id with heq | ⟨sub, hsub, -, heq⟩
  · rw [heq]
    exact (SameFor.refl u db).keeps le_rfl
  rw [heq]
  have hframe := downgradeUserGroup_frame (db.save (sub.cancelledAt db.now)) sub
  by_cases hw : sub.userId = u
  · rintro ⟨r, hr, hu, hlive, hup⟩
    rw [hframe.1] at hr
    rw [hframe.2.1] at hlive
    rcases mem_save_cases hr with rfl | ⟨hold, hne⟩
    · cases hlive.1
    · rw [downgradeUserGroup_of_live hr (hu.trans hw.symm) hlive hne hup]
      exact ⟨⟨r, hold, hu, hlive, hup⟩, rfl⟩
  · exact (SameFor.cancel hids hsub hw).keeps hframe.2.1.ge

theorem SameFor.delete (hids : Ids db) (hsub : sub ∈ db.rows)
    (hw : sub.userId ≠ u) : SameFor u db (removed db sub) := by
  refine ⟨fun r hr => ⟨fun h => (mem_removed.1 h).1, fun h => ?_⟩, ?_⟩
  · refine mem_removed.2 ⟨h, fun heq => hw ?_⟩
    rw [← hids.eq h hsub heq]
    exact hr
  · rw [removed_groups]
    exact (SameFor.downgradeUserGroup db hw).group

theorem adminDelete_keeps (hids : Ids db) (id u : Int) :
    Keeps u db (adminDeleteUserSubscription db id) := by
  rcases adminDeleteUserSubscription_cases db id with heq | ⟨sub, hsub, -, heq⟩
  · rw [heq]
    exact (SameFor.refl u db).keeps le_rfl
  rw [heq]
  by_cases hw : sub.userId = u
  · rintro ⟨r, hr, hu, hlive, hup⟩
    obtain ⟨hold, hne⟩ := mem_removed.1 hr
    rw [removed_now] at hlive
    rw [removed_groups, downgradeUserGroup_of_live hold (hu.trans hw.symm) hlive hne hup]
    exact ⟨⟨r, hold, hu, hlive, hup⟩, rfl⟩
  · exact (SameFor.delete hids hsub hw).keeps (removed_now db sub).ge

theorem expireUser_keeps (db : Db) (w u : Int) : Keeps u db (expireUser db w) := by
  by_cases hw : w = u
  · subst hw
    rintro ⟨r, hr, hu, hlive, hup⟩
    rw [(expireUser_frame db w).1] at hr
    rw [(expireUser_frame db w).2.1] at hlive
    rcases expireUser_cases db w with ⟨heq, -⟩ | ⟨hno, -⟩
    · rw [heq]
      rcases mem_swept hr with ⟨hold, -⟩ | ⟨s, -, -, -, -, rfl⟩
      · exact ⟨⟨r, hold, hu, hlive, hup⟩, rfl⟩
      · cases hlive.1
    · exact absurd ⟨r, hr, hu, hlive, hup⟩ hno
  · exact (SameFor.expireUser db hw).keeps (expireUser_frame db w).2.1.ge

theorem expireUsers_keeps (ws : List Int) (u : Int) (db : Db) :
    Keeps u db (ws.foldl expireUser db) := by
  induction ws generalizing db with
  | nil => exact (SameFor.refl u db).keeps le_rfl
  | cons w ws ih => exact (expireUser_keeps db w u).trans (ih (expireUser db w))

theorem insertRow_group (db : Db) {row : SubRow} (hup : row.upgradeGroup ≠ "") :
    (insertRow db row).groups row.userId = row.upgradeGroup := by
  unfold insertRow
  rw [if_pos hup]
  exact db.setGroup_groups_self _ _

theorem insertRow_freshRow_group (cal : Calendar) (db : Db) (w : Int) (p : UpgradingPlan)
    (endTime : Int) :
    (insertRow db (freshRow cal db w p.plan endTime)).groups w = trimSpace p.plan.upgradeGroup := by
  have hup : (freshRow cal db w p.plan endTime).upgradeGroup = trimSpace p.plan.upgradeGroup := rfl
  have hw : (freshRow cal db w p.plan endTime).userId = w := rfl
  have hne : (freshRow cal db w p.plan endTime).upgradeGroup ≠ "" := hup ▸ p.upgrades
  have hgroup := insertRow_group db hne
  rwa [hup, hw] at hgroup

/-- **A purchase of an upgrading plan, by outcome.** -/
theorem purchaseUpgrade_cases (cal : Calendar) (db : Db) (w : Int) (p : UpgradingPlan) :
    (groupStep cal db (.purchase w p) = db ∧ ∀ u, created cal u db (.purchase w p) = none) ∨
    (∃ row endTime, row ∈ db.rows ∧ row.userId = w ∧ row.Live db.now ∧ row.endTime < endTime ∧
      groupStep cal db (.purchase w p) = db.save (renewed row p.plan endTime) ∧
      ∀ u, created cal u db (.purchase w p) = none) ∨
    (∃ endTime, activeRow db w p.plan.id = none ∧ db.now < endTime ∧
      groupStep cal db (.purchase w p) = insertRow db (freshRow cal db w p.plan endTime) ∧
      ∀ u, created cal u db (.purchase w p) =
        if w = u then some (trimSpace p.plan.upgradeGroup) else none) := by
  obtain ⟨e, heq⟩ | ⟨row, endTime, hact, hmem, -, -, hrow, hend, heq⟩ |
      ⟨endTime, hact, -, hlt, -, heq⟩ := createUserSubscriptionFromPlanTx_cases cal db w p.plan
  · refine .inl ⟨congrArg Prod.snd heq, fun u => ?_⟩
    simp only [created, heq]
    split
    · rename_i hcontra
      cases hcontra
    · rfl
  · refine .inr (.inl ⟨row, endTime, hmem, hrow.1, hrow.2.2, lt_calcPlanEndTime hend,
      congrArg Prod.snd heq, fun u => ?_⟩)
    simp only [created, hact]
  refine .inr (.inr ⟨endTime, hact, hlt, congrArg Prod.snd heq, fun u => ?_⟩)
  simp only [created, hact, heq]
  rfl

variable {cal : Calendar}

theorem Ids.groupStep (h : Ids db) (a : GroupAction) : Ids (groupStep cal db a) := by
  cases a with
  | tick d => exact ⟨h.lt, h.nodup⟩
  | purchase w p =>
    obtain ⟨heq, -⟩ | ⟨row, endTime, -, -, -, -, heq, -⟩ | ⟨endTime, -, -, heq, -⟩ :=
      purchaseUpgrade_cases cal db w p
    · rw [heq]
      exact h
    · rw [heq]
      exact h.save _
    · rw [heq]
      exact h.insertRow rfl
  | expireDue limit =>
    show Ids ((expiringUsers db limit).foldl NewApi.Subscription.expireUser db)
    generalize expiringUsers db limit = ws
    induction ws generalizing db with
    | nil => exact h
    | cons w ws ih => exact ih (h.expireUser w)
  | cancel id =>
    rcases adminInvalidateUserSubscription_cases db id with heq | ⟨sub, hsub, -, heq⟩
    · show Ids (adminInvalidateUserSubscription db id)
      rw [heq]
      exact h
    have hframe := downgradeUserGroup_frame (db.save (sub.cancelledAt db.now)) sub
    show Ids (adminInvalidateUserSubscription db id)
    rw [heq]
    exact (h.save _).congr hframe.1 hframe.2.2
  | delete id =>
    rcases adminDeleteUserSubscription_cases db id with heq | ⟨sub, hsub, -, heq⟩
    · show Ids (adminDeleteUserSubscription db id)
      rw [heq]
      exact h
    show Ids (adminDeleteUserSubscription db id)
    rw [heq]
    exact h.removed sub

theorem groupStep_live {g : String} (hids : Ids db)
    (h : LiveUpgrade u db → db.groups u = g) (a : GroupAction) :
    LiveUpgrade u (groupStep cal db a) →
      (groupStep cal db a).groups u = (created cal u db a).getD g := by
  -- everything but an insert for `u` only keeps the group
  have hkeep : Keeps u db (groupStep cal db a) → created cal u db a = none →
      LiveUpgrade u (groupStep cal db a) →
      (groupStep cal db a).groups u = (created cal u db a).getD g := by
    intro hk hnone hlive
    obtain ⟨hold, hsame⟩ := hk hlive
    rw [hnone, hsame, h hold]
    rfl
  cases a with
  | tick d =>
    have hsame : SameFor u db { db with now := db.now + d } := ⟨fun _ _ => Iff.rfl, rfl⟩
    exact hkeep (hsame.keeps (by show db.now ≤ db.now + d; omega)) rfl
  | purchase w p =>
    obtain ⟨heq, hnone⟩ | ⟨row, endTime, hrow, hw, hlive, -, heq, hnone⟩ |
        ⟨endTime, -, -, heq, hcreated⟩ := purchaseUpgrade_cases cal db w p
    · refine hkeep ?_ (hnone u)
      rw [heq]
      exact (SameFor.refl u db).keeps le_rfl
    · refine hkeep ?_ (hnone u)
      rw [heq]
      rintro ⟨r, hr, hu, hlive', hup⟩
      rcases mem_save_cases hr with rfl | ⟨hold, -⟩
      · exact ⟨⟨row, hrow, hu, hlive, hup⟩, rfl⟩
      · exact ⟨⟨r, hold, hu, hlive', hup⟩, rfl⟩
    by_cases hw : w = u
    · intro _
      rw [heq, hcreated u, if_pos hw, ← hw, insertRow_freshRow_group]
      rfl
    have hrow : (freshRow cal db w p.plan endTime).userId ≠ u := hw
    refine hkeep ?_ (by rw [hcreated u, if_neg hw])
    rw [heq]
    exact (SameFor.insertRow db hrow).keeps (insertRow_now db _).ge
  | expireDue limit => exact hkeep (expireUsers_keeps _ u db) rfl
  | cancel id => exact hkeep (adminInvalidate_keeps hids id u) rfl
  | delete id => exact hkeep (adminDelete_keeps hids id u) rfl

theorem run_live {g : String} (hids : Ids db)
    (h : LiveUpgrade u db → db.groups u = g) (as : List GroupAction) :
    LiveUpgrade u (run (groupStep cal) db as) →
      (run (groupStep cal) db as).groups u = lastCreated cal u db g as := by
  induction as generalizing db g with
  | nil => exact h
  | cons a as ih => exact ih (hids.groupStep a) (groupStep_live hids h a)

/-! ## Restoring the original group -/

/-- A row bought from an upgrading plan when the user's group was `g0`. -/
structure BoughtIn (g0 : String) (r : SubRow) : Prop where
  noDowngrade : trimSpace r.downgradeGroup = ""
  trimmed : trimSpace r.upgradeGroup = r.upgradeGroup
  upgrades : r.upgradeGroup ≠ ""
  prev : r.prevUserGroup = if r.upgradeGroup = g0 then "" else g0

/-- The group after a row that gave `up` ends and nothing else is live. -/
def settled (g0 up current : String) : String := if current = up then g0 else current

variable {g0 : String}

theorem settled_of_held {up current : String} (h : current = up ∨ current = g0) :
    settled g0 up current = g0 := by
  unfold settled
  split
  · rfl
  · exact h.resolve_left ‹_›

theorem settled_cases (g0 up current : String) :
    settled g0 up current = current ∨ settled g0 up current = g0 := by
  unfold settled
  split
  · exact .inr rfl
  · exact .inl rfl

section Restore

variable {g0 : String} (hg0 : trimSpace g0 = g0) (hne : g0 ≠ "")
include hg0 hne

theorem moveTo_fallback {s : SubRow} (hs : BoughtIn g0 s) (db : Db) (u : Int) :
    (moveTo db u (fallback s (db.groups u))).groups u =
      settled g0 s.upgradeGroup (db.groups u) := by
  have hcode : fallback s (db.groups u) =
      if db.groups u ≠ s.upgradeGroup then "" else trimSpace s.prevUserGroup := by
    unfold fallback
    rw [if_neg (not_not_intro hs.noDowngrade), hs.trimmed]
  rw [hcode, settled]
  by_cases hcur : db.groups u = s.upgradeGroup
  · rw [if_neg (not_not_intro hcur), if_pos hcur, hs.prev]
    by_cases hup : s.upgradeGroup = g0
    · rw [if_pos hup]
      rw [moveTo, if_pos (.inl rfl), hcur, hup]
    rw [if_neg hup, hg0, moveTo, if_neg ?_, db.setGroup_groups_self]
    rintro (h | h)
    · exact hne h
    · exact hup (hcur.symm.trans h.symm)
  · rw [if_pos hcur, if_neg hcur, moveTo, if_pos (.inl rfl)]

theorem settled_of_skip {s : SubRow} (hs : BoughtIn g0 s)
    (hskip : trimSpace s.upgradeGroup = "" ∨ trimSpace s.prevUserGroup = "") (current : String) :
    settled g0 s.upgradeGroup current = current := by
  have hup : s.upgradeGroup = g0 := by
    by_contra hup
    rcases hskip with h | h
    · exact hs.upgrades (hs.trimmed.symm.trans h)
    · rw [hs.prev, if_neg hup, hg0] at h
      exact hne h
  rw [settled, hup]
  split
  · exact Eq.symm ‹_›
  · rfl

end Restore

/-- The rows and the group of a user whose subscriptions did not overlap. -/
structure Restorable (g0 : String) (u : Int) (db : Db) : Prop where
  ids : Ids db
  bought : ∀ r ∈ db.rows, r.userId = u → BoughtIn g0 r
  single : ∀ r ∈ db.rows, ∀ s ∈ db.rows, r.userId = u → s.userId = u →
    r.status = .active → s.status = .active → r = s
  past : ∀ s ∈ db.rows, s.userId = u → s.status = .expired → s.endTime ≤ db.now
  newest : ∀ s ∈ db.rows, ∀ r ∈ db.rows, s.userId = u → r.userId = u →
    s.status = .expired → r.status = .active → s.endTime < r.endTime
  idle : (∃ r ∈ db.rows, r.userId = u ∧ r.status = .active) ∨ db.groups u = g0
  held : ∀ r ∈ db.rows, r.userId = u → r.status = .active →
    db.groups u = r.upgradeGroup ∨ (r.endTime ≤ db.now ∧ db.groups u = g0)

theorem Restorable.frame (h : Restorable g0 u db)
    (hsame : SameFor u db db') (hids : Ids db') (hnow : db.now ≤ db'.now) :
    Restorable g0 u db' where
  ids := hids
  bought r hr hu := h.bought r ((hsame.rows r hu).1 hr) hu
  single r hr s hs hru hsu :=
    h.single r ((hsame.rows r hru).1 hr) s ((hsame.rows s hsu).1 hs) hru hsu
  past s hs hu hexp := (h.past s ((hsame.rows s hu).1 hs) hu hexp).trans hnow
  newest s hs r hr hsu hru :=
    h.newest s ((hsame.rows s hsu).1 hs) r ((hsame.rows r hru).1 hr) hsu hru
  idle := by
    rw [hsame.group]
    refine h.idle.imp_left ?_
    rintro ⟨r, hr, hu, hact⟩
    exact ⟨r, (hsame.rows r hu).2 hr, hu, hact⟩
  held r hr hu hact := by
    rw [hsame.group]
    exact (h.held r ((hsame.rows r hu).1 hr) hu hact).imp_right fun ⟨hend, hg⟩ =>
      ⟨hend.trans hnow, hg⟩

/-- What a call that ends rows of the user does: the open rows left were open
    before, and the group is kept for a live row or settled for the row that
    ended. -/
structure Ended (g0 : String) (u : Int) (db db' : Db) : Prop where
  ids : Ids db'
  now : db'.now = db.now
  rows : ∀ r ∈ db'.rows, r.userId = u → r ∈ db.rows ∨ ∃ s ∈ db.rows, s.userId = u ∧
    (r = s.cancelledAt db.now ∨
      (s.status = .active ∧ s.endTime ≤ db.now ∧ r = { s with status := .expired }))
  group :
    (db'.groups u = db.groups u ∧ ∃ r ∈ db'.rows, r.userId = u ∧ r.Live db.now) ∨
    ((∀ r ∈ db'.rows, r.userId = u → ¬ r.Live db.now) ∧
      ∃ up, db'.groups u = settled g0 up (db.groups u) ∧
        ∀ r ∈ db.rows, r.userId = u → r.status = .active → r ∈ db'.rows ∨ r.upgradeGroup = up)

theorem Ended.open_old (h : Ended g0 u db db')
    (hr : r ∈ db'.rows) (hu : r.userId = u) (hact : r.status = .active) : r ∈ db.rows := by
  rcases h.rows r hr hu with hold | ⟨s, -, -, rfl | ⟨-, -, rfl⟩⟩
  · exact hold
  · cases hact
  · cases hact

theorem Restorable.ended (h : Restorable g0 u db)
    (he : Ended g0 u db db') : Restorable g0 u db' where
  ids := he.ids
  bought r hr hu := by
    rcases he.rows r hr hu with hold | ⟨s, hs, hsu, rfl | ⟨-, -, rfl⟩⟩
    · exact h.bought r hold hu
    · exact ⟨(h.bought s hs hsu).1, (h.bought s hs hsu).2, (h.bought s hs hsu).3,
        (h.bought s hs hsu).4⟩
    · exact ⟨(h.bought s hs hsu).1, (h.bought s hs hsu).2, (h.bought s hs hsu).3,
        (h.bought s hs hsu).4⟩
  single r hr s hs hru hsu hract hsact :=
    h.single r (he.open_old hr hru hract) s (he.open_old hs hsu hsact) hru hsu hract hsact
  past s hs hu hexp := by
    rw [he.now]
    rcases he.rows s hs hu with hold | ⟨s₀, hs₀, hsu, rfl | ⟨-, hend, rfl⟩⟩
    · exact h.past s hold hu hexp
    · cases hexp
    · exact hend
  newest s hs r hr hsu hru hexp hact := by
    have hrold := he.open_old hr hru hact
    rcases he.rows s hs hsu with hold | ⟨s₀, hs₀, hs₀u, rfl | ⟨hs₀act, -, rfl⟩⟩
    · exact h.newest s hold r hrold hsu hru hexp hact
    · cases hexp
    -- the open row that just expired would be the one still open
    obtain rfl := h.single s₀ hs₀ r hrold hs₀u hru hs₀act hact
    have hsame := he.ids.eq hs hr rfl
    rw [← hsame] at hact
    cases hact
  idle := by
    rcases he.group with ⟨-, r, hr, hu, hlive⟩ | ⟨-, up, hg, hrows⟩
    · exact .inl ⟨r, hr, hu, hlive.1⟩
    rw [hg]
    rcases h.idle with ⟨r, hr, hu, hact⟩ | hidle
    · rcases hrows r hr hu hact with hstay | hup
      · exact .inl ⟨r, hstay, hu, hact⟩
      · exact .inr (settled_of_held (hup ▸ (h.held r hr hu hact).imp_right And.right))
    · exact .inr (settled_of_held (.inr hidle))
  held r hr hu hact := by
    rw [he.now]
    have hold := h.held r (he.open_old hr hu hact) hu hact
    rcases he.group with ⟨hg, -⟩ | ⟨hno, up, hg, -⟩
    · rw [hg]
      exact hold
    have hend : r.endTime ≤ db.now := by
      by_contra hlt
      exact hno r hr hu ⟨hact, by omega⟩
    rw [hg]
    rcases settled_cases g0 up (db.groups u) with hs | hs
    · rw [hs]
      exact hold
    · exact .inr ⟨hend, hs⟩

theorem endTime_le_of_pick {rs : List SubRow} {s : SubRow} (h : pick lastFirst rs = some s)
    (hr : r ∈ rs) : r.endTime ≤ s.endTime := by
  induction rs generalizing s r with
  | nil => cases hr
  | cons t rs ih =>
    rw [pick] at h
    cases hp : pick lastFirst rs with
    | none =>
      rw [hp] at h
      obtain rfl := Option.some.inj h
      rw [pick_eq_none hp, List.mem_singleton] at hr
      exact hr ▸ le_rfl
    | some m =>
      rw [hp] at h
      simp only at h
      have hrest : ∀ x ∈ rs, x.endTime ≤ m.endTime := fun x hx => ih hp hx
      split at h
      · rename_i hbefore
        obtain rfl := Option.some.inj h
        rcases List.mem_cons.1 hr with rfl | hr
        · simp only [lastFirst, Bool.or_eq_true, decide_eq_true_eq, Bool.and_eq_true] at hbefore
          omega
        · exact hrest r hr
      rename_i hbefore
      obtain rfl := Option.some.inj h
      rcases List.mem_cons.1 hr with rfl | hr
      · exact le_rfl
      have := hrest r hr
      simp only [lastFirst, Bool.or_eq_true, decide_eq_true_eq, Bool.and_eq_true] at hbefore
      omega

section Restore

variable {g0 : String} (hg0 : trimSpace g0 = g0) (hne : g0 ≠ "")
include hg0 hne

variable {db : Db}

theorem downgradeUserGroup_group {sub : SubRow} (hsub : BoughtIn g0 sub)
    (hup : ∀ r ∈ db.rows, r.userId = sub.userId → r.upgradeGroup ≠ "") :
    ((downgradeUserGroup db sub).groups sub.userId = db.groups sub.userId ∧
      ∃ r ∈ db.rows, r.userId = sub.userId ∧ r.Live db.now ∧ r.id ≠ sub.id) ∨
    ((downgradeUserGroup db sub).groups sub.userId =
        settled g0 sub.upgradeGroup (db.groups sub.userId) ∧
      ∀ r ∈ db.rows, r.userId = sub.userId → r.Live db.now → r.id = sub.id) := by
  have hskip : ¬ (trimSpace sub.downgradeGroup = "" ∧ trimSpace sub.upgradeGroup = "") := by
    rintro ⟨-, h⟩
    exact hsub.upgrades (hsub.trimmed.symm.trans h)
  unfold downgradeUserGroup
  rw [if_neg hskip]
  by_cases hother : ∃ r ∈ db.rows, r.userId = sub.userId ∧ r.Live db.now ∧ r.id ≠ sub.id ∧
      r.upgradeGroup ≠ ""
  · rw [if_pos hother]
    obtain ⟨r, hr, hu, hlive, hid, -⟩ := hother
    exact .inl ⟨rfl, r, hr, hu, hlive, hid⟩
  rw [if_neg hother]
  refine .inr ⟨moveTo_fallback hg0 hne hsub db sub.userId, fun r hr hu hlive => ?_⟩
  by_contra hid
  exact hother ⟨r, hr, hu, hlive, hid, hup r hr hu⟩

variable {u : Int}

section
variable (h : Restorable g0 u db)
include h

theorem Restorable.cancel (id : Int) : Restorable g0 u (adminInvalidateUserSubscription db id) := by
  rcases adminInvalidateUserSubscription_cases db id with heq | ⟨sub, hsub, -, heq⟩
  · rw [heq]
    exact h
  rw [heq]
  have hframe := downgradeUserGroup_frame (db.save (sub.cancelledAt db.now)) sub
  have hids := (h.ids.save (sub.cancelledAt db.now)).congr hframe.1 hframe.2.2
  by_cases hw : sub.userId = u
  · subst hw
    have hbought := h.bought sub hsub rfl
    have hup : ∀ r ∈ (db.save (sub.cancelledAt db.now)).rows, r.userId = sub.userId →
        r.upgradeGroup ≠ "" := by
      intro r hr hu
      rcases mem_save hr with rfl | hold
      · exact hbought.upgrades
      · exact (h.bought r hold hu).upgrades
    refine h.ended ⟨hids, hframe.2.1, fun r hr hu => ?_, ?_⟩
    · rw [hframe.1] at hr
      rcases mem_save hr with rfl | hold
      · exact .inr ⟨sub, hsub, rfl, .inl rfl⟩
      · exact .inl hold
    rw [hframe.1]
    rcases downgradeUserGroup_group hg0 hne hbought hup with ⟨hg, r, hr, hu, hlive, -⟩ | ⟨hg, hno⟩
    · exact .inl ⟨hg, r, hr, hu, hlive⟩
    refine .inr ⟨fun r hr hu hlive => ?_, sub.upgradeGroup, hg, fun r hr hu hact => ?_⟩
    · rcases mem_save_cases hr with rfl | ⟨-, hid⟩
      · cases hlive.1
      · exact hid (hno r hr hu hlive)
    by_cases hid : r.id = sub.id
    · exact .inr (by rw [h.ids.eq hr hsub hid])
    · exact .inl (mem_save_of_ne hr hid)
  · exact h.frame (SameFor.cancel h.ids hsub hw) hids hframe.2.1.ge

theorem Restorable.delete (id : Int) : Restorable g0 u (adminDeleteUserSubscription db id) := by
  rcases adminDeleteUserSubscription_cases db id with heq | ⟨sub, hsub, -, heq⟩
  · rw [heq]
    exact h
  rw [heq]
  have hids := h.ids.removed sub
  by_cases hw : sub.userId = u
  · subst hw
    refine h.ended ⟨hids, removed_now db sub, fun r hr _ => .inl (mem_removed.1 hr).1, ?_⟩
    rw [removed_groups]
    rcases downgradeUserGroup_group hg0 hne (h.bought sub hsub rfl)
        (fun r hr hu => (h.bought r hr hu).upgrades) with ⟨hg, r, hr, hu, hlive, hid⟩ | ⟨hg, hno⟩
    · exact .inl ⟨hg, r, mem_removed.2 ⟨hr, hid⟩, hu, hlive⟩
    refine .inr ⟨fun r hr hu hlive => ?_, sub.upgradeGroup, hg, fun r hr hu hact => ?_⟩
    · obtain ⟨hold, hid⟩ := mem_removed.1 hr
      exact hid (hno r hold hu hlive)
    by_cases hid : r.id = sub.id
    · exact .inr (by rw [h.ids.eq hr hsub hid])
    · exact .inl (mem_removed.2 ⟨hr, hid⟩)
  · exact h.frame (SameFor.delete h.ids hsub hw) hids (removed_now db sub).ge

omit h in
theorem expireUser_group {s : SubRow} (hs : BoughtIn g0 s)
    (h : expireUser db u = moveTo (swept db u) u (fallback s (db.groups u)) ∨
      (expireUser db u = swept db u ∧ (trimSpace s.downgradeGroup = "" ∧
        (trimSpace s.upgradeGroup = "" ∨ trimSpace s.prevUserGroup = "")))) :
    (expireUser db u).groups u = settled g0 s.upgradeGroup (db.groups u) := by
  have hswept : (swept db u).groups = db.groups := rfl
  rcases h with heq | ⟨heq, -, hskip⟩
  · rw [heq, ← hswept]
    exact moveTo_fallback hg0 hne hs (swept db u) u
  · rw [heq, settled_of_skip hg0 hne hs hskip]
    rfl

theorem Restorable.expireUser (w : Int) : Restorable g0 u (expireUser db w) := by
  have hframe := expireUser_frame db w
  have hids := h.ids.expireUser w
  by_cases hw : w = u
  · subst hw
    have hold : ∀ r ∈ (swept db w).rows, r.userId = w → r ∈ db.rows ∨ ∃ s ∈ db.rows,
        s.userId = w ∧ (r = s.cancelledAt db.now ∨
          (s.status = .active ∧ s.endTime ≤ db.now ∧ r = { s with status := .expired })) := by
      intro r hr _
      rcases mem_swept hr with ⟨hold, -⟩ | ⟨s, hs, hsw, hact, hend, heq⟩
      · exact .inl hold
      · exact .inr ⟨s, hs, hsw, .inr ⟨hact, hend, heq⟩⟩
    have hbought : ∀ r ∈ (swept db w).rows, r.userId = w → BoughtIn g0 r := by
      intro r hr hu
      rcases mem_swept hr with ⟨hold, -⟩ | ⟨s, hs, hsw, -, -, rfl⟩
      · exact h.bought r hold hu
      · exact ⟨(h.bought s hs hsw).1, (h.bought s hs hsw).2, (h.bought s hs hsw).3,
          (h.bought s hs hsw).4⟩
    rcases expireUser_cases db w with ⟨heq, ⟨r, hr, hu, hlive, -⟩ | hnone⟩ | ⟨hno, s, hpick, hend⟩
    · rw [heq] at hids ⊢
      exact h.ended ⟨hids, rfl, hold, .inl ⟨rfl, r, hr, hu, hlive⟩⟩
    · -- no row of the user has expired, so none was due
      rw [heq] at hids ⊢
      have hdue : ∀ r ∈ db.rows, ¬ (r.userId = w ∧ r.status = .active ∧ 0 < r.endTime ∧
          r.endTime ≤ db.now) := by
        intro r hr hdue
        have hblank := hnone _ (mem_swept_of_due hr hdue) hdue.1 rfl
        exact (h.bought r hr hdue.1).upgrades hblank
      refine h.frame ⟨fun r _ => ⟨fun hr => ?_, fun hr => ?_⟩, rfl⟩ hids le_rfl
      · rcases mem_swept hr with ⟨hr, -⟩ | ⟨s, hs, hsw, hact, hend, rfl⟩
        · exact hr
        · exact absurd (hnone _ hr hsw rfl) (h.bought s hs hsw).upgrades
      · exact mem_swept_of_not_due hr (hdue r hr)
    obtain ⟨hsrows, hsexp⟩ := List.mem_filter.1 (pick_mem hpick)
    have hs : s.userId = w ∧ s.status = .expired := by
      have := of_decide_eq_true hsexp
      exact ⟨this.1, this.2.1⟩
    have hg := expireUser_group hg0 hne (hbought s hsrows hs.1) hend
    refine h.ended ⟨hids, hframe.2.1, hframe.1 ▸ hold, .inr ?_⟩
    rw [hframe.1]
    refine ⟨fun r hr hu hlive => hno ⟨r, hr, hu, hlive, (hbought r hr hu).upgrades⟩,
      s.upgradeGroup, hg, fun r hr hu hact => ?_⟩
    by_cases hdue : r.userId = w ∧ r.status = .active ∧ 0 < r.endTime ∧ r.endTime ≤ db.now
    · -- the row that just expired is the newest expired one
      right
      have hrmem := mem_swept_of_due hr hdue
      have hle := endTime_le_of_pick hpick (List.mem_filter.2 ⟨hrmem,
        decide_eq_true ⟨hu, rfl, .inr (hbought _ hrmem hu).upgrades⟩⟩)
      rcases mem_swept hsrows with ⟨hsold, -⟩ | ⟨s₀, hs₀, hs₀w, hs₀act, -, rfl⟩
      · have hlt := h.newest s hsold r hr hs.1 hu hs.2 hact
        exact absurd hle (by simpa using hlt)
      · rw [h.single r hr s₀ hs₀ hu hs₀w hact hs₀act]
    · exact .inl (mem_swept_of_not_due hr hdue)
  · exact h.frame (SameFor.expireUser db hw) hids hframe.2.1.ge

theorem Restorable.expireUsers (ws : List Int) :
    Restorable g0 u (ws.foldl NewApi.Subscription.expireUser db) := by
  induction ws generalizing db with
  | nil => exact h
  | cons w ws ih => exact ih (h.expireUser hg0 hne w)

omit hg0 hne in
theorem Restorable.renew {row : SubRow} (hrow : row ∈ db.rows) (hu : row.userId = u)
    (hlive : row.Live db.now) (plan : SubscriptionPlan) {endTime : Int}
    (hend : row.endTime < endTime) : Restorable g0 u (db.save (renewed row plan endTime)) := by
  have hopen : ∀ r ∈ (db.save (renewed row plan endTime)).rows, r.userId = u →
      r.status = .active → r = renewed row plan endTime := by
    intro r hr hru hact
    rcases mem_save_cases hr with rfl | ⟨hold, hid⟩
    · rfl
    · exact absurd (congrArg SubRow.id (h.single r hold row hrow hru hu hact hlive.1)) hid
  have hgroup : db.groups u = row.upgradeGroup := by
    rcases h.held row hrow hu hlive.1 with hg | ⟨hpast, -⟩
    · exact hg
    · have := hlive.2
      omega
  refine ⟨h.ids.save _, fun r hr hru => ?_, fun r hr s hs hru hsu hract hsact => ?_,
    fun s hs hsu hexp => ?_, fun s hs r hr hsu hru hexp hact => ?_, .inl ?_,
    fun r hr hru hact => .inl ?_⟩
  · rcases mem_save hr with rfl | hold
    · exact ⟨(h.bought row hrow hu).1, (h.bought row hrow hu).2, (h.bought row hrow hu).3,
        (h.bought row hrow hu).4⟩
    · exact h.bought r hold hru
  · rw [hopen r hr hru hract, hopen s hs hsu hsact]
  · rcases mem_save hs with rfl | hold
    · cases hlive.1.symm.trans hexp
    · exact h.past s hold hsu hexp
  · rw [hopen r hr hru hact]
    rcases mem_save hs with rfl | hold
    · cases hlive.1.symm.trans hexp
    · exact (h.newest s hold row hrow hsu hu hexp hlive.1).trans hend
  · exact ⟨_, mem_save_self hrow rfl, hu, hlive.1⟩
  · rw [hopen r hr hru hact]
    exact hgroup

omit hg0 hne in
theorem Restorable.buy (cal : Calendar) (p : UpgradingPlan) {endTime : Int}
    (hend : db.now < endTime) (hclosed : ∀ r ∈ db.rows, r.userId = u → r.status ≠ .active) :
    Restorable g0 u (insertRow db (freshRow cal db u p.plan endTime)) := by
  have hrows := insertRow_rows db (freshRow cal db u p.plan endTime)
  have hg := insertRow_freshRow_group cal db u p endTime
  have hmem : ∀ r ∈ (insertRow db (freshRow cal db u p.plan endTime)).rows,
      r ∈ db.rows ∨ r = freshRow cal db u p.plan endTime := by
    intro r hr
    rw [hrows, List.mem_append, List.mem_singleton] at hr
    exact hr
  have hopen : ∀ r ∈ (insertRow db (freshRow cal db u p.plan endTime)).rows, r.userId = u →
      r.status = .active → r = freshRow cal db u p.plan endTime := by
    intro r hr hru hact
    exact (hmem r hr).resolve_left fun hold => hclosed r hold hru hact
  have hidle : db.groups u = g0 := by
    refine h.idle.resolve_left ?_
    rintro ⟨r, hr, hru, hact⟩
    exact hclosed r hr hru hact
  refine ⟨h.ids.insertRow rfl, fun r hr hru => ?_, fun r hr s hs hru hsu hract hsact => ?_,
    fun s hs hsu hexp => ?_, fun s hs r hr hsu hru hexp hact => ?_, .inl ?_,
    fun r hr hru hact => .inl ?_⟩
  · rcases hmem r hr with hold | rfl
    · exact h.bought r hold hru
    refine ⟨?_, trimSpace_trimSpace _, p.upgrades, ?_⟩
    · show trimSpace (trimSpace p.plan.downgradeGroup) = ""
      rw [trimSpace_trimSpace, p.noDowngrade]
    have hup : (freshRow cal db u p.plan endTime).upgradeGroup =
      trimSpace p.plan.upgradeGroup := rfl
    have hprev : (freshRow cal db u p.plan endTime).prevUserGroup =
        if trimSpace p.plan.upgradeGroup ≠ "" ∧ db.groups u ≠ trimSpace p.plan.upgradeGroup
          then db.groups u else "" := by
      simp only [freshRow]
    rw [hprev, hup, hidle]
    by_cases hsame : trimSpace p.plan.upgradeGroup = g0
    · rw [if_pos hsame, if_neg fun hne => hne.2 hsame.symm]
    · rw [if_neg hsame, if_pos ⟨p.upgrades, fun heq => hsame heq.symm⟩]
  · rw [hopen r hr hru hract, hopen s hs hsu hsact]
  · rw [insertRow_now]
    rcases hmem s hs with hold | rfl
    · exact h.past s hold hsu hexp
    · cases hexp
  · rw [hopen r hr hru hact]
    rcases hmem s hs with hold | rfl
    · exact (h.past s hold hsu hexp).trans_lt hend
    · cases hexp
  · refine ⟨freshRow cal db u p.plan endTime, ?_, rfl, rfl⟩
    rw [hrows]
    exact List.mem_append_right _ (List.mem_singleton.2 rfl)
  · rw [hopen r hr hru hact, hg]
    rfl

end

end Restore

/-! ## Runs -/

/-- The user buys a new row only when every earlier one was expired, cancelled
    or deleted.  Renewals are not restricted. -/
def Sequential (u : Int) (db : Db) : GroupAction → Prop
  | .purchase w p => w = u → activeRow db w p.plan.id = none →
      ∀ r ∈ db.rows, r.userId = u → r.status ≠ .active
  | _ => True

instance (u : Int) (db : Db) : ∀ a, Decidable (Sequential u db a)
  | .purchase w p => inferInstanceAs (Decidable (w = u → activeRow db w p.plan.id = none →
      ∀ r ∈ db.rows, r.userId = u → r.status ≠ .active))
  | .tick _ => instDecidableTrue
  | .expireDue _ => instDecidableTrue
  | .cancel _ => instDecidableTrue
  | .delete _ => instDecidableTrue

theorem groupStep_restorable (hg0 : trimSpace g0 = g0) (hne : g0 ≠ "")
     (db : Db) (a : GroupAction) (h : Restorable g0 u db)
    (hseq : Sequential u db a) : Restorable g0 u (groupStep cal db a) := by
  cases a with
  | tick d =>
    have hsame : SameFor u db { db with now := db.now + d } := ⟨fun _ _ => Iff.rfl, rfl⟩
    exact h.frame hsame (h.ids.groupStep (.tick d)) (by show db.now ≤ db.now + d; omega)
  | purchase w p =>
    have hids : Ids (groupStep cal db (.purchase w p)) := h.ids.groupStep _
    obtain ⟨heq, -⟩ | ⟨row, endTime, hrow, hw, hlive, hend, heq, -⟩ |
        ⟨endTime, hact, hend, heq, -⟩ := purchaseUpgrade_cases cal db w p
    · rw [heq]
      exact h
    · rw [heq] at hids ⊢
      by_cases hwu : w = u
      · exact h.renew hrow (hw.trans hwu) hlive p.plan hend
      have hsame : SameFor u db (db.save (renewed row p.plan endTime)) :=
        SameFor.save h.ids hrow rfl (hw ▸ hwu) rfl
      exact h.frame hsame hids le_rfl
    rw [heq] at hids ⊢
    by_cases hwu : w = u
    · subst hwu
      exact h.buy cal p hend (hseq rfl hact)
    · have hrow : (freshRow cal db w p.plan endTime).userId ≠ u := hwu
      exact h.frame (SameFor.insertRow db hrow) hids (insertRow_now db _).ge
  | expireDue limit => exact h.expireUsers hg0 hne _
  | cancel id => exact h.cancel hg0 hne id
  | delete id => exact h.delete hg0 hne id

/-- A user in group `g0` who has bought nothing yet. -/
structure Unsubscribed (g0 : String) (u : Int) (db : Db) : Prop where
  ids : Ids db
  none : ∀ r ∈ db.rows, r.userId ≠ u
  group : db.groups u = g0

theorem Unsubscribed.restorable (h : Unsubscribed g0 u db) : Restorable g0 u db where
  ids := h.ids
  bought r hr hu := absurd hu (h.none r hr)
  single r hr _ _ hu := absurd hu (h.none r hr)
  past s hs hu := absurd hu (h.none s hs)
  newest s hs _ _ hu := absurd hu (h.none s hs)
  idle := .inr h.group
  held r hr hu := absurd hu (h.none r hr)

theorem unsubscribed_empty (now u : Int) : Unsubscribed "default" u (Db.empty now) where
  ids := ⟨fun _ hr => absurd hr List.not_mem_nil, List.nodup_nil⟩
  none _ hr := absurd hr List.not_mem_nil
  group := rfl

def silver : UpgradingPlan where
  plan := { id := 1, customSeconds := 1000, upgradeGroup := "silver" }
  upgrades := by decide +kernel
  noDowngrade := by decide +kernel

def gold : UpgradingPlan where
  plan := { id := 2, customSeconds := 500, upgradeGroup := "gold" }
  upgrades := by decide +kernel
  noDowngrade := by decide +kernel

def oneAfterTheOther : List GroupAction :=
  [.purchase 1 silver, .tick 400, .purchase 1 silver, .tick 1600, .expireDue 0, .purchase 1 gold,
   .tick 500, .expireDue 0]

def goldOverSilver : List GroupAction :=
  [.purchase 1 silver, .purchase 1 gold, .cancel 2, .cancel 1]

end NewApi.Subscription
