/-
  NewApi.SystemTasks.LeaseSafety

  A running task is named by a lock row, unless a claim stalls.

  `ClaimSystemTask` takes the lock, then sets the task running with an UPDATE
  that does not look at the lock again, and gives the lock back when that
  UPDATE matches nothing.  `Timely` says when no stall comes between: the
  takeover finds its task still pending, the UPDATE finds the lock still the
  claimer's and unexpired, a renewal ends in the future and a guarded write runs
  in the second it read.

  The proof is by rely and guarantee: `Guarantee` is what a step of one runner
  lets the others rely on, `Assert` what a call in progress needs of the tables.
-/

import NewApi.SystemTasks.LeaseTables

namespace NewApi.SystemTasks

open List (mem_filter mem_map not_mem_nil)
open NewApi.Lib

variable {ι : Type*}

/-- The statement about to run does not come too late. -/
def TaskPhase.Timely (db : TaskDB) : TaskPhase → Prop
  | .claimTake c _ => ∃ t ∈ db.tasks, pendingRow c.id c.type t = true
  | .claimRun c => ∀ t ∈ db.tasks, pendingRow c.id c.type t = true →
      ∃ l ∈ db.locks, l.type = t.type ∧ l.taskID = t.taskID ∧ l.lockedBy = c.runnerID ∧
        db.now ≤ l.lockedUntil
  | .renewLock _ _ lockUntil _ => db.now ≤ lockUntil
  | .stateWrite _ _ _ now => now = db.now
  | .finishWrite _ _ _ _ _ now => now = db.now
  | _ => True

instance (db : TaskDB) : DecidablePred (TaskPhase.Timely db) := fun φ => by
  cases φ <;> unfold TaskPhase.Timely <;> infer_instance

def Timely (w : Workers TaskDB ι TaskPhase) (a : ι × TaskAct) : Prop :=
  a.2 = .next false → (w.proc a.1).Timely w.shared

instance (w : Workers TaskDB ι TaskPhase) (a : ι × TaskAct) : Decidable (Timely w a) :=
  inferInstanceAs (Decidable (_ → _))

/-- Every running task is named by the lock row of its type, held by its runner. -/
def TaskDB.Leased (db : TaskDB) : Prop :=
  ∀ t ∈ db.tasks, t.status = .running →
    ∃ l ∈ db.locks, l.type = t.type ∧ l.taskID = t.taskID ∧ l.lockedBy = t.lockedBy

/-- What a call in progress needs of the tables. -/
def Assert (runner : ι → String) (db : TaskDB) (i : ι) : TaskPhase → Prop
  -- releasing the claim's lock cannot hit the lock of its task once running
  | .claimInsert c | .claimExisting c | .claimTake c _ | .claimMark c _ | .claimRun c
  | .claimRelease c _ => c.runnerID = runner i ∧
      ∀ t ∈ db.tasks, t.taskID = c.taskID → t.status = .running → t.lockedBy ≠ runner i
  | .finishRelease taskID _ => ∃ t ∈ db.tasks, t.taskID = taskID ∧ t.status.active = false
  | .expireRead now => now ≤ db.now
  | .expireMark now _ => now ≤ db.now
  -- the task was marked; should it run again, its lock has been renewed since
  | .expireDelete now l _ => now ≤ db.now ∧ ∀ t ∈ db.tasks, t.taskID = l.taskID →
      t.status = .running → ∀ m ∈ db.locks, m.type = t.type → now ≤ m.lockedUntil
  | _ => True

/-- What a step of the runner `r` lets the others rely on. -/
structure Guarantee (r : String) (db db' : TaskDB) : Prop where
  now : db.now ≤ db'.now
  finished : ∀ t ∈ db.tasks, t.status.active = false → t ∈ db'.tasks
  running : ∀ t' ∈ db'.tasks, t'.status = .running →
    (∃ t ∈ db.tasks, t.status = .running ∧ t.taskID = t'.taskID ∧ t.type = t'.type ∧
      t.lockedBy = t'.lockedBy) ∨
    (t'.lockedBy = r ∧ ∃ l ∈ db'.locks, l.type = t'.type ∧ db'.now ≤ l.lockedUntil)
  locks : ∀ t ∈ db.tasks, t.status = .running → ∀ m ∈ db'.locks, m.type = t.type →
    m ∈ db.locks ∨ db'.now ≤ m.lockedUntil

theorem Guarantee.refl (r : String) (db : TaskDB) : Guarantee r db db where
  now := Nat.le_refl _
  finished := fun _ ht _ => ht
  running := fun t ht hr => Or.inl ⟨t, ht, hr, rfl, rfl, rfl⟩
  locks := fun _ _ _ _ hm _ => Or.inl hm

variable {runner : ι → String} {i : ι} {db : TaskDB} {φ : TaskPhase}

theorem Assert.stable (hinj : Function.Injective runner) {j : ι}
    {db' : TaskDB} (hij : j ≠ i) (hw' : db'.Wf)
    (hg : Guarantee (runner i) db db') (h : Assert runner db j φ) : Assert runner db' j φ := by
  have hclaim : ∀ taskID, (∀ t ∈ db.tasks, t.taskID = taskID → t.status = .running →
      t.lockedBy ≠ runner j) → ∀ t ∈ db'.tasks, t.taskID = taskID → t.status = .running →
      t.lockedBy ≠ runner j := by
    intro taskID hold t ht hid hr
    rcases hg.running t ht hr with ⟨u, hu, hur, huid, -, hby⟩ | ⟨hby, -⟩
    · rw [← hby]
      exact hold u hu (huid.trans hid) hur
    · rw [hby]
      exact fun heq => hij (hinj heq).symm
  cases φ with
  | claimInsert c | claimExisting c | claimTake c old | claimMark c old | claimRun c
  | claimRelease c o => exact ⟨h.1, hclaim _ h.2⟩
  | finishRelease taskID lockedBy =>
    obtain ⟨t, ht, hid, hd⟩ := h
    exact ⟨t, hg.finished t ht hd, hid, hd⟩
  | expireRead now | expireMark now locks => exact Nat.le_trans h hg.now
  | expireDelete now l locks =>
    obtain ⟨hnow, hold⟩ := h
    refine ⟨Nat.le_trans hnow hg.now, ?_⟩
    intro t ht hid hr m hm hty
    rcases hg.running t ht hr with ⟨u, hu, hur, huid, huty, -⟩ | ⟨-, l', hl', hlty, hle⟩
    · have hty' : m.type = u.type := hty.trans huty.symm
      rcases hg.locks u hu hur m hm hty' with hm | hle
      · exact hold u hu (huid.trans hid) hur m hm hty'
      · exact Nat.le_trans (Nat.le_trans hnow hg.now) hle
    · rw [hw'.lock_eq hm hl' (hty.trans hlty.symm)]
      exact Nat.le_trans (Nat.le_trans hnow hg.now) hle
  | _ => trivial

/-! ## What each kind of statement guarantees -/

theorem guarantee_of_locks {db' : TaskDB} (r : String) (hnow : db'.now = db.now)
    (htasks : db'.tasks = db.tasks)
    (hkeep : ∀ t ∈ db.tasks, t.status = .running → ∀ l ∈ db.locks, l.type = t.type →
      l.taskID = t.taskID → l.lockedBy = t.lockedBy →
      ∃ m ∈ db'.locks, m.type = l.type ∧ m.taskID = l.taskID ∧ m.lockedBy = l.lockedBy)
    (hnew : ∀ t ∈ db.tasks, t.status = .running → ∀ m ∈ db'.locks, m.type = t.type →
      m ∈ db.locks ∨ db.now ≤ m.lockedUntil) (hl : db.Leased) :
    db'.Leased ∧ Guarantee r db db' := by
  refine ⟨?_, ?_, ?_, ?_, ?_⟩
  · intro t ht hr
    rw [htasks] at ht
    obtain ⟨l, hl, hty, hid, hby⟩ := hl t ht hr
    obtain ⟨m, hm, hmty, hmid, hmby⟩ := hkeep t ht hr l hl hty hid hby
    exact ⟨m, hm, hmty.trans hty, hmid.trans hid, hmby.trans hby⟩
  · rw [hnow]
  · intro t ht _
    rw [htasks]
    exact ht
  · intro t ht hr
    rw [htasks] at ht
    exact Or.inl ⟨t, ht, hr, rfl, rfl, rfl⟩
  intro t ht hr m hm hty
  rw [hnow]
  exact hnew t ht hr m hm hty

theorem guarantee_of_tasks {db' : TaskDB} {r : String} (hnow : db'.now = db.now)
    (hlocks : db'.locks = db.locks) (hmove : TasksMove db db'.tasks)
    (hrun : ∀ t' ∈ db'.tasks, t'.status = .running →
      (∃ t ∈ db.tasks, t.status = .running ∧ t.taskID = t'.taskID ∧ t.type = t'.type ∧
        t.lockedBy = t'.lockedBy) ∨
      (t'.lockedBy = r ∧ ∃ l ∈ db.locks, l.type = t'.type ∧ l.taskID = t'.taskID ∧
        l.lockedBy = r ∧ db.now ≤ l.lockedUntil)) (hl : db.Leased) :
    db'.Leased ∧ Guarantee r db db' := by
  refine ⟨?_, ?_, ?_, ?_, ?_⟩
  · intro t' ht' hr
    rw [hlocks]
    rcases hrun t' ht' hr with ⟨t, ht, htr, hid, hty, hby⟩ | ⟨hby, l, hl, hty, hid, hlby, -⟩
    · obtain ⟨l, hl, hlty, hlid, hlby⟩ := hl t ht htr
      exact ⟨l, hl, hlty.trans hty, hlid.trans hid, hlby.trans hby⟩
    · exact ⟨l, hl, hty, hid, hlby.trans hby.symm⟩
  · rw [hnow]
  · exact fun t ht hd => hmove.mem_of_finished ht hd
  · intro t' ht' hr
    rw [hnow, hlocks]
    rcases hrun t' ht' hr with hold | ⟨hby, l, hl, hty, -, -, hle⟩
    · exact Or.inl hold
    · exact Or.inr ⟨hby, l, hl, hty, hle⟩
  intro t _ _ m hm _
  rw [hlocks] at hm
  exact Or.inl hm

theorem running_update {p : SystemTask → Bool} {f : SystemTask → SystemTask}
    (hf : ∀ t, p t = true → (f t).status = .running → t.status = .running ∧
      (f t).taskID = t.taskID ∧ (f t).type = t.type ∧ (f t).lockedBy = t.lockedBy)
    {t' : SystemTask} (ht' : t' ∈ (db.update p f).tasks) (hr : t'.status = .running) :
    ∃ t ∈ db.tasks, t.status = .running ∧ t.taskID = t'.taskID ∧ t.type = t'.type ∧
      t.lockedBy = t'.lockedBy := by
  obtain ⟨t, ht, rfl⟩ := mem_map.1 ht'
  by_cases hp : p t = true
  · rw [if_pos hp] at hr ⊢
    obtain ⟨htr, hid, hty, hby⟩ := hf t hp hr
    exact ⟨t, ht, htr, hid.symm, hty.symm, hby.symm⟩
  · rw [if_neg hp] at hr ⊢
    exact ⟨t, ht, hr, rfl, rfl, rfl⟩

variable {t : SystemTask}

theorem mark_running {taskID : String}
    (ht : t ∈ (markSystemTaskLeaseExpired db taskID).tasks) (hr : t.status = .running) :
    t ∈ db.tasks ∧ t.taskID ≠ taskID := by
  obtain ⟨u, hu, rfl⟩ := mem_map.1 ht
  by_cases hp : (u.taskID == taskID && u.status == .running) = true
  · rw [if_pos hp] at hr
    cases hr
  rw [if_neg hp] at hr ⊢
  refine ⟨hu, fun hid => hp ?_⟩
  rw [hid, hr]
  simp

theorem TaskDB.Wf.type_ne_of_pending (h : db.Wf) {u : SystemTask}
    (ht : t ∈ db.tasks) (hu : u ∈ db.tasks) (hr : t.status = .running)
    (hp : u.status = .pending) : t.type ≠ u.type := by
  intro he
  have heq := h.eq_of_type ht hu (by rw [hr]; rfl) (by rw [hp]; rfl) he
  rw [heq, hp] at hr
  cases hr

theorem release_guarantee {taskID lockedBy : String} (r : String)
    (hfree : ∀ t ∈ db.tasks, t.taskID = taskID → t.status = .running → t.lockedBy ≠ lockedBy)
    (hl : db.Leased) : (releaseSystemTaskLock db taskID lockedBy).Leased ∧
      Guarantee r db (releaseSystemTaskLock db taskID lockedBy) := by
  refine guarantee_of_locks r rfl rfl ?_ ?_ hl
  · intro t ht hr l hl hty hid hby
    refine ⟨l, mem_filter.2 ⟨hl, ?_⟩, rfl, rfl, rfl⟩
    rw [Bool.not_eq_true', Bool.and_eq_false_iff, beq_eq_false_iff_ne, beq_eq_false_iff_ne]
    by_cases hid' : l.taskID = taskID
    · refine Or.inr fun hby' => ?_
      exact hfree t ht (hid.symm.trans hid') hr (hby.symm.trans hby')
    · exact Or.inl hid'
  · intro t _ _ m hm _
    exact Or.inl (List.mem_of_mem_filter hm)

theorem next_guarantee (dbFails : Bool) (hw : db.Wf) (hl : db.Leased) (ha : Assert runner db i φ)
    (ht : dbFails = false → φ.Timely db) : (φ.next (runner i) db dbFails).1.Leased ∧
      Guarantee (runner i) db (φ.next (runner i) db dbFails).1 := by
  have hsame : db.Leased ∧ Guarantee (runner i) db db := ⟨hl, .refl _ _⟩
  have hnow := next_now (runner i) db dbFails φ
  have htasks := next_tasks (runner i) db dbFails φ
  cases dbFails with
  | true =>
    cases φ with
    | expireMark now locks => cases locks <;> exact hsame
    | _ => exact hsame
  | false =>
  specialize ht rfl
  cases φ with
  | createRow taskType taskID state =>
    refine guarantee_of_tasks hnow (next_locks_eq _ _ _ rfl) htasks ?_ hl
    intro t' ht' hr
    unfold TaskPhase.next at ht'
    dsimp only at ht'
    rw [if_neg Bool.false_ne_true] at ht'
    split at ht'
    · rename_i db' hdb'
      obtain ⟨-, -, rfl⟩ := insertTask_some hdb'
      rcases List.mem_append.1 ht' with ht' | ht'
      · exact Or.inl ⟨t', ht', hr, rfl, rfl, rfl⟩
      · rw [List.mem_singleton.1 ht'] at hr
        cases hr
    · exact Or.inl ⟨t', ht', hr, rfl, rfl, rfl⟩
  | claimMark c old =>
    refine guarantee_of_tasks hnow (next_locks_eq _ _ _ rfl) htasks ?_ hl
    intro t' ht' hr
    exact Or.inl ⟨t', (mark_running ht' hr).1, hr, rfl, rfl, rfl⟩
  | expireMark now locks =>
    cases locks with
    | nil => exact hsame
    | cons l locks =>
      refine guarantee_of_tasks hnow (next_locks_eq _ _ _ rfl) htasks ?_ hl
      intro t' ht' hr
      exact Or.inl ⟨t', (mark_running ht' hr).1, hr, rfl, rfl, rfl⟩
  | claimRun c =>
    refine guarantee_of_tasks hnow (next_locks_eq _ _ _ rfl) htasks ?_ hl
    intro t' ht' hr
    unfold TaskPhase.next at ht'
    dsimp only at ht'
    rw [if_neg Bool.false_ne_true] at ht'
    split at ht'
    · exact Or.inl ⟨t', ht', hr, rfl, rfl, rfl⟩
    obtain ⟨t, htm, rfl⟩ := mem_map.1 ht'
    by_cases hp : pendingRow c.id c.type t = true
    · rw [if_pos hp]
      obtain ⟨l, hlm, hty, hid, hby, hle⟩ := ht t htm hp
      exact Or.inr ⟨ha.1, l, hlm, hty, hid, hby.trans ha.1, hle⟩
    · rw [if_neg hp] at hr ⊢
      exact Or.inl ⟨t, htm, hr, rfl, rfl, rfl⟩
  | stateWrite taskID lockedBy state now =>
    refine guarantee_of_tasks hnow (next_locks_eq _ _ _ rfl) htasks ?_ hl
    intro t' ht' hr
    refine Or.inl (running_update (p := ownedRunning db taskID lockedBy now) ?_ ht' hr)
    exact fun t hp _ => ⟨(ownedRunning_iff.1 hp).2.1, rfl, rfl, rfl⟩
  | finishWrite taskID lockedBy succeeded result error now =>
    refine guarantee_of_tasks hnow (next_locks_eq _ _ _ rfl) htasks ?_ hl
    intro t' ht' hr
    unfold TaskPhase.next at ht'
    dsimp only at ht'
    rw [if_neg Bool.false_ne_true] at ht'
    split at ht'
    · exact Or.inl ⟨t', ht', hr, rfl, rfl, rfl⟩
    · refine Or.inl (running_update (p := ownedRunning db taskID lockedBy now) ?_ ht' hr)
      exact fun t hp _ => ⟨(ownedRunning_iff.1 hp).2.1, rfl, rfl, rfl⟩
  | claimInsert c =>
    unfold TaskPhase.next
    dsimp only
    rw [if_neg Bool.false_ne_true]
    split
    · rename_i db' hdb'
      obtain ⟨hfree, rfl⟩ := insertLock_some hdb'
      refine guarantee_of_locks _ rfl rfl ?_ ?_ hl
      · intro _ _ _ l hlm _ _ _
        exact ⟨l, List.mem_append_left _ hlm, rfl, rfl, rfl⟩
      intro t htm hr m hm hty
      rcases List.mem_append.1 hm with hm | hm
      · exact Or.inl hm
      -- a running task of the type would have its lock
      obtain ⟨l, hlm, hlty, -, -⟩ := hl t htm hr
      refine absurd (hlty.trans hty.symm) ?_
      rw [List.mem_singleton.1 hm]
      exact hfree l hlm
    · exact hsame
  | claimTake c old =>
    obtain ⟨u, hum, hu⟩ := ht
    obtain ⟨-, huty, hup⟩ := pendingRow_iff.1 hu
    have hother : ∀ t ∈ db.tasks, t.status = .running → t.type ≠ c.type := by
      intro t htm hr
      rw [← huty]
      exact hw.type_ne_of_pending htm hum hr hup
    unfold TaskPhase.next
    dsimp only
    rw [if_neg Bool.false_ne_true]
    split
    · refine guarantee_of_locks _ rfl rfl ?_ ?_ hl
      · intro t htm hr l hlm hty _ _
        refine ⟨l, mem_map.2 ⟨l, hlm, if_neg ?_⟩, rfl, rfl, rfl⟩
        rw [Bool.and_eq_true, beq_iff_eq, hty]
        exact fun hst => hother t htm hr hst.1
      intro t htm hr m hm hty
      obtain ⟨l, hlm, rfl⟩ := mem_map.1 hm
      by_cases hst : (l.type == c.type && decide (l.lockedUntil < c.now)) = true
      · rw [if_pos hst] at hty
        rw [Bool.and_eq_true, beq_iff_eq] at hst
        exact absurd (hty.symm.trans hst.1) (hother t htm hr)
      · rw [if_neg hst]
        exact Or.inl hlm
    · exact hsame
  | claimRelease c o =>
    obtain ⟨hrid, hfree⟩ := ha
    rw [← hrid] at hfree
    exact release_guarantee _ hfree hl
  | renewLock taskID lockedBy lockUntil now =>
    refine guarantee_of_locks _ rfl rfl ?_ ?_ hl
    · intro _ _ _ l hlm _ _ _
      refine ⟨_, mem_map.2 ⟨l, hlm, rfl⟩, ?_⟩
      split <;> exact ⟨rfl, rfl, rfl⟩
    intro t htm hr m hm hty
    obtain ⟨l, hlm, rfl⟩ := mem_map.1 hm
    split
    · exact Or.inr ht
    · exact Or.inl hlm
  | finishRelease taskID lockedBy =>
    obtain ⟨u, hum, hid, hd⟩ := ha
    refine release_guarantee _ ?_ hl
    intro t htm htid hr
    rw [hw.eq_of_taskID htm hum (htid.trans hid.symm)] at hr
    rw [hr] at hd
    cases hd
  | expireDelete now l locks =>
    refine guarantee_of_locks _ rfl rfl ?_ ?_ hl
    · intro t htm hr m hm hty hid hby
      refine ⟨m, mem_filter.2 ⟨hm, ?_⟩, rfl, rfl, rfl⟩
      rw [Bool.not_eq_true', ← Bool.not_eq_true]
      simp only [Bool.and_eq_true, beq_iff_eq, decide_eq_true_eq]
      rintro ⟨⟨⟨-, hlid⟩, -⟩, hlt⟩
      exact absurd (ha.2 t htm (hid.symm.trans hlid) hr m hm hty) (Nat.not_le.2 hlt)
    · intro t _ _ m hm _
      exact Or.inl (List.mem_of_mem_filter hm)
  | _ =>
    refine guarantee_of_tasks hnow (next_locks_eq _ _ _ rfl) htasks ?_ hl
    intro t' ht' hr
    rw [next_tasks_eq _ _ _ rfl] at ht'
    exact Or.inl ⟨t', ht', hr, rfl, rfl, rfl⟩

theorem next_assert {dbFails : Bool} (hw : db.Wf) (ha : Assert runner db i φ) :
    Assert runner (φ.next (runner i) db dbFails).1 i (φ.next (runner i) db dbFails).2 := by
  cases φ with
  | claimRead id taskType lockUntil now =>
    unfold TaskPhase.next
    dsimp only
    split
    · trivial
    split
    · rename_i u hu
      refine ⟨rfl, fun t ht hid hr => ?_⟩
      have hup := (pendingRow_iff.1 (List.find?_some hu)).2.2
      rw [hw.eq_of_taskID ht (List.mem_of_find?_eq_some hu) hid, hup] at hr
      cases hr
    · trivial
  | claimInsert c =>
    unfold TaskPhase.next
    dsimp only
    split
    · rename_i db' hdb'
      split at hdb'
      · cases hdb'
      · rw [(insertLock_some hdb').2]
        exact ha
    · exact ha
  | claimMark c old =>
    unfold TaskPhase.next
    dsimp only
    split
    · exact ha
    · exact ⟨ha.1, fun t ht hid hr => ha.2 t (mark_running ht hr).1 hid hr⟩
  | finishWrite taskID lockedBy succeeded result error now =>
    unfold TaskPhase.next
    dsimp only
    split
    · trivial
    split
    · trivial
    rename_i hmatched
    obtain ⟨t, ht, hp⟩ := List.countP_pos_iff.1 (Nat.pos_of_ne_zero hmatched)
    refine ⟨_, mem_map.2 ⟨t, ht, if_pos hp⟩, (ownedRunning_iff.1 hp).1, ?_⟩
    cases succeeded <;> rfl
  | expireRead now =>
    unfold TaskPhase.next
    dsimp only
    split
    · trivial
    · exact ha
  | expireMark now locks =>
    unfold TaskPhase.next
    dsimp only
    split
    · trivial
    split
    · trivial
    · refine ⟨ha, fun t ht hid hr => ?_⟩
      exact absurd hid (mark_running ht hr).2
  | expireDelete now l locks =>
    unfold TaskPhase.next
    dsimp only
    split
    · trivial
    · exact ha.1
  | _ =>
    -- the other calls carry nothing on; the other claim phases carry `ha` on
    unfold TaskPhase.next
    dsimp only
    repeat' split
    all_goals trivial

variable {w : Workers TaskDB ι TaskPhase}

theorem taskStep_guarantee
    {a : TaskAct} (hw : w.Holds (fun db => db.Wf ∧ db.Leased) (Assert runner))
    (ht : Timely w (i, a)) : ((taskStep runner i w.shared (w.proc i) a).1.Wf ∧
      (taskStep runner i w.shared (w.proc i) a).1.Leased) ∧
    Assert runner (taskStep runner i w.shared (w.proc i) a).1 i
      (taskStep runner i w.shared (w.proc i) a).2 ∧
    Guarantee (runner i) w.shared (taskStep runner i w.shared (w.proc i) a).1 := by
  obtain ⟨⟨hwf, hl⟩, hP⟩ := hw
  have ha : Assert runner w.shared i (w.proc i) := hP i
  have hwf' := taskStep_wf runner i (w.proc i) a hwf
  cases a with
  | next dbFails =>
    have hg := next_guarantee dbFails hwf hl ha fun hf => ht (by rw [hf])
    exact ⟨⟨hwf', hg.1⟩, next_assert hwf ha, hg.2⟩
  | tick d =>
    have hg : Guarantee (runner i) w.shared { w.shared with now := w.shared.now + d } :=
      ⟨Nat.le_add_right _ _, fun _ h _ => h, fun t h hr => Or.inl ⟨t, h, hr, rfl, rfl, rfl⟩,
        fun _ _ _ _ hm _ => Or.inl hm⟩
    refine ⟨⟨hwf', hl⟩, ?_, hg⟩
    -- ticking is a step of `i` itself: its own assertion only reads the clock upwards
    unfold taskStep
    cases hφ : w.proc i <;> rw [hφ] at ha <;>
      first
      | exact ha
      | exact Nat.le_trans ha (Nat.le_add_right _ _)
      | exact ⟨Nat.le_trans ha.1 (Nat.le_add_right _ _), ha.2⟩
  | begin op =>
    refine ⟨⟨hwf', hl⟩, ?_, .refl _ _⟩
    unfold taskStep
    dsimp only
    split
    · cases op with
      | expire => exact Nat.le_refl _
      | _ => trivial
    · exact ha
  | finish =>
    unfold taskStep at hwf' ⊢
    dsimp only at hwf' ⊢
    split
    · exact ⟨⟨hwf, hl⟩, trivial, .refl _ _⟩
    · exact ⟨⟨hwf, hl⟩, ha, .refl _ _⟩

variable (runner)

theorem fresh_holds (start : Nat) :
    (TaskDB.fresh start).Holds (fun db => db.Wf ∧ db.Leased) (Assert runner) :=
  ⟨⟨⟨fun _ h => (not_mem_nil h).elim, List.nodup_nil,
      fun _ h => (not_mem_nil h).elim, List.nodup_nil⟩,
    fun _ h => (not_mem_nil h).elim⟩, fun _ => trivial⟩

variable [DecidableEq ι]

theorem run_wf (start : Nat) (as : List (ι × TaskAct)) :
    (run (Workers.step (taskStep runner)) (TaskDB.fresh start) as).shared.Wf :=
  run_invariant_all (fun w : Workers TaskDB ι TaskPhase => w.shared.Wf)
    (fun w a h => taskStep_wf runner a.1 (w.proc a.1) a.2 h) as (fresh_holds runner start).1.1

theorem run_mem_of_finished (as : List (ι × TaskAct)) (ht : t ∈ w.shared.tasks)
    (hd : t.status.active = false) : t ∈ (run (Workers.step (taskStep runner)) w as).shared.tasks :=
  run_invariant_all (fun w : Workers TaskDB ι TaskPhase => t ∈ w.shared.tasks)
    (fun w a h => taskStep_mem_of_finished runner a.1 (w.proc a.1) a.2 h hd) as ht

variable {runner}

theorem run_leased (hinj : Function.Injective runner) (start : Nat) {as : List (ι × TaskAct)}
    (has : Meets Timely (Workers.step (taskStep runner)) (TaskDB.fresh start) as) :
    (run (Workers.step (taskStep runner)) (TaskDB.fresh start) as).shared.Leased :=
  (Workers.Holds.run_rely (fun _ _ _ hw hc => taskStep_guarantee hw hc)
    (fun _ _ _ _ _ hij _ hI' hg ha => ha.stable hinj hij hI'.1 hg)
    (fresh_holds runner start) has).1.2

/-! ## A crashed runner's task can be expired -/

/-- What `ExpireStaleSystemTaskLocks` makes of a row, having read `locks`. -/
def expiredRow (locks : List SystemTaskLock) (t : SystemTask) : SystemTask :=
  if t.status == .running && locks.any fun l => l.taskID == t.taskID then
    { t with status := .failed, activeKey := none, error := "task lease expired" }
  else t

variable (runner)

omit [DecidableEq ι] in
theorem expire_loop (k : ι) (now : Nat) (locks : List SystemTaskLock) (db : TaskDB) :
    ((List.replicate (2 * locks.length) (TaskAct.next false)).foldl
      (fun p a => taskStep runner k p.1 p.2 a) (db, .expireMark now locks)).1.tasks =
      db.tasks.map (expiredRow locks) := by
  induction locks generalizing db with
  | nil =>
    change db.tasks = db.tasks.map (expiredRow [])
    have hid : expiredRow [] = id := by
      funext t
      simp [expiredRow]
    rw [hid, List.map_id]
  | cons l locks ih =>
    have hlen : 2 * (l :: locks).length = 2 * locks.length + 1 + 1 := by
      rw [List.length_cons]
      omega
    rw [hlen, List.replicate_succ, List.replicate_succ, List.foldl_cons, List.foldl_cons]
    -- the mark, then the delete, which leaves the tasks
    refine (ih _).trans ?_
    change (db.tasks.map fun t => _).map (expiredRow locks) = _
    rw [List.map_map]
    refine List.map_congr_left fun t _ => ?_
    unfold expiredRow
    by_cases hr : t.status = .running
    · by_cases hid : l.taskID = t.taskID
      · simp [hr, hid]
      · simp [hr, hid, Ne.symm hid]
    · simp [hr]

/-- The clock moves on by `d`, then `ExpireStaleSystemTaskLocks` runs alone. -/
def expireAlone (k : ι) (d n : Nat) : List (ι × TaskAct) :=
  (.tick d :: .begin .expire :: List.replicate n (.next false)).map (k, ·)

theorem expire_run {k : ι} (hk : w.proc k = .idle) (d : Nat) :
    ∃ n, (run (Workers.step (taskStep runner)) w (expireAlone k d n)).shared.tasks =
      w.shared.tasks.map
        (expiredRow (w.shared.locks.filter fun l => decide (l.lockedUntil < w.shared.now + d))) := by
  refine ⟨2 * (w.shared.locks.filter fun l =>
    decide (l.lockedUntil < w.shared.now + d)).length + 1, ?_⟩
  have hsolo := congrArg (fun p => p.1.tasks) (Workers.run_solo (taskStep runner) w k
    (.tick d :: .begin .expire :: List.replicate (2 * (w.shared.locks.filter fun l =>
      decide (l.lockedUntil < w.shared.now + d)).length + 1) (.next false)))
  refine hsolo.trans ?_
  rw [hk, List.replicate_succ]
  exact expire_loop runner k (w.shared.now + d) _ _

theorem expire_frees (runner : ι → String) (hw : w.shared.Wf)
    (ht : t ∈ w.shared.tasks) (hr : t.status = .running) {l : SystemTaskLock}
    (hl : l ∈ w.shared.locks) (hid : l.taskID = t.taskID) {k : ι} (hk : w.proc k = .idle) :
    ∃ d n, { t with status := .failed, activeKey := none, error := "task lease expired" } ∈
        (run (Workers.step (taskStep runner)) w (expireAlone k d n)).shared.tasks ∧
      ∀ u ∈ (run (Workers.step (taskStep runner)) w (expireAlone k d n)).shared.tasks,
        u.activeKey ≠ some t.type := by
  obtain ⟨n, hn⟩ := expire_run runner hk (l.lockedUntil + 1)
  have hexp : expiredRow (w.shared.locks.filter fun l' =>
      decide (l'.lockedUntil < w.shared.now + (l.lockedUntil + 1))) t =
      { t with status := .failed, activeKey := none, error := "task lease expired" } := by
    refine if_pos ?_
    rw [Bool.and_eq_true, beq_iff_eq, List.any_eq_true]
    refine ⟨hr, l, mem_filter.2 ⟨hl, decide_eq_true ?_⟩, by rw [hid, beq_self_eq_true]⟩
    omega
  refine ⟨l.lockedUntil + 1, n, ?_, ?_⟩
  · rw [hn]
    exact mem_map.2 ⟨t, ht, hexp⟩
  rw [hn]
  intro u hu hkey
  obtain ⟨v, hv, rfl⟩ := mem_map.1 hu
  -- the row with the key was active before, so it is `t`, which is failed now
  have hkeyv : v.activeKey = some t.type := by
    unfold expiredRow at hkey
    split at hkey
    · cases hkey
    · exact hkey
  have hact : v.status.active = true ∧ v.type = t.type := by
    rw [hw.keys v hv] at hkeyv
    split at hkeyv
    · rename_i ha
      exact ⟨ha, Option.some.inj hkeyv⟩
    · cases hkeyv
  have hvt : v = t := hw.eq_of_type hv ht hact.1 (by rw [hr]; rfl) hact.2
  rw [hvt, hexp] at hkey
  cases hkey

/-! ## The lease -/

/-- A step of `i` that changes `state` or `result` of a task is a guarded write of
    a runner whose lock row names the task, unexpired at the time the write
    compares with; in a timely step that is the clock's. -/
def WrittenByHolder (w : Workers TaskDB ι TaskPhase) (i : ι) (a : TaskAct) : Prop :=
  ∀ t ∈ w.shared.tasks, ∀ t' ∈ (w.step (taskStep runner) (i, a)).shared.tasks,
    t'.taskID = t.taskID → t'.state ≠ t.state ∨ t'.result ≠ t.result →
    ∃ lockedBy now, (w.proc i).writer = some (t.taskID, lockedBy, now) ∧
      (∃ l ∈ w.shared.locks, l.taskID = t.taskID ∧ l.lockedBy = lockedBy ∧
        now ≤ l.lockedUntil) ∧
      (Timely w (i, a) → now = w.shared.now)

omit [DecidableEq ι] in
theorem timely_writer {taskID lockedBy : String} {now : Nat}
    (h : φ.Timely db) (hw : φ.writer = some (taskID, lockedBy, now)) : now = db.now := by
  cases φ with
  | stateWrite taskID' lockedBy' state now'
  | finishWrite taskID' lockedBy' succeeded result error now' =>
    obtain rfl : now' = now := congrArg (fun p => p.2.2) (Option.some.inj hw)
    exact h
  | _ => cases hw

theorem step_written (hw : w.shared.Wf) (i : ι) (a : TaskAct) : WrittenByHolder runner w i a := by
  intro t ht t' ht' hid hne
  rw [Workers.step_shared] at ht'
  have hsame : t' ∉ w.shared.tasks := by
    intro hold
    rw [hw.eq_of_taskID hold ht hid] at hne
    rcases hne with hne | hne <;> exact hne rfl
  cases a with
  | next dbFails =>
    obtain ⟨rfl, lockedBy, now, hwr, hl⟩ := next_written hw ht ht' hid hne
    exact ⟨lockedBy, now, hwr, hl, fun htm => timely_writer (htm rfl) hwr⟩
  | tick d | begin op => exact absurd ht' hsame
  | finish =>
    unfold taskStep at ht'
    dsimp only at ht'
    split at ht' <;> exact absurd ht' hsame

variable {runner}

/-- **The lease.**  In every run, whatever stalls: a type has one pending or
    running task, a finished task stays as it is, and `state` and `result` are
    written under the writer's lock.  In a run whose steps are timely every
    running task is named by the lock of its type, so that once its runner is
    gone an expiry pass fails it and frees the type. -/
theorem system_task_lease (runner : ι → String) (hinj : Function.Injective runner)
    (start : Nat) (as : List (ι × TaskAct)) (w : Workers TaskDB ι TaskPhase)
    (hrun : w = run (Workers.step (taskStep runner)) (TaskDB.fresh start) as) :
    (∀ t ∈ w.shared.tasks, ∀ u ∈ w.shared.tasks, t.status.active = true →
      u.status.active = true → t.type = u.type → t = u) ∧
    (∀ t ∈ w.shared.tasks, t.status.active = false → ∀ bs,
      t ∈ (run (Workers.step (taskStep runner)) w bs).shared.tasks ∧
      ∀ t' ∈ (run (Workers.step (taskStep runner)) w bs).shared.tasks,
        t'.taskID = t.taskID → t' = t) ∧
    (∀ i a, WrittenByHolder runner w i a) ∧
    (Meets Timely (Workers.step (taskStep runner)) (TaskDB.fresh start) as →
      ∀ t ∈ w.shared.tasks, t.status = .running →
        (∃ l ∈ w.shared.locks, l.type = t.type ∧ l.taskID = t.taskID ∧
          l.lockedBy = t.lockedBy) ∧
        ∀ k, w.proc k = .idle → ∃ d n,
          { t with status := .failed, activeKey := none, error := "task lease expired" } ∈
            (run (Workers.step (taskStep runner)) w (expireAlone k d n)).shared.tasks ∧
          ∀ u ∈ (run (Workers.step (taskStep runner)) w (expireAlone k d n)).shared.tasks,
            u.activeKey ≠ some t.type) := by
  have hw : w.shared.Wf := by
    rw [hrun]
    exact run_wf runner start as
  refine ⟨?_, ?_, fun i a => step_written runner hw i a, ?_⟩
  · exact fun t ht u hu hat hau hty => hw.eq_of_type ht hu hat hau hty
  · intro t ht hd bs
    have hmem := run_mem_of_finished runner bs ht hd
    refine ⟨hmem, fun t' ht' hid => ?_⟩
    have hw' : (run (Workers.step (taskStep runner)) w bs).shared.Wf := by
      rw [hrun, ← run_append]
      exact run_wf runner start (as ++ bs)
    exact hw'.eq_of_taskID ht' hmem hid
  intro has t ht hr
  have hleased := run_leased hinj start has
  rw [← hrun] at hleased
  obtain ⟨l, hl, hty, hid, hby⟩ := hleased t ht hr
  exact ⟨⟨l, hl, hty, hid, hby⟩, fun k hk => expire_frees runner hw ht hr hl hid hk⟩

/-! ## A claim that stalls, and one that does not -/

/-- Runner `false` claims the task just created and crashes when it runs. -/
def crashedRun : List (Bool × TaskAct) :=
  [(false, .begin (.create "log_cleanup" "t1" "null")), (false, .next false), (false, .finish),
    (false, .begin (.claim 0 "log_cleanup" 160)), (false, .next false), (false, .next false),
    (false, .next false)]

/-- Runner `false` stalls with the lock in hand until an expiry pass of runner
    `true` has deleted it, and then sets the task running. -/
def stalledClaimRun : List (Bool × TaskAct) :=
  [(false, .begin (.create "log_cleanup" "t1" "null")), (false, .next false), (false, .finish),
    (false, .begin (.claim 0 "log_cleanup" 160)), (false, .next false), (false, .next false),
    (true, .tick 61), (true, .begin .expire), (true, .next false), (true, .next false),
    (true, .next false), (true, .next false), (true, .finish), (false, .next false),
    (false, .next false), (false, .finish)]

def runnerName : Bool → String
  | false => "node-a"
  | true => "node-b"

theorem runnerName_injective : Function.Injective runnerName := by
  decide

def stalledClaimEnd : Workers TaskDB Bool TaskPhase :=
  run (Workers.step (taskStep runnerName)) (TaskDB.fresh 100) stalledClaimRun

/-- Nobody is calling, the task runs, no lock row is left, and a further expiry
    pass does not see it. -/
theorem stalledClaim_leaves_unlocked_task :
    stalledClaimEnd.proc false = .idle ∧ stalledClaimEnd.proc true = .idle ∧
    stalledClaimEnd.shared.locks = [] ∧
    (∃ t ∈ stalledClaimEnd.shared.tasks, t.status = .running ∧
      ¬∃ l ∈ stalledClaimEnd.shared.locks, l.taskID = t.taskID) ∧
    (run (Workers.step (taskStep runnerName)) stalledClaimEnd
      (expireAlone true 3600 1)).shared.tasks = stalledClaimEnd.shared.tasks := by
  decide +kernel

theorem crashedRun_task_expires :
    Meets Timely (Workers.step (taskStep runnerName)) (TaskDB.fresh 100) crashedRun ∧
    ∃ t ∈ (run (Workers.step (taskStep runnerName)) (TaskDB.fresh 100) crashedRun).shared.tasks,
      t.status = .running ∧
      ∃ l ∈ (run (Workers.step (taskStep runnerName)) (TaskDB.fresh 100) crashedRun).shared.locks,
        l.type = t.type ∧ l.taskID = t.taskID ∧ l.lockedBy = t.lockedBy := by
  have has : Meets Timely (Workers.step (taskStep runnerName)) (TaskDB.fresh 100) crashedRun := by
    decide +kernel
  have hrunning : ∃ t ∈ (run (Workers.step (taskStep runnerName)) (TaskDB.fresh 100)
      crashedRun).shared.tasks, t.status = .running := by
    decide +kernel
  obtain ⟨t, ht, hr⟩ := hrunning
  have hlease := system_task_lease runnerName runnerName_injective 100 crashedRun _ rfl
  exact ⟨has, t, ht, hr, (hlease.2.2.2 has t ht hr).1⟩

end NewApi.SystemTasks
