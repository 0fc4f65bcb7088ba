/-
  NewApi.SystemTasks.LeaseTables

  What the two tables promise whatever the schedule, statement by statement.

  `TasksMove` and `LocksMove` say once what a statement can do to each table.
  From them: the unique index on `active_key` keeps one pending or running task
  for each type (`TaskDB.Wf`), and no statement touches a finished task.
  `next_written` adds that `state` and `result` change only under a lock row of
  the writer, unexpired at the time the writer's call read the clock.
-/

import NewApi.SystemTasks.Lease

namespace NewApi.SystemTasks

open List (map_map mem_append mem_map mem_singleton)
open NewApi.Lib

/-! ## The unique indexes -/

def Status.active : Status → Bool
  | .pending | .running => true
  | .succeeded | .failed => false

structure TaskDB.Wf (db : TaskDB) : Prop where
  keys : ∀ t ∈ db.tasks, t.activeKey = if t.status.active then some t.type else none
  taskIDs : (db.tasks.map (·.taskID)).Nodup
  actives : ∀ t ∈ db.tasks, ∀ u ∈ db.tasks, t.status.active = true → u.status.active = true →
    t.type = u.type → t.taskID = u.taskID
  types : (db.locks.map (·.type)).Nodup

namespace TaskDB

theorem Wf.eq_of_taskID {db : TaskDB} (h : db.Wf) {t u : SystemTask} (ht : t ∈ db.tasks)
    (hu : u ∈ db.tasks) (he : t.taskID = u.taskID) : t = u :=
  List.inj_on_of_nodup_map h.taskIDs ht hu he

theorem Wf.eq_of_type {db : TaskDB} (h : db.Wf) {t u : SystemTask} (ht : t ∈ db.tasks)
    (hu : u ∈ db.tasks) (hat : t.status.active = true) (hau : u.status.active = true)
    (he : t.type = u.type) : t = u :=
  h.eq_of_taskID ht hu (h.actives t ht u hu hat hau he)

theorem Wf.lock_eq {db : TaskDB} (h : db.Wf) {l m : SystemTaskLock} (hl : l ∈ db.locks)
    (hm : m ∈ db.locks) (he : l.type = m.type) : l = m :=
  List.inj_on_of_nodup_map h.types hl hm he

end TaskDB

/-- What a statement can do to a task row. -/
inductive RowMove : SystemTask → SystemTask → Prop
  | write {t : SystemTask} (h : t.status = .running) (state : String) :
      RowMove t { t with state := state }
  | close {t : SystemTask} (h : t.status = .running) (status : Status)
      (hs : status.active = false) (result error : String) :
      RowMove t { t with status := status, activeKey := none, result := result, error := error }
  | run {t : SystemTask} (h : t.status = .pending) (lockedBy : String) :
      RowMove t { t with status := .running, lockedBy := lockedBy }

variable {t t' : SystemTask}

theorem RowMove.frame (h : RowMove t t') :
    t'.taskID = t.taskID ∧ t'.type = t.type ∧ t.status.active = true ∧
      (t'.activeKey = t.activeKey ∨ t'.activeKey = none) := by
  cases h with
  | write h state | run h lockedBy => exact ⟨rfl, rfl, by rw [h]; rfl, Or.inl rfl⟩
  | close h status hs result error => exact ⟨rfl, rfl, by rw [h]; rfl, Or.inr rfl⟩

theorem RowMove.keys (h : RowMove t t')
    (hk : t.activeKey = if t.status.active then some t.type else none) :
    t'.activeKey = if t'.status.active then some t'.type else none := by
  cases h with
  | write h state => exact hk
  | close h status hs result error =>
    change none = if status.active then some t.type else none
    rw [hs]
    rfl
  | run h lockedBy =>
    rw [h] at hk
    exact hk

/-- Every statement of a call leaves the task table, adds a pending row of a
    type that has no active one, or moves some rows. -/
inductive TasksMove (db : TaskDB) : List SystemTask → Prop
  | same : TasksMove db db.tasks
  | create (t : SystemTask) (hs : t.status = .pending) (hk : t.activeKey = some t.type)
      (hid : ∀ u ∈ db.tasks, u.taskID ≠ t.taskID)
      (hkey : ∀ u ∈ db.tasks, u.activeKey ≠ some t.type) : TasksMove db (db.tasks ++ [t])
  | update (p : SystemTask → Bool) (f : SystemTask → SystemTask)
      (h : ∀ t, p t = true → RowMove t (f t)) :
      TasksMove db (db.tasks.map fun t => if p t then f t else t)

/-- … and leaves the lock table, adds a row of a type that has none, changes
    rows under their types or deletes rows. -/
inductive LocksMove (db : TaskDB) : List SystemTaskLock → Prop
  | same : LocksMove db db.locks
  | insert (l : SystemTaskLock) (h : ∀ m ∈ db.locks, m.type ≠ l.type) :
      LocksMove db (db.locks ++ [l])
  | update (p : SystemTaskLock → Bool) (f : SystemTaskLock → SystemTaskLock)
      (h : ∀ l, (f l).type = l.type) : LocksMove db (db.locks.map fun l => if p l then f l else l)
  | delete (p : SystemTaskLock → Bool) : LocksMove db (db.locks.filter p)

variable {db : TaskDB} {taskID : String}

theorem insertTask_some {db' : TaskDB} {taskType state : String}
    (h : db.insertTask taskType taskID state = some db') :
    (∀ t ∈ db.tasks, t.taskID ≠ taskID) ∧ (∀ t ∈ db.tasks, t.activeKey ≠ some taskType) ∧
      db' = { db with tasks := db.tasks ++
        [{ id := db.tasks.length, taskID := taskID, type := taskType, status := .pending,
           activeKey := some taskType, state := state, result := "", error := "",
           lockedBy := "" }] } := by
  unfold TaskDB.insertTask at h
  split at h
  · cases h
  rename_i hn
  rw [List.any_eq_true] at hn
  refine ⟨fun t ht he => hn ⟨t, ht, ?_⟩, fun t ht he => hn ⟨t, ht, ?_⟩, (Option.some.inj h).symm⟩
  · simp [he]
  · simp [he]

theorem insertLock_some {db' : TaskDB} {l : SystemTaskLock} (h : db.insertLock l = some db') :
    (∀ m ∈ db.locks, m.type ≠ l.type) ∧ db' = { db with locks := db.locks ++ [l] } := by
  unfold TaskDB.insertLock at h
  split at h
  · cases h
  rename_i hn
  rw [List.any_eq_true] at hn
  exact ⟨fun m hm he => hn ⟨m, hm, by simp [he]⟩, (Option.some.inj h).symm⟩

theorem pendingRow_iff {id : Nat} {taskType : String} :
    pendingRow id taskType t = true ↔ t.id = id ∧ t.type = taskType ∧ t.status = .pending := by
  simp [pendingRow, and_assoc]

variable {lockedBy : String} {now : Nat}

theorem holdsLock_iff : db.holdsLock taskID lockedBy now = true ↔
      ∃ l ∈ db.locks, l.taskID = taskID ∧ l.lockedBy = lockedBy ∧ now ≤ l.lockedUntil := by
  simp [TaskDB.holdsLock, and_assoc]

theorem ownedRunning_iff : ownedRunning db taskID lockedBy now t = true ↔
      t.taskID = taskID ∧ t.status = .running ∧ t.lockedBy = lockedBy ∧
        ∃ l ∈ db.locks, l.taskID = taskID ∧ l.lockedBy = lockedBy ∧ now ≤ l.lockedUntil := by
  unfold ownedRunning
  simp only [Bool.and_eq_true, beq_iff_eq, holdsLock_iff, and_assoc]
  constructor
  · rintro ⟨rfl, h⟩
    exact ⟨rfl, h⟩
  · rintro ⟨rfl, h⟩
    exact ⟨rfl, h⟩

/-! ## One statement -/

theorem TasksMove.mark (db : TaskDB) (taskID : String) :
    TasksMove db (markSystemTaskLeaseExpired db taskID).tasks := by
  refine .update _ _ fun t ht => ?_
  rw [Bool.and_eq_true, beq_iff_eq, beq_iff_eq] at ht
  exact .close ht.2 .failed rfl t.result _

variable {f : SystemTask → SystemTask}

theorem TasksMove.owned (db : TaskDB) (hf : ∀ t, t.status = .running → RowMove t (f t)) :
    TasksMove db (db.update (ownedRunning db taskID lockedBy now) f).tasks := by
  refine .update _ _ fun t ht => ?_
  exact hf t (ownedRunning_iff.1 ht).2.1

def TaskPhase.writesTasks : TaskPhase → Bool
  | .createRow .. | .claimMark .. | .claimRun .. | .stateWrite .. | .finishWrite .. => true
  | .expireMark .. => true
  | _ => false

def TaskPhase.writesLocks : TaskPhase → Bool
  | .claimInsert .. | .claimTake .. | .claimRelease .. | .renewLock .. | .finishRelease .. => true
  | .expireDelete .. => true
  | _ => false

variable (runnerID : String)

theorem next_tasks_eq (db : TaskDB) (dbFails : Bool) {φ : TaskPhase}
    (h : φ.writesTasks = false) : (φ.next runnerID db dbFails).1.tasks = db.tasks := by
  unfold TaskPhase.next
  cases φ with
  | createRow | claimMark | claimRun | stateWrite | finishWrite | expireMark => cases h
  | claimInsert c =>
    dsimp only
    split
    · rename_i db' hdb'
      split at hdb'
      · cases hdb'
      · rw [(insertLock_some hdb').2]
    · rfl
  | claimRelease c o => cases dbFails <;> rfl
  | _ =>
    dsimp only
    repeat' split
    all_goals rfl

theorem next_locks_eq (db : TaskDB) (dbFails : Bool) {φ : TaskPhase}
    (h : φ.writesLocks = false) : (φ.next runnerID db dbFails).1.locks = db.locks := by
  unfold TaskPhase.next
  cases φ with
  | claimInsert | claimTake | claimRelease | renewLock | finishRelease | expireDelete => cases h
  | createRow taskType taskID state =>
    dsimp only
    split
    · rfl
    split
    · rename_i db' hdb'
      rw [(insertTask_some hdb').2.2]
    · rfl
  | _ =>
    dsimp only
    repeat' split
    all_goals rfl

theorem next_tasks (db : TaskDB) (dbFails : Bool) (φ : TaskPhase) :
    TasksMove db (φ.next runnerID db dbFails).1.tasks := by
  cases φ with
  | createRow taskType taskID state =>
    unfold TaskPhase.next
    dsimp only
    split
    · exact .same
    split
    · rename_i db' hdb'
      obtain ⟨hid, hkey, rfl⟩ := insertTask_some hdb'
      exact .create _ rfl rfl hid hkey
    · exact .same
  | claimMark c old =>
    unfold TaskPhase.next
    dsimp only
    split
    · exact .same
    · exact .mark db old
  | claimRun c =>
    unfold TaskPhase.next
    dsimp only
    split
    · exact .same
    split
    · exact .same
    · exact .update _ _ fun t ht => .run (pendingRow_iff.1 ht).2.2 _
  | stateWrite taskID lockedBy state now =>
    unfold TaskPhase.next
    dsimp only
    split
    · exact .same
    · exact .owned db fun t ht => .write ht state
  | finishWrite taskID lockedBy succeeded result error now =>
    unfold TaskPhase.next
    dsimp only
    split
    · exact .same
    split
    · exact .same
    · refine .owned db fun t ht => .close ht _ ?_ result error
      cases succeeded <;> rfl
  | expireMark now locks =>
    unfold TaskPhase.next
    dsimp only
    split
    · exact .same
    split
    · exact .same
    · exact .mark db _
  | _ =>
    rw [next_tasks_eq _ _ _ rfl]
    exact .same

theorem next_locks (db : TaskDB) (dbFails : Bool) (φ : TaskPhase) :
    LocksMove db (φ.next runnerID db dbFails).1.locks := by
  cases φ with
  | claimInsert c =>
    unfold TaskPhase.next
    dsimp only
    split
    · rename_i db' hdb'
      split at hdb'
      · cases hdb'
      · obtain ⟨htype, rfl⟩ := insertLock_some hdb'
        exact .insert _ htype
    · exact .same
  | claimTake c old =>
    unfold TaskPhase.next
    dsimp only
    split
    · exact .same
    split
    · exact .update _ _ fun _ => rfl
    · exact .same
  | renewLock taskID lockedBy lockUntil now =>
    unfold TaskPhase.next
    dsimp only
    split
    · exact .same
    · exact .update _ _ fun _ => rfl
  | claimRelease | finishRelease | expireDelete =>
    unfold TaskPhase.next
    dsimp only
    split
    · exact .same
    · exact .delete _
  | _ =>
    rw [next_locks_eq _ _ _ rfl]
    exact .same

theorem next_now (db : TaskDB) (dbFails : Bool) (φ : TaskPhase) :
    (φ.next runnerID db dbFails).1.now = db.now := by
  unfold TaskPhase.next
  cases φ with
  | createRow taskType taskID state =>
    dsimp only
    split
    · rfl
    split
    · rename_i db' hdb'
      rw [(insertTask_some hdb').2.2]
    · rfl
  | claimInsert c =>
    dsimp only
    split
    · rename_i db' hdb'
      split at hdb'
      · cases hdb'
      · rw [(insertLock_some hdb').2]
    · rfl
  | _ => dsimp only; repeat' split
         all_goals rfl

theorem TasksMove.wf {tasks : List SystemTask} (h : db.Wf)
    (hm : TasksMove db tasks) : TaskDB.Wf { db with tasks := tasks } := by
  cases hm with
  | same => exact h
  | create t hs hk hid hkey =>
    have hnew : ∀ u ∈ db.tasks, u.status.active = true → u.type ≠ t.type := by
      intro u hu ha he
      refine hkey u hu ?_
      rw [h.keys u hu, if_pos ha, he]
    refine ⟨?_, ?_, ?_, h.types⟩
    · intro u hu
      rcases mem_append.1 hu with hu | hu
      · exact h.keys u hu
      · rw [mem_singleton.1 hu, hs, hk]
        rfl
    · change ((db.tasks ++ [t]).map (·.taskID)).Nodup
      rw [List.map_append, List.map_singleton, List.nodup_append]
      refine ⟨h.taskIDs, List.nodup_singleton _, ?_⟩
      intro a ha b hb he
      obtain ⟨u, hu, rfl⟩ := mem_map.1 ha
      exact hid u hu (he.trans (mem_singleton.1 hb))
    intro u hu v hv hau hav he
    rcases mem_append.1 hu with hu | hu <;> rcases mem_append.1 hv with hv | hv
    · exact h.actives u hu v hv hau hav he
    · rw [mem_singleton.1 hv] at he
      exact absurd he (hnew u hu hau)
    · rw [mem_singleton.1 hu] at he
      exact absurd he.symm (hnew v hv hav)
    · rw [mem_singleton.1 hu, mem_singleton.1 hv]
  | update p f hf =>
    have hrow : ∀ t, (if p t then f t else t).taskID = t.taskID ∧
        (if p t then f t else t).type = t.type ∧
        ((if p t then f t else t).status.active = true → t.status.active = true) := by
      intro t
      by_cases hp : p t = true
      · obtain ⟨h1, h2, h3, -⟩ := (hf t hp).frame
        rw [if_pos hp]
        exact ⟨h1, h2, fun _ => h3⟩
      · rw [if_neg hp]
        exact ⟨rfl, rfl, id⟩
    refine ⟨?_, ?_, ?_, h.types⟩
    · intro u hu
      obtain ⟨t, ht, rfl⟩ := mem_map.1 hu
      by_cases hp : p t = true
      · rw [if_pos hp]
        exact (hf t hp).keys (h.keys t ht)
      · rw [if_neg hp]
        exact h.keys t ht
    · change ((db.tasks.map fun t => if p t then f t else t).map (·.taskID)).Nodup
      rw [map_map]
      have hcomp : (SystemTask.taskID ∘ fun t => if p t then f t else t) = (·.taskID) :=
        funext fun t => (hrow t).1
      rw [hcomp]
      exact h.taskIDs
    intro u hu v hv hau hav he
    obtain ⟨t, ht, rfl⟩ := mem_map.1 hu
    obtain ⟨s, hs, rfl⟩ := mem_map.1 hv
    rw [(hrow t).1, (hrow s).1]
    rw [(hrow t).2.1, (hrow s).2.1] at he
    exact h.actives t ht s hs ((hrow t).2.2 hau) ((hrow s).2.2 hav) he

theorem LocksMove.types {locks : List SystemTaskLock} (h : db.Wf)
    (hm : LocksMove db locks) : (locks.map (·.type)).Nodup := by
  cases hm with
  | same => exact h.types
  | insert l hl =>
    rw [List.map_append, List.map_singleton, List.nodup_append]
    refine ⟨h.types, List.nodup_singleton _, ?_⟩
    intro a ha b hb he
    obtain ⟨m, hm, rfl⟩ := mem_map.1 ha
    exact hl m hm (he.trans (mem_singleton.1 hb))
  | update p f hf =>
    rw [map_map]
    have hcomp : (SystemTaskLock.type ∘ fun l => if p l then f l else l) = (·.type) := by
      funext l
      by_cases hp : p l = true
      · simp only [Function.comp_apply, if_pos hp, hf]
      · simp only [Function.comp_apply, if_neg hp]
    rw [hcomp]
    exact h.types
  | delete p => exact h.types.sublist (List.filter_sublist.map _)

theorem TasksMove.mem_of_finished {tasks : List SystemTask}
    (hm : TasksMove db tasks) (ht : t ∈ db.tasks) (hd : t.status.active = false) : t ∈ tasks := by
  cases hm with
  | same => exact ht
  | create u hs hk hid hkey => exact List.mem_append_left _ ht
  | update p f hf =>
    refine mem_map.2 ⟨t, ht, if_neg ?_⟩
    intro hp
    rw [(hf t hp).frame.2.2.1] at hd
    cases hd

variable {ι : Type*}

theorem taskStep_wf (runner : ι → String) (i : ι) (φ : TaskPhase) (a : TaskAct)
    (h : db.Wf) : (taskStep runner i db φ a).1.Wf := by
  cases a with
  | next dbFails =>
    have hw := TasksMove.wf h (next_tasks (runner i) db dbFails φ)
    exact ⟨hw.keys, hw.taskIDs, hw.actives, (next_locks (runner i) db dbFails φ).types h⟩
  | tick d => exact ⟨h.keys, h.taskIDs, h.actives, h.types⟩
  | begin op => exact h
  | finish =>
    unfold taskStep
    dsimp only
    split <;> exact h

theorem taskStep_mem_of_finished (runner : ι → String) (i : ι) (φ : TaskPhase)
    (a : TaskAct) (ht : t ∈ db.tasks) (hd : t.status.active = false) :
    t ∈ (taskStep runner i db φ a).1.tasks := by
  cases a with
  | next dbFails => exact (next_tasks (runner i) db dbFails φ).mem_of_finished ht hd
  | tick d => exact ht
  | begin op => exact ht
  | finish =>
    unfold taskStep
    dsimp only
    split <;> exact ht

/-! ## Who writes state and result -/

def TaskPhase.writer : TaskPhase → Option (String × String × Nat)
  | .stateWrite taskID lockedBy _ now => some (taskID, lockedBy, now)
  | .finishWrite taskID lockedBy _ _ _ now => some (taskID, lockedBy, now)
  | _ => none

section
variable (h : db.Wf) (ht : t ∈ db.tasks)
include h ht

theorem TaskDB.Wf.update_row {p : SystemTask → Bool} (ht' : t' ∈ (db.update p f).tasks)
    (he : t'.taskID = t.taskID) (hf : ∀ u, (f u).taskID = u.taskID) : t' = if p t then f t else t := by
  obtain ⟨u, hu, rfl⟩ := mem_map.1 ht'
  have hid : (if p u then f u else u).taskID = u.taskID := by
    split
    · exact hf u
    · rfl
  rw [hid] at he
  rw [h.eq_of_taskID hu ht he]

theorem TaskDB.Wf.update_keeps {p : SystemTask → Bool} (ht' : t' ∈ (db.update p f).tasks)
    (he : t'.taskID = t.taskID)
    (hf : ∀ u, (f u).taskID = u.taskID ∧ (f u).state = u.state ∧ (f u).result = u.result) :
    t'.state = t.state ∧ t'.result = t.result := by
  rw [h.update_row ht ht' he fun u => (hf u).1]
  split
  · exact (hf t).2
  · exact ⟨rfl, rfl⟩

theorem TaskDB.Wf.update_owned
    (ht' : t' ∈ (db.update (ownedRunning db taskID lockedBy now) f).tasks)
    (he : t'.taskID = t.taskID) (hne : t' ≠ t) (hf : ∀ u, (f u).taskID = u.taskID) :
    t.taskID = taskID ∧
      ∃ l ∈ db.locks, l.taskID = t.taskID ∧ l.lockedBy = lockedBy ∧ now ≤ l.lockedUntil := by
  have hrow := h.update_row ht ht' he hf
  split at hrow
  · rename_i hp
    obtain ⟨rfl, -, -, hl⟩ := ownedRunning_iff.1 hp
    exact ⟨rfl, hl⟩
  · exact absurd hrow hne

theorem next_written {runnerID : String} {dbFails : Bool} {φ : TaskPhase}
    (ht' : t' ∈ (φ.next runnerID db dbFails).1.tasks) (he : t'.taskID = t.taskID)
    (hne : t'.state ≠ t.state ∨ t'.result ≠ t.result) :
    dbFails = false ∧ ∃ lockedBy now, φ.writer = some (t.taskID, lockedBy, now) ∧
      ∃ l ∈ db.locks, l.taskID = t.taskID ∧ l.lockedBy = lockedBy ∧ now ≤ l.lockedUntil := by
  have hsame : t' ∉ db.tasks := by
    intro hold
    rw [h.eq_of_taskID hold ht he] at hne
    rcases hne with hne | hne <;> exact hne rfl
  have hkept : ¬(t'.state = t.state ∧ t'.result = t.result) := by
    rintro ⟨h1, h2⟩
    rcases hne with hne | hne
    · exact hne h1
    · exact hne h2
  have hrow : t' ≠ t := fun heq => hsame (heq ▸ ht)
  cases dbFails with
  | true =>
    refine absurd ?_ hsame
    cases φ with
    | createRow | claimMark | claimRun | stateWrite | finishWrite => exact ht'
    | expireMark now locks => cases locks <;> exact ht'
    | _ =>
      rw [next_tasks_eq _ _ _ rfl] at ht'
      exact ht'
  | false =>
  refine ⟨rfl, ?_⟩
  cases φ with
  | createRow taskType taskID state =>
    unfold TaskPhase.next at ht'
    dsimp only at ht'
    rw [if_neg Bool.false_ne_true] at ht'
    split at ht'
    · rename_i db' hdb'
      obtain ⟨hid, -, rfl⟩ := insertTask_some hdb'
      rcases mem_append.1 ht' with ht' | ht'
      · exact absurd ht' hsame
      · rw [mem_singleton.1 ht'] at he
        exact absurd he.symm (hid t ht)
    · exact absurd ht' hsame
  | claimMark c old => exact absurd (h.update_keeps ht ht' he fun _ => ⟨rfl, rfl, rfl⟩) hkept
  | claimRun c =>
    unfold TaskPhase.next at ht'
    dsimp only at ht'
    rw [if_neg Bool.false_ne_true] at ht'
    split at ht'
    · exact absurd ht' hsame
    · exact absurd (h.update_keeps ht ht' he fun _ => ⟨rfl, rfl, rfl⟩) hkept
  | stateWrite taskID lockedBy state now =>
    obtain ⟨rfl, hl⟩ := h.update_owned ht ht' he hrow fun _ => rfl
    exact ⟨lockedBy, now, rfl, hl⟩
  | finishWrite taskID lockedBy succeeded result error now =>
    unfold TaskPhase.next at ht'
    dsimp only at ht'
    rw [if_neg Bool.false_ne_true] at ht'
    split at ht'
    · exact absurd ht' hsame
    · obtain ⟨rfl, hl⟩ := h.update_owned ht ht' he hrow fun _ => rfl
      exact ⟨lockedBy, now, rfl, hl⟩
  | expireMark now locks =>
    cases locks with
    | nil => exact absurd ht' hsame
    | cons l locks => exact absurd (h.update_keeps ht ht' he fun _ => ⟨rfl, rfl, rfl⟩) hkept
  | _ =>
    rw [next_tasks_eq _ _ _ rfl] at ht'
    exact absurd ht' hsame

end

end NewApi.SystemTasks
