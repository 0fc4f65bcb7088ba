/-
  NewApi.Quota.Conservation

  The batch updater loses no delta of its own accord and applies none twice.

  `balance` adds up where the deltas of one type and id can be: in the row, in
  the queue, in a flush, in the two ghosts.  One step moves an amount from one
  place to the next, so over a run the balance changes by what the run records
  (`balance_run`).  `Draining` is what holds from a `StopBatchUpdater` call on
  when nothing more is recorded; the call returns with the queue and the flushes
  empty.
-/

import NewApi.Quota.Batch

namespace NewApi.Quota.Batch

open Function (update_of_ne update_self)
open NewApi.Lib

/-! ## Flushes -/

@[simp] theorem heldBy_applyNext (t : BatchType) (id : Int) (jobs : List Job) :
    heldBy t id (applyNext jobs) = (jobs.map fun job => job.carries t id).sum := by
  cases jobs with
  | nil => rfl
  | cons job jobs => rfl

@[simp] theorem heldBy_swapNext (t : BatchType) (id : Int) (todo : List BatchType)
    (stores : BatchType → Store) (h : Unswapped todo stores) :
    heldBy t id (swapNext todo stores h) = ((stores t).value id).toInt := by
  cases todo with
  | nil =>
    show heldBy t id (applyNext (rowUpdates stores)) = _
    rw [heldBy_applyNext, sum_rowUpdates]
  | cons t' todo => rfl

@[simp] theorem held_start (t : BatchType) (id : Int) : Flush.start.held t id = 0 := by
  simp [Flush.start, Flush.held]

@[simp] theorem setFlush_stores (s : State) (who : Flusher) (f : Option Flush) :
    (s.setFlush who f).stores = s.stores := by
  unfold State.setFlush
  split <;> split <;> rfl

@[simp] theorem setFlush_db (s : State) (who : Flusher) (f : Option Flush) :
    (s.setFlush who f).db = s.db := by
  unfold State.setFlush
  split <;> split <;> rfl

@[simp] theorem setFlush_missed (s : State) (who : Flusher) (f : Option Flush) :
    (s.setFlush who f).missed = s.missed := by
  unfold State.setFlush
  split <;> split <;> rfl

@[simp] theorem setFlush_cut (s : State) (who : Flusher) (f : Option Flush) :
    (s.setFlush who f).cut = s.cut := by
  unfold State.setFlush
  split <;> split <;> rfl

variable {s : State}

theorem flush_setFlush_self {who : Flusher} {g : Flush} (h : s.flush who = some g)
    (f : Option Flush) : (s.setFlush who f).flush who = f := by
  obtain ⟨stores, db, worker, stopper, missed, cut⟩ := s
  cases who with
  | worker =>
    cases worker with
    | flushing c g' => cases f <;> rfl
    | _ => cases h
  | stopper =>
    cases stopper with
    | flushing g' => cases f <;> rfl
    | _ => cases h

theorem flush_setFlush_ne (s : State) {who who' : Flusher} (h : who' ≠ who) (f : Option Flush) :
    (s.setFlush who f).flush who' = s.flush who' := by
  cases who with
  | worker =>
    cases who' with
    | worker => exact absurd rfl h
    | stopper =>
      simp only [State.setFlush]
      split <;> rfl
  | stopper =>
    cases who' with
    | worker =>
      simp only [State.setFlush]
      split <;> rfl
    | stopper => exact absurd rfl h

theorem inFlush_setFlush {who : Flusher} {g : Flush} (h : s.flush who = some g)
    (f : Option Flush) (t : BatchType) (id : Int) :
    (s.setFlush who f).inFlush t id + g.held t id = s.inFlush t id + heldBy t id f := by
  have hself := flush_setFlush_self h f
  have hheld : heldBy t id (s.flush who) = g.held t id := by rw [h]; rfl
  cases who with
  | worker =>
    have hother := flush_setFlush_ne s (show Flusher.stopper ≠ .worker by decide) f
    simp only [State.inFlush, hself, hother, hheld]
    omega
  | stopper =>
    have hother := flush_setFlush_ne s (show Flusher.worker ≠ .stopper by decide) f
    simp only [State.inFlush, hself, hother, hheld]
    omega

variable (s)

section
variable (job : Job) (ok : Bool)
include job ok

@[simp] theorem flush_update (who : Flusher) : (s.update job ok).flush who = s.flush who := by
  cases ok <;> rfl

@[simp] theorem update_stores : (s.update job ok).stores = s.stores := by
  cases ok <;> rfl

@[simp] theorem update_cut : (s.update job ok).cut = s.cut := by
  cases ok <;> rfl

theorem update_db_add_missed (t : BatchType) (id : Int) :
    (s.update job ok).db t.column id + (s.update job ok).missed t id =
      s.db t.column id + s.missed t id + job.carries t id := by
  cases ok with
  | true =>
    show job.write s.db t.column id + s.missed t id = _
    rw [write_column]
    omega
  | false =>
    show s.db t.column id + (s.missed t id + job.carries t id) = _
    omega

end

theorem sum_eraseIdx {jobs : List Job} {n : Nat} {job : Job} (h : jobs[n]? = some job)
    (t : BatchType) (id : Int) :
    ((jobs.eraseIdx n).map fun job => job.carries t id).sum + job.carries t id =
      (jobs.map fun job => job.carries t id).sum := by
  induction jobs generalizing n with
  | nil => simp at h
  | cons j jobs ih =>
    cases n with
    | zero =>
      obtain rfl : j = job := by simpa using h
      simp [add_comm]
    | succ n =>
      have h' : jobs[n]? = some job := by simpa using h
      rw [List.eraseIdx_cons_succ, List.map_cons, List.map_cons, List.sum_cons, List.sum_cons,
        ← ih h']
      omega

/-! ## One step, and a run -/

theorem balance_add (t' : BatchType) (id' : Int) (value : Int64) (t : BatchType) (id : Int) :
    (step s (.add t' id' value)).balance t id =
      s.balance t id + (Act.add t' id' value).records t id := by
  show s.db t.column id + s.inFlush t id +
      ((Function.update s.stores t' (addNewRecord (s.stores t') id' value) t).value id).toInt +
      s.missed t id + (if t = t' ∧ id = id' then s.cut t id + overflow (s.stores t') id' value
        else s.cut t id) = s.balance t id + if t = t' ∧ id = id' then value.toInt else 0
  simp only [State.balance, State.queued]
  by_cases h : t = t' ∧ id = id'
  · obtain ⟨rfl, rfl⟩ := h
    rw [update_self, if_pos ⟨rfl, rfl⟩, if_pos ⟨rfl, rfl⟩, overflow]
    omega
  rw [if_neg h, if_neg h, add_zero]
  by_cases ht : t = t'
  · have hid : id ≠ id' := fun e => h ⟨ht, e⟩
    subst ht
    rw [update_self, value_addNewRecord_ne _ _ hid]
  · rw [update_of_ne ht]

theorem balance_swap (who : Flusher) (t : BatchType) (id : Int) :
    (step s (.swap who)).balance t id = s.balance t id := by
  simp only [step]
  split
  · rename_i t' todo stores h hf
    have hin := inFlush_setFlush (s := { s with stores := Function.update s.stores t' ∅ }) hf
      (swapNext todo (Function.update stores t' (s.stores t')) (h.swap (s.stores t'))) t id
    have hempty : stores t' = ∅ := h.2 t' List.mem_cons_self
    have hsame : State.inFlush { s with stores := Function.update s.stores t' ∅ } t id =
        s.inFlush t id := rfl
    rw [heldBy_swapNext, hsame] at hin
    simp only [Flush.held] at hin
    simp only [State.balance, State.queued, setFlush_db, setFlush_stores, setFlush_missed,
      setFlush_cut]
    by_cases ht : t = t'
    · -- the whole store goes over, and the flush had nothing of its type
      subst ht
      rw [hempty, update_self, value_empty, Int64.toInt_zero] at hin
      rw [update_self, value_empty, Int64.toInt_zero]
      omega
    rw [update_of_ne ht] at hin
    rw [update_of_ne ht]
    omega
  · rfl

theorem balance_row (who : Flusher) (n : Nat) (ok : Bool) (t : BatchType) (id : Int) :
    (step s (.row who n ok)).balance t id = s.balance t id := by
  simp only [step]
  split
  · rename_i jobs hf
    split
    · rename_i job hjob
      have hin := inFlush_setFlush (s := s.update job ok) (g := .applying jobs)
        ((flush_update s job ok who).trans hf) (applyNext (jobs.eraseIdx n)) t id
      have hrow := update_db_add_missed s job ok t id
      have hsum := sum_eraseIdx hjob t id
      have hsame : (s.update job ok).inFlush t id = s.inFlush t id := by
        simp only [State.inFlush, flush_update]
      rw [heldBy_applyNext, hsame] at hin
      simp only [Flush.held] at hin
      simp only [State.balance, State.queued, setFlush_db, setFlush_stores, setFlush_missed,
        setFlush_cut, update_stores, update_cut]
      omega
    · rfl
  · rfl

variable (t : BatchType)

theorem balance_init (id : Int) : (step s .init).balance t id = s.balance t id := by
  simp only [step]
  split
  · rename_i hw
    simp [State.balance, State.queued, State.inFlush, State.flush, hw]
  · rfl

theorem balance_tick (id : Int) : (step s .tick).balance t id = s.balance t id := by
  simp only [step]
  split
  · rename_i c hw
    split
    · simp [State.balance, State.queued, State.inFlush, State.flush, heldBy, hw]
    · rfl
  · rfl

theorem balance_done (id : Int) : (step s .done).balance t id = s.balance t id := by
  simp only [step]
  split
  · rename_i hw
    simp [State.balance, State.queued, State.inFlush, State.flush, hw]
  · rfl

theorem balance_stop (id : Int) : (step s .stop).balance t id = s.balance t id := by
  simp only [step]
  split
  · rfl
  · rfl
  rename_i hwaiting hflushing
  have hst : s.flush .stopper = none := by
    cases hs : s.stopper with
    | flushing f => exact absurd hs (hflushing f)
    | _ => simp [State.flush, hs]
  simp only [State.balance, State.queued, State.inFlush, hst]
  cases hw : s.worker with
  | _ => simp [State.flush, hw, heldBy]

theorem balance_waited (id : Int) : (step s .waited).balance t id = s.balance t id := by
  simp only [step]
  split
  · rename_i hs hw
    simp [State.balance, State.queued, State.inFlush, State.flush, heldBy, hs, hw]
  · rfl

theorem balance_step (a : Act) (t : BatchType) (id : Int) :
    (step s a).balance t id = s.balance t id + a.records t id := by
  cases a with
  | add t' id' value => exact balance_add s t' id' value t id
  | init => exact (balance_init s t id).trans (add_zero _).symm
  | tick => exact (balance_tick s t id).trans (add_zero _).symm
  | done => exact (balance_done s t id).trans (add_zero _).symm
  | stop => exact (balance_stop s t id).trans (add_zero _).symm
  | waited => exact (balance_waited s t id).trans (add_zero _).symm
  | swap who => exact (balance_swap s who t id).trans (add_zero _).symm
  | row who n ok => exact (balance_row s who n ok t id).trans (add_zero _).symm

/-- **Conservation.**  A run changes the balance by what it records. -/
theorem balance_run (as : List Act) (t : BatchType) (id : Int) :
    (run step s as).balance t id = s.balance t id + recorded as t id := by
  induction as generalizing s with
  | nil => simp [recorded]
  | cons a as ih =>
    rw [run_cons, ih, balance_step]
    simp only [recorded, List.map_cons, List.sum_cons]
    omega

theorem balance_initial (db : Db) (t : BatchType) (id : Int) :
    (initial db).balance t id = db t.column id := by
  simp [State.balance, State.queued, State.inFlush, State.flush, heldBy, initial]

/-! ## What goes missing, and when nothing does -/

def Act.misses : Act → Bool
  | .row _ _ ok => !ok
  | _ => false

/-- Every recorded sum is an `int`. -/
def Fits : Act → Prop
  | .add t id value =>
    -2 ^ 63 ≤ s.queued t id + value.toInt ∧ s.queued t id + value.toInt < 2 ^ 63
  | _ => True

variable {s}

instance (s : State) : (a : Act) → Decidable (Fits s a)
  | .add _ _ _ => inferInstanceAs (Decidable (_ ∧ _))
  | .init => instDecidableTrue
  | .tick => instDecidableTrue
  | .done => instDecidableTrue
  | .stop => instDecidableTrue
  | .waited => instDecidableTrue
  | .swap _ => instDecidableTrue
  | .row _ _ _ => instDecidableTrue

theorem step_cases (s : State) (a : Act) : (∃ t id value, a = .add t id value) ∨
    (∃ who n ok job, a = .row who n ok ∧ (step s a).db = (s.update job ok).db ∧
      (step s a).missed = (s.update job ok).missed ∧ (step s a).cut = s.cut) ∨
    ((step s a).db = s.db ∧ (step s a).missed = s.missed ∧ (step s a).cut = s.cut) := by
  cases a with
  | add t id value => exact .inl ⟨t, id, value, rfl⟩
  | row who n ok =>
    simp only [step]
    split
    · split
      · rename_i job _
        refine .inr (.inl ⟨who, n, ok, job, rfl, ?_, ?_, ?_⟩)
        · rw [setFlush_db]
        · rw [setFlush_missed]
        · rw [setFlush_cut, update_cut]
      · exact .inr (.inr ⟨rfl, rfl, rfl⟩)
    · exact .inr (.inr ⟨rfl, rfl, rfl⟩)
  | swap who =>
    simp only [step]
    split
    · refine .inr (.inr ⟨?_, ?_, ?_⟩)
      · rw [setFlush_db]
      · rw [setFlush_missed]
      · rw [setFlush_cut]
    · exact .inr (.inr ⟨rfl, rfl, rfl⟩)
  | _ =>
    simp only [step]
    repeat' split
    all_goals exact .inr (.inr ⟨rfl, rfl, rfl⟩)

variable {a : Act}

theorem step_missed (s : State) (h : a.misses = false) : (step s a).missed = s.missed := by
  rcases step_cases s a with ⟨t, id, value, rfl⟩ | ⟨who, n, ok, job, rfl, -, hm, -⟩ | ⟨-, hm, -⟩
  · rfl
  · obtain rfl : ok = true := by simpa [Act.misses] using h
    exact hm
  · exact hm

theorem step_cut (h : Fits s a) : (step s a).cut = s.cut := by
  rcases step_cases s a with ⟨t, id, value, rfl⟩ | ⟨who, n, ok, job, rfl, -, -, hc⟩ | ⟨-, -, hc⟩
  · have h0 : overflow (s.stores t) id value = 0 := overflow_eq_zero h.1 h.2
    funext t' id'
    show (if t' = t ∧ id' = id then s.cut t' id' + overflow (s.stores t) id value
      else s.cut t' id') = s.cut t' id'
    rw [h0, add_zero, ite_self]
  · exact hc
  · exact hc

theorem run_missed (s : State) {as : List Act} (h : ∀ a ∈ as, a.misses = false) :
    (run step s as).missed = s.missed := by
  induction as generalizing s with
  | nil => rfl
  | cons a as ih =>
    rw [run_cons, ih _ fun b hb => h b (List.mem_cons_of_mem _ hb),
      step_missed s (h a List.mem_cons_self)]

theorem run_cut {as : List Act} (h : Meets Fits step s as) : (run step s as).cut = s.cut :=
  run_invariant (fun s' => s'.cut = s.cut) (fun _ _ hs ha => (step_cut ha).trans hs) rfl h

/-! ## StopBatchUpdater -/

/-- The steps after the last `addNewRecord` of a process that goes down. -/
def Act.drains : Act → Bool
  | .add .. => false
  | .init => false
  | _ => true

/-- No `StopBatchUpdater` call is running. -/
def Stopper.idle : Stopper → Bool
  | .absent => true
  | .returned => true
  | _ => false

/-- `StopBatchUpdater` was called and nothing was recorded since: once the worker
    is gone, the stores its flush has been at stay empty. -/
def Draining (s : State) : Prop :=
  match s.stopper with
  | .absent => False
  | .waiting => True
  | .flushing (.swapping todo _ _) => s.worker = .absent ∧ ∀ t, t ∉ todo → s.stores t = ∅
  | .flushing (.applying _) => s.worker = .absent ∧ ∀ t, s.stores t = ∅
  | .returned => s.worker = .absent ∧ ∀ t, s.stores t = ∅

theorem draining_stop (h : s.stopper.idle = true) : Draining (step s .stop) := by
  obtain ⟨stores, db, worker, stopper, missed, cut⟩ := s
  have hstart : ∀ t : BatchType, t ∉ batchTypes → stores t = ∅ :=
    fun t ht => absurd (mem_batchTypes t) ht
  cases stopper with
  | waiting => cases h
  | flushing f => cases h
  | _ =>
    cases worker with
    | absent => exact ⟨rfl, hstart⟩
    | _ => trivial

@[simp] theorem setFlush_worker_stopper (s : State) (f : Option Flush) :
    (s.setFlush .worker f).stopper = s.stopper := by
  simp only [State.setFlush]
  split <;> rfl

theorem draining_of_waiting (h : s.stopper = .waiting) : Draining s := by
  simp only [Draining, h]

theorem draining_step_waiting (h : s.stopper = .waiting)
    (ha : a.drains = true) : Draining (step s a) := by
  cases a with
  | add t id value => cases ha
  | init => cases ha
  | tick =>
    refine draining_of_waiting ?_
    simp only [step]
    repeat' split
    all_goals exact h
  | done =>
    refine draining_of_waiting ?_
    simp only [step]
    split <;> exact h
  | stop => simpa only [step, h] using draining_of_waiting h
  | waited =>
    simp only [step, h]
    split
    · exact ⟨rfl, fun t ht => absurd (mem_batchTypes t) ht⟩
    · exact draining_of_waiting h
  | swap who =>
    cases who with
    | worker =>
      refine draining_of_waiting ?_
      simp only [step]
      split
      · rw [setFlush_worker_stopper]
        exact h
      · exact h
    | stopper => simpa only [step, State.flush, h] using draining_of_waiting h
  | row who n ok =>
    cases who with
    | worker =>
      refine draining_of_waiting ?_
      simp only [step]
      split
      · split
        · rw [setFlush_worker_stopper]
          cases ok <;> exact h
        · exact h
      · exact h
    | stopper => simpa only [step, State.flush, h] using draining_of_waiting h

theorem draining_applyNext {stores : BatchType → Store} {db : Db} {f : Flush}
    {missed cut : BatchType → Int → Int} (hs : ∀ t, stores t = ∅) (jobs : List Job) :
    Draining (State.setFlush ⟨stores, db, .absent, .flushing f, missed, cut⟩ .stopper
      (applyNext jobs)) := by
  cases jobs with
  | nil | cons job jobs => exact ⟨rfl, hs⟩

theorem draining_swap {stores : BatchType → Store} {db : Db} {t : BatchType}
    {todo : List BatchType} {swapped : BatchType → Store} {hun : Unswapped (t :: todo) swapped}
    {missed cut : BatchType → Int → Int} (hs : ∀ t', t' ∉ t :: todo → stores t' = ∅) :
    Draining (step
      ⟨stores, db, .absent, .flushing (.swapping (t :: todo) swapped hun), missed, cut⟩
      (.swap .stopper)) := by
  have hs' : ∀ t', t' ∉ todo → Function.update stores t ∅ t' = ∅ := by
    intro t' ht'
    by_cases he : t' = t
    · rw [he, update_self]
    · rw [update_of_ne he]
      exact hs t' (by simp [he, ht'])
  cases todo with
  | cons t₂ todo => exact ⟨rfl, hs'⟩
  | nil => exact draining_applyNext (fun t' => hs' t' List.not_mem_nil) _

theorem draining_row {stores : BatchType → Store} {db : Db} {jobs : List Job}
    {missed cut : BatchType → Int → Int} (hs : ∀ t, stores t = ∅) (n : Nat) (ok : Bool) :
    Draining (step ⟨stores, db, .absent, .flushing (.applying jobs), missed, cut⟩
      (.row .stopper n ok)) := by
  simp only [step, State.flush]
  cases hjob : jobs[n]? with
  | none => exact ⟨rfl, hs⟩
  | some job =>
    cases ok with
    | true | false => exact draining_applyNext hs (jobs.eraseIdx n)

theorem draining_step (h : Draining s) (ha : a.drains = true) : Draining (step s a) := by
  obtain ⟨stores, db, worker, stopper, missed, cut⟩ := s
  match stopper, h with
  | .waiting, _ => exact draining_step_waiting rfl ha
  | .flushing (.swapping todo swapped hun), ⟨hw, hs⟩ =>
    obtain rfl : worker = .absent := hw
    match a, ha with
    | .swap .stopper, _ =>
      cases todo with
      | nil => exact ⟨rfl, hs⟩
      | cons t todo => exact draining_swap hs
    | .tick, _ | .done, _ | .stop, _ | .waited, _ | .swap .worker, _ | .row .worker _ _, _
    | .row .stopper _ _, _ => exact ⟨rfl, hs⟩
  | .flushing (.applying jobs), ⟨hw, hs⟩ =>
    obtain rfl : worker = .absent := hw
    match a, ha with
    | .row .stopper n ok, _ => exact draining_row hs n ok
    | .tick, _ | .done, _ | .stop, _ | .waited, _ | .swap .worker, _ | .row .worker _ _, _
    | .swap .stopper, _ => exact ⟨rfl, hs⟩
  | .returned, ⟨hw, hs⟩ =>
    obtain rfl : worker = .absent := hw
    match a, ha with
    | .stop, _ => exact draining_stop rfl
    | .tick, _ | .done, _ | .waited, _ | .swap .worker, _ | .row .worker _ _, _
    | .swap .stopper, _ | .row .stopper _ _, _ => exact ⟨rfl, hs⟩

theorem Draining.returned (h : Draining s) (hret : s.stopper = .returned)
    (t : BatchType) (id : Int) : s.queued t id = 0 ∧ s.inFlush t id = 0 := by
  simp only [Draining, hret] at h
  obtain ⟨hw, hs⟩ := h
  refine ⟨?_, ?_⟩
  · rw [State.queued, hs t, value_empty, Int64.toInt_zero]
  · simp [State.inFlush, State.flush, hw, hret, heldBy]

theorem draining_run {cs : List Act} (h : Draining s)
    (hcs : ∀ c ∈ cs, c.drains = true) : Draining (run step s cs) := by
  induction cs generalizing s with
  | nil => exact h
  | cons c cs ih =>
    exact ih (draining_step h (hcs c List.mem_cons_self))
      fun b hb => hcs b (List.mem_cons_of_mem _ hb)

/-! ## Every run -/

/-- The state a process is in after a run, over the rows `db`. -/
def after (db : Db) (as : List Act) : State := run step (initial db) as

/-- **The batch updater conserves deltas.**  In every reachable state, for every
    type and id: the row's growth, the deltas swapped out, the deltas queued, what
    missed updates carried and what saturation cut off add up to all that was
    recorded, so no delta is in two places.  Where every update finds its row,
    nothing is missed, and where every sum is an `int`, nothing is cut.  When a
    `StopBatchUpdater` call returns after the last record, the queue and the flushes
    are empty. -/
theorem batch_updater_conserves (db : Db) (as : List Act) (t : BatchType) (id : Int) :
    (after db as).db t.column id + (after db as).inFlush t id + (after db as).queued t id +
        (after db as).missed t id + (after db as).cut t id = db t.column id + recorded as t id ∧
    ((∀ a ∈ as, a.misses = false) → (after db as).missed t id = 0) ∧
    (Meets Fits step (initial db) as → (after db as).cut t id = 0) ∧
    ∀ bs cs, as = bs ++ .stop :: cs → (after db bs).stopper.idle = true →
      (∀ c ∈ cs, c.drains = true) → (after db as).stopper = .returned →
      (after db as).queued t id = 0 ∧ (after db as).inFlush t id = 0 := by
  refine ⟨?_, ?_, ?_, ?_⟩
  · have h := balance_run (initial db) as t id
    rw [balance_initial] at h
    exact h
  · intro h
    have hm := run_missed (initial db) h
    exact congrFun (congrFun hm t) id
  · intro h
    have hc := run_cut h
    exact congrFun (congrFun hc t) id
  rintro bs cs rfl hidle hcs hret
  have hsplit : after db (bs ++ .stop :: cs) = run step (step (after db bs) .stop) cs := by
    rw [after, run_append, run_cons, after]
  have hdrain : Draining (after db (bs ++ .stop :: cs)) := by
    rw [hsplit]
    exact draining_run (draining_stop hidle) hcs
  exact hdrain.returned hret t id

/-- A worker started, two charges of one user and a used-quota record, a flush
    with a record in its middle, and a stop. -/
def flushedTwice : List Act :=
  [.init, .add .userQuota 1 (-30), .add .userQuota 1 (-20), .add .usedQuota 1 50, .tick,
    .swap .worker, .add .userQuota 1 (-5), .swap .worker, .swap .worker, .swap .worker,
    .swap .worker, .stop, .row .worker 0 true, .done, .waited,
    .swap .stopper, .swap .stopper, .swap .stopper, .swap .stopper, .swap .stopper,
    .row .stopper 0 true]

theorem batch_updater_conserves_stop : (after (fun _ _ => 100) flushedTwice).db .userQuota 1 = 45 ∧
      (after (fun _ _ => 100) flushedTwice).queued .userQuota 1 = 0 ∧
      (after (fun _ _ => 100) flushedTwice).inFlush .userQuota 1 = 0 := by
  have h := batch_updater_conserves (fun _ _ => 100) flushedTwice .userQuota 1
  have hmissed := h.2.1 (by decide)
  have hcut := h.2.2.1 (by decide)
  have hstop := h.2.2.2 (flushedTwice.take 11) (flushedTwice.drop 12) rfl rfl (by decide) rfl
  have hsum := h.1
  have hrec : recorded flushedTwice .userQuota 1 = -55 := by decide
  rw [hmissed, hcut, hstop.1, hstop.2, hrec] at hsum
  simp only [BatchType.column] at hsum
  exact ⟨by omega, hstop.1, hstop.2⟩

/-- A sum past the largest `int`. -/
def pastMaxInt : List Act := [.add .userQuota 1 Int64.maxValue, .add .userQuota 1 1]

def stoppedOnError : List Act :=
  [.add .tokenQuota 1 5, .stop, .swap .stopper, .swap .stopper, .swap .stopper, .swap .stopper,
    .swap .stopper, .row .stopper 0 false]

/-- The row and the pending deltas do not add up to what was recorded. -/
theorem batch_updater_falls_short : (after (fun _ _ => 0) pastMaxInt).db .userQuota 1 +
        (after (fun _ _ => 0) pastMaxInt).inFlush .userQuota 1 +
        (after (fun _ _ => 0) pastMaxInt).queued .userQuota 1 = 2 ^ 63 - 1 ∧
      recorded pastMaxInt .userQuota 1 = 2 ^ 63 ∧
      (after (fun _ _ => 0) stoppedOnError).db .tokenRemainQuota 1 +
        (after (fun _ _ => 0) stoppedOnError).inFlush .tokenQuota 1 +
        (after (fun _ _ => 0) stoppedOnError).queued .tokenQuota 1 = 0 ∧
      recorded stoppedOnError .tokenQuota 1 = 5 := by
  decide

end NewApi.Quota.Batch
