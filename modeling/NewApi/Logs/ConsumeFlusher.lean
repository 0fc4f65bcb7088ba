/-
  NewApi.Logs.ConsumeFlusher

  `model/consume_log_flusher.go`: usage logs go through a bounded queue to a
  background worker that writes them in batches, and `StartConsumeLogFlusher`,
  `FlushConsumeLogs` and `StopConsumeLogFlusher` start and stop the worker.

  The parties take one atomic step at a time: a worker each receive, insert and
  row, a caller each section under `consumeFlushMu` and each statement.  A batch
  insert writes all of its rows or none; whether the row of a log can be written
  by itself is a property of the log.
-/

import NewApi.Lib.Run
import NewApi.Lib.Custody

namespace NewApi.ConsumeLogs

open NewApi.Lib

/-! ## The parties -/

/-- What the parties share.  A context is a number; the worker of a context has it.
    `wg` are the workers that `consumeFlushWG` counts. -/
structure Shared (L : Type) where
  queue : List L := []
  flushCancel : Option Nat := none
  cancelled : List Nat := []
  contexts : Nat := 0
  wg : List Nat := []
  table : List L := []
  enqueued : List L := []

/-- Where `consumeLogFlusherLoop` stands; `leaving` in the flush before it returns. -/
inductive WorkerPhase (L : Type) where
  | select (pending : List L)
  | insert (batch : List L) (leaving : Bool)
  | retry (batch : List L) (leaving : Bool)
  | rows (batch : List L) (leaving : Bool)

/-- What the pause of the worker is for: the first in `StopConsumeLogFlusher`, the one
    in the `FlushConsumeLogs` that it calls, or the one of a call of its own. -/
inductive Stage where
  | stop
  | stopFlush
  | flush
deriving DecidableEq

/-- Where a caller stands; `stopped` if its last call was a stop that has returned. -/
inductive CallerPhase (L : Type) where
  | idle (stopped : Bool)
  | fallback (log : L)
  | read (stage : Stage)
  | cancel (stage : Stage) (ctx : Nat)
  | wait (stage : Stage) (ctx : Nat)
  | clear (stage : Stage) (ctx : Nat)
  | drain (stage : Stage)
  | write (stage : Stage) (log : L)
deriving DecidableEq

inductive WorkerAct where
  | leave
  | receive
  | tick
  | result (ok : Bool)
  | row

inductive CallerAct (L : Type) where
  | enqueue (log : L)
  | start
  | flush
  | stop
  | go
deriving DecidableEq

inductive Act (ι L : Type) where
  | worker (ctx : Nat) (a : WorkerAct)
  | caller (i : ι) (a : CallerAct L)

def WorkerPhase.held {L : Type} : WorkerPhase L → List L
  | .select pending => pending
  | .insert batch _ => batch
  | .retry batch _ => batch
  | .rows batch _ => batch

def CallerPhase.held {L : Type} : CallerPhase L → List L
  | .fallback log => [log]
  | .write _ log => [log]
  | _ => []

section Model

variable {ι L : Type} [DecidableEq ι] [DecidableEq L]

/-- `cap(consumeLogQueue)` -/
def queueCap : Nat := 4096

/-- `batchSize` of the loop -/
def batchSize (logFlushBatch : Int) : Nat := if logFlushBatch ≤ 0 then 500 else logFlushBatch.toNat

variable (good : L → Bool)

/-- `createLog`; `good` says whether the row can be written. -/
def createLog (s : Shared L) (log : L) : Shared L :=
  if good log then { s with table := s.table ++ [log] } else s

/-- The end of a flush: back to the loop, or `consumeFlushWG.Done`. -/
def finish (ctx : Nat) (s : Shared L) (leaving : Bool) : Shared L × WorkerPhase L :=
  if leaving then ({ s with wg := s.wg.filter (· ≠ ctx) }, .select []) else (s, .select [])

/-- `safeFlush` on the pending logs -/
def flush (ctx : Nat) (s : Shared L) (pending : List L) (leaving : Bool) : Shared L × WorkerPhase L :=
  if pending = [] then finish ctx s leaving else (s, .insert pending leaving)

/-- A step of the worker; an act that does not fit is none. -/
def workerStep (logFlushBatch : Int) (ctx : Nat) (s : Shared L) :
    WorkerPhase L → WorkerAct → Shared L × WorkerPhase L
  | .select pending, .leave =>
    if ctx ∈ s.cancelled then flush ctx s pending true else (s, .select pending)
  | .select pending, .receive =>
    match s.queue with
    | [] => (s, .select pending)
    | log :: queue =>
      let s := { s with queue }
      if batchSize logFlushBatch ≤ (pending ++ [log]).length then
        flush ctx s (pending ++ [log]) false
      else (s, .select (pending ++ [log]))
  | .select pending, .tick => flush ctx s pending false
  | .insert batch leaving, .result ok =>
    if ok then finish ctx { s with table := s.table ++ batch } leaving
    else (s, .retry batch leaving)
  | .retry batch leaving, .result ok =>
    if ok then finish ctx { s with table := s.table ++ batch } leaving
    else (s, .rows batch leaving)
  | .rows [] leaving, .row => finish ctx s leaving
  | .rows (log :: batch) leaving, .row => (createLog good s log, .rows batch leaving)
  | phase, _ => (s, phase)

/-- After the pause: the flush of a stop, or the loop that drains the queue. -/
def afterPause : Stage → CallerPhase L
  | .stop => .read .stopFlush
  | .stopFlush => .drain .stopFlush
  | .flush => .drain .flush

/-- A step of a caller.  A log is enqueued by one call. -/
def callerStep (s : Shared L) : CallerPhase L → CallerAct L → Shared L × CallerPhase L
  | .idle b, .enqueue log =>
    if log ∈ s.enqueued then (s, .idle b)
    else
      let s := { s with enqueued := log :: s.enqueued }
      if s.queue.length < queueCap then ({ s with queue := s.queue ++ [log] }, .idle false)
      else (s, .fallback log)
  | .idle _, .start =>
    match s.flushCancel with
    | some _ => (s, .idle false)
    | none =>
      ({ s with flushCancel := some s.contexts, contexts := s.contexts + 1,
                wg := s.contexts :: s.wg }, .idle false)
  | .idle _, .flush => (s, .read .flush)
  | .idle _, .stop => (s, .read .stop)
  | .fallback log, .go => (createLog good s log, .idle false)
  | .read stage, .go =>
    match s.flushCancel with
    | none => (s, afterPause stage)
    | some ctx => (s, .cancel stage ctx)
  | .cancel stage ctx, .go => ({ s with cancelled := ctx :: s.cancelled }, .wait stage ctx)
  | .wait stage ctx, .go => if s.wg = [] then (s, .clear stage ctx) else (s, .wait stage ctx)
  | .clear stage _, .go => ({ s with flushCancel := none }, afterPause stage)
  | .drain stage, .go =>
    match s.queue with
    | [] => (s, .idle (stage = .stopFlush))
    | log :: queue => ({ s with queue }, .write stage log)
  | .write stage log, .go => (createLog good s log, .drain stage)
  | phase, _ => (s, phase)

/-- All parties. -/
structure System (ι L : Type) where
  shared : Shared L := {}
  worker : Nat → WorkerPhase L := fun _ => .select []
  caller : ι → CallerPhase L := fun _ => .idle false

/-- One step of one party; only a worker that was started and is not done takes any. -/
def step (logFlushBatch : Int) (w : System ι L) : Act ι L → System ι L
  | .worker ctx a =>
    if ctx ∈ w.shared.wg then
      let out := workerStep good logFlushBatch ctx w.shared (w.worker ctx) a
      { w with shared := out.1, worker := Function.update w.worker ctx out.2 }
    else w
  | .caller i a =>
    let out := callerStep good w.shared (w.caller i) a
    { w with shared := out.1, caller := Function.update w.caller i out.2 }

end Model

/-! ## What a step moves -/

section Moves

variable {L : Type} {good : L → Bool} {logFlushBatch : Int}

/-- What one step does to the logs: `held` are those of the party before it. -/
inductive Moves (good : L → Bool) (s : Shared L) (held : List L) (s' : Shared L) (held' : List L) :
    Prop where
  | quiet (hq : s'.queue = s.queue) (ht : s'.table = s.table) (he : s'.enqueued = s.enqueued)
      (hh : held' = held)
  | received (log : L) (hq : s.queue = log :: s'.queue) (ht : s'.table = s.table)
      (he : s'.enqueued = s.enqueued) (hh : held' = held ++ [log])
  | inserted (logs : List L) (hq : s'.queue = s.queue) (ht : s'.table = s.table ++ logs)
      (he : s'.enqueued = s.enqueued) (hh : held = logs ++ held')
  | refused (log : L) (hbad : good log = false) (hq : s'.queue = s.queue) (ht : s'.table = s.table)
      (he : s'.enqueued = s.enqueued) (hh : held = log :: held')
  | queued (log : L) (hnew : log ∉ s.enqueued) (hq : s'.queue = s.queue ++ [log])
      (ht : s'.table = s.table) (he : s'.enqueued = log :: s.enqueued) (hh : held' = held)
  | taken (log : L) (hnew : log ∉ s.enqueued) (hq : s'.queue = s.queue) (ht : s'.table = s.table)
      (he : s'.enqueued = log :: s.enqueued) (hh : held' = log :: held)

theorem moves_createLog (s : Shared L) (log : L) (held' : List L) :
    Moves good s (log :: held') (createLog good s log) held' := by
  unfold createLog
  cases hg : good log with
  | true => exact .inserted [log] rfl rfl rfl rfl
  | false => exact .refused log hg rfl rfl rfl rfl

theorem moves_finish {s s' : Shared L} {held : List L} (ctx : Nat) (leaving : Bool)
    (h : Moves good s held s' []) :
    Moves good s held (finish ctx s' leaving).1 (finish ctx s' leaving).2.held := by
  cases leaving with
  | false => exact h
  | true =>
    cases h with
    | quiet hq ht he hh => exact .quiet hq ht he hh
    | received log hq ht he hh => exact .received log hq ht he hh
    | inserted logs hq ht he hh => exact .inserted logs hq ht he hh
    | refused log hbad hq ht he hh => exact .refused log hbad hq ht he hh
    | queued log hnew hq ht he hh => exact .queued log hnew hq ht he hh
    | taken log hnew hq ht he hh => exact .taken log hnew hq ht he hh

theorem moves_flush {s s' : Shared L} {held pending : List L} (ctx : Nat) (leaving : Bool)
    (h : Moves good s held s' pending) :
    Moves good s held (flush ctx s' pending leaving).1 (flush ctx s' pending leaving).2.held := by
  unfold flush
  by_cases hnil : pending = []
  · rw [if_pos hnil]
    exact moves_finish ctx leaving (hnil ▸ h)
  · rw [if_neg hnil]
    exact h

theorem moves_workerStep (ctx : Nat) (s : Shared L) (phase : WorkerPhase L) (a : WorkerAct) :
    Moves good s phase.held (workerStep good logFlushBatch ctx s phase a).1
      (workerStep good logFlushBatch ctx s phase a).2.held := by
  have hquiet : ∀ held : List L, Moves good s held s held := fun _ => .quiet rfl rfl rfl rfl
  have hall : ∀ (batch : List L) (leaving : Bool), Moves good s batch
      (finish ctx { s with table := s.table ++ batch } leaving).1
      (finish ctx { s with table := s.table ++ batch } leaving).2.held := by
    intro batch leaving
    exact moves_finish ctx leaving (.inserted batch rfl rfl rfl (List.append_nil _).symm)
  cases phase with
  | select pending =>
    cases a with
    | leave =>
      unfold workerStep
      dsimp only
      split
      · exact moves_flush ctx true (hquiet pending)
      · exact hquiet pending
    | receive =>
      unfold workerStep
      dsimp only
      split
      · exact hquiet pending
      rename_i log queue hqueue
      have hmove : Moves good s pending { s with queue } (pending ++ [log]) :=
        .received log hqueue rfl rfl rfl
      split
      · exact moves_flush ctx false hmove
      · exact hmove
    | tick => exact moves_flush ctx false (hquiet pending)
    | result ok | row => exact hquiet pending
  | insert batch leaving | retry batch leaving =>
    cases a with
    | result ok =>
      cases ok with
      | true => exact hall batch leaving
      | false => exact hquiet batch
    | _ => exact hquiet batch
  | rows batch leaving =>
    cases batch with
    | nil =>
      cases a with
      | row => exact moves_finish ctx leaving (hquiet [])
      | _ => exact hquiet []
    | cons log batch =>
      cases a with
      | row => exact moves_createLog s log batch
      | _ => exact hquiet _

theorem held_afterPause (stage : Stage) : (afterPause stage : CallerPhase L).held = [] := by
  cases stage <;> rfl

variable [DecidableEq L]

theorem moves_callerStep (s : Shared L) (phase : CallerPhase L) (a : CallerAct L) :
    Moves good s phase.held (callerStep good s phase a).1 (callerStep good s phase a).2.held := by
  have hquiet : ∀ held : List L, Moves good s held s held := fun _ => .quiet rfl rfl rfl rfl
  cases phase with
  | idle b =>
    cases a with
    | enqueue log =>
      unfold callerStep
      dsimp only
      split
      · exact hquiet []
      rename_i hnew
      split
      · exact .queued log hnew rfl rfl rfl rfl
      · exact .taken log hnew rfl rfl rfl rfl
    | start =>
      unfold callerStep
      dsimp only
      split
      · exact hquiet []
      · exact .quiet rfl rfl rfl rfl
    | _ => exact hquiet []
  | fallback log | write stage log =>
    cases a with
    | go => exact moves_createLog s log []
    | _ => exact hquiet _
  | read stage =>
    cases a with
    | go =>
      unfold callerStep
      dsimp only
      split
      · exact .quiet rfl rfl rfl (held_afterPause stage)
      · exact hquiet []
    | _ => exact hquiet []
  | cancel stage ctx =>
    cases a with
    | go => exact .quiet rfl rfl rfl rfl
    | _ => exact hquiet []
  | wait stage ctx =>
    cases a with
    | go =>
      unfold callerStep
      dsimp only
      split <;> exact hquiet []
    | _ => exact hquiet []
  | clear stage ctx =>
    cases a with
    | go => exact .quiet rfl rfl rfl (held_afterPause stage)
    | _ => exact hquiet []
  | drain stage =>
    cases a with
    | go =>
      unfold callerStep
      dsimp only
      split
      · exact hquiet []
      · rename_i log queue hqueue
        exact .received log hqueue rfl rfl rfl
    | _ => exact hquiet []

end Moves

end NewApi.ConsumeLogs
