/-
  NewApi.Relay.ConcurrencyGate

  The global concurrency gate of `middleware/global-concurrency-limit.go`: a
  counting semaphore with a bounded FIFO queue, as a transition system over any
  number of requests.

  One event is one section under the gate's mutex, or one choice of a request
  outside it: `syncLimit`, the middleware's look at the settings, the section of
  `acquire`, the `select` of a waiter (`resume` when its channel is closed,
  `timer` when the clock is first, which it may choose although it was granted),
  the section of a waiter that leaves, and `release`.  Between any two of them
  every other request may move, and the settings may change.
-/

import NewApi.Lib.Keyed
import NewApi.Lib.Run

namespace NewApi.ConcurrencyGate

open NewApi.Lib

/-! ## The gate -/

/-- `relay_setting.GetGlobalConcurrencyGate`, less the time-out. -/
structure Config where
  enabled : Bool
  limit : Int
  queue : Int

/-- `globalConcurrencyGate`; a waiter in the queue is named by its request. -/
structure Gate where
  active : Int := 0
  waiting : Int := 0
  limit : Int := 0
  queue : Int := 0
  fifo : List Nat := []

/-- Where a request is.  The flag of a waiter is its `granted`. -/
inductive Phase where
  /-- The middleware has run `syncLimit`. -/
  | synced
  /-- It found the gate enabled. -/
  | checked
  /-- In the `select`. -/
  | waiting (granted : Bool)
  /-- In the time-out branch, before the lock. -/
  | leaving (granted : Bool)
  /-- Inside with a slot. -/
  | holding
  /-- Inside without a slot: `acquire` found the gate off. -/
  | passing
deriving DecidableEq

/-- The settings, the gate, the requests under way, and the waiters in the order
    in which they were queued and granted. -/
structure World where
  cfg : Config
  gate : Gate := {}
  reqs : AList (fun _ : Nat => Phase) := ∅
  next : Nat := 0
  enqueued : List Nat := []
  granted : List Nat := []

namespace World

def set (w : World) (id : Nat) (ph : Phase) : World := { w with reqs := w.reqs.insert id ph }

def remove (w : World) (id : Nat) : World := { w with reqs := w.reqs.erase id }

end World

/-! ## The sections under the mutex -/

/-- `w.granted = true`; the closed channel says the same. -/
def Phase.grant : Phase → Phase
  | .waiting _ => .waiting true
  | .leaving _ => .leaving true
  | ph => ph

variable (w : World)

def grantSlotLocked : World × Bool :=
  match w.gate.fifo with
  | [] => (w, false)
  | id :: rest =>
    ({ w with
        gate := { w.gate with fifo := rest, waiting := w.gate.waiting - 1 }
        reqs :=
          match w.reqs.lookup id with
          | some ph => w.reqs.insert id ph.grant
          | none => w.reqs
        granted := w.granted ++ [id] }, true)

def syncLimit : World :=
  { w with gate := { w.gate with limit := w.cfg.limit, queue := w.cfg.queue } }

/-- The first section of `acquire`. -/
def acquire (id : Nat) : World :=
  if w.cfg.enabled = false ∨ w.gate.limit ≤ 0 then w.set id .passing
  else if w.gate.active < w.gate.limit then
    { w.set id .holding with gate := { w.gate with active := w.gate.active + 1 } }
  else if w.gate.queue > 0 ∧ w.gate.waiting ≥ w.gate.queue then w.remove id
  else
    { w.set id (.waiting false) with
      gate := { w.gate with waiting := w.gate.waiting + 1, fifo := w.gate.fifo ++ [id] }
      enqueued := w.enqueued ++ [id] }

/-- The section of a waiter whose time is up. -/
def leave (id : Nat) (granted : Bool) : World :=
  if granted then
    let (w, ok) := grantSlotLocked w
    if ok = false ∧ w.gate.active > 0 then
      { w.remove id with gate := { w.gate with active := w.gate.active - 1 } }
    else w.remove id
  else if id ∈ w.gate.fifo then
    { w.remove id with
      gate := { w.gate with fifo := w.gate.fifo.erase id, waiting := w.gate.waiting - 1 } }
  else w.remove id

def release : World :=
  let w :=
    if w.gate.active > 0 then { w with gate := { w.gate with active := w.gate.active - 1 } } else w
  let (w, ok) := grantSlotLocked w
  if ok then { w with gate := { w.gate with active := w.gate.active + 1 } } else w

/-! ## Steps -/

inductive Event where
  | configure (cfg : Config)
  | arrive
  | check (id : Nat)
  | acquire (id : Nat)
  | resume (id : Nat)
  | timer (id : Nat)
  | leave (id : Nat)
  | finish (id : Nat)

/-- One event; one that does not fit the request's phase does nothing. -/
def step : Event → World
  | .configure cfg => { w with cfg }
  | .arrive => { (syncLimit w).set w.next .synced with next := w.next + 1 }
  | .check id =>
    if w.reqs.lookup id = some .synced then
      if w.cfg.enabled = false ∨ w.cfg.limit ≤ 0 then w.remove id else w.set id .checked
    else w
  | .acquire id => if w.reqs.lookup id = some .checked then acquire w id else w
  | .resume id =>
    if w.reqs.lookup id = some (.waiting true) then w.set id .holding else w
  | .timer id =>
    match w.reqs.lookup id with
    | some (.waiting granted) => w.set id (.leaving granted)
    | _ => w
  | .leave id =>
    match w.reqs.lookup id with
    | some (.leaving granted) => leave w id granted
    | _ => w
  | .finish id =>
    match w.reqs.lookup id with
    | some .holding => release (w.remove id)
    | some .passing => release (w.remove id)
    | _ => w

def start (cfg : Config) : World := { cfg }

/-! ## What is counted -/

def Phase.queued : Phase → Bool
  | .waiting granted => !granted
  | .leaving granted => !granted
  | _ => false

def Phase.pending : Phase → Bool
  | .waiting granted => granted
  | .leaving granted => granted
  | _ => false

/-- `acquire` is still to come. -/
def Phase.early : Phase → Bool
  | .synced => true
  | .checked => true
  | _ => false

def World.holders : Nat := w.reqs.total fun ph => if ph = .holding then 1 else 0

def World.pending (w : World) : Nat := w.reqs.total fun ph => if ph.pending then 1 else 0

def World.Idle : Prop := ∀ id ph, w.reqs.lookup id = some ph → ph.early = true

end NewApi.ConcurrencyGate
