/-
  NewApi.Events.Bus

  The event bus (`service/event_bus.go`) with its delivery store
  (`service/event_delivery_store.go`).

  `Publish` looks for the event's id in the map of remembered events, leaves the
  lock for the store, and comes back to remember the id; then it hands the event
  to the handler, with retries.  Every stretch between two locks is a step, so
  two calls may both have found an id unknown before either remembers it.

  A record of the map is shared by pointer.  A call makes one record at most,
  and the call is the pointer here.
-/

import NewApi.Lib.Workers
import NewApi.Lib.Keyed

set_option linter.unusedSectionVars false

namespace NewApi.Events

open Function (update_of_ne update_self)
open NewApi.Lib

/-! ## The bus -/

inductive EventState where
  | pending
  | success
  | failed
  | dead
deriving DecidableEq

/-- `eventRecord`, without what is only shown -/
structure EventRecord where
  state : EventState := .pending
  attempts : Nat := 0

/-- A row of `event_deliveries`; `creator` is the call that created it, if it was
    not there before the bus. -/
structure Delivery (ι : Type) where
  state : EventState := .pending
  attempts : Nat := 0
  creator : Option ι

/-- `maxRetries` after `NewEventBus` has raised it to zero. -/
structure Config where
  maxEvents : Int
  maxRetries : Nat

def defaultMaxRememberedEvents : Nat := 10000

/-- The bound that `rememberEventLocked` goes by. -/
def Config.limit (cfg : Config) : Nat :=
  if cfg.maxEvents ≤ 0 then defaultMaxRememberedEvents else cfg.maxEvents.toNat

structure Bus (ι : Type) where
  /-- the event types that have a handler -/
  handlers : String → Bool := fun _ => false
  events : AList fun _ : String => ι := ∅
  order : List String := []
  records : ι → EventRecord := fun _ => {}
  closed : Bool := false
  /-- a store is attached -/
  store : Bool
  /-- its rows, by event id and handler -/
  rows : String → String → Option (Delivery ι)
  /-- the ids for which a handler has returned success, latest first -/
  successes : List String := []

variable {ι : Type} [DecidableEq ι]

/-- The eviction loop of `rememberEventLocked`. -/
def evict (limit : Nat) : List String → AList (fun _ : String => ι) →
    List String × AList fun _ : String => ι
  | [], events => ([], events)
  | oldest :: order, events =>
    if limit < events.keys.length then evict limit order (events.erase oldest)
    else (oldest :: order, events)

def rememberEventLocked (cfg : Config) (i : ι) (s : Bus ι) (id : String) : Bus ι :=
  let kept := evict cfg.limit (s.order ++ [id]) (s.events.insert id i)
  { s with
    order := kept.1
    events := kept.2
    records := Function.update s.records i {} }

variable (s : Bus ι)

def Bus.finish (id : String) (state : EventState) : Bus ι :=
  match s.events.lookup id with
  | none => s
  | some k => { s with records := Function.update s.records k { s.records k with state } }

/-- `CreateDelivery`, where nothing fails: the row is inserted unless it is there. -/
def Bus.createDelivery (i : ι) (id type : String) : Bus ι :=
  match s.rows id type with
  | some _ => s
  | none =>
    { s with
      rows := Function.update s.rows id
        (Function.update (s.rows id) type (some { creator := some i })) }

def Bus.updateDeliveryState (id type : String) (state : EventState) (attempts : Nat) : Bus ι :=
  { s with
    rows := Function.update s.rows id (Function.update (s.rows id) type
      ((s.rows id type).map fun row => { row with state, attempts })) }

/-! ## A call -/

/-- What `Publish` returns. -/
inductive Outcome where
  | ok
  | dup
  | closed
  | noHandler
  | storeError
  | handlerError
  | cancelled

inductive Phase (ι : Type) where
  | idle
  /-- not closed and not a duplicate; the store as it was then -/
  | checked (id type : String) (store : Bool)
  | created (id type : String)
  | remembered (id type : String)
  /-- there is no handler -/
  | unrouted (id type : String)
  /-- before the handler -/
  | handling (id type : String)
  | handled (id type : String) (ok : Bool)
  /-- the record has been read -/
  | found (id type : String) (ok : Bool) (rec : Option ι)
  | persisting (id type : String) (state : EventState) (attempts : Nat)
  | backoff (id type : String)
  | done (id type : String) (r : Outcome)

/-- What comes back from `CreateDelivery`; an error may come after the row was
    stored. -/
inductive Reply where
  | answer
  | error (stored : Bool)

inductive Act where
  | publish (id type : String)
  | create (reply : Reply)
  /-- the next stretch of the call's own code -/
  | next
  | handle (ok : Bool)
  | persist (ok : Bool)
  | wake
  | cancel
  | register (type : String)
  | unregister (type : String)
  | close
  | setDeliveryStore (attached : Bool)

/-- `Publish`, its first stretch. -/
def publish (id type : String) : Phase ι :=
  if s.closed then .done id type .closed
  else if id ∈ s.events then .done id type .dup
  else .checked id type s.store

/-- `Publish`, at the store. -/
def create (i : ι) (s : Bus ι) (id type : String) (store : Bool) (reply : Reply) :
    Bus ι × Phase ι :=
  if store = false then (s, .created id type)
  else match reply with
    | .error stored =>
      (if stored then s.createDelivery i id type else s, .done id type .storeError)
    | .answer =>
      match s.rows id type with
      | some _ => (s, .done id type .dup)
      | none => (s.createDelivery i id type, .created id type)

/-- `dispatch`, up to the handler. -/
def dispatch (id type : String) : Phase ι :=
  if s.closed then .done id type .closed
  else if s.handlers type then .handling id type
  else .unrouted id type

/-- `dispatch`, after the handler. -/
def settle (cfg : Config) (s : Bus ι) (id type : String) (ok : Bool) : Option ι → Bus ι × Phase ι
  | none =>
    if ok then (s.finish id .success, .persisting id type .success 0)
    else (s, .done id type .handlerError)
  | some k =>
    if ok then (s.finish id .success, .persisting id type .success (s.records k).attempts)
    else
      let attempts := (s.records k).attempts + 1
      let state := if cfg.maxRetries < attempts then .dead else .failed
      ({ s with records := Function.update s.records k ⟨state, attempts⟩ },
        .persisting id type state attempts)

/-- After `persistState`. -/
def afterPersist (id type : String) : EventState → Phase ι
  | .success => .done id type .ok
  | .dead => .done id type .handlerError
  | _ => .backoff id type

def next (cfg : Config) (i : ι) (s : Bus ι) : Phase ι → Bus ι × Phase ι
  | .created id type => (rememberEventLocked cfg i s id, .remembered id type)
  | .remembered id type => (s, dispatch s id type)
  | .unrouted id type => (s.finish id .dead, .done id type .noHandler)
  | .handled id type ok => (s, .found id type ok (s.events.lookup id))
  | .found id type ok rec => settle cfg s id type ok rec
  | phase => (s, phase)

/-- One step of call `i`, or of whoever else has the bus. -/
def step (cfg : Config) (i : ι) (s : Bus ι) (phase : Phase ι) : Act → Bus ι × Phase ι
  | .publish id type =>
    match phase with
    | .idle => (s, publish s id type)
    | _ => (s, phase)
  | .create reply =>
    match phase with
    | .checked id type store => create i s id type store reply
    | _ => (s, phase)
  | .next => next cfg i s phase
  | .handle ok =>
    match phase with
    | .handling id type =>
      (if ok then { s with successes := id :: s.successes } else s, .handled id type ok)
    | _ => (s, phase)
  | .persist ok =>
    match phase with
    | .persisting id type state attempts =>
      (if s.store = true ∧ ok = true then s.updateDeliveryState id type state attempts else s,
        afterPersist id type state)
    | _ => (s, phase)
  | .wake =>
    match phase with
    | .backoff id type => (s, .handling id type)
    | _ => (s, phase)
  | .cancel =>
    match phase with
    | .backoff id type => (s, .done id type .cancelled)
    | _ => (s, phase)
  | .register type =>
    (if type = "" then s else { s with handlers := Function.update s.handlers type true }, phase)
  | .unregister type =>
    ({ s with handlers := Function.update s.handlers type false }, phase)
  | .close => ({ s with closed := true }, phase)
  | .setDeliveryStore attached => ({ s with store := attached }, phase)

/-! ## Delivered once, and not lost -/

/-- The id that a call is busy with, from the moment it leaves a trace. -/
def Phase.underway : Phase ι → Option String
  | .created id _ => some id
  | .remembered id _ => some id
  | .unrouted id _ => some id
  | .handling id _ => some id
  | .handled id _ _ => some id
  | .found id _ _ _ => some id
  | .persisting id _ _ _ => some id
  | .backoff id _ => some id
  | _ => none

def Bus.Dead (id : String) : Prop :=
  ∃ k, s.events.lookup id = some k ∧ (s.records k).state = .dead

/-- The event would be accepted again: it is not remembered, and the store, if
    there is one, has no row for it, or one from before the bus. -/
def Bus.Free (id type : String) : Prop :=
  id ∉ s.events ∧ (s.store = true → ∀ row, s.rows id type = some row → row.creator = none)

def Outcome.fails : Outcome → Bool
  | .noHandler | .storeError | .handlerError | .cancelled => true
  | _ => false

structure Delivers (cfg : Config) (w : Workers (Bus ι) ι (Phase ι)) : Prop where
  /-- for every id the handler returns success at most once -/
  once : w.shared.successes.Nodup
  /-- map and order list hold the same ids, each once, and not too many -/
  mirrored : w.shared.order.Perm w.shared.events.keys
  bounded : w.shared.order.length ≤ cfg.limit
  /-- an event whose publication failed is recorded dead or can be published
      again, unless it is handled or being handled, or the bus is closed -/
  kept : ∀ i id type r, w.proc i = .done id type r → r.fails = true →
    w.shared.Dead id ∨ w.shared.Free id type ∨ id ∈ w.shared.successes ∨
      (∃ j, (w.proc j).underway = some id) ∨ w.shared.closed = true

/-- No id is remembered that another call has remembered since, no wait before a
    retry is cancelled, and a store that stores does not return an error. -/
def Clean (w : Workers (Bus ι) ι (Phase ι)) : ι × Act → Prop
  | (i, .next) => ∀ id type, w.proc i = .created id type → id ∉ w.shared.events
  | (i, .cancel) => ∀ id type, w.proc i = .backoff id type → w.shared.closed = true
  | (i, .create (.error stored)) => ∀ id type, w.proc i = .checked id type true →
      stored = true → w.shared.rows id type ≠ none
  | _ => True

def published (as : List (ι × Act)) : List String :=
  as.filterMap fun ia => match ia.2 with
    | .publish id _ => some id
    | _ => none

/-! ## What a step can do -/

variable {cfg : Config} {i : ι} {s : Bus ι} {x : Phase ι}

def Within (ids : List String) : ι × Act → Prop
  | (_, .publish id _) => id ∈ ids
  | _ => True

/-- The moves of call `i` in a clean run. -/
inductive Move (cfg : Config) (ids : List String) (i : ι) (s : Bus ι) (x : Phase ι) :
    Bus ι → Phase ι → Prop where
  | stay : Move cfg ids i s x s x
  | registers (handlers : String → Bool) : Move cfg ids i s x { s with handlers } x
  | closes : Move cfg ids i s x { s with closed := true } x
  | attaches (store : Bool) : Move cfg ids i s x { s with store } x
  | refused (id type : String) (r : Outcome) (hx : x = .idle)
      (hr : r = .dup ∨ r = .closed ∧ s.closed = true) : Move cfg ids i s x s (.done id type r)
  | checks (id type : String) (hx : x = .idle) (hid : id ∈ ids) :
      Move cfg ids i s x s (.checked id type s.store)
  | skips (id type : String) (store : Bool) (hx : x = .checked id type store) :
      Move cfg ids i s x s (.created id type)
  | creates (id type : String) (store : Bool) (hx : x = .checked id type store)
      (hrow : s.rows id type = none) :
      Move cfg ids i s x (s.createDelivery i id type) (.created id type)
  | turned (id type : String) (store : Bool) (r : Outcome) (hx : x = .checked id type store)
      (hr : r = .dup ∨ r = .storeError) : Move cfg ids i s x s (.done id type r)
  | remembers (id type : String) (hx : x = .created id type) (hnew : id ∉ s.events) :
      Move cfg ids i s x (rememberEventLocked cfg i s id) (.remembered id type)
  | routes (id type : String) (hx : x = .remembered id type) :
      Move cfg ids i s x s (.handling id type)
  | unroutes (id type : String) (hx : x = .remembered id type) :
      Move cfg ids i s x s (.unrouted id type)
  | shuts (id type : String) (hx : x = .remembered id type) (hclosed : s.closed = true) :
      Move cfg ids i s x s (.done id type .closed)
  | buries (id type : String) (hx : x = .unrouted id type) :
      Move cfg ids i s x (s.finish id .dead) (.done id type .noHandler)
  | succeeds (id type : String) (hx : x = .handling id type) :
      Move cfg ids i s x { s with successes := id :: s.successes } (.handled id type true)
  | fails (id type : String) (hx : x = .handling id type) :
      Move cfg ids i s x s (.handled id type false)
  | reads (id type : String) (ok : Bool) (hx : x = .handled id type ok) :
      Move cfg ids i s x s (.found id type ok (s.events.lookup id))
  | settles (id type : String) (rec : Option ι) (attempts : Nat) (hx : x = .found id type true rec) :
      Move cfg ids i s x (s.finish id .success) (.persisting id type .success attempts)
  | vanishes (id type : String) (hx : x = .found id type false none) :
      Move cfg ids i s x s (.done id type .handlerError)
  | counts (id type : String) (k : ι) (state : EventState) (attempts : Nat)
      (hx : x = .found id type false (some k)) (hstate : state = .dead ∨ state = .failed) :
      Move cfg ids i s x { s with records := Function.update s.records k ⟨state, attempts⟩ }
        (.persisting id type state attempts)
  | passes (id type : String) (state : EventState) (attempts : Nat)
      (hx : x = .persisting id type state attempts) :
      Move cfg ids i s x s (afterPersist id type state)
  | persists (id type : String) (state : EventState) (attempts : Nat)
      (hx : x = .persisting id type state attempts) :
      Move cfg ids i s x (s.updateDeliveryState id type state attempts)
        (afterPersist id type state)
  | wakes (id type : String) (hx : x = .backoff id type) :
      Move cfg ids i s x s (.handling id type)
  | cancels (id type : String) (hx : x = .backoff id type) (hclosed : s.closed = true) :
      Move cfg ids i s x s (.done id type .cancelled)

variable {ids : List String} {id type : String}

theorem create_move {store : Bool} {reply : Reply} (hx : x = .checked id type store)
    (hreply : ∀ stored, reply = .error stored → store = true → stored = true →
      s.rows id type ≠ none) :
    Move cfg ids i s x (create i s id type store reply).1 (create i s id type store reply).2 := by
  unfold create
  cases store with
  | false => exact .skips id type false hx
  | true =>
    cases reply with
    | answer =>
      cases hrow : s.rows id type with
      | some row => exact .turned id type true .dup hx (.inl rfl)
      | none => exact .creates id type true hx hrow
    | error stored =>
      have hsame : (if stored then s.createDelivery i id type else s) = s := by
        cases stored with
        | false => rfl
        | true =>
          obtain ⟨row, hrow⟩ := Option.ne_none_iff_exists'.1 (hreply true rfl rfl rfl)
          simp only [if_true, Bus.createDelivery, hrow]
      show Move cfg ids i s x (if stored then s.createDelivery i id type else s) _
      rw [hsame]
      exact .turned id type true .storeError hx (.inr rfl)

theorem settle_move {ok : Bool} {rec : Option ι} (hx : x = .found id type ok rec) :
    Move cfg ids i s x (settle cfg s id type ok rec).1 (settle cfg s id type ok rec).2 := by
  cases ok with
  | true =>
    cases rec with
    | none => exact .settles id type none 0 hx
    | some k => exact .settles id type (some k) _ hx
  | false =>
    cases rec with
    | none => exact .vanishes id type hx
    | some k =>
      refine .counts id type k _ _ hx ?_
      by_cases hmax : cfg.maxRetries < (s.records k).attempts + 1
      · rw [if_pos hmax]
        exact .inl rfl
      · rw [if_neg hmax]
        exact .inr rfl

theorem publish_move (hx : x = .idle) (hid : id ∈ ids) :
    Move cfg ids i s x s (publish s id type) := by
  unfold publish
  by_cases hclosed : s.closed = true
  · rw [if_pos hclosed]
    exact .refused id type .closed hx (.inr ⟨rfl, hclosed⟩)
  rw [if_neg hclosed]
  by_cases hmem : id ∈ s.events
  · rw [if_pos hmem]
    exact .refused id type .dup hx (.inl rfl)
  · rw [if_neg hmem]
    exact .checks id type hx hid

theorem dispatch_move (hx : x = .remembered id type) :
    Move cfg ids i s x s (dispatch s id type) := by
  unfold dispatch
  by_cases hclosed : s.closed = true
  · rw [if_pos hclosed]
    exact .shuts id type hx hclosed
  rw [if_neg hclosed]
  by_cases hhandler : s.handlers type = true
  · rw [if_pos hhandler]
    exact .routes id type hx
  · rw [if_neg hhandler]
    exact .unroutes id type hx

/-- **Every step of a clean run is one of the moves.** -/
theorem step_move {w : Workers (Bus ι) ι (Phase ι)} {i : ι} {a : Act}
    (hclean : Clean w (i, a)) (hids : Within ids (i, a)) :
    Move cfg ids i w.shared (w.proc i) (step cfg i w.shared (w.proc i) a).1
      (step cfg i w.shared (w.proc i) a).2 := by
  cases a with
  | publish id type =>
    cases hx : w.proc i with
    | idle => exact publish_move rfl hids
    | _ => exact .stay
  | create reply =>
    cases hx : w.proc i with
    | checked id type store =>
      refine create_move rfl fun stored hreply hstore hstored => ?_
      subst hreply hstore
      exact hclean id type hx hstored
    | _ => exact .stay
  | next =>
    cases hx : w.proc i with
    | created id type => exact .remembers id type rfl (hclean id type hx)
    | remembered id type => exact dispatch_move rfl
    | unrouted id type => exact .buries id type rfl
    | handled id type ok => exact .reads id type ok rfl
    | found id type ok rec => exact settle_move rfl
    | _ => exact .stay
  | handle ok =>
    cases hx : w.proc i with
    | handling id type =>
      cases ok with
      | true => exact .succeeds id type rfl
      | false => exact .fails id type rfl
    | _ => exact .stay
  | persist ok =>
    cases hx : w.proc i with
    | persisting id type state attempts =>
      by_cases hok : w.shared.store = true ∧ ok = true
      · have hstep : step cfg i w.shared (.persisting id type state attempts) (.persist ok) =
            (w.shared.updateDeliveryState id type state attempts,
              afterPersist id type state) := congrArg (·, _) (if_pos hok)
        rw [hstep]
        exact .persists id type state attempts rfl
      have hstep : step cfg i w.shared (.persisting id type state attempts) (.persist ok) =
          (w.shared, afterPersist id type state) := congrArg (·, _) (if_neg hok)
      rw [hstep]
      exact .passes id type state attempts rfl
    | _ => exact .stay
  | wake =>
    cases hx : w.proc i with
    | backoff id type => exact .wakes id type rfl
    | _ => exact .stay
  | cancel =>
    cases hx : w.proc i with
    | backoff id type => exact .cancels id type rfl (hclean id type hx)
    | _ => exact .stay
  | register type =>
    by_cases htype : type = ""
    · have hstep : step cfg i w.shared (w.proc i) (.register type) = (w.shared, w.proc i) :=
        congrArg (·, _) (if_pos htype)
      rw [hstep]
      exact .stay
    have hstep : step cfg i w.shared (w.proc i) (.register type) =
        ({ w.shared with handlers := Function.update w.shared.handlers type true }, w.proc i) :=
      congrArg (·, _) (if_neg htype)
    rw [hstep]
    exact .registers _
  | unregister type => exact .registers _
  | close => exact .closes
  | setDeliveryStore attached => exact .attaches attached

/-! ## The invariant -/

/-- What holds of the bus: map and list agree, and whatever was handled is
    remembered. -/
structure Kept (ids : List String) (s : Bus ι) : Prop where
  perm : s.order.Perm s.events.keys
  within : ∀ id ∈ s.events, id ∈ ids
  once : s.successes.Nodup
  handled : ∀ id ∈ s.successes, id ∈ s.events

variable (s)

/-- The id is remembered by call `i`. -/
def Bus.Owns (i : ι) (id : String) : Prop := s.events.lookup id = some i

/-- Call `i` is at work on the event, which is not yet given up. -/
def Bus.Works (i : ι) (id : String) : Prop :=
  s.Owns i id ∧ (s.records i).state ≠ .dead

/-- Call `i` has given the event up. -/
def Bus.GivesUp (i : ι) (id : String) : Prop :=
  s.Owns i id ∧ (s.records i).state = .dead

/-- Call `i` has not remembered anything yet. -/
def Bus.Unused (i : ι) : Prop :=
  (∀ id, ¬s.Owns i id) ∧ (s.records i).state ≠ .dead

def Bus.Told (id : String) (ok : Bool) : Prop := ok = true ↔ id ∈ s.successes

def PersistOk (i : ι) (id : String) : EventState → Prop
  | .success => id ∈ s.successes
  | .dead => s.GivesUp i id
  | _ => s.Works i id ∧ s.Told id false

def DoneOk (i : ι) (id : String) : Outcome → Prop
  | .ok => id ∈ s.successes
  | .noHandler => s.GivesUp i id
  | .handlerError => s.GivesUp i id
  | .closed => s.closed = true
  | .cancelled => s.closed = true
  | _ => True

/-- The assertion about call `i`'s phase. -/
def PhaseOk (ids : List String) (s : Bus ι) (i : ι) : Phase ι → Prop
  | .idle => s.Unused i
  | .checked id _ _ => id ∈ ids ∧ s.Unused i
  | .created id _ => id ∈ ids ∧ s.Unused i
  | .remembered id _ => s.Works i id ∧ s.Told id false
  | .unrouted id _ => s.Works i id ∧ s.Told id false
  | .handling id _ => s.Works i id ∧ s.Told id false
  | .backoff id _ => s.Works i id ∧ s.Told id false
  | .handled id _ ok => s.Works i id ∧ s.Told id ok
  | .found id _ ok rec => s.Works i id ∧ s.Told id ok ∧ rec = some i
  | .persisting id _ state _ => PersistOk s i id state
  | .done id _ r => DoneOk s i id r

def Accounted (x : Phase ι) (id : String) : Prop :=
  x.underway = some id ∨ s.Dead id ∨ id ∈ s.successes ∨ s.closed = true

variable {s}

/-- What call `i` has left behind, in the map and in the store, is accounted for. -/
structure Traces (s : Bus ι) (i : ι) (x : Phase ι) : Prop where
  remembered : ∀ id, s.Owns i id → Accounted s x id
  stored : ∀ id type row, s.rows id type = some row → row.creator = some i → Accounted s x id

/-- What no step takes back. -/
structure Grows (s s' : Bus ι) : Prop where
  owns : ∀ id k, s.Owns k id → s'.Owns k id
  dead : ∀ k, (s.records k).state = .dead → (s'.records k).state = .dead
  succeeded : ∀ id ∈ s.successes, id ∈ s'.successes
  closed : s.closed = true → s'.closed = true

/-- What a step of another call leaves to `j`. -/
structure Leaves (j : ι) (s s' : Bus ι) : Prop extends Grows s s' where
  mine : ∀ id, s'.Owns j id → s.Owns j id
  record : s'.records j = s.records j
  told : ∀ id, s.Owns j id → id ∈ s'.successes → id ∈ s.successes
  stored : ∀ id type row, s'.rows id type = some row → row.creator = some j →
    ∃ row', s.rows id type = some row' ∧ row'.creator = some j

theorem Grows.refl (s : Bus ι) : Grows s s :=
  ⟨fun _ _ h => h, fun _ h => h, fun _ h => h, fun h => h⟩

theorem Leaves.refl (j : ι) (s : Bus ι) : Leaves j s s :=
  ⟨.refl s, fun _ h => h, rfl, fun _ _ h => h, fun _ _ row hrow hby => ⟨row, hrow, hby⟩⟩

variable {s' : Bus ι}

theorem Grows.isDead (h : Grows s s') (hd : s.Dead id) : s'.Dead id := by
  obtain ⟨k, hk, hdead⟩ := hd
  exact ⟨k, h.owns id k hk, h.dead k hdead⟩

variable {x' : Phase ι}

theorem Grows.accounted (h : Grows s s')
    (hphase : x.underway = some id → Accounted s' x' id) (hx : Accounted s x id) :
    Accounted s' x' id := by
  rcases hx with hx | hx | hx | hx
  · exact hphase hx
  · exact .inr (.inl (h.isDead hx))
  · exact .inr (.inr (.inl (h.succeeded id hx)))
  · exact .inr (.inr (.inr (h.closed hx)))

variable {j : ι}

section
variable (h : Leaves j s s')
include h

theorem Leaves.works (hw : s.Works j id) : s'.Works j id :=
  ⟨h.owns id j hw.1, by rw [h.record]; exact hw.2⟩

theorem Leaves.givesUp (hw : s.GivesUp j id) : s'.GivesUp j id :=
  ⟨h.owns id j hw.1, h.dead j hw.2⟩

theorem Leaves.unused (hu : s.Unused j) : s'.Unused j :=
  ⟨fun id hown => hu.1 id (h.mine id hown), by rw [h.record]; exact hu.2⟩

theorem Leaves.telling {ok : Bool} (hw : s.Works j id) (ht : s.Told id ok) : s'.Told id ok :=
  ht.trans ⟨h.succeeded id, h.told id hw.1⟩

theorem Leaves.phaseOk (hx : PhaseOk ids s j x) : PhaseOk ids s' j x := by
  cases x with
  | idle => exact h.unused hx
  | checked id type store | created id type => exact ⟨hx.1, h.unused hx.2⟩
  | remembered id type | unrouted id type | handling id type | backoff id type
  | handled id type ok => exact ⟨h.works hx.1, h.telling hx.1 hx.2⟩
  | found id type ok rec => exact ⟨h.works hx.1, h.telling hx.1 hx.2.1, hx.2.2⟩
  | persisting id type state attempts =>
    cases state with
    | success => exact h.succeeded id hx
    | dead => exact h.givesUp hx
    | pending | failed => exact ⟨h.works hx.1, h.telling hx.1 hx.2⟩
  | done id type r =>
    cases r with
    | ok => exact h.succeeded id hx
    | noHandler | handlerError => exact h.givesUp hx
    | closed | cancelled => exact h.closed hx
    | dup => trivial
    | storeError => trivial

theorem Leaves.traces (hx : Traces s j x) : Traces s' j x where
  remembered id hown := h.accounted .inl (hx.remembered id (h.mine id hown))
  stored id type row hrow hby := by
    obtain ⟨row', hrow', hby'⟩ := h.stored id type row hrow hby
    exact h.accounted .inl (hx.stored id type row' hrow' hby')

end

/-! ## The operations -/

theorem keys_length_le {events : AList fun _ : String => ι}
    (h : ∀ id ∈ events, id ∈ ids) : events.keys.length ≤ ids.length :=
  (events.nodupKeys.subperm fun id hid => h id (AList.mem_keys.1 hid)).length_le

theorem rememberEventLocked_eq (hk : Kept ids s) (hlimit : ids.length ≤ cfg.limit)
    (hid : id ∈ ids) : rememberEventLocked cfg i s id = { s with
        order := s.order ++ [id]
        events := s.events.insert id i
        records := Function.update s.records i {} } := by
  have hwithin : ∀ id' ∈ s.events.insert id i, id' ∈ ids := by
    intro id' hid'
    rcases (AList.mem_insert _).1 hid' with rfl | hold
    · exact hid
    · exact hk.within id' hold
  have hroom : ¬cfg.limit < (s.events.insert id i).keys.length :=
    not_lt.2 ((keys_length_le hwithin).trans hlimit)
  have hevict : evict cfg.limit (s.order ++ [id]) (s.events.insert id i) =
      (s.order ++ [id], s.events.insert id i) := by
    cases horder : s.order ++ [id] with
    | nil => rfl
    | cons oldest order => exact if_neg hroom
  unfold rememberEventLocked
  rw [hevict]

theorem finish_eq {state : EventState} (h : s.Owns i id) : s.finish id state =
      { s with records := Function.update s.records i { s.records i with state } } := by
  have hlookup : s.events.lookup id = some i := h
  unfold Bus.finish
  rw [hlookup]

theorem createDelivery_eq (h : s.rows id type = none) : s.createDelivery i id type = { s with
        rows := Function.update s.rows id
          (Function.update (s.rows id) type (some { creator := some i })) } := by
  unfold Bus.createDelivery
  rw [h]

theorem createDelivery_rows {id' type' : String} {row : Delivery ι}
    (h : s.rows id type = none) (hrow : (s.createDelivery i id type).rows id' type' = some row) :
    s.rows id' type' = some row ∨ id' = id ∧ row.creator = some i := by
  rw [createDelivery_eq h] at hrow
  have hupdate : Function.update s.rows id (Function.update (s.rows id) type
      (some { creator := some i })) id' type' = some row := hrow
  by_cases hid : id' = id
  · subst hid
    rw [update_self] at hupdate
    by_cases htype : type' = type
    · subst htype
      rw [update_self] at hupdate
      exact .inr ⟨rfl, by rw [← Option.some.inj hupdate]⟩
    · rw [update_of_ne htype] at hupdate
      exact .inl hupdate
  · rw [update_of_ne hid] at hupdate
    exact .inl hupdate

theorem updateDeliveryState_rows {id' type' : String} {state : EventState} {attempts : Nat}
    {row : Delivery ι}
    (hrow : (s.updateDeliveryState id type state attempts).rows id' type' = some row) :
    ∃ row', s.rows id' type' = some row' ∧ row'.creator = row.creator := by
  have hupdate : Function.update s.rows id (Function.update (s.rows id) type
      ((s.rows id type).map fun row => { row with state, attempts })) id' type' = some row := hrow
  by_cases hid : id' = id
  · subst hid
    rw [update_self] at hupdate
    by_cases htype : type' = type
    · subst htype
      rw [update_self] at hupdate
      obtain ⟨row', hrow', rfl⟩ := Option.map_eq_some_iff.1 hupdate
      exact ⟨row', hrow', rfl⟩
    · rw [update_of_ne htype] at hupdate
      exact ⟨row, hupdate, rfl⟩
  · rw [update_of_ne hid] at hupdate
    exact ⟨row, hupdate, rfl⟩

/-! ## A step, seen by the others -/

theorem grows_record (rec : EventRecord) (hrec : (s.records i).state ≠ .dead) :
    Grows s { s with records := Function.update s.records i rec } := by
  refine { Grows.refl s with dead := fun k hk => ?_ }
  by_cases hki : k = i
  · rw [hki] at hk
    exact absurd hk hrec
  · show (Function.update s.records i rec k).state = .dead
    rwa [update_of_ne hki]

section
variable (h : Move cfg ids i s x s' x') (hlimit : ids.length ≤ cfg.limit) (hk : Kept ids s) (hx : PhaseOk ids s i x)
include h hlimit hk hx

theorem Move.grows : Grows s s' := by
  cases h with
  | registers handlers | attaches store | persists id type state attempts hx' =>
    exact { Grows.refl s with }
  | closes => exact { Grows.refl s with closed := fun _ => rfl }
  | creates id type store hx hrow =>
    rw [createDelivery_eq hrow]
    exact { Grows.refl s with }
  | remembers id type hx' hnew =>
    subst hx'
    have hnone : s.events.lookup id = none := AList.lookup_eq_none.2 hnew
    rw [rememberEventLocked_eq hk hlimit hx.1]
    refine { grows_record {} hx.2.2 with owns := fun id' k hown => ?_ }
    have hne : id' ≠ id := by
      rintro rfl
      cases hnone.symm.trans hown
    exact (AList.lookup_insert_ne hne).trans hown
  | buries id type hx' | settles id type rec attempts hx' =>
    subst hx'
    rw [finish_eq hx.1.1]
    exact grows_record _ hx.1.2
  | succeeds id type hx' =>
    exact { Grows.refl s with succeeded := fun id' h => List.mem_cons_of_mem _ h }
  | counts id type k state attempts hx' hstate =>
    subst hx'
    obtain ⟨hworks, -, hrec⟩ := hx
    obtain rfl := Option.some.inj hrec
    exact grows_record _ hworks.2
  | _ => exact Grows.refl s

theorem Move.leaves (hij : j ≠ i) : Leaves j s s' := by
  have hgrows := h.grows hlimit hk hx
  have hsame : Leaves j s s := .refl j s
  cases h with
  | registers handlers | attaches store => exact { hsame, hgrows with }
  | closes => exact { hsame, hgrows with closed := hgrows.closed }
  | creates id type store hx hrow =>
    refine { hgrows with
      mine := fun id' hown => ?_, record := ?_, told := fun id' hown hid' => ?_,
      stored := fun id' type' row hrow' hby => ?_ }
    · rwa [createDelivery_eq hrow] at hown
    · rw [createDelivery_eq hrow]
    · rwa [createDelivery_eq hrow] at hid'
    rcases createDelivery_rows hrow hrow' with hold | ⟨-, hi⟩
    · exact ⟨row, hold, hby⟩
    · exact absurd (Option.some.inj (hby.symm.trans hi)) hij
  | remembers id type hx' hnew =>
    subst hx'
    rw [rememberEventLocked_eq hk hlimit hx.1] at hgrows ⊢
    refine { hgrows with
      mine := fun id' hown => ?_, record := update_of_ne hij _ _,
      told := fun _ _ h => h, stored := hsame.stored }
    have hlookup : (s.events.insert id i).lookup id' = some j := hown
    by_cases hid : id' = id
    · subst hid
      rw [AList.lookup_insert] at hlookup
      exact absurd (Option.some.inj hlookup).symm hij
    · exact (AList.lookup_insert_ne hid).symm.trans hlookup
  | buries id type hx' | settles id type rec attempts hx' =>
    subst hx'
    rw [finish_eq hx.1.1] at hgrows ⊢
    exact { hsame, hgrows with record := update_of_ne hij _ _, dead := hgrows.dead }
  | succeeds id type hx' =>
    subst hx'
    refine { hgrows with
      mine := hsame.mine, record := rfl, told := fun id' hown h => ?_, stored := hsame.stored }
    rcases List.mem_cons.1 h with rfl | hold
    · exact absurd (Option.some.inj (hown.symm.trans hx.1.1)) hij
    · exact hold
  | counts id type k state attempts hx' hstate =>
    subst hx'
    obtain ⟨-, -, hrec⟩ := hx
    obtain rfl := Option.some.inj hrec
    exact { hsame, hgrows with record := update_of_ne hij _ _, dead := hgrows.dead }
  | persists id type state attempts hx' =>
    refine { hsame, hgrows with stored := fun id' type' row hrow hby => ?_ }
    obtain ⟨row', hrow', hsame⟩ := updateDeliveryState_rows hrow
    exact ⟨row', hrow', hsame.trans hby⟩
  | _ => exact hsame

end

/-! ## A step, seen by the call -/

theorem Traces.phase (h : Traces s i x)
    (hphase : ∀ id, x.underway = some id → Accounted s x' id) : Traces s i x' where
  remembered id hown := (Grows.refl s).accounted (hphase id) (h.remembered id hown)
  stored id type row hrow hby :=
    (Grows.refl s).accounted (hphase id) (h.stored id type row hrow hby)

theorem Traces.quiet (h : Traces s i x) (hx : x.underway = none) : Traces s i x' :=
  h.phase fun id hid => absurd (hid.symm.trans hx) (Option.some_ne_none id)

theorem Traces.grows (h : Traces s i x) (hgrows : Grows s s')
    (hevents : s'.events = s.events) (hrows : s'.rows = s.rows)
    (hphase : ∀ id, x.underway = some id → Accounted s' x' id) : Traces s' i x' where
  remembered id hown := by
    rw [Bus.Owns, hevents] at hown
    exact hgrows.accounted (hphase id) (h.remembered id hown)
  stored id type row hrow hby := by
    rw [hrows] at hrow
    exact hgrows.accounted (hphase id) (h.stored id type row hrow hby)

theorem Kept.of_same (h : Kept ids s) (hevents : s'.events = s.events) (horder : s'.order = s.order)
    (hsucc : s'.successes = s.successes) : Kept ids s' := by
  obtain ⟨hperm, hwithin, honce, hhandled⟩ := h
  constructor
  · rwa [horder, hevents]
  · rwa [hevents]
  · rwa [hsucc]
  · rwa [hsucc, hevents]

theorem Kept.remembers (hk : Kept ids s) (hlimit : ids.length ≤ cfg.limit)
    (hid : id ∈ ids) (hnew : id ∉ s.events) : Kept ids (rememberEventLocked cfg i s id) := by
  rw [rememberEventLocked_eq hk hlimit hid]
  refine ⟨?_, fun id' hid' => ?_, hk.once, fun id' hid' => ?_⟩
  · rw [AList.keys_insert, List.erase_of_not_mem (fun h => hnew (AList.mem_keys.1 h))]
    exact (List.perm_append_singleton id s.order).trans (hk.perm.cons id)
  · rcases (AList.mem_insert _).1 hid' with rfl | hold
    · exact hid
    · exact hk.within id' hold
  · exact (AList.mem_insert _).2 (.inr (hk.handled id' hid'))

theorem Bus.Works.mem (h : s.Works i id) : id ∈ s.events :=
  AList.lookup_isSome.1 (Option.isSome_iff_exists.2 ⟨i, h.1⟩)

theorem Bus.GivesUp.isDead (h : s.GivesUp i id) : s.Dead id := ⟨i, h.1, h.2⟩

theorem PersistOk.afterPersist {state : EventState} {attempts : Nat} (h : PersistOk s i id state)
    (ht : Traces s i (.persisting id type state attempts)) :
    PhaseOk ids s i (afterPersist id type state) ∧ Traces s i (afterPersist id type state) := by
  have hunderway : ∀ {x' : Phase ι}, Accounted s x' id →
      ∀ id', (Phase.persisting id type state attempts : Phase ι).underway = some id' →
        Accounted s x' id' := by
    intro x' hacc id' hid'
    obtain rfl := Option.some.inj hid'
    exact hacc
  cases state with
  | success => exact ⟨h, ht.phase (hunderway (.inr (.inr (.inl h))))⟩
  | dead => exact ⟨h, ht.phase (hunderway (.inr (.inl (Bus.GivesUp.isDead h))))⟩
  | pending | failed => exact ⟨h, ht.phase (hunderway (.inl rfl))⟩

/-- **What call `i` does keeps the bus and its own assertion.** -/
theorem Move.self (h : Move cfg ids i s x s' x') (hlimit : ids.length ≤ cfg.limit) (hk : Kept ids s)
    (hx : PhaseOk ids s i x) (ht : Traces s i x) :
    Kept ids s' ∧ PhaseOk ids s' i x' ∧ Traces s' i x' := by
  have hgrows := h.grows hlimit hk hx
  cases h with
  | stay => exact ⟨hk, hx, ht⟩
  | registers handlers =>
    have hleaves : Leaves i s { s with handlers } := { Leaves.refl i s with }
    exact ⟨hk.of_same rfl rfl rfl, hleaves.phaseOk hx, hleaves.traces ht⟩
  | closes =>
    have hleaves : Leaves i s { s with closed := true } :=
      { Leaves.refl i s with closed := fun _ => rfl }
    exact ⟨hk.of_same rfl rfl rfl, hleaves.phaseOk hx, hleaves.traces ht⟩
  | attaches store =>
    have hleaves : Leaves i s { s with store } := { Leaves.refl i s with }
    exact ⟨hk.of_same rfl rfl rfl, hleaves.phaseOk hx, hleaves.traces ht⟩
  | refused id type r hx' hr =>
    subst hx'
    refine ⟨hk, ?_, ht.quiet rfl⟩
    rcases hr with rfl | ⟨rfl, hclosed⟩
    · trivial
    · exact hclosed
  | checks id type hx' hid =>
    subst hx'
    exact ⟨hk, ⟨hid, hx⟩, ht.quiet rfl⟩
  | skips id type store hx' =>
    subst hx'
    exact ⟨hk, hx, ht.quiet rfl⟩
  | creates id type store hx' hrow =>
    subst hx'
    have hcreate := createDelivery_eq (i := i) hrow
    refine ⟨?_, ?_, fun id' hown => ?_, fun id' type' row hrow' hby => ?_⟩
    · rw [hcreate]
      exact hk.of_same rfl rfl rfl
    · rw [hcreate]
      exact hx
    · rw [hcreate] at hown
      exact absurd hown (hx.2.1 id')
    rcases createDelivery_rows hrow hrow' with hold | ⟨rfl, -⟩
    · exact hgrows.accounted (fun h => absurd h.symm (Option.some_ne_none _)) (ht.stored id' type' row hold hby)
    · exact .inl rfl
  | turned id type store r hx' hr =>
    subst hx'
    refine ⟨hk, ?_, ht.quiet rfl⟩
    rcases hr with rfl | rfl <;> trivial
  | remembers id type hx' hnew =>
    subst hx'
    obtain ⟨hid, hunused⟩ := hx
    refine ⟨hk.remembers hlimit hid hnew, ?_, ?_⟩
    · rw [rememberEventLocked_eq hk hlimit hid]
      refine ⟨⟨AList.lookup_insert _, ?_⟩, fun h => absurd h Bool.false_ne_true,
        fun hmem => absurd (hk.handled id hmem) hnew⟩
      show (Function.update s.records i {} i).state ≠ .dead
      rw [update_self]
      decide
    rw [rememberEventLocked_eq hk hlimit hid] at hgrows ⊢
    refine ⟨fun id' hown => ?_, fun id' type' row hrow hby =>
      hgrows.accounted .inl (ht.stored id' type' row hrow hby)⟩
    by_cases hne : id' = id
    · exact .inl (congrArg some hne.symm)
    · exact absurd ((AList.lookup_insert_ne hne).symm.trans hown) (hunused.1 id')
  | routes id type hx' | unroutes id type hx' | fails id type hx' | wakes id type hx' =>
    subst hx'
    exact ⟨hk, hx, ht.phase fun id' => .inl⟩
  | shuts id type hx' hclosed | cancels id type hx' hclosed =>
    subst hx'
    exact ⟨hk, hclosed, ht.phase fun _ _ => .inr (.inr (.inr hclosed))⟩
  | buries id type hx' =>
    subst hx'
    rw [finish_eq hx.1.1] at hgrows ⊢
    have hgiven : Bus.GivesUp { s with
        records := Function.update s.records i { s.records i with state := .dead } } i id := by
      refine ⟨hx.1.1, ?_⟩
      show (Function.update s.records i _ i).state = .dead
      rw [update_self]
    refine ⟨hk.of_same rfl rfl rfl, hgiven, ht.grows hgrows rfl rfl fun id' hid' => ?_⟩
    obtain rfl := Option.some.inj hid'
    exact .inr (.inl hgiven.isDead)
  | succeeds id type hx' =>
    subst hx'
    have hnot : id ∉ s.successes := fun hmem => Bool.noConfusion (hx.2.2 hmem)
    refine ⟨⟨hk.perm, hk.within, List.nodup_cons.2 ⟨hnot, hk.once⟩, fun id' hid' => ?_⟩,
      ⟨hx.1, fun _ => List.mem_cons_self, fun _ => rfl⟩,
      ht.grows hgrows rfl rfl fun id' => .inl⟩
    rcases List.mem_cons.1 hid' with rfl | hold
    · exact hx.1.mem
    · exact hk.handled id' hold
  | reads id type ok hx' =>
    subst hx'
    exact ⟨hk, ⟨hx.1, hx.2, hx.1.1⟩, ht.phase fun id' => .inl⟩
  | settles id type rec attempts hx' =>
    subst hx'
    rw [finish_eq hx.1.1] at hgrows ⊢
    exact ⟨hk.of_same rfl rfl rfl, hx.2.1.1 rfl, ht.grows hgrows rfl rfl fun id' => .inl⟩
  | vanishes id type hx' =>
    subst hx'
    cases hx.2.2
  | counts id type k state attempts hx' hstate =>
    subst hx'
    obtain ⟨hworks, htold, hrec⟩ := hx
    obtain rfl := Option.some.inj hrec
    refine ⟨hk.of_same rfl rfl rfl, ?_, ht.grows hgrows rfl rfl fun id' => .inl⟩
    have hself : ∀ rec : EventRecord, Function.update s.records k rec k = rec :=
      fun rec => update_self ..
    rcases hstate with rfl | rfl
    · exact ⟨hworks.1, congrArg EventRecord.state (hself _)⟩
    refine ⟨⟨hworks.1, ?_⟩, htold⟩
    show (Function.update s.records k _ k).state ≠ .dead
    rw [hself]
    exact fun h => EventState.noConfusion h
  | passes id type state attempts hx' =>
    subst hx'
    exact ⟨hk, PersistOk.afterPersist hx ht⟩
  | persists id type state attempts hx' =>
    subst hx'
    have hleaves : Leaves i s (s.updateDeliveryState id type state attempts) := by
      refine { Leaves.refl i s with stored := fun id' type' row hrow hby => ?_ }
      obtain ⟨row', hrow', hsame⟩ := updateDeliveryState_rows hrow
      exact ⟨row', hrow', hsame.trans hby⟩
    obtain ⟨hok, htraces⟩ := PersistOk.afterPersist hx ht
    exact ⟨hk.of_same rfl rfl rfl, hleaves.phaseOk hok, hleaves.traces htraces⟩

def Inv (ids : List String) : Workers (Bus ι) ι (Phase ι) → Prop :=
  Workers.Holds (Kept ids) fun s i x => PhaseOk ids s i x ∧ Traces s i x

theorem Inv.step (hlimit : ids.length ≤ cfg.limit)
    {w : Workers (Bus ι) ι (Phase ι)} (h : Inv ids w) {i : ι} {a : Act}
    (hclean : Clean w (i, a)) (hids : Within ids (i, a)) : Inv ids (w.step (step cfg) (i, a)) := by
  have hmove : Move cfg ids i w.shared (w.proc i) (NewApi.Events.step cfg i w.shared (w.proc i) a).1
      (NewApi.Events.step cfg i w.shared (w.proc i) a).2 := step_move hclean hids
  obtain ⟨hx, ht⟩ := h.2 i
  refine Workers.Holds.step h i a (hmove.self hlimit h.1 hx ht) fun j hij hj => ?_
  have hleaves := hmove.leaves hlimit h.1 hx hij
  exact ⟨hleaves.phaseOk hj.1, hleaves.traces hj.2⟩

theorem Inv.delivers (hlimit : ids.length ≤ cfg.limit)
    {w : Workers (Bus ι) ι (Phase ι)} (h : Inv ids w) : Delivers cfg w where
  once := h.1.once
  mirrored := h.1.perm
  bounded := by
    rw [h.1.perm.length_eq]
    exact (keys_length_le h.1.within).trans hlimit
  kept i id type r hi hr := by
    have hdone := (h.2 i).1
    rw [hi] at hdone
    -- what the call that the traces lead to has made of the event
    have haccount : ∀ k, Accounted w.shared (w.proc k) id → w.shared.Dead id ∨
        w.shared.Free id type ∨ id ∈ w.shared.successes ∨
          (∃ j, (w.proc j).underway = some id) ∨ w.shared.closed = true := by
      rintro k (hk | hk | hk | hk)
      · exact .inr (.inr (.inr (.inl ⟨k, hk⟩)))
      · exact .inl hk
      · exact .inr (.inr (.inl hk))
      · exact .inr (.inr (.inr (.inr hk)))
    cases r with
    | noHandler | handlerError => exact .inl (Bus.GivesUp.isDead hdone)
    | cancelled => exact .inr (.inr (.inr (.inr hdone)))
    | storeError =>
      rcases hlookup : w.shared.events.lookup id with _ | k
      · by_cases hrows : ∀ row, w.shared.rows id type = some row → row.creator = none
        · exact .inr (.inl ⟨AList.lookup_eq_none.1 hlookup, fun _ => hrows⟩)
        push Not at hrows
        obtain ⟨row, hrow, hby⟩ := hrows
        obtain ⟨k, hk⟩ := Option.ne_none_iff_exists'.1 hby
        exact haccount k ((h.2 k).2.stored id type row hrow hk)
      · exact haccount k ((h.2 k).2.remembered id hlookup)
    | ok => cases hr
    | dup => cases hr
    | closed => cases hr

def opened (ι : Type) (store : Bool) (rows : String → String → Option (EventState × Nat)) :
    Workers (Bus ι) ι (Phase ι) :=
  ⟨{ store, rows := fun id type => (rows id type).map fun row => ⟨row.1, row.2, none⟩ },
    fun _ => .idle⟩

theorem not_owns_opened {store : Bool} {rows : String → String → Option (EventState × Nat)} {k : ι}
    : ¬(opened ι store rows).shared.Owns k id :=
  fun h => Option.some_ne_none k (h.symm.trans (AList.lookup_empty id))

theorem inv_opened (ids : List String) (store : Bool)
    (rows : String → String → Option (EventState × Nat)) : Inv ids (opened ι store rows) := by
  refine ⟨⟨.nil, fun id hid => absurd hid (AList.notMem_empty id), List.nodup_nil,
    fun _ h => absurd h List.not_mem_nil⟩,
    fun i => ⟨⟨fun id => not_owns_opened, fun h => EventState.noConfusion h⟩,
      fun id hown => absurd hown not_owns_opened, fun id type row hrow hby => ?_⟩⟩
  obtain ⟨row', -, rfl⟩ := Option.map_eq_some_iff.1 hrow
  cases hby

theorem within_published {as : List (ι × Act)} {a : ι × Act} (ha : a ∈ as) :
    Within (published as).dedup a := by
  obtain ⟨i, act⟩ := a
  cases act with
  | publish id type => exact List.mem_dedup.2 (List.mem_filterMap.2 ⟨_, ha, rfl⟩)
  | _ => trivial

/-- **Delivered at most once, and not lost**, in every clean run of at most
    `maxEvents` ids. -/
theorem clean_runs_deliver (cfg : Config) (store : Bool)
    (rows : String → String → Option (EventState × Nat)) (as : List (ι × Act))
    (hfew : (published as).dedup.length ≤ cfg.limit)
    (hclean : Meets Clean (Workers.step (step cfg)) (opened ι store rows) as) :
    Delivers cfg (run (Workers.step (step cfg)) (opened ι store rows) as) := by
  have hwithin : Meets (fun _ a => Within (published as).dedup a) (Workers.step (step cfg))
      (opened ι store rows) as := meets_of_forall fun a ha => within_published ha
  have hinv : Inv (published as).dedup (run (Workers.step (step cfg)) (opened ι store rows) as) :=
    run_invariant (Inv (published as).dedup) (fun _ _ h hc => h.step hfew hc.1 hc.2)
      (inv_opened _ store rows) (hclean.and hwithin)
  exact hinv.delivers hfew

/-- The test for a clean step. -/
def cleanOk (w : Workers (Bus ι) ι (Phase ι)) : ι × Act → Bool
  | (i, .next) =>
    match w.proc i with
    | .created id _ => id ∉ w.shared.events
    | _ => true
  | (i, .cancel) =>
    match w.proc i with
    | .backoff _ _ => w.shared.closed
    | _ => true
  | (i, .create (.error stored)) =>
    match w.proc i with
    | .checked id type true => !stored || (w.shared.rows id type).isSome
    | _ => true
  | _ => true

theorem clean_of_ok (w : Workers (Bus ι) ι (Phase ι)) (ia : ι × Act) (h : cleanOk w ia = true) :
    Clean w ia := by
  obtain ⟨i, a⟩ := ia
  cases a with
  | next =>
    intro id type hi
    simp only [cleanOk, hi, decide_eq_true_iff] at h
    exact h
  | cancel =>
    intro id type hi
    simp only [cleanOk, hi] at h
    exact h
  | create reply =>
    cases reply with
    | answer => trivial
    | error stored =>
      intro id type hi hstored
      simp only [cleanOk, hi, hstored, Bool.not_true, Bool.false_or] at h
      exact Option.isSome_iff_ne_none.1 h
  | _ => trivial

def oneRetry : Config := ⟨0, 1⟩

/-- An event fails and is retried; then it comes again. -/
def retried : List (Bool × Act) :=
  [(false, .register "paid"), (false, .publish "e1" "paid"), (false, .create .answer),
    (false, .next), (false, .next), (false, .handle false), (false, .next), (false, .next),
    (false, .persist true), (false, .wake), (false, .handle true), (false, .next), (false, .next),
    (false, .persist true), (true, .publish "e1" "paid")]

theorem retried_delivers :
    Delivers oneRetry (run (Workers.step (step oneRetry)) (opened Bool true fun _ _ => none)
      retried) := by
  refine clean_runs_deliver oneRetry true (fun _ _ => none) retried (by decide) ?_
  refine Meets.mono (C := fun w ia => cleanOk w ia = true) clean_of_ok ?_
  decide +kernel

/-- Two calls with one id, and no store. -/
def publishedTwice : List (Bool × Act) :=
  [(false, .register "paid"), (false, .publish "e1" "paid"), (true, .publish "e1" "paid"),
    (false, .create .answer), (true, .create .answer), (false, .next), (true, .next),
    (false, .next), (true, .next), (false, .handle true), (true, .handle true)]

/-- The wait before the retry is cancelled. -/
def cancelledRetry : List (Bool × Act) :=
  [(false, .register "paid"), (false, .publish "e1" "paid"), (false, .create .answer),
    (false, .next), (false, .next), (false, .handle false), (false, .next), (false, .next),
    (false, .persist true), (false, .cancel)]

/-- **Delivered twice, and lost.**  Both calls find the id unknown, and the event
    is handled twice; a cancelled wait leaves the event unhandled, not dead, and
    a duplicate for ever. -/
theorem publishedTwice_cancelledRetry : (published publishedTwice).dedup.length ≤ oneRetry.limit ∧
      (published cancelledRetry).dedup.length ≤ oneRetry.limit ∧
      ¬Delivers oneRetry (run (Workers.step (step oneRetry)) (opened Bool false fun _ _ => none)
        publishedTwice) ∧
      ¬Delivers oneRetry (run (Workers.step (step oneRetry)) (opened Bool false fun _ _ => none)
        cancelledRetry) := by
  refine ⟨by decide, by decide, fun h => absurd h.once (by decide +kernel), fun h => ?_⟩
  rcases h.kept false "e1" "paid" .cancelled (by rfl) rfl with hk | hk | hk | hk | hk
  · obtain ⟨k, -, hdead⟩ := hk
    cases k with
    | false | true => exact absurd hdead (by decide +kernel)
  · exact absurd hk.1 (by decide +kernel)
  · exact absurd hk (by decide +kernel)
  · obtain ⟨k, hunder⟩ := hk
    cases k with
    | false | true => exact absurd hunder (by decide +kernel)
  · exact absurd hk (by decide +kernel)

end NewApi.Events
