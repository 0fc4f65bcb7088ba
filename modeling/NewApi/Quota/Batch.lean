/-
  NewApi.Quota.Batch

  The batch updater: deltas recorded by `addNewRecord`, swapped out and applied
  row by row by `flushBatchUpdateStores`, by the periodic worker or by
  `StopBatchUpdater` (`model/utils.go`, `model/user.go`, `model/token.go`,
  `model/channel.go`).

  Every lock section and every row update is one step.  `addNewRecord` calls of
  the request handlers stand between any two steps of a flush; a flush swaps one
  store at a time, then updates the rows one at a time, and each update may miss.
  The worker and the stopper flush independently of each other.

  Two ghosts keep what leaves these places: what saturation cut off, and what row
  updates that missed were carrying.
-/

import NewApi.Lib.Run
import NewApi.Lib.Keyed
import Mathlib.Data.List.Dedup

namespace NewApi.Quota.Batch

open Function (comp_def)
open NewApi.Lib

/-! ## The stores -/

/-- `BatchUpdateTypeUserQuota` and so on -/
inductive BatchType where
  | userQuota
  | tokenQuota
  | usedQuota
  | channelUsedQuota
  | requestCount
deriving DecidableEq

def batchTypes : List BatchType :=
  [.userQuota, .tokenQuota, .usedQuota, .channelUsedQuota, .requestCount]

theorem mem_batchTypes (t : BatchType) : t ∈ batchTypes := by
  cases t <;> decide

/-- A `map[int]int`. -/
abbrev Store := AList fun _ : Int => Int64

variable (store : Store)

/-- `store[key]`, zero where there is no entry -/
def Store.value (key : Int) : Int64 := (store.lookup key).getD 0

/-- The sum `addNewRecord` stores over an old entry: the wrapped sum is replaced
    by the bound it went past. -/
def saturatingAdd (old value : Int64) : Int64 :=
  let sum := old + value
  if (0 < value ∧ sum < old) ∨ (value < 0 ∧ old < sum) then
    if 0 < value then Int64.maxValue else Int64.minValue
  else sum

/-- The map after `addNewRecord`. -/
def addNewRecord (id : Int) (value : Int64) : Store :=
  match store.lookup id with
  | none => store.insert id value
  | some old => store.insert id (saturatingAdd old value)

theorem toInt_add_cases (a b : Int64) : (a + b).toInt = a.toInt + b.toInt ∧
        -2 ^ 63 ≤ a.toInt + b.toInt ∧ a.toInt + b.toInt < 2 ^ 63 ∨
      (a + b).toInt = a.toInt + b.toInt - 2 ^ 64 ∧ 2 ^ 63 ≤ a.toInt + b.toInt ∨
      (a + b).toInt = a.toInt + b.toInt + 2 ^ 64 ∧ a.toInt + b.toInt < -2 ^ 63 := by
  have ha := a.toInt_lt
  have ha' := a.le_toInt
  have hb := b.toInt_lt
  have hb' := b.le_toInt
  rw [Int64.toInt_add, Int.bmod_def]
  omega

theorem saturatingAdd_toInt (old value : Int64) : (saturatingAdd old value).toInt =
      max (-2 ^ 63) (min (2 ^ 63 - 1) (old.toInt + value.toInt)) := by
  have ha := old.toInt_lt
  have ha' := old.le_toInt
  have hb := value.toInt_lt
  have hb' := value.le_toInt
  have hsum := toInt_add_cases old value
  have h0 : (0 : Int64).toInt = 0 := rfl
  simp only [saturatingAdd, Int64.lt_iff_toInt_lt, h0]
  split
  · split
    · rw [Int64.toInt_maxValue]
      omega
    · rw [Int64.toInt_minValue]
      omega
  · omega

/-! ## Row updates -/

/-- The columns the updates write. -/
inductive Column where
  | userQuota
  | userUsedQuota
  | userRequestCount
  | tokenRemainQuota
  | tokenUsedQuota
  | channelUsedQuota
deriving DecidableEq

abbrev Db := Column → Int → Int

/-- `column = column + value` in the row of `id` -/
def Db.add (db : Db) (c : Column) (id : Int) (value : Int) : Db :=
  fun c' id' => if c' = c ∧ id' = id then db c' id' + value else db c' id'

def BatchType.column : BatchType → Column
  | .userQuota => .userQuota
  | .tokenQuota => .tokenRemainQuota
  | .usedQuota => .userUsedQuota
  | .channelUsedQuota => .channelUsedQuota
  | .requestCount => .userRequestCount

/-- One row update of a flush, with the values it carries. -/
inductive Job where
  | token (id : Int) (quota : Int64)
  | channel (id : Int) (quota : Int64)
  | user (id : Int) (quota usedQuota requestCount : Int64)
deriving DecidableEq

def increaseTokenQuota (db : Db) (id : Int) (quota : Int64) : Db :=
  (db.add .tokenRemainQuota id quota.toInt).add .tokenUsedQuota id (-quota.toInt)

def updateChannelUsedQuota (db : Db) (id : Int) (quota : Int64) : Db :=
  db.add .channelUsedQuota id quota.toInt

/-- `updateUserQuotaUsedQuotaAndRequestCount`: one statement for three columns,
    left out where all three are zero. -/
def updateUserQuotaUsedQuotaAndRequestCount (db : Db) (id : Int)
    (quota usedQuota requestCount : Int64) : Db :=
  if quota = 0 ∧ usedQuota = 0 ∧ requestCount = 0 then db
  else
    ((db.add .userQuota id quota.toInt).add .userUsedQuota id usedQuota.toInt).add
      .userRequestCount id requestCount.toInt

/-- What a row update writes when it takes effect. -/
def Job.write (db : Db) : Job → Db
  | .token id quota => increaseTokenQuota db id quota
  | .channel id quota => updateChannelUsedQuota db id quota
  | .user id quota usedQuota requestCount =>
    updateUserQuotaUsedQuotaAndRequestCount db id quota usedQuota requestCount

/-- What a row update carries for a type and an id. -/
def Job.carries (job : Job) (t : BatchType) (id : Int) : Int :=
  match job, t with
  | .token id' quota, .tokenQuota => if id' = id then quota.toInt else 0
  | .channel id' quota, .channelUsedQuota => if id' = id then quota.toInt else 0
  | .user id' quota _ _, .userQuota => if id' = id then quota.toInt else 0
  | .user id' _ usedQuota _, .usedQuota => if id' = id then usedQuota.toInt else 0
  | .user id' _ _ requestCount, .requestCount => if id' = id then requestCount.toInt else 0
  | _, _ => 0

variable (stores : BatchType → Store)

def userIDs : List Int :=
  ((stores .userQuota).keys ++ (stores .usedQuota).keys ++ (stores .requestCount).keys).dedup

/-- The row updates of a flush that has swapped `stores` out: tokens, then
    channels, then users.  Go leaves the order inside a map open. -/
def rowUpdates : List Job :=
  (stores .tokenQuota).entries.map (fun e => .token e.1 e.2) ++
    ((stores .channelUsedQuota).entries.map (fun e => .channel e.1 e.2) ++
      (userIDs stores).map fun key =>
        .user key ((stores .userQuota).value key) ((stores .usedQuota).value key)
          ((stores .requestCount).value key))

/-! ## The updater -/

def Unswapped (todo : List BatchType) (stores : BatchType → Store) : Prop :=
  todo.Nodup ∧ ∀ t ∈ todo, stores t = ∅

theorem Unswapped.swap {t : BatchType} {todo : List BatchType} {stores : BatchType → Store}
    (h : Unswapped (t :: todo) stores) (store : Store) :
    Unswapped todo (Function.update stores t store) := by
  have hnd := List.nodup_cons.mp h.1
  refine ⟨hnd.2, fun t' ht' => ?_⟩
  have hne : t' ≠ t := fun e => hnd.1 (e ▸ ht')
  rw [Function.update_of_ne hne]
  exact h.2 t' (List.mem_cons_of_mem _ ht')

/-- `flushBatchUpdateStores` in progress: the types still to swap with what is
    swapped out already, or the row updates still to make. -/
inductive Flush where
  | swapping (todo : List BatchType) (stores : BatchType → Store) (h : Unswapped todo stores)
  | applying (jobs : List Job)

/-- Entering `flushBatchUpdateStores`. -/
def Flush.start : Flush := .swapping batchTypes (fun _ => ∅) ⟨by decide, fun _ _ => rfl⟩

/-- The periodic worker: no `batchUpdaterCancel`, waiting for the ticker or the
    context, in a flush, or returned with `batchUpdaterCancel` still set. -/
inductive Worker where
  | absent
  | waiting (cancelled : Bool)
  | flushing (cancelled : Bool) (f : Flush)
  | exited

/-- `StopBatchUpdater`: not called, in `batchUpdaterWG.Wait`, in its own flush,
    or returned. -/
inductive Stopper where
  | absent
  | waiting
  | flushing (f : Flush)
  | returned

/-- Who runs a flush. -/
inductive Flusher where
  | worker
  | stopper
deriving DecidableEq

structure State where
  stores : BatchType → Store
  db : Db
  worker : Worker
  stopper : Stopper
  /-- ghost: what row updates that missed were carrying -/
  missed : BatchType → Int → Int
  /-- ghost: exact sums minus stored sums -/
  cut : BatchType → Int → Int

/-- The process after `init`, over the rows `db`. -/
def initial (db : Db) : State where
  stores := fun _ => ∅
  db := db
  worker := .absent
  stopper := .absent
  missed := fun _ _ => 0
  cut := fun _ _ => 0

inductive Act where
  /-- a caller's `addNewRecord` -/
  | add (t : BatchType) (id : Int) (value : Int64)
  /-- `InitBatchUpdater` -/
  | init
  /-- the ticker fires and the worker is in `batchUpdate` -/
  | tick
  /-- the worker sees its context done -/
  | done
  /-- `StopBatchUpdater` is called -/
  | stop
  /-- its `batchUpdaterWG.Wait` returns -/
  | waited
  /-- a flush swaps its next store -/
  | swap (who : Flusher)
  /-- a flush makes its `n`-th remaining row update; `ok` says that a row took it -/
  | row (who : Flusher) (n : Nat) (ok : Bool)

variable (s : State)

/-- The flush `who` is in. -/
def State.flush : Flusher → Option Flush
  | .worker =>
    match s.worker with
    | .flushing _ f => some f
    | _ => none
  | .stopper =>
    match s.stopper with
    | .flushing f => some f
    | _ => none

/-- The flush of `who` goes on with `f`, or is over. -/
def State.setFlush (who : Flusher) (f : Option Flush) : State :=
  match who with
  | .worker =>
    match s.worker, f with
    | .flushing c _, some f => { s with worker := .flushing c f }
    | .flushing c _, none => { s with worker := .waiting c }
    | _, _ => s
  | .stopper =>
    match s.stopper, f with
    | .flushing _, some f => { s with stopper := .flushing f }
    | .flushing _, none => { s with stopper := .returned }
    | _, _ => s

def applyNext : List Job → Option Flush
  | [] => none
  | jobs => some (.applying jobs)

def swapNext (todo : List BatchType) (stores : BatchType → Store)
    (h : Unswapped todo stores) : Option Flush :=
  match todo with
  | [] => applyNext (rowUpdates stores)
  | t :: todo => some (.swapping (t :: todo) stores h)

/-- The first loop of `batchUpdate`. -/
def State.hasData : Bool := batchTypes.any fun t => !(s.stores t).entries.isEmpty

/-- What a row update leaves behind. -/
def State.update (job : Job) (ok : Bool) : State :=
  if ok then { s with db := job.write s.db }
  -- an error is logged, and no row is no error: the delta is in no store any more
  else { s with missed := fun t id => s.missed t id + job.carries t id }

/-- The part of `addNewRecord`'s exact sum that its stored sum does not have. -/
def overflow (id : Int) (value : Int64) : Int :=
  (store.value id).toInt + value.toInt - ((addNewRecord store id value).value id).toInt

def step : Act → State
  | .add t id value =>
    { s with
      stores := Function.update s.stores t (addNewRecord (s.stores t) id value)
      cut := fun t' id' =>
        if t' = t ∧ id' = id then s.cut t' id' + overflow (s.stores t) id value
        else s.cut t' id' }
  | .init =>
    match s.worker with
    | .absent => { s with worker := .waiting false }
    | _ => s
  | .tick =>
    match s.worker with
    | .waiting c => if s.hasData then { s with worker := .flushing c .start } else s
    | _ => s
  | .done =>
    match s.worker with
    | .waiting true => { s with worker := .exited }
    | _ => s
  | .stop =>
    match s.stopper with
    | .waiting => s
    | .flushing _ => s
    | _ =>
      match s.worker with
      | .absent => { s with stopper := .flushing .start }
      | .waiting _ => { s with worker := .waiting true, stopper := .waiting }
      | .flushing _ f => { s with worker := .flushing true f, stopper := .waiting }
      | .exited => { s with stopper := .waiting }
  | .waited =>
    match s.stopper, s.worker with
    | .waiting, .exited => { s with worker := .absent, stopper := .flushing .start }
    | _, _ => s
  | .swap who =>
    match s.flush who with
    | some (.swapping (t :: todo) stores h) =>
      State.setFlush { s with stores := Function.update s.stores t ∅ } who
        (swapNext todo (Function.update stores t (s.stores t)) (h.swap (s.stores t)))
    | _ => s
  | .row who n ok =>
    match s.flush who with
    | some (.applying jobs) =>
      match jobs[n]? with
      | some job => (s.update job ok).setFlush who (applyNext (jobs.eraseIdx n))
      | none => s
    | _ => s

/-! ## Where a delta is -/

variable (t : BatchType)

variable (id : Int)

def State.queued : Int := ((s.stores t).value id).toInt

def Flush.held : Flush → Int
  | .swapping _ stores _ => ((stores t).value id).toInt
  | .applying jobs => (jobs.map fun job => job.carries t id).sum

def heldBy : Option Flush → Int
  | some f => f.held t id
  | none => 0

def State.inFlush : Int :=
  heldBy t id (s.flush .worker) + heldBy t id (s.flush .stopper)

def State.balance : Int :=
  s.db t.column id + s.inFlush t id + s.queued t id + s.missed t id + s.cut t id

def Act.records : Act → Int
  | .add t' id' value => if t = t' ∧ id = id' then value.toInt else 0
  | _ => 0

def recorded (as : List Act) (t : BatchType) (id : Int) : Int :=
  (as.map fun a => a.records t id).sum

/-! ## The stores and the row updates, one lemma each -/

@[simp] theorem value_empty : Store.value ∅ id = 0 := by
  simp [Store.value]

theorem value_insert (id id' : Int) (value : Int64) :
    Store.value (store.insert id value) id' = if id' = id then value else store.value id' := by
  by_cases h : id' = id
  · subst h
    simp [Store.value]
  · simp [Store.value, h, AList.lookup_insert_ne h]

theorem value_addNewRecord_ne {id id' : Int} (value : Int64) (h : id' ≠ id) :
    (addNewRecord store id value).value id' = store.value id' := by
  unfold addNewRecord
  split
  · rw [value_insert, if_neg h]
  · rw [value_insert, if_neg h]

theorem toInt_value_addNewRecord (value : Int64) : ((addNewRecord store id value).value id).toInt =
      max (-2 ^ 63) (min (2 ^ 63 - 1) ((store.value id).toInt + value.toInt)) := by
  have hlt := value.toInt_lt
  have hle := value.le_toInt
  unfold addNewRecord
  split
  · rename_i hnone
    have h0 : store.value id = 0 := by simp [Store.value, hnone]
    rw [value_insert, if_pos rfl, h0, Int64.toInt_zero]
    omega
  rename_i old hold
  have hval : store.value id = old := by simp [Store.value, hold]
  rw [value_insert, if_pos rfl, saturatingAdd_toInt, hval]

theorem overflow_eq_zero {store : Store} {id : Int} {value : Int64}
    (hlo : -2 ^ 63 ≤ (store.value id).toInt + value.toInt)
    (hhi : (store.value id).toInt + value.toInt < 2 ^ 63) : overflow store id value = 0 := by
  unfold overflow
  rw [toInt_value_addNewRecord]
  omega

theorem lookup_toInt : ((store.lookup id).map Int64.toInt).getD 0 = (store.value id).toInt := by
  unfold Store.value
  cases store.lookup id with
  | none => rfl
  | some v => rfl

theorem write_column (job : Job) (db : Db) (t : BatchType) (id : Int) :
    job.write db t.column id = db t.column id + job.carries t id := by
  cases job with
  | token id' quota =>
    cases t <;>
      simp [Job.write, increaseTokenQuota, Db.add, BatchType.column, Job.carries, eq_comm]
    split <;> simp
  | channel id' quota =>
    cases t <;>
      simp [Job.write, updateChannelUsedQuota, Db.add, BatchType.column, Job.carries, eq_comm]
    split <;> simp
  | user id' quota usedQuota requestCount =>
    by_cases h : quota = 0 ∧ usedQuota = 0 ∧ requestCount = 0
    · obtain ⟨rfl, rfl, rfl⟩ := h
      cases t <;>
        simp [Job.write, updateUserQuotaUsedQuotaAndRequestCount, BatchType.column, Job.carries]
    cases t <;>
      simp [Job.write, updateUserQuotaUsedQuotaAndRequestCount, h, Db.add, BatchType.column,
        Job.carries, eq_comm] <;>
      split <;> simp

theorem sum_userIDs {t : BatchType} (ht : (stores t).keys ⊆ userIDs stores) :
    ((userIDs stores).map fun key =>
        if key = id then ((stores t).value key).toInt else 0).sum =
      ((stores t).value id).toInt := by
  have hnd : (userIDs stores).Nodup := List.nodup_dedup _
  rw [sum_map_ite_of_nodup hnd fun key => ((stores t).value key).toInt]
  by_cases h : id ∈ userIDs stores
  · rw [if_pos h]
  have hkey : id ∉ stores t := fun hmem => h (ht (AList.mem_keys.mp hmem))
  rw [if_neg h, Store.value, AList.lookup_eq_none.mpr hkey]
  rfl

theorem sum_rowUpdates : ((rowUpdates stores).map fun job => job.carries t id).sum =
      ((stores t).value id).toInt := by
  have hother : ∀ {α : Type} (l : List α), (l.map fun _ => (0 : Int)).sum = 0 := by
    intro α l
    simp
  simp only [rowUpdates, List.map_append, List.map_map, List.sum_append]
  cases t with
  | tokenQuota =>
    have h := sum_entries_eq_lookup (stores .tokenQuota) Int64.toInt id
    rw [lookup_toInt] at h
    simpa [comp_def, Job.carries, hother] using h
  | channelUsedQuota =>
    have h := sum_entries_eq_lookup (stores .channelUsedQuota) Int64.toInt id
    rw [lookup_toInt] at h
    simpa [comp_def, Job.carries, hother] using h
  | userQuota =>
    have h := sum_userIDs stores (t := .userQuota) id (fun k hk => by simp [userIDs, hk])
    simpa [comp_def, Job.carries, hother] using h
  | usedQuota =>
    have h := sum_userIDs stores (t := .usedQuota) id (fun k hk => by simp [userIDs, hk])
    simpa [comp_def, Job.carries, hother] using h
  | requestCount =>
    have h := sum_userIDs stores (t := .requestCount) id (fun k hk => by simp [userIDs, hk])
    simpa [comp_def, Job.carries, hother] using h

end NewApi.Quota.Batch
