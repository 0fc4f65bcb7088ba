/-
  NewApi.AsyncTask.Dispatch

  One polling pass (`RunTaskPollingOnce` of `service/task_polling.go`): which
  task is queried where, and which task an answer is applied to.

  The unfinished tasks of a platform are regrouped into two maps, the upstream
  ids of each channel and the task of each upstream id.  The pollers go through
  the first and look up in the second, which knows nothing of channels: of two
  tasks with one upstream id only the later is left, and a batch reply reaches
  every task of the platform that it names.

  What an answer does to the task it is applied to is `NewApi.AsyncTask.Plan`.
-/

import NewApi.Lib.Grouping
import Mathlib.Data.List.Dedup
import Mathlib.Data.List.Induction

namespace NewApi.AsyncTask.Dispatch

open List (flatMap_congr mem_filter mem_flatMap mem_map mem_singleton not_mem_nil perm_nil)
open NewApi.Lib

/-! ## The tasks of a platform -/

/-- `model.Task`, as a pass groups it -/
structure Task where
  id : Int
  platform : String
  channelId : Int
  taskID : String
  /-- `PrivateData.UpstreamTaskID` -/
  upstreamTaskID : String := ""
deriving DecidableEq

def Task.getUpstreamTaskID (t : Task) : String :=
  if t.upstreamTaskID ≠ "" then t.upstreamTaskID else t.taskID

def taskPlatformMidjourney : String := "mj"

/-- What `GetAllUnFinishSyncTasks` has loaded: rows with their primary keys. -/
structure Unfinished where
  tasks : List Task
  ids_nodup : (tasks.map Task.id).Nodup

/-- The maps of a platform's pass, `channels` being the keys of `taskChannelM`. -/
structure Grouping where
  taskChannelM : Int → List String := fun _ => []
  channels : List Int := []
  taskM : String → Option Task := fun _ => none
  nullTaskIds : List Int := []

/-- One round of the loop over the tasks. -/
def Grouping.add (g : Grouping) (task : Task) : Grouping :=
  let upstreamID := task.getUpstreamTaskID
  if upstreamID = "" then { g with nullTaskIds := g.nullTaskIds ++ [task.id] }
  else
    { g with
      taskM := Function.update g.taskM upstreamID (some task)
      taskChannelM := Function.update g.taskChannelM task.channelId
        (g.taskChannelM task.channelId ++ [upstreamID])
      channels := if task.channelId ∈ g.channels then g.channels
        else g.channels ++ [task.channelId] }

variable (tasks : List Task)

def group : Grouping := tasks.foldl Grouping.add {}

def withUpstreamID : List Task := tasks.filter (·.getUpstreamTaskID ≠ "")

def ofChannel (channelId : Int) : List Task :=
  (withUpstreamID tasks).filter (·.channelId = channelId)

/-- What the two maps hold. -/
structure Groups (tasks : List Task) (g : Grouping) : Prop where
  taskM_eq : g.taskM = lastBy Task.getUpstreamTaskID (withUpstreamID tasks)
  ids_eq : ∀ c, g.taskChannelM c = (ofChannel tasks c).map Task.getUpstreamTaskID
  nodup : g.channels.Nodup
  mem_channels : ∀ c, c ∈ g.channels ↔ ∃ t ∈ withUpstreamID tasks, t.channelId = c

theorem Groups.add {tasks : List Task} {g : Grouping} (h : Groups tasks g) (task : Task) :
    Groups (tasks ++ [task]) (g.add task) := by
  by_cases hid : task.getUpstreamTaskID = ""
  · have hwith : withUpstreamID (tasks ++ [task]) = withUpstreamID tasks := by
      simp [withUpstreamID, hid]
    have hof : ∀ c, ofChannel (tasks ++ [task]) c = ofChannel tasks c := by
      intro c
      rw [ofChannel, hwith, ofChannel]
    rw [Grouping.add, if_pos hid]
    exact ⟨by rw [hwith]; exact h.taskM_eq, fun c => by rw [hof]; exact h.ids_eq c, h.nodup,
      by rw [hwith]; exact h.mem_channels⟩
  have hwith : withUpstreamID (tasks ++ [task]) = withUpstreamID tasks ++ [task] := by
    simp [withUpstreamID, hid]
  rw [Grouping.add, if_neg hid]
  refine ⟨?_, ?_, ?_, ?_⟩
  · rw [hwith, lastBy_concat, ← h.taskM_eq]
  · intro c
    rw [ofChannel, hwith, List.filter_append]
    by_cases hc : c = task.channelId
    · subst hc
      show Function.update g.taskChannelM _ _ _ = _
      rw [Function.update_self, h.ids_eq]
      simp [ofChannel]
    show Function.update g.taskChannelM _ _ c = _
    rw [Function.update_of_ne hc, h.ids_eq]
    simp [ofChannel, Ne.symm hc]
  · by_cases hc : task.channelId ∈ g.channels
    · simp only [if_pos hc]
      exact h.nodup
    simp only [if_neg hc]
    exact List.nodup_append.2 ⟨h.nodup, List.nodup_singleton _, by
      intro a ha b hb hab
      rw [mem_singleton.1 hb] at hab
      exact hc (hab ▸ ha)⟩
  intro c
  rw [hwith]
  simp only [List.mem_append, mem_singleton, or_and_right, exists_or, exists_eq_left]
  rw [← h.mem_channels]
  by_cases hc : task.channelId ∈ g.channels
  · simp only [if_pos hc]
    exact ⟨.inl, fun hor => hor.elim id fun heq => heq ▸ hc⟩
  · simp only [if_neg hc, List.mem_append, mem_singleton, eq_comm]

/-- **What a pass has regrouped.** -/
theorem groups_group : Groups tasks (group tasks) := by
  induction tasks using List.reverseRecOn with
  | nil => exact ⟨rfl, fun _ => rfl, List.nodup_nil, fun c => by simp [group, withUpstreamID]⟩
  | append_singleton tasks task ih =>
    rw [group, List.foldl_concat]
    exact ih.add task

/-! ## The pollers -/

/-- The adaptor of a platform; `items` are the upstream ids in a batch reply of
    a channel that was asked for the tasks. -/
inductive Adaptor where
  | batch (items : Int → List Task → List String)
  | single

/-- What a pass meets.  The channels come in the order of a map's iteration, or
    sorted, each in a goroutine of its own. -/
structure Env where
  getTaskAdaptor : String → Option Adaptor
  /-- `CacheGetChannel` -/
  channelFound : Int → Bool
  order : List Int → List Int
  order_perm : ∀ l, (order l).Perm l

inductive Event where
  /-- closed for want of an upstream id, or of its channel -/
  | failed (id : Int)
  | query (channelId : Int) (task : Task)
  /-- the channel's answer for the id, and the task it is applied to -/
  | answer (channelId : Int) (upstreamID : String) (task : Option Task)

variable (env : Env)

def updateBatchTasks (items : Int → List Task → List String) (taskM : String → Option Task)
    (channelId : Int) (taskIds : List String) : List Event :=
  let tasks := taskIds.filterMap taskM
  if taskIds = [] then []
  else if !env.channelFound channelId then tasks.map fun t => .failed t.id
  else
    tasks.map (.query channelId) ++
      (items channelId tasks).map fun upstreamID => .answer channelId upstreamID (taskM upstreamID)

variable (taskM : String → Option Task)

def updateVideoSingleTask (channelId : Int) (taskId : String) : List Event :=
  match taskM taskId with
  | none => []
  | some task => [.query channelId task, .answer channelId task.getUpstreamTaskID (some task)]

def updateVideoTasks (adaptor : Option Adaptor) (taskM : String → Option Task)
    (channelId : Int) (taskIds : List String) : List Event :=
  if taskIds = [] then []
  else if !env.channelFound channelId then (taskIds.filterMap taskM).map fun t => .failed t.id
  else if adaptor.isNone then []
  else taskIds.flatMap (updateVideoSingleTask taskM channelId)

variable (platform : String)

def dispatchPlatformUpdate (g : Grouping) : List Event :=
  if platform = taskPlatformMidjourney then []
  else
    match env.getTaskAdaptor platform with
    | some (.batch items) =>
      (env.order g.channels).flatMap fun c => updateBatchTasks env items g.taskM c
        (g.taskChannelM c)
    | adaptor =>
      (env.order g.channels).flatMap fun c => updateVideoTasks env adaptor g.taskM c
        (g.taskChannelM c)

def pollPlatform (tasks : List Task) : List Event :=
  let g := group tasks
  g.nullTaskIds.map .failed ++
    if g.channels = [] then [] else dispatchPlatformUpdate env platform g

/-- `RunTaskPollingOnce`, from the tasks it has loaded. -/
def runTaskPollingOnce (u : Unfinished) : List (String × Event) :=
  (u.tasks.map Task.platform).dedup.flatMap fun platform =>
    (pollPlatform env platform (u.tasks.filter (·.platform = platform))).map (platform, ·)

/-! ## Polled as oneself -/

def queries (log : List Event) : List (Int × Task) :=
  log.filterMap fun e => match e with
    | .query channelId task => some (channelId, task)
    | _ => none

def answers (log : List Event) : List (Int × String × Option Task) :=
  log.filterMap fun e => match e with
    | .answer channelId upstreamID task => some (channelId, upstreamID, task)
    | _ => none

/-- Each task with an upstream id is queried once, on its channel, and an answer
    is applied to what is stored with its channel and its id, and to no other. -/
def PolledAsThemselves (tasks : List Task) (log : List Event) : Prop :=
  (queries log).Perm ((withUpstreamID tasks).map fun t => (t.channelId, t)) ∧
    ∀ a ∈ answers log, a.2.2.toList =
      (withUpstreamID tasks).filter fun t => t.channelId = a.1 ∧ t.getUpstreamTaskID = a.2.1

/-- The tasks of a platform can be told apart by the upstream id alone, there is
    a poller for them and a channel for each, and no batch reply names a task of
    another channel. -/
structure ToldApart (platform : String) (tasks : List Task) : Prop where
  ids : ∀ t ∈ withUpstreamID tasks, ∀ t' ∈ withUpstreamID tasks,
    t.getUpstreamTaskID = t'.getUpstreamTaskID → t = t'
  polled : withUpstreamID tasks ≠ [] →
    platform ≠ taskPlatformMidjourney ∧ env.getTaskAdaptor platform ≠ none
  found : ∀ t ∈ withUpstreamID tasks, env.channelFound t.channelId = true
  own : ∀ items, env.getTaskAdaptor platform = some (.batch items) →
    ∀ t ∈ withUpstreamID tasks, ∀ t' ∈ withUpstreamID tasks,
      t'.getUpstreamTaskID ∈ items t.channelId (ofChannel tasks t.channelId) →
        t'.channelId = t.channelId

variable {env}

theorem queries_append (l l' : List Event) : queries (l ++ l') = queries l ++ queries l' :=
  List.filterMap_append

theorem answers_append (l l' : List Event) : answers (l ++ l') = answers l ++ answers l' :=
  List.filterMap_append

theorem queries_flatMap {κ : Type} (keys : List κ) (f : κ → List Event) :
    queries (keys.flatMap f) = keys.flatMap fun c => queries (f c) :=
  List.filterMap_flatMap ..

theorem answers_flatMap {κ : Type} (keys : List κ) (f : κ → List Event) :
    answers (keys.flatMap f) = keys.flatMap fun c => answers (f c) :=
  List.filterMap_flatMap ..

theorem queries_failed {α : Type} (l : List α) (f : α → Int) :
    queries (l.map fun x => .failed (f x)) = [] := by
  simp [queries]

theorem answers_failed {α : Type} (l : List α) (f : α → Int) :
    answers (l.map fun x => .failed (f x)) = [] := by
  simp [answers]

variable (c : Int)

theorem queries_map_query (l : List Task) : queries (l.map (.query c)) = l.map (c, ·) := by
  simp [queries]

theorem answers_map_query (l : List Task) : answers (l.map (.query c)) = [] := by
  simp [answers]

/-! ## One channel -/

variable (taskIds : List String)

def lookedUp : List Task :=
  taskIds.filterMap taskM

theorem queries_updateBatchTasks (items : Int → List Task → List String)
    (taskM : String → Option Task) (c : Int) (taskIds : List String) :
    queries (updateBatchTasks env items taskM c taskIds) =
      if env.channelFound c = true then (lookedUp taskM taskIds).map (c, ·) else [] := by
  unfold updateBatchTasks
  by_cases hids : taskIds = []
  · simp [hids, lookedUp, queries]
  rw [if_neg hids]
  cases hfound : env.channelFound c
  · exact queries_failed _ _
  show queries (_ ++ _) = _
  rw [queries_append, queries_map_query]
  simp [queries, lookedUp]

theorem answers_updateBatchTasks {items : Int → List Task → List String}
    {taskM : String → Option Task} {c : Int} {taskIds : List String} (hids : taskIds ≠ [])
    (hfound : env.channelFound c = true) : answers (updateBatchTasks env items taskM c taskIds) =
      (items c (lookedUp taskM taskIds)).map fun u => (c, u, taskM u) := by
  unfold updateBatchTasks
  rw [if_neg hids, hfound]
  show answers (_ ++ _) = _
  rw [answers_append, answers_map_query]
  simp [answers, lookedUp]

theorem queries_updateVideoSingleTask (taskId : String) :
    queries (updateVideoSingleTask taskM c taskId) = ((taskM taskId).map (c, ·)).toList := by
  unfold updateVideoSingleTask
  cases taskM taskId <;> rfl

theorem answers_updateVideoSingleTask (taskId : String) :
    answers (updateVideoSingleTask taskM c taskId) =
      ((taskM taskId).map fun t => (c, t.getUpstreamTaskID, some t)).toList := by
  unfold updateVideoSingleTask
  cases taskM taskId <;> rfl

theorem flatMap_toList {α β γ : Type} (l : List α) (f : α → Option β) (g : β → γ) :
    (l.flatMap fun a => ((f a).map g).toList) = (l.filterMap f).map g := by
  induction l with
  | nil => rfl
  | cons a l ih =>
    rw [List.flatMap_cons, ih]
    cases h : f a with
    | none => rw [List.filterMap_cons_none h]; rfl
    | some b => rw [List.filterMap_cons_some h]; rfl

theorem queries_updateVideoTasks : queries (updateVideoTasks env (some .single) taskM c taskIds) =
      if env.channelFound c = true then (lookedUp taskM taskIds).map (c, ·) else [] := by
  unfold updateVideoTasks
  by_cases hids : taskIds = []
  · simp [hids, lookedUp, queries]
  rw [if_neg hids]
  cases hfound : env.channelFound c
  · exact queries_failed _ _
  show queries (taskIds.flatMap (updateVideoSingleTask taskM c)) = _
  simp only [queries_flatMap, queries_updateVideoSingleTask]
  exact flatMap_toList _ _ _

theorem answers_updateVideoTasks (hfound : env.channelFound c = true) :
    answers (updateVideoTasks env (some .single) taskM c taskIds) =
      (lookedUp taskM taskIds).map fun t => (c, t.getUpstreamTaskID, some t) := by
  unfold updateVideoTasks
  by_cases hids : taskIds = []
  · simp [hids, lookedUp, answers]
  rw [if_neg hids, hfound]
  show answers (taskIds.flatMap (updateVideoSingleTask taskM c)) = _
  simp only [answers_flatMap, answers_updateVideoSingleTask]
  exact flatMap_toList _ _ _

theorem queries_updateVideoTasks_none
    : queries (updateVideoTasks env none taskM c taskIds) = [] := by
  unfold updateVideoTasks
  by_cases hids : taskIds = []
  · rw [if_pos hids]
    rfl
  rw [if_neg hids]
  cases hfound : env.channelFound c
  · exact queries_failed _ _
  · rfl

/-! ## One platform -/

def logOf (log : List (String × Event)) : List Event :=
  log.filterMap fun e => if e.1 = platform then some e.2 else none

theorem logOf_map (l : List Event) (other : String) :
    logOf platform (l.map (other, ·)) = if other = platform then l else [] := by
  by_cases h : other = platform <;> simp [logOf, h]

theorem pollPlatform_nil : pollPlatform env platform [] = [] := rfl

theorem logOf_runTaskPollingOnce (u : Unfinished) (platform : String) :
    logOf platform (runTaskPollingOnce env u) =
      pollPlatform env platform (u.tasks.filter (·.platform = platform)) := by
  have hone : ∀ keys : List String, keys.Nodup → ∀ f : String → List Event,
      logOf platform (keys.flatMap fun k => (f k).map (k, ·)) =
        if platform ∈ keys then f platform else [] := by
    intro keys
    induction keys with
    | nil => exact fun _ _ => rfl
    | cons k keys ih =>
      intro hnodup f
      obtain ⟨hk, hkeys⟩ := List.nodup_cons.1 hnodup
      rw [List.flatMap_cons, logOf, List.filterMap_append, ← logOf, ← logOf, logOf_map,
        ih hkeys f]
      by_cases hp : k = platform
      · subst hp
        simp [hk]
      · simp [hp, Ne.symm hp]
  rw [runTaskPollingOnce, hone _ (List.nodup_dedup _)]
  by_cases hmem : platform ∈ (u.tasks.map Task.platform).dedup
  · rw [if_pos hmem]
  rw [if_neg hmem]
  have hnone : u.tasks.filter (·.platform = platform) = [] := by
    refine List.filter_eq_nil_iff.2 fun t ht hplat => hmem ?_
    exact List.mem_dedup.2 (mem_map.2 ⟨t, ht, of_decide_eq_true hplat⟩)
  rw [hnone, pollPlatform_nil]

/-- The queries of a channel whose ids are looked up in the platform's map. -/
def channelQueries (env : Env) (tasks : List Task) (c : Int) : List (Int × Task) :=
  if env.channelFound c = true then
    (lookedUp (group tasks).taskM ((group tasks).taskChannelM c)).map (c, ·)
  else []

theorem queries_pollPlatform (tasks : List Task) : queries (pollPlatform env platform tasks) =
      if platform ≠ taskPlatformMidjourney ∧ env.getTaskAdaptor platform ≠ none then
        (env.order (group tasks).channels).flatMap (channelQueries env tasks)
      else [] := by
  have hnull : queries ((group tasks).nullTaskIds.map .failed) = [] := queries_failed _ id
  show queries (_ ++ _) = _
  rw [queries_append, hnull, List.nil_append]
  have hnil : (group tasks).channels = [] → env.order (group tasks).channels = [] := by
    intro h
    rw [h]
    exact perm_nil.1 (env.order_perm [])
  by_cases hchannels : (group tasks).channels = []
  · rw [if_pos hchannels, hnil hchannels]
    split <;> rfl
  rw [if_neg hchannels]
  unfold dispatchPlatformUpdate
  by_cases hmj : platform = taskPlatformMidjourney
  · rw [if_pos hmj, if_neg fun h => h.1 hmj]
    rfl
  rw [if_neg hmj]
  rcases hadaptor : env.getTaskAdaptor platform with _ | items | _
  · rw [if_neg fun h => h.2 rfl]
    simp only [queries_flatMap, queries_updateVideoTasks_none]
    exact List.flatMap_eq_nil_iff.2 fun _ _ => rfl
  · rw [if_pos ⟨hmj, Option.some_ne_none _⟩]
    simp only [queries_flatMap, queries_updateBatchTasks]
    rfl
  rw [if_pos ⟨hmj, Option.some_ne_none _⟩]
  simp only [queries_flatMap, queries_updateVideoTasks]
  rfl

/-- The answers of a channel. -/
def channelAnswers (env : Env) (platform : String) (tasks : List Task) (c : Int) :
    List (Int × String × Option Task) :=
  let found := lookedUp (group tasks).taskM ((group tasks).taskChannelM c)
  match env.getTaskAdaptor platform with
  | some (.batch items) => (items c found).map fun u => (c, u, (group tasks).taskM u)
  | _ => found.map fun t => (c, t.getUpstreamTaskID, some t)

theorem taskChannelM_ne_nil {tasks : List Task} {c : Int} (hc : c ∈ (group tasks).channels) :
    (group tasks).taskChannelM c ≠ [] := by
  obtain ⟨t, ht, hchannel⟩ := ((groups_group tasks).mem_channels c).1 hc
  rw [(groups_group tasks).ids_eq, Ne, List.map_eq_nil_iff]
  exact List.ne_nil_of_mem (mem_filter.2 ⟨ht, decide_eq_true hchannel⟩)

theorem answers_pollPlatform {platform : String} {tasks : List Task}
    (hmj : platform ≠ taskPlatformMidjourney) (hadaptor : env.getTaskAdaptor platform ≠ none)
    (hfound : ∀ c ∈ (group tasks).channels, env.channelFound c = true) :
    answers (pollPlatform env platform tasks) =
      (env.order (group tasks).channels).flatMap (channelAnswers env platform tasks) := by
  have hmem : ∀ c ∈ env.order (group tasks).channels, c ∈ (group tasks).channels :=
    fun c hc => (env.order_perm _).mem_iff.1 hc
  have hnull : answers ((group tasks).nullTaskIds.map .failed) = [] := answers_failed _ id
  show answers (_ ++ _) = _
  rw [answers_append, hnull, List.nil_append]
  by_cases hchannels : (group tasks).channels = []
  · rw [if_pos hchannels, hchannels, perm_nil.1 (env.order_perm [])]
    rfl
  rw [if_neg hchannels]
  unfold dispatchPlatformUpdate channelAnswers
  rw [if_neg hmj]
  rcases hcase : env.getTaskAdaptor platform with _ | items | _
  · exact absurd hcase hadaptor
  · rw [answers_flatMap]
    refine flatMap_congr fun c hc => ?_
    exact answers_updateBatchTasks (taskChannelM_ne_nil (hmem c hc)) (hfound c (hmem c hc))
  rw [answers_flatMap]
  refine flatMap_congr fun c hc => ?_
  exact answers_updateVideoTasks _ c _ (hfound c (hmem c hc))

/-! ## Told apart -/

variable {platform : String} {tasks : List Task}

theorem taskM_self_iff :
    (∀ t ∈ withUpstreamID tasks, (group tasks).taskM t.getUpstreamTaskID = some t) ↔
      ∀ t ∈ withUpstreamID tasks, ∀ t' ∈ withUpstreamID tasks,
        t.getUpstreamTaskID = t'.getUpstreamTaskID → t = t' := by
  rw [(groups_group tasks).taskM_eq]
  exact lastBy_self_iff

theorem taskM_eq_some {k : String} {t : Task} (h : (group tasks).taskM k = some t) :
    t ∈ withUpstreamID tasks ∧ t.getUpstreamTaskID = k := by
  rw [(groups_group tasks).taskM_eq] at h
  exact lastBy_eq_some h

theorem lookedUp_self
    (hself : ∀ t ∈ withUpstreamID tasks, (group tasks).taskM t.getUpstreamTaskID = some t)
    (c : Int) :
    lookedUp (group tasks).taskM ((group tasks).taskChannelM c) = ofChannel tasks c := by
  rw [(groups_group tasks).ids_eq, lookedUp, List.filterMap_map]
  have hsome : ∀ t ∈ ofChannel tasks c,
      ((group tasks).taskM ∘ Task.getUpstreamTaskID) t = some t :=
    fun t ht => hself t (List.mem_of_mem_filter ht)
  rw [List.filterMap_congr hsome, List.filterMap_some]

theorem mem_channels_of {t : Task} (ht : t ∈ withUpstreamID tasks) :
    t.channelId ∈ (group tasks).channels :=
  ((groups_group tasks).mem_channels _).2 ⟨t, ht, rfl⟩

theorem of_mem_queries {c : Int} {t : Task}
    (h : (c, t) ∈ queries (pollPlatform env platform tasks)) :
    (platform ≠ taskPlatformMidjourney ∧ env.getTaskAdaptor platform ≠ none) ∧
      env.channelFound c = true ∧ (group tasks).taskM t.getUpstreamTaskID = some t := by
  rw [queries_pollPlatform] at h
  split at h
  · rename_i hpolled
    obtain ⟨c', -, hc'⟩ := mem_flatMap.1 h
    unfold channelQueries at hc'
    split at hc'
    · rename_i hfound
      obtain ⟨t', ht', heq⟩ := mem_map.1 hc'
      cases heq
      obtain ⟨k, -, hk⟩ := List.mem_filterMap.1 ht'
      obtain ⟨-, rfl⟩ := taskM_eq_some hk
      exact ⟨hpolled, hfound, hk⟩
    · exact absurd hc' not_mem_nil
  · exact absurd h not_mem_nil

theorem filter_eq_singleton {l : List Task} (hnodup : l.Nodup) {t : Task} (ht : t ∈ l)
    (p : Task → Bool) (hp : ∀ t' ∈ l, p t' = true ↔ t' = t) : l.filter p = [t] := by
  have hcongr : l.filter p = l.filter (· = t) :=
    List.filter_congr fun t' ht' => Bool.eq_iff_iff.2 ((hp t' ht').trans decide_eq_true_iff.symm)
  rw [hcongr, List.filter_eq, List.count_eq_one_of_mem hnodup ht]
  rfl

section
variable (h : ToldApart env platform tasks) (hnodup : (withUpstreamID tasks).Nodup)
include h hnodup

theorem ToldApart.answered {c : Int} (hc : c ∈ (group tasks).channels)
    {a : Int × String × Option Task} (ha : a ∈ channelAnswers env platform tasks c) : a.2.2.toList =
      (withUpstreamID tasks).filter fun t => t.channelId = a.1 ∧ t.getUpstreamTaskID = a.2.1 := by
  have hself := taskM_self_iff.2 h.ids
  have hown : ∀ t ∈ withUpstreamID tasks, t.channelId = c →
      (withUpstreamID tasks).filter
        (fun t' => t'.channelId = c ∧ t'.getUpstreamTaskID = t.getUpstreamTaskID) = [t] := by
    intro t ht hchannel
    refine filter_eq_singleton hnodup ht _ fun t' ht' => ?_
    rw [decide_eq_true_iff]
    refine ⟨fun heq => h.ids t' ht' t ht heq.2, ?_⟩
    rintro rfl
    exact ⟨hchannel, rfl⟩
  have hsingle : ∀ t ∈ ofChannel tasks c, a = (c, t.getUpstreamTaskID, some t) →
      a.2.2.toList = (withUpstreamID tasks).filter fun t' =>
        t'.channelId = a.1 ∧ t'.getUpstreamTaskID = a.2.1 := by
    rintro t ht rfl
    obtain ⟨hmem, hchannel⟩ := mem_filter.1 ht
    exact (hown t hmem (of_decide_eq_true hchannel)).symm
  unfold channelAnswers at ha
  simp only [lookedUp_self hself] at ha
  split at ha
  · rename_i items hitems
    obtain ⟨u, hu, rfl⟩ := mem_map.1 ha
    rcases htask : (group tasks).taskM u with _ | t
    · -- an id that no task has
      refine (List.filter_eq_nil_iff.2 fun t ht heq => ?_).symm
      have hid : t.channelId = c ∧ t.getUpstreamTaskID = u := of_decide_eq_true heq
      rw [← hid.2, hself t ht] at htask
      cases htask
    obtain ⟨ht, rfl⟩ := taskM_eq_some htask
    obtain ⟨t₀, ht₀, rfl⟩ := ((groups_group tasks).mem_channels c).1 hc
    exact (hown t ht (h.own items hitems t₀ ht₀ t ht hu)).symm
  · obtain ⟨t, ht, rfl⟩ := mem_map.1 ha
    exact hsingle t ht rfl

theorem ToldApart.polledAsThemselves :
    PolledAsThemselves tasks (pollPlatform env platform tasks) := by
  have hself := taskM_self_iff.2 h.ids
  have hfound : ∀ c ∈ (group tasks).channels, env.channelFound c = true := by
    intro c hc
    obtain ⟨t, ht, rfl⟩ := ((groups_group tasks).mem_channels c).1 hc
    exact h.found t ht
  have hmem : ∀ c ∈ env.order (group tasks).channels, c ∈ (group tasks).channels :=
    fun c hc => (env.order_perm _).mem_iff.1 hc
  by_cases hnone : withUpstreamID tasks = []
  · have hchannels : (group tasks).channels = [] := by
      refine List.eq_nil_iff_forall_not_mem.2 fun c hc => ?_
      obtain ⟨t, ht, -⟩ := ((groups_group tasks).mem_channels c).1 hc
      rw [hnone] at ht
      exact not_mem_nil ht
    have hfailed : pollPlatform env platform tasks = (group tasks).nullTaskIds.map .failed := by
      rw [pollPlatform, if_pos hchannels, List.append_nil]
    have hqueries : queries ((group tasks).nullTaskIds.map .failed) = [] := queries_failed _ id
    have hanswers : answers ((group tasks).nullTaskIds.map .failed) = [] := answers_failed _ id
    refine ⟨?_, fun a ha => ?_⟩
    · rw [hfailed, hqueries, hnone]
      exact .refl _
    · rw [hfailed, hanswers] at ha
      exact absurd ha not_mem_nil
  obtain ⟨hmj, hadaptor⟩ := h.polled hnone
  refine ⟨?_, fun a ha => ?_⟩
  · rw [queries_pollPlatform, if_pos ⟨hmj, hadaptor⟩]
    have hone : ∀ c ∈ env.order (group tasks).channels, channelQueries env tasks c =
        (ofChannel tasks c).map fun t => (t.channelId, t) := by
      intro c hc
      rw [channelQueries, if_pos (hfound c (hmem c hc)), lookedUp_self hself]
      refine List.map_congr_left fun t ht => ?_
      rw [of_decide_eq_true (mem_filter.1 ht).2]
    rw [flatMap_congr hone, ← List.map_flatMap]
    refine List.Perm.map _ ?_
    refine perm_groups ((env.order_perm _).nodup_iff.2 (groups_group tasks).nodup) _ ?_
    exact fun t ht => (env.order_perm _).mem_iff.2 (mem_channels_of ht)
  rw [answers_pollPlatform hmj hadaptor hfound] at ha
  obtain ⟨c, hc, ha⟩ := mem_flatMap.1 ha
  exact h.answered hnodup (hmem c hc) ha

end

theorem PolledAsThemselves.toldApart
    (h : PolledAsThemselves tasks (pollPlatform env platform tasks)) :
    ToldApart env platform tasks := by
  have hquery : ∀ t ∈ withUpstreamID tasks,
      (t.channelId, t) ∈ queries (pollPlatform env platform tasks) :=
    fun t ht => h.1.mem_iff.2 (mem_map.2 ⟨t, ht, rfl⟩)
  have hself : ∀ t ∈ withUpstreamID tasks, (group tasks).taskM t.getUpstreamTaskID = some t :=
    fun t ht => (of_mem_queries (hquery t ht)).2.2
  have hfound : ∀ t ∈ withUpstreamID tasks, env.channelFound t.channelId = true :=
    fun t ht => (of_mem_queries (hquery t ht)).2.1
  have hpolled : withUpstreamID tasks ≠ [] →
      platform ≠ taskPlatformMidjourney ∧ env.getTaskAdaptor platform ≠ none := by
    intro hne
    obtain ⟨t, ht⟩ := List.exists_mem_of_ne_nil _ hne
    exact (of_mem_queries (hquery t ht)).1
  refine ⟨taskM_self_iff.1 hself, hpolled, hfound, fun items hitems t ht t' ht' hnamed => ?_⟩
  obtain ⟨hmj, hadaptor⟩ := hpolled (List.ne_nil_of_mem ht)
  have hanswer : (t.channelId, t'.getUpstreamTaskID, some t') ∈
      answers (pollPlatform env platform tasks) := by
    rw [answers_pollPlatform hmj hadaptor]
    · refine mem_flatMap.2 ⟨t.channelId, (env.order_perm _).mem_iff.2 (mem_channels_of ht), ?_⟩
      unfold channelAnswers
      simp only [hitems, lookedUp_self hself]
      exact mem_map.2 ⟨t'.getUpstreamTaskID, hnamed, by rw [hself t' ht']⟩
    intro c hc
    obtain ⟨t₀, ht₀, rfl⟩ := ((groups_group tasks).mem_channels c).1 hc
    exact hfound t₀ ht₀
  have happlied := h.2 _ hanswer
  have hmem : t' ∈ (withUpstreamID tasks).filter fun t₀ =>
      t₀.channelId = t.channelId ∧ t₀.getUpstreamTaskID = t'.getUpstreamTaskID := by
    rw [← happlied]
    exact List.mem_singleton_self _
  have hboth : t'.channelId = t.channelId ∧ _ := of_decide_eq_true (mem_filter.1 hmem).2
  exact hboth.1

/-- **Polled as themselves, or not told apart.**  Whether a pass keeps the tasks
    of a platform apart depends on their upstream ids alone. -/
theorem polledAsThemselves_iff (env : Env) (u : Unfinished) (platform : String) :
    PolledAsThemselves (u.tasks.filter (·.platform = platform))
        (logOf platform (runTaskPollingOnce env u)) ↔
      ToldApart env platform (u.tasks.filter (·.platform = platform)) := by
  rw [logOf_runTaskPollingOnce]
  refine ⟨PolledAsThemselves.toldApart, fun h => h.polledAsThemselves ?_⟩
  exact ((List.Nodup.of_map _ u.ids_nodup).filter _).filter _

def sameID : Unfinished where
  tasks := [⟨1, "45", 1, "task_a", "video-1"⟩, ⟨2, "45", 2, "task_b", "video-1"⟩]
  ids_nodup := by decide

def allFound (adaptor : Adaptor) : Env where
  getTaskAdaptor _ := some adaptor
  channelFound _ := true
  order := id
  order_perm := .refl

/-- **A task is polled in the other's place.**  Channel 1 is asked about the task
    of channel 2, twice the answer goes to that task, and the first is not asked
    about at all. -/
theorem sameID_polled_as_the_other :
    queries (logOf "45" (runTaskPollingOnce (allFound .single) sameID)) =
        [(1, ⟨2, "45", 2, "task_b", "video-1"⟩), (2, ⟨2, "45", 2, "task_b", "video-1"⟩)] ∧
      ¬PolledAsThemselves (sameID.tasks.filter (·.platform = "45"))
        (logOf "45" (runTaskPollingOnce (allFound .single) sameID)) := by
  have hqueries : queries (logOf "45" (runTaskPollingOnce (allFound .single) sameID)) =
      [(1, ⟨2, "45", 2, "task_b", "video-1"⟩), (2, ⟨2, "45", 2, "task_b", "video-1"⟩)] := by
    decide +kernel
  refine ⟨hqueries, fun h => ?_⟩
  rw [PolledAsThemselves, hqueries] at h
  exact absurd h.1 (by decide +kernel)

end NewApi.AsyncTask.Dispatch
