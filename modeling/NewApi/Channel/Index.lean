/-
  NewApi.Channel.Index

  The in-memory channel cache of `model/channel_cache.go`: the channels by id
  (`channelsIDM`, disabled ones included) and the selection index
  `group2model2channels`, which lists for a group and a model the ids of the
  enabled channels that serve them.

  The index has three writers that do not agree on what a channel serves:

    * `InitChannelCache` splits `Group` at the commas and takes the pieces as
      they are, padding, empty pieces and repetitions included;
    * `rebuildGroupIndexesLocked`, run when a channel is enabled, goes through
      `GetGroups`, which trims them;
    * disabling a channel removes one occurrence of its id from each list;

  and `CacheUpdateChannel` replaces the cached channel without touching the
  index.  A list is compared with the channels by how often an id occurs in it,
  so neither the order Go iterates its maps in nor the unstable sort by
  priority enters.
-/

import NewApi.Lib.Run
import NewApi.Subscription.Store
import Mathlib.Data.List.Sort

namespace NewApi.ChannelCache

open NewApi.Lib

/-! ## Channels -/

/-- `ChannelStatusEnabled` -/
def statusEnabled : Int := 1

/-- The columns of `Channel` that the index is built from. -/
structure Channel where
  id : Int
  status : Int
  models : String
  group : String
  priority : Option Int := none

/-- `strings.Split(s, ",")` -/
def splitComma (s : String) : List String := (s.toList.splitOn ',').map String.ofList

/-- `strings.Trim(s, ",")` -/
def trimComma (s : String) : String :=
  String.ofList ((s.toList.dropWhile (· == ',')).reverse.dropWhile (· == ',')).reverse

namespace Channel

variable (c : Channel)

def getModels : List String :=
  if c.models = "" then [] else splitComma (trimComma c.models)

def getGroups : List String :=
  if c.group = "" then [] else (splitComma (trimComma c.group)).map Subscription.trimSpace

def getPriority : Int := c.priority.getD 0

def Enabled : Prop := c.status = statusEnabled

instance (c : Channel) : Decidable c.Enabled := inferInstanceAs (Decidable (_ = _))

def Serves (g m : String) : Prop :=
  c.Enabled ∧ g ∈ c.getGroups ∧ m ∈ c.getModels

instance (c : Channel) (g m : String) : Decidable (c.Serves g m) :=
  inferInstanceAs (Decidable (_ ∧ _ ∧ _))

end Channel

/-- `channelsIDM`: at most one channel for an id. -/
structure ChannelMap where
  rows : List Channel
  unique : (rows.map Channel.id).Nodup

namespace ChannelMap

def empty : ChannelMap := ⟨[], List.nodup_nil⟩

/-- `channel.Status = status` on the cached channel, if there is one. -/
def setStatus (cs : ChannelMap) (id status : Int) : ChannelMap where
  rows := cs.rows.map fun c => if c.id = id then { c with status } else c
  unique := by
    have hid : (cs.rows.map fun c => if c.id = id then { c with status } else c).map Channel.id =
        cs.rows.map Channel.id := by
      rw [List.map_map]
      refine List.map_congr_left fun c _ => ?_
      simp only [Function.comp_apply]
      split <;> rfl
    rw [hid]
    exact cs.unique

/-- `channelsIDM[channel.Id] = channel` -/
def insert (cs : ChannelMap) (c : Channel) : ChannelMap where
  rows := cs.rows.filter (fun d => d.id ≠ c.id) ++ [c]
  unique := by
    rw [List.map_append, List.nodup_append]
    refine ⟨cs.unique.sublist (List.filter_sublist.map _), by simp, ?_⟩
    intro a ha b hb
    obtain ⟨d, hd, rfl⟩ := List.mem_map.1 ha
    have hne : d.id ≠ c.id := by simpa using (List.mem_filter.1 hd).2
    have hbc : b = c.id := by simpa using hb
    rw [hbc]
    exact hne

/-- `channelsIDM[id]` -/
def find (cs : ChannelMap) (id : Int) : Option Channel := cs.rows.find? fun c => c.id = id

end ChannelMap

/-! ## The index -/

/-- `group2model2channels`; a missing key reads as the empty list. -/
abbrev GroupIndex := String → String → List Int

/-- `model2channels[model] = append(model2channels[model], channel.Id)` -/
def appendId (ix : GroupIndex) (g m : String) (id : Int) : GroupIndex :=
  fun g' m' => if g' = g ∧ m' = m then ix g' m' ++ [id] else ix g' m'

def indexChannel (groups models : List String) (id : Int) (ix : GroupIndex) : GroupIndex :=
  groups.foldl (fun ix g => models.foldl (fun ix m => appendId ix g m id) ix) ix

/-- The loop over the channels, disabled ones skipped; `groups` is how the
    caller reads the groups of a channel. -/
def collect (groups : Channel → List String) (cs : List Channel) : GroupIndex :=
  cs.foldl (fun ix c =>
    if c.Enabled then indexChannel (groups c) c.getModels c.id ix else ix) fun _ _ => []

variable (cs : ChannelMap)

/-- The comparison both writers sort a list with: higher priority first, by id
    where a channel is missing. -/
def before (i j : Int) : Bool :=
  match cs.find i, cs.find j with
  | some a, some b => b.getPriority < a.getPriority
  | _, _ => i < j

/-- `sort.Slice` on every list of the index. -/
def sortIndex (ix : GroupIndex) : GroupIndex :=
  fun g m => (ix g m).insertionSort fun i j => before cs j i = false

/-- The channel cache. -/
structure Cache where
  channels : ChannelMap
  index : GroupIndex

/-- `InitChannelCache` on the rows `DB.Find` returns.  The groups of the
    abilities only add empty lists. -/
def initChannelCache (rows : ChannelMap) : Cache :=
  { channels := rows
    index := sortIndex rows (collect (fun c => splitComma c.group) rows.rows) }

def rebuildGroupIndexesLocked : GroupIndex :=
  sortIndex cs (collect Channel.getGroups cs.rows)

def cacheUpdateChannelStatus (s : Cache) (id status : Int) : Cache :=
  let channels := s.channels.setStatus id status
  if status = statusEnabled then
    { channels, index := rebuildGroupIndexesLocked channels }
  else
    { channels, index := fun g m => (s.index g m).erase id }

/-- `CacheUpdateChannel`; a nil channel is ignored. -/
def cacheUpdateChannel (s : Cache) : Option Channel → Cache
  | none => s
  | some c => { s with channels := s.channels.insert c }

inductive CacheAction where
  | init (rows : ChannelMap)
  | updateStatus (id status : Int)
  | update (channel : Option Channel)

/-- One call; without `MemoryCacheEnabled` each of them returns at once. -/
def Cache.step (memoryCacheEnabled : Bool) (s : Cache) (a : CacheAction) : Cache :=
  if !memoryCacheEnabled then s
  else match a with
  | .init rows => initChannelCache rows
  | .updateStatus id status => cacheUpdateChannelStatus s id status
  | .update c => cacheUpdateChannel s c

def Cache.start : Cache := { channels := .empty, index := fun _ _ => [] }

/-! ## How often an id is listed -/

theorem count_appendId (ix : GroupIndex) (g m g' m' : String) (id id' : Int) :
    (appendId ix g m id g' m').count id' =
      (ix g' m').count id' + if g' = g ∧ m' = m ∧ id' = id then 1 else 0 := by
  unfold appendId
  by_cases hgm : g' = g ∧ m' = m
  · rw [if_pos hgm, List.count_append, List.count_singleton]
    simp only [hgm.1, hgm.2, true_and, beq_iff_eq, eq_comm (a := id)]
  · rw [if_neg hgm, if_neg (fun h => hgm ⟨h.1, h.2.1⟩), Nat.add_zero]

theorem count_foldl_models (g : String) (models : List String) (id : Int) (ix : GroupIndex)
    (g' m' : String) (id' : Int) :
    (models.foldl (fun ix m => appendId ix g m id) ix g' m').count id' =
      (ix g' m').count id' + if g' = g ∧ id' = id then models.count m' else 0 := by
  induction models generalizing ix with
  | nil => simp
  | cons m models ih =>
    rw [List.foldl_cons, ih, count_appendId, List.count_cons]
    by_cases hg : g' = g
    · by_cases hid : id' = id
      · by_cases hm : m' = m
        · simp only [hg, hid, hm, and_self, if_true, beq_self_eq_true]
          omega
        · simp [hg, hid, hm, Ne.symm hm]
      · simp [hid]
    · simp [hg]

theorem count_indexChannel (groups models : List String) (id : Int) (ix : GroupIndex)
    (g' m' : String) (id' : Int) : (indexChannel groups models id ix g' m').count id' =
      (ix g' m').count id' +
        if id' = id then groups.count g' * models.count m' else 0 := by
  unfold indexChannel
  induction groups generalizing ix with
  | nil => simp
  | cons g groups ih =>
    rw [List.foldl_cons, ih, count_foldl_models, List.count_cons]
    by_cases hid : id' = id
    · by_cases hg : g' = g
      · simp only [hg, hid, and_self, if_true, beq_self_eq_true, Nat.add_mul, Nat.one_mul]
        omega
      · simp [hg, hid, Ne.symm hg]
    · simp [hid]

theorem count_collect (groups : Channel → List String) (cs : List Channel)
    (hu : (cs.map Channel.id).Nodup) (g m : String) (id : Int) : (collect groups cs g m).count id =
      ((cs.find? fun c => c.id = id).map fun c =>
        if c.Enabled then (groups c).count g * c.getModels.count m else 0).getD 0 := by
  have hgen : ∀ ix : GroupIndex,
      (cs.foldl (fun ix c => if c.Enabled then
          indexChannel (groups c) c.getModels c.id ix else ix) ix g m).count id =
        (ix g m).count id + ((cs.find? fun c => c.id = id).map fun c =>
          if c.Enabled then (groups c).count g * c.getModels.count m else 0).getD 0 := by
    induction cs with
    | nil => simp
    | cons c cs ih =>
      intro ix
      obtain ⟨hc, hcs⟩ := List.nodup_cons.1 hu
      rw [List.foldl_cons, ih hcs]
      by_cases hid : c.id = id
      · -- the one channel with this id: none follows
        have hnone : (cs.find? fun c => c.id = id) = none := by
          rw [List.find?_eq_none]
          intro d hd hdid
          have hd' : d.id = id := by simpa using hdid
          exact hc (List.mem_map.2 ⟨d, hd, by rw [hd', hid]⟩)
        rw [hnone, List.find?_cons_of_pos (by simpa using hid)]
        by_cases hen : c.Enabled
        · rw [if_pos hen, count_indexChannel, if_pos hid.symm]
          simp [hen]
        · simp [hen]
      rw [List.find?_cons_of_neg (by simpa using hid)]
      by_cases hen : c.Enabled
      · rw [if_pos hen, count_indexChannel, if_neg (Ne.symm hid), Nat.add_zero]
      · rw [if_neg hen]
  have h0 := hgen fun _ _ => []
  rw [List.count_nil, Nat.zero_add] at h0
  exact h0

theorem count_sortIndex (ix : GroupIndex) (g m : String) (id : Int) :
    (sortIndex cs ix g m).count id = (ix g m).count id :=
  (List.perm_insertionSort _ _).count_eq id

namespace ChannelMap

theorem find_eq_some_iff (id : Int) (c : Channel) :
    cs.find id = some c ↔ c ∈ cs.rows ∧ c.id = id := by
  constructor
  · intro h
    have hp := List.find?_some h
    exact ⟨List.mem_of_find?_eq_some h, by simpa using hp⟩
  rintro ⟨hc, rfl⟩
  cases hf : cs.find c.id with
  | none =>
    have hno := List.find?_eq_none.1 hf c hc
    simp at hno
  | some d =>
    have hd : d ∈ cs.rows := List.mem_of_find?_eq_some hf
    have hid : d.id = c.id := by simpa using List.find?_some hf
    rw [List.inj_on_of_nodup_map cs.unique hd hc hid]

theorem find_setStatus (id status id' : Int) : (cs.setStatus id status).find id' =
      (cs.find id').map fun c => if c.id = id then { c with status } else c := by
  show List.find? _ (cs.rows.map _) = _
  rw [List.find?_map]
  congr 2
  funext c
  simp only [Function.comp_apply]
  split <;> rfl

theorem find_insert (c : Channel) (id : Int) :
    (cs.insert c).find id = if id = c.id then some c else cs.find id := by
  by_cases hid : id = c.id
  · rw [if_pos hid]
    exact (find_eq_some_iff _ _ _).2 ⟨by simp [insert], hid.symm⟩
  rw [if_neg hid]
  refine Option.ext fun d => ?_
  rw [find_eq_some_iff, find_eq_some_iff]
  simp only [insert, List.mem_append, List.mem_filter, List.mem_singleton]
  constructor
  · rintro ⟨⟨hd, -⟩ | rfl, hdid⟩
    · exact ⟨hd, hdid⟩
    · exact absurd hdid.symm hid
  rintro ⟨hd, hdid⟩
  refine ⟨.inl ⟨hd, ?_⟩, hdid⟩
  have hne : d.id ≠ c.id := fun h => hid (hdid.symm.trans h)
  simpa using hne

end ChannelMap

/-! ## The index and the channels -/

/-- Every list of the index holds the ids of the cached channels that are
    enabled and list its group and model, each once. -/
def Cache.Exact (s : Cache) : Prop :=
  ∀ g m, (s.index g m).Nodup ∧
    ∀ id, id ∈ s.index g m ↔ ∃ c ∈ s.channels.rows, c.id = id ∧ c.Serves g m

def due (g m : String) (id : Int) : Nat :=
  ((cs.find id).map fun c => if c.Serves g m then 1 else 0).getD 0

theorem due_eq_one_iff (g m : String) (id : Int) :
    due cs g m id = 1 ↔ ∃ c ∈ cs.rows, c.id = id ∧ c.Serves g m := by
  unfold due
  constructor
  · intro h
    cases hf : cs.find id with
    | none => simp [hf] at h
    | some c =>
      obtain ⟨hc, hid⟩ := (cs.find_eq_some_iff id c).1 hf
      have hs : c.Serves g m := by
        by_contra hno
        simp [hf, hno] at h
      exact ⟨c, hc, hid, hs⟩
  rintro ⟨c, hc, hid, hs⟩
  rw [(cs.find_eq_some_iff id c).2 ⟨hc, hid⟩]
  simp [hs]

theorem due_le_one (g m : String) (id : Int) : due cs g m id ≤ 1 := by
  unfold due
  cases cs.find id with
  | none => simp
  | some c =>
    simp only [Option.map_some, Option.getD_some]
    split <;> omega

theorem Cache.exact_iff_count (s : Cache) :
    s.Exact ↔ ∀ g m id, (s.index g m).count id = due s.channels g m id := by
  constructor
  · intro h g m id
    obtain ⟨hnd, hmem⟩ := h g m
    have hle := due_le_one s.channels g m id
    have hone := due_eq_one_iff s.channels g m id
    by_cases hin : id ∈ s.index g m
    · rw [List.count_eq_one_of_mem hnd hin, hone.2 ((hmem id).1 hin)]
    have h1 : due s.channels g m id ≠ 1 := fun h1 => hin ((hmem id).2 (hone.1 h1))
    rw [List.count_eq_zero_of_not_mem hin]
    omega
  intro h g m
  refine ⟨List.nodup_iff_count_le_one.2 fun id => ?_, fun id => ?_⟩
  · rw [h]
    exact due_le_one _ _ _ _
  rw [← due_eq_one_iff, ← h, ← List.count_pos_iff]
  have hle := due_le_one s.channels g m id
  have heq := h g m id
  omega

/-- Read as `groups`, the channel's groups are its own, and neither they nor
    its models repeat; or one of the two lists is empty and the channel serves
    nothing. -/
def Tidy (groups : List String) (c : Channel) : Prop :=
  c.getModels = [] ∨ (groups = [] ∧ c.getGroups = []) ∨
    (groups.Nodup ∧ c.getModels.Nodup ∧ ∀ g, g ∈ groups ↔ g ∈ c.getGroups)

theorem tidy_iff (groups : List String) (c : Channel) :
    (∀ g m, groups.count g * c.getModels.count m =
      if g ∈ c.getGroups ∧ m ∈ c.getModels then 1 else 0) ↔ Tidy groups c := by
  constructor
  · intro h
    by_cases hM : c.getModels = []
    · exact .inl hM
    obtain ⟨m, hm⟩ := List.exists_mem_of_ne_nil _ hM
    have hmpos : 0 < c.getModels.count m := List.count_pos_iff.2 hm
    have hmem : ∀ g, g ∈ groups ↔ g ∈ c.getGroups := by
      intro g
      have hg := h g m
      rw [← List.count_pos_iff (a := g)]
      constructor
      · intro hpos
        by_contra hno
        rw [if_neg (fun hh => hno hh.1)] at hg
        have hp := Nat.mul_pos hpos hmpos
        omega
      intro hin
      rw [if_pos ⟨hin, hm⟩] at hg
      exact Nat.pos_of_mul_pos_right (hg ▸ Nat.one_pos)
    by_cases hG : groups = []
    · refine .inr (.inl ⟨hG, ?_⟩)
      refine List.eq_nil_iff_forall_not_mem.2 fun g hg => ?_
      have hin := (hmem g).2 hg
      rw [hG] at hin
      cases hin
    obtain ⟨g, hg⟩ := List.exists_mem_of_ne_nil _ hG
    have hgpos : 0 < groups.count g := List.count_pos_iff.2 hg
    have hle : ∀ g' m', groups.count g' * c.getModels.count m' ≤ 1 := by
      intro g' m'
      rw [h]
      split <;> omega
    refine .inr (.inr ⟨List.nodup_iff_count_le_one.2 fun g' => ?_,
      List.nodup_iff_count_le_one.2 fun m' => ?_, hmem⟩)
    · exact Nat.le_trans (Nat.le_mul_of_pos_right _ hmpos) (hle g' m)
    · exact Nat.le_trans (Nat.le_mul_of_pos_left _ hgpos) (hle g m')
  rintro (hM | ⟨hG, hG'⟩ | ⟨hgnd, hmnd, hmem⟩) g m
  · simp [hM]
  · simp [hG, hG']
  by_cases hg : g ∈ groups
  · by_cases hm : m ∈ c.getModels
    · rw [List.count_eq_one_of_mem hgnd hg, List.count_eq_one_of_mem hmnd hm,
        if_pos ⟨(hmem g).1 hg, hm⟩]
    · rw [List.count_eq_zero_of_not_mem hm, if_neg (fun hh => hm hh.2), Nat.mul_zero]
  · rw [List.count_eq_zero_of_not_mem hg, if_neg (fun hh => hg ((hmem g).2 hh.1)),
      Nat.zero_mul]

theorem exact_build_iff (groups : Channel → List String) (cs : ChannelMap) :
    Cache.Exact { channels := cs, index := sortIndex cs (collect groups cs.rows) } ↔
      ∀ c ∈ cs.rows, c.Enabled → Tidy (groups c) c := by
  rw [Cache.exact_iff_count]
  have hcount : ∀ g m id, (sortIndex cs (collect groups cs.rows) g m).count id =
      ((cs.find id).map fun c =>
        if c.Enabled then (groups c).count g * c.getModels.count m else 0).getD 0 := by
    intro g m id
    rw [count_sortIndex]
    exact count_collect groups cs.rows cs.unique g m id
  constructor
  · intro h c hc hen
    rw [← tidy_iff]
    intro g m
    have hcm := h g m c.id
    rw [hcount, due, (cs.find_eq_some_iff c.id c).2 ⟨hc, rfl⟩] at hcm
    simpa [hen, Channel.Serves] using hcm
  intro h g m id
  rw [hcount, due]
  cases hf : cs.find id with
  | none => rfl
  | some c =>
    obtain ⟨hc, -⟩ := (cs.find_eq_some_iff id c).1 hf
    by_cases hen : c.Enabled
    · have ht := (tidy_iff (groups c) c).2 (h c hc hen) g m
      simpa [hen, Channel.Serves] using ht
    · simp [hen, Channel.Serves]

/-! ## Runs -/

/-- The call keeps the index in step with the channels: the rows a full sync
    loads are tidy as they are split there, the channels enabled after a status
    change to enabled are tidy under `GetGroups`, and an updated channel serves
    what the cached one did. -/
def Undisturbed (memoryCacheEnabled : Bool) (s : Cache) (a : CacheAction) : Prop :=
  memoryCacheEnabled = true →
  match a with
  | .init rows => ∀ c ∈ rows.rows, c.Enabled → Tidy (splitComma c.group) c
  | .updateStatus id status => status = statusEnabled →
      ∀ c ∈ (s.channels.setStatus id status).rows, c.Enabled → Tidy c.getGroups c
  | .update none => True
  | .update (some c) => ∀ g m, c.Serves g m ↔
      ∃ d ∈ s.channels.rows, d.id = c.id ∧ d.Serves g m

theorem Cache.Exact.disable {s : Cache} (h : s.Exact) (id : Int) {status : Int}
    (hst : status ≠ statusEnabled) : (cacheUpdateChannelStatus s id status).Exact := by
  rw [Cache.exact_iff_count] at h ⊢
  intro g m id'
  have hdue : due (s.channels.setStatus id status) g m id' =
      if id' = id then 0 else due s.channels g m id' := by
    unfold due
    rw [ChannelMap.find_setStatus]
    cases hf : s.channels.find id' with
    | none => simp
    | some c =>
      have hid : c.id = id' := ((s.channels.find_eq_some_iff id' c).1 hf).2
      by_cases hc : id' = id
      · simp [hid, hc, Channel.Serves, Channel.Enabled, hst]
      · simp [hid, hc]
  simp only [cacheUpdateChannelStatus, if_neg hst]
  rw [hdue, List.count_erase, h]
  have hle := due_le_one s.channels g m id'
  by_cases hc : id' = id
  · rw [if_pos hc, hc]
    rw [hc] at hle
    simp only [beq_self_eq_true, if_true]
    omega
  · have hne : (id == id') = false := by simpa using Ne.symm hc
    simp [hc, hne]

theorem Cache.Exact.update_iff {s : Cache} (h : s.Exact) (c : Channel) :
    (cacheUpdateChannel s (some c)).Exact ↔
      ∀ g m, c.Serves g m ↔ ∃ d ∈ s.channels.rows, d.id = c.id ∧ d.Serves g m := by
  rw [Cache.exact_iff_count] at h ⊢
  have hdue : ∀ g m id, due (s.channels.insert c) g m id =
      if id = c.id then (if c.Serves g m then 1 else 0) else due s.channels g m id := by
    intro g m id
    unfold due
    rw [ChannelMap.find_insert]
    by_cases hid : id = c.id
    · simp [hid]
    · simp [hid]
  constructor
  · intro h' g m
    have hnew := h' g m c.id
    simp only [cacheUpdateChannel, hdue, if_true] at hnew
    rw [← due_eq_one_iff, ← h, hnew]
    by_cases hs : c.Serves g m
    · simp [hs]
    · simp [hs]
  intro hsame g m id
  show (s.index g m).count id = due (s.channels.insert c) g m id
  rw [h, hdue]
  by_cases hid : id = c.id
  · have hone := due_eq_one_iff s.channels g m id
    have hle := due_le_one s.channels g m id
    rw [if_pos hid]
    rw [hid, ← hsame] at hone
    rw [hid] at hle ⊢
    by_cases hs : c.Serves g m
    · rw [if_pos hs, hone.2 hs]
    rw [if_neg hs]
    have hne : due s.channels g m c.id ≠ 1 := fun h1 => hs (hone.1 h1)
    omega
  · rw [if_neg hid]

/-- **One call.**  An exact index is exact after it if and only if the call is
    undisturbed. -/
theorem Cache.Exact.step_iff {s : Cache} (h : s.Exact) (mem : Bool) (a : CacheAction) :
    (s.step mem a).Exact ↔ Undisturbed mem s a := by
  cases mem with
  | false =>
    refine iff_of_true h ?_
    intro hmem
    cases hmem
  | true =>
    have htrue : ∀ P : Prop, ((true : Bool) = true → P) ↔ P := fun P => by simp
    cases a with
    | init rows =>
      rw [Undisturbed, htrue]
      exact exact_build_iff (fun c => splitComma c.group) rows
    | updateStatus id status =>
      rw [Undisturbed, htrue]
      show (cacheUpdateChannelStatus s id status).Exact ↔ _
      by_cases hst : status = statusEnabled
      · have hbuild : cacheUpdateChannelStatus s id status =
            { channels := s.channels.setStatus id status
              index := rebuildGroupIndexesLocked (s.channels.setStatus id status) } := by
          simp only [cacheUpdateChannelStatus, if_pos hst]
        rw [hbuild]
        exact (exact_build_iff Channel.getGroups _).trans
          ⟨fun hall _ => hall, fun hall => hall hst⟩
      · exact iff_of_true (h.disable id hst) fun he => absurd he hst
    | update c =>
      cases c with
      | none => exact iff_of_true h fun _ => trivial
      | some c =>
        rw [Undisturbed, htrue]
        exact h.update_iff c

theorem Cache.exact_start : Cache.start.Exact := by
  intro g m
  refine ⟨List.nodup_nil, fun id => ?_⟩
  exact iff_of_false List.not_mem_nil (by simp [Cache.start, ChannelMap.empty])

/-- **The index over every run.**  In every state that a sequence of syncs,
    status changes and channel updates passes through, each list holds exactly
    the ids of the enabled cached channels that list its group and model, each
    once, if and only if every call is undisturbed. -/
theorem channelIndex_exact_iff (mem : Bool) (as : List CacheAction) :
    (∀ n, (run (Cache.step mem) Cache.start (as.take n)).Exact) ↔
      Meets (Undisturbed mem) (Cache.step mem) Cache.start as :=
  forall_take_iff_meets Cache.Exact (fun _ a h => h.step_iff mem a) Cache.exact_start as

def paddedRepeated : ChannelMap :=
  ⟨[{ id := 3, status := 1, models := "gpt-4o", group := "vip, default,vip" }], by simp⟩

/-- After the sync the channel is listed twice under `vip`, not at all under
    `default` but under the padded name; disabling it leaves one entry behind. -/
theorem paddedRepeated_index : ¬ (∀ n, (run (Cache.step true) Cache.start
        ([.init paddedRepeated, .updateStatus 3 2].take n)).Exact) ∧
    (initChannelCache paddedRepeated).index "vip" "gpt-4o" = [3, 3] ∧
    (initChannelCache paddedRepeated).index "default" "gpt-4o" = [] ∧
    (initChannelCache paddedRepeated).index " default" "gpt-4o" = [3] ∧
    (run (Cache.step true) Cache.start
      [.init paddedRepeated, .updateStatus 3 2]).index "vip" "gpt-4o" = [3] := by
  have htwice : (initChannelCache paddedRepeated).index "vip" "gpt-4o" = [3, 3] := by
    decide
  refine ⟨fun h => ?_, htwice, by decide, by decide, by decide⟩
  have h1 := (h 1 "vip" "gpt-4o").1
  have hrun : (run (Cache.step true) Cache.start
      ([.init paddedRepeated, .updateStatus 3 2].take 1)).index "vip" "gpt-4o" = [3, 3] :=
    htwice
  rw [hrun] at h1
  simp at h1

end NewApi.ChannelCache
