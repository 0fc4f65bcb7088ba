/-
  NewApi.Channel.Selection

  `GetRandomSatisfiedChannel` on the memory cache: the channels listed for the
  group and the model (or the normalised model) that pass the filters, the
  priority tier of the retry number, and a weighted draw within the tier.

  Numbers are 64-bit integers; a weight is an unsigned one that `GetWeight`
  converts.  The health-weighted choice works on floats and is a parameter.
-/

import NewApi.Lib.Draws
import NewApi.Lib.Wrap
import Mathlib.Algebra.Order.BigOperators.Group.List
import Mathlib.Algebra.Order.Ring.Nat
import Mathlib.Data.List.Sort
import Mathlib.Data.List.Dedup
import Mathlib.Data.Rat.Defs

namespace NewApi.ChannelSelection

open List (all_cons map_cons mem_cons mem_cons_of_mem mem_cons_self mem_filter mem_filterMap
  mem_map mem_singleton ne_nil_of_mem single_le_sum sum_cons)
open NewApi.Lib

/-! ## Channels and filters -/

/-- `dto.ChannelFilterKind` -/
inductive FilterKind where
  | requestPath
  | taskPluginIdentity
  | channelHealth
  | other
deriving DecidableEq

structure ChannelFilter where
  kind : FilterKind
  requestPath : String := ""
  taskPluginKey : String := ""
  taskPluginChannelTypes : List Int := []
  healthCoolingExclude : Bool := false
  healthMinScore : Int := 0

/-- What filters and draw read of a channel.  `supportsPath` is
    `SupportsPathForModel` of its advanced custom configuration, if it has one. -/
structure Channel where
  id : Int
  type : Int := 1
  priority : Option Int := none
  weight : Option Nat := none
  supportsPath : Option (String → String → Bool) := none
  taskPluginKey : String := ""

def channelTypeAdvancedCustom : Int := 58

def channelTypeTaskPlugin : Int := 61

def Channel.getPriority (c : Channel) : Int := c.priority.getD 0

def Channel.getWeight (c : Channel) : Int := wrap64 (c.weight.getD 0)

/-- The switches and the probe of channel health: score, cooling down, has
    samples; and what `WeightedSelectWithHealth` returns on the targets. -/
structure Health where
  routingEnabled : Bool := true
  weightedLBEnabled : Bool := false
  probe : Option (Int → ℚ × Bool × Bool) := none
  weightedSelect : List Channel → Int := fun _ => -1

variable (h : Health)

def channelMatchesFilter (ch : Channel) (modelName : String) (filter : ChannelFilter) : Bool :=
  match filter.kind with
  | .requestPath =>
    if filter.requestPath = "" then true
    else if ch.type ≠ channelTypeAdvancedCustom then true
    else
      match ch.supportsPath with
      | none => false
      | some supports => supports filter.requestPath modelName
  | .taskPluginIdentity =>
    if ch.type = channelTypeTaskPlugin then
      filter.taskPluginKey ≠ "" && ch.taskPluginKey = filter.taskPluginKey
    else filter.taskPluginKey = "" || filter.taskPluginChannelTypes.contains ch.type
  | .channelHealth =>
    match if h.routingEnabled then h.probe else none with
    | none => true
    | some probe =>
      let out := probe ch.id
      if filter.healthCoolingExclude && out.2.1 then false
      else if filter.healthMinScore ≤ 0 then true
      else if !out.2.2 then true
      else decide ((filter.healthMinScore : ℚ) ≤ out.1)
  | .other => true

def filterEvalOrder : List FilterKind := [.requestPath, .taskPluginIdentity, .channelHealth]

def filtersByKind (filters : List ChannelFilter) (kind : FilterKind) : List ChannelFilter :=
  filters.filter fun f => f.kind = kind

/-- The loops of `ChannelSatisfiesFilters`, over the kinds that are left. -/
def satisfies (h : Health) (ch : Channel) (modelName : String) (filters : List ChannelFilter) :
    List FilterKind → Bool × Option FilterKind
  | [] => (true, none)
  | kind :: kinds =>
    if (filtersByKind filters kind).all (channelMatchesFilter h ch modelName) then
      satisfies h ch modelName filters kinds
    else (false, some kind)

/-- `ChannelSatisfiesFilters`; a missing channel satisfies none. -/
def channelSatisfiesFilters (ch : Option Channel) (modelName : String)
    (filters : List ChannelFilter) : Bool × Option FilterKind :=
  match ch with
  | none => (false, none)
  | some ch => satisfies h ch modelName filters filterEvalOrder

/-- `channelsIDM` and `group2model2channels`, where a missing entry reads as the
    empty list. -/
structure Cache where
  find : Int → Option Channel
  index : String → String → List Int
  find_id : ∀ id c, find id = some c → c.id = id

def candidatePassesKindFilters (ch : Option Channel) (modelName : String)
    (kind : FilterKind) (filters : List ChannelFilter) : Bool :=
  match ch with
  | none => kind = .requestPath
  | some ch => filters.all (channelMatchesFilter h ch modelName)

/-- The loop of `filterCandidateIDs` over the kinds that are left. -/
def filterKinds (h : Health) (cache : Cache) (modelName : String) (filters : List ChannelFilter) :
    List FilterKind → List Int → List Int × Option FilterKind
  | [], kept => (kept, none)
  | kind :: kinds, kept =>
    let kindFilters := filtersByKind filters kind
    if kindFilters = [] then filterKinds h cache modelName filters kinds kept
    else
      let next := kept.filter fun id =>
        candidatePassesKindFilters h (cache.find id) modelName kind kindFilters
      if kept ≠ [] ∧ next = [] then (next, some kind)
      else filterKinds h cache modelName filters kinds next

def filterCandidateIDs (cache : Cache) (ids : List Int) (modelName : String)
    (filters : List ChannelFilter) : List Int × Option FilterKind :=
  if ids = [] then (ids, none) else filterKinds h cache modelName filters filterEvalOrder ids

/-! ## The draw -/

inductive SelectErr where
  /-- `only one channel serves this model ...` -/
  | onlyChannel
  /-- `数据库一致性错误，渠道# %d 不存在` -/
  | inconsistent (id : Int)
  /-- `no channel found, group: ...` -/
  | noChannel
  /-- `channel not found` -/
  | notFound
  /-- `rand.Intn` panics -/
  | panic

/-- The look-up of every id, up to the first that is missing. -/
def lookUp (cache : Cache) : List Int → Except SelectErr (List Channel)
  | [] => .ok []
  | id :: ids =>
    match cache.find id with
    | none => .error (.inconsistent id)
    | some c =>
      match lookUp cache ids with
      | .error e => .error e
      | .ok cs => .ok (c :: cs)

def sortedUniquePriorities (cs : List Channel) : List Int :=
  (cs.map Channel.getPriority).dedup.insertionSort (· ≥ ·)

def targetPriority (cs : List Channel) (retry : Nat) : Int :=
  let unique := sortedUniquePriorities cs
  unique.getD (if unique.length ≤ retry then unique.length - 1 else retry) 0

variable (targets : List Channel)

/-- `sumWeight` of the loop over the tier -/
def sumWeight : Int :=
  targets.foldl (fun s c => wrap64 (s + c.getWeight)) 0

/-- The smoothing: the total, `smoothingFactor` and `smoothingAdjustment`. -/
def smoothing : Int × Int × Int :=
  let sum := sumWeight targets
  if sum = 0 then (wrap64 (targets.length * 100), 1, 100)
  else if sum.tdiv targets.length < 10 then (wrap64 (sum * 100), 100, 0)
  else (sum, 1, 0)

def walk (factor adjustment : Int) : Int → List Channel → Option Channel
  | _, [] => none
  | r, c :: cs =>
    let r := wrap64 (r - wrap64 (wrap64 (c.getWeight * factor) + adjustment))
    if r < 0 then some c else walk factor adjustment r cs

/-- The choice balanced by health, if it is switched on and names a target. -/
def healthPick : Option Channel :=
  if h.weightedLBEnabled ∧ h.probe.isSome then
    let idx := h.weightedSelect targets
    if 0 ≤ idx then targets[idx.toNat]? else none
  else none

/-- The choice by weight alone; `draw` is what `rand.Intn` returns. -/
def weightPick (draw : Nat) : Except SelectErr (Option Channel) :=
  let s := smoothing targets
  if s.1 ≤ 0 then .error .panic
  else
    match walk s.2.1 s.2.2 draw targets with
    | some c => .ok (some c)
    | none => .error .notFound

def choose (draw : Nat) : Except SelectErr (Option Channel) :=
  match healthPick h targets with
  | some c => .ok (some c)
  | none => weightPick targets draw

/-- The candidates: those listed for the model, else for the normalised one. -/
def candidates (cache : Cache) (routingMatch : String → String) (group model : String)
    (filters : List ChannelFilter) : List Int :=
  let exact := (filterCandidateIDs h cache (cache.index group model) model filters).1
  if exact = [] then
    (filterCandidateIDs h cache (cache.index group (routingMatch model)) model filters).1
  else exact

/-- How many were listed before the filters, for the error text. -/
def rawCandidateCount (cache : Cache) (routingMatch : String → String)
    (group model : String) (filters : List ChannelFilter) : Nat :=
  if (filterCandidateIDs h cache (cache.index group model) model filters).1 = [] then
    (cache.index group (routingMatch model)).length
  else (cache.index group model).length

/-- `GetRandomSatisfiedChannel`, where `routingMatch` is
    `ratio_setting.RoutingMatchModelName`. -/
def getRandomSatisfiedChannel (cache : Cache) (routingMatch : String → String)
    (group model : String) (retry : Nat) (filters : List ChannelFilter) (draw : Nat) :
    Except SelectErr (Option Channel) :=
  match candidates h cache routingMatch group model filters with
  | [] =>
    if rawCandidateCount h cache routingMatch group model filters = 1 then .error .onlyChannel
    else .ok none
  | [id] =>
    match cache.find id with
    | some c => .ok (some c)
    | none => .error (.inconsistent id)
  | ids =>
    match lookUp cache ids with
    | .error e => .error e
    | .ok cs =>
      match cs.filter fun c => c.getPriority = targetPriority cs retry with
      | [] => .error .noChannel
      | targets => choose h targets draw

/-! ## What the filters keep -/

section Filters

variable {h : Health} {cache : Cache} {model : String} {filters : List ChannelFilter}

/-- The candidate passes the filters of one kind. -/
def passesKind (h : Health) (cache : Cache) (model : String) (filters : List ChannelFilter)
    (id : Int) (kind : FilterKind) : Bool :=
  decide (filtersByKind filters kind = []) ||
    candidatePassesKindFilters h (cache.find id) model kind (filtersByKind filters kind)

theorem filterKinds_eq (kinds : List FilterKind) (kept : List Int) :
    (filterKinds h cache model filters kinds kept).1 =
      kept.filter fun id => kinds.all (passesKind h cache model filters id) := by
  induction kinds generalizing kept with
  | nil => exact (List.filter_eq_self.2 fun _ _ => rfl).symm
  | cons kind kinds ih =>
    unfold filterKinds
    by_cases hnone : filtersByKind filters kind = []
    · rw [if_pos hnone, ih]
      refine List.filter_congr fun id _ => ?_
      rw [all_cons, passesKind, decide_eq_true hnone, Bool.true_or, Bool.true_and]
    have hstep : ∀ id, passesKind h cache model filters id kind =
        candidatePassesKindFilters h (cache.find id) model kind (filtersByKind filters kind) := by
      intro id
      rw [passesKind, decide_eq_false hnone, Bool.false_or]
    have hall : kept.filter (fun id => (kind :: kinds).all (passesKind h cache model filters id)) =
        (kept.filter fun id => candidatePassesKindFilters h (cache.find id) model kind
          (filtersByKind filters kind)).filter
            fun id => kinds.all (passesKind h cache model filters id) := by
      rw [List.filter_filter]
      refine List.filter_congr fun id _ => ?_
      rw [all_cons, hstep, Bool.and_comm]
    rw [if_neg hnone, hall]
    dsimp only
    split
    · rename_i hempty
      rw [hempty.2]
      rfl
    · exact ih _

theorem satisfies_fst (ch : Channel) (kinds : List FilterKind) :
    (satisfies h ch model filters kinds).1 =
      kinds.all fun kind => (filtersByKind filters kind).all (channelMatchesFilter h ch model) := by
  induction kinds with
  | nil => rfl
  | cons kind kinds ih =>
    unfold satisfies
    rw [all_cons]
    cases hk : (filtersByKind filters kind).all (channelMatchesFilter h ch model) with
    | true => rw [if_pos rfl, ih, Bool.true_and]
    | false =>
      rw [if_neg Bool.false_ne_true]
      rfl

theorem passes_iff {id : Int} {c : Channel} (hc : cache.find id = some c) :
    filterEvalOrder.all (passesKind h cache model filters id) =
      (channelSatisfiesFilters h (some c) model filters).1 := by
  show _ = (satisfies h c model filters filterEvalOrder).1
  rw [satisfies_fst]
  congr 1
  funext kind
  unfold passesKind candidatePassesKindFilters
  rw [hc]
  cases hk : filtersByKind filters kind with
  | nil => rfl
  | cons f fs => rfl

theorem filterCandidateIDs_eq (ids : List Int) : (filterCandidateIDs h cache ids model filters).1 =
      ids.filter fun id => filterEvalOrder.all (passesKind h cache model filters id) := by
  unfold filterCandidateIDs
  split
  · rename_i hids
    rw [hids]
    rfl
  · exact filterKinds_eq _ _

variable {routingMatch : String → String} {group : String}

theorem mem_candidates {id : Int} (hid : id ∈ candidates h cache routingMatch group model filters) :
    (id ∈ cache.index group model ∨ id ∈ cache.index group (routingMatch model)) ∧
      filterEvalOrder.all (passesKind h cache model filters id) = true := by
  unfold candidates at hid
  dsimp only at hid
  split at hid
  · rw [filterCandidateIDs_eq] at hid
    obtain ⟨hlisted, hpass⟩ := mem_filter.1 hid
    exact ⟨.inr hlisted, hpass⟩
  rw [filterCandidateIDs_eq] at hid
  obtain ⟨hlisted, hpass⟩ := mem_filter.1 hid
  exact ⟨.inl hlisted, hpass⟩

theorem candidates_ne_nil {id : Int} {c : Channel}
    (hlisted : id ∈ cache.index group model ∨ id ∈ cache.index group (routingMatch model))
    (hc : cache.find id = some c)
    (hpass : (channelSatisfiesFilters h (some c) model filters).1 = true) :
    candidates h cache routingMatch group model filters ≠ [] := by
  rw [← passes_iff hc] at hpass
  have hkept : ∀ m, id ∈ cache.index group m →
      (filterCandidateIDs h cache (cache.index group m) model filters).1 ≠ [] := by
    intro m hm
    rw [filterCandidateIDs_eq]
    exact ne_nil_of_mem (mem_filter.2 ⟨hm, hpass⟩)
  unfold candidates
  dsimp only
  split
  · rename_i hnone
    rcases hlisted with hm | hm
    · exact absurd hnone (hkept model hm)
    · exact hkept _ hm
  · rename_i hsome
    exact hsome

end Filters

/-! ## The weights -/

section Weights

def effectiveWeight (c : Channel) : Nat :=
  let sum := (targets.map fun c => c.weight.getD 0).sum
  if sum = 0 then 100
  else if sum / targets.length < 10 then c.weight.getD 0 * 100
  else c.weight.getD 0

def weighted : List (Int × Nat) :=
  targets.map fun c => (c.id, effectiveWeight targets c)

theorem sum_le_totalWeight :
    (targets.map fun c => c.weight.getD 0).sum ≤ totalWeight (weighted targets) := by
  have hle : ∀ c ∈ targets, c.weight.getD 0 ≤ effectiveWeight targets c := by
    intro c hc
    have hsum := single_le_sum (fun _ _ => Nat.zero_le _) _
      (List.mem_map_of_mem (f := fun c : Channel => c.weight.getD 0) hc)
    unfold effectiveWeight
    dsimp only
    split
    · omega
    · split <;> omega
  unfold totalWeight weighted
  rw [List.map_map]
  exact List.sum_le_sum hle

variable {targets : List Channel}

theorem getWeight_of_lt {c : Channel} (h : c.weight.getD 0 < 2 ^ 63) :
    c.getWeight = (c.weight.getD 0 : Nat) := by
  apply wrap64_of_range <;> omega

section
variable (hT : totalWeight (weighted targets) < 2 ^ 63)
include hT

theorem weight_lt {c : Channel} (hc : c ∈ targets) : c.weight.getD 0 < 2 ^ 63 := by
  have hone := single_le_sum (fun _ _ => Nat.zero_le _) _
    (List.mem_map_of_mem (f := fun c : Channel => c.weight.getD 0) hc)
  have hsum := sum_le_totalWeight targets
  omega

theorem effectiveWeight_lt {c : Channel} (hc : c ∈ targets) : effectiveWeight targets c < 2 ^ 63 := by
  have hmem : effectiveWeight targets c ∈ (weighted targets).map Prod.snd :=
    mem_map.2 ⟨_, mem_map.2 ⟨c, hc, rfl⟩, rfl⟩
  have hone := single_le_sum (fun _ _ => Nat.zero_le _) _ hmem
  unfold totalWeight at hT
  omega

omit hT in
theorem sumWeight_go (l : List Channel) (s : Nat)
    (h : s + (l.map fun c => c.weight.getD 0).sum < 2 ^ 63) :
    l.foldl (fun s c => wrap64 (s + c.getWeight)) (s : Int) =
      ((s + (l.map fun c => c.weight.getD 0).sum : Nat) : Int) := by
  induction l generalizing s with
  | nil => rfl
  | cons c l ih =>
    rw [map_cons, sum_cons] at h ⊢
    have hstep : wrap64 ((s : Int) + c.getWeight) = ((s + c.weight.getD 0 : Nat) : Int) := by
      rw [getWeight_of_lt (by omega)]
      apply wrap64_of_range <;> omega
    rw [List.foldl_cons, hstep, ih _ (by omega)]
    omega

theorem sumWeight_eq : sumWeight targets = ((targets.map fun c => c.weight.getD 0).sum : Nat) := by
  have hsum := sum_le_totalWeight targets
  have := sumWeight_go targets 0 (by omega)
  rw [Nat.zero_add] at this
  exact this

end

theorem totalWeight_scaled (l : List Channel) (k : Nat) :
    totalWeight (l.map fun c => (c.id, c.weight.getD 0 * k)) =
      (l.map fun c => c.weight.getD 0).sum * k := by
  induction l with
  | nil => exact (Nat.zero_mul k).symm
  | cons c l ih =>
    rw [map_cons, totalWeight_cons, ih, map_cons, sum_cons, Nat.add_mul]

theorem totalWeight_const (l : List Channel) (k : Nat) :
    totalWeight (l.map fun c => (c.id, k)) = l.length * k := by
  induction l with
  | nil => exact (Nat.zero_mul k).symm
  | cons c l ih =>
    rw [map_cons, totalWeight_cons, ih, List.length_cons, Nat.succ_mul, Nat.add_comm]

/-- What the smoothing computes in machine integers: the total, and for every
    target its effective weight. -/
structure SmoothingOk (targets : List Channel) : Prop where
  total : (smoothing targets).1 = (totalWeight (weighted targets) : Nat)
  weight : ∀ c ∈ targets,
    wrap64 (wrap64 (c.getWeight * (smoothing targets).2.1) + (smoothing targets).2.2) =
      (effectiveWeight targets c : Nat)

theorem smoothing_ok (hT : totalWeight (weighted targets) < 2 ^ 63) : SmoothingOk targets := by
  have hW := sumWeight_eq hT
  have hlt := fun c hc => getWeight_of_lt (weight_lt hT (c := c) hc)
  have heff := fun c hc => effectiveWeight_lt hT (c := c) hc
  generalize hsum : (targets.map fun c => c.weight.getD 0).sum = W at hW
  by_cases h0 : W = 0
  · -- every weight is zero, every effective weight is 100
    have he : ∀ c, effectiveWeight targets c = 100 := by
      intro c
      unfold effectiveWeight
      rw [hsum]
      exact if_pos h0
    have hs : smoothing targets = (wrap64 (targets.length * 100), 1, 100) := by
      unfold smoothing
      rw [hW, h0]
      rfl
    have htot : totalWeight (weighted targets) = targets.length * 100 := by
      unfold weighted
      rw [funext fun c => congrArg (Prod.mk (Channel.id c)) (he c)]
      exact totalWeight_const targets 100
    have hzero : ∀ c ∈ targets, c.weight.getD 0 = 0 := by
      intro c hc
      have hone := single_le_sum (fun _ _ => Nat.zero_le _) _
        (List.mem_map_of_mem (f := fun c : Channel => c.weight.getD 0) hc)
      omega
    refine ⟨?_, fun c hc => ?_⟩
    · rw [hs, htot]
      exact wrap64_of_range (by omega) (by omega)
    rw [hs, he, hlt c hc, hzero c hc]
    show wrap64 (wrap64 (0 * 1) + 100) = 100
    decide
  have hW0 : sumWeight targets ≠ 0 := by omega
  have htdiv : (sumWeight targets).tdiv targets.length = ((W / targets.length : Nat) : Int) := by
    rw [hW, Int.tdiv_eq_ediv_of_nonneg (by omega)]
    rfl
  by_cases h10 : W / targets.length < 10
  · have he : ∀ c, effectiveWeight targets c = c.weight.getD 0 * 100 := by
      intro c
      unfold effectiveWeight
      rw [hsum]
      exact (if_neg h0).trans (if_pos h10)
    have hs : smoothing targets = (wrap64 (sumWeight targets * 100), 100, 0) := by
      exact (if_neg hW0).trans (if_pos (by rw [htdiv]; omega))
    have htot : totalWeight (weighted targets) = W * 100 := by
      unfold weighted
      rw [funext fun c => congrArg (Prod.mk (Channel.id c)) (he c), totalWeight_scaled, hsum]
    refine ⟨?_, fun c hc => ?_⟩
    · rw [hs, htot, hW]
      exact wrap64_of_range (by omega) (by omega)
    have hc100 := heff c hc
    rw [he] at hc100
    rw [hs, he, hlt c hc]
    show wrap64 (wrap64 ((c.weight.getD 0 : Nat) * 100) + 0) = _
    rw [Int.add_zero, wrap64_of_range (n := _ * 100) (by omega) (by omega)]
    apply wrap64_of_range <;> omega
  have he : ∀ c, effectiveWeight targets c = c.weight.getD 0 := by
    intro c
    unfold effectiveWeight
    rw [hsum]
    exact (if_neg h0).trans (if_neg h10)
  have hs : smoothing targets = (sumWeight targets, 1, 0) := by
    exact (if_neg hW0).trans (if_neg (by rw [htdiv]; omega))
  have htot : totalWeight (weighted targets) = W := by
    unfold weighted
    have hone : (fun c : Channel => (c.id, effectiveWeight targets c)) =
        fun c => (c.id, c.weight.getD 0 * 1) := by
      funext c
      rw [he, Nat.mul_one]
    rw [hone, totalWeight_scaled, hsum, Nat.mul_one]
  refine ⟨?_, fun c hc => ?_⟩
  · rw [hs, htot, hW]
  have hc1 := heff c hc
  rw [he] at hc1
  rw [hs, he, hlt c hc]
  show wrap64 (wrap64 ((c.weight.getD 0 : Nat) * 1) + 0) = _
  rw [Int.add_zero, Int.mul_one,
    wrap64_of_range (n := (c.weight.getD 0 : Nat)) (by omega) (by omega)]
  apply wrap64_of_range <;> omega

theorem walk_eq {factor adjustment : Int} {e : Channel → Nat} {l : List Channel}
    (hstep : ∀ c ∈ l, wrap64 (wrap64 (c.getWeight * factor) + adjustment) = (e c : Nat))
    (hlt : ∀ c ∈ l, e c < 2 ^ 63) {r : Nat} (hr : r < 2 ^ 63) :
    (walk factor adjustment r l).map Channel.id = pickAt (l.map fun c => (c.id, e c)) r := by
  induction l generalizing r with
  | nil => rfl
  | cons c l ih =>
    have he := hlt c mem_cons_self
    have hsub : wrap64 ((r : Int) - wrap64 (wrap64 (c.getWeight * factor) + adjustment)) =
        (r : Int) - (e c : Nat) := by
      rw [hstep c mem_cons_self]
      apply wrap64_of_range <;> omega
    unfold walk
    rw [hsub, map_cons]
    show _ = if r < e c then some c.id else pickAt (l.map fun c => (c.id, e c)) (r - e c)
    by_cases hused : r < e c
    · rw [if_pos (by omega), if_pos hused]
      rfl
    rw [if_neg (by omega), if_neg hused]
    have hcast : (r : Int) - (e c : Nat) = ((r - e c : Nat) : Int) := by omega
    rw [hcast]
    exact ih (fun c hc => hstep c (mem_cons_of_mem _ hc))
      (fun c hc => hlt c (mem_cons_of_mem _ hc)) (by omega)

theorem walk_mem {factor adjustment r : Int} {l : List Channel} {c : Channel}
    (h : walk factor adjustment r l = some c) : c ∈ l := by
  induction l generalizing r with
  | nil => cases h
  | cons d l ih =>
    unfold walk at h
    dsimp only at h
    split at h
    · cases h
      exact mem_cons_self
    · exact mem_cons_of_mem _ (ih h)

theorem weightPick_ok (hT : totalWeight (weighted targets) < 2 ^ 63)
    {draw : Nat} (hdraw : draw < totalWeight (weighted targets)) :
    ∃ c ∈ targets, weightPick targets draw = .ok (some c) ∧
      pickAt (weighted targets) draw = some c.id := by
  have hok := smoothing_ok hT
  have hwalk := walk_eq hok.weight (fun c hc => effectiveWeight_lt hT hc) (r := draw) (by omega)
  obtain ⟨e, -, hpick⟩ := pickAt_mem hdraw
  obtain ⟨c, hc, hid⟩ := Option.map_eq_some_iff.1 (hwalk.trans hpick)
  refine ⟨c, walk_mem hc, ?_, hpick.trans (congrArg some hid.symm)⟩
  have hsome : ¬ (smoothing targets).1 ≤ 0 := by
    rw [hok.total]
    omega
  show (if (smoothing targets).1 ≤ 0 then _ else _) = _
  rw [if_neg hsome, hc]

theorem healthPick_mem {h : Health} {c : Channel} (hc : healthPick h targets = some c) :
    c ∈ targets := by
  unfold healthPick at hc
  dsimp only at hc
  split at hc
  · split at hc
    · exact List.mem_of_getElem? hc
    · cases hc
  · cases hc

theorem healthPick_off {h : Health} (hLB : h.weightedLBEnabled = false) :
    healthPick h targets = none :=
  if_neg fun hl => Bool.false_ne_true (hLB.symm.trans hl.1)

theorem choose_mem (h : Health) (hT : totalWeight (weighted targets) < 2 ^ 63) {draw : Nat}
    (hdraw : draw < totalWeight (weighted targets)) :
    ∃ c ∈ targets, choose h targets draw = .ok (some c) := by
  cases hp : healthPick h targets with
  | some c =>
    refine ⟨c, healthPick_mem hp, ?_⟩
    unfold choose
    rw [hp]
  | none =>
    obtain ⟨c, hc, hpick, -⟩ := weightPick_ok hT hdraw
    refine ⟨c, hc, ?_⟩
    unfold choose
    rw [hp]
    exact hpick

def chosenId (r : Except SelectErr (Option Channel)) : Option Int :=
  match r with
  | .ok (some c) => some c.id
  | _ => none

/-- **Without balancing by health a target is chosen in as many draws as it weighs**,
    once for every time it is listed. -/
theorem drawsOf_choose {h : Health} (hLB : h.weightedLBEnabled = false)
    (hT : totalWeight (weighted targets) < 2 ^ 63) (id : Int) :
    drawsOf (totalWeight (weighted targets)) (fun draw => chosenId (choose h targets draw)) id =
      weightOf (weighted targets) id := by
  rw [← drawsOf_pickAt]
  apply drawsOf_congr
  intro draw hdraw
  obtain ⟨c, -, hpick, hat⟩ := weightPick_ok hT hdraw
  unfold choose
  rw [healthPick_off hLB, hat]
  show chosenId (weightPick targets draw) = _
  rw [hpick]
  rfl

end Weights

/-! ## The selection -/

section Selection

variable (h : Health) (cache : Cache) (routingMatch : String → String) (group model : String)
  (filters : List ChannelFilter)

def foundCandidates : List Channel :=
  (candidates h cache routingMatch group model filters).filterMap cache.find

def tier (retry : Nat) : List Channel :=
  let cs := foundCandidates h cache routingMatch group model filters
  cs.filter fun c => c.getPriority = targetPriority cs retry

variable {h cache routingMatch group model filters}

theorem mem_sortedUniquePriorities {cs : List Channel} {p : Int} :
    p ∈ sortedUniquePriorities cs ↔ ∃ c ∈ cs, c.getPriority = p := by
  unfold sortedUniquePriorities
  rw [(List.perm_insertionSort _ _).mem_iff, List.mem_dedup, mem_map]

theorem targetPriority_spec {cs : List Channel} (hcs : cs ≠ []) (retry : Nat) :
    (sortedUniquePriorities cs)[min retry ((sortedUniquePriorities cs).length - 1)]? =
      some (targetPriority cs retry) := by
  obtain ⟨c, hc⟩ := List.exists_mem_of_ne_nil cs hcs
  have hpos := List.length_pos_of_mem (mem_sortedUniquePriorities.2 ⟨c, hc, rfl⟩)
  have hidx : (if (sortedUniquePriorities cs).length ≤ retry then
      (sortedUniquePriorities cs).length - 1 else retry) =
      min retry ((sortedUniquePriorities cs).length - 1) := by
    split <;> omega
  unfold targetPriority
  dsimp only
  rw [hidx, List.getD_eq_getElem?_getD, List.getElem?_eq_getElem (by omega)]
  rfl

theorem lookUp_eq {ids : List Int} (hfound : ∀ id ∈ ids, ∃ c, cache.find id = some c) :
    lookUp cache ids = .ok (ids.filterMap cache.find) := by
  induction ids with
  | nil => rfl
  | cons id ids ih =>
    obtain ⟨c, hc⟩ := hfound id mem_cons_self
    unfold lookUp
    rw [hc, ih fun i hi => hfound i (mem_cons_of_mem _ hi), List.filterMap_cons, hc]

theorem targetPriority_mem {cs : List Channel} (hcs : cs ≠ []) (retry : Nat) :
    ∃ c ∈ cs, c.getPriority = targetPriority cs retry :=
  mem_sortedUniquePriorities.1 (List.mem_of_getElem? (targetPriority_spec hcs retry))

theorem mem_tier {retry : Nat} {c : Channel}
    (hc : c ∈ tier h cache routingMatch group model filters retry) :
    (c.id ∈ cache.index group model ∨ c.id ∈ cache.index group (routingMatch model)) ∧
      cache.find c.id = some c ∧
      (channelSatisfiesFilters h (some c) model filters).1 = true ∧
      c.getPriority =
        targetPriority (foundCandidates h cache routingMatch group model filters) retry := by
  obtain ⟨hfound, hprio⟩ := mem_filter.1 hc
  obtain ⟨id, hid, hfind⟩ := mem_filterMap.1 hfound
  obtain rfl := cache.find_id id c hfind
  obtain ⟨hlisted, hpass⟩ := mem_candidates hid
  rw [passes_iff hfind] at hpass
  exact ⟨hlisted, hfind, hpass, of_decide_eq_true hprio⟩

/-- There are candidates, and the cache holds the channel of each. -/
structure CandidatesFound (h : Health) (cache : Cache) (routingMatch : String → String)
    (group model : String) (filters : List ChannelFilter) : Prop where
  listed : ∃ id c, (id ∈ cache.index group model ∨ id ∈ cache.index group (routingMatch model)) ∧
    cache.find id = some c ∧ (channelSatisfiesFilters h (some c) model filters).1 = true
  found : ∀ id ∈ candidates h cache routingMatch group model filters, ∃ c, cache.find id = some c

namespace CandidatesFound

section
variable (hok : CandidatesFound h cache routingMatch group model filters)
include hok

theorem candidates_ne : candidates h cache routingMatch group model filters ≠ [] := by
  obtain ⟨id, c, hlisted, hfind, hpass⟩ := hok.listed
  exact candidates_ne_nil hlisted hfind hpass

theorem found_ne : foundCandidates h cache routingMatch group model filters ≠ [] := by
  obtain ⟨id, hid⟩ := List.exists_mem_of_ne_nil _ hok.candidates_ne
  obtain ⟨c, hc⟩ := hok.found id hid
  exact ne_nil_of_mem (mem_filterMap.2 ⟨id, hid, hc⟩)

theorem tier_ne (retry : Nat) : tier h cache routingMatch group model filters retry ≠ [] := by
  obtain ⟨c, hc, hprio⟩ := targetPriority_mem hok.found_ne retry
  exact ne_nil_of_mem (mem_filter.2 ⟨hc, decide_eq_true hprio⟩)

theorem select_eq (retry draw : Nat) :
    getRandomSatisfiedChannel h cache routingMatch group model retry filters draw =
        choose h (tier h cache routingMatch group model filters retry) draw ∨
      ∃ c, tier h cache routingMatch group model filters retry = [c] ∧
        ∀ d, getRandomSatisfiedChannel h cache routingMatch group model retry filters d =
          .ok (some c) := by
  have hne := hok.candidates_ne
  have htier := hok.tier_ne retry
  have hfound := hok.found
  unfold getRandomSatisfiedChannel
  unfold tier at htier ⊢
  unfold foundCandidates at htier ⊢
  cases hids : candidates h cache routingMatch group model filters with
  | nil => exact absurd hids hne
  | cons id ids =>
    rw [hids] at hfound htier
    cases ids with
    | nil =>
      right
      obtain ⟨c, hc⟩ := hfound id mem_cons_self
      have hlist : [id].filterMap cache.find = [c] := by
        rw [List.filterMap_cons, hc, List.filterMap_nil]
      rw [hlist] at htier ⊢
      obtain ⟨d, hd⟩ := List.exists_mem_of_ne_nil _ htier
      obtain rfl := mem_singleton.1 (mem_filter.1 hd).1
      refine ⟨d, ?_, fun _ => ?_⟩
      · refine List.filter_eq_self.2 fun e he => ?_
        rw [mem_singleton.1 he]
        exact (mem_filter.1 hd).2
      · dsimp only
        rw [hc]
    | cons id' ids =>
      left
      dsimp only
      rw [lookUp_eq hfound]
      dsimp only at htier ⊢
      split
      · rename_i hnone
        exact absurd hnone htier
      · rfl

end

end CandidatesFound

theorem weightOf_weighted (cache : Cache) (targets l : List Channel)
    (hl : ∀ c ∈ l, cache.find c.id = some c) {c : Channel} (hc : cache.find c.id = some c) :
    weightOf (l.map fun c => (c.id, effectiveWeight targets c)) c.id =
      (l.map Channel.id).count c.id * effectiveWeight targets c := by
  induction l with
  | nil => exact (Nat.zero_mul _).symm
  | cons d l ih =>
    rw [map_cons, weightOf_cons, ih fun c hc => hl c (mem_cons_of_mem _ hc),
      map_cons, List.count_cons]
    by_cases hid : d.id = c.id
    · have hdc : d = c := by
        have hd := hl d mem_cons_self
        rw [hid, hc] at hd
        exact (Option.some.inj hd).symm
      rw [hdc, if_pos rfl, if_pos (beq_self_eq_true _), Nat.succ_mul, Nat.add_comm]
    · rw [if_neg hid, if_neg (fun hb => hid (eq_of_beq hb)), Nat.zero_add, Nat.add_zero]

/-- **The memory path returns a listed channel that passes every filter, of the tier
    of the retry number, and draws within the tier by effective weight.** -/
theorem getRandomSatisfiedChannel_spec (h : Health) (cache : Cache)
    (routingMatch : String → String) (group model : String) (filters : List ChannelFilter)
    (retry : Nat) (hok : CandidatesFound h cache routingMatch group model filters)
    (hT : totalWeight (weighted (tier h cache routingMatch group model filters retry)) < 2 ^ 63) :
    (∀ draw < totalWeight (weighted (tier h cache routingMatch group model filters retry)), ∃ c,
      getRandomSatisfiedChannel h cache routingMatch group model retry filters draw = .ok (some c) ∧
      (c.id ∈ cache.index group model ∨ c.id ∈ cache.index group (routingMatch model)) ∧
      (channelSatisfiesFilters h (some c) model filters).1 = true ∧
      (sortedUniquePriorities (foundCandidates h cache routingMatch group model filters))[
        min retry ((sortedUniquePriorities
          (foundCandidates h cache routingMatch group model filters)).length - 1)]? =
        some c.getPriority) ∧
    (h.weightedLBEnabled = false →
      ∀ c ∈ tier h cache routingMatch group model filters retry,
        drawsOf (totalWeight (weighted (tier h cache routingMatch group model filters retry)))
          (fun draw => chosenId
            (getRandomSatisfiedChannel h cache routingMatch group model retry filters draw)) c.id =
        ((tier h cache routingMatch group model filters retry).map Channel.id).count c.id *
          effectiveWeight (tier h cache routingMatch group model filters retry) c) := by
  have hmem : ∀ c ∈ tier h cache routingMatch group model filters retry, _ :=
    fun c hc => mem_tier hc
  have hspec := targetPriority_spec hok.found_ne retry
  have hsel := fun draw => hok.select_eq retry draw
  generalize tier h cache routingMatch group model filters retry = targets at *
  constructor
  · intro draw hdraw
    have hres : ∃ c ∈ targets, getRandomSatisfiedChannel h cache routingMatch group model retry
        filters draw = .ok (some c) := by
      rcases hsel draw with heq | ⟨c, htier, heq⟩
      · obtain ⟨c, hc, hch⟩ := choose_mem h hT hdraw
        exact ⟨c, hc, heq.trans hch⟩
      · exact ⟨c, htier ▸ List.mem_singleton_self c, heq draw⟩
    obtain ⟨c, hc, heq⟩ := hres
    obtain ⟨hlisted, -, hpass, hprio⟩ := hmem c hc
    exact ⟨c, heq, hlisted, hpass, hprio ▸ hspec⟩
  intro hLB c hc
  have hweight : weightOf (weighted targets) c.id =
      (targets.map Channel.id).count c.id * effectiveWeight targets c :=
    weightOf_weighted cache targets targets (fun c hc => (hmem c hc).2.1) (hmem c hc).2.1
  rw [← hweight, ← drawsOf_choose hLB hT]
  apply drawsOf_congr
  intro draw hdraw
  rcases hsel draw with heq | ⟨d, htier, heq⟩
  · rw [heq]
  -- one candidate: whatever is drawn, the walk ends there too
  obtain ⟨e, he, hpick⟩ := choose_mem h hT hdraw
  rw [htier] at he
  rw [heq, hpick, mem_singleton.1 he]

/-- Two channels of one tier, and a third one below. -/
def threeChannels : Cache where
  find id :=
    if id = 1 then some { id := 1, weight := some 3 }
    else if id = 2 then some { id := 2, weight := some 5 }
    else if id = 3 then some { id := 3, priority := some (-1) }
    else none
  index _ model := if model = "m" then [1, 2, 3] else []
  find_id id c hc := by
    split_ifs at hc <;> cases hc <;> simp_all

theorem threeChannels_found : CandidatesFound {} threeChannels (fun m => m) "g" "m" [] where
  listed := ⟨1, { id := 1, weight := some 3 }, .inl (by decide), rfl, rfl⟩
  found id hid := by
    have hlisted : id ∈ [1, 2, 3] := hid
    rcases mem_cons.1 hlisted with rfl | hlisted
    · exact ⟨_, rfl⟩
    rcases mem_cons.1 hlisted with rfl | hlisted
    · exact ⟨_, rfl⟩
    · obtain rfl := mem_singleton.1 hlisted
      exact ⟨_, rfl⟩

theorem threeChannels_draws : drawsOf 800 (fun draw => chosenId
      (getRandomSatisfiedChannel {} threeChannels (fun m => m) "g" "m" 0 [] draw)) 2 = 500 :=
  (getRandomSatisfiedChannel_spec {} threeChannels (fun m => m) "g" "m" [] 0 threeChannels_found
    (by decide +kernel)).2 rfl { id := 2, weight := some 5 }
    (mem_filter.2 ⟨mem_filterMap.2 ⟨2, by decide +kernel, rfl⟩, by decide +kernel⟩)

def staleIndex : Cache where
  find id := if id = 1 then some { id := 1 } else none
  index _ model := if model = "m" then [1, 2] else []
  find_id id c hc := by
    split_ifs at hc
    cases hc
    simp_all

/-- The index lists one channel twice, and weights that add up to `2 ^ 63`. -/
def twiceListed (weight : Nat) : Cache where
  find id :=
    if id = 1 then some { id := 1, weight := some weight }
    else if id = 2 then some { id := 2, weight := some weight }
    else none
  index _ model := if model = "m" then [1, 2] else if model = "twice" then [1, 1, 2] else []
  find_id id c hc := by
    split_ifs at hc <;> cases hc <;> simp_all

/-- A listed channel passes, and yet: with a stale entry beside it the selection is
    refused; where the weights overflow the draw panics; and a channel that is listed
    twice is drawn twice as often as it weighs. -/
theorem selection_limits : (getRandomSatisfiedChannel {} staleIndex (fun m => m) "g" "m" 0 [] 0 =
        .error (.inconsistent 2) ∧
      (channelSatisfiesFilters {} (staleIndex.find 1) "m" []).1 = true) ∧
    getRandomSatisfiedChannel {} (twiceListed (2 ^ 62)) (fun m => m) "g" "m" 0 [] 0 =
      .error .panic ∧
    (drawsOf 300 (fun draw => chosenId
        (getRandomSatisfiedChannel {} (twiceListed 0) (fun m => m) "g" "twice" 0 [] draw)) 1 = 200 ∧
      drawsOf 300 (fun draw => chosenId
        (getRandomSatisfiedChannel {} (twiceListed 0) (fun m => m) "g" "twice" 0 [] draw)) 2 =
          100) := by
  refine ⟨⟨rfl, rfl⟩, rfl, ?_, ?_⟩ <;> decide +kernel

end Selection

end NewApi.ChannelSelection
