/-
  NewApi.Channel.TableSelection

  `GetChannel`, the selection on the ability table that serves without a memory
  cache, beside `GetRandomSatisfiedChannel`.

  The walk of `GetChannel` stops at zero where the other stops below it, so it
  is given the number before; and it does not look for the normalised model.
-/

import NewApi.Channel.Selection
import NewApi.Channel.Abilities

namespace NewApi.ChannelSelection

open List (cons_ne_nil count_pos_iff map_map mem_cons_self mem_filter mem_map mem_singleton
  mem_singleton_self)
open NewApi.Lib
open NewApi.Abilities (Store Mirrors)

/-! ## The selection on the table -/

/-- What `GetChannel` reads of an ability. -/
structure AbilityRow where
  channelId : Int
  priority : Option Int := none
  weight : Nat := 0

def AbilityRow.getPriority (a : AbilityRow) : Int := a.priority.getD 0

def identityFilterRequiresKey (filters : List ChannelFilter) : Bool :=
  filters.any fun f => f.kind = .taskPluginIdentity && f.taskPluginKey ≠ ""

/-- `filterAbilitiesByConstraints`, where `find` are the rows of `channels` and
    the statement that reads them may fail. -/
def filterAbilitiesByConstraints (h : Health) (find : Int → Option Channel) (lookUpFails : Bool)
    (abilities : List AbilityRow) (modelName : String) (filters : List ChannelFilter) :
    List AbilityRow :=
  if lookUpFails then
    if identityFilterRequiresKey filters then [] else abilities
  else
    abilities.filter fun a => (channelSatisfiesFilters h (find a.channelId) modelName filters).1

def abilityPriorities (abilities : List AbilityRow) : List Int :=
  (abilities.map AbilityRow.getPriority).dedup.insertionSort (· ≥ ·)

/-- The abilities of the tier that a retry number goes to. -/
def abilityTier (abilities : List AbilityRow) (retry : Nat) : List AbilityRow :=
  let priorities := abilityPriorities abilities
  let target := priorities.getD (if priorities.length ≤ retry then priorities.length - 1 else retry) 0
  abilities.filter fun a => a.priority = none && target = 0 || a.priority = some target

/-- `weightSum`, an unsigned integer. -/
def weightSum (tier : List AbilityRow) : Nat :=
  tier.foldl (fun s a => (s + (a.weight + 10)) % 2 ^ 64) 0

/-- `common.GetRandomInt`: a number that is not below the bound is never drawn,
    and without one that is the call panics. -/
def getRandomInt (max : Int) (draw : Nat) : Option Int := if (draw : Int) < max then some draw else none

def drawLoop : Int → List AbilityRow → Option Int
  | _, [] => none
  | weight, a :: as =>
    let weight := wrap64 (weight - wrap64 (wrap64 a.weight + 10))
    if weight ≤ 0 then some a.channelId else drawLoop weight as

def drawAbility (tier : List AbilityRow) (draw : Nat) : Option Int :=
  (getRandomInt (wrap64 (weightSum tier)) draw).bind fun weight => drawLoop weight tier

inductive TableErr where
  /-- `rand.Intn` panics -/
  | panic
  /-- `DB.First` finds no row -/
  | notFound

/-- The loop on the number drawn, and the row of the channel that it names. -/
def firstChannel (find : Int → Option Channel) (tier : List AbilityRow) :
    Option Int → Except TableErr (Option Channel)
  | none => .error .panic
  | some weight =>
    match find ((drawLoop weight tier).getD 0) with
    | some c => .ok (some c)
    | none => .error .notFound

/-- The draw in `GetChannel` -/
def drawChannel (find : Int → Option Channel) (tier : List AbilityRow) (draw : Nat) :
    Except TableErr (Option Channel) :=
  firstChannel find tier (getRandomInt (wrap64 (weightSum tier)) draw)

/-- `GetChannel` on the enabled abilities of the group and the model. -/
def getChannel (h : Health) (find : Int → Option Channel) (lookUpFails : Bool)
    (abilities : List AbilityRow) (model : String) (retry : Nat) (filters : List ChannelFilter)
    (draw : Nat) : Except TableErr (Option Channel) :=
  match filterAbilitiesByConstraints h find lookUpFails abilities model filters with
  | [] => .ok none
  | kept =>
    match abilityTier kept retry with
    | [] => .ok none
    | tier => drawChannel find tier draw

/-! ## The draw -/

section Draw

def tickets (tier : List AbilityRow) : List (Int × Nat) :=
  tier.map fun a => (a.channelId, a.weight + 10)

variable {tier : List AbilityRow}

theorem weightSum_eq (tier : List AbilityRow) : weightSum tier = totalWeight (tickets tier) % 2 ^ 64 := by
  have hgo : ∀ (l : List AbilityRow) (s : Nat),
      l.foldl (fun s a => (s + (a.weight + 10)) % 2 ^ 64) s % 2 ^ 64 =
        (s + totalWeight (tickets l)) % 2 ^ 64 := by
    intro l
    induction l with
    | nil => exact fun _ => rfl
    | cons a l ih =>
      intro s
      show _ = (s + totalWeight ((a.channelId, a.weight + 10) :: tickets l)) % 2 ^ 64
      rw [List.foldl_cons, ih, totalWeight_cons]
      omega
  have hlt : weightSum tier < 2 ^ 64 := by
    unfold weightSum
    rw [← List.foldr_reverse]
    cases tier.reverse with
    | nil => exact Nat.two_pow_pos 64
    | cons a l => exact Nat.mod_lt _ (Nat.two_pow_pos 64)
  have hmod := hgo tier 0
  rw [Nat.zero_add] at hmod
  exact (Nat.mod_eq_of_lt hlt).symm.trans hmod

theorem ticket_le {a : AbilityRow} (ha : a ∈ tier) : a.weight + 10 ≤ totalWeight (tickets tier) := by
  have hmem : a.weight + 10 ∈ (tickets tier).map Prod.snd :=
    mem_map.2 ⟨_, mem_map.2 ⟨a, ha, rfl⟩, rfl⟩
  exact List.single_le_sum (fun _ _ => Nat.zero_le _) _ hmem

theorem drawLoop_eq {l : List AbilityRow} (hl : ∀ a ∈ l, a.weight + 10 < 2 ^ 63) {r : Nat}
    (hr : r < 2 ^ 63) : drawLoop r l = pickAt (tickets l) (r - 1) := by
  induction l generalizing r with
  | nil => rfl
  | cons a l ih =>
    have ha := hl a mem_cons_self
    have hweight : wrap64 (wrap64 (a.weight : Int) + 10) = (a.weight : Int) + 10 := by
      rw [wrap64_of_range (n := (a.weight : Int)) (by omega) (by omega)]
      apply wrap64_of_range <;> omega
    have hsub : wrap64 ((r : Int) - wrap64 (wrap64 (a.weight : Int) + 10)) =
        (r : Int) - (a.weight + 10) := by
      rw [hweight]
      apply wrap64_of_range <;> omega
    unfold drawLoop
    rw [hsub]
    show _ = if r - 1 < a.weight + 10 then some a.channelId
      else pickAt (tickets l) (r - 1 - (a.weight + 10))
    by_cases hused : r - 1 < a.weight + 10
    · rw [if_pos (by omega), if_pos hused]
    rw [if_neg (by omega), if_neg hused]
    have hcast : (r : Int) - (a.weight + 10) = ((r - (a.weight + 10) : Nat) : Int) := by omega
    rw [hcast, ih (fun a ha => hl a (List.mem_cons_of_mem _ ha)) (by omega), Nat.sub_right_comm]

section
variable (hT : totalWeight (tickets tier) < 2 ^ 63)
include hT

theorem wrap64_weightSum : wrap64 (weightSum tier) = (totalWeight (tickets tier) : Nat) := by
  rw [weightSum_eq, Nat.mod_eq_of_lt (by omega)]
  apply wrap64_of_range <;> omega

theorem getRandomInt_eq (draw : Nat) :
    getRandomInt (wrap64 (weightSum tier)) draw =
      if draw < totalWeight (tickets tier) then some (draw : Int) else none := by
  unfold getRandomInt
  rw [wrap64_weightSum hT]
  by_cases hdraw : draw < totalWeight (tickets tier)
  · rw [if_pos hdraw, if_pos (by omega)]
  · rw [if_neg hdraw, if_neg (by omega)]

theorem drawAbility_eq_drawLoop {draw : Nat} (hdraw : draw < totalWeight (tickets tier)) : drawAbility tier draw = drawLoop draw tier := by
  unfold drawAbility
  rw [getRandomInt_eq hT, if_pos hdraw]
  rfl

theorem drawAbility_eq {draw : Nat} (hdraw : draw < totalWeight (tickets tier)) :
    drawAbility tier draw = pickAt (tickets tier) (draw - 1) := by
  have hl : ∀ a ∈ tier, a.weight + 10 < 2 ^ 63 := by
    intro a ha
    have := ticket_le ha
    omega
  rw [drawAbility_eq_drawLoop hT hdraw]
  exact drawLoop_eq hl (by omega)

end

/-- In every draw the loop finds an ability, each in as many draws as its ticket says. -/
def DrawsExact (tier : List AbilityRow) : Prop :=
  (∀ draw < totalWeight (tickets tier), ∃ a ∈ tier, drawAbility tier draw = some a.channelId) ∧
    ∀ a ∈ tier, drawsOf (totalWeight (tickets tier)) (drawAbility tier) a.channelId = a.weight + 10

theorem weightOf_tickets (hids : (tier.map AbilityRow.channelId).Nodup) {a : AbilityRow}
    (ha : a ∈ tier) : weightOf (tickets tier) a.channelId = a.weight + 10 := by
  induction tier with
  | nil => cases ha
  | cons b l ih =>
    obtain ⟨hb, hl⟩ := List.nodup_cons.1 hids
    show weightOf ((b.channelId, b.weight + 10) :: tickets l) a.channelId = _
    rw [weightOf_cons]
    rcases List.mem_cons.1 ha with rfl | ha
    · have hnone : weightOf (tickets l) a.channelId = 0 := by
        refine List.sum_eq_zero fun x hx => ?_
        obtain ⟨e, he, rfl⟩ := mem_map.1 hx
        obtain ⟨c, hc, rfl⟩ := mem_map.1 he
        exact if_neg fun hid => hb (mem_map.2 ⟨c, hc, hid⟩)
      rw [if_pos rfl, hnone, Nat.add_zero]
    · have hne : b.channelId ≠ a.channelId := fun hid => hb (mem_map.2 ⟨a, ha, hid.symm⟩)
      rw [if_neg hne, ih hl ha, Nat.zero_add]

theorem totalWeight_tickets_pos (hne : tier ≠ []) : 0 < totalWeight (tickets tier) := by
  obtain ⟨a, ha⟩ := List.exists_mem_of_ne_nil tier hne
  have := ticket_le ha
  omega

theorem pickAt_tickets {draw : Nat} (hdraw : draw < totalWeight (tickets tier)) :
    ∃ a ∈ tier, pickAt (tickets tier) draw = some a.channelId := by
  obtain ⟨e, he, hpick⟩ := pickAt_mem hdraw
  obtain ⟨a, ha, rfl⟩ := mem_map.1 he
  exact ⟨a, ha, hpick⟩

section
variable (hne : tier ≠ []) (hids : (tier.map AbilityRow.channelId).Nodup)
include hne hids

theorem drawsOf_drawAbility (hT : totalWeight (tickets tier) < 2 ^ 63) {a : AbilityRow}
    (ha : a ∈ tier) :
    drawsOf (totalWeight (tickets tier)) (drawAbility tier) a.channelId +
        (if pickAt (tickets tier) (totalWeight (tickets tier) - 1) = some a.channelId then 1 else 0) =
      a.weight + 10 + if pickAt (tickets tier) 0 = some a.channelId then 1 else 0 := by
  have hshift := drawsOf_congr (fun _ hr => drawAbility_eq hT hr) a.channelId
  rw [hshift, drawsOf_pred (totalWeight_tickets_pos hne), drawsOf_pickAt, weightOf_tickets hids ha]

/-- **The draws are exact if and only if there is one ability to draw, and its
    ticket is in range.** -/
theorem drawsExact_iff :
    DrawsExact tier ↔ tier.length = 1 ∧ totalWeight (tickets tier) < 2 ^ 63 := by
  have hpos := totalWeight_tickets_pos hne
  constructor
  · rintro ⟨hfinds, hexact⟩
    have hT : totalWeight (tickets tier) < 2 ^ 63 := by
      -- the last draw of an overflowing sum does not exist
      by_contra hover
      obtain ⟨a, -, hlast⟩ := hfinds (totalWeight (tickets tier) - 1) (by omega)
      have hrange := (wrap64_range (weightSum tier)).2
      unfold drawAbility getRandomInt at hlast
      rw [if_neg (by omega)] at hlast
      cases hlast
    refine ⟨?_, hT⟩
    match tier, hne with
    | [a], _ => rfl
    | a :: b :: l, hne =>
      exfalso
      obtain ⟨hfresh, -⟩ := List.nodup_cons.1 hids
      have hsum : totalWeight (tickets (a :: b :: l)) =
          a.weight + 10 + totalWeight (tickets (b :: l)) := totalWeight_cons _ _
      have hrest := totalWeight_tickets_pos (cons_ne_nil b l)
      have hbelow : totalWeight (tickets (a :: b :: l)) - 1 - (a.weight + 10) <
          totalWeight (tickets (b :: l)) := by omega
      have hfirst : pickAt (tickets (a :: b :: l)) 0 = some a.channelId :=
        if_pos (Nat.succ_pos (a.weight + 9))
      have hlast : pickAt (tickets (a :: b :: l)) (totalWeight (tickets (a :: b :: l)) - 1) ≠
          some a.channelId := by
        intro hpick
        have hskip : pickAt (tickets (a :: b :: l)) (totalWeight (tickets (a :: b :: l)) - 1) =
            pickAt (tickets (b :: l)) (totalWeight (tickets (a :: b :: l)) - 1 - (a.weight + 10)) :=
          if_neg (by show ¬ _ < a.weight + 10; omega)
        obtain ⟨c, hc, hc'⟩ := pickAt_tickets hbelow
        rw [hskip, hc'] at hpick
        exact hfresh (mem_map.2 ⟨c, hc, Option.some.inj hpick⟩)
      have hdraws := drawsOf_drawAbility hne hids hT mem_cons_self
      rw [if_neg hlast, if_pos hfirst, hexact a mem_cons_self] at hdraws
      omega
  rintro ⟨hone, hT⟩
  obtain ⟨a, rfl⟩ := List.length_eq_one_iff.1 hone
  have hall : ∀ draw < totalWeight (tickets [a]), pickAt (tickets [a]) draw = some a.channelId := by
    intro draw hdraw
    obtain ⟨b, hb, hpick⟩ := pickAt_tickets hdraw
    rw [hpick, mem_singleton.1 hb]
  refine ⟨fun draw hdraw => ⟨a, mem_singleton_self a, ?_⟩, fun b hb => ?_⟩
  · rw [drawAbility_eq hT hdraw]
    exact hall _ (by omega)
  have hdraws := drawsOf_drawAbility hne hids hT hb
  rw [mem_singleton.1 hb] at hdraws ⊢
  rw [if_pos (hall _ (by omega)), if_pos (hall 0 hpos)] at hdraws
  omega

end

end Draw

/-! ## The same rows on both paths -/

/-- What the filters read of a channel row beside the columns of the abilities. -/
structure Settings where
  type : Int := 1
  supportsPath : Option (String → String → Bool) := none
  taskPluginKey : String := ""

variable (settings : Int → Settings)

/-- The row as the selection reads it. -/
def selectable (ch : Abilities.Channel) : Channel where
  id := ch.id
  type := (settings ch.id).type
  priority := some ch.priority
  weight := some ch.weight
  supportsPath := (settings ch.id).supportsPath
  taskPluginKey := (settings ch.id).taskPluginKey

/-- The row as `InitChannelCache` reads it. -/
def indexed (ch : Abilities.Channel) : ChannelCache.Channel where
  id := ch.id
  status := ch.status
  models := ch.models
  group := ch.group
  priority := some ch.priority

/-- The rows that `InitChannelCache` reads. -/
def cacheRows (s : Store) : ChannelCache.ChannelMap where
  rows := s.channels.map indexed
  unique := by
    rw [map_map]
    exact s.unique

def findChannel (s : Store) (id : Int) : Option Channel :=
  (s.channels.find? fun ch => ch.id = id).map (selectable settings)

theorem findChannel_eq_some_iff {settings : Int → Settings} {s : Store} {id : Int} {c : Channel} :
    findChannel settings s id = some c ↔ ∃ ch ∈ s.channels, ch.id = id ∧ c = selectable settings ch := by
  constructor
  · intro hf
    obtain ⟨ch, hch, rfl⟩ := Option.map_eq_some_iff.1 hf
    have hid := List.find?_some hch
    exact ⟨ch, List.mem_of_find?_eq_some hch, of_decide_eq_true hid, rfl⟩
  rintro ⟨ch, hch, rfl, rfl⟩
  unfold findChannel
  cases hf : s.channels.find? fun d => d.id = ch.id with
  | none => exact absurd (decide_eq_true rfl) (List.find?_eq_none.1 hf ch hch)
  | some d =>
    have hid := List.find?_some hf
    rw [List.inj_on_of_nodup_map s.unique (List.mem_of_find?_eq_some hf) hch
      (of_decide_eq_true hid)]
    rfl

/-- The memory cache that `InitChannelCache` builds from the rows. -/
def memoryCache (s : Store) : Cache where
  find := findChannel settings s
  index := (ChannelCache.initChannelCache (cacheRows s)).index
  find_id id c hc := by
    obtain ⟨ch, -, hid, rfl⟩ := findChannel_eq_some_iff.1 hc
    exact hid

/-- The rows that the query of `GetChannel` returns: the enabled abilities of the
    group and the model, in some order. -/
structure IsQuery (s : Store) (g m : String) (rows : List AbilityRow) : Prop where
  mem : ∀ r, r ∈ rows ↔ ∃ a, s.abilities r.channelId g m = some a ∧ a.enabled = true ∧
    r.priority = some a.priority ∧ r.weight = a.weight
  unique : (rows.map AbilityRow.channelId).Nodup

section Paths

variable {h : Health} {settings : Int → Settings} {s : Store} {routingMatch : String → String}
  {g m : String} {filters : List ChannelFilter} {rows : List AbilityRow}

theorem mem_index {id : Int} : id ∈ (memoryCache settings s).index g m ↔
      ∃ ch ∈ s.channels, ch.id = id ∧ ch.status = 1 ∧ ch.Lists g m := by
  have hcount : ((memoryCache settings s).index g m).count id = _ :=
    (ChannelCache.count_sortIndex _ _ g m id).trans
      (ChannelCache.count_collect (fun c => ChannelCache.splitComma c.group) _ (cacheRows s).unique g m id)
  have hfind : ∀ c, (cacheRows s).rows.find? (fun c => c.id = id) = some c ↔ _ :=
    (cacheRows s).find_eq_some_iff id
  rw [← count_pos_iff, hcount]
  constructor
  · intro hpos
    cases hc : (cacheRows s).rows.find? fun c => c.id = id with
    | none =>
      rw [hc] at hpos
      exact absurd hpos (Nat.lt_irrefl 0)
    | some c =>
      obtain ⟨hmem, hid⟩ := (hfind c).1 hc
      obtain ⟨ch, hch, rfl⟩ := mem_map.1 hmem
      rw [hc] at hpos
      by_cases hen : (indexed ch).Enabled
      · rw [Option.map_some, Option.getD_some, if_pos hen] at hpos
        exact ⟨ch, hch, hid, hen, count_pos_iff.1 (Nat.pos_of_mul_pos_right hpos),
          count_pos_iff.1 (Nat.pos_of_mul_pos_left hpos)⟩
      · rw [Option.map_some, if_neg hen] at hpos
        exact absurd hpos (Nat.lt_irrefl 0)
  rintro ⟨ch, hch, hid, hen, hgroup, hmodel⟩
  rw [(hfind (indexed ch)).2 ⟨List.mem_map_of_mem hch, hid⟩, Option.map_some, Option.getD_some,
    if_pos (show (indexed ch).Enabled from hen)]
  exact Nat.mul_pos (count_pos_iff.2 hgroup) (count_pos_iff.2 hmodel)

/-- The channel is enabled, lists the group and the listed model, and passes the
    filters for the requested one. -/
def Eligible (h : Health) (settings : Int → Settings) (s : Store) (g listed m : String)
    (filters : List ChannelFilter) (ch : Abilities.Channel) : Prop :=
  (ch ∈ s.channels ∧ ch.status = 1 ∧ ch.Lists g listed) ∧
    (channelSatisfiesFilters h (some (selectable settings ch)) m filters).1 = true

theorem find_of_mem {ch : Abilities.Channel} (hch : ch ∈ s.channels) :
    findChannel settings s ch.id = some (selectable settings ch) :=
  findChannel_eq_some_iff.2 ⟨ch, hch, rfl, rfl⟩

theorem mem_filterCandidateIDs {listed : String} {id : Int} :
    id ∈ (filterCandidateIDs h (memoryCache settings s) ((memoryCache settings s).index g listed)
        m filters).1 ↔
      ∃ ch, Eligible h settings s g listed m filters ch ∧ ch.id = id := by
  rw [filterCandidateIDs_eq, mem_filter, mem_index]
  constructor
  · rintro ⟨⟨ch, hch, rfl, hen, hlists⟩, hpass⟩
    have hfind : (memoryCache settings s).find ch.id = some (selectable settings ch) := find_of_mem hch
    rw [passes_iff hfind] at hpass
    exact ⟨ch, ⟨⟨hch, hen, hlists⟩, hpass⟩, rfl⟩
  rintro ⟨ch, ⟨⟨hch, hen, hlists⟩, hpass⟩, rfl⟩
  have hfind : (memoryCache settings s).find ch.id = some (selectable settings ch) := find_of_mem hch
  rw [passes_iff hfind]
  exact ⟨⟨ch, hch, rfl, hen, hlists⟩, hpass⟩

/-- The model name under which the memory path finds its candidates. -/
def listedModel (h : Health) (settings : Int → Settings) (s : Store) (routingMatch : String → String)
    (g m : String) (filters : List ChannelFilter) : String :=
  if (filterCandidateIDs h (memoryCache settings s) ((memoryCache settings s).index g m) m filters).1 =
    [] then routingMatch m else m

theorem listedModel_of_eligible {ch : Abilities.Channel} (hch : Eligible h settings s g m m filters ch) :
    listedModel h settings s routingMatch g m filters = m :=
  if_neg (List.ne_nil_of_mem (mem_filterCandidateIDs.2 ⟨ch, hch, rfl⟩))

theorem listedModel_of_none (hnone : ¬∃ ch, Eligible h settings s g m m filters ch) :
    listedModel h settings s routingMatch g m filters = routingMatch m := by
  refine if_pos (List.eq_nil_iff_forall_not_mem.2 fun id hid => hnone ?_)
  obtain ⟨ch, hch, -⟩ := mem_filterCandidateIDs.1 hid
  exact ⟨ch, hch⟩

theorem candidates_eq : candidates h (memoryCache settings s) routingMatch g m filters =
      (filterCandidateIDs h (memoryCache settings s) ((memoryCache settings s).index g
        (listedModel h settings s routingMatch g m filters)) m filters).1 := by
  unfold candidates listedModel
  dsimp only
  split <;> rfl

theorem mem_foundCandidates {c : Channel} :
    c ∈ foundCandidates h (memoryCache settings s) routingMatch g m filters ↔
      ∃ ch, Eligible h settings s g (listedModel h settings s routingMatch g m filters) m filters ch ∧
        c = selectable settings ch := by
  unfold foundCandidates
  rw [List.mem_filterMap, candidates_eq]
  constructor
  · rintro ⟨id, hid, hfind⟩
    obtain ⟨ch, hch, rfl⟩ := mem_filterCandidateIDs.1 hid
    exact ⟨ch, hch, Option.some.inj (hfind.symm.trans (find_of_mem hch.1.1))⟩
  · rintro ⟨ch, hch, rfl⟩
    exact ⟨ch.id, mem_filterCandidateIDs.2 ⟨ch, hch, rfl⟩, find_of_mem hch.1.1⟩

def rowOf (ch : Abilities.Channel) : AbilityRow where
  channelId := ch.id
  priority := some ch.priority
  weight := ch.weight

theorem mem_filterAbilities (hs : Mirrors s) (hq : IsQuery s g m rows) {r : AbilityRow} :
    r ∈ filterAbilitiesByConstraints h (findChannel settings s) false rows m filters ↔
      ∃ ch, Eligible h settings s g m m filters ch ∧ r = rowOf ch := by
  show r ∈ rows.filter _ ↔ _
  rw [mem_filter, hq.mem]
  constructor
  · rintro ⟨⟨a, ha, hen, hprio, hweight⟩, hpass⟩
    have hhas : s.Has r.channelId := by
      by_contra hno
      rw [hs.orphans _ hno] at ha
      cases ha
    obtain ⟨ch, hch, hid⟩ := hhas
    rw [← hid, hs.rows ch hch] at ha
    rw [← hid, find_of_mem hch] at hpass
    by_cases hlists : ch.Lists g m
    · obtain rfl : ch.ability = a := Option.some.inj ((if_pos hlists).symm.trans ha)
      refine ⟨ch, ⟨⟨hch, eq_of_beq hen, hlists⟩, hpass⟩, ?_⟩
      obtain ⟨rid, rprio, rweight⟩ := r
      cases hid
      cases hprio
      cases hweight
      rfl
    · cases (if_neg hlists).symm.trans ha
  rintro ⟨ch, ⟨⟨hch, hen, hlists⟩, hpass⟩, rfl⟩
  refine ⟨⟨ch.ability, ?_, beq_iff_eq.2 hen, rfl, rfl⟩, ?_⟩
  · show s.abilities ch.id g m = _
    rw [hs.rows ch hch]
    exact if_pos hlists
  show (channelSatisfiesFilters h (findChannel settings s ch.id) m filters).1 = true
  rw [find_of_mem hch]
  exact hpass

theorem sortedPriorities_congr {l l' : List Int} (hmem : ∀ p, p ∈ l ↔ p ∈ l') :
    l.dedup.insertionSort (· ≥ ·) = l'.dedup.insertionSort (· ≥ ·) := by
  have hperm : l.dedup.Perm l'.dedup := by
    rw [List.perm_ext_iff_of_nodup (List.nodup_dedup _) (List.nodup_dedup _)]
    intro p
    rw [List.mem_dedup, List.mem_dedup]
    exact hmem p
  refine List.Perm.eq_of_pairwise' (List.pairwise_insertionSort (· ≥ ·) _)
    (List.pairwise_insertionSort (· ≥ ·) _) ?_
  exact ((List.perm_insertionSort _ _).trans hperm).trans (List.perm_insertionSort _ _).symm

theorem targetPriority_congr {cs cs' : List Channel}
    (hmem : ∀ p, p ∈ cs.map Channel.getPriority ↔ p ∈ cs'.map Channel.getPriority) (retry : Nat) :
    targetPriority cs retry = targetPriority cs' retry := by
  unfold targetPriority sortedUniquePriorities
  rw [sortedPriorities_congr hmem]

theorem mem_abilityTier (settings : Int → Settings) {kept : List AbilityRow}
    {cs : List Abilities.Channel} (hkept : ∀ r, r ∈ kept ↔ ∃ ch ∈ cs, r = rowOf ch) (retry : Nat) {r : AbilityRow} :
    r ∈ abilityTier kept retry ↔ ∃ ch ∈ cs, r = rowOf ch ∧
      ch.priority = targetPriority (cs.map (selectable settings)) retry := by
  have hprios : abilityPriorities kept = sortedUniquePriorities (cs.map (selectable settings)) := by
    refine sortedPriorities_congr fun p => ?_
    rw [mem_map, map_map, mem_map]
    constructor
    · rintro ⟨r, hr, rfl⟩
      obtain ⟨ch, hch, rfl⟩ := (hkept r).1 hr
      exact ⟨ch, hch, rfl⟩
    · rintro ⟨ch, hch, rfl⟩
      exact ⟨rowOf ch, (hkept _).2 ⟨ch, hch, rfl⟩, rfl⟩
  unfold abilityTier
  rw [hprios, mem_filter, hkept]
  constructor
  · rintro ⟨⟨ch, hch, rfl⟩, hprio⟩
    refine ⟨ch, hch, rfl, ?_⟩
    rw [Bool.or_eq_true, Bool.and_eq_true, decide_eq_true_iff, decide_eq_true_iff,
      decide_eq_true_iff] at hprio
    rcases hprio with ⟨hnull, -⟩ | hsome
    · cases hnull
    · exact Option.some.inj hsome
  rintro ⟨ch, hch, rfl, hprio⟩
  refine ⟨⟨ch, hch, rfl⟩, ?_⟩
  have hsome : (rowOf ch).priority = some (targetPriority (cs.map (selectable settings)) retry) :=
    congrArg some hprio
  rw [Bool.or_eq_true]
  exact .inr (decide_eq_true hsome)

end Paths

/-! ## What each path can return -/

section Returned

theorem effectiveWeight_pos {targets : List Channel} {w : Nat}
    (hw : ∀ c ∈ targets, c.weight.getD 0 = w) {c : Channel} (hc : c ∈ targets) :
    0 < effectiveWeight targets c := by
  have hall : (targets.map fun c => c.weight.getD 0).sum = targets.length * w := by
    rw [List.map_congr_left hw, List.map_const', List.sum_replicate_nat]
  have hcw := hw c hc
  unfold effectiveWeight
  by_cases h0 : (targets.map fun c => c.weight.getD 0).sum = 0
  · rw [if_pos h0]
    omega
  have hwpos : w ≠ 0 := by
    rintro rfl
    exact h0 (hall.trans (Nat.mul_zero _))
  rw [if_neg h0]
  split <;> omega

variable {h : Health} {cache : Cache} {routingMatch : String → String} {g m : String}
  {filters : List ChannelFilter} {retry : Nat}

theorem memory_returns_iff (hok : CandidatesFound h cache routingMatch g m filters)
    (hLB : h.weightedLBEnabled = false)
    (hT : totalWeight (weighted (tier h cache routingMatch g m filters retry)) < 2 ^ 63)
    (hpos : ∀ c ∈ tier h cache routingMatch g m filters retry,
      0 < effectiveWeight (tier h cache routingMatch g m filters retry) c) (c : Channel) :
    (∃ draw, getRandomSatisfiedChannel h cache routingMatch g m retry filters draw = .ok (some c)) ↔
      c ∈ tier h cache routingMatch g m filters retry := by
  have hfind : ∀ c ∈ tier h cache routingMatch g m filters retry, cache.find c.id = some c :=
    fun c hc => (mem_tier hc).2.1
  constructor
  · rintro ⟨draw, heq⟩
    rcases hok.select_eq retry draw with hch | ⟨d, htier, hone⟩
    · rw [hch] at heq
      unfold choose at heq
      rw [healthPick_off hLB] at heq
      unfold weightPick at heq
      dsimp only at heq
      split at heq
      · cases heq
      cases hwalk : walk _ _ (draw : Int) (tier h cache routingMatch g m filters retry) with
      | none =>
        rw [hwalk] at heq
        cases heq
      | some d =>
        rw [hwalk] at heq
        cases heq
        exact walk_mem hwalk
    rw [hone draw] at heq
    cases heq
    rw [htier]
    exact mem_singleton_self _
  intro hc
  have hweight := weightOf_weighted cache (tier h cache routingMatch g m filters retry) _ hfind
    (hfind c hc)
  have hcount : 0 < ((tier h cache routingMatch g m filters retry).map Channel.id).count c.id :=
    count_pos_iff.2 (List.mem_map_of_mem hc)
  have hdraws : 0 < drawsOf (totalWeight (weighted (tier h cache routingMatch g m filters retry)))
      (fun draw => chosenId (choose h (tier h cache routingMatch g m filters retry) draw)) c.id := by
    rw [drawsOf_choose hLB hT]
    exact hweight ▸ Nat.mul_pos hcount (hpos c hc)
  obtain ⟨draw, hdraw, hchosen⟩ := exists_of_drawsOf_pos hdraws
  obtain ⟨d, hd, hpick⟩ := choose_mem h hT hdraw
  rw [hpick] at hchosen
  have hdc : d = c := by
    have hid : d.id = c.id := Option.some.inj hchosen
    have hfd := hfind d hd
    rw [hid, hfind c hc] at hfd
    exact (Option.some.inj hfd).symm
  refine ⟨draw, ?_⟩
  rcases hok.select_eq retry draw with hch | ⟨e, htier, hone⟩
  · rw [hch, hpick, hdc]
  · rw [htier] at hc
    rw [hone draw, mem_singleton.1 hc]

theorem table_draws_iff {tier : List AbilityRow} (hne : tier ≠ [])
    (hids : (tier.map AbilityRow.channelId).Nodup) (hT : totalWeight (tickets tier) < 2 ^ 63)
    (id : Int) : (∃ draw < totalWeight (tickets tier), drawAbility tier draw = some id) ↔
      ∃ a ∈ tier, a.channelId = id := by
  constructor
  · rintro ⟨draw, hdraw, heq⟩
    rw [drawAbility_eq hT hdraw] at heq
    have hpred : draw - 1 < totalWeight (tickets tier) := by omega
    obtain ⟨a, ha, hpick⟩ := pickAt_tickets hpred
    exact ⟨a, ha, Option.some.inj (hpick.symm.trans heq)⟩
  rintro ⟨a, ha, rfl⟩
  have hdraws := drawsOf_drawAbility hne hids hT ha
  refine exists_of_drawsOf_pos ?_
  split at hdraws <;> omega

theorem firstChannel_eq_iff {find : Int → Option Channel} {tier : List AbilityRow} (weight : Int)
    (c : Channel) : firstChannel find tier (some weight) = .ok (some c) ↔
      find ((drawLoop weight tier).getD 0) = some c := by
  unfold firstChannel
  dsimp only
  cases find ((drawLoop weight tier).getD 0) with
  | none => exact ⟨fun heq => (by cases heq), fun heq => (by cases heq)⟩
  | some d => exact ⟨fun heq => (by cases heq; rfl), fun heq => (by cases heq; rfl)⟩

theorem drawChannel_eq_iff {find : Int → Option Channel} {tier : List AbilityRow}
    (hT : totalWeight (tickets tier) < 2 ^ 63) (draw : Nat) (c : Channel) :
    drawChannel find tier draw = .ok (some c) ↔
      ∃ a ∈ tier, draw < totalWeight (tickets tier) ∧ drawAbility tier draw = some a.channelId ∧
        find a.channelId = some c := by
  unfold drawChannel
  rw [getRandomInt_eq hT]
  by_cases hdraw : draw < totalWeight (tickets tier)
  · have hpred : draw - 1 < totalWeight (tickets tier) := by omega
    obtain ⟨a, ha, hpick⟩ := pickAt_tickets hpred
    rw [← drawAbility_eq hT hdraw] at hpick
    have hloop := (drawAbility_eq_drawLoop hT hdraw).symm.trans hpick
    rw [if_pos hdraw, firstChannel_eq_iff, hloop, Option.getD_some]
    constructor
    · exact fun hfind => ⟨a, ha, hdraw, hpick, hfind⟩
    · rintro ⟨b, -, -, hb, hfind⟩
      rw [Option.some.inj (hpick.symm.trans hb), hfind]
  rw [if_neg hdraw]
  constructor
  · intro heq
    cases heq
  · rintro ⟨-, -, hlt, -⟩
    exact absurd hlt hdraw

theorem table_returns_iff {find : Int → Option Channel} {rows : List AbilityRow}
    (hids : (rows.map AbilityRow.channelId).Nodup) (hT : totalWeight (tickets
      (abilityTier (filterAbilitiesByConstraints h find false rows m filters) retry)) < 2 ^ 63)
    (c : Channel) : (∃ draw, getChannel h find false rows m retry filters draw = .ok (some c)) ↔
      ∃ a ∈ abilityTier (filterAbilitiesByConstraints h find false rows m filters) retry,
        find a.channelId = some c := by
  have hids' : ((abilityTier (filterAbilitiesByConstraints h find false rows m filters)
      retry).map AbilityRow.channelId).Nodup :=
    hids.sublist ((List.filter_sublist.trans List.filter_sublist).map _)
  unfold getChannel
  cases hkept : filterAbilitiesByConstraints h find false rows m filters with
  | nil => exact ⟨fun ⟨_, heq⟩ => (by cases heq), fun ⟨_, ha, _⟩ => (by cases ha)⟩
  | cons k kept =>
    rw [hkept] at hT hids'
    dsimp only
    cases htier : abilityTier (k :: kept) retry with
    | nil => exact ⟨fun ⟨_, heq⟩ => (by cases heq), fun ⟨_, ha, _⟩ => (by cases ha)⟩
    | cons a tier =>
      rw [htier] at hT hids'
      constructor
      · rintro ⟨draw, heq⟩
        obtain ⟨b, hb, -, -, hfind⟩ := (drawChannel_eq_iff hT draw c).1 heq
        exact ⟨b, hb, hfind⟩
      rintro ⟨b, hb, hfind⟩
      obtain ⟨draw, hdraw, hpick⟩ :=
        (table_draws_iff (cons_ne_nil a tier) hids' hT b.channelId).2 ⟨b, hb, rfl⟩
      exact ⟨draw, (drawChannel_eq_iff hT draw c).2 ⟨b, hb, hdraw, hpick, hfind⟩⟩

end Returned

/-! ## The two paths compared -/

section Compared

variable (h : Health) (settings : Int → Settings) (s : Store) (routingMatch : String → String)
  (g m : String) (filters : List ChannelFilter) (rows : List AbilityRow) (retry : Nat)

/-- The abilities of the tier that `GetChannel` draws from. -/
def tableTier : List AbilityRow :=
  abilityTier (filterAbilitiesByConstraints h (findChannel settings s) false rows m filters) retry

/-- The channels of the tier that `GetRandomSatisfiedChannel` draws from. -/
def memoryTier : List Channel := tier h (memoryCache settings s) routingMatch g m filters retry

/-- The channel can come back from `GetChannel`. -/
def TableReturns (c : Channel) : Prop :=
  ∃ draw, getChannel h (findChannel settings s) false rows m retry filters draw = .ok (some c)

/-- The channel can come back from `GetRandomSatisfiedChannel`. -/
def MemoryReturns (c : Channel) : Prop :=
  ∃ draw, getRandomSatisfiedChannel h (memoryCache settings s) routingMatch g m retry filters draw =
    .ok (some c)

def eligibleChannels (listed : String) : List Abilities.Channel :=
  s.channels.filter fun ch => decide (ch.status = 1) && decide (ch.Lists g listed) &&
    (channelSatisfiesFilters h (some (selectable settings ch)) m filters).1

variable {h settings s routingMatch g m filters rows retry}

theorem mem_eligibleChannels {listed : String} {ch : Abilities.Channel} :
    ch ∈ eligibleChannels h settings s g m filters listed ↔
      Eligible h settings s g listed m filters ch := by
  unfold eligibleChannels
  rw [mem_filter, Bool.and_eq_true, Bool.and_eq_true, decide_eq_true_iff, decide_eq_true_iff]
  exact ⟨fun ⟨hch, ⟨hen, hl⟩, hp⟩ => ⟨⟨hch, hen, hl⟩, hp⟩,
    fun ⟨⟨hch, hen, hl⟩, hp⟩ => ⟨hch, ⟨hen, hl⟩, hp⟩⟩

def InTier (settings : Int → Settings) (cs : List Abilities.Channel) (retry : Nat) (c : Channel) :
    Prop :=
  ∃ ch ∈ cs, c = selectable settings ch ∧
    ch.priority = targetPriority (cs.map (selectable settings)) retry

theorem exists_inTier {cs : List Abilities.Channel} (hcs : cs ≠ []) (retry : Nat) :
    ∃ c, InTier settings cs retry c := by
  have hne : cs.map (selectable settings) ≠ [] := fun hnil => hcs (List.map_eq_nil_iff.1 hnil)
  obtain ⟨c, hc, hprio⟩ := targetPriority_mem hne retry
  obtain ⟨ch, hch, rfl⟩ := mem_map.1 hc
  exact ⟨_, ch, hch, rfl, hprio⟩

theorem table_inTier_iff (hs : Mirrors s) (hq : IsQuery s g m rows)
    (hT : totalWeight (tickets (tableTier h settings s m filters rows retry)) < 2 ^ 63) (c : Channel) :
    TableReturns h settings s m filters rows retry c ↔
      InTier settings (eligibleChannels h settings s g m filters m) retry c := by
  have hkept : ∀ r, r ∈ filterAbilitiesByConstraints h (findChannel settings s) false rows m filters ↔
      ∃ ch ∈ eligibleChannels h settings s g m filters m, r = rowOf ch := by
    intro r
    rw [mem_filterAbilities hs hq]
    simp only [mem_eligibleChannels]
  have hmem : ∀ r, r ∈ tableTier h settings s m filters rows retry ↔ _ :=
    fun r => mem_abilityTier settings hkept retry
  refine (table_returns_iff hq.unique hT c).trans ?_
  constructor
  · rintro ⟨a, ha, hfind⟩
    obtain ⟨ch, hch, rfl, hprio⟩ := (hmem a).1 ha
    have hrow : findChannel settings s ch.id = _ := find_of_mem (mem_eligibleChannels.1 hch).1.1
    exact ⟨ch, hch, Option.some.inj (hfind.symm.trans hrow), hprio⟩
  · rintro ⟨ch, hch, rfl, hprio⟩
    exact ⟨rowOf ch, (hmem _).2 ⟨ch, hch, rfl, hprio⟩, find_of_mem (mem_eligibleChannels.1 hch).1.1⟩

theorem memory_inTier_iff {w : Nat} (hw : ∀ ch ∈ s.channels, ch.weight = w)
    (hLB : h.weightedLBEnabled = false)
    (hT : totalWeight (weighted (memoryTier h settings s routingMatch g m filters retry)) < 2 ^ 63)
    (hsome : ∃ ch, Eligible h settings s g (listedModel h settings s routingMatch g m filters) m
      filters ch) (hlisted : listedModel h settings s routingMatch g m filters = m ∨
      listedModel h settings s routingMatch g m filters = routingMatch m) (c : Channel) :
    MemoryReturns h settings s routingMatch g m filters retry c ↔
      InTier settings (eligibleChannels h settings s g m filters
        (listedModel h settings s routingMatch g m filters)) retry c := by
  have hok : CandidatesFound h (memoryCache settings s) routingMatch g m filters := by
    constructor
    · obtain ⟨ch, ⟨hch, hen, hlists⟩, hpass⟩ := hsome
      refine ⟨ch.id, selectable settings ch, ?_, find_of_mem hch, hpass⟩
      rcases hlisted with hl | hl
      · exact .inl (mem_index.2 ⟨ch, hch, rfl, hen, hl ▸ hlists⟩)
      · exact .inr (mem_index.2 ⟨ch, hch, rfl, hen, hl ▸ hlists⟩)
    intro id hid
    rw [candidates_eq] at hid
    obtain ⟨ch, hch, rfl⟩ := mem_filterCandidateIDs.1 hid
    exact ⟨_, find_of_mem hch.1.1⟩
  have hfound : ∀ c, c ∈ foundCandidates h (memoryCache settings s) routingMatch g m filters ↔
      ∃ ch ∈ eligibleChannels h settings s g m filters
        (listedModel h settings s routingMatch g m filters), c = selectable settings ch := by
    intro c
    rw [mem_foundCandidates]
    simp only [mem_eligibleChannels]
  have htarget : targetPriority (foundCandidates h (memoryCache settings s) routingMatch g m filters)
      retry = targetPriority ((eligibleChannels h settings s g m filters
        (listedModel h settings s routingMatch g m filters)).map (selectable settings)) retry := by
    refine targetPriority_congr (fun p => ?_) retry
    rw [mem_map, map_map, mem_map]
    constructor
    · rintro ⟨d, hd, rfl⟩
      obtain ⟨ch, hch, rfl⟩ := (hfound d).1 hd
      exact ⟨ch, hch, rfl⟩
    · rintro ⟨ch, hch, rfl⟩
      exact ⟨selectable settings ch, (hfound _).2 ⟨ch, hch, rfl⟩, rfl⟩
  have hequal : ∀ c ∈ memoryTier h settings s routingMatch g m filters retry,
      c.weight.getD 0 = w := by
    intro c hc
    obtain ⟨ch, hch, rfl⟩ := (hfound c).1 (mem_filter.1 hc).1
    exact hw ch (mem_eligibleChannels.1 hch).1.1
  refine (memory_returns_iff hok hLB hT (fun c hc => effectiveWeight_pos hequal hc) c).trans ?_
  show c ∈ List.filter _ _ ↔ _
  rw [mem_filter, hfound, decide_eq_true_iff, htarget]
  constructor
  · rintro ⟨⟨ch, hch, rfl⟩, hprio⟩
    exact ⟨ch, hch, rfl, hprio⟩
  · rintro ⟨ch, hch, rfl, hprio⟩
    exact ⟨⟨ch, hch, rfl⟩, hprio⟩

theorem not_memoryReturns (hnone : ¬∃ ch, Eligible h settings s g
    (listedModel h settings s routingMatch g m filters) m filters ch) (c : Channel) :
    ¬MemoryReturns h settings s routingMatch g m filters retry c := by
  rintro ⟨draw, heq⟩
  have hcand : candidates h (memoryCache settings s) routingMatch g m filters = [] := by
    rw [candidates_eq]
    refine List.eq_nil_iff_forall_not_mem.2 fun id hid => hnone ?_
    obtain ⟨ch, hch, -⟩ := mem_filterCandidateIDs.1 hid
    exact ⟨ch, hch⟩
  unfold getRandomSatisfiedChannel at heq
  rw [hcand] at heq
  dsimp only at heq
  split at heq <;> cases heq

/-- **Both paths can return the same channels if and only if the table path does not
    miss the fallback to the normalised model.** -/
theorem same_channels_iff (hs : Mirrors s) (hq : IsQuery s g m rows) {w : Nat}
    (hw : ∀ ch ∈ s.channels, ch.weight = w) (hLB : h.weightedLBEnabled = false)
    (hT : totalWeight (tickets (tableTier h settings s m filters rows retry)) < 2 ^ 63)
    (hM : totalWeight (weighted (memoryTier h settings s routingMatch g m filters retry)) < 2 ^ 63) :
    (∀ c, TableReturns h settings s m filters rows retry c ↔
        MemoryReturns h settings s routingMatch g m filters retry c) ↔
      (∃ ch, Eligible h settings s g m m filters ch) ∨
        ¬∃ ch, Eligible h settings s g (routingMatch m) m filters ch := by
  have htable := fun c => table_inTier_iff hs hq hT c
  by_cases hexact : ∃ ch, Eligible h settings s g m m filters ch
  · obtain ⟨ch, hch⟩ := hexact
    have hl : listedModel h settings s routingMatch g m filters = m := listedModel_of_eligible hch
    have hmemory := fun c => memory_inTier_iff hw hLB hM ⟨ch, hl.symm ▸ hch⟩ (.inl hl) c
    rw [hl] at hmemory
    exact ⟨fun _ => .inl ⟨ch, hch⟩, fun _ c => (htable c).trans (hmemory c).symm⟩
  have hl : listedModel h settings s routingMatch g m filters = routingMatch m :=
    listedModel_of_none hexact
  have hno : ∀ c, ¬TableReturns h settings s m filters rows retry c := by
    intro c hc
    obtain ⟨ch, hch, -⟩ := (htable c).1 hc
    exact hexact ⟨ch, mem_eligibleChannels.1 hch⟩
  by_cases hnormal : ∃ ch, Eligible h settings s g (routingMatch m) m filters ch
  · obtain ⟨ch, hch⟩ := hnormal
    have hmemory := fun c => memory_inTier_iff hw hLB hM ⟨ch, hl.symm ▸ hch⟩ (.inr hl) c
    rw [hl] at hmemory
    obtain ⟨c, hc⟩ : ∃ c, InTier settings (eligibleChannels h settings s g m filters
        (routingMatch m)) retry c :=
      exists_inTier (List.ne_nil_of_mem (mem_eligibleChannels.2 hch)) retry
    constructor
    · exact fun hsame => absurd ((hsame c).2 ((hmemory c).2 hc)) (hno c)
    rintro (he | hn)
    · exact absurd he hexact
    · exact absurd ⟨ch, hch⟩ hn
  have hmemory : ∀ c, ¬MemoryReturns h settings s routingMatch g m filters retry c :=
    fun c => not_memoryReturns (hl.symm ▸ hnormal) c
  exact ⟨fun _ => .inr hnormal,
    fun _ c => ⟨fun hc => absurd hc (hno c), fun hc => absurd hc (hmemory c)⟩⟩

/-- **When the table path is exact.**  Its draws are if the tier has one ability, and
    it can return what the memory path can if that one need not fall back to the
    normalised model. -/
theorem table_selection_iff (h : Health) (settings : Int → Settings) (s : Store)
    (routingMatch : String → String) (g m : String) (filters : List ChannelFilter)
    (rows : List AbilityRow) (retry w : Nat) (hs : Mirrors s) (hq : IsQuery s g m rows)
    (hw : ∀ ch ∈ s.channels, ch.weight = w) (hLB : h.weightedLBEnabled = false)
    (hT : totalWeight (tickets (tableTier h settings s m filters rows retry)) < 2 ^ 63)
    (hM : totalWeight (weighted (memoryTier h settings s routingMatch g m filters retry)) < 2 ^ 63) :
    (∀ tier : List AbilityRow, tier ≠ [] → (tier.map AbilityRow.channelId).Nodup →
      (DrawsExact tier ↔ tier.length = 1 ∧ totalWeight (tickets tier) < 2 ^ 63)) ∧
    ((∀ c, TableReturns h settings s m filters rows retry c ↔
        MemoryReturns h settings s routingMatch g m filters retry c) ↔
      (∃ ch, Eligible h settings s g m m filters ch) ∨
        ¬∃ ch, Eligible h settings s g (routingMatch m) m filters ch) :=
  ⟨fun _ hne hids => drawsExact_iff hne hids, same_channels_iff hs hq hw hLB hT hM⟩

def gizmoChannel : Abilities.Channel :=
  Abilities.Fields.created { models := "gpt-4-gizmo-*" } 1

def gizmoStore : Store where
  channels := [gizmoChannel]
  abilities id := if id = 1 then gizmoChannel.rows else fun _ _ => none
  unique := List.nodup_singleton _
  nonzero ch hch := by
    rw [mem_singleton.1 hch]
    decide

theorem gizmoStore_mirrors : Mirrors gizmoStore where
  rows ch hch := by
    rw [mem_singleton.1 hch]
    rfl
  orphans id hid := by
    refine if_neg fun hone => hid ⟨gizmoChannel, mem_singleton_self _, ?_⟩
    exact hone.symm

theorem gizmoStore_row :
    gizmoStore.abilities 1 "default" "gpt-4-gizmo-*" = some gizmoChannel.ability := by
  decide +kernel

theorem gizmoStore_query :
    IsQuery gizmoStore "default" "gpt-4-gizmo-*" [{ channelId := 1, priority := some 0 }] where
  mem r := by
    rw [mem_singleton]
    constructor
    · rintro rfl
      exact ⟨gizmoChannel.ability, gizmoStore_row, rfl, rfl, rfl⟩
    rintro ⟨a, ha, -, hprio, hweight⟩
    by_cases hone : r.channelId = 1
    · rw [hone] at ha
      obtain rfl := Option.some.inj (gizmoStore_row.symm.trans ha)
      obtain ⟨rid, rprio, rweight⟩ := r
      cases hone
      cases hprio
      cases hweight
      rfl
    have hrow : gizmoStore.abilities r.channelId = fun _ _ => none := if_neg hone
    rw [hrow] at ha
    cases ha
  unique := List.nodup_singleton _

theorem gizmo_selected_alike : DrawsExact [{ channelId := 1, priority := some 0 }] ∧
      ∀ c, TableReturns {} (fun _ => {}) gizmoStore "gpt-4-gizmo-*" []
          [{ channelId := 1, priority := some 0 }] 0 c ↔
        MemoryReturns {} (fun _ => {}) gizmoStore (fun m => m) "default" "gpt-4-gizmo-*" [] 0 c := by
  have hall := table_selection_iff {} (fun _ => {}) gizmoStore (fun m => m) "default" "gpt-4-gizmo-*" []
    [{ channelId := 1, priority := some 0 }] 0 0 gizmoStore_mirrors gizmoStore_query
    (fun ch hch => by rw [mem_singleton.1 hch]; rfl) rfl (by decide +kernel) (by decide +kernel)
  refine ⟨(hall.1 [_] (cons_ne_nil _ _) (List.nodup_singleton _)).2 ⟨rfl, by decide⟩, ?_⟩
  refine hall.2.2 (.inl ⟨gizmoChannel, ⟨mem_singleton_self _, rfl, by decide +kernel⟩, ?_⟩)
  rfl

/-- `FormatMatchingModelName`, where it does not meet a Gemini model. -/
def formatMatchingGizmo (name : String) : String :=
  let name := if "gpt-4-gizmo".toList.isPrefixOf name.toList then "gpt-4-gizmo-*" else name
  if "gpt-4o-gizmo".toList.isPrefixOf name.toList then "gpt-4o-gizmo-*" else name

/-- Of two abilities of weight zero the first has a draw too many and the second one
    too few; and a request for one of the GPTs finds the channel in the memory cache
    and no ability in the table. -/
theorem table_selection_differs :
    drawsOf 20 (drawAbility [{ channelId := 1 }, { channelId := 2 }]) 1 = 11 ∧
    drawsOf 20 (drawAbility [{ channelId := 1 }, { channelId := 2 }]) 2 = 9 ∧
    gizmoStore.abilities 1 "default" "gpt-4-gizmo-x" = none ∧
    getChannel {} (findChannel (fun _ => {}) gizmoStore) false [] "gpt-4-gizmo-x" 0 [] 0 = .ok none ∧
    chosenId (getRandomSatisfiedChannel {} (memoryCache (fun _ => {}) gizmoStore) formatMatchingGizmo
      "default" "gpt-4-gizmo-x" 0 [] 0) = some 1 := by
  refine ⟨by decide +kernel, by decide +kernel, by decide +kernel, rfl, by decide +kernel⟩

end Compared

end NewApi.ChannelSelection
