/-
  NewApi.Channel.Abilities

  The ability table of `model/ability.go` and the writers that keep it beside
  the channels: `Insert`, `Update` and `Delete` of one channel, the status
  flow, the three writers that go by tag, and `FixAbility`.

  A channel's abilities are one row for a group and a model it lists.  The
  writers do not read the lists alike:

    * `AddAbilities`, run by `Insert` and `FixAbility`, splits `Models` at the
      commas and takes every piece;
    * `UpdateAbilities`, run by `Update` and by an edit of a tag's lists, goes
      through `GetModels`, which drops the commas at both ends first;
    * the status flow and the other edits by tag change the rows in place.

  The statements all succeed; what the database does with a zero value follows
  `gorm`: `Create` fills a column that has a default, `Updates` on a struct
  skips it.
-/

import NewApi.Channel.Index
import NewApi.Channel.Status
import NewApi.Lib.Loops

namespace NewApi.Abilities

open NewApi.Lib
open NewApi.ChannelCache (splitComma trimComma)
open NewApi.ChannelStatus (channelStatusEnabled handlerMultiKeyUpdate)

/-! ## Rows -/

def channelStatusManuallyDisabled : Int := 2

/-- A row of `channels`: the columns the abilities are made from, and those the
    status flow works on. -/
structure Channel extends ChannelStatus.Channel where
  id : Int
  models : String
  group : String
  priority : Int
  weight : Nat
  tag : Option String

/-- The columns of `abilities` beside the primary key. -/
@[ext]
structure Ability where
  enabled : Bool
  priority : Int
  weight : Nat
  tag : Option String
deriving DecidableEq

abbrev Rows := String → String → Option Ability

abbrev Table := Int → Rows

def getModels (models : String) : List String :=
  if models = "" then [] else splitComma (trimComma models)

/-- The key, the multi-key flag and the per-key statuses of a channel struct. -/
structure KeyState where
  keys : List String
  isMultiKey : Bool
  statusList : Nat → Option Int

/-- A `Channel` struct in memory: a field may hold its zero value or be nil.
    `keyState` is what a statement leaves in `key` and `channel_info`, if anything. -/
structure Fields where
  status : Int := 0
  models : String := ""
  group : String := ""
  priority : Option Int := none
  weight : Option Nat := none
  tag : Option String := none
  keyState : Option KeyState := none

/-- The row `DB.Create` makes of a struct. -/
def Fields.created (f : Fields) (id : Int) : Channel where
  id := id
  status := if f.status = 0 then channelStatusEnabled else f.status
  models := f.models
  group := if f.group = "" then "default" else f.group
  priority := f.priority.getD 0
  weight := f.weight.getD 0
  tag := f.tag
  keys := (f.keyState.map KeyState.keys).getD []
  isMultiKey := (f.keyState.map KeyState.isMultiKey).getD false
  statusList := (f.keyState.map KeyState.statusList).getD fun _ => none

/-- The row after `Updates` with a struct. -/
def Channel.updates (ch : Channel) (f : Fields) : Channel where
  id := ch.id
  status := if f.status = 0 then ch.status else f.status
  models := if f.models = "" then ch.models else f.models
  group := if f.group = "" then ch.group else f.group
  priority := f.priority.getD ch.priority
  weight := f.weight.getD ch.weight
  tag := f.tag.or ch.tag
  keys := (f.keyState.map KeyState.keys).getD ch.keys
  isMultiKey := (f.keyState.map KeyState.isMultiKey).getD ch.isMultiKey
  statusList := (f.keyState.map KeyState.statusList).getD ch.statusList

/-- The columns that `AddAbilities` and `UpdateAbilities` copy from a channel. -/
def Channel.ability (ch : Channel) : Ability where
  enabled := ch.status == channelStatusEnabled
  priority := ch.priority
  weight := ch.weight
  tag := ch.tag

def Fields.ability (f : Fields) : Ability where
  enabled := f.status == channelStatusEnabled
  priority := f.priority.getD 0
  weight := f.weight.getD 0
  tag := f.tag

/-! ## Statements on the ability table -/

namespace Table

/-- `DELETE FROM abilities WHERE channel_id = ?` -/
def deleteChannel (t : Table) (id : Int) : Table :=
  fun id' => if id' = id then fun _ _ => none else t id'

/-- `INSERT ... ON CONFLICT DO NOTHING` of one row. -/
def createOne (id : Int) (a : Ability) (t : Table) (gm : String × String) : Table :=
  if t id gm.1 gm.2 = none then
    fun id' g m => if id' = id ∧ g = gm.1 ∧ m = gm.2 then some a else t id' g m
  else t

/-- `Create` with the rows in batches of 50. -/
def create (t : Table) (id : Int) (a : Ability) (gms : List (String × String)) : Table :=
  (batches 49 gms).foldl (fun t chunk => chunk.foldl (createOne id a) t) t

/-- `UPDATE abilities SET ... WHERE channel_id = ?` -/
def updateChannel (t : Table) (id : Int) (f : Ability → Ability) : Table :=
  fun id' g m => (t id' g m).map fun a => if id' = id then f a else a

/-- `UPDATE abilities SET ... WHERE tag = ?` -/
def updateTag (t : Table) (tag : String) (f : Ability → Ability) : Table :=
  fun id g m => (t id g m).map fun a => if a.tag = some tag then f a else a

end Table

/-! ## The abilities of one channel -/

/-- The key of `abilitySet`. -/
def abilityKey (gm : String × String) : String := gm.1 ++ "|" ++ gm.2

/-- The two loops that collect the rows, in `AddAbilities` and in
    `UpdateAbilities`: every model, every group, unless the key was seen. -/
def collectAbilities (models groups : List String) : List (String × String) :=
  (models.foldl (fun st model =>
    groups.foldl (fun st group => keepNew abilityKey st (group, model)) st) ([], [])).2

variable (t : Table)

def addAbilities (ch : Channel) : Table :=
  t.create ch.id ch.ability (collectAbilities (splitComma ch.models) (splitComma ch.group))

/-- `UpdateAbilities` on what a struct holds. -/
def replaceAbilities (id : Int) (a : Ability) (models group : String) : Table :=
  (t.deleteChannel id).create id a (collectAbilities (getModels models) (splitComma group))

def updateAbilities (ch : Channel) : Table :=
  replaceAbilities t ch.id ch.ability ch.models ch.group

def updateAbilityStatus (id : Int) (enabled : Bool) : Table :=
  t.updateChannel id fun a => { a with enabled := enabled }

def updateAbilityStatusByTag (tag : String) (enabled : Bool) : Table :=
  t.updateTag tag fun a => { a with enabled := enabled }

/-- `Weight` is a plain field of the struct that `Updates` gets: a zero is skipped. -/
def updateAbilityByTag (tag : String) (newTag : Option String) (priority : Option Int)
    (weight : Option Nat) : Table :=
  t.updateTag tag fun a =>
    { a with
      tag := newTag.or a.tag
      priority := priority.getD a.priority
      weight := if weight.getD 0 = 0 then a.weight else weight.getD 0 }

/-! ## The store -/

/-- The two tables; the ids of the channels are assigned by the database. -/
structure Store where
  channels : List Channel
  abilities : Table
  unique : (channels.map Channel.id).Nodup
  nonzero : ∀ ch ∈ channels, ch.id ≠ 0

namespace Store

def empty : Store := ⟨[], fun _ _ _ => none, List.nodup_nil, by simp⟩

def Has (s : Store) (id : Int) : Prop := ∃ ch ∈ s.channels, ch.id = id

instance (s : Store) (id : Int) : Decidable (s.Has id) :=
  inferInstanceAs (Decidable (∃ ch ∈ s.channels, ch.id = id))

/-- The channels changed in place by `f`, the abilities replaced. -/
def mapChannels (s : Store) (f : Channel → Channel) (hf : ∀ ch, (f ch).id = ch.id) (t : Table) :
    Store where
  channels := s.channels.map f
  abilities := t
  unique := by
    have hids : (s.channels.map f).map Channel.id = s.channels.map Channel.id := by
      rw [List.map_map]
      exact List.map_congr_left fun ch _ => hf ch
    rw [hids]
    exact s.unique
  nonzero := by
    intro ch' hch'
    obtain ⟨ch, hch, rfl⟩ := List.mem_map.1 hch'
    rw [hf]
    exact s.nonzero ch hch

end Store

def onId (id : Int) (f : Channel → Channel) (ch : Channel) : Channel := if ch.id = id then f ch else ch

def onTag (tag : String) (f : Channel → Channel) (ch : Channel) : Channel :=
  if ch.tag = some tag then f ch else ch

theorem onId_id {id : Int} {f : Channel → Channel} (hf : ∀ ch, (f ch).id = ch.id) (ch : Channel) :
    (onId id f ch).id = ch.id := by
  unfold onId
  split
  · exact hf ch
  · rfl

theorem onTag_id {tag : String} {f : Channel → Channel} (hf : ∀ ch, (f ch).id = ch.id)
    (ch : Channel) : (onTag tag f ch).id = ch.id := by
  unfold onTag
  split
  · exact hf ch
  · rfl

/-! ## The operations -/

variable (s : Store)

/-- `Insert`: a second row with an id is refused by the database, and the code
    returns with the error. -/
def insert (id : Int) (f : Fields) : Store :=
  if h : s.Has id ∨ id = 0 then s
  else
    { channels := s.channels ++ [f.created id]
      abilities := addAbilities s.abilities (f.created id)
      unique := by
        rw [List.map_append, List.nodup_append]
        refine ⟨s.unique, by simp, ?_⟩
        intro a ha b hb hab
        obtain ⟨ch, hch, rfl⟩ := List.mem_map.1 ha
        have hb : b = id := List.mem_singleton.1 hb
        exact h (Or.inl ⟨ch, hch, hab.trans hb⟩)
      nonzero := by
        intro ch hch
        rcases List.mem_append.1 hch with hch | hch
        · exact s.nonzero ch hch
        · rw [List.mem_singleton.1 hch]
          exact fun hid => h (Or.inr hid) }

/-- `Update`: the row read back is what the abilities are made from.  Where there
    is no row to read, the error is dropped and the struct stays as it came.  A
    struct without an id is refused: its statement has no condition. -/
def update (id : Int) (f : Fields) : Store :=
  if id = 0 then s
  else
    s.mapChannels (onId id (·.updates f)) (onId_id fun _ => rfl)
      (match s.channels.find? fun ch => ch.id = id with
      | some ch => updateAbilities s.abilities (ch.updates f)
      | none => replaceAbilities s.abilities id f.ability f.models f.group)

def delete (id : Int) : Store :=
  if id = 0 then s
  else
    { channels := s.channels.filter fun ch => ch.id ≠ id
      abilities := s.abilities.deleteChannel id
      unique := s.unique.sublist (List.filter_sublist.map _)
      nonzero := fun ch hch => s.nonzero ch (List.mem_filter.1 hch).1 }

/-- The row of `UpdateChannelStatus` with the new status. -/
def Channel.setStatus (ch : Channel) (usingKey : String) (status : Int) : Channel :=
  if ch.isMultiKey then
    { ch with toChannel := handlerMultiKeyUpdate ch.toChannel usingKey status }
  else { ch with status := status }

@[simp] theorem Channel.setStatus_id (ch : Channel) (usingKey : String) (status : Int) :
    (ch.setStatus usingKey status).id = ch.id := by
  unfold Channel.setStatus
  split <;> rfl

/-- `UpdateChannelStatus`.  `cached` is the answer of the memory cache: whether
    it lets the call go on to the database. -/
def updateChannelStatus (id : Int) (usingKey : String) (status : Int) (cached : Bool) : Store :=
  if cached then
    match s.channels.find? fun ch => ch.id = id with
    | none => s
    | some ch =>
      if ch.status = status then s
      else
        let shouldUpdateAbilities :=
          if ch.isMultiKey then ch.status != (ch.setStatus usingKey status).status else true
        s.mapChannels (onId id (·.setStatus usingKey status)) (onId_id fun ch => by simp)
          (if shouldUpdateAbilities then
            updateAbilityStatus s.abilities id (status == channelStatusEnabled)
          else s.abilities)
  else s

def enableChannelByTag (tag : String) : Store :=
  s.mapChannels (onTag tag fun ch => { ch with status := channelStatusEnabled })
    (onTag_id fun _ => rfl) (updateAbilityStatusByTag s.abilities tag true)

def disableChannelByTag (tag : String) : Store :=
  s.mapChannels (onTag tag fun ch => { ch with status := channelStatusManuallyDisabled })
    (onTag_id fun _ => rfl) (updateAbilityStatusByTag s.abilities tag false)

/-- The arguments of `EditChannelByTag` that reach a column the abilities have. -/
structure TagEdit where
  newTag : Option String := none
  models : Option String := none
  group : Option String := none
  priority : Option Int := none
  weight : Option Nat := none

namespace TagEdit

def tagChange (e : TagEdit) (tag : String) : Option String :=
  if e.newTag = some tag then none else e.newTag

def updatedTag (e : TagEdit) (tag : String) : String := (e.tagChange tag).getD tag

def updateData (e : TagEdit) (tag : String) : Fields where
  tag := e.tagChange tag
  models := e.models.getD ""
  group := e.group.getD ""
  priority := e.priority
  weight := e.weight

def shouldReCreateAbilities (e : TagEdit) : Bool := e.models.getD "" != "" || e.group.getD "" != ""

end TagEdit

def editChannelByTag (tag : String) (e : TagEdit) : Store :=
  let channels := s.channels.map (onTag tag (·.updates (e.updateData tag)))
  s.mapChannels (onTag tag (·.updates (e.updateData tag))) (onTag_id fun _ => rfl)
    (if e.shouldReCreateAbilities then
      (channels.filter fun ch => ch.tag = some (e.updatedTag tag)).foldl updateAbilities s.abilities
    else updateAbilityByTag s.abilities tag e.newTag e.priority e.weight)

/-- `FixAbility`: the table is emptied and built again, fifty channels at a time. -/
def fixAbility : Store :=
  { s with
    abilities := (batches 49 s.channels).foldl
      (fun t chunk =>
        chunk.foldl addAbilities
          fun id => if id ∈ chunk.map Channel.id then fun _ _ => none else t id)
      fun _ _ _ => none }

inductive Op where
  | insert (id : Int) (f : Fields)
  | update (id : Int) (f : Fields)
  | delete (id : Int)
  | updateChannelStatus (id : Int) (usingKey : String) (status : Int) (cached : Bool)
  | enableChannelByTag (tag : String)
  | disableChannelByTag (tag : String)
  | editChannelByTag (tag : String) (e : TagEdit)
  | fixAbility

def step : Op → Store
  | .insert id f => insert s id f
  | .update id f => update s id f
  | .delete id => delete s id
  | .updateChannelStatus id usingKey status cached => updateChannelStatus s id usingKey status cached
  | .enableChannelByTag tag => enableChannelByTag s tag
  | .disableChannelByTag tag => disableChannelByTag s tag
  | .editChannelByTag tag e => editChannelByTag s tag e
  | .fixAbility => fixAbility s

/-! ## The mirror -/

def Channel.Lists (ch : Channel) (g m : String) : Prop :=
  g ∈ splitComma ch.group ∧ m ∈ getModels ch.models

instance (ch : Channel) (g m : String) : Decidable (ch.Lists g m) :=
  inferInstanceAs (Decidable (_ ∧ _))

def Channel.rows (ch : Channel) : Rows := fun g m => if ch.Lists g m then some ch.ability else none

/-- The ability table mirrors the channels: each has its rows, and no others are there. -/
structure Mirrors (s : Store) : Prop where
  rows : ∀ ch ∈ s.channels, s.abilities ch.id = ch.rows
  orphans : ∀ id, ¬s.Has id → s.abilities id = fun _ _ => none

end NewApi.Abilities
