/-
  NewApi.Channel.Status

  `UpdateChannelStatus` with the memory cache on: the status change is applied
  once to the cached channel and once to the row read back from the database,
  and the channel's abilities follow.

  A call decides by the channel and the key it names what it is about: the whole
  channel, one of its keys, or nothing (`Channel.aim`).  With that, what the
  cached object and the row become is one function of the channel
  (`Channel.applied`), and the store agrees after a call exactly when the call
  changes nothing, or the row's copy of the change is really written.
-/

import NewApi.Lib.Run

namespace NewApi.ChannelStatus

open Function (update_eq_self)
open NewApi.Lib

/-! ## Channels and the store -/

def channelStatusEnabled : Int := 1

def channelStatusAutoDisabled : Int := 3

/-- What the status flow reads and writes of a channel.  `keys` is the answer of
    `GetKeys`, which no call changes; `statusList` is the `MultiKeyStatusList`
    of the channel info, where a nil map and an empty one read the same. -/
structure Channel where
  keys : List String
  status : Int
  isMultiKey : Bool
  statusList : Nat → Option Int

/-- The cached channels, the rows, and of each channel the `enabled` column of
    its ability rows. -/
structure Store where
  cache : Int → Option Channel
  db : Int → Option Channel
  abilities : Int → List Bool

/-- A call, with the statements of it that fail. -/
structure Call where
  id : Int
  usingKey : String
  status : Int
  readFails : Bool := false
  saveFails : Bool := false
  abilitiesFail : Bool := false

/-! ## The update of one channel -/

def hasEnabledMultiKey (keys : List String) (statusList : Nat → Option Int) : Bool :=
  (List.range keys.length).any fun i =>
    statusList i == none || statusList i == some channelStatusEnabled

variable (ch : Channel)

def handlerMultiKeyUpdate (usingKey : String) (status : Int) : Channel :=
  if ch.keys.length = 0 then { ch with status := status }
  else
    match ch.keys.findIdx? (· == usingKey) with
    | none => if usingKey ≠ "" then ch else { ch with status := status }
    | some keyIndex =>
      let statusList :=
        if status = channelStatusEnabled then Function.update ch.statusList keyIndex none
        else Function.update ch.statusList keyIndex (some status)
      let ch := { ch with statusList := statusList }
      if hasEnabledMultiKey ch.keys ch.statusList = false then
        { ch with status := channelStatusAutoDisabled }
      else if status = channelStatusEnabled then { ch with status := channelStatusEnabled }
      else ch

/-! ## The statements -/

variable (s : Store)

/-- The cache hands out the stored object: what is done to it is done in the cache. -/
def Store.setCache (id : Int) (ch : Channel) : Store :=
  { s with cache := Function.update s.cache id (some ch) }

def cacheUpdateChannelStatus (id status : Int) : Store :=
  match s.cache id with
  | some ch => s.setCache id { ch with status := status }
  | none => s

variable (c : Call)

def getChannelById : Option Channel :=
  if c.readFails then none else s.db c.id

/-- The status and, of a multi-key channel, the channel info go to the row with
    the channel's id. -/
def saveStatusState (ch : Channel) : Store × Bool :=
  if c.id = 0 || c.saveFails then (s, false)
  else
    let write (row : Channel) : Channel :=
      { row with
        status := ch.status
        statusList := if ch.isMultiKey then ch.statusList else row.statusList }
    ({ s with db := Function.update s.db c.id ((s.db c.id).map write) }, true)

def updateAbilityStatus (enabled : Bool) : Store :=
  if c.abilitiesFail then s
  else { s with
    abilities := Function.update s.abilities c.id ((s.abilities c.id).map fun _ => enabled) }

/-! ## `UpdateChannelStatus` -/

/-- From the read of the row on.  The abilities follow in a deferred function,
    after the save and whether or not it worked. -/
def updateRow : Store × Bool :=
  match getChannelById s c with
  | none => (s, false)
  | some row =>
    if row.status = c.status then (s, false)
    else
      let row' :=
        if row.isMultiKey then handlerMultiKeyUpdate row c.usingKey c.status
        else { row with status := c.status }
      let shouldUpdateAbilities := if row.isMultiKey then row.status != row'.status else true
      let (s', ok) := saveStatusState s c row'
      (if shouldUpdateAbilities then
        updateAbilityStatus s' c (c.status == channelStatusEnabled)
      else s', ok)

def updateChannelStatus : Store × Bool :=
  match s.cache c.id with
  | none => (s, false)
  | some channelCache =>
    if channelCache.isMultiKey then
      let channelCache' := handlerMultiKeyUpdate channelCache c.usingKey c.status
      let s' := s.setCache c.id channelCache'
      updateRow
        (if channelCache.status ≠ channelCache'.status then
          cacheUpdateChannelStatus s' c.id channelCache'.status
        else s') c
    else if channelCache.status = c.status then (s, false)
    else updateRow (cacheUpdateChannelStatus s c.id c.status) c

def step : Store := (updateChannelStatus s c).1

/-! ## Agreement -/

/-- A cached channel, its row and its abilities. -/
structure Entry.Agrees (cached row : Option Channel) (abilities : List Bool) : Prop where
  cache : cached = row
  abilities : ∀ ch ∈ row, ∀ enabled ∈ abilities,
    (enabled = true ↔ ch.status = channelStatusEnabled)
  enabled : ∀ ch ∈ row, ch.isMultiKey = true → ch.status = channelStatusEnabled →
    hasEnabledMultiKey ch.keys ch.statusList = true

def Agrees (s : Store) : Prop :=
  ∀ id, Entry.Agrees (s.cache id) (s.db id) (s.abilities id)

/-! ## What a call is about -/

inductive Aim where
  | channel
  | key (i : Nat)
  | nothing
  deriving DecidableEq

/-- A key that the channel does not have aims at nothing, the empty one at the
    whole channel unless it is one of the keys. -/
def Channel.aim (usingKey : String) : Aim :=
  if ch.isMultiKey = false ∨ ch.keys.length = 0 then .channel
  else
    match ch.keys.findIdx? (· == usingKey) with
    | some i => .key i
    | none => if usingKey = "" then .channel else .nothing

/-- The status of key `i` set to `status`; an enabled key has no entry. -/
def Channel.setKey (i : Nat) (status : Int) : Nat → Option Int :=
  Function.update ch.statusList i (if status = channelStatusEnabled then none else some status)

variable (status : Int)

def Channel.applied : Aim → Channel
  | .channel => { ch with status := status }
  | .nothing => ch
  | .key i =>
    { ch with
      statusList := ch.setKey i status
      status :=
        if hasEnabledMultiKey ch.keys (ch.setKey i status) = false then channelStatusAutoDisabled
        else if status = channelStatusEnabled then channelStatusEnabled
        else ch.status }

/-- The channel is already as the call wants it. -/
def Channel.Idle : Aim → Prop
  | .channel => ch.status = status
  | .nothing => True
  | .key i =>
    if status = channelStatusEnabled then
      ch.statusList i = none ∧ ch.status = channelStatusEnabled
    else ch.statusList i = some status ∧
      (hasEnabledMultiKey ch.keys ch.statusList = true ∨ ch.status = channelStatusAutoDisabled)

/-- The call turns an enabled channel into a disabled one or the other way: it
    enables it or one of its keys, or disables it or its last enabled key. -/
def Channel.Flips : Aim → Prop
  | .channel => ¬(ch.status = channelStatusEnabled ↔ status = channelStatusEnabled)
  | .nothing => False
  | .key i =>
    if status = channelStatusEnabled then ch.status ≠ channelStatusEnabled
    else ch.status = channelStatusEnabled ∧ ∀ j < ch.keys.length, j ≠ i →
      ∃ st, ch.statusList j = some st ∧ st ≠ channelStatusEnabled

/-- The change reaches the row and the abilities: no statement it needs fails,
    the row is not taken for one that already has the status, and no channel
    without an enabled key is enabled as a whole. -/
structure Carried (s : Store) (c : Call) (ch : Channel) : Prop where
  read : c.readFails = false
  save : c.saveFails = false
  id : c.id ≠ 0
  status : ch.status ≠ c.status
  abilities : c.abilitiesFail = true →
    s.abilities c.id = [] ∨ ¬ch.Flips c.status (ch.aim c.usingKey)
  enabled : ch.isMultiKey = true → ch.aim c.usingKey = .channel →
    c.status = channelStatusEnabled → hasEnabledMultiKey ch.keys ch.statusList = true

def Sound : Prop :=
  ∀ ch ∈ s.cache c.id, ch.Idle c.status (ch.aim c.usingKey) ∨ Carried s c ch

/-! ## The update by its aim -/

theorem hasEnabledMultiKey_iff {keys : List String} {list : Nat → Option Int} :
    hasEnabledMultiKey keys list = true ↔
      ∃ i < keys.length, list i = none ∨ list i = some channelStatusEnabled := by
  simp [hasEnabledMultiKey]

theorem hasEnabledMultiKey_eq_false {keys : List String} {list : Nat → Option Int} :
    hasEnabledMultiKey keys list = false ↔
      ∀ i < keys.length, ∃ st, list i = some st ∧ st ≠ channelStatusEnabled := by
  rw [← Bool.not_eq_true, hasEnabledMultiKey_iff]
  push Not
  refine forall₂_congr fun i _ => ?_
  cases list i <;> simp

@[simp] theorem applied_keys (a : Aim) : (ch.applied status a).keys = ch.keys := by
  cases a <;> rfl

@[simp] theorem applied_isMultiKey (a : Aim) :
    (ch.applied status a).isMultiKey = ch.isMultiKey := by
  cases a <;> rfl

variable {ch : Channel}

theorem aim_single (h : ch.isMultiKey = false) (usingKey : String) :
    ch.aim usingKey = .channel := by
  simp [Channel.aim, h]

variable {i : Nat}

theorem aim_key_lt {usingKey : String} (h : ch.aim usingKey = .key i) : i < ch.keys.length := by
  unfold Channel.aim at h
  split at h
  · cases h
  split at h
  · next j hj =>
    cases h
    exact (List.findIdx?_eq_some_iff_findIdx_eq.1 hj).1
  · split at h <;> cases h

theorem handlerMultiKeyUpdate_eq (h : ch.isMultiKey = true) (usingKey : String) (status : Int) :
    handlerMultiKeyUpdate ch usingKey status = ch.applied status (ch.aim usingKey) := by
  unfold handlerMultiKeyUpdate Channel.aim
  by_cases hkeys : ch.keys.length = 0
  · rw [if_pos hkeys, if_pos (Or.inr hkeys)]
    rfl
  have haim : ¬(ch.isMultiKey = false ∨ ch.keys.length = 0) := by
    rintro (hsingle | hnone)
    · exact absurd (h.symm.trans hsingle) (by decide)
    · exact hkeys hnone
  rw [if_neg hkeys, if_neg haim]
  cases ch.keys.findIdx? (· == usingKey) with
  | none => by_cases hempty : usingKey = "" <;> simp [hempty, Channel.applied]
  | some i =>
    have hset : (if status = channelStatusEnabled then Function.update ch.statusList i none
        else Function.update ch.statusList i (some status)) = ch.setKey i status := by
      unfold Channel.setKey
      split <;> rfl
    simp only [hset, Channel.applied]
    split
    · rfl
    · split <;> rfl

theorem setKey_self {status : Int} : ch.setKey i status = ch.statusList ↔
      ch.statusList i = if status = channelStatusEnabled then none else some status := by
  unfold Channel.setKey
  rw [Function.update_eq_self_iff]
  exact eq_comm

theorem hasEnabledMultiKey_setKey (hi : i < ch.keys.length) :
    hasEnabledMultiKey ch.keys (ch.setKey i channelStatusEnabled) = true := by
  refine hasEnabledMultiKey_iff.2 ⟨i, hi, Or.inl ?_⟩
  simp [Channel.setKey]

theorem hasEnabledMultiKey_setKey_eq_false {status : Int}
    (hstatus : status ≠ channelStatusEnabled) :
    hasEnabledMultiKey ch.keys (ch.setKey i status) = false ↔
      ∀ j < ch.keys.length, j ≠ i →
        ∃ st, ch.statusList j = some st ∧ st ≠ channelStatusEnabled := by
  rw [hasEnabledMultiKey_eq_false]
  refine forall₂_congr fun j _ => ?_
  by_cases hj : j = i
  · simp [Channel.setKey, hj, hstatus]
  · simp [Channel.setKey, hj]

theorem applied_eq_self_iff (ch : Channel) (status : Int) (a : Aim)
    (ha : ∀ i, a = .key i → i < ch.keys.length) : ch.applied status a = ch ↔ ch.Idle status a := by
  have hext : ∀ st list, ({ ch with status := st, statusList := list } : Channel) = ch ↔
      list = ch.statusList ∧ st = ch.status := by
    intro st list
    constructor
    · intro h
      exact ⟨congrArg Channel.statusList h, congrArg Channel.status h⟩
    · rintro ⟨rfl, rfl⟩
      rfl
  cases a with
  | channel =>
    have h := hext status ch.statusList
    simp only [true_and] at h
    exact h.trans eq_comm
  | nothing => exact iff_of_true rfl trivial
  | key i =>
    have hi := ha i rfl
    simp only [Channel.applied, Channel.Idle]
    rw [hext, setKey_self]
    by_cases hstatus : status = channelStatusEnabled
    · subst hstatus
      simp only [if_true, hasEnabledMultiKey_setKey hi]
      simp [eq_comm]
    simp only [if_neg hstatus]
    refine and_congr_right fun hlist => ?_
    have hself : ch.setKey i status = ch.statusList :=
      setKey_self.2 (by rw [if_neg hstatus]; exact hlist)
    rw [hself]
    cases hasEnabledMultiKey ch.keys ch.statusList <;> simp [eq_comm]

theorem applied_status_of_ne {status : Int} {a : Aim} (ha : ∀ i, a = .key i → i < ch.keys.length)
    (h : (ch.applied status a).status ≠ ch.status) :
    (ch.applied status a).status = channelStatusEnabled ↔ status = channelStatusEnabled := by
  cases a with
  | channel => exact Iff.rfl
  | nothing => exact absurd rfl h
  | key i =>
    have hi := ha i rfl
    simp only [Channel.applied] at h ⊢
    by_cases hstatus : status = channelStatusEnabled
    · subst hstatus
      simp [hasEnabledMultiKey_setKey hi]
    split at h
    · next hnone =>
      rw [if_pos hnone]
      exact iff_of_false (by decide) hstatus
    · exact absurd rfl h

theorem flips_iff (ch : Channel) (status : Int) (a : Aim)
    (ha : ∀ i, a = .key i → i < ch.keys.length) :
    ch.Flips status a ↔ ¬(ch.status = channelStatusEnabled ↔
      (ch.applied status a).status = channelStatusEnabled) := by
  cases a with
  | channel => exact Iff.rfl
  | nothing => exact iff_of_false id (fun h => h Iff.rfl)
  | key i =>
    have hi := ha i rfl
    simp only [Channel.Flips, Channel.applied]
    by_cases hstatus : status = channelStatusEnabled
    · subst hstatus
      simp [hasEnabledMultiKey_setKey hi]
    simp only [if_neg hstatus, ← hasEnabledMultiKey_setKey_eq_false hstatus]
    cases hasEnabledMultiKey ch.keys (ch.setKey i status)
    · simp [channelStatusAutoDisabled, channelStatusEnabled]
    · simp

theorem applied_enabled_iff (a : Aim)
    (hch : ch.status = channelStatusEnabled → hasEnabledMultiKey ch.keys ch.statusList = true) :
    ((ch.applied status a).status = channelStatusEnabled →
        hasEnabledMultiKey ch.keys (ch.applied status a).statusList = true) ↔
      (a = .channel → status = channelStatusEnabled →
        hasEnabledMultiKey ch.keys ch.statusList = true) := by
  cases a with
  | channel => simp [Channel.applied]
  | nothing => exact iff_of_true hch (fun h => by cases h)
  | key i =>
    refine iff_of_true ?_ (fun h => by cases h)
    simp only [Channel.applied]
    cases hasEnabledMultiKey ch.keys (ch.setKey i status)
    · rw [if_pos rfl]
      exact fun h => absurd h (by decide)
    · exact fun _ => rfl

/-! ## What one call does to the store -/

def Call.saves (ch : Channel) : Bool := !c.readFails && ch.status != c.status

def Call.row (ch : Channel) : Channel :=
  if c.saves ch ∧ c.id ≠ 0 ∧ c.saveFails = false then ch.applied c.status (ch.aim c.usingKey)
  else ch

/-- The abilities after the call. -/
def Call.abilitiesAfter (ch : Channel) (abilities : List Bool) : List Bool :=
  if c.saves ch ∧ (ch.applied c.status (ch.aim c.usingKey)).status ≠ ch.status ∧
      c.abilitiesFail = false then
    abilities.map fun _ => c.status == channelStatusEnabled
  else abilities

theorem changed_eq_applied (ch : Channel) (c : Call) :
    (if ch.isMultiKey then handlerMultiKeyUpdate ch c.usingKey c.status
      else { ch with status := c.status }) = ch.applied c.status (ch.aim c.usingKey) := by
  by_cases hmulti : ch.isMultiKey = true
  · rw [if_pos hmulti, handlerMultiKeyUpdate_eq hmulti]
  · rw [if_neg hmulti, aim_single (by simpa using hmulti)]
    rfl

variable {s : Store} {c : Call}

theorem saveStatusState_eq (hd : s.db c.id = some ch) (hsave : c.saves ch = true) :
    (saveStatusState s c (ch.applied c.status (ch.aim c.usingKey))).1 =
      { s with db := Function.update s.db c.id (some (c.row ch)) } := by
  unfold saveStatusState Call.row
  by_cases hfail : c.id = 0 ∨ c.saveFails = true
  · have hbad : ¬(c.saves ch ∧ c.id ≠ 0 ∧ c.saveFails = false) := by
      rintro ⟨-, hid, hsaveFails⟩
      rcases hfail with hid' | hsaveFails'
      · exact hid hid'
      · exact absurd (hsaveFails'.symm.trans hsaveFails) (by decide)
    rw [if_pos (by simpa using hfail), if_neg hbad, ← hd, update_eq_self]
  have hgood : c.saves ch ∧ c.id ≠ 0 ∧ c.saveFails = false := by
    simpa [hsave] using hfail
  rw [if_neg (by simpa using hfail), if_pos hgood, hd]
  simp only [Option.map_some]
  congr 3
  by_cases hmulti : ch.isMultiKey = true
  · rw [applied_isMultiKey, if_pos hmulti]
    cases ch.aim c.usingKey <;> rfl
  · rw [applied_isMultiKey, if_neg hmulti, aim_single (by simpa using hmulti)]
    rfl

theorem updateRow_eq (hd : s.db c.id = some ch) : (updateRow s c).1 = { s with
        db := Function.update s.db c.id (some (c.row ch))
        abilities :=
          Function.update s.abilities c.id (c.abilitiesAfter ch (s.abilities c.id)) } := by
  by_cases hsave : c.saves ch = true
  · have hread : c.readFails = false := by
      simpa using (Bool.and_eq_true_iff.1 hsave).1
    have hstatus : ch.status ≠ c.status := by
      simpa using (Bool.and_eq_true_iff.1 hsave).2
    have hshould : (if ch.isMultiKey then
          ch.status != (ch.applied c.status (ch.aim c.usingKey)).status else true) =
        ((ch.applied c.status (ch.aim c.usingKey)).status != ch.status) := by
      by_cases hmulti : ch.isMultiKey = true
      · rw [if_pos hmulti, bne_comm]
      · rw [if_neg hmulti, aim_single (by simpa using hmulti)]
        simpa [Channel.applied] using hstatus.symm
    have hsaved := saveStatusState_eq hd hsave
    unfold updateRow
    simp only [getChannelById, hread, hd, Bool.false_eq_true, if_false, if_neg hstatus,
      changed_eq_applied, hshould, hsaved]
    unfold Call.abilitiesAfter updateAbilityStatus
    by_cases hflip : (ch.applied c.status (ch.aim c.usingKey)).status = ch.status
    · simp [hflip]
    · cases hfail : c.abilitiesFail <;> simp [hflip, hsave]
  have hrow : c.row ch = ch := by simp [Call.row, hsave]
  have habilities : c.abilitiesAfter ch (s.abilities c.id) = s.abilities c.id := by
    simp [Call.abilitiesAfter, hsave]
  rw [hrow, habilities, ← hd, update_eq_self, update_eq_self]
  unfold updateRow getChannelById
  cases hread : c.readFails with
  | true => rfl
  | false =>
    have hstatus : ch.status = c.status := by simpa [Call.saves, hread] using hsave
    simp [hd, hstatus]

theorem cacheUpdateChannelStatus_setCache (s : Store) (id : Int) (ch : Channel) :
    cacheUpdateChannelStatus (s.setCache id ch) id ch.status = s.setCache id ch := by
  simp only [cacheUpdateChannelStatus, Store.setCache, Function.update_self,
    Function.update_idem]

theorem step_eq (hc : s.cache c.id = some ch) (hd : s.db c.id = some ch) : step s c =
      { cache := Function.update s.cache c.id (some (ch.applied c.status (ch.aim c.usingKey)))
        db := Function.update s.db c.id (some (c.row ch))
        abilities :=
          Function.update s.abilities c.id (c.abilitiesAfter ch (s.abilities c.id)) } := by
  unfold step updateChannelStatus
  simp only [hc]
  by_cases hmulti : ch.isMultiKey = true
  · rw [if_pos hmulti, handlerMultiKeyUpdate_eq hmulti]
    have hcache : (if ch.status ≠ (ch.applied c.status (ch.aim c.usingKey)).status then
          cacheUpdateChannelStatus (s.setCache c.id (ch.applied c.status (ch.aim c.usingKey))) c.id
            (ch.applied c.status (ch.aim c.usingKey)).status
        else s.setCache c.id (ch.applied c.status (ch.aim c.usingKey))) =
        s.setCache c.id (ch.applied c.status (ch.aim c.usingKey)) := by
      split
      · exact cacheUpdateChannelStatus_setCache s c.id _
      · rfl
    rw [hcache]
    exact updateRow_eq (s := s.setCache c.id _) hd
  have hsingle : ch.isMultiKey = false := by simpa using hmulti
  rw [if_neg hmulti, aim_single hsingle]
  by_cases hstatus : ch.status = c.status
  · have hrow : c.row ch = ch := by simp [Call.row, Call.saves, hstatus]
    have habilities : c.abilitiesAfter ch (s.abilities c.id) = s.abilities c.id := by
      simp [Call.abilitiesAfter, Call.saves, hstatus]
    have happlied : ch.applied c.status .channel = ch :=
      (applied_eq_self_iff ch c.status .channel (fun _ h => by cases h)).2 hstatus
    rw [if_pos hstatus, hrow, habilities, happlied, update_eq_self, ← hc,
      update_eq_self, hc, ← hd, update_eq_self]
  rw [if_neg hstatus]
  have hcache : cacheUpdateChannelStatus s c.id c.status =
      s.setCache c.id (ch.applied c.status .channel) := by
    unfold cacheUpdateChannelStatus
    rw [hc]
    rfl
  rw [hcache]
  exact updateRow_eq (s := s.setCache c.id _) hd

theorem step_of_not_cached (hc : s.cache c.id = none) : step s c = s := by
  unfold step updateChannelStatus
  rw [hc]

/-! ## When the store still agrees -/

theorem row_eq_applied_iff (hidle : ch.applied c.status (ch.aim c.usingKey) ≠ ch) :
    ch.applied c.status (ch.aim c.usingKey) = c.row ch ↔
      c.readFails = false ∧ c.saveFails = false ∧ c.id ≠ 0 ∧ ch.status ≠ c.status := by
  unfold Call.row Call.saves
  split
  · next h => simpa [and_assoc, and_left_comm, and_comm] using h
  next h =>
  refine iff_of_false hidle fun hgood => h ?_
  simp [hgood.1, hgood.2.1, hgood.2.2.1, hgood.2.2.2]

theorem abilitiesAfter_agree_iff {abilities : List Bool} (hsaves : c.saves ch = true)
    (hab : ∀ enabled ∈ abilities, (enabled = true ↔ ch.status = channelStatusEnabled)) :
    (∀ enabled ∈ c.abilitiesAfter ch abilities, (enabled = true ↔
        (ch.applied c.status (ch.aim c.usingKey)).status = channelStatusEnabled)) ↔
      (c.abilitiesFail = true → abilities = [] ∨ ¬ch.Flips c.status (ch.aim c.usingKey)) := by
  have hkey : ∀ i, ch.aim c.usingKey = .key i → i < ch.keys.length := fun i => aim_key_lt
  rw [flips_iff ch c.status _ hkey, not_not]
  by_cases hsame : (ch.applied c.status (ch.aim c.usingKey)).status = ch.status
  · simp only [Call.abilitiesAfter, hsame, ne_eq, not_true_eq_false, false_and, and_false,
      if_false]
    exact iff_of_true hab (fun _ => Or.inr trivial)
  have hasked := applied_status_of_ne hkey hsame
  cases hfail : c.abilitiesFail with
  | false => simp [Call.abilitiesAfter, hsaves, hsame, hfail, hasked]
  | true =>
    simp only [Call.abilitiesAfter, hfail, Bool.true_eq_false, and_false, if_false,
      forall_const]
    constructor
    · intro h
      cases abilities with
      | nil => exact Or.inl rfl
      | cons e es =>
        exact Or.inr ((hab e List.mem_cons_self).symm.trans (h e List.mem_cons_self))
    rintro (rfl | hstay) enabled hmem
    · cases hmem
    · exact (hab enabled hmem).trans hstay

theorem entry_agrees_iff (hs : Entry.Agrees (some ch) (some ch) (s.abilities c.id)) :
    Entry.Agrees (some (ch.applied c.status (ch.aim c.usingKey))) (some (c.row ch))
        (c.abilitiesAfter ch (s.abilities c.id)) ↔
      ch.Idle c.status (ch.aim c.usingKey) ∨ Carried s c ch := by
  have hkey : ∀ i, ch.aim c.usingKey = .key i → i < ch.keys.length := fun i => aim_key_lt
  rw [← applied_eq_self_iff ch c.status _ hkey]
  by_cases hidle : ch.applied c.status (ch.aim c.usingKey) = ch
  · -- nothing changes: neither the cached channel, nor the row, nor the abilities
    have hrow : c.row ch = ch := by simp [Call.row, hidle]
    have habilities : c.abilitiesAfter ch (s.abilities c.id) = s.abilities c.id := by
      simp [Call.abilitiesAfter, hidle]
    rw [hrow, habilities, hidle]
    exact iff_of_true hs (Or.inl rfl)
  have hrow := row_eq_applied_iff hidle
  have hab := hs.abilities ch rfl
  have henabled : ch.isMultiKey = true → _ := fun hmulti =>
    applied_enabled_iff c.status (ch.aim c.usingKey) (hs.enabled ch rfl hmulti)
  constructor
  · intro h
    obtain ⟨hread, hsave, hid, hstatus⟩ := hrow.1 (Option.some.inj h.cache)
    have hsaves : c.saves ch = true := by simp [Call.saves, hread, hstatus]
    have hwritten := hrow.2 ⟨hread, hsave, hid, hstatus⟩
    rw [← hwritten] at h
    refine Or.inr ⟨hread, hsave, hid, hstatus, ?_, ?_⟩
    · exact (abilitiesAfter_agree_iff hsaves hab).1 (h.abilities _ rfl)
    intro hmulti
    have hchannel := h.enabled _ rfl
    rw [applied_isMultiKey, applied_keys] at hchannel
    exact (henabled hmulti).1 (hchannel hmulti)
  rintro (hself | h)
  · exact absurd hself hidle
  have hsaves : c.saves ch = true := by simp [Call.saves, h.read, h.status]
  have hwritten := hrow.2 ⟨h.read, h.save, h.id, h.status⟩
  rw [← hwritten]
  refine ⟨rfl, ?_, ?_⟩
  · rintro _ ⟨⟩
    exact (abilitiesAfter_agree_iff hsaves hab).2 h.abilities
  rintro _ ⟨⟩
  rw [applied_isMultiKey, applied_keys]
  intro hmulti
  exact (henabled hmulti).2 (h.enabled hmulti)

theorem step_agrees_iff (s : Store) (c : Call) (hs : Agrees s) : Agrees (step s c) ↔ Sound s c := by
  have hentry := hs c.id
  have hcd := hentry.cache
  cases hc : s.cache c.id with
  | none =>
    rw [step_of_not_cached hc]
    exact iff_of_true hs (by simp [Sound, hc])
  | some ch =>
    have hd : s.db c.id = some ch := hcd.symm.trans hc
    have hsound : Sound s c ↔ ch.Idle c.status (ch.aim c.usingKey) ∨ Carried s c ch := by
      simp [Sound, hc]
    rw [hc, hd] at hentry
    rw [hsound, ← entry_agrees_iff hentry, step_eq hc hd]
    constructor
    · intro h
      simpa using h c.id
    intro h id
    by_cases hid : id = c.id
    · subst hid
      simpa using h
    · simpa [hid] using hs id

/-- From a store whose cache, rows and abilities agree, they agree after every
    call of a run exactly when every call is sound: it changes nothing, or its
    change is carried to the row and the abilities. -/
theorem channel_status_agreement (s : Store) (hs : Agrees s) (cs : List Call) :
    (∀ n, Agrees (run step s (cs.take n))) ↔ Meets Sound step s cs :=
  forall_take_iff_meets Agrees step_agrees_iff hs cs

/-- One enabled channel with two enabled keys and two ability rows. -/
def pool : Store where
  cache id := if id = 7 then some ⟨["key-a", "key-b"], 1, true, fun _ => none⟩ else none
  db id := if id = 7 then some ⟨["key-a", "key-b"], 1, true, fun _ => none⟩ else none
  abilities id := if id = 7 then [true, true] else []

theorem pool_agrees : Agrees pool := by
  intro id
  by_cases hid : id = 7
  · subst hid
    refine ⟨rfl, ?_, ?_⟩ <;> rintro _ ⟨⟩
    · decide
    · decide
  · refine ⟨rfl, ?_, ?_⟩ <;> simp [pool, hid]

/-- Both keys fail one after the other, then the first one works again. -/
theorem pool_recovers : Agrees (run step pool
      ([⟨7, "key-a", 3, false, false, false⟩, ⟨7, "key-b", 3, false, false, false⟩,
        ⟨7, "key-a", 1, false, false, false⟩].take 3)) := by
  refine (channel_status_agreement pool pool_agrees
    [⟨7, "key-a", 3, false, false, false⟩, ⟨7, "key-b", 3, false, false, false⟩,
      ⟨7, "key-a", 1, false, false, false⟩]).2 ⟨?_, ?_, ?_, trivial⟩ 3 <;>
    rintro _ ⟨⟩ <;> refine Or.inr ⟨rfl, rfl, by decide, by decide, ?_, ?_⟩
  all_goals first
    | exact fun h => absurd h (by decide)
    | exact fun _ h => absurd h (by decide +kernel)

/-- A key that failed and works again while the channel stays enabled: the cache
    forgets the failure, but the row already has the status asked for and keeps it. -/
theorem reenabled_key_not_persisted : Agrees pool ∧ ¬Agrees (run step pool
      [⟨7, "key-a", 3, false, false, false⟩, ⟨7, "key-a", 1, false, false, false⟩]) := by
  refine ⟨pool_agrees, fun h => ?_⟩
  have hkey := congrArg (fun ch => ch.map fun ch => ch.statusList 0) (h 7).cache
  exact absurd hkey (by decide +kernel)

end NewApi.ChannelStatus
