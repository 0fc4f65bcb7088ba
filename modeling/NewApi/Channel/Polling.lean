/-
  NewApi.Channel.Polling

  `GetNextEnabledKey` of a channel with several keys, and what the calls of a
  channel in polling mode return one after the other.

  The polling index is that of the channel info `CacheGetChannelInfo` returns
  (the cached object, or the row); the keys and their states are those of the
  channel the call is made on.  Calls take turns under the polling lock.

  From a stored index the keys are visited in a cyclic order.  The enabled ones
  in that order (`ring`) are what the next calls return: a call takes the first
  off and leaves it at the end.
-/

import NewApi.Channel.Status
import NewApi.Lib.Text
import Mathlib.Data.List.Rotate

namespace NewApi.KeyPolling

open List (filter_append getElem_range length_range length_rotate mem_cons_self mem_filter
  mem_range mem_rotate)
open ChannelStatus (channelStatusEnabled)

/-! ## Keys -/

inductive MultiKeyMode where
  | random
  | polling
  /-- any other text -/
  | other

/-- What `GetNextEnabledKey` reads of a channel.  A nil status list and an empty
    one read the same. -/
structure Channel where
  key : String
  keys : List String := []
  isMultiKey : Bool := true
  multiKeyMode : MultiKeyMode := .polling
  multiKeyStatusList : Nat → Option Int := fun _ => none

inductive KeyErr where
  /-- `no keys available` -/
  | noKeys
  /-- `no enabled keys` -/
  | noEnabledKeys
  /-- the error of `CacheGetChannelInfo` -/
  | getChannelFailed

/-- `strings.Split(strings.Trim(s, "\n"), "\n")` -/
def splitLines (s : String) : List String :=
  (((s.toList.dropWhile (· == '\n')).rdropWhile (· == '\n')).splitOn '\n').map String.ofList

variable (unmarshal : String → Option (List String))

variable (ch : Channel)

/-- `GetKeys`, where `unmarshal` is the decoding of a JSON array of raw values. -/
def getKeys : List String :=
  if ch.key = "" then []
  else if ch.keys ≠ [] then ch.keys
  else
    let trimmed := Lib.Text.trimSpace ch.key
    match if trimmed.toList.head? = some '[' then unmarshal trimmed else none with
    | some arr => arr
    | none => splitLines ch.key

/-- `getStatus(idx) == common.ChannelStatusEnabled` -/
def isEnabled (idx : Nat) : Bool :=
  (ch.multiKeyStatusList idx).getD channelStatusEnabled = channelStatusEnabled

def enabledIdx (keys : List String) : List Nat :=
  (List.range keys.length).filter (isEnabled ch)

/-! ## The call -/

def startIndex (n : Nat) (stored : Int) : Nat :=
  if stored < 0 ∨ n ≤ stored then 0 else stored.toNat

/-- The polling loop: the first enabled index from `start` on, around the end. -/
def scan (n start : Nat) : Option Nat :=
  ((List.range n).map fun i => (start + i) % n).find? (isEnabled ch)

def keyAt (keys : List String) (idx : Nat) : Except KeyErr (String × Nat) :=
  .ok (keys.getD idx "", idx)

/-- `GetNextEnabledKey`, with the polling index that `CacheGetChannelInfo` finds
    (`none` if it fails) and the one that is there afterwards.  `draw` is the
    random number. -/
def getNextEnabledKey (draw : Nat)
    (info : Option Int) : Except KeyErr (String × Nat) × Option Int :=
  if ch.isMultiKey = false then (.ok (ch.key, 0), info)
  else
    let keys := getKeys unmarshal ch
    if keys.length = 0 then (.error .noKeys, info)
    else
      match enabledIdx ch keys with
      | [] => (.error .noEnabledKeys, info)
      | first :: others =>
        match ch.multiKeyMode with
        | .random =>
          let enabled := first :: others
          (keyAt keys (enabled.getD (draw % enabled.length) first), info)
        | .polling =>
          match info with
          | none => (.error .getChannelFailed, none)
          | some stored =>
            match scan ch keys.length (startIndex keys.length stored) with
            | some idx => (keyAt keys idx, some ((idx + 1) % keys.length : Nat))
            | none => (keyAt keys first, some 0)
        | .other => (keyAt keys first, info)

/-- The answers of calls one after the other, a random number for each. -/
def nextKeys (unmarshal : String → Option (List String)) (ch : Channel) :
    List Nat → Option Int → List (Except KeyErr (String × Nat))
  | [], _ => []
  | draw :: draws, info =>
    let out := getNextEnabledKey unmarshal ch draw info
    out.1 :: nextKeys unmarshal ch draws out.2

/-! ## The cyclic order -/

section Ring

variable {ch : Channel} {n : Nat}

def ring (ch : Channel) (n start : Nat) : List Nat :=
  ((List.range n).rotate start).filter (isEnabled ch)

theorem startIndex_lt (hn : 0 < n) (stored : Int) : startIndex n stored < n := by
  unfold startIndex
  split
  · exact hn
  · omega

theorem startIndex_of_lt {i : Nat} (hi : i < n) : startIndex n i = i := by
  unfold startIndex
  rw [if_neg (by omega)]
  exact Int.toNat_natCast i

theorem visited_eq {start : Nat} :
    ((List.range n).map fun i => (start + i) % n) = (List.range n).rotate start := by
  apply List.ext_getElem
  · rw [List.length_map, length_rotate]
  intro i hi _
  rw [List.getElem_map, List.getElem_rotate, getElem_range, getElem_range,
    length_range, Nat.add_comm]

theorem scan_eq (ch : Channel) (n start : Nat) : scan ch n start = (ring ch n start).head? := by
  unfold scan ring
  rw [visited_eq, List.head?_filter]

theorem ring_eq (ch : Channel) {start : Nat} (hstart : start < n) :
    ∃ k, ring ch n start = ((List.range n).filter (isEnabled ch)).rotate k := by
  have hle : start ≤ (List.range n).length := by
    rw [length_range]
    omega
  refine ⟨(((List.range n).take start).filter (isEnabled ch)).length, ?_⟩
  calc ring ch n start
      = ((List.range n).drop start).filter (isEnabled ch) ++
          ((List.range n).take start).filter (isEnabled ch) := by
        unfold ring
        rw [List.rotate_eq_drop_append_take hle, filter_append]
    _ = (((List.range n).take start).filter (isEnabled ch) ++
          ((List.range n).drop start).filter (isEnabled ch)).rotate _ :=
        (List.rotate_append_length_eq _ _).symm
    _ = _ := by rw [← filter_append, List.take_append_drop]

theorem ring_next {start e : Nat} {es : List Nat} (hring : ring ch n start = e :: es) :
    ring ch n ((e + 1) % n) = es ++ [e] := by
  obtain ⟨pre, post, hsplit, hpre, he, hpost⟩ := List.filter_eq_cons_iff.1 hring
  have hpos : (start + pre.length) % n = e := by
    have hget : ((List.range n).rotate start)[pre.length]? = some e := by
      rw [hsplit, List.getElem?_append_right (Nat.le_refl _), Nat.sub_self]
      rfl
    rw [List.getElem?_eq_some_iff] at hget
    obtain ⟨_, hget⟩ := hget
    rw [List.getElem_rotate, getElem_range, length_range] at hget
    rw [Nat.add_comm]
    exact hget
  have hmod : (e + 1) % n = (start + (pre.length + 1)) % n := by
    rw [← hpos, Nat.mod_add_mod]
    congr 1
  have hrot : (List.range n).rotate ((e + 1) % n) = post ++ (pre ++ [e]) := by
    calc (List.range n).rotate ((e + 1) % n)
        = (List.range n).rotate (start + (pre.length + 1)) := by
          rw [hmod]
          nth_rewrite 2 [← length_range (n := n)]
          exact List.rotate_mod _ _
      _ = ((pre ++ [e]) ++ post).rotate (pre ++ [e]).length := by
          rw [← List.rotate_rotate, hsplit, List.length_append, List.length_singleton,
            List.append_assoc, List.singleton_append]
      _ = _ := List.rotate_append_length_eq _ _
  unfold ring
  rw [hrot, filter_append, filter_append, hpost, List.filter_eq_nil_iff.2 hpre,
    List.nil_append, List.filter_singleton, he]
  rfl

end Ring

/-! ## Polling -/

section Calls

variable {unmarshal : String → Option (List String)} {ch : Channel}

theorem getNextEnabledKey_polling (hmulti : ch.isMultiKey = true)
    (hmode : ch.multiKeyMode = .polling) (draw : Nat) {stored : Int} {e : Nat} {es : List Nat}
    (hring : ring ch (getKeys unmarshal ch).length
      (startIndex (getKeys unmarshal ch).length stored) = e :: es) :
    getNextEnabledKey unmarshal ch draw (some stored) = (keyAt (getKeys unmarshal ch) e,
        some (((e + 1) % (getKeys unmarshal ch).length : Nat) : Int)) := by
  have hmem : e ∈ ring ch (getKeys unmarshal ch).length
      (startIndex (getKeys unmarshal ch).length stored) := by
    rw [hring]
    exact mem_cons_self
  obtain ⟨hrange, he⟩ := mem_filter.1 hmem
  rw [mem_rotate] at hrange
  have hn : (getKeys unmarshal ch).length ≠ 0 := by
    have := mem_range.1 hrange
    omega
  have hscan := scan_eq ch (getKeys unmarshal ch).length
    (startIndex (getKeys unmarshal ch).length stored)
  rw [hring, List.head?_cons] at hscan
  have henabled : e ∈ enabledIdx ch (getKeys unmarshal ch) := mem_filter.2 ⟨hrange, he⟩
  unfold getNextEnabledKey
  rw [if_neg (by rw [hmulti]; exact Bool.true_eq_false.mp), if_neg hn]
  cases hidx : enabledIdx ch (getKeys unmarshal ch) with
  | nil =>
    rw [hidx] at henabled
    exact absurd henabled List.not_mem_nil
  | cons first others => simp only [hmode, hscan]

def answered : Except KeyErr (String × Nat) → Option Nat
  | .ok (_, idx) => some idx
  | .error _ => none

section
variable (hmulti : ch.isMultiKey = true) (hmode : ch.multiKeyMode = .polling)
include hmulti hmode

theorem nextKeys_ring
    {front : List Nat} {draws : List Nat} {stored : Int} (back : List Nat)
    (hlen : draws.length = front.length) (hring : ring ch (getKeys unmarshal ch).length
      (startIndex (getKeys unmarshal ch).length stored) = front ++ back) :
    nextKeys unmarshal ch draws (some stored) = front.map (keyAt (getKeys unmarshal ch)) := by
  induction front generalizing draws stored back with
  | nil =>
    obtain rfl := List.length_eq_zero_iff.1 hlen
    rfl
  | cons e front ih =>
    cases draws with
    | nil => cases hlen
    | cons draw draws =>
      have hcall := getNextEnabledKey_polling hmulti hmode draw hring
      have hmem : e ∈ (List.range (getKeys unmarshal ch).length).rotate
          (startIndex (getKeys unmarshal ch).length stored) := by
        have h : e ∈ ring ch (getKeys unmarshal ch).length
            (startIndex (getKeys unmarshal ch).length stored) := by
          rw [hring]
          exact mem_cons_self
        exact (mem_filter.1 h).1
      have hn : 0 < (getKeys unmarshal ch).length := by
        have h := mem_range.1 (mem_rotate.1 hmem)
        omega
      have hnext : startIndex (getKeys unmarshal ch).length
          ((e + 1) % (getKeys unmarshal ch).length : Nat) =
            (e + 1) % (getKeys unmarshal ch).length :=
        startIndex_of_lt (Nat.mod_lt _ hn)
      have hafter : ring ch (getKeys unmarshal ch).length (startIndex
          (getKeys unmarshal ch).length ((e + 1) % (getKeys unmarshal ch).length : Nat)) =
            front ++ (back ++ [e]) := by
        rw [hnext, ring_next hring]
        exact List.append_assoc front back [e]
      show (getNextEnabledKey unmarshal ch draw (some stored)).1 ::
        nextKeys unmarshal ch draws (getNextEnabledKey unmarshal ch draw (some stored)).2 = _
      rw [hcall]
      rw [ih (back ++ [e]) (Nat.succ.inj hlen) hafter]
      rfl

theorem nextKeys_enabled (henabled : enabledIdx ch (getKeys unmarshal ch) ≠ []) (draws : List Nat)
    (stored : Int) :
    ∀ r ∈ nextKeys unmarshal ch draws (some stored),
      ∃ idx ∈ enabledIdx ch (getKeys unmarshal ch), ∃ key,
        (getKeys unmarshal ch)[idx]? = some key ∧ r = .ok (key, idx) := by
  have hn : 0 < (getKeys unmarshal ch).length := by
    obtain ⟨i, hi⟩ := List.exists_mem_of_ne_nil _ henabled
    have := mem_range.1 (mem_filter.1 hi).1
    omega
  induction draws generalizing stored with
  | nil => exact fun r hr => absurd hr List.not_mem_nil
  | cons draw draws ih =>
    obtain ⟨k, hrot⟩ := ring_eq ch (startIndex_lt hn stored)
    cases hring : ring ch (getKeys unmarshal ch).length
        (startIndex (getKeys unmarshal ch).length stored) with
    | nil =>
      rw [hring] at hrot
      have hlen := congrArg List.length hrot
      rw [length_rotate] at hlen
      exact absurd (List.length_eq_zero_iff.1 hlen.symm) henabled
    | cons e es =>
      have he : e ∈ enabledIdx ch (getKeys unmarshal ch) := by
        have h : e ∈ ring ch (getKeys unmarshal ch).length
            (startIndex (getKeys unmarshal ch).length stored) := by
          rw [hring]
          exact mem_cons_self
        rw [hrot, mem_rotate] at h
        exact h
      have hlt := mem_range.1 (mem_filter.1 he).1
      intro r hr
      rw [nextKeys, getNextEnabledKey_polling hmulti hmode draw hring] at hr
      rcases List.mem_cons.1 hr with rfl | hr
      · refine ⟨e, he, (getKeys unmarshal ch)[e], List.getElem?_eq_getElem hlt, ?_⟩
        show Except.ok ((getKeys unmarshal ch).getD e "", e) = _
        rw [List.getD_eq_getElem?_getD, List.getElem?_eq_getElem hlt]
        rfl
      · exact ih _ r hr

end

/-- **Polling is fair**: from any stored index, as many calls as there are
    enabled keys return each of them once, in cyclic order, and no call returns
    another. -/
theorem polling_fair (unmarshal : String → Option (List String)) (ch : Channel)
    (hmulti : ch.isMultiKey = true) (hmode : ch.multiKeyMode = .polling)
    (henabled : enabledIdx ch (getKeys unmarshal ch) ≠ []) (stored : Int) (draws : List Nat) :
    (∀ r ∈ nextKeys unmarshal ch draws (some stored),
      ∃ idx ∈ enabledIdx ch (getKeys unmarshal ch), ∃ key,
        (getKeys unmarshal ch)[idx]? = some key ∧ r = .ok (key, idx)) ∧
      (draws.length = (enabledIdx ch (getKeys unmarshal ch)).length →
        ∃ k, (nextKeys unmarshal ch draws (some stored)).map answered =
          ((enabledIdx ch (getKeys unmarshal ch)).rotate k).map some) := by
  refine ⟨nextKeys_enabled hmulti hmode henabled draws stored, fun hlen => ?_⟩
  have hn : 0 < (getKeys unmarshal ch).length := by
    obtain ⟨i, hi⟩ := List.exists_mem_of_ne_nil _ henabled
    have := mem_range.1 (mem_filter.1 hi).1
    omega
  obtain ⟨k, hrot⟩ := ring_eq ch (startIndex_lt hn stored)
  have hlen' : draws.length = (ring ch (getKeys unmarshal ch).length
      (startIndex (getKeys unmarshal ch).length stored)).length := by
    rw [hrot, length_rotate]
    exact hlen
  refine ⟨k, ?_⟩
  rw [nextKeys_ring hmulti hmode [] hlen' (List.append_nil _).symm, List.map_map, hrot]
  rfl

def oneDisabled : Channel where
  key := "a\nb\nc"
  multiKeyStatusList idx := if idx = 1 then some 3 else none

theorem oneDisabled_fair :
    ∃ k, (nextKeys (fun _ => none) oneDisabled [0, 0] (some 7)).map answered =
      ((enabledIdx oneDisabled (getKeys (fun _ => none) oneDisabled)).rotate k).map some :=
  (polling_fair (fun _ => none) oneDisabled rfl rfl (by decide +kernel) 7 [0, 0]).2
    (by decide +kernel)

end Calls

end NewApi.KeyPolling
