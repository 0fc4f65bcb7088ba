/-
  NewApi.ResponseCache.Lru

  The in-process cache of responses (`responseCacheLRU` in `service/response_cache.go`):
  a map of keys to the elements of a list, the most recently used in front.

  The size stays within the capacity of a call exactly when no capacity is negative and
  none is less than the size at the time an entry is overwritten: that path returns before
  the eviction.
-/

import Mathlib.Algebra.Group.Int.Defs
import Mathlib.Logic.Function.Basic
import NewApi.Lib.Recent

namespace NewApi.ResponseCache.Lru

open Function (update_of_ne update_self)
open List (forall_mem_cons map_cons mem_cons nodup_cons take_nil)
open NewApi.Lib

/-- `responseCacheEntry`; times are in nanoseconds. -/
structure Entry where
  key : String := ""
  body : List UInt8 := []
  totalTokens : Int := 0
  storedAt : Int := 0

/-- `responseCacheLRU`.  An element of the list is a number, and `value` its entry. -/
structure Cache where
  capacity : Int := 0
  ll : List Nat := []
  value : Nat → Entry := fun _ => {}
  items : String → Option Nat := fun _ => none
  sinceSweep : Nat := 0
  /-- The elements made so far. -/
  made : Nat := 0

def responseCacheSweepEvery : Nat := 256

/-- `now.Sub(storedAt)`, which stays within 64 bits. -/
def sub (now storedAt : Int) : Int := max (-2 ^ 63) (min (now - storedAt) (2 ^ 63 - 1))

def Entry.Expired (e : Entry) (now ttl : Int) : Prop := ttl < sub now e.storedAt

instance (e : Entry) (now ttl : Int) : Decidable (e.Expired now ttl) :=
  inferInstanceAs (Decidable (_ < _))

section

variable (c : Cache) (el : Nat) (key : String) (entry : Entry) (capacity now ttl : Int)

def Cache.unlink : Cache :=
  { c with ll := c.ll.erase el, items := Function.update c.items key none }

def Cache.moveToFront : Cache := { c with ll := el :: c.ll.erase el }

def Cache.pushFront : Cache :=
  { c with ll := c.made :: c.ll, value := Function.update c.value c.made entry,
           items := Function.update c.items key (some c.made), made := c.made + 1 }

def Cache.get : Option Entry × Cache :=
  match c.items key with
  | none => (none, c)
  | some el =>
    if (c.value el).Expired now ttl then (none, c.unlink el key)
    else (some (c.value el), c.moveToFront el)

/-- The eviction loop, of at most as many turns as there are elements. -/
def evict : Nat → Cache → Cache
  | 0, c => c
  | n + 1, c =>
    if capacity < c.ll.length then
      match c.ll.getLast? with
      | none => c
      | some back => evict n (c.unlink back (c.value back).key)
    else c

/-- The loop of `sweepLocked` over the elements that are left. -/
def sweepFrom : List Nat → Cache → Cache
  | [], c => c
  | el :: els, c =>
    if (c.value el).Expired now ttl then sweepFrom els (c.unlink el (c.value el).key)
    else sweepFrom els c

def Cache.sweepLocked : Cache := sweepFrom now ttl c.ll.reverse c

def Cache.put : Cache :=
  let c := { c with capacity }
  match c.items key with
  | some el => { c with value := Function.update c.value el entry }.moveToFront el
  | none =>
    let c := c.pushFront key entry
    let c := evict capacity c.ll.length c
    if responseCacheSweepEvery ≤ c.sinceSweep + 1 then
      { c with sinceSweep := 0 }.sweepLocked now ttl
    else { c with sinceSweep := c.sinceSweep + 1 }

end

inductive Call
  | get (key : String) (now ttl : Int)
  | put (key : String) (entry : Entry) (capacity now ttl : Int)

def Cache.step (c : Cache) : Call → Cache
  | .get key now ttl => (c.get key now ttl).2
  | .put key entry capacity now ttl => c.put key entry capacity now ttl

def run (calls : List Call) : Cache := calls.foldl Cache.step {}

/-! ### What is promised -/

def Cache.keyOf (c : Cache) (el : Nat) : String := (c.value el).key

def Cache.keys (c : Cache) : List String := c.ll.map c.keyOf

/-- The map and the list hold the same entries, each key once. -/
structure Consistent (c : Cache) : Prop where
  items : ∀ key el, c.items key = some el ↔ el ∈ c.ll ∧ c.keyOf el = key
  nodup : c.keys.Nodup
  made : ∀ el ∈ c.ll, el < c.made

/-- The entry of a put is one of its key, as it is at its only caller. -/
def Call.Keyed : Call → Prop
  | .get .. => True
  | .put key entry .. => entry.key = key

/-- No entry that the cache holds or is given is expired. -/
def Call.Spares (c : Cache) : Call → Prop
  | .get _ now ttl => ∀ el ∈ c.ll, ¬ (c.value el).Expired now ttl
  | .put _ entry _ now ttl =>
    ¬ entry.Expired now ttl ∧ ∀ el ∈ c.ll, ¬ (c.value el).Expired now ttl

def Call.used (c : Cache) : Call → List String
  | .get key now ttl => if (c.get key now ttl).1.isSome then [key] else []
  | .put key .. => [key]

def uses : Cache → List Call → List String
  | _, [] => []
  | c, call :: calls => call.used c ++ uses (c.step call) calls

def NoExpiry : Cache → List Call → Prop
  | _, [] => True
  | c, call :: calls => call.Spares c ∧ NoExpiry (c.step call) calls

def Call.OfCapacity (capacity : Int) : Call → Prop
  | .get .. => True
  | .put _ _ capacity' .. => capacity' = capacity

structure Works (calls : List Call) : Prop where
  consistent : ∀ before, before <+: calls → Consistent (run before)
  bounded : ∀ before key entry (capacity : Int) now ttl,
    before ++ [.put key entry capacity now ttl] <+: calls →
      ((run before).put key entry capacity now ttl).ll.length ≤ capacity
  fresh : ∀ before key now ttl e, before ++ [.get key now ttl] <+: calls →
    ((run before).get key now ttl).1 = some e → sub now e.storedAt ≤ ttl
  recent : ∀ capacity, (∀ call ∈ calls, call.OfCapacity capacity) → NoExpiry {} calls →
    (run calls).keys = recent capacity.toNat (uses {} calls).reverse

/-! ### The operations keep map and list together -/

variable {c : Cache} {el n : Nat} {els ll : List Nat} {key : String} {entry : Entry}
  {capacity now ttl : Int} {call : Call} {calls : List Call}

theorem keyOf_setValue (hkey : entry.key = c.keyOf el) (capacity : Int) :
    Cache.keyOf { c with capacity, value := Function.update c.value el entry } = c.keyOf := by
  funext e
  show (Function.update c.value el entry e).key = c.keyOf e
  by_cases he : e = el
  · rw [he, ← hkey, update_self]
  · rw [update_of_ne he, Cache.keyOf]

theorem keyOf_made (hkey : entry.key = key) :
    (c.pushFront key entry).keyOf c.made = key := by
  show (Function.update c.value c.made entry c.made).key = key
  rw [update_self, hkey]

section

variable (h : Consistent c)
include h

theorem Consistent.nodup_ll : c.ll.Nodup := List.Nodup.of_map _ h.nodup

theorem Consistent.of_perm (hperm : ll.Perm c.ll) : Consistent { c with ll } where
  items key el := (h.items key el).trans (and_congr_left' hperm.mem_iff.symm)
  nodup := (hperm.map _).nodup_iff.2 h.nodup
  made el hel := h.made el (hperm.mem_iff.1 hel)

theorem Consistent.moveToFront (hel : el ∈ c.ll) : Consistent (c.moveToFront el) :=
  h.of_perm (List.perm_cons_erase hel).symm

theorem Consistent.unlink (hel : el ∈ c.ll) : Consistent (c.unlink el (c.keyOf el)) where
  items k e := by
    have herase : e ∈ c.ll.erase el ↔ e ≠ el ∧ e ∈ c.ll := h.nodup_ll.mem_erase_iff
    show Function.update c.items (c.keyOf el) none k = some e ↔
      e ∈ c.ll.erase el ∧ c.keyOf e = k
    by_cases hk : k = c.keyOf el
    · subst hk
      rw [update_self]
      refine iff_of_false nofun fun ⟨he, hkey⟩ => (herase.1 he).1 ?_
      exact List.inj_on_of_nodup_map h.nodup (herase.1 he).2 hel hkey
    · rw [update_of_ne hk, h.items, herase, and_assoc, iff_and_self]
      rintro ⟨-, rfl⟩ rfl
      exact hk rfl
  nodup := h.nodup.sublist (List.erase_sublist.map _)
  made e he := h.made e (List.mem_of_mem_erase he)

theorem Consistent.setValue (hkey : entry.key = c.keyOf el) :
    Consistent { c with capacity, value := Function.update c.value el entry } := by
  have hkeyOf := keyOf_setValue hkey capacity
  refine ⟨fun key e => ?_, ?_, h.made⟩
  · rw [hkeyOf]
    exact h.items key e
  · rw [Cache.keys, hkeyOf]
    exact h.nodup

theorem Consistent.not_mem_keys (hnone : c.items key = none) : key ∉ c.keys := by
  intro hmem
  obtain ⟨el, hel, hkey⟩ := List.mem_map.1 hmem
  rw [(h.items key el).2 ⟨hel, hkey⟩] at hnone
  cases hnone

theorem Consistent.keyOf_pushFront (hel : el ∈ c.ll) :
    (c.pushFront key entry).keyOf el = c.keyOf el := by
  show (Function.update c.value c.made entry el).key = c.keyOf el
  rw [update_of_ne (Nat.ne_of_lt (h.made el hel)), Cache.keyOf]

theorem Consistent.keys_pushFront (hkey : entry.key = key) :
    (c.pushFront key entry).keys = key :: c.keys := by
  have hmade : (c.pushFront key entry).keyOf c.made = key := keyOf_made hkey
  show (c.made :: c.ll).map (c.pushFront key entry).keyOf = key :: c.keys
  rw [map_cons, hmade]
  exact congrArg _ (List.map_congr_left fun el hel => h.keyOf_pushFront hel)

theorem Consistent.pushFront (hkey : entry.key = key) (hnone : c.items key = none) :
    Consistent (c.pushFront key entry) where
  items k e := by
    have hmade : (c.pushFront key entry).keyOf c.made = key := keyOf_made hkey
    show Function.update c.items key (some c.made) k = some e ↔ e ∈ c.made :: c.ll ∧ _
    rw [mem_cons, or_and_right]
    have hold : e ∈ c.ll ∧ (c.pushFront key entry).keyOf e = k ↔ c.items k = some e := by
      rw [h.items]
      exact and_congr_right fun he => by rw [h.keyOf_pushFront he]
    rw [hold]
    by_cases hk : k = key
    · rw [hk, update_self, hnone, Option.some.injEq]
      constructor
      · rintro rfl
        exact .inl ⟨rfl, hmade⟩
      · rintro (⟨rfl, -⟩ | hsome)
        · rfl
        · cases hsome
    · rw [update_of_ne hk, iff_or_self]
      rintro ⟨rfl, hkey⟩
      exact absurd (hkey.symm.trans hmade) hk
  nodup := by
    rw [h.keys_pushFront hkey]
    exact nodup_cons.2 ⟨h.not_mem_keys hnone, h.nodup⟩
  made e he := by
    rcases mem_cons.1 he with rfl | he
    · exact Nat.lt_succ_self _
    · exact Nat.lt_succ_of_lt (h.made e he)

/-- The eviction keeps the entries that were used last. -/
theorem evict_spec (hn : c.ll.length ≤ n) :
    Consistent (evict capacity n c) ∧ (evict capacity n c).ll = c.ll.take capacity.toNat ∧
      (evict capacity n c).value = c.value := by
  induction n generalizing c with
  | zero =>
    have hnil : c.ll = [] := List.length_eq_zero_iff.1 (Nat.le_zero.1 hn)
    exact ⟨h, by rw [evict, hnil, take_nil], rfl⟩
  | succ n ih =>
    rw [evict]
    by_cases hover : capacity < c.ll.length
    · rw [if_pos hover]
      rcases List.eq_nil_or_concat c.ll with hnil | ⟨init, back, hconcat⟩
      · have hlast : c.ll.getLast? = none := by rw [hnil, List.getLast?_nil]
        rw [hlast]
        exact ⟨h, by rw [hnil, take_nil], rfl⟩
      rw [List.concat_eq_append] at hconcat
      have hmem : back ∈ c.ll := by
        rw [hconcat]
        exact List.mem_append_right _ List.mem_cons_self
      have hback : back ∉ init := fun hin =>
        List.disjoint_of_nodup_append (hconcat ▸ h.nodup_ll) hin List.mem_cons_self
      have hinit : (c.unlink back (c.keyOf back)).ll = init := by
        rw [Cache.unlink, hconcat, List.erase_append_right _ hback, List.erase_cons_head,
          List.append_nil]
      have hlen : c.ll.length = init.length + 1 := by
        rw [hconcat, List.length_append, List.length_singleton]
      obtain ⟨hcons, hll, hvalue⟩ := ih (h.unlink hmem) (by rw [hinit]; omega)
      rw [hconcat, List.getLast?_concat]
      refine ⟨hcons, ?_, hvalue⟩
      rw [List.take_append_of_le_length (by omega)]
      exact hll.trans (by rw [hinit])
    · rw [if_neg hover]
      exact ⟨h, by rw [List.take_of_length_le (by omega)], rfl⟩

theorem sweepFrom_spec (hels : ∀ el ∈ els, el ∈ c.ll) (hnodup : els.Nodup) :
    Consistent (sweepFrom now ttl els c) ∧
      (sweepFrom now ttl els c).ll.length ≤ c.ll.length := by
  induction els generalizing c with
  | nil => exact ⟨h, Nat.le_refl _⟩
  | cons el els ih =>
    obtain ⟨hel, hels⟩ := forall_mem_cons.1 hels
    obtain ⟨hnot, hnodup⟩ := nodup_cons.1 hnodup
    rw [sweepFrom]
    split
    · have hleft : ∀ e ∈ els, e ∈ c.ll.erase el := fun e he =>
        (List.mem_erase_of_ne (by rintro rfl; exact hnot he)).2 (hels e he)
      obtain ⟨hcons, hlen⟩ := ih (h.unlink hel) hleft hnodup
      exact ⟨hcons, Nat.le_trans hlen List.length_erase_le⟩
    · exact ih h hels hnodup

end

theorem sweepFrom_eq (h : ∀ el ∈ els, ¬ (c.value el).Expired now ttl) :
    sweepFrom now ttl els c = c := by
  induction els with
  | nil => rfl
  | cons el els ih =>
    obtain ⟨hel, hels⟩ := forall_mem_cons.1 h
    rw [sweepFrom, if_neg hel, ih hels]

theorem length_moveToFront (hel : el ∈ c.ll) : (c.moveToFront el).ll.length = c.ll.length :=
  (List.perm_cons_erase hel).symm.length_eq

theorem keys_moveToFront (h : Consistent c) (hel : el ∈ c.ll) :
    (c.moveToFront el).keys = c.keyOf el :: c.keys.erase (c.keyOf el) := by
  have herase : ∀ {l : List Nat}, (l.map c.keyOf).Nodup → el ∈ l →
      (l.erase el).map c.keyOf = (l.map c.keyOf).erase (c.keyOf el) := by
    intro l hl hmem
    induction l with
    | nil => cases hmem
    | cons e l ih =>
      obtain ⟨hnot, hl⟩ := nodup_cons.1 hl
      by_cases he : e = el
      · rw [he, List.erase_cons_head, map_cons, List.erase_cons_head]
      have hmem : el ∈ l := (mem_cons.1 hmem).resolve_left (Ne.symm he)
      have hkey : c.keyOf e ≠ c.keyOf el := fun heq => hnot (heq ▸ List.mem_map_of_mem hmem)
      rw [List.erase_cons_tail (by simpa using he), map_cons, map_cons, ih hl hmem,
        List.erase_cons_tail (by simpa using hkey)]
  exact congrArg _ (herase h.nodup hel)

/-! ### One call -/

/-- What a put does to the entry that has its key. -/
theorem put_hit (hel : c.items key = some el) :
    c.put key entry capacity now ttl =
      { c with capacity, value := Function.update c.value el entry }.moveToFront el := by
  simp only [Cache.put, hel]

/-- What a put of a new key leaves. -/
theorem put_miss (h : Consistent c) (hkey : entry.key = key) (hnone : c.items key = none) :
    Consistent (c.put key entry capacity now ttl) ∧
    ((c.put key entry capacity now ttl).ll.length ≤ capacity ↔ 0 ≤ capacity) ∧
    (¬ entry.Expired now ttl → (∀ el ∈ c.ll, ¬ (c.value el).Expired now ttl) →
      (c.put key entry capacity now ttl).keys = (key :: c.keys).take capacity.toNat) := by
  have hc : Consistent { c with capacity } := ⟨h.items, h.nodup, h.made⟩
  have hpush := hc.pushFront hkey hnone
  obtain ⟨hcons, hll, hvalue⟩ := @evict_spec _ _ capacity hpush (Nat.le_refl _)
  simp only [Cache.put, hnone]
  generalize evict capacity _ _ = e at hcons hll hvalue ⊢
  have hle : e.ll.length ≤ capacity.toNat := by
    rw [hll]
    exact List.length_take_le _ _
  have hkeyOf : e.keyOf = ({ c with capacity }.pushFront key entry).keyOf := by
    unfold Cache.keyOf
    rw [hvalue]
  have hkeys : e.keys = (key :: c.keys).take capacity.toNat := by
    rw [Cache.keys, hkeyOf, hll, List.map_take]
    exact congrArg _ (hc.keys_pushFront hkey)
  obtain ⟨hswept, hlen⟩ := @sweepFrom_spec { e with sinceSweep := 0 } e.ll.reverse now ttl
    ⟨hcons.items, hcons.nodup, hcons.made⟩ (fun _ => List.mem_reverse.1)
    (List.nodup_reverse.2 hcons.nodup_ll)
  have hlen : (sweepFrom now ttl e.ll.reverse { e with sinceSweep := 0 }).ll.length ≤
    e.ll.length := hlen
  split
  · refine ⟨hswept, ?_, fun hentry hspares => ?_⟩
    · show ((sweepFrom now ttl e.ll.reverse { e with sinceSweep := 0 }).ll.length : Int) ≤
        capacity ↔ _
      omega
    · rw [Cache.sweepLocked, sweepFrom_eq]
      · exact hkeys
      intro el hel
      have hmem : el ∈ c.made :: c.ll :=
        List.mem_of_mem_take (hll ▸ List.mem_reverse.1 hel)
      rw [hvalue]
      show ¬ (Function.update c.value c.made entry el).Expired now ttl
      rcases mem_cons.1 hmem with rfl | hmem
      · rwa [update_self]
      · rw [update_of_ne (Nat.ne_of_lt (h.made el hmem))]
        exact hspares el hmem
  · refine ⟨⟨hcons.items, hcons.nodup, hcons.made⟩, ?_, fun _ _ => hkeys⟩
    show (e.ll.length : Int) ≤ capacity ↔ _
    omega

theorem Consistent.found (h : Consistent c) (hel : c.items key = some el) :
    el ∈ c.ll ∧ c.keyOf el = key := (h.items key el).1 hel

theorem Consistent.put (h : Consistent c) (hkey : entry.key = key) :
    Consistent (c.put key entry capacity now ttl) := by
  cases hel : c.items key with
  | none => exact (put_miss h hkey hel).1
  | some el =>
    obtain ⟨hmem, hkeyOf⟩ := h.found hel
    rw [put_hit hel]
    exact (h.setValue (hkey.trans hkeyOf.symm)).moveToFront hmem

theorem length_put_le_iff (h : Consistent c) (hkey : entry.key = key) :
    ((c.put key entry capacity now ttl).ll.length ≤ capacity ↔
      0 ≤ capacity ∧ (c.items key ≠ none → c.ll.length ≤ capacity)) := by
  cases hel : c.items key with
  | none => simpa using (put_miss h hkey hel).2.1
  | some el =>
    have hlen := @length_moveToFront
      { c with capacity, value := Function.update c.value el entry } _ (h.found hel).1
    rw [put_hit hel, hlen]
    simp only [ne_eq, reduceCtorEq, not_false_eq_true, forall_const]
    omega

theorem Consistent.get (h : Consistent c) : Consistent (c.get key now ttl).2 := by
  unfold Cache.get
  cases hel : c.items key with
  | none => exact h
  | some el =>
    obtain ⟨hmem, rfl⟩ := h.found hel
    dsimp only
    split
    · exact h.unlink hmem
    · exact h.moveToFront hmem

/-- A get answers with an entry that is not expired. -/
theorem get_fresh {e : Entry} (he : (c.get key now ttl).1 = some e) : ¬ e.Expired now ttl := by
  unfold Cache.get at he
  cases hel : c.items key with
  | none => simp [hel] at he
  | some el =>
    simp only [hel] at he
    split at he
    · cases he
    · rename_i hfresh
      rwa [← Option.some.inj he]

theorem Consistent.step (h : Consistent c) (hkeyed : call.Keyed) : Consistent (c.step call) := by
  cases call with
  | get key now ttl => exact h.get
  | put key entry capacity now ttl => exact h.put hkeyed

/-- Without expiry a call uses the keys of the cache as a list of the last used. -/
theorem keys_step (h : Consistent c) (hkeyed : call.Keyed) (hcap : call.OfCapacity capacity)
    (hspares : call.Spares c) (hlen : c.keys.length ≤ capacity.toNat) :
    (c.step call).keys = (call.used c).foldl (use capacity.toNat) c.keys := by
  have htouch : ∀ {el}, el ∈ c.ll →
      (c.moveToFront el).keys = use capacity.toNat c.keys (c.keyOf el) := fun hel => by
    have hfront := keys_moveToFront h hel
    have hshort := length_moveToFront hel
    rw [use, ← hfront, List.take_of_length_le]
    rwa [Cache.keys, List.length_map, hshort, ← List.length_map c.keyOf]
  cases call with
  | get key now ttl =>
    cases hel : c.items key with
    | none => simp [Cache.step, Cache.get, Call.used, hel]
    | some el =>
      obtain ⟨hmem, rfl⟩ := h.found hel
      have hfresh : ¬ (c.value el).Expired now ttl := hspares el hmem
      simpa [Cache.step, Cache.get, Call.used, hel, hfresh] using htouch hmem
  | put key entry capacity' now ttl =>
    cases hcap
    cases hel : c.items key with
    | none =>
      show (c.put key entry _ now ttl).keys = use _ c.keys key
      rw [(put_miss h hkeyed hel).2.2 hspares.1 hspares.2, use,
        List.erase_of_not_mem (h.not_mem_keys hel)]
    | some el =>
      obtain ⟨hmem, rfl⟩ := h.found hel
      show (c.put (c.keyOf el) entry _ now ttl).keys = use _ c.keys _
      rw [put_hit hel, ← htouch hmem]
      exact congrArg (fun f => List.map f _) (keyOf_setValue hkeyed capacity)

/-! ### Runs -/

theorem run_consistent (hkeyed : ∀ call ∈ calls, call.Keyed) (h : Consistent c) :
    Consistent (calls.foldl Cache.step c) := by
  induction calls generalizing c with
  | nil => exact h
  | cons call calls ih =>
    obtain ⟨hcall, hcalls⟩ := forall_mem_cons.1 hkeyed
    exact ih hcalls (h.step hcall)

theorem used_cases (call : Call) (c : Cache) :
    call.used c = [] ∨ ∃ key, call.used c = [key] := by
  cases call with
  | get key now ttl =>
    unfold Call.used
    dsimp only
    split
    · exact .inr ⟨key, rfl⟩
    · exact .inl rfl
  | put key entry capacity now ttl => exact .inr ⟨key, rfl⟩

theorem consistent_empty : Consistent {} := ⟨by simp, List.nodup_nil, nofun⟩

theorem keys_run (h : Consistent c) (hkeyed : ∀ call ∈ calls, call.Keyed)
    (hcap : ∀ call ∈ calls, call.OfCapacity capacity) (hspares : NoExpiry c calls)
    (hlen : c.keys.length ≤ capacity.toNat) :
    (calls.foldl Cache.step c).keys = (uses c calls).foldl (use capacity.toNat) c.keys := by
  induction calls generalizing c with
  | nil => rfl
  | cons call calls ih =>
    obtain ⟨hkey, hkeyed⟩ := forall_mem_cons.1 hkeyed
    obtain ⟨hof, hcap⟩ := forall_mem_cons.1 hcap
    have hstep := keys_step h hkey hof hspares.1 hlen
    rw [List.foldl_cons, ih (h.step hkey) hkeyed hcap hspares.2, hstep, uses, List.foldl_append]
    rw [hstep]
    rcases used_cases call c with hused | ⟨key, hused⟩
    · rwa [hused]
    · rw [hused]
      exact List.length_take_le _ _

/-- **The cache works in exactly the runs whose capacities are not negative and, where an
    entry is overwritten, not below the size.** -/
theorem works_iff (hkeyed : ∀ call ∈ calls, call.Keyed) :
    Works calls ↔ ∀ before key entry (capacity : Int) now ttl,
      before ++ [.put key entry capacity now ttl] <+: calls →
        0 ≤ capacity ∧ ((run before).items key ≠ none → (run before).ll.length ≤ capacity) := by
  have hrun : ∀ before, before <+: calls → Consistent (run before) := fun before hbefore =>
    run_consistent (fun call hcall => hkeyed call (hbefore.subset hcall)) consistent_empty
  have hput : ∀ before key entry (capacity : Int) now ttl,
      before ++ [.put key entry capacity now ttl] <+: calls →
      (((run before).put key entry capacity now ttl).ll.length ≤ capacity ↔
        0 ≤ capacity ∧ ((run before).items key ≠ none → (run before).ll.length ≤ capacity)) :=
    fun before key entry capacity now ttl hbefore =>
      length_put_le_iff (hrun before ((List.prefix_append _ _).trans hbefore))
        (hkeyed (.put key entry capacity now ttl) (hbefore.subset (by simp)))
  constructor
  · intro h before key entry capacity now ttl hbefore
    exact (hput _ _ _ _ _ _ hbefore).1 (h.bounded _ _ _ _ _ _ hbefore)
  · intro h
    refine ⟨hrun, fun before key entry capacity now ttl hbefore =>
      (hput _ _ _ _ _ _ hbefore).2 (h _ _ _ _ _ _ hbefore), ?_, ?_⟩
    · intro before key now ttl e _ he
      exact Int.not_lt.1 (get_fresh he)
    · intro capacity hcap hspares
      rw [run, keys_run consistent_empty hkeyed hcap hspares (Nat.zero_le _),
        show (Cache.keys {}) = recent capacity.toNat [] from take_nil.symm,
        foldl_use_recent, List.append_nil]

def filled : List Call :=
  [.put "a" { key := "a" } 2 0 60, .put "b" { key := "b" } 2 0 60]

theorem works_filled : Works filled := by
  refine (works_iff (by simp [filled, Call.Keyed])).2 ?_
  intro before key entry capacity now ttl hbefore
  rcases before with _ | ⟨_, _ | ⟨_, before⟩⟩
  · simp only [filled, List.nil_append, List.cons_prefix_cons, Call.put.injEq] at hbefore
    obtain ⟨⟨rfl, rfl, rfl, rfl, rfl⟩, -⟩ := hbefore
    decide +kernel
  · simp only [filled, List.cons_append, List.nil_append, List.cons_prefix_cons,
      Call.put.injEq] at hbefore
    obtain ⟨rfl, ⟨rfl, rfl, rfl, rfl, rfl⟩, -⟩ := hbefore
    decide +kernel
  · simp [filled, List.cons_prefix_cons] at hbefore

/-- After the capacity went from 2 to 1 an overwritten entry leaves 2 there. -/
theorem not_works_lowered : ¬ Works (filled ++ [.put "a" { key := "a" } 1 0 60]) := fun h =>
  absurd (h.bounded filled _ _ _ _ _ (List.prefix_rfl)) (by decide +kernel)

end NewApi.ResponseCache.Lru
