/-
  NewApi.RequestBody.StorageSafety

  When a body storage is what `CreateBodyStorageFromReader` promises, and when the
  counter and the directory stay within the maximum over a run.
-/

import NewApi.RequestBody.Storage
import Mathlib.Algebra.Order.BigOperators.Group.List
import Mathlib.Algebra.Order.Ring.Nat

namespace NewApi.BodyStorage

open List (length_nil length_take map_cons mem_append mem_map mem_singleton nil_append sum_cons
  take_nil take_of_length_le)
open NewApi.Lib

/-! ## Creation -/

section Creation

variable {cfg : Config} {sorter : SortSlice} {now : Int} {s : Cache} {stream : Body}
  {contentLength maxBytes size : Int}

def Storage.content : Storage → Body
  | .memory data => data
  | .disk file size => file.data.take size.toNat

/-- What the result of a creation should be: an error for a stream that is longer than
    the maximum, else the stream, on disk if that is on and the stream reaches the
    threshold. -/
def Promised (cfg : Config) (stream : Body) (maxBytes : Int) (result : Except CreateErr Storage) :
    Prop :=
  if maxBytes < stream.length then result = .error .tooLarge
  else ∃ storage, result = .ok storage ∧ storage.content = stream ∧
    (storage.isDisk = true ↔ cfg.enabled = true ∧ cfg.threshold ≤ stream.length)

/-- The limit on the reader does not overflow, or there is nothing to read. -/
def LimitOk (stream : Body) (maxBytes : Int) : Prop := maxBytes < 2 ^ 63 - 1 ∨ stream = []

/-- When the creation is right: with a declared length at the threshold, a stream that
    reaches it too; without a declared length, one that is above the threshold, or below
    it and within the maximum. -/
def CreationOk (cfg : Config) (stream : Body) (contentLength maxBytes : Int) : Prop :=
  if cfg.enabled ∧ 0 < contentLength ∧ cfg.threshold ≤ contentLength then
    LimitOk stream maxBytes ∧ (maxBytes < stream.length ∨ cfg.threshold ≤ stream.length)
  else if cfg.enabled ∧ contentLength ≤ 0 then
    if 0 ≤ cfg.threshold ∧ (stream.length : Int) ≤ cfg.threshold then
      (stream.length : Int) ≤ maxBytes ∧ (stream.length : Int) < cfg.threshold
    else 0 ≤ cfg.threshold ∨ LimitOk stream maxBytes
  else LimitOk stream maxBytes

theorem threshold_lt (cfg : Config) : cfg.threshold < 2 ^ 63 - 1 := by
  unfold Config.threshold wrap64
  omega

theorem limitReader_max (hlo : -2 ^ 63 ≤ maxBytes) (hok : LimitOk stream maxBytes)
    (hhi : maxBytes < 2 ^ 63) :
    (maxBytes < (limitReader stream (wrap64 (maxBytes + 1))).length ↔ maxBytes < stream.length) ∧
      (¬maxBytes < stream.length → limitReader stream (wrap64 (maxBytes + 1)) = stream) := by
  unfold limitReader
  rcases hok with hmax | rfl
  · rw [wrap64_of_range (by omega) (by omega)]
    refine ⟨?_, fun hle => take_of_length_le (by omega)⟩
    rw [length_take]
    omega
  · rw [take_nil]
    exact ⟨Iff.rfl, fun _ => rfl⟩

theorem limitReader_overflow (hmax : ¬maxBytes < 2 ^ 63 - 1) (hhi : maxBytes < 2 ^ 63) :
    limitReader stream (wrap64 (maxBytes + 1)) = [] := by
  have hwrap : wrap64 (maxBytes + 1) = -2 ^ 63 := by
    rw [wrap64_of_over (by omega) (by omega)]
    omega
  unfold limitReader
  rw [hwrap]
  rfl

theorem promised_tooLarge_iff :
    Promised cfg stream maxBytes (.error .tooLarge) ↔ maxBytes < stream.length := by
  unfold Promised
  split
  · rename_i h
    exact ⟨fun _ => h, fun _ => rfl⟩
  · rename_i h
    exact ⟨fun ⟨_, hst, _⟩ => (by cases hst), fun h' => absurd h' h⟩

theorem promised_ok_iff (storage : Storage) :
    Promised cfg stream maxBytes (.ok storage) ↔ ¬maxBytes < stream.length ∧
      storage.content = stream ∧
      (storage.isDisk = true ↔ cfg.enabled = true ∧ cfg.threshold ≤ stream.length) := by
  unfold Promised
  split
  · rename_i h
    exact ⟨fun h' => (by cases h'), fun h' => absurd h h'.1⟩
  rename_i h
  constructor
  · rintro ⟨st, hst, hrest⟩
    cases hst
    exact ⟨h, hrest⟩
  · rintro ⟨-, hrest⟩
    exact ⟨storage, rfl, hrest⟩

theorem content_newDiskStorage (now : Int) (s : Cache) (data : Body) :
    (newDiskStorage now s data).1.content = data ∧ (newDiskStorage now s data).1.isDisk = true :=
  ⟨List.take_length, rfl⟩

theorem promised_limited_iff (hlo : -2 ^ 63 ≤ maxBytes) (hhi : maxBytes < 2 ^ 63)
    {result : Except CreateErr Storage}
    (hlarge : maxBytes < (limitReader stream (wrap64 (maxBytes + 1))).length →
      result = .error .tooLarge)
    (storage : Storage) (hsmall : ¬maxBytes < (limitReader stream (wrap64 (maxBytes + 1))).length →
      result = .ok storage)
    (hcontent : storage.content = limitReader stream (wrap64 (maxBytes + 1))) :
    Promised cfg stream maxBytes result ↔ LimitOk stream maxBytes ∧ (maxBytes < stream.length ∨
      (storage.isDisk = true ↔ cfg.enabled = true ∧ cfg.threshold ≤ stream.length)) := by
  by_cases hok : LimitOk stream maxBytes
  · obtain ⟨hiff, hsame⟩ := limitReader_max hlo hok hhi
    by_cases hlt : maxBytes < stream.length
    · rw [hlarge (hiff.2 hlt), promised_tooLarge_iff]
      exact ⟨fun _ => ⟨hok, .inl hlt⟩, fun _ => hlt⟩
    · rw [hsmall (fun h => hlt (hiff.1 h)), promised_ok_iff, hcontent, hsame hlt]
      exact ⟨fun h => ⟨hok, .inr h.2.2⟩, fun h => ⟨hlt, rfl, h.2.resolve_left hlt⟩⟩
  have hmax : ¬maxBytes < 2 ^ 63 - 1 := fun h => hok (.inl h)
  have hread : limitReader stream (wrap64 (maxBytes + 1)) = [] := limitReader_overflow hmax hhi
  have hlt : ¬maxBytes < (limitReader stream (wrap64 (maxBytes + 1))).length := by
    rw [hread, length_nil]
    omega
  rw [hsmall hlt, promised_ok_iff, hcontent, hread]
  exact ⟨fun h => absurd (.inr h.2.1.symm) hok, fun h => absurd h.1 hok⟩

/-- There is room for the bytes, if the disk is on: as they fit, or after an eviction. -/
def Room (cfg : Config) (sorter : SortSlice) (now : Int) (s : Cache) (size : Int) : Prop :=
  cfg.enabled = true → ∀ requestSize ≤ size,
    (ensureDiskCacheSpace cfg sorter now s requestSize).1 = true

theorem Room.ensure (h : Room cfg sorter now s size) (hen : cfg.enabled = true) {req : Int}
    (hreq : req ≤ size) : ∃ s', ensureDiskCacheSpace cfg sorter now s req = (true, s') :=
  ⟨_, Prod.ext (h hen req hreq) rfl⟩

theorem spill_read {threshold : Int} (h0 : 0 ≤ threshold) (hlt : threshold < 2 ^ 63 - 1)
    (hlong : threshold < stream.length) (hlo : -2 ^ 63 ≤ maxBytes) (hhi : maxBytes < 2 ^ 63)
    {pre : Body} (hpre : pre = limitReader stream (wrap64 (threshold + 1))) {read : Body}
    (hread : read = pre ++ limitReader (stream.drop pre.length)
      (wrap64 (wrap64 (maxBytes - pre.length) + 1))) :
    ¬(pre.length : Int) ≤ threshold ∧ (maxBytes < read.length ↔ maxBytes < stream.length) ∧
      (¬maxBytes < stream.length → read = stream) := by
  have hprelen : pre.length = threshold.toNat + 1 := by
    unfold limitReader at hpre
    rw [wrap64_of_range (by omega) (by omega)] at hpre
    rw [hpre, length_take]
    omega
  have htake : pre = stream.take pre.length := by
    rw [hprelen, hpre]
    unfold limitReader
    rw [wrap64_of_range (by omega) (by omega)]
    congr 1
    omega
  have hlen : pre.length ≤ read.length := by
    rw [hread, List.length_append]
    omega
  refine ⟨by omega, ?_, fun hle => ?_⟩
  · by_cases hunder : maxBytes < 0
    · constructor <;> omega
    rw [wrap64_of_range (n := maxBytes - pre.length) (by omega) (by omega),
      wrap64_of_range (n := maxBytes - pre.length + 1) (by omega) (by omega)] at hread
    rw [hread, List.length_append]
    unfold limitReader
    rw [length_take, List.length_drop]
    omega
  rw [wrap64_of_range (n := maxBytes - pre.length) (by omega) (by omega),
    wrap64_of_range (n := maxBytes - pre.length + 1) (by omega) (by omega)] at hread
  unfold limitReader at hread
  rw [take_of_length_le (by rw [List.length_drop]; omega)] at hread
  rw [hread]
  conv_lhs => rw [htake]
  rw [length_take, min_eq_left (by omega)]
  exact List.take_append_drop _ _

theorem createBodyStorage_ok {data : Body} (hroom : Room cfg sorter now s size)
    (hlen : (data.length : Int) ≤ size) :
    ∃ storage, (createBodyStorage cfg sorter now s data).1 = .ok storage ∧ storage.content = data ∧
      (storage.isDisk = true ↔ cfg.enabled = true ∧ cfg.threshold ≤ data.length) := by
  unfold createBodyStorage
  by_cases hdisk : cfg.enabled ∧ cfg.threshold ≤ data.length
  · obtain ⟨s', hens⟩ := hroom.ensure hdisk.1 hlen
    have hnew := content_newDiskStorage now s' data
    rw [if_pos hdisk, hens]
    exact ⟨_, rfl, hnew.1, fun _ => hdisk, fun _ => hnew.2⟩
  · rw [if_neg hdisk]
    exact ⟨_, rfl, rfl, fun h => (by cases h), fun h => absurd h hdisk⟩

theorem spill_read_empty (h0 : ¬0 ≤ cfg.threshold) (hlo : -2 ^ 63 ≤ maxBytes)
    (hhi : maxBytes < 2 ^ 63) : limitReader stream (wrap64 (cfg.threshold + 1)) = [] ∧
      limitReader (stream.drop ([] : Body).length)
        (wrap64 (wrap64 (maxBytes - ([] : Body).length) + 1)) =
        limitReader stream (wrap64 (maxBytes + 1)) := by
  have hlow := (wrap64_range (cfg.thresholdMB * 2 ^ 20)).1
  constructor
  · unfold limitReader
    rw [wrap64_of_range (by unfold Config.threshold; omega) (by omega)]
    rw [show (cfg.threshold + 1).toNat = 0 by omega]
    rfl
  rw [length_nil, List.drop_zero,
    wrap64_of_range (n := maxBytes - ((0 : Nat) : Int)) (by omega) (by omega)]
  congr 2
  omega

/-- **A creation with room is right exactly under `CreationOk`.** -/
theorem createBodyStorageFromReader_promised_iff (hlo : -2 ^ 63 ≤ maxBytes)
    (hhi : maxBytes < 2 ^ 63) (hroom : Room cfg sorter now s (max contentLength stream.length)) :
    Promised cfg stream maxBytes
        (createBodyStorageFromReader cfg sorter now s stream contentLength maxBytes).1 ↔
      CreationOk cfg stream contentLength maxBytes := by
  have hT := threshold_lt cfg
  unfold createBodyStorageFromReader CreationOk
  dsimp only
  by_cases hdecl : cfg.enabled ∧ 0 < contentLength ∧ cfg.threshold ≤ contentLength
  · -- the declared length decides for the disk
    rw [if_pos hdecl, if_pos hdecl]
    obtain ⟨s', hens⟩ := hroom.ensure hdecl.1 (le_max_left contentLength stream.length)
    rw [hens]
    dsimp only
    unfold newDiskStorageFromReader
    dsimp only
    have hnew := content_newDiskStorage now s' (limitReader stream (wrap64 (maxBytes + 1)))
    refine (promised_limited_iff hlo hhi (fun h => by rw [if_pos h])
      (newDiskStorage now s' (limitReader stream (wrap64 (maxBytes + 1)))).1
      (fun h => by rw [if_neg h]) hnew.1).trans (and_congr_right fun _ => or_congr_right ?_)
    exact ⟨fun h => (h.1 hnew.2).2, fun h => ⟨fun _ => ⟨hdecl.1, h⟩, fun _ => hnew.2⟩⟩
  rw [if_neg hdecl, if_neg hdecl]
  by_cases hspill : cfg.enabled ∧ contentLength ≤ 0
  · -- no length is declared
    rw [if_pos hspill, if_pos hspill]
    unfold createBodyStorageSpill
    dsimp only
    by_cases h0 : 0 ≤ cfg.threshold
    · by_cases hlong : cfg.threshold < stream.length
      · obtain ⟨hpre, hiff, hsame⟩ := spill_read h0 hT hlong hlo hhi rfl rfl
        have hlen : ((limitReader stream (wrap64 (cfg.threshold + 1))).length : Int) ≤
            max contentLength stream.length := by
          refine le_trans ?_ (le_max_right _ _)
          unfold limitReader
          rw [length_take]
          omega
        obtain ⟨s', hens⟩ := hroom.ensure hspill.1 hlen
        rw [if_neg hpre, hens, if_neg (fun h => by omega)]
        dsimp only
        refine iff_of_true ?_ (.inl h0)
        by_cases hlt : maxBytes < stream.length
        · rw [if_pos (hiff.2 hlt), promised_tooLarge_iff]
          exact hlt
        rw [if_neg (fun h => hlt (hiff.1 h)), promised_ok_iff]
        have hnew := content_newDiskStorage now s' stream
        rw [hsame hlt]
        exact ⟨hlt, hnew.1, fun _ => ⟨hspill.1, by omega⟩, fun _ => hnew.2⟩
      -- the whole stream is the prefix, and the maximum is not looked at
      have hpre : limitReader stream (wrap64 (cfg.threshold + 1)) = stream := by
        unfold limitReader
        rw [wrap64_of_range (by omega) (by omega)]
        exact take_of_length_le (by omega)
      rw [hpre, if_pos (by omega), if_pos ⟨h0, by omega⟩, promised_ok_iff]
      constructor
      · rintro ⟨hle, -, hdisk⟩
        refine ⟨by omega, ?_⟩
        by_contra hge
        exact Bool.false_ne_true (hdisk.2 ⟨hspill.1, by omega⟩)
      · rintro ⟨hle, hlt⟩
        exact ⟨by omega, rfl, fun h => (by cases h), fun h => absurd h.2 (by omega)⟩
    -- a negative threshold: the prefix is empty, and everything goes to the disk
    obtain ⟨hpre, hrest⟩ := spill_read_empty h0 hlo hhi
    have hlen : (([] : Body).length : Int) ≤ max contentLength stream.length :=
      le_trans (by exact Int.natCast_nonneg stream.length) (le_max_right _ _)
    obtain ⟨s', hens⟩ := hroom.ensure hspill.1 hlen
    rw [hpre, if_neg (by rw [length_nil]; omega), hens, if_neg (fun h => h0 h.1)]
    dsimp only
    rw [hrest, nil_append]
    have hnew := content_newDiskStorage now s' (limitReader stream (wrap64 (maxBytes + 1)))
    refine (promised_limited_iff hlo hhi (fun h => by rw [if_pos h])
      (newDiskStorage now s' (limitReader stream (wrap64 (maxBytes + 1)))).1
      (fun h => by rw [if_neg h]) hnew.1).trans ?_
    constructor
    · exact fun h => .inr h.1
    rintro (h | h)
    · exact absurd h h0
    · exact ⟨h, .inr ⟨fun _ => ⟨hspill.1, by omega⟩, fun _ => hnew.2⟩⟩
  rw [if_neg hspill, if_neg hspill]
  have hlen : ((limitReader stream (wrap64 (maxBytes + 1))).length : Int) ≤
      max contentLength stream.length := by
    refine le_trans ?_ (le_max_right _ _)
    unfold limitReader
    rw [length_take]
    omega
  obtain ⟨storage, hok, hcontent, hdisk⟩ := createBodyStorage_ok hroom hlen
  refine (promised_limited_iff hlo hhi (fun h => by rw [if_pos h]) storage
    (fun h => by rw [if_neg h]; exact hok) hcontent).trans ⟨fun h => h.1, fun h => ⟨h, ?_⟩⟩
  by_cases hlt : maxBytes < stream.length
  · exact .inl hlt
  · rw [(limitReader_max hlo h hhi).2 hlt] at hdisk
    exact .inr hdisk

end Creation

/-! ## Files and storages -/

section Files

variable {cfg : Config} {sorter : SortSlice} {s s' : Cache}

/-- Files were removed, and nothing else. -/
structure Removed (s s' : Cache) : Prop where
  dir : s'.dir.Sublist s.dir
  opened : s'.opened = s.opened
  names : s'.names = s.names

theorem Removed.refl (s : Cache) : Removed s s := ⟨List.Sublist.refl _, rfl, rfl⟩

theorem removed_evictLoop (maxBytes reserve olderThan now : Int) (fs : List File) (total : Int)
    (s : Cache) : Removed s (evictLoop maxBytes reserve olderThan now fs total s) := by
  induction fs generalizing s total with
  | nil => exact .refl s
  | cons f fs ih =>
    unfold evictLoop
    split
    · exact .refl s
    split
    · exact .refl s
    obtain ⟨hdir, hopened, hnames⟩ := ih (wrap64 (total - f.size))
      { s with dir := remove s.dir f.name, usage := decrementDiskFiles s.usage f.size }
    exact ⟨hdir.trans List.filter_sublist, hopened, hnames⟩

theorem removed_enforce (cfg : Config) (sorter : SortSlice) (now olderThan reserve : Int)
    (s : Cache) : Removed s (enforceDiskCacheCapacity cfg sorter now olderThan reserve s) := by
  unfold enforceDiskCacheCapacity
  split
  · exact .refl s
  split
  · exact .refl s
  · exact removed_evictLoop _ _ _ _ _ _ s

theorem removed_ensure {now req : Int} {b : Bool}
    (hok : ensureDiskCacheSpace cfg sorter now s req = (b, s')) : Removed s s' := by
  obtain rfl : (ensureDiskCacheSpace cfg sorter now s req).2 = s' := congrArg Prod.snd hok
  unfold ensureDiskCacheSpace
  split
  · exact .refl s
  split
  · exact .refl s
  split
  · exact .refl s
  · exact removed_enforce _ _ _ _ _ s

def written (now : Int) (s : Cache) (data stream : Body) : Cache :=
  { (newDiskStorage now s data).2 with
    opened := (newDiskStorage now s data).2.opened ++
      [{ storage := (newDiskStorage now s data).1, stream }] }

def handOut (out : Except CreateErr Storage × Cache) (stream : Body) : Cache :=
  match out.1 with
  | .ok storage => { out.2 with opened := out.2.opened ++ [{ storage, stream }] }
  | .error _ => out.2

theorem step_create (now : Int) (stream : Body) (contentLength maxBytes : Int) :
    step cfg sorter s (.create now stream contentLength maxBytes) =
      handOut (createBodyStorageFromReader cfg sorter now s stream contentLength maxBytes)
        stream := by
  unfold step handOut
  dsimp only
  rcases createBodyStorageFromReader cfg sorter now s stream contentLength maxBytes with ⟨res, s'⟩
  cases res <;> rfl

/-- Names are handed out in order, and a file that is there is the one that its
    storage has open. -/
structure Owned (s : Cache) : Prop where
  fresh : ∀ f ∈ s.dir, f.name < s.names
  owned : ∀ o ∈ s.opened, ∀ file size, o.storage = .disk file size →
    size = file.data.length ∧ file.name < s.names ∧ ∀ f ∈ s.dir, f.name = file.name → f = file

theorem Owned.removed (h : Owned s) (he : Removed s s') : Owned s' where
  fresh f hf := he.names ▸ h.fresh f (he.dir.subset hf)
  owned o ho file size hst := by
    obtain ⟨hsize, hname, hfile⟩ := h.owned o (he.opened ▸ ho) file size hst
    exact ⟨hsize, he.names ▸ hname, fun f hf => hfile f (he.dir.subset hf)⟩

theorem Owned.discard (h : Owned s) : Owned (discard s) where
  fresh f hf := Nat.lt_succ_of_lt (h.fresh f hf)
  owned o ho file size hst := by
    obtain ⟨hsize, hname, hfile⟩ := h.owned o ho file size hst
    exact ⟨hsize, Nat.lt_succ_of_lt hname, hfile⟩

theorem Owned.keep (h : Owned s) (data stream : Body) :
    Owned { s with opened := s.opened ++ [{ storage := .memory data, stream }] } where
  fresh := h.fresh
  owned o ho file size hst := by
    rcases mem_append.1 ho with ho | ho
    · exact h.owned o ho file size hst
    · rw [mem_singleton.1 ho] at hst
      cases hst

theorem Owned.write (h : Owned s) (now : Int) (data stream : Body) :
    Owned (written now s data stream) := by
  constructor
  · intro f hf
    rcases mem_append.1 hf with hf | hf
    · exact Nat.lt_succ_of_lt (h.fresh f hf)
    · rw [mem_singleton.1 hf]
      exact Nat.lt_succ_self _
  intro o ho file size hst
  rcases mem_append.1 ho with ho | ho
  · obtain ⟨hsize, hname, hfile⟩ := h.owned o ho file size hst
    refine ⟨hsize, Nat.lt_succ_of_lt hname, fun f hf hfn => ?_⟩
    rcases mem_append.1 hf with hf | hf
    · exact hfile f hf hfn
    · rw [mem_singleton.1 hf] at hfn
      exact absurd hfn.symm (Nat.ne_of_lt hname)
  rw [mem_singleton.1 ho] at hst
  cases hst
  refine ⟨rfl, Nat.lt_succ_self _, fun f hf hfn => ?_⟩
  rcases mem_append.1 hf with hf | hf
  · exact absurd hfn (Nat.ne_of_lt (h.fresh f hf))
  · exact mem_singleton.1 hf

theorem Owned.setClosed (h : Owned s) {i : Nat} {o : Opened} (ho : s.opened[i]? = some o)
    {dir : List File} (hdir : dir.Sublist s.dir) (usage : Int) :
    Owned { s with opened := s.opened.set i { o with closed := true }, dir, usage } where
  fresh f hf := h.fresh f (hdir.subset hf)
  owned o' ho' file size hst := by
    rcases List.mem_or_eq_of_mem_set ho' with hold | rfl
    · obtain ⟨hsize, hname, hfile⟩ := h.owned o' hold file size hst
      exact ⟨hsize, hname, fun f hf => hfile f (hdir.subset hf)⟩
    · obtain ⟨hsize, hname, hfile⟩ := h.owned o (List.mem_of_getElem? ho) file size hst
      exact ⟨hsize, hname, fun f hf => hfile f (hdir.subset hf)⟩

/-- The reader's limit does not overflow: without a declared length the prefix is within
    the threshold, else the limit is the maximum and one. -/
def ReadOk (cfg : Config) (stream : Body) (contentLength maxBytes : Int) : Prop :=
  (cfg.enabled = true ∧ contentLength ≤ 0 ∧ 0 ≤ cfg.threshold) ∨ LimitOk stream maxBytes

/-- What a creation leaves: files removed, a body in memory, or a new file, which hold
    the stream where the reader's limit does not overflow. -/
inductive Created (s : Cache) (stream : Body) (ok : Prop) : Cache → Prop where
  | refused {s' : Cache} (hr : Removed s s') : Created s stream ok s'
  | discarded {s' : Cache} (hr : Removed s s') : Created s stream ok (discard s')
  | kept {s' : Cache} (data : Body) (hr : Removed s s') (hdata : ok → data = stream) :
      Created s stream ok { s' with opened := s'.opened ++ [{ storage := .memory data, stream }] }
  | wrote {s' : Cache} (now : Int) (data : Body) (hr : Removed s s') (hdata : ok → data = stream) :
      Created s stream ok (written now s' data stream)

theorem created_createBodyStorage (now : Int) (s : Cache) {data stream : Body} {ok : Prop}
    (hdata : ok → data = stream) :
    Created s stream ok (handOut (createBodyStorage cfg sorter now s data) stream) := by
  unfold createBodyStorage
  by_cases hdisk : cfg.enabled ∧ cfg.threshold ≤ data.length
  · rw [if_pos hdisk]
    rcases hens : ensureDiskCacheSpace cfg sorter now s data.length with ⟨b, s'⟩
    cases b with
    | false => exact .refused (removed_ensure hens)
    | true => exact .wrote now data (removed_ensure hens) hdata
  · rw [if_neg hdisk]
    exact .kept data (.refl s) hdata

theorem created (now : Int) (s : Cache) {stream : Body} {contentLength maxBytes : Int}
    (hlo : -2 ^ 63 ≤ maxBytes) (hhi : maxBytes < 2 ^ 63) :
    Created s stream (ReadOk cfg stream contentLength maxBytes)
      (handOut (createBodyStorageFromReader cfg sorter now s stream contentLength maxBytes)
        stream) := by
  have hT := threshold_lt cfg
  have hlow := (wrap64_range (cfg.thresholdMB * 2 ^ 20)).1
  unfold createBodyStorageFromReader
  dsimp only
  by_cases hdecl : cfg.enabled ∧ 0 < contentLength ∧ cfg.threshold ≤ contentLength
  · rw [if_pos hdecl]
    rcases hens : ensureDiskCacheSpace cfg sorter now s contentLength with ⟨b, s'⟩
    have hr := removed_ensure hens
    cases b with
    | false => exact .refused hr
    | true =>
      dsimp only
      unfold newDiskStorageFromReader
      dsimp only
      by_cases hlarge : maxBytes < (limitReader stream (wrap64 (maxBytes + 1))).length
      · rw [if_pos hlarge]
        exact .discarded hr
      rw [if_neg hlarge]
      refine .wrote now _ hr fun hok => ?_
      rcases hok with ⟨-, hd, -⟩ | hok
      · exact absurd hdecl.2.1 (by omega)
      · obtain ⟨hiff, hsame⟩ := limitReader_max hlo hok hhi
        exact hsame fun hlt => hlarge (hiff.2 hlt)
  rw [if_neg hdecl]
  by_cases hspill : cfg.enabled ∧ contentLength ≤ 0
  · rw [if_pos hspill]
    unfold createBodyStorageSpill
    dsimp only
    have hprelen : (limitReader stream (wrap64 (cfg.threshold + 1))).length =
        min (cfg.threshold + 1).toNat stream.length := by
      unfold limitReader
      rw [wrap64_of_range (by unfold Config.threshold; omega) (by omega), length_take]
    by_cases hsmall : ((limitReader stream (wrap64 (cfg.threshold + 1))).length : Int) ≤
        cfg.threshold
    · rw [if_pos hsmall]
      refine .kept _ (.refl s) fun _ => ?_
      unfold limitReader
      rw [wrap64_of_range (by unfold Config.threshold; omega) (by omega)]
      exact take_of_length_le (by omega)
    rw [if_neg hsmall]
    rcases hens : ensureDiskCacheSpace cfg sorter now s
      (limitReader stream (wrap64 (cfg.threshold + 1))).length with ⟨b, s'⟩
    have hr := removed_ensure hens
    cases b with
    | false => exact .refused hr
    | true =>
      dsimp only
      split
      · exact .discarded hr
      rename_i hlarge
      refine .wrote now _ hr fun hok => ?_
      by_cases h0 : 0 ≤ cfg.threshold
      · have hlong : cfg.threshold < stream.length := by omega
        obtain ⟨-, hiff, hsame⟩ := spill_read h0 hT hlong hlo hhi rfl rfl
        exact hsame fun hlt => hlarge (hiff.2 hlt)
      obtain ⟨hpre, hrest⟩ := spill_read_empty h0 hlo hhi
      rw [hpre, hrest, nil_append] at hlarge ⊢
      rcases hok with ⟨-, -, hpos⟩ | hok
      · exact absurd hpos h0
      · obtain ⟨hiff, hsame⟩ := limitReader_max hlo hok hhi
        exact hsame fun hlt => hlarge (hiff.2 hlt)
  rw [if_neg hspill]
  by_cases hlarge : maxBytes < (limitReader stream (wrap64 (maxBytes + 1))).length
  · rw [if_pos hlarge]
    exact .refused (.refl s)
  rw [if_neg hlarge]
  refine created_createBodyStorage now s fun hok => ?_
  rcases hok with ⟨hen, hd, -⟩ | hok
  · exact absurd ⟨hen, hd⟩ hspill
  · obtain ⟨hiff, hsame⟩ := limitReader_max hlo hok hhi
    exact hsame fun hlt => hlarge (hiff.2 hlt)

end Files

/-! ## Counting -/

section Counting

variable {cfg : Config} {sorter : SortSlice} {s s' : Cache}

/-- The counter is the bytes present, and no name is there twice. -/
structure Counted (s : Cache) : Prop where
  usage : s.usage = bytes s.dir
  range : s.usage < 2 ^ 63
  names : (s.dir.map File.name).Nodup

/-- Files were removed, and counted off. -/
structure Evicted (s s' : Cache) : Prop where
  counted : Counted s'
  dir : s'.dir.Sublist s.dir
  usage : s'.usage ≤ s.usage
  opened : s'.opened = s.opened
  names : s'.names = s.names

theorem Evicted.refl (h : Counted s) : Evicted s s := ⟨h, List.Sublist.refl _, le_refl _, rfl, rfl⟩

theorem Evicted.trans {s'' : Cache} (h : Evicted s s') (h' : Evicted s' s'') : Evicted s s'' :=
  ⟨h'.counted, h'.dir.trans h.dir, h'.usage.trans h.usage, h'.opened.trans h.opened,
    h'.names.trans h.names⟩

theorem bytes_append (dir dir' : List File) : bytes (dir ++ dir') = bytes dir + bytes dir' := by
  unfold bytes
  rw [List.map_append, List.sum_append]

theorem bytes_remove {dir : List File} (hn : (dir.map File.name).Nodup) {f : File} (hf : f ∈ dir) :
    bytes dir = f.size + bytes (remove dir f.name) := by
  induction dir with
  | nil => cases hf
  | cons g dir ih =>
    obtain ⟨hg, hdir⟩ := List.nodup_cons.1 hn
    rcases List.mem_cons.1 hf with rfl | hf
    · have hrest : remove dir f.name = dir := by
        refine List.filter_eq_self.2 fun g' hg' => decide_eq_true fun hname => hg ?_
        exact mem_map.2 ⟨g', hg', hname⟩
      unfold remove at hrest ⊢
      rw [List.filter_cons_of_neg (by simp), hrest]
      exact sum_cons
    have hne : g.name ≠ f.name := fun hname => hg (mem_map.2 ⟨f, hf, hname.symm⟩)
    have hrec := ih hdir hf
    unfold remove bytes at hrec ⊢
    rw [List.filter_cons_of_pos (by simpa using hne), map_cons, sum_cons, hrec,
      map_cons, sum_cons]
    omega

theorem Counted.remove (h : Counted s) {f : File} (hf : f ∈ s.dir) : Evicted s
      { s with dir := remove s.dir f.name, usage := decrementDiskFiles s.usage f.size } := by
  have hbytes := bytes_remove h.names hf
  have husage := h.usage
  have hrange := h.range
  have hdec : decrementDiskFiles s.usage f.size = bytes (BodyStorage.remove s.dir f.name) := by
    unfold decrementDiskFiles
    dsimp only
    rw [wrap64_of_range (by omega) (by omega), if_neg (by omega)]
    omega
  have hdir : (BodyStorage.remove s.dir f.name).Sublist s.dir := List.filter_sublist
  refine ⟨⟨hdec, ?_, h.names.sublist (hdir.map File.name)⟩, hdir, ?_, rfl, rfl⟩
  · show decrementDiskFiles s.usage f.size < 2 ^ 63
    omega
  · show decrementDiskFiles s.usage f.size ≤ s.usage
    omega

theorem evicted_evictLoop (maxBytes reserve olderThan now : Int) {fs : List File} (total : Int)
    (h : Counted s) (hfs : ∀ f ∈ fs, f ∈ s.dir) (hn : (fs.map File.name).Nodup) :
    Evicted s (evictLoop maxBytes reserve olderThan now fs total s) := by
  induction fs generalizing s total with
  | nil => exact .refl h
  | cons f fs ih =>
    obtain ⟨hf, hrest⟩ := List.nodup_cons.1 hn
    unfold evictLoop
    split
    · exact .refl h
    split
    · exact .refl h
    have hremoved := h.remove (hfs f List.mem_cons_self)
    refine hremoved.trans (ih _ hremoved.counted (fun g hg => ?_) hrest)
    have hmem := hfs g (List.mem_cons_of_mem _ hg)
    refine List.mem_filter.2 ⟨hmem, decide_eq_true fun hname => hf ?_⟩
    exact mem_map.2 ⟨g, hg, hname⟩

theorem evicted_enforce (now olderThan reserve : Int) (h : Counted s) :
    Evicted s (enforceDiskCacheCapacity cfg sorter now olderThan reserve s) := by
  unfold enforceDiskCacheCapacity
  split
  · exact .refl h
  split
  · exact .refl h
  have hperm := sorter.perm s.dir
  refine evicted_evictLoop _ _ _ _ _ h (fun f hf => hperm.mem_iff.1 hf) ?_
  exact (hperm.map File.name).nodup_iff.2 h.names

theorem evicted_ensure (cfg : Config) (sorter : SortSlice) (now req : Int) (h : Counted s) :
    Evicted s (ensureDiskCacheSpace cfg sorter now s req).2 := by
  unfold ensureDiskCacheSpace
  split
  · exact .refl h
  split
  · exact .refl h
  split
  · exact .refl h
  · exact evicted_enforce _ _ _ h

theorem ensure_fits {now req : Int} (h : Counted s) (hreq : 0 ≤ req) (hsum : s.usage + req < 2 ^ 63)
    (hok : ensureDiskCacheSpace cfg sorter now s req = (true, s')) (hmax : 0 < cfg.maxSize) :
    s'.usage + req ≤ cfg.maxSize := by
  have hevicted : Evicted s s' := by
    have hens := evicted_ensure cfg sorter now req h
    rw [hok] at hens
    exact hens
  have hpos : 0 ≤ s'.usage := by
    rw [hevicted.counted.usage]
    omega
  have husage := hevicted.usage
  unfold ensureDiskCacheSpace at hok
  split at hok
  · cases hok
  split at hok
  · rename_i hle
    omega
  split at hok
  · rename_i hfits
    cases hok
    rw [wrap64_of_range (by omega) (by omega)] at hfits
    exact hfits
  have hs' : enforceDiskCacheCapacity cfg sorter now diskCacheEvictionSafeWindow req s = s' :=
    congrArg Prod.snd hok
  have havail := congrArg Prod.fst hok
  dsimp only at havail
  rw [hs'] at havail
  unfold isDiskCacheAvailable at havail
  split at havail
  · cases havail
  have hfits := of_decide_eq_true havail
  rw [wrap64_of_range (by omega) (by omega)] at hfits
  exact hfits

/-- The counter is the bytes present, and they are within the maximum if there is one. -/
structure Accounted (cfg : Config) (s : Cache) : Prop where
  counted : Counted s
  bounded : 0 < cfg.maxSize → s.usage ≤ cfg.maxSize
  owned : Owned s

def Storage.present (dir : List File) : Storage → Bool
  | .memory _ => true
  | .disk file _ => file ∈ dir

/-- What is written is covered by what was reserved for it, or fits without an eviction,
    where numbers are 64-bit and the sums do not overflow; and a storage that is closed still
    has its file in the directory. -/
def Covered (cfg : Config) (s : Cache) : Act → Prop
  | .create _ stream contentLength maxBytes => cfg.enabled = true →
      -2 ^ 63 ≤ maxBytes ∧ maxBytes < 2 ^ 63 ∧
      s.usage + max contentLength stream.length < 2 ^ 63 ∧
      (0 < cfg.maxSize → cfg.maxSize < s.usage + stream.length →
        (0 < contentLength → cfg.threshold ≤ contentLength →
          maxBytes < stream.length ∨ (stream.length : Int) ≤ contentLength) ∧
        (contentLength ≤ 0 → maxBytes < stream.length ∨
          (stream.length : Int) ≤ max 0 (cfg.threshold + 1)))
  | .close i => ∀ o, s.opened[i]? = some o → o.closed = false → o.storage.present s.dir = true
  | .evict _ _ _ => True

section
variable (h : Accounted cfg s)
include h

theorem Accounted.evict (he : Evicted s s') : Accounted cfg s' where
  counted := he.counted
  bounded hmax := he.usage.trans (h.bounded hmax)
  owned := h.owned.removed ⟨he.dir, he.opened, he.names⟩

theorem Accounted.discard : Accounted cfg (discard s) where
  counted := ⟨h.counted.usage, h.counted.range, h.counted.names⟩
  bounded := h.bounded
  owned := h.owned.discard

theorem Accounted.keep (data stream : Body) :
    Accounted cfg { s with opened := s.opened ++ [{ storage := .memory data, stream }] } where
  counted := ⟨h.counted.usage, h.counted.range, h.counted.names⟩
  bounded := h.bounded
  owned := h.owned.keep data stream

theorem Accounted.write (now : Int) (data stream : Body) (hsum : s.usage + data.length < 2 ^ 63)
    (hfits : 0 < cfg.maxSize → s.usage + data.length ≤ cfg.maxSize) :
    Accounted cfg (written now s data stream) := by
  have husage := h.counted.usage
  have hnew : wrap64 (s.usage + data.length) = s.usage + data.length :=
    wrap64_of_range (by omega) hsum
  refine ⟨⟨?_, ?_, ?_⟩, fun hmax => hnew.trans_le (hfits hmax), h.owned.write now data stream⟩
  · show wrap64 (s.usage + data.length) = bytes (s.dir ++ [_])
    rw [hnew, bytes_append, husage]
    rfl
  · show wrap64 (s.usage + data.length) < 2 ^ 63
    omega
  show ((s.dir ++ [_]).map File.name).Nodup
  rw [List.map_append, List.nodup_append]
  refine ⟨h.counted.names, List.nodup_singleton _, ?_⟩
  rintro n hn m hm rfl
  obtain ⟨f, hf, rfl⟩ := mem_map.1 hn
  exact absurd (mem_singleton.1 hm) (Nat.ne_of_lt (h.owned.fresh f hf))

theorem Accounted.granted {now req : Int}
    (hok : ensureDiskCacheSpace cfg sorter now s req = (true, s')) {data : Body} (hreq : 0 ≤ req)
    (hsum : s.usage + req < 2 ^ 63) (hwrite : s.usage + data.length < 2 ^ 63)
    (hdata : 0 < cfg.maxSize → cfg.maxSize < s.usage + data.length → (data.length : Int) ≤ req)
    (stream : Body) : Accounted cfg (written now s' data stream) := by
  have he : Evicted s s' := by
    have hens := evicted_ensure cfg sorter now req h.counted
    rw [hok] at hens
    exact hens
  have husage := he.usage
  refine (h.evict he).write now data stream (by omega) fun hmax => ?_
  by_cases hroom : cfg.maxSize < s.usage + data.length
  · have hfits := ensure_fits h.counted hreq hsum hok hmax
    have hle := hdata hmax hroom
    omega
  · omega

theorem Accounted.ensured {now req : Int} {b : Bool}
    (hok : ensureDiskCacheSpace cfg sorter now s req = (b, s')) : Accounted cfg s' := by
  have hens := evicted_ensure cfg sorter now req h.counted
  rw [hok] at hens
  exact h.evict hens

omit h in
theorem length_limitReader_le (stream : Body) (n : Int) :
    (limitReader stream n).length ≤ stream.length := by
  unfold limitReader
  rw [length_take]
  omega

theorem Accounted.createBodyStorage (now : Int) (data stream : Body)
    (hsum : cfg.enabled = true → s.usage + data.length < 2 ^ 63) :
    Accounted cfg (handOut (createBodyStorage cfg sorter now s data) stream) := by
  unfold BodyStorage.createBodyStorage
  by_cases hdisk : cfg.enabled ∧ cfg.threshold ≤ data.length
  · rw [if_pos hdisk]
    rcases hens : ensureDiskCacheSpace cfg sorter now s data.length with ⟨b, s'⟩
    cases b with
    | false => exact h.ensured hens
    | true =>
      have hsum' := hsum hdisk.1
      exact h.granted hens (Int.natCast_nonneg _) hsum' hsum' (fun _ _ => le_refl _) stream
  · rw [if_neg hdisk]
    exact h.keep data stream

end

theorem spill_length_le {stream : Body} {maxBytes : Int} (hlo : -2 ^ 63 ≤ maxBytes)
    (hhi : maxBytes < 2 ^ 63) {pre rest : Body}
    (hpre : pre = limitReader stream (wrap64 (cfg.threshold + 1)))
    (hrest : rest = limitReader (stream.drop pre.length)
      (wrap64 (wrap64 (maxBytes - pre.length) + 1)))
    (hsmall : ¬(pre.length : Int) ≤ cfg.threshold) (hlarge : ¬maxBytes < (pre ++ rest).length) :
    (pre ++ rest).length ≤ stream.length := by
  have hprelen := length_limitReader_le stream (wrap64 (cfg.threshold + 1))
  by_cases h0 : 0 ≤ cfg.threshold
  · have hlong : cfg.threshold < stream.length := by
      rw [← hpre] at hprelen
      omega
    obtain ⟨-, hiff, hsame⟩ :=
      spill_read h0 (threshold_lt cfg) hlong hlo hhi hpre (congrArg (pre ++ ·) hrest)
    rw [hsame fun hlt => hlarge (hiff.2 hlt)]
  obtain ⟨hnil, hread⟩ := spill_read_empty h0 hlo hhi
  rw [hnil] at hpre
  rw [hpre, hread] at hrest
  rw [hpre, hrest, nil_append]
  exact length_limitReader_le stream _

theorem spill_covered {stream : Body} {maxBytes : Int} (hlo : -2 ^ 63 ≤ maxBytes)
    (hhi : maxBytes < 2 ^ 63)
    (hwrite : maxBytes < stream.length ∨ (stream.length : Int) ≤ max 0 (cfg.threshold + 1))
    {pre rest : Body} (hpre : pre = limitReader stream (wrap64 (cfg.threshold + 1)))
    (hrest : rest = limitReader (stream.drop pre.length)
      (wrap64 (wrap64 (maxBytes - pre.length) + 1)))
    (hsmall : ¬(pre.length : Int) ≤ cfg.threshold) (hlarge : ¬maxBytes < (pre ++ rest).length) :
    ((pre ++ rest).length : Int) ≤ pre.length := by
  have hT := threshold_lt cfg
  have hlow := (wrap64_range (cfg.thresholdMB * 2 ^ 20)).1
  have hnone : stream.drop pre.length = [] → ((pre ++ rest).length : Int) ≤ pre.length := by
    intro hdrop
    rw [hrest, hdrop]
    unfold limitReader
    rw [take_nil, List.append_nil]
  have hprelen : pre.length = min (cfg.threshold + 1).toNat stream.length := by
    rw [hpre]
    unfold limitReader
    rw [wrap64_of_range (by unfold Config.threshold; omega) (by omega), length_take]
  by_cases h0 : 0 ≤ cfg.threshold
  · rcases hwrite with hlt | hle
    · obtain ⟨-, hiff, -⟩ := spill_read h0 hT (by omega) hlo hhi hpre (congrArg (pre ++ ·) hrest)
      exact absurd (hiff.2 hlt) hlarge
    · exact hnone (List.drop_eq_nil_of_le (by omega))
  obtain ⟨hnil, hread⟩ := spill_read_empty h0 hlo hhi
  rw [hnil] at hpre
  rw [hpre, hread] at hrest
  rw [hpre, hrest, nil_append] at hlarge ⊢
  rcases hwrite with hlt | hle
  · by_cases hmax : maxBytes < 2 ^ 63 - 1
    · exact absurd ((limitReader_max hlo (.inl hmax) hhi).1.2 hlt) hlarge
    · rw [limitReader_overflow hmax hhi]
  have hle' := length_limitReader_le stream (wrap64 (maxBytes + 1))
  rw [length_nil]
  omega

theorem Accounted.create (h : Accounted cfg s) {now : Int} {stream : Body}
    {contentLength maxBytes : Int}
    (hcov : Covered cfg s (.create now stream contentLength maxBytes)) :
    Accounted cfg (step cfg sorter s (.create now stream contentLength maxBytes)) := by
  rw [step_create]
  have hT := threshold_lt cfg
  have husage := h.counted.usage
  have hread := length_limitReader_le stream (wrap64 (maxBytes + 1))
  unfold createBodyStorageFromReader
  dsimp only
  by_cases hdecl : cfg.enabled ∧ 0 < contentLength ∧ cfg.threshold ≤ contentLength
  · obtain ⟨hlo, hhi, hsum, hwrite⟩ := hcov hdecl.1
    rw [if_pos hdecl]
    rcases hens : ensureDiskCacheSpace cfg sorter now s contentLength with ⟨b, s'⟩
    cases b with
    | false => exact h.ensured hens
    | true =>
      dsimp only
      unfold newDiskStorageFromReader
      dsimp only
      by_cases hlarge : maxBytes < (limitReader stream (wrap64 (maxBytes + 1))).length
      · rw [if_pos hlarge]
        exact (h.ensured hens).discard
      rw [if_neg hlarge]
      refine h.granted hens (by omega) (by omega) (by omega) (fun hmax hover => ?_) stream
      rcases (hwrite hmax (by omega)).1 hdecl.2.1 hdecl.2.2 with hlt | hle
      · have hok : LimitOk stream maxBytes := .inl (by omega)
        exact absurd ((limitReader_max hlo hok hhi).1.2 hlt) hlarge
      · omega
  rw [if_neg hdecl]
  by_cases hspill : cfg.enabled ∧ contentLength ≤ 0
  · obtain ⟨hlo, hhi, hsum, hwrite⟩ := hcov hspill.1
    rw [if_pos hspill]
    unfold createBodyStorageSpill
    dsimp only
    have hprelen := length_limitReader_le stream (wrap64 (cfg.threshold + 1))
    by_cases hsmall :
        ((limitReader stream (wrap64 (cfg.threshold + 1))).length : Int) ≤ cfg.threshold
    · rw [if_pos hsmall]
      exact h.keep _ stream
    rw [if_neg hsmall]
    rcases hens : ensureDiskCacheSpace cfg sorter now s
      (limitReader stream (wrap64 (cfg.threshold + 1))).length with ⟨b, s'⟩
    cases b with
    | false => exact h.ensured hens
    | true =>
      dsimp only
      by_cases hlarge : maxBytes < (limitReader stream (wrap64 (cfg.threshold + 1)) ++
          limitReader (stream.drop (limitReader stream (wrap64 (cfg.threshold + 1))).length)
            (wrap64 (wrap64 (maxBytes -
              (limitReader stream (wrap64 (cfg.threshold + 1))).length) + 1))).length
      · rw [if_pos hlarge]
        exact (h.ensured hens).discard
      rw [if_neg hlarge]
      have hread := spill_length_le hlo hhi rfl rfl hsmall hlarge
      refine h.granted hens (Int.natCast_nonneg _) (by omega) (by omega)
        (fun hmax hover => ?_) stream
      have hw := (hwrite hmax (by omega)).2 hspill.2
      exact spill_covered hlo hhi hw rfl rfl hsmall hlarge
  rw [if_neg hspill]
  by_cases hlarge : maxBytes < (limitReader stream (wrap64 (maxBytes + 1))).length
  · rw [if_pos hlarge]
    exact h
  rw [if_neg hlarge]
  refine h.createBodyStorage now _ stream fun hen => ?_
  obtain ⟨-, -, hsum, -⟩ := hcov hen
  omega

end Counting

end NewApi.BodyStorage
