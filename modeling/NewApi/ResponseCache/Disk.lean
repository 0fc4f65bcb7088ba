/-
  NewApi.ResponseCache.Disk

  The disk backend of the response cache (`service/response_cache_disk.go`):
  files by key under the cache root, and the process-wide counter of the bytes
  in use.

  A put looks at the counter only.  When the body does not fit beside it, a
  sweep removes what is past its TTL and an eviction removes the oldest files
  until the body fits, but leaves the files written within the last two
  minutes; the body is then written whatever the eviction could free.  So the
  bytes stored stay within the quota as long as no put comes while the recent
  files leave no room for it.  The counter never falls below the bytes stored:
  an overwrite adds to it without taking the old size off, and every scan sets
  it to the bytes it found.
-/

import NewApi.Lib.Keyed
import NewApi.Lib.Run
import Mathlib.Data.List.Sort

namespace NewApi.ResponseCache

open NewApi.Lib

/-! ## Files -/

def diskCacheKeyHexLen : Nat := 64

/-- `validDiskCacheKey`: the hexadecimal digits of a SHA-256. -/
def validDiskCacheKey (key : String) : Bool :=
  key.utf8ByteSize == diskCacheKeyHexLen &&
    key.toList.all fun c => ('0' ≤ c && c ≤ '9') || ('a' ≤ c && c ≤ 'f')

/-- A cached body on disk, by its size; times are in nanoseconds. -/
structure CacheFile where
  size : Nat
  modTime : Int

abbrev Files := AList fun _ : String => CacheFile

def Files.bytes (files : Files) : Nat := files.total CacheFile.size

def responseCacheDiskEvictionSafeWindow : Int := 2 * 60 * 1000000000

/-- The settings as their getters give them; `ttl` is `TTLSeconds` in nanoseconds. -/
structure Settings where
  diskMaxBytes : Nat
  diskMaxEntryBytes : Nat
  ttl : Int

/-- `sort.Slice` by `modTime`: in order, files of the same time in any order. -/
structure SortSlice where
  sort : List (Sigma fun _ : String => CacheFile) → List (Sigma fun _ : String => CacheFile)
  perm : ∀ l, (sort l).Perm l
  sorted : ∀ l, (sort l).Pairwise fun e e' => e.2.modTime ≤ e'.2.modTime

/-- The cache directory and `responseCacheDiskUsage`. -/
structure Disk where
  files : Files
  usage : Int

/-! ## Sweep, eviction, put, delete -/

variable (cfg : Settings)

def CacheFile.expired (now : Int) (f : CacheFile) : Bool :=
  now - f.modTime > cfg.ttl

def CacheFile.recent (now : Int) (f : CacheFile) : Bool :=
  now - f.modTime < responseCacheDiskEvictionSafeWindow

/-- `responseCacheDiskSweep`: how many files it removed and the bytes it freed. -/
def responseCacheDiskSweep (d : Disk) (now : Int) : Disk × Nat × Nat :=
  let entries := d.files.entries
  let removed := entries.filter fun e => e.2.expired cfg now
  let files := d.files.keep fun _ f => !f.expired cfg now
  ({ files := files, usage := Files.bytes files }, removed.length, (removed.map fun e => e.2.size).sum)

/-- What the eviction loop carries. -/
structure Eviction where
  files : Files
  total : Int
  freed : Int

/-- The loop over the files, oldest first. -/
def evictLoop (target now : Int) : List (Sigma fun _ : String => CacheFile) → Eviction → Eviction
  | [], ev => ev
  | e :: es, ev =>
    if ev.total ≤ target then ev
    else if e.2.recent now then evictLoop target now es ev
    else
      evictLoop target now es
        { files := ev.files.erase e.1
          total := ev.total - e.2.size
          freed := ev.freed + e.2.size }

variable (sorter : SortSlice)

variable (d : Disk)

/-- `responseCacheDiskEvictTo`; a negative target counts as zero. -/
def responseCacheDiskEvictTo (targetBytes : Int) (now : Int) : Disk × Int :=
  let target := if targetBytes < 0 then 0 else targetBytes
  let entries := sorter.sort d.files.entries
  let total : Int := Files.bytes d.files
  if total ≤ target then ({ d with usage := total }, 0)
  else
    let ev := evictLoop target now entries { files := d.files, total := total, freed := 0 }
    ({ files := ev.files, usage := ev.total }, ev.freed)

/-- A put: the body by its length, the answer of `HasDiskSpaceFor`, and the
    clock where the put sweeps, evicts and writes. -/
structure Put where
  key : String
  body : Nat
  hasDiskSpace : Bool
  sweepAt : Int
  evictAt : Int
  writtenAt : Int

def Put.accepted (p : Put) : Bool :=
  validDiskCacheKey p.key && p.body ≤ cfg.diskMaxEntryBytes && p.hasDiskSpace

def Put.makeRoom (p : Put) : Disk :=
  if d.usage + p.body > cfg.diskMaxBytes then
    let swept := (responseCacheDiskSweep cfg d p.sweepAt).1
    (responseCacheDiskEvictTo sorter swept ((cfg.diskMaxBytes : Int) - p.body) p.evictAt).1
  else d

def responseCacheDiskPut (p : Put) : Disk × Bool :=
  if p.accepted cfg then
    let d := p.makeRoom cfg sorter d
    ({ files := d.files.insert p.key { size := p.body, modTime := p.writtenAt }
       usage := d.usage + p.body }, true)
  else (d, false)

def responseCacheDiskDelete (key : String) : Disk :=
  if validDiskCacheKey key then
    match d.files.lookup key with
    | some f => { files := d.files.erase key, usage := d.usage - f.size }
    | none => d
  else d

inductive DiskOp where
  | put (p : Put)
  | delete (key : String)
  | sweep (now : Int)
  | evictTo (targetBytes : Int) (now : Int)

def step : DiskOp → Disk
  | .put p => (responseCacheDiskPut cfg sorter d p).1
  | .delete key => responseCacheDiskDelete d key
  | .sweep now => (responseCacheDiskSweep cfg d now).1
  | .evictTo targetBytes now => (responseCacheDiskEvictTo sorter d targetBytes now).1

/-! ## The quota -/

/-- The bytes of the other files that a put may not remove: written within the
    safe window and not past their TTL. -/
def Put.protectedBytes (p : Put) : Nat :=
  Files.bytes <| (d.files.erase p.key).keep fun _ f =>
    !f.expired cfg p.sweepAt && f.recent p.evictAt

def Fits : DiskOp → Prop
  | .put p => p.accepted cfg = true → p.protectedBytes cfg d + p.body ≤ cfg.diskMaxBytes
  | _ => True

def Disk.Counted : Prop := (d.files.bytes : Int) ≤ d.usage

def Disk.Bounded : Prop := d.files.bytes ≤ cfg.diskMaxBytes

/-! ## What a sweep and an eviction leave -/

/-- Every file of `s` is one of `t`. -/
def Files.Sub (s t : Files) : Prop := ∀ key f, s.lookup key = some f → t.lookup key = some f

theorem Files.Sub.bytes_le {s t : Files} (h : s.Sub t) : s.bytes ≤ t.bytes :=
  AList.total_le_of_lookup h

theorem Files.Sub.trans {s t u : Files} (h : s.Sub t) (h' : t.Sub u) : s.Sub u :=
  fun key f hf => h' key f (h key f hf)

theorem Files.sub_erase (s : Files) (key : String) : Files.Sub (s.erase key) s := by
  intro key' f hf
  by_cases hkey : key' = key
  · rw [hkey, AList.lookup_erase] at hf
    cases hf
  · rwa [AList.lookup_erase_ne hkey] at hf

theorem Files.sub_keep (s : Files) (p : String → CacheFile → Bool) : Files.Sub (s.keep p) s := by
  intro key f hf
  rw [AList.lookup_keep, Option.filter_eq_some_iff] at hf
  exact hf.1

/-- What an eviction from `d` leaves. -/
structure Evicted (target now : Int) (files files' : Files) (total' : Int) : Prop where
  sub : files'.Sub files
  keeps : ∀ key f, files.lookup key = some f → f.recent now = true →
    files'.lookup key = some f
  total : total' = files'.bytes
  done : total' ≤ target ∨ ∀ key f, files'.lookup key = some f → f.recent now = true

theorem evictLoop_spec {target now : Int} {es : List (Sigma fun _ : String => CacheFile)}
    (ev : Eviction) (hnd : (es.map Sigma.fst).Nodup)
    (hmem : ∀ e ∈ es, ev.files.lookup e.1 = some e.2) (htotal : ev.total = ev.files.bytes)
    (hcover : ∀ key f, ev.files.lookup key = some f → f.recent now = false → ⟨key, f⟩ ∈ es) :
    Evicted target now ev.files (evictLoop target now es ev).files
      (evictLoop target now es ev).total := by
  induction es generalizing ev with
  | nil =>
    refine ⟨fun _ _ => id, fun _ _ hf _ => hf, htotal, Or.inr fun key f hf => ?_⟩
    by_contra hold
    cases hcover key f hf (by simpa using hold)
  | cons e es ih =>
    rw [List.map_cons, List.nodup_cons] at hnd
    unfold evictLoop
    by_cases hdone : ev.total ≤ target
    · rw [if_pos hdone]
      exact ⟨fun _ _ => id, fun _ _ hf _ => hf, htotal, Or.inl hdone⟩
    rw [if_neg hdone]
    by_cases hrecent : e.2.recent now = true
    · rw [if_pos hrecent]
      refine ih ev hnd.2 (fun e' he' => hmem e' (List.mem_cons_of_mem _ he')) htotal ?_
      intro key f hf hold
      rcases List.mem_cons.1 (hcover key f hf hold) with rfl | hin
      · exact absurd hrecent (by simp [hold])
      · exact hin
    rw [if_neg hrecent]
    have hne : ∀ e' ∈ es, e'.1 ≠ e.1 := fun e' he' heq =>
      hnd.1 (heq ▸ List.mem_map_of_mem he')
    have hsize := AList.total_erase_add (f := CacheFile.size) (hmem e List.mem_cons_self)
    have hspec := ih ⟨ev.files.erase e.1, ev.total - e.2.size, ev.freed + e.2.size⟩
      hnd.2 ?_ ?_ ?_
    · refine ⟨hspec.sub.trans (Files.sub_erase _ _), ?_, hspec.total, hspec.done⟩
      intro key f hf hnew
      refine hspec.keeps key f ?_ hnew
      have hkey : key ≠ e.1 := by
        rintro rfl
        rw [hmem e List.mem_cons_self] at hf
        cases hf
        exact hrecent hnew
      rw [AList.lookup_erase_ne hkey]
      exact hf
    · intro e' he'
      rw [AList.lookup_erase_ne (hne e' he')]
      exact hmem e' (List.mem_cons_of_mem _ he')
    · show ev.total - e.2.size = ((ev.files.erase e.1).total CacheFile.size : ℕ)
      have htotal' : ev.total = (ev.files.total CacheFile.size : ℕ) := htotal
      omega
    intro key f hf hold
    by_cases hkey : key = e.1
    · rw [hkey, AList.lookup_erase] at hf
      cases hf
    rw [AList.lookup_erase_ne hkey] at hf
    rcases List.mem_cons.1 (hcover key f hf hold) with rfl | hin
    · exact absurd rfl hkey
    · exact hin

theorem responseCacheDiskEvictTo_spec (targetBytes now : Int) :
    Evicted (if targetBytes < 0 then 0 else targetBytes) now d.files
      (responseCacheDiskEvictTo sorter d targetBytes now).1.files
      (responseCacheDiskEvictTo sorter d targetBytes now).1.usage := by
  unfold responseCacheDiskEvictTo
  by_cases hdone : (Files.bytes d.files : Int) ≤ if targetBytes < 0 then 0 else targetBytes
  · rw [if_pos hdone]
    exact ⟨fun _ _ => id, fun _ _ hf _ => hf, rfl, Or.inl hdone⟩
  rw [if_neg hdone]
  have hperm := sorter.perm d.files.entries
  refine evictLoop_spec ⟨d.files, Files.bytes d.files, 0⟩ ?_ ?_ rfl ?_
  · exact (hperm.map Sigma.fst).nodup_iff.2 d.files.nodupKeys
  · intro e he
    exact AList.mem_lookup_iff.2 (hperm.mem_iff.1 he)
  · intro key f hf _
    exact hperm.mem_iff.2 (AList.mem_lookup_iff.1 hf)

/-! ## One call -/

theorem counted_sweep (now : Int) : (responseCacheDiskSweep cfg d now).1.Counted := Int.le_refl _

theorem counted_evictTo (targetBytes now : Int) :
    (responseCacheDiskEvictTo sorter d targetBytes now).1.Counted :=
  (responseCacheDiskEvictTo_spec sorter d targetBytes now).total.ge

theorem counted_makeRoom {d : Disk} (hd : d.Counted)
    (p : Put) : (p.makeRoom cfg sorter d).Counted := by
  unfold Put.makeRoom
  split
  · exact counted_evictTo sorter _ _ _
  · exact hd

theorem counted_put {cfg : Settings} {sorter : SortSlice} {d : Disk} (hd : d.Counted) (p : Put) :
    (responseCacheDiskPut cfg sorter d p).1.Counted := by
  unfold responseCacheDiskPut
  by_cases haccepted : p.accepted cfg = true
  · rw [if_pos haccepted]
    have hroom := counted_makeRoom cfg sorter hd p
    have hsub := (Files.sub_erase (p.makeRoom cfg sorter d).files p.key).bytes_le
    unfold Disk.Counted Files.bytes at *
    rw [AList.total_insert]
    push_cast
    omega
  · rw [if_neg haccepted]
    exact hd

theorem counted_delete {d : Disk} (hd : d.Counted) (key : String) :
    (responseCacheDiskDelete d key).Counted := by
  unfold responseCacheDiskDelete
  by_cases hkey : validDiskCacheKey key = true
  · rw [if_pos hkey]
    cases hf : d.files.lookup key with
    | none => exact hd
    | some f =>
      have hsize := AList.total_erase_add (f := CacheFile.size) hf
      unfold Disk.Counted Files.bytes at *
      dsimp only
      omega
  · rw [if_neg hkey]
    exact hd

theorem counted_step (op : DiskOp) (hd : d.Counted) : (step cfg sorter d op).Counted := by
  cases op with
  | put p => exact counted_put hd p
  | delete key => exact counted_delete hd key
  | sweep now => exact counted_sweep cfg d now
  | evictTo targetBytes now => exact counted_evictTo sorter d targetBytes now

theorem protected_sub_makeRoom (p : Put) : Files.Sub ((d.files.erase p.key).keep fun _ f =>
        !f.expired cfg p.sweepAt && f.recent p.evictAt)
      ((p.makeRoom cfg sorter d).files.erase p.key) := by
  intro key f hf
  rw [AList.lookup_keep, Option.filter_eq_some_iff, Bool.and_eq_true] at hf
  obtain ⟨hf, hfresh, hrecent⟩ := hf
  have hkey : key ≠ p.key := by
    rintro rfl
    rw [AList.lookup_erase] at hf
    cases hf
  rw [AList.lookup_erase_ne hkey] at hf ⊢
  unfold Put.makeRoom
  split
  · refine (responseCacheDiskEvictTo_spec sorter _ _ _).keeps key f ?_ hrecent
    unfold responseCacheDiskSweep
    rw [AList.lookup_keep, hf]
    simp [hfresh]
  · exact hf

theorem makeRoom_done {cfg : Settings} {d : Disk} (hd : d.Counted) (p : Put)
    (hbody : p.body ≤ cfg.diskMaxBytes) :
    (p.makeRoom cfg sorter d).files.bytes + p.body ≤ cfg.diskMaxBytes ∨
      Files.Sub ((p.makeRoom cfg sorter d).files.erase p.key)
        ((d.files.erase p.key).keep fun _ f =>
          !f.expired cfg p.sweepAt && f.recent p.evictAt) := by
  unfold Put.makeRoom
  by_cases hfull : d.usage + p.body > cfg.diskMaxBytes
  · rw [if_pos hfull]
    dsimp only
    have hspec := responseCacheDiskEvictTo_spec sorter (responseCacheDiskSweep cfg d p.sweepAt).1
      ((cfg.diskMaxBytes : Int) - p.body) p.evictAt
    rcases hspec.done with hdone | hrecent
    · left
      rw [hspec.total, if_neg (by omega)] at hdone
      omega
    right
    intro key f hf
    have hkey : key ≠ p.key := by
      rintro rfl
      rw [AList.lookup_erase] at hf
      cases hf
    rw [AList.lookup_erase_ne hkey] at hf
    have hswept := hspec.sub key f hf
    unfold responseCacheDiskSweep at hswept
    rw [AList.lookup_keep, Option.filter_eq_some_iff] at hswept
    rw [AList.lookup_keep, AList.lookup_erase_ne hkey, hswept.1]
    simp only [Option.filter_some, hswept.2, hrecent key f hf, Bool.and_self, if_true]
  rw [if_neg hfull]
  left
  unfold Disk.Counted at hd
  omega

theorem bounded_put_iff {cfg : Settings} {sorter : SortSlice} {d : Disk} (hd : d.Counted)
    (hb : d.Bounded cfg) (p : Put) :
    (responseCacheDiskPut cfg sorter d p).1.Bounded cfg ↔ Fits cfg d (.put p) := by
  unfold responseCacheDiskPut Fits
  by_cases haccepted : p.accepted cfg = true
  · rw [if_pos haccepted]
    simp only [haccepted, true_implies]
    have hbytes : Files.bytes ((p.makeRoom cfg sorter d).files.insert p.key ⟨p.body, p.writtenAt⟩) =
        p.body + Files.bytes ((p.makeRoom cfg sorter d).files.erase p.key) :=
      AList.total_insert _ _ _ _
    have hprotected := (protected_sub_makeRoom cfg sorter d p).bytes_le
    have herase := (Files.sub_erase (p.makeRoom cfg sorter d).files p.key).bytes_le
    unfold Disk.Bounded Put.protectedBytes
    rw [hbytes]
    constructor
    · intro h
      omega
    intro h
    have hbody : p.body ≤ cfg.diskMaxBytes := by omega
    rcases makeRoom_done sorter hd p hbody with hroom | hleft
    · omega
    · have hle := hleft.bytes_le
      omega
  · rw [if_neg haccepted]
    exact iff_of_true hb fun h => absurd h haccepted

theorem bounded_step_iff {cfg : Settings} {sorter : SortSlice} {d : Disk} (hd : d.Counted)
    (hb : d.Bounded cfg) (op : DiskOp) : (step cfg sorter d op).Bounded cfg ↔ Fits cfg d op := by
  cases op with
  | put p => exact bounded_put_iff hd hb p
  | delete key =>
    refine iff_of_true ?_ trivial
    show (responseCacheDiskDelete d key).Bounded cfg
    unfold responseCacheDiskDelete
    by_cases hkey : validDiskCacheKey key = true
    · rw [if_pos hkey]
      cases d.files.lookup key with
      | none => exact hb
      | some f => exact (Files.sub_erase d.files key).bytes_le.trans hb
    · rw [if_neg hkey]
      exact hb
  | sweep now => exact iff_of_true ((Files.sub_keep d.files _).bytes_le.trans hb) trivial
  | evictTo targetBytes now =>
    exact iff_of_true
      ((responseCacheDiskEvictTo_spec sorter d targetBytes now).sub.bytes_le.trans hb) trivial

/-! ## Every run -/

/-- The counter never falls below the bytes stored, and these stay within the
    quota exactly when every accepted put finds room beside the recent files. -/
theorem disk_cache_within_quota (cfg : Settings) (sorter : SortSlice) (d : Disk)
    (hd : d.Counted) (hb : d.Bounded cfg) (ops : List DiskOp) :
    (∀ n, (run (step cfg sorter) d (ops.take n)).Counted) ∧
      ((∀ n, (run (step cfg sorter) d (ops.take n)).Bounded cfg) ↔
        Meets (Fits cfg) (step cfg sorter) d ops) := by
  have hcounted : ∀ n, (run (step cfg sorter) d (ops.take n)).Counted := fun n =>
    run_invariant_all Disk.Counted (counted_step cfg sorter) (ops.take n) hd
  refine ⟨hcounted, ?_⟩
  rw [← forall_take_iff_meets (fun d => d.Counted ∧ d.Bounded cfg) ?_ ⟨hd, hb⟩ ops]
  · exact forall_congr' fun n => (and_iff_right (hcounted n)).symm
  intro d op hinv
  rw [← bounded_step_iff hinv.1 hinv.2]
  exact and_iff_right (counted_step cfg sorter d op hinv.1)

def smallQuota : Settings where
  diskMaxBytes := 100
  diskMaxEntryBytes := 60
  ttl := 3600 * 1000000000

/-- Insertion by `modTime`: a sort that is stable too. -/
def byModTime : SortSlice where
  sort l := l.insertionSort fun e e' => e.2.modTime ≤ e'.2.modTime
  perm := List.perm_insertionSort _
  sorted l := by
    have : Std.Total fun e e' : Sigma fun _ : String => CacheFile =>
        e.2.modTime ≤ e'.2.modTime :=
      ⟨fun e e' => Int.le_total _ _⟩
    have : IsTrans (Sigma fun _ : String => CacheFile) fun e e' => e.2.modTime ≤ e'.2.modTime :=
      ⟨fun _ _ _ => Int.le_trans⟩
    exact List.pairwise_insertionSort _ l

/-- A body of sixty bytes put at a time, in seconds. -/
def putSixty (digit : Char) (second : Int) : DiskOp :=
  .put
    { key := String.ofList (List.replicate 64 digit)
      body := 60
      hasDiskSpace := true
      sweepAt := second * 1000000000
      evictAt := second * 1000000000
      writtenAt := second * 1000000000 }

/-- Three minutes apart, the second body takes the place of the first. -/
theorem putSixty_apart_bounded : (run (step smallQuota byModTime) ⟨∅, 0⟩
      ([putSixty 'a' 0, putSixty 'b' 180].take 2)).Bounded smallQuota := by
  refine (disk_cache_within_quota smallQuota byModTime ⟨∅, 0⟩ (Int.le_refl 0)
    (Nat.zero_le _) [putSixty 'a' 0, putSixty 'b' 180]).2.2 ⟨fun _ => ?_, fun _ => ?_, trivial⟩ 2
  · decide +kernel
  · decide +kernel

/-- One second apart, the first body may not be evicted and both are stored. -/
theorem putSixty_burst_exceeds : (Disk.mk ∅ 0).Counted ∧ (Disk.mk ∅ 0).Bounded smallQuota ∧
      ¬(run (step smallQuota byModTime) ⟨∅, 0⟩
        [putSixty 'a' 0, putSixty 'b' 1]).Bounded smallQuota := by
  refine ⟨Int.le_refl 0, Nat.zero_le _, ?_⟩
  unfold Disk.Bounded
  decide +kernel

end NewApi.ResponseCache
