/-
  NewApi.RequestBody.StorageRuns

  Body storages over runs of creations, closes and evictions: a storage that is open
  reads as its stream, and the counter and the bytes of the directory stay within the
  maximum, in every run whose steps meet their conditions.

  A close of a storage whose file was evicted takes the file off the counter a second
  time, and a body longer than its declared length, or than the prefix, is written
  into less room than it needs; these are the conditions.
-/

import NewApi.RequestBody.StorageSafety
import Mathlib.Data.List.Sort

namespace NewApi.BodyStorage

open NewApi.Lib

section Runs

variable {cfg : Config} {sorter : SortSlice} {s s' : Cache}

/-! ## The counter and the directory -/

theorem Owned.close (h : Owned s) (i : Nat) : Owned (close s i) := by
  unfold BodyStorage.close
  rcases ho : s.opened[i]? with _ | o
  · exact h
  dsimp only
  split
  · exact h
  rcases o with ⟨data | ⟨file, size⟩, stream, closed⟩
  · exact h.setClosed ho (List.Sublist.refl _) s.usage
  · exact h.setClosed ho List.filter_sublist _

theorem Accounted.close (h : Accounted cfg s) {i : Nat} (hcov : Covered cfg s (.close i)) :
    Accounted cfg (close s i) := by
  have howned := h.owned.close i
  unfold BodyStorage.close at howned ⊢
  rcases ho : s.opened[i]? with _ | o
  · exact h
  rw [ho] at howned
  dsimp only at howned ⊢
  by_cases hclosed : o.closed = true
  · rw [if_pos hclosed]
    exact h
  have hpresent := hcov o ho (Bool.eq_false_iff.2 hclosed)
  have hown := h.owned.owned o (List.mem_of_getElem? ho)
  rw [if_neg hclosed] at howned ⊢
  rcases o with ⟨data | ⟨file, size⟩, stream, closed⟩
  · exact ⟨⟨h.counted.usage, h.counted.range, h.counted.names⟩, h.bounded, howned⟩
  have hsize : size = file.size := (hown file size rfl).1
  subst hsize
  have he := h.counted.remove (of_decide_eq_true hpresent)
  exact ⟨⟨he.counted.usage, he.counted.range, he.counted.names⟩,
    fun hmax => he.usage.trans (h.bounded hmax), howned⟩

theorem Accounted.step (h : Accounted cfg s) {a : Act} (hcov : Covered cfg s a) :
    Accounted cfg (step cfg sorter s a) := by
  cases a with
  | create now stream contentLength maxBytes => exact h.create hcov
  | close i => exact h.close hcov
  | evict now olderThan reserve => exact h.evict (evicted_enforce now olderThan reserve h.counted)

theorem accounted_start (cfg : Config) : Accounted cfg {} where
  counted := ⟨rfl, by decide, List.nodup_nil⟩
  bounded hmax := le_of_lt hmax
  owned := ⟨nofun, nofun⟩

theorem accounted_run {acts : List Act} (h : Meets (Covered cfg) (step cfg sorter) {} acts) :
    Accounted cfg (run (step cfg sorter) {} acts) :=
  run_invariant (Accounted cfg) (fun _ _ hs hc => hs.step hc) (accounted_start cfg) h

/-! ## Reading -/

/-- The maximum is a 64-bit integer, and the reader's limit does not overflow. -/
def Readable (cfg : Config) : Act → Prop
  | .create _ stream contentLength maxBytes =>
    -2 ^ 63 ≤ maxBytes ∧ maxBytes < 2 ^ 63 ∧ ReadOk cfg stream contentLength maxBytes
  | .close _ => True
  | .evict _ _ _ => True

/-- Every storage holds the stream it was made from. -/
structure Faithful (s : Cache) : Prop where
  owned : Owned s
  content : ∀ o ∈ s.opened, o.storage.content = o.stream

section
variable (h : Faithful s)
include h

theorem Faithful.removed (hr : Removed s s') : Faithful s' where
  owned := h.owned.removed hr
  content o ho := h.content o (hr.opened ▸ ho)

theorem Faithful.created {stream : Body} {ok : Prop} (hc : Created s stream ok s') (hok : ok) : Faithful s' := by
  cases hc with
  | refused hr => exact h.removed hr
  | discarded hr => exact ⟨(h.removed hr).owned.discard, (h.removed hr).content⟩
  | kept data hr hdata =>
    refine ⟨(h.removed hr).owned.keep data stream, fun o ho => ?_⟩
    rcases List.mem_append.1 ho with ho | ho
    · exact (h.removed hr).content o ho
    · obtain rfl := List.mem_singleton.1 ho
      exact hdata hok
  | wrote now data hr hdata =>
    refine ⟨(h.removed hr).owned.write now data stream, fun o ho => ?_⟩
    rcases List.mem_append.1 ho with ho | ho
    · exact (h.removed hr).content o ho
    · obtain rfl := List.mem_singleton.1 ho
      exact (content_newDiskStorage now _ data).1.trans (hdata hok)

theorem Faithful.close (i : Nat) : Faithful (close s i) := by
  refine ⟨h.owned.close i, ?_⟩
  unfold BodyStorage.close
  rcases ho : s.opened[i]? with _ | o
  · exact h.content
  dsimp only
  split
  · exact h.content
  have hset : ∀ o' ∈ s.opened.set i { o with closed := true },
      o'.storage.content = o'.stream := by
    intro o' ho'
    rcases List.mem_or_eq_of_mem_set ho' with hold | rfl
    · exact h.content o' hold
    · exact h.content o (List.mem_of_getElem? ho)
  rcases o with ⟨data | ⟨file, size⟩, stream, closed⟩ <;> exact hset

theorem Faithful.step {a : Act} (hread : Readable cfg a) : Faithful (step cfg sorter s a) := by
  cases a with
  | create now stream contentLength maxBytes =>
    obtain ⟨hlo, hhi, hok⟩ := hread
    rw [step_create]
    exact h.created (BodyStorage.created now s hlo hhi) hok
  | close i => exact h.close i
  | evict now olderThan reserve =>
    exact h.removed (removed_enforce cfg sorter now olderThan reserve s)

omit h in
theorem faithful_run {acts : List Act}
    (h : Meets (fun _ a => Readable cfg a) (step cfg sorter) {} acts) :
    Faithful (run (step cfg sorter) {} acts) :=
  run_invariant Faithful (fun _ _ hs hc => hs.step hc) ⟨⟨nofun, nofun⟩, nofun⟩ h

theorem Faithful.bytes {o : Opened} (ho : o ∈ s.opened) (hopen : o.closed = false) : o.bytes = .ok o.stream := by
  have hcontent := h.content o ho
  have hown := h.owned.owned o ho
  unfold Opened.bytes
  rw [if_neg (by rw [hopen]; exact Bool.false_ne_true)]
  rcases o with ⟨data | ⟨file, size⟩, stream, closed⟩
  · exact congrArg Except.ok hcontent
  have hsize : size = file.data.length := (hown file size rfl).1
  dsimp only
  rw [if_neg (by omega)]
  exact congrArg Except.ok hcontent

theorem Faithful.newReader_iff {o : Opened} (ho : o ∈ s.opened) (hopen : o.closed = false) :
    o.newReader s.dir = .ok o.stream ↔ o.storage.present s.dir = true := by
  have hcontent := h.content o ho
  have hown := h.owned.owned o ho
  unfold Opened.newReader
  rw [if_neg (by rw [hopen]; exact Bool.false_ne_true)]
  rcases o with ⟨data | ⟨file, size⟩, stream, closed⟩
  · exact iff_of_true (congrArg Except.ok hcontent) rfl
  obtain ⟨hsize, -, hsame⟩ := hown file size rfl
  have hdata : file.data = stream := by
    refine Eq.trans ?_ hcontent
    show file.data = file.data.take size.toNat
    rw [hsize, Int.toNat_natCast, List.take_length]
  dsimp only
  unfold Storage.present
  rw [decide_eq_true_iff]
  cases hfind : s.dir.find? fun f => decide (f.name = file.name) with
  | none =>
    refine iff_of_false (by simp) fun hmem => ?_
    exact List.find?_eq_none.1 hfind file hmem (decide_eq_true rfl)
  | some f =>
    have hname := List.find?_some hfind
    have hmem := List.mem_of_find?_eq_some hfind
    have hf : f = file := hsame f hmem (of_decide_eq_true hname)
    dsimp only
    rw [hf, hdata]
    exact iff_of_true rfl (hf ▸ hmem)

end

end Runs

/-! ## The body storage -/

/-- **Body storage.**  A creation with room is what it promises exactly under
    `CreationOk`; in every run whose steps are `Covered` the counter is not below the
    bytes present and these are within the maximum; in every run of `Readable` steps an
    open storage is its stream, and a new reader reads that exactly while the file has
    not been evicted. -/
theorem body_storage_when (cfg : Config) (sorter : SortSlice) :
    (∀ (now : Int) (s : Cache) (stream : Body) (contentLength maxBytes : Int),
      -2 ^ 63 ≤ maxBytes → maxBytes < 2 ^ 63 →
      Room cfg sorter now s (max contentLength stream.length) →
      (Promised cfg stream maxBytes
          (createBodyStorageFromReader cfg sorter now s stream contentLength maxBytes).1 ↔
        CreationOk cfg stream contentLength maxBytes)) ∧
    (∀ acts : List Act, Meets (Covered cfg) (step cfg sorter) {} acts →
      (bytes (run (step cfg sorter) {} acts).dir : Int) ≤ (run (step cfg sorter) {} acts).usage ∧
      (0 < cfg.maxSize → (bytes (run (step cfg sorter) {} acts).dir : Int) ≤ cfg.maxSize)) ∧
    (∀ acts : List Act, Meets (fun _ a => Readable cfg a) (step cfg sorter) {} acts →
      ∀ o ∈ (run (step cfg sorter) {} acts).opened, o.closed = false →
        o.bytes = .ok o.stream ∧
        (o.newReader (run (step cfg sorter) {} acts).dir = .ok o.stream ↔
          o.storage.present (run (step cfg sorter) {} acts).dir = true)) := by
  refine ⟨fun now s stream contentLength maxBytes hlo hhi hroom =>
    createBodyStorageFromReader_promised_iff hlo hhi hroom, fun acts hcov => ?_,
    fun acts hread o ho hopen => ?_⟩
  · have h := accounted_run hcov
    exact ⟨le_of_eq h.counted.usage.symm, fun hmax => h.counted.usage ▸ h.bounded hmax⟩
  · have h := faithful_run hread
    exact ⟨h.bytes ho hopen, h.newReader_iff ho hopen⟩

/-- Files by time, those of the same time as the directory lists them. -/
def sortByTime : SortSlice where
  sort l := l.insertionSort fun f f' => f.modTime ≤ f'.modTime
  perm l := List.perm_insertionSort _ l
  sorted l :=
    have : Std.Total fun f f' : File => f.modTime ≤ f'.modTime := ⟨fun _ _ => Int.le_total _ _⟩
    have : IsTrans File fun f f' => f.modTime ≤ f'.modTime := ⟨fun _ _ _ h h' => Int.le_trans h h'⟩
    List.pairwise_insertionSort _ l

def fromOneMB : Config := { enabled := true, thresholdMB := 1, maxSizeMB := 0 }

theorem fromOneMB_room (now : Int) (s : Cache) (size : Int) :
    Room fromOneMB sortByTime now s size := fun _ _ _ => rfl

/-- A small body in memory, that is read and closed. -/
theorem smallBody_kept : Promised fromOneMB [1, 2, 3] 10
        (createBodyStorageFromReader fromOneMB sortByTime 0 {} [1, 2, 3] 3 10).1 ∧
      (bytes (run (step fromOneMB sortByTime) {} [.create 0 [1, 2, 3] 3 10, .close 0]).dir : Int) ≤
        (run (step fromOneMB sortByTime) {} [.create 0 [1, 2, 3] 3 10, .close 0]).usage ∧
      ∀ o ∈ (run (step fromOneMB sortByTime) {} [.create 0 [1, 2, 3] 3 10]).opened,
        o.closed = false → o.bytes = .ok o.stream := by
  have hspec := body_storage_when fromOneMB sortByTime
  have hlimit : LimitOk [1, 2, 3] 10 := .inl (by decide)
  have hcreation : CreationOk fromOneMB [1, 2, 3] 3 10 := by
    unfold CreationOk
    rw [if_neg (by decide), if_neg (by decide)]
    exact hlimit
  have hcovered : Meets (Covered fromOneMB) (step fromOneMB sortByTime) {}
      [.create 0 [1, 2, 3] 3 10, .close 0] := by
    refine ⟨fun _ => ⟨by decide, by decide, by decide, nofun⟩, ?_, trivial⟩
    rintro o ho -
    obtain rfl : { storage := .memory [1, 2, 3], stream := [1, 2, 3] } = o := Option.some.inj ho
    rfl
  have hreadable : Meets (fun _ a => Readable fromOneMB a) (step fromOneMB sortByTime) {}
      [.create 0 [1, 2, 3] 3 10] := ⟨⟨by decide, by decide, .inr hlimit⟩, trivial⟩
  exact ⟨(hspec.1 0 {} [1, 2, 3] 3 10 (by decide) (by decide) (fromOneMB_room 0 {} _)).2 hcreation,
    (hspec.2.1 _ hcovered).1, fun o ho hopen => (hspec.2.2 _ hreadable o ho hopen).1⟩

def oneMB : Config := { enabled := true, thresholdMB := 0, maxSizeMB := 1 }

/-- Two bodies, of which the second declares a whole megabyte and evicts the first. -/
def secondEvictsFirst : List Act :=
  [.create 0 [1, 2, 3, 4, 5] 5 100, .create 200000000000 [1, 2, 3] (2 ^ 20) 100]

/-- A body of five bytes is accepted where two are allowed; an open storage cannot be
    read after an eviction; and its close leaves the counter at zero beside three bytes. -/
theorem undeclared_evicted_broken : Room fromOneMB sortByTime 0 {} 5 ∧
    ¬Promised fromOneMB [1, 2, 3, 4, 5] 2
      (createBodyStorageFromReader fromOneMB sortByTime 0 {} [1, 2, 3, 4, 5] (-1) 2).1 ∧
    ((run (step oneMB sortByTime) {} secondEvictsFirst).opened.map fun o =>
      (o.closed, o.newReader (run (step oneMB sortByTime) {} secondEvictsFirst).dir)) =
        [(false, .error .notOpened), (false, .ok [1, 2, 3])] ∧
    (run (step oneMB sortByTime) {} (secondEvictsFirst ++ [.close 0])).usage = 0 ∧
    bytes (run (step oneMB sortByTime) {} (secondEvictsFirst ++ [.close 0])).dir = 3 := by
  refine ⟨fromOneMB_room 0 {} 5, ?_, by decide +kernel, by decide +kernel, by decide +kernel⟩
  have hmemory : (createBodyStorageFromReader fromOneMB sortByTime 0 {} [1, 2, 3, 4, 5] (-1) 2).1 =
      .ok (.memory [1, 2, 3, 4, 5]) := by decide +kernel
  rw [hmemory, promised_ok_iff]
  exact fun h => h.1 (by decide)

end NewApi.BodyStorage
