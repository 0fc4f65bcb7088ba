/-
  NewApi.RequestBody.Storage

  `common/body_storage.go` and the disk cache under it: a request body is kept in
  memory or in a file of the cache directory, and a counter stands for the bytes of
  the directory.

  There are three ways in.  A declared length decides for the disk and reserves that
  much; without one a prefix as long as the threshold is read first, and reserves
  itself; anything else is read whole.  Numbers are 64-bit integers.  File operations
  succeed; a body has fewer than `2 ^ 63` bytes.
-/

import NewApi.Lib.Run
import NewApi.Lib.Wrap
import Mathlib.Algebra.GroupWithZero.Nat
import Mathlib.Data.List.Nodup
import Mathlib.Data.List.Perm.Basic

namespace NewApi.BodyStorage

open NewApi.Lib

/-! ## The cache directory -/

abbrev Body := List UInt8

/-- `DiskCacheConfig` -/
structure Config where
  enabled : Bool
  thresholdMB : Int
  maxSizeMB : Int

variable (cfg : Config)

/-- `GetDiskCacheThresholdBytes` -/
def Config.threshold : Int := wrap64 (cfg.thresholdMB * 2 ^ 20)

/-- `GetDiskCacheMaxSizeBytes`; no limit if it is not positive. -/
def Config.maxSize : Int := wrap64 (cfg.maxSizeMB * 2 ^ 20)

/-- A file of the cache directory.  Names are never used again. -/
structure File where
  name : Nat
  data : Body
  modTime : Int
deriving DecidableEq

def File.size (f : File) : Nat := f.data.length

/-- A body: its bytes in memory, or the open descriptor of a file and the size. -/
inductive Storage where
  | memory (data : Body)
  | disk (file : File) (size : Int)
deriving DecidableEq

/-- A storage that was handed out, and the stream that it was made from. -/
structure Opened where
  storage : Storage
  stream : Body
  closed : Bool := false

/-- The directory, `CurrentDiskUsageBytes`, and the storages handed out. -/
structure Cache where
  dir : List File := []
  usage : Int := 0
  names : Nat := 0
  opened : List Opened := []

def bytes (dir : List File) : Nat := (dir.map File.size).sum

def remove (dir : List File) (name : Nat) : List File := dir.filter fun f => f.name ≠ name

/-- `DecrementDiskFiles` on the bytes; never below zero. -/
def decrementDiskFiles (usage size : Int) : Int :=
  let usage := wrap64 (usage - size)
  if usage < 0 then 0 else usage

/-- `sort.Slice` by `modTime`: in order, files of the same time in any order. -/
structure SortSlice where
  sort : List File → List File
  perm : ∀ l, (sort l).Perm l
  sorted : ∀ l, (sort l).Pairwise fun f f' => f.modTime ≤ f'.modTime

/-- The loop of `EnforceDiskCacheCapacity` over the files, oldest first. -/
def evictLoop (maxBytes reserve olderThan now : Int) : List File → Int → Cache → Cache
  | [], _, s => s
  | f :: fs, total, s =>
    if wrap64 (total + reserve) ≤ maxBytes then s
    else if now - f.modTime < olderThan then s
    else
      evictLoop maxBytes reserve olderThan now fs (wrap64 (total - f.size))
        { s with dir := remove s.dir f.name, usage := decrementDiskFiles s.usage f.size }

variable (sorter : SortSlice)

def enforceDiskCacheCapacity (now olderThan reserve : Int) (s : Cache) : Cache :=
  if cfg.maxSize ≤ 0 then s
  else if wrap64 (bytes s.dir + reserve) ≤ cfg.maxSize then s
  else evictLoop cfg.maxSize reserve olderThan now (sorter.sort s.dir) (bytes s.dir) s

/-- `DiskCacheEvictionSafeWindow`, in nanoseconds -/
def diskCacheEvictionSafeWindow : Int := 2 * 60 * 1000000000

def isDiskCacheAvailable (s : Cache) (requestSize : Int) : Bool :=
  if !cfg.enabled then false else wrap64 (s.usage + requestSize) ≤ cfg.maxSize

variable (now : Int)

variable (s : Cache)

def ensureDiskCacheSpace (requestSize : Int) : Bool × Cache :=
  if !cfg.enabled then (false, s)
  else if cfg.maxSize ≤ 0 then (true, s)
  else if wrap64 (s.usage + requestSize) ≤ cfg.maxSize then (true, s)
  else
    let s := enforceDiskCacheCapacity cfg sorter now diskCacheEvictionSafeWindow requestSize s
    (isDiskCacheAvailable cfg s requestSize, s)

/-! ## Creation -/

inductive CreateErr where
  /-- `ErrRequestBodyTooLarge` -/
  | tooLarge
  /-- `disk cache capacity exhausted ...`; it wraps `ErrRequestBodyTooLarge`. -/
  | capacity
deriving DecidableEq

variable (stream : Body)

/-- What `io.LimitReader` lets through. -/
def limitReader (n : Int) : Body := stream.take n.toNat

/-- `newDiskStorage`: the file is written and counted. -/
def newDiskStorage (data : Body) : Storage × Cache :=
  let file : File := { name := s.names, data, modTime := now }
  (.disk file data.length,
    { s with
      dir := s.dir ++ [file], usage := wrap64 (s.usage + data.length), names := s.names + 1 })

def discard : Cache := { s with names := s.names + 1 }

def newDiskStorageFromReader (maxBytes : Int) : Except CreateErr Storage × Cache :=
  let data := limitReader stream (wrap64 (maxBytes + 1))
  if maxBytes < data.length then (.error .tooLarge, discard s)
  else
    let out := newDiskStorage now s data
    (.ok out.1, out.2)

def createBodyStorage (data : Body) : Except CreateErr Storage × Cache :=
  if cfg.enabled ∧ cfg.threshold ≤ data.length then
    match ensureDiskCacheSpace cfg sorter now s data.length with
    | (false, s) => (.error .capacity, s)
    | (true, s) =>
      let out := newDiskStorage now s data
      (.ok out.1, out.2)
  else (.ok (.memory data), s)

def createBodyStorageSpill (maxBytes threshold : Int) : Except CreateErr Storage × Cache :=
  let pre := limitReader stream (wrap64 (threshold + 1))
  if (pre.length : Int) ≤ threshold then (.ok (.memory pre), s)
  else
    match ensureDiskCacheSpace cfg sorter now s pre.length with
    | (false, s) => (.error .capacity, s)
    | (true, s) =>
      let rest := limitReader (stream.drop pre.length)
        (wrap64 (wrap64 (maxBytes - pre.length) + 1))
      if maxBytes < (pre ++ rest).length then (.error .tooLarge, discard s)
      else
        let out := newDiskStorage now s (pre ++ rest)
        (.ok out.1, out.2)

def createBodyStorageFromReader (contentLength maxBytes : Int) : Except CreateErr Storage × Cache :=
  let threshold := cfg.threshold
  if cfg.enabled ∧ 0 < contentLength ∧ threshold ≤ contentLength then
    match ensureDiskCacheSpace cfg sorter now s contentLength with
    | (false, s) => (.error .capacity, s)
    | (true, s) => newDiskStorageFromReader now s stream maxBytes
  else if cfg.enabled ∧ contentLength ≤ 0 then
    createBodyStorageSpill cfg sorter now s stream maxBytes threshold
  else
    let data := limitReader stream (wrap64 (maxBytes + 1))
    if maxBytes < data.length then (.error .tooLarge, s)
    else createBodyStorage cfg sorter now s data

/-! ## Storages in use -/

inductive ReadErr where
  /-- `ErrStorageClosed` -/
  | closed
  /-- `failed to open body cache file for replay` -/
  | notOpened
  /-- `io.ErrUnexpectedEOF` -/
  | short
deriving DecidableEq

def Storage.isDisk : Storage → Bool
  | .memory _ => false
  | .disk _ _ => true

/-- `Bytes`; the descriptor reads the file also after it is unlinked. -/
def Opened.bytes (o : Opened) : Except ReadErr Body :=
  if o.closed then .error .closed
  else
    match o.storage with
    | .memory data => .ok data
    | .disk file size =>
      if (file.data.length : Int) < size then .error .short else .ok (file.data.take size.toNat)

/-- What a reader of `NewReader` reads; a file is opened by its name. -/
def Opened.newReader (o : Opened) (dir : List File) : Except ReadErr Body :=
  if o.closed then .error .closed
  else
    match o.storage with
    | .memory data => .ok data
    | .disk file _ =>
      match dir.find? fun f => f.name = file.name with
      | some f => .ok f.data
      | none => .error .notOpened

/-- `Close` of the storage at an index; a second one does nothing. -/
def close (i : Nat) : Cache :=
  match s.opened[i]? with
  | none => s
  | some o =>
    if o.closed then s
    else
      let s := { s with opened := s.opened.set i { o with closed := true } }
      match o.storage with
      | .memory _ => s
      | .disk file size =>
        { s with dir := remove s.dir file.name, usage := decrementDiskFiles s.usage size }

inductive Act where
  | create (now : Int) (stream : Body) (contentLength maxBytes : Int)
  | close (i : Nat)
  | evict (now olderThan reserve : Int)

def step : Act → Cache
  | .create now stream contentLength maxBytes =>
    match createBodyStorageFromReader cfg sorter now s stream contentLength maxBytes with
    | (.ok storage, s) => { s with opened := s.opened ++ [{ storage, stream }] }
    | (.error _, s) => s
  | .close i => close s i
  | .evict now olderThan reserve => enforceDiskCacheCapacity cfg sorter now olderThan reserve s

end NewApi.BodyStorage
