/-
  NewApi.TrainingCapture.Attempt

  `processSignal` of `worker.go`, and its retries by the worker.

  An attempt selects the rows, uploads them part by part and stores the
  watermark.  Three states change at different points: the set of seen
  fingerprints while the rows are selected, the parts while they are written,
  the watermark at the end.  A write that errors is compensated by deleting what
  the attempt had written before it.

  Two things are not taken back: the fingerprints of a signal without a
  conversation, which its retry then skips, and a part whose write errors after
  it was stored, which is not among the written ones.  `Clean` says that an
  attempt meets neither, and the attempts are all-or-nothing exactly as long as
  they are clean (`capture_all_or_nothing`).
-/

import NewApi.TrainingCapture.Parts
import NewApi.TrainingCapture.Selection

namespace NewApi.TrainingCapture

/-! ## The sink -/

abbrev Sink := Bytes → List (List Char × Bytes)

namespace Sink

variable (sink : Sink)

variable (dir : Bytes)

def list : List (List Char) := (sink dir).map Prod.fst

/-- `WritePart`: a file of the name is replaced. -/
def writePart (name : List Char) (data : Bytes) : Sink :=
  Function.update sink dir
    (if name ∈ sink.list dir then
      (sink dir).map fun p => if p.1 = name then (name, data) else p
    else sink dir ++ [(name, data)])

def deleteFile (sink : Sink) (name : List Char) : Sink :=
  Function.update sink dir ((sink dir).filter (·.1 ≠ name))

/-- `cleanupOrphanParts`, where every delete succeeds. -/
def cleanupOrphanParts (written : List (List Char)) : Sink :=
  written.foldl (deleteFile dir) sink

def withParts (parts : List (List Char × Bytes)) : Sink :=
  Function.update sink dir (sink dir ++ parts)

@[simp] theorem withParts_self (parts : List (List Char × Bytes)) :
    sink.withParts dir parts dir = sink dir ++ parts :=
  Function.update_self _ _ _

@[simp] theorem withParts_nil : sink.withParts dir [] = sink := by
  rw [withParts, List.append_nil, Function.update_eq_self]

theorem update_withParts (parts files : List (List Char × Bytes)) :
    Function.update (sink.withParts dir parts) dir files = Function.update sink dir files := by
  rw [withParts, Function.update_idem]

theorem writePart_new {sink : Sink} {dir : Bytes} {parts : List (List Char × Bytes)}
    {name : List Char} (data : Bytes) (h : name ∉ sink.list dir) (h' : name ∉ parts.map Prod.fst) :
    (sink.withParts dir parts).writePart dir name data =
      sink.withParts dir (parts ++ [(name, data)]) := by
  have hnew : name ∉ (sink.withParts dir parts).list dir := by
    rw [list, withParts_self, List.map_append, List.mem_append, not_or]
    exact ⟨h, h'⟩
  rw [writePart, if_neg hnew, withParts_self, update_withParts, withParts, List.append_assoc]

theorem cleanupOrphanParts_eq (written : List (List Char)) : sink.cleanupOrphanParts dir written =
      Function.update sink dir ((sink dir).filter (·.1 ∉ written)) := by
  unfold cleanupOrphanParts
  induction written generalizing sink with
  | nil => simp
  | cons name written ih =>
    rw [List.foldl_cons, ih, deleteFile, Function.update_self, Function.update_idem,
      List.filter_filter]
    congr 1
    refine List.filter_congr fun p _ => ?_
    simp only [List.mem_cons, not_or, ← Bool.decide_and, and_comm]

/-- **The compensation takes back what was written**, and only that. -/
theorem cleanup_withParts {sink : Sink} {dir : Bytes} {parts : List (List Char × Bytes)}
    (h : ∀ p ∈ parts, p.1 ∉ sink.list dir) (rest : List (List Char × Bytes))
    (hrest : ∀ p ∈ rest, p.1 ∉ parts.map Prod.fst) :
    (sink.withParts dir (parts ++ rest)).cleanupOrphanParts dir (parts.map Prod.fst) =
      sink.withParts dir rest := by
  rw [cleanupOrphanParts_eq, update_withParts, withParts_self, withParts]
  congr 1
  rw [List.filter_append, List.filter_append]
  have hold : (sink dir).filter (·.1 ∉ parts.map Prod.fst) = sink dir := by
    refine List.filter_eq_self.2 fun p hp => ?_
    rw [decide_eq_true_eq]
    intro hmem
    obtain ⟨p', hp', heq⟩ := List.mem_map.1 hmem
    exact h p' hp' (heq ▸ List.mem_map_of_mem hp)
  have hgone : parts.filter (·.1 ∉ parts.map Prod.fst) = [] := by
    refine List.filter_eq_nil_iff.2 fun p hp => ?_
    rw [decide_eq_true_eq, not_not]
    exact List.mem_map_of_mem hp
  have hkept : rest.filter (·.1 ∉ parts.map Prod.fst) = rest := by
    refine List.filter_eq_self.2 fun p hp => ?_
    rw [decide_eq_true_eq]
    exact hrest p hp
  rw [hold, hgone, hkept, List.nil_append]

end Sink

/-! ## The upload -/

/-- How a `WritePart` ends.  `lost`: it errors after the part was stored. -/
inductive Write where
  | ok
  | fail
  | lost
deriving DecidableEq

/-- The loop over the parts of a payload.  The writes beyond the list succeed. -/
def upload (dir : Bytes) : Sink → Nat → List Write → List Bytes → List (List Char) →
    Except Unit Unit × Sink
  | sink, _, _, [], _ => (.ok (), sink)
  | sink, partSeq, writes, blob :: blobs, written =>
    let partName := partFileName partSeq
    match writes.headD .ok with
    | .ok =>
      upload dir (sink.writePart dir partName blob) (partSeq + 1) writes.tail blobs
        (written ++ [partName])
    | .fail => (.error (), sink.cleanupOrphanParts dir written)
    | .lost =>
      (.error (), (sink.writePart dir partName blob).cleanupOrphanParts dir written)

def numbered : Nat → List Bytes → List (List Char × Bytes)
  | _, [] => []
  | seq, blob :: blobs => (partFileName seq, blob) :: numbered (seq + 1) blobs

/-- The first write of `n` that errors. -/
def firstError (writes : List Write) (n : Nat) : Option Write :=
  (writes.take n).find? (· ≠ .ok)

theorem numbered_snd (seq : Nat) (blobs : List Bytes) :
    (numbered seq blobs).map Prod.snd = blobs := by
  induction blobs generalizing seq with
  | nil => rfl
  | cons blob blobs ih => rw [numbered, List.map_cons, ih]

theorem mem_numbered {seq : Nat} {blobs : List Bytes} {p : List Char × Bytes}
    (h : p ∈ numbered seq blobs) : ∃ n, seq ≤ n ∧ p.1 = partFileName n := by
  induction blobs generalizing seq with
  | nil => simp [numbered] at h
  | cons blob blobs ih =>
    rcases List.mem_cons.1 h with rfl | h
    · exact ⟨seq, le_refl _, rfl⟩
    · obtain ⟨n, hn, heq⟩ := ih h
      exact ⟨n, by omega, heq⟩

theorem firstError_nil (n : Nat) : firstError [] n = none := by simp [firstError]

theorem firstError_zero (writes : List Write) : firstError writes 0 = none := by
  simp [firstError]

theorem firstError_succ (w : Write) (writes : List Write) (n : Nat) :
    firstError (w :: writes) (n + 1) = if w = .ok then firstError writes n else some w := by
  unfold firstError
  rw [List.take_succ_cons, List.find?_cons]
  by_cases hw : w = .ok <;> simp [hw]

/-- **An upload, by its first error.**  Without one every part is there; after
    one nothing is, but for the part of a write that was stored all the same. -/
theorem upload_spec {sink : Sink} {dir : Bytes} {first : Nat} (hfirst : 1 ≤ first)
    (hfresh : ∀ n, first ≤ n → partFileName n ∉ sink.list dir) (blobs : List Bytes) :
    ∀ (writes : List Write) (done : List (List Char × Bytes)) (seq : Nat), first ≤ seq →
      (∀ p ∈ done, ∃ n, first ≤ n ∧ n < seq ∧ p.1 = partFileName n) →
      (firstError writes blobs.length = none ∧
        upload dir (sink.withParts dir done) seq writes blobs (done.map Prod.fst) =
          (.ok (), sink.withParts dir (done ++ numbered seq blobs))) ∨
      (firstError writes blobs.length = some .fail ∧
        upload dir (sink.withParts dir done) seq writes blobs (done.map Prod.fst) =
          (.error (), sink)) ∨
      (firstError writes blobs.length = some .lost ∧
        ∃ p, upload dir (sink.withParts dir done) seq writes blobs (done.map Prod.fst) =
          (.error (), sink.withParts dir [p])) := by
  induction blobs with
  | nil =>
    intro writes done seq _ _
    refine .inl ⟨firstError_zero _, ?_⟩
    rw [upload, numbered, List.append_nil]
  | cons blob blobs ih =>
    intro writes done seq hseq hdone
    have hnew : partFileName seq ∉ sink.list dir := hfresh seq hseq
    have hnew' : partFileName seq ∉ done.map Prod.fst := by
      intro hmem
      obtain ⟨p, hp, heq⟩ := List.mem_map.1 hmem
      obtain ⟨n, h1, h2, hn⟩ := hdone p hp
      have := partFileName_injective (by omega) (by omega) (hn.symm.trans heq)
      omega
    have hold : ∀ p ∈ done, p.1 ∉ sink.list dir := by
      intro p hp
      obtain ⟨n, h1, -, hn⟩ := hdone p hp
      rw [hn]
      exact hfresh n h1
    have hwrite := Sink.writePart_new blob hnew hnew'
    -- one more part is written, and the rest as before
    have hok : ∀ ws, writes.headD .ok = .ok → writes.tail = ws →
        (firstError writes (blobs.length + 1) = firstError ws blobs.length ∧
          upload dir (sink.withParts dir done) seq writes (blob :: blobs)
            (done.map Prod.fst) =
          upload dir (sink.withParts dir (done ++ [(partFileName seq, blob)])) (seq + 1) ws
            blobs ((done ++ [(partFileName seq, blob)]).map Prod.fst)) := by
      intro ws hw hws
      refine ⟨?_, ?_⟩
      · cases writes with
        | nil => rw [← hws, List.tail_nil, firstError_nil, firstError_nil]
        | cons w writes =>
          have hw' : w = .ok := hw
          rw [firstError_succ, if_pos hw', ← hws, List.tail_cons]
      · rw [upload]
        simp only [hw, hwrite, hws, List.map_append, List.map_cons, List.map_nil]
    have hdone' : ∀ p ∈ done ++ [(partFileName seq, blob)],
        ∃ n, first ≤ n ∧ n < seq + 1 ∧ p.1 = partFileName n := by
      intro p hp
      rcases List.mem_append.1 hp with hp | hp
      · obtain ⟨n, h1, h2, hn⟩ := hdone p hp
        exact ⟨n, h1, by omega, hn⟩
      · rw [List.mem_singleton.1 hp]
        exact ⟨seq, hseq, by omega, rfl⟩
    rw [List.length_cons]
    cases hw : writes.headD .ok with
    | ok =>
      obtain ⟨hfe, hup⟩ := hok _ hw rfl
      rw [hfe, hup]
      have hrest := ih writes.tail (done ++ [(partFileName seq, blob)]) (seq + 1) (by omega)
        hdone'
      rwa [List.append_assoc, List.singleton_append] at hrest
    | fail =>
      obtain ⟨w, ws, rfl⟩ : ∃ w ws, writes = w :: ws := by
        cases writes with
        | nil => simp at hw
        | cons w ws => exact ⟨w, ws, rfl⟩
      have hw' : w = .fail := hw
      subst hw'
      refine .inr (.inl ⟨by rw [firstError_succ]; rfl, ?_⟩)
      rw [upload]
      simp only [hw]
      have hclean := Sink.cleanup_withParts hold [] (by simp)
      rw [List.append_nil, Sink.withParts_nil] at hclean
      rw [hclean]
    | lost =>
      obtain ⟨w, ws, rfl⟩ : ∃ w ws, writes = w :: ws := by
        cases writes with
        | nil => simp at hw
        | cons w ws => exact ⟨w, ws, rfl⟩
      have hw' : w = .lost := hw
      subst hw'
      refine .inr (.inr ⟨by rw [firstError_succ]; rfl, (partFileName seq, blob), ?_⟩)
      rw [upload]
      simp only [hw, hwrite]
      rw [Sink.cleanup_withParts hold [(partFileName seq, blob)]]
      intro p hp
      rw [List.mem_singleton.1 hp]
      exact hnew'

/-! ## An attempt -/

/-- What `processSignal` calls besides the sink: the hashes, the compressor,
    `common.Marshal` of a row, and the two bounds of a part in bytes. -/
structure Env where
  hashing : Hashing
  codec : Codec
  marshal : Message → Option Bytes
  maxPartRawBytes : Nat
  maxWritePartBytes : Nat

def encodeJSONL (marshal : Message → Option Bytes) (rows : List Message) : Bytes :=
  rows.flatMap fun m =>
    match marshal m with
    | some line => line ++ [newline]
    | none => []

/-- Which steps of an attempt error. -/
structure Faults where
  loadWatermark : Bool := false
  ensureDir : Bool := false
  list : Bool := false
  writes : List Write := []
  saveWatermark : Bool := false

/-- The parts, the stored watermark of the signal's conversation, the
    fingerprints the process has seen. -/
structure State where
  sink : Sink
  stored : Option StoredWatermark
  seen : FingerprintSet

variable (env : Env) (signal : CaptureSignal)

variable (st : State)

/-- The rows `processSignal` selects. -/
def selected : Selected := select env.hashing signal st.stored st.seen

def partsOf : List Bytes :=
  env.codec.blobs env.maxPartRawBytes env.maxWritePartBytes
    (encodeJSONL env.marshal (selected env signal st).rows)

/-- The first line of `processSignal`. -/
def nothingToDo : Bool := signal.userId ≤ 0 || signal.messages.isEmpty

/-- `processSignal`: the number of rows, or an error. -/
def processSignal (f : Faults) : Except Unit Nat × State :=
  if nothingToDo signal then (.ok 0, st)
  else if signal.conversationId ≠ [] ∧ f.loadWatermark then (.error (), st)
  else
    let s := selected env signal st
    let dir := signal.dirPath
    if s.rows = [] then (.ok 0, { st with seen := s.seen })
    else if f.ensureDir then (.error (), { st with seen := s.seen })
    else if f.list then (.error (), { st with seen := s.seen })
    else
      match upload dir st.sink (pickNextPartSeq (st.sink.list dir)) f.writes
          (partsOf env signal st) [] with
      | (.error (), sink) => (.error (), { st with seen := s.seen, sink := sink })
      | (.ok (), sink) =>
        (.ok s.rows.length,
          { sink := sink, seen := s.seen,
            -- a watermark that is not saved is only logged
            stored := if signal.conversationId ≠ [] ∧ ¬ f.saveWatermark then some s.next
              else st.stored })

/-- The step an attempt errors at: `lost` for a write that stored its part. -/
def fault (f : Faults) : Option Write :=
  if nothingToDo signal then none
  else if signal.conversationId ≠ [] ∧ f.loadWatermark then some .fail
  else if (selected env signal st).rows = [] then none
  else if f.ensureDir ∨ f.list then some .fail
  else firstError f.writes (partsOf env signal st).length

def pending : Bytes :=
  if nothingToDo signal then [] else encodeJSONL env.marshal (selected env signal st).rows

/-- The sink has gained parts under new names that read back to that content,
    and nothing else. -/
def UploadedOnce (st st' : State) : Prop :=
  ∃ parts : List (List Char × Bytes),
    st'.sink = st.sink.withParts signal.dirPath parts ∧
    (∀ p ∈ parts, p.1 ∉ st.sink.list signal.dirPath) ∧
    (parts.map fun p => env.codec.unpack p.2).flatten = pending env signal st

section Spec

variable {env : Env} {signal : CaptureSignal} {st : State}

theorem uploadedOnce_of_sink {st' : State} (hsink : st'.sink = st.sink)
    (hpending : pending env signal st = []) : UploadedOnce env signal st st' :=
  ⟨[], by rw [hsink, Sink.withParts_nil], by simp, by rw [hpending]; rfl⟩

/-- **An attempt, by its fault.** -/
theorem processSignal_spec (env : Env) (signal : CaptureSignal) (st : State) (f : Faults) :
    (fault env signal st f = none ∧ ∃ n st', processSignal env signal st f = (.ok n, st') ∧
      UploadedOnce env signal st st') ∨
    (fault env signal st f = some .fail ∧ processSignal env signal st f =
      (.error (), { st with seen := (selected env signal st).seen })) ∨
    (fault env signal st f = some .lost ∧ ∃ p, processSignal env signal st f =
      (.error (), { st with seen := (selected env signal st).seen,
                            sink := st.sink.withParts signal.dirPath [p] })) := by
  unfold fault processSignal
  by_cases hno : nothingToDo signal
  · rw [if_pos hno, if_pos hno]
    exact .inl ⟨rfl, 0, st, rfl, uploadedOnce_of_sink rfl (by rw [pending, if_pos hno])⟩
  rw [if_neg hno, if_neg hno]
  have hpending : pending env signal st =
      encodeJSONL env.marshal (selected env signal st).rows := by rw [pending, if_neg hno]
  by_cases hload : signal.conversationId ≠ [] ∧ f.loadWatermark
  · rw [if_pos hload, if_pos hload]
    -- with a conversation the selection has not touched the seen set
    have hseen : (selected env signal st).seen = st.seen := select_seen hload.1 _ _
    exact .inr (.inl ⟨rfl, by rw [hseen]⟩)
  rw [if_neg hload, if_neg hload]
  by_cases hrows : (selected env signal st).rows = []
  · rw [if_pos hrows, if_pos hrows]
    refine .inl ⟨rfl, 0, _, rfl, uploadedOnce_of_sink rfl ?_⟩
    rw [hpending, hrows]
    rfl
  rw [if_neg hrows, if_neg hrows]
  by_cases hdir : f.ensureDir
  · rw [if_pos hdir, if_pos (.inl hdir)]
    exact .inr (.inl ⟨rfl, rfl⟩)
  by_cases hlist : f.list
  · rw [if_neg hdir, if_pos hlist, if_pos (.inr hlist)]
    exact .inr (.inl ⟨rfl, rfl⟩)
  rw [if_neg hdir, if_neg hlist, if_neg (not_or.2 ⟨hdir, hlist⟩)]
  have hfirst : 1 ≤ pickNextPartSeq (st.sink.list signal.dirPath) := by
    unfold pickNextPartSeq
    omega
  have hspec := upload_spec hfirst (fun n hn => partFileName_fresh _ hn) (partsOf env signal st)
    f.writes [] _ (le_refl _) (by simp)
  rw [Sink.withParts_nil, List.map_nil, List.nil_append] at hspec
  rcases hspec with ⟨hfe, hup⟩ | ⟨hfe, hup⟩ | ⟨hfe, p, hup⟩
  · rw [hup]
    refine .inl ⟨hfe, _, _, rfl, _, rfl, ?_, ?_⟩
    · intro p hp
      obtain ⟨n, hn, heq⟩ := mem_numbered hp
      rw [heq]
      exact partFileName_fresh _ hn
    have hmap : (numbered (pickNextPartSeq (st.sink.list signal.dirPath))
        (partsOf env signal st)).map (env.codec.unpack ∘ Prod.snd) =
        (partsOf env signal st).map env.codec.unpack := by
      rw [← List.map_map, numbered_snd]
    show ((numbered _ _).map (env.codec.unpack ∘ Prod.snd)).flatten = _
    rw [hmap, hpending, partsOf, Codec.unpack_blobs]
  · rw [hup]
    exact .inr (.inl ⟨hfe, rfl⟩)
  · rw [hup]
    exact .inr (.inr ⟨hfe, p, rfl⟩)

end Spec

/-! ## Retries -/

/-- The attempts at a signal from `st`, until one succeeds: each that errors
    leaves the state as it was before it, and the one that succeeds has uploaded
    what was pending in `st₀`. -/
def AllOrNothing (st₀ : State) : State → List Faults → Prop
  | _, [] => True
  | st, f :: fs =>
    match processSignal env signal st f with
    | (.ok _, st') => UploadedOnce env signal st₀ st'
    | (.error (), st') => st' = st ∧ AllOrNothing st₀ st' fs

/-- An attempt does not err at a write that stored its part, and without a
    conversation it does not err at all, unless the seen set is refilled. -/
def Clean (st : State) (f : Faults) : Prop :=
  fault env signal st f ≠ some .lost ∧
    (fault env signal st f ≠ none →
      signal.conversationId ≠ [] ∨ Refills env.hashing signal st.seen)

def CleanAttempts (st : State) : List Faults → Prop
  | [] => True
  | f :: fs => Clean env signal st f ∧ (fault env signal st f ≠ none → CleanAttempts st fs)

variable {env signal}

theorem rows_ne_nil_of_fault {st : State} {f : Faults} (h : fault env signal st f ≠ none)
    (hconv : signal.conversationId = []) : (selected env signal st).rows ≠ [] := by
  intro hnil
  apply h
  unfold fault
  by_cases hno : nothingToDo signal
  · rw [if_pos hno]
  · rw [if_neg hno, if_neg fun hload => hload.1 hconv, if_pos hnil]

theorem seen_kept_iff {st : State} {f : Faults} (h : fault env signal st f ≠ none) :
    (selected env signal st).seen = st.seen ↔
      signal.conversationId ≠ [] ∨ Refills env.hashing signal st.seen := by
  by_cases hconv : signal.conversationId = []
  · rw [or_iff_right fun hne => hne hconv]
    exact select_seen_iff hconv (rows_ne_nil_of_fault h hconv)
  · exact iff_of_true (select_seen hconv _ _) (.inl hconv)

/-- **A capture is all-or-nothing exactly as long as its attempts are clean.** -/
theorem capture_all_or_nothing (env : Env) (signal : CaptureSignal) (st : State)
    (fs : List Faults) : AllOrNothing env signal st st fs ↔ CleanAttempts env signal st fs := by
  induction fs with
  | nil => exact Iff.rfl
  | cons f fs ih =>
    unfold AllOrNothing CleanAttempts Clean
    rcases processSignal_spec env signal st f with
      ⟨hf, n, st', hp, honce⟩ | ⟨hf, hp⟩ | ⟨hf, p, hp⟩
    · rw [hp, hf]
      refine iff_of_true honce ⟨⟨?_, fun hne => absurd rfl hne⟩, fun hne => absurd rfl hne⟩
      decide
    · have hfault : fault env signal st f ≠ none := by
        rw [hf]
        decide
      rw [hp, ← seen_kept_iff hfault, hf]
      have hfail : some Write.fail ≠ none := by decide
      have hlost : some Write.fail ≠ some .lost := by decide
      constructor
      · rintro ⟨hst, hrest⟩
        have hseen : (selected env signal st).seen = st.seen := congrArg State.seen hst
        rw [hst] at hrest
        exact ⟨⟨hlost, fun _ => hseen⟩, fun _ => ih.1 hrest⟩
      rintro ⟨⟨-, hseen⟩, hrest⟩
      have hst : { st with seen := (selected env signal st).seen } = st := by
        rw [hseen hfail]
      exact ⟨hst, by rw [hst]; exact ih.2 (hrest hfail)⟩
    rw [hp, hf]
    refine iff_of_false ?_ fun h => h.1.1 rfl
    rintro ⟨hst, -⟩
    -- the directory has one file more
    have hsink : st.sink.withParts signal.dirPath [p] = st.sink := congrArg State.sink hst
    have hlen := congrArg (fun sink : Sink => (sink signal.dirPath).length) hsink
    simp only [Sink.withParts_self, List.length_append, List.length_singleton] at hlen
    omega

/-- Hashes without collisions, parts that are the bytes themselves. -/
def plainEnv : Env where
  hashing := { sha := spelled, lowerTrim := fun role => role }
  codec :=
    { gzip := some
      unpack := fun part => part
      unpack_gzip := fun _ => rfl
      subSize := fun _ _ => 1 }
  marshal m := some m.content
  maxPartRawBytes := 1000
  maxWritePartBytes := 1000

def strayMessage : CaptureSignal where
  userId := 1
  messages := [{ role := roleRequest, content := ascii "hello" }]

def nothingCaptured : State where
  sink := fun _ => []
  stored := none
  seen := { capacity := 8, order := [], nodup := List.nodup_nil, length_le := Nat.zero_le 8 }

/-- The first write errors, nothing else does.  The fingerprint of the message
    stays in the seen set, so that the retry has no row to upload, succeeds, and
    the message is nowhere. -/
theorem failedWrite_loses_stray_message :
    ¬ AllOrNothing plainEnv strayMessage nothingCaptured nothingCaptured
        [{ writes := [.fail] }, {}] ∧
      (processSignal plainEnv strayMessage
          (processSignal plainEnv strayMessage nothingCaptured { writes := [.fail] }).2 {}).1 =
        .ok 0 ∧
      (processSignal plainEnv strayMessage
          (processSignal plainEnv strayMessage nothingCaptured { writes := [.fail] }).2 {}).2.sink
          strayMessage.dirPath = [] := by
  refine ⟨?_, by decide +kernel, by decide +kernel⟩
  have herr : (processSignal plainEnv strayMessage nothingCaptured { writes := [.fail] }).1 =
      .error () := by decide +kernel
  have hseen : (processSignal plainEnv strayMessage nothingCaptured
      { writes := [.fail] }).2.seen.order.length = 1 := by decide +kernel
  unfold AllOrNothing
  generalize processSignal plainEnv strayMessage nothingCaptured { writes := [.fail] } = p
    at herr hseen ⊢
  obtain ⟨r, st'⟩ := p
  obtain rfl : r = .error () := herr
  rintro ⟨rfl, -⟩
  exact absurd hseen (by decide)

end NewApi.TrainingCapture
