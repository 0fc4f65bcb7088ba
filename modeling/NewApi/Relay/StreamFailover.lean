/-
  NewApi.Relay.StreamFailover

  The first-packet buffer (`relay/helper/buffered_writer.go`) under
  `StreamScannerHandler` (`relay/helper/stream_scanner.go`) with failover on.

  Until the buffer is released nothing of an attempt is to reach the client, so
  that a silent upstream can be given up for another.  Three parties release it:
  the reader at the first useful chunk, the main loop at the first-token deadline
  or at the end, and the writer itself when the buffer is full.  The main loop
  also decides to give the attempt up, with two looks at the writer, while reader
  and handler still run.

  Reader, handler and main loop take their steps in any order.
-/

import NewApi.Lib.Run
import NewApi.Subscription.Store
import Mathlib

namespace NewApi.Relay.StreamFailover

open NewApi.Lib

/-! ## The writer -/

def maxFirstPacketBufferBytes : Nat := 2 ^ 20

/-- `FirstPacketBufferWriter`, with what the writer below it has passed on to the
    client and what it was itself given so far. -/
structure BufferWriter where
  buf : List UInt8 := []
  committed : Bool := false
  dropped : Bool := false
  client : List UInt8 := []
  written : List UInt8 := []
deriving DecidableEq

def BufferWriter.commit (w : BufferWriter) : BufferWriter :=
  if w.committed then w
  else
    { w with
      committed := true
      client := if w.dropped = false ∧ 0 < w.buf.length then w.client ++ w.buf else w.client
      buf := [] }

/-- The buffer has no room for `p`. -/
def BufferWriter.Overflows (w : BufferWriter) (p : List UInt8) : Prop :=
  w.committed = false ∧ maxFirstPacketBufferBytes < w.buf.length + p.length

instance (w : BufferWriter) (p : List UInt8) : Decidable (w.Overflows p) :=
  inferInstanceAs (Decidable (_ ∧ _))

def BufferWriter.write (w : BufferWriter) (p : List UInt8) : BufferWriter :=
  if w.committed then { w with client := w.client ++ p, written := w.written ++ p }
  else if maxFirstPacketBufferBytes < w.buf.length + p.length then
    { w with
      dropped := true
      committed := true
      client := w.client ++ p
      written := w.written ++ p }
  else { w with buf := w.buf ++ p, written := w.written ++ p }

/-! ## The parties -/

/-- What the reader makes of a line. -/
inductive Frame where
  | skip
  | done
  | data (d : String)

def readLine (line : String) : Frame :=
  if line.utf8ByteSize < 6 then .skip
  else if ¬"data:".toList <+: line.toList ∧ ¬"[DONE]".toList <+: line.toList then .skip
  else
    let data := Subscription.trimSpace (String.ofList (line.toList.drop 5))
    if data = "" then .skip
    else if "[DONE]".toList <+: data.toList then .done
    else .data data

inductive Reader where
  | scanning
  /-- a line has come; the reader looks whether to stop -/
  | read (line : String)
  /-- a useful chunk: the buffer is released first -/
  | useful (d : String)
  | sending (d : String)
  | closing
  | exited
deriving DecidableEq

inductive Handler where
  | waiting
  | handling (d : String)
  /-- it stopped by itself, or the channel is closed -/
  | closing
  | exited
deriving DecidableEq

inductive Main where
  | looping
  /-- the deadline has come and the writer was not committed -/
  | deciding
  /-- there were bytes in the buffer, which are released -/
  | releasing
  /-- at `streamFinished` -/
  | finished (firstTokenTimedOut : Bool)
  /-- returning, once the deferred `cleanup` has seen the others out -/
  | leaving (fatal : Bool)
  /-- in `cleanup`, before the look at the buffer -/
  | cleaning
  | returned (fatal : Bool)
deriving DecidableEq

structure State where
  writer : BufferWriter := {}
  reader : Reader := .scanning
  handler : Handler := .waiting
  main : Main := .looping
  /-- `firstTokenCh` is not nil -/
  armed : Bool
  dataChan : List String := []
  dataClosed : Bool := false
  /-- `stopChan` is closed -/
  stopped : Bool := false
  /-- `ctx` is done -/
  cancelled : Bool := false
  clientGone : Bool := false
deriving DecidableEq

/-- The capacity of `dataChan`. -/
def dataChanCap : Nat := 10

inductive Act where
  /-- the scanner returns a line, or nothing more -/
  | scan (line : String)
  | eof
  /-- the next stretch of the reader; it may find the stream to be stopped where
      it sends -/
  | reader
  | quit
  | take
  | write (p : List UInt8)
  /-- the handler is through with a chunk, and may stop the stream -/
  | handled (stops : Bool)
  | handlerExit
  | timeout
  | stop
  | gone
  | disconnect
  | deadline
  /-- the next stretch of the main loop -/
  | main

variable (isUsefulStreamData : String → Bool)

/-- The reader, from one point where others may come in between to the next. -/
def readerStep (s : State) : State :=
  match s.reader with
  | .read line =>
    if s.stopped || s.cancelled then { s with reader := .closing }
    else
      match readLine line with
      | .skip => { s with reader := .scanning }
      | .done => { s with reader := .closing }
      | .data d => { s with reader := if isUsefulStreamData d then .useful d else .sending d }
  | .useful d => { s with writer := s.writer.commit, reader := .sending d }
  | .sending d =>
    if s.dataChan.length < dataChanCap then
      { s with dataChan := s.dataChan ++ [d], reader := .scanning }
    else s
  | .closing => { s with dataClosed := true, stopped := true, reader := .exited }
  | _ => s

/-- The main loop, likewise. -/
def mainStep (s : State) : State :=
  match s.main with
  | .deciding =>
    if 0 < s.writer.buf.length then { s with main := .releasing }
    else { s with main := .finished true }
  | .releasing => { s with writer := s.writer.commit, armed := false, main := .looping }
  | .finished firstTokenTimedOut =>
    if s.clientGone then { s with main := .leaving false }
    else if firstTokenTimedOut then { s with main := .leaving true }
    else { s with cancelled := true, stopped := true, main := .cleaning }
  | .leaving fatal =>
    if s.reader = .exited ∧ s.handler = .exited then { s with main := .returned fatal }
    else { s with cancelled := true, stopped := true }
  | .cleaning =>
    if s.reader = .exited ∧ s.handler = .exited then
      if s.writer.committed then { s with main := .returned false }
      else if 0 < s.writer.buf.length then
        { s with writer := s.writer.commit, main := .returned false }
      else { s with main := .returned true }
    else s
  | _ => s

def step (s : State) : Act → State
  | .scan line => if s.reader = .scanning then { s with reader := .read line } else s
  | .eof => if s.reader = .scanning then { s with reader := .closing } else s
  | .reader => readerStep isUsefulStreamData s
  | .quit =>
    match s.reader with
    | .sending _ => if s.stopped || s.cancelled then { s with reader := .closing } else s
    | _ => s
  | .take =>
    match s.handler, s.dataChan with
    | .waiting, d :: rest => { s with handler := .handling d, dataChan := rest }
    | .waiting, [] => if s.dataClosed then { s with handler := .closing } else s
    | _, _ => s
  | .write p =>
    match s.handler with
    | .handling _ => { s with writer := s.writer.write p }
    | _ => s
  | .handled stops =>
    match s.handler with
    | .handling _ => { s with handler := if stops then .closing else .waiting }
    | _ => s
  | .handlerExit =>
    match s.handler with
    | .closing => { s with stopped := true, handler := .exited }
    | _ => s
  | .timeout => if s.main = .looping then { s with main := .finished false } else s
  | .stop =>
    if s.main = .looping ∧ s.stopped = true then { s with main := .finished false } else s
  | .gone =>
    if s.main = .looping ∧ s.clientGone = true then { s with main := .finished false } else s
  | .disconnect => { s with clientGone := true }
  | .deadline =>
    if s.main = .looping ∧ s.armed = true then
      if s.writer.committed then { s with armed := false } else { s with main := .deciding }
    else s
  | .main => mainStep s

/-! ## Nothing mixed, nothing lost -/

/-- An attempt that is given up has shown nothing, and what the client has is the
    beginning of what was written, all of it once the buffer is released. -/
structure Clean (s : State) : Prop where
  silent : s.main = .returned true → s.writer.client = []
  prefix_written : s.writer.client <+: s.writer.written
  released : s.writer.committed = true → s.writer.client = s.writer.written

/-- The main loop is about to give the attempt up: the deadline has come, and the
    writer was found not committed. -/
def Main.givingUp : Main → Bool
  | .deciding => true
  | .finished timedOut => timedOut
  | .leaving fatal => fatal
  | _ => false

def Reader.releases : Reader → Bool
  | .useful _ => true
  | _ => false

def Handler.handles : Handler → Bool
  | .handling _ => true
  | _ => false

/-- No chunk releases the buffer while the main loop is about to give the attempt
    up, and the buffer overflows only when it is empty, and not then either. -/
def Timely (s : State) : Act → Prop
  | .reader => s.reader.releases = true → s.main.givingUp = false
  | .write p => s.handler.handles = true → s.writer.Overflows p →
      s.writer.buf = [] ∧ s.main.givingUp = false
  | _ => True

instance (s : State) : ∀ a, Decidable (Timely s a)
  | .reader => inferInstanceAs (Decidable (_ → _))
  | .write _ => inferInstanceAs (Decidable (_ → _ → _))
  | .scan _ | .eof | .quit | .take | .handled _ | .handlerExit | .timeout | .stop | .gone
  | .disconnect | .deadline | .main => instDecidableTrue

/-! ## The writer's invariant -/

/-- All that was written is in the buffer, or all of it has gone out. -/
structure WriterOk (w : BufferWriter) : Prop where
  held : w.committed = false → w.client = [] ∧ w.buf = w.written ∧ w.dropped = false
  released : w.committed = true → w.client = w.written ∧ w.buf = []

variable {w : BufferWriter}

theorem WriterOk.commit (h : WriterOk w) : WriterOk w.commit := by
  cases hc : w.committed with
  | true =>
    have hsame : w.commit = w := if_pos hc
    rwa [hsame]
  | false =>
    obtain ⟨hclient, hbuf, hdropped⟩ := h.held hc
    have hcommit : w.commit = { w with committed := true, client := w.written, buf := [] } := by
      unfold BufferWriter.commit
      rw [hc, hdropped, hclient, hbuf]
      by_cases hlen : 0 < w.written.length
      · simp [hlen]
      · have hnil : w.written = [] := List.length_eq_zero_iff.1 (by omega)
        simp [hnil]
    rw [hcommit]
    refine ⟨fun hfalse => ?_, fun _ => ⟨rfl, rfl⟩⟩
    cases hfalse

variable {p : List UInt8}

theorem WriterOk.write (h : WriterOk w)
    (hfull : w.Overflows p → w.buf = []) : WriterOk (w.write p) := by
  unfold BufferWriter.write
  cases hc : w.committed with
  | true =>
    obtain ⟨hclient, hbuf⟩ := h.released hc
    rw [if_pos rfl]
    refine ⟨fun hfalse => ?_, fun _ => ⟨?_, hbuf⟩⟩
    · cases hfalse
    · rw [hclient]
  | false =>
    obtain ⟨hclient, hbuf, hdropped⟩ := h.held hc
    rw [if_neg Bool.false_ne_true]
    by_cases hover : maxFirstPacketBufferBytes < w.buf.length + p.length
    · have hempty := hfull ⟨hc, hover⟩
      rw [if_pos hover]
      refine ⟨fun hfalse => ?_, fun _ => ⟨?_, hempty⟩⟩
      · cases hfalse
      · rw [hclient, ← hbuf, hempty]
    rw [if_neg hover]
    refine ⟨fun _ => ⟨hclient, ?_, hdropped⟩, fun htrue => ?_⟩
    · rw [hbuf]
    · cases htrue

theorem write_overflow (hc : w.committed = false)
    (hover : maxFirstPacketBufferBytes < w.buf.length + p.length) : w.write p = { w with
        dropped := true
        committed := true
        client := w.client ++ p
        written := w.written ++ p } := by
  unfold BufferWriter.write
  rw [if_neg (by rw [hc]; exact Bool.false_ne_true), if_pos hover]

theorem write_committed (hc : w.committed = false)
    (hroom : ¬w.Overflows p) : (w.write p).committed = false := by
  have hover : ¬maxFirstPacketBufferBytes < w.buf.length + p.length := fun h => hroom ⟨hc, h⟩
  unfold BufferWriter.write
  rw [if_neg (by rw [hc]; exact Bool.false_ne_true), if_neg hover]
  exact hc

/-! ## The invariant of the stream -/

structure Inv (s : State) : Prop where
  writer : WriterOk s.writer
  /-- while the main loop is about to give up, nothing was released -/
  givingUp : s.main.givingUp = true → s.writer.committed = false
  silent : s.main = .returned true → s.writer.committed = false
  /-- when it has returned, the others are gone -/
  ended : ∀ fatal, s.main = .returned fatal → s.reader = .exited ∧ s.handler = .exited

variable {s : State}

section
variable (h : Inv s)
include h

theorem Inv.clean : Clean s where
  silent hmain := (h.writer.held (h.silent hmain)).1
  prefix_written := by
    cases hc : s.writer.committed with
    | true =>
      rw [(h.writer.released hc).1]
    | false =>
      rw [(h.writer.held hc).1]
      exact List.nil_prefix
  released hc := (h.writer.released hc).1

theorem Inv.elsewhere {s' : State} (hwriter : s'.writer = s.writer)
    (hmain : s'.main = s.main)
    (hopen : (s'.reader = s.reader ∧ s'.handler = s.handler) ∨ s.reader ≠ .exited ∨
      s.handler ≠ .exited) : Inv s' := by
  refine ⟨by rw [hwriter]; exact h.writer, ?_, ?_, fun fatal hret => ?_⟩
  · rw [hmain, hwriter]
    exact h.givingUp
  · rw [hmain, hwriter]
    exact h.silent
  rw [hmain] at hret
  obtain ⟨hreader, hhandler⟩ := h.ended fatal hret
  rcases hopen with ⟨hr, hh⟩ | hr | hh
  · exact ⟨hr.trans hreader, hh.trans hhandler⟩
  · exact absurd hreader hr
  · exact absurd hhandler hh

theorem Inv.turn {s' : State} (hwriter : s'.writer = s.writer)
    (hgiving : s'.main.givingUp = true → s.writer.committed = false)
    (hreturn : ∀ fatal, s'.main ≠ .returned fatal) : Inv s' :=
  ⟨by rw [hwriter]; exact h.writer, by rw [hwriter]; exact hgiving,
    fun hmain => absurd hmain (hreturn true), fun fatal hmain => absurd hmain (hreturn fatal)⟩

theorem Inv.reader (ht : Timely s .reader) : Inv (readerStep isUsefulStreamData s) := by
  unfold readerStep
  cases hreader : s.reader with
  | scanning => exact h
  | exited => exact h
  | read line =>
    have hopen : s.reader ≠ .exited := by rw [hreader]; exact fun hr => Reader.noConfusion hr
    by_cases hstop : (s.stopped || s.cancelled) = true
    · simp only [if_pos hstop]
      exact h.elsewhere rfl rfl (.inr (.inl hopen))
    simp only [if_neg hstop]
    cases readLine line with
    | skip | done | data d => exact h.elsewhere rfl rfl (.inr (.inl hopen))
  | useful d =>
    have hnot : s.main.givingUp = false := ht (by rw [hreader]; rfl)
    refine ⟨h.writer.commit, fun hgiving => ?_, fun hmain => ?_,
      fun fatal hmain => ?_⟩
    · have hgiving : s.main.givingUp = true := hgiving
      rw [hnot] at hgiving
      cases hgiving
    · have hgone := (h.ended true hmain).1
      rw [hreader] at hgone
      cases hgone
    have hgone := (h.ended fatal hmain).1
    rw [hreader] at hgone
    cases hgone
  | sending d =>
    have hopen : s.reader ≠ .exited := by rw [hreader]; exact fun hr => Reader.noConfusion hr
    by_cases hroom : s.dataChan.length < dataChanCap
    · simp only [if_pos hroom]
      exact h.elsewhere rfl rfl (.inr (.inl hopen))
    · simp only [if_neg hroom]
      exact h
  | closing =>
    have hopen : s.reader ≠ .exited := by rw [hreader]; exact fun hr => Reader.noConfusion hr
    exact h.elsewhere rfl rfl (.inr (.inl hopen))

theorem Inv.write (ht : Timely s (.write p)) {d : String} (hhandler : s.handler = .handling d) : Inv { s with writer := s.writer.write p } := by
  have hopen : ∀ fatal, s.main ≠ .returned fatal := by
    intro fatal hmain
    have hgone := (h.ended fatal hmain).2
    rw [hhandler] at hgone
    cases hgone
  have hhandles : s.handler.handles = true := by rw [hhandler]; rfl
  refine ⟨h.writer.write fun hover => (ht hhandles hover).1, fun hgiving => ?_,
    fun hmain => absurd hmain (hopen true), fun fatal hmain => absurd hmain (hopen fatal)⟩
  have hgiving : s.main.givingUp = true := hgiving
  refine write_committed (h.givingUp hgiving) fun hover => ?_
  rw [(ht hhandles hover).2] at hgiving
  cases hgiving

theorem Inv.main : Inv (mainStep s) := by
  unfold mainStep
  cases hmain : s.main with
  | looping => exact h
  | returned fatal => exact h
  | deciding =>
    have hheld : s.writer.committed = false := h.givingUp (by rw [hmain]; rfl)
    by_cases hbytes : 0 < s.writer.buf.length
    · simp only [if_pos hbytes]
      exact h.turn rfl (fun _ => hheld) fun fatal hret => Main.noConfusion hret
    · simp only [if_neg hbytes]
      exact h.turn rfl (fun _ => hheld) fun fatal hret => Main.noConfusion hret
  | releasing =>
    exact ⟨h.writer.commit, fun hgiving => Bool.noConfusion hgiving, fun hret => Main.noConfusion hret,
      fun fatal hret => Main.noConfusion hret⟩
  | finished timedOut =>
    by_cases hgone : s.clientGone = true
    · simp only [if_pos hgone]
      refine h.turn rfl (fun hgiving => ?_) fun fatal hret => Main.noConfusion hret
      cases hgiving
    simp only [if_neg hgone]
    cases htimed : timedOut with
    | true =>
      have hheld : s.writer.committed = false := h.givingUp (by rw [hmain]; exact htimed)
      exact h.turn rfl (fun _ => hheld) fun fatal hret => Main.noConfusion hret
    | false => exact h.turn rfl (fun hgiving => Bool.noConfusion hgiving) fun fatal hret => Main.noConfusion hret
  | leaving fatal =>
    by_cases hexit : s.reader = .exited ∧ s.handler = .exited
    · simp only [if_pos hexit]
      refine ⟨h.writer, fun hgiving => Bool.noConfusion hgiving, fun hret => ?_, fun _ _ => hexit⟩
      obtain rfl : fatal = true := Main.returned.inj hret
      exact h.givingUp (by rw [hmain]; rfl)
    · simp only [if_neg hexit]
      exact h.elsewhere rfl hmain.symm (.inl ⟨rfl, rfl⟩)
  | cleaning =>
    by_cases hexit : s.reader = .exited ∧ s.handler = .exited
    · simp only [if_pos hexit]
      cases hc : s.writer.committed with
      | true =>
        exact ⟨h.writer, fun hgiving => Bool.noConfusion hgiving, fun hret => Bool.noConfusion (Main.returned.inj hret),
          fun _ _ => hexit⟩
      | false =>
        rw [if_neg Bool.false_ne_true]
        by_cases hbytes : 0 < s.writer.buf.length
        · rw [if_pos hbytes]
          exact ⟨h.writer.commit, fun hgiving => Bool.noConfusion hgiving,
            fun hret => Bool.noConfusion (Main.returned.inj hret), fun _ _ => hexit⟩
        · rw [if_neg hbytes]
          exact ⟨h.writer, fun hgiving => Bool.noConfusion hgiving, fun _ => hc, fun _ _ => hexit⟩
    · simp only [if_neg hexit]
      exact h

theorem Inv.take : Inv (step isUsefulStreamData s .take) := by
  unfold step
  cases hhandler : s.handler with
  | waiting =>
    have hopen : s.handler ≠ .exited := by
      rw [hhandler]
      exact fun hh => Handler.noConfusion hh
    cases hchan : s.dataChan with
    | cons d rest => exact h.elsewhere rfl rfl (.inr (.inr hopen))
    | nil =>
      by_cases hclosed : s.dataClosed = true
      · simp only [if_pos hclosed]
        exact h.elsewhere rfl rfl (.inr (.inr hopen))
      · simp only [if_neg hclosed]
        exact h
  | _ => exact h

theorem Inv.finishes (c : Prop) [Decidable c] :
    Inv (if c then { s with main := .finished false } else s) := by
  by_cases hc : c
  · rw [if_pos hc]
    refine h.turn rfl (fun hgiving => ?_) fun fatal hret => Main.noConfusion hret
    cases hgiving
  · rw [if_neg hc]
    exact h

theorem Inv.deadline : Inv (step isUsefulStreamData s .deadline) := by
  show Inv (if _ then if _ then _ else _ else _)
  by_cases hmain : s.main = .looping ∧ s.armed = true
  · rw [if_pos hmain]
    cases hc : s.writer.committed with
    | true => exact h.elsewhere rfl rfl (.inl ⟨rfl, rfl⟩)
    | false => exact h.turn rfl (fun _ => hc) fun fatal hret => Main.noConfusion hret
  · rw [if_neg hmain]
    exact h

/-- **What a timely step keeps.** -/
theorem Inv.step {a : Act} (ht : Timely s a) : Inv (step isUsefulStreamData s a) := by
  cases a with
  | scan line | eof =>
    by_cases hreader : s.reader = .scanning
    · have hopen : s.reader ≠ .exited := by rw [hreader]; exact fun hr => Reader.noConfusion hr
      show Inv (if _ then _ else _)
      rw [if_pos hreader]
      exact h.elsewhere rfl rfl (.inr (.inl hopen))
    show Inv (if _ then _ else _)
    rw [if_neg hreader]
    exact h
  | reader => exact h.reader isUsefulStreamData ht
  | quit =>
    show Inv (match s.reader with
      | .sending _ => if s.stopped || s.cancelled then { s with reader := .closing } else s
      | _ => s)
    cases hreader : s.reader with
    | sending d =>
      have hopen : s.reader ≠ .exited := by rw [hreader]; exact fun hr => Reader.noConfusion hr
      by_cases hstop : (s.stopped || s.cancelled) = true
      · simp only [if_pos hstop]
        exact h.elsewhere rfl rfl (.inr (.inl hopen))
      · simp only [if_neg hstop]
        exact h
    | _ => exact h
  | take => exact h.take isUsefulStreamData
  | write p =>
    show Inv (match s.handler with
      | .handling _ => { s with writer := s.writer.write p }
      | _ => s)
    cases hhandler : s.handler with
    | handling d => simpa only [hhandler] using h.write ht hhandler
    | _ => exact h
  | handled stops =>
    show Inv (match s.handler with
      | .handling _ => { s with handler := if stops then .closing else .waiting }
      | _ => s)
    cases hhandler : s.handler with
    | handling d =>
      have hopen : s.handler ≠ .exited := by
        rw [hhandler]
        exact fun hh => Handler.noConfusion hh
      exact h.elsewhere rfl rfl (.inr (.inr hopen))
    | _ => exact h
  | handlerExit =>
    show Inv (match s.handler with
      | .closing => { s with stopped := true, handler := .exited }
      | _ => s)
    cases hhandler : s.handler with
    | closing =>
      have hopen : s.handler ≠ .exited := by
        rw [hhandler]
        exact fun hh => Handler.noConfusion hh
      exact h.elsewhere rfl rfl (.inr (.inr hopen))
    | _ => exact h
  | timeout | stop | gone => exact h.finishes _
  | disconnect => exact h.elsewhere rfl rfl (.inl ⟨rfl, rfl⟩)
  | deadline => exact h.deadline isUsefulStreamData
  | main => exact h.main

end

/-- **Failover neither mixes nor loses**, in every timely run. -/
theorem timely_runs_clean (isUsefulStreamData : String → Bool) (armed : Bool) (as : List Act)
    (h : Meets Timely (step isUsefulStreamData) { armed } as) :
    Clean (run (step isUsefulStreamData) { armed } as) := by
  have hopened : Inv { armed } :=
    ⟨⟨fun _ => ⟨rfl, rfl, rfl⟩, fun htrue => Bool.noConfusion htrue⟩,
      fun hgiving => Bool.noConfusion hgiving, fun hret => Main.noConfusion hret,
      fun fatal hret => Main.noConfusion hret⟩
  exact (run_invariant Inv (fun _ _ hinv ht => hinv.step isUsefulStreamData ht) hopened h).clean

def silentUpstream : List Act :=
  [.deadline, .main, .main, .main, .eof, .reader, .take, .handlerExit, .main]

theorem silentUpstream_clean : Clean (run (step fun _ => true) { armed := true } silentUpstream) :=
  timely_runs_clean (fun _ => true) true silentUpstream (by decide)

def chunkAtDeadline : List Act :=
  [.deadline, .main, .main, .scan "data: x", .reader, .reader, .reader, .take, .write [120],
    .handled false, .main, .eof, .reader, .take, .handlerExit, .main]

/-- A large opening of chunks that are not recognised, up to its last byte. -/
def largeOpening : List Act :=
  [.scan "data: x", .reader, .reader, .take, .write [1]]

/-- **Mixed, and lost.**  The attempt is given up and a byte of it is with the
    client; and when the buffer overflows, the byte it held is gone. -/
theorem chunkAtDeadline_largeOpening :
    ¬Clean (run (step fun _ => true) { armed := true } chunkAtDeadline) ∧
      ¬Clean (run (step fun _ => false) { armed := true }
        (largeOpening ++ [.write (List.replicate maxFirstPacketBufferBytes 0)])) := by
  constructor
  · intro h
    exact absurd (h.silent (by decide +kernel)) (by decide +kernel)
  intro h
  have hopening : run (step fun _ => false) { armed := true } largeOpening =
      { armed := true, handler := .handling "x", writer := { buf := [1], written := [1] } } := by
    decide +kernel
  have hwrite : ∀ p : List UInt8, maxFirstPacketBufferBytes < [(1 : UInt8)].length + p.length →
      (run (step fun _ => false) { armed := true } (largeOpening ++ [.write p])).writer =
        { dropped := true, committed := true, buf := [1], client := [] ++ p
          written := [1] ++ p } := by
    intro p hover
    rw [run_append, hopening]
    exact write_overflow (w := { buf := [1], written := [1] }) rfl hover
  have hprefix := h.prefix_written
  rw [hwrite _ (by rw [List.length_replicate, List.length_singleton]; omega)] at hprefix
  have hhead : (List.replicate maxFirstPacketBufferBytes (0 : UInt8)) <+:
      1 :: List.replicate maxFirstPacketBufferBytes 0 := hprefix
  rw [show maxFirstPacketBufferBytes = (2 ^ 20 - 1) + 1 by decide, List.replicate_succ,
    List.cons_prefix_cons] at hhead
  exact absurd hhead.1 (by decide)

end NewApi.Relay.StreamFailover
