/-
  NewApi.AsyncTask.Unconfirmed

  The resolver of unconfirmed tasks (`service/task_unconfirmed_resolution.go`),
  run by any number of executions on one stored row.

  An execution loads a copy while the row reads UNCONFIRMED, asks the upstream
  and then takes one of two ways out:

    * the upstream answer is terminal — `resolveWithUpstreamID` issues
      `UpdateWithStatus(UNCONFIRMED)` *before* it sets the status on its copy,
      bills, and `finalizeUnconfirmed` saves the copy with a plain `Update`;
    * the window has passed — `refundUnconfirmedTask` sets FAILURE on its copy,
      swaps it in, saves the resolution mark and refunds.

  The second swap moves the row out of UNCONFIRMED and so has one winner.  The
  first one writes UNCONFIRMED over UNCONFIRMED: it excludes nobody, and an
  execution that loses it saves its UNCONFIRMED copy over whatever is there.

  Each database statement is one step.  `holder` is a ghost: the execution that
  is between its swap and its last write.
-/

import NewApi.Lib.Workers
import NewApi.AsyncTask.Row

namespace NewApi.AsyncTask.Unconfirmed

open NewApi.Lib Billing

/-! ## The code -/

/-- What one query of the upstream yields. -/
inductive Answer where
  /-- no upstream id, transport error, status ≥ 400, unreadable or unparsable -/
  | none
  /-- a result that is neither SUCCESS nor FAILURE -/
  | inFlight (progress : String)
  | success (url body : String)
  | failure (reason : String)

/-- Where an execution of `unconfirmedResolution` stands. -/
inductive Phase where
  | idle
  /-- the copy is loaded, the window not looked at -/
  | loaded (t : Task)
  | querying (t : Task)
  /-- about to save the progress of a result that is still in flight -/
  | progress (t : Task)
  /-- the query gave nothing; a task with a hint looks at the window now -/
  | windowCheck (t : Task)
  /-- a terminal answer, about to issue the swap from UNCONFIRMED -/
  | confirm (t : Task) (a : Answer)
  /-- the swap was won, about to bill -/
  | bill (t : Task) (r : Resolution)
  /-- `finalizeUnconfirmed`, about to save -/
  | finalize (t : Task) (r : Resolution)
  /-- `refundUnconfirmedTask`, about to issue the swap to FAILURE -/
  | expire (t : Task)
  | expireSave (t : Task)
  | expireRefund (t : Task)
  | done

inductive Act where
  | load
  | begin (expired : Bool)
  | answer (upstreamId : String) (a : Answer)
  | saveProgress (r : CasReply)
  | checkWindow (expired : Bool)
  | confirm (r : CasReply) (now : Int)
  | bill (p : Pricing) (f g : BillFault)
  | finalize (fail : Bool)
  | expireCas (r : CasReply) (now : Int) (reason : String)
  | expireSave (fail : Bool)
  | expireRefund (f : BillFault)

structure Shared (ι : Type*) where
  row : Task
  stores : Stores
  /-- billing actions applied for the task so far -/
  billed : Nat := 0
  holder : Option ι := none

variable (t : Task)

/-- `if task.PrivateData.UpstreamTaskID == ""` -/
def withUpstreamId (id : String) : Task :=
  if t.upstreamTaskId = "" then { t with upstreamTaskId := id } else t

/-- The copy once the swap on a terminal answer is won. -/
def closeAs (a : Answer) (now : Int) : Task :=
  match a with
  | .success url body =>
    { t.finishAt now with
      status := .success, progress := progressComplete,
      resultUrl := if url = "" then t.resultUrl else url,
      data := { body := body } }
  | .failure reason =>
    { t.finishAt now with
      status := .failure, progress := progressComplete,
      failReason := if reason = "" then t.failReason else reason }
  | _ => t

def Answer.resolution : Answer → Resolution
  | .failure _ => .failure
  | _ => .success

/-- The copy `refundUnconfirmedTask` swaps in. -/
def expired (now : Int) (reason : String) : Task :=
  { t.finishAt now with
    status := .failure, progress := progressComplete, failReason := reason }

def withResolution (r : Resolution) : Task :=
  { t with data := { t.data with resolution := some r } }

/-- A query that did not end the task: with a hint the window is looked at now,
    without one it was looked at before. -/
def afterQuery : Phase :=
  if t.data.remoteTaskIdHint = "" then .done else .windowCheck t

variable {ι : Type*}

/-- One statement of execution `i`. -/
def step (cfg : Config) (i : ι) (s : Shared ι) (φ : Phase) (a : Act) : Shared ι × Phase :=
  match φ, a with
  | .idle, .load =>
    -- `GetUnconfirmedUnfinishedTasks`
    if s.row.status = .unconfirmed ∧ s.row.progress ≠ progressComplete then
      (s, .loaded s.row)
    else (s, .idle)
  | .loaded t, .begin expired =>
    if t.data.remoteTaskIdHint = "" ∧ expired then (s, .expire t) else (s, .querying t)
  | .querying t, .answer upstreamId ans =>
    let t := withUpstreamId t upstreamId
    match ans with
    | .none => (s, afterQuery t)
    | .inFlight p => (s, .progress (if p = "" then t else { t with progress := p }))
    | ans => (s, .confirm t ans)
  | .progress t, .saveProgress r =>
    ({ s with row := (updateWithStatus s.row t .unconfirmed r).2 }, afterQuery t)
  | .windowCheck t, .checkWindow expired =>
    (s, if expired then .expire t else .done)
  | .confirm t ans, .confirm r now =>
    let (won, row) := updateWithStatus s.row t .unconfirmed r
    ({ s with row := row, holder := some i },
      if won = some true then .bill (closeAs t ans now) ans.resolution
      else .finalize t ans.resolution)
  | .bill t r, .bill p f g =>
    let b := finalizeBilling cfg ⟨t, s.row, s.stores⟩ p f g
    ({ s with row := b.row, stores := b.stores, billed := s.billed + 1 },
      .finalize b.task r)
  | .finalize t r, .finalize fail =>
    ({ s with row := update s.row (withResolution t r) fail, holder := none }, .done)
  | .expire t, .expireCas r now reason =>
    let t' := expired t now reason
    let (won, row) := updateWithStatus s.row t' t.status r
    if won = some true then ({ s with row := row, holder := some i }, .expireSave t')
    else ({ s with row := row }, .done)
  | .expireSave t, .expireSave fail =>
    let t := withResolution t .refundedAfterWindow
    ({ s with row := update s.row t fail }, .expireRefund t)
  | .expireRefund t, .expireRefund f =>
    if t.quota = 0 then ({ s with holder := none }, .done)
    else
      let b := (refundTaskQuota cfg ⟨t, s.row, s.stores⟩ f).2
      ({ row := b.row, stores := b.stores, billed := s.billed + 1, holder := none }, .done)
  | _, _ => (s, φ)

/-! ## The condition and the invariant -/

variable (s : Shared ι)

/-- The steps on which the resolver is safe.  An execution with a terminal
    answer issues its swap while the row is still UNCONFIRMED and no other
    execution is between its swap and its last write, and its own last write
    goes through; the window swap is not won while such an execution is under
    way. -/
def Alone (φ : Phase) : Act → Prop
  | .confirm _ _ => (∃ t a, φ = .confirm t a) → s.row.status = .unconfirmed ∧ s.holder = none
  | .finalize fail => ∀ t r, φ = .finalize t r → t.status.terminal → fail = false
  | .expireCas _ _ _ => s.row.status = .unconfirmed → s.holder = none
  | _ => True

def Phase.critical : Phase → Prop
  | .bill _ _ | .finalize _ _ | .expireSave _ | .expireRefund _ => True
  | _ => False

def Phase.Stale : Phase → Prop
  | .loaded t | .querying t | .progress t | .windowCheck t | .expire t =>
    t.status = .unconfirmed
  | .confirm t a => t.status = .unconfirmed ∧ ∀ now, (closeAs t a now).status.terminal
  | _ => True

/-- What the one execution in its critical section knows. -/
def Phase.Critical : Phase → Prop
  | .bill t _ => s.row.status = .unconfirmed ∧ s.billed = 0 ∧ t.status.terminal
  | .finalize t _ => s.row.status = .unconfirmed ∧
      (t.status.terminal ∧ s.billed = 1 ∨ t.status = .unconfirmed ∧ s.billed = 0)
  | .expireSave t | .expireRefund t =>
    s.row.status = .failure ∧ t.status = .failure ∧ s.billed = 0
  | _ => True

/-- The assertion about execution `i`. -/
def Assertion (i : ι) (φ : Phase) : Prop :=
  φ.Stale ∧ (φ.critical ↔ s.holder = some i) ∧ φ.Critical s

/-- The shared part: at most one billing action, and none while the row is
    UNCONFIRMED and nobody is in the critical section. -/
def Once : Prop :=
  s.billed ≤ 1 ∧ (s.row.status = .unconfirmed ∨ s.row.status.terminal) ∧
    (s.row.status = .unconfirmed → s.holder = none → s.billed = 0)

/-- What a step of `i` guarantees to the others: it leaves alone all that their
    assertions speak of, or `i` holds or takes or leaves the critical section. -/
def Guarantee (i : ι) (s s' : Shared ι) : Prop :=
  (s'.row.status = s.row.status ∧ s'.billed = s.billed ∧ s'.holder = s.holder) ∨
  ((s.holder = none ∨ s.holder = some i) ∧ (s'.holder = none ∨ s'.holder = some i))

/-! ## One step -/

@[simp] theorem withUpstreamId_status (id : String) : (withUpstreamId t id).status = t.status := by
  unfold withUpstreamId
  split <;> rfl

variable {s : Shared ι} {i : ι}

theorem assertion_of_not_critical {φ : Phase} (hφ : ¬ φ.critical) :
    Assertion s i φ ↔ φ.Stale ∧ s.holder ≠ some i := by
  have hc : φ.Critical s := by
    cases φ <;> first | trivial | exact absurd trivial hφ
  constructor
  · rintro ⟨h1, h2, -⟩
    exact ⟨h1, fun h => hφ (h2.2 h)⟩
  · rintro ⟨h1, h2⟩
    exact ⟨h1, ⟨fun h => absurd h hφ, fun h => absurd h h2⟩, hc⟩

theorem Guarantee.stable {s' : Shared ι} {j : ι} {ψ : Phase} (hg : Guarantee i s s')
    (hij : j ≠ i) (h : Assertion s j ψ) : Assertion s' j ψ := by
  obtain ⟨h1, h2, h3⟩ | ⟨h1, h2⟩ := hg
  · obtain ⟨hs, hc, hk⟩ := h
    have hsame : ψ.Critical s' ↔ ψ.Critical s := by
      cases ψ <;> simp only [Phase.Critical, h1, h2]
    exact ⟨hs, by rw [h3]; exact hc, hsame.2 hk⟩
  -- `i` is, or was, the one in the critical section: `j` is not
  have hnot : s.holder ≠ some j := by
    obtain h1 | h1 := h1
    · rw [h1]
      simp
    rw [h1]
    intro he
    exact hij (Option.some.inj he).symm
  have hψ : ¬ ψ.critical := fun hc => hnot (h.2.1.1 hc)
  rw [assertion_of_not_critical hψ]
  refine ⟨h.1, ?_⟩
  obtain h2 | h2 := h2
  · rw [h2]
    simp
  rw [h2]
  intro he
  exact hij (Option.some.inj he).symm

variable {t : Task}

theorem updateWithStatus_status (row : Task) (ht : t.status = .unconfirmed) (r : CasReply) :
    (updateWithStatus row t .unconfirmed r).2.status = row.status := by
  obtain ⟨h, -⟩ | ⟨hs, h⟩ := updateWithStatus_cases row t .unconfirmed r
  · rw [h]
  · rw [h, ht, hs]

/-- The conclusion of one step: the shared part, the own assertion, what the
    others are guaranteed, and a terminal status that stays. -/
def StepOk (i : ι) (s : Shared ι) (out : Shared ι × Phase) : Prop :=
  Once out.1 ∧ Assertion out.1 i out.2 ∧ Guarantee i s out.1 ∧
    (s.row.status.terminal → out.1.row.status = s.row.status)

section
variable (hI : Once s)
include hI

theorem stepOk_of_quiet {s' : Shared ι} {φ φ' : Phase} (hP : Assertion s i φ) (hφ : ¬ φ.critical)
    (hφ' : ¬ φ'.critical) (hst : φ'.Stale) (h1 : s'.row.status = s.row.status)
    (h2 : s'.billed = s.billed) (h3 : s'.holder = s.holder) : StepOk i s (s', φ') := by
  refine ⟨?_, ?_, .inl ⟨h1, h2, h3⟩, fun _ => h1⟩
  · simpa only [Once, h1, h2, h3] using hI
  rw [assertion_of_not_critical hφ']
  rw [assertion_of_not_critical hφ] at hP
  exact ⟨hst, by rw [h3]; exact hP.2⟩

omit hI in
theorem afterQuery_quiet (h : t.status = .unconfirmed) :
    ¬ (afterQuery t).critical ∧ (afterQuery t).Stale := by
  unfold afterQuery
  split
  · exact ⟨id, trivial⟩
  · exact ⟨id, h⟩

theorem confirm_ok {ans : Answer} (hP : Assertion s i (.confirm t ans))
    (hrow : s.row.status = .unconfirmed) (hh : s.holder = none) (cfg : Config) (r : CasReply)
    (now : Int) : StepOk i s (step cfg i s (.confirm t ans) (.confirm r now)) := by
  obtain ⟨⟨hts, hterm⟩, -, -⟩ := hP
  have hb : s.billed = 0 := hI.2.2 hrow hh
  have hstat := updateWithStatus_status s.row hts r
  show StepOk i s ({ s with row := (updateWithStatus s.row t .unconfirmed r).2, holder := some i },
    if (updateWithStatus s.row t .unconfirmed r).1 = some true then
      .bill (closeAs t ans now) ans.resolution
    else .finalize t ans.resolution)
  refine ⟨⟨?_, ?_, ?_⟩, ⟨?_, ?_, ?_⟩, .inr ⟨.inl hh, .inr rfl⟩, fun _ => hstat⟩
  · simp only [hb]
    omega
  · exact .inl (hstat.trans hrow)
  · intro _ h
    cases h
  · split <;> trivial
  · constructor
    · intro _
      rfl
    · intro _
      split <;> trivial
  split
  · exact ⟨hstat.trans hrow, hb, hterm now⟩
  · exact ⟨hstat.trans hrow, .inr ⟨hts, hb⟩⟩

omit hI in
theorem bill_ok {res : Resolution}
    (hP : Assertion s i (.bill t res)) (cfg : Config) (p : Pricing) (f g : BillFault) :
    StepOk i s (step cfg i s (.bill t res) (.bill p f g)) := by
  obtain ⟨-, hc, hrow, hb, hterm⟩ := hP
  have hh : s.holder = some i := hc.1 trivial
  obtain ⟨h1, h2⟩ := finalizeBilling_status cfg ⟨t, s.row, s.stores⟩ p f g
  show StepOk i s ({ s with row := (finalizeBilling cfg ⟨t, s.row, s.stores⟩ p f g).row
                            stores := (finalizeBilling cfg ⟨t, s.row, s.stores⟩ p f g).stores
                            billed := s.billed + 1 },
    .finalize (finalizeBilling cfg ⟨t, s.row, s.stores⟩ p f g).task res)
  refine ⟨⟨?_, .inl (h1.trans hrow), ?_⟩, ⟨trivial, ⟨fun _ => hh, fun _ => trivial⟩, ?_⟩,
    .inr ⟨.inr hh, .inr hh⟩, fun _ => h1⟩
  · simp only [hb]
    omega
  · intro _ h
    simp only [hh] at h
    cases h
  refine ⟨h1.trans hrow, .inl ⟨?_, by simp only [hb]⟩⟩
  rw [h2]
  exact hterm

theorem finalize_ok {res : Resolution} (hP : Assertion s i (.finalize t res)) {fail : Bool}
    (hfail : t.status.terminal → fail = false) (cfg : Config) :
    StepOk i s (step cfg i s (.finalize t res) (.finalize fail)) := by
  obtain ⟨-, hc, hrow, hcase⟩ := hP
  have hh : s.holder = some i := hc.1 trivial
  have hnt : ¬ s.row.status.terminal := by
    rw [hrow]
    decide
  refine ⟨⟨hI.1, ?_, ?_⟩, ⟨trivial, ⟨False.elim, fun h => by cases h⟩, trivial⟩,
    .inr ⟨.inr hh, .inl rfl⟩, fun h => absurd h hnt⟩
  · obtain ⟨hterm, -⟩ | ⟨hun, -⟩ := hcase
    · rw [hfail hterm]
      exact .inr hterm
    cases fail with
    | true => exact .inl hrow
    | false => exact .inl hun
  intro hrow' _
  obtain ⟨hterm, -⟩ | ⟨-, hb⟩ := hcase
  · -- the save went through, so the row is not UNCONFIRMED any more
    rw [hfail hterm] at hrow'
    have hs : t.status = .unconfirmed := hrow'
    rw [hs] at hterm
    cases hterm
  · exact hb

theorem expireCas_ok (hP : Assertion s i (.expire t))
    (hC : s.row.status = .unconfirmed → s.holder = none) (cfg : Config) (r : CasReply) (now : Int)
    (reason : String) : StepOk i s (step cfg i s (.expire t) (.expireCas r now reason)) := by
  have hts : t.status = .unconfirmed := hP.1
  have hhi : s.holder ≠ some i := ((assertion_of_not_critical id).1 hP).2
  show StepOk i s
    (if (updateWithStatus s.row (expired t now reason) t.status r).1 = some true then
      ({ s with row := (updateWithStatus s.row (expired t now reason) t.status r).2
                holder := some i }, .expireSave (expired t now reason))
    else ({ s with row := (updateWithStatus s.row (expired t now reason) t.status r).2 }, .done))
  obtain ⟨hrow, hlost⟩ | ⟨hguard, hrow⟩ :=
    updateWithStatus_cases s.row (expired t now reason) t.status r
  · -- refused: nothing is written
    rw [if_neg hlost]
    exact stepOk_of_quiet hI hP id id trivial (by rw [hrow]) rfl rfl
  have hun : s.row.status = .unconfirmed := hguard.trans hts
  have hh := hC hun
  have hb : s.billed = 0 := hI.2.2 hun hh
  have hnt : ¬ s.row.status.terminal := by
    rw [hun]
    decide
  rw [hrow]
  split
  · refine ⟨⟨?_, .inr rfl, fun h => by cases h⟩, ⟨trivial, ⟨fun _ => rfl, fun _ => trivial⟩,
      rfl, rfl, hb⟩, .inr ⟨.inl hh, .inr rfl⟩, fun h => absurd h hnt⟩
    simp only [hb]
    omega
  -- written, but the answer was lost: nobody bills
  refine ⟨⟨hI.1, .inr rfl, fun h => by cases h⟩, ?_, .inr ⟨.inl hh, .inl hh⟩,
    fun h => absurd h hnt⟩
  rw [assertion_of_not_critical id]
  exact ⟨trivial, hhi⟩

theorem expireSave_ok (hP : Assertion s i (.expireSave t)) (cfg : Config) (fail : Bool) :
    StepOk i s (step cfg i s (.expireSave t) (.expireSave fail)) := by
  obtain ⟨-, hc, hrow, hts, hb⟩ := hP
  have hh : s.holder = some i := hc.1 trivial
  have hsame : (update s.row (withResolution t .refundedAfterWindow) fail).status =
      .failure := by
    cases fail with
    | true => exact hrow
    | false => exact hts
  show StepOk i s ({ s with row := update s.row (withResolution t .refundedAfterWindow) fail },
    .expireRefund (withResolution t .refundedAfterWindow))
  refine ⟨⟨hI.1, .inr ?_, ?_⟩, ⟨trivial, ⟨fun _ => hh, fun _ => trivial⟩, hsame, hts, hb⟩,
    .inr ⟨.inr hh, .inr hh⟩, fun _ => hsame.trans hrow.symm⟩
  · simp only [hsame]
    rfl
  intro h
  simp only [hsame] at h
  cases h

theorem expireRefund_ok (hP : Assertion s i (.expireRefund t)) (cfg : Config) (f : BillFault) :
    StepOk i s (step cfg i s (.expireRefund t) (.expireRefund f)) := by
  obtain ⟨-, hc, hrow, hts, hb⟩ := hP
  have hh : s.holder = some i := hc.1 trivial
  have hdone : ∀ s' : Shared ι, s'.holder = none → Assertion s' i .done := by
    intro s' h'
    rw [assertion_of_not_critical id, h']
    exact ⟨trivial, by simp⟩
  show StepOk i s
    (if t.quota = 0 then ({ s with holder := none }, .done)
    else
      ({ row := (refundTaskQuota cfg ⟨t, s.row, s.stores⟩ f).2.row
         stores := (refundTaskQuota cfg ⟨t, s.row, s.stores⟩ f).2.stores
         billed := s.billed + 1, holder := none }, .done))
  split
  · exact ⟨⟨hI.1, hI.2.1, fun h => by simp only [hrow] at h; cases h⟩, hdone _ rfl,
      .inr ⟨.inr hh, .inl rfl⟩, fun _ => rfl⟩
  have hst := (refundTaskQuota_status cfg ⟨t, s.row, s.stores⟩ f).1
  refine ⟨⟨?_, .inr ?_, ?_⟩, hdone _ rfl, .inr ⟨.inr hh, .inl rfl⟩, fun _ => hst⟩
  · simp only [hb]
    omega
  · rw [hst, hrow]
    rfl
  intro h
  rw [hst, hrow] at h
  cases h

/-- **One step.**  A step on which the resolver is safe keeps everything. -/
theorem step_ok {φ : Phase} (hP : Assertion s i φ) (cfg : Config) (a : Act) (hC : Alone s φ a) : StepOk i s (step cfg i s φ a) := by
  have hself : StepOk i s (s, φ) :=
    ⟨hI, hP, .inl ⟨rfl, rfl, rfl⟩, fun _ => rfl⟩
  cases φ with
  | idle =>
    cases a with
    | load =>
      simp only [step]
      split
      · rename_i h
        exact stepOk_of_quiet hI hP id id h.1 rfl rfl rfl
      · exact hself
    | _ => exact hself
  | loaded t =>
    cases a with
    | begin expired =>
      simp only [step]
      split
      · exact stepOk_of_quiet hI hP id id hP.1 rfl rfl rfl
      · exact stepOk_of_quiet hI hP id id hP.1 rfl rfl rfl
    | _ => exact hself
  | querying t =>
    cases a with
    | answer upstreamId ans =>
      have hts : (withUpstreamId t upstreamId).status = .unconfirmed :=
        (withUpstreamId_status t upstreamId).trans hP.1
      cases ans with
      | none =>
        obtain ⟨h1, h2⟩ := afterQuery_quiet hts
        exact stepOk_of_quiet hI hP id h1 h2 rfl rfl rfl
      | inFlight p =>
        refine stepOk_of_quiet hI hP id id ?_ rfl rfl rfl
        split <;> exact hts
      | success url body | failure reason =>
        exact stepOk_of_quiet hI hP id id ⟨hts, fun _ => rfl⟩ rfl rfl rfl
    | _ => exact hself
  | progress t =>
    cases a with
    | saveProgress r =>
      obtain ⟨h1, h2⟩ := afterQuery_quiet hP.1
      exact stepOk_of_quiet hI hP id h1 h2 (updateWithStatus_status s.row hP.1 r) rfl rfl
    | _ => exact hself
  | windowCheck t =>
    cases a with
    | checkWindow expired =>
      cases expired with
      | true => exact stepOk_of_quiet hI hP id id hP.1 rfl rfl rfl
      | false => exact stepOk_of_quiet hI hP id id trivial rfl rfl rfl
    | _ => exact hself
  | confirm t ans =>
    cases a with
    | confirm r now =>
      obtain ⟨hrow, hh⟩ := hC ⟨t, ans, rfl⟩
      exact confirm_ok hI hP hrow hh cfg r now
    | _ => exact hself
  | bill t res =>
    cases a with
    | bill p f g => exact bill_ok hP cfg p f g
    | _ => exact hself
  | finalize t res =>
    cases a with
    | finalize fail => exact finalize_ok hI hP (hC t res rfl) cfg
    | _ => exact hself
  | expire t =>
    cases a with
    | expireCas r now reason => exact expireCas_ok hI hP hC cfg r now reason
    | _ => exact hself
  | expireSave t =>
    cases a with
    | expireSave fail => exact expireSave_ok hI hP cfg fail
    | _ => exact hself
  | expireRefund t =>
    cases a with
    | expireRefund f => exact expireRefund_ok hI hP cfg f
    | _ => exact hself
  | done => cases a <;> exact hself

end

/-! ## Runs -/

abbrev System (ι : Type*) := Workers (Shared ι) ι Phase

def start (ι : Type*) (row : Task) (stores : Stores) : System ι :=
  { shared := { row := row, stores := stores }, proc := fun _ => .idle }

/-- The condition of `step_ok`, at the worker that moves. -/
def AllAlone (w : System ι) (a : ι × Act) : Prop := Alone w.shared (w.proc a.1) a.2

variable [DecidableEq ι]

theorem holds_run (cfg : Config) {w : System ι} {as : List (ι × Act)}
    (h : w.Holds Once Assertion) (has : Meets AllAlone (Workers.step (step cfg)) w as) :
    (run (Workers.step (step cfg)) w as).Holds Once Assertion := by
  refine Workers.Holds.run ?_ ?_ h has
  · intro w i a hw hc
    obtain ⟨h1, h2, -⟩ := step_ok hw.1 (hw.2 i) cfg a hc
    exact ⟨h1, h2⟩
  intro w i a hw hc j hij hj
  obtain ⟨-, -, hg, -⟩ := step_ok hw.1 (hw.2 i) cfg a hc
  exact hg.stable hij hj

theorem status_run (cfg : Config) {w : System ι} {as : List (ι × Act)}
    (h : w.Holds Once Assertion) (hterm : w.shared.row.status.terminal)
    (has : Meets AllAlone (Workers.step (step cfg)) w as) :
    (run (Workers.step (step cfg)) w as).shared.row.status = w.shared.row.status := by
  induction as generalizing w with
  | nil => rfl
  | cons a as ih =>
    obtain ⟨i, a⟩ := a
    have hstep := step_ok h.1 (h.2 i) cfg a has.1
    have hone : Meets AllAlone (Workers.step (step cfg)) w [(i, a)] := ⟨has.1, trivial⟩
    have hnext : (w.step (step cfg) (i, a)).Holds Once Assertion := holds_run cfg h hone
    have hsame : (w.step (step cfg) (i, a)).shared.row.status = w.shared.row.status :=
      hstep.2.2.2 hterm
    have hterm' : (w.step (step cfg) (i, a)).shared.row.status.terminal := by
      rw [hsame]
      exact hterm
    rw [run_cons, ih hnext hterm' has.2]
    exact hsame

theorem holds_start (ι : Type*) {row : Task} (hrow : row.status = .unconfirmed)
    (stores : Stores) : (start ι row stores).Holds Once Assertion := by
  refine ⟨⟨Nat.zero_le 1, .inl hrow, fun _ _ => rfl⟩, fun i => ?_⟩
  rw [assertion_of_not_critical id]
  exact ⟨trivial, by simp [start]⟩

/-- **Resolution settles once.**  In every run of any number of executions
    whose steps are all safe, at most one billing action is applied, and a
    stored status that is SUCCESS or FAILURE never changes again. -/
theorem resolver_settles_once (ι : Type*) [DecidableEq ι] (cfg : Config) (row : Task)
    (stores : Stores) (hrow : row.status = .unconfirmed) (as bs : List (ι × Act))
    (h : Meets AllAlone (Workers.step (step cfg)) (start ι row stores) (as ++ bs)) :
    (run (Workers.step (step cfg)) (start ι row stores) (as ++ bs)).shared.billed ≤ 1 ∧
    ((run (Workers.step (step cfg)) (start ι row stores) as).shared.row.status.terminal →
      (run (Workers.step (step cfg)) (start ι row stores) (as ++ bs)).shared.row.status =
        (run (Workers.step (step cfg)) (start ι row stores) as).shared.row.status) := by
  have h0 := holds_start ι hrow stores
  refine ⟨(holds_run cfg h0 h).1.1, fun hterm => ?_⟩
  obtain ⟨has, hbs⟩ := meets_append.1 h
  rw [run_append]
  exact status_run cfg (holds_run cfg h0 has) hterm hbs

def heldTask : Task := { status := .unconfirmed, quota := 100 }

def emptyStores : Stores :=
  { wallet := 0, token := 0, subs := { subs := fun _ => none, records := fun _ => none } }

def directConfig : Config := { batchUpdateEnabled := false, trustQuota := 0 }

/-- Execution `i` up to the point where the upstream has answered FAILURE. -/
def askFailed (i : Bool) : List (Bool × Act) :=
  [(i, .load), (i, .begin false), (i, .answer "up" (.failure "rejected"))]

def resolveFailed (i : Bool) : List (Bool × Act) :=
  [(i, .confirm .matched 1), (i, .bill {} {} {}), (i, .finalize false)]

theorem resolver_settles_once_single :
    (run (Workers.step (step directConfig)) (start Bool heldTask emptyStores)
      (askFailed true ++ resolveFailed true ++ askFailed false)).shared.billed ≤ 1 := by
  have h := resolver_settles_once Bool directConfig heldTask emptyStores rfl
    (askFailed true ++ resolveFailed true) (askFailed false)
    ⟨trivial, trivial, trivial, fun _ => ⟨rfl, rfl⟩, trivial, fun _ _ _ _ => rfl,
      trivial, trivial, trivial, trivial⟩
  exact h.1

/-- Both executions ask; both swap; both bill. -/
def bothSwap : System Bool :=
  run (Workers.step (step directConfig)) (start Bool heldTask emptyStores)
    (askFailed true ++ askFailed false ++
      [(true, .confirm .matched 1), (false, .confirm .matched 1),
        (true, .bill {} {} {}), (false, .bill {} {} {})])

def oneResolved : System Bool :=
  run (Workers.step (step directConfig)) (start Bool heldTask emptyStores)
    (askFailed true ++ askFailed false ++ resolveFailed true)

def staleSave : System Bool :=
  run (Workers.step (step directConfig)) oneResolved
    [(false, .confirm .matched 1), (false, .finalize false)]

/-- Two executions on stale copies win the swap both and refund the 100 twice;
    and the one that loses puts UNCONFIRMED back over a stored FAILURE. -/
theorem two_resolvers_refund_twice :
    bothSwap.shared.billed = 2 ∧ bothSwap.shared.stores.wallet = 200 ∧
    oneResolved.shared.row.status = .failure ∧
    staleSave.shared.row.status = .unconfirmed :=
  ⟨rfl, rfl, rfl, rfl⟩

end NewApi.AsyncTask.Unconfirmed
