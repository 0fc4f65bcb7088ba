/-
  NewApi.Logs.FlusherSafety

  No log is lost or written twice, in any run.  That one worker runs at most, and
  that a stop leaves none behind, needs more: whoever clears the cancel function
  clears the one that it called.
-/

import NewApi.Logs.ConsumeFlusher

namespace NewApi.ConsumeLogs

open Function (update_of_ne update_self)
open NewApi.Lib

variable {ι L : Type} {good : L → Bool} {logFlushBatch : Int}

/-! ## No log is lost -/

/-- Where a log can be: in the queue, in the table, with a worker that has it pending
    or is writing it, or with a call that is writing it. -/
inductive Place (ι : Type) where
  | queue
  | table
  | worker (ctx : Nat)
  | caller (i : ι)
deriving DecidableEq

def content (w : System ι L) : Place ι → List L
  | .queue => w.shared.queue
  | .table => w.shared.table
  | .worker ctx => (w.worker ctx).held
  | .caller i => (w.caller i).held

/-- Every log is in one place at most and there once, and an enqueued log is in one
    unless its row cannot be written. -/
structure Kept (good : L → Bool) (w : System ι L) : Prop where
  exclusive : Exclusive (content w)
  known : ∀ p, ∀ log ∈ content w p, log ∈ w.shared.enqueued
  kept : ∀ log ∈ w.shared.enqueued, good log = true → ∃ p, log ∈ content w p

theorem Kept.known_of_exists {w : System ι L} (h : Kept good w) {log : L}
    (hlog : ∃ p, log ∈ content w p) : log ∈ w.shared.enqueued := by
  obtain ⟨p, hp⟩ := hlog
  exact h.known p log hp

theorem Kept.arrived {w w' : System ι L} (h : Kept good w) {log : L}
    (he : w'.shared.enqueued = log :: w.shared.enqueued) (hcontent : Exclusive (content w') ∧
      ∀ l, (∃ q, l ∈ content w' q) ↔ l = log ∨ ∃ q, l ∈ content w q) : Kept good w' := by
  obtain ⟨hex, hsame⟩ := hcontent
  refine ⟨hex, fun q l hl => ?_, fun l hl hgood => (hsame l).2 ?_⟩
  · rw [he]
    rcases (hsame l).1 ⟨q, hl⟩ with rfl | hold
    · exact List.mem_cons_self
    · exact List.mem_cons_of_mem _ (h.known_of_exists hold)
  rw [he] at hl
  rcases List.mem_cons.1 hl with rfl | hl
  · exact .inl rfl
  · exact .inr (h.kept l hl hgood)

/-- What a party at `p` does to the logs keeps them. -/
theorem Kept.moves {w w' : System ι L} (h : Kept good w) {p : Place ι} (hpq : p ≠ .queue)
    (hpt : p ≠ .table) (hmoves : Moves good w.shared (content w p) w'.shared (content w' p))
    (hrest : ∀ q, q ≠ .queue → q ≠ .table → q ≠ p → content w' q = content w q) : Kept good w' := by
  -- the places that the step does not touch
  have hoff : w'.shared.table = w.shared.table → ∀ q, q ≠ .queue → q ≠ p →
      content w' q = content w q := by
    intro ht q hqueue hp
    by_cases htable : q = .table
    · rw [htable]
      exact ht
    · exact hrest q hqueue htable hp
  have hboth : w'.shared.queue = w.shared.queue → w'.shared.table = w.shared.table →
      ∀ q, q ≠ p → content w' q = content w q := by
    intro hq ht q hp
    by_cases hqueue : q = .queue
    · rw [hqueue]
      exact hq
    · exact hoff ht q hqueue hp
  cases hmoves with
  | quiet hq ht he hh =>
    have hsame : content w' = content w := by
      funext q
      by_cases hp : q = p
      · rw [hp, hh]
      · exact hboth hq ht q hp
    exact ⟨hsame ▸ h.exclusive, hsame ▸ he ▸ h.known, hsame ▸ he ▸ h.kept⟩
  | received log hq ht he hh =>
    have hfrom : (content w .queue).Perm ([log] ++ content w' .queue) := .of_eq hq
    have hto : (content w' p).Perm ([log] ++ content w p) := by
      rw [hh]
      exact List.perm_append_comm
    obtain ⟨hex, hsame⟩ := h.exclusive.move hpq.symm hfrom hto (hoff ht)
    exact ⟨hex, fun q l hl => he ▸ h.known_of_exists ((hsame l).1 ⟨q, hl⟩),
      fun l hl hgood => (hsame l).2 (h.kept l (he ▸ hl) hgood)⟩
  | inserted logs hq ht he hh =>
    have hfrom : (content w p).Perm (logs ++ content w' p) := .of_eq hh
    have hto : (content w' .table).Perm (logs ++ content w .table) := by
      show w'.shared.table.Perm _
      rw [ht]
      exact List.perm_append_comm
    obtain ⟨hex, hsame⟩ := h.exclusive.move hpt hfrom hto fun q hp htable => by
      by_cases hqueue : q = .queue
      · rw [hqueue]
        exact hq
      · exact hrest q hqueue htable hp
    exact ⟨hex, fun q l hl => he ▸ h.known_of_exists ((hsame l).1 ⟨q, hl⟩),
      fun l hl hgood => (hsame l).2 (h.kept l (he ▸ hl) hgood)⟩
  | refused log hbad hq ht he hh =>
    have hfrom : (content w p).Perm (log :: content w' p) := .of_eq hh
    obtain ⟨hex, hsame, hlog⟩ := h.exclusive.leave hfrom (hboth hq ht)
    refine ⟨hex, fun q l hl => he ▸ ?_, fun l hl hgood => ?_⟩
    · by_cases hl' : l = log
      · exact h.known_of_exists (hl' ▸ hlog)
      · exact h.known_of_exists ((hsame l hl').1 ⟨q, hl⟩)
    have hl' : l ≠ log := by
      rintro rfl
      exact Bool.false_ne_true (hbad.symm.trans hgood)
    exact (hsame l hl').2 (h.kept l (he ▸ hl) hgood)
  | queued log hnew hq ht he hh =>
    have hnowhere : ∀ q, log ∉ content w q := fun q hl => hnew (h.known q log hl)
    have hto : (content w' .queue).Perm (log :: content w .queue) := by
      show w'.shared.queue.Perm _
      rw [hq]
      exact List.perm_append_singleton log w.shared.queue
    exact h.arrived he (h.exclusive.arrive hnowhere hto fun q hqueue => by
      by_cases hp : q = p
      · rw [hp, hh]
      · exact hoff ht q hqueue hp)
  | taken log hnew hq ht he hh =>
    have hnowhere : ∀ q, log ∉ content w q := fun q hl => hnew (h.known q log hl)
    have hto : (content w' p).Perm (log :: content w p) := .of_eq hh
    exact h.arrived he (h.exclusive.arrive hnowhere hto (hboth hq ht))

theorem kept_start : Kept good ({} : System ι L) where
  exclusive := by
    have hnone : ∀ p, content ({} : System ι L) p = [] := fun p => by cases p <;> rfl
    constructor
    · intro p
      rw [hnone p]
      exact List.nodup_nil
    intro p q x hp
    rw [hnone p] at hp
    cases hp
  known p log hlog := by cases p <;> cases hlog
  kept log hlog := by cases hlog

variable [DecidableEq ι] [DecidableEq L]

theorem Kept.step {w : System ι L} (h : Kept good w) (a : Act ι L) :
    Kept good (step good logFlushBatch w a) := by
  cases a with
  | worker ctx a =>
    unfold ConsumeLogs.step
    dsimp only
    split
    · refine h.moves (p := .worker ctx) (fun hx => by cases hx) (fun hx => by cases hx) ?_ ?_
      · show Moves good w.shared (w.worker ctx).held _
          (Function.update w.worker ctx _ ctx).held
        rw [update_self]
        exact moves_workerStep ctx w.shared (w.worker ctx) a
      intro q hqueue htable hp
      cases q with
      | queue => exact absurd rfl hqueue
      | table => exact absurd rfl htable
      | worker n =>
        have hn : n ≠ ctx := fun hn => hp (congrArg Place.worker hn)
        show (Function.update w.worker ctx _ n).held = _
        rw [update_of_ne hn]
        rfl
      | caller i => rfl
    · exact h
  | caller i a =>
    refine h.moves (p := .caller i) (fun hx => by cases hx) (fun hx => by cases hx) ?_ ?_
    · show Moves good w.shared (w.caller i).held _ (Function.update w.caller i _ i).held
      rw [update_self]
      exact moves_callerStep w.shared (w.caller i) a
    intro q hqueue htable hp
    cases q with
    | queue => exact absurd rfl hqueue
    | table => exact absurd rfl htable
    | worker n => rfl
    | caller j =>
      have hj : j ≠ i := fun hj => hp (congrArg Place.caller hj)
      show (Function.update w.caller i _ j).held = _
      rw [update_of_ne hj]
      rfl

/-! ## One worker -/

section Control

omit [DecidableEq ι] [DecidableEq L]

/-- What a step of the worker of `ctx` does beside the logs: nothing, or it is done. -/
inductive WorkerControl (ctx : Nat) (s s' : Shared L) (phase' : WorkerPhase L) : Prop where
  | same (hc : s'.flushCancel = s.flushCancel) (hx : s'.contexts = s.contexts) (hw : s'.wg = s.wg)
  | done (hc : s'.flushCancel = s.flushCancel) (hx : s'.contexts = s.contexts)
      (hw : s'.wg = s.wg.filter (· ≠ ctx)) (hp : phase' = .select [])

theorem control_finish (ctx : Nat) (s : Shared L) (table : List L) (leaving : Bool) :
    WorkerControl ctx s (finish ctx { s with table } leaving).1
      (finish ctx { s with table } leaving).2 := by
  cases leaving with
  | false => exact .same rfl rfl rfl
  | true => exact .done rfl rfl rfl rfl

theorem control_flush (ctx : Nat) (s : Shared L) (queue pending : List L) (leaving : Bool) :
    WorkerControl ctx s (flush ctx { s with queue } pending leaving).1
      (flush ctx { s with queue } pending leaving).2 := by
  unfold flush
  split
  · cases leaving with
    | false => exact .same rfl rfl rfl
    | true => exact .done rfl rfl rfl rfl
  · exact .same rfl rfl rfl

theorem WorkerControl.wg_sub {ctx : Nat} {s s' : Shared L} {phase' : WorkerPhase L}
    (h : WorkerControl ctx s s' phase') {n : Nat} (hn : n ∈ s'.wg) : n ∈ s.wg := by
  cases h with
  | same hc hx hw => exact hw ▸ hn
  | done hc hx hw hp =>
    rw [hw] at hn
    exact List.mem_of_mem_filter hn

theorem WorkerControl.wg_other {ctx : Nat} {s s' : Shared L} {phase' : WorkerPhase L}
    (h : WorkerControl ctx s s' phase') {n : Nat} (hne : n ≠ ctx) (hn : n ∈ s.wg) : n ∈ s'.wg := by
  cases h with
  | same hc hx hw => exact hw ▸ hn
  | done hc hx hw hp =>
    rw [hw]
    exact List.mem_filter.2 ⟨hn, decide_eq_true hne⟩

theorem WorkerControl.frame {ctx : Nat} {s s' : Shared L} {phase' : WorkerPhase L}
    (h : WorkerControl ctx s s' phase') :
    s'.flushCancel = s.flushCancel ∧ s'.contexts = s.contexts := by
  cases h with
  | same hc hx hw | done hc hx hw hp => exact ⟨hc, hx⟩

theorem control_createLog (good : L → Bool) (s : Shared L) (log : L) :
    (createLog good s log).flushCancel = s.flushCancel ∧
      (createLog good s log).contexts = s.contexts ∧ (createLog good s log).wg = s.wg ∧
      (createLog good s log).queue = s.queue := by
  unfold createLog
  split <;> exact ⟨rfl, rfl, rfl, rfl⟩

theorem control_workerStep (good : L → Bool) (logFlushBatch : Int) (ctx : Nat) (s : Shared L) (phase : WorkerPhase L) (a : WorkerAct) :
    WorkerControl ctx s (workerStep good logFlushBatch ctx s phase a).1
      (workerStep good logFlushBatch ctx s phase a).2 := by
  have hsame : ∀ phase' : WorkerPhase L, WorkerControl ctx s s phase' := fun _ => .same rfl rfl rfl
  cases phase with
  | select pending =>
    cases a with
    | leave =>
      unfold workerStep
      dsimp only
      split
      · exact control_flush ctx s s.queue pending true
      · exact hsame _
    | receive =>
      unfold workerStep
      dsimp only
      split
      · exact hsame _
      rename_i log queue hqueue
      split
      · exact control_flush ctx s queue _ false
      · exact .same rfl rfl rfl
    | tick => exact control_flush ctx s s.queue pending false
    | result ok | row => exact hsame _
  | insert batch leaving | retry batch leaving =>
    cases a with
    | result ok =>
      cases ok with
      | true => exact control_finish ctx s _ leaving
      | false => exact hsame _
    | _ => exact hsame _
  | rows batch leaving =>
    cases batch with
    | nil =>
      cases a with
      | row => exact control_finish ctx s s.table leaving
      | _ => exact hsame _
    | cons log batch =>
      cases a with
      | row =>
        obtain ⟨hc, hx, hw, -⟩ := control_createLog good s log
        exact .same hc hx hw
      | _ => exact hsame _

/-- What a step of a caller does beside the logs. -/
inductive CallerControl (s : Shared L) (phase : CallerPhase L) (a : CallerAct L) (s' : Shared L)
    (phase' : CallerPhase L) : Prop where
  | same (hc : s'.flushCancel = s.flushCancel) (hx : s'.contexts = s.contexts) (hw : s'.wg = s.wg)
      (hclear : ∀ stage ctx, phase' = .clear stage ctx →
        phase = .clear stage ctx ∨ phase = .wait stage ctx ∧ s.wg = [])
      (hnoted : ∀ stage ctx, phase' = .cancel stage ctx ∨ phase' = .wait stage ctx →
        phase = .cancel stage ctx ∨ phase = .wait stage ctx ∨ s.flushCancel = some ctx)
  | started (ha : a = .start) (hnone : s.flushCancel = none) (hc : s'.flushCancel = some s.contexts)
      (hx : s'.contexts = s.contexts + 1) (hw : s'.wg = s.contexts :: s.wg)
      (hp : phase' = .idle false)
  | cleared (stage : Stage) (ctx : Nat) (ha : a = .go) (hp : phase = .clear stage ctx)
      (hc : s'.flushCancel = none) (hx : s'.contexts = s.contexts) (hw : s'.wg = s.wg) (hp' : phase' = afterPause stage)

def CallerPhase.pausing : CallerPhase L → Bool
  | .cancel _ _ | .wait _ _ | .clear _ _ => true
  | _ => false

theorem pausing_afterPause (stage : Stage) : (afterPause stage : CallerPhase L).pausing = false := by
  cases stage <;> rfl

theorem CallerControl.of_logs {s s' : Shared L} {phase phase' : CallerPhase L} {a : CallerAct L}
    (hc : s'.flushCancel = s.flushCancel) (hx : s'.contexts = s.contexts) (hw : s'.wg = s.wg)
    (hphase : phase' = phase ∨ phase'.pausing = false) : CallerControl s phase a s' phase' := by
  rcases hphase with rfl | hother
  · refine .same hc hx hw (fun stage ctx h => .inl h) fun stage ctx h => ?_
    rcases h with h | h
    · exact .inl h
    · exact .inr (.inl h)
  refine .same hc hx hw (fun stage ctx h => ?_) fun stage ctx h => ?_
  · rw [h] at hother
    cases hother
  rcases h with h | h <;>
  · rw [h] at hother
    cases hother

variable [DecidableEq L]

theorem control_callerStep (good : L → Bool) (s : Shared L) (phase : CallerPhase L) (a : CallerAct L) :
    CallerControl s phase a (callerStep good s phase a).1 (callerStep good s phase a).2 := by
  have hstay : ∀ (phase : CallerPhase L) (a : CallerAct L), CallerControl s phase a s phase :=
    fun _ _ => .of_logs rfl rfl rfl (.inl rfl)
  have hwrites : ∀ (log : L) (phase phase' : CallerPhase L) (a : CallerAct L),
      phase'.pausing = false → CallerControl s phase a (createLog good s log) phase' := by
    intro log phase phase' a hphase
    obtain ⟨hc, hx, hw, -⟩ := control_createLog good s log
    exact .of_logs hc hx hw (.inr hphase)
  cases phase with
  | idle b =>
    cases a with
    | enqueue log =>
      unfold callerStep
      dsimp only
      split
      · exact hstay _ _
      split
      · exact .of_logs rfl rfl rfl (.inr rfl)
      · exact .of_logs rfl rfl rfl (.inr rfl)
    | start =>
      unfold callerStep
      dsimp only
      split
      · exact .of_logs rfl rfl rfl (.inr rfl)
      · rename_i hnone
        exact .started rfl hnone rfl rfl rfl rfl
    | flush | stop =>
      exact .of_logs rfl rfl rfl (.inr rfl)
    | go => exact hstay _ _
  | fallback log | write stage log =>
    cases a with
    | go =>
      exact hwrites log _ _ _ rfl
    | _ => exact hstay _ _
  | read stage =>
    cases a with
    | go =>
      unfold callerStep
      dsimp only
      split
      · exact .of_logs rfl rfl rfl (.inr (pausing_afterPause stage))
      rename_i ctx hctx
      refine .same rfl rfl rfl (fun stage' c h => by cases h) fun stage' c h => ?_
      rcases h with h | h
      · cases h
        exact .inr (.inr hctx)
      · cases h
    | _ => exact hstay _ _
  | cancel stage ctx =>
    cases a with
    | go =>
      refine .same rfl rfl rfl (fun stage' c h => by cases h) fun stage' c h => ?_
      rcases h with h | h
      · cases h
      · cases h
        exact .inl rfl
    | _ => exact hstay _ _
  | wait stage ctx =>
    cases a with
    | go =>
      unfold callerStep
      dsimp only
      split
      · rename_i hwg
        refine .same rfl rfl rfl (fun stage' c h => ?_) fun stage' c h => ?_
        · cases h
          exact .inr ⟨rfl, hwg⟩
        · rcases h with h | h <;> cases h
      · exact hstay _ _
    | _ => exact hstay _ _
  | clear stage ctx =>
    cases a with
    | go => exact .cleared stage ctx rfl rfl rfl rfl rfl rfl
    | _ => exact hstay _ _
  | drain stage =>
    cases a with
    | go =>
      unfold callerStep
      dsimp only
      split <;> exact .of_logs rfl rfl rfl (.inr rfl)
    | _ => exact hstay _ _

end Control

/-! ## The invariant of the cancel function -/

def Rested (w : System ι L) : Prop := ∀ n, n ∉ w.shared.wg → w.worker n = .select []

/-- The running workers are the one whose cancel function is kept, and a call that is
    about to clear the cancel function has seen its worker done. -/
structure Guarded (w : System ι L) : Prop where
  running : ∀ n ∈ w.shared.wg, w.shared.flushCancel = some n
  kept : ∀ n, w.shared.flushCancel = some n → n < w.shared.contexts
  noted : ∀ i stage ctx, w.caller i = .cancel stage ctx ∨ w.caller i = .wait stage ctx →
    ctx < w.shared.contexts
  waited : ∀ i stage ctx, w.caller i = .clear stage ctx →
    ctx ∉ w.shared.wg ∧ ctx < w.shared.contexts

/-- The call is not about to clear another cancel function than the one it called. -/
def CallerPhase.clearsOwn (s : Shared L) : CallerPhase L → Bool
  | .clear _ ctx => s.flushCancel = none || s.flushCancel = some ctx
  | _ => true

def ClearsOwn (w : System ι L) : Act ι L → Prop
  | .worker _ _ => True
  | .caller i a => a = .go → (w.caller i).clearsOwn w.shared = true

instance (w : System ι L) (a : Act ι L) : Decidable (ClearsOwn w a) :=
  match a with
  | .worker _ _ => isTrue trivial
  | .caller i a => inferInstanceAs (Decidable (a = .go → (w.caller i).clearsOwn w.shared = true))

theorem Rested.step {w : System ι L} (h : Rested w) (a : Act ι L) :
    Rested (step good logFlushBatch w a) := by
  cases a with
  | worker ctx a =>
    unfold ConsumeLogs.step
    dsimp only
    split
    · rename_i hrun
      have hcontrol := control_workerStep good logFlushBatch ctx w.shared (w.worker ctx) a
      intro n hn
      show Function.update w.worker ctx _ n = .select []
      by_cases hctx : n = ctx
      · subst hctx
        rw [update_self]
        cases hcontrol with
        | same hc hx hw => exact absurd (hw.symm ▸ hrun) hn
        | done hc hx hw hp => exact hp
      · rw [update_of_ne hctx]
        exact h n fun hin => hn (hcontrol.wg_other hctx hin)
    · exact h
  | caller i a =>
    have hcontrol := control_callerStep good w.shared (w.caller i) a
    intro n hn
    refine h n fun hin => hn ?_
    cases hcontrol with
    | same hc hx hw hclear hnoted | cleared stage ctx ha hp hc hx hw hp' => exact hw.symm ▸ hin
    | started ha hnone hc hx hw hp => exact hw.symm ▸ List.mem_cons_of_mem _ hin

theorem Guarded.step {w : System ι L} (h : Guarded w) {a : Act ι L} (hown : ClearsOwn w a) :
    Guarded (step good logFlushBatch w a) := by
  cases a with
  | worker ctx a =>
    unfold ConsumeLogs.step
    dsimp only
    split
    · have hcontrol := control_workerStep good logFlushBatch ctx w.shared (w.worker ctx) a
      obtain ⟨hc, hx⟩ := hcontrol.frame
      constructor
      · exact fun n hn => hc.trans (h.running n (hcontrol.wg_sub hn))
      · exact fun n hn => hx.symm ▸ h.kept n (hc.symm.trans hn)
      · exact fun i stage c hi => hx.symm ▸ h.noted i stage c hi
      intro i stage c hi
      obtain ⟨hdone, hlt⟩ := h.waited i stage c hi
      exact ⟨fun hn => hdone (hcontrol.wg_sub hn), hx.symm ▸ hlt⟩
    · exact h
  | caller i a =>
    have hcontrol := control_callerStep good w.shared (w.caller i) a
    -- the other callers keep their phase
    have hphase : ∀ j, (ConsumeLogs.step good logFlushBatch w (.caller i a)).caller j = w.caller j ∨
        j = i ∧ (ConsumeLogs.step good logFlushBatch w (.caller i a)).caller j =
          (callerStep good w.shared (w.caller i) a).2 := by
      intro j
      by_cases hj : j = i
      · subst hj
        exact .inr ⟨rfl, update_self ..⟩
      · exact .inl (update_of_ne hj ..)
    cases hcontrol with
    | same hc hx hw hclear hnoted =>
      constructor
      · exact fun n hn => hc.trans (h.running n (hw ▸ hn))
      · exact fun n hn => hx.symm ▸ h.kept n (hc.symm.trans hn)
      · intro j stage c hj
        refine hx.symm ▸ ?_
        rcases hphase j with hold | ⟨rfl, hnew⟩
        · exact h.noted j stage c (hold ▸ hj)
        rcases hnoted stage c (hnew ▸ hj) with hp | hp | hp
        · exact h.noted j stage c (.inl hp)
        · exact h.noted j stage c (.inr hp)
        · exact h.kept c hp
      intro j stage c hj
      rw [show (ConsumeLogs.step good logFlushBatch w (.caller i a)).shared.wg = w.shared.wg from hw,
        show (ConsumeLogs.step good logFlushBatch w (.caller i a)).shared.contexts =
          w.shared.contexts from hx]
      rcases hphase j with hold | ⟨rfl, hnew⟩
      · exact h.waited j stage c (hold ▸ hj)
      rcases hclear stage c (hnew ▸ hj) with hp | ⟨hp, hwg⟩
      · exact h.waited j stage c hp
      refine ⟨fun hin => ?_, h.noted j stage c (.inr hp)⟩
      rw [hwg] at hin
      cases hin
    | started ha hnone hc hx hw hp =>
      have hidle : w.shared.wg = [] := by
        refine List.eq_nil_iff_forall_not_mem.2 fun n hn => ?_
        cases hnone.symm.trans (h.running n hn)
      constructor
      · intro n hn
        rw [show (ConsumeLogs.step good logFlushBatch w (.caller i a)).shared.wg = _ from hw,
          hidle] at hn
        rw [List.mem_singleton.1 hn]
        exact hc
      · intro n hn
        obtain rfl : w.shared.contexts = n := Option.some.inj (hc.symm.trans hn)
        exact hx.symm ▸ Nat.lt_succ_self _
      · intro j stage c hj
        refine hx.symm ▸ Nat.lt_succ_of_lt ?_
        rcases hphase j with hold | ⟨rfl, hnew⟩
        · exact h.noted j stage c (hold ▸ hj)
        · rw [hnew, hp] at hj
          rcases hj with hj | hj <;> cases hj
      intro j stage c hj
      rcases hphase j with hold | ⟨rfl, hnew⟩
      · obtain ⟨-, hlt⟩ := h.waited j stage c (hold ▸ hj)
        refine ⟨fun hin => ?_, hx.symm ▸ Nat.lt_succ_of_lt hlt⟩
        rw [show (ConsumeLogs.step good logFlushBatch w (.caller i a)).shared.wg = _ from hw,
          hidle, List.mem_singleton] at hin
        exact absurd hin (Nat.ne_of_lt hlt)
      · rw [hnew, hp] at hj
        cases hj
    | cleared stage ctx ha hp hc hx hw hp' =>
      have hidle : w.shared.wg = [] := by
        refine List.eq_nil_iff_forall_not_mem.2 fun n hn => ?_
        have hrun := h.running n hn
        have hclears : (w.caller i).clearsOwn w.shared = true := hown ha
        rw [hp] at hclears
        rcases (Bool.or_eq_true _ _).mp hclears with hnone | hsome
        · cases (of_decide_eq_true hnone).symm.trans hrun
        · obtain rfl := Option.some.inj ((of_decide_eq_true hsome).symm.trans hrun)
          exact (h.waited i stage _ hp).1 hn
      constructor
      · intro n hn
        rw [show (ConsumeLogs.step good logFlushBatch w (.caller i a)).shared.wg = _ from hw,
          hidle] at hn
        cases hn
      · exact fun n hn => by cases hc.symm.trans hn
      · intro j stage' c hj
        refine hx.symm ▸ ?_
        rcases hphase j with hold | ⟨rfl, hnew⟩
        · exact h.noted j stage' c (hold ▸ hj)
        rw [hnew, hp'] at hj
        have hpause := pausing_afterPause (L := L) stage
        rcases hj with hj | hj <;>
        · rw [hj] at hpause
          cases hpause
      intro j stage' c hj
      rcases hphase j with hold | ⟨rfl, hnew⟩
      · obtain ⟨hdone, hlt⟩ := h.waited j stage' c (hold ▸ hj)
        exact ⟨fun hin => hdone (hw ▸ hin), hx.symm ▸ hlt⟩
      rw [hnew, hp'] at hj
      have hpause := pausing_afterPause (L := L) stage
      rw [hj] at hpause
      cases hpause

omit [DecidableEq ι] [DecidableEq L] in
theorem rested_start : Rested ({} : System ι L) := fun _ _ => rfl

omit [DecidableEq ι] [DecidableEq L] in
theorem guarded_start : Guarded ({} : System ι L) where
  running n hn := by cases hn
  kept n hn := by cases hn
  noted i stage ctx h := by rcases h with h | h <;> cases h
  waited i stage ctx h := by cases h

/-! ## A stop -/

def Act.overlaps : Act ι L → Bool
  | .caller _ (.enqueue _) => true
  | .caller _ .start => true
  | _ => false

/-- From the wait of a stop on no worker runs, and when it has returned the queue is
    empty. -/
def Settled (s : Shared L) : CallerPhase L → Prop
  | .clear .stop _ => s.wg = []
  | .read .stopFlush => s.wg = []
  | .cancel .stopFlush _ => s.wg = []
  | .wait .stopFlush _ => s.wg = []
  | .clear .stopFlush _ => s.wg = []
  | .drain .stopFlush => s.wg = []
  | .write .stopFlush _ => s.wg = []
  | .idle true => s.wg = [] ∧ s.queue = []
  | _ => True

omit [DecidableEq ι] [DecidableEq L] in
theorem Settled.mono {s s' : Shared L} {phase : CallerPhase L} (h : Settled s phase)
    (hs : s.wg = [] → s'.wg = [] ∧ (s.queue = [] → s'.queue = [])) : Settled s' phase := by
  cases phase with
  | idle b =>
    cases b with
    | true => exact ⟨(hs h.1).1, (hs h.1).2 h.2⟩
    | false => trivial
  | fallback log => trivial
  | read stage | cancel stage ctx | wait stage ctx | clear stage ctx | drain stage
  | write stage log => cases stage <;> first | trivial | exact (hs h).1

theorem callerStep_queue_nil {s : Shared L} {phase : CallerPhase L} {a : CallerAct L}
    (ha : ∀ log, a ≠ .enqueue log) (hq : s.queue = []) :
    (callerStep good s phase a).1.queue = [] := by
  have hstay := fun log => (control_createLog good s log).2.2.2.trans hq
  cases phase with
  | idle b =>
    cases a with
    | enqueue log => exact absurd rfl (ha log)
    | start =>
      unfold callerStep
      dsimp only
      split <;> exact hq
    | _ => exact hq
  | fallback log | write stage log =>
    cases a with
    | go => exact hstay log
    | _ => exact hq
  | read stage | wait stage ctx =>
    cases a with
    | go =>
      unfold callerStep
      dsimp only
      split <;> exact hq
    | _ => exact hq
  | cancel stage ctx | clear stage ctx => cases a <;> exact hq
  | drain stage =>
    cases a with
    | go =>
      unfold callerStep
      rw [hq]
      exact hq
    | _ => exact hq

/-- A step of the caller itself, other than an enqueue or a start. -/
theorem Settled.self {s : Shared L} {phase : CallerPhase L} (h : Settled s phase)
    (hnone : s.flushCancel = none → s.wg = []) {a : CallerAct L} (henq : ∀ log, a ≠ .enqueue log)
    (hstart : a ≠ .start) :
    Settled (callerStep good s phase a).1 (callerStep good s phase a).2 := by
  have hwg := fun log => (control_createLog good s log).2.2.1
  cases phase with
  | idle b =>
    cases a with
    | enqueue log => exact absurd rfl (henq log)
    | start => exact absurd rfl hstart
    | flush => trivial
    | stop => trivial
    | go => exact h
  | fallback log =>
    cases a with
    | go => trivial
    | _ => exact h
  | read stage =>
    cases a with
    | go =>
      unfold callerStep
      dsimp only
      split
      · rename_i hc
        cases stage with
        | stop => exact hnone hc
        | stopFlush => exact h
        | flush => trivial
      cases stage with
      | stop => trivial
      | stopFlush => exact h
      | flush => trivial
    | _ => exact h
  | cancel stage ctx | clear stage ctx =>
    cases a with
    | go => cases stage <;> exact h
    | _ => exact h
  | wait stage ctx =>
    cases a with
    | go =>
      unfold callerStep
      dsimp only
      split
      · rename_i hwg
        cases stage <;> trivial
      · exact h
    | _ => exact h
  | drain stage =>
    cases a with
    | go =>
      unfold callerStep
      dsimp only
      split
      · rename_i hq
        cases stage with
        | stopFlush => exact ⟨h, hq⟩
        | stop => trivial
        | flush => trivial
      · cases stage <;> exact h
    | _ => exact h
  | write stage log =>
    cases a with
    | go =>
      cases stage with
      | stopFlush => exact (hwg log).trans h
      | stop => trivial
      | flush => trivial
    | _ => exact h

theorem Settled.step {w : System ι L} {i : ι} (h : Settled w.shared (w.caller i))
    (hg : Guarded w) {a : Act ι L} (ha : a.overlaps = false) :
    Settled (step good logFlushBatch w a).shared ((step good logFlushBatch w a).caller i) := by
  have hnone : w.shared.flushCancel = none → w.shared.wg = [] := by
    intro hc
    refine List.eq_nil_iff_forall_not_mem.2 fun n hn => ?_
    cases hc.symm.trans (hg.running n hn)
  cases a with
  | worker ctx a =>
    unfold ConsumeLogs.step
    dsimp only
    split
    · rename_i hrun
      refine h.mono fun hwg => ?_
      rw [hwg] at hrun
      cases hrun
    · exact h
  | caller j a =>
    have henq : ∀ log, a ≠ .enqueue log := by
      rintro log rfl
      cases ha
    have hstart : a ≠ .start := by
      rintro rfl
      cases ha
    by_cases hij : i = j
    · subst hij
      show Settled (callerStep good w.shared (w.caller i) a).1 (Function.update w.caller i _ i)
      rw [update_self]
      exact h.self hnone henq hstart
    show Settled (callerStep good w.shared (w.caller j) a).1 (Function.update w.caller j _ i)
    rw [update_of_ne hij]
    refine h.mono fun hwg => ⟨?_, fun hq => callerStep_queue_nil henq hq⟩
    cases control_callerStep good w.shared (w.caller j) a with
    | same hc hx hw hclear hnoted | cleared stage ctx ha' hp hc hx hw hp' => exact hw.trans hwg
    | started ha' hnone hc hx hw hp => exact absurd ha' hstart

/-! ## The flusher -/

def reached (good : L → Bool) (logFlushBatch : Int) (as : List (Act ι L)) : System ι L :=
  run (step good logFlushBatch) {} as

/-- **No log is lost or written twice, in any run.** -/
theorem kept_reached (good : L → Bool) (logFlushBatch : Int) (as : List (Act ι L)) :
    Kept good (reached good logFlushBatch as) :=
  run_invariant_all (Kept good) (fun _ a h => h.step a) as kept_start

theorem guarded_reached {as : List (Act ι L)}
    (hown : Meets ClearsOwn (step good logFlushBatch) {} as) :
    Guarded (reached good logFlushBatch as) :=
  run_invariant Guarded (fun _ _ h hc => h.step hc) guarded_start hown

/-- **The flusher, where every call clears its own cancel function.**  Each enqueued
    log that can be written is in exactly one place, there once; at most one worker
    runs; and after a stop that no enqueue or start overlaps none does, with nothing
    in the queue and nothing pending. -/
theorem flusher_safe (good : L → Bool) (logFlushBatch : Int) (as : List (Act ι L))
    (hown : Meets ClearsOwn (step good logFlushBatch) {} as) :
    (∀ log ∈ (reached good logFlushBatch as).shared.enqueued, good log = true →
      ∃! p, log ∈ content (reached good logFlushBatch as) p) ∧
    (∀ p, (content (reached good logFlushBatch as) p).Nodup) ∧
    (∀ n ∈ (reached good logFlushBatch as).shared.wg,
      ∀ m ∈ (reached good logFlushBatch as).shared.wg, n = m) ∧
    ∀ pre seg i, as = pre ++ .caller i .stop :: seg →
      (∃ b, (reached good logFlushBatch pre).caller i = .idle b) →
      (∀ a ∈ seg, a.overlaps = false) →
      (reached good logFlushBatch as).caller i = .idle true →
      (reached good logFlushBatch as).shared.wg = [] ∧
        (reached good logFlushBatch as).shared.queue = [] ∧
        ∀ n, ((reached good logFlushBatch as).worker n).held = [] := by
  have hkept := kept_reached good logFlushBatch as
  have hguard := guarded_reached hown
  refine ⟨fun log hlog hgood => ?_, hkept.exclusive.nodup, fun n hn m hm => ?_, ?_⟩
  · obtain ⟨p, hp⟩ := hkept.kept log hlog hgood
    exact hkept.exclusive.existsUnique hp
  · exact Option.some.inj ((hguard.running n hn).symm.trans (hguard.running m hm))
  rintro pre seg i rfl ⟨b, hidle⟩ hseg hstopped
  obtain ⟨hpre, hstop⟩ := meets_append.1 hown
  -- the stop has begun, and nothing is known of it yet
  have hbegun : Guarded (step good logFlushBatch (reached good logFlushBatch pre) (.caller i .stop)) ∧
      Settled (step good logFlushBatch (reached good logFlushBatch pre) (.caller i .stop)).shared
        ((step good logFlushBatch (reached good logFlushBatch pre) (.caller i .stop)).caller i) := by
    refine ⟨(guarded_reached hpre).step hstop.1, ?_⟩
    show Settled _ (Function.update (reached good logFlushBatch pre).caller i _ i)
    rw [update_self, hidle]
    trivial
  have hend := run_invariant
    (fun w : System ι L => Guarded w ∧ Settled w.shared (w.caller i))
    (C := fun w a => ClearsOwn w a ∧ a.overlaps = false)
    (fun w a h hc => ⟨h.1.step hc.1, h.2.step h.1 hc.2⟩) hbegun
    (hstop.2.and (meets_of_forall hseg))
  have hreached : reached good logFlushBatch (pre ++ .caller i .stop :: seg) =
      run (step good logFlushBatch)
        (step good logFlushBatch (reached good logFlushBatch pre) (.caller i .stop)) seg :=
    run_append _ _ _ _
  rw [← hreached, hstopped] at hend
  obtain ⟨hwg, hqueue⟩ := hend.2
  refine ⟨hwg, hqueue, fun n => ?_⟩
  have hrested : Rested (reached good logFlushBatch (pre ++ .caller i .stop :: seg)) :=
    run_invariant_all Rested (fun _ a h => h.step a) _ rested_start
  rw [hrested n (hwg ▸ List.not_mem_nil)]
  rfl

/-- Log 1 is pending and log 9 in the queue when the flusher is stopped; no batch can
    be written, and not the row of log 9. -/
def oneStop : List (Act Nat Nat) :=
  [.caller 0 .start, .caller 0 (.enqueue 1), .caller 0 (.enqueue 9), .worker 0 .receive] ++
  .caller 1 .stop ::
  [.caller 1 .go, .caller 1 .go, .worker 0 .leave, .worker 0 (.result false),
    .worker 0 (.result false), .worker 0 .row, .worker 0 .row, .caller 1 .go, .caller 1 .go,
    .caller 1 .go, .caller 1 .go, .caller 1 .go, .caller 1 .go]

theorem oneStop_settled : (reached (fun log => log ≠ 9) 0 oneStop).shared.wg = [] ∧
      (reached (fun log => log ≠ 9) 0 oneStop).shared.queue = [] := by
  obtain ⟨-, -, -, hstop⟩ := flusher_safe (fun log => log ≠ 9) 0 oneStop (by decide +kernel)
  obtain ⟨hwg, hqueue, -⟩ := hstop _ _ 1 rfl ⟨false, rfl⟩ (by decide +kernel) (by decide +kernel)
  exact ⟨hwg, hqueue⟩

/-- Two calls stop worker 0; between their clears it is started again. -/
def lostCancel : List (Act Nat Nat) :=
  [.caller 0 .start, .caller 1 .stop, .caller 1 .go, .caller 2 .flush, .caller 2 .go,
    .caller 1 .go, .caller 2 .go, .worker 0 .leave, .caller 1 .go, .caller 2 .go, .caller 1 .go,
    .caller 0 .start, .caller 2 .go]

/-- The cancel function of worker 1 is lost: a third start runs a worker beside it, and
    a stop that nothing overlaps returns while it runs and has a log pending. -/
theorem lostCancel_unsafe :
    (reached (fun _ => true) 0 (lostCancel ++ [.caller 0 .start])).shared.wg = [2, 1] ∧
    (reached (fun _ => true) 0 (lostCancel ++ [.caller 0 (.enqueue 5), .worker 1 .receive,
      .caller 0 .stop, .caller 0 .go, .caller 0 .go, .caller 0 .go])).caller 0 = .idle true ∧
    (reached (fun _ => true) 0 (lostCancel ++ [.caller 0 (.enqueue 5), .worker 1 .receive,
      .caller 0 .stop, .caller 0 .go, .caller 0 .go, .caller 0 .go])).shared.wg = [1] ∧
    ((reached (fun _ => true) 0 (lostCancel ++ [.caller 0 (.enqueue 5), .worker 1 .receive,
      .caller 0 .stop, .caller 0 .go, .caller 0 .go, .caller 0 .go])).worker 1).held = [5] := by
  refine ⟨?_, ?_, ?_, ?_⟩ <;> decide +kernel

end NewApi.ConsumeLogs
