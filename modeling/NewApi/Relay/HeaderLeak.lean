/-
  NewApi.Relay.HeaderLeak

  Which header override an attempt sees, against the one a fresh `RelayInfo`
  would give for its channel.

  A param override works on the context built from the info, and of the info the
  context sees the runtime override only through the effective one.  So the two
  agree after the param override as soon as they agree before it
  (`effective_after`), and before it they agree exactly when no runtime override
  is left from an earlier attempt, or the one left says the same as the channel.
  `InitChannelMeta` does not clear it.
-/

import NewApi.Relay.HeaderOverride

namespace NewApi.Relay

open NewApi.Lib

variable {R J : Type} (env : OverrideEnv R J)

/-- The attempt sees what a fresh info with the same request would show for its
    channel alone, before and after its param override. -/
def Clean (headers : List (String × String)) (info : RelayInfo R) (a : Attempt R J) : Prop :=
  a.effective env info = a.effective env (.fresh a.request headers)

/-- No runtime override is left, or it says what the channel's own override says. -/
def NothingLeft (info : RelayInfo R) (a : Attempt R J) : Prop :=
  info.useRuntimeHeadersOverride = true →
    sanitizeHeaderOverrideMap env info.runtimeHeadersOverride =
      sanitizeHeaderOverrideMap env a.channelMeta.headersOverride

theorem step_requestHeaders (info : RelayInfo R) (a : Attempt R J) :
    (a.step env info).requestHeaders = info.requestHeaders := by
  unfold Attempt.step applyParamOverrideWithRelayInfo
  dsimp only
  split
  · rfl
  · split <;> rfl

theorem effective_before (info : RelayInfo R) (a : Attempt R J) : (a.effective env info).before =
      if info.useRuntimeHeadersOverride then
        sanitizeHeaderOverrideMap env info.runtimeHeadersOverride
      else sanitizeHeaderOverrideMap env a.channelMeta.headersOverride := rfl

variable {info : RelayInfo R} {a : Attempt R J}

theorem context_congr {info' : RelayInfo R} (hheaders : info.requestHeaders = info'.requestHeaders)
    (hbefore : (a.effective env info).before = (a.effective env info').before) :
    buildParamOverrideContext env (a.started info) =
      buildParamOverrideContext env (a.started info') := by
  have hheaders' : (a.started info).requestHeaders = (a.started info').requestHeaders := hheaders
  have hbefore' : getEffectiveHeaderOverride env (a.started info) =
      getEffectiveHeaderOverride env (a.started info') := hbefore
  unfold buildParamOverrideContext
  rw [hheaders', hbefore']
  rfl

theorem started_paramOverride (info : RelayInfo R) (a : Attempt R J) :
    ((a.started info).channelMeta.map (·.paramOverride)).getD {} = a.channelMeta.paramOverride :=
  rfl

theorem step_of_empty (info : RelayInfo R)
    (h : a.channelMeta.paramOverride.isEmpty = true) : a.step env info = a.started info := by
  unfold Attempt.step applyParamOverrideWithRelayInfo
  rw [started_paramOverride, if_pos h]

theorem step_of_error {e : String} (h : applyParamOverride env a.body a.channelMeta.paramOverride
      (buildParamOverrideContext env (a.started info)) = .error e) :
    a.step env info = a.started info := by
  unfold Attempt.step applyParamOverrideWithRelayInfo
  rw [started_paramOverride]
  dsimp only
  rw [h]
  split <;> rfl

theorem step_of_ok {result : J} {ctx : OverrideContext R}
    (hne : a.channelMeta.paramOverride.isEmpty = false)
    (h : applyParamOverride env a.body a.channelMeta.paramOverride
      (buildParamOverrideContext env (a.started info)) = .ok (result, ctx)) :
    a.step env info = syncRuntimeHeaderOverrideFromContext env (a.started info) ctx := by
  unfold Attempt.step applyParamOverrideWithRelayInfo
  rw [started_paramOverride]
  dsimp only
  rw [h, hne]
  rfl

theorem effective_after {info' : RelayInfo R}
    (hheaders : info.requestHeaders = info'.requestHeaders)
    (hbefore : (a.effective env info).before = (a.effective env info').before) :
    (a.effective env info).after = (a.effective env info').after := by
  have hctx := context_congr env hheaders hbefore
  change getEffectiveHeaderOverride env (a.step env info) =
    getEffectiveHeaderOverride env (a.step env info')
  cases hempty : a.channelMeta.paramOverride.isEmpty with
  | true =>
    rw [step_of_empty env info hempty, step_of_empty env info' hempty]
    exact hbefore
  | false =>
    cases happ : applyParamOverride env a.body a.channelMeta.paramOverride
        (buildParamOverrideContext env (a.started info')) with
    | error e =>
      rw [step_of_error env happ, step_of_error env (hctx ▸ happ)]
      exact hbefore
    | ok out =>
      obtain ⟨result, ctx⟩ := out
      rw [step_of_ok env hempty happ, step_of_ok env hempty (hctx ▸ happ)]
      rfl

theorem clean_iff_nothingLeft {headers : List (String × String)}
    (hheaders : info.requestHeaders = headers) (a : Attempt R J) :
    Clean env headers info a ↔ NothingLeft env info a := by
  have hfresh : (a.effective env (.fresh a.request headers)).before =
      sanitizeHeaderOverrideMap env a.channelMeta.headersOverride := rfl
  constructor
  · intro h huse
    have hbefore : (a.effective env info).before = _ := (congrArg Effective.before h).trans hfresh
    rw [effective_before, if_pos huse] at hbefore
    exact hbefore
  intro h
  have hbefore : (a.effective env info).before =
      (a.effective env (.fresh a.request headers)).before := by
    rw [hfresh, effective_before]
    split
    · rename_i huse
      exact h huse
    · rfl
  have hheaders' : info.requestHeaders =
      (RelayInfo.fresh a.request headers).requestHeaders := hheaders
  have hafter := effective_after env hheaders' hbefore
  unfold Clean
  cases heq : a.effective env info with
  | mk before after =>
    cases heq' : a.effective env (.fresh a.request headers) with
    | mk before' after' =>
      rw [heq, heq'] at hbefore hafter
      rw [show before = before' from hbefore, show after = after' from hafter]

theorem nothingLeft_of_empty {attempts : List (Attempt R J)}
    (huse : info.useRuntimeHeadersOverride = false)
    (hempty : ∀ a ∈ attempts.dropLast, a.channelMeta.paramOverride.isEmpty = true) :
    Meets (NothingLeft env) (Attempt.step env) info attempts := by
  induction attempts generalizing info with
  | nil => trivial
  | cons a attempts ih =>
    refine ⟨fun h => absurd h (by rw [huse]; decide), ?_⟩
    cases attempts with
    | nil => trivial
    | cons b attempts =>
      rw [List.dropLast_cons_cons] at hempty
      refine ih ?_ fun c hc => hempty c (List.mem_cons_of_mem a hc)
      rw [step_of_empty env info (hempty a List.mem_cons_self)]
      exact huse

/-- **Header overrides across attempts.**  Every attempt of a request sees, before
    and after its param override, what a fresh info would show for its channel
    alone, exactly when before each attempt no runtime override is left from an
    earlier one or the one left says the same as the channel's own; in particular
    when no channel but the last has a param override. -/
theorem header_override_clean_iff (request : R) (headers : List (String × String))
    (attempts : List (Attempt R J)) :
    (Meets (Clean env headers) (Attempt.step env) (.fresh request headers) attempts ↔
      Meets (NothingLeft env) (Attempt.step env) (.fresh request headers) attempts) ∧
    ((∀ a ∈ attempts.dropLast, a.channelMeta.paramOverride.isEmpty = true) →
      Meets (Clean env headers) (Attempt.step env) (.fresh request headers) attempts) := by
  have hiff : Meets (Clean env headers) (Attempt.step env) (.fresh request headers) attempts ↔
      Meets (NothingLeft env) (Attempt.step env) (.fresh request headers) attempts :=
    meets_congr_of_invariant (fun info => info.requestHeaders = headers)
      (fun info a h => (step_requestHeaders env info a).trans h)
      (fun info a h => clean_iff_nothingLeft env h a) rfl attempts
  refine ⟨hiff, fun hempty => hiff.2 ?_⟩
  exact nothingLeft_of_empty env rfl hempty

/-! ## Two channels -/

/-- The libraries, on lower-case ASCII names without blanks and string values. -/
def plainEnv : OverrideEnv Unit Unit where
  toLower := id
  trimSpace := id
  equalFold := fun a b => a == b
  sprint := fun
    | .str s => s
    | _ => ""
  setKey := fun body _ _ => .ok body
  checkConditions := fun _ _ conditions _ => .ok conditions.isEmpty
  bodyOperation := fun body _ _ => .ok body
  passThroughNames := fun _ => .error "pass_headers value is required"
  syncTarget := fun _ => .error "sync_fields target is required"
  readBody := fun _ _ => none
  writeBody := fun body _ _ => .ok body

/-- A channel whose param override sets its credentials. -/
def keyedChannel : ChannelMeta where
  channelID := 1
  paramOverride :=
    { operations := some [{ mode := .setHeader, path := "authorization",
                            value := some (.str "Bearer key-of-1") }] }
  headersOverride := []
  upstreamModelName := "gpt-4o"

def plainChannel : ChannelMeta where
  channelID := 2
  paramOverride := {}
  headersOverride := [("x-team", .str "blue")]
  upstreamModelName := "gpt-4o"

/-- The other way round nothing leaks. -/
theorem plainFirst_clean : Meets (Clean plainEnv []) (Attempt.step plainEnv) (.fresh () [])
      [⟨plainChannel, (), ()⟩, ⟨keyedChannel, (), ()⟩] := by
  refine (header_override_clean_iff plainEnv () [] _).2 fun a ha => ?_
  rw [List.mem_singleton.1 ha]
  rfl

def retriedInfo : RelayInfo Unit :=
  Attempt.step plainEnv (.fresh () []) ⟨keyedChannel, (), ()⟩

/-- The retry over channel 2 sends the credentials of channel 1, and not its own
    header. -/
theorem retry_leaks_header :
    (((Attempt.effective plainEnv retriedInfo ⟨plainChannel, (), ()⟩).before.get?
        "authorization").map plainEnv.sprint = some "Bearer key-of-1" ∧
      ((Attempt.effective plainEnv retriedInfo ⟨plainChannel, (), ()⟩).after.get?
        "authorization").map plainEnv.sprint = some "Bearer key-of-1" ∧
      ((Attempt.effective plainEnv retriedInfo ⟨plainChannel, (), ()⟩).after.get?
        "x-team").map plainEnv.sprint = none) ∧
    ((Attempt.effective plainEnv (.fresh () []) ⟨plainChannel, (), ()⟩).before.get?
        "authorization").map plainEnv.sprint = none ∧
    ¬Meets (Clean plainEnv []) (Attempt.step plainEnv) (.fresh () [])
      [⟨keyedChannel, (), ()⟩, ⟨plainChannel, (), ()⟩] := by
  refine ⟨by decide +kernel, by decide +kernel, ?_⟩
  rintro ⟨-, hclean, -⟩
  have hget := congrArg (fun e => (e.before.get? "authorization").map plainEnv.sprint) hclean
  revert hget
  decide +kernel

end NewApi.Relay
