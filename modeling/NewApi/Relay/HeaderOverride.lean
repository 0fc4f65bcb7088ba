/-
  NewApi.Relay.HeaderOverride

  The header override of a relay attempt (`relay/common/relay_info.go`,
  `relay/common/override.go`).

  One `RelayInfo` serves all attempts of a request.  `InitChannelMeta` puts the
  attempt's channel into it; the param override of the channel then runs over the
  request body and over a context whose `header_override` it may change, and what
  it leaves there becomes the runtime override, which from then on is the
  effective one.

  The operations on headers are modelled as they are.  What the operations do to
  the body goes through the JSON path library and is a parameter (`OverrideEnv`),
  as are the conditions of an operation, which read the body and the context.
  A Go map is its list of entries, in the order it is gone through.
-/

import NewApi.Lib.Run

namespace NewApi.Relay

open NewApi.Lib

/-! ## Values -/

/-- A decoded JSON value; a number by its text. -/
inductive Value where
  | null
  | bool (b : Bool)
  | num (text : String)
  | str (s : String)
  | arr (items : List Value)
  | obj (fields : List (String × Value))
deriving Inhabited

/-- `map[string]any` -/
abbrev AnyMap := List (String × Value)

namespace AnyMap

def get? (m : AnyMap) (key : String) : Option Value := m.lookup key

/-- `m[key] = value` -/
def put (m : AnyMap) (key : String) (value : Value) : AnyMap :=
  if m.any (·.1 == key) then m.map fun e => if e.1 == key then (key, value) else e
  else m ++ [(key, value)]

/-- `delete(m, key)` -/
def remove (m : AnyMap) (key : String) : AnyMap := m.filter (·.1 != key)

end AnyMap

/-! ## What the request and the channel bring -/

inductive OperationMode where
  | setHeader
  | deleteHeader
  | copyHeader
  | moveHeader
  | passHeaders
  | syncFields
  /-- an operation on the body, `return_error`, or an unknown mode -/
  | body (mode : String)

structure ParamOperation where
  path : String := ""
  mode : OperationMode
  value : Option Value := none
  keepOrigin : Bool := false
  /-- `From` -/
  fromPath : String := ""
  /-- `To` -/
  toPath : String := ""
  conditions : List Value := []
  logic : String := "OR"

/-- A channel's `ParamOverride`: the keys to set in the body, and the operations
    if `tryParseOperations` accepts them. -/
structure ParamOverride where
  legacy : AnyMap := []
  operations : Option (List ParamOperation) := none

/-- `len(paramOverride) == 0` -/
def ParamOverride.isEmpty (p : ParamOverride) : Bool := p.legacy.isEmpty && p.operations.isNone

structure ChannelMeta where
  channelID : Int
  paramOverride : ParamOverride
  headersOverride : AnyMap
  upstreamModelName : String

variable {R J : Type}

/-- The fields `BuildParamOverrideContext` reads, beside the headers: the user, the
    groups, the models, the path, the retry index and the last error are `R`. -/
structure OverrideContext (R : Type) where
  request : R
  upstreamModelName : String
  requestHeaders : AnyMap
  headerOverride : AnyMap

/-- The libraries: strings, formatting, and the JSON paths of the body. -/
structure OverrideEnv (R J : Type) where
  toLower : String → String
  trimSpace : String → String
  equalFold : String → String → Bool
  /-- `fmt.Sprintf("%v", value)` -/
  sprint : Value → String
  /-- `applyOperationsLegacy`, one key -/
  setKey : J → String → Value → Except String J
  /-- `checkConditions` -/
  checkConditions : J → OverrideContext R → List Value → String → Except String Bool
  /-- an operation on the body -/
  bodyOperation : J → OverrideContext R → ParamOperation → Except String J
  /-- `parseHeaderPassThroughNames` -/
  passThroughNames : Option Value → Except String (List String)
  /-- `parseSyncTarget`: a header by name or a path of the body -/
  syncTarget : String → Except String (String ⊕ String)
  /-- a value of the body that is there, not null and not blank -/
  readBody : J → String → Option Value
  writeBody : J → String → Value → Except String J

structure RelayInfo (R : Type) where
  request : R
  requestHeaders : List (String × String)
  channelMeta : Option ChannelMeta := none
  runtimeHeadersOverride : AnyMap := []
  useRuntimeHeadersOverride : Bool := false

/-! ## Headers -/

section

variable (env : OverrideEnv R J)

def normalizeHeaderContextKey (key : String) : String := env.trimSpace (env.toLower key)

def isHeaderPassthroughRuleKeyForOverride (key : String) : Bool :=
  let key := env.trimSpace (env.toLower key)
  if key = "" then false
  else if key = "*" then true
  else key.startsWith "re:" || key.startsWith "regex:"

/-- One entry of `sanitizeHeaderOverrideMap`. -/
def sanitizeEntry (target : AnyMap) (entry : String × Value) : AnyMap :=
  let normalizedKey := normalizeHeaderContextKey env entry.1
  if normalizedKey = "" then target
  else
    let normalizedValue := env.trimSpace (env.sprint entry.2)
    if normalizedValue = "" then
      if isHeaderPassthroughRuleKeyForOverride env normalizedKey then
        target.put normalizedKey (.str "")
      else target
    else target.put normalizedKey (.str normalizedValue)

def sanitizeHeaderOverrideMap (source : AnyMap) : AnyMap :=
  source.foldl (sanitizeEntry env) []

def getHeaderOverrideMap (info : RelayInfo R) : AnyMap :=
  (info.channelMeta.map (·.headersOverride)).getD []

def getEffectiveHeaderOverride (info : RelayInfo R) : AnyMap :=
  if info.useRuntimeHeadersOverride then
    sanitizeHeaderOverrideMap env info.runtimeHeadersOverride
  else sanitizeHeaderOverrideMap env (getHeaderOverrideMap info)

def buildRequestHeadersContext (headers : List (String × String)) : AnyMap :=
  headers.foldl (fun target item =>
    let normalized := normalizeHeaderContextKey env item.1
    let value := env.trimSpace item.2
    if normalized = "" ∨ value = "" then target else target.put normalized (.str value)) []

def buildParamOverrideContext (info : RelayInfo R) : OverrideContext R where
  request := info.request
  upstreamModelName := (info.channelMeta.map (·.upstreamModelName)).getD ""
  requestHeaders := buildRequestHeadersContext env info.requestHeaders
  headerOverride := sanitizeHeaderOverrideMap env (getEffectiveHeaderOverride env info)

/-- First the override, then the request's own headers. -/
def getHeaderValueFromContext (ctx : OverrideContext R) (headerName : String) : Option String :=
  let headerName := normalizeHeaderContextKey env headerName
  if headerName = "" then none
  else
    [ctx.headerOverride, ctx.requestHeaders].findSome? fun source =>
      (source.get? headerName).bind fun raw =>
        let value := env.trimSpace (env.sprint raw)
        if value = "" then none else some value

def splitHeaderListValue (raw : String) : List String :=
  (raw.splitOn ",").filterMap fun item =>
    let token := env.trimSpace item
    if token = "" then none else some token

end

def parseHeaderReplacementTokens (env : OverrideEnv R J) : Value → Except String (List String)
  | .null => .ok []
  | .str raw => .ok (splitHeaderListValue env raw)
  | .arr items => do
    let tokens ← parseItems items
    return tokens.eraseDups
  | .obj _ => .error "header replacement value must be string, array or null"
  | .bool b =>
    let token := env.trimSpace (env.sprint (.bool b))
    .ok (if token = "" then [] else [token])
  | .num text =>
    let token := env.trimSpace (env.sprint (.num text))
    .ok (if token = "" then [] else [token])
where
  parseItems : List Value → Except String (List String)
    | [] => .ok []
    | item :: items => do
      let tokens ← parseHeaderReplacementTokens env item
      let rest ← parseItems items
      return tokens ++ rest

section

variable (env : OverrideEnv R J)

/-- The tokens of a header's value, mapped one by one. -/
def mapTokens (mapping : AnyMap) (keepOnlyDeclared : Bool) :
    List String → Except String (List String)
  | [] => .ok []
  | token :: tokens => do
    let declared := mapping.get? token
    let replacement :=
      if declared.isNone && !keepOnlyDeclared then mapping.get? "*" else declared
    let here ←
      match replacement with
      | none => pure (if keepOnlyDeclared then [] else [token])
      | some raw => parseHeaderReplacementTokens env raw
    let rest ← mapTokens mapping keepOnlyDeclared tokens
    return here ++ rest

variable (ctx : OverrideContext R)

def resolveHeaderOverrideValueByMapping (headerName : String)
    (mapping : AnyMap) : Except String (Option String) :=
  if mapping.isEmpty then .error "header value mapping cannot be empty"
  else do
    let appendTokens ←
      match mapping.get? "$append" with
      | none => pure []
      | some raw => parseHeaderReplacementTokens env raw
    let keepOnlyDeclared :=
      match mapping.get? "$keep_only_declared" with
      | some (.bool b) => b
      | _ => false
    let sourceTokens :=
      match getHeaderValueFromContext env ctx headerName with
      | some sourceValue => splitHeaderListValue env sourceValue
      | none => []
    let mapped ← mapTokens env mapping keepOnlyDeclared sourceTokens
    let resultTokens := (mapped ++ appendTokens).eraseDups
    return if resultTokens.isEmpty then none else some (",".intercalate resultTokens)

def resolveHeaderOverrideValue (headerName : String) : Option Value → Except String (Option String)
  | none => .error "header value is required"
  | some .null => .error "header value is required"
  | some (.obj mapping) => resolveHeaderOverrideValueByMapping env ctx headerName mapping
  | some value =>
    let headerValue := env.trimSpace (env.sprint value)
    .ok (if headerValue = "" then none else some headerValue)

def setHeaderOverrideInContext (headerName : String)
    (value : Option Value) (keepOrigin : Bool) : Except String (OverrideContext R) :=
  let headerName := normalizeHeaderContextKey env headerName
  if headerName = "" then .error "header name is required"
  else
    let kept := keepOrigin && (ctx.headerOverride.get? headerName).any fun existing =>
      env.trimSpace (env.sprint existing) != ""
    if kept then .ok ctx
    else do
      match ← resolveHeaderOverrideValue env ctx headerName value with
      | none => return { ctx with headerOverride := ctx.headerOverride.remove headerName }
      | some headerValue =>
        return { ctx with headerOverride := ctx.headerOverride.put headerName (.str headerValue) }

def deleteHeaderOverrideInContext (headerName : String) : Except String (OverrideContext R) :=
  let headerName := normalizeHeaderContextKey env headerName
  if headerName = "" then .error "header name is required"
  else .ok { ctx with headerOverride := ctx.headerOverride.remove headerName }

/-- `copyHeaderInContext`; a missing source, which every caller skips, changes
    nothing, and the flag says whether there was one. -/
def copyHeaderInContext (fromHeader toHeader : String)
    (keepOrigin : Bool) (mode : String) : Except String (OverrideContext R × Bool) :=
  let fromHeader := normalizeHeaderContextKey env fromHeader
  let toHeader := normalizeHeaderContextKey env toHeader
  if fromHeader = "" ∨ toHeader = "" then .error (mode ++ " from/to is required")
  else
    match getHeaderValueFromContext env ctx fromHeader with
    | none => .ok (ctx, false)
    | some value => do
      let ctx ← setHeaderOverrideInContext env ctx toHeader (some (.str value)) keepOrigin
      return (ctx, true)

def moveHeaderInContext (fromHeader toHeader : String)
    (keepOrigin : Bool) : Except String (OverrideContext R) := do
  let (ctx, found) ← copyHeaderInContext env ctx fromHeader toHeader keepOrigin "move_header"
  if !found || env.equalFold (normalizeHeaderContextKey env fromHeader)
      (normalizeHeaderContextKey env toHeader) then
    return ctx
  else deleteHeaderOverrideInContext env ctx fromHeader

def readSyncTargetValue (body : J) (ctx : OverrideContext R) : String ⊕ String → Option Value
  | .inl header => (getHeaderValueFromContext env ctx header).map .str
  | .inr path => env.readBody body path

def writeSyncTargetValue (body : J) (ctx : OverrideContext R) (value : Value) :
    String ⊕ String → Except String (J × OverrideContext R)
  | .inl header => do
    let ctx ← setHeaderOverrideInContext env ctx header (some value) false
    return (body, ctx)
  | .inr path => do
    let body ← env.writeBody body path value
    return (body, ctx)

def syncFieldsBetweenTargets (body : J) (ctx : OverrideContext R) (fromSpec toSpec : String) :
    Except String (J × OverrideContext R) := do
  let fromTarget ← env.syncTarget fromSpec
  let toTarget ← env.syncTarget toSpec
  match readSyncTargetValue env body ctx fromTarget, readSyncTargetValue env body ctx toTarget with
  | some fromValue, none => writeSyncTargetValue env body ctx fromValue toTarget
  | none, some toValue => writeSyncTargetValue env body ctx toValue fromTarget
  | _, _ => return (body, ctx)

/-! ## The param override -/

/-- The header names a copy or move gives, each falling back to the path. -/
def ParamOperation.headerNames (op : ParamOperation) : String × String :=
  let sourceHeader := env.trimSpace op.fromPath
  let targetHeader := env.trimSpace op.toPath
  (if sourceHeader = "" then env.trimSpace op.path else sourceHeader,
    if targetHeader = "" then env.trimSpace op.path else targetHeader)

def passHeaders (keepOrigin : Bool) :
    List String → OverrideContext R → Except String (OverrideContext R)
  | [], ctx => .ok ctx
  | name :: names, ctx => do
    let (ctx, _) ← copyHeaderInContext env ctx name name keepOrigin "copy_header"
    passHeaders keepOrigin names ctx

/-- One operation whose conditions hold. -/
def applyOperation (body : J) (ctx : OverrideContext R) (op : ParamOperation) :
    Except String (J × OverrideContext R) :=
  match op.mode with
  | .setHeader => do
    let ctx ← setHeaderOverrideInContext env ctx op.path op.value op.keepOrigin
    return (body, ctx)
  | .deleteHeader => do
    let ctx ← deleteHeaderOverrideInContext env ctx op.path
    return (body, ctx)
  | .copyHeader => do
    let names := op.headerNames env
    let (ctx, _) ← copyHeaderInContext env ctx names.1 names.2 op.keepOrigin "copy_header"
    return (body, ctx)
  | .moveHeader => do
    let names := op.headerNames env
    let ctx ← moveHeaderInContext env ctx names.1 names.2 op.keepOrigin
    return (body, ctx)
  | .passHeaders => do
    let names ← env.passThroughNames op.value
    let ctx ← passHeaders env op.keepOrigin names ctx
    return (body, ctx)
  | .syncFields => syncFieldsBetweenTargets env body ctx op.fromPath op.toPath
  | .body _ => do
    let body ← env.bodyOperation body ctx op
    return (body, ctx)

def applyOperations : J → OverrideContext R → List ParamOperation →
    Except String (J × OverrideContext R)
  | body, ctx, [] => .ok (body, ctx)
  | body, ctx, op :: ops => do
    let ok ← env.checkConditions body ctx op.conditions op.logic
    if ok then
      let (body, ctx) ← applyOperation env body ctx op
      applyOperations body ctx ops
    else applyOperations body ctx ops

def applyOperationsLegacy : J → AnyMap → Except String J
  | body, [] => .ok body
  | body, (key, value) :: rest => do
    let body ← env.setKey body key value
    applyOperationsLegacy body rest

def applyParamOverride (body : J) (paramOverride : ParamOverride) (ctx : OverrideContext R) :
    Except String (J × OverrideContext R) := do
  let body ← applyOperationsLegacy env body paramOverride.legacy
  match paramOverride.operations with
  | some operations => applyOperations env body ctx operations
  | none => return (body, ctx)

def syncRuntimeHeaderOverrideFromContext (info : RelayInfo R) (ctx : OverrideContext R) :
    RelayInfo R :=
  { info with runtimeHeadersOverride := sanitizeHeaderOverrideMap env ctx.headerOverride,
              useRuntimeHeadersOverride := true }

def applyParamOverrideWithRelayInfo (body : J) (info : RelayInfo R) :
    Except String J × RelayInfo R :=
  let paramOverride := (info.channelMeta.map (·.paramOverride)).getD {}
  if paramOverride.isEmpty then (.ok body, info)
  else
    match applyParamOverride env body paramOverride (buildParamOverrideContext env info) with
    | .error e => (.error e, info)
    | .ok (result, ctx) => (.ok result, syncRuntimeHeaderOverrideFromContext env info ctx)

end

/-- `InitChannelMeta`, as far as the header override is concerned: the channel's
    record is put in place of the one before, the runtime override stays. -/
def RelayInfo.initChannelMeta (info : RelayInfo R) (channelMeta : ChannelMeta) : RelayInfo R :=
  { info with channelMeta := some channelMeta }

/-! ## Attempts -/

/-- An attempt: the channel chosen for it, the request's fields at that time (the
    retry loop sets the retry index and the last error) and the body. -/
structure Attempt (R J : Type) where
  channelMeta : ChannelMeta
  request : R
  body : J

/-- The effective override of an attempt before and after its param override. -/
structure Effective where
  before : AnyMap
  after : AnyMap

def Attempt.started (info : RelayInfo R) (a : Attempt R J) : RelayInfo R :=
  { info with request := a.request }.initChannelMeta a.channelMeta

def Attempt.step (env : OverrideEnv R J) (info : RelayInfo R) (a : Attempt R J) : RelayInfo R :=
  (applyParamOverrideWithRelayInfo env a.body (a.started info)).2

def Attempt.effective (env : OverrideEnv R J) (info : RelayInfo R) (a : Attempt R J) :
    Effective where
  before := getEffectiveHeaderOverride env (a.started info)
  after := getEffectiveHeaderOverride env (a.step env info)

def RelayInfo.fresh (request : R) (requestHeaders : List (String × String)) : RelayInfo R where
  request := request
  requestHeaders := requestHeaders

end NewApi.Relay
