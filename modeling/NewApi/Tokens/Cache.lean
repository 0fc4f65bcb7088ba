/-
  NewApi.Tokens.Cache

  The cached token (`model/token_cache.go`, `common/redis.go`): what the script
  of `cacheInitToken` writes field by field, what the reflective reader
  `RedisHGetObj` makes of it, and what the relay does with the token it is
  handed (`ValidateUserToken`, the IP limits, `TokenRateLimit`).

  The script lists its fields by hand.  It lists every field the relay reads
  but `RateLimit`: a token served from the cache has no rate limit of its own,
  and everything else is that of the row.

  `encoding/json` and the parser of RFC 3339 times are parameters (`Decoders`);
  so are the three limiters behind `TokenRateLimit` (`Limiters`).
-/

import NewApi.Auth.UserCache
import NewApi.Lib.Decimal
import Mathlib.Data.List.DropRight

namespace NewApi.Tokens

open NewApi.Lib
open NewApi.Auth (Expiring)

/-! ## The token -/

structure Token where
  id : Int64
  userId : Int64
  key : String
  status : Int64
  name : String
  createdTime : Int64
  accessedTime : Int64
  /-- -1 means never expired -/
  expiredTime : Int64
  remainQuota : Int64
  unlimitedQuota : Bool
  modelLimitsEnabled : Bool
  modelLimits : String
  allowIps : Option String
  usedQuota : Int64
  group : String
  crossGroupRetry : Bool
  autoGroups : String
  /-- JSON such as `rpm`, `qbs` and `concurrency` with their numbers; empty is no limit -/
  rateLimit : String
  deletedAt : Option Int64

/-- `Token{}` -/
def Token.zero : Token :=
  { id := 0, userId := 0, key := "", status := 0, name := "", createdTime := 0, accessedTime := 0,
    expiredTime := 0, remainQuota := 0, unlimitedQuota := false, modelLimitsEnabled := false,
    modelLimits := "", allowIps := none, usedQuota := 0, group := "", crossGroupRetry := false,
    autoGroups := "", rateLimit := "", deletedAt := none }

structure TokenRateLimitConfig where
  rpm : Int64 := 0
  qbs : Int64 := 0
  concurrency : Int64 := 0

/-- The decoders of the standard library; `none` is an error. -/
structure Decoders where
  /-- `json.Unmarshal` into a `TokenRateLimitConfig` -/
  rateLimit : String → Option TokenRateLimitConfig
  /-- `json.Unmarshal` into a `[]string` -/
  strings : String → Option (List String)
  /-- `time.Parse(time.RFC3339, _)` -/
  rfc3339 : String → Option Int64

def isSpace (c : Char) : Bool :=
  c ∈ ['\t', '\n', '\x0b', '\x0c', '\r', ' ', '\u0085', '\u00a0', '\u1680', '\u2028', '\u2029',
    '\u202f', '\u205f', '\u3000'] || ('\u2000' ≤ c && c ≤ '\u200a')

def trimSpace (cs : List Char) : List Char := (cs.dropWhile isSpace).rdropWhile isSpace

namespace Token

def getRateLimitConfig (dec : Decoders) (t : Token) : TokenRateLimitConfig :=
  if t.rateLimit = "" then {} else (dec.rateLimit t.rateLimit).getD {}

/-- `none` is the error of a text that is not a list of strings. -/
def getAutoGroups (dec : Decoders) (t : Token) : Option (List String) :=
  if t.autoGroups = "" then some [] else dec.strings t.autoGroups

def getIpLimits (t : Token) : List String :=
  let cleanIps := (t.allowIps.getD "").toList.filter (· ≠ ' ')
  if cleanIps = [] then []
  else
    ((cleanIps.splitOn '\n').map fun ip => String.ofList ((trimSpace ip).filter (· ≠ ','))).filter
      (· ≠ "")

def getModelLimits (t : Token) : List String :=
  if t.modelLimits = "" then []
  else (t.modelLimits.toList.splitOn ',').map String.ofList

end Token

/-! ## The reflective reader -/

/-- A Redis hash as `HGETALL` returns it. -/
abbrev Hash := List (String × String)

inductive CacheError where
  | notFound
  | parseInt (field : String)
  | parseBool (field : String)
  | parseDeletedAt (field : String)
  | incomplete

/-- How the reader sets a field, by the kind of the field. -/
inductive Slot (α : Type) where
  | string (set : String → α → α)
  /-- a `*string`; an empty text leaves it as it is -/
  | stringPointer (set : String → α → α)
  | int (set : Int64 → α → α)
  | bool (set : Bool → α → α)
  /-- a `gorm.DeletedAt`; an empty text leaves it as it is -/
  | deletedAt (set : Int64 → α → α)

/-- A field of a struct: its name and its kind. -/
structure Field (α : Type) where
  name : String
  slot : Slot α

variable (dec : Decoders)

/-- The switch of `RedisHGetObj` over the kind of a field the hash has. -/
def Field.read {α : Type} (f : Field α) (value : String) (obj : α) : Except CacheError α :=
  match f.slot with
  | .string set => .ok (set value obj)
  | .stringPointer set => if value = "" then .ok obj else .ok (set value obj)
  | .int set =>
    match parseInt value with
    | some n => .ok (set n obj)
    | none => .error (.parseInt f.name)
  | .bool set =>
    match parseBool value with
    | some b => .ok (set b obj)
    | none => .error (.parseBool f.name)
  | .deletedAt set =>
    if value = "" then .ok obj
    else
      match dec.rfc3339 value with
      | some t => .ok (set t obj)
      | none => .error (.parseDeletedAt f.name)

/-- One turn of the loop of `RedisHGetObj`. -/
def readField {α : Type} (result : Hash) (obj : α) (f : Field α) : Except CacheError α :=
  match result.lookup f.name with
  | some value => f.read dec value obj
  | none => .ok obj

/-- `RedisHGetObj` once `HGETALL` has answered. -/
def redisHGetObj {α : Type} (fields : List (Field α)) (result : Hash) (obj : α) :
    Except CacheError α :=
  if result = [] then .error .notFound
  else fields.foldlM (readField dec result) obj

/-- The fields of `Token`, in the order of the struct. -/
def tokenFields : List (Field Token) :=
  [⟨"Id", .int fun v t => { t with id := v }⟩,
   ⟨"UserId", .int fun v t => { t with userId := v }⟩,
   ⟨"Key", .string fun v t => { t with key := v }⟩,
   ⟨"Status", .int fun v t => { t with status := v }⟩,
   ⟨"Name", .string fun v t => { t with name := v }⟩,
   ⟨"CreatedTime", .int fun v t => { t with createdTime := v }⟩,
   ⟨"AccessedTime", .int fun v t => { t with accessedTime := v }⟩,
   ⟨"ExpiredTime", .int fun v t => { t with expiredTime := v }⟩,
   ⟨"RemainQuota", .int fun v t => { t with remainQuota := v }⟩,
   ⟨"UnlimitedQuota", .bool fun v t => { t with unlimitedQuota := v }⟩,
   ⟨"ModelLimitsEnabled", .bool fun v t => { t with modelLimitsEnabled := v }⟩,
   ⟨"ModelLimits", .string fun v t => { t with modelLimits := v }⟩,
   ⟨"AllowIps", .stringPointer fun v t => { t with allowIps := some v }⟩,
   ⟨"UsedQuota", .int fun v t => { t with usedQuota := v }⟩,
   ⟨"Group", .string fun v t => { t with group := v }⟩,
   ⟨"CrossGroupRetry", .bool fun v t => { t with crossGroupRetry := v }⟩,
   ⟨"AutoGroups", .string fun v t => { t with autoGroups := v }⟩,
   ⟨"RateLimit", .string fun v t => { t with rateLimit := v }⟩,
   ⟨"DeletedAt", .deletedAt fun v t => { t with deletedAt := some v }⟩]

/-! ## The two keys of a token -/

/-- What Redis holds for one token key. -/
structure CacheWorld where
  /-- seconds -/
  now : Nat
  /-- `token:<hmac>` -/
  hash : Option (Expiring Hash)
  /-- `token:fence:<hmac>` -/
  fence : Option (Expiring Unit)

namespace CacheWorld

def liveHash (w : CacheWorld) : Option Hash := Expiring.live w.now w.hash

def fenced (w : CacheWorld) : Bool := (Expiring.live w.now w.fence).isSome

end CacheWorld

/-- `tokenCacheTTLSeconds`; the argument is `common.RedisKeyCacheSeconds()`. -/
def tokenCacheTTLSeconds (redisKeyCacheSeconds : Int) : Nat :=
  if redisKeyCacheSeconds ≤ 0 then 60 else redisKeyCacheSeconds.toNat

def tokenCacheFenceSeconds : Nat := 10

variable (t : Token)

/-- The `HSET` of the script of `cacheInitToken`. -/
def tokenHash : Hash :=
  [("Id", formatInt t.id), ("UserId", formatInt t.userId), ("Status", formatInt t.status),
   ("Name", t.name), ("CreatedTime", formatInt t.createdTime),
   ("AccessedTime", formatInt t.accessedTime), ("ExpiredTime", formatInt t.expiredTime),
   ("UnlimitedQuota", formatBool t.unlimitedQuota),
   ("ModelLimitsEnabled", formatBool t.modelLimitsEnabled), ("ModelLimits", t.modelLimits),
   ("AllowIps", t.allowIps.getD ""), ("Group", t.group),
   ("CrossGroupRetry", formatBool t.crossGroupRetry), ("AutoGroups", t.autoGroups),
   ("RemainQuota", formatInt t.remainQuota), ("UsedQuota", formatInt t.usedQuota)]

/-- The script of `cacheInitToken` and its answer: 0 fenced, 1 published,
    2 only the TTL of a live hash refreshed. -/
def cacheInitToken (ttl : Nat) (t : Token) (w : CacheWorld) : Nat × CacheWorld :=
  if w.fenced then (0, w)
  else
    match w.liveHash with
    | some h => (2, { w with hash := some ⟨h, w.now + ttl⟩ })
    | none => (1, { w with hash := some ⟨tokenHash t, w.now + ttl⟩ })

/-- `SET fence 1 EX 10`, the first command of `invalidateTokenCacheForMutation`. -/
def raiseFence (w : CacheWorld) : CacheWorld :=
  { w with fence := some ⟨(), w.now + tokenCacheFenceSeconds⟩ }

/-- `DEL hash`, the second one. -/
def dropHash (w : CacheWorld) : CacheWorld := { w with hash := none }

def cacheGetTokenByKey (key : String) (w : CacheWorld) : Except CacheError Token :=
  match redisHGetObj dec tokenFields (w.liveHash.getD []) Token.zero with
  | .error e => .error e
  | .ok token => if token.id ≤ 0 then .error .incomplete else .ok { token with key := key }

def Token.cached : Token :=
  { t with allowIps := if t.allowIps.getD "" = "" then none else t.allowIps, rateLimit := "",
           deletedAt := none }

theorem redisHGetObj_tokenHash :
    redisHGetObj dec tokenFields (tokenHash t) Token.zero = .ok { t.cached with key := "" } := by
  have hne : tokenHash t ≠ [] := List.cons_ne_nil _ _
  unfold redisHGetObj Token.cached
  rw [if_neg hne]
  by_cases hips : t.allowIps.getD "" = ""
  · simp [tokenFields, readField, tokenHash, List.lookup_cons, Field.read, Token.zero, hips]
    rfl
  have hsome : t.allowIps = some (t.allowIps.getD "") := by
    cases h : t.allowIps with
    | none => rw [h] at hips; exact absurd rfl hips
    | some ips => rfl
  simp [tokenFields, readField, tokenHash, List.lookup_cons, Field.read, Token.zero, hips]
  rw [hsome]
  rfl

/-! ## What the relay does with a token -/

def tokenStatusEnabled : Int64 := 1

inductive Refusal where
  /-- `ErrTokenInvalid` -/
  | tokenInvalid
  /-- `ErrTokenQuotaExhausted` -/
  | tokenQuotaExhausted
  /-- the client is not in the IP list of the token -/
  | ipNotAllowed
  | rateLimited (message : String)
deriving DecidableEq

/-- `ValidateUserToken` on the token that was found, with Redis enabled. -/
def validateUserToken (now : Int64) (token : Token) : Except Refusal Unit :=
  if token.status ≠ tokenStatusEnabled then .error .tokenInvalid
  else if token.expiredTime ≠ -1 ∧ token.expiredTime < now then .error .tokenInvalid
  else if token.unlimitedQuota = false ∧ token.remainQuota ≤ 0 then .error .tokenQuotaExhausted
  else .ok ()

/-- The limiters of `TokenRateLimit` and their common state. -/
structure Limiters (σ : Type) where
  /-- `tokenRateLimitRpmLimiter.Request`: key, limit, seconds -/
  request : String → Int64 → Int64 → σ → Bool × σ
  allowTokenQBS : Int64 → Int64 → σ → Bool × σ
  acquireTokenConcurrency : Int64 → Int64 → σ → Bool × σ

/-- What the checks read of a request and of its time. -/
structure RelayRequest where
  /-- `common.GetTimestamp()` -/
  now : Int64
  /-- whether the client's address is in a list of ranges -/
  inRanges : List String → Bool
  /-- `isRateLimitExemptModel` -/
  exempt : Bool

/-- `TokenRateLimit` up to `c.Next()`. -/
def tokenRateLimit {σ : Type} (lim : Limiters σ) (exempt : Bool) (cfg : TokenRateLimitConfig)
    (tokenId : Int64) (s : σ) : Except Refusal Unit × σ :=
  if exempt then (.ok (), s)
  else if cfg.rpm ≤ 0 ∧ cfg.qbs ≤ 0 ∧ cfg.concurrency ≤ 0 then (.ok (), s)
  else
    let rpm := if 0 < cfg.rpm then
        lim.request ("token:" ++ formatInt tokenId ++ ":rpm") cfg.rpm 60 s
      else (true, s)
    if rpm.1 = false then
      (.error (.rateLimited ("您已达到该密钥的请求速率限制（每分钟 " ++ formatInt cfg.rpm ++ " 次）")), rpm.2)
    else
      let qbs := if 0 < cfg.qbs then lim.allowTokenQBS tokenId cfg.qbs rpm.2 else (true, rpm.2)
      if qbs.1 = false then
        (.error (.rateLimited ("您已达到该密钥的请求配额限制（每秒 " ++ formatInt cfg.qbs ++ " 次）")), qbs.2)
      else
        let concurrency := if 0 < cfg.concurrency then
            lim.acquireTokenConcurrency tokenId cfg.concurrency qbs.2
          else (true, qbs.2)
        if concurrency.1 = false then
          (.error (.rateLimited ("该密钥并发请求数已达上限（" ++ formatInt cfg.concurrency ++ "）")),
            concurrency.2)
        else (.ok (), concurrency.2)

/-- The checks of a request with this token: `ValidateUserToken`, the IP list,
    `TokenRateLimit`. -/
def checkRequest {σ : Type} (lim : Limiters σ) (req : RelayRequest) (token : Token)
    (s : σ) : Except Refusal Unit × σ :=
  match validateUserToken req.now token with
  | .error e => (.error e, s)
  | .ok () =>
    if token.getIpLimits ≠ [] ∧ req.inRanges token.getIpLimits = false then
      (.error .ipNotAllowed, s)
    else tokenRateLimit lim req.exempt (token.getRateLimitConfig dec) token.id s

/-- What the relay reads of a token is the same for both. -/
structure Indistinguishable (dec : Decoders) (cached row : Token) : Prop where
  id : cached.id = row.id
  userId : cached.userId = row.userId
  key : cached.key = row.key
  status : cached.status = row.status
  expiredTime : cached.expiredTime = row.expiredTime
  remainQuota : cached.remainQuota = row.remainQuota
  unlimitedQuota : cached.unlimitedQuota = row.unlimitedQuota
  modelLimitsEnabled : cached.modelLimitsEnabled = row.modelLimitsEnabled
  modelLimits : cached.getModelLimits = row.getModelLimits
  ipLimits : cached.getIpLimits = row.getIpLimits
  group : cached.group = row.group
  crossGroupRetry : cached.crossGroupRetry = row.crossGroupRetry
  autoGroups : cached.getAutoGroups dec = row.getAutoGroups dec
  rateLimit : cached.getRateLimitConfig dec = row.getRateLimitConfig dec
  /-- No check tells them apart. -/
  admission : ∀ {σ : Type} (lim : Limiters σ) (req : RelayRequest) (s : σ),
    checkRequest dec lim req cached s = checkRequest dec lim req row s

theorem getIpLimits_cached : t.cached.getIpLimits = t.getIpLimits := by
  have hips : t.cached.allowIps.getD "" = t.allowIps.getD "" := by
    show (if t.allowIps.getD "" = "" then none else t.allowIps).getD "" = _
    by_cases h : t.allowIps.getD "" = ""
    · rw [if_pos h, h]
      rfl
    · rw [if_neg h]
  unfold Token.getIpLimits
  rw [hips]

theorem getRateLimitConfig_cached : t.cached.getRateLimitConfig dec = {} := rfl

theorem checkRequest_cached {dec : Decoders} {t : Token} (hlimit : t.getRateLimitConfig dec = {})
    {σ : Type} (lim : Limiters σ) (req : RelayRequest) (s : σ) :
    checkRequest dec lim req t.cached s = checkRequest dec lim req t s := by
  have hvalid : validateUserToken req.now t.cached = validateUserToken req.now t := rfl
  have hid : t.cached.id = t.id := rfl
  unfold checkRequest
  rw [hvalid, hid, getIpLimits_cached, getRateLimitConfig_cached, hlimit]

theorem indistinguishable_cached {dec : Decoders} {t : Token} :
    Indistinguishable dec t.cached t ↔ t.getRateLimitConfig dec = {} := by
  constructor
  · intro h
    exact h.rateLimit.symm
  intro hlimit
  exact
    { id := rfl, userId := rfl, key := rfl, status := rfl, expiredTime := rfl,
      remainQuota := rfl, unlimitedQuota := rfl, modelLimitsEnabled := rfl, modelLimits := rfl,
      ipLimits := getIpLimits_cached t, group := rfl, crossGroupRetry := rfl, autoGroups := rfl,
      rateLimit := hlimit.symm, admission := checkRequest_cached hlimit }

/-! ## From a publication to a hit -/

/-- What may happen to the key while the row stays as it is. -/
inductive CacheEvent where
  | pass (seconds : Nat)
  /-- a reader that missed the cache, or a token user, publishes the row -/
  | init
  | raiseFence
  | dropHash

def cacheStep (ttl : Nat) (row : Token) (w : CacheWorld) : CacheEvent → CacheWorld
  | .pass seconds => { w with now := w.now + seconds }
  | .init => (cacheInitToken ttl row w).2
  | .raiseFence => raiseFence w
  | .dropHash => dropHash w

def Holds (row : Token) (w : CacheWorld) : Prop := ∀ h, w.hash = some h → h.value = tokenHash row

variable {w : CacheWorld}

theorem liveHash_eq_some {h : Hash} (hw : w.liveHash = some h) :
    ∃ x, w.hash = some x ∧ x.value = h ∧ w.now < x.expireAt := by
  unfold CacheWorld.liveHash Expiring.live at hw
  rw [Option.map_eq_some_iff] at hw
  obtain ⟨x, hx, rfl⟩ := hw
  rw [Option.filter_eq_some_iff] at hx
  exact ⟨x, hx.1, rfl, by simpa using hx.2⟩

variable {row : Token}

theorem Holds.live (hw : Holds row w) {h : Hash}
    (hlive : w.liveHash = some h) : h = tokenHash row := by
  obtain ⟨x, hx, rfl, -⟩ := liveHash_eq_some hlive
  exact hw x hx

theorem cacheInitToken_holds {ttl : Nat}
    (hw : Holds row w) : Holds row (cacheInitToken ttl row w).2 := by
  unfold cacheInitToken
  by_cases hfence : w.fenced = true
  · rw [if_pos hfence]
    exact hw
  rw [if_neg hfence]
  cases hlive : w.liveHash with
  | none =>
    rintro h ⟨⟩
    rfl
  | some h =>
    rintro h' ⟨⟩
    exact hw.live hlive

theorem cacheStep_holds {ttl : Nat} (w : CacheWorld) (e : CacheEvent)
    (hw : Holds row w) : Holds row (cacheStep ttl row w e) := by
  cases e with
  | pass seconds => exact hw
  | init => exact cacheInitToken_holds hw
  | raiseFence => exact hw
  | dropHash =>
    rintro h ⟨⟩

theorem cacheInitToken_published {ttl : Nat} (hpub : (cacheInitToken ttl row w).1 = 1) :
    (cacheInitToken ttl row w).2 = { w with hash := some ⟨tokenHash row, w.now + ttl⟩ } := by
  unfold cacheInitToken at hpub ⊢
  by_cases hfence : w.fenced = true
  · rw [if_pos hfence] at hpub
    omega
  rw [if_neg hfence] at hpub ⊢
  cases hlive : w.liveHash with
  | none => rfl
  | some h =>
    rw [hlive] at hpub
    have h21 : (2 : Nat) = 1 := hpub
    omega

theorem cacheGetTokenByKey_holds {dec : Decoders} (hw : Holds row w) :
    cacheGetTokenByKey dec row.key w =
      if w.liveHash = none then .error .notFound
      else if row.id ≤ 0 then .error .incomplete
      else .ok row.cached := by
  unfold cacheGetTokenByKey
  cases hlive : w.liveHash with
  | none => rfl
  | some h =>
    obtain rfl := hw.live hlive
    rw [Option.getD_some, redisHGetObj_tokenHash, if_neg (by simp)]
    rfl

theorem tokenCacheTTLSeconds_pos (n : Int) : 0 < tokenCacheTTLSeconds n := by
  unfold tokenCacheTTLSeconds
  split <;> omega

/-- A row that `cacheInitToken` published, read from the cache again while it is
    unchanged: a row with an id is handed out at once, and every token handed out
    later is indistinguishable from the row exactly when the row configures no
    rate limit (or has no id, and is never handed out). -/
theorem cached_token_like_row (dec : Decoders) (redisKeyCacheSeconds : Int) (row : Token)
    (w : CacheWorld)
    (hpub : (cacheInitToken (tokenCacheTTLSeconds redisKeyCacheSeconds) row w).1 = 1) :
    (0 < row.id → ∃ token, cacheGetTokenByKey dec row.key
      (cacheInitToken (tokenCacheTTLSeconds redisKeyCacheSeconds) row w).2 = .ok token) ∧
    ((∀ (events : List CacheEvent) (token : Token),
        cacheGetTokenByKey dec row.key
          (run (cacheStep (tokenCacheTTLSeconds redisKeyCacheSeconds) row)
            (cacheInitToken (tokenCacheTTLSeconds redisKeyCacheSeconds) row w).2 events) =
              .ok token →
        Indistinguishable dec token row) ↔
      row.id ≤ 0 ∨ row.getRateLimitConfig dec = {}) := by
  have hpublished := cacheInitToken_published hpub
  have hholds : Holds row
      (cacheInitToken (tokenCacheTTLSeconds redisKeyCacheSeconds) row w).2 := by
    rw [hpublished]
    rintro h ⟨⟩
    rfl
  have hlive : (cacheInitToken (tokenCacheTTLSeconds redisKeyCacheSeconds) row w).2.liveHash ≠
      none := by
    have hpos := tokenCacheTTLSeconds_pos redisKeyCacheSeconds
    rw [hpublished]
    simp [CacheWorld.liveHash, Expiring.live, Option.filter, hpos]
  have hread : ¬row.id ≤ 0 → cacheGetTokenByKey dec row.key
      (cacheInitToken (tokenCacheTTLSeconds redisKeyCacheSeconds) row w).2 = .ok row.cached := by
    intro hid
    rw [cacheGetTokenByKey_holds hholds, if_neg hlive, if_neg hid]
  refine ⟨fun hid => ⟨row.cached, hread (Int64.not_le.2 hid)⟩, ?_, ?_⟩
  · intro h
    by_cases hid : row.id ≤ 0
    · exact Or.inl hid
    · exact Or.inr (indistinguishable_cached.1 (h [] row.cached (hread hid)))
  intro hcond events token htoken
  have hlater : Holds row (run (cacheStep (tokenCacheTTLSeconds redisKeyCacheSeconds) row)
      (cacheInitToken (tokenCacheTTLSeconds redisKeyCacheSeconds) row w).2 events) :=
    run_invariant_all (Holds row) cacheStep_holds events hholds
  rw [cacheGetTokenByKey_holds hlater] at htoken
  split at htoken
  · cases htoken
  split at htoken
  · cases htoken
  rename_i hid
  cases htoken
  exact indistinguishable_cached.2 (hcond.resolve_left hid)

/-- `encoding/json` on the rate limit of `limitedRow`. -/
def rpmDecoders : Decoders where
  rateLimit s := if s = "\x7b\"rpm\":1\x7d" then some { rpm := 1 } else none
  strings _ := none
  rfc3339 _ := none

def unlimitedRow : Token :=
  { Token.zero with id := 7, userId := 3, key := "k7", status := 1, expiredTime := -1,
                    unlimitedQuota := true }

def limitedRow : Token := { unlimitedRow with rateLimit := "\x7b\"rpm\":1\x7d" }

def coldKey : CacheWorld where
  now := 0
  hash := none
  fence := none

theorem unlimitedRow_served : Indistinguishable rpmDecoders unlimitedRow.cached unlimitedRow :=
  (cached_token_like_row rpmDecoders 60 unlimitedRow coldKey rfl).2.2 (Or.inr rfl) [] _
    (by rfl)

def usedUp : Limiters Unit where
  request _ _ _ s := (false, s)
  allowTokenQBS _ _ s := (true, s)
  acquireTokenConcurrency _ _ s := (true, s)

def anyRequest : RelayRequest where
  now := 100
  inRanges _ := true
  exempt := false

/-- The second request of the minute is refused with the row and admitted with
    the token from the cache. -/
theorem rateLimit_lost_on_hit :
    (cacheInitToken (tokenCacheTTLSeconds 60) limitedRow coldKey).1 = 1 ∧
      ¬∀ token, cacheGetTokenByKey rpmDecoders "k7"
          (cacheInitToken (tokenCacheTTLSeconds 60) limitedRow coldKey).2 = .ok token →
        (checkRequest rpmDecoders usedUp anyRequest token ()).1 =
          (checkRequest rpmDecoders usedUp anyRequest limitedRow ()).1 := by
  refine ⟨rfl, fun h => ?_⟩
  have hread : cacheGetTokenByKey rpmDecoders "k7"
      (cacheInitToken (tokenCacheTTLSeconds 60) limitedRow coldKey).2 =
        .ok { limitedRow with rateLimit := "" } := by rfl
  have hsame := h _ hread
  exact absurd hsame (by decide +kernel)

end NewApi.Tokens
