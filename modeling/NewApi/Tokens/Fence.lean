/-
  NewApi.Tokens.Fence

  Readers and mutations of one token (`model/token.go`, `model/token_cache.go`):
  `GetTokenByKey` looks at the hash, reads the row and publishes its snapshot;
  `Update`, `SelectUpdate` and `Delete` raise the fence, drop the hash and write
  the row.  Every one of these steps is taken at a time of its own, over a
  clock that only moves forward.

  The fence lives for ten seconds.  A reader that is slower than that publishes
  what it read before the mutation, and a mutation that is slower writes under a
  hash that was published meanwhile; nothing drops the hash again.  While
  neither happens (`Clean`), a token served from the cache is never older than
  the last mutation that had returned when the call started.

  `Timely` is the assumption the constant was chosen for: the gap between fence
  and write and the gap between read and publication fit into the ten seconds
  together.  Timely runs are clean.
-/

import NewApi.Tokens.Cache

namespace NewApi.Tokens.Fence

open List (length_append prefix_rfl)
open NewApi.Lib
open NewApi.Auth (Expiring)

/-! ## What a mutation changes -/

/-- What the relay decides by: status, expiry, limits and group. -/
structure TokenRules where
  status : Int64
  expiredTime : Int64
  unlimitedQuota : Bool
  modelLimitsEnabled : Bool
  modelLimits : String
  ipLimits : List String
  group : String
  crossGroupRetry : Bool
  autoGroups : String

def rules (t : Token) : TokenRules where
  status := t.status
  expiredTime := t.expiredTime
  unlimitedQuota := t.unlimitedQuota
  modelLimitsEnabled := t.modelLimitsEnabled
  modelLimits := t.modelLimits
  ipLimits := t.getIpLimits
  group := t.group
  crossGroupRetry := t.crossGroupRetry
  autoGroups := t.autoGroups

theorem rules_cached (t : Token) (key : String) : rules { t.cached with key := key } = rules t := by
  have hips : Token.getIpLimits { t.cached with key := key } = t.cached.getIpLimits := rfl
  unfold rules
  rw [hips, getIpLimits_cached]
  rfl

/-- The database write of a mutation. -/
inductive Change where
  /-- `Update` selects these columns of its token -/
  | update (token : Token)
  /-- `SelectUpdate` -/
  | selectUpdate (accessedTime status : Int64)
  | delete

/-- The row after the write; a deleted row is not found again. -/
def Change.apply : Change → Option Token → Option Token
  | .update t, row => row.map fun r =>
    { r with name := t.name, status := t.status, expiredTime := t.expiredTime,
             remainQuota := t.remainQuota, unlimitedQuota := t.unlimitedQuota,
             modelLimitsEnabled := t.modelLimitsEnabled, modelLimits := t.modelLimits,
             allowIps := t.allowIps, group := t.group, crossGroupRetry := t.crossGroupRetry,
             autoGroups := t.autoGroups, rateLimit := t.rateLimit }
  | .selectUpdate accessedTime status, row =>
    row.map fun r => { r with accessedTime := accessedTime, status := status }
  | .delete, _ => none

/-! ## Readers and mutations -/

structure World where
  cache : CacheWorld
  /-- the token's row, and what it was: one entry for each write, the last one
      is the row -/
  row : Option Token
  rows : List (Option Token)
  /-- how many writes had been made when the last mutation returned success that
      has -/
  returned : Nat

inductive Phase where
  | idle
  /-- `GetTokenByKey` before its look at the hash; what had returned when it
      started -/
  | lookup (since : Nat)
  | readRow
  /-- about to publish; when the row was read, and after how many writes -/
  | publish (snapshot : Token) (readAt version : Nat)
  /-- `GetTokenByKey` has returned this token from the cache -/
  | hit (since : Nat) (token : Token)
  | raiseFence (change : Change)
  /-- the fence was raised at a time -/
  | dropHash (change : Change) (raisedAt : Nat)
  /-- about to write; when the fence was raised, if it was and the hash dropped -/
  | write (change : Change) (raisedAt : Option Nat)
  /-- written; the number of writes -/
  | written (version : Nat)
  | done

inductive Act where
  | get (fromDB : Bool)
  | mutate (change : Change)
  | lookup (fails : Bool)
  | read (fails : Bool)
  | publish (fails : Bool)
  | raiseFence (fails : Bool)
  | dropHash (fails : Bool)
  | write (fails : Bool)
  /-- a mutation returns success -/
  | finish
  /-- time passes -/
  | pass (seconds : Nat)

def start (w : World) : Act → Phase → World × Phase
  | .get fromDB, _ => (w, if fromDB then .readRow else .lookup w.returned)
  | .mutate change, _ => (w, .raiseFence change)
  | _, φ => (w, φ)

/-- The cache read of `GetTokenByKey`. -/
def lookup (dec : Decoders) (key : String) (w : World) (since : Nat) (fails : Bool) : Phase :=
  if fails then .readRow
  else
    match cacheGetTokenByKey dec key w.cache with
    | .ok token => .hit since token
    | .error _ => .readRow

/-- The row read of `GetTokenByKey`. -/
def readRow (w : World) (fails : Bool) : Phase :=
  match w.row with
  | none => .done
  | some r => if fails then .done else .publish r w.cache.now w.rows.length

def write (w : World) (change : Change) (fails : Bool) : World × Phase :=
  if fails then (w, .done)
  else
    ({ w with row := change.apply w.row, rows := w.rows ++ [change.apply w.row] },
      .written w.rows.length)

/-- One statement of a call, or the clock. -/
def next (dec : Decoders) (key : String) (ttl : Nat) (w : World) (φ : Phase) (a : Act) :
    World × Phase :=
  match a, φ with
  | .pass seconds, φ => ({ w with cache := { w.cache with now := w.cache.now + seconds } }, φ)
  | .lookup fails, .lookup since => (w, lookup dec key w since fails)
  | .read fails, .readRow => (w, readRow w fails)
  | .publish fails, .publish snapshot _ _ =>
    (if fails then w else { w with cache := (cacheInitToken ttl snapshot w.cache).2 }, .done)
  | .raiseFence fails, .raiseFence change =>
    -- an error of the fence is logged, and the hash is not dropped
    if fails then (w, .write change none)
    else ({ w with cache := Tokens.raiseFence w.cache }, .dropHash change w.cache.now)
  | .dropHash fails, .dropHash change raisedAt =>
    if fails then (w, .write change none)
    else ({ w with cache := Tokens.dropHash w.cache }, .write change (some raisedAt))
  | .write fails, .write change _ => write w change fails
  | .finish, .written version => ({ w with returned := max w.returned version }, .done)
  | a, .idle => start w a .idle
  | a, .hit since token => start w a (.hit since token)
  | a, .done => start w a .done
  | _, φ => (w, φ)

variable {ι : Type*}

def step (dec : Decoders) (key : String) (ttl : Nat) (_ : ι) (w : World) (φ : Phase) (a : Act) :
    World × Phase :=
  next dec key ttl w φ a

abbrev System (ι : Type*) := Workers World ι Phase

def fresh (ι : Type*) (now : Nat) (row : Token) : System ι where
  shared :=
    { cache := { now := now, hash := none, fence := none }, row := some row,
      rows := [some row], returned := 0 }
  proc _ := .idle

/-- The condition on a step. -/
def Clean (w : World) : Phase → Act → Prop
  -- a snapshot is up to date when it is published
  | .publish snapshot _ _, .publish false =>
    w.cache.fenced = false → w.cache.liveHash = none → w.row.map rules = some (rules snapshot)
  -- a write that changes anything meets no hash
  | .write change _, .write false =>
    w.cache.liveHash = none ∨ (change.apply w.row).map rules = w.row.map rules
  | _, _ => True

/-! ## What a step may do -/

section Steps

variable {dec : Decoders} {key : String} {ttl : Nat} {w : World} {φ : Phase} {a : Act}

theorem next_elim {P : World × Phase → Prop} (hpass : ∀ seconds, a = .pass seconds →
      P ({ w with cache := { w.cache with now := w.cache.now + seconds } }, φ))
    (hlookup : ∀ fails since, a = .lookup fails → φ = .lookup since →
      P (w, lookup dec key w since fails))
    (hread : ∀ fails, a = .read fails → φ = .readRow → P (w, readRow w fails))
    (hpublish : ∀ fails snapshot readAt version, a = .publish fails →
      φ = .publish snapshot readAt version →
      P (if fails then w else { w with cache := (cacheInitToken ttl snapshot w.cache).2 }, .done))
    (hfence : ∀ change, a = .raiseFence false → φ = .raiseFence change →
      P ({ w with cache := Tokens.raiseFence w.cache }, .dropHash change w.cache.now))
    (hdrop : ∀ change raisedAt, a = .dropHash false → φ = .dropHash change raisedAt →
      P ({ w with cache := Tokens.dropHash w.cache }, .write change (some raisedAt)))
    (hunfenced : ∀ change, (φ = .raiseFence change ∨ ∃ raisedAt, φ = .dropHash change raisedAt) →
      P (w, .write change none))
    (hwrite : ∀ fails change raisedAt, a = .write fails → φ = .write change raisedAt →
      P (write w change fails))
    (hfinish : ∀ version, a = .finish → φ = .written version →
      P ({ w with returned := max w.returned version }, .done))
    (hget : P (w, .readRow) ∧ P (w, .lookup w.returned))
    (hmutate : ∀ change, P (w, .raiseFence change))
    (hstill : P (w, φ)) : P (next dec key ttl w φ a) := by
  have hstart : ∀ φ', P (w, φ') → P (start w a φ') := by
    intro φ' hφ'
    cases a with
    | get fromDB =>
      cases fromDB with
      | true => exact hget.1
      | false => exact hget.2
    | mutate change => exact hmutate change
    | _ => exact hφ'
  unfold next
  split
  case h_1 seconds => exact hpass seconds rfl
  case h_2 fails since => exact hlookup fails since rfl rfl
  case h_3 fails => exact hread fails rfl rfl
  case h_4 fails snapshot readAt version => exact hpublish fails snapshot readAt version rfl rfl
  case h_5 fails change =>
    cases fails with
    | true => exact hunfenced change (Or.inl rfl)
    | false => exact hfence change rfl rfl
  case h_6 fails change raisedAt =>
    cases fails with
    | true => exact hunfenced change (Or.inr ⟨raisedAt, rfl⟩)
    | false => exact hdrop change raisedAt rfl rfl
  case h_7 fails change raisedAt => exact hwrite fails change raisedAt rfl rfl
  case h_8 version => exact hfinish version rfl rfl
  case h_9 => exact hstart _ hstill
  case h_10 => exact hstart _ hstill
  case h_11 => exact hstart _ hstill
  case h_12 => exact hstill

theorem live_of_later {α : Type} {now later : Nat} {x : Option (Expiring α)} {v : α}
    (hle : now ≤ later) (h : Expiring.live later x = some v) : Expiring.live now x = some v := by
  unfold Expiring.live at h ⊢
  rw [Option.map_eq_some_iff] at h ⊢
  obtain ⟨y, hy, rfl⟩ := h
  rw [Option.filter_eq_some_iff] at hy
  have hlt : later < y.expireAt := by simpa using hy.2
  refine ⟨y, ?_, rfl⟩
  rw [Option.filter_eq_some_iff]
  exact ⟨hy.1, by simpa using (by omega : now < y.expireAt)⟩

theorem cacheInitToken_liveHash {t : Token} {c : CacheWorld} {h : Hash}
    (hafter : (cacheInitToken ttl t c).2.liveHash = some h) :
    c.liveHash = some h ∨ (c.fenced = false ∧ c.liveHash = none ∧ h = tokenHash t) := by
  unfold cacheInitToken at hafter
  by_cases hfence : c.fenced = true
  · rw [if_pos hfence] at hafter
    exact Or.inl hafter
  rw [if_neg hfence] at hafter
  cases hlive : c.liveHash with
  | none =>
    rw [hlive] at hafter
    obtain ⟨x, hx, rfl, -⟩ := liveHash_eq_some hafter
    cases hx
    exact Or.inr ⟨by simpa using hfence, rfl, rfl⟩
  | some h' =>
    rw [hlive] at hafter
    obtain ⟨x, hx, rfl, -⟩ := liveHash_eq_some hafter
    cases hx
    exact Or.inl rfl

theorem cacheInitToken_frame (ttl : Nat) (t : Token) (c : CacheWorld) :
    (cacheInitToken ttl t c).2.now = c.now ∧ (cacheInitToken ttl t c).2.fence = c.fence := by
  unfold cacheInitToken
  split
  · exact ⟨rfl, rfl⟩
  split <;> exact ⟨rfl, rfl⟩

theorem cacheInitToken_fenced {t : Token} {c : CacheWorld} (h : c.fenced = true) :
    (cacheInitToken ttl t c).2 = c := by
  unfold cacheInitToken
  rw [if_pos h]

end Steps

/-! ## The hash agrees with the row -/

/-- The row is the last of `rows`, and what is live in the hash has its rules. -/
structure Agrees (w : World) : Prop where
  last : w.rows[w.rows.length - 1]? = some w.row
  returned : w.returned < w.rows.length
  hash : ∀ h, w.cache.liveHash = some h →
    ∃ t, h = tokenHash t ∧ w.row.map rules = some (rules t)

/-- A token has the rules the row had after `since` writes or more. -/
def NotOlder (w : World) (since : Nat) (token : Token) : Prop :=
  ∃ k r, since ≤ k ∧ w.rows[k]? = some (some r) ∧ rules r = rules token

def Knows (w : World) : Phase → Prop
  | .lookup since => since < w.rows.length
  | .written version => version < w.rows.length
  | .hit since token => NotOlder w since token
  | _ => True

section Agrees

variable {dec : Decoders} {key : String} {ttl : Nat} {w w' : World} {φ : Phase} {a : Act}

theorem getElem?_of_prefix {α : Type} {l l' : List α} (h : l <+: l') {n : Nat} {x : α}
    (hx : l[n]? = some x) : l'[n]? = some x := by
  obtain ⟨rest, rfl⟩ := h
  have hlt : n < l.length := (List.getElem?_eq_some_iff.1 hx).1
  rw [List.getElem?_append_left hlt]
  exact hx

theorem Knows.later (h : Knows w φ) (hrows : w.rows <+: w'.rows) : Knows w' φ := by
  cases φ with
  | lookup since | written version => exact Nat.lt_of_lt_of_le h hrows.length_le
  | hit since token =>
    obtain ⟨k, r, hk, hr, hrules⟩ := h
    exact ⟨k, r, hk, getElem?_of_prefix hrows hr, hrules⟩
  | _ => trivial

theorem lookup_knows (h : Agrees w) {since : Nat} (hsince : since < w.rows.length) (fails : Bool) :
    Knows w (lookup dec key w since fails) := by
  unfold lookup
  split
  · trivial
  split
  · rename_i token htoken
    unfold cacheGetTokenByKey at htoken
    cases hlive : w.cache.liveHash with
    | none =>
      rw [hlive] at htoken
      cases htoken
    | some x =>
      obtain ⟨t, rfl, hrules⟩ := h.hash x hlive
      rw [hlive, Option.getD_some, redisHGetObj_tokenHash] at htoken
      simp only at htoken
      split at htoken
      · cases htoken
      cases htoken
      rw [Option.map_eq_some_iff] at hrules
      obtain ⟨r, hr, hsame⟩ := hrules
      refine ⟨w.rows.length - 1, r, by omega, ?_, ?_⟩
      · rw [h.last, hr]
      · exact hsame.trans (rules_cached t key).symm
  · trivial

theorem next_agrees (h : Agrees w) (hφ : Knows w φ) (hclean : Clean w φ a) :
    Agrees (next dec key ttl w φ a).1 ∧
      Knows (next dec key ttl w φ a).1 (next dec key ttl w φ a).2 ∧
      w.rows <+: (next dec key ttl w φ a).1.rows := by
  have hsame : ∀ φ' : Phase, Knows w φ' → Agrees w ∧ Knows w φ' ∧ w.rows <+: w.rows :=
    fun φ' hφ' => ⟨h, hφ', prefix_rfl⟩
  refine next_elim (P := fun out => Agrees out.1 ∧ Knows out.1 out.2 ∧ w.rows <+: out.1.rows)
    ?pass ?lookup ?read ?publish ?fence ?drop ?unfenced ?write ?finish ?get ?mutate
    (hsame φ hφ)
  case pass =>
    rintro seconds -
    refine ⟨⟨h.last, h.returned, fun x hx => h.hash x ?_⟩, hφ.later prefix_rfl,
      prefix_rfl⟩
    exact live_of_later (Nat.le_add_right w.cache.now seconds) hx
  case lookup =>
    rintro fails since - rfl
    exact hsame _ (lookup_knows h hφ fails)
  case read =>
    rintro fails - -
    refine hsame _ ?_
    unfold readRow
    split
    · trivial
    split <;> trivial
  case publish =>
    rintro fails snapshot readAt version rfl rfl
    cases fails with
    | true => exact hsame _ trivial
    | false =>
      have hclean : w.cache.fenced = false → w.cache.liveHash = none →
          w.row.map rules = some (rules snapshot) := hclean
      refine ⟨⟨h.last, h.returned, fun x hx => ?_⟩, trivial, prefix_rfl⟩
      rcases cacheInitToken_liveHash hx with hold | ⟨hfence, hnone, rfl⟩
      · exact h.hash x hold
      · exact ⟨snapshot, rfl, hclean hfence hnone⟩
  case fence =>
    rintro change - -
    exact ⟨⟨h.last, h.returned, h.hash⟩, trivial, prefix_rfl⟩
  case drop =>
    rintro change raisedAt - -
    refine ⟨⟨h.last, h.returned, fun x hx => ?_⟩, trivial, prefix_rfl⟩
    obtain ⟨y, hy, -⟩ := liveHash_eq_some hx
    cases hy
  case unfenced =>
    rintro change -
    exact hsame _ trivial
  case write =>
    rintro fails change raisedAt rfl rfl
    unfold write
    cases fails with
    | true => exact hsame _ trivial
    | false =>
      have hclean : w.cache.liveHash = none ∨ (change.apply w.row).map rules = w.row.map rules :=
        hclean
      have hreturned := h.returned
      refine ⟨⟨?_, ?_, fun x hx => ?_⟩, ?_, List.prefix_append _ _⟩
      · simp
      · show w.returned < (w.rows ++ [change.apply w.row]).length
        rw [length_append]
        omega
      · have hx : w.cache.liveHash = some x := hx
        rcases hclean with hnone | hrules
        · rw [hnone] at hx
          cases hx
        · obtain ⟨t, ht, hrow⟩ := h.hash x hx
          exact ⟨t, ht, hrules.trans hrow⟩
      show w.rows.length < (w.rows ++ [change.apply w.row]).length
      rw [length_append, List.length_singleton]
      omega
  case finish =>
    rintro version - rfl
    have hreturned := h.returned
    have hversion : version < w.rows.length := hφ
    exact ⟨⟨h.last, Nat.max_lt.2 ⟨hreturned, hversion⟩, h.hash⟩, trivial, prefix_rfl⟩
  case get => exact ⟨hsame _ trivial, hsame _ h.returned⟩
  case mutate =>
    intro change
    exact hsame _ trivial

end Agrees

/-! ## Runs -/

section Runs

variable [DecidableEq ι]

def CleanStep (s : System ι) (a : ι × Act) : Prop := Clean s.shared (s.proc a.1) a.2

omit [DecidableEq ι] in
theorem agrees_fresh (now : Nat) (row : Token) :
    (fresh ι now row).Holds Agrees fun w _ φ => Knows w φ :=
  ⟨⟨rfl, Nat.zero_lt_one, by rintro h ⟨⟩⟩, fun _ => trivial⟩

/-- Every token served from the cache is as new as what had returned when its
    call started. -/
def ServesNotOlder (s : System ι) : Prop :=
  ∀ i since token, s.proc i = .hit since token → NotOlder s.shared since token

theorem clean_runs_serve_not_older (dec : Decoders) (key : String) (ttl now : Nat) (row : Token)
    {as : List (ι × Act)}
    (hclean : Meets CleanStep (Workers.step (step dec key ttl)) (fresh ι now row) as) :
    ServesNotOlder (run (Workers.step (step dec key ttl)) (fresh ι now row) as) := by
  have hholds : (run (Workers.step (step dec key ttl)) (fresh ι now row) as).Holds Agrees
      fun w _ φ => Knows w φ := by
    refine Workers.Holds.run_rely (R := fun _ w w' => w.rows <+: w'.rows) ?_ ?_
      (agrees_fresh now row) hclean
    · intro s i a hs hc
      exact next_agrees hs.1 (hs.2 i) hc
    · intro i j w w' φ _ _ _ hrows hφ
      exact hφ.later hrows
  intro i since token hhit
  have hknows := hholds.2 i
  rw [hhit] at hknows
  exact hknows

end Runs

/-! ## What the ten seconds are for -/

/-- The gaps the fence has to outlive: from the fence of a mutation, which is
    raised and drops the hash, to its write, and from a reader's row read to its
    publication. -/
def Timely (writeGap readGap : Nat) (w : World) : Phase → Act → Prop
  | .write _ raisedAt, .write false => ∃ f, raisedAt = some f ∧ w.cache.now ≤ f + writeGap
  | .publish _ readAt _, .publish false => w.cache.now ≤ readAt + readGap
  | _, _ => True

/-- The fence is up until `time`, or later. -/
def FenceUntil (c : CacheWorld) (time : Nat) : Prop := ∃ x, c.fence = some x ∧ time ≤ x.expireAt

theorem FenceUntil.fenced {c : CacheWorld} {time : Nat} (h : FenceUntil c time)
    (hlt : c.now < time) : c.fenced = true := by
  obtain ⟨x, hx, hle⟩ := h
  have hnow : c.now < x.expireAt := by omega
  unfold CacheWorld.fenced Expiring.live
  rw [hx, Option.filter_some, if_pos (by simpa using hnow)]
  rfl

structure FenceSane (w : World) : Prop where
  last : w.rows[w.rows.length - 1]? = some w.row
  nonempty : 0 < w.rows.length
  fence : ∀ x, w.cache.fence = some x → x.expireAt ≤ w.cache.now + tokenCacheFenceSeconds

/-- What the gaps give a caller: a mutation has its fence up, and once the hash
    is dropped it stays dropped; a reader's snapshot is the row's last state, or
    the fence of the write that overtook it is up. -/
def OnTime (writeGap : Nat) (w : World) : Phase → Prop
  | .dropHash _ raisedAt =>
    raisedAt ≤ w.cache.now ∧ FenceUntil w.cache (raisedAt + tokenCacheFenceSeconds)
  | .write _ (some raisedAt) =>
    raisedAt ≤ w.cache.now ∧ FenceUntil w.cache (raisedAt + tokenCacheFenceSeconds) ∧
      (w.cache.now < raisedAt + tokenCacheFenceSeconds → w.cache.liveHash = none)
  | .publish snapshot readAt version =>
    readAt ≤ w.cache.now ∧ 0 < version ∧ version ≤ w.rows.length ∧
      w.rows[version - 1]? = some (some snapshot) ∧
      (version < w.rows.length →
        ∃ x, w.cache.fence = some x ∧
          readAt + tokenCacheFenceSeconds ≤ x.expireAt + writeGap)
  | _ => True

/-- What any step does to the world. -/
structure Advance (writeGap : Nat) (w w' : World) : Prop where
  now : w.cache.now ≤ w'.cache.now
  rows : w.rows <+: w'.rows
  fence : ∀ time, FenceUntil w.cache time → FenceUntil w'.cache time
  written : w.rows.length < w'.rows.length →
    ∃ x, w'.cache.fence = some x ∧ w.cache.now + tokenCacheFenceSeconds ≤ x.expireAt + writeGap
  hash : w.cache.fenced = true → w.cache.liveHash = none → w'.cache.liveHash = none

section Timely

variable {writeGap readGap : Nat} {w w' : World} {φ : Phase} {a : Act}

theorem Advance.refl (w : World) : Advance writeGap w w where
  now := Nat.le_refl _
  rows := prefix_rfl
  fence _ h := h
  written h := absurd h (Nat.lt_irrefl _)
  hash _ h := h

theorem OnTime.later (h : OnTime writeGap w φ) (hw : Advance writeGap w w') :
    OnTime writeGap w' φ := by
  have hnow := hw.now
  cases φ with
  | dropHash change raisedAt => exact ⟨Nat.le_trans h.1 hnow, hw.fence _ h.2⟩
  | write change raisedAt =>
    cases raisedAt with
    | none => trivial
    | some raisedAt =>
      obtain ⟨hraised, hfence, hhash⟩ := h
      refine ⟨Nat.le_trans hraised hnow, hw.fence _ hfence, fun hlt => ?_⟩
      have hbefore : w.cache.now < raisedAt + tokenCacheFenceSeconds := by omega
      exact hw.hash (hfence.fenced hbefore) (hhash hbefore)
  | publish snapshot readAt version =>
    obtain ⟨hread, hpos, hle, hsnapshot, hover⟩ := h
    refine ⟨Nat.le_trans hread hnow, hpos, Nat.le_trans hle hw.rows.length_le,
      getElem?_of_prefix hw.rows hsnapshot, fun hlt => ?_⟩
    by_cases hgrown : w.rows.length < w'.rows.length
    · obtain ⟨x, hx, hup⟩ := hw.written hgrown
      exact ⟨x, hx, by omega⟩
    obtain ⟨x, hx, hup⟩ := hover (by omega)
    obtain ⟨y, hy, hlater⟩ := hw.fence x.expireAt ⟨x, hx, Nat.le_refl _⟩
    exact ⟨y, hy, by omega⟩
  | _ => trivial

theorem clean_of_timely (hgaps : writeGap + readGap < tokenCacheFenceSeconds)
    (hw : FenceSane w) (hφ : OnTime writeGap w φ) (h : Timely writeGap readGap w φ a) :
    Clean w φ a := by
  unfold Clean
  split
  · rename_i snapshot readAt version
    obtain ⟨hread, hpos, hle, hsnapshot, hover⟩ := hφ
    have hsoon : w.cache.now ≤ readAt + readGap := h
    intro hfence _
    have hcurrent : version = w.rows.length := by
      by_contra hne
      obtain ⟨x, hx, hup⟩ := hover (by omega)
      have hfenced := FenceUntil.fenced ⟨x, hx, Nat.le_refl _⟩
        (by omega : w.cache.now < x.expireAt)
      rw [hfence] at hfenced
      cases hfenced
    subst hcurrent
    rw [hw.last] at hsnapshot
    rw [Option.some.inj hsnapshot]
    rfl
  · rename_i change raisedAt
    obtain ⟨f, rfl, hsoon⟩ := h
    exact Or.inl (hφ.2.2 (by omega))
  · trivial

/-- A step on time keeps everyone on time. -/
theorem next_onTime (dec : Decoders) (key : String) (ttl : Nat) (hw : FenceSane w)
    (hφ : OnTime writeGap w φ) (h : Timely writeGap readGap w φ a) :
    FenceSane (next dec key ttl w φ a).1 ∧
      OnTime writeGap (next dec key ttl w φ a).1 (next dec key ttl w φ a).2 ∧
      Advance writeGap w (next dec key ttl w φ a).1 := by
  have hsame : ∀ φ' : Phase, OnTime writeGap w φ' →
      FenceSane w ∧ OnTime writeGap w φ' ∧ Advance writeGap w w :=
    fun φ' hφ' => ⟨hw, hφ', Advance.refl w⟩
  refine next_elim (P := fun out => FenceSane out.1 ∧ OnTime writeGap out.1 out.2 ∧
      Advance writeGap w out.1)
    ?pass ?lookup ?read ?publish ?fence ?drop ?unfenced ?write ?finish ?get ?mutate
    (hsame φ hφ)
  case pass =>
    rintro seconds -
    have hadvance : Advance writeGap w
        { w with cache := { w.cache with now := w.cache.now + seconds } } :=
      { now := Nat.le_add_right _ _, rows := prefix_rfl, fence := fun _ h => h,
        written := fun h => absurd h (Nat.lt_irrefl _),
        hash := fun _ hnone => by
          by_contra hsome
          obtain ⟨x, hx⟩ := Option.ne_none_iff_exists'.1 hsome
          have hbefore : w.cache.liveHash = some x :=
            live_of_later (Nat.le_add_right w.cache.now seconds) hx
          rw [hnone] at hbefore
          cases hbefore }
    refine ⟨⟨hw.last, hw.nonempty, fun x hx => ?_⟩, hφ.later hadvance, hadvance⟩
    have hle := hw.fence x hx
    show x.expireAt ≤ w.cache.now + seconds + tokenCacheFenceSeconds
    omega
  case lookup =>
    rintro fails since - rfl
    refine hsame _ ?_
    unfold lookup
    split
    · trivial
    split <;> trivial
  case read =>
    rintro fails - -
    refine hsame _ ?_
    unfold readRow
    cases hrow : w.row with
    | none => trivial
    | some r =>
      cases fails with
      | true => trivial
      | false =>
        refine ⟨Nat.le_refl _, hw.nonempty, Nat.le_refl _, ?_, fun h => ?_⟩
        · rw [hw.last, hrow]
        · exact absurd h (Nat.lt_irrefl _)
  case publish =>
    rintro fails snapshot readAt version rfl rfl
    cases fails with
    | true => exact hsame _ trivial
    | false =>
      obtain ⟨hnow, hfence⟩ := cacheInitToken_frame ttl snapshot w.cache
      have hadvance : Advance writeGap w
          { w with cache := (cacheInitToken ttl snapshot w.cache).2 } :=
        { now := Nat.le_of_eq hnow.symm, rows := prefix_rfl,
          fence := fun time hup => by
            obtain ⟨x, hx, hle⟩ := hup
            exact ⟨x, hfence.trans hx, hle⟩,
          written := fun h => absurd h (Nat.lt_irrefl _),
          hash := fun hup hnone => by
            rw [cacheInitToken_fenced hup]
            exact hnone }
      refine ⟨⟨hw.last, hw.nonempty, fun x hx => ?_⟩, trivial, hadvance⟩
      show x.expireAt ≤ (cacheInitToken ttl snapshot w.cache).2.now + tokenCacheFenceSeconds
      rw [hnow]
      exact hw.fence x (hfence.symm.trans hx)
  case fence =>
    rintro change - -
    have hup : FenceUntil (Tokens.raiseFence w.cache) (w.cache.now + tokenCacheFenceSeconds) :=
      ⟨_, rfl, Nat.le_refl _⟩
    refine ⟨⟨hw.last, hw.nonempty, ?_⟩, ⟨Nat.le_refl _, hup⟩, ?_⟩
    · rintro x ⟨⟩
      exact Nat.le_refl _
    refine ⟨Nat.le_refl _, prefix_rfl, ?_, fun h => absurd h (Nat.lt_irrefl _),
      fun _ hnone => hnone⟩
    rintro time ⟨x, hx, hle⟩
    have hmax := hw.fence x hx
    exact ⟨_, rfl, Nat.le_trans hle hmax⟩
  case drop =>
    rintro change raisedAt - rfl
    obtain ⟨hraised, hup⟩ := hφ
    have hnone : (Tokens.dropHash w.cache).liveHash = none := rfl
    exact ⟨⟨hw.last, hw.nonempty, hw.fence⟩, ⟨hraised, hup, fun _ => hnone⟩,
      ⟨Nat.le_refl _, prefix_rfl, fun _ h => h, fun h => absurd h (Nat.lt_irrefl _),
        fun _ _ => hnone⟩⟩
  case unfenced =>
    rintro change -
    exact hsame _ trivial
  case write =>
    rintro fails change raisedAt rfl rfl
    unfold write
    cases fails with
    | true => exact hsame _ trivial
    | false =>
      obtain ⟨f, rfl, hsoon⟩ := h
      obtain ⟨hraised, ⟨x, hx, hle⟩, hnone⟩ := hφ
      refine ⟨⟨?_, ?_, hw.fence⟩, trivial, ?_⟩
      · simp
      · show 0 < (w.rows ++ [change.apply w.row]).length
        rw [length_append, List.length_singleton]
        omega
      -- whoever read before this write publishes while its fence is up
      exact ⟨Nat.le_refl _, List.prefix_append _ _, fun _ h => h,
        fun _ => ⟨x, hx, by omega⟩, fun _ h => h⟩
  case finish =>
    rintro version - rfl
    exact ⟨⟨hw.last, hw.nonempty, hw.fence⟩, trivial, ⟨Nat.le_refl _, prefix_rfl,
      fun _ h => h, fun h => absurd h (Nat.lt_irrefl _), fun _ h => h⟩⟩
  case get => exact ⟨hsame _ trivial, hsame _ trivial⟩
  case mutate =>
    intro change
    exact hsame _ trivial

end Timely

def TimelyStep (writeGap readGap : Nat) (s : System ι) (a : ι × Act) : Prop :=
  Timely writeGap readGap s.shared (s.proc a.1) a.2

theorem timely_runs_are_clean [DecidableEq ι] {writeGap readGap : Nat}
    (hgaps : writeGap + readGap < tokenCacheFenceSeconds) (dec : Decoders) (key : String)
    (ttl now : Nat) (row : Token) (as : List (ι × Act))
    (h : Meets (TimelyStep writeGap readGap) (Workers.step (step dec key ttl)) (fresh ι now row)
      as) : Meets CleanStep (Workers.step (step dec key ttl)) (fresh ι now row) as := by
  refine Meets.of_invariant
    (fun s : System ι => s.Holds FenceSane fun w _ φ => OnTime writeGap w φ) ?_ ?_ ?_ h
  · intro s a hs ht
    exact clean_of_timely hgaps hs.1 (hs.2 a.1) ht
  · intro s a hs ht
    obtain ⟨hsane, hself, hadvance⟩ := next_onTime dec key ttl hs.1 (hs.2 a.1) ht
    exact hs.step a.1 a.2 ⟨hsane, hself⟩ fun j _ hj => hj.later hadvance
  · exact ⟨⟨rfl, Nat.zero_lt_one, by rintro x ⟨⟩⟩, fun _ => trivial⟩

/-- A call of `GetTokenByKey` that returns a token from the cache returns one
    with the status, expiry, limits and group the row had at the last mutation
    that had returned when the call started, or later: in every run whose
    publications are up to date and whose writes meet no hash, and so in every
    run whose gaps fit into the life of the fence. -/
theorem fenced_token_not_stale [DecidableEq ι] (dec : Decoders) (key : String) (ttl now : Nat)
    (row : Token) (as : List (ι × Act)) :
    (Meets CleanStep (Workers.step (step dec key ttl)) (fresh ι now row) as →
      ServesNotOlder (run (Workers.step (step dec key ttl)) (fresh ι now row) as)) ∧
    (∀ writeGap readGap, writeGap + readGap < tokenCacheFenceSeconds →
      Meets (TimelyStep writeGap readGap) (Workers.step (step dec key ttl)) (fresh ι now row) as →
      ServesNotOlder (run (Workers.step (step dec key ttl)) (fresh ι now row) as)) := by
  refine ⟨clean_runs_serve_not_older dec key ttl now row, fun writeGap readGap hgaps h => ?_⟩
  exact clean_runs_serve_not_older dec key ttl now row
    (timely_runs_are_clean hgaps dec key ttl now row as h)

/-- A reader (`false`) reads the row, a mutation (`true`) disables the token, and the reader
    publishes; then the token is read from the cache. -/
def disabledWhileRead (delay : Nat) : List (Bool × Act) :=
  [(false, .get true), (false, .read false),
   (true, .mutate (.selectUpdate 0 2)), (true, .raiseFence false), (true, .dropHash false),
   (true, .write false), (true, .finish),
   (false, .pass delay), (false, .publish false),
   (true, .get false), (true, .lookup false)]

/-- After five seconds the fence stops the publication. -/
theorem disabledWhileRead_in_time :
    ServesNotOlder (run (Workers.step (step rpmDecoders "k7" 60)) (fresh Bool 0 unlimitedRow)
      (disabledWhileRead 5)) := by
  refine (fenced_token_not_stale rpmDecoders "k7" 60 0 unlimitedRow (disabledWhileRead 5)).2 0 5
    (by decide) ?_
  have hwrite : ∃ f, some 0 = some f ∧ 0 ≤ f + 0 := ⟨0, rfl, by decide⟩
  have hpublish : 5 ≤ 0 + 5 := by decide
  exact ⟨trivial, trivial, trivial, trivial, trivial, hwrite, trivial, trivial, hpublish, trivial,
    trivial, trivial⟩

/-- After eleven it does not: the call that starts after the mutation has
    returned is served the enabled token. -/
theorem disabledWhileRead_too_late :
    ¬ServesNotOlder (run (Workers.step (step rpmDecoders "k7" 60)) (fresh Bool 0 unlimitedRow)
      (disabledWhileRead 11)) := by
  intro h
  have hhit : (run (Workers.step (step rpmDecoders "k7" 60)) (fresh Bool 0 unlimitedRow)
      (disabledWhileRead 11)).proc true = .hit 1 unlimitedRow.cached := by rfl
  obtain ⟨k, r, hk, hr, hrules⟩ := h true 1 unlimitedRow.cached hhit
  have hrows : (run (Workers.step (step rpmDecoders "k7" 60)) (fresh Bool 0 unlimitedRow)
      (disabledWhileRead 11)).shared.rows =
        [some unlimitedRow, some { unlimitedRow with status := 2 }] := by rfl
  rw [hrows] at hr
  have hlt : k < 2 := (List.getElem?_eq_some_iff.1 hr).1
  obtain rfl : k = 1 := by omega
  obtain rfl : { unlimitedRow with status := 2 } = r := by simpa using hr
  exact absurd (congrArg TokenRules.status hrules) (by decide)

end NewApi.Tokens.Fence
