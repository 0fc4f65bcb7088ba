/-
  NewApi.Pricing.ExprCache

  The compile cache of billing expressions (`pkg/billingexpr/compile.go`) and
  the two look-ups that read metadata through it, `UsedVars` and
  `UsedUsageKeys`.

  Both compile the expression, which stores an entry, and then look the entry up
  again under a lock of its own.  The cache is shared: between the two, another
  request may clear it (`InvalidateCache`, or an entry stored when it holds
  `maxCacheSize`), and then the look-up finds nothing and the answer is nil.

  Parser, type checker and optimiser belong to the expression library and are a
  `Toolchain`.  Of a program the code only reads the tree.
-/

import NewApi.Lib.Run
import NewApi.Subscription.Store
import Mathlib.Data.Finset.Union

namespace NewApi.Pricing

open NewApi.Lib
open NewApi.Subscription (trimSpace)

/-! ## Trees -/

/-- `ast.Node`, as far as the code tells nodes apart. -/
inductive Node where
  | identifier (value : String)
  | string (value : String)
  | call (callee : Node) (arguments : List Node)
  | other (kind : String) (children : List Node)

/-- `requestRuleTraceFunction` and `requestRuleTraceIntFunction` -/
def traceFunctions : List String := ["_trace", "_trace_int"]

/-- `u("key")` with one literal argument. -/
def usageKey : Node → List Node → Finset String
  | .identifier name, [.string key] => if name = "u" then {trimSpace key} else ∅
  | _, _ => ∅

mutual

def Node.identifiers : Node → Finset String
  | .identifier value => {value}
  | .string _ => ∅
  | .call callee arguments => callee.identifiers ∪ identifiersOf arguments
  | .other _ children => identifiersOf children

def identifiersOf : List Node → Finset String
  | [] => ∅
  | n :: ns => n.identifiers ∪ identifiersOf ns

end

mutual

def extractUsedUsageKeys : Node → Finset String
  | .identifier _ => ∅
  | .string _ => ∅
  | .call callee arguments =>
    usageKey callee arguments ∪ extractUsedUsageKeys callee ∪ usageKeysOf arguments
  | .other _ children => usageKeysOf children

def usageKeysOf : List Node → Finset String
  | [] => ∅
  | n :: ns => extractUsedUsageKeys n ∪ usageKeysOf ns

end

def extractUsedVars (n : Node) : Finset String := n.identifiers.filter fun v => v ∉ traceFunctions

/-! ## The cache -/

/-- `cachedEntry`, without the program. -/
structure CachedEntry where
  usedVars : Finset String
  usedUsageKeys : Finset String
  fixedPricing : Bool

/-- What the expression library and SHA-256 do. -/
structure Toolchain where
  /-- `ExprHashString` -/
  exprHashString : String → String
  /-- `parser.Parse` -/
  parse : String → Option Node
  /-- `validateFixedPricingTree` -/
  validFixedPricing : Node → Bool
  /-- `expr.Compile` of the body with the rule patcher: the tree of the program. -/
  compile : String → Option Node

/-- `ParseExprVersion`: the body. -/
def exprBody (exprStr : String) : String :=
  if ['v', '1', ':'].isPrefixOf exprStr.toList then String.ofList (exprStr.toList.drop 3)
  else exprStr

variable (tc : Toolchain)

/-- The part of `compileEntryFromCacheByHash` between its two locks. -/
def compileEntry (exprStr : String) : Option CachedEntry :=
  let body := exprBody exprStr
  match tc.parse body with
  | none => none
  | some tree =>
    let fixedPricing := decide ("fixed" ∈ tree.identifiers)
    if fixedPricing && !tc.validFixedPricing tree then none
    else if "_trace" ∈ tree.identifiers ∨ "_trace_int" ∈ tree.identifiers then none
    else match tc.compile body with
    | none => none
    | some prog =>
      some ⟨extractUsedVars prog, extractUsedUsageKeys prog, fixedPricing⟩

abbrev Cache := List (String × CachedEntry)

def maxCacheSize : Nat := 256

variable (cache : Cache)

/-- `cache[hash]` -/
def Cache.lookup (hash : String) : Option CachedEntry :=
  (cache.find? fun kv => kv.1 = hash).map Prod.snd

/-- `cache[hash] = entry`, in an emptied cache if it was full. -/
def Cache.store (hash : String) (entry : CachedEntry) : Cache :=
  let cache := if maxCacheSize ≤ cache.length then [] else cache
  (hash, entry) :: cache.filter fun kv => kv.1 ≠ hash

/-- What other requests do to the cache. -/
inductive CacheAction where
  /-- the last step of a compilation, whose look-up missed some time before -/
  | store (exprStr : String)
  /-- `InvalidateCache` -/
  | invalidate

def cacheStep : CacheAction → Cache
  | .store exprStr =>
    match compileEntry tc exprStr with
    | none => cache
    | some entry => cache.store (tc.exprHashString exprStr) entry
  | .invalidate => []

/-- `compileEntryFromCacheByHash`, with what others do between its look-up and
    its store. -/
def compileEntryFromCacheByHash (exprStr hash : String) (between : List CacheAction)
    (cache : Cache) : Option CachedEntry × Cache :=
  match cache.lookup hash with
  | some entry => (some entry, cache)
  | none =>
    match compileEntry tc exprStr with
    | none => (none, cache)
    | some entry => (some entry, (run (cacheStep tc) cache between).store hash entry)

/-- Which metadata is asked for. -/
inductive Query where
  | usedVars
  | usedUsageKeys

def CachedEntry.get (entry : CachedEntry) : Query → Finset String
  | .usedVars => entry.usedVars
  | .usedUsageKeys => entry.usedUsageKeys

/-- The actions of others in the gaps of one call. -/
structure Gaps where
  /-- after the first look-up -/
  first : List CacheAction := []
  /-- inside the compilation -/
  second : List CacheAction := []
  /-- after the compilation -/
  third : List CacheAction := []

/-- `UsedVars` and `UsedUsageKeys`. -/
def used (q : Query) (exprStr : String) (gaps : Gaps) (cache : Cache) : Option (Finset String) :=
  if exprStr = "" then none
  else
    let hash := tc.exprHashString exprStr
    match cache.lookup hash with
    | some entry => some (entry.get q)
    | none =>
      let cache := run (cacheStep tc) cache gaps.first
      match compileEntryFromCacheByHash tc exprStr hash gaps.second cache with
      | (none, _) => none
      | (some _, cache) =>
        ((run (cacheStep tc) cache gaps.third).lookup hash).map (·.get q)

def usedVars (exprStr : String) (gaps : Gaps) (cache : Cache) : Option (Finset String) :=
  used tc .usedVars exprStr gaps cache

def usedUsageKeys (exprStr : String) (gaps : Gaps) (cache : Cache) : Option (Finset String) :=
  used tc .usedUsageKeys exprStr gaps cache

/-! ## What a call answers -/

def Node.mentions (tree : Node) : Query → Finset String
  | .usedVars => tree.identifiers
  | .usedUsageKeys => extractUsedUsageKeys tree

/-- The expression passes the checks and compiles to the tree `prog`. -/
structure Compiles (exprStr : String) (tree prog : Node) : Prop where
  parses : tc.parse (exprBody exprStr) = some tree
  fixedPricing : "fixed" ∈ tree.identifiers → tc.validFixedPricing tree = true
  unrestricted : "_trace" ∉ tree.identifiers ∧ "_trace_int" ∉ tree.identifiers
  compiles : tc.compile (exprBody exprStr) = some prog

variable {exprStr : String}

theorem compileEntry_iff {tree : Node} {entry : CachedEntry}
    (hparse : tc.parse (exprBody exprStr) = some tree) :
    compileEntry tc exprStr = some entry ↔ ∃ prog, Compiles tc exprStr tree prog ∧
      entry = ⟨extractUsedVars prog, extractUsedUsageKeys prog,
        decide ("fixed" ∈ tree.identifiers)⟩ := by
  unfold compileEntry
  simp only [hparse]
  split_ifs with hfixed hrestricted
  · refine ⟨nofun, ?_⟩
    rintro ⟨prog, hcomp, -⟩
    simp only [Bool.and_eq_true, decide_eq_true_eq, Bool.not_eq_true'] at hfixed
    rw [hcomp.fixedPricing hfixed.1] at hfixed
    cases hfixed.2
  · refine ⟨nofun, ?_⟩
    rintro ⟨prog, hcomp, -⟩
    exact (not_or.2 hcomp.unrestricted hrestricted).elim
  have hvalid : "fixed" ∈ tree.identifiers → tc.validFixedPricing tree = true := by
    intro hin
    by_contra hno
    exact hfixed (by simp [hin, hno])
  cases hprog : tc.compile (exprBody exprStr) with
  | none =>
    refine ⟨nofun, ?_⟩
    rintro ⟨prog, hcomp, -⟩
    cases hprog.symm.trans hcomp.compiles
  | some prog =>
    constructor
    · intro h
      exact ⟨prog, ⟨hparse, hvalid, not_or.1 hrestricted, hprog⟩, (Option.some.inj h).symm⟩
    · rintro ⟨prog', hcomp, rfl⟩
      rw [Option.some.inj (hprog.symm.trans hcomp.compiles)]

def Tells (exprStr : String) (cache : Cache) : Prop :=
  ∀ entry, cache.lookup (tc.exprHashString exprStr) = some entry →
    compileEntry tc exprStr = some entry

def NoCollision (exprStr : String) : CacheAction → Prop
  | .store other => tc.exprHashString other = tc.exprHashString exprStr → other = exprStr
  | .invalidate => True

theorem tells_nil (exprStr : String) : Tells tc exprStr [] := by
  intro entry h
  simp [Cache.lookup] at h

theorem lookup_store_self (hash : String) (entry : CachedEntry) :
    (cache.store hash entry).lookup hash = some entry := by
  simp [Cache.store, Cache.lookup]

theorem lookup_store_of_ne {hash other : String} (h : other ≠ hash) (entry : CachedEntry) :
    (cache.store other entry).lookup hash =
      Cache.lookup (if maxCacheSize ≤ cache.length then [] else cache) hash := by
  simp only [Cache.store, Cache.lookup]
  generalize (if maxCacheSize ≤ cache.length then [] else cache) = kept
  rw [List.find?_cons_of_neg (by simpa using h), List.find?_filter]
  congr 2
  funext kv
  by_cases hkv : kv.1 = hash
  · simp [hkv, Ne.symm h]
  · simp [hkv]

variable {cache : Cache}

theorem tells_store {other : String} {entry : CachedEntry} (h : Tells tc exprStr cache)
    (hdistinct : tc.exprHashString other = tc.exprHashString exprStr → other = exprStr)
    (hentry : compileEntry tc other = some entry) :
    Tells tc exprStr (cache.store (tc.exprHashString other) entry) := by
  intro found hfound
  by_cases hhash : tc.exprHashString other = tc.exprHashString exprStr
  · rw [hhash, lookup_store_self] at hfound
    rw [← hdistinct hhash, hentry]
    exact hfound
  rw [lookup_store_of_ne cache hhash] at hfound
  split at hfound
  · cases hfound
  · exact h found hfound

theorem cacheStep_tells (cache : Cache) (a : CacheAction)
    (h : Tells tc exprStr cache) (hdistinct : NoCollision tc exprStr a) :
    Tells tc exprStr (cacheStep tc cache a) := by
  cases a with
  | invalidate => exact tells_nil tc exprStr
  | store other =>
    cases hentry : compileEntry tc other with
    | none => simpa only [cacheStep, hentry] using h
    | some entry => simpa only [cacheStep, hentry] using tells_store tc h hdistinct hentry

theorem run_tells (h : Tells tc exprStr cache)
    {as : List CacheAction} (hdistinct : ∀ a ∈ as, NoCollision tc exprStr a) :
    Tells tc exprStr (run (cacheStep tc) cache as) := by
  induction as generalizing cache with
  | nil => exact h
  | cons a as ih =>
    have ha := cacheStep_tells tc cache a h (hdistinct a List.mem_cons_self)
    exact ih ha fun b hb => hdistinct b (List.mem_cons_of_mem a hb)

def lastCache (exprStr : String) (gaps : Gaps) (cache : Cache) : Cache :=
  run (cacheStep tc)
    (compileEntryFromCacheByHash tc exprStr (tc.exprHashString exprStr) gaps.second
      (run (cacheStep tc) cache gaps.first)).2 gaps.third

/-- The expression compiles to a program that mentions what it mentions, and it
    is in the cache when the call looks first or when it looks last. -/
structure Undisturbed (q : Query) (exprStr : String) (tree : Node) (gaps : Gaps) (cache : Cache) :
    Prop where
  nonempty : exprStr ≠ ""
  kept : ∃ prog, Compiles tc exprStr tree prog ∧
    CachedEntry.get ⟨extractUsedVars prog, extractUsedUsageKeys prog, false⟩ q = tree.mentions q
  cached : (cache.lookup (tc.exprHashString exprStr)).isSome ∨
    ((lastCache tc exprStr gaps cache).lookup (tc.exprHashString exprStr)).isSome

theorem compileEntryFromCacheByHash_tells (h : Tells tc exprStr cache) {between : List CacheAction}
    (hdistinct : ∀ a ∈ between, NoCollision tc exprStr a) :
    Tells tc exprStr (compileEntryFromCacheByHash tc exprStr (tc.exprHashString exprStr) between
      cache).2 ∧
    (compileEntryFromCacheByHash tc exprStr (tc.exprHashString exprStr) between cache).1 =
      compileEntry tc exprStr := by
  unfold compileEntryFromCacheByHash
  cases hfound : cache.lookup (tc.exprHashString exprStr) with
  | some entry => exact ⟨h, (h entry hfound).symm⟩
  | none =>
    cases hentry : compileEntry tc exprStr with
    | none => exact ⟨h, rfl⟩
    | some entry => exact ⟨tells_store tc (run_tells tc h hdistinct) (fun _ => rfl) hentry, rfl⟩

theorem used_eq {q : Query} {gaps : Gaps} (hne : exprStr ≠ "") (h : Tells tc exprStr cache)
    (hdistinct : ∀ a ∈ gaps.first ++ gaps.second ++ gaps.third, NoCollision tc exprStr a) :
    used tc q exprStr gaps cache =
      if (cache.lookup (tc.exprHashString exprStr)).isSome ∨
          ((lastCache tc exprStr gaps cache).lookup (tc.exprHashString exprStr)).isSome then
        (compileEntry tc exprStr).map (·.get q)
      else none := by
  have hfirst : Tells tc exprStr (run (cacheStep tc) cache gaps.first) :=
    run_tells tc h fun a ha => hdistinct a (List.mem_append_left _ (List.mem_append_left _ ha))
  have hsecond : ∀ a ∈ gaps.second, NoCollision tc exprStr a := fun a ha =>
    hdistinct a (List.mem_append_left _ (List.mem_append_right _ ha))
  obtain ⟨hcomp, hresult⟩ := compileEntryFromCacheByHash_tells tc hfirst hsecond
  have hlast : Tells tc exprStr (lastCache tc exprStr gaps cache) :=
    run_tells tc hcomp fun a ha => hdistinct a (List.mem_append_right _ ha)
  unfold used
  rw [if_neg hne]
  simp only
  cases hfound : cache.lookup (tc.exprHashString exprStr) with
  | some entry => simp [h entry hfound]
  | none =>
    -- the call compiles, and answers with what it finds afterwards
    unfold lastCache at hlast ⊢
    generalize compileEntryFromCacheByHash tc exprStr (tc.exprHashString exprStr) gaps.second
      (run (cacheStep tc) cache gaps.first) = out at hcomp hresult hlast ⊢
    obtain ⟨result, cache'⟩ := out
    cases result with
    | none => simp [← hresult]
    | some entry =>
      cases hfinal : (run (cacheStep tc) cache' gaps.third).lookup
          (tc.exprHashString exprStr) with
      | none => simp [hfinal]
      | some entry' => simp [hfinal, hlast entry' hfinal]

/-- **Metadata and the cache.**  A call answers with what the expression
    mentions if it compiles to that and was found in the cache at the first or
    the last look-up, and in no other case. -/
theorem used_exact_iff {exprStr : String} {tree : Node}
    (hparse : tc.parse (exprBody exprStr) = some tree) (q : Query) (before : List CacheAction)
    (gaps : Gaps) (hdistinct : ∀ a ∈ before ++ (gaps.first ++ gaps.second ++ gaps.third),
      NoCollision tc exprStr a) :
    used tc q exprStr gaps (run (cacheStep tc) [] before) = some (tree.mentions q) ↔
      Undisturbed tc q exprStr tree gaps (run (cacheStep tc) [] before) := by
  have htells : Tells tc exprStr (run (cacheStep tc) [] before) :=
    run_tells tc (tells_nil tc exprStr) fun a ha => hdistinct a (List.mem_append_left _ ha)
  have hgaps : ∀ a ∈ gaps.first ++ gaps.second ++ gaps.third, NoCollision tc exprStr a :=
    fun a ha => hdistinct a (List.mem_append_right _ ha)
  have hget : ∀ vars keys b, CachedEntry.get ⟨vars, keys, b⟩ q =
      CachedEntry.get ⟨vars, keys, false⟩ q := by
    intro vars keys b
    cases q <;> rfl
  by_cases hne : exprStr = ""
  · constructor
    · intro hused
      rw [used, if_pos hne] at hused
      cases hused
    · exact fun h => absurd hne h.nonempty
  rw [used_eq tc hne htells hgaps]
  constructor
  · intro hused
    split at hused
    · rename_i hcached
      obtain ⟨entry, hentry, hval⟩ := Option.map_eq_some_iff.1 hused
      obtain ⟨prog, hcomp, rfl⟩ := (compileEntry_iff tc hparse).1 hentry
      exact ⟨hne, ⟨prog, hcomp, by rw [← hval, hget _ _ (decide _)]⟩, hcached⟩
    · cases hused
  rintro ⟨-, ⟨prog, hcomp, hkept⟩, hcached⟩
  rw [if_pos hcached, (compileEntry_iff tc hparse).2 ⟨prog, hcomp, rfl⟩, Option.map_some,
    hget, hkept]

/-- `p * 2 + cr * u("n")` under a library that reads it so and keeps its tree. -/
def sampleTree : Node :=
  .other "+" [.other "*" [.identifier "p", .other "2" []],
    .other "*" [.identifier "cr", .call (.identifier "u") [.string "n"]]]

def sampleExpr : String := "p*2+cr*u(\"n\")"

def sampleToolchain : Toolchain where
  exprHashString e :=
    if e = sampleExpr then "3fa4b1afa671eb274877926ec812ee0d0d0de7c84ce541bcddd0857b113094ee"
    else if e = "1" then "6b86b273ff34fce19d6b804eff5a3f5747ada4eaa22f1d49c01e52ddb7875b4b"
    else e
  parse body := if body = sampleExpr then some sampleTree else some (.other "1" [])
  validFixedPricing _ := true
  compile body := if body = sampleExpr then some sampleTree else some (.other "1" [])

theorem sampleExpr_compiles : Compiles sampleToolchain sampleExpr sampleTree sampleTree := by
  have hbody : exprBody sampleExpr = sampleExpr := by decide
  refine ⟨?_, fun _ => rfl, by decide, ?_⟩
  · rw [hbody]
    rfl
  · rw [hbody]
    rfl

/-- Another request stores an expression in between; the cache is far from full. -/
theorem used_exact_shared : used sampleToolchain .usedVars sampleExpr { third := [.store "1"] }
      (run (cacheStep sampleToolchain) [] []) = some (sampleTree.mentions .usedVars) := by
  have hcomp := sampleExpr_compiles
  have hdistinct : ∀ a ∈ [] ++ (([] : List CacheAction) ++ [] ++ [.store "1"]),
      NoCollision sampleToolchain sampleExpr a := by
    simp [NoCollision, sampleToolchain, sampleExpr]
  exact (used_exact_iff sampleToolchain hcomp.parses .usedVars [] { third := [.store "1"] }
    hdistinct).2 ⟨by decide, ⟨sampleTree, hcomp, by decide⟩, .inr (by decide +kernel)⟩

/-- The cache is cleared after the compilation: an expression that mentions `p`,
    `cr` and a usage key is answered with nil. -/
theorem cleared_between_answers_nil :
    used sampleToolchain .usedVars sampleExpr { third := [.invalidate] }
      (run (cacheStep sampleToolchain) [] []) ≠ some (sampleTree.mentions .usedVars) ∧
    used sampleToolchain .usedUsageKeys sampleExpr { third := [.invalidate] }
      (run (cacheStep sampleToolchain) [] []) = none ∧
    sampleTree.mentions .usedUsageKeys ≠ ∅ := by
  decide +kernel

end NewApi.Pricing
