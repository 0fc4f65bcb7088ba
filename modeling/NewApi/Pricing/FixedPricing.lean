/-
  NewApi.Pricing.FixedPricing

  What the server's check of fixed-price expressions promises about a run
  (`pkg/billingexpr/fixed.go`).

  An accepted tree is a way of conditionals and products to a leaf `tier(name, price)`,
  and the run takes it: its result is the price of the leaf, multiplied by what the
  products on the way add.  Beside the way, the check looks for the names `tier` and
  `fixed` only.  So one more name leads to their calls, `$env`, and with it a run can
  charge as often as it likes.
-/

import NewApi.Pricing.ExprLang

namespace NewApi.BillingExpr

open List (countP_append mem_append)
open NewApi.Lib

variable {F K X S : Type}

/-! ## The check -/

def containsPricingMarker (node : Node F K) : Bool :=
  node.mentions fun name => name == "tier" || name == "fixed"

variable (arithmetic : Arithmetic F)

/-- `multiplier >= 0 && !math.IsNaN(multiplier) && !math.IsInf(multiplier, 0)` -/
def isFactor (multiplier : F) : Bool :=
  arithmetic.atLeastZero multiplier && !arithmetic.isNaN multiplier && !arithmetic.isInf multiplier

def isRequestPriceMultiplier [DecidableEq F] : Node F K → Bool
  | .conditional _ cond exp₁ exp₂ =>
    usesRequestProbe cond && !containsPricingMarker cond &&
      match requestRuleNumber arithmetic exp₁, requestRuleNumber arithmetic exp₂ with
      | some multiplier, some fallback =>
        decide (fallback = arithmetic.ofInt 1) && isFactor arithmetic multiplier
      | _, _ => false
  | _ => false

/-- `amount >= 0 && !math.IsNaN(amount) && !math.IsInf(amount*1_000_000, 0)` -/
def isAmount (amount : F) : Bool :=
  arithmetic.atLeastZero amount && !arithmetic.isNaN amount &&
    !arithmetic.isInf (arithmetic.mul amount (arithmetic.ofInt 1000000))

/-- The argument of a call of `fixed` by its name, with one argument. -/
def fixedArgument : Node F K → Option (Node F K)
  | .call (.identifier "fixed") [amount] => some amount
  | _ => none

def notPricing : String :=
  "fixed pricing requires tier(name, fixed(amount)) leaves, conditional tiers and request " ++
    "multipliers; token and fixed charges cannot be combined in one leaf"

def notAmount : String :=
  "fixed price must be a finite, non-negative numeric literal with a finite v1 value"

def validateFixedPricingTree [DecidableEq F] (arithmetic : Arithmetic F) :
    Node F K → Except String Unit
  | .conditional _ cond exp₁ exp₂ =>
    if containsPricingMarker cond then .error notPricing
    else match validateFixedPricingTree arithmetic exp₁ with
      | .error e => .error e
      | .ok () => validateFixedPricingTree arithmetic exp₂
  | .binary operator left right =>
    if operator ≠ "*" then .error notPricing
    else if isRequestPriceMultiplier arithmetic right then validateFixedPricingTree arithmetic left
    else if isRequestPriceMultiplier arithmetic left then validateFixedPricingTree arithmetic right
    else .error notPricing
  | .call (.identifier "tier") [name, price] =>
    if containsPricingMarker name then .error notPricing
    else match fixedArgument price with
      | some amount =>
        if (requestRuleNumber arithmetic amount).any (isAmount arithmetic) then .ok ()
        else .error notAmount
      | none => if containsPricingMarker price then .error notPricing else .ok ()
  | _ => .error notPricing

/-! ## The way of a run -/

namespace Language

variable (lang : Language F K X S) [DecidableEq F]

/-- The leaf that a run comes to, and the request multipliers on the way, the last of
    them first. -/
def route (scope : S) : Node F K → Option (Node F K × List F)
  | .conditional _ cond exp₁ exp₂ => match lang.eval cond scope with
    | some (.bool true, _) => route scope exp₁
    | some (.bool false, _) => route scope exp₂
    | _ => none
  | .binary _ left right =>
    let factor (n : Node F K) := (lang.eval n scope).value.bind lang.cast
    if isRequestPriceMultiplier lang.arithmetic right then
      (route scope left).bind fun p => (factor right).map fun m => (p.1, p.2 ++ [m])
    else (route scope right).bind fun p => (factor left).map fun m => (p.1, p.2 ++ [m])
  | leaf => some (leaf, [])

/-- What the run logs beside the calls of the leaf: in conditions and multipliers, in the
    name of the leaf, and in a price that is not `fixed(amount)`. -/
def asides (scope : S) : Node F K → List (Event F)
  | .conditional _ cond exp₁ exp₂ => (lang.eval cond scope).log ++
    match lang.eval cond scope with
    | some (.bool true, _) => asides scope exp₁
    | some (.bool false, _) => asides scope exp₂
    | _ => []
  | .binary _ left right =>
    if isRequestPriceMultiplier lang.arithmetic right then
      asides scope left ++ (lang.eval right scope).log
    else (lang.eval left scope).log ++ asides scope right
  | .call _ [name, price] => (lang.eval name scope).log ++
    if (fixedArgument price).isSome then [] else (lang.eval price scope).log
  | _ => []

end Language

/-- A leaf `tier(name, fixed(amount))`. -/
def isFixedLeaf : Node F K → Bool
  | .call _ [_, price] => (fixedArgument price).isSome
  | _ => false

def Event.isTier : Event F → Bool
  | .tier _ _ => true
  | _ => false

def Event.isFixed : Event F → Bool
  | .fixed _ => true
  | _ => false

/-- The run calls `tier` once and `fixed` at most once, and the cost is the value of its
    leaf, multiplied in turn by the request multipliers on the way. -/
structure Sound [DecidableEq F] (lang : Language F K X S) (scope : S) (tree : Node F K) (cost : F)
    (log : List (Event F)) : Prop where
  oneTier : log.countP Event.isTier = 1
  oneFixed : log.countP Event.isFixed ≤ 1
  cost : ∃ leaf multipliers value leafLog, lang.route scope tree = some (leaf, multipliers) ∧
    lang.eval leaf scope = some (.float value, leafLog) ∧
    cost = multipliers.foldl lang.arithmetic.mul value

/-- Beside the calls of its leaf the run calls no `tier`, and `fixed` at most once, or not
    at all if the leaf has a fixed price. -/
def QuietAsides [DecidableEq F] (lang : Language F K X S) (scope : S) (tree : Node F K) : Prop :=
  (lang.asides scope tree).countP Event.isTier = 0 ∧
    (lang.asides scope tree).countP Event.isFixed ≤
      if (lang.route scope tree).any fun p => isFixedLeaf p.1 then 0 else 1

/-! ## What a run of an accepted tree does -/

section Accepted

variable [DecidableEq F] {lang : Language F K X S} {scope : S}

theorem cast_of_multiplier {n : Node F K} (hn : isRequestPriceMultiplier lang.arithmetic n)
    {v : Value F X} {l : List (Event F)} (h : lang.eval n scope = some (v, l)) :
    ∃ m, lang.cast v = some m := by
  unfold isRequestPriceMultiplier at hn
  split at hn
  · rename_i t cond exp₁ exp₂
    rw [Bool.and_eq_true] at hn
    obtain ⟨-, hn⟩ := hn
    split at hn
    · rename_i m one h₁ h₂
      obtain ⟨b, l₁, l₂, -, hb, -⟩ := Language.eval_conditional h
      obtain ⟨v₁, hv₁, hc₁⟩ := Language.eval_literal h₁ scope
      obtain ⟨v₂, hv₂, hc₂⟩ := Language.eval_literal h₂ scope
      cases b with
      | false =>
        rw [if_neg Bool.false_ne_true, hv₂] at hb
        cases hb
        exact ⟨one, hc₂⟩
      | true =>
        rw [if_pos rfl, hv₁] at hb
        cases hb
        exact ⟨m, hc₁⟩
    · cases hn
  · cases hn

/-- The run of the tree takes its way to a leaf; the rest of what it does is beside the
    way. -/
structure Taken (lang : Language F K X S) (scope : S) (tree leaf : Node F K) (multipliers : List F)
    (value : F) (v : Value F X) (log : List (Event F)) : Prop where
  route : lang.route scope tree = some (leaf, multipliers)
  eval : ∃ leafLog, lang.eval leaf scope = some (.float value, leafLog)
  value : v = .float (multipliers.foldl lang.arithmetic.mul value)
  tiers : log.countP Event.isTier = (lang.asides scope tree).countP Event.isTier + 1
  fixes : log.countP Event.isFixed =
    (lang.asides scope tree).countP Event.isFixed + if isFixedLeaf leaf then 1 else 0

namespace Taken

variable {leaf : Node F K} {multipliers : List F} {value : F} {v : Value F X} {log : List (Event F)}

theorem conditional {t b : Bool} {cond exp₁ exp₂ : Node F K} {l : List (Event F)}
    (hc : lang.eval cond scope = some (.bool b, l))
    (h : Taken lang scope (if b then exp₁ else exp₂) leaf multipliers value v log) :
    Taken lang scope (.conditional t cond exp₁ exp₂) leaf multipliers value v (l ++ log) := by
  have hasides : lang.asides scope (.conditional t cond exp₁ exp₂) =
      l ++ lang.asides scope (if b then exp₁ else exp₂) := by
    cases b <;> simp [Language.asides, hc, Logged.log]
  refine ⟨?_, h.eval, h.value, ?_, ?_⟩
  · rw [← h.route]
    cases b <;> simp [Language.route, hc]
  · rw [hasides, countP_append, countP_append, h.tiers]
    omega
  · rw [hasides, countP_append, countP_append, h.fixes]
    omega

theorem right {left right : Node F K} {w : Value F X} {m : F} {l : List (Event F)}
    (hr : isRequestPriceMultiplier lang.arithmetic right)
    (hw : lang.eval right scope = some (w, l)) (hm : lang.cast w = some m)
    (h : Taken lang scope left leaf multipliers value v log) :
    Taken lang scope (.binary "*" left right) leaf (multipliers ++ [m]) value
      (.float (lang.arithmetic.mul (multipliers.foldl lang.arithmetic.mul value) m))
      (log ++ l) := by
  have hasides : lang.asides scope (.binary "*" left right) = lang.asides scope left ++ l := by
    simp [Language.asides, hr, hw, Logged.log]
  refine ⟨?_, h.eval, by simp, ?_, ?_⟩
  · simp [Language.route, hr, h.route, hw, Logged.value, hm]
  · rw [hasides, countP_append, countP_append, h.tiers]
    omega
  · rw [hasides, countP_append, countP_append, h.fixes]
    omega

theorem left {left right : Node F K} {w : Value F X} {m : F} {l : List (Event F)}
    (hr : isRequestPriceMultiplier lang.arithmetic right = false)
    (hw : lang.eval left scope = some (w, l)) (hm : lang.cast w = some m)
    (h : Taken lang scope right leaf multipliers value v log) :
    Taken lang scope (.binary "*" left right) leaf (multipliers ++ [m]) value
      (.float (lang.arithmetic.mul (multipliers.foldl lang.arithmetic.mul value) m))
      (l ++ log) := by
  have hasides : lang.asides scope (.binary "*" left right) = l ++ lang.asides scope right := by
    simp [Language.asides, hr, hw, Logged.log]
  refine ⟨?_, h.eval, by simp, ?_, ?_⟩
  · simp [Language.route, hr, h.route, hw, Logged.value, hm]
  · rw [hasides, countP_append, countP_append, h.tiers]
    omega
  · rw [hasides, countP_append, countP_append, h.fixes]
    omega

theorem tier {name price : Node F K} (hprice : ∀ amount, fixedArgument price = some amount →
      ∃ x, requestRuleNumber lang.arithmetic amount = some x)
    {tree : Node F K} (htree : tree = .call (.identifier "tier") [name, price])
    (h : lang.eval tree scope = some (v, log)) : ∃ x, Taken lang scope tree tree [] x v log := by
  obtain ⟨text, p, x, l₁, l₂, hp, hname, -, rfl, rfl⟩ := Language.eval_tier (htree ▸ h)
  -- the events of the price are beside the way, or they are the call of `fixed`
  have counts : (l₁ ++ l₂ ++ [Event.tier text x]).countP Event.isTier =
        (lang.asides scope tree).countP Event.isTier + 1 ∧
      (l₁ ++ l₂ ++ [Event.tier text x]).countP Event.isFixed =
        (lang.asides scope tree).countP Event.isFixed + if isFixedLeaf tree then 1 else 0 := by
    cases hf : fixedArgument price with
    | none =>
      have hlog : (lang.eval price scope).log = l₂ := by rw [hp, Logged.log]
      simp [Language.asides, hf, hlog, isFixedLeaf, htree, List.countP_cons, Event.isTier,
        Event.isFixed, Nat.add_assoc, hname]
    | some amount =>
      obtain ⟨a, ha⟩ := hprice amount hf
      have hfixed := Language.eval_fixed ha scope
      have : price = .call (.identifier "fixed") [amount] := by
        unfold fixedArgument at hf
        split at hf
        · cases hf
          rfl
        · cases hf
      rw [← this, hp, Logged.log] at hfixed
      simp [Language.asides, hf, hfixed, isFixedLeaf, htree, List.countP_cons, Event.isTier,
        Event.isFixed, hname]
  exact ⟨x, by simp [htree, Language.route], ⟨_, h⟩, rfl, counts.1, counts.2⟩

end Taken

theorem eval_accepted {tree : Node F K} {v : Value F X} {l : List (Event F)}
    (accepted : validateFixedPricingTree lang.arithmetic tree = .ok ())
    (h : lang.eval tree scope = some (v, l)) :
    ∃ leaf multipliers value, Taken lang scope tree leaf multipliers value v l := by
  fun_induction validateFixedPricingTree lang.arithmetic tree generalizing v l with
  | case3 t cond exp₁ exp₂ _ h₁ ih₁ ih₂ =>
    obtain ⟨b, l₁, l₂, hc, hb, rfl⟩ := Language.eval_conditional h
    cases b with
    | true =>
      obtain ⟨leaf, ms, x, htaken⟩ := ih₁ h₁ hb
      exact ⟨leaf, ms, x, htaken.conditional hc⟩
    | false =>
      obtain ⟨leaf, ms, x, htaken⟩ := ih₂ accepted hb
      exact ⟨leaf, ms, x, htaken.conditional hc⟩
  | case5 operator left right hop hr ih =>
    cases not_not.mp hop
    obtain ⟨x, w, l₁, l₂, hl, hw, htimes, rfl⟩ := Language.eval_product h
    obtain ⟨leaf, ms, y, htaken⟩ := ih accepted hl
    obtain ⟨m, hm⟩ := cast_of_multiplier hr hw
    have := htaken.right hr hw hm
    cases htaken.value
    rw [(Language.times_of_cast _ hm).1] at htimes
    cases htimes
    exact ⟨leaf, ms ++ [m], y, this⟩
  | case6 operator left right hop hr hl ih =>
    cases not_not.mp hop
    obtain ⟨w, x, l₁, l₂, hw, hx, htimes, rfl⟩ := Language.eval_product h
    obtain ⟨leaf, ms, y, htaken⟩ := ih accepted hx
    obtain ⟨m, hm⟩ := cast_of_multiplier hl hw
    have := htaken.left (Bool.eq_false_iff.mpr hr) hw hm
    cases htaken.value
    rw [(Language.times_of_cast _ hm).2] at htimes
    cases htimes
    exact ⟨leaf, ms ++ [m], y, this⟩
  | case9 name price _ amount hf hx =>
    have hprice : ∀ a, fixedArgument price = some a →
        ∃ x, requestRuleNumber lang.arithmetic a = some x := by
      intro a ha
      rw [hf] at ha
      cases ha
      cases hn : requestRuleNumber lang.arithmetic amount with
      | none =>
        rw [hn] at hx
        cases hx
      | some x => exact ⟨x, rfl⟩
    obtain ⟨x, htaken⟩ := Taken.tier hprice rfl h
    exact ⟨_, [], x, htaken⟩
  | case12 name price _ hf _ =>
    have hprice : ∀ a, fixedArgument price = some a →
        ∃ x, requestRuleNumber lang.arithmetic a = some x := by
      intro a ha
      rw [hf] at ha
      cases ha
    obtain ⟨x, htaken⟩ := Taken.tier hprice rfl h
    exact ⟨_, [], x, htaken⟩
  | _ => cases accepted

/-! ## Without the environment as a value -/

def pricing : Callback → Bool
  | .tier | .fixed => true
  | _ => false

variable {others : X → Prop} {scopes : S → Prop}

omit [DecidableEq F] in
theorem log_free (h : Confined lang pricing others scopes) (hs : scopes scope) {n : Node F K}
    (hn : containsPricingMarker n = false) (henv : namesEnvironment n = false) :
    ∀ e ∈ (lang.eval n scope).log, e.free pricing := by
  have hreach : n.mentions (reaches pricing) = false := by
    apply Node.mentions_eq_false_of_imp _ n hn henv
    intro name hname
    rcases Bool.or_eq_true_iff.mp hname with henv | hcallback
    · exact Or.inr henv
    · unfold Callback.ofName at hcallback
      split at hcallback <;> first | exact Or.inl rfl | cases hcallback
  cases hr : lang.eval n scope with
  | none => simp [Logged.log]
  | some r => exact (h.eval n hs hreach r.1 r.2 hr).2

theorem marker_of_multiplier {n : Node F K} (hn : isRequestPriceMultiplier lang.arithmetic n) :
    containsPricingMarker n = false := by
  unfold isRequestPriceMultiplier at hn
  split at hn
  · rename_i t cond exp₁ exp₂
    simp only [Bool.and_eq_true, Bool.not_eq_true'] at hn
    obtain ⟨⟨-, hcond⟩, hn⟩ := hn
    have literal : ∀ {e : Node F K} {x : F}, requestRuleNumber lang.arithmetic e = some x →
        e.mentions (fun name => name == "tier" || name == "fixed") = false := by
      intro e x he
      cases e with
      | integer n => rfl
      | float q => rfl
      | _ => cases he
    split at hn
    · rename_i h₁ h₂
      rw [containsPricingMarker] at hcond
      rw [containsPricingMarker, Node.mentions, hcond, literal h₁, literal h₂]
      rfl
    · cases hn
  · cases hn

theorem asides_free (h : Confined lang pricing others scopes) (hs : scopes scope)
    {tree : Node F K} (accepted : validateFixedPricingTree lang.arithmetic tree = .ok ())
    (henv : namesEnvironment tree = false) : ∀ e ∈ lang.asides scope tree, e.free pricing := by
  fun_induction validateFixedPricingTree lang.arithmetic tree with
  | case3 t cond exp₁ exp₂ hc h₁ ih₁ ih₂ =>
    simp only [namesEnvironment, Node.mentions, Bool.or_eq_false_iff] at henv
    obtain ⟨⟨hcond, henv₁⟩, henv₂⟩ := henv
    intro e he
    rcases mem_append.mp he with he | he
    · exact log_free h hs (Bool.eq_false_iff.mpr hc) hcond e he
    split at he
    · exact ih₁ h₁ henv₁ e he
    · exact ih₂ accepted henv₂ e he
    · cases he
  | case5 operator left right hop hr ih =>
    simp only [namesEnvironment, Node.mentions, Bool.or_eq_false_iff] at henv
    rw [Language.asides, if_pos hr]
    intro e he
    rcases mem_append.mp he with he | he
    · exact ih accepted henv.1 e he
    · exact log_free h hs (marker_of_multiplier hr) henv.2 e he
  | case6 operator left right hop hr hl ih =>
    simp only [namesEnvironment, Node.mentions, Bool.or_eq_false_iff] at henv
    rw [Language.asides, if_neg hr]
    intro e he
    rcases mem_append.mp he with he | he
    · exact log_free h hs (marker_of_multiplier hl) henv.1 e he
    · exact ih accepted henv.2 e he
  | case9 name price hname amount hf hx =>
    simp only [namesEnvironment, Node.mentions, Node.anyMentions, Bool.or_eq_false_iff] at henv
    intro e he
    rw [Language.asides, hf, Option.isSome_some, if_pos rfl, List.append_nil] at he
    exact log_free h hs (Bool.eq_false_iff.mpr hname) henv.2.1 e he
  | case12 name price hname hf hprice =>
    simp only [namesEnvironment, Node.mentions, Node.anyMentions, Bool.or_eq_false_iff] at henv
    intro e he
    rw [Language.asides, hf, Option.isSome_none, if_neg Bool.false_ne_true] at he
    rcases mem_append.mp he with he | he
    · exact log_free h hs (Bool.eq_false_iff.mpr hname) henv.2.1 e he
    · exact log_free h hs (Bool.eq_false_iff.mpr hprice) henv.2.2.1 e he
  | _ => cases accepted

theorem quietAsides_of_free {tree : Node F K}
    (h : ∀ e ∈ lang.asides scope tree, e.free pricing) : QuietAsides lang scope tree := by
  constructor
  · rw [List.countP_eq_zero]
    intro e he
    cases e with
    | tier name value => cases h _ he
    | _ => simp [Event.isTier]
  have : (lang.asides scope tree).countP Event.isFixed = 0 := by
    rw [List.countP_eq_zero]
    intro e he
    cases e with
    | fixed amount => cases h _ he
    | _ => simp [Event.isFixed]
  omega

/-! ## The promise of the check -/

/-- A run of an accepted tree charges by its leaf exactly if it does not charge beside it,
    and it does not where the tree leaves `$env` alone. -/
theorem runProgram_sound_iff {tree : Node F K} {requestRules : List (RequestRuleTrace F)}
    {cost : F} {trace : TraceResult F}
    (accepted : validateFixedPricingTree lang.arithmetic tree = .ok ())
    (run : runProgram lang tree requestRules scope = some (cost, trace)) :
    (Sound lang scope tree cost (lang.eval tree scope).log ↔ QuietAsides lang scope tree) ∧
      ∀ (others : X → Prop) (scopes : S → Prop), Confined lang pricing others scopes →
        scopes scope → namesEnvironment tree = false →
          Sound lang scope tree cost (lang.eval tree scope).log := by
  have iff : Sound lang scope tree cost (lang.eval tree scope).log ↔
      QuietAsides lang scope tree := by
    unfold runProgram at run
    split at run
    · cases run
    rename_i out log heval
    obtain ⟨leaf, ms, value, taken⟩ := eval_accepted accepted heval
    obtain ⟨f, hf, hcost⟩ := Option.map_eq_some_iff.mp run
    cases taken.value
    cases hf
    cases hcost
    have hlog : (lang.eval tree scope).log = log := by rw [heval, Logged.log]
    have hleaf : ((lang.route scope tree).any fun p => isFixedLeaf p.1) = isFixedLeaf leaf := by
      rw [taken.route, Option.any_some]
    have htiers := taken.tiers
    have hfixes := taken.fixes
    rw [hlog, QuietAsides, hleaf]
    constructor
    · rintro ⟨hone, hfixed, -⟩
      refine ⟨by omega, ?_⟩
      split
      · rw [if_pos ‹_›] at hfixes
        omega
      · rw [if_neg ‹_›] at hfixes
        omega
    rintro ⟨hzero, hfixed⟩
    obtain ⟨leafLog, hvalue⟩ := taken.eval
    refine ⟨by omega, ?_, leaf, ms, value, leafLog, taken.route, hvalue, rfl⟩
    split at hfixed
    · rw [if_pos ‹_›] at hfixes
      omega
    · rw [if_neg ‹_›] at hfixes
      omega
  refine ⟨iff, fun others scopes h hs henv => ?_⟩
  exact iff.mpr (quietAsides_of_free (asides_free h hs accepted henv))

end Accepted

/-- `tier("a", fixed(1)) * (param("x") ? 2 : 1)` -/
def doubledTree : Node ℚ SampleKind :=
  .binary "*" (.call (.identifier "tier") [.text "a", .call (.identifier "fixed") [.integer 1]])
    (.conditional true (.call (.identifier "param") [.text "x"]) (.integer 2) (.integer 1))

theorem runProgram_sound_doubled :
    Sound sampleLanguage () doubledTree 2000000 (sampleLanguage.eval doubledTree ()).log :=
  have run : runProgram sampleLanguage doubledTree [] () =
      some (2000000, ⟨"a", 1000000, .request, some 1, []⟩) := by decide +kernel
  (runProgram_sound_iff (by decide +kernel) run).2 _ _ (sampleLanguage_confined pricing) trivial
    (by decide)

/-- `p > 0 ? tier("a", fixed(1)) : tier("b", $env.fixed(2.0) + $env.fixed(3.0))` -/
def chargedTwice : Node ℚ SampleKind :=
  let fixed : Node ℚ SampleKind := .other .memberNode [.identifier "$env", .text "fixed"]
  .conditional true (.binary ">" (.identifier "p") (.integer 0))
    (.call (.identifier "tier") [.text "a", .call (.identifier "fixed") [.integer 1]])
    (.call (.identifier "tier")
      [.text "b", .binary "+" (.call fixed [.float 2]) (.call fixed [.float 3])])

/-- With `$env` one run calls `fixed` twice. -/
theorem not_sound_chargedTwice : ¬ ∀ (tree : Node ℚ SampleKind) (cost : ℚ) (trace : TraceResult ℚ),
    validateFixedPricingTree exactArithmetic tree = .ok () →
      runProgram sampleLanguage tree [] () = some (cost, trace) →
        Sound sampleLanguage () tree cost (sampleLanguage.eval tree ()).log := by
  intro h
  have hsound := h chargedTwice 5000000 ⟨"b", 5000000, .request, some 3, []⟩ (by decide +kernel)
    (by decide +kernel)
  have htwice : (sampleLanguage.eval chargedTwice ()).log.countP Event.isFixed = 2 := by
    decide +kernel
  have hone := hsound.oneFixed
  omega

end NewApi.BillingExpr
