/-
  NewApi.Pricing.ExprLang

  Pricing expressions as trees and what they mean (`pkg/billingexpr/run.go`, over the
  trees of `expr-lang/expr/ast`).

  Literals, names, conditionals, products and calls mean what they do in every
  expression.  Any other node is a script over its children, which may take them in any
  order, any number of times and in scopes of its own; so are the operators besides `*`.
  The floats are a parameter as well.

  The callbacks `tier`, `fixed`, `_trace` and `_trace_int` write to the trace of the run;
  here they log what they are called with, and `runProgram` reads the trace from the log.
-/

import Mathlib.Algebra.Order.Ring.Rat
import NewApi.Lib.Logged

namespace NewApi.BillingExpr

open NewApi.Lib

/-! ## Floats -/

/-- What the code does with 64-bit floats. -/
structure Arithmetic (F : Type) where
  /-- `float64(n)` -/
  ofInt : ℤ → F
  mul : F → F → F
  atLeastZero : F → Bool
  isNaN : F → Bool
  isInf : F → Bool
  mul_comm : ∀ x y, mul x y = mul y x
  eq_one_of_ofInt : ∀ n, ofInt n = ofInt 1 → n = 1

/-! ## Trees -/

/-- `ast.Node`.  The kinds without a case here are in `K`, with what they hold besides
    their children; the children are listed in the order `ast.Walk` visits them in. -/
inductive Node (F K : Type) where
  | integer (value : ℤ)
  | float (value : F)
  | text (value : String)
  | identifier (value : String)
  | conditional (ternary : Bool) (cond exp₁ exp₂ : Node F K)
  | binary (operator : String) (left right : Node F K)
  | call (callee : Node F K) (arguments : List (Node F K))
  | other (kind : K) (children : List (Node F K))

variable {F K X S : Type}

namespace Node

mutual

/-- `ast.Find` finds an identifier that `p` holds of. -/
def mentions (p : String → Bool) : Node F K → Bool
  | integer _ | float _ | text _ => false
  | identifier name => p name
  | conditional _ cond exp₁ exp₂ => cond.mentions p || exp₁.mentions p || exp₂.mentions p
  | binary _ left right => left.mentions p || right.mentions p
  | call callee arguments => callee.mentions p || anyMentions p arguments
  | other _ children => anyMentions p children

def anyMentions (p : String → Bool) : List (Node F K) → Bool
  | [] => false
  | n :: ns => n.mentions p || anyMentions p ns

end

theorem anyMentions_eq_any (p : String → Bool) (ns : List (Node F K)) :
    anyMentions p ns = ns.any (mentions p) := by
  induction ns with
  | nil => rfl
  | cons n ns ih => rw [anyMentions, ih, List.any_cons]

theorem ind {P : Node F K → Prop} (integer : ∀ n, P (.integer n)) (float : ∀ q, P (.float q))
    (text : ∀ s, P (.text s)) (identifier : ∀ s, P (.identifier s))
    (conditional : ∀ t c e₁ e₂, P c → P e₁ → P e₂ → P (.conditional t c e₁ e₂))
    (binary : ∀ o l r, P l → P r → P (.binary o l r))
    (call : ∀ f as, P f → (∀ a ∈ as, P a) → P (.call f as))
    (other : ∀ k cs, (∀ c ∈ cs, P c) → P (.other k cs)) (n : Node F K) : P n :=
  @Node.rec F K P (fun ns => ∀ n ∈ ns, P n) integer float text identifier
    conditional binary call other (by simp) (by
      intro n ns hn hns m hm
      rcases List.mem_cons.mp hm with rfl | hm
      · exact hn
      · exact hns m hm) n

theorem mentions_eq_false_of_imp {p q r : String → Bool} (h : ∀ s, r s → p s ∨ q s)
    (n : Node F K) (hp : n.mentions p = false) (hq : n.mentions q = false) :
    n.mentions r = false := by
  induction n using Node.ind with
  | identifier name =>
    simp only [mentions] at hp hq ⊢
    by_contra hr
    rcases h name (by simpa using hr) with hn | hn
    · rw [hn] at hp
      cases hp
    · rw [hn] at hq
      cases hq
  | conditional t c e₁ e₂ ihc ih₁ ih₂ =>
    simp only [mentions, Bool.or_eq_false_iff] at hp hq ⊢
    exact ⟨⟨ihc hp.1.1 hq.1.1, ih₁ hp.1.2 hq.1.2⟩, ih₂ hp.2 hq.2⟩
  | binary o l r ihl ihr =>
    simp only [mentions, Bool.or_eq_false_iff] at hp hq ⊢
    exact ⟨ihl hp.1 hq.1, ihr hp.2 hq.2⟩
  | call f as ihf ih =>
    simp only [mentions, Bool.or_eq_false_iff, anyMentions_eq_any, List.any_eq_false,
      Bool.not_eq_true] at hp hq ⊢
    exact ⟨ihf hp.1 hq.1, fun a ha => ih a ha (hp.2 a ha) (hq.2 a ha)⟩
  | other k cs ih =>
    simp only [mentions, anyMentions_eq_any, List.any_eq_false, Bool.not_eq_true] at hp hq ⊢
    exact fun c hc => ih c hc (hp c hc) (hq c hc)
  | _ => rfl

end Node

/-! ## Probes and literals -/

def usesRequestProbe (node : Node F K) : Bool :=
  node.mentions fun name =>
    ["param", "header", "hour", "minute", "weekday", "month", "day"].contains name

def requestRuleNumber (arithmetic : Arithmetic F) : Node F K → Option F
  | .integer value => some (arithmetic.ofInt value)
  | .float value => some value
  | _ => none

/-! ## Values -/

/-- The callbacks of `runProgram` that write to the trace. -/
inductive Callback where
  | tier | fixed | trace | traceInt

def Callback.ofName : String → Option Callback
  | "tier" => some tier
  | "fixed" => some fixed
  | "_trace" => some trace
  | "_trace_int" => some traceInt
  | _ => none

/-- A value of a run; those without a case here are in `X`. -/
inductive Value (F X : Type) where
  | int (n : ℤ)
  | float (x : F)
  | bool (b : Bool)
  | text (s : String)
  | callback (f : Callback)
  | env
  | other (x : X)

/-- A call of a callback that has written to the trace. -/
inductive Event (F : Type) where
  | tier (name : String) (value : F)
  | fixed (amount : F)
  | matched (rule : ℤ)

/-- `expr-lang` with an environment, apart from the callbacks. -/
structure Language (F K X S : Type) where
  arithmetic : Arithmetic F
  /-- A name, in a scope. -/
  resolve : S → String → Option (Value F X)
  /-- What a parameter of type `string`, `bool` or `float64` gets from another value. -/
  otherText : X → Option String
  otherBool : X → Option Bool
  otherFloat : X → Option F
  /-- A call of a value that is no callback. -/
  host : Value F X → List (Value F X) → Option (Value F X)
  /-- A product of other values than numbers of which one is a float. -/
  product : Value F X → Value F X → Option (Value F X)
  operator : String → S → Script (Value F X) S
  node : K → S → Script (Value F X) S

namespace Language

variable (lang : Language F K X S)

/-- `float64(v)` of a number. -/
def cast : Value F X → Option F
  | .float x => some x
  | .int n => some (lang.arithmetic.ofInt n)
  | _ => none

def asText : Value F X → Option String
  | .text s => some s
  | .other x => lang.otherText x
  | _ => none

def asBool : Value F X → Option Bool
  | .bool b => some b
  | .other x => lang.otherBool x
  | _ => none

/-- The checker writes integer literals for a `float64` as floats. -/
def asFloat : Value F X → Option F
  | .other x => lang.otherFloat x
  | v => lang.cast v

/-- A call, by the closures of `runProgram`. -/
def invoke (f : Value F X) (arguments : List (Value F X)) : Logged (Event F) (Value F X) :=
  match f, arguments with
  | .callback .tier, [n, v] => (lang.asText n).bind fun name => (lang.asFloat v).map fun value =>
    (.float value, [.tier name value])
  | .callback .fixed, [v] => (lang.asFloat v).map fun amount =>
    (.float (lang.arithmetic.mul amount (lang.arithmetic.ofInt 1000000)), [.fixed amount])
  | .callback .trace, [.int ruleIndex, c, v] => (lang.asBool c).bind fun matched =>
    (lang.asFloat v).map fun multiplier =>
      if matched then (.float multiplier, [.matched ruleIndex])
      else (.float (lang.arithmetic.ofInt 1), [])
  | .callback .traceInt, [.int ruleIndex, c, .int multiplier] => (lang.asBool c).map fun matched =>
    if matched then (.int multiplier, [.matched ruleIndex]) else (.int 1, [])
  | .callback _, _ => none
  | f, arguments => (lang.host f arguments).map fun v => (v, [])

def times : Value F X → Value F X → Option (Value F X)
  | .float x, .float y => some (.float (lang.arithmetic.mul x y))
  | .float x, .int n => some (.float (lang.arithmetic.mul x (lang.arithmetic.ofInt n)))
  | .int n, .float x => some (.float (lang.arithmetic.mul (lang.arithmetic.ofInt n) x))
  | v, w => lang.product v w

/-- The value of a name.  A declaration cannot take a name of the environment. -/
def lookup (scope : S) (name : String) : Option (Value F X) :=
  match Callback.ofName name with
  | some f => some (.callback f)
  | none => if name = "$env" then some .env else lang.resolve scope name

mutual

def eval : Node F K → S → Logged (Event F) (Value F X)
  | .integer n, _ => Logged.pure (.int n)
  | .float x, _ => Logged.pure (.float x)
  | .text s, _ => Logged.pure (.text s)
  | .identifier name, scope => (lang.lookup scope name).map fun v => (v, [])
  | .conditional _ cond exp₁ exp₂, scope => (eval cond scope).bind fun v =>
    match v with
    | .bool true => eval exp₁ scope
    | .bool false => eval exp₂ scope
    | _ => none
  | .binary operator left right, scope =>
    if operator = "*" then
      (eval left scope).bind fun v => (eval right scope).bind fun w =>
        (lang.times v w).map fun u => (u, [])
    else
      (lang.operator operator scope).exec fun part s =>
        match part with
        | 0 => eval left s
        | 1 => eval right s
        | _ => none
  | .call callee arguments, scope => (evalAll arguments scope).bind fun vs =>
    (eval callee scope).bind fun f => lang.invoke f vs
  | .other kind children, scope => (lang.node kind scope).exec (evalAt children)

def evalAll : List (Node F K) → S → Logged (Event F) (List (Value F X))
  | [], _ => Logged.pure []
  | n :: ns, scope => (eval n scope).bind fun v => (evalAll ns scope).bind fun vs =>
    Logged.pure (v :: vs)

def evalAt : List (Node F K) → ℕ → S → Logged (Event F) (Value F X)
  | [], _, _ => none
  | n :: _, 0, scope => eval n scope
  | _ :: ns, part + 1, scope => evalAt ns part scope

end

theorem evalAll_eq_collect (ns : List (Node F K)) (scope : S) :
    lang.evalAll ns scope = Logged.collect (ns.map fun n => lang.eval n scope) := by
  induction ns with
  | nil => rfl
  | cons n ns ih => rw [evalAll, ih, List.map_cons, Logged.collect]

theorem evalAt_eq (ns : List (Node F K)) (part : ℕ) (scope : S) :
    lang.evalAt ns part scope = (ns[part]?).elim none fun n => lang.eval n scope := by
  induction ns generalizing part with
  | nil => rfl
  | cons n ns ih =>
    cases part with
    | zero => rfl
    | succ part => exact ih part

end Language

namespace Language

variable (lang : Language F K X S)

variable {lang}

theorem eval_literal {n : Node F K} {x : F} (h : requestRuleNumber lang.arithmetic n = some x)
    (scope : S) : ∃ v, lang.eval n scope = some (v, []) ∧ lang.cast v = some x := by
  cases n with
  | integer n => exact ⟨.int n, rfl, h⟩
  | float y => exact ⟨.float y, rfl, h⟩
  | _ => cases h

theorem asFloat_of_cast {v : Value F X} {x : F} (h : lang.cast v = some x) :
    lang.asFloat v = some x := by
  cases v with
  | other y => cases h
  | _ => exact h

theorem times_of_cast (x : F) {w : Value F X} {m : F} (h : lang.cast w = some m) :
    lang.times (.float x) w = some (.float (lang.arithmetic.mul x m)) ∧
      lang.times w (.float x) = some (.float (lang.arithmetic.mul x m)) := by
  cases w with
  | int n | float y =>
    cases h
    exact ⟨rfl, by rw [times, lang.arithmetic.mul_comm]⟩
  | _ => cases h

theorem eval_conditional {t : Bool} {c e₁ e₂ : Node F K} {scope : S} {v : Value F X}
    {l : List (Event F)} (h : lang.eval (.conditional t c e₁ e₂) scope = some (v, l)) :
    ∃ b l₁ l₂, lang.eval c scope = some (.bool b, l₁) ∧
      lang.eval (if b then e₁ else e₂) scope = some (v, l₂) ∧ l = l₁ ++ l₂ := by
  rw [eval] at h
  obtain ⟨u, l₁, l₂, hc, hu, rfl⟩ := Logged.bind_eq_some.mp h
  split at hu
  · exact ⟨true, l₁, l₂, hc, hu, rfl⟩
  · exact ⟨false, l₁, l₂, hc, hu, rfl⟩
  · cases hu

theorem eval_product {left right : Node F K} {scope : S} {v : Value F X} {l : List (Event F)}
    (h : lang.eval (.binary "*" left right) scope = some (v, l)) :
    ∃ x y l₁ l₂, lang.eval left scope = some (x, l₁) ∧ lang.eval right scope = some (y, l₂) ∧
      lang.times x y = some v ∧ l = l₁ ++ l₂ := by
  rw [eval, if_pos rfl] at h
  obtain ⟨x, l₁, m, hl, hm, rfl⟩ := Logged.bind_eq_some.mp h
  obtain ⟨y, l₂, n, hr, hn, rfl⟩ := Logged.bind_eq_some.mp hm
  obtain ⟨u, hu, hv⟩ := Option.map_eq_some_iff.mp hn
  cases hv
  exact ⟨x, y, l₁, l₂, hl, hr, hu, by simp⟩

theorem eval_tier {name price : Node F K} {scope : S} {v : Value F X} {l : List (Event F)}
    (h : lang.eval (.call (.identifier "tier") [name, price]) scope = some (v, l)) :
    ∃ text p x l₁ l₂, lang.eval price scope = some (p, l₂) ∧ (lang.eval name scope).log = l₁ ∧
      lang.asFloat p = some x ∧ v = .float x ∧ l = l₁ ++ l₂ ++ [.tier text x] := by
  obtain ⟨vs, m, l₃, has, hcall, rfl⟩ := Logged.bind_eq_some.mp h
  obtain ⟨n, l₁, m₁, hname, hrest, rfl⟩ := Logged.bind_eq_some.mp has
  obtain ⟨ps, m₂, m₃, hps, hvs, rfl⟩ := Logged.bind_eq_some.mp hrest
  obtain ⟨p, l₂, m₄, hprice, hnil, rfl⟩ := Logged.bind_eq_some.mp hps
  obtain ⟨f, m₅, m₆, hf, hinvoke, rfl⟩ := Logged.bind_eq_some.mp hcall
  cases hnil
  cases hvs
  cases hf
  obtain ⟨text, -, htext⟩ := Option.bind_eq_some_iff.mp hinvoke
  obtain ⟨x, hx, hv⟩ := Option.map_eq_some_iff.mp htext
  cases hv
  exact ⟨text, p, x, l₁, l₂, hprice, by rw [hname]; rfl, hx, rfl, by simp⟩

theorem eval_fixed {amount : Node F K} {x : F}
    (hx : requestRuleNumber lang.arithmetic amount = some x) (scope : S) :
    (lang.eval (.call (.identifier "fixed") [amount]) scope).log = [.fixed x] := by
  obtain ⟨v, hv, hcast⟩ := eval_literal hx scope
  have hf : lang.eval (.identifier "fixed" : Node F K) scope = some (.callback .fixed, []) := rfl
  have hcall : (lang.invoke (.callback .fixed) [v]).log = [.fixed x] := by
    rw [invoke, asFloat_of_cast hcast]
    rfl
  rw [eval, evalAll, evalAll, hv, hf]
  simp only [Logged.pure, Logged.bind, List.append_nil]
  generalize lang.invoke (.callback .fixed) [v] = r at hcall
  cases r with
  | none => cases hcall
  | some r => exact hcall

end Language

/-! ## The trace of a run -/

inductive BillingUnit where
  | token | request
deriving DecidableEq

structure RequestRuleTrace (F : Type) where
  cond : String
  multiplier : F
  matched : Bool
deriving DecidableEq

structure TraceResult (F : Type) where
  matchedTier : String
  cost : F
  billingUnit : BillingUnit
  fixedPrice : Option F
  requestRules : List (RequestRuleTrace F)
deriving DecidableEq

/-- What a callback writes. -/
def TraceResult.record (trace : TraceResult F) : Event F → TraceResult F
  | .tier name value => { trace with matchedTier := name, cost := value }
  | .fixed amount => { trace with billingUnit := .request, fixedPrice := some amount }
  | .matched rule =>
    if 0 ≤ rule ∧ rule < trace.requestRules.length then
      { trace with
        requestRules := trace.requestRules.modify rule.toNat fun r => { r with matched := true } }
    else trace

/-- The program of the tree ends with a cast to `float64`.  What it fails with is not part
    of the model. -/
def runProgram (lang : Language F K X S) (tree : Node F K)
    (requestRules : List (RequestRuleTrace F)) (scope : S) : Option (F × TraceResult F) :=
  match lang.eval tree scope with
  | none => none
  | some (out, log) => (lang.cast out).map fun f =>
    (f, log.foldl TraceResult.record ⟨"", lang.arithmetic.ofInt 0, .token, none, requestRules⟩)

/-! ## What names confine

  Without the name of a callback and without `$env`, the environment as a value, no
  expression calls the callback.
-/

variable (banned : Callback → Bool)

/-- No event of this run comes from a callback that `banned` holds of. -/
def Event.free : Event F → Prop
  | .tier _ _ => banned .tier = false
  | .fixed _ => banned .fixed = false
  | .matched _ => banned .trace = false ∨ banned .traceInt = false

/-- The value does not give access to a callback that `banned` holds of. -/
def Value.safe (others : X → Prop) : Value F X → Prop
  | .callback f => banned f = false
  | .env => False
  | .other x => others x
  | _ => True

/-- What `expr-lang` promises: from safe values its nodes, operators and functions make
    safe ones. -/
structure Confined (lang : Language F K X S) (banned : Callback → Bool) (others : X → Prop)
    (scopes : S → Prop) : Prop where
  resolve : ∀ {scope name v}, scopes scope → lang.resolve scope name = some v →
    v.safe banned others
  host : ∀ {f as v}, f.safe banned others → (∀ a ∈ as, Value.safe banned others a) →
    lang.host f as = some v → v.safe banned others
  product : ∀ {v w u}, v.safe banned others → w.safe banned others →
    lang.product v w = some u → u.safe banned others
  operator : ∀ {scope} o, scopes scope →
    (lang.operator o scope).Keeps (Value.safe banned others) scopes
  node : ∀ {scope} k, scopes scope → (lang.node k scope).Keeps (Value.safe banned others) scopes

def reaches (name : String) : Bool :=
  name == "$env" || (Callback.ofName name).any banned

def namesEnvironment (node : Node F K) : Bool := node.mentions fun name => name == "$env"

variable {lang : Language F K X S} {banned : Callback → Bool} {others : X → Prop}
  {scopes : S → Prop}

namespace Confined

section
variable (h : Confined lang banned others scopes)
include h

theorem lookup {scope : S} {name : String} {v : Value F X} (hs : scopes scope)
    (hname : reaches banned name = false) (hv : lang.lookup scope name = some v) : v.safe banned others := by
  rw [reaches, Bool.or_eq_false_iff] at hname
  obtain ⟨henv, hcallback⟩ := hname
  rw [Language.lookup] at hv
  split at hv
  · rename_i f hf
    cases hv
    simpa [hf, Value.safe] using hcallback
  · rw [if_neg (by simpa using henv)] at hv
    exact h.resolve hs hv

theorem times {v w u : Value F X} (hv : v.safe banned others) (hw : w.safe banned others)
    (hu : lang.times v w = some u) : u.safe banned others := by
  unfold Language.times at hu
  split at hu
  · cases hu
    trivial
  · cases hu
    trivial
  · cases hu
    trivial
  · exact h.product hv hw hu

theorem invoke {f : Value F X} {as : List (Value F X)} (hf : f.safe banned others)
    (has : ∀ a ∈ as, Value.safe banned others a) :
    Within (Value.safe banned others) (Event.free banned) (lang.invoke f as) := by
  unfold Language.invoke
  split
  · apply Within.of_option
    intro name _
    apply Within.map_option
    intro value _
    exact ⟨trivial, by simpa [Event.free, Value.safe] using hf⟩
  · apply Within.map_option
    intro amount _
    exact ⟨trivial, by simpa [Event.free, Value.safe] using hf⟩
  · apply Within.of_option
    intro matched _
    apply Within.map_option
    intro multiplier _
    cases matched with
    | false => exact ⟨trivial, by simp⟩
    | true => exact ⟨trivial, by simpa [Event.free, Value.safe] using Or.inl hf⟩
  · apply Within.map_option
    intro matched _
    cases matched with
    | false => exact ⟨trivial, by simp⟩
    | true => exact ⟨trivial, by simpa [Event.free, Value.safe] using Or.inr hf⟩
  · intro v l hv
    cases hv
  apply Within.map_option
  intro v hv
  exact ⟨h.host hf has hv, by simp⟩

/-- An expression that names no way to a callback stays away from it. -/
theorem eval (n : Node F K) :
    ∀ {scope : S}, scopes scope → n.mentions (reaches banned) = false →
      Within (Value.safe banned others) (Event.free banned) (lang.eval n scope) := by
  induction n using Node.ind with
  | integer n | float q | text s => exact fun _ _ => Within.pure trivial
  | identifier name =>
    intro scope hs hname
    rw [Language.eval]
    apply Within.map_option
    intro v hv
    exact ⟨h.lookup hs hname hv, by simp⟩
  | conditional t c e₁ e₂ ihc ih₁ ih₂ =>
    intro scope hs hname
    simp only [Node.mentions, Bool.or_eq_false_iff] at hname
    obtain ⟨⟨hc, h₁⟩, h₂⟩ := hname
    rw [Language.eval]
    apply Within.bind (ihc hs hc)
    intro v _
    split
    · exact ih₁ hs h₁
    · exact ih₂ hs h₂
    · intro v l hv
      cases hv
  | binary o l r ihl ihr =>
    intro scope hs hname
    rw [Node.mentions, Bool.or_eq_false_iff] at hname
    obtain ⟨hl, hr⟩ := hname
    rw [Language.eval]
    split
    · apply Within.bind (ihl hs hl)
      intro v hv
      apply Within.bind (ihr hs hr)
      intro w hw
      apply Within.map_option
      intro u hu
      exact ⟨h.times hv hw hu, by simp⟩
    apply Within.exec _ (h.operator o hs)
    intro part s hs'
    split
    · exact ihl hs' hl
    · exact ihr hs' hr
    · intro v l hv
      cases hv
  | call f as ihf ihas =>
    intro scope hs hname
    rw [Node.mentions, Bool.or_eq_false_iff, Node.anyMentions_eq_any, List.any_eq_false] at hname
    obtain ⟨hf, has⟩ := hname
    rw [Language.eval, Language.evalAll_eq_collect]
    apply Within.bind
    · apply Within.collect
      intro r hr
      obtain ⟨a, ha, rfl⟩ := List.mem_map.mp hr
      exact ihas a ha hs (by simpa using has a ha)
    intro vs hvs
    apply Within.bind (ihf hs hf)
    intro g hg
    exact h.invoke hg hvs
  | other k cs ih =>
    intro scope hs hname
    rw [Node.mentions, Node.anyMentions_eq_any, List.any_eq_false] at hname
    rw [Language.eval]
    apply Within.exec _ (h.node k hs)
    intro part s hs'
    rw [Language.evalAt_eq]
    cases hc : cs[part]? with
    | none =>
      intro v l hv
      cases hv
    | some c =>
      have hmem := List.mem_of_getElem? hc
      exact ih c hmem hs' (by simpa using hname c hmem)

end

end Confined

/-! ## A small language

  Comparisons, sums and differences of numbers, members of `$env`, and the functions of
  one request.
-/

/-- `float64(n)`, by rounding to 53 bits and to the even one in the middle. -/
def roundInt (n : ℤ) : ℤ :=
  if n.natAbs ≤ 2 ^ 53 then n
  else
    let e := n.natAbs.log2 - 52
    let m := n.natAbs / 2 ^ e
    let r := n.natAbs % 2 ^ e
    let m' := if 2 ^ e < 2 * r ∨ 2 * r = 2 ^ e ∧ m % 2 = 1 then m + 1 else m
    n.sign * ((m' * 2 ^ e : ℕ) : ℤ)

theorem eq_one_of_roundInt {n : ℤ} (h : roundInt n = 1) : n = 1 := by
  rw [roundInt] at h
  split at h
  · exact h
  have hlog : 53 ≤ n.natAbs.log2 := (Nat.le_log2 (by omega)).mpr (by omega)
  obtain ⟨e, he⟩ : ∃ e, n.natAbs.log2 - 52 = e + 1 := ⟨n.natAbs.log2 - 53, by omega⟩
  simp only [he, pow_succ] at h
  -- a product with the factor 2
  have heven : (2 : ℤ) ∣ 1 := by
    rw [← h]
    apply Int.dvd_mul_of_dvd_right
    rw [← Nat.mul_assoc]
    exact Int.natCast_dvd_natCast.mpr (Nat.dvd_mul_left 2 _)
  omega

def exactArithmetic : Arithmetic ℚ where
  ofInt n := roundInt n
  mul x y := x * y
  atLeastZero x := decide (0 ≤ x)
  isNaN _ := false
  isInf _ := false
  mul_comm := mul_comm
  eq_one_of_ofInt n h := eq_one_of_roundInt (by exact_mod_cast h)

inductive SampleKind where
  | memberNode

/-- A request with `p = 0` whose body has `x`. -/
def sampleLanguage : Language ℚ SampleKind String Unit where
  arithmetic := exactArithmetic
  resolve _ name :=
    if name = "p" then some (.float 0) else if name = "param" then some (.other "param") else none
  otherText _ := none
  otherBool _ := none
  otherFloat _ := none
  host f arguments := match f, arguments with
    | .other "param", [.text "x"] => some (.bool true)
    | _, _ => none
  product _ _ := none
  operator o _ := .eval 0 () fun v => .eval 1 () fun w => match o, v, w with
    | "+", .float x, .float y => .done (.float (x + y))
    | "-", .float x, .int n => .done (.float (x - roundInt n))
    | "-", .int m, .int n => .done (.int (m - n))
    | ">", .float x, .int n => .done (.bool (decide (x > roundInt n)))
    | _, _, _ => .fail
  node _ _ := .eval 0 () fun v => .eval 1 () fun w => match v, w with
    | .env, .text name => match Callback.ofName name with
      | some f => .done (.callback f)
      | none => .fail
    | _, _ => .fail

theorem sampleLanguage_confined (banned : Callback → Bool) :
    Confined sampleLanguage banned (fun _ => True) fun _ => True where
  resolve {_ name v} _ h := by
    simp only [sampleLanguage] at h
    split at h
    · cases h
      trivial
    split at h
    · cases h
      trivial
    · cases h
  host {f as v} _ _ h := by
    simp only [sampleLanguage] at h
    split at h
    · cases h
      trivial
    · cases h
  product _ _ h := by cases h
  operator _ _ := .eval trivial fun v _ => .eval trivial fun w _ => by
    split <;> first | exact .done trivial | exact .fail
  node _ _ := .eval trivial fun v hv => .eval trivial fun w _ => by
    -- `$env` is not safe
    cases v with
    | env => exact hv.elim
    | _ => exact .fail

end NewApi.BillingExpr
