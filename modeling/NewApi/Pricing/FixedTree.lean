/-
  NewApi.Pricing.FixedTree

  The check of fixed-price expressions, written twice: in the editor
  (`web/src/features/pricing/lib/billing-expression/parser.ts`) and on the server
  (`pkg/billingexpr/fixed.go`).

  The editor looks request multipliers up in a list of rules it has collected before,
  by the identity of the node; a node is its path from the root here.  The server
  recognises them where they stand.  Only the editor bounds how deep it looks.

  A numeric literal is its exact value.  Spans, and the positions in the diagnostics,
  are not part of the tree.
-/

import Mathlib.Algebra.Order.Ring.Rat
import NewApi.Lib.Fallible

namespace NewApi.Pricing

open NewApi.Lib

/-! ## The language -/

/-- Functions of one argument. -/
inductive Function₁ where
  | fixed | param | header | u | hour | minute | weekday | month | day | abs | ceil | floor

/-- Functions of two arguments. -/
inductive Function₂ where
  | tier | has | min | max

def Function₁.name : Function₁ → String
  | .fixed => "fixed" | .param => "param" | .header => "header" | .u => "u"
  | .hour => "hour" | .minute => "minute" | .weekday => "weekday" | .month => "month" | .day => "day"
  | .abs => "abs" | .ceil => "ceil" | .floor => "floor"

def Function₂.name : Function₂ → String
  | .tier => "tier" | .has => "has" | .min => "min" | .max => "max"

/-- `TOKEN_VARIABLES` -/
inductive TokenVariable where
  | p | c | len | cr | cc | cc1h | img | imgO | ai | ao

def TokenVariable.name : TokenVariable → String
  | .p => "p" | .c => "c" | .len => "len" | .cr => "cr" | .cc => "cc" | .cc1h => "cc1h"
  | .img => "img" | .imgO => "img_o" | .ai => "ai" | .ao => "ao"

/-- `CONTEXT_VARIABLES` -/
inductive ContextVariable where
  | group | channel

def ContextVariable.name : ContextVariable → String
  | .group => "group" | .channel => "channel"

inductive BinaryOperator where
  | or | and | eq | ne | lt | le | gt | ge | add | sub | mul | div | mod

inductive UnaryOperator where
  | not | plus | minus

/-- The value of a literal.  An integer is written without a point and an exponent. -/
inductive Literal where
  | string (value : String)
  | integer (value : Nat)
  | decimal (value : ℚ)
  | boolean (value : Bool)
  | null

/-- `ExpressionNode`: the parser has checked that every function gets as many arguments
    as `BILLING_FUNCTIONS` says. -/
inductive ExpressionNode where
  | literal (value : Literal)
  | token (name : TokenVariable)
  | context (name : ContextVariable)
  | call₁ (name : Function₁) (arg : ExpressionNode)
  | call₂ (name : Function₂) (first second : ExpressionNode)
  | unary (operator : UnaryOperator) (operand : ExpressionNode)
  | binary (operator : BinaryOperator) (left right : ExpressionNode)
  | conditional (condition yes no : ExpressionNode)

def overflows (x : ℚ) : Bool := 2 ^ 1024 - 2 ^ 970 ≤ |x|

/-! ## The editor -/

namespace Editor

/-- `DiagnosticCode`, the two that are raised here. -/
inductive DiagnosticCode where
  | type | limit

/-- `ExpressionDiagnostic` -/
structure Diagnostic where
  code : DiagnosticCode
  detail : String

def depthLimit : Diagnostic := ⟨.limit, "expression depth"⟩

abbrev Path := List Nat

/-- The check at the top of the loop in `visitExpression`. -/
def enter (depth : Nat) : Except Diagnostic Unit := if 256 < depth then .error depthLimit else .ok ()

/-- `visitExpression`: the nodes in the order they are visited in, a node after its
    children. -/
def visitExpression : Path → Nat → ExpressionNode → Except Diagnostic (List (Path × ExpressionNode))
  | path, depth, .call₁ f a => do
    enter depth
    let as ← visitExpression (path ++ [0]) (depth + 1) a
    return as ++ [(path, .call₁ f a)]
  | path, depth, .call₂ f a b => do
    enter depth
    let as ← visitExpression (path ++ [0]) (depth + 1) a
    let bs ← visitExpression (path ++ [1]) (depth + 1) b
    return as ++ bs ++ [(path, .call₂ f a b)]
  | path, depth, .unary op a => do
    enter depth
    let as ← visitExpression (path ++ [0]) (depth + 1) a
    return as ++ [(path, .unary op a)]
  | path, depth, .binary op a b => do
    enter depth
    let as ← visitExpression (path ++ [0]) (depth + 1) a
    let bs ← visitExpression (path ++ [1]) (depth + 1) b
    return as ++ bs ++ [(path, .binary op a b)]
  | path, depth, .conditional c a b => do
    enter depth
    let cs ← visitExpression (path ++ [0]) (depth + 1) c
    let as ← visitExpression (path ++ [1]) (depth + 1) a
    let bs ← visitExpression (path ++ [2]) (depth + 1) b
    return cs ++ as ++ bs ++ [(path, .conditional c a b)]
  | path, depth, leaf => do
    enter depth
    return [(path, leaf)]

def callName : ExpressionNode → Option String
  | .call₁ f _ => some f.name
  | .call₂ f _ _ => some f.name
  | _ => none

/-- `expressionDependencies`, its `functions`. -/
def functions (node : ExpressionNode) : Except Diagnostic (List String) := do
  let parts ← visitExpression [] 0 node
  return parts.filterMap fun part => callName part.2

def containsPricingMarker (node : ExpressionNode) : Except Diagnostic Bool := do
  let calls ← functions node
  return calls.contains "tier" || calls.contains "fixed"

def numberOf : ExpressionNode → Option ℚ
  | .literal (.integer value) => some value
  | .literal (.decimal value) => some value
  | _ => none

/-- An entry of `requestRules`, without the text of its condition. -/
structure RequestRule where
  node : Path
  condition : ExpressionNode
  multiplier : ℚ

/-- `'param'`, `'header'` and `TIME_FUNCTIONS` -/
def requestProbes : List String := ["param", "header", "hour", "minute", "weekday", "month", "day"]

/-- The visitor of `compileBillingExpression`. -/
def collectRule (rules : List RequestRule) (part : Path × ExpressionNode) :
    Except Diagnostic (List RequestRule) :=
  match part.2 with
  | .conditional condition yes no =>
    match numberOf yes, numberOf no with
    | some multiplier, some fallback =>
      if fallback ≠ 1 then .ok rules
      else do
        let calls ← functions condition
        if calls.any requestProbes.contains then return rules ++ [⟨part.1, condition, multiplier⟩]
        else return rules
    | _, _ => .ok rules
  | _ => .ok rules

/-- The request rules `compileBillingExpression` collects. -/
def requestRules (ast : ExpressionNode) : Except Diagnostic (List RequestRule) := do
  let parts ← visitExpression [] 0 ast
  parts.foldlM collectRule []

def treeError : Diagnostic := ⟨.type, "Use tier(name, fixed(amount)) with a finite, non-negative numeric literal; combine pricing branches only with conditions and request multipliers."⟩

/-- The factor at a path is a rule that may multiply a price. -/
def isMultiplier (rules : List RequestRule) (path : Path) : Except Diagnostic Bool :=
  match rules.find? (·.node = path) with
  | none => .ok false
  | some rule => if rule.multiplier < 0 then .ok false else (containsPricingMarker rule.condition).map not

/-- The second argument of a `tier`. -/
def validatePrice (price : ExpressionNode) : Except Diagnostic Unit :=
  match price with
  | .call₁ .fixed amount =>
    match numberOf amount with
    | some value => if 0 ≤ value ∧ ¬ overflows (value * 1000000) then .ok () else .error treeError
    | none => .error treeError
  | price => do if ← containsPricingMarker price then throw treeError else return ()

/-- `validateFixedPricingTree`, at the node of this path. -/
def validateFixedPricingTree (rules : List RequestRule) : Path → ExpressionNode → Except Diagnostic Unit
  | path, .conditional condition yes no => do
    if ← containsPricingMarker condition then throw treeError
    validateFixedPricingTree rules (path ++ [1]) yes
    validateFixedPricingTree rules (path ++ [2]) no
  | path, .binary .mul left right => do
    if ← isMultiplier rules (path ++ [1]) then validateFixedPricingTree rules (path ++ [0]) left
    else if ← isMultiplier rules (path ++ [0]) then validateFixedPricingTree rules (path ++ [1]) right
    else throw treeError
  | _, .call₂ .tier name price => do
    if ← containsPricingMarker name then throw treeError
    validatePrice price
  | _, _ => .error treeError

def check (ast : ExpressionNode) : Except Diagnostic Unit := do
  let rules ← requestRules ast
  validateFixedPricingTree rules [] ast

end Editor

/-! ## The server -/

namespace Server

/-- The nodes of `expr-lang/expr` that the language is read as. -/
inductive Node where
  | nil
  | identifier (value : String)
  | integer (value : Int)
  | float (value : ℚ)
  | bool (value : Bool)
  | string (value : String)
  | unary (operator : UnaryOperator) (node : Node)
  | binary (operator : BinaryOperator) (left right : Node)
  | call (callee : Node) (arguments : List Node)
  | builtin (name : String) (arguments : List Node)
  | conditional (cond exp1 exp2 : Node)

mutual

/-- `ast.Find`, as to whether it finds a node. -/
def find (p : Node → Bool) : Node → Bool
  | .unary op a => p (.unary op a) || find p a
  | .binary op a b => p (.binary op a b) || find p a || find p b
  | .call callee args => p (.call callee args) || find p callee || findAny p args
  | .builtin name args => p (.builtin name args) || findAny p args
  | .conditional c a b => p (.conditional c a b) || find p c || find p a || find p b
  | leaf => p leaf

def findAny (p : Node → Bool) : List Node → Bool
  | [] => false
  | a :: as => find p a || findAny p as

end

def containsPricingMarker (node : Node) : Bool :=
  find (fun part => match part with
    | .identifier value => value = "tier" || value = "fixed"
    | _ => false) node

def usesRequestProbe (node : Node) : Bool :=
  find (fun part => match part with
    | .identifier value =>
      ["param", "header", "hour", "minute", "weekday", "month", "day"].contains value
    | _ => false) node

def requestRuleNumber : Node → Option ℚ
  | .integer value => some value
  | .float value => some value
  | _ => none

def isRequestPriceMultiplier : Node → Bool
  | .conditional cond exp1 exp2 =>
    if !usesRequestProbe cond || containsPricingMarker cond then false
    else match requestRuleNumber exp1, requestRuleNumber exp2 with
      | some multiplier, some fallback => fallback = 1 && 0 ≤ multiplier
      | _, _ => false
  | _ => false

def fixedPriceError : String :=
  "fixed price must be a finite, non-negative numeric literal with a finite v1 value"

def treeError : String := "fixed pricing requires tier(name, fixed(amount)) leaves, conditional tiers and request multipliers; token and fixed charges cannot be combined in one leaf"

/-- The second argument of a `tier`. -/
def validatePrice (price : Node) : Except String Unit :=
  match price with
  | .call (.identifier "fixed") [amount] =>
    match requestRuleNumber amount with
    | some value => if 0 ≤ value ∧ ¬ overflows (value * 1000000) then .ok () else .error fixedPriceError
    | none => .error fixedPriceError
  | price => if containsPricingMarker price then .error treeError else .ok ()

def validateFixedPricingTree : Node → Except String Unit
  | .conditional cond exp1 exp2 =>
    if containsPricingMarker cond then .error treeError
    else do
      validateFixedPricingTree exp1
      validateFixedPricingTree exp2
  | .binary .mul left right =>
    if isRequestPriceMultiplier right then validateFixedPricingTree left
    else if isRequestPriceMultiplier left then validateFixedPricingTree right
    else .error treeError
  | .call (.identifier "tier") [name, price] =>
    if containsPricingMarker name then .error treeError else validatePrice price
  | _ => .error treeError

/-- The tree the server's parser reads.  The arithmetic functions are builtins of
    `expr`; the others are calls of an identifier. -/
def ofExpression : ExpressionNode → Node
  | .literal (.string value) => .string value
  | .literal (.integer value) => .integer value
  | .literal (.decimal value) => .float value
  | .literal (.boolean value) => .bool value
  | .literal .null => .nil
  | .token name => .identifier name.name
  | .context name => .identifier name.name
  | .call₁ f a =>
    match f with
    | .abs | .ceil | .floor => .builtin f.name [ofExpression a]
    | _ => .call (.identifier f.name) [ofExpression a]
  | .call₂ f a b =>
    match f with
    | .min | .max => .builtin f.name [ofExpression a, ofExpression b]
    | _ => .call (.identifier f.name) [ofExpression a, ofExpression b]
  | .unary op a => .unary op (ofExpression a)
  | .binary op a b => .binary op (ofExpression a) (ofExpression b)
  | .conditional c a b => .conditional (ofExpression c) (ofExpression a) (ofExpression b)

end Server

/-! ## What both sides look at -/

namespace ExpressionNode

/-- How far the deepest node lies below the root. -/
def height : ExpressionNode → Nat
  | .call₁ _ a => a.height + 1
  | .call₂ _ a b => max a.height b.height + 1
  | .unary _ a => a.height + 1
  | .binary _ a b => max a.height b.height + 1
  | .conditional c a b => max (max c.height a.height) b.height + 1
  | _ => 0

/-- The names of the functions that are called. -/
def names : ExpressionNode → List String
  | .call₁ f a => a.names ++ [f.name]
  | .call₂ f a b => a.names ++ b.names ++ [f.name]
  | .unary _ a => a.names
  | .binary _ a b => a.names ++ b.names
  | .conditional c a b => c.names ++ a.names ++ b.names
  | _ => []

/-- All nodes with their paths, a node after its children. -/
def parts : Editor.Path → ExpressionNode → List (Editor.Path × ExpressionNode)
  | path, .call₁ f a => parts (path ++ [0]) a ++ [(path, .call₁ f a)]
  | path, .call₂ f a b => parts (path ++ [0]) a ++ parts (path ++ [1]) b ++ [(path, .call₂ f a b)]
  | path, .unary op a => parts (path ++ [0]) a ++ [(path, .unary op a)]
  | path, .binary op a b => parts (path ++ [0]) a ++ parts (path ++ [1]) b ++ [(path, .binary op a b)]
  | path, .conditional c a b =>
    parts (path ++ [0]) c ++ parts (path ++ [1]) a ++ parts (path ++ [2]) b ++
      [(path, .conditional c a b)]
  | path, leaf => [(path, leaf)]

def child : ExpressionNode → Nat → Option ExpressionNode
  | .call₁ _ a, 0 => some a
  | .call₂ _ a _, 0 => some a
  | .call₂ _ _ b, 1 => some b
  | .unary _ a, 0 => some a
  | .binary _ a _, 0 => some a
  | .binary _ _ b, 1 => some b
  | .conditional c _ _, 0 => some c
  | .conditional _ a _, 1 => some a
  | .conditional _ _ b, 2 => some b
  | _, _ => none

theorem child_induction {P : ExpressionNode → Prop}
    (h : ∀ e, (∀ i a, e.child i = some a → P a) → P e) (e : ExpressionNode) : P e := by
  induction e with
  | literal value | token name | context name => exact h _ nofun
  | call₁ f a iha | unary op a iha =>
    refine h _ fun i x hx => ?_
    match i, hx with
    | 0, rfl => exact iha
  | call₂ f a b iha ihb | binary op a b iha ihb =>
    refine h _ fun i x hx => ?_
    match i, hx with
    | 0, rfl => exact iha
    | 1, rfl => exact ihb
  | conditional c a b ihc iha ihb =>
    refine h _ fun i x hx => ?_
    match i, hx with
    | 0, rfl => exact ihc
    | 1, rfl => exact iha
    | 2, rfl => exact ihb

theorem mem_parts {path : Editor.Path} {e : ExpressionNode} {part : Editor.Path × ExpressionNode} :
    part ∈ e.parts path ↔
      part = (path, e) ∨ ∃ i a, e.child i = some a ∧ part ∈ a.parts (path ++ [i]) := by
  constructor
  · intro h
    cases e <;> simp only [parts, List.mem_append, List.mem_singleton] at h
    case literal | token | context => exact .inl h
    case call₁ | unary =>
      obtain h | h := h
      · exact .inr ⟨0, _, rfl, h⟩
      · exact .inl h
    case call₂ | binary =>
      obtain (h | h) | h := h
      · exact .inr ⟨0, _, rfl, h⟩
      · exact .inr ⟨1, _, rfl, h⟩
      · exact .inl h
    case conditional =>
      obtain ((h | h) | h) | h := h
      · exact .inr ⟨0, _, rfl, h⟩
      · exact .inr ⟨1, _, rfl, h⟩
      · exact .inr ⟨2, _, rfl, h⟩
      · exact .inl h
  rintro (rfl | ⟨i, a, ha, h⟩)
  · cases e <;> simp [parts]
  cases e <;> simp only [parts, List.mem_append, List.mem_singleton]
  case literal | token | context => cases ha
  case call₁ | unary =>
    match i, ha with
    | 0, rfl => exact .inl h
  case call₂ | binary =>
    match i, ha with
    | 0, rfl => exact .inl (.inl h)
    | 1, rfl => exact .inl (.inr h)
  case conditional =>
    match i, ha with
    | 0, rfl => exact .inl (.inl (.inl h))
    | 1, rfl => exact .inl (.inl (.inr h))
    | 2, rfl => exact .inl (.inr h)

theorem height_child {e a : ExpressionNode} {i : Nat} (h : e.child i = some a) : a.height < e.height := by
  cases e
  case literal | token | context => cases h
  case call₁ | unary =>
    match i, h with
    | 0, rfl => simp [height]
  case call₂ | binary =>
    match i, h with
    | 0, rfl => simp only [height]; omega
    | 1, rfl => simp only [height]; omega
  case conditional =>
    match i, h with
    | 0, rfl => simp only [height]; omega
    | 1, rfl => simp only [height]; omega
    | 2, rfl => simp only [height]; omega

def nodeAt (e : ExpressionNode) : Editor.Path → Option ExpressionNode
  | [] => some e
  | i :: path => (e.child i).bind fun a => a.nodeAt path

theorem nodeAt_append (e : ExpressionNode) (path rest : Editor.Path) :
    e.nodeAt (path ++ rest) = (e.nodeAt path).bind fun a => a.nodeAt rest := by
  induction path generalizing e with
  | nil => rfl
  | cons i path ih =>
    rw [List.cons_append, nodeAt, nodeAt]
    cases e.child i with
    | none => rfl
    | some a => exact ih a

theorem nodeAt_child {ast e a : ExpressionNode} {path : Editor.Path} {i : Nat}
    (h : ast.nodeAt path = some e) (ha : e.child i = some a) : ast.nodeAt (path ++ [i]) = some a := by
  rw [nodeAt_append, h]
  show (e.child i).bind _ = _
  rw [ha]
  rfl

theorem height_nodeAt {e n : ExpressionNode} {path : Editor.Path} (h : e.nodeAt path = some n) :
    n.height ≤ e.height := by
  induction path generalizing e with
  | nil =>
    cases h
    exact Nat.le_refl _
  | cons i path ih =>
    obtain ⟨a, ha, h⟩ := Option.bind_eq_some_iff.1 h
    exact (ih h).trans (height_child ha).le

theorem mem_parts_iff_nodeAt {base path : Editor.Path} {e n : ExpressionNode} :
    (path, n) ∈ e.parts base ↔ ∃ rest, path = base ++ rest ∧ e.nodeAt rest = some n := by
  induction e using child_induction generalizing base with
  | h e ih =>
    rw [mem_parts]
    constructor
    · rintro (h | ⟨i, a, ha, h⟩)
      · cases h
        exact ⟨[], by simp, rfl⟩
      · obtain ⟨rest, rfl, hrest⟩ := (ih i a ha).1 h
        exact ⟨i :: rest, by simp, by simp [nodeAt, ha, hrest]⟩
    rintro ⟨rest, rfl, hrest⟩
    cases rest with
    | nil =>
      cases hrest
      exact .inl (by simp)
    | cons i rest =>
      obtain ⟨a, ha, hrest⟩ := Option.bind_eq_some_iff.1 hrest
      exact .inr ⟨i, a, ha, (ih i a ha).2 ⟨rest, by simp, hrest⟩⟩

end ExpressionNode

namespace Editor

open ExpressionNode

section
variable {α β : Type}

def within (depth : Nat) (x : α) : Except Diagnostic α :=
  if depth ≤ 256 then .ok x else .error depthLimit

theorem within_bind (n m : Nat) (x : α) (f : α → β) :
    (within n x >>= fun x => within m (f x)) = within (max n m) (f x) := by
  unfold within
  by_cases hn : n ≤ 256
  · rw [if_pos hn]
    by_cases hm : m ≤ 256
    · rw [if_pos (Nat.max_le.2 ⟨hn, hm⟩)]
      exact if_pos hm
    · rw [if_neg fun h => hm (Nat.max_le.1 h).2]
      exact if_neg hm
  · rw [if_neg hn, if_neg fun h => hn (Nat.max_le.1 h).1]
    rfl

end

theorem enter_eq (depth : Nat) : enter depth = within depth () := by
  unfold enter within
  split_ifs with h h' <;> first | rfl | omega

theorem pure_eq_within {α : Type} (x : α) : (pure x : Except Diagnostic α) = within 0 x := rfl

theorem visitExpression_eq (path : Path) (depth : Nat) (e : ExpressionNode) :
    visitExpression path depth e = within (depth + e.height) (e.parts path) := by
  induction e generalizing path depth with
  | literal value | token name | context name =>
    simp only [visitExpression, enter_eq, pure_eq_within, within_bind, height, parts]
    congr 1
    omega
  | call₁ f a iha | unary op a iha =>
    simp only [visitExpression, iha, enter_eq, pure_eq_within, within_bind, height, parts]
    congr 1
    omega
  | call₂ f a b iha ihb | binary op a b iha ihb =>
    simp only [visitExpression, iha, ihb, enter_eq, pure_eq_within, within_bind, height, parts]
    congr 1
    omega
  | conditional c a b ihc iha ihb =>
    simp only [visitExpression, ihc, iha, ihb, enter_eq, pure_eq_within, within_bind, height, parts]
    congr 1
    omega

theorem filterMap_callName (path : Path) (e : ExpressionNode) :
    (e.parts path).filterMap (fun part => callName part.2) = e.names := by
  induction e generalizing path with
  | literal value => rfl
  | token name => rfl
  | context name => rfl
  | call₁ f a iha =>
    simp only [parts, names, List.filterMap_append, iha]
    rfl
  | call₂ f a b iha ihb =>
    simp only [parts, names, List.filterMap_append, iha, ihb]
    rfl
  | unary op a iha =>
    simp only [parts, names, List.filterMap_append, iha]
    exact List.append_nil _
  | binary op a b iha ihb =>
    simp only [parts, names, List.filterMap_append, iha, ihb]
    exact List.append_nil _
  | conditional c a b ihc iha ihb =>
    simp only [parts, names, List.filterMap_append, ihc, iha, ihb]
    exact List.append_nil _

theorem functions_eq (e : ExpressionNode) : functions e = within e.height e.names := by
  unfold functions
  rw [visitExpression_eq]
  simp only [pure_eq_within, within_bind, filterMap_callName]
  simp

/-- Whether `tier` or `fixed` is called. -/
def hasMarker (e : ExpressionNode) : Bool := e.names.any fun name => name = "tier" || name = "fixed"

theorem containsPricingMarker_eq (e : ExpressionNode) :
    containsPricingMarker e = within e.height (hasMarker e) := by
  have hmarker : (e.names.contains "tier" || e.names.contains "fixed") = hasMarker e := by
    rw [Bool.eq_iff_iff]
    simp only [hasMarker, Bool.or_eq_true, List.contains_iff_mem, List.any_eq_true, decide_eq_true_eq]
    constructor
    · rintro (h | h)
      · exact ⟨_, h, .inl rfl⟩
      · exact ⟨_, h, .inr rfl⟩
    rintro ⟨name, h, rfl | rfl⟩
    · exact .inl h
    · exact .inr h
  unfold containsPricingMarker
  rw [functions_eq]
  simp only [pure_eq_within, within_bind, hmarker]
  simp

/-! ### The rules -/

/-- The rule that a node is. -/
def ruleOf (part : Path × ExpressionNode) : Option RequestRule :=
  match part.2 with
  | .conditional condition yes no =>
    match numberOf yes, numberOf no with
    | some multiplier, some fallback =>
      if fallback = 1 ∧ condition.names.any requestProbes.contains then
        some ⟨part.1, condition, multiplier⟩
      else none
    | _, _ => none
  | _ => none

theorem ruleOf_node {part : Path × ExpressionNode} {rule : RequestRule} (h : ruleOf part = some rule) :
    rule.node = part.1 := by
  unfold ruleOf at h
  split at h
  · split at h
    · split at h
      · cases h
        rfl
      · cases h
    · cases h
  · cases h

theorem collectRule_eq {part : Path × ExpressionNode} (h : part.2.height ≤ 256)
    (rules : List RequestRule) : collectRule rules part = .ok (rules ++ (ruleOf part).toList) := by
  unfold collectRule ruleOf
  split
  · rename_i condition yes no hpart
    have hheight : condition.height ≤ 256 := by
      rw [hpart] at h
      simp only [height] at h
      omega
    split
    · rename_i multiplier fallback _ _
      by_cases hone : fallback = 1
      · rw [if_neg (not_not.2 hone), functions_eq, within, if_pos hheight]
        by_cases hprobe : condition.names.any requestProbes.contains = true
        · rw [if_pos ⟨hone, hprobe⟩]
          exact if_pos hprobe
        · rw [if_neg fun hboth => hprobe hboth.2, Option.toList_none, List.append_nil]
          exact if_neg hprobe
      · rw [if_pos hone, if_neg fun hboth => hone hboth.1]
        simp
    · simp
  · simp

theorem foldlM_collectRule {parts : List (Path × ExpressionNode)} (h : ∀ part ∈ parts, part.2.height ≤ 256)
    (rules : List RequestRule) :
    parts.foldlM collectRule rules = .ok (rules ++ parts.filterMap ruleOf) := by
  induction parts generalizing rules with
  | nil =>
    rw [List.filterMap_nil, List.append_nil]
    rfl
  | cons part parts ih =>
    rw [List.foldlM_cons, collectRule_eq (h part List.mem_cons_self)]
    show parts.foldlM collectRule _ = _
    rw [ih fun q hq => h q (List.mem_cons_of_mem _ hq)]
    cases hrule : ruleOf part with
    | none | some rule => simp [hrule]

theorem requestRules_eq {ast : ExpressionNode} (h : ast.height ≤ 256) :
    requestRules ast = .ok ((ast.parts []).filterMap ruleOf) := by
  unfold requestRules
  rw [visitExpression_eq, within, if_pos (by omega)]
  refine foldlM_collectRule (fun part hpart => ?_) []
  obtain ⟨rest, -, hrest⟩ := mem_parts_iff_nodeAt.1 hpart
  exact (height_nodeAt hrest).trans h

theorem requestRules_deep {ast : ExpressionNode} (h : ¬ ast.height ≤ 256) :
    requestRules ast = .error depthLimit := by
  unfold requestRules
  rw [visitExpression_eq, within, if_neg (by omega)]
  rfl

theorem find_ruleOf {ast n : ExpressionNode} {path : Path} (h : ast.nodeAt path = some n) :
    ((ast.parts []).filterMap ruleOf).find? (·.node = path) = ruleOf (path, n) := by
  have hpart : (path, n) ∈ ast.parts [] := mem_parts_iff_nodeAt.2 ⟨path, rfl, h⟩
  -- every rule under this path is that of this node
  have hsame : ∀ rule ∈ (ast.parts []).filterMap ruleOf, rule.node = path →
      ruleOf (path, n) = some rule := by
    intro rule hrule hnode
    obtain ⟨⟨path', n'⟩, hmem, hof⟩ := List.mem_filterMap.1 hrule
    obtain rfl : path' = path := (ruleOf_node hof).symm.trans hnode
    obtain ⟨rest, rfl, hrest⟩ := mem_parts_iff_nodeAt.1 hmem
    cases h.symm.trans hrest
    exact hof
  cases hfind : ((ast.parts []).filterMap ruleOf).find? (·.node = path) with
  | some rule =>
    have hnode : rule.node = path := by simpa using List.find?_some hfind
    exact (hsame rule (List.mem_of_find?_eq_some hfind) hnode).symm
  | none =>
    cases hrule : ruleOf (path, n) with
    | none => rfl
    | some rule =>
      have hmem : rule ∈ (ast.parts []).filterMap ruleOf := List.mem_filterMap.2 ⟨_, hpart, hrule⟩
      have hnot := List.find?_eq_none.1 hfind rule hmem
      exact absurd (ruleOf_node hrule) (by simpa using hnot)

end Editor

/-! ## Agreement -/

namespace Server

/-- A property of names that no variable and no builtin has. -/
structure Called (q : String → Bool) : Prop where
  token : ∀ v : TokenVariable, q v.name = false
  context : ∀ v : ContextVariable, q v.name = false
  abs : q "abs" = false
  ceil : q "ceil" = false
  floor : q "floor" = false
  min : q "min" = false
  max : q "max" = false

def isIdentifier (q : String → Bool) : Node → Bool
  | .identifier value => q value
  | _ => false

theorem find_isIdentifier {q : String → Bool} (hq : Called q) (e : ExpressionNode) :
    find (isIdentifier q) (ofExpression e) = e.names.any q := by
  induction e with
  | literal value => cases value <;> rfl
  | token name => exact hq.token name
  | context name => exact hq.context name
  | call₁ f a iha =>
    cases f <;> simp [ofExpression, find, findAny, isIdentifier, ExpressionNode.names, iha, Function₁.name,
      hq.abs, hq.ceil, hq.floor, Bool.or_comm]
  | call₂ f a b iha ihb =>
    cases f <;> simp [ofExpression, find, findAny, isIdentifier, ExpressionNode.names, iha, ihb,
      Function₂.name, hq.min, hq.max, Bool.or_comm, Bool.or_left_comm]
  | unary op a iha => simp [ofExpression, find, isIdentifier, ExpressionNode.names, iha]
  | binary op a b iha ihb => simp [ofExpression, find, isIdentifier, ExpressionNode.names, iha, ihb]
  | conditional c a b ihc iha ihb =>
    simp [ofExpression, find, isIdentifier, ExpressionNode.names, ihc, iha, ihb, Bool.or_assoc]

theorem containsPricingMarker_ofExpression (e : ExpressionNode) :
    containsPricingMarker (ofExpression e) = Editor.hasMarker e := by
  have hq : Called fun value => value = "tier" || value = "fixed" :=
    ⟨by rintro (_ | _) <;> rfl, by rintro (_ | _) <;> rfl, rfl, rfl, rfl, rfl, rfl⟩
  rw [Editor.hasMarker, ← find_isIdentifier hq]
  rfl

theorem usesRequestProbe_ofExpression (e : ExpressionNode) :
    usesRequestProbe (ofExpression e) = e.names.any Editor.requestProbes.contains := by
  have hq : Called Editor.requestProbes.contains :=
    ⟨by rintro (_ | _) <;> rfl, by rintro (_ | _) <;> rfl, rfl, rfl, rfl, rfl, rfl⟩
  rw [← find_isIdentifier hq]
  rfl

theorem requestRuleNumber_ofExpression (e : ExpressionNode) :
    requestRuleNumber (ofExpression e) = Editor.numberOf e := by
  cases e with
  | literal value => cases value <;> rfl
  | token name => rfl
  | context name => rfl
  | call₁ f a | call₂ f a b => cases f <;> rfl
  | unary op a => rfl
  | binary op a b => rfl
  | conditional c a b => rfl

end Server

section
variable {ast e : ExpressionNode} {path : Editor.Path}

theorem isMultiplier_eq (hast : ast.height ≤ 256) (h : ast.nodeAt path = some e) :
    Editor.isMultiplier ((ast.parts []).filterMap Editor.ruleOf) path =
      .ok (Server.isRequestPriceMultiplier (Server.ofExpression e)) := by
  unfold Editor.isMultiplier
  rw [Editor.find_ruleOf h]
  have hheight := (ExpressionNode.height_nodeAt h).trans hast
  cases e with
  | conditional condition yes no =>
    have hcondition : condition.height ≤ 256 := by
      simp only [ExpressionNode.height] at hheight
      omega
    simp only [Editor.ruleOf, Server.ofExpression, Server.isRequestPriceMultiplier,
      Server.usesRequestProbe_ofExpression, Server.containsPricingMarker_ofExpression,
      Server.requestRuleNumber_ofExpression]
    cases hyes : Editor.numberOf yes with
    | none => simp
    | some multiplier =>
      cases hno : Editor.numberOf no with
      | none => simp
      | some fallback =>
        dsimp only
        by_cases hrule : fallback = 1 ∧ condition.names.any Editor.requestProbes.contains = true
        · obtain ⟨rfl, hprobe⟩ := hrule
          rw [if_pos ⟨rfl, hprobe⟩, hprobe]
          dsimp only
          rw [Editor.containsPricingMarker_eq, Editor.within, if_pos hcondition]
          by_cases hneg : multiplier < 0
          · rw [if_pos hneg]
            cases Editor.hasMarker condition <;> simp [not_le.2 hneg]
          · rw [if_neg hneg]
            cases Editor.hasMarker condition <;> simp [not_lt.1 hneg, Except.map]
        rw [if_neg hrule]
        rw [not_and] at hrule
        by_cases hone : fallback = 1
        · have hprobe : condition.names.any Editor.requestProbes.contains = false := by
            simpa using hrule hone
          rw [hprobe]
          rfl
        · simp [hone]
  | literal value => cases value <;> rfl
  | token name => rfl
  | context name => rfl
  | call₁ f a | call₂ f a b => cases f <;> rfl
  | unary op a => rfl
  | binary op a b => rfl

theorem seq_eq_ok {ε : Type} {x y : Except ε Unit} :
    (x >>= fun _ => y) = .ok () ↔ x = .ok () ∧ y = .ok () := by
  cases x with
  | ok u =>
    cases u
    exact ⟨fun h => ⟨rfl, h⟩, fun h => h.2⟩
  | error e => exact ⟨nofun, nofun⟩

theorem validatePrice_iff (h : e.height ≤ 256) :
    Editor.validatePrice e = .ok () ↔ Server.validatePrice (Server.ofExpression e) = .ok () := by
  -- a price that is no `fixed` only has to be free of markers
  have hplain : (do if ← Editor.containsPricingMarker e then throw Editor.treeError else return ()) =
        Except.ok () ↔
      (if Server.containsPricingMarker (Server.ofExpression e) then .error Server.treeError else .ok ()) =
        Except.ok () := by
    rw [Editor.containsPricingMarker_eq, Editor.within, if_pos h,
      Server.containsPricingMarker_ofExpression]
    cases Editor.hasMarker e <;> simp [bind, Except.bind, pure, Except.pure, throw, throwThe, MonadExceptOf.throw]
  cases e with
  | call₁ f a =>
    cases f
    case fixed =>
      simp only [Editor.validatePrice, Server.ofExpression, Function₁.name, Server.validatePrice,
        Server.requestRuleNumber_ofExpression]
      cases Editor.numberOf a with
      | none => simp
      | some value =>
        dsimp only
        split <;> simp
    all_goals exact hplain
  | call₂ f a b | literal f => cases f <;> exact hplain
  | token name | context name | unary op a | binary op a b | conditional c a b => exact hplain

theorem validate_iff (hast : ast.height ≤ 256) (h : ast.nodeAt path = some e) :
    Editor.validateFixedPricingTree ((ast.parts []).filterMap Editor.ruleOf) path e = .ok () ↔
      Server.validateFixedPricingTree (Server.ofExpression e) = .ok () := by
  have hheight := (ExpressionNode.height_nodeAt h).trans hast
  induction e generalizing path with
  | conditional c a b ihc iha ihb =>
    have ha : ast.nodeAt (path ++ [1]) = some a := ExpressionNode.nodeAt_child h rfl
    have hb : ast.nodeAt (path ++ [2]) = some b := ExpressionNode.nodeAt_child h rfl
    have hc : c.height ≤ 256 := by
      simp only [ExpressionNode.height] at hheight
      omega
    simp only [Editor.validateFixedPricingTree, Server.ofExpression, Server.validateFixedPricingTree,
      Editor.containsPricingMarker_eq, Server.containsPricingMarker_ofExpression, Editor.within]
    rw [if_pos hc]
    cases hmarker : Editor.hasMarker c with
    | true => exact ⟨nofun, nofun⟩
    | false =>
      have hiff := and_congr (iha ha ((ExpressionNode.height_nodeAt ha).trans hast))
        (ihb hb ((ExpressionNode.height_nodeAt hb).trans hast))
      rw [← seq_eq_ok, ← seq_eq_ok] at hiff
      exact hiff
  | binary op a b iha ihb =>
    cases op
    case mul =>
      have ha : ast.nodeAt (path ++ [0]) = some a := ExpressionNode.nodeAt_child h rfl
      have hb : ast.nodeAt (path ++ [1]) = some b := ExpressionNode.nodeAt_child h rfl
      simp only [Editor.validateFixedPricingTree, Server.ofExpression, Server.validateFixedPricingTree,
        isMultiplier_eq hast ha, isMultiplier_eq hast hb]
      cases Server.isRequestPriceMultiplier (Server.ofExpression b) with
      | true => exact iha ha ((ExpressionNode.height_nodeAt ha).trans hast)
      | false =>
        cases Server.isRequestPriceMultiplier (Server.ofExpression a) with
        | true => exact ihb hb ((ExpressionNode.height_nodeAt hb).trans hast)
        | false => exact ⟨nofun, nofun⟩
    all_goals exact ⟨nofun, nofun⟩
  | call₂ f a b iha ihb =>
    cases f
    case tier =>
      simp only [ExpressionNode.height] at hheight
      have ha : a.height ≤ 256 := by omega
      have hb : b.height ≤ 256 := by omega
      simp only [Editor.validateFixedPricingTree, Server.ofExpression, Function₂.name,
        Server.validateFixedPricingTree, Editor.containsPricingMarker_eq,
        Server.containsPricingMarker_ofExpression, Editor.within]
      rw [if_pos ha]
      cases hmarker : Editor.hasMarker a with
      | true => exact ⟨nofun, nofun⟩
      | false => exact validatePrice_iff hb
    all_goals exact ⟨nofun, nofun⟩
  | call₁ f a iha | literal f => cases f <;> exact ⟨nofun, nofun⟩
  | token name | context name | unary op a iha => exact ⟨nofun, nofun⟩

end

/-- **The editor and the server accept the same trees.**  The editor refuses what lies
    more than 256 levels deep; of all other trees it accepts the ones the server does. -/
theorem editor_accepts_iff_server (ast : ExpressionNode) : Editor.check ast = .ok () ↔
      ast.height ≤ 256 ∧ Server.validateFixedPricingTree (Server.ofExpression ast) = .ok () := by
  unfold Editor.check
  by_cases hast : ast.height ≤ 256
  · rw [Editor.requestRules_eq hast]
    have hroot : ast.nodeAt [] = some ast := rfl
    exact ⟨fun h => ⟨hast, (validate_iff hast hroot).1 h⟩, fun h => (validate_iff hast hroot).2 h.2⟩
  · rw [Editor.requestRules_deep hast]
    exact ⟨nofun, fun h => absurd h.1 hast⟩

/-- A sum of `n + 1` terms, read from the left. -/
def longSum : Nat → ExpressionNode
  | 0 => .token .p
  | n + 1 => .binary .add (longSum n) (.token .p)

theorem height_longSum (n : Nat) : (longSum n).height = n := by
  induction n with
  | zero => rfl
  | succ n ih => simp [longSum, ExpressionNode.height, ih]

theorem names_longSum (n : Nat) : (longSum n).names = [] := by
  induction n with
  | zero => rfl
  | succ n ih => simp [longSum, ExpressionNode.names, ih]

theorem validatePrice_longSum (n : Nat) :
    Server.validatePrice (Server.ofExpression (longSum n)) = .ok () := by
  have hmarker : Server.containsPricingMarker (Server.ofExpression (longSum n)) = false := by
    rw [Server.containsPricingMarker_ofExpression, Editor.hasMarker, names_longSum]
    rfl
  cases n with
  | zero => rfl
  | succ n =>
    show (if Server.containsPricingMarker (Server.ofExpression (longSum (n + 1))) then _ else _) = _
    rw [hmarker]
    rfl

/-- `p > 1 ? tier("a", fixed(1)) : tier("b", p + … + p)`, with `n + 1` terms. -/
def fixedOrSum (n : Nat) : ExpressionNode :=
  .conditional (.binary .gt (.token .p) (.literal (.integer 1)))
    (.call₂ .tier (.literal (.string "a")) (.call₁ .fixed (.literal (.integer 1))))
    (.call₂ .tier (.literal (.string "b")) (longSum n))

theorem validate_fixedOrSum (n : Nat) :
    Server.validateFixedPricingTree (Server.ofExpression (fixedOrSum n)) = .ok () := by
  have hfixed : Server.validateFixedPricingTree (Server.ofExpression
      (.call₂ .tier (.literal (.string "a")) (.call₁ .fixed (.literal (.integer 1))))) = .ok () := by
    decide +kernel
  exact seq_eq_ok.2 ⟨hfixed, validatePrice_longSum n⟩

theorem sumOf300_accepted_by_server_only : ¬ (Editor.check (fixedOrSum 299) = .ok () ↔
      Server.validateFixedPricingTree (Server.ofExpression (fixedOrSum 299)) = .ok ()) := by
  have hdeep : ¬ (fixedOrSum 299).height ≤ 256 := by
    simp [fixedOrSum, ExpressionNode.height, height_longSum]
  have heditor : Editor.check (fixedOrSum 299) = .error Editor.depthLimit := by
    unfold Editor.check
    rw [Editor.requestRules_deep hdeep]
    rfl
  rw [heditor]
  exact fun h => nomatch h.2 (validate_fixedOrSum 299)

end NewApi.Pricing
