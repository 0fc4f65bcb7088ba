/-
  NewApi.Pricing.RequestRules

  The trace of request rules (`pkg/billingexpr/compile.go`).

  `requestRulePatcher` replaces the conditionals it takes for rules by calls that write
  to the trace.  `observe` runs the expression as it was written and notes which rules
  hold, by the numbers the patcher gives them; where no rule with an integer and a float
  takes its integer, the patched expression follows it (`patched_follows`).
-/

import NewApi.Pricing.ExprLang

namespace NewApi.BillingExpr

open List (filterMap_append mem_cons_of_mem mem_cons_self mem_filterMap)
open NewApi.Lib

variable {F K X S : Type}

/-! ## The patcher -/

/-- `requestRulePatcher` -/
structure Patcher (F : Type) where
  requestRules : List (RequestRuleTrace F)
  restrictedIdentifier : String

/-- The multiplier of a conditional that is a request rule. -/
def requestRule [DecidableEq F] (arithmetic : Arithmetic F) (ternary : Bool)
    (cond exp₁ exp₂ : Node F K) : Option F :=
  if ternary && usesRequestProbe cond then
    match requestRuleNumber arithmetic exp₁, requestRuleNumber arithmetic exp₂ with
    | some multiplier, some fallback =>
      if fallback = arithmetic.ofInt 1 then some multiplier else none
    | _, _ => none
  else none

def isInteger : Node F K → Bool
  | .integer _ => true
  | _ => false

/-- `ast.Node.String` is the parameter `print`. -/
def visit [DecidableEq F] (arithmetic : Arithmetic F) (print : Node F K → String) (p : Patcher F) :
    Node F K → Patcher F × Node F K
  | .identifier name =>
    if name = "_trace" ∨ name = "_trace_int" then
      ({ p with restrictedIdentifier := name }, .identifier name)
    else (p, .identifier name)
  | .conditional ternary cond exp₁ exp₂ =>
    match requestRule arithmetic ternary cond exp₁ exp₂ with
    | some multiplier =>
      let whole := isInteger exp₁ && isInteger exp₂
      ({ p with requestRules := p.requestRules ++ [⟨print cond, multiplier, false⟩] },
        .call (.identifier (if whole then "_trace_int" else "_trace"))
          [.integer p.requestRules.length, cond, if whole then exp₁ else .float multiplier])
    | none => (p, .conditional ternary cond exp₁ exp₂)
  | node => (p, node)

section

variable [DecidableEq F] (arithmetic : Arithmetic F) (print : Node F K → String)

mutual

/-- `ast.Walk`: the children first. -/
def walk (p : Patcher F) : Node F K → Patcher F × Node F K
  | .conditional ternary cond exp₁ exp₂ =>
    let (p, cond) := walk p cond
    let (p, exp₁) := walk p exp₁
    let (p, exp₂) := walk p exp₂
    visit arithmetic print p (.conditional ternary cond exp₁ exp₂)
  | .binary operator left right =>
    let (p, left) := walk p left
    let (p, right) := walk p right
    visit arithmetic print p (.binary operator left right)
  | .call callee arguments =>
    let (p, callee) := walk p callee
    let (p, arguments) := walkAll p arguments
    visit arithmetic print p (.call callee arguments)
  | .other kind children =>
    let (p, children) := walkAll p children
    visit arithmetic print p (.other kind children)
  | .integer value => visit arithmetic print p (.integer value)
  | .float value => visit arithmetic print p (.float value)
  | .text value => visit arithmetic print p (.text value)
  | .identifier value => visit arithmetic print p (.identifier value)

def walkAll (p : Patcher F) : List (Node F K) → Patcher F × List (Node F K)
  | [] => (p, [])
  | n :: ns =>
    let (p, n) := walk p n
    let (p, ns) := walkAll p ns
    (p, n :: ns)

end

/-- The patched expression and its rules, unless it uses a reserved name. -/
def instrument (tree : Node F K) : Except String (Node F K × List (RequestRuleTrace F)) :=
  let (p, patched) := walk arithmetic print ⟨[], ""⟩ tree
  if p.restrictedIdentifier ≠ "" then
    .error ("expr compile error: identifier \"" ++ p.restrictedIdentifier ++
      "\" is reserved for internal use")
  else .ok (patched, p.requestRules)

/-! ## The run of the expression as it was written -/

mutual

/-- The number of rules in an expression. -/
def countRules : Node F K → ℕ
  | .conditional ternary cond exp₁ exp₂ =>
    countRules cond + countRules exp₁ + countRules exp₂ +
      if (requestRule arithmetic ternary cond exp₁ exp₂).isSome then 1 else 0
  | .binary _ left right => countRules left + countRules right
  | .call callee arguments => countRules callee + countAllRules arguments
  | .other _ children => countAllRules children
  | _ => 0

def countAllRules : List (Node F K) → ℕ
  | [] => 0
  | n :: ns => countRules n + countAllRules ns

end

end

/-- What an observed run notes. -/
inductive Seen (F : Type) where
  | made (e : Event F)
  /-- The condition of a rule is true. -/
  | held (rule : ℕ)
  /-- A rule of an integer and a float takes the integer. -/
  | whole (rule : ℕ)

/-- What is noted where the condition of the rule `i` is `b`. -/
def noted (exp₁ exp₂ : Node F K) (i : ℕ) (b : Bool) : List (Seen F) :=
  (if b then [.held i] else []) ++
    if isInteger exp₁ != isInteger exp₂ && isInteger (if b then exp₁ else exp₂) then [.whole i]
    else []

namespace Language

variable (lang : Language F K X S) [DecidableEq F]

mutual

/-- `eval`, with the rules numbered from `k` on in the order the patcher meets them. -/
def observe (k : ℕ) : Node F K → S → Logged (Seen F) (Value F X)
  | .integer n, _ => Logged.pure (.int n)
  | .float x, _ => Logged.pure (.float x)
  | .text s, _ => Logged.pure (.text s)
  | .identifier name, scope => (lang.lookup scope name).map fun v => (v, [])
  | .conditional ternary cond exp₁ exp₂, scope => (observe k cond scope).bind fun v =>
    match v with
    | .bool b =>
      let k₁ := k + countRules lang.arithmetic cond
      let k₂ := k₁ + countRules lang.arithmetic exp₁
      let notes := match requestRule lang.arithmetic ternary cond exp₁ exp₂ with
        | some _ => noted exp₁ exp₂ (k₂ + countRules lang.arithmetic exp₂) b
        | none => []
      Logged.bind (some ((), notes)) fun _ =>
        match b with
        | true => observe k₁ exp₁ scope
        | false => observe k₂ exp₂ scope
    | _ => none
  | .binary operator left right, scope =>
    let k₁ := k + countRules lang.arithmetic left
    if operator = "*" then
      (observe k left scope).bind fun v => (observe k₁ right scope).bind fun w =>
        (lang.times v w).map fun u => (u, [])
    else
      (lang.operator operator scope).exec fun part s =>
        match part with
        | 0 => observe k left s
        | 1 => observe k₁ right s
        | _ => none
  | .call callee arguments, scope =>
    (observeAll (k + countRules lang.arithmetic callee) arguments scope).bind fun vs =>
      (observe k callee scope).bind fun f =>
        (lang.invoke f vs).map fun p => (p.1, p.2.map .made)
  | .other kind children, scope => (lang.node kind scope).exec (observeAt k children)

def observeAll (k : ℕ) : List (Node F K) → S → Logged (Seen F) (List (Value F X))
  | [], _ => Logged.pure []
  | n :: ns, scope => (observe k n scope).bind fun v =>
    (observeAll (k + countRules lang.arithmetic n) ns scope).bind fun vs => Logged.pure (v :: vs)

def observeAt (k : ℕ) : List (Node F K) → ℕ → S → Logged (Seen F) (Value F X)
  | [], _, _ => none
  | n :: _, 0, scope => observe k n scope
  | n :: ns, part + 1, scope => observeAt (k + countRules lang.arithmetic n) ns part scope

end

end Language

/-! ## The observed run is the run as it was written -/

def Seen.event : Seen F → Option (Event F)
  | .made e => some e
  | _ => none

def Noted (l : List (Event F)) (l' : List (Seen F)) : Prop := l'.filterMap Seen.event = l

theorem noted_piecewise : Piecewise (@Noted F) where
  nil := rfl
  append {l m l' m'} h h' := by rw [Noted, filterMap_append, h, h']

theorem filterMap_event_noted (exp₁ exp₂ : Node F K) (i : ℕ) (b : Bool) :
    (noted exp₁ exp₂ i b).filterMap Seen.event = ([] : List (Event F)) := by
  rw [noted, filterMap_append]
  split <;> split <;> rfl

theorem Follows.notes {P : Event F → Prop} {r : Logged (Event F) (Value F X)}
    {r' : Logged (Seen F) (Value F X)} {notes : List (Seen F)}
    (hnotes : notes.filterMap Seen.event = []) (h : Follows P Noted r r') :
    Follows P Noted r (Logged.bind (some ((), notes)) fun _ => r') := by
  intro v l hr hP
  obtain ⟨l', hr', hl⟩ := h v l hr hP
  refine ⟨notes ++ l', Logged.bind_eq_some.mpr ⟨(), notes, l', rfl, hr', rfl⟩, ?_⟩
  rw [Noted, filterMap_append, hnotes, hl, List.nil_append]

section Observe

variable {lang : Language F K X S} [DecidableEq F]

/-- Where the expression succeeds, its observed run has the same value and the same calls. -/
theorem observe_follows (n : Node F K) : ∀ (k : ℕ) (scope : S),
    Follows (fun _ => True) Noted (lang.eval n scope) (lang.observe k n scope) := by
  induction n using Node.ind with
  | integer n | float q | text s => exact fun _ _ => Follows.pure noted_piecewise _
  | identifier name => exact fun _ _ => Follows.lift noted_piecewise _
  | conditional t c e₁ e₂ ihc ih₁ ih₂ =>
    intro k scope
    rw [Language.eval, Language.observe]
    apply Follows.bind noted_piecewise (ihc k scope)
    intro v
    cases v with
    | bool b =>
      have hnotes : ∀ i, (match requestRule lang.arithmetic t c e₁ e₂ with
          | some _ => noted e₁ e₂ i b
          | none => []).filterMap Seen.event = ([] : List (Event F)) := by
        intro i
        split
        · exact filterMap_event_noted e₁ e₂ i b
        · rfl
      cases b with
      | true => exact Follows.notes (hnotes _) (ih₁ _ scope)
      | false => exact Follows.notes (hnotes _) (ih₂ _ scope)
    | _ => exact Follows.of_none
  | binary o l r ihl ihr =>
    intro k scope
    rw [Language.eval, Language.observe]
    split
    · apply Follows.bind noted_piecewise (ihl k scope)
      intro v
      apply Follows.bind noted_piecewise (ihr _ scope)
      intro w
      exact Follows.lift noted_piecewise _
    apply Follows.exec noted_piecewise
    intro part s
    split
    · exact ihl k s
    · exact ihr _ s
    · exact Follows.of_none
  | call f as ihf ih =>
    intro k scope
    rw [Language.eval, Language.observe]
    have hall : ∀ (ns : List (Node F K)), (∀ n ∈ ns, n ∈ as) → ∀ k,
        Follows (fun _ => True) Noted (lang.evalAll ns scope) (lang.observeAll k ns scope) := by
      intro ns
      induction ns with
      | nil => exact fun _ _ => Follows.pure noted_piecewise _
      | cons n ns ihns =>
        intro hns k
        rw [Language.evalAll, Language.observeAll]
        apply Follows.bind noted_piecewise (ih n (hns n mem_cons_self) k scope)
        intro v
        apply Follows.bind noted_piecewise (ihns (fun m hm => hns m (mem_cons_of_mem n hm)) _)
        intro vs
        exact Follows.pure noted_piecewise _
    apply Follows.bind noted_piecewise (hall as (fun _ h => h) _)
    intro vs
    apply Follows.bind noted_piecewise (ihf k scope)
    intro g v l hg _
    refine ⟨l.map .made, by rw [hg]; rfl, ?_⟩
    rw [Noted, List.filterMap_map]
    exact List.filterMap_some
  | other kind cs ih =>
    intro k scope
    rw [Language.eval, Language.observe]
    apply Follows.exec noted_piecewise
    intro part s
    induction cs generalizing k part with
    | nil => exact Follows.of_none
    | cons n ns ihns =>
      cases part with
      | zero => exact ih n mem_cons_self k s
      | succ part => exact ihns (fun m hm => ih m (mem_cons_of_mem n hm)) _ part

end Observe

/-! ## What the patcher changes -/

section Walk

variable [DecidableEq F] {arithmetic : Arithmetic F} {print : Node F K → String}

def reserved (name : String) : Bool := name == "_trace" || name == "_trace_int"

theorem requestRule_eq_some {t : Bool} {c e₁ e₂ : Node F K} {m : F}
    (h : requestRule arithmetic t c e₁ e₂ = some m) :
    ((∃ a, e₁ = .integer a ∧ arithmetic.ofInt a = m) ∨ e₁ = .float m) ∧
      (e₂ = .integer 1 ∨ e₂ = .float (arithmetic.ofInt 1)) := by
  unfold requestRule at h
  split at h
  · split at h
    · rename_i x y h₁ h₂
      split at h
      · rename_i hy
        cases h
        subst hy
        constructor
        · cases e₁ with
          | integer a => exact Or.inl ⟨a, rfl, Option.some.inj h₁⟩
          | float q => exact Or.inr (congrArg Node.float (Option.some.inj h₁))
          | _ => cases h₁
        cases e₂ with
        | integer a =>
          rw [arithmetic.eq_one_of_ofInt a (Option.some.inj h₂)]
          exact Or.inl rfl
        | float q => exact Or.inr (congrArg Node.float (Option.some.inj h₂))
        | _ => cases h₂
      · cases h
    · cases h
  · cases h

variable (p : Patcher F)

theorem walk_conditional (t : Bool) (c e₁ e₂ : Node F K) :
    walk arithmetic print p (.conditional t c e₁ e₂) =
      let w := walk arithmetic print p c
      let w₁ := walk arithmetic print w.1 e₁
      let w₂ := walk arithmetic print w₁.1 e₂
      visit arithmetic print w₂.1 (.conditional t w.2 w₁.2 w₂.2) := by
  rw [walk]

theorem requestRuleNumber_walk (n : Node F K) :
    requestRuleNumber arithmetic (walk arithmetic print p n).2 =
      requestRuleNumber arithmetic n := by
  cases n with
  | conditional t c e₁ e₂ =>
    rw [walk_conditional, visit]
    split <;> rfl
  | identifier name =>
    rw [walk, visit]
    split <;> rfl
  | _ => rfl

theorem walk_number {n : Node F K} (h : (requestRuleNumber arithmetic n).isSome) :
    walk arithmetic print p n = (p, n) := by
  cases n with
  | integer a => rfl
  | float q => rfl
  | _ => cases h

theorem anyMentions_walkAll {f : String → Bool} {ns : List (Node F K)}
    (h : ∀ n ∈ ns, ∀ p : Patcher F, (walk arithmetic print p n).2.mentions f = n.mentions f)
    (p : Patcher F) :
    Node.anyMentions f (walkAll arithmetic print p ns).2 = Node.anyMentions f ns := by
  induction ns generalizing p with
  | nil => rfl
  | cons n ns ih =>
    rw [walkAll, Node.anyMentions, Node.anyMentions, h n mem_cons_self,
      ih fun m hm => h m (mem_cons_of_mem n hm)]

theorem mentions_walk {f : String → Bool} (h : f "_trace" = false) (h' : f "_trace_int" = false)
    (n : Node F K) : ∀ p : Patcher F, (walk arithmetic print p n).2.mentions f = n.mentions f := by
  induction n using Node.ind with
  | integer a | float q | text s => exact fun _ => rfl
  | identifier name =>
    intro p
    rw [walk, visit]
    split <;> rfl
  | conditional t c e₁ e₂ ihc ih₁ ih₂ =>
    intro p
    rw [walk_conditional, visit]
    split
    · rename_i m hm
      -- the branches of a rule are numbers
      obtain ⟨h₁, h₂⟩ := requestRule_eq_some hm
      have he₁ : e₁.mentions f = false := by
        rw [← ih₁ (walk arithmetic print p c).1]
        rcases h₁ with ⟨a, ha, -⟩ | ha <;> rw [ha] <;> rfl
      have he₂ : e₂.mentions f = false := by
        rw [← ih₂ (walk arithmetic print (walk arithmetic print p c).1 e₁).1]
        rcases h₂ with ha | ha <;> rw [ha] <;> rfl
      have hcallee : ∀ b : Bool, f (if b then "_trace_int" else "_trace") = false := by
        intro b
        cases b with
        | false => exact h
        | true => exact h'
      simp only [Node.mentions, Node.anyMentions, hcallee, ihc, he₁, he₂, Bool.false_or,
        Bool.or_false]
      split
      · rw [ih₁, he₁, Bool.or_false]
      · rw [Node.mentions, Bool.or_false]
    · simp only [Node.mentions, ihc, ih₁, ih₂]
  | binary o l r ihl ihr =>
    intro p
    simp only [walk, visit, Node.mentions, ihl, ihr]
  | call g as ihg ih =>
    intro p
    simp only [walk, visit, Node.mentions, ihg, anyMentions_walkAll ih]
  | other kind cs ih =>
    intro p
    simp only [walk, visit, Node.mentions, anyMentions_walkAll ih]

theorem requestRule_walk (p p₁ p₂ : Patcher F) (t : Bool) (c e₁ e₂ : Node F K) :
    requestRule arithmetic t (walk arithmetic print p c).2 (walk arithmetic print p₁ e₁).2
      (walk arithmetic print p₂ e₂).2 = requestRule arithmetic t c e₁ e₂ := by
  rw [requestRule, requestRule, usesRequestProbe, usesRequestProbe,
    mentions_walk (by decide) (by decide), requestRuleNumber_walk, requestRuleNumber_walk]

theorem length_walkAll {ns : List (Node F K)}
    (h : ∀ n ∈ ns, ∀ p : Patcher F, (walk arithmetic print p n).1.requestRules.length =
      p.requestRules.length + countRules arithmetic n) (p : Patcher F) :
    (walkAll arithmetic print p ns).1.requestRules.length =
      p.requestRules.length + countAllRules arithmetic ns := by
  induction ns generalizing p with
  | nil => rfl
  | cons n ns ih =>
    rw [walkAll, countAllRules]
    rw [ih fun m hm => h m (mem_cons_of_mem n hm), h n mem_cons_self, Nat.add_assoc]

theorem length_walk (n : Node F K) : ∀ p : Patcher F,
    (walk arithmetic print p n).1.requestRules.length =
      p.requestRules.length + countRules arithmetic n := by
  induction n using Node.ind with
  | integer a | float q | text s => exact fun _ => rfl
  | identifier name =>
    intro p
    rw [walk, visit]
    split <;> rfl
  | conditional t c e₁ e₂ ihc ih₁ ih₂ =>
    intro p
    rw [walk_conditional, visit, requestRule_walk, countRules]
    cases requestRule arithmetic t c e₁ e₂ with
    | none => simp only [ih₁, ih₂, ihc, Option.isSome_none, Bool.false_eq_true, if_false]; omega
    | some m =>
      simp only [List.length_append, List.length_singleton, ih₁, ih₂, ihc, Option.isSome_some,
        if_true]
      omega
  | binary o l r ihl ihr =>
    intro p
    simp only [walk, visit, countRules, ihl, ihr]
    omega
  | call g as ihg ih =>
    intro p
    simp only [walk, visit, countRules, length_walkAll ih, ihg]
    omega
  | other kind cs ih =>
    intro p
    simp only [walk, visit, countRules, length_walkAll ih]

theorem walk_invariant {I : Patcher F → Prop}
    (visit_keeps : ∀ p n, I p → I (visit arithmetic print p n).1) (n : Node F K) :
    ∀ p, I p → I (walk arithmetic print p n).1 := by
  have all : ∀ {ns : List (Node F K)}, (∀ n ∈ ns, ∀ p, I p → I (walk arithmetic print p n).1) →
      ∀ p, I p → I (walkAll arithmetic print p ns).1 := by
    intro ns
    induction ns with
    | nil => exact fun _ _ hp => hp
    | cons n ns ih =>
      intro h p hp
      exact ih (fun m hm => h m (mem_cons_of_mem n hm)) _ (h n mem_cons_self p hp)
  induction n using Node.ind with
  | conditional t c e₁ e₂ ihc ih₁ ih₂ =>
    intro p hp
    rw [walk_conditional]
    exact visit_keeps _ _ (ih₂ _ (ih₁ _ (ihc p hp)))
  | binary o l r ihl ihr =>
    intro p hp
    exact visit_keeps _ _ (ihr _ (ihl p hp))
  | call f as ihf ih =>
    intro p hp
    exact visit_keeps _ _ (all ih _ (ihf p hp))
  | other kind cs ih =>
    intro p hp
    exact visit_keeps _ _ (all ih p hp)
  | _ =>
    intro p hp
    exact visit_keeps _ _ hp

theorem walk_unmatched (n : Node F K) :
    ∀ r ∈ (walk arithmetic print ⟨[], ""⟩ n).1.requestRules, r.matched = false := by
  refine walk_invariant (I := fun p => ∀ r ∈ p.requestRules, r.matched = false) ?_ n _ (by simp)
  intro p n hp
  unfold visit
  split
  · split <;> exact hp
  · split
    · intro r hr
      rcases List.mem_append.mp hr with hr | hr
      · exact hp r hr
      · rw [List.mem_singleton.mp hr]
    · exact hp
  · exact hp

theorem restricted_visit_conditional (t : Bool) (c e₁ e₂ : Node F K) :
    (visit arithmetic print p (.conditional t c e₁ e₂)).1.restrictedIdentifier =
      p.restrictedIdentifier := by
  rw [visit]
  split <;> rfl

theorem restricted_walk (n : Node F K) : ∀ p : Patcher F,
    (walk arithmetic print p n).1.restrictedIdentifier = "" →
      n.mentions reserved = false ∧ p.restrictedIdentifier = "" := by
  have all : ∀ {ns : List (Node F K)}, (∀ n ∈ ns, ∀ p : Patcher F,
      (walk arithmetic print p n).1.restrictedIdentifier = "" →
        n.mentions reserved = false ∧ p.restrictedIdentifier = "") →
      ∀ p : Patcher F, (walkAll arithmetic print p ns).1.restrictedIdentifier = "" →
        Node.anyMentions reserved ns = false ∧ p.restrictedIdentifier = "" := by
    intro ns
    induction ns with
    | nil => exact fun _ _ hp => ⟨rfl, hp⟩
    | cons n ns ih =>
      intro h p hp
      obtain ⟨hns, hw⟩ := ih (fun m hm => h m (mem_cons_of_mem n hm)) _ hp
      obtain ⟨hn, hp⟩ := h n mem_cons_self p hw
      exact ⟨by rw [Node.anyMentions, hn, hns]; rfl, hp⟩
  induction n using Node.ind with
  | identifier name =>
    intro p hp
    rw [walk, visit] at hp
    split at hp
    · rename_i hname
      rcases hname with rfl | rfl <;> simp at hp
    rename_i hname
    refine ⟨?_, hp⟩
    rw [not_or] at hname
    simp [Node.mentions, reserved, hname.1, hname.2]
  | conditional t c e₁ e₂ ihc ih₁ ih₂ =>
    intro p hp
    rw [walk_conditional, restricted_visit_conditional] at hp
    obtain ⟨h₂, hp⟩ := ih₂ _ hp
    obtain ⟨h₁, hp⟩ := ih₁ _ hp
    obtain ⟨hc, hp⟩ := ihc _ hp
    exact ⟨by rw [Node.mentions, hc, h₁, h₂]; rfl, hp⟩
  | binary o l r ihl ihr =>
    intro p hp
    obtain ⟨hr, hp⟩ := ihr _ hp
    obtain ⟨hl, hp⟩ := ihl _ hp
    exact ⟨by rw [Node.mentions, hl, hr]; rfl, hp⟩
  | call f as ihf ih =>
    intro p hp
    obtain ⟨has, hp⟩ := all ih _ hp
    obtain ⟨hf, hp⟩ := ihf _ hp
    exact ⟨by rw [Node.mentions, hf, has]; rfl, hp⟩
  | other kind cs ih =>
    intro p hp
    exact all ih p hp
  | _ => exact fun p hp => ⟨rfl, hp⟩

end Walk

/-! ## The patched run follows the observed one -/

def Seen.proper : Seen F → Prop
  | .whole _ => False
  | _ => True

instance : DecidablePred (@Seen.proper F)
  | .whole _ => instDecidableFalse
  | .made _ => instDecidableTrue
  | .held _ => instDecidableTrue

def Seen.told : Seen F → Option (Event F)
  | .made e => some e
  | .held i => some (.matched i)
  | .whole _ => none

def Told (l : List (Seen F)) (l' : List (Event F)) : Prop := l' = l.filterMap Seen.told

theorem told_piecewise : Piecewise (@Told F) where
  nil := rfl
  append {l m l' m'} h h' := by rw [Told, filterMap_append, ← h, ← h']

section Patched

variable {lang : Language F K X S} [DecidableEq F] {print : Node F K → String}

omit [DecidableEq F] in
theorem eval_trace {cond : Node F K} {scope : S} {b : Bool} {l : List (Event F)} (i : ℤ) (m : F)
    (h : lang.eval cond scope = some (.bool b, l)) :
    lang.eval (.call (.identifier "_trace") [.integer i, cond, .float m]) scope =
      some (.float (if b then m else lang.arithmetic.ofInt 1),
        l ++ if b then [.matched i] else []) := by
  have hf : lang.eval (.identifier "_trace" : Node F K) scope = some (.callback .trace, []) := rfl
  rw [Language.eval, Language.evalAll, Language.evalAll, Language.evalAll, Language.evalAll, h, hf]
  cases b <;> simp [Language.eval, Logged.pure, Logged.bind, Language.invoke, Language.asBool,
    Language.asFloat, Language.cast]

omit [DecidableEq F] in
theorem eval_traceInt {cond : Node F K} {scope : S} {b : Bool} {l : List (Event F)} (i a : ℤ)
    (h : lang.eval cond scope = some (.bool b, l)) :
    lang.eval (.call (.identifier "_trace_int") [.integer i, cond, .integer a]) scope =
      some (.int (if b then a else 1), l ++ if b then [.matched i] else []) := by
  have hf : lang.eval (.identifier "_trace_int" : Node F K) scope =
      some (.callback .traceInt, []) := rfl
  rw [Language.eval, Language.evalAll, Language.evalAll, Language.evalAll, Language.evalAll, h, hf]
  cases b <;> simp [Language.eval, Logged.pure, Logged.bind, Language.invoke, Language.asBool]

theorem walk_rule {t : Bool} {c e₁ e₂ : Node F K} {m : F}
    (hrule : requestRule lang.arithmetic t c e₁ e₂ = some m) (p : Patcher F) :
    (walk lang.arithmetic print p (.conditional t c e₁ e₂)).2 =
      let i := ((p.requestRules.length + countRules lang.arithmetic c : ℕ) : ℤ)
      let cond := (walk lang.arithmetic print p c).2
      if isInteger e₁ && isInteger e₂ then
        .call (.identifier "_trace_int") [.integer i, cond, e₁]
      else .call (.identifier "_trace") [.integer i, cond, .float m] := by
  obtain ⟨h₁, h₂⟩ := requestRule_eq_some hrule
  have hn₁ : (requestRuleNumber lang.arithmetic e₁).isSome := by
    rcases h₁ with ⟨a, rfl, -⟩ | rfl <;> rfl
  have hn₂ : (requestRuleNumber lang.arithmetic e₂).isSome := by
    rcases h₂ with rfl | rfl <;> rfl
  rw [walk_conditional, visit, requestRule_walk, hrule]
  simp only [walk_number _ hn₁, walk_number _ hn₂, length_walk]
  split <;> rfl

theorem observe_rule {t : Bool} {c e₁ e₂ : Node F K} {m : F}
    (hrule : requestRule lang.arithmetic t c e₁ e₂ = some m) {k : ℕ} {scope : S} {v : Value F X}
    {l : List (Seen F)} (h : lang.observe k (.conditional t c e₁ e₂) scope = some (v, l)) :
    ∃ b l₁, lang.observe k c scope = some (.bool b, l₁) ∧
      l = l₁ ++ noted e₁ e₂ (k + countRules lang.arithmetic c) b ∧
      lang.eval (if b then e₁ else e₂) scope = some (v, []) := by
  obtain ⟨h₁, h₂⟩ := requestRule_eq_some hrule
  have hcount : countRules lang.arithmetic e₁ = 0 ∧ countRules lang.arithmetic e₂ = 0 := by
    constructor
    · rcases h₁ with ⟨a, rfl, -⟩ | rfl <;> rfl
    · rcases h₂ with rfl | rfl <;> rfl
  rw [Language.observe] at h
  obtain ⟨u, l₁, l₂, hc, hu, rfl⟩ := Logged.bind_eq_some.mp h
  cases u with
  | bool b =>
    simp only [hrule, hcount.1, hcount.2, Nat.add_zero] at hu
    obtain ⟨_, n, l₃, hn, hb, rfl⟩ := Logged.bind_eq_some.mp hu
    cases hn
    cases b with
    | true =>
      rcases h₁ with ⟨a, rfl, -⟩ | rfl <;> cases hb <;> exact ⟨true, l₁, hc, by simp, rfl⟩
    | false =>
      rcases h₂ with rfl | rfl <;> cases hb <;> exact ⟨false, l₁, hc, by simp, rfl⟩
  | _ => cases hu

omit [DecidableEq F] in
theorem filterMap_told_noted (e₁ e₂ : Node F K) (i : ℕ) (b : Bool) :
    (noted e₁ e₂ i b).filterMap Seen.told = if b then [(.matched i : Event F)] else [] := by
  have hwhole : ∀ q : Bool, (if q then [.whole i] else []).filterMap Seen.told =
      ([] : List (Event F)) := by
    intro q
    cases q <;> rfl
  rw [noted, filterMap_append, hwhole, List.append_nil]
  cases b <;> rfl

theorem rule_follows {t : Bool} {c e₁ e₂ : Node F K} {m : F}
    (hrule : requestRule lang.arithmetic t c e₁ e₂ = some m) (p : Patcher F) (scope : S)
    (h : Follows Seen.proper Told (lang.observe p.requestRules.length c scope)
      (lang.eval (walk lang.arithmetic print p c).2 scope)) :
    Follows Seen.proper Told (lang.observe p.requestRules.length (.conditional t c e₁ e₂) scope)
      (lang.eval (walk lang.arithmetic print p (.conditional t c e₁ e₂)).2 scope) := by
  intro v l hv hl
  obtain ⟨b, l₁, hc, rfl, hb⟩ := observe_rule hrule hv
  obtain ⟨l₁', hc', htold⟩ := h _ l₁ hc fun e he => hl e (List.mem_append_left _ he)
  have hproper : ∀ e ∈ noted e₁ e₂ (p.requestRules.length + countRules lang.arithmetic c) b,
      Seen.proper (F := F) e := fun e he => hl e (List.mem_append_right _ he)
  rw [walk_rule hrule]
  generalize p.requestRules.length + countRules lang.arithmetic c = i at hproper ⊢
  refine ⟨l₁' ++ if b then [.matched i] else [], ?_, ?_⟩
  · -- a rule of both kinds of numbers takes the float
    obtain ⟨h₁, h₂⟩ := requestRule_eq_some hrule
    rcases h₁ with ⟨a, rfl, rfl⟩ | rfl <;> rcases h₂ with rfl | rfl
    · have := eval_traceInt i a hc'
      cases b <;> cases hb <;> exact this
    · have := eval_trace i (lang.arithmetic.ofInt a) hc'
      cases b with
      | false =>
        cases hb
        exact this
      | true => exact (hproper (.whole i) (by simp [noted, isInteger])).elim
    · have := eval_trace i m hc'
      cases b with
      | false => exact (hproper (.whole i) (by simp [noted, isInteger])).elim
      | true =>
        cases hb
        exact this
    · have := eval_trace i m hc'
      cases b <;> cases hb <;> exact this
  · rw [Told, filterMap_append, ← htold, filterMap_told_noted]

theorem evalAll_follows {scope : S} {ns : List (Node F K)}
    (h : ∀ n ∈ ns, ∀ (p : Patcher F) (scope : S),
      Follows Seen.proper Told (lang.observe p.requestRules.length n scope)
        (lang.eval (walk lang.arithmetic print p n).2 scope)) (p : Patcher F) :
    Follows Seen.proper Told (lang.observeAll p.requestRules.length ns scope)
      (lang.evalAll (walkAll lang.arithmetic print p ns).2 scope) := by
  induction ns generalizing p with
  | nil => exact Follows.pure told_piecewise _
  | cons n ns ih =>
    rw [walkAll, Language.evalAll, Language.observeAll]
    apply Follows.bind told_piecewise (h n mem_cons_self p scope)
    intro v
    rw [← @length_walk _ _ _ _ print]
    apply Follows.bind told_piecewise (ih (fun m hm => h m (mem_cons_of_mem n hm)) _)
    intro vs
    exact Follows.pure told_piecewise _

theorem evalAt_follows {ns : List (Node F K)} (h : ∀ n ∈ ns, ∀ (p : Patcher F) (scope : S),
      Follows Seen.proper Told (lang.observe p.requestRules.length n scope)
        (lang.eval (walk lang.arithmetic print p n).2 scope)) (p : Patcher F) (part : ℕ)
    (scope : S) : Follows Seen.proper Told (lang.observeAt p.requestRules.length ns part scope)
      (lang.evalAt (walkAll lang.arithmetic print p ns).2 part scope) := by
  induction ns generalizing p part with
  | nil => exact Follows.of_none
  | cons n ns ih =>
    rw [walkAll]
    cases part with
    | zero => exact h n mem_cons_self p scope
    | succ part =>
      rw [Language.observeAt, Language.evalAt, ← @length_walk _ _ _ _ print]
      exact ih (fun m hm => h m (mem_cons_of_mem n hm)) _ part

/-- Where no rule of both kinds of numbers takes its integer, the patched expression has
    the value of the observed one and writes the rules that hold. -/
theorem patched_follows (n : Node F K) : ∀ (p : Patcher F) (scope : S),
    Follows Seen.proper Told (lang.observe p.requestRules.length n scope)
      (lang.eval (walk lang.arithmetic print p n).2 scope) := by
  induction n using Node.ind with
  | integer n | float q | text s => exact fun _ _ => Follows.pure told_piecewise _
  | identifier name =>
    intro p scope
    rw [walk, visit]
    split <;> exact Follows.lift told_piecewise _
  | conditional t c e₁ e₂ ihc ih₁ ih₂ =>
    intro p scope
    cases hrule : requestRule lang.arithmetic t c e₁ e₂ with
    | some m => exact rule_follows hrule p scope (ihc p scope)
    | none =>
      rw [walk_conditional, visit, requestRule_walk, hrule, Language.observe, Language.eval]
      apply Follows.bind told_piecewise (ihc p scope)
      intro v
      cases v with
      | bool b =>
        have hnone : ∀ {r : Logged (Seen F) (Value F X)},
            Logged.bind (some ((), [])) (fun _ => r) = r := by
          intro r
          cases r <;> rfl
        simp only [hrule, hnone]
        rw [← @length_walk _ _ _ _ print, ← @length_walk _ _ _ _ print]
        cases b with
        | true => exact ih₁ _ scope
        | false => exact ih₂ _ scope
      | _ => exact Follows.of_none
  | binary o l r ihl ihr =>
    intro p scope
    have hwalk : (walk lang.arithmetic print p (.binary o l r)).2 =
        .binary o (walk lang.arithmetic print p l).2
          (walk lang.arithmetic print (walk lang.arithmetic print p l).1 r).2 := by
      simp only [walk, visit]
    rw [hwalk, Language.eval, Language.observe, ← @length_walk _ _ _ _ print]
    split
    · apply Follows.bind told_piecewise (ihl p scope)
      intro v
      apply Follows.bind told_piecewise (ihr _ scope)
      intro w
      exact Follows.lift told_piecewise _
    apply Follows.exec told_piecewise
    intro part s
    split
    · exact ihl p s
    · exact ihr _ s
    · exact Follows.of_none
  | call f as ihf ih =>
    intro p scope
    have hwalk : (walk lang.arithmetic print p (.call f as)).2 =
        .call (walk lang.arithmetic print p f).2
          (walkAll lang.arithmetic print (walk lang.arithmetic print p f).1 as).2 := by
      simp only [walk, visit]
    rw [hwalk, Language.eval, Language.observe, ← @length_walk _ _ _ _ print]
    apply Follows.bind told_piecewise (evalAll_follows ih _)
    intro vs
    apply Follows.bind told_piecewise (ihf p scope)
    intro g v l hg _
    obtain ⟨⟨w, m⟩, hw, h⟩ := Option.map_eq_some_iff.mp hg
    cases h
    refine ⟨m, hw, ?_⟩
    rw [Told, List.filterMap_map]
    exact List.filterMap_some.symm
  | other kind cs ih =>
    intro p scope
    have hwalk : (walk lang.arithmetic print p (.other kind cs)).2 =
        .other kind (walkAll lang.arithmetic print p cs).2 := by
      simp only [walk, visit]
    rw [hwalk, Language.eval, Language.observe]
    exact Follows.exec told_piecewise (evalAt_follows ih p) _

end Patched

/-! ## The trace -/

def TraceResult.charge (trace : TraceResult F) : String × F × BillingUnit × Option F :=
  (trace.matchedTier, trace.cost, trace.billingUnit, trace.fixedPrice)

def Event.rule : Event F → Option ℤ
  | .matched i => some i
  | _ => none

theorem charge_record_matched (t : TraceResult F) (i : ℤ) :
    (t.record (.matched i)).charge = t.charge := by
  rw [TraceResult.record]
  split <;> rfl

theorem charge_record {t t' : TraceResult F} (h : t.charge = t'.charge) (e : Event F) :
    (t.record e).charge = (t'.record e).charge := by
  cases e with
  | matched i => rw [charge_record_matched, charge_record_matched, h]
  | tier name value =>
    simp only [TraceResult.charge, Prod.mk.injEq] at h
    simp only [TraceResult.charge, TraceResult.record, h.2.2.1, h.2.2.2]
  | fixed amount =>
    simp only [TraceResult.charge, Prod.mk.injEq] at h
    simp only [TraceResult.charge, TraceResult.record, h.1, h.2.1]

theorem charge_foldl (l : List (Seen F)) {t t' : TraceResult F} (h : t.charge = t'.charge) :
    ((l.filterMap Seen.event).foldl TraceResult.record t).charge =
      ((l.filterMap Seen.told).foldl TraceResult.record t').charge := by
  induction l generalizing t t' with
  | nil => exact h
  | cons e l ih =>
    cases e with
    | made e => exact ih (charge_record h e)
    | held i => exact ih (by rw [charge_record_matched, h])
    | whole i => exact ih h

theorem getElem?_record (t : TraceResult F) (e : Event F) (i : ℕ) :
    (t.record e).requestRules[i]? = (t.requestRules[i]?).map fun r =>
      { r with matched := r.matched || e.rule = some (i : ℤ) } := by
  cases e with
  | matched j =>
    rw [TraceResult.record]
    split
    · rename_i hj
      have : j.toNat = i ↔ j = i := by omega
      simp only [List.getElem?_modify, Event.rule, Option.some.injEq, ← this]
      cases t.requestRules[i]? with
      | none => rfl
      | some r => by_cases h : j.toNat = i <;> simp [h]
    cases hr : t.requestRules[i]? with
    | none => simp
    | some r =>
      have hi := (List.getElem?_eq_some_iff.mp hr).1
      have : j ≠ i := by omega
      simp [Event.rule, this]
  | _ => simp [TraceResult.record, Event.rule]

theorem getElem?_foldl_record (l : List (Event F)) (t : TraceResult F) (i : ℕ) :
    (l.foldl TraceResult.record t).requestRules[i]? = (t.requestRules[i]?).map fun r =>
      { r with matched := r.matched || l.any fun e => e.rule = some (i : ℤ) } := by
  induction l generalizing t with
  | nil => simp
  | cons e l ih =>
    rw [List.foldl_cons, ih, getElem?_record, Option.map_map]
    congr 1
    funext r
    simp [Bool.or_assoc]

theorem length_foldl_record (l : List (Event F)) (t : TraceResult F) :
    (l.foldl TraceResult.record t).requestRules.length = t.requestRules.length := by
  induction l generalizing t with
  | nil => rfl
  | cons e l ih =>
    rw [List.foldl_cons, ih]
    cases e with
    | matched j =>
      rw [TraceResult.record]
      split
      · exact List.length_modify ..
      · rfl
    | _ => rfl

theorem any_rule_told {seen : List (Seen F)} (own : ∀ i, .matched i ∉ seen.filterMap Seen.event)
    (i : ℕ) : ((seen.filterMap Seen.told).any fun e => e.rule = some (i : ℤ)) = true ↔
      Seen.held i ∈ seen := by
  rw [List.any_eq_true]
  constructor
  · rintro ⟨e, he, hi⟩
    obtain ⟨s, hs, htold⟩ := mem_filterMap.mp he
    cases s with
    | made e' =>
      cases htold
      cases e with
      | matched j => exact (own j (mem_filterMap.mpr ⟨_, hs, rfl⟩)).elim
      | _ => simp [Event.rule] at hi
    | held j =>
      cases htold
      have : j = i := by simpa [Event.rule] using hi
      exact this ▸ hs
    | whole j => cases htold
  · intro h
    exact ⟨.matched i, mem_filterMap.mpr ⟨_, h, rfl⟩, by simp [Event.rule]⟩

/-! ## What the instrumentation keeps -/

section Kept

variable [DecidableEq F] {lang : Language F K X S} {print : Node F K → String} {scope : S}

/-- The patched expression costs and charges the same, and its trace has matched exactly
    the rules whose condition has been true. -/
def KeepsMeaning (lang : Language F K X S) (scope : S) (tree patched : Node F K)
    (requestRules : List (RequestRuleTrace F)) (cost : F) (trace : TraceResult F) : Prop :=
  ∃ trace', runProgram lang patched requestRules scope = some (cost, trace') ∧
    trace'.charge = trace.charge ∧ trace'.requestRules.length = requestRules.length ∧
    ∀ i r, trace'.requestRules[i]? = some r →
      (r.matched = true ↔ Seen.held i ∈ (lang.observe 0 tree scope).log)

theorem instrument_eq_ok {tree : Node F K} {arithmetic : Arithmetic F}
    (h : (walk arithmetic print ⟨[], ""⟩ tree).1.restrictedIdentifier = "") :
    instrument arithmetic print tree = .ok ((walk arithmetic print ⟨[], ""⟩ tree).2,
      (walk arithmetic print ⟨[], ""⟩ tree).1.requestRules) := by
  rw [instrument]
  simp only [h, ne_eq, not_true_eq_false, if_false]

theorem of_instrument_eq_ok {tree patched : Node F K} {arithmetic : Arithmetic F}
    {requestRules : List (RequestRuleTrace F)}
    (h : instrument arithmetic print tree = .ok (patched, requestRules)) :
    (walk arithmetic print ⟨[], ""⟩ tree).1.restrictedIdentifier = "" ∧
      patched = (walk arithmetic print ⟨[], ""⟩ tree).2 ∧
      requestRules = (walk arithmetic print ⟨[], ""⟩ tree).1.requestRules := by
  by_cases hr : (walk arithmetic print ⟨[], ""⟩ tree).1.restrictedIdentifier = ""
  · rw [instrument_eq_ok hr] at h
    cases h
    exact ⟨hr, rfl, rfl⟩
  rw [instrument] at h
  simp only [ne_eq, hr, not_false_eq_true, if_true] at h
  cases h

def tracing : Callback → Bool
  | .trace | .traceInt => true
  | _ => false

omit [DecidableEq F] in
theorem matched_not_mem {tree : Node F K} {others : X → Prop} {scopes : S → Prop}
    (h : Confined lang tracing others scopes) (hs : scopes scope)
    (hnames : tree.mentions reserved = false) (henv : namesEnvironment tree = false) (i : ℤ) :
    .matched i ∉ (lang.eval tree scope).log := by
  have hreach : tree.mentions (reaches tracing) = false := by
    apply Node.mentions_eq_false_of_imp _ tree hnames henv
    intro name hname
    rcases Bool.or_eq_true_iff.mp hname with henv | hcallback
    · exact Or.inr henv
    · unfold Callback.ofName at hcallback
      split at hcallback <;> first | exact Or.inl rfl | cases hcallback
  intro hi
  cases hr : lang.eval tree scope with
  | none => simp [hr, Logged.log] at hi
  | some r =>
    rw [hr] at hi
    rcases (h.eval tree hs hreach r.1 r.2 hr).2 _ hi with hfree | hfree <;> cases hfree

/-- The instrumentation keeps the meaning of an expression in every run that marks no rule
    on its own and in which no rule of an integer and a float takes the integer. -/
theorem instrument_keepsMeaning {tree patched : Node F K} {requestRules : List (RequestRuleTrace F)}
    {cost : F} {trace : TraceResult F}
    (compiled : instrument lang.arithmetic print tree = .ok (patched, requestRules))
    (run : runProgram lang tree [] scope = some (cost, trace))
    (proper : ∀ e ∈ (lang.observe 0 tree scope).log, e.proper) :
    ((∀ i, .matched i ∉ (lang.eval tree scope).log) →
        KeepsMeaning lang scope tree patched requestRules cost trace) ∧
      ∀ (others : X → Prop) (scopes : S → Prop), Confined lang tracing others scopes →
        scopes scope → namesEnvironment tree = false →
          KeepsMeaning lang scope tree patched requestRules cost trace := by
  obtain ⟨hrestricted, rfl, rfl⟩ := of_instrument_eq_ok compiled
  have keeps : (∀ i, .matched i ∉ (lang.eval tree scope).log) →
      KeepsMeaning lang scope tree (walk lang.arithmetic print ⟨[], ""⟩ tree).2
        (walk lang.arithmetic print ⟨[], ""⟩ tree).1.requestRules cost trace := by
    intro own
    unfold runProgram at run
    split at run
    · cases run
    rename_i out log heval
    obtain ⟨f, hf, h⟩ := Option.map_eq_some_iff.mp run
    cases h
    -- from the run as it was written to the observed one, and on to the patched one
    obtain ⟨seen, hseen, hlog⟩ := observe_follows tree 0 scope out log heval fun _ _ => trivial
    have hseenLog : (lang.observe 0 tree scope).log = seen := by rw [hseen, Logged.log]
    rw [hseenLog] at proper
    obtain ⟨told, htold, hrelated⟩ :=
      @patched_follows _ _ _ _ lang _ print tree ⟨[], ""⟩ scope out seen hseen proper
    rw [heval, Logged.log] at own
    cases hlog
    cases hrelated
    refine ⟨(seen.filterMap Seen.told).foldl TraceResult.record ⟨"", lang.arithmetic.ofInt 0,
      .token, none, (walk lang.arithmetic print ⟨[], ""⟩ tree).1.requestRules⟩, ?_, ?_, ?_, ?_⟩
    · rw [runProgram, htold]
      simp only [hf, Option.map_some]
    · symm
      apply charge_foldl seen
      rfl
    · rw [length_foldl_record]
    intro i r hr
    rw [getElem?_foldl_record] at hr
    obtain ⟨r₀, hr₀, rfl⟩ := Option.map_eq_some_iff.mp hr
    have hfresh := walk_unmatched tree r₀ (List.mem_of_getElem? hr₀)
    simp only [hfresh, Bool.false_or, hseenLog]
    exact any_rule_told own i
  refine ⟨keeps, fun others scopes h hs henv => keeps ?_⟩
  exact matched_not_mem h hs (restricted_walk tree _ hrestricted).1 henv

end Kept

/-- `tier("a", p) * (param("x") ? 3 : 1)` -/
def tripledTree : Node ℚ SampleKind :=
  .binary "*" (.call (.identifier "tier") [.text "a", .identifier "p"])
    (.conditional true (.call (.identifier "param") [.text "x"]) (.integer 3) (.integer 1))

/-- `(param("x") ? 9007199254740993 : 1.0) - 9007199254740992` -/
def mixedTree : Node ℚ SampleKind :=
  .binary "-"
    (.conditional true (.call (.identifier "param") [.text "x"]) (.integer 9007199254740993)
      (.float 1))
    (.integer 9007199254740992)

/-- The condition of the rule of both expressions, as `ast.Node.String` writes it. -/
def sampleCond : Node ℚ SampleKind → String := fun _ => "param(\"x\")"

theorem instrument_keepsMeaning_tripled : KeepsMeaning sampleLanguage () tripledTree
      (walk exactArithmetic sampleCond ⟨[], ""⟩ tripledTree).2
      (walk exactArithmetic sampleCond ⟨[], ""⟩ tripledTree).1.requestRules
      0 ⟨"a", 0, .token, none, []⟩ :=
  (instrument_keepsMeaning (instrument_eq_ok (by decide)) (by decide +kernel)
    (by decide +kernel)).2
    _ _ (sampleLanguage_confined tracing) trivial (by decide)

/-- A rule of an integer and a float that takes the integer changes the price. -/
theorem not_keepsMeaning_mixed :
    ¬ ∀ (tree patched : Node ℚ SampleKind) (requestRules : List (RequestRuleTrace ℚ)) (cost : ℚ)
        (trace : TraceResult ℚ),
      instrument exactArithmetic sampleCond tree = .ok (patched, requestRules) →
        runProgram sampleLanguage tree [] () = some (cost, trace) →
          KeepsMeaning sampleLanguage () tree patched requestRules cost trace := by
  intro h
  obtain ⟨trace', hrun, -⟩ := h mixedTree _ _ 1 ⟨"", 0, .token, none, []⟩
    (instrument_eq_ok (by decide)) (by decide +kernel)
  have hzero : (runProgram sampleLanguage (walk exactArithmetic sampleCond ⟨[], ""⟩ mixedTree).2
      (walk exactArithmetic sampleCond ⟨[], ""⟩ mixedTree).1.requestRules ()).map Prod.fst =
        some 0 := by
    decide +kernel
  rw [hrun] at hzero
  have hone : (1 : ℚ) = 0 := Option.some.inj hzero
  exact absurd hone (by decide +kernel)

end NewApi.BillingExpr
