/-
  NewApi.Lib.Logged

  Computations that may fail and that log what they do, and scripts over them.

  A script asks for the values of numbered parts, in a scope of its choice and as often
  as it likes, and goes by the values alone.  So what holds between the parts of two
  runs holds between the runs (`Follows.exec`), and a script that keeps a set of values
  to itself never leaves it (`Within.exec`).
-/

namespace NewApi.Lib

variable {E E' V W S : Type}

abbrev Logged (E V : Type) := Option (V × List E)

namespace Logged

def pure (v : V) : Logged E V := some (v, [])

def bind (r : Logged E V) (k : V → Logged E W) : Logged E W :=
  match r with
  | none => none
  | some (v, l) => match k v with
    | none => none
    | some (w, m) => some (w, l ++ m)

def log : Logged E V → List E
  | none => []
  | some (_, l) => l

def value (r : Logged E V) : Option V := r.map Prod.fst

theorem bind_eq_some {r : Logged E V} {k : V → Logged E W} {w : W} {l : List E} :
    r.bind k = some (w, l) ↔
      ∃ v l₁ l₂, r = some (v, l₁) ∧ k v = some (w, l₂) ∧ l = l₁ ++ l₂ := by
  cases r with
  | none => simp [bind]
  | some r =>
    obtain ⟨v, l₁⟩ := r
    cases h : k v with
    | none =>
      simp only [bind, h, Option.some.injEq, Prod.mk.injEq]
      constructor
      · intro h'
        cases h'
      rintro ⟨v', _, _, ⟨rfl, -⟩, hk, -⟩
      rw [h] at hk
      cases hk
    | some r' =>
      obtain ⟨w', l₂⟩ := r'
      simp only [bind, h, Option.some.injEq, Prod.mk.injEq]
      constructor
      · rintro ⟨rfl, rfl⟩
        exact ⟨v, l₁, l₂, ⟨rfl, rfl⟩, h, rfl⟩
      rintro ⟨v', m₁, m₂, ⟨rfl, rfl⟩, hk, rfl⟩
      rw [h] at hk
      cases hk
      exact ⟨rfl, rfl⟩

@[simp] theorem pure_eq_some {v w : V} {l : List E} :
    (pure v : Logged E V) = some (w, l) ↔ v = w ∧ l = [] := by
  simp [pure, eq_comm]

def collect : List (Logged E V) → Logged E (List V)
  | [] => pure []
  | r :: rs => r.bind fun v => (collect rs).bind fun vs => pure (v :: vs)

end Logged

/-! ## Scripts -/

/-- What is done with the parts of a node. -/
inductive Script (V S : Type) where
  | done (v : V)
  | fail
  | eval (part : Nat) (scope : S) (next : V → Script V S)

/-- The script over the parts `parts`. -/
def Script.exec (parts : Nat → S → Logged E V) : Script V S → Logged E V
  | .done v => Logged.pure v
  | .fail => none
  | .eval part scope next => (parts part scope).bind fun v => (next v).exec parts

/-! ## One run follows another -/

/-- Where the first computation succeeds and logs only what is in `P`, the second has the
    same value and a log that `R` relates. -/
def Follows (P : E → Prop) (R : List E → List E' → Prop) (r : Logged E V) (r' : Logged E' V) :
    Prop :=
  ∀ v l, r = some (v, l) → (∀ e ∈ l, P e) → ∃ l', r' = some (v, l') ∧ R l l'

/-- A relation of logs that goes through them piece by piece. -/
structure Piecewise (R : List E → List E' → Prop) : Prop where
  nil : R [] []
  append : ∀ {l m l' m'}, R l l' → R m m' → R (l ++ m) (l' ++ m')

variable {P : E → Prop} {R : List E → List E' → Prop}

theorem Follows.of_none {r' : Logged E' V} : Follows P R none r' := by
  intro v l h
  cases h

theorem Follows.pure (hR : Piecewise R) (v : V) : Follows P R (Logged.pure v) (Logged.pure v) := by
  intro w l h _
  obtain ⟨rfl, rfl⟩ := Logged.pure_eq_some.mp h
  exact ⟨[], rfl, hR.nil⟩

theorem Follows.lift (hR : Piecewise R) (o : Option V) :
    Follows P R (o.map fun v => (v, [])) (o.map fun v => (v, [])) := by
  cases o with
  | none => exact Follows.of_none
  | some v => exact Follows.pure hR v

theorem Follows.bind (hR : Piecewise R) {r : Logged E V} {r' : Logged E' V}
    {k : V → Logged E W} {k' : V → Logged E' W} (hr : Follows P R r r')
    (hk : ∀ v, Follows P R (k v) (k' v)) : Follows P R (r.bind k) (r'.bind k') := by
  intro w l h hP
  obtain ⟨v, l₁, l₂, h₁, h₂, rfl⟩ := Logged.bind_eq_some.mp h
  obtain ⟨m₁, h₁', hR₁⟩ := hr v l₁ h₁ fun e he => hP e (List.mem_append_left _ he)
  obtain ⟨m₂, h₂', hR₂⟩ := hk v w l₂ h₂ fun e he => hP e (List.mem_append_right _ he)
  exact ⟨m₁ ++ m₂, Logged.bind_eq_some.mpr ⟨v, m₁, m₂, h₁', h₂', rfl⟩, hR.append hR₁ hR₂⟩

theorem Follows.exec (hR : Piecewise R) {parts : Nat → S → Logged E V}
    {parts' : Nat → S → Logged E' V} (h : ∀ i s, Follows P R (parts i s) (parts' i s))
    (script : Script V S) : Follows P R (script.exec parts) (script.exec parts') := by
  induction script with
  | done v => exact Follows.pure hR v
  | fail => exact Follows.of_none
  | eval part scope next ih => exact Follows.bind hR (h part scope) ih

/-! ## Runs within a set of values -/

/-- A value in `C`, and a log of what is in `P`. -/
def Within (C : V → Prop) (P : E → Prop) (r : Logged E V) : Prop :=
  ∀ v l, r = some (v, l) → C v ∧ ∀ e ∈ l, P e

/-- From values in `C` the script makes values in `C`, and it asks in scopes in `D`. -/
inductive Script.Keeps (C : V → Prop) (D : S → Prop) : Script V S → Prop where
  | done {v : V} : C v → Keeps C D (.done v)
  | fail : Keeps C D .fail
  | eval {part : Nat} {scope : S} {next : V → Script V S} :
      D scope → (∀ v, C v → Keeps C D (next v)) → Keeps C D (.eval part scope next)

variable {C : V → Prop} {C' : W → Prop} {D : S → Prop}

theorem Within.pure {v : V} (h : C v) : Within C P (Logged.pure v) := by
  intro w l hw
  obtain ⟨rfl, rfl⟩ := Logged.pure_eq_some.mp hw
  exact ⟨h, by simp⟩

theorem Within.bind {r : Logged E V} {k : V → Logged E W} (hr : Within C P r)
    (hk : ∀ v, C v → Within C' P (k v)) : Within C' P (r.bind k) := by
  intro w l h
  obtain ⟨v, l₁, l₂, h₁, h₂, rfl⟩ := Logged.bind_eq_some.mp h
  obtain ⟨hv, hl₁⟩ := hr v l₁ h₁
  obtain ⟨hw, hl₂⟩ := hk v hv w l₂ h₂
  refine ⟨hw, fun e he => ?_⟩
  rcases List.mem_append.mp he with he | he
  · exact hl₁ e he
  · exact hl₂ e he

theorem Within.of_option {o : Option V}
    {k : V → Logged E W} (h : ∀ v, o = some v → Within C' P (k v)) : Within C' P (o.bind k) := by
  intro w l hw
  obtain ⟨v, hv, hk⟩ := Option.bind_eq_some_iff.mp hw
  exact h v hv w l hk

theorem Within.map_option {o : Option V}
    {f : V → W × List E} (h : ∀ v, o = some v → C' (f v).1 ∧ ∀ e ∈ (f v).2, P e) :
    Within C' P (o.map f) := by
  intro w l hw
  obtain ⟨v, hv, hf⟩ := Option.map_eq_some_iff.mp hw
  have := h v hv
  rwa [hf] at this

theorem Within.collect {rs : List (Logged E V)} (h : ∀ r ∈ rs, Within C P r) :
    Within (fun vs => ∀ v ∈ vs, C v) P (Logged.collect rs) := by
  induction rs with
  | nil => exact Within.pure (by simp)
  | cons r rs ih =>
    apply Within.bind (h r List.mem_cons_self)
    intro v hv
    apply Within.bind (ih fun r hr => h r (List.mem_cons_of_mem _ hr))
    intro vs hvs
    apply Within.pure
    intro w hw
    rcases List.mem_cons.mp hw with rfl | hw
    · exact hv
    · exact hvs w hw

theorem Within.exec {parts : Nat → S → Logged E V} (h : ∀ i s, D s → Within C P (parts i s))
    {script : Script V S} (hs : script.Keeps C D) : Within C P (script.exec parts) := by
  induction hs with
  | done hv => exact Within.pure hv
  | fail =>
    intro v l hv
    cases hv
  | eval hscope _ ih => exact Within.bind (h _ _ hscope) ih

end NewApi.Lib
