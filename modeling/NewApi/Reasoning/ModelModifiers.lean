/-
  NewApi.Reasoning.ModelModifiers

  The modifiers at the end of a model name, `name@key:value@key:value`
  (`relaykit/relayconvert/reasoning/suffix.go`).  A name is any list of bytes.
-/

import Mathlib.Data.List.Forall2
import Mathlib.Data.List.GetD

namespace NewApi.Reasoning

open List (length_drop mem_cons not_mem_nil splitOn_ne_nil)

abbrev Bytes := List UInt8

/-- `'@'` -/
def at' : UInt8 := 64

/-- `':'` -/
def colon : UInt8 := 58

structure ModelModifier where
  key : Bytes
  value : Bytes

structure ModelModifierSpec where
  raw : Bytes
  base : Bytes
  modifiers : List ModelModifier

def isLetter (r : UInt8) : Bool := (97 ≤ r && r ≤ 122) || (65 ≤ r && r ≤ 90)

/-- The runes allowed after the first: letters, digits, `_` and `-`. -/
def isKeyRune (r : UInt8) : Bool := isLetter r || (48 ≤ r && r ≤ 57) || r == 95 || r == 45

/-- `strings.ToLower` on a key, whose runes are ASCII by then. -/
def toLower (key : Bytes) : Bytes := key.map fun r => if 65 ≤ r && r ≤ 90 then r + 32 else r

/-- The loop of `parseModelModifierSegment` over the key.  A rune above ASCII is
    refused there, and so is each of its bytes here. -/
def validKey : Bytes → Bool
  | [] => false
  | r :: rest => isLetter r && rest.all isKeyRune

def parseModelModifierSegment (segment : Bytes) : Option ModelModifier :=
  if colon ∈ segment then
    let key := segment.takeWhile (· ≠ colon)
    -- An empty key is the source's `colon <= 0`.
    if validKey key then some ⟨toLower key, segment.drop (key.length + 1)⟩ else none
  else none

/-- The loop of `ParseModelModifiers`, with `i` the component it looks at; the
    first component is never one of the modifiers. -/
def modifierLoop (parts : List Bytes) : Nat → Nat → List ModelModifier → Nat × List ModelModifier
  | 0, firstModifier, modifiers => (firstModifier, modifiers)
  | i + 1, firstModifier, modifiers =>
    match parseModelModifierSegment (parts.getD (i + 1) []) with
    | none => (firstModifier, modifiers)
    | some m => modifierLoop parts i (i + 1) (m :: modifiers)

def parseModelModifiers (modelName : Bytes) : ModelModifierSpec :=
  let parts := modelName.splitOn at'
  let r := modifierLoop parts (parts.length - 1) parts.length []
  if r.1 = parts.length then ⟨modelName, modelName, []⟩
  else
    let base := [at'].intercalate (parts.take r.1)
    if base = [] then ⟨modelName, modelName, []⟩ else ⟨modelName, base, r.2⟩

/-! ### What a modifier segment is -/

/-- A segment `key:value` whose key starts with a letter. -/
def WellFormed (segment : Bytes) : Prop :=
  ∃ key value, validKey key = true ∧ segment = key ++ colon :: value

/-- The segment is written for the modifier, with the case of its key left open. -/
def Spells (segment : Bytes) (m : ModelModifier) : Prop :=
  ∃ key, validKey key = true ∧ toLower key = m.key ∧ segment = key ++ colon :: m.value

theorem Spells.wellFormed {segment : Bytes} {m : ModelModifier} (h : Spells segment m) :
    WellFormed segment := by
  obtain ⟨key, hkey, -, hseg⟩ := h
  exact ⟨key, m.value, hkey, hseg⟩

theorem wellFormed_of_spells {segments : List Bytes} {ms : List ModelModifier}
    (h : List.Forall₂ Spells segments ms) : ∀ x ∈ segments, WellFormed x := by
  induction h with
  | nil => exact fun x hx => absurd hx not_mem_nil
  | cons hfirst _ ih =>
    intro x hx
    rcases mem_cons.1 hx with rfl | hx
    · exact hfirst.wellFormed
    · exact ih x hx

theorem colon_notMem {key : Bytes} (h : validKey key = true) : colon ∉ key := by
  have hno : ∀ r : UInt8, isKeyRune r = true → r ≠ colon := by
    rintro r hr rfl
    exact absurd hr (by decide)
  cases key with
  | nil => exact not_mem_nil
  | cons r rest =>
    simp only [validKey, Bool.and_eq_true, List.all_eq_true] at h
    intro hmem
    rcases mem_cons.1 hmem with hr | hr
    · exact hno r (by simp [isKeyRune, h.1]) hr.symm
    · exact hno _ (h.2 _ hr) rfl

theorem takeWhile_key {key : Bytes} (h : colon ∉ key) (value : Bytes) :
    (key ++ colon :: value).takeWhile (· ≠ colon) = key := by
  have hkey : ∀ r ∈ key, decide (r ≠ colon) = true := by
    intro r hr
    have hne : r ≠ colon := fun he => h (he ▸ hr)
    exact decide_eq_true hne
  rw [List.takeWhile_append_of_pos hkey]
  simp

theorem parseModelModifierSegment_append {key : Bytes} (h : colon ∉ key) (value : Bytes) :
    parseModelModifierSegment (key ++ colon :: value) =
      if validKey key then some ⟨toLower key, value⟩ else none := by
  unfold parseModelModifierSegment
  rw [if_pos (by simp), takeWhile_key h]
  have hdrop : (key ++ colon :: value).drop (key.length + 1) = value := by
    rw [← List.drop_drop, List.drop_left, List.drop_one, List.tail_cons]
  simp only [hdrop]

theorem spells_of_parse {segment : Bytes} {m : ModelModifier}
    (h : parseModelModifierSegment segment = some m) : Spells segment m := by
  by_cases hmem : colon ∈ segment
  · obtain ⟨key, value, rfl, hno⟩ := List.eq_append_cons_of_mem hmem
    rw [parseModelModifierSegment_append hno] at h
    split at h
    · rename_i hkey
      cases h
      exact ⟨key, hkey, rfl, rfl⟩
    · cases h
  · rw [parseModelModifierSegment, if_neg hmem] at h
    cases h

theorem parse_eq_none_iff {segment : Bytes} :
    parseModelModifierSegment segment = none ↔ ¬ WellFormed segment := by
  constructor
  · rintro h ⟨key, value, hkey, rfl⟩
    rw [parseModelModifierSegment_append (colon_notMem hkey), if_pos hkey] at h
    cases h
  intro h
  cases hp : parseModelModifierSegment segment with
  | none => rfl
  | some m => exact absurd (spells_of_parse hp).wellFormed h

/-! ### The loop -/

theorem modifierLoop_stops (parts : List Bytes) (i : Nat) (hi : i < parts.length)
    (modifiers : List ModelModifier) :
    ∃ k ms, k ≤ i ∧ modifierLoop parts i (i + 1) modifiers = (k + 1, ms ++ modifiers) ∧
      List.Forall₂ Spells ((parts.drop (k + 1)).take (i - k)) ms ∧
      (k = 0 ∨ ¬ WellFormed (parts.getD k [])) := by
  induction i generalizing modifiers with
  | zero => exact ⟨0, [], Nat.le_refl _, rfl, by simp, .inl rfl⟩
  | succ i ih =>
    unfold modifierLoop
    cases hp : parseModelModifierSegment (parts.getD (i + 1) []) with
    | none => exact ⟨i + 1, [], Nat.le_refl _, rfl, by simp, .inr (parse_eq_none_iff.1 hp)⟩
    | some m =>
      obtain ⟨k, ms, hk, hrun, hms, hstop⟩ := ih (by omega) (m :: modifiers)
      refine ⟨k, ms ++ [m], by omega, by simpa using hrun, ?_, hstop⟩
      have htake : (parts.drop (k + 1)).take (i + 1 - k) =
          (parts.drop (k + 1)).take (i - k) ++ [parts.getD (i + 1) []] := by
        have hlt : i - k < (parts.drop (k + 1)).length := by
          rw [length_drop]
          omega
        rw [show i + 1 - k = i - k + 1 by omega, List.take_succ_eq_append_getElem hlt,
          List.getElem_drop, List.getD_eq_getElem _ _ hi]
        congr 3
        omega
      rw [htake]
      exact List.rel_append hms (.cons (spells_of_parse hp) .nil)

theorem intercalate_append {parts : List Bytes} (h : parts ≠ []) (chain : List Bytes) :
    [at'].intercalate (parts ++ chain) = [at'].intercalate parts ++ chain.flatMap (at' :: ·) := by
  induction parts with
  | nil => exact absurd rfl h
  | cons p rest ih =>
    cases rest with
    | nil =>
      induction chain generalizing p with
      | nil => simp
      | cons c chain ihc =>
        have := ihc c
        simp_all [List.intercalate_cons_cons]
    | cons q rest =>
      have := ih (List.cons_ne_nil q rest)
      simp_all [List.intercalate_cons_cons]

/-! ### The split -/

/-- How a name is split: `segments` are what its modifiers were read from. -/
structure Split (s : Bytes) (spec : ModelModifierSpec) (segments : List Bytes) : Prop where
  joined : s = spec.base ++ segments.flatMap (at' :: ·)
  spelled : List.Forall₂ Spells segments spec.modifiers
  named : s ≠ [] → spec.base ≠ []
  stable : parseModelModifiers spec.base = ⟨spec.base, spec.base, []⟩

def Maximal (base : Bytes) : Prop :=
  ∀ head segment, base = head ++ at' :: segment → at' ∉ segment → ¬ WellFormed segment

def OnlyModifiers (s : Bytes) : Prop :=
  ∃ segments : List Bytes, segments ≠ [] ∧ (∀ x ∈ segments, WellFormed x) ∧
    s = segments.flatMap (at' :: ·)

theorem notMem_splitOn (s : Bytes) : ∀ p ∈ s.splitOn at', at' ∉ p := by
  induction s with
  | nil => simp [List.splitOn_nil]
  | cons r rest ih =>
    rw [List.splitOn_cons_eq_if_modifyHead]
    split
    · intro p hp
      rcases mem_cons.1 hp with rfl | hp
      · exact not_mem_nil
      · exact ih p hp
    rename_i hr
    have hne : at' ≠ r := fun h => hr (beq_iff_eq.2 h.symm)
    cases hsplit : rest.splitOn at' with
    | nil => exact absurd hsplit (splitOn_ne_nil _ _)
    | cons first more =>
      rw [hsplit] at ih
      intro p hp
      rcases mem_cons.1 hp with rfl | hp
      · intro hmem
        rcases mem_cons.1 hmem with h | h
        · exact hne h
        · exact ih first List.mem_cons_self h
      · exact ih p (List.mem_cons_of_mem _ hp)

/-- A name whose last component is no modifier, or which is one component. -/
structure Bare (base : Bytes) (k : Nat) : Prop where
  length : (base.splitOn at').length = k + 1
  stop : k = 0 ∨ ¬ WellFormed ((base.splitOn at').getD k [])

theorem Bare.maximal {base : Bytes} {k : Nat} (h : Bare base k) : Maximal base := by
  rintro head segment rfl hat
  have hsplit : (head ++ at' :: segment).splitOn at' = head.splitOn at' ++ [segment] := by
    rw [List.splitOn_append_cons_self, List.splitOn_eq_singleton hat]
  have hpos : 0 < (head.splitOn at').length :=
    List.length_pos_iff.2 (splitOn_ne_nil at' head)
  have hlen := h.length
  rw [hsplit, List.length_append, List.length_singleton] at hlen
  have hget : ((head ++ at' :: segment).splitOn at').getD k [] = segment := by
    rw [hsplit, List.getD_append_right _ _ _ _ (by omega), show k - _ = 0 by omega]
    rfl
  rcases h.stop with h0 | hno
  · omega
  · rwa [hget] at hno

theorem Bare.stable {base : Bytes} {k : Nat} (h : Bare base k) :
    parseModelModifiers base = ⟨base, base, []⟩ := by
  have hloop : modifierLoop (base.splitOn at') k (k + 1) [] = (k + 1, []) := by
    cases k with
    | zero => rfl
    | succ i =>
      rw [modifierLoop, parse_eq_none_iff.2 (h.stop.resolve_left (Nat.succ_ne_zero i))]
  unfold parseModelModifiers
  simp only [h.length, Nat.add_sub_cancel, hloop, if_true]

/-- **The split of a model name.**  It is the name and a chain of modifiers that cannot be
    made longer, except that a name of modifiers alone is taken as it is. -/
theorem parseModelModifiers_split (s : Bytes) :
    ∃ segments, Split s (parseModelModifiers s) segments ∧
      (Maximal (parseModelModifiers s).base ∨ segments = [] ∧ OnlyModifiers s) := by
  have hpos : 0 < (s.splitOn at').length := List.length_pos_iff.2 (splitOn_ne_nil at' s)
  obtain ⟨k, ms, hk, hrun, hms, hstop⟩ :=
    modifierLoop_stops (s.splitOn at') ((s.splitOn at').length - 1) (by omega) []
  rw [show (s.splitOn at').length - 1 + 1 = (s.splitOn at').length by omega, List.append_nil] at hrun
  rw [List.take_of_length_le (by rw [length_drop]; omega)] at hms
  -- The name in two: what is kept of it, and the chain.
  have hbase : (s.splitOn at').take (k + 1) ≠ [] := by
    intro h
    rcases List.take_eq_nil_iff.1 h with h | h
    · omega
    · exact splitOn_ne_nil at' s h
  have hjoin : s = [at'].intercalate ((s.splitOn at').take (k + 1)) ++
      ((s.splitOn at').drop (k + 1)).flatMap (at' :: ·) := by
    rw [← intercalate_append hbase, List.take_append_drop, List.intercalate_splitOn]
  have hbare : Bare ([at'].intercalate ((s.splitOn at').take (k + 1))) k := by
    have hsplit := List.splitOn_intercalate at'
      (fun p hp => notMem_splitOn s p (List.mem_of_mem_take hp)) hbase
    refine ⟨?_, ?_⟩
    · rw [hsplit, List.length_take]
      omega
    rw [hsplit]
    refine hstop.imp_right fun hno => ?_
    rwa [List.getD_eq_getElem?_getD, List.getElem?_take_of_lt (Nat.lt_succ_self k),
      ← List.getD_eq_getElem?_getD]
  by_cases hlen : k + 1 = (s.splitOn at').length
  · -- No modifiers.
    have hs : [at'].intercalate ((s.splitOn at').take (k + 1)) = s := by
      rw [hlen, List.take_length, List.intercalate_splitOn]
    rw [hs] at hbare
    rw [hbare.stable]
    exact ⟨[], ⟨by simp, .nil, fun h => h, hbare.stable⟩, .inl hbare.maximal⟩
  have hspec : parseModelModifiers s =
      if [at'].intercalate ((s.splitOn at').take (k + 1)) = [] then ⟨s, s, []⟩
      else ⟨s, [at'].intercalate ((s.splitOn at').take (k + 1)), ms⟩ := by
    unfold parseModelModifiers
    simp only [hrun, if_neg hlen]
  by_cases hnil : [at'].intercalate ((s.splitOn at').take (k + 1)) = []
  · -- Nothing before the chain.
    rw [if_pos hnil] at hspec
    refine ⟨[], ⟨by simp [hspec], by rw [hspec]; exact .nil, by simp [hspec], by
      rw [hspec]; exact hspec⟩, .inr ⟨rfl, (s.splitOn at').drop (k + 1), ?_, ?_, ?_⟩⟩
    · intro h
      have := congrArg List.length h
      rw [length_drop, List.length_nil] at this
      omega
    · exact wellFormed_of_spells hms
    · rw [hnil, List.nil_append] at hjoin
      exact hjoin
  rw [if_neg hnil] at hspec
  rw [hspec]
  exact ⟨_, ⟨hjoin, hms, fun _ => hnil, hbare.stable⟩, .inl hbare.maximal⟩

theorem not_maximal_onlyModifier : ¬ Maximal (parseModelModifiers [at', 97, colon, 98]).base := by
  intro h
  exact h [] [97, colon, 98] (by decide) (by decide) ⟨[97], [98], by decide, rfl⟩

end NewApi.Reasoning
