/-
  NewApi.Lib.Utf8

  Byte strings as Go reads them: one code point after the other, where a byte that
  starts no well-formed sequence stands for itself.

  `decode_append` says where reading can be split: after a well-formed part, and before
  any byte that continues nothing.
-/

namespace NewApi.Lib.Utf8

open List (all_cons cons_append length_cons length_drop)

/-- What a first byte announces: the number of bytes that follow, and the range of the
    first of them. -/
def lead (b : Nat) : Option (Nat × Nat × Nat) :=
  if b < 0x80 then some (0, 0x80, 0xBF)
  else if b < 0xC2 then none
  else if b < 0xE0 then some (1, 0x80, 0xBF)
  else if b = 0xE0 then some (2, 0xA0, 0xBF)
  else if b = 0xED then some (2, 0x80, 0x9F)
  else if b < 0xF0 then some (2, 0x80, 0xBF)
  else if b = 0xF0 then some (3, 0x90, 0xBF)
  else if b < 0xF4 then some (3, 0x80, 0xBF)
  else if b = 0xF4 then some (3, 0x80, 0x8F)
  else none

/-- `n` bytes of a sequence follow. -/
def continues : Nat → Nat → Nat → List Nat → Bool
  | 0, _, _, _ => true
  | _ + 1, _, _, [] => false
  | n + 1, low, high, b :: rest => low ≤ b && b ≤ high && continues n 0x80 0xBF rest

/-- The length of the sequence that a string starts with, if it is well-formed. -/
def sequence : List Nat → Option Nat
  | [] => none
  | b :: rest => (lead b).bind fun p =>
    if continues p.1 p.2.1 p.2.2 rest then some (p.1 + 1) else none

def isTail (b : Nat) : Prop := 0x80 ≤ b ∧ b ≤ 0xBF

def Fresh (s : List Nat) : Prop := ∀ b rest, s = b :: rest → ¬ isTail b

variable {n low high : Nat} {a b : List Nat}

theorem continues_append (h : continues n low high a = true) :
    continues n low high (a ++ b) = true := by
  induction n generalizing low high a with
  | zero => rfl
  | succ n ih =>
    cases a with
    | nil => cases h
    | cons x a =>
      simp only [continues, cons_append, Bool.and_eq_true] at h ⊢
      exact ⟨h.1, ih h.2⟩

theorem continues_append_fresh (hlow : 0x80 ≤ low)
    (hhigh : high ≤ 0xBF) (hb : Fresh b) (h : continues n low high a = false) :
    continues n low high (a ++ b) = false := by
  induction n generalizing low high a with
  | zero => cases h
  | succ n ih =>
    cases a with
    | nil =>
      cases b with
      | nil => rfl
      | cons x b =>
        have := hb x b rfl
        simp only [isTail, not_and] at this
        simp only [List.nil_append, continues, Bool.and_eq_false_iff, decide_eq_false_iff_not]
        omega
    | cons x a =>
      simp only [continues, cons_append, Bool.and_eq_false_iff] at h ⊢
      rcases h with h | h
      · exact Or.inl h
      · exact Or.inr (ih (Nat.le_refl _) (Nat.le_refl _) h)

theorem lead_range {b : Nat} (h : lead b = some (n, low, high)) :
    0x80 ≤ low ∧ high ≤ 0xBF ∧ ¬ isTail b := by
  unfold lead at h
  unfold isTail
  repeat' split at h
  all_goals
    cases h
    try omega

theorem continues_length (h : continues n low high a = true) : n ≤ a.length := by
  induction n generalizing low high a with
  | zero => exact Nat.zero_le _
  | succ n ih =>
    cases a with
    | nil => cases h
    | cons x a =>
      simp only [continues, Bool.and_eq_true] at h
      have := ih h.2
      simp only [length_cons]
      omega

variable {s : List Nat}

theorem sequence_eq_some {k : Nat} (h : sequence s = some k) : 0 < k ∧ k ≤ s.length ∧ Fresh s := by
  cases s with
  | nil => cases h
  | cons b rest =>
    obtain ⟨⟨n, low, high⟩, hlead, hk⟩ := Option.bind_eq_some_iff.mp h
    split at hk
    · rename_i hc
      cases hk
      have := continues_length hc
      refine ⟨Nat.succ_pos _, by simp only [length_cons]; omega, ?_⟩
      intro b' rest' heq
      cases heq
      exact (lead_range hlead).2.2
    · cases hk

theorem sequence_append {k : Nat} (h : sequence a = some k) : sequence (a ++ b) = some k := by
  cases a with
  | nil => cases h
  | cons x a =>
    obtain ⟨p, hlead, hk⟩ := Option.bind_eq_some_iff.mp h
    rw [cons_append, sequence, hlead, Option.bind_some]
    split at hk
    · rename_i hc
      rw [if_pos (continues_append hc)]
      exact hk
    · cases hk

theorem sequence_append_fresh (ha : a ≠ []) (hb : Fresh b)
    (h : sequence a = none) : sequence (a ++ b) = none := by
  cases a with
  | nil => exact absurd rfl ha
  | cons x a =>
    rw [cons_append, sequence]
    rw [sequence] at h
    cases hlead : lead x with
    | none => rfl
    | some p =>
      obtain ⟨n, low, high⟩ := p
      obtain ⟨hlow, hhigh, -⟩ := lead_range hlead
      rw [hlead, Option.bind_some] at h
      split at h
      · cases h
      rename_i hc
      rw [Option.bind_some, if_neg]
      simpa using continues_append_fresh hlow hhigh hb (by simpa using hc)

/-! ## Reading a string -/

def width (s : List Nat) : Nat := (sequence s).getD 1

theorem width_pos (s : List Nat) : 0 < width s := by
  unfold width
  cases h : sequence s with
  | none => exact Nat.one_pos
  | some k => exact (sequence_eq_some h).1

theorem width_le (hs : s ≠ []) : width s ≤ s.length := by
  unfold width
  cases h : sequence s with
  | none => exact List.length_pos_iff.mpr hs
  | some k => exact (sequence_eq_some h).2.1

/-- What is read, with at most `fuel` code points, and whether it is well-formed. -/
def decodeFrom : Nat → List Nat → List (Bool × List Nat)
  | 0, _ => []
  | _ + 1, [] => []
  | fuel + 1, b :: s => ((sequence (b :: s)).isSome, (b :: s).take (width (b :: s))) ::
    decodeFrom fuel ((b :: s).drop (width (b :: s)))

def decode (s : List Nat) : List (Bool × List Nat) := decodeFrom s.length s

def codePoints (s : List Nat) : List (List Nat) := (decode s).map Prod.snd

/-- `utf8.RuneCountInString` -/
def runeCount (s : List Nat) : Nat := (decode s).length

def validString (s : List Nat) : Bool := (decode s).all Prod.fst

theorem decodeFrom_eq {fuel : Nat} (h : s.length ≤ fuel) : decodeFrom fuel s = decode s := by
  have hany : ∀ n m (s : List Nat), s.length ≤ n → s.length ≤ m →
      decodeFrom n s = decodeFrom m s := by
    intro n
    induction n with
    | zero =>
      intro m s hn _
      have : s = [] := List.length_eq_zero_iff.mp (Nat.le_zero.mp hn)
      subst this
      cases m <;> rfl
    | succ n ih =>
      intro m s hn hm
      cases s with
      | nil => cases m <;> rfl
      | cons b s =>
        cases m with
        | zero => exact absurd hm (by simp)
        | succ m =>
          rw [decodeFrom, decodeFrom]
          congr 1
          have hpos := width_pos (b :: s)
          apply ih
          · rw [length_drop]
            omega
          · rw [length_drop]
            omega
  exact hany _ _ s h (Nat.le_refl _)

theorem decode_of_ne_nil (hs : s ≠ []) :
    decode s = ((sequence s).isSome, s.take (width s)) :: decode (s.drop (width s)) := by
  have hpos := width_pos s
  cases s with
  | nil => exact absurd rfl hs
  | cons b s =>
    rw [decode, length_cons, decodeFrom, decodeFrom_eq]
    rw [length_drop, length_cons]
    omega

/-- **Where reading can be split.** -/
theorem decode_append (h : validString a = true ∨ Fresh b) :
    decode (a ++ b) = decode a ++ decode b := by
  induction hn : a.length using Nat.strongRecOn generalizing a with
  | ind n ih =>
    by_cases ha : a = []
    · subst ha
      rfl
    have hab : a ++ b ≠ [] := by simp [ha]
    have hseq : sequence (a ++ b) = sequence a := by
      cases hs : sequence a with
      | some k => exact sequence_append hs
      | none =>
        rcases h with h | h
        · rw [validString, decode_of_ne_nil ha, hs] at h
          cases h
        · exact sequence_append_fresh ha h hs
    have hwidth : width (a ++ b) = width a := by rw [width, width, hseq]
    have hle := width_le ha
    have hpos := width_pos a
    rw [decode_of_ne_nil hab, decode_of_ne_nil ha, hseq, hwidth, List.take_append_of_le_length hle,
      List.drop_append_of_le_length hle, cons_append]
    congr 1
    apply ih _ _ _ rfl
    · rw [length_drop]
      omega
    rcases h with h | h
    · rw [validString, decode_of_ne_nil ha, all_cons, Bool.and_eq_true] at h
      exact Or.inl h.2
    · exact Or.inr h

theorem flatten_codePoints (s : List Nat) : (codePoints s).flatten = s := by
  induction hn : s.length using Nat.strongRecOn generalizing s with
  | ind n ih =>
    by_cases hs : s = []
    · subst hs
      rfl
    have hle := width_le hs
    have hpos := width_pos s
    have hrest : (codePoints (s.drop (width s))).flatten = s.drop (width s) := by
      apply ih _ _ _ rfl
      rw [length_drop]
      omega
    rw [codePoints, decode_of_ne_nil hs, List.map_cons, List.flatten_cons]
    rw [codePoints] at hrest
    rw [hrest, List.take_append_drop]

theorem runeCount_pos (hs : s ≠ []) : 0 < runeCount s := by
  rw [runeCount, decode_of_ne_nil hs]
  exact Nat.succ_pos _

theorem fresh_of_validString (ha : a ≠ []) (h : validString a = true) : Fresh (a ++ b) := by
  rw [validString, decode_of_ne_nil ha, all_cons, Bool.and_eq_true] at h
  obtain ⟨k, hk⟩ := Option.isSome_iff_exists.mp h.1
  exact (sequence_eq_some (sequence_append hk)).2.2

/-- **The code points of a part** of a string that starts and ends between code points: `a`
    is what comes before, `m` the part, and `c` what comes after. -/
theorem codePoints_part {m c : List Nat} (hm : m ≠ [])
    (hstart : decode (a ++ (m ++ c)) = decode a ++ decode (m ++ c))
    (hend : decode (m ++ c) = decode m ++ decode c) : runeCount a < runeCount a + runeCount m ∧
      runeCount a + runeCount m ≤ (codePoints (a ++ (m ++ c))).length ∧
      (((codePoints (a ++ (m ++ c))).drop (runeCount a)).take (runeCount m)).flatten = m := by
  have hcode : codePoints (a ++ (m ++ c)) = codePoints a ++ (codePoints m ++ codePoints c) := by
    simp only [codePoints, hstart, hend, List.map_append]
  have ha : runeCount a = (codePoints a).length := by simp [runeCount, codePoints]
  have hlen : runeCount m = (codePoints m).length := by simp [runeCount, codePoints]
  refine ⟨Nat.lt_add_of_pos_right (runeCount_pos hm), ?_, ?_⟩
  · rw [hcode, ha, hlen]
    simp only [List.length_append]
    omega
  · rw [hcode, ha, hlen, List.drop_left, List.take_left, flatten_codePoints]

end NewApi.Lib.Utf8
