/-
  NewApi.Lib.Decimal

  The text of a 64-bit integer and of a boolean as a store keeps it, and the
  readers `strconv.ParseInt(s, 10, 64)` and `strconv.ParseBool`: what is written
  is read back.
-/

import Mathlib.Algebra.Group.Nat.Defs

namespace NewApi.Lib

def digitsValue (cs : List Char) : Option Nat :=
  if cs ≠ [] ∧ cs.all Char.isDigit then some (Nat.ofDigitChars 10 cs 0) else none

theorem digitsValue_toDigits (n : Nat) : digitsValue (Nat.toDigits 10 n) = some n := by
  have hdigits : (Nat.toDigits 10 n).all Char.isDigit = true := by
    rw [List.all_eq_true]
    intro c hc
    exact Nat.isDigit_of_mem_toDigits (by decide) (by decide) hc
  unfold digitsValue
  rw [if_pos ⟨Nat.toDigits_ne_nil, hdigits⟩, Nat.ofDigitChars_ten_toDigits]

/-- `strconv.FormatInt(x, 10)` -/
def formatInt (x : Int64) : String :=
  String.ofList
    (if x.toInt < 0 then '-' :: Nat.toDigits 10 x.toInt.natAbs else Nat.toDigits 10 x.toInt.natAbs)

/-- `strconv.ParseInt(s, 10, 64)`; `none` is any of its errors. -/
def parseInt (s : String) : Option Int64 :=
  match s.toList with
  | '-' :: cs =>
    (digitsValue cs).bind fun n => if n ≤ 2 ^ 63 then some (Int64.ofInt (-n)) else none
  | '+' :: cs =>
    (digitsValue cs).bind fun n => if n < 2 ^ 63 then some (Int64.ofInt n) else none
  | cs => (digitsValue cs).bind fun n => if n < 2 ^ 63 then some (Int64.ofInt n) else none

theorem parseInt_unsigned (n : Nat) (hn : n < 2 ^ 63) :
    parseInt (String.ofList (Nat.toDigits 10 n)) = some (Int64.ofInt n) := by
  have hvalue := digitsValue_toDigits n
  have hdigit : ∀ c ∈ Nat.toDigits 10 n, c.isDigit :=
    fun c hc => Nat.isDigit_of_mem_toDigits (by decide) (by decide) hc
  unfold parseInt
  rw [String.toList_ofList]
  split
  · rename_i cs heq
    rw [heq] at hdigit
    exact absurd (hdigit '-' List.mem_cons_self) (by decide)
  · rename_i cs heq
    rw [heq] at hdigit
    exact absurd (hdigit '+' List.mem_cons_self) (by decide)
  · rw [hvalue, Option.bind_some, if_pos hn]

@[simp] theorem parseInt_formatInt (x : Int64) : parseInt (formatInt x) = some x := by
  have hlt := x.toInt_lt
  have hle := x.le_toInt
  unfold formatInt
  by_cases hneg : x.toInt < 0
  · have habs : (x.toInt.natAbs : Int) = -x.toInt := by omega
    rw [if_pos hneg]
    unfold parseInt
    rw [String.toList_ofList]
    show ((digitsValue (Nat.toDigits 10 x.toInt.natAbs)).bind _) = _
    rw [digitsValue_toDigits, Option.bind_some, if_pos (by omega), habs, Int.neg_neg,
      Int64.ofInt_toInt]
  · have habs : (x.toInt.natAbs : Int) = x.toInt := by omega
    rw [if_neg hneg, parseInt_unsigned _ (by omega), habs, Int64.ofInt_toInt]

def formatBool (b : Bool) : String := if b then "true" else "false"

def parseBool (s : String) : Option Bool :=
  if s ∈ ["1", "t", "T", "TRUE", "true", "True"] then some true
  else if s ∈ ["0", "f", "F", "FALSE", "false", "False"] then some false
  else none

@[simp] theorem parseBool_formatBool (b : Bool) : parseBool (formatBool b) = some b := by
  cases b <;> decide

end NewApi.Lib
