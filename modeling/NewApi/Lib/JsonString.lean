/-
  NewApi.Lib.JsonString

  The text between the quotes of a JSON string, as `encoding/json` reads it:
  `unquote` resolves the escapes.

  A text is a list of bytes that need not be UTF-8; what is unquoted is a list of
  code points, with U+FFFD for every byte that does not decode.
-/

import Mathlib.Data.List.Basic

namespace NewApi.Lib

/-! ## Reading a list in pieces -/

section Chunks

variable {α β : Type*}

/-- Reads of a list after `skip` elements: `read` is given an element and what
    follows, and says how many of those belong to it. -/
def chunksFrom (read : β → List β → α × Nat) : Nat → List β → List α
  | _, [] => []
  | skip + 1, _ :: rest => chunksFrom read skip rest
  | 0, b :: rest => (read b rest).1 :: chunksFrom read (read b rest).2 rest

variable (read : β → List β → α × Nat)

def chunks (l : List β) : List α := chunksFrom read 0 l

theorem chunksFrom_eq (skip : Nat) (l : List β) :
    chunksFrom read skip l = chunks read (l.drop skip) := by
  induction l generalizing skip with
  | nil => cases skip <;> rfl
  | cons b rest ih =>
    cases skip with
    | zero => rfl
    | succ skip => exact ih skip

theorem chunks_cons (b : β) (rest : List β) :
    chunks read (b :: rest) = (read b rest).1 :: chunks read (rest.drop (read b rest).2) := by
  show (read b rest).1 :: chunksFrom read (read b rest).2 rest = _
  rw [chunksFrom_eq]

end Chunks

namespace Json

abbrev Bytes := List UInt8

def ascii (c : Char) : UInt8 := UInt8.ofNat c.toNat

/-! ## Runes -/

/-- `utf8.DecodeRune`; `none` is `RuneError` of width 1. -/
def decodeRune (l : Bytes) : Option Char := l.toByteArray.utf8DecodeChar? 0

theorem decodeRune_append (c : Char) (rest : Bytes) :
    decodeRune (String.utf8EncodeChar c ++ rest) = some c := by
  unfold decodeRune
  rw [List.toByteArray_append]
  exact ByteArray.utf8DecodeChar?_utf8EncodeChar_append

theorem encode_eq_cons (c : Char) :
    ∃ b conts, String.utf8EncodeChar c = b :: conts ∧ conts.length = c.utf8Size - 1 ∧
      ∀ x ∈ conts, ¬ x.IsUTF8FirstByte := by
  have hlen := String.length_utf8EncodeChar c
  cases henc : String.utf8EncodeChar c with
  | nil =>
    rw [henc] at hlen
    have hpos := c.utf8Size_pos
    exact absurd hlen (Nat.ne_of_lt hpos)
  | cons b conts =>
    rw [henc, List.length_cons] at hlen
    refine ⟨b, conts, rfl, by omega, fun x hx hfirst => ?_⟩
    obtain ⟨i, hi, rfl⟩ := List.mem_iff_getElem.1 hx
    have hi' : i + 1 < (String.utf8EncodeChar c).length := by
      rw [henc, List.length_cons]
      omega
    have hget : (String.utf8EncodeChar c)[i + 1] = conts[i] := by
      simp only [henc, List.getElem_cons_succ]
    rw [← hget, UInt8.isUTF8FirstByte_getElem_utf8EncodeChar] at hfirst
    exact absurd hfirst (Nat.succ_ne_zero i)

/-! ## Escapes -/

/-- What the letter after a backslash stands for, `u` apart. -/
def simpleEscapes : List (UInt8 × Char) :=
  [(ascii '"', '"'), (ascii '\\', '\\'), (ascii '/', '/'), (ascii 'b', '\x08'),
    (ascii 'f', '\x0c'), (ascii 'n', '\n'), (ascii 'r', '\r'), (ascii 't', '\t')]

def simpleEscape (e : UInt8) : Option Char := simpleEscapes.lookup e

variable (b : UInt8)

def hexValue : Option Nat :=
  if ascii '0' ≤ b ∧ b ≤ ascii '9' then some (b.toNat - 48)
  else if ascii 'a' ≤ b ∧ b ≤ ascii 'f' then some (b.toNat - 87)
  else if ascii 'A' ≤ b ∧ b ≤ ascii 'F' then some (b.toNat - 55)
  else none

def hex4 : Bytes → Option Nat
  | a :: b :: c :: d :: _ =>
    (hexValue a).bind fun a => (hexValue b).bind fun b => (hexValue c).bind fun c =>
      (hexValue d).map fun d => ((a * 16 + b) * 16 + c) * 16 + d
  | _ => none

def getu4 : Bytes → Option Nat
  | x :: y :: rest => if x = ascii '\\' ∧ y = ascii 'u' then hex4 rest else none
  | _ => none

def isSurrogate (r : Nat) : Bool := 0xD800 ≤ r && r < 0xE000

/-- `utf16.DecodeRune`; `none` is the replacement character. -/
def decodeSurrogates (r1 r2 : Nat) : Option Char :=
  if 0xD800 ≤ r1 ∧ r1 < 0xDC00 ∧ 0xDC00 ≤ r2 ∧ r2 < 0xE000 then
    some (Char.ofNat ((r1 - 0xD800) * 0x400 + (r2 - 0xDC00) + 0x10000))
  else none

/-- The rune of a pair, where the text begins with the escape of its second half. -/
def pairRune (r1 : Nat) (l : Bytes) : Option Char := (getu4 l).bind (decodeSurrogates r1)

def replacementChar : Char := '\ufffd'

variable (rest : Bytes)

/-- The rune of `\uXXXX`, where `rest` follows the `u`, and the bytes taken after
    the backslash. -/
def readEscape : Char × Nat :=
  match hex4 rest with
  | none => (replacementChar, 1)
  | some rr =>
    if isSurrogate rr then
      match pairRune rr (rest.drop 4) with
      | some c => (c, 11)
      | none => (replacementChar, 5)
    else (Char.ofNat rr, 5)

/-- One turn of the loop of `unquoteBytes`, from the byte `b`.  The scanner has
    let no other escapes through. -/
def readRune : Char × Nat :=
  if b = ascii '\\' then
    match rest with
    | [] => (replacementChar, 0)
    | e :: rest' =>
      match simpleEscape e with
      | some c => (c, 1)
      | none => readEscape rest'
  else if b < 0x80 then (Char.ofNat b.toNat, 0)
  else
    match decodeRune (b :: rest) with
    | some c => (c, c.utf8Size - 1)
    | none => (replacementChar, 0)

/-- `unquoteBytes` -/
def unquote (raw : Bytes) : List Char := chunks readRune raw

/-- What the scanner accepts between two quotes. -/
inductive Content : Bytes → Prop where
  | nil : Content []
  | plain {b : UInt8} {rest : Bytes} (hctl : 0x20 ≤ b) (hquote : b ≠ ascii '"')
      (hslash : b ≠ ascii '\\') (h : Content rest) : Content (b :: rest)
  | short {e : UInt8} {c : Char} {rest : Bytes} (he : simpleEscape e = some c)
      (h : Content rest) : Content (ascii '\\' :: e :: rest)
  | unicode {a b c d : UInt8} {n : Nat} {rest : Bytes} (hn : hex4 [a, b, c, d] = some n)
      (h : Content rest) : Content (ascii '\\' :: ascii 'u' :: a :: b :: c :: d :: rest)

/-! ## One rune -/

theorem getu4_unicode : getu4 (ascii '\\' :: ascii 'u' :: rest) = hex4 rest := by
  unfold getu4
  exact if_pos ⟨rfl, rfl⟩

theorem readRune_of_lt {b : UInt8} (hslash : b ≠ ascii '\\') (hb : b < 0x80) (rest : Bytes) :
    readRune b rest = (Char.ofNat b.toNat, 0) := by
  unfold readRune
  rw [if_neg hslash, if_pos hb]

theorem readRune_of_le {b : UInt8} (hb : ¬ b < 0x80) (rest : Bytes) :
    readRune b rest = (((decodeRune (b :: rest)).getD replacementChar),
      ((decodeRune (b :: rest)).map fun c => c.utf8Size - 1).getD 0) := by
  have hslash : b ≠ ascii '\\' := by
    rintro rfl
    exact hb (by decide)
  unfold readRune
  rw [if_neg hslash, if_neg hb]
  cases decodeRune (b :: rest) <;> rfl

theorem readRune_short {e : UInt8} {c : Char} (he : simpleEscape e = some c) (rest : Bytes) :
    readRune (ascii '\\') (e :: rest) = (c, 1) := by
  unfold readRune
  rw [if_pos rfl]
  simp only [he]

theorem readRune_unicode : readRune (ascii '\\') (ascii 'u' :: rest) = readEscape rest := by
  have hnone : simpleEscape (ascii 'u') = none := by decide
  unfold readRune
  rw [if_pos rfl]
  simp only [hnone]

theorem unquote_cons :
    unquote (b :: rest) = (readRune b rest).1 :: unquote (rest.drop (readRune b rest).2) :=
  chunks_cons _ _ _

theorem readEscape_eq {a b c d : UInt8} {n : Nat} (hn : hex4 [a, b, c, d] = some n)
    (rest : Bytes) : readEscape (a :: b :: c :: d :: rest) =
      if isSurrogate n then
        ((pairRune n rest).getD replacementChar, if (pairRune n rest).isSome then 11 else 5)
      else (Char.ofNat n, 5) := by
  have hn' : hex4 (a :: b :: c :: d :: rest) = some n := hn
  unfold readEscape
  rw [hn']
  show (if isSurrogate n then _ else _) = _
  congr 1
  show (match pairRune n rest with | some c => (c, 11) | none => (replacementChar, 5)) = _
  cases pairRune n rest <;> rfl

/-! ## Unquoting -/

theorem encode_of_lt {c : Char} (h : c.toNat < 0x80) :
    ∃ b : UInt8, String.utf8EncodeChar c = [b] ∧ b.toNat = c.toNat := by
  have hsize : c.utf8Size = 1 := Char.utf8Size_eq_one_iff.2 (Nat.le_of_lt_succ h)
  refine ⟨c.val.toUInt8, String.utf8EncodeChar_eq_singleton hsize, ?_⟩
  rw [UInt32.toNat_toUInt8]
  exact Nat.mod_eq_of_lt (Nat.lt_trans h (by decide))

theorem encode_of_le {c : Char} (h : ¬ c.toNat < 0x80) :
    ∃ b conts, String.utf8EncodeChar c = b :: conts ∧ conts.length = c.utf8Size - 1 ∧
      ¬ b < 0x80 ∧ ∀ x ∈ conts, ¬ x.IsUTF8FirstByte := by
  obtain ⟨b, conts, henc, hlen, hconts⟩ := encode_eq_cons c
  refine ⟨b, conts, henc, hlen, fun hlt => h ?_, hconts⟩
  have hb : b.toNat < 0x80 := hlt
  -- the byte would decode to an ASCII character
  have hall : ∀ n < 0x80, (Char.ofNat n).toNat = n := by decide
  have hchar := hall b.toNat hb
  obtain ⟨b', henc', hb'⟩ := encode_of_lt (c := Char.ofNat b.toNat) (by rw [hchar]; exact hb)
  obtain rfl : b' = b := UInt8.toNat_inj.1 (hb'.trans hchar)
  have hdec := decodeRune_append c []
  have hdec' := decodeRune_append (Char.ofNat b'.toNat) conts
  rw [henc, List.append_nil] at hdec
  rw [henc', List.singleton_append, hdec] at hdec'
  rw [Option.some.inj hdec', hchar]
  exact hb

theorem unquote_encode {c : Char} (hslash : c ≠ '\\') (rest : Bytes) :
    unquote (String.utf8EncodeChar c ++ rest) = c :: unquote rest := by
  by_cases hlt : c.toNat < 0x80
  · obtain ⟨b, henc, hb⟩ := encode_of_lt hlt
    have hb' : b ≠ ascii '\\' := by
      rintro rfl
      exact hslash (Char.toNat_inj.1 hb.symm)
    have hblt : b < 0x80 := by
      show b.toNat < 0x80
      omega
    rw [henc, List.singleton_append, unquote_cons, readRune_of_lt hb' hblt, hb, Char.ofNat_toNat]
    rfl
  obtain ⟨b, conts, henc, hlen, hb, -⟩ := encode_of_le hlt
  have hdec := decodeRune_append c rest
  rw [henc, List.cons_append] at hdec ⊢
  rw [unquote_cons, readRune_of_le hb, hdec]
  show c :: unquote ((conts ++ rest).drop (c.utf8Size - 1)) = _
  rw [← hlen, List.drop_left]

end Json

end NewApi.Lib
