/-
  NewApi.Convert.GeminiPartialPaths

  Paths as they are written, and that the parser of the partial arguments reads
  them back: members after a dot, members in quotes of either kind with their
  escapes, and indexes of arrays.
-/

import NewApi.Convert.GeminiPartialArgs
import Mathlib.Data.List.Forall2
import Mathlib.Data.List.TakeDrop

namespace NewApi.GeminiSource

open List (append_assoc cons_append mem_cons mem_cons_of_mem mem_cons_self)
open NewApi.Lib

/-! ## Characters in quotes -/

/-- A character of a member in quotes, as it is written. -/
inductive QuotedChar where
  | plain (c : Char)
  | short (e : Char)
  | unicode (a b c d : Char)
  | pair (a b c d e f g h : Char)

def QuotedChar.text (q : QuotedChar) : List Char :=
  match q with
  | .plain c => [c]
  | .short e => ['\\', e]
  | .unicode a b c d => ['\\', 'u', a, b, c, d]
  | .pair a b c d e f g h => ['\\', 'u', a, b, c, d, '\\', 'u', e, f, g, h]

def hexNat (a b c d : Char) : Nat := (Json.hex4 ([a, b, c, d].map Json.ascii)).getD 0

/-- The character that is meant. -/
def QuotedChar.char (q : QuotedChar) : Char :=
  match q with
  | .plain c => c
  | .short 'b' => '\x08'
  | .short 'f' => '\x0c'
  | .short 'n' => '\n'
  | .short 'r' => '\r'
  | .short 't' => '\t'
  | .short e => e
  | .unicode a b c d => Char.ofNat (hexNat a b c d)
  | .pair a b c d e f g h =>
    (Json.decodeSurrogates (hexNat a b c d) (hexNat e f g h)).getD Json.replacementChar

/-- Decided along the list, not over all characters. -/
instance decidableForallMemChar (p : Char → Prop) [DecidablePred p] (cs : List Char) :
    Decidable (∀ c ∈ cs, p c) := List.decidableBAll p cs

def escapeLetters : List Char := ['\\', '/', 'b', 'f', 'n', 'r', 't']

/-- How a character may be written between two quotes. -/
def QuotedChar.Valid (quote : Char) (q : QuotedChar) : Prop :=
  match q with
  | .plain c => ' ' ≤ c ∧ c ≠ '\\' ∧ c ≠ quote
  | .short e => e = quote ∨ e ∈ escapeLetters
  | .unicode a b c d =>
    (∀ x ∈ [a, b, c, d], isHex x) ∧ Json.isSurrogate (hexNat a b c d) = false
  | .pair a b c d e f g h =>
    (∀ x ∈ [a, b, c, d, e, f, g, h], isHex x) ∧
      (Json.decodeSurrogates (hexNat a b c d) (hexNat e f g h)).isSome

instance (quote : Char) (q : QuotedChar) : Decidable (q.Valid quote) :=
  match q with
  | .plain _ => inferInstanceAs (Decidable (_ ∧ _ ∧ _))
  | .short _ => inferInstanceAs (Decidable (_ ∨ _))
  | .unicode _ _ _ _ => inferInstanceAs (Decidable (_ ∧ _))
  | .pair _ _ _ _ _ _ _ _ => inferInstanceAs (Decidable (_ ∧ _))

def QuotedChar.json (q : QuotedChar) : List Char :=
  match q with
  | .plain '"' => ['\\', '"']
  | .short '\'' => ['\'']
  | q => q.text

variable {c : Char}

theorem pair_hex {a b d e f g i : Char} (h : (QuotedChar.pair a b c d e f g i).Valid quote) :
    (∀ x ∈ [a, b, c, d], isHex x) ∧ ∀ x ∈ [e, f, g, i], isHex x :=
  @List.forall_mem_append _ _ [a, b, c, d] [e, f, g, i] |>.1 h.1

theorem hex_facts (h : isHex c) :
    c ≠ '\\' ∧ c ≠ '"' ∧ c ≠ '\'' ∧ ' ' ≤ c ∧ c.toNat < 0x80 ∧ (Json.hexValue (Json.ascii c)).isSome := by
  have hlt : c.toNat < 0x80 := by
    simp only [isHex, Char.isDigit, Bool.or_eq_true, Bool.and_eq_true, decide_eq_true_eq] at h
    rcases h with (⟨-, h⟩ | ⟨-, h⟩) | ⟨-, h⟩
    · exact Nat.lt_of_le_of_lt h (by decide)
    · exact Nat.lt_of_le_of_lt h (by decide)
    · exact Nat.lt_of_le_of_lt h (by decide)
  have hall : ∀ n < 0x80, isHex (Char.ofNat n) →
      Char.ofNat n ≠ '\\' ∧ Char.ofNat n ≠ '"' ∧ Char.ofNat n ≠ '\'' ∧ ' ' ≤ Char.ofNat n ∧
        (Json.hexValue (Json.ascii (Char.ofNat n))).isSome := by decide +kernel
  have hc := hall c.toNat hlt
  rw [Char.ofNat_toNat] at hc
  obtain ⟨h1, h2, h3, h4, h5⟩ := hc h
  exact ⟨h1, h2, h3, h4, hlt, h5⟩

theorem encode_ascii (h : c.toNat < 0x80) : String.utf8EncodeChar c = [Json.ascii c] := by
  obtain ⟨b, henc, hb⟩ := Json.encode_of_lt h
  rw [henc, Json.ascii, ← hb, UInt8.ofNat_toNat]

theorem hex4_of_isHex {a b d : Char} (h : ∀ x ∈ [a, b, c, d], isHex x) :
    Json.hex4 ([a, b, c, d].map Json.ascii) = some (hexNat a b c d) := by
  simp only [mem_cons, List.not_mem_nil, or_false, forall_eq_or_imp, forall_eq] at h
  obtain ⟨ha, hb, hc, hd⟩ := h
  obtain ⟨va, hva⟩ := Option.isSome_iff_exists.mp (hex_facts ha).2.2.2.2.2
  obtain ⟨vb, hvb⟩ := Option.isSome_iff_exists.mp (hex_facts hb).2.2.2.2.2
  obtain ⟨vc, hvc⟩ := Option.isSome_iff_exists.mp (hex_facts hc).2.2.2.2.2
  obtain ⟨vd, hvd⟩ := Option.isSome_iff_exists.mp (hex_facts hd).2.2.2.2.2
  simp [hexNat, Json.hex4, hva, hvb, hvc, hvd]

variable {quote : Char}

theorem scanMember_plain (hslash : c ≠ '\\') (rest : List Char) : scanMember quote (c :: rest) =
      if c = quote then some ([], rest)
      else (scanMember quote rest).map fun (inner, after) => (c :: inner, after) := by
  rw [scanMember]
  · rintro c' rest' h -
    exact hslash h
  · rintro h -
    exact hslash h

theorem scanMember_slash (quote e : Char) (rest : List Char) :
    scanMember quote ('\\' :: e :: rest) =
      (scanMember quote rest).map fun (inner, after) => ('\\' :: e :: inner, after) := by
  rw [scanMember]

variable {cs : List Char}

theorem scanMember_run (h : ∀ c ∈ cs, c ≠ '\\' ∧ c ≠ quote) (rest : List Char) :
    scanMember quote (cs ++ rest) =
      (scanMember quote rest).map fun (inner, after) => (cs ++ inner, after) := by
  induction cs with
  | nil =>
    rw [List.nil_append]
    cases scanMember quote rest <;> rfl
  | cons c cs ih =>
    obtain ⟨hslash, hquote⟩ := h c mem_cons_self
    rw [cons_append, scanMember_plain hslash, if_neg hquote,
      ih fun c hc => h c (mem_cons_of_mem _ hc), Option.map_map]
    rfl

def IsQuote (c : Char) : Prop := c = '\'' ∨ c = '"'

theorem hex_not_quote (hquote : IsQuote quote) (h : isHex c) : c ≠ '\\' ∧ c ≠ quote := by
  have hc := hex_facts h
  rcases hquote with rfl | rfl
  · exact ⟨hc.1, hc.2.2.1⟩
  · exact ⟨hc.1, hc.2.1⟩

variable {q : QuotedChar}

theorem scanMember_text (hquote : IsQuote quote) (h : q.Valid quote) (rest : List Char) :
    scanMember quote (q.text ++ rest) =
      (scanMember quote rest).map fun (inner, after) => (q.text ++ inner, after) := by
  cases q with
  | plain c =>
    refine scanMember_run (fun c' hc' => ?_) rest
    rw [List.mem_singleton.mp hc']
    exact ⟨h.2.1, h.2.2⟩
  | short e => exact scanMember_slash quote e rest
  | unicode a b c d =>
    have hrun := scanMember_run (fun x hx => hex_not_quote hquote (h.1 x hx)) rest
    show scanMember quote ('\\' :: 'u' :: ([a, b, c, d] ++ rest)) = _
    rw [scanMember_slash, hrun, Option.map_map]
    rfl
  | pair a b c d e f g i =>
    obtain ⟨hfirst, hsecond⟩ := pair_hex h
    have hrun := scanMember_run (fun x hx => hex_not_quote hquote (hsecond x hx)) rest
    have hrun' := scanMember_run (fun x hx => hex_not_quote hquote (hfirst x hx))
      ('\\' :: 'u' :: ([e, f, g, i] ++ rest))
    show scanMember quote ('\\' :: 'u' :: ([a, b, c, d] ++ '\\' :: 'u' :: ([e, f, g, i] ++ rest))) = _
    rw [scanMember_slash, hrun', scanMember_slash, hrun, Option.map_map, Option.map_map, Option.map_map]
    rfl

def quotedText (qs : List QuotedChar) : List Char := qs.flatMap QuotedChar.text

variable {qs : List QuotedChar}

theorem scanMember_quoted (hquote : IsQuote quote)
    (h : ∀ q ∈ qs, q.Valid quote) (rest : List Char) :
    scanMember quote (quotedText qs ++ quote :: rest) = some (quotedText qs, rest) := by
  induction qs with
  | nil =>
    have hslash : quote ≠ '\\' := by rcases hquote with rfl | rfl <;> decide
    exact (scanMember_plain hslash rest).trans (if_pos rfl)
  | cons q qs ih =>
    have hrest := ih fun q hq => h q (List.mem_cons_of_mem _ hq)
    show scanMember quote ((q.text ++ quotedText qs) ++ quote :: rest) = _
    rw [List.append_assoc, scanMember_text hquote (h q List.mem_cons_self), hrest]
    rfl

/-! ## From quotes to a JSON string -/

theorem unescape_plain (h : c ≠ '\\') (rest : List Char) :
    unescapeApostrophes (c :: rest) = c :: unescapeApostrophes rest := by
  rw [unescapeApostrophes]
  rintro rest' hc -
  exact h hc

variable {e : Char}

theorem unescape_slash (h : e ≠ '\'') (rest : List Char) :
    unescapeApostrophes ('\\' :: e :: rest) = '\\' :: unescapeApostrophes (e :: rest) := by
  rw [unescapeApostrophes]
  rintro rest' - he
  exact h (List.cons.inj he).1

theorem unescape_run (h : ∀ c ∈ cs, c ≠ '\\') (rest : List Char) :
    unescapeApostrophes (cs ++ rest) = cs ++ unescapeApostrophes rest := by
  induction cs with
  | nil => rfl
  | cons c cs ih =>
    rw [List.cons_append, unescape_plain (h c List.mem_cons_self),
      ih fun c hc => h c (List.mem_cons_of_mem _ hc), List.cons_append]

theorem escapeQuotes_run (h : ∀ c ∈ cs, c ≠ '"') : escapeQuotes cs = cs := by
  induction cs with
  | nil => rfl
  | cons c cs ih =>
    show (if c = '"' then _ else _) ++ escapeQuotes cs = _
    rw [if_neg (h c List.mem_cons_self), ih fun c hc => h c (List.mem_cons_of_mem _ hc)]
    rfl

theorem escapeQuotes_append (cs ds : List Char) :
    escapeQuotes (cs ++ ds) = escapeQuotes cs ++ escapeQuotes ds := List.flatMap_append

theorem hex_not_special (h : ∀ x ∈ cs, isHex x) :
    ∀ x ∈ cs, x ≠ '\\' ∧ x ≠ '"' := fun x hx => ⟨(hex_facts (h x hx)).1, (hex_facts (h x hx)).2.1⟩

theorem escapeLetters_ne (h : e ∈ escapeLetters) : e ≠ '\'' ∧ e ≠ '"' ∧ e ≠ 'u' := by
  have hall : ∀ e ∈ escapeLetters, e ≠ '\'' ∧ e ≠ '"' ∧ e ≠ 'u' := by decide
  exact hall e h

theorem unescape_unicode (h : ∀ x ∈ cs, isHex x) (rest : List Char) :
    unescapeApostrophes (escapeQuotes ('\\' :: 'u' :: cs) ++ rest) =
      '\\' :: 'u' :: cs ++ unescapeApostrophes rest := by
  have hu : ∀ c ∈ 'u' :: cs, c ≠ '\\' ∧ c ≠ '"' := by
    intro c hc
    rcases List.mem_cons.mp hc with rfl | hc
    · decide
    · exact hex_not_special h c hc
  have hquotes : escapeQuotes ('\\' :: 'u' :: cs) = '\\' :: 'u' :: cs := by
    refine escapeQuotes_run fun c hc => ?_
    rcases List.mem_cons.mp hc with rfl | hc
    · decide
    · exact (hu c hc).2
  rw [hquotes]
  show unescapeApostrophes ('\\' :: 'u' :: (cs ++ rest)) = _
  rw [unescape_slash (by decide)]
  exact congrArg ('\\' :: ·) (unescape_run (fun c hc => (hu c hc).1) rest)

theorem plain_json (h : c ≠ '"') : (QuotedChar.plain c).json = [c] := by
  unfold QuotedChar.json
  split
  · rename_i hplain
    exact absurd (QuotedChar.plain.inj hplain) h
  · rename_i hshort
    cases hshort
  · rfl

theorem short_json (h : e ≠ '\'') : (QuotedChar.short e).json = ['\\', e] := by
  unfold QuotedChar.json
  split
  · rename_i hplain
    cases hplain
  · rename_i hshort
    exact absurd (QuotedChar.short.inj hshort) h
  · rfl

variable {rest : List Char}

theorem unescape_text (h : q.Valid '\'') (hrest : rest.head? ≠ some '\'') :
    unescapeApostrophes (escapeQuotes q.text ++ rest) = q.json ++ unescapeApostrophes rest := by
  cases q with
  | plain c =>
    by_cases hquote : c = '"'
    · subst hquote
      show unescapeApostrophes ('\\' :: '"' :: rest) = _
      rw [unescape_slash (by decide), unescape_plain (by decide)]
      rfl
    rw [plain_json hquote]
    show unescapeApostrophes (escapeQuotes [c] ++ rest) = _
    rw [escapeQuotes_run (by simpa using hquote)]
    exact unescape_plain h.2.1 rest
  | short e =>
    rcases h with rfl | he
    · show unescapeApostrophes ('\\' :: '\'' :: rest) = _
      rw [unescapeApostrophes]
      rfl
    obtain ⟨hapostrophe, hquote, -⟩ := escapeLetters_ne he
    have hquotes : escapeQuotes ['\\', e] = ['\\', e] := escapeQuotes_run (by simpa using hquote)
    rw [short_json hapostrophe]
    show unescapeApostrophes (escapeQuotes ['\\', e] ++ rest) = _
    rw [hquotes]
    show unescapeApostrophes ('\\' :: e :: rest) = _
    rw [unescape_slash hapostrophe]
    by_cases hslash : e = '\\'
    · subst hslash
      -- a backslash that is escaped does not escape what follows
      cases rest with
      | nil => rfl
      | cons c rest =>
        have hc : c ≠ '\'' := fun hc => hrest (congrArg some hc)
        rw [unescape_slash hc]
        rfl
    · rw [unescape_plain hslash]
      rfl
  | unicode a b c d => exact unescape_unicode h.1 rest
  | pair a b c d e f g i =>
    obtain ⟨hfirst, hsecond⟩ := pair_hex h
    have htext : (QuotedChar.pair a b c d e f g i).text =
        ('\\' :: 'u' :: [a, b, c, d]) ++ '\\' :: 'u' :: [e, f, g, i] := rfl
    rw [htext, escapeQuotes_append, append_assoc, unescape_unicode hfirst,
      unescape_unicode hsecond]
    rfl

def jsonText (qs : List QuotedChar) : List Char := qs.flatMap QuotedChar.json

theorem head_escapeQuotes (h : ∀ q ∈ qs, q.Valid '\'') :
    (escapeQuotes (quotedText qs)).head? ≠ some '\'' := by
  cases qs with
  | nil => nofun
  | cons q qs =>
    have hq := h q mem_cons_self
    cases q with
    | plain c =>
      show ((if c = '"' then ['\\', '"'] else [c]) ++ escapeQuotes (quotedText qs)).head? ≠ _
      split
      · nofun
      · exact fun hc => hq.2.2 (Option.some.inj hc)
    | short e => nofun
    | unicode a b c d => nofun
    | pair a b c d e f g i => nofun

theorem unescape_quoted (h : ∀ q ∈ qs, q.Valid '\'') :
    unescapeApostrophes (escapeQuotes (quotedText qs)) = jsonText qs := by
  induction qs with
  | nil => rfl
  | cons q qs ih =>
    have hqs : ∀ q ∈ qs, q.Valid '\'' := fun q hq => h q (mem_cons_of_mem _ hq)
    show unescapeApostrophes (escapeQuotes (q.text ++ quotedText qs)) = q.json ++ jsonText qs
    rw [escapeQuotes_append, unescape_text (h q mem_cons_self) (head_escapeQuotes hqs), ih hqs]

theorem json_of_valid (h : q.Valid '"') : q.json = q.text := by
  unfold QuotedChar.json
  split
  · exact absurd rfl h.2.2
  · rcases h with h | h
    · exact absurd h (by decide)
    · exact absurd rfl (escapeLetters_ne h).1
  · rfl

theorem quoted_content (hquote : IsQuote quote) (h : ∀ q ∈ qs, q.Valid quote) :
    (if quote = '\'' then unescapeApostrophes (escapeQuotes (quotedText qs)) else quotedText qs) =
      jsonText qs := by
  rcases hquote with rfl | rfl
  · rw [if_pos rfl, unescape_quoted h]
  · rw [if_neg (by decide), quotedText, jsonText, List.flatMap_def, List.flatMap_def,
      List.map_congr_left fun q hq => (json_of_valid (h q hq)).symm]

/-! ## What a JSON string stands for -/

theorem validContent_plain (hslash : c ≠ '\\') (rest : List Char) :
    validContent (c :: rest) = (c ≠ '"' && ' ' ≤ c && validContent rest) := by
  rw [validContent]
  · rintro a b c' d rest' hc -
    exact hslash hc
  · rintro e rest' hc -
    exact hslash hc
  · rintro hc -
    exact hslash hc

theorem validContent_short (he : e ≠ 'u') (rest : List Char) : validContent ('\\' :: e :: rest) =
      (e ∈ ['"', '\\', '/', 'b', 'f', 'n', 'r', 't'] && validContent rest) := by
  rw [validContent]
  rintro a b c d rest' hu -
  exact he hu

theorem validContent_unicode {a b d : Char} (h : ∀ x ∈ [a, b, c, d], isHex x) (rest : List Char) :
    validContent ('\\' :: 'u' :: a :: b :: c :: d :: rest) = validContent rest := by
  rw [validContent]
  simp only [List.mem_cons, List.not_mem_nil, or_false, forall_eq_or_imp, forall_eq] at h
  simp [h.1, h.2.1, h.2.2.1, h.2.2.2]

def bytesOf (cs : List Char) : Json.Bytes := cs.flatMap String.utf8EncodeChar

theorem bytesOf_ascii (h : ∀ c ∈ cs, c.toNat < 0x80) (rest : List Char) :
    bytesOf (cs ++ rest) = cs.map Json.ascii ++ bytesOf rest := by
  induction cs with
  | nil => rfl
  | cons c cs ih =>
    show String.utf8EncodeChar c ++ bytesOf (cs ++ rest) = _
    rw [encode_ascii (h c List.mem_cons_self), ih fun c hc => h c (List.mem_cons_of_mem _ hc)]
    rfl

theorem unquote_short {e : UInt8} (he : Json.simpleEscape e = some c) (rest : Json.Bytes) :
    Json.unquote (Json.ascii '\\' :: e :: rest) = c :: Json.unquote rest := by
  rw [Json.unquote_cons, Json.readRune_short he]
  rfl

theorem unquote_unicode {a b c d : UInt8} {n : Nat} (hn : Json.hex4 [a, b, c, d] = some n)
    (hsingle : Json.isSurrogate n = false) (rest : Json.Bytes) :
    Json.unquote (Json.ascii '\\' :: Json.ascii 'u' :: a :: b :: c :: d :: rest) =
      Char.ofNat n :: Json.unquote rest := by
  rw [Json.unquote_cons, Json.readRune_unicode, Json.readEscape_eq hn, hsingle]
  rfl

theorem unquote_pair {a b c d e f g i : UInt8} {m n : Nat} {r : Char}
    (hm : Json.hex4 [a, b, c, d] = some m) (hn : Json.hex4 [e, f, g, i] = some n)
    (hr : Json.decodeSurrogates m n = some r) (rest : Json.Bytes) :
    Json.unquote (Json.ascii '\\' :: Json.ascii 'u' :: a :: b :: c :: d :: Json.ascii '\\' ::
        Json.ascii 'u' :: e :: f :: g :: i :: rest) = r :: Json.unquote rest := by
  have hsurrogate : Json.isSurrogate m = true := by
    unfold Json.decodeSurrogates at hr
    split at hr
    · rename_i hrange
      unfold Json.isSurrogate
      rw [Bool.and_eq_true, decide_eq_true_eq, decide_eq_true_eq]
      omega
    · cases hr
  have hsecond : Json.hex4 (e :: f :: g :: i :: rest) = some n := hn
  have hpair : Json.pairRune m (Json.ascii '\\' :: Json.ascii 'u' :: e :: f :: g :: i :: rest) =
      some r := by
    unfold Json.pairRune
    rw [Json.getu4_unicode, hsecond]
    exact hr
  rw [Json.unquote_cons, Json.readRune_unicode, Json.readEscape_eq hm, hsurrogate, hpair]
  rfl

theorem slash_u_ascii : ∀ x ∈ ['\\', 'u'], x.toNat < 0x80 := by decide

section
variable (hquote : IsQuote quote)
include hquote

theorem short_escape (h : e = quote ∨ e ∈ escapeLetters) (hne : e ≠ '\'') : e.toNat < 0x80 ∧ e ≠ 'u' ∧
      e ∈ ['"', '\\', '/', 'b', 'f', 'n', 'r', 't'] ∧
        Json.simpleEscape (Json.ascii e) = some (QuotedChar.short e).char := by
  have hall : ∀ e ∈ ['"', '\\', '/', 'b', 'f', 'n', 'r', 't'], e.toNat < 0x80 ∧ e ≠ 'u' ∧
      Json.simpleEscape (Json.ascii e) = some (QuotedChar.short e).char := by decide
  have hmem : e ∈ ['"', '\\', '/', 'b', 'f', 'n', 'r', 't'] := by
    rcases h with rfl | h
    · rcases hquote with rfl | rfl
      · exact absurd rfl hne
      · exact mem_cons_self
    · exact mem_cons_of_mem _ h
  obtain ⟨hlt, hu, hescape⟩ := hall e hmem
  exact ⟨hlt, hu, hmem, hescape⟩

omit hquote in
theorem unquote_plain (hslash : c ≠ '\\') (rest : List Char) :
    Json.unquote (bytesOf (c :: rest)) = c :: Json.unquote (bytesOf rest) :=
  Json.unquote_encode hslash _

/-- A character of the JSON string is valid, and stands for what is meant. -/
theorem json_char (h : q.Valid quote) (rest : List Char) :
    validContent (q.json ++ rest) = validContent rest ∧
      Json.unquote (bytesOf (q.json ++ rest)) = q.char :: Json.unquote (bytesOf rest) := by
  cases q with
  | plain c =>
    by_cases hdouble : c = '"'
    · subst hdouble
      refine ⟨?_, ?_⟩
      · show validContent ('\\' :: '"' :: rest) = _
        rw [validContent_short (by decide)]
        rfl
      rw [bytesOf_ascii (by decide)]
      exact unquote_short (by decide) _
    rw [plain_json hdouble]
    refine ⟨?_, unquote_plain h.2.1 rest⟩
    show validContent (c :: rest) = _
    rw [validContent_plain h.2.1]
    simp [hdouble, h.1]
  | short e =>
    by_cases hapostrophe : e = '\''
    · subst hapostrophe
      refine ⟨?_, unquote_plain (by decide) rest⟩
      show validContent ('\'' :: rest) = _
      rw [validContent_plain (by decide)]
      rfl
    obtain ⟨hlt, hu, hmem, hescape⟩ := short_escape hquote h hapostrophe
    rw [short_json hapostrophe]
    refine ⟨?_, ?_⟩
    · show validContent ('\\' :: e :: rest) = _
      rw [validContent_short hu, decide_eq_true hmem, Bool.true_and]
    · rw [bytesOf_ascii (by simpa using hlt)]
      exact unquote_short hescape _
  | unicode a b c d =>
    have hhex := hex4_of_isHex h.1
    refine ⟨validContent_unicode h.1 rest, ?_⟩
    rw [bytesOf_ascii]
    · exact unquote_unicode hhex h.2 _
    intro x hx
    rcases List.mem_append.mp (show x ∈ ['\\', 'u'] ++ [a, b, c, d] from hx) with hx | hx
    · exact slash_u_ascii x hx
    · exact (hex_facts (h.1 x hx)).2.2.2.2.1
  | pair a b c d e f g i =>
    obtain ⟨hfirst, hsecond⟩ := pair_hex h
    obtain ⟨r, hr⟩ := Option.isSome_iff_exists.mp h.2
    refine ⟨?_, ?_⟩
    · show validContent ('\\' :: 'u' :: a :: b :: c :: d :: '\\' :: 'u' :: e :: f :: g :: i :: rest) = _
      rw [validContent_unicode hfirst, validContent_unicode hsecond]
    rw [bytesOf_ascii]
    · have hchar : (QuotedChar.pair a b c d e f g i).char = r := by
        show (Json.decodeSurrogates _ _).getD _ = r
        rw [hr, Option.getD_some]
      rw [hchar]
      exact unquote_pair (hex4_of_isHex hfirst) (hex4_of_isHex hsecond) hr _
    intro x hx
    have hx' : x ∈ ['\\', 'u'] ++ [a, b, c, d] ++ ['\\', 'u'] ++ [e, f, g, i] := hx
    simp only [List.mem_append] at hx'
    rcases hx' with ((hx | hx) | hx) | hx
    · exact slash_u_ascii x hx
    · exact (hex_facts (hfirst x hx)).2.2.2.2.1
    · exact slash_u_ascii x hx
    · exact (hex_facts (hsecond x hx)).2.2.2.2.1

theorem unmarshalString_json (h : ∀ q ∈ qs, q.Valid quote) :
    unmarshalString (jsonText qs) = some (String.ofList (qs.map QuotedChar.char)) := by
  have hall : validContent (jsonText qs) = true ∧
      Json.unquote (bytesOf (jsonText qs)) = qs.map QuotedChar.char := by
    induction qs with
    | nil => exact ⟨rfl, rfl⟩
    | cons q qs ih =>
      obtain ⟨hvalid, hunquote⟩ := ih fun q hq => h q (List.mem_cons_of_mem _ hq)
      obtain ⟨hhead, hchar⟩ := json_char hquote (h q List.mem_cons_self) (jsonText qs)
      show validContent (q.json ++ jsonText qs) = true ∧
        Json.unquote (bytesOf (q.json ++ jsonText qs)) = _
      rw [hhead, hchar, hunquote]
      exact ⟨hvalid, rfl⟩
  unfold unmarshalString
  rw [if_pos hall.1]
  exact congrArg (fun cs => some (String.ofList cs)) hall.2

/-- **What is written in quotes is read back.** -/
theorem parseMember_quoted (h : ∀ q ∈ qs, q.Valid quote) (rest : List Char) :
    parseGeminiPartialArgMember quote (quotedText qs ++ quote :: rest) =
      some (String.ofList (qs.map QuotedChar.char), rest) := by
  unfold parseGeminiPartialArgMember
  rw [scanMember_quoted hquote h]
  simp only [Option.bind_some, quoted_content hquote h, unmarshalString_json hquote h, Option.map_some]

end

/-! ## Paths -/

/-- How a segment may be written: a member after a dot or in quotes, an index in brackets. -/
inductive Spelled : Segment → List Char → Prop where
  | dot {name : List Char} : name ≠ [] → (∀ c ∈ name, c ∉ ['.', '[', ']', '*', '?']) →
      Spelled (.member (String.ofList name)) ('.' :: name)
  | quoted {quote : Char} {qs : List QuotedChar} : IsQuote quote → (∀ q ∈ qs, q.Valid quote) →
      Spelled (.member (String.ofList (qs.map QuotedChar.char)))
        ('[' :: quote :: (quotedText qs ++ [quote, ']']))
  | index (i : Nat) : Spelled (.index i) ('[' :: (Nat.toDigits 10 i ++ [']']))

/-- A path that is written after the dollar sign segment by segment, and does not end in a space. -/
def SpelledPath (path : List Segment) (jsonPath : String) : Prop :=
  ∃ texts, List.Forall₂ Spelled path texts ∧ jsonPath.toList = '$' :: texts.flatten ∧
    ∀ c ∈ jsonPath.toList.getLast?, ¬ Text.isSpace c

def IndexesAllowed (path : List Segment) : Prop :=
  ∀ i, .index i ∈ path → i ≤ maxGeminiPartialArgArrayIndex

theorem span_stop {p : Char → Bool} (h : ∀ c ∈ cs, p c)
    (hrest : ∀ c ∈ rest.head?, ¬ p c) : (cs ++ rest).span p = (cs, rest) := by
  rw [List.span_eq_takeWhile_dropWhile, List.takeWhile_append_of_pos h, List.dropWhile_append_of_pos h]
  cases rest with
  | nil => simp
  | cons c rest =>
    have hc := hrest c rfl
    simp [hc]

theorem spelled_head {s : Segment} {text : List Char} (h : Spelled s text) :
    ∃ c rest, text = c :: rest ∧ (c = '.' ∨ c = '[') := by
  cases h with
  | dot _ _ => exact ⟨_, _, rfl, .inl rfl⟩
  | quoted _ _ | index i => exact ⟨_, _, rfl, .inr rfl⟩

variable {path : List Segment}

theorem spelled_flatten_head {texts : List (List Char)}
    (h : List.Forall₂ Spelled path texts) : ∀ c ∈ texts.flatten.head?, c = '.' ∨ c = '[' := by
  cases h with
  | nil => nofun
  | cons hhead _ =>
    obtain ⟨c, rest, rfl, hc⟩ := spelled_head hhead
    intro c' hc'
    cases hc'
    exact hc

theorem parseSelector_index {i : Nat} (hi : i ≤ maxGeminiPartialArgArrayIndex) (rest : List Char) :
    parseSelector (Nat.toDigits 10 i ++ ']' :: rest) = .ok (.index i, rest) := by
  have hdigits : ∀ c ∈ Nat.toDigits 10 i, c.isDigit := fun c hc =>
    Nat.isDigit_of_mem_toDigits (by decide) (by decide) hc
  have hvalue := Nat.ofDigitChars_ten_toDigits (n := i)
  have hspan := span_stop hdigits (show ∀ c ∈ (']' :: rest).head?, ¬ c.isDigit by
    intro c hc
    cases hc
    decide)
  cases hnil : Nat.toDigits 10 i with
  | nil => exact absurd hnil Nat.toDigits_ne_nil
  | cons digit digits =>
    have hquote : ¬ (digit = '\'' ∨ digit = '"') := by
      have hdigit := hdigits digit (hnil ▸ mem_cons_self)
      rintro (rfl | rfl)
      · exact absurd hdigit (by decide)
      · exact absurd hdigit (by decide)
    rw [hnil] at hspan hvalue
    have hspan' : (digit :: (digits ++ ']' :: rest)).span Char.isDigit =
      (digit :: digits, ']' :: rest) := hspan
    unfold maxGeminiPartialArgArrayIndex at hi
    unfold parseSelector
    rw [cons_append]
    simp only [if_neg hquote, hspan']
    simp only [hvalue, maxGeminiPartialArgArrayIndex]
    rw [if_neg (by omega), if_neg (by omega)]

theorem parseSelector_quoted (hquote : IsQuote quote)
    (h : ∀ q ∈ qs, q.Valid quote) (rest : List Char) :
    parseSelector (quote :: (quotedText qs ++ quote :: ']' :: rest)) =
      .ok (.member (String.ofList (qs.map QuotedChar.char)), rest) := by
  show (if quote = '\'' ∨ quote = '"' then _ else _) = _
  rw [if_pos (show quote = '\'' ∨ quote = '"' from hquote), parseMember_quoted hquote h]
  rfl

theorem parseSegments_dot {name : List Char}
    (hspan : cs.span (fun c => c ≠ '.' && c ≠ '[') = (name, rest)) (hne : name ≠ [])
    (hallowed : (name.any fun c => c ∈ [']', '*', '?']) = false) (fuel : Nat) :
    parseSegments (fuel + 1) ('.' :: cs) =
      (parseSegments fuel rest).map fun path => .member (String.ofList name) :: path := by
  rw [parseSegments, hspan]
  simp only [hne, hallowed, if_false, Bool.false_eq_true]
  cases parseSegments fuel rest <;> rfl

theorem parseSegments_bracket {s : Segment} (h : parseSelector cs = .ok (s, rest)) (fuel : Nat) :
    parseSegments (fuel + 1) ('[' :: cs) = (parseSegments fuel rest).map fun path => s :: path := by
  rw [parseSegments, h]
  show (parseSegments fuel rest >>= fun path => .ok (s :: path)) = _
  cases parseSegments fuel rest <;> rfl

theorem parseSegments_cons {s : Segment} {text : List Char} (h : Spelled s text)
    (hindex : ∀ i, s = .index i → i ≤ maxGeminiPartialArgArrayIndex)
    (hrest : ∀ c ∈ rest.head?, c = '.' ∨ c = '[') (fuel : Nat) :
    parseSegments (fuel + 1) (text ++ rest) = (parseSegments fuel rest).map fun path => s :: path := by
  cases h with
  | @dot name hne hname =>
    have hspan : (name ++ rest).span (fun c => c ≠ '.' && c ≠ '[') = (name, rest) := by
      refine span_stop (fun c hc => ?_) fun c hc => ?_
      · have hc := hname c hc
        simp only [mem_cons, not_or] at hc
        simp [hc.1, hc.2.1]
      rcases hrest c hc with rfl | rfl
      · decide
      · decide
    have hallowed : (name.any fun c => c ∈ [']', '*', '?']) = false := by
      rw [List.any_eq_false]
      intro c hc
      have := hname c hc
      simp only [mem_cons, not_or] at this
      simp [this.2.2.1, this.2.2.2.1, this.2.2.2.2.1]
    exact parseSegments_dot hspan hne hallowed fuel
  | @quoted quote qs hquote hqs =>
    show parseSegments (fuel + 1) ('[' :: quote :: ((quotedText qs ++ [quote, ']']) ++ rest)) = _
    rw [append_assoc]
    exact parseSegments_bracket (parseSelector_quoted hquote hqs rest) fuel
  | index i =>
    show parseSegments (fuel + 1) ('[' :: ((Nat.toDigits 10 i ++ [']']) ++ rest)) = _
    rw [append_assoc]
    exact parseSegments_bracket (parseSelector_index (hindex i rfl) rest) fuel

theorem parseSegments_spelled {texts : List (List Char)}
    (h : List.Forall₂ Spelled path texts) (hindexes : IndexesAllowed path) {fuel : Nat}
    (hfuel : texts.flatten.length ≤ fuel) : parseSegments fuel texts.flatten = .ok path := by
  induction h generalizing fuel with
  | nil => cases fuel <;> rfl
  | @cons s text path texts hhead htail ih =>
    obtain ⟨c, rest, rfl, -⟩ := spelled_head hhead
    rw [List.flatten_cons, List.length_append, List.length_cons] at hfuel
    obtain ⟨fuel, rfl⟩ : ∃ n, fuel = n + 1 := ⟨fuel - 1, by omega⟩
    rw [List.flatten_cons, parseSegments_cons hhead (fun i hi => hindexes i (hi ▸ mem_cons_self))
      (spelled_flatten_head htail), ih (fun i hi => hindexes i (mem_cons_of_mem _ hi)) (by omega)]
    rfl

theorem trimSpace_eq {s : String} (hfirst : ∀ c ∈ s.toList.head?, ¬ Text.isSpace c)
    (hlast : ∀ c ∈ s.toList.getLast?, ¬ Text.isSpace c) : Text.trimSpace s = s := by
  have hdrop : s.toList.dropWhile Text.isSpace = s.toList := by
    cases hs : s.toList with
    | nil => rfl
    | cons c cs =>
      rw [hs] at hfirst
      exact List.dropWhile_cons_of_neg (hfirst c rfl)
  have hrdrop : s.toList.rdropWhile Text.isSpace = s.toList := by
    rw [List.rdropWhile_eq_self_iff]
    intro hne
    exact hlast _ (List.getLast?_eq_some_getLast hne)
  unfold Text.trimSpace
  rw [hdrop, hrdrop, String.ofList_toList]

/-- **A path is read back as it was written.** -/
theorem parsePath_spelled {jsonPath : String} (h : SpelledPath path jsonPath)
    (hne : path ≠ []) (hindexes : IndexesAllowed path) :
    parseGeminiPartialArgPath jsonPath = .ok path := by
  obtain ⟨texts, hspelled, hpath, hlast⟩ := h
  have htrim : Text.trimSpace jsonPath = jsonPath := by
    refine trimSpace_eq (fun c hc => ?_) hlast
    rw [hpath] at hc
    cases hc
    decide
  unfold parseGeminiPartialArgPath
  rw [htrim, hpath]
  simp only [parseSegments_spelled hspelled hindexes (le_refl _), bind, Except.bind, hne, if_false]

/-! ## Normalized paths -/

/-- How a normalized path writes a character of a member. -/
def normalChar (c : Char) : QuotedChar :=
  match c with
  | '\x08' => .short 'b'
  | '\t' => .short 't'
  | '\n' => .short 'n'
  | '\x0c' => .short 'f'
  | '\r' => .short 'r'
  | '\'' => .short '\''
  | '\\' => .short '\\'
  | c =>
    if c < ' ' then .unicode '0' '0' (Nat.digitChar (c.toNat / 16)) (Nat.digitChar (c.toNat % 16))
    else .plain c

def normalSegment (s : Segment) : List Char :=
  match s with
  | .member name => '[' :: '\'' :: (quotedText (name.toList.map normalChar) ++ ['\'', ']'])
  | .index i => '[' :: (Nat.toDigits 10 i ++ [']'])

def normalizedPath (path : List Segment) : String := String.ofList ('$' :: path.flatMap normalSegment)

theorem normalChar_valid (c : Char) : (normalChar c).Valid '\'' ∧ (normalChar c).char = c := by
  by_cases hcontrol : c.toNat < 32
  · have hall : ∀ n < 32, (normalChar (Char.ofNat n)).Valid '\'' ∧
        (normalChar (Char.ofNat n)).char = Char.ofNat n := by decide +kernel
    have hc := hall c.toNat hcontrol
    rwa [Char.ofNat_toNat] at hc
  unfold normalChar
  split
  · exact absurd (by decide) hcontrol
  · exact absurd (by decide) hcontrol
  · exact absurd (by decide) hcontrol
  · exact absurd (by decide) hcontrol
  · exact absurd (by decide) hcontrol
  · exact ⟨.inl rfl, rfl⟩
  · exact ⟨.inr (by decide), rfl⟩
  rename_i hquote hslash
  have hspace : ' ' ≤ c := Nat.le_of_not_lt hcontrol
  rw [if_neg (Char.not_lt.mpr hspace)]
  exact ⟨⟨hspace, hslash, hquote⟩, rfl⟩

theorem normalSegment_spelled (s : Segment) : Spelled s (normalSegment s) := by
  cases s with
  | member name =>
    have hname : String.ofList ((name.toList.map normalChar).map QuotedChar.char) = name := by
      have hsame : QuotedChar.char ∘ normalChar = id := funext fun c => (normalChar_valid c).2
      rw [List.map_map, hsame, List.map_id, String.ofList_toList]
    have hvalid : ∀ q ∈ name.toList.map normalChar, q.Valid '\'' := by
      intro q hq
      obtain ⟨c, -, rfl⟩ := List.mem_map.mp hq
      exact (normalChar_valid c).1
    have hquoted := Spelled.quoted (.inl rfl) hvalid
    rw [hname] at hquoted
    exact hquoted
  | index i => exact .index i

theorem normalizedPath_spelled (hne : path ≠ []) : SpelledPath path (normalizedPath path) := by
  refine ⟨path.map normalSegment, ?_, ?_, ?_⟩
  · rw [List.forall₂_map_right_iff]
    exact List.forall₂_same.mpr fun s _ => normalSegment_spelled s
  · rw [normalizedPath, String.toList_ofList, List.flatMap_def]
  -- it ends with a bracket
  obtain ⟨front, last, rfl⟩ := List.eq_nil_or_concat path |>.resolve_left hne
  have hend : ∃ text, normalSegment last = text ++ [']'] := by
    cases last with
    | member name => exact ⟨'[' :: '\'' :: (quotedText (name.toList.map normalChar) ++ ['\'']), by
        simp [normalSegment]⟩
    | index i => exact ⟨'[' :: Nat.toDigits 10 i, rfl⟩
  obtain ⟨text, htext⟩ := hend
  intro c hc
  rw [normalizedPath, String.toList_ofList, List.concat_eq_append, List.flatMap_append,
    List.flatMap_singleton, htext, ← append_assoc, ← cons_append,
    List.getLast?_append] at hc
  cases hc
  decide

end NewApi.GeminiSource
