/-
  NewApi.Lib.Text

  The functions of Go's `strings` on texts of code points.
-/

import Mathlib.Data.List.DropRight

namespace NewApi.Lib.Text

def isSpace (c : Char) : Bool :=
  c ∈ ['\t', '\n', '\x0b', '\x0c', '\r', ' ', '\u0085', '\u00a0', '\u1680', '\u2028', '\u2029',
    '\u202f', '\u205f', '\u3000'] || ('\u2000' ≤ c && c ≤ '\u200a')

def trimSpace (s : String) : String :=
  String.ofList ((s.toList.dropWhile isSpace).rdropWhile isSpace)

/-- `strings.ToLower`, where `lower` is `unicode.ToLower` -/
def toLower (lower : Char → Char) (s : String) : String := String.ofList (s.toList.map lower)

def hasSuffix (s suffix : String) : Bool := suffix.toList.isSuffixOf s.toList

/-- `strings.CutPrefix`; `none` if the text does not start so. -/
def cutPrefix (s start : String) : Option String :=
  (start.toList.isPrefixOf? s.toList).map String.ofList

/-- `strings.TrimSuffix(s, ".")` -/
def trimDot (s : String) : String :=
  if s.toList.getLast? = some '.' then String.ofList s.toList.dropLast else s

end NewApi.Lib.Text
