/-
**The characters of names, and the characters between them.**

A name is written in letters, numerals and a few signs; what may stand between two lexemes is a
space, a tab, a line break or a comma.

Main definitions:

* `EdnSpans.Text.isAlphanumeric` — letters and numerals;
* `EdnSpans.Text.isSymbolic` — the characters of symbols, keywords and numbers;
* `EdnSpans.Text.isBlank` — the characters that separate lexemes and mean nothing;
* `EdnSpans.Text.isHexDigit` — the digits of base sixteen, in both cases.

Main results:

* `EdnSpans.Text.isSymbolic_of_isDigit` — digits are characters of names.
-/
import EdnSpans.Text.Numeral

set_option relaxedAutoImplicit false
set_option autoImplicit false

namespace EdnSpans.Text

/-- A letter or a numeral. -/
def isAlphanumeric (c : Char) : Bool := isAlphabetic c || isNumeral c

/-- The signs that a name may hold beside letters and numerals. -/
def nameSigns : List Char :=
  ['*', '+', '!', '-', '_', '\x27', '?', '<', '>', '=', '/', '.', '&', '%', '$', '|', '#', ':']

/-- A character of a name.  The signs come first: they are few, and the numerals and letters need
a table. -/
def isSymbolic (c : Char) : Bool := nameSigns.contains c || isAlphanumeric c

/-- Digits are characters of names. -/
theorem isSymbolic_of_isDigit {c : Char} (h : c.isDigit) : isSymbolic c := by
  have hc : c.toNat < 0x80 := by
    simp only [Char.isDigit, Bool.and_eq_true, decide_eq_true_eq] at h
    have := UInt32.le_iff_toNat_le.1 h.2
    exact Nat.lt_of_le_of_lt this (by decide)
  simp [isSymbolic, isAlphanumeric, isNumeral_of_ascii hc, h]

/-- A character that stands between lexemes and belongs to none. -/
def isBlank (c : Char) : Bool := c = ' ' || c = '\t' || c = '\n' || c = '\r' || c = ','

/-- A digit of base sixteen. -/
def isHexDigit (c : Char) : Bool :=
  c.isDigit || ('a' ≤ c && c ≤ 'f') || ('A' ≤ c && c ≤ 'F')

end EdnSpans.Text
