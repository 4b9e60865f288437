/-
**Decimal numbers and the binary numbers nearest to them.**

A decimal is a whole number times a power of ten.  The literal `12.50e-3` is the decimal
`1250 * 10 ^ (-5)`; the binary number it denotes is the nearest one, and infinity if it is too
large.  An exponent may be astronomically large or small: two tests on the lengths of the numbers
answer then, before any power of ten is formed.

Main definitions:

* `EdnSpans.Decimal` — a whole number times a power of ten;
* `EdnSpans.Decimal.num`, `EdnSpans.Decimal.den` — it as a quotient;
* `EdnSpans.Decimal.magnitude` — the nearest magnitude of a binary number;
* `EdnSpans.Decimal.ofLiteral?` — a decimal literal without a sign;
* `EdnSpans.Binary64.ofLiteral?` — **the binary number of a decimal literal**.
-/
import EdnSpans.Number.Binary64
import EdnSpans.Number.Radix

set_option relaxedAutoImplicit false
set_option autoImplicit false

namespace EdnSpans

/-- The number `coefficient * 10 ^ exponent`. -/
structure Decimal where
  /-- The whole factor. -/
  coefficient : Nat
  /-- The power of ten. -/
  exponent : Int
  deriving DecidableEq, Repr

namespace Decimal

/-- The numerator of a decimal as a quotient. -/
def num (d : Decimal) : Nat := d.coefficient * Nat.pow 10 d.exponent.toNat

/-- The denominator of a decimal as a quotient. -/
def den (d : Decimal) : Nat := Nat.pow 10 (-d.exponent).toNat

/-- The decimal is certainly too large: from `2 ^ 1024` on everything is infinite, and a power of
ten is at least the same power of eight. -/
def isHuge (d : Decimal) : Bool :=
  0 ≤ d.exponent && 1024 ≤ (Nat.log2 d.coefficient : Int) + 3 * d.exponent

/-- The decimal is certainly too small: below `2 ^ (-1075)` everything is nearest to zero, and a
negative power of ten is at most the same power of eight. -/
def isTiny (d : Decimal) : Bool :=
  d.exponent < 0 && (Nat.log2 d.coefficient : Int) + 1 + 3 * d.exponent ≤ -1075

/-- The magnitude of the binary number nearest to a decimal. -/
def magnitude (d : Decimal) : Nat :=
  if d.coefficient = 0 then 0
  else if d.isHuge then Binary64.infinity
  else if d.isTiny then 0
  else Binary64.nearest d.num d.den

theorem magnitude_lt (d : Decimal) : d.magnitude < 0x8000000000000000 := by
  unfold magnitude
  repeat' split
  · decide
  · decide
  · decide
  · exact Binary64.nearest_lt _ _

/-! ### Literals -/

/-- The exponent part of a literal: nothing, or `e` or `E` and a whole number. -/
def exponentPart? : Text → Option Int
  | [] => some 0
  | c :: t => if c = 'e' ∨ c = 'E' then Radix.integer? 10 t else none

/-- The digits after the point, if the text begins with a point, and the rest. -/
def splitFraction : Text → Text × Text
  | '.' :: t => (t.takeWhile Char.isDigit, t.dropWhile Char.isDigit)
  | t => ([], t)

/-- The decimal of a literal without a sign: digits, then possibly a point and digits, then
possibly an exponent.  There is at least one digit before the exponent. -/
def ofLiteral? (t : Text) : Option Decimal :=
  let whole := t.takeWhile Char.isDigit
  let (fraction, rest) := splitFraction (t.dropWhile Char.isDigit)
  (Radix.natural? 10 (whole ++ fraction)).bind fun coefficient =>
    (exponentPart? rest).map fun exponent => ⟨coefficient, exponent - fraction.length⟩

end Decimal

/-- The **binary number of a decimal literal** with an optional sign: the nearest one, and infinity
if the decimal is too large. -/
def Binary64.ofLiteral? (t : Text) : Option Binary64 :=
  (Decimal.ofLiteral? (Radix.splitSign t).2).map fun d =>
    { negative := (Radix.splitSign t).1, magnitude := d.magnitude, magnitude_lt := d.magnitude_lt }

end EdnSpans
