/-
**The shortest decimal text of a binary number.**

A finite binary number is written with the fewest digits that read back as the same number, and
with the nearest of those.  A decimal with few digits is a point of a coarse grid `10 ^ e`; on each
grid only the two neighbours of the value can be nearest, so the search tries these two on one grid
after another, from coarse to fine, and takes the first that reads back.

How the digits are laid out is a matter of style: which powers of ten are written positionally, and
how an exponent is marked.

Main definitions:

* `EdnSpans.Decimal.exact` — a finite magnitude as a decimal;
* `EdnSpans.Decimal.candidate?` — the point of a grid that reads back, if there is one;
* `EdnSpans.Decimal.shortest` — **the shortest decimal that reads back**, nearest to the value;
* `EdnSpans.Decimal.Style`, `EdnSpans.Decimal.text` — the layout of a decimal.

Main results:

* `EdnSpans.Decimal.magnitude_candidate?` — what a grid offers reads back.
-/
import EdnSpans.Number.Decimal

set_option relaxedAutoImplicit false
set_option autoImplicit false

namespace EdnSpans.Decimal

/-! ### Digits -/

/-- A finite magnitude as a decimal: a negative power of two is a power of five over a power of
ten. -/
def exact (magnitude : Nat) : Decimal :=
  let m := Binary64.significand magnitude
  let q := Binary64.exponent magnitude
  ⟨(m <<< q.toNat) * Nat.pow 5 (-q).toNat, -((-q).toNat : Int)⟩

/-- The point of the grid `10 ^ e` that reads back as the magnitude.  Only the two neighbours of
the value can be nearest to it; of two that read back the nearer is taken, and the upper one if
they are equally near. -/
def candidate? (magnitude : Nat) (e : Int) : Option Decimal :=
  let value := exact magnitude
  let num := value.num * Nat.pow 10 (-e).toNat
  let den := value.den * Nat.pow 10 e.toNat
  let lower : Decimal := ⟨num / den, e⟩
  let upper : Decimal := ⟨num / den + 1, e⟩
  let nearer := if 2 * (num % den) < den then [lower, upper] else [upper, lower]
  nearer.find? fun d => d.magnitude = magnitude

/-- What a grid offers reads back. -/
theorem magnitude_candidate? {magnitude : Nat} {e : Int} {d : Decimal}
    (h : candidate? magnitude e = some d) : d.magnitude = magnitude := by
  simpa using List.find?_some h

/-- A power of ten above the value, from the numbers of digits of its numerator and denominator. -/
def startExponent (magnitude : Nat) : Int :=
  ((Radix.decimalText (exact magnitude).num).length : Int)
    - (Radix.decimalText (exact magnitude).den).length + 1

/-- The **shortest decimal that reads back** as a finite, positive magnitude.  Seventeen digits
always suffice, so the search over twenty grids ends; the exact value stands behind it. -/
def shortest (magnitude : Nat) : Decimal :=
  ((List.range 20).findSome? fun i : Nat =>
      candidate? magnitude (startExponent magnitude - i)).getD (exact magnitude)

/-! ### Layout -/

/-- How a decimal is laid out. -/
structure Style where
  /-- The least power of the leading digit that is written positionally. -/
  leastPower : Int
  /-- The greatest power of the leading digit that is written positionally. -/
  greatestPower : Int
  /-- What a positional whole number ends in. -/
  wholeEnding : Text
  /-- The mark before an exponent. -/
  mark : Char
  deriving Repr

/-- The power of ten of the leading digit. -/
def leadingPower (d : Decimal) : Int := (Radix.decimalText d.coefficient).length - 1 + d.exponent

/-- The digits of a decimal around a decimal point. -/
def positional (style : Style) (d : Decimal) : Text :=
  let digits := Radix.decimalText d.coefficient
  let power := d.leadingPower
  if 0 ≤ d.exponent then digits ++ List.replicate d.exponent.toNat '0' ++ style.wholeEnding
  else if 0 ≤ power then
    digits.take (power.toNat + 1) ++ '.' :: digits.drop (power.toNat + 1)
  else '0' :: '.' :: (List.replicate (-power - 1).toNat '0' ++ digits)

/-- The digits of a decimal with the point after the first one, and an exponent. -/
def scientific (style : Style) (d : Decimal) : Text :=
  let digits := Radix.decimalText d.coefficient
  let fraction := digits.drop 1
  digits.take 1 ++ (if fraction.isEmpty then [] else '.' :: fraction)
    ++ style.mark :: Radix.integerText d.leadingPower

/-- The text of a decimal in the given style. -/
def text (style : Style) (d : Decimal) : Text :=
  if style.leastPower ≤ d.leadingPower ∧ d.leadingPower ≤ style.greatestPower
  then d.positional style else d.scientific style

end EdnSpans.Decimal
