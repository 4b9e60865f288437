/-
**Binary floating-point numbers of 64 bits.**

A number is a sign and a *magnitude*, the other 63 bits read as a natural number.  Magnitudes order
the numbers: `0` is zero, below `hiddenBit` lie the subnormal numbers, `infinity` is followed by the
patterns that are not numbers.  A finite magnitude stands for `significand * 2 ^ exponent`.  The
arithmetic is that of the natural numbers, so that whatever is said about rounding is said about
quotients of natural numbers.

Main definitions:

* `EdnSpans.Binary64` — a sign and a magnitude;
* `EdnSpans.Binary64.ofBits`, `EdnSpans.Binary64.toBits` — the interchange format;
* `EdnSpans.Binary64.significand`, `EdnSpans.Binary64.exponent` — the value of a finite magnitude;
* `EdnSpans.Binary64.equals` — comparison of numbers: zeros are equal, and what is not a number
  equals nothing;
* `EdnSpans.Binary64.roundHalfEven` — a quotient rounded to the nearest natural number;
* `EdnSpans.Binary64.nearest` — the magnitude nearest to a quotient, ties going to the even
  neighbour.

Main results:

* `EdnSpans.Binary64.nearest_le_infinity` — rounding gives a number.
-/

set_option relaxedAutoImplicit false
set_option autoImplicit false

namespace EdnSpans

/-- A binary floating-point number of 64 bits. -/
structure Binary64 where
  /-- The sign bit. -/
  negative : Bool
  /-- The exponent field and the fraction, read as one natural number. -/
  magnitude : Nat
  /-- There are 63 bits beside the sign. -/
  magnitude_lt : magnitude < 0x8000000000000000 := by omega
  deriving DecidableEq, Repr

namespace Binary64

/-- The magnitude of the two infinities. -/
def infinity : Nat := 0x7FF0000000000000

/-- The number with the given 64 bits. -/
def ofBits (bits : UInt64) : Binary64 where
  negative := decide (0x8000000000000000 ≤ bits.toNat)
  magnitude := bits.toNat % 0x8000000000000000

/-- The 64 bits of a number. -/
def toBits (x : Binary64) : UInt64 :=
  UInt64.ofNat ((if x.negative then 0x8000000000000000 else 0) + x.magnitude)

/-- The pattern is not a number. -/
def isNaN (x : Binary64) : Bool := infinity < x.magnitude

/-- One of the two infinities. -/
def isInfinite (x : Binary64) : Bool := x.magnitude = infinity

/-- One of the two zeros. -/
def isZero (x : Binary64) : Bool := x.magnitude = 0

/-- Comparison of numbers: the two zeros are equal, and what is not a number equals nothing, not
even itself. -/
def equals (x y : Binary64) : Bool :=
  !x.isNaN && !y.isNaN && (decide (x = y) || x.isZero && y.isZero)

/-! ### The value of a finite magnitude -/

/-- The bit above the 52 bits of the fraction, which the numbers that are not subnormal have without
its being stored. -/
def hiddenBit : Nat := 0x10000000000000

/-- The whole factor of a finite magnitude. -/
def significand (magnitude : Nat) : Nat :=
  if magnitude < hiddenBit then magnitude else hiddenBit + magnitude % hiddenBit

/-- The power of two of a finite magnitude. -/
def exponent (magnitude : Nat) : Int :=
  if magnitude < hiddenBit then -1074 else (magnitude / hiddenBit : Nat) - 1075

/-! ### Rounding -/

/-- A quotient rounded to the nearest natural number; a half goes to the even neighbour. -/
def roundHalfEven (num den : Nat) : Nat :=
  let quotient := num / den
  let twice := 2 * (num % den)
  if twice < den ∨ (twice = den ∧ quotient % 2 = 0) then quotient else quotient + 1

/-- The greatest `e` with `2 ^ e ≤ num / den`, for positive `num` and `den`.  The lengths of the
two numbers give it up to one. -/
def floorLog2 (num den : Nat) : Int :=
  let e : Int := (Nat.log2 num : Int) - Nat.log2 den
  if den <<< e.toNat ≤ num <<< (-e).toNat then e else e - 1

/-- The power of two in units of which a number near `num / den` is counted: its significand has
53 bits, or as many as the smallest power leaves. -/
def unitExponent (num den : Nat) : Int := max (-1074) (floorLog2 num den - 52)

/-- The magnitude nearest to `num / den`, with `den` positive, ties going to the even neighbour.
Counting the units gives at most 53 bits, and one more step up carries into the exponent field;
everything from the first magnitude that is too large on is infinite. -/
def nearest (num den : Nat) : Nat :=
  if num = 0 then 0 else
  let q := unitExponent num den
  min infinity
    ((q + 1074).toNat * hiddenBit + roundHalfEven (num <<< (-q).toNat) (den <<< q.toNat))

/-- Rounding gives a number. -/
theorem nearest_le_infinity (num den : Nat) : nearest num den ≤ infinity := by
  unfold nearest
  split
  · exact Nat.zero_le _
  · exact Nat.min_le_left _ _

/-- Rounding stays below the sign bit. -/
theorem nearest_lt (num den : Nat) : nearest num den < 0x8000000000000000 :=
  Nat.lt_of_le_of_lt (nearest_le_infinity num den) (by decide)

end Binary64

end EdnSpans
