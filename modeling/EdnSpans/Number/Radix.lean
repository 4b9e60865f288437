/-
**Whole numbers in a base.**

Numbers are written as digits in base ten and read in base ten or sixteen, with an optional sign.
Reading is exact in the natural numbers and the integers; a width of 64 bits is imposed at the end,
so that no rule about overflow is hidden in a loop.

Main definitions:

* `EdnSpans.Radix.digit?`, `EdnSpans.Radix.natural?` — the value of a digit, and of a non-empty run
  of digits;
* `EdnSpans.Radix.integer?` — a run of digits with at most one sign before it;
* `EdnSpans.Radix.int64?` — an integer that fits in 64 bits;
* `EdnSpans.Radix.decimalText`, `EdnSpans.Radix.integerText` — the decimal text of a number.

Main results:

* `EdnSpans.Radix.toInt_int64?` — **narrowing keeps the number** whenever it answers.
-/
import EdnSpans.Text.Basic

set_option relaxedAutoImplicit false
set_option autoImplicit false

namespace EdnSpans.Radix

/-- The value of a letter or digit, whatever the base: `0` to `9`, then `a` or `A` for ten up to
`z` or `Z` for thirty-five. -/
def rank? (c : Char) : Option Nat :=
  if '0' ≤ c ∧ c ≤ '9' then some (c.toNat - '0'.toNat)
  else if 'a' ≤ c ∧ c ≤ 'z' then some (c.toNat - 'a'.toNat + 10)
  else if 'A' ≤ c ∧ c ≤ 'Z' then some (c.toNat - 'A'.toNat + 10)
  else none

/-- The value of a digit in the given base. -/
def digit? (base : Nat) (c : Char) : Option Nat := (rank? c).filter (· < base)

/-- The value of a run of digits that continues a number already read. -/
def extend? (base : Nat) : Nat → Text → Option Nat
  | n, [] => some n
  | n, c :: t => (digit? base c).bind fun d => extend? base (n * base + d) t

/-- The value of a non-empty run of digits. -/
def natural? (base : Nat) (t : Text) : Option Nat :=
  if t.isEmpty then none else extend? base 0 t

/-- A sign, if the text begins with one, and the rest: `true` stands for a minus. -/
def splitSign : Text → Bool × Text
  | '-' :: t => (true, t)
  | '+' :: t => (false, t)
  | t => (false, t)

/-- A number with the given sign. -/
def signed (negative : Bool) (n : Nat) : Int := if negative then -(n : Int) else n

/-- The value of a non-empty run of digits with at most one sign before it. -/
def integer? (base : Nat) (t : Text) : Option Int :=
  (natural? base (splitSign t).2).map (signed (splitSign t).1)

/-! ### Sixty-four bits -/

/-- The integer as a 64-bit word, if it lies between the least and the greatest one. -/
def int64? (n : Int) : Option Int64 :=
  if Int64.minValue.toInt ≤ n ∧ n ≤ Int64.maxValue.toInt then some (Int64.ofInt n) else none

/-- Narrowing **keeps the number** whenever it answers. -/
theorem toInt_int64? {n : Int} {w : Int64} (h : int64? n = some w) : w.toInt = n := by
  unfold int64? at h
  split at h
  · next e =>
      cases h
      have h₁ : Int64.minValue.toInt = -9223372036854775808 := by decide
      have h₂ : Int64.maxValue.toInt = 9223372036854775807 := by decide
      exact Int64.toInt_ofInt_of_le (by omega) (by omega)
  · simp at h

/-! ### Decimal text -/

/-- The decimal digits of a natural number, without leading zeros. -/
def decimalText (n : Nat) : Text := Nat.toDigits 10 n

/-- The decimal digits of an integer, with a minus before those of a negative one. -/
def integerText (n : Int) : Text :=
  if n < 0 then '-' :: decimalText n.natAbs else decimalText n.natAbs

end EdnSpans.Radix
