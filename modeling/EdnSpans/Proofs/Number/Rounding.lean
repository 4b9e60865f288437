/-
**Rounding is a matter of the value alone.**

A quotient of natural numbers is rounded to a binary number by arithmetic on its numerator and its
denominator: their lengths give the power of two, they are shifted against each other, and a division
with remainder counts the units.  None of this depends on how the quotient is written.  The power of
two is the logarithm of its value, the shifted quotient is the value in units of that power, and of
the two whole numbers around it the nearer one is taken, or the even one.

So there is one rounding of every positive rational number, and it is known at three places: the
value of a finite magnitude is rounded to that magnitude; what is too small by more than half of the
smallest unit is rounded to zero; and the numbers from half a unit above the greatest finite one on
are infinite.

Main definitions:

* `EdnSpans.Binary64.value` — the value of a finite magnitude;
* `EdnSpans.Binary64.HalfEven` — a whole number is the nearest one, or the even one of two;
* `EdnSpans.Binary64.RoundsTo` — **a positive number is rounded to a magnitude**.

Main results:

* `EdnSpans.Binary64.floorLog2_eq` — the lengths of two numbers give the logarithm of their quotient;
* `EdnSpans.Binary64.RoundsTo.unique` — there is one rounding of every number;
* `EdnSpans.Binary64.roundsTo_nearest` — **a quotient is rounded as its value is**;
* `EdnSpans.Binary64.roundsTo_value` — the value of a magnitude is rounded to it;
* `EdnSpans.Binary64.RoundsTo.eq_infinity_iff` — which numbers are too large.
-/
import EdnSpans.Number.Binary64
import Mathlib.Algebra.Order.Field.Power
import Mathlib.Data.Int.Log
import Mathlib.Data.Rat.Floor
import Mathlib.Tactic.Linarith
import Mathlib.Tactic.NormNum
import Mathlib.Tactic.Positivity

set_option relaxedAutoImplicit false
set_option autoImplicit false

namespace EdnSpans.Binary64

/-! ### Powers of two -/

theorem hiddenBit_eq : hiddenBit = 2 ^ 52 := rfl

theorem infinity_eq : infinity = 2047 * 2 ^ 52 := rfl

theorem zpow_mul_zpow {a b c : Int} (h : a + b = c) : (2 : ℚ) ^ a * 2 ^ b = 2 ^ c := by
  rw [← h, zpow_add₀ (by norm_num)]

/-- A shift in one direction or the other multiplies **by a power of two**. -/
theorem shift_div_shift (num den : Nat) (e : Int) :
    ((num <<< (-e).toNat : Nat) : ℚ) / (den <<< e.toNat : Nat) = num / den / 2 ^ e := by
  rw [Nat.shiftLeft_eq, Nat.shiftLeft_eq]
  push_cast
  rcases Int.le_total 0 e with h | h
  · obtain ⟨n, rfl⟩ := Int.eq_ofNat_of_zero_le h
    simp [div_div]
  · obtain ⟨n, hn⟩ := Int.eq_ofNat_of_zero_le (Int.neg_nonneg.2 h)
    obtain rfl : e = -(n : Int) := by omega
    simp [mul_div_right_comm]

variable {num den : Nat}

/-- Two shifted numbers are compared **as their quotient is with a power of two**. -/
theorem shift_le_shift_iff (hden : 0 < den) (e : Int) :
    den <<< e.toNat ≤ num <<< (-e).toNat ↔ (2 : ℚ) ^ e ≤ num / den := by
  have hpos : (0 : ℚ) < (den <<< e.toNat : Nat) := by
    rw [Nat.shiftLeft_eq]
    exact_mod_cast Nat.mul_pos hden (Nat.two_pow_pos _)
  rw [← one_le_div (by positivity : (0 : ℚ) < 2 ^ e), ← shift_div_shift, one_le_div hpos]
  exact Nat.cast_le.symm

/-- The lengths of two numbers give **the logarithm of their quotient**. -/
theorem floorLog2_eq (hnum : 0 < num) (hden : 0 < den) :
    floorLog2 num den = Int.log 2 ((num : ℚ) / den) := by
  have hquotient : (0 : ℚ) < num / den := by positivity
  have hlog (n : Nat) (hn : 0 < n) :
      (2 : ℚ) ^ (Nat.log2 n : Int) ≤ n ∧ (n : ℚ) < 2 ^ ((Nat.log2 n : Int) + 1) := by
    have hlow := Nat.log2_self_le (Nat.pos_iff_ne_zero.1 hn)
    have hhigh := Nat.lt_log2_self (n := n)
    constructor
    · exact_mod_cast hlow
    · exact_mod_cast hhigh
  obtain ⟨hnumLow, hnumHigh⟩ := hlog num hnum
  obtain ⟨hdenLow, hdenHigh⟩ := hlog den hden
  -- the quotient of the leading powers is off by less than a factor of two in both directions
  have hlow : Int.log 2 ((num : ℚ) / den) ≥ Nat.log2 num - Nat.log2 den - 1 := by
    refine (Int.zpow_le_iff_le_log (by decide) hquotient).1 ?_
    rw [le_div_iff₀ (by positivity)]
    calc ((2 : Nat) : ℚ) ^ ((Nat.log2 num : Int) - Nat.log2 den - 1) * den
        ≤ 2 ^ ((Nat.log2 num : Int) - Nat.log2 den - 1) * 2 ^ ((Nat.log2 den : Int) + 1) := by
          push_cast
          gcongr
      _ = 2 ^ (Nat.log2 num : Int) := zpow_mul_zpow (by omega)
      _ ≤ num := hnumLow
  have hhigh : Int.log 2 ((num : ℚ) / den) < Nat.log2 num - Nat.log2 den + 1 := by
    refine (Int.lt_zpow_iff_log_lt (by decide) hquotient).1 ?_
    rw [div_lt_iff₀ (by positivity)]
    calc (num : ℚ) < 2 ^ ((Nat.log2 num : Int) + 1) := hnumHigh
      _ = 2 ^ ((Nat.log2 num : Int) - Nat.log2 den + 1) * 2 ^ (Nat.log2 den : Int) :=
          (zpow_mul_zpow (by omega)).symm
      _ ≤ ((2 : Nat) : ℚ) ^ ((Nat.log2 num : Int) - Nat.log2 den + 1) * den := by
          push_cast
          gcongr
  have htest := Int.zpow_le_iff_le_log (b := 2) (by decide)
    (x := (Nat.log2 num : Int) - Nat.log2 den) hquotient
  simp only [floorLog2]
  split
  · next h =>
      rw [shift_le_shift_iff hden] at h
      have := htest.1 (by exact_mod_cast h)
      omega
  · next h =>
      rw [shift_le_shift_iff hden] at h
      have : ¬((Nat.log2 num : Int) - Nat.log2 den ≤ Int.log 2 ((num : ℚ) / den)) := by
        intro hle
        exact h (by exact_mod_cast htest.2 hle)
      omega

/-! ### Whole numbers -/

/-- The whole number is **nearest** to the given one; of two that are equally near it is the even
one. -/
def HalfEven (x : ℚ) (n : Nat) : Prop := |x - n| < 1 / 2 ∨ |x - n| = 1 / 2 ∧ n % 2 = 0

namespace HalfEven

variable {x : ℚ} {n : Nat}

theorem bounds (h : HalfEven x n) : (n : ℚ) ≤ x + 1 / 2 ∧ x ≤ n + 1 / 2 := by
  have hle : |x - n| ≤ 1 / 2 := by
    rcases h with h | ⟨h, -⟩
    · exact h.le
    · exact h.le
  rw [abs_le] at hle
  constructor
  · linarith
  · linarith

/-- There is **one** such whole number. -/
theorem unique {m : Nat} (h : HalfEven x n) (h' : HalfEven x m) : n = m := by
  -- of two different ones the less is half below, the greater half above, and one of them is odd
  have hlt {a b : Nat} (ha : HalfEven x a) (hb : HalfEven x b) : ¬a < b := by
    intro hab
    have hstep : (a : ℚ) + 1 ≤ b := by exact_mod_cast hab
    have haHigh := ha.bounds.2
    have hbLow := hb.bounds.1
    have hnext : b = a + 1 := by
      have : (b : ℚ) ≤ a + 1 := by linarith
      exact Nat.le_antisymm (by exact_mod_cast this) hab
    have hx : x = a + 1 / 2 := by linarith
    have hsides : x - a = 1 / 2 ∧ x - b = -(1 / 2) := by
      subst hnext
      push_cast at *
      constructor
      · linarith
      · linarith
    have haEven : a % 2 = 0 := by
      rcases ha with ha | ⟨-, ha⟩
      · rw [hsides.1] at ha
        norm_num at ha
      · exact ha
    have hbEven : b % 2 = 0 := by
      rcases hb with hb | ⟨-, hb⟩
      · rw [hsides.2] at hb
        norm_num at hb
      · exact hb
    omega
  rcases Nat.lt_trichotomy n m with hnm | hnm | hnm
  · exact absurd hnm (hlt h h')
  · exact hnm
  · exact absurd hnm (hlt h' h)

/-- Half a unit below an even number is **rounded up to it**, and whatever is less is not. -/
theorem le_iff (h : HalfEven x n) {k : Nat} (hk : k % 2 = 0) : k ≤ n ↔ (k : ℚ) - 1 / 2 ≤ x := by
  constructor
  · intro hle
    have : (k : ℚ) ≤ n := by exact_mod_cast hle
    linarith [h.bounds.1]
  · intro hle
    by_contra hlt
    have hstep : (n : ℚ) + 1 ≤ k := by exact_mod_cast Nat.lt_of_not_le hlt
    have hhigh := h.bounds.2
    -- the value lies in the middle between the two, so the rounded one is the even one
    have hx : x - n = 1 / 2 := by linarith
    have hnext : k = n + 1 := by
      have : (k : ℚ) ≤ n + 1 := by linarith
      exact Nat.le_antisymm (by exact_mod_cast this) (Nat.lt_of_not_le hlt)
    rcases h with h | ⟨-, h⟩
    · rw [hx] at h
      norm_num at h
    · omega

end HalfEven

theorem halfEven_natCast (n : Nat) : HalfEven n n := by
  left
  simp

/-- A division with remainder rounds **to the nearest whole number**. -/
theorem halfEven_roundHalfEven (a : Nat) {b : Nat} (hb : 0 < b) :
    HalfEven ((a : ℚ) / b) (roundHalfEven a b) := by
  have hbQ : (0 : ℚ) < b := by exact_mod_cast hb
  have hvalue : (a : ℚ) / b = (a / b : Nat) + (a % b : Nat) / b := by
    have hdivision : (a : ℚ) = b * (a / b : Nat) + (a % b : Nat) := by
      exact_mod_cast (Nat.div_add_mod a b).symm
    rw [div_eq_iff hbQ.ne', add_mul, div_mul_cancel₀ _ hbQ.ne', mul_comm]
    exact hdivision
  have hfraction : 0 ≤ ((a % b : Nat) : ℚ) / b := by positivity
  have hbelow : ((a % b : Nat) : ℚ) / b < 1 := by
    rw [div_lt_one hbQ]
    exact_mod_cast Nat.mod_lt a hb
  -- twice the remainder is compared with the divisor as the fraction is with a half
  have hhalf : 2 * (a % b) < b ↔ ((a % b : Nat) : ℚ) / b < 1 / 2 := by
    rw [div_lt_div_iff₀ hbQ (by norm_num)]
    rw [← Nat.cast_lt (α := ℚ)]
    push_cast
    constructor
    · intro h
      linarith
    · intro h
      linarith
  have htie : 2 * (a % b) = b ↔ ((a % b : Nat) : ℚ) / b = 1 / 2 := by
    rw [div_eq_div_iff hbQ.ne' (by norm_num)]
    rw [← Nat.cast_inj (R := ℚ)]
    push_cast
    constructor
    · intro h
      linarith
    · intro h
      linarith
  simp only [roundHalfEven]
  generalize ((a % b : Nat) : ℚ) / b = fraction at *
  split
  · next h =>
      have hsub : (a : ℚ) / b - (a / b : Nat) = fraction := by linarith
      rw [HalfEven, hsub, abs_of_nonneg hfraction]
      rcases h with h | ⟨h, heven⟩
      · exact .inl (hhalf.1 h)
      · exact .inr ⟨htie.1 h, heven⟩
  · next h =>
      rw [not_or, hhalf, htie, not_and] at h
      have hsub : (a : ℚ) / b - (a / b + 1 : Nat) = fraction - 1 := by
        push_cast
        linarith
      rw [HalfEven, hsub, abs_of_nonpos (by linarith)]
      rcases eq_or_ne fraction (1 / 2) with heq | hne
      · have := h.2 heq
        exact .inr ⟨by linarith, by omega⟩
      · have : 1 / 2 < fraction := lt_of_le_of_ne (not_lt.1 h.1) hne.symm
        exact .inl (by linarith)

/-! ### Magnitudes -/

/-- The power of two in units of which a number is counted. -/
def unit (x : ℚ) : Int := max (-1074) (Int.log 2 x - 52)

/-- The positive number is **rounded to the magnitude**: its units are rounded to a whole number,
which is counted on from the magnitude at which the units begin. -/
def RoundsTo (x : ℚ) (magnitude : Nat) : Prop :=
  ∃ n, HalfEven (x / 2 ^ unit x) n
    ∧ magnitude = min infinity ((unit x + 1074).toNat * hiddenBit + n)

theorem RoundsTo.unique {x : ℚ} {m m' : Nat} (h : RoundsTo x m) (h' : RoundsTo x m') : m = m' := by
  obtain ⟨n, hn, rfl⟩ := h
  obtain ⟨n', hn', rfl⟩ := h'
  rw [hn.unique hn']

/-- A quotient is rounded **as its value is**. -/
theorem roundsTo_nearest (hnum : 0 < num) (hden : 0 < den) :
    RoundsTo ((num : ℚ) / den) (nearest num den) := by
  have hunit : unitExponent num den = unit ((num : ℚ) / den) := by
    rw [unitExponent, floorLog2_eq hnum hden, unit]
  have hpos : 0 < den <<< (unit ((num : ℚ) / den)).toNat := by
    rw [Nat.shiftLeft_eq]
    exact Nat.mul_pos hden (Nat.two_pow_pos _)
  have hround := halfEven_roundHalfEven (num <<< (-unit ((num : ℚ) / den)).toNat) hpos
  rw [shift_div_shift] at hround
  refine ⟨_, hround, ?_⟩
  rw [nearest, if_neg (Nat.pos_iff_ne_zero.1 hnum), hunit]

/-! ### Values -/

/-- The value of a finite magnitude. -/
def value (magnitude : Nat) : ℚ := significand magnitude * 2 ^ exponent magnitude

/-- A number between two neighbouring powers of two. -/
theorem log_eq {x : ℚ} {e : Int} (hlow : 2 ^ e ≤ x) (hhigh : x < 2 ^ (e + 1)) : Int.log 2 x = e := by
  have hx : 0 < x := lt_of_lt_of_le (by positivity) hlow
  have h₁ := (Int.zpow_le_iff_le_log (b := 2) (by decide) hx).1 (by exact_mod_cast hlow)
  have h₂ := (Int.lt_zpow_iff_log_lt (b := 2) (by decide) hx).1 (by exact_mod_cast hhigh)
  omega

theorem log_lt {x : ℚ} {e : Int} (hx : 0 < x) (hhigh : x < 2 ^ e) : Int.log 2 x < e :=
  (Int.lt_zpow_iff_log_lt (b := 2) (by decide) hx).1 (by exact_mod_cast hhigh)

/-- A finite magnitude is a whole number **of its own units**. -/
theorem unit_value {m : Nat} (hm : 0 < m) : unit (value m) = exponent m := by
  rw [value, exponent, significand, hiddenBit_eq, unit]
  split
  · next h =>
      have hlog : Int.log 2 ((m : ℚ) * 2 ^ (-1074 : Int)) < -1022 := by
        refine log_lt (by positivity) ?_
        have hm52 : (m : ℚ) < 2 ^ (52 : Int) := by exact_mod_cast h
        calc (m : ℚ) * 2 ^ (-1074 : Int) < 2 ^ (52 : Int) * 2 ^ (-1074 : Int) := by gcongr
          _ = 2 ^ (-1022 : Int) := zpow_mul_zpow (by norm_num)
      omega
  · next h =>
      have hdiv : 1 ≤ m / 2 ^ 52 := (Nat.le_div_iff_mul_le (by positivity)).2 (by omega)
      have hmod := Nat.mod_lt m (show 0 < 2 ^ 52 by positivity)
      generalize (m / 2 ^ 52 : Nat) = field at *
      generalize m % 2 ^ 52 = fraction at *
      have hlog : Int.log 2 (((2 ^ 52 + fraction : Nat) : ℚ) * 2 ^ ((field : Int) - 1075))
          = (field : Int) - 1075 + 52 := by
        have hlow : (2 : ℚ) ^ (52 : Int) ≤ (2 ^ 52 + fraction : Nat) := by
          exact_mod_cast Nat.le_add_right (2 ^ 52) fraction
        have hhigh : ((2 ^ 52 + fraction : Nat) : ℚ) < 2 ^ (53 : Int) := by
          exact_mod_cast show 2 ^ 52 + fraction < 2 ^ 53 by omega
        refine log_eq ?_ ?_
        · calc (2 : ℚ) ^ ((field : Int) - 1075 + 52)
              = 2 ^ (52 : Int) * 2 ^ ((field : Int) - 1075) := (zpow_mul_zpow (by omega)).symm
            _ ≤ (2 ^ 52 + fraction : Nat) * 2 ^ ((field : Int) - 1075) := by gcongr
        · calc ((2 ^ 52 + fraction : Nat) : ℚ) * 2 ^ ((field : Int) - 1075)
              < 2 ^ (53 : Int) * 2 ^ ((field : Int) - 1075) := by gcongr
            _ = 2 ^ ((field : Int) - 1075 + 52 + 1) := zpow_mul_zpow (by omega)
      rw [hlog]
      omega

/-- The value of a finite magnitude **is rounded to that magnitude**. -/
theorem roundsTo_value {m : Nat} (hm : 0 < m) (hfinite : m < infinity) : RoundsTo (value m) m := by
  refine ⟨significand m, ?_, ?_⟩
  · rw [unit_value hm, value, mul_div_assoc, div_self (by positivity), mul_one]
    exact halfEven_natCast _
  · rw [unit_value hm, exponent, significand]
    rw [infinity_eq] at *
    rw [hiddenBit_eq] at *
    split <;> omega

/-! ### Too small and too large -/

/-- Whatever is less than half of the smallest unit is rounded to zero. -/
theorem RoundsTo.eq_zero {x : ℚ} {m : Nat} (h : RoundsTo x m) (hx : 0 < x)
    (hsmall : x < 2 ^ (-1075 : Int)) : m = 0 := by
  have hlog := log_lt hx hsmall
  have hunit : unit x = -1074 := by
    rw [unit]
    omega
  obtain ⟨n, hn, rfl⟩ := h
  rw [hunit] at hn ⊢
  have hless : x / 2 ^ (-1074 : Int) < 1 / 2 := by
    rw [div_lt_iff₀ (by positivity)]
    calc x < 2 ^ (-1075 : Int) := hsmall
      _ = 2 ^ (-1 : Int) * 2 ^ (-1074 : Int) := (zpow_mul_zpow (by norm_num)).symm
      _ = 1 / 2 * 2 ^ (-1074 : Int) := by rw [zpow_neg_one, one_div]
  have hzero : n = 0 := by
    refine hn.unique (.inl ?_)
    rw [Nat.cast_zero, sub_zero, abs_of_pos (by positivity)]
    exact hless
  simp [hzero]

/-- The least number that is rounded to infinity: it lies in the middle between the greatest finite
number and the power of two behind it. -/
def tooLarge : ℚ := 2 ^ (1024 : Int) - 2 ^ (970 : Int)

/-- Counted in units of the greatest finite numbers, it is half a unit below a power of two. -/
theorem tooLarge_eq : tooLarge = (2 ^ 53 - 1 / 2) * 2 ^ (971 : Int) := by
  have hpower : (2 : ℚ) ^ (53 : Int) * 2 ^ (971 : Int) = 2 ^ (1024 : Int) :=
    zpow_mul_zpow (by norm_num)
  have hhalf : (2 : ℚ) ^ (-1 : Int) * 2 ^ (971 : Int) = 2 ^ (970 : Int) :=
    zpow_mul_zpow (by norm_num)
  rw [tooLarge, ← hpower, ← hhalf, ← sub_mul]
  norm_num

/-- In its own units a number has at most 53 bits. -/
theorem div_unit_lt {x : ℚ} : x / 2 ^ unit x < 2 ^ 53 := by
  have hhigh := Int.lt_zpow_succ_log_self (b := 2) (by decide) x
  have hle : Int.log 2 x + 1 ≤ 53 + unit x := by
    rw [unit]
    omega
  rw [div_lt_iff₀ (by positivity)]
  calc x < ((2 : Nat) : ℚ) ^ (Int.log 2 x + 1) := hhigh
    _ ≤ 2 ^ (53 + unit x) := by
        push_cast
        gcongr
        norm_num
    _ = 2 ^ 53 * 2 ^ unit x := (zpow_mul_zpow rfl).symm

/-- **Which numbers are too large.** -/
theorem RoundsTo.eq_infinity_iff {x : ℚ} {m : Nat} (h : RoundsTo x m) (hx : 0 < x) :
    m = infinity ↔ tooLarge ≤ x := by
  obtain ⟨n, hn, rfl⟩ := h
  have hlow : (2 : ℚ) ^ Int.log 2 x ≤ x := by
    exact_mod_cast Int.zpow_log_le_self (b := 2) (by decide) hx
  have hhigh : x < 2 ^ (Int.log 2 x + 1) := by
    exact_mod_cast Int.lt_zpow_succ_log_self (b := 2) (by decide) x
  have hpower : (0 : ℚ) < 2 ^ (970 : Int) := by positivity
  rw [min_eq_left_iff, infinity_eq, hiddenBit_eq]
  -- only between the last two powers of two it depends on the rounding
  rcases lt_trichotomy (Int.log 2 x) 1023 with hlog | hlog | hlog
  · have hunit : unit x ≤ 970 := by
      rw [unit]
      omega
    have hn53 : n ≤ 2 ^ 53 := by
      have : (n : ℚ) < 2 ^ 53 + 1 := by linarith [hn.bounds.1, div_unit_lt (x := x)]
      exact Nat.lt_succ_iff.1 (by exact_mod_cast this)
    have hsmall : x < tooLarge := by
      have hless : x < 2 ^ (1023 : Int) :=
        lt_of_lt_of_le hhigh (zpow_le_zpow_right₀ (by norm_num) (by omega))
      have hbelow : (2 : ℚ) ^ (970 : Int) ≤ 2 ^ (1023 : Int) :=
        zpow_le_zpow_right₀ (by norm_num) (by norm_num)
      rw [tooLarge, lt_sub_iff_add_lt]
      calc x + 2 ^ (970 : Int) < 2 ^ (1023 : Int) + 2 ^ (1023 : Int) :=
            add_lt_add_of_lt_of_le hless hbelow
        _ = 2 ^ (1023 : Int) * 2 ^ (1 : Int) := by rw [zpow_one, mul_two]
        _ = 2 ^ (1024 : Int) := zpow_mul_zpow (by norm_num)
    constructor
    · intro hinfinite
      omega
    · intro hlarge
      exact absurd hsmall (not_lt.2 hlarge)
  · have hunit : unit x = 971 := by
      rw [unit]
      omega
    rw [hunit] at hn ⊢
    have hcount : 2047 * 2 ^ 52 ≤ ((971 : Int) + 1074).toNat * 2 ^ 52 + n ↔ 2 ^ 53 ≤ n := by
      have : ((971 : Int) + 1074).toNat = 2045 := rfl
      omega
    have hcast : ((2 ^ 53 : Nat) : ℚ) = 2 ^ 53 := Nat.cast_pow 2 53
    rw [hcount, hn.le_iff (by norm_num), hcast, tooLarge_eq, le_div_iff₀ (by positivity)]
  · have hunit : unit x = Int.log 2 x - 52 := by
      rw [unit]
      omega
    have hn52 : 2 ^ 52 ≤ n := by
      refine (hn.le_iff (by norm_num)).2 ?_
      have : ((2 ^ 52 : Nat) : ℚ) ≤ x / 2 ^ unit x := by
        rw [le_div_iff₀ (by positivity), hunit]
        refine le_trans (le_of_eq ?_) hlow
        exact_mod_cast zpow_mul_zpow (a := 52) (by omega)
      linarith
    have hlarge : tooLarge ≤ x := by
      have hbelow : (2 : ℚ) ^ (1024 : Int) ≤ 2 ^ Int.log 2 x :=
        zpow_le_zpow_right₀ (by norm_num) (by omega)
      exact (sub_le_self _ hpower.le).trans (hbelow.trans hlow)
    constructor
    · intro _
      exact hlarge
    · intro _
      omega

end EdnSpans.Binary64
