/-
**The text of a number denotes it.**

Two things happen to a finite binary number before it is a text.  A decimal is chosen that reads
back: one with few digits if some grid offers it, and the exact value otherwise.  Then its digits are
laid out, with a point somewhere among them or zeros around them, or with an exponent.  The literal
that comes of it need not denote the same decimal, for zeros behind the digits become digits
themselves; but it denotes one of the same value.

That is enough, since the magnitude nearest to a decimal depends on its value alone.  The two tests
that answer for huge and tiny decimals, before any power of ten is formed, give what rounding would
give.

Main definitions:

* `EdnSpans.Decimal.value` — the number that a decimal stands for;
* `EdnSpans.FloatLiteral` — a literal with a point or an exponent, **by its parts**.

Main results:

* `EdnSpans.Decimal.roundsTo_magnitude` — the magnitude of a decimal is that of its value;
* `EdnSpans.Decimal.magnitude_shortest` — **the shortest decimal reads back**;
* `EdnSpans.FloatLiteral.ofLiteral?_text` — what a literal denotes;
* `EdnSpans.Decimal.exists_floatLiteral` — every decimal is laid out as a literal of the same value;
* `EdnSpans.Binary64.exists_floatLiteral` — **the text of a finite number is a literal of that
  number**.
-/
import EdnSpans.Number.Shortest
import EdnSpans.Proofs.Number.Rounding
import EdnSpans.Proofs.Token.Integer

set_option relaxedAutoImplicit false
set_option autoImplicit false

namespace EdnSpans

open Text

/-! ### The value of a decimal -/

namespace Decimal

/-- The number that a decimal stands for. -/
def value (d : Decimal) : ℚ := d.coefficient * 10 ^ d.exponent

theorem num_div_den (d : Decimal) : (d.num : ℚ) / d.den = d.value := by
  have hpow (n : Nat) : ((Nat.pow 10 n : Nat) : ℚ) = 10 ^ n := by
    rw [Nat.pow_eq]
    exact_mod_cast rfl
  rw [num, den, value, Nat.cast_mul, hpow, hpow]
  rcases Int.le_total 0 d.exponent with h | h
  · obtain ⟨n, hn⟩ := Int.eq_ofNat_of_zero_le h
    simp [hn]
  · obtain ⟨n, hn⟩ := Int.eq_ofNat_of_zero_le (Int.neg_nonneg.2 h)
    have hexponent : d.exponent = -(n : Int) := by omega
    simp [hexponent, div_eq_mul_inv]

variable {d : Decimal}

theorem value_pos (h : 0 < d.coefficient) : 0 < d.value := by
  rw [value]
  positivity

/-- A decimal that is certainly too large **is too large**. -/
theorem tooLarge_le_of_isHuge (h : 0 < d.coefficient) (hhuge : d.isHuge) :
    Binary64.tooLarge ≤ d.value := by
  simp only [isHuge, Bool.and_eq_true, decide_eq_true_eq] at hhuge
  obtain ⟨n, hn⟩ := Int.eq_ofNat_of_zero_le hhuge.1
  have hcoefficient : (2 : ℚ) ^ (Nat.log2 d.coefficient : Int) ≤ d.coefficient := by
    exact_mod_cast Nat.log2_self_le (Nat.pos_iff_ne_zero.1 h)
  have hten : (2 : ℚ) ^ (3 * d.exponent) ≤ 10 ^ d.exponent := by
    rw [hn, zpow_mul]
    exact_mod_cast Nat.pow_le_pow_left (by norm_num : 2 ^ 3 ≤ 10) n
  have hpower : (0 : ℚ) < 2 ^ (970 : Int) := by positivity
  calc Binary64.tooLarge ≤ 2 ^ (1024 : Int) := sub_le_self _ hpower.le
    _ ≤ 2 ^ ((Nat.log2 d.coefficient : Int) + 3 * d.exponent) :=
        zpow_le_zpow_right₀ (by norm_num) hhuge.2
    _ = 2 ^ (Nat.log2 d.coefficient : Int) * 2 ^ (3 * d.exponent) :=
        (Binary64.zpow_mul_zpow rfl).symm
    _ ≤ d.coefficient * 10 ^ d.exponent := by gcongr

/-- A decimal that is certainly too small **is less than half of the smallest unit**. -/
theorem lt_of_isTiny (htiny : d.isTiny) : d.value < 2 ^ (-1075 : Int) := by
  simp only [isTiny, Bool.and_eq_true, decide_eq_true_eq] at htiny
  obtain ⟨n, hn⟩ := Int.eq_ofNat_of_zero_le (Int.neg_nonneg.2 htiny.1.le)
  have hexponent : d.exponent = -(n : Int) := by omega
  have hcoefficient : (d.coefficient : ℚ) < 2 ^ ((Nat.log2 d.coefficient : Int) + 1) := by
    exact_mod_cast Nat.lt_log2_self (n := d.coefficient)
  have hten : (10 : ℚ) ^ d.exponent ≤ 2 ^ (3 * d.exponent) := by
    rw [hexponent, zpow_mul, zpow_neg, zpow_neg]
    refine inv_anti₀ (by positivity) ?_
    exact_mod_cast Nat.pow_le_pow_left (by norm_num : 2 ^ 3 ≤ 10) n
  calc (d.coefficient : ℚ) * 10 ^ d.exponent
      < 2 ^ ((Nat.log2 d.coefficient : Int) + 1) * 10 ^ d.exponent := by gcongr
    _ ≤ 2 ^ ((Nat.log2 d.coefficient : Int) + 1) * 2 ^ (3 * d.exponent) := by gcongr
    _ = 2 ^ ((Nat.log2 d.coefficient : Int) + 1 + 3 * d.exponent) := Binary64.zpow_mul_zpow rfl
    _ ≤ 2 ^ (-1075 : Int) := zpow_le_zpow_right₀ (by norm_num) htiny.2

/-- The magnitude of a decimal is **that of its value**. -/
theorem roundsTo_magnitude (h : 0 < d.coefficient) : Binary64.RoundsTo d.value d.magnitude := by
  have hden : 0 < d.den := Nat.pow_pos (by decide)
  have hnum : 0 < d.num := Nat.mul_pos h (Nat.pow_pos (by decide))
  have hnearest := Binary64.roundsTo_nearest hnum hden
  rw [num_div_den] at hnearest
  have hmagnitude : d.magnitude = Binary64.nearest d.num d.den := by
    rw [magnitude, if_neg (Nat.pos_iff_ne_zero.1 h)]
    split
    · next hhuge =>
        exact ((hnearest.eq_infinity_iff (value_pos h)).2 (tooLarge_le_of_isHuge h hhuge)).symm
    · split
      · next htiny => exact (hnearest.eq_zero (value_pos h) (lt_of_isTiny htiny)).symm
      · rfl
  rw [hmagnitude]
  exact hnearest

/-- Decimals of the same value **have the same magnitude**. -/
theorem magnitude_congr {d' : Decimal} (h : d.value = d'.value) : d.magnitude = d'.magnitude := by
  have hzero (d : Decimal) : d.coefficient = 0 ↔ d.value = 0 := by
    have hten : (10 : ℚ) ^ d.exponent ≠ 0 := by positivity
    simp [value, hten]
  rcases Nat.eq_zero_or_pos d.coefficient with hd | hd
  · have hd' : d'.coefficient = 0 := by rwa [hzero, ← h, ← hzero]
    simp [magnitude, hd, hd']
  · have hd' : 0 < d'.coefficient := by
      rw [Nat.pos_iff_ne_zero, Ne, hzero, ← h, ← hzero]
      exact Nat.pos_iff_ne_zero.1 hd
    have hround := roundsTo_magnitude hd
    rw [h] at hround
    exact hround.unique (roundsTo_magnitude hd')

theorem magnitude_le_infinity (d : Decimal) : d.magnitude ≤ Binary64.infinity := by
  rw [magnitude]
  repeat' split
  · exact Nat.zero_le _
  · exact Nat.le_refl _
  · exact Nat.zero_le _
  · exact Binary64.nearest_le_infinity _ _

/-- Infinity is the magnitude of the decimals that are too large. -/
theorem magnitude_eq_infinity_iff (d : Decimal) :
    d.magnitude = Binary64.infinity ↔ Binary64.tooLarge ≤ d.value := by
  rcases Nat.eq_zero_or_pos d.coefficient with hd | hd
  · have hpositive : 0 < Binary64.tooLarge := by
      rw [Binary64.tooLarge_eq]
      positivity
    have hmagnitude : d.magnitude = 0 := by simp [magnitude, hd]
    have hvalue : d.value = 0 := by simp [value, hd]
    rw [hmagnitude, hvalue]
    constructor
    · intro h
      exact absurd h (by decide)
    · intro h
      exact absurd hpositive (not_lt.2 h)
  · exact (roundsTo_magnitude hd).eq_infinity_iff (value_pos hd)

/-! ### The shortest decimal -/

/-- A magnitude as a decimal has **the value of the magnitude**. -/
theorem value_exact (m : Nat) : (exact m).value = Binary64.value m := by
  have hpow (n : Nat) : ((Nat.pow 5 n : Nat) : ℚ) = 5 ^ n := by
    rw [Nat.pow_eq]
    exact_mod_cast rfl
  simp only [value, exact, Binary64.value, Nat.cast_mul, hpow, Nat.shiftLeft_eq]
  generalize Binary64.exponent m = q
  rcases Int.le_total 0 q with h | h
  · obtain ⟨n, rfl⟩ := Int.eq_ofNat_of_zero_le h
    simp
  · obtain ⟨n, hn⟩ := Int.eq_ofNat_of_zero_le (Int.neg_nonneg.2 h)
    obtain rfl : q = -(n : Int) := by omega
    -- five parts in ten are a half
    have hhalf : (5 : ℚ) ^ n * (10 ^ n)⁻¹ = (2 ^ n)⁻¹ := by
      rw [← div_eq_mul_inv, ← div_pow, ← inv_pow]
      norm_num
    simp [mul_assoc, hhalf]

theorem magnitude_exact {m : Nat} (hm : 0 < m) (hfinite : m < Binary64.infinity) :
    (exact m).magnitude = m := by
  have hvalue := Binary64.roundsTo_value hm hfinite
  have hpos : 0 < (exact m).coefficient := by
    rw [Nat.pos_iff_ne_zero]
    intro hzero
    have hsignificand : 0 < Binary64.significand m := by
      rw [Binary64.significand]
      split
      · exact hm
      · exact Nat.add_pos_left (by decide) _
    have hproduct : 0 < Binary64.value m := by
      rw [Binary64.value]
      positivity
    rw [← value_exact, value, hzero] at hproduct
    simp at hproduct
  rw [← value_exact] at hvalue
  exact (roundsTo_magnitude hpos).unique hvalue

/-- The shortest decimal **reads back**. -/
theorem magnitude_shortest {m : Nat} (hm : 0 < m) (hfinite : m < Binary64.infinity) :
    (shortest m).magnitude = m := by
  rw [shortest]
  cases hfound : (List.range 20).findSome? fun i : Nat => candidate? m (startExponent m - i) with
  | none => exact magnitude_exact hm hfinite
  | some d =>
      obtain ⟨i, -, hi⟩ := List.exists_of_findSome?_eq_some hfound
      exact magnitude_candidate? hi

end Decimal

/-! ### Literals by their parts -/

/-- A literal of a floating-point number without a sign: digits, then a point and more digits, then
an exponent.  One of the last two may be missing. -/
structure FloatLiteral where
  /-- The digits before the point. -/
  whole : Text
  /-- The digits behind the point. -/
  fraction : Option Text
  /-- The exponent. -/
  power : Option Int
  whole_ne_nil : whole ≠ []
  whole_digits : ∀ c ∈ whole, c.isDigit
  fraction_digits : ∀ digits ∈ fraction, ∀ c ∈ digits, c.isDigit
  marked : fraction.isSome ∨ power.isSome

namespace FloatLiteral

variable (l : FloatLiteral)

/-- How the point and the digits behind it are written. -/
def fractionText : Text := (l.fraction.map ('.' :: ·)).getD []

/-- How the exponent is written. -/
def powerText : Text := (l.power.map fun p => 'e' :: Radix.integerText p).getD []

/-- How the literal is written. -/
def text : Text := l.whole ++ (l.fractionText ++ l.powerText)

/-- The decimal that the literal denotes: all digits make up one number, and those behind the point
move it. -/
def decimal : Decimal :=
  ⟨Base.ten.value (l.whole ++ l.fraction.getD []), l.power.getD 0 - (l.fraction.getD []).length⟩

theorem powerText_eq : l.powerText = [] ∨ ∃ p, l.powerText = 'e' :: Radix.integerText p := by
  rw [powerText]
  cases l.power with
  | none => exact .inl rfl
  | some p => exact .inr ⟨p, rfl⟩

/-- What a literal **denotes**. -/
theorem ofLiteral?_text : Decimal.ofLiteral? l.text = some l.decimal := by
  have htake {digits rest : Text} (hdigits : ∀ c ∈ digits, c.isDigit)
      (hrest : rest.head?.any Char.isDigit = false) :
      (digits ++ rest).takeWhile Char.isDigit = digits
        ∧ (digits ++ rest).dropWhile Char.isDigit = rest := by
    rw [List.takeWhile_append_of_pos hdigits, List.dropWhile_append_of_pos hdigits]
    cases rest with
    | nil => simp
    | cons c rest =>
        have hc : ¬c.isDigit = true := by simpa using hrest
        rw [List.takeWhile_cons_of_neg hc, List.dropWhile_cons_of_neg hc, List.append_nil]
        exact ⟨rfl, rfl⟩
  have hpower : l.powerText.head?.any Char.isDigit = false := by
    rcases l.powerText_eq with h | ⟨p, h⟩
    · rw [h]; rfl
    · rw [h]; rfl
  have hexponent : Decimal.exponentPart? l.powerText = some (l.power.getD 0) := by
    rw [powerText]
    cases l.power with
    | none => rfl
    | some p => simp [Decimal.exponentPart?, Radix.integer?_integerText]
  have htail : (l.fractionText ++ l.powerText).head?.any Char.isDigit = false := by
    rw [fractionText]
    cases l.fraction with
    | none => exact hpower
    | some digits => rfl
  have hsplit : Decimal.splitFraction (l.fractionText ++ l.powerText)
      = (l.fraction.getD [], l.powerText) := by
    have hdigits := l.fraction_digits
    rw [fractionText]
    cases hfraction : l.fraction with
    | none =>
        rcases l.powerText_eq with h | ⟨p, h⟩
        · rw [h]; rfl
        · rw [h]; rfl
    | some digits =>
        obtain ⟨h₁, h₂⟩ := htake (hdigits digits hfraction) hpower
        simp [Decimal.splitFraction, h₁, h₂]
  have hall : (l.whole ++ l.fraction.getD []).all Base.ten.isDigit := by
    have hdigits := l.fraction_digits
    rw [List.all_append, Bool.and_eq_true, List.all_eq_true, List.all_eq_true]
    refine ⟨l.whole_digits, ?_⟩
    cases hfraction : l.fraction with
    | none => simp
    | some digits => exact hdigits digits hfraction
  have hdenotes : Base.ten.Denotes (l.whole ++ l.fraction.getD [])
      (Base.ten.value (l.whole ++ l.fraction.getD [])) :=
    ⟨List.append_ne_nil_of_left_ne_nil l.whole_ne_nil _, hall, rfl⟩
  have hnatural : Radix.natural? 10 (l.whole ++ l.fraction.getD [])
      = some (Base.ten.value (l.whole ++ l.fraction.getD [])) :=
    Base.natural?_eq_some_iff.2 hdenotes
  obtain ⟨h₁, h₂⟩ := htake l.whole_digits htail
  simp only [Decimal.ofLiteral?, text, h₁, h₂, hsplit, hnatural, hexponent, Option.bind_some,
    Option.map_some, decimal]

end FloatLiteral

/-! ### The layout of a decimal -/

theorem Base.value_append (base : Base) (s t : Text) :
    base.value (s ++ t) = base.value s * base.size ^ t.length + base.value t := by
  induction s with
  | nil => simp [value]
  | cons c s ih =>
      rw [List.cons_append, value_cons, ih, value_cons, List.length_append, pow_add]
      ring

theorem Base.value_decimalText (n : Nat) : Base.ten.value (Radix.decimalText n) = n := by
  have hdenotes : Base.ten.Denotes (Radix.decimalText n) n :=
    Base.natural?_eq_some_iff.1 (Radix.natural?_decimalText n)
  exact hdenotes.2.2.symm

theorem Base.value_zeros (n : Nat) : Base.ten.value (List.replicate n '0') = 0 := by
  induction n with
  | zero => rfl
  | succ n ih =>
      have hzero : digitValue '0' = 0 := by decide +kernel
      rw [List.replicate_succ, value_cons, ih, hzero, Nat.zero_mul]

theorem isDigit_of_mem_zeros {n : Nat} {c : Char} (h : c ∈ List.replicate n '0') : c.isDigit := by
  rw [List.eq_of_mem_replicate h]
  rfl

namespace Decimal

variable (d : Decimal)

/-- The digits of a whole number are followed by zeros, and the zeros **are digits, too**. -/
theorem positional_whole (h : 0 ≤ d.exponent) :
    ∃ l : FloatLiteral, d.positional floatStyle = l.text ∧ l.decimal.value = d.value := by
  obtain ⟨n, hn⟩ := Int.eq_ofNat_of_zero_le h
  refine ⟨{ whole := Radix.decimalText d.coefficient ++ List.replicate n '0'
            fraction := some ['0']
            power := none
            whole_ne_nil := by simp [Radix.decimalText]
            whole_digits := ?_
            fraction_digits := by simp
            marked := .inl rfl }, ?_, ?_⟩
  · intro c hc
    rcases List.mem_append.1 hc with hc | hc
    · exact Radix.isDigit_of_mem_decimalText hc
    · exact isDigit_of_mem_zeros hc
  · simp [positional, hn, floatStyle, FloatLiteral.text, FloatLiteral.fractionText,
      FloatLiteral.powerText]
  · -- the zero behind the point counts one more power of ten, and the exponent takes it back
    have hzero : digitValue '0' = 0 := by decide +kernel
    have hvalue : Base.ten.value (Radix.decimalText d.coefficient ++ List.replicate n '0' ++ ['0'])
        = d.coefficient * 10 ^ n * 10 := by
      rw [Base.value_append, Base.value_append, Base.value_decimalText, Base.value_zeros,
        Base.value_cons, hzero]
      simp [Base.size, Base.value]
    simp only [value, FloatLiteral.decimal, Option.getD_some, Option.getD_none, hvalue, hn]
    push_cast
    norm_num
    rw [mul_assoc]
    norm_num

/-- The point may stand **among the digits**. -/
theorem positional_among (h : d.exponent < 0) (hpower : 0 ≤ d.leadingPower) :
    ∃ l : FloatLiteral, d.positional floatStyle = l.text ∧ l.decimal.value = d.value := by
  obtain ⟨p, hp⟩ := Int.eq_ofNat_of_zero_le hpower
  have hlength : 0 < (Radix.decimalText d.coefficient).length := Nat.length_toDigits_pos
  have hdigits {c : Char} (hc : c ∈ Radix.decimalText d.coefficient) : c.isDigit :=
    Radix.isDigit_of_mem_decimalText hc
  have hshift : ((Radix.decimalText d.coefficient).length : Int) - (p + 1) = -d.exponent := by
    rw [leadingPower] at hp
    omega
  refine ⟨{ whole := (Radix.decimalText d.coefficient).take (p + 1)
            fraction := some ((Radix.decimalText d.coefficient).drop (p + 1))
            power := none
            whole_ne_nil := by
              rw [← List.length_pos_iff, List.length_take]
              omega
            whole_digits := fun c hc => hdigits (List.mem_of_mem_take hc)
            fraction_digits := by
              rintro _ ⟨⟩ c hc
              exact hdigits (List.mem_of_mem_drop hc)
            marked := .inl rfl }, ?_, ?_⟩
  · have hneg : ¬0 ≤ d.exponent := by omega
    simp [positional, hneg, hp, FloatLiteral.text, FloatLiteral.fractionText,
      FloatLiteral.powerText]
  · congr 1
    simp only [FloatLiteral.decimal, Option.getD_some, Option.getD_none, List.take_append_drop,
      Base.value_decimalText, List.length_drop]
    congr 1
    omega

/-- It may stand **in front of them**, with zeros between. -/
theorem positional_before (hpower : d.leadingPower < 0) :
    ∃ l : FloatLiteral, d.positional floatStyle = l.text ∧ l.decimal.value = d.value := by
  have hlength : 0 < (Radix.decimalText d.coefficient).length := Nat.length_toDigits_pos
  have hneg : d.exponent < 0 := by
    rw [leadingPower] at hpower
    omega
  refine ⟨{ whole := ['0']
            fraction := some (List.replicate (-d.leadingPower - 1).toNat '0'
              ++ Radix.decimalText d.coefficient)
            power := none
            whole_ne_nil := by simp
            whole_digits := by simp
            fraction_digits := ?_
            marked := .inl rfl }, ?_, ?_⟩
  · rintro _ ⟨⟩ c hc
    rcases List.mem_append.1 hc with hc | hc
    · exact isDigit_of_mem_zeros hc
    · exact Radix.isDigit_of_mem_decimalText hc
  · have hexponent : ¬0 ≤ d.exponent := by omega
    have hleading : ¬0 ≤ d.leadingPower := by omega
    simp [positional, hexponent, hleading, FloatLiteral.text, FloatLiteral.fractionText,
      FloatLiteral.powerText]
  · have hzeros : ['0'] ++ (List.replicate (-d.leadingPower - 1).toNat '0'
          ++ Radix.decimalText d.coefficient)
        = List.replicate ((-d.leadingPower - 1).toNat + 1) '0'
          ++ Radix.decimalText d.coefficient := rfl
    congr 1
    simp only [FloatLiteral.decimal, Option.getD_some, Option.getD_none, hzeros, Base.value_append,
      Base.value_zeros, Base.value_decimalText, Nat.zero_mul, Nat.zero_add, List.length_append,
      List.length_replicate]
    congr 1
    rw [leadingPower] at hpower ⊢
    omega

/-- With an exponent it stands **behind the first digit**, if there are more. -/
theorem scientific_eq :
    ∃ l : FloatLiteral, d.scientific floatStyle = l.text ∧ l.decimal.value = d.value := by
  obtain ⟨c, rest, htext⟩ : ∃ c rest, Radix.decimalText d.coefficient = c :: rest :=
    List.exists_cons_of_length_pos Nat.length_toDigits_pos
  have hdigits : ∀ e ∈ c :: rest, e.isDigit := by
    intro e he
    rw [← htext] at he
    exact Radix.isDigit_of_mem_decimalText he
  refine ⟨{ whole := [c]
            fraction := if rest.isEmpty then none else some rest
            power := some d.leadingPower
            whole_ne_nil := by simp
            whole_digits := by simpa using hdigits c (List.mem_cons_self ..)
            fraction_digits := ?_
            marked := .inr rfl }, ?_, ?_⟩
  · intro digits hfraction e he
    split at hfraction
    · cases hfraction
    · cases hfraction
      exact hdigits e (List.mem_cons_of_mem _ he)
  · cases rest <;> simp [scientific, htext, floatStyle, FloatLiteral.text,
      FloatLiteral.fractionText, FloatLiteral.powerText]
  · have hrest : (if rest.isEmpty then none else some rest).getD [] = rest := by
      cases rest <;> rfl
    congr 1
    simp only [FloatLiteral.decimal, hrest, Option.getD_some, List.singleton_append, ← htext,
      Base.value_decimalText]
    congr 1
    rw [leadingPower, htext, List.length_cons]
    omega

/-- Every decimal is laid out as a literal **of the same value**. -/
theorem exists_floatLiteral :
    ∃ l : FloatLiteral, d.text floatStyle = l.text ∧ l.decimal.value = d.value := by
  rw [text]
  split
  · rcases Int.lt_or_le d.exponent 0 with h | h
    · rcases Int.lt_or_le d.leadingPower 0 with hpower | hpower
      · exact d.positional_before hpower
      · exact d.positional_among h hpower
    · exact d.positional_whole h
  · exact d.scientific_eq

end Decimal

/-! ### The text of a number -/

namespace Binary64

/-- The text of a finite number, **its sign apart, is a literal** of the same magnitude. -/
theorem exists_floatLiteral {x : Binary64} (h : x.magnitude < infinity) :
    ∃ l : FloatLiteral, x.text = (if x.negative then ['-'] else []) ++ l.text
      ∧ l.decimal.magnitude = x.magnitude := by
  have hnan : x.isNaN = false := by
    rw [isNaN, decide_eq_false_iff_not]
    omega
  have hinfinite : x.isInfinite = false := by
    rw [isInfinite, decide_eq_false_iff_not]
    omega
  rw [text, hnan, hinfinite]
  simp only [Bool.false_eq_true, if_false]
  rcases Nat.eq_zero_or_pos x.magnitude with hzero | hpos
  · have hisZero : x.isZero = true := by simp [isZero, hzero]
    refine ⟨{ whole := ['0'], fraction := some ['0'], power := none, whole_ne_nil := by simp,
              whole_digits := by simp, fraction_digits := by simp, marked := .inl rfl }, ?_, ?_⟩
    · simp [hisZero, FloatLiteral.text, FloatLiteral.fractionText, FloatLiteral.powerText]
    · rw [hzero]
      decide +kernel
  · have hisZero : x.isZero = false := by simp [isZero, Nat.pos_iff_ne_zero.1 hpos]
    obtain ⟨l, htext, hvalue⟩ := (Decimal.shortest x.magnitude).exists_floatLiteral
    refine ⟨l, ?_, ?_⟩
    · simp [hisZero, htext]
    · rw [Decimal.magnitude_congr hvalue, Decimal.magnitude_shortest hpos h]

end Binary64

end EdnSpans
