/-
**Which words are read as integers.**

An integer is written as digits with at most one sign before them, in base ten, or in base sixteen
with a mark between the sign and the digits.  Its number is what the digits denote by their places,
with the sign applied, and it has to fit in 64 bits.  All of this can be said of a word without
reading it.

In base ten the words that are read are exactly these.  In base sixteen they are not, and in two
ways.  The text behind the mark is read as a number with a sign of its own, so `0x-5` is read,
though no sign belongs there.  And the number behind the mark has to fit before the sign in front of it is
applied, so the least number of all cannot be written: its digits denote one that does not fit.
Apart from these two the words agree, and whatever is not read is rejected as a bad number.

Main definitions:

* `EdnSpans.Base.value` — the number that digits denote;
* `EdnSpans.Base.Spells` — **how an integer is written**;
* `EdnSpans.SpelledHex`, `EdnSpans.SpelledDecimal` — in the two bases;
* `EdnSpans.ReadAsHex` — what is read in base sixteen;
* `EdnSpans.Cursor.ReadsInteger`, `EdnSpans.Cursor.RejectsNumber` — what becomes of a word.

Main results:

* `EdnSpans.Base.integer?_eq_some_iff` — reading digits gives the number they denote;
* `EdnSpans.Cursor.next_of_beginsNumber` — the step over a word that begins like a number;
* `EdnSpans.integer_literals_read` — **which words are read as integers, and as which**;
* `EdnSpans.hex_literals_misread` — the two ways in which base sixteen is read amiss.
-/
import EdnSpans.Proofs.Token.Canonical
import EdnSpans.Token.Cursor
import Mathlib.Data.Nat.Digits.Defs

set_option relaxedAutoImplicit false
set_option autoImplicit false

namespace EdnSpans

open Text

/-! ### Digits -/

/-- The bases in which integers are written. -/
inductive Base
  | ten
  | sixteen
  deriving DecidableEq, Repr

/-- The value of a digit is its place in the row of all digits, whatever its case. -/
def digitValue (c : Char) : Nat := "0123456789abcdef".toList.idxOf c.toLower

namespace Base

/-- How many digits there are. -/
def size : Base → Nat
  | .ten => 10
  | .sixteen => 16

/-- The digits of the base. -/
def isDigit : Base → Char → Bool
  | .ten => Char.isDigit
  | .sixteen => isHexDigit

/-- The number that digits denote: the last one counts once, and each of the others counts as much
as the size of the base makes of the one behind it. -/
def value (base : Base) (digits : Text) : Nat :=
  Nat.ofDigits base.size (digits.reverse.map digitValue)

theorem value_cons (base : Base) (c : Char) (t : Text) :
    base.value (c :: t) = digitValue c * base.size ^ t.length + base.value t := by
  have hlength : (t.reverse.map digitValue).length = t.length := by simp
  rw [value, List.reverse_cons, List.map_append, Nat.ofDigits_append, hlength, List.map_singleton,
    Nat.ofDigits_singleton, Nat.mul_comm, Nat.add_comm, value]

/-- The digits are read as what they are worth, and nothing else is read as a digit. -/
theorem digit?_eq (base : Base) (c : Char) :
    Radix.digit? base.size c = if base.isDigit c then some (digitValue c) else none := by
  by_cases hascii : c.toNat < 128
  · have hall : ∀ i : Fin 128, Radix.digit? base.size (Char.ofNat i)
        = if base.isDigit (Char.ofNat i) then some (digitValue (Char.ofNat i)) else none := by
      cases base <;> decide +kernel
    have hc := hall ⟨c.toNat, hascii⟩
    rwa [Char.ofNat_toNat] at hc
  · -- all ranges of digits and letters end below
    have hbeyond (d : Char) (hd : d.toNat < 128) : ¬c ≤ d := by
      intro hle
      have : c.toNat ≤ d.toNat := hle
      omega
    have hrank : Radix.rank? c = none := by
      simp [Radix.rank?, hbeyond '9' (by decide), hbeyond 'z' (by decide), hbeyond 'Z' (by decide)]
    have hten : c.isDigit = false := by
      have := hbeyond '9' (by decide)
      simp only [Char.isDigit, Bool.and_eq_false_imp, decide_eq_true_eq, decide_eq_false_iff_not]
      exact fun _ => this
    have hdigit : base.isDigit c = false := by
      cases base with
      | ten => exact hten
      | sixteen =>
          simp [isDigit, isHexDigit, hten, hbeyond 'f' (by decide), hbeyond 'F' (by decide)]
    rw [Radix.digit?, hrank, hdigit]
    rfl

/-- Digits that continue a number shift it by their count. -/
theorem extend?_eq_some_iff {base : Base} {n m : Nat} {t : Text} :
    Radix.extend? base.size n t = some m
      ↔ t.all base.isDigit ∧ m = n * base.size ^ t.length + base.value t := by
  induction t generalizing n with
  | nil =>
      simp only [Radix.extend?, List.all_nil, true_and, Option.some.injEq, List.length_nil,
        Nat.pow_zero, Nat.mul_one]
      exact eq_comm
  | cons c t ih =>
      rw [Radix.extend?, digit?_eq, List.all_cons]
      by_cases hc : base.isDigit c
      · rw [if_pos hc, Option.bind_some, ih, value_cons, List.length_cons, Nat.pow_succ]
        have hshift : (n * base.size + digitValue c) * base.size ^ t.length + base.value t
            = n * (base.size ^ t.length * base.size)
              + (digitValue c * base.size ^ t.length + base.value t) := by ring
        rw [hshift]
        simp [hc]
      · rw [if_neg hc]
        simp [hc]

/-- **At least one digit and nothing else**, and the number that they denote. -/
def Denotes (base : Base) (digits : Text) (n : Nat) : Prop :=
  digits ≠ [] ∧ digits.all base.isDigit ∧ n = base.value digits

instance (base : Base) (digits : Text) (n : Nat) : Decidable (base.Denotes digits n) :=
  inferInstanceAs (Decidable (_ ∧ _ ∧ _))

theorem natural?_eq_some_iff {base : Base} {n : Nat} {t : Text} :
    Radix.natural? base.size t = some n ↔ base.Denotes t n := by
  cases t with
  | nil => simp [Radix.natural?, Denotes]
  | cons c t =>
      rw [Radix.natural?, if_neg (by simp), extend?_eq_some_iff]
      simp [Denotes]

end Base

/-! ### Signs -/

/-- What may stand before the digits. -/
inductive Sign
  | absent
  | plus
  | minus
  deriving DecidableEq, Repr

/-- The text does not begin with a sign. -/
def Unsigned (t : Text) : Prop := t.head? ≠ some '+' ∧ t.head? ≠ some '-'

instance : DecidablePred Unsigned := fun _ => inferInstanceAs (Decidable (_ ∧ _))

namespace Sign

/-- How it is written. -/
def text : Sign → Text
  | .absent => []
  | .plus => ['+']
  | .minus => ['-']

/-- The number with the sign. -/
def apply : Sign → Int → Int
  | .minus, n => -n
  | _, n => n

/-- Whether it is a minus. -/
def isMinus : Sign → Bool
  | .minus => true
  | _ => false

theorem signed_isMinus (sign : Sign) (n : Nat) : Radix.signed sign.isMinus n = sign.apply n := by
  cases sign <;> rfl

theorem apply_of_isMinus (sign : Sign) (n : Int) :
    (if sign.isMinus then -n else n) = sign.apply n := by
  cases sign <;> rfl

/-- A sign is split off, **and no more than one**. -/
theorem splitSign_text_append (sign : Sign) {t : Text} (h : Unsigned t) :
    Radix.splitSign (sign.text ++ t) = (sign.isMinus, t) := by
  cases sign with
  | absent =>
      rw [text, List.nil_append, Radix.splitSign.eq_def]
      split
      · exact absurd rfl h.2
      · exact absurd rfl h.1
      · rfl
  | plus => rfl
  | minus => rfl

theorem eq_absent_of_unsigned {sign : Sign} {t : Text} (h : Unsigned (sign.text ++ t)) :
    sign = .absent := by
  cases sign with
  | absent => rfl
  | plus => exact absurd rfl h.1
  | minus => exact absurd rfl h.2

theorem exists_splitSign (t : Text) :
    ∃ sign : Sign, t = sign.text ++ (Radix.splitSign t).2
      ∧ (Radix.splitSign t).1 = sign.isMinus := by
  rw [Radix.splitSign.eq_def]
  split
  · exact ⟨.minus, rfl, rfl⟩
  · exact ⟨.plus, rfl, rfl⟩
  · exact ⟨.absent, rfl, rfl⟩

end Sign

/-- Digits are no signs. -/
theorem Base.unsigned_cons (base : Base) {c : Char} (hc : base.isDigit c) (t : Text) :
    Unsigned (c :: t) := by
  constructor
  · rintro ⟨⟩
    cases base <;> exact absurd hc (by decide)
  · rintro ⟨⟩
    cases base <;> exact absurd hc (by decide)

theorem Base.unsigned (base : Base) {t : Text} (h : t.all base.isDigit) : Unsigned t := by
  cases t with
  | nil => simp [Unsigned]
  | cons c t =>
      rw [List.all_cons, Bool.and_eq_true] at h
      exact base.unsigned_cons h.1 t

/-! ### How integers are written -/

/-- Digits with **at most one sign** before them, and the number with the sign. -/
def Base.Spells (base : Base) (w : Text) (n : Int) : Prop :=
  ∃ (sign : Sign) (digits : Text) (m : Nat),
    w = sign.text ++ digits ∧ base.Denotes digits m ∧ n = sign.apply m

/-- The marks of base sixteen. -/
def hexMarks : List Text := [['0', 'x'], ['0', 'X']]

/-- The word is the sign, a mark of base sixteen and what is left behind it. -/
def HexParts (w : Text) (sign : Sign) (inner : Text) : Prop :=
  ∃ mark ∈ hexMarks, w = sign.text ++ (mark ++ inner)

/-- The integer is written in base ten. -/
def SpelledDecimal (w : Text) (n : Int) : Prop := Base.ten.Spells w n

/-- The integer is written in base sixteen: the mark stands **between the sign and the digits**. -/
def SpelledHex (w : Text) (n : Int) : Prop :=
  ∃ (sign : Sign) (digits : Text) (m : Nat),
    HexParts w sign digits ∧ Base.sixteen.Denotes digits m ∧ n = sign.apply m

/-- The mark of base sixteen stands at the front, perhaps behind a sign. -/
def HexMarked (w : Text) : Prop := ∃ sign inner, HexParts w sign inner

/-- It stands there, and **another sign stands behind it**. -/
def SignedBehindMark (w : Text) : Prop := ∃ sign inner, HexParts w sign inner ∧ ¬Unsigned inner

/-- There is neither a point nor the mark of an exponent. -/
def Pointless (w : Text) : Prop := '.' ∉ w ∧ 'e' ∉ w ∧ 'E' ∉ w

/-- The number fits in 64 bits. -/
def Fits64 (n : Int) : Prop := -2 ^ 63 ≤ n ∧ n ≤ 2 ^ 63 - 1

/-- What is read in base sixteen: **a number with a sign of its own** behind the mark, which fits
before the sign in front of the mark is applied, and after. -/
def ReadAsHex (w : Text) (n : Int) : Prop :=
  ∃ (sign : Sign) (inner : Text) (m : Int),
    HexParts w sign inner ∧ Base.sixteen.Spells inner m ∧ Fits64 m ∧ n = sign.apply m ∧ Fits64 n

instance : DecidablePred Pointless := fun _ => inferInstanceAs (Decidable (_ ∧ _))

instance : DecidablePred Fits64 := fun _ => inferInstanceAs (Decidable (_ ∧ _))

/-- What is read as a number in a base is **written as that number**. -/
theorem Base.integer?_eq_some_iff (base : Base) {w : Text} {n : Int} :
    Radix.integer? base.size w = some n ↔ base.Spells w n := by
  rw [Radix.integer?, Option.map_eq_some_iff]
  constructor
  · rintro ⟨m, hm, rfl⟩
    obtain ⟨sign, hw, hminus⟩ := Sign.exists_splitSign w
    refine ⟨sign, _, m, hw, Base.natural?_eq_some_iff.1 hm, ?_⟩
    rw [hminus, sign.signed_isMinus]
  · rintro ⟨sign, digits, m, rfl, hdenotes, rfl⟩
    rw [sign.splitSign_text_append (base.unsigned hdenotes.2.1)]
    exact ⟨m, Base.natural?_eq_some_iff.2 hdenotes, sign.signed_isMinus m⟩

namespace HexParts

variable {w inner : Text} {sign : Sign}

/-- The parts are **those that are split off**. -/
theorem split (h : HexParts w sign inner) :
    (Radix.splitSign w).1 = sign.isMinus
      ∧ Literal.hexDigits? (Radix.splitSign w).2 = some inner := by
  obtain ⟨mark, hmark, rfl⟩ := h
  simp only [hexMarks, List.mem_cons, List.not_mem_nil, or_false] at hmark
  have hshape : Unsigned (mark ++ inner) ∧ Literal.hexDigits? (mark ++ inner) = some inner := by
    rcases hmark with rfl | rfl
    · exact ⟨by simp [Unsigned], rfl⟩
    · exact ⟨by simp [Unsigned], rfl⟩
  rw [sign.splitSign_text_append hshape.1]
  exact ⟨rfl, hshape.2⟩

theorem exists_of_hexDigits? (h : Literal.hexDigits? (Radix.splitSign w).2 = some inner) :
    ∃ sign, HexParts w sign inner := by
  obtain ⟨sign, hw, -⟩ := Sign.exists_splitSign w
  refine ⟨sign, ?_⟩
  rw [Literal.hexDigits?.eq_def] at h
  split at h
  · next t ht =>
      cases h
      exact ⟨['0', 'x'], List.mem_cons_self .., by rw [hw, ht]; rfl⟩
  · next t ht =>
      cases h
      exact ⟨['0', 'X'], List.mem_cons_of_mem _ (List.mem_cons_self ..), by rw [hw, ht]; rfl⟩
  · cases h

end HexParts

theorem hexMarked_iff {w : Text} :
    HexMarked w ↔ (Literal.hexDigits? (Radix.splitSign w).2).isSome := by
  rw [Option.isSome_iff_exists]
  constructor
  · rintro ⟨sign, inner, hparts⟩
    exact ⟨inner, hparts.split.2⟩
  · rintro ⟨inner, hinner⟩
    obtain ⟨sign, hparts⟩ := HexParts.exists_of_hexDigits? hinner
    exact ⟨sign, inner, hparts⟩

theorem signedBehindMark_iff {w : Text} :
    SignedBehindMark w ↔ ∃ inner ∈ Literal.hexDigits? (Radix.splitSign w).2, ¬Unsigned inner := by
  constructor
  · rintro ⟨sign, inner, hparts, hsigned⟩
    exact ⟨inner, hparts.split.2, hsigned⟩
  · rintro ⟨inner, hinner, hsigned⟩
    obtain ⟨sign, hparts⟩ := HexParts.exists_of_hexDigits? hinner
    exact ⟨sign, inner, hparts, hsigned⟩

instance : DecidablePred HexMarked := fun _ => decidable_of_iff' _ hexMarked_iff

instance : DecidablePred SignedBehindMark := fun _ => decidable_of_iff' _ signedBehindMark_iff

/-- What is written in base sixteen has **no sign behind the mark**. -/
theorem SpelledHex.not_signedBehindMark {w : Text} {n : Int} (h : SpelledHex w n) :
    ¬SignedBehindMark w := by
  rintro ⟨sign', inner, hparts', hsigned⟩
  obtain ⟨sign, digits, m, hparts, ⟨-, hdigits, -⟩, -⟩ := h
  obtain rfl : inner = digits := Option.some.inj (hparts'.split.2.symm.trans hparts.split.2)
  exact hsigned (Base.sixteen.unsigned hdigits)

/-- With no sign behind the mark what is read is what is written, **but for the least number**. -/
theorem readAsHex_iff {w : Text} (h : ¬SignedBehindMark w) {n : Int} :
    ReadAsHex w n ↔ SpelledHex w n ∧ Fits64 n ∧ n ≠ -2 ^ 63 := by
  constructor
  · rintro ⟨sign, inner, -, hparts, ⟨inside, digits, m, hinner, hdenotes, rfl⟩, hm, rfl, hn⟩
    have hunsigned : Unsigned inner := by
      by_contra hsigned
      exact h ⟨sign, inner, hparts, hsigned⟩
    rw [hinner] at hunsigned
    obtain rfl := Sign.eq_absent_of_unsigned hunsigned
    obtain rfl : inner = digits := hinner
    refine ⟨⟨sign, inner, m, hparts, hdenotes, rfl⟩, hn, ?_⟩
    -- behind the mark nothing is negative, and the greatest number is nearer to zero than the least
    have hgreatest := hm.2
    cases sign <;> simp only [Sign.apply] at hgreatest ⊢ <;> omega
  · rintro ⟨⟨sign, digits, m, hparts, hdenotes, rfl⟩, hn, hleast⟩
    refine ⟨sign, digits, m, hparts, ⟨.absent, digits, m, rfl, hdenotes, rfl⟩, ?_, rfl, hn⟩
    obtain ⟨hlow, hhigh⟩ := hn
    rw [Fits64]
    cases sign <;> simp only [Sign.apply] at hlow hhigh hleast <;> omega

/-! ### The literals of integers -/

/-- What narrows to 64 bits **is what fits**. -/
theorem Radix.int64?_eq_some_iff {n : Int} {v : Int64} :
    int64? n = some v ↔ Fits64 n ∧ v.toInt = n := by
  constructor
  · intro h
    obtain rfl := toInt_int64? h
    exact ⟨⟨v.minValue_le_toInt, v.toInt_le⟩, rfl⟩
  · rintro ⟨-, rfl⟩
    exact int64?_toInt v

theorem Radix.exists_int64? {n : Int} (h : Fits64 n) : ∃ v, int64? n = some v :=
  ⟨_, if_pos h⟩

namespace Literal

variable {w : Text} {n : Int}

/-- In base ten the literals of integers are **those that spell one that fits**. -/
theorem decimal_eq_some_iff :
    (∃ v : Int64, (Radix.integer? 10 w).bind Radix.int64? = some v ∧ v.toInt = n)
      ↔ SpelledDecimal w n ∧ Fits64 n := by
  have hspells {m : Int} : Radix.integer? 10 w = some m ↔ SpelledDecimal w m :=
    Base.ten.integer?_eq_some_iff
  constructor
  · rintro ⟨v, hv, rfl⟩
    obtain ⟨m, hm, hfits⟩ := Option.bind_eq_some_iff.1 hv
    obtain ⟨hm64, rfl⟩ := Radix.int64?_eq_some_iff.1 hfits
    exact ⟨hspells.1 hm, hm64⟩
  · rintro ⟨hspelled, hfits⟩
    obtain ⟨v, hv⟩ := Radix.exists_int64? hfits
    exact ⟨v, Option.bind_eq_some_iff.2 ⟨n, hspells.2 hspelled, hv⟩, Radix.toInt_int64? hv⟩

/-- Behind the mark of base sixteen a number is read **with a sign of its own**. -/
theorem hexNumber?_eq_some_iff {sign : Sign} {inner : Text} :
    (∃ v : Int64, hexNumber? sign.isMinus inner = some v ∧ v.toInt = n)
      ↔ ∃ m, Base.sixteen.Spells inner m ∧ Fits64 m ∧ n = sign.apply m ∧ Fits64 n := by
  have hspells {m : Int} : Radix.integer? 16 inner = some m ↔ Base.sixteen.Spells inner m :=
    Base.sixteen.integer?_eq_some_iff
  constructor
  · rintro ⟨v, hv, rfl⟩
    obtain ⟨u, hu, houter⟩ := Option.bind_eq_some_iff.1 hv
    obtain ⟨m, hm, hinner⟩ := Option.bind_eq_some_iff.1 hu
    obtain ⟨hm64, rfl⟩ := Radix.int64?_eq_some_iff.1 hinner
    rw [sign.apply_of_isMinus] at houter
    obtain ⟨hn64, hn⟩ := Radix.int64?_eq_some_iff.1 houter
    rw [← hn] at hn64
    exact ⟨u.toInt, hspells.1 hm, hm64, hn, hn64⟩
  · rintro ⟨m, hspelled, hm64, rfl, hn64⟩
    obtain ⟨u, hu⟩ := Radix.exists_int64? hm64
    obtain ⟨v, hv⟩ := Radix.exists_int64? hn64
    refine ⟨v, ?_, Radix.toInt_int64? hv⟩
    rw [hexNumber?, hspells.2 hspelled, Option.bind_some, hu, Option.bind_some,
      sign.apply_of_isMinus, Radix.toInt_int64? hu, hv]

theorem number?_of_hexParts {sign : Sign} {inner : Text} (h : HexParts w sign inner) :
    number? w = (hexNumber? sign.isMinus inner).map .integer := by
  obtain ⟨hminus, hdigits⟩ := h.split
  simp only [number?, hdigits, hminus]

theorem number?_of_pointless (hmark : ¬HexMarked w) (hpoint : Pointless w) :
    number? w = ((Radix.integer? 10 w).bind Radix.int64?).map .integer := by
  have hdigits : hexDigits? (Radix.splitSign w).2 = none := by
    simpa [hexMarked_iff] using hmark
  have hany : (Radix.splitSign w).2.any (fun c => c = '.' || c = 'e' || c = 'E') = false := by
    obtain ⟨sign, hw, -⟩ := Sign.exists_splitSign w
    rw [List.any_eq_false]
    intro c hc
    have hmem : c ∈ w := by
      rw [hw]
      exact List.mem_append_right _ hc
    simp only [Bool.or_eq_true, decide_eq_true_eq, not_or]
    refine ⟨⟨?_, ?_⟩, ?_⟩
    · rintro rfl
      exact hpoint.1 hmem
    · rintro rfl
      exact hpoint.2.1 hmem
    · rintro rfl
      exact hpoint.2.2 hmem
  simp only [number?, hdigits, hany, Bool.false_eq_true, if_false]

/-- The literals of neither base are anything but integers. -/
theorem exists_number?_eq (h : HexMarked w ∨ Pointless w) :
    ∃ o : Option Int64, number? w = o.map .integer := by
  by_cases hmark : HexMarked w
  · obtain ⟨sign, inner, hparts⟩ := hmark
    exact ⟨_, number?_of_hexParts hparts⟩
  · exact ⟨_, number?_of_pointless hmark (h.resolve_left hmark)⟩

end Literal

/-! ### Words that begin like numbers -/

/-- The word begins with a digit, or with a sign and a digit. -/
def BeginsNumber (w : Text) : Prop :=
  ∃ (sign : Sign) (c : Char) (t : Text), w = sign.text ++ c :: t ∧ c.isDigit

theorem beginsNumber_iff {w : Text} :
    BeginsNumber w ↔ (Radix.splitSign w).2.head?.any Char.isDigit := by
  constructor
  · rintro ⟨sign, c, t, rfl, hc⟩
    rw [sign.splitSign_text_append (Base.ten.unsigned_cons hc t)]
    exact hc
  · intro h
    obtain ⟨sign, hw, -⟩ := Sign.exists_splitSign w
    cases hrest : (Radix.splitSign w).2 with
    | nil => simp [hrest] at h
    | cons c t =>
        rw [hrest] at h hw
        exact ⟨sign, c, t, hw, h⟩

instance : DecidablePred BeginsNumber := fun _ => decidable_of_iff' _ beginsNumber_iff

/-- What begins like a number is **announced as one**. -/
theorem lead_of_beginsNumber {u : Text} (h : BeginsNumber (u.takeWhile isSymbolic)) :
    ∃ c t, u = c :: t ∧ Lead.of c t.head? = .number := by
  obtain ⟨sign, d, back, hword, hd⟩ := h
  obtain ⟨rest, hrest⟩ := List.takeWhile_prefix isSymbolic (l := u)
  rw [hword, List.append_assoc, List.cons_append] at hrest
  cases sign with
  | absent => exact ⟨d, back ++ rest, hrest.symm, Lead.of_isDigit hd _⟩
  | plus => exact ⟨'+', d :: (back ++ rest), hrest.symm, by simp [Lead.of, hd]⟩
  | minus => exact ⟨'-', d :: (back ++ rest), hrest.symm, by simp [Lead.of, hd]⟩

namespace Cursor

/-- The characters of names in front of the cursor, the gap before them apart. -/
def word (k : Cursor) : Text := k.skipGap.rest.takeWhile isSymbolic

/-- The step **over a word that begins like a number**. -/
theorem next_of_beginsNumber {k : Cursor} (h : BeginsNumber k.word) :
    k.next =
      match Literal.number? k.word with
      | some s =>
          .lexeme ⟨.scalar s, k.skipGap.position, (k.skipGap.advance k.word.length).position⟩
            (k.skipGap.advance k.word.length)
      | none =>
          .rejected ⟨.badNumber k.word, (k.skipGap.advance k.word.length).position.toPlace⟩
            (k.skipGap.advance k.word.length) := by
  obtain ⟨c, t, hrest, hlead⟩ := lead_of_beginsNumber h
  have hword : k.word = (c :: t).takeWhile isSymbolic := by rw [word, hrest]
  have hscan : Token.scan c t = Literal.number (c :: t) := by simp only [Token.scan, hlead]
  have hnext : k.next = k.skipGap.readToken c t := by simp only [next, hrest]
  rw [hnext, readToken, hscan, Literal.number, ← hword]
  cases Literal.number? k.word <;> rfl

/-- The next lexeme is the integer. -/
def ReadsInteger (k : Cursor) (n : Int) : Prop :=
  ∃ (l : Lexeme) (after : Cursor) (v : Int64),
    k.next = .lexeme l after ∧ l.token = .scalar (.integer v) ∧ v.toInt = n

/-- The word is rejected, and reported as a bad number. -/
def RejectsNumber (k : Cursor) : Prop :=
  ∃ (r : Rejection) (after : Cursor), k.next = .rejected r after
    ∧ r.diagnostic
      = ⟨.badValue ("Invalid number '" ++ String.ofList k.word ++ "'") r.place, none, some 102⟩

variable {k : Cursor}

/-- If the literal can be nothing but an integer, the next lexeme is one **just if it is one**. -/
theorem readsInteger_iff (h : BeginsNumber k.word) {o : Option Int64}
    (hnumber : Literal.number? k.word = o.map .integer) {n : Int} :
    k.ReadsInteger n ↔ ∃ v : Int64, o = some v ∧ v.toInt = n := by
  rw [ReadsInteger, next_of_beginsNumber h, hnumber]
  cases o with
  | none => simp
  | some v =>
      constructor
      · rintro ⟨l, after, v', hstep, htoken, hv'⟩
        cases hstep
        cases htoken
        exact ⟨v, rfl, hv'⟩
      · rintro ⟨v', hv, hv'⟩
        cases hv
        exact ⟨_, _, v, rfl, rfl, hv'⟩

theorem rejectsNumber_of_number?_eq_none (h : BeginsNumber k.word)
    (hnumber : Literal.number? k.word = none) : k.RejectsNumber := by
  rw [RejectsNumber, next_of_beginsNumber h, hnumber]
  exact ⟨_, _, rfl, rfl⟩

/-- And otherwise it is **rejected**. -/
theorem rejectsNumber_of_not_readsInteger (h : BeginsNumber k.word) {o : Option Int64}
    (hnumber : Literal.number? k.word = o.map .integer) (hnone : ∀ n, ¬k.ReadsInteger n) :
    k.RejectsNumber := by
  cases o with
  | none => exact rejectsNumber_of_number?_eq_none h hnumber
  | some v => exact absurd ((readsInteger_iff h hnumber).2 ⟨v, rfl, rfl⟩) (hnone v.toInt)

/-- With the mark of base sixteen. -/
theorem readsInteger_iff_hex (h : BeginsNumber k.word) (hmark : HexMarked k.word) {n : Int} :
    k.ReadsInteger n ↔ ReadAsHex k.word n := by
  constructor
  · intro hreads
    obtain ⟨sign, inner, hparts⟩ := hmark
    have hvalue := (readsInteger_iff h (Literal.number?_of_hexParts hparts)).1 hreads
    obtain ⟨m, hm⟩ := Literal.hexNumber?_eq_some_iff.1 hvalue
    exact ⟨sign, inner, m, hparts, hm⟩
  · rintro ⟨sign, inner, m, hparts, hm⟩
    have hvalue := Literal.hexNumber?_eq_some_iff.2 ⟨m, hm⟩
    exact (readsInteger_iff h (Literal.number?_of_hexParts hparts)).2 hvalue

end Cursor

/-! ### Which words are read as integers -/

/-- **Which words are read as integers, and as which.**  In base ten they are those that spell one
that fits.  In base sixteen the number behind the mark may have a sign of its own and has to fit,
too; if no sign stands there, they are those that spell one that fits, but for the least one.  In
both bases all others are rejected as bad numbers. -/
theorem integer_literals_read (k : Cursor) (h : BeginsNumber k.word) :
    (HexMarked k.word → ∀ n, k.ReadsInteger n ↔ ReadAsHex k.word n)
      ∧ (HexMarked k.word → ¬SignedBehindMark k.word →
          ∀ n, k.ReadsInteger n ↔ SpelledHex k.word n ∧ Fits64 n ∧ n ≠ -2 ^ 63)
      ∧ (¬HexMarked k.word → Pointless k.word →
          ∀ n, k.ReadsInteger n ↔ SpelledDecimal k.word n ∧ Fits64 n)
      ∧ (HexMarked k.word ∨ Pointless k.word → (∀ n, ¬k.ReadsInteger n) → k.RejectsNumber) := by
  refine ⟨?_, ?_, ?_, ?_⟩
  · intro hmark n
    exact Cursor.readsInteger_iff_hex h hmark
  · intro hmark hsign n
    rw [Cursor.readsInteger_iff_hex h hmark, readAsHex_iff hsign]
  · intro hmark hpoint n
    rw [Cursor.readsInteger_iff h (Literal.number?_of_pointless hmark hpoint)]
    exact Literal.decimal_eq_some_iff
  · intro hclass hnone
    obtain ⟨o, ho⟩ := Literal.exists_number?_eq hclass
    exact Cursor.rejectsNumber_of_not_readsInteger h ho hnone

/-- A number in base sixteen behind a comment, the least number of all in base ten, and a word that
begins like a number and is none. -/
theorem integer_literals_read_each_kind :
    let hex := Cursor.ofText ";n\n-0xFf)".toList 1
    let least := Cursor.ofText "-9223372036854775808".toList 1
    let bad := Cursor.ofText "12abc".toList 1
    hex.ReadsInteger (-255) ∧ least.ReadsInteger (-2 ^ 63) ∧ bad.RejectsNumber := by
  intro hex least bad
  refine ⟨?_, ?_, ?_⟩
  · have hword : hex.word = "-0xFf".toList := by decide +kernel
    have hspelled : SpelledHex hex.word (-255) := by
      rw [hword]
      exact ⟨.minus, "Ff".toList, 255, ⟨"0x".toList, by decide, rfl⟩, by decide +kernel, rfl⟩
    have hreads := (integer_literals_read hex (by rw [hword]; decide)).2.1
      (by rw [hword]; decide) (by rw [hword]; decide) (-255)
    exact hreads.2 ⟨hspelled, by decide, by decide⟩
  · have hword : least.word = "-9223372036854775808".toList := by decide +kernel
    have hspelled : SpelledDecimal least.word (-2 ^ 63) := by
      rw [hword]
      exact ⟨.minus, "9223372036854775808".toList, 2 ^ 63, rfl, by decide +kernel, rfl⟩
    have hreads := (integer_literals_read least (by rw [hword]; decide)).2.2.1
      (by rw [hword]; decide) (by rw [hword]; decide) (-2 ^ 63)
    exact hreads.2 ⟨hspelled, by decide⟩
  · have hword : bad.word = "12abc".toList := by decide +kernel
    obtain ⟨-, -, hdecimal, hrejects⟩ := integer_literals_read bad (by rw [hword]; decide)
    have hpoint : Pointless bad.word := by
      rw [hword]
      decide
    refine hrejects (.inr hpoint) ?_
    intro n hreads
    have hspelled := ((hdecimal (by rw [hword]; decide) hpoint n).1 hreads).1
    have hinteger : Radix.integer? 10 bad.word = some n := Base.ten.integer?_eq_some_iff.2 hspelled
    rw [hword] at hinteger
    cases hinteger

/-- **The two ways in which base sixteen is read amiss.**  `0x-5` does not spell an integer and is
read as one, and `-0x8000000000000000` spells one that fits and is rejected. -/
theorem hex_literals_misread :
    let inner := Cursor.ofText "0x-5".toList 1
    let least := Cursor.ofText "-0x8000000000000000".toList 1
    (BeginsNumber inner.word ∧ HexMarked inner.word ∧ inner.ReadsInteger (-5)
        ∧ ∀ n, ¬SpelledHex inner.word n)
      ∧ BeginsNumber least.word ∧ HexMarked least.word ∧ SpelledHex least.word (-2 ^ 63)
        ∧ Fits64 (-2 ^ 63) ∧ ¬least.ReadsInteger (-2 ^ 63) ∧ least.RejectsNumber := by
  intro inner least
  have hinner : inner.word = "0x-5".toList := by decide +kernel
  have hleast : least.word = "-0x8000000000000000".toList := by decide +kernel
  have hbegins : BeginsNumber inner.word ∧ BeginsNumber least.word := by
    rw [hinner, hleast]
    decide
  have hmark : HexMarked inner.word ∧ HexMarked least.word := by
    rw [hinner, hleast]
    decide
  have hnumber : Literal.number? least.word = none := by
    rw [hleast]
    decide +kernel
  refine ⟨⟨hbegins.1, hmark.1, ?_, ?_⟩, hbegins.2, hmark.2, ?_, by decide, ?_, ?_⟩
  · rw [Cursor.readsInteger_iff_hex hbegins.1 hmark.1, hinner]
    refine ⟨.absent, "-5".toList, -5, ⟨"0x".toList, by decide, rfl⟩, ?_, by decide, rfl, by decide⟩
    exact ⟨.minus, "5".toList, 5, rfl, by decide +kernel, rfl⟩
  · intro n hspelled
    refine hspelled.not_signedBehindMark ?_
    rw [hinner]
    decide
  · rw [hleast]
    exact ⟨.minus, "8000000000000000".toList, 2 ^ 63, ⟨"0x".toList, by decide, rfl⟩,
      by decide +kernel, rfl⟩
  · rw [Cursor.readsInteger_iff hbegins.2 (o := none) hnumber]
    simp
  · exact Cursor.rejectsNumber_of_number?_eq_none hbegins.2 hnumber

end EdnSpans
