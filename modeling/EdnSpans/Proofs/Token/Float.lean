/-
**Floating-point numbers are read back, but for infinity.**

The text of a finite number is a literal with a point or an exponent, perhaps behind a minus, so the
lexer takes it for the literal of a floating-point number and gives back the very number: the same
sign and the same magnitude, hence the same bits.  It does not matter where the number comes from.

A literal may denote a number that is too large for every finite one.  The lexer reads it as infinity,
and infinity is written with a mark that no digits denote.  But the lexer knows no such mark, and
rejects its first character.  So the numbers that the lexer gives are read back unless they come from
literals that are too large.

Main definitions:

* `EdnSpans.Binary64.ReadsBack` — the text of a number is read **as that number and nothing else**;
* `EdnSpans.Binary64.Unreadable` — the text of a number is rejected at its first character.

Main results:

* `EdnSpans.FloatLiteral.number?_text` — a literal by its parts is the literal of a number;
* `EdnSpans.Token.ReadsAs.float` — the text of a finite number is read as that number;
* `EdnSpans.floats_read_back` — **which numbers of the lexer are read back**;
* `EdnSpans.overflow_unreadable` — a literal that is too large.
-/
import EdnSpans.Proofs.Number.Shortest
import EdnSpans.Proofs.Token.Seam

set_option relaxedAutoImplicit false
set_option autoImplicit false

namespace EdnSpans

open Text

/-! ### The literal of a number -/

namespace FloatLiteral

variable (l : FloatLiteral)

/-- A literal begins with a digit, and **a digit, a point or an exponent** stands behind it. -/
theorem text_eq_cons : ∃ c t, l.text = c :: t ∧ c.isDigit
    ∧ ∀ d ∈ t.head?, d.isDigit ∨ d = '.' ∨ d = 'e' := by
  obtain ⟨c, whole, hwhole⟩ := List.exists_cons_of_ne_nil l.whole_ne_nil
  have hdigits := l.whole_digits
  rw [hwhole] at hdigits
  refine ⟨c, whole ++ (l.fractionText ++ l.powerText), by rw [text, hwhole]; rfl,
    hdigits c (List.mem_cons_self ..), ?_⟩
  cases whole with
  | cons e whole =>
      rintro _ ⟨⟩
      exact .inl (hdigits e (by simp))
  | nil =>
      rw [List.nil_append, fractionText]
      cases l.fraction with
      | some digits =>
          rintro _ ⟨⟩
          exact .inr (.inl rfl)
      | none =>
          rcases l.powerText_eq with h | ⟨p, h⟩
          · simp [h]
          · rw [h]
            rintro _ ⟨⟩
            exact .inr (.inr rfl)

theorem unsigned_text : Unsigned l.text := by
  obtain ⟨c, t, htext, hc, -⟩ := l.text_eq_cons
  rw [htext]
  exact Base.ten.unsigned_cons hc t

theorem hexDigits?_text : Literal.hexDigits? l.text = none := by
  obtain ⟨c, t, htext, -, hnext⟩ := l.text_eq_cons
  rw [htext, Literal.hexDigits?.eq_def]
  split
  · next e =>
      cases e
      exact absurd (hnext 'x' rfl) (by decide)
  · next e =>
      cases e
      exact absurd (hnext 'X' rfl) (by decide)
  · rfl

/-- The point or the exponent **is seen**. -/
theorem any_text : l.text.any (fun c => c = '.' || c = 'e' || c = 'E') = true := by
  rw [text, List.any_append, List.any_append, fractionText, powerText]
  have hmarked := l.marked
  cases hfraction : l.fraction with
  | some digits => simp
  | none =>
      cases hpower : l.power with
      | some p => simp
      | none => simp [hfraction, hpower] at hmarked

/-- All characters of a literal are characters of names. -/
theorem isSymbolic_of_mem_text {c : Char} (h : c ∈ l.text) : isSymbolic c := by
  have hinteger (p : Int) : ∀ d ∈ Radix.integerText p, isSymbolic d := by
    obtain ⟨e, w, htext, -, hall⟩ := Lead.of_integerText p []
    rw [htext]
    exact hall
  rw [text, List.mem_append, List.mem_append] at h
  rcases h with h | h | h
  · exact isSymbolic_of_isDigit (l.whole_digits c h)
  · have hdigits := l.fraction_digits
    rw [fractionText] at h
    cases hfraction : l.fraction with
    | none => simp [hfraction] at h
    | some digits =>
        rw [hfraction, Option.map_some, Option.getD_some] at h
        rcases List.mem_cons.1 h with rfl | h
        · decide
        · exact isSymbolic_of_isDigit (hdigits digits hfraction c h)
  · rcases l.powerText_eq with hpower | ⟨p, hpower⟩
    · simp [hpower] at h
    · rw [hpower] at h
      rcases List.mem_cons.1 h with rfl | h
      · decide
      · exact hinteger p c h

/-- A literal by its parts, with a sign before it, **is the literal of a number**. -/
theorem number?_text (sign : Sign) :
    Literal.number? (sign.text ++ l.text)
      = some (.float ⟨sign.isMinus, l.decimal.magnitude, l.decimal.magnitude_lt⟩) := by
  have hsplit := sign.splitSign_text_append l.unsigned_text
  simp only [Literal.number?, Binary64.ofLiteral?, hsplit, l.hexDigits?_text, l.any_text,
    l.ofLiteral?_text, if_true, Option.map_some]

end FloatLiteral

/-! ### Finite numbers -/

/-- The text of a finite number **is read as that number**. -/
theorem Token.ReadsAs.float {x : Binary64} (h : x.magnitude < Binary64.infinity) {rest : Text}
    (hrest : Separates rest) : ReadsAs x.text rest (.scalar (.float x)) := by
  obtain ⟨l, htext, hmagnitude⟩ := Binary64.exists_floatLiteral h
  obtain ⟨sign, hsign, hminus⟩ : ∃ sign : Sign, sign.text = (if x.negative then ['-'] else [])
      ∧ sign.isMinus = x.negative := by
    cases x.negative with
    | true => exact ⟨.minus, rfl, rfl⟩
    | false => exact ⟨.absent, rfl, rfl⟩
  rw [← hsign] at htext
  have hsymbolic : ∀ c ∈ x.text, isSymbolic c := by
    intro c hc
    rw [htext, List.mem_append] at hc
    rcases hc with hc | hc
    · cases sign with
      | absent => simp [Sign.text] at hc
      | plus =>
          obtain rfl : c = '+' := by simpa [Sign.text] using hc
          decide
      | minus =>
          obtain rfl : c = '-' := by simpa [Sign.text] using hc
          decide
    · exact l.isSymbolic_of_mem_text hc
  have htake : (x.text ++ rest).takeWhile isSymbolic = x.text :=
    takeWhile_of_separates (fun _ => id) hsymbolic hrest
  have hvalue : Literal.number? x.text = some (.float x) := by
    rw [htext, l.number?_text]
    simp only [hminus, hmagnitude]
  have hbegins : BeginsNumber ((x.text ++ rest).takeWhile isSymbolic) := by
    obtain ⟨c, t, hliteral, hc, -⟩ := l.text_eq_cons
    exact ⟨sign, c, t, by rw [htake, htext, hliteral], hc⟩
  obtain ⟨c, t, hcons, hlead⟩ := lead_of_beginsNumber hbegins
  -- the text is not empty, so its first character is the one that announces the number
  cases hx : x.text with
  | nil =>
      obtain ⟨d, t', hliteral, -, -⟩ := l.text_eq_cons
      rw [hx, hliteral] at htext
      simp at htext
  | cons d w =>
      rw [hx, List.cons_append] at hcons
      obtain ⟨rfl, rfl⟩ := List.cons.inj hcons
      rw [hx] at htake hvalue
      exact (ScalarWord.number hlead htake hvalue).readsAs

namespace Binary64

/-- The text of the number is read **as that number and nothing else**. -/
def ReadsBack (x : Binary64) : Prop :=
  ∀ firstLine, LexemeStream.ofText (Scalar.float x).text firstLine
    = ⟨[⟨.scalar (.float x), .first firstLine,
        (Position.first firstLine).after (Scalar.float x).text⟩], none⟩

/-- The first character of the text of the number **is rejected**. -/
def Unreadable (x : Binary64) : Prop :=
  ∀ firstLine, LexemeStream.ofText (Scalar.float x).text firstLine
    = ⟨[], some ⟨.strayCharacter '#', ⟨firstLine, 1⟩⟩⟩

theorem readsBack_of_finite {x : Binary64} (h : x.magnitude < infinity) : x.ReadsBack := by
  intro firstLine
  let behind : Cursor := ⟨[], (Position.first firstLine).after x.text⟩
  have hended : behind.Ended := rfl
  refine Cursor.ofEvents_eq_iff.2 ⟨behind, .cons .nil ⟨?_, ?_, rfl, rfl, rfl⟩ (.nil behind), hended⟩
  · exact (List.append_nil x.text).symm
  · exact Token.ReadsAs.float h separates_nil

theorem unreadable_of_infinite {x : Binary64} (h : x.magnitude = infinity) : x.Unreadable := by
  intro firstLine
  have hnan : x.isNaN = false := by
    rw [isNaN, h]
    rfl
  have hinfinite : x.isInfinite = true := by simp [isInfinite, h]
  have htext : (Scalar.float x).text
      = if x.negative then ['#', '#', '-', 'I', 'n', 'f'] else ['#', '#', 'I', 'n', 'f'] := by
    simp [Scalar.text, text, hnan, hinfinite]
  rw [htext]
  cases x.negative with
  | true => exact Cursor.stream_of_rejected rfl
  | false => exact Cursor.stream_of_rejected rfl

end Binary64

/-! ### The numbers of the lexer -/

/-- A number that the lexer gives has the sign and the magnitude **of a literal that it took**. -/
theorem Token.ReadsAs.float_literal {word rest : Text} {x : Binary64}
    (h : ReadsAs word rest (.scalar (.float x))) :
    ∃ d, Decimal.ofLiteral? (Radix.splitSign word).2 = some d ∧ x.magnitude = d.magnitude := by
  generalize hscalar : Scalar.float x = s at h
  cases h.scalarWord with
  | @number c w s lead hname hvalue =>
      subst hscalar
      simp only [Literal.number?] at hvalue
      split at hvalue
      · simp at hvalue
      · split at hvalue
        · obtain ⟨y, hy, hxy⟩ := Option.map_eq_some_iff.1 hvalue
          obtain rfl : y = x := Scalar.float.inj hxy
          obtain ⟨d, hd, rfl⟩ := Option.map_eq_some_iff.1 hy
          exact ⟨d, hd, rfl⟩
        · obtain ⟨n, -, hn⟩ := Option.map_eq_some_iff.1 hvalue
          cases hn
  | @word c w lead hname =>
      have hnamed := Literal.readable_scalarNamed lead
      rw [← List.cons_append, hname, ← hscalar] at hnamed
      exact absurd hnamed id
  | string => cases hscalar
  | plain => cases hscalar
  | named => cases hscalar
  | keyword => cases hscalar

/-- **Which numbers of the lexer are read back.**  A number comes from a literal that denotes a
decimal, and is infinite just if the decimal is too large.  If it is finite, its text is read as that
number and nothing else; if it is infinite, its text is rejected. -/
theorem floats_read_back {k m : Cursor} {l : Lexeme} {x : Binary64} (h : k.next = .lexeme l m)
    (hx : l.token = .scalar (.float x)) :
    ∃ gap literal d, Gap false gap ∧ k.Passes gap literal l m
      ∧ Decimal.ofLiteral? (Radix.splitSign literal).2 = some d
      ∧ x.isNaN = false ∧ (x.isInfinite = true ↔ Binary64.tooLarge ≤ d.value)
      ∧ (x.isInfinite = false → x.ReadsBack) ∧ (x.isInfinite = true → x.Unreadable) := by
  obtain ⟨gap, literal, hgap, passes⟩ := Cursor.next_eq_lexeme_iff.1 h
  have hreads := passes.reads
  rw [hx] at hreads
  obtain ⟨d, hd, hmagnitude⟩ := hreads.float_literal
  have hle : x.magnitude ≤ Binary64.infinity := hmagnitude ▸ d.magnitude_le_infinity
  refine ⟨gap, literal, d, hgap, passes, hd, ?_, ?_, ?_, ?_⟩
  · rw [Binary64.isNaN, decide_eq_false_iff_not]
    omega
  · rw [Binary64.isInfinite, decide_eq_true_iff, hmagnitude, d.magnitude_eq_infinity_iff]
  · intro hfinite
    rw [Binary64.isInfinite, decide_eq_false_iff_not] at hfinite
    exact Binary64.readsBack_of_finite (by omega)
  · intro hinfinite
    rw [Binary64.isInfinite, decide_eq_true_iff] at hinfinite
    exact Binary64.unreadable_of_infinite hinfinite

/-- The step over a literal at the front of a text. -/
theorem Cursor.exists_next_of_number {k : Cursor} {x : Binary64} (h : BeginsNumber k.word)
    (hx : Literal.number? k.word = some (.float x)) :
    ∃ l m, k.next = .lexeme l m ∧ l.token = .scalar (.float x) := by
  rw [next_of_beginsNumber h, hx]
  exact ⟨_, _, rfl, rfl⟩

/-- The least number of all, written with a minus and not as it is printed. -/
theorem floats_read_back_least :
    let k := Cursor.ofText ";tiny\n-4.9E-324)".toList 1
    let x : Binary64 := ⟨true, 1, by decide⟩
    (∃ l m, k.next = .lexeme l m ∧ l.token = .scalar (.float x)) ∧ x.isInfinite = false
      ∧ x.text = "-5e-324".toList ∧ x.ReadsBack := by
  intro k x
  obtain ⟨l, m, hnext, hx⟩ : ∃ l m, k.next = .lexeme l m ∧ l.token = .scalar (.float x) :=
    Cursor.exists_next_of_number (by decide +kernel) (by decide +kernel)
  obtain ⟨-, -, -, -, -, -, -, -, hfinite, -⟩ := floats_read_back hnext hx
  exact ⟨⟨l, m, hnext, hx⟩, rfl, by decide +kernel, hfinite rfl⟩

/-- **A literal that is too large** is read as infinity, and the text of infinity is not read. -/
theorem overflow_unreadable :
    let k := Cursor.ofText "1e999".toList 1
    let x : Binary64 := ⟨false, Binary64.infinity, by decide⟩
    (∃ l m, k.next = .lexeme l m ∧ l.token = .scalar (.float x))
      ∧ x.text = "##Inf".toList ∧ x.Unreadable ∧ ¬x.ReadsBack := by
  intro k x
  have hunreadable : x.Unreadable := Binary64.unreadable_of_infinite rfl
  refine ⟨?_, by decide, hunreadable, ?_⟩
  · exact Cursor.exists_next_of_number (by decide +kernel) (by decide +kernel)
  · intro hreads
    have hstream := hreads 1
    rw [hunreadable 1] at hstream
    cases hstream

end EdnSpans
