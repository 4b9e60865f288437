/-
**Lexemes at the seam of two texts.**

When a line break and a second text are put behind a text, the lexemes of the first one stay what
they are: whatever is read up to the end of a text cannot go on over a line break, and a comment at
the end is ended by it.  The second text is then read as if it stood alone, only further on.

Main definitions:

* `EdnSpans.Text.InPlaceOf` — a text that may stand in place of another one behind a word;
* `EdnSpans.Position.shift`, `EdnSpans.Lexeme.shift`, `EdnSpans.Cursor.shift` — the same line and
  column, further on in the text;
* `EdnSpans.Cursor.stream` — the lexemes in front of a cursor.

Main results:

* `EdnSpans.Token.ReadsAs.inPlaceOf` — **a word does not depend on what exactly stands behind it**;
* `EdnSpans.Cursor.stream_shift` — reading does not depend on how far on it takes place;
* `EdnSpans.LexemeStream.ofText_append` — **the lexemes of two texts with a line break between
  them**.
-/
import EdnSpans.Proofs.Token.Canonical
import EdnSpans.Proofs.Token.Run

set_option relaxedAutoImplicit false
set_option autoImplicit false

namespace EdnSpans

open Text

/-! ### What stands behind a word -/

/-- Behind a word the text may stand in place of another one: both begin with the same character, or
the text begins with none that a name could go on with. -/
def Text.InPlaceOf (rest' rest : Text) : Prop := rest'.head? = rest.head? ∨ Separates rest'

/-- A name ends where it ended. -/
theorem Text.InPlaceOf.takeWhile_eq {p : Char → Bool} (hp : ∀ c, p c → isSymbolic c)
    {name rest rest' : Text} (hrest : rest'.InPlaceOf rest)
    (h : (name ++ rest).takeWhile p = name) : (name ++ rest').takeWhile p = name := by
  have hname : ∀ c ∈ name, p c := by
    intro c hc
    rw [← h] at hc
    exact List.all_eq_true.1 List.all_takeWhile c hc
  rcases hrest with hhead | hseparates
  · rw [List.takeWhile_append_of_pos hname, List.append_right_eq_self,
      ← List.head?_eq_none_iff, List.head?_takeWhile] at h ⊢
    rwa [hhead]
  · exact takeWhile_of_separates hp hname hseparates

/-- Of what follows the first character it matters only **whether it is a digit**, unless the first
character may open a set. -/
theorem Lead.of_congr {c : Char} (hc : c ≠ '#') {next next' : Option Char}
    (h : next.any Char.isDigit = next'.any Char.isDigit) : Lead.of c next = Lead.of c next' := by
  unfold Lead.of
  split
  all_goals first | rfl | skip
  · exact absurd rfl hc
  · rw [h]

/-- What a name announces is seen in the name. -/
theorem Lead.of_name {c : Char} (hc : c ≠ '#') {w rest rest' : Text}
    (h : (c :: w ++ rest).takeWhile isSymbolic = c :: w)
    (h' : (c :: w ++ rest').takeWhile isSymbolic = c :: w) :
    Lead.of c (w ++ rest').head? = Lead.of c (w ++ rest).head? := by
  have htail {u : Text} (hu : (c :: w ++ u).takeWhile isSymbolic = c :: w) :
      (w ++ u).takeWhile isSymbolic = w := by
    by_cases hc : isSymbolic c
    · rw [List.cons_append, List.takeWhile_cons_of_pos hc] at hu
      exact (List.cons.inj hu).2
    · rw [List.cons_append, List.takeWhile_cons_of_neg hc] at hu
      simp at hu
  refine Lead.of_congr hc ?_
  rw [← any_isDigit_head?_takeWhile (w ++ rest'), ← any_isDigit_head?_takeWhile (w ++ rest),
    htail h, htail h']

/-- A string ends where it ended, **whatever stands behind it**. -/
theorem Literal.stringBody_take {t s : Text} {n : Nat} (h : stringBody t = ⟨n, .ok s⟩)
    (rest : Text) : stringBody (t.take n ++ rest) = ⟨n, .ok s⟩ := by
  fun_induction stringBody t generalizing n s with
  | case1 => simp at h
  | case2 t =>
      obtain ⟨rfl, rfl⟩ : 1 = n ∧ [] = s := by simpa using h
      rw [List.take_succ_cons, List.take_zero, stringBody.eq_def]
      rfl
  | case3 _ => simp at h
  | case4 h₁ h₂ h₃ h₄ t meant hmeant hne ih =>
      obtain ⟨n', s', hbody, rfl, rfl⟩ := Scan.push_eq_ok h
      have htake : ('\\' :: 'u' :: h₁ :: h₂ :: h₃ :: h₄ :: t).take (6 + n') ++ rest
          = '\\' :: 'u' :: h₁ :: h₂ :: h₃ :: h₄ :: (t.take n' ++ rest) := by
        simp [Nat.add_comm 6 n']
      rw [htake, stringBody.eq_def]
      simp [hmeant, ih hbody, Scan.push, Except.map]
  | case5 => simp [escapeFailure] at h
  | case6 => simp [escapeFailure] at h
  | case7 e t he hne ih =>
      obtain ⟨n', s', hbody, rfl, rfl⟩ := Scan.push_eq_ok h
      rw [Nat.add_comm, List.take_succ_cons, List.take_succ_cons, List.cons_append,
        List.cons_append, stringBody.eq_def]
      simp [he, ih hbody, Scan.push, Except.map, Nat.add_comm]
  | case8 c t hq hb ih =>
      obtain ⟨n', s', hbody, rfl, rfl⟩ := Scan.push_eq_ok h
      rw [Nat.add_comm, List.take_succ_cons, List.cons_append, stringBody.eq_def]
      simp [hq, hb, ih hbody, Scan.push, Except.map, Nat.add_comm]

theorem Token.ScalarWord.inPlaceOf {word rest rest' : Text} {s : Scalar}
    (hrest : rest'.InPlaceOf rest) (h : ScalarWord rest word s) : ScalarWord rest' word s := by
  cases h with
  | @string body s hbody =>
      have hagain := Literal.stringBody_take hbody rest'
      rw [List.take_left] at hagain
      exact .string hagain
  | plain hc => exact .plain hc
  | named hc hname hmeant =>
      exact .named hc (hrest.takeWhile_eq (fun _ => isSymbolic_of_isAlphanumeric) hname) hmeant
  | keyword hne hname => exact .keyword hne (hrest.takeWhile_eq (fun _ => id) hname)
  | @number c w s lead hname hvalue =>
      have hc : c ≠ '#' := by
        rintro rfl
        simpa [Lead.Fits] using Lead.fits lead
      have htake := hrest.takeWhile_eq (fun _ => id) hname
      exact .number ((Lead.of_name hc hname htake).trans lead) htake hvalue
  | word lead hname =>
      have htake := hrest.takeWhile_eq (fun _ => id) hname
      exact .word ((Lead.of_name (Lead.fits lead).2.1 hname htake).trans lead) htake

/-- A word is read as it was, **whatever may stand in place of the text behind it**. -/
theorem Token.ReadsAs.inPlaceOf {word rest rest' : Text} {token : Token}
    (hrest : rest'.InPlaceOf rest) (h : ReadsAs word rest token) : ReadsAs word rest' token := by
  cases token with
  | scalar s => exact (h.scalarWord.inPlaceOf hrest).readsAs
  | opening kind =>
      rw [h.opening_word]
      exact kind.readsAs_opener rest'
  | closing closer =>
      rw [h.closing_word]
      exact closer.readsAs_char rest'

/-- A run is the same in a longer text, if its last lexeme cannot go on. -/
theorem Cursor.Run.append_rest {sort : Text → Prop} {k m : Cursor} {ls : List Lexeme}
    (h : Run sort k ls m) {more : Text} (hmore : Separates more) :
    Run sort ⟨k.rest ++ more, k.position⟩ ls ⟨m.rest ++ more, m.position⟩ := by
  induction h with
  | nil k => exact .nil _
  | @cons k m k' gap word l ls hgap passes _ ih =>
      have hplace : (m.rest ++ more).InPlaceOf m.rest := by
        cases hrest : m.rest with
        | nil => exact .inr hmore
        | cons c rest => exact .inl rfl
      have hrest : k.rest ++ more = gap ++ (word ++ (m.rest ++ more)) := by
        rw [passes.rest_eq]
        simp only [List.append_assoc]
      have hpasses : Passes ⟨k.rest ++ more, k.position⟩ gap word l ⟨m.rest ++ more, m.position⟩ :=
        ⟨hrest, passes.reads.inPlaceOf hplace, passes.start_eq, passes.stop_eq, passes.position_eq⟩
      exact .cons hgap hpasses ih

/-! ### The lexemes in front of a cursor -/

/-- The stream behind some more lexemes. -/
def LexemeStream.behind (ls : List Lexeme) (s : LexemeStream) : LexemeStream :=
  ⟨ls ++ s.lexemes, s.rejection⟩

namespace Cursor

/-- The lexemes in front of a cursor, up to the first rejection. -/
def stream (k : Cursor) : LexemeStream := LexemeStream.ofEvents k.events.1

variable {k m : Cursor}

theorem stream_of_finished (h : k.next = .finished m) : k.stream = ⟨[], none⟩ := by
  rw [stream, events]
  split <;> simp_all [LexemeStream.ofEvents]

theorem stream_of_rejected {r : Rejection} (h : k.next = .rejected r m) :
    k.stream = ⟨[], some r⟩ := by
  rw [stream, events]
  split <;> simp_all [LexemeStream.ofEvents]

theorem stream_of_lexeme {l : Lexeme} (h : k.next = .lexeme l m) :
    k.stream = m.stream.behind [l] := by
  rw [stream, events]
  split <;> simp_all [LexemeStream.ofEvents, stream, LexemeStream.behind]

/-- The stream **is decided by the next step**. -/
theorem stream_congr (h : k.next = m.next) : k.stream = m.stream := by
  cases hm : m.next with
  | lexeme l after => rw [stream_of_lexeme hm, stream_of_lexeme (h.trans hm)]
  | rejected r after => rw [stream_of_rejected hm, stream_of_rejected (h.trans hm)]
  | finished after => rw [stream_of_finished hm, stream_of_finished (h.trans hm)]

/-- The lexemes of a run come first. -/
theorem stream_of_run {ls : List Lexeme} (h : Run (Gap false) k ls m) :
    k.stream = m.stream.behind ls := by
  induction ls generalizing k with
  | nil =>
      cases h
      rfl
  | cons l ls ih =>
      obtain ⟨k₁, hnext, hrun⟩ := run_cons_iff.1 h
      rw [stream_of_lexeme hnext, ih hrun]
      rfl

/-- A gap may be passed over beforehand. -/
theorem next_of_gap {gap : Text} (h : Gap false gap) (rest : Text) (p : Position) :
    (Cursor.mk (gap ++ rest) p).next = (Cursor.mk rest (p.after gap)).next := by
  have hskip : (Cursor.mk (gap ++ rest) p).skipGap = (Cursor.mk rest (p.after gap)).skipGap := by
    simp only [skipGap, gapLength_append h, advance, List.drop_length_add_append,
      List.take_length_add_append, Position.after_append]
  simp only [next, hskip]

end Cursor

/-! ### Further on -/

/-- The same line and column, further on by the given numbers of characters and of bytes. -/
def Position.shift (chars bytes : Nat) (p : Position) : Position :=
  { p with offset := p.offset + chars, byte := p.byte + bytes }

/-- The lexeme further on. -/
def Lexeme.shift (chars bytes : Nat) (l : Lexeme) : Lexeme :=
  ⟨l.token, l.start.shift chars bytes, l.stop.shift chars bytes⟩

/-- The lexemes further on.  A rejection is reported at a line and a column, which stay. -/
def LexemeStream.shift (chars bytes : Nat) (s : LexemeStream) : LexemeStream :=
  ⟨s.lexemes.map (Lexeme.shift chars bytes), s.rejection⟩

/-- The cursor further on, in front of the same text. -/
def Cursor.shift (chars bytes : Nat) (k : Cursor) : Cursor := ⟨k.rest, k.position.shift chars bytes⟩

/-- The step further on. -/
def Step.shift (chars bytes : Nat) : Step → Step
  | .lexeme l after => .lexeme (l.shift chars bytes) (after.shift chars bytes)
  | .rejected r after => .rejected r (after.shift chars bytes)
  | .finished after => .finished (after.shift chars bytes)

section

variable (chars bytes : Nat)

theorem Position.after_shift (p : Position) (t : Text) :
    (p.shift chars bytes).after t = (p.after t).shift chars bytes := by
  induction t generalizing p with
  | nil => rfl
  | cons c t ih =>
      rw [after_cons, after_cons, ← ih]
      congr 1
      simp only [next, shift, Position.mk.injEq, true_and]
      omega

namespace Cursor

theorem advance_shift (k : Cursor) (n : Nat) :
    (k.shift chars bytes).advance n = (k.advance n).shift chars bytes := by
  simp only [advance, shift, Position.after_shift]

theorem readToken_shift (k : Cursor) (c : Char) (t : Text) :
    (k.shift chars bytes).readToken c t = (k.readToken c t).shift chars bytes := by
  simp only [readToken, advance_shift]
  cases (Token.scan c t).outcome <;> rfl

theorem next_shift (k : Cursor) :
    (k.shift chars bytes).next = k.next.shift chars bytes := by
  have hskip : (k.shift chars bytes).skipGap = k.skipGap.shift chars bytes := advance_shift ..
  simp only [next, hskip, readToken_shift]
  have hrest : (k.skipGap.shift chars bytes).rest = k.skipGap.rest := rfl
  rw [hrest]
  cases k.skipGap.rest <;> rfl

/-- Reading **does not depend on how far on it takes place**. -/
theorem stream_shift (k : Cursor) :
    (k.shift chars bytes).stream = k.stream.shift chars bytes := by
  fun_induction events k with
  | case1 k last h =>
      rw [stream_of_finished h, stream_of_finished (by rw [next_shift, h]; rfl)]
      rfl
  | case2 k l after h more last e ih =>
      rw [stream_of_lexeme h, stream_of_lexeme (by rw [next_shift, h]; rfl), ih]
      rfl
  | case3 k r after h more last e ih =>
      rw [stream_of_rejected h, stream_of_rejected (by rw [next_shift, h]; rfl)]
      rfl

end Cursor

end

/-! ### Two texts with a line break between them -/

/-- Behind a line break a text begins at column `0`, on the line after all lines of what lies before
it. -/
theorem Position.first_after_newline (firstLine : Nat) (t : Text) :
    (first firstLine).after (t ++ ['\n'])
      = (first (firstLine + newlines t + 1)).shift (t.length + 1) (byteSize t + 1) := by
  have hsize : '\n'.utf8Size = 1 := by decide
  rw [after_append, after_cons, after_nil, next, line_after, offset_after, byte_after, hsize]
  simp [first, shift]

/-- **The lexemes of two texts with a line break between them**, if nothing in the first one is
rejected: those of the first, and then those of the second, further on. -/
theorem LexemeStream.ofText_append {t₁ : Text} {firstLine : Nat} {ls : List Lexeme}
    (h : ofText t₁ firstLine = ⟨ls, none⟩) (t₂ : Text) :
    ofText (t₁ ++ '\n' :: t₂) firstLine
      = ((ofText t₂ (firstLine + newlines t₁ + 1)).shift (t₁.length + 1) (byteSize t₁ + 1)).behind
          ls := by
  obtain ⟨k, hrun, hended⟩ := Cursor.ofEvents_eq_iff.1 h
  have hseparates : Separates ('\n' :: t₂) := by
    rintro c ⟨⟩
    decide
  obtain ⟨before, ht, hposition⟩ := (Cursor.within_ofText t₁ firstLine).run hrun
  -- the line break ends whatever gap the first text ends with
  have hgap : Cursor.stream ⟨k.rest ++ '\n' :: t₂, k.position⟩
      = Cursor.stream ⟨t₂, k.position.after (k.rest ++ ['\n'])⟩ := by
    rw [← Cursor.stream_congr (Cursor.next_of_gap hended.gap t₂ k.position), List.append_assoc,
      List.singleton_append]
  have hbehind : Cursor.mk t₂ (k.position.after (k.rest ++ ['\n']))
      = (Cursor.ofText t₂ (firstLine + newlines t₁ + 1)).shift (t₁.length + 1)
          (byteSize t₁ + 1) := by
    rw [hposition, ← Position.after_append, ← List.append_assoc, ← ht,
      Position.first_after_newline]
    rfl
  have hall := Cursor.stream_of_run (hrun.append_rest hseparates)
  rw [hgap, hbehind, Cursor.stream_shift] at hall
  exact hall

end EdnSpans
