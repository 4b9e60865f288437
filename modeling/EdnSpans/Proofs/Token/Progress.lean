/-
**Calls of the lexer, one after another.**

Whoever reads lexemes calls the lexer again and again, also after something was rejected.  Wherever
such calls lead, the cursor knows exactly what lies behind it: its four counts are those of the text
that was passed.  Every call passes over a gap and then over a word, be it a lexeme or not, or else
it finds that a gap is all that is left; so the calls come to an end, and from then on all of them
say the same.

Main definitions:

* `EdnSpans.Position.Counts` — **the four counts are those of a text**;
* `EdnSpans.Cursor.afterCalls` — the cursor after a number of calls;
* `EdnSpans.Step.Advances` — what one call passes over;
* `EdnSpans.Cursor.Lexing` — what all the calls do.

Main results:

* `EdnSpans.Position.Counts.after` — moving over a text counts it;
* `EdnSpans.Cursor.next_passes` — a call passes over a gap and a word, **whether or not the word is
  a token**;
* `EdnSpans.Cursor.ended_iff_lastGap` — the end is reported exactly when a gap is all that is left;
* `EdnSpans.Cursor.lexing_ofText` — **the calls on every text**.
-/
import EdnSpans.Proofs.Token.Run

set_option relaxedAutoImplicit false
set_option autoImplicit false

namespace EdnSpans

open Text

/-! ### The four counts -/

/-- The position has the counts of the given text, whose first line has the given number. -/
structure Position.Counts (firstLine : Nat) (before : Text) (p : Position) : Prop where
  /-- The offset is the number of characters. -/
  offset_eq : p.offset = before.length
  /-- The byte is their size in UTF-8. -/
  byte_eq : p.byte = byteSize before
  /-- The line is counted from the first one. -/
  line_eq : p.line = firstLine + newlines before
  /-- The column is the number of characters behind the last line break. -/
  column_eq : ∃ lines line, before = lines ++ line ∧ (lines = [] ∨ lines.getLast? = some '\n')
    ∧ '\n' ∉ line ∧ p.column = line.length

namespace Position

theorem counts_first (firstLine : Nat) : (first firstLine).Counts firstLine [] :=
  ⟨rfl, rfl, rfl, [], [], rfl, .inl rfl, by simp, rfl⟩

/-- One more character is counted. -/
theorem Counts.next {firstLine : Nat} {before : Text} {p : Position} (h : p.Counts firstLine before)
    (c : Char) : (p.next c).Counts firstLine (before ++ [c]) := by
  obtain ⟨hoffset, hbyte, hline, lines, line, hbefore, hlines, hnot, hcolumn⟩ := h
  refine ⟨?_, ?_, ?_, ?_⟩
  · simp [Position.next, hoffset]
  · simp [Position.next, hbyte]
  · rw [newlines_append, newlines_cons, newlines_nil]
    simp only [Position.next, hline]
    split <;> omega
  · by_cases hc : c = '\n'
    · -- a line break begins a line with nothing on it
      subst hc
      refine ⟨before ++ ['\n'], [], by simp, .inr (by simp), by simp, ?_⟩
      simp [Position.next]
    · refine ⟨lines, line ++ [c], ?_, hlines, ?_, ?_⟩
      · rw [hbefore, List.append_assoc]
      · simpa [Ne.symm hc] using hnot
      · simp [Position.next, hc, hcolumn]

/-- Moving over a text **counts it**. -/
theorem Counts.after {firstLine : Nat} {before : Text} {p : Position}
    (h : p.Counts firstLine before) (t : Text) : (p.after t).Counts firstLine (before ++ t) := by
  induction t generalizing p before with
  | nil =>
      rw [List.append_nil]
      exact h
  | cons c t ih =>
      have hstep := ih (h.next c)
      rw [List.append_assoc, List.singleton_append] at hstep
      exact hstep

end Position

/-! ### One call -/

namespace Cursor

variable {t : Text} {firstLine : Nat} {k m : Cursor}

/-- The cursor that stands in a text **has counted what lies before it**. -/
theorem Within.counts (h : k.Within t firstLine) :
    ∃ before, t = before ++ k.rest ∧ k.position.Counts firstLine before := by
  obtain ⟨before, ht, hposition⟩ := h
  refine ⟨before, ht, ?_⟩
  rw [hposition, ← List.nil_append before]
  exact (Position.counts_first firstLine).after before

theorem Within.advance (h : k.Within t firstLine) (n : Nat) : (k.advance n).Within t firstLine := by
  obtain ⟨before, ht, hposition⟩ := h
  refine ⟨before ++ k.rest.take n, ?_, ?_⟩
  · rw [rest_advance, List.append_assoc, List.take_append_drop]
    exact ht
  · rw [position_advance, hposition, Position.after_append]

/-- A call stays in the text. -/
theorem Within.next (h : k.Within t firstLine) : k.next.after.Within t firstLine := by
  have hskip : k.skipGap.Within t firstLine := h.advance _
  simp only [Cursor.next]
  split
  · exact hskip
  · rw [after_readToken]
    exact hskip.advance _

/-- A call that is not the last passes over a gap and a word, **whether or not the word is a
token**. -/
theorem next_passes (h : k.next.goesOn = true) :
    ∃ gap word, Gap false gap ∧ word ≠ [] ∧ k.rest = gap ++ (word ++ k.next.after.rest)
      ∧ k.next.after.position = (k.position.after gap).after word := by
  simp only [next] at h ⊢
  split at h
  · simp [Step.goesOn] at h
  · next c u e =>
      have hpos := Token.scan_length_pos c u
      refine ⟨k.rest.take (gapLength false k.rest), (c :: u).take (Token.scan c u).length,
        (gap_of_gapLength e).1, ?_, ?_, ?_⟩
      · intro hnil
        rcases List.take_eq_nil_iff.1 hnil with hzero | hcons
        · omega
        · simp at hcons
      · rw [after_readToken, rest_advance, e, List.take_append_drop, ← e]
        exact (List.take_append_drop _ _).symm
      · rw [after_readToken, position_advance, e]
        rfl

/-- The last call passes over all that is left. -/
theorem rest_of_finished (h : k.next = .finished m) :
    m.rest = [] ∧ m.position = k.position.after k.rest := by
  simp only [next] at h
  split at h
  · next e =>
      obtain rfl := Step.finished.inj h
      refine ⟨e, ?_⟩
      have hall : k.rest.take (gapLength false k.rest) = k.rest := by
        have hsplit := List.take_append_drop (gapLength false k.rest) k.rest
        rwa [show k.rest.drop (gapLength false k.rest) = [] from e, List.append_nil] at hsplit
      rw [skipGap, position_advance, hall]
  · next c u _ =>
      have hgoes := goesOn_readToken k.skipGap c u
      rw [h] at hgoes
      cases hgoes

theorem exists_finished (h : k.Ended) : ∃ m, k.next = .finished m := by
  simp only [Ended] at h
  cases hnext : k.next with
  | finished m => exact ⟨m, rfl⟩
  | lexeme l m => simp [hnext, Step.goesOn] at h
  | rejected r m => simp [hnext, Step.goesOn] at h

/-- Behind the end **nothing changes any more**. -/
theorem next_of_finished (h : k.next = .finished m) : m.next = .finished m := by
  obtain ⟨hrest, -⟩ := rest_of_finished h
  obtain ⟨rest, position⟩ := m
  obtain rfl : rest = [] := hrest
  rfl

end Cursor

/-! ### The end of a text -/

/-- A comment that no line break ends extends to the end of the text. -/
theorem gapLength_comment {body : Text} (h : '\n' ∉ body) :
    gapLength true body = body.length := by
  induction body with
  | nil => rfl
  | cons c body ih =>
      obtain ⟨hc, hbody⟩ : '\n' ≠ c ∧ '\n' ∉ body := by simpa using h
      simp [gapLength, bne_iff_ne.2 (Ne.symm hc), ih hbody]

theorem LastGap.gapLength_eq {t : Text} (h : LastGap t) : gapLength false t = t.length := by
  obtain ⟨gap, comment, rfl, hgap, hcomment⟩ := h
  rw [gapLength_append hgap, List.length_append]
  rcases hcomment with rfl | ⟨body, rfl, hbody⟩
  · rfl
  · simp [gapLength, show isBlank ';' = false by decide, gapLength_comment hbody]

/-- The end is reported **exactly when a gap is all that is left**. -/
theorem Cursor.ended_iff_lastGap {k : Cursor} : k.Ended ↔ LastGap k.rest := by
  constructor
  · intro h
    exact h.lastGap
  · intro h
    have hskip : k.skipGap.rest = [] := by
      rw [skipGap, rest_advance, h.gapLength_eq]
      exact List.drop_length
    simp only [Ended, next]
    split
    · rfl
    · next c u e =>
        rw [hskip] at e
        cases e

/-! ### All calls -/

/-- What a call passes over, from a cursor behind the given text. -/
def Step.Advances (firstLine : Nat) (before : Text) (k : Cursor) : Step → Prop
  -- a gap, and a word that is read as the token
  | .lexeme l m => ∃ gap word, Gap false gap ∧ k.rest = gap ++ (word ++ m.rest)
      ∧ Token.ReadsAs word m.rest l.token
      ∧ l.start.Counts firstLine (before ++ gap) ∧ l.stop.Counts firstLine (before ++ gap ++ word)
      ∧ m.position = l.stop ∧ k.position.offset < m.position.offset
  -- a gap, and characters that are read as nothing
  | .rejected _ m => ∃ gap word, Gap false gap ∧ word ≠ [] ∧ k.rest = gap ++ (word ++ m.rest)
      ∧ m.position.Counts firstLine (before ++ gap ++ word)
      ∧ k.position.offset < m.position.offset
  -- all that is left
  | .finished m => LastGap k.rest ∧ m.rest = [] ∧ m.position.Counts firstLine (before ++ k.rest)

namespace Cursor

/-- The cursor after the given number of calls. -/
def afterCalls (k : Cursor) : Nat → Cursor
  | 0 => k
  | n + 1 => (k.afterCalls n).next.after

/-- What the calls on a text do, one after another, from the cursors at which they are made. -/
structure Lexing (t : Text) (firstLine : Nat) (k : Nat → Cursor) : Prop where
  /-- What was passed and what is left are the text, the cursor counts what was passed, and a call
  passes over what it should. -/
  advances : ∀ n, ∃ before, t = before ++ (k n).rest ∧ (k n).position.Counts firstLine before
    ∧ (k n).next.Advances firstLine before (k n)
  /-- The end is reported exactly when a gap is all that is left. -/
  ended_iff : ∀ n, (k n).Ended ↔ LastGap (k n).rest
  /-- Once the end is reported, it is reported again and again, at the same place. -/
  stable : ∀ n m, (k n).next = .finished m → ∀ i, (k (n + i)).next = .finished m
  /-- No two lexemes overlap. -/
  apart : ∀ i j l l' m m', i < j → (k i).next = .lexeme l m → (k j).next = .lexeme l' m' →
    l.stop.offset ≤ l'.start.offset
  /-- The end is reported by the time that there was one call for each character and one more. -/
  ends : ∃ n, n ≤ t.length ∧ (k n).Ended

variable {t : Text} {firstLine : Nat} {k : Cursor}

theorem Within.afterCalls (h : k.Within t firstLine) (n : Nat) :
    (k.afterCalls n).Within t firstLine := by
  induction n with
  | zero => exact h
  | succ n ih => exact ih.next

/-- One call, **by what it reports**. -/
theorem advances_next {before : Text} (h : k.position.Counts firstLine before) :
    k.next.Advances firstLine before k := by
  have hlt {gap word : Text} {p : Position} (hword : word ≠ [])
      (hp : p = (k.position.after gap).after word) : k.position.offset < p.offset := by
    have hpos := List.length_pos_iff.2 hword
    rw [hp, Position.offset_after, Position.offset_after]
    omega
  cases hnext : k.next with
  | lexeme l m =>
      obtain ⟨gap, word, hgap, hrest, hreads, hstart, hstop, hposition⟩ :=
        next_eq_lexeme_iff.1 hnext
      have hword : word ≠ [] := by
        obtain ⟨c, w, rfl, -⟩ := hreads
        simp
      refine ⟨gap, word, hgap, hrest, hreads, ?_, ?_, hposition, ?_⟩
      · rw [hstart]
        exact h.after gap
      · rw [hstop, hstart]
        exact (h.after gap).after word
      · exact hlt hword (by rw [hposition, hstop, hstart])
  | rejected r m =>
      have hgoes : k.next.goesOn = true := by rw [hnext]; rfl
      obtain ⟨gap, word, hgap, hword, hrest, hposition⟩ := next_passes hgoes
      rw [hnext] at hrest hposition
      refine ⟨gap, word, hgap, hword, hrest, ?_, hlt hword hposition⟩
      have hafter : m.position = (k.position.after gap).after word := hposition
      rw [hafter]
      exact (h.after gap).after word
  | finished m =>
      obtain ⟨hrest, hposition⟩ := rest_of_finished hnext
      have hended : k.Ended := by simp [Ended, hnext, Step.goesOn]
      refine ⟨hended.lastGap, hrest, ?_⟩
      rw [hposition]
      exact h.after k.rest

theorem offset_le_next (k : Cursor) : k.position.offset ≤ k.next.after.position.offset := by
  cases hgoes : k.next.goesOn with
  | true =>
      obtain ⟨gap, word, -, -, -, hposition⟩ := next_passes hgoes
      rw [hposition, Position.offset_after, Position.offset_after]
      omega
  | false =>
      obtain ⟨m, hnext⟩ := exists_finished hgoes
      obtain ⟨-, hposition⟩ := rest_of_finished hnext
      rw [hnext]
      simp only [Step.after, hposition, Position.offset_after]
      omega

theorem offset_le_afterCalls (k : Cursor) {i j : Nat} (h : i ≤ j) :
    (k.afterCalls i).position.offset ≤ (k.afterCalls j).position.offset := by
  induction h with
  | refl => exact Nat.le_refl _
  | step _ ih => exact Nat.le_trans ih (offset_le_next _)

theorem finished_afterCalls {n : Nat} {m : Cursor} (h : (k.afterCalls n).next = .finished m)
    (i : Nat) : (k.afterCalls (n + i)).next = .finished m := by
  induction i with
  | zero => exact h
  | succ i ih =>
      have hafter : k.afterCalls (n + (i + 1)) = m := by
        rw [← Nat.add_assoc, Cursor.afterCalls, ih]
        rfl
      rw [hafter]
      exact next_of_finished ih

theorem afterCalls_succ (k : Cursor) (n : Nat) :
    k.afterCalls (n + 1) = k.next.after.afterCalls n := by
  induction n with
  | zero => rfl
  | succ n ih =>
      rw [Cursor.afterCalls, ih]
      rfl

/-- Every call that is not the last **leaves less text**, so there is a last one. -/
theorem ended_afterCalls (k : Cursor) : ∃ n, n ≤ k.rest.length ∧ (k.afterCalls n).Ended := by
  -- the step from the cursor behind a call to the one before it
  have hstep {k m : Cursor} (hgoes : k.next.goesOn = true) (hm : k.next.after = m)
      (h : ∃ n, n ≤ m.rest.length ∧ (m.afterCalls n).Ended) :
      ∃ n, n ≤ k.rest.length ∧ (k.afterCalls n).Ended := by
    obtain ⟨n, hn, hended⟩ := h
    have hless := length_lt_of_next hgoes
    rw [hm] at hless
    refine ⟨n + 1, by omega, ?_⟩
    rw [afterCalls_succ, hm]
    exact hended
  fun_induction events k with
  | case1 k last h => exact ⟨0, Nat.zero_le _, by simp [Ended, Cursor.afterCalls, h, Step.goesOn]⟩
  | case2 k l after h more last e ih => exact hstep (by rw [h]; rfl) (by rw [h]; rfl) ih
  | case3 k r after h more last e ih => exact hstep (by rw [h]; rfl) (by rw [h]; rfl) ih

/-- **The calls of the lexer on every text**, whatever is rejected on the way: the cursor counts
what it has passed; a call passes over a gap and a word, so that it makes progress and no two
lexemes overlap; and the end is reported when nothing but a gap is left, after no more calls than
there are characters and one, and then again and again. -/
theorem lexing_ofText (t : Text) (firstLine : Nat) :
    Lexing t firstLine (ofText t firstLine).afterCalls := by
  refine ⟨?_, ?_, ?_, ?_, ?_⟩
  · intro n
    obtain ⟨before, ht, hcounts⟩ := ((within_ofText t firstLine).afterCalls n).counts
    exact ⟨before, ht, hcounts, advances_next hcounts⟩
  · intro n
    exact ended_iff_lastGap
  · intro n m hnext i
    exact finished_afterCalls hnext i
  · intro i j l l' m m' hij hi hj
    obtain ⟨gap, word, -, -, -, -, -, hposition⟩ := next_eq_lexeme_iff.1 hi
    obtain ⟨gap', word', -, -, -, hstart, -, -⟩ := next_eq_lexeme_iff.1 hj
    have hm : (ofText t firstLine).afterCalls (i + 1) = m := by
      rw [Cursor.afterCalls, hi]
      rfl
    have hle := offset_le_afterCalls (ofText t firstLine) (Nat.succ_le_of_lt hij)
    rw [hm, hposition] at hle
    rw [hstart, Position.offset_after]
    omega
  · exact ended_afterCalls (ofText t firstLine)

/- A string is rejected in the middle of an escape, and reading goes on inside of it. -/
example : ((ofText ['a', '\n', '"', '\\', 'u', '4', 'x', '"'] 7).afterCalls 2).position
    = ⟨⟨8, 4⟩, 6, 6⟩ := by decide +kernel

end Cursor

end EdnSpans
