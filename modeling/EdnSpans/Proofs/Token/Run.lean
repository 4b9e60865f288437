/-
**Runs of lexemes.**

Reading lexemes one after another cuts a text into gaps and words.  A *run* says so: it leads from
one cursor to another over a list of lexemes, each of them behind a gap and made of a word.  Runs
can be put together and taken apart like the lists of their lexemes, so what is known of every
lexeme is known of every stretch of the text.

A run may restrict its gaps: in the runs of the lexer they are blanks and comments, and where no
comment stands between the lexemes they are blanks alone.

Main definitions:

* `EdnSpans.Gap`, `EdnSpans.LastGap` — what may stand before a lexeme, and behind the last one;
* `EdnSpans.AllBlank` — a gap without comments;
* `EdnSpans.Cursor.Passes` — one lexeme, as a gap and a word;
* `EdnSpans.Cursor.Run` — **a stretch of lexemes**;
* `EdnSpans.Cursor.Within` — a cursor that stands in a text.

Main results:

* `EdnSpans.Cursor.next_eq_lexeme_iff` — the lexer passes a gap and a word, and nothing else;
* `EdnSpans.Cursor.ofEvents_eq_iff` — **the lexemes of a text are a run** to where it ends;
* `EdnSpans.Cursor.Run.consumed` — a run passes over a stretch of the text;
* `EdnSpans.Cursor.Run.bounds` — the lexemes of a run stand in order between its ends.
-/
import EdnSpans.Proofs.Token.Word
import EdnSpans.Token.Stream

set_option relaxedAutoImplicit false
set_option autoImplicit false

namespace EdnSpans

open Text

/-! ### Gaps -/

/-- What may stand before a lexeme: blanks, and comments that their line ends.  The first argument
says that the text begins inside a comment. -/
inductive Gap : Bool → Text → Prop
  | nil : Gap false []
  | blank {c : Char} {t : Text} : isBlank c → Gap false t → Gap false (c :: t)
  | comment {t : Text} : Gap true t → Gap false (';' :: t)
  | inside {c : Char} {t : Text} : c ≠ '\n' → Gap true t → Gap true (c :: t)
  | lineEnd {t : Text} : Gap false t → Gap true ('\n' :: t)

/-- A gap of blanks alone. -/
def AllBlank (gap : Text) : Prop := ∀ c ∈ gap, isBlank c

/-- A text of blanks is a gap. -/
theorem Gap.of_blank {t : Text} (h : ∀ c ∈ t, isBlank c) : Gap false t := by
  induction t with
  | nil => exact .nil
  | cons c t ih =>
      exact .blank (h c (List.mem_cons_self ..)) (ih fun d hd => h d (List.mem_cons_of_mem _ hd))

/-- A gap without a semicolon has no comment. -/
theorem Gap.blank_of_not_mem {t : Text} (h : Gap false t) (hs : ';' ∉ t) :
    ∀ c ∈ t, isBlank c := by
  induction t with
  | nil => simp
  | cons d t ih =>
      cases h with
      | blank hd ht =>
          intro c hc
          rcases List.mem_cons.1 hc with rfl | hc
          · exact hd
          · exact ih ht (fun hm => hs (List.mem_cons_of_mem _ hm)) c hc
      | comment ht => exact absurd (List.mem_cons_self ..) hs

/-- The lexer passes over a gap, and over whatever gap follows it. -/
theorem gapLength_append {inComment : Bool} {gap : Text} (h : Gap inComment gap) (rest : Text) :
    gapLength inComment (gap ++ rest) = gap.length + gapLength false rest := by
  induction h with
  | nil => simp
  | blank hc _ ih => simp [gapLength, hc, ih]; omega
  | comment _ ih => simp [gapLength, show isBlank ';' = false by decide, ih]; omega
  | inside hc _ ih => simp [gapLength, bne_iff_ne.2 hc, ih]; omega
  | lineEnd _ ih => simp [gapLength, ih]; omega

/-- What the lexer passes over before another character **is a gap**, and the character begins
none. -/
theorem gap_of_gapLength {inComment : Bool} {t u : Text} {c : Char}
    (h : t.drop (gapLength inComment t) = c :: u) :
    Gap inComment (t.take (gapLength inComment t)) ∧ isBlank c = false ∧ c ≠ ';' := by
  induction t generalizing inComment with
  | nil => simp at h
  | cons d t ih =>
      unfold gapLength at h ⊢
      cases inComment with
      -- inside a comment every character is passed, and a line break ends it
      | true =>
          simp only [if_true, List.drop_succ_cons, List.take_succ_cons] at h ⊢
          obtain ⟨hgap, hc⟩ := ih h
          refine ⟨?_, hc⟩
          by_cases hd : d = '\n'
          · subst hd
            exact .lineEnd hgap
          · exact .inside hd (by simpa [bne_iff_ne.2 hd] using hgap)
      | false =>
          simp only [Bool.false_eq_true, if_false] at h ⊢
          split at h
          · next hb =>
              obtain ⟨hgap, hc⟩ := ih h
              simp only [hb, if_true, List.take_succ_cons]
              exact ⟨.blank hb hgap, hc⟩
          · next hb =>
              split at h
              · next hs =>
                  obtain ⟨hgap, hc⟩ := ih h
                  subst hs
                  simp only [hb, if_true]
                  exact ⟨.comment hgap, hc⟩
              · next hs =>
                  obtain ⟨rfl, -⟩ : d = c ∧ t = u := by simpa using h
                  simp only [hb, hs, if_false]
                  exact ⟨.nil, by simp, hs⟩

/-- What the lexer passes over up to the end of a text is a gap **once the last line is ended**. -/
theorem gap_of_gapLength_end {inComment : Bool} {t : Text}
    (h : t.drop (gapLength inComment t) = []) : Gap inComment (t ++ ['\n']) := by
  induction t generalizing inComment with
  | nil =>
      cases inComment with
      | true => exact .lineEnd .nil
      | false => exact .blank rfl .nil
  | cons d t ih =>
      unfold gapLength at h
      cases inComment with
      | true =>
          rw [if_pos rfl, List.drop_succ_cons] at h
          have hgap := ih h
          by_cases hd : d = '\n'
          · subst hd
            exact .lineEnd hgap
          · exact .inside hd (by simpa [bne_iff_ne.2 hd] using hgap)
      | false =>
          rw [if_neg Bool.false_ne_true] at h
          split at h
          · next hb => exact .blank hb (ih h)
          · split at h
            · next hs =>
                subst hs
                exact .comment (ih h)
            · simp at h

/-- What may stand behind the last lexeme: a gap, and perhaps a comment that no line break ends. -/
def LastGap (t : Text) : Prop :=
  ∃ gap comment, t = gap ++ comment ∧ Gap false gap
    ∧ (comment = [] ∨ ∃ body, comment = ';' :: body ∧ '\n' ∉ body)

/-- A text that is a gap once its last line is ended: the line may be ended **inside a comment**,
also inside the one in which the text begins. -/
theorem Gap.lastGap_of_append {inComment : Bool} {t : Text} (h : Gap inComment (t ++ ['\n'])) :
    (∃ gap comment, t = gap ++ comment ∧ Gap inComment gap
        ∧ (comment = [] ∨ ∃ body, comment = ';' :: body ∧ '\n' ∉ body))
      ∨ (inComment = true ∧ '\n' ∉ t) := by
  induction t generalizing inComment with
  | nil =>
      cases h with
      | blank => exact .inl ⟨[], [], rfl, .nil, .inl rfl⟩
      | inside hne => exact absurd rfl hne
      | lineEnd => exact .inr ⟨rfl, by simp⟩
  | cons c t ih =>
      cases h with
      | blank hc ht =>
          rcases ih ht with ⟨gap, comment, rfl, hgap, hcomment⟩ | ⟨⟨⟩, -⟩
          exact .inl ⟨c :: gap, comment, rfl, .blank hc hgap, hcomment⟩
      | comment ht =>
          rcases ih ht with ⟨gap, comment, rfl, hgap, hcomment⟩ | ⟨-, hnot⟩
          · exact .inl ⟨';' :: gap, comment, rfl, .comment hgap, hcomment⟩
          · exact .inl ⟨[], ';' :: t, rfl, .nil, .inr ⟨t, rfl, hnot⟩⟩
      | inside hc ht =>
          rcases ih ht with ⟨gap, comment, rfl, hgap, hcomment⟩ | ⟨-, hnot⟩
          · exact .inl ⟨c :: gap, comment, rfl, .inside hc hgap, hcomment⟩
          · exact .inr ⟨rfl, by simp [Ne.symm hc, hnot]⟩
      | lineEnd ht =>
          rcases ih ht with ⟨gap, comment, rfl, hgap, hcomment⟩ | ⟨⟨⟩, -⟩
          exact .inl ⟨'\n' :: gap, comment, rfl, .lineEnd hgap, hcomment⟩

/-- The first character of a token is no blank and begins no comment. -/
theorem Token.Scanned.not_blank {c : Char} {t : Text} {n : Nat} {token : Token}
    (h : Token.Scanned c t n token) : isBlank c = false ∧ c ≠ ';' := by
  have hlead : Lead.of c t.head? ≠ .stray := by cases h <;> simp_all
  constructor
  · refine Bool.eq_false_iff.2 fun hb => ?_
    simp only [isBlank, Bool.or_eq_true, decide_eq_true_eq] at hb
    rcases hb with (((rfl | rfl) | rfl) | rfl) | rfl <;> exact hlead rfl
  · rintro rfl
    exact hlead rfl

theorem Token.Scanned.gapLength_eq {c : Char} {t : Text} {n : Nat} {token : Token}
    (h : Token.Scanned c t n token) : gapLength false (c :: t) = 0 := by
  obtain ⟨hblank, hsemi⟩ := h.not_blank
  simp [gapLength, hblank, hsemi]

/-! ### One lexeme -/

namespace Cursor

/-- From the cursor `k` a gap, and then a word that is read as the lexeme `l`, lead to the cursor
`m`. -/
structure Passes (k : Cursor) (gap word : Text) (l : Lexeme) (m : Cursor) : Prop where
  /-- The text is the gap, the word, and what is left. -/
  rest_eq : k.rest = gap ++ (word ++ m.rest)
  /-- The word is read as the token of the lexeme. -/
  reads : Token.ReadsAs word m.rest l.token
  /-- The lexeme begins behind the gap. -/
  start_eq : l.start = k.position.after gap
  /-- It ends behind its word. -/
  stop_eq : l.stop = l.start.after word
  /-- Reading goes on there. -/
  position_eq : m.position = l.stop

theorem goesOn_readToken (k : Cursor) (c : Char) (t : Text) : (k.readToken c t).goesOn = true := by
  simp only [readToken]
  split <;> rfl

/-- From a cursor at the first character of a token the lexer goes over a word. -/
theorem readToken_eq_lexeme_iff {k m : Cursor} {l : Lexeme} {c : Char} {t : Text}
    (hk : k.rest = c :: t) : k.readToken c t = .lexeme l m ↔ ∃ word, k.Passes [] word l m := by
  constructor
  · intro h
    simp only [readToken] at h
    split at h
    · next token htoken =>
        obtain ⟨rfl, rfl⟩ := Step.lexeme.inj h
        have hlen := Token.scan_length_le c t
        obtain ⟨n, hn⟩ : ∃ n, (Token.scan c t).length = n + 1 :=
          ⟨_, (Nat.succ_pred_eq_of_pos (Token.scan_length_pos c t)).symm⟩
        have hscanned : Token.Scanned c t (n + 1) token :=
          Token.scan_eq_ok_iff.1 (by rw [← hn, ← htoken])
        rw [hn] at hlen ⊢
        refine ⟨c :: t.take n, ?_, ⟨c, t.take n, rfl, ?_⟩, rfl, ?_, rfl⟩
        · simp [hk]
        · have hword : (c :: t.take n).length = n + 1 := by simp; omega
          rw [hword, rest_advance, hk, List.drop_succ_cons, List.take_append_drop]
          exact hscanned
        · simp [hk]
    · simp at h
  · rintro ⟨word, hrest, ⟨c', w, rfl, hscanned⟩, hstart, hstop, hposition⟩
    obtain ⟨rfl, rfl⟩ : c = c' ∧ t = w ++ m.rest := by simpa [hk] using hrest
    obtain ⟨token, start, stop⟩ := l
    obtain ⟨rest, position⟩ := m
    simp only [Position.after_nil] at hstart hstop hposition hscanned
    subst hstart hposition hstop
    simp [readToken, Token.scan_eq_ok_iff.2 hscanned, advance, hk]

/-- The lexer goes **over a gap and a word**, and over nothing else. -/
theorem next_eq_lexeme_iff {k m : Cursor} {l : Lexeme} :
    k.next = .lexeme l m ↔ ∃ gap word, Gap false gap ∧ k.Passes gap word l m := by
  constructor
  · intro h
    simp only [next] at h
    split at h
    · simp at h
    · next c t e =>
        obtain ⟨word, hrest, hreads, hstart, hstop, hposition⟩ :=
          (readToken_eq_lexeme_iff e).1 h
        refine ⟨k.rest.take (gapLength false k.rest), word, (gap_of_gapLength e).1, ?_, hreads,
          hstart, hstop, hposition⟩
        rw [← List.nil_append (word ++ m.rest), ← hrest]
        exact (List.take_append_drop _ _).symm
  · rintro ⟨gap, word, hgap, hrest, hreads, hstart, hstop, hposition⟩
    obtain ⟨c, w, hw, hscanned⟩ := id hreads
    -- the lexer passes no more than the gap, since the first character of a word begins none
    have hlen : gapLength false k.rest = gap.length := by
      rw [hrest, gapLength_append hgap, hw, List.cons_append, hscanned.gapLength_eq, Nat.add_zero]
    have hskip : k.skipGap = ⟨word ++ m.rest, k.position.after gap⟩ := by
      rw [skipGap, hlen]
      simp [advance, hrest]
    have hcons : k.skipGap.rest = c :: (w ++ m.rest) := by rw [hskip, hw]; rfl
    have hread : k.skipGap.readToken c (w ++ m.rest) = .lexeme l m := by
      refine (readToken_eq_lexeme_iff hcons).2 ⟨word, ?_, hreads, ?_, hstop, hposition⟩
      · rw [hskip]; rfl
      · rw [hskip]; exact hstart
    simp only [next]
    split
    · next e => rw [hcons] at e; simp at e
    · next c' t' e =>
        obtain ⟨rfl, rfl⟩ : c = c' ∧ w ++ m.rest = t' := by simpa [hcons] using e
        exact hread

/-! ### Runs -/

/-- From one cursor a list of lexemes leads to another, and all gaps are of the given sort. -/
inductive Run (sort : Text → Prop) : Cursor → List Lexeme → Cursor → Prop
  | nil (k : Cursor) : Run sort k [] k
  | cons {k m k' : Cursor} {gap word : Text} {l : Lexeme} {ls : List Lexeme} (hgap : sort gap)
      (passes : k.Passes gap word l m) (tail : Run sort m ls k') : Run sort k (l :: ls) k'

/-- The next lexeme of a run of the lexer is the one that the lexer finds. -/
theorem run_cons_iff {k k' : Cursor} {l : Lexeme} {ls : List Lexeme} :
    Run (Gap false) k (l :: ls) k' ↔ ∃ m, k.next = .lexeme l m ∧ Run (Gap false) m ls k' := by
  constructor
  · intro h
    cases h with
    | cons hgap passes tail => exact ⟨_, next_eq_lexeme_iff.2 ⟨_, _, hgap, passes⟩, tail⟩
  · rintro ⟨m, hnext, tail⟩
    obtain ⟨gap, word, hgap, passes⟩ := next_eq_lexeme_iff.1 hnext
    exact .cons hgap passes tail

/-- The cursor is at the end of its text: only blanks and comments are left. -/
def Ended (k : Cursor) : Prop := k.next.goesOn = false

/-- At the end of a text a gap is left, **once the last line is ended**. -/
theorem Ended.gap {k : Cursor} (h : k.Ended) : Gap false (k.rest ++ ['\n']) := by
  refine gap_of_gapLength_end ?_
  simp only [Ended, next] at h
  split at h
  · next e => exact e
  · rw [goesOn_readToken] at h
    cases h

theorem Ended.lastGap {k : Cursor} (h : k.Ended) : LastGap k.rest := by
  rcases Gap.lastGap_of_append h.gap with hlast | ⟨⟨⟩, -⟩
  exact hlast

/-- The lexemes of a text, if nothing in it is rejected, **are a run** to where it ends. -/
theorem ofEvents_eq_iff {k : Cursor} {ls : List Lexeme} :
    LexemeStream.ofEvents k.events.1 = ⟨ls, none⟩ ↔ ∃ k', Run (Gap false) k ls k' ∧ k'.Ended := by
  -- the text ends, a lexeme is found, or something is rejected
  fun_induction events k generalizing ls with
  | case1 k last h =>
      constructor
      · intro e
        obtain rfl : [] = ls := by simpa [LexemeStream.ofEvents] using e
        exact ⟨k, .nil k, by simp [Ended, h, Step.goesOn]⟩
      · rintro ⟨k', hrun, hended⟩
        cases ls with
        | nil => rfl
        | cons l ls =>
            obtain ⟨m, hnext, -⟩ := run_cons_iff.1 hrun
            rw [h] at hnext
            simp at hnext
  | case2 k l after h more last e ih =>
      rw [e] at ih
      constructor
      · intro hs
        rcases hmore : LexemeStream.ofEvents more with ⟨lexemes, rejection⟩
        obtain ⟨rfl, rfl⟩ : l :: lexemes = ls ∧ rejection = none := by
          simpa [LexemeStream.ofEvents, hmore] using hs
        obtain ⟨k', hrun, hended⟩ := ih.1 hmore
        exact ⟨k', run_cons_iff.2 ⟨after, h, hrun⟩, hended⟩
      · rintro ⟨k', hrun, hended⟩
        cases ls with
        | nil =>
            cases hrun
            simp [Ended, h, Step.goesOn] at hended
        | cons l' ls =>
            obtain ⟨m, hnext, hrun⟩ := run_cons_iff.1 hrun
            obtain ⟨rfl, rfl⟩ := Step.lexeme.inj (h.symm.trans hnext)
            simp [LexemeStream.ofEvents, ih.2 ⟨k', hrun, hended⟩]
  | case3 k r after h more last e ih =>
      constructor
      · intro hs
        simp [LexemeStream.ofEvents] at hs
      · rintro ⟨k', hrun, hended⟩
        cases ls with
        | nil =>
            cases hrun
            simp [Ended, h, Step.goesOn] at hended
        | cons l' ls =>
            obtain ⟨m, hnext, -⟩ := run_cons_iff.1 hrun
            rw [h] at hnext
            simp at hnext

namespace Run

variable {sort : Text → Prop} {k m k' : Cursor} {ls xs ys : List Lexeme}

/-- The gaps of a run may be described more loosely. -/
theorem mono {sort' : Text → Prop} (hsort : ∀ gap, sort gap → sort' gap) (h : Run sort k ls k') :
    Run sort' k ls k' := by
  induction h with
  | nil k => exact .nil k
  | cons hgap passes _ ih => exact .cons (hsort _ hgap) passes ih

/-- Runs are **put together and taken apart** like lists. -/
theorem append_iff : Run sort k (xs ++ ys) k' ↔ ∃ m, Run sort k xs m ∧ Run sort m ys k' := by
  induction xs generalizing k with
  | nil =>
      constructor
      · intro h
        exact ⟨k, .nil k, h⟩
      · rintro ⟨m, hx, hy⟩
        cases hx
        exact hy
  | cons x xs ih =>
      constructor
      · intro h
        cases h with
        | cons hgap passes tail =>
            obtain ⟨m, hx, hy⟩ := ih.1 tail
            exact ⟨m, .cons hgap passes hx, hy⟩
      · rintro ⟨m, hx, hy⟩
        cases hx with
        | cons hgap passes tail => exact .cons hgap passes (ih.2 ⟨m, tail, hy⟩)

/-- A run passes over **a stretch of the text**. -/
theorem consumed (h : Run sort k ls k') :
    ∃ t, k.rest = t ++ k'.rest ∧ k'.position = k.position.after t := by
  induction h with
  | nil k => exact ⟨[], rfl, rfl⟩
  | @cons k m k' gap word l ls _ passes _ ih =>
      obtain ⟨t, hrest, hposition⟩ := ih
      refine ⟨gap ++ (word ++ t), ?_, ?_⟩
      · rw [passes.rest_eq, hrest]
        simp
      · rw [hposition, passes.position_eq, passes.stop_eq, passes.start_eq]
        simp

/-- The offsets of a run do not decrease. -/
theorem offset_le (h : Run sort k ls k') : k.position.offset ≤ k'.position.offset := by
  obtain ⟨t, -, hposition⟩ := h.consumed
  rw [hposition, Position.offset_after]
  exact Nat.le_add_right _ _

/-- The lexemes of a run stand between its ends. -/
theorem bounds (h : Run sort k ls k') :
    ∀ l ∈ ls, k.position.offset ≤ l.start.offset ∧ l.stop.offset ≤ k'.position.offset := by
  induction h with
  | nil k => simp
  | @cons k m k' gap word l ls _ passes tail ih =>
      have hstart : l.start.offset = k.position.offset + gap.length := by
        rw [passes.start_eq, Position.offset_after]
      have hstop : l.stop.offset = l.start.offset + word.length := by
        rw [passes.stop_eq, Position.offset_after]
      have hm : m.position.offset = l.stop.offset := by rw [passes.position_eq]
      have htail := tail.offset_le
      intro l' hl'
      rcases List.mem_cons.1 hl' with rfl | hl'
      · omega
      · have := ih l' hl'
        omega

end Run

/-! ### Cursors in a text -/

/-- The cursor stands in the text, whose first line has the given number, at the position of what
lies before it. -/
def Within (t : Text) (firstLine : Nat) (k : Cursor) : Prop :=
  ∃ before, t = before ++ k.rest ∧ k.position = (Position.first firstLine).after before

theorem within_ofText (t : Text) (firstLine : Nat) : (ofText t firstLine).Within t firstLine :=
  ⟨[], rfl, rfl⟩

/-- A run stays in the text. -/
theorem Within.run {t : Text} {firstLine : Nat} {sort : Text → Prop} {k k' : Cursor}
    {ls : List Lexeme} (hk : k.Within t firstLine) (h : Run sort k ls k') :
    k'.Within t firstLine := by
  obtain ⟨before, ht, hposition⟩ := hk
  obtain ⟨passed, hrest, hposition'⟩ := h.consumed
  refine ⟨before ++ passed, ?_, ?_⟩
  · rw [ht, hrest, List.append_assoc]
  · rw [hposition', hposition, Position.after_append]

end Cursor

end EdnSpans
