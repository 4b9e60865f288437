/-
**Comments mean nothing to the reader.**

The reader passes over comments as it passes over blanks.  So a text in which every character of
every comment is replaced by a space, and only the line breaks stay, is read like the text itself:
as the same forms, from lexemes with the same words, on the same lines and at the same offsets.
Offsets count characters.  Offsets in bytes are another matter, since a character of a comment may
take more bytes than a space.

Main definitions:

* `EdnSpans.blankComments` — a text with **its comments blanked**;
* `EdnSpans.Position.inText` — the position with the same line, column and offset in another text;
* `EdnSpans.Parse.inText` — a parse with its lexemes at these positions.

Main results:

* `EdnSpans.blankComments_append` — blanking goes from lexeme to lexeme, as reading does;
* `EdnSpans.Parses.slice_blanked` — every word stands where it stood;
* `EdnSpans.Cursor.Run.blanked` — a run is a run over the same words, with blanks alone between them;
* `EdnSpans.Parses.blanked` — **the parses of a text and of the text with its comments blanked**.
-/
import EdnSpans.Proofs.Reader.Layout
import EdnSpans.Proofs.Token.Progress
import EdnSpans.Proofs.Token.Seam

set_option relaxedAutoImplicit false
set_option autoImplicit false

namespace EdnSpans

open Text

/-! ### Blanking -/

/-- The gap with every character of its comments replaced by a space, up to the line breaks that end
them; `inComment` says that it begins inside a comment. -/
def blankGap (inComment : Bool) : Text → Text
  | [] => []
  | c :: t =>
      if inComment then
        if c = '\n' then c :: blankGap false t else ' ' :: blankGap true t
      else if c = ';' then ' ' :: blankGap true t
      else c :: blankGap false t

/-- The text with every character of every comment that is passed over replaced by a space, up to
the line break that ends the comment. -/
def blankComments (t : Text) : Text :=
  blankGap false (t.take (gapLength false t)) ++
    match _h : t.drop (gapLength false t) with
    | [] => []
    | c :: u =>
        (c :: u).take (Token.scan c u).length
          ++ blankComments ((c :: u).drop (Token.scan c u).length)
termination_by t.length
decreasing_by
  have hpos := Token.scan_length_pos c u
  have hlength : (t.drop (gapLength false t)).length = u.length + 1 := by rw [_h]; rfl
  rw [List.length_drop] at hlength
  rw [List.length_drop, List.length_cons]
  omega

/-- Both texts have the same length, and line breaks at the same places. -/
def Text.SameLines (s t : Text) : Prop := s.map (· == '\n') = t.map (· == '\n')

theorem blankGap_sameLines (inComment : Bool) (gap : Text) :
    (blankGap inComment gap).SameLines gap := by
  induction gap generalizing inComment with
  | nil => rfl
  | cons c gap ih =>
      have hcons {d : Char} {rest : Text} (hd : (d == '\n') = (c == '\n')) (h : rest.SameLines gap) :
          Text.SameLines (d :: rest) (c :: gap) := by
        rw [Text.SameLines, List.map_cons, List.map_cons, hd, h]
      rw [blankGap]
      split
      · split
        · exact hcons rfl (ih false)
        · next hc => exact hcons (by simp [hc]) (ih true)
      · split
        · next hc => exact hcons (by simp [hc]) (ih true)
        · exact hcons rfl (ih false)

/-- What is passed over is blank **once its comments are blanked**. -/
theorem allBlank_blankGap {inComment : Bool} {gap : Text}
    (h : gapLength inComment gap = gap.length) : AllBlank (blankGap inComment gap) := by
  induction gap generalizing inComment with
  | nil => simp [AllBlank, blankGap]
  | cons c gap ih =>
      have hcons {d : Char} {rest : Text} (hd : isBlank d) (hrest : AllBlank rest) :
          AllBlank (d :: rest) := List.forall_mem_cons.2 ⟨hd, hrest⟩
      have hspace : isBlank ' ' := by decide
      rw [gapLength] at h
      rw [blankGap]
      cases inComment with
      | true =>
          simp only [if_true, List.length_cons, Nat.add_right_cancel_iff] at h ⊢
          split
          · next hc =>
              subst hc
              exact hcons (by decide) (ih h)
          · next hc => exact hcons hspace (ih (by simpa [bne_iff_ne.2 hc] using h))
      | false =>
          simp only [Bool.false_eq_true, if_false] at h ⊢
          split
          · next hc =>
              subst hc
              exact hcons hspace (ih (by simpa [show isBlank ';' = false by decide] using h))
          · next hc =>
              split at h
              · next hblank => exact hcons hblank (ih (by simpa using h))
              · simp at h

theorem Gap.gapLength_eq {inComment : Bool} {gap : Text} (h : Gap inComment gap) :
    gapLength inComment gap = gap.length := by
  simpa [gapLength] using gapLength_append h []

theorem blankGap_append {inComment : Bool} {gap : Text} (h : Gap inComment gap) (t : Text) :
    blankGap inComment (gap ++ t) = blankGap inComment gap ++ blankGap false t := by
  induction h with
  | nil => rfl
  | @blank c _ hc _ ih =>
      have hne : c ≠ ';' := by
        rintro rfl
        exact absurd hc (by decide)
      simp [blankGap, hne, ih]
  | comment _ ih => simp [blankGap, ih]
  | inside hc _ ih => simp [blankGap, hc, ih]
  | lineEnd _ ih => simp [blankGap, ih]

/-- A gap at the front of a text is blanked, **and then the text behind it**. -/
theorem blankComments_gap {gap : Text} (hgap : Gap false gap) (t : Text) :
    blankComments (gap ++ t) = blankGap false gap ++ blankComments t := by
  have hlength := gapLength_append hgap t
  rw [blankComments, hlength, List.take_length_add_append, List.drop_length_add_append,
    blankGap_append hgap, List.append_assoc]
  congr 1
  rw [blankComments]

/-- A word at the front of a text **stays as it is**. -/
theorem blankComments_word {word rest : Text} {token : Token}
    (hreads : Token.ReadsAs word rest token) :
    blankComments (word ++ rest) = word ++ blankComments rest := by
  obtain ⟨c, w, rfl, hscanned⟩ := hreads
  have hlength : gapLength false (c :: w ++ rest) = 0 := by
    rw [List.cons_append, hscanned.gapLength_eq]
  have hscan : (Token.scan c (w ++ rest)).length = (c :: w).length := by
    rw [Token.scan_eq_ok_iff.2 hscanned]
  rw [blankComments, hlength, List.take_zero, List.drop_zero]
  simp only [List.cons_append, hscan]
  rw [← List.cons_append, List.take_left, List.drop_left]
  rfl

/-- Blanking goes **from lexeme to lexeme**, as reading does. -/
theorem blankComments_append {gap word rest : Text} {token : Token} (hgap : Gap false gap)
    (hreads : Token.ReadsAs word rest token) :
    blankComments (gap ++ (word ++ rest)) = blankGap false gap ++ (word ++ blankComments rest) := by
  rw [blankComments_gap hgap, blankComments_word hreads]

/-- Behind the last lexeme a gap is blanked, **also one that no line break ends**. -/
theorem blankComments_of_last {t : Text} (h : gapLength false t = t.length) :
    blankComments t = blankGap false t := by
  rw [blankComments, h, List.take_length]
  split
  · exact List.append_nil _
  · next hdrop =>
      rw [List.drop_length] at hdrop
      cases hdrop

/-- A blanked text may stand **in place of the text** behind a word. -/
theorem inPlaceOf_blankComments (t : Text) : (blankComments t).InPlaceOf t := by
  cases t with
  | nil =>
      rw [blankComments_of_last rfl]
      exact .inl rfl
  | cons c t =>
      by_cases hsemi : c = ';'
      · -- a comment begins, and becomes a space, with which no name goes on
        subst hsemi
        have hlength : gapLength false (';' :: t) = gapLength true t + 1 := rfl
        rw [blankComments, hlength, List.take_succ_cons]
        refine .inr ?_
        rintro d ⟨⟩
        decide
      · refine .inl ?_
        by_cases hblank : isBlank c
        · have hlength : gapLength false (c :: t) = gapLength false t + 1 := by
            simp [gapLength, hblank]
          rw [blankComments, hlength, List.take_succ_cons, blankGap, if_neg Bool.false_ne_true,
            if_neg hsemi]
          rfl
        · have hlength : gapLength false (c :: t) = 0 := by simp [gapLength, hblank, hsemi]
          obtain ⟨n, hn⟩ : ∃ n, (Token.scan c t).length = n + 1 :=
            ⟨_, (Nat.succ_pred_eq_of_pos (Token.scan_length_pos c t)).symm⟩
          rw [blankComments, hlength, List.take_zero, List.drop_zero]
          simp only [blankGap, hn, List.take_succ_cons, List.nil_append, List.cons_append,
            List.head?_cons]

/-! ### Positions in the blanked text -/

/-- The position with the same line, column and offset in another text. -/
def Position.inText (t : Text) (p : Position) : Position :=
  { p with byte := byteOffset t p.offset }

/-- The lexeme with its ends at these positions. -/
def Lexeme.inText (t : Text) (l : Lexeme) : Lexeme :=
  ⟨l.token, l.start.inText t, l.stop.inText t⟩

theorem Text.SameLines.length_eq {s t : Text} (h : s.SameLines t) : s.length = t.length := by
  simpa using congrArg List.length h

/-- Over texts with the same lines the line, the column and the offset **go on alike**. -/
theorem Position.after_of_sameLines {s t : Text} (h : s.SameLines t) (p : Position) (byte : Nat) :
    { p with byte := byte }.after s = { p.after t with byte := byte + byteSize s } := by
  induction t generalizing s p byte with
  | nil =>
      obtain rfl : s = [] := by simpa [Text.SameLines] using h
      rfl
  | cons c t ih =>
      obtain ⟨d, s, rfl⟩ : ∃ d s', s = d :: s' := by
        cases s with
        | nil => simp [Text.SameLines] at h
        | cons d s => exact ⟨d, s, rfl⟩
      obtain ⟨hhead, htail⟩ : (d == '\n') = (c == '\n') ∧ Text.SameLines s t := by
        simpa [Text.SameLines] using h
      have hiff : d = '\n' ↔ c = '\n' := by
        have hbool := congrArg (· = true) hhead
        simpa using hbool
      have hnext : { p with byte := byte }.next d
          = { p.next c with byte := byte + d.utf8Size } := by
        simp only [Position.next, hiff]
      rw [after_cons, after_cons, hnext, ih htail, byteSize_cons, Nat.add_assoc]

/-- In a text that goes on, behind as many characters, with the same lines. -/
theorem Position.after_inText {before s rest u : Text} {p : Position}
    (hp : before.length = p.offset) (hs : s.SameLines u) :
    (p.inText (before ++ (s ++ rest))).after s = (p.after u).inText (before ++ (s ++ rest)) := by
  have hbefore : byteOffset (before ++ (s ++ rest)) p.offset = byteSize before := by
    rw [byteOffset, ← hp, List.take_left]
  have hafter : byteOffset (before ++ (s ++ rest)) (p.after u).offset
      = byteSize before + byteSize s := by
    rw [byteOffset, offset_after, ← hp, ← hs.length_eq, ← List.length_append, ← List.append_assoc,
      List.take_left, byteSize_append]
  rw [inText, inText, hbefore, hafter]
  exact after_of_sameLines hs p _

/-! ### Runs in the blanked text -/

namespace Cursor

/-- The cursor in the blanked text. -/
def blanked (t : Text) (k : Cursor) : Cursor := ⟨blankComments k.rest, k.position.inText t⟩

/-- The text goes on, at the offset of the cursor, with what is in front of the cursor, blanked. -/
def Fits (t : Text) (k : Cursor) : Prop :=
  ∃ before, t = before ++ blankComments k.rest ∧ before.length = k.position.offset

/-- One lexeme **in the blanked text**. -/
theorem Passes.blanked {t gap word : Text} {k m : Cursor} {l : Lexeme} (hk : k.Fits t)
    (hgap : Gap false gap) (h : k.Passes gap word l m) :
    (k.blanked t).Passes (blankGap false gap) word (l.inText t) (m.blanked t) ∧ m.Fits t := by
  obtain ⟨before, ht, hbefore⟩ := hk
  have hrest : blankComments k.rest = blankGap false gap ++ (word ++ blankComments m.rest) := by
    rw [h.rest_eq, blankComments_append hgap h.reads]
  have hlines := blankGap_sameLines false gap
  have hstart : l.start.inText t = (k.position.inText t).after (blankGap false gap) := by
    rw [ht, hrest, h.start_eq, Position.after_inText hbefore hlines]
  -- behind the gap the text goes on with the word
  have ht' : t = (before ++ blankGap false gap) ++ (word ++ blankComments m.rest) := by
    rw [ht, hrest, List.append_assoc]
  have hbefore' : (before ++ blankGap false gap).length = l.start.offset := by
    rw [h.start_eq, Position.offset_after, List.length_append, hbefore, hlines.length_eq]
  have hstop : l.stop.inText t = (l.start.inText t).after word := by
    rw [ht', h.stop_eq, Position.after_inText hbefore' rfl]
  refine ⟨⟨hrest, h.reads.inPlaceOf (inPlaceOf_blankComments m.rest), hstart, hstop, ?_⟩, ?_⟩
  · exact congrArg (Position.inText t) h.position_eq
  · refine ⟨(before ++ blankGap false gap) ++ word, ?_, ?_⟩
    · rw [ht', List.append_assoc (before ++ blankGap false gap)]
    · rw [h.position_eq, h.stop_eq, Position.offset_after, List.length_append, hbefore']

/-- A run is a run **over the same words, with blanks alone between them**. -/
theorem Run.blanked {t : Text} {k m : Cursor} {ls : List Lexeme} (h : Run (Gap false) k ls m)
    (hk : k.Fits t) :
    Run AllBlank (k.blanked t) (ls.map (Lexeme.inText t)) (m.blanked t) ∧ m.Fits t := by
  induction h with
  | nil k => exact ⟨.nil _, hk⟩
  | cons hgap passes _ ih =>
      obtain ⟨hpasses, hfits⟩ := passes.blanked hk hgap
      obtain ⟨htail, hm⟩ := ih hfits
      exact ⟨.cons (allBlank_blankGap hgap.gapLength_eq) hpasses htail, hm⟩

/-- In the blanked text **every word stands where it stood**. -/
theorem Run.slice_blanked {t u : Text} {firstLine : Nat} {k m : Cursor} {ls : List Lexeme}
    (h : Run (Gap false) k ls m) (hk : k.Within t firstLine) (hfits : k.Fits u)
    (hblanked : (k.blanked u).Within u firstLine) :
    ∀ l ∈ ls, slice u l.start.offset l.stop.offset = slice t l.start.offset l.stop.offset := by
  induction h with
  | nil k => simp
  | @cons k k₁ m gap word l ls hgap passes _ ih =>
      obtain ⟨passes', hfits'⟩ := passes.blanked hfits hgap
      refine List.forall_mem_cons.2 ⟨?_, ?_⟩
      · have hthere := (hk.span_eq_seed (e := ⟨l.start, l.stop⟩) passes.rest_eq passes.start_eq
          passes.stop_eq).2
        have hhere := (hblanked.span_eq_seed (e := ⟨l.start.inText u, l.stop.inText u⟩)
          passes'.rest_eq passes'.start_eq passes'.stop_eq).2
        exact hhere.trans hthere.symm
      · have hblank := allBlank_blankGap hgap.gapLength_eq
        exact ih (hk.run (.cons hgap passes (.nil k₁))) hfits'
          (hblanked.run (.cons hblank passes' (.nil _)))

theorem Ended.blanked {k : Cursor} (h : k.Ended) (t : Text) : (k.blanked t).Ended := by
  have hlength := h.lastGap.gapLength_eq
  have hblank : AllBlank (blankComments k.rest) := by
    rw [blankComments_of_last hlength]
    exact allBlank_blankGap hlength
  exact ended_iff_lastGap.2 ⟨_, [], (List.append_nil _).symm, Gap.of_blank hblank, .inl rfl⟩

theorem fits_ofText (t : Text) (firstLine : Nat) : (ofText t firstLine).Fits (blankComments t) :=
  ⟨[], rfl, rfl⟩

theorem blanked_ofText (t : Text) (firstLine : Nat) :
    (ofText t firstLine).blanked (blankComments t) = ofText (blankComments t) firstLine := rfl

end Cursor

/-! ### Parses of the blanked text -/

/-- The ends at the same offsets in another text. -/
def Extent.inText (t : Text) (e : Extent) : Extent := ⟨e.start.inText t, e.stop.inText t⟩

namespace Parse

mutual

/-- The parse with its lexemes at the same offsets in another text. -/
def inText (t : Text) : Parse → Parse
  | .leaf s e => .leaf s (e.inText t)
  | .branch k o items c => .branch k (o.inText t) (inTextAll t items) (c.inText t)

/-- The parses with their lexemes at the same offsets in another text. -/
def inTextAll (t : Text) : List Parse → List Parse
  | [] => []
  | p :: ps => inText t p :: inTextAll t ps

end

section

variable (t : Text)

theorem inTextAll_eq_map (ps : List Parse) : inTextAll t ps = ps.map (inText t) := by
  induction ps with
  | nil => rfl
  | cons p ps ih => rw [inTextAll, ih, List.map_cons]

@[simp] theorem inText_branch (k : Kind) (o c : Extent) (items : List Parse) :
    (branch k o items c).inText t
      = branch k (o.inText t) (items.map (inText t)) (c.inText t) := by
  rw [inText, inTextAll_eq_map]

@[simp] theorem extent_inText (p : Parse) : (p.inText t).extent = p.extent.inText t := by
  cases p with
  | leaf s e => rfl
  | branch k o items c => rfl

@[simp] theorem form_inText (p : Parse) : (p.inText t).form = p.form := by
  induction p using Parse.induct with
  | leaf s e => rfl
  | branch k o items c ih =>
      rw [inText_branch, form_branch, form_branch, List.map_map]
      congr 1
      exact List.map_congr_left ih

theorem lexemes_inText (p : Parse) :
    (p.inText t).lexemes = p.lexemes.map (Lexeme.inText t) := by
  induction p using Parse.induct with
  | leaf s e => rfl
  | branch k o items c ih =>
      have hitems : (items.map (inText t)).flatMap lexemes
          = (items.flatMap lexemes).map (Lexeme.inText t) := by
        rw [List.flatMap_map, List.map_flatMap, List.flatMap_def, List.flatMap_def,
          List.map_congr_left ih]
      rw [inText_branch, lexemes_branch, lexemes_branch, hitems, List.map_cons, List.map_append]
      rfl

theorem items_inText (p : Parse) : (p.inText t).items = p.items.map (inText t) := by
  cases p with
  | leaf s e => rfl
  | branch k o items c => exact inTextAll_eq_map t items

theorem get?_inText (p : Parse) (path : NodePath) :
    (p.inText t).get? path = (p.get? path).map (inText t) := by
  induction path generalizing p with
  | nil => rfl
  | cons i path ih =>
      rw [get?_cons, get?_cons, items_inText, List.getElem?_map]
      cases p.items[i]? with
      | none => rfl
      | some q => exact ih q

theorem paired_inText {p : Parse} (h : p.Paired) : (p.inText t).Paired := by
  induction p using Parse.induct with
  | leaf s e => exact paired_leaf _ _
  | branch k o items c ih =>
      rw [paired_branch] at h
      rw [inText_branch, paired_branch]
      refine ⟨by simpa using h.1, ?_⟩
      intro q hq
      obtain ⟨r, hr, rfl⟩ := List.mem_map.1 hq
      exact ih r hr (h.2 r hr)

end

end Parse

theorem flatMap_lexemes_inText (t : Text) (ps : List Parse) :
    (ps.map (Parse.inText t)).flatMap Parse.lexemes
      = (ps.flatMap Parse.lexemes).map (Lexeme.inText t) := by
  rw [List.flatMap_map, List.map_flatMap]
  simp only [Parse.lexemes_inText]

namespace Parses

variable {t : Text} {firstLine : Nat} {ps : List Parse}

/-- The parses of a text, **once its comments are blanked**: the same lexemes, with blanks alone
between them. -/
theorem blanked (h : Parses t firstLine ps) :
    Parses (blankComments t) firstLine (ps.map (Parse.inText (blankComments t))) := by
  obtain ⟨k, hrun, hended⟩ := Cursor.ofEvents_eq_iff.1 h.stream
  have hrun' := (hrun.blanked (Cursor.fits_ofText t firstLine)).1
  refine ⟨?_, ?_⟩
  · rw [flatMap_lexemes_inText]
    exact Cursor.ofEvents_eq_iff.2
      ⟨_, hrun'.mono fun _ => Gap.of_blank, hended.blanked (blankComments t)⟩
  · intro q hq
    obtain ⟨p, hp, rfl⟩ := List.mem_map.1 hq
    exact Parse.paired_inText _ (h.paired p hp)

/-- In the blanked text a form stands **with blanks alone** between its lexemes. -/
theorem standsIn_blanked (h : Parses t firstLine ps) {p : Parse} (hp : p ∈ ps) :
    (p.inText (blankComments t)).StandsIn (blankComments t) firstLine AllBlank := by
  obtain ⟨k, hrun, -⟩ := Cursor.ofEvents_eq_iff.1 h.stream
  have hrun' := (hrun.blanked (Cursor.fits_ofText t firstLine)).1
  rw [← flatMap_lexemes_inText, Cursor.blanked_ofText] at hrun'
  obtain ⟨k', m', ls, hbefore, hrun'⟩ := hrun'.of_mem (List.mem_map_of_mem hp)
  exact Parse.standsIn_of_run (by simp [AllBlank])
    ((Cursor.within_ofText _ firstLine).run hbefore) hrun'

/-- In the blanked text the words of a form are **what they were**. -/
theorem slice_blanked (h : Parses t firstLine ps) {p : Parse} (hp : p ∈ ps) {l : Lexeme}
    (hl : l ∈ p.lexemes) :
    slice (blankComments t) l.start.offset l.stop.offset = slice t l.start.offset l.stop.offset := by
  obtain ⟨k, hrun, -⟩ := Cursor.ofEvents_eq_iff.1 h.stream
  exact hrun.slice_blanked (Cursor.within_ofText t firstLine) (Cursor.fits_ofText t firstLine)
    (Cursor.within_ofText _ firstLine) l (List.mem_flatMap.2 ⟨p, hp, hl⟩)

/-- A form begins, in the text and in the blanked text, **at a cursor with the same offset**. -/
theorem exists_fits (h : Parses t firstLine ps) {p : Parse} (hp : p ∈ ps) :
    ∃ k m, k.Within t firstLine ∧ k.Fits (blankComments t) ∧ k.position = p.extent.start
      ∧ Cursor.Run (Gap false) k p.lexemes m := by
  obtain ⟨k, hrun, -⟩ := Cursor.ofEvents_eq_iff.1 h.stream
  obtain ⟨k', m', ls, hbefore, hrun⟩ := hrun.of_mem hp
  obtain ⟨before, ht, hposition⟩ := (Cursor.within_ofText t firstLine).run hbefore
  obtain ⟨before', hu, hlength⟩ := (hbefore.blanked (Cursor.fits_ofText t firstLine)).2
  -- the gap before the form is left behind
  obtain ⟨l, ls', hl, hstart, -⟩ := p.lexemes_eq_cons
  rw [hl] at hrun ⊢
  obtain ⟨gap, k'', hgap, hrest, hbehind, hk'', hrun⟩ := hrun.skip .nil
  refine ⟨k'', m', ⟨before ++ gap, ?_, ?_⟩, ⟨before' ++ blankGap false gap, ?_, ?_⟩,
    hk''.trans hstart, hrun⟩
  · rw [ht, hrest, List.append_assoc]
  · rw [hbehind, hposition, Position.after_append]
  · rw [hu, hrest, blankComments_gap hgap, List.append_assoc]
  · rw [hbehind, Position.offset_after, List.length_append, hlength,
      (blankGap_sameLines false gap).length_eq]

end Parses

end EdnSpans
