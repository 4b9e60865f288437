/-
**When comments have no effect.**

The reader passes over comments, and so does the scan for the end of a collection.  The search for
the place of a node does not: it looks for the text of a scalar, or for an opener, in whatever stands
there.  So to blank the comments of a text may change the spans that are found in it, and this module
says when it does not.

If the scalars of a form are written as they are printed, the spans found in the blanked text are
those of what was read; so the spans found in the text are the same exactly if nothing is in the way
of any node.  Without that assumption the search may go astray, and then it matters what it comes
upon.  Still it cannot tell the two texts apart if the comments are *quiet*, without delimiters,
quotes and backslashes, and if nothing that it looks for runs into one.

Main definitions:

* `EdnSpans.Parse.Quiet` — the comments in a form are quiet, and nothing runs into one;
* `EdnSpans.Attributed.Alike` — **the same tree, and spans with the same bounds**.

Main results:

* `EdnSpans.Form.trace_muted` — quiet comments may be blanked in any seed;
* `EdnSpans.Parses.alike_blanked_iff`, `EdnSpans.Parses.alike_of_quiet` — the two cases;
* `EdnSpans.attributeText_blankComments` — **when comments have no effect on sequential
  attribution**;
* `EdnSpans.comment_taken_for_symbol` — sometimes they do.
-/
import EdnSpans.Proofs.Attribution.Containment
import EdnSpans.Proofs.Attribution.Obstacle
import EdnSpans.Proofs.Attribution.Renewal
import EdnSpans.Proofs.Locate.Muting
import EdnSpans.Proofs.Reader.Blanking

set_option relaxedAutoImplicit false
set_option autoImplicit false

namespace EdnSpans

open Text

/-! ### Quiet comments -/

/-- The span with its text cut from another text, which begins at the given offset. -/
def Span.recut (origin : Nat) (u : Text) (r : Span) : Span :=
  { r with source := slice u (r.start - origin) (r.stop - origin) }

/-- A search finds **the same place** once quiet comments are blanked. -/
theorem Window.find?_recut {seed : Span} {u : Text} (hmuted : Muted false seed.source u)
    {f : Form} (hf : f.SeenAlike seed.source u) {w : Window} (hbelow : w.Below seed)
    (hproper : w.Proper) :
    (w.map (Span.recut seed.start u)).find? .sequential f
      = (w.find? .sequential f).map (Found.map (Span.recut seed.start u)) := by
  have hstop := hproper.measured.stop_eq
  have hoffset := hproper.offset_le
  obtain ⟨hstart, hsource⟩ : seed.start ≤ w.span.start
      ∧ slice seed.source (w.span.start - seed.start) (w.span.stop - seed.start)
        = w.span.source := by
    rcases hbelow with hspan | ⟨hplaced, -⟩
    · rw [hstop, hspan, Nat.sub_self, Nat.add_sub_cancel_left, slice_zero, List.take_length]
      exact ⟨Nat.le_refl _, rfl⟩
    · exact ⟨hplaced.start_le, hplaced.source_eq⟩
  -- both windows are cut alike from the two texts
  obtain ⟨_, hpieces⟩ := hmuted.slice (w.span.start - seed.start) (w.span.stop - seed.start)
  have hseen := hf.slice (w.span.start - seed.start) (w.span.stop - seed.start)
  rw [hsource] at hpieces hseen
  rw [Window.find?, Window.find?, Window.text, Window.text, Window.map, Span.recut]
  generalize hpiece : slice u (w.span.start - seed.start) (w.span.stop - seed.start) = piece
    at hpieces hseen ⊢
  obtain ⟨_, hwindows⟩ := hpieces.drop w.offset
  rw [hwindows.locate_eq (hseen.drop w.offset), Option.map_map, Option.map_map]
  refine Option.map_congr ?_
  intro m hm
  obtain ⟨hbetween, -, hle, -⟩ := Form.locate_bounds hm
  rw [List.length_drop] at hle
  obtain ⟨_, hmatches⟩ := hwindows.slice m.start m.stop
  have hline := (hpieces.take (w.offset + m.start)).newlines_eq
  have hlines : newlines m.text = newlines (slice (piece.drop w.offset) m.start m.stop) :=
    (congrArg (fun m => newlines m.text) hbetween).trans hmatches.newlines_eq
  have hcut : slice (piece.drop w.offset) m.start m.stop
      = slice u (w.span.start + (w.offset + m.start) - seed.start)
        (w.span.start + (w.offset + m.stop) - seed.start) := by
    rw [slice_drop, ← hpiece, slice_slice _ (by omega)]
    congr 1 <;> omega
  simp only [Function.comp_apply, lift, Found.map, Span.recut, Match.between, hline, hlines, hcut]

/-- Once quiet comments are blanked, a form is traced **alike, but for the texts of its spans**. -/
theorem Form.trace_muted {o : Options} (ho : o.strategy = .sequential) {f : Form} {seed : Span}
    (h : f.SeededBy seed) {u : Text} (hmuted : Muted false seed.source u)
    (hf : ∀ path g, f.get? path = some g → g.SeenAlike seed.source u) :
    f.trace o (some (seed.recut seed.start u)) none
      = (f.trace o (some seed) none).mapSpans (Span.recut seed.start u) := by
  have hmirrors : o.Mirrors o (Span.recut seed.start u) (SeenAlike seed.source u)
      fun w => w.Below seed ∧ w.Proper :=
    { strategy_eq := rfl
      unmatched_eq := rfl
      sustains := ⟨_, (o.sustains_placedIn seed).and o.sustains_encloses⟩
      find?_map := fun hg hw => by
        rw [ho]
        exact Window.find?_recut hmuted hg hw.1 hw.2 }
  refine trace_mirrors hmirrors f hf (some seed) none ?_
  rintro kind w hkind ⟨⟩
  exact ⟨.inl rfl, h.proper o hkind⟩

/-! ### Quiet comments in what was read -/

theorem Gap.muted {inComment : Bool} {gap t u : Text} (h : Gap inComment gap)
    (hquiet : gap.DiffersQuietly (blankGap inComment gap)) (hrest : Muted false t u) :
    Muted inComment (gap ++ t) (blankGap inComment gap ++ u) := by
  induction h with
  | nil => exact hrest
  | @blank c gap hc _ ih =>
      have hne : c ≠ ';' := by
        rintro rfl
        exact absurd hc (by decide)
      simp only [blankGap, hne, Bool.false_eq_true, if_false] at hquiet ⊢
      exact .keep (ih (List.forall_mem_cons.1 hquiet).2)
  | comment _ ih => exact .comment (ih (List.forall_mem_cons.1 hquiet).2)
  | @inside c gap hc _ ih =>
      simp only [blankGap, hc, if_true, if_false] at hquiet ⊢
      obtain ⟨hfirst, hquiet⟩ := List.forall_mem_cons.1 hquiet
      refine .inside hc ?_ (ih hquiet)
      rcases hfirst with hspace | hfirst
      · have hc : c = ' ' := hspace
        rw [hc]
        decide
      · exact hfirst
  | lineEnd _ ih => exact .lineEnd (ih (List.forall_mem_cons.1 hquiet).2)

/-- What a run takes from the text, and **what becomes of it** in the blanked text. -/
theorem Cursor.Run.muted {k m : Cursor} {ls : List Lexeme} (h : Run (Gap false) k ls m) :
    ∃ s u, k.rest = s ++ m.rest ∧ blankComments k.rest = u ++ blankComments m.rest
      ∧ u.length = s.length ∧ (s.DiffersQuietly u → Muted false s u) := by
  induction h with
  | nil k => exact ⟨[], [], rfl, rfl, rfl, fun _ => .nil _⟩
  | @cons k k₁ m gap word l ls hgap passes _ ih =>
      obtain ⟨s, u, hs, hu, hlength, hmuted⟩ := ih
      have hgaps := (blankGap_sameLines false gap).length_eq
      refine ⟨gap ++ (word ++ s), blankGap false gap ++ (word ++ u), ?_, ?_, ?_, ?_⟩
      · rw [passes.rest_eq, hs]
        simp only [List.append_assoc]
      · rw [passes.rest_eq, blankComments_append hgap passes.reads, hu]
        simp only [List.append_assoc]
      · simp only [List.length_append, hgaps, hlength]
      · intro hquiet
        rw [DiffersQuietly, List.zip_append hgaps.symm, List.zip_append rfl,
          List.forall_mem_append, List.forall_mem_append] at hquiet
        exact hgap.muted hquiet.1 ((hmuted hquiet.2.2).append_left word)

namespace Parse

/-- The comments in the form are quiet, and nothing that is looked for in it **runs into one**. -/
def Quiet (t : Text) (p : Parse) : Prop :=
  let s := slice t p.extent.start.offset p.extent.stop.offset
  let u := slice (blankComments t) p.extent.start.offset p.extent.stop.offset
  s.DiffersQuietly u ∧ ∀ node ∈ p.form.nodes, node.2.SeenAlike s u

instance (t : Text) (p : Parse) : Decidable (p.Quiet t) :=
  inferInstanceAs (Decidable (_ ∧ ∀ node ∈ _, _))

theorem Quiet.muted {t : Text} {firstLine : Nat} {ps : List Parse} {p : Parse} (h : p.Quiet t)
    (hps : Parses t firstLine ps) (hp : p ∈ ps) :
    Muted false (slice t p.extent.start.offset p.extent.stop.offset)
      (slice (blankComments t) p.extent.start.offset p.extent.stop.offset) := by
  obtain ⟨k, m, hk, hfits, hstart, hrun⟩ := hps.exists_fits hp
  obtain ⟨s, u, hs, hu, hlength, hmuted⟩ := hrun.muted
  -- where the run ends is where the form ends
  have hstop : p.extent.stop = k.position.after s := by
    obtain ⟨passed, hpassed, hposition⟩ := hrun.consumed
    obtain ⟨-, -, -, -, -, hend, -⟩ := hrun.extent
    rw [← hend, hposition, List.append_cancel_right (hpassed.symm.trans hs)]
  have hhere : slice t p.extent.start.offset p.extent.stop.offset = s := by
    rw [← hstart]
    exact (hk.span_eq_seed (e := ⟨k.position, p.extent.stop⟩) (hs.trans (List.nil_append _).symm) rfl
      hstop).2
  have hthere : slice (blankComments t) p.extent.start.offset p.extent.stop.offset = u := by
    obtain ⟨before, ht, hbefore⟩ := hfits
    rw [hstop, Position.offset_after, ← hstart, ← hbefore, ht, hu, ← hlength]
    exact slice_middle before u _
  have hquiet := h.1
  rw [hhere, hthere] at hquiet ⊢
  exact hmuted hquiet

end Parse

/-! ### Whole texts -/

/-- Both results have the same tree, and the same nodes have spans, with the same bounds. -/
def Attributed.Alike (a b : Attributed) : Prop :=
  a.form.bare = b.form.bare
    ∧ ∀ path, (a.spanAt? path).map Span.bounds = (b.spanAt? path).map Span.bounds

theorem Parse.StandsIn.spanAt?_top {t : Text} {firstLine : Nat} {sort : Text → Prop} {p : Parse}
    (h : p.StandsIn t firstLine sort) (o : Options) (path : NodePath) :
    ((p.top t).attribute o).spanAt? path
      = ((p.form.trace o (some (p.extent.span t)) none).get? path).bind Form.span := by
  obtain ⟨span, htop⟩ := p.form_top t
  rw [TopForm.attribute, Form.spanAt?_attributeFrom, htop, Form.trace_setSpan, h.seed_top]

theorem Parse.bare_top (o : Options) (t : Text) (p : Parse) :
    ((p.top t).attribute o).form.bare = p.form.bare := by
  obtain ⟨span, htop⟩ := p.form_top t
  rw [TopForm.attribute, Form.bare_attributeFrom, htop]
  cases p.form with
  | atom s m => rfl
  | node kind cs m => rfl

theorem Parses.attributeText_eq {o : Options} {t : Text} {ps : List Parse}
    (h : Parses t o.firstLine ps) :
    attributeText o t = .ok (ps.map fun p => (p.top t).attribute o) := by
  rw [attributeText, readForms_eq_ok_iff.2 ⟨ps, h, rfl⟩, Except.map, List.map_map]
  rfl

section

variable {o : Options} {t : Text} {firstLine : Nat} {ps : List Parse} {p : Parse}

theorem Parse.bounds_inText (t u : Text) (p : Parse) :
    ((p.inText u).extent.span u).bounds = (p.extent.span t).bounds := by
  rw [extent_inText]
  rfl

/-- The span of a form in another text **is the span, cut from that text**. -/
theorem Parse.span_inText (t u : Text) (p : Parse) :
    (p.inText u).extent.span u = (p.extent.span t).recut (p.extent.span t).start
      (slice u p.extent.start.offset p.extent.stop.offset) := by
  have hlength := length_slice u p.extent.start.offset p.extent.stop.offset
  have hwhole := List.take_of_length_le (Nat.le_trans (Nat.le_of_eq hlength) (Nat.min_le_left ..))
  rw [extent_inText]
  simp only [Span.recut, Extent.span, Extent.inText, Position.inText, Nat.sub_self, slice_zero,
    hwhole]

theorem Parse.bare_inText (o : Options) (t u : Text) (p : Parse) :
    ((p.top t).attribute o).form.bare = (((p.inText u).top u).attribute o).form.bare := by
  rw [bare_top, bare_top, form_inText]

theorem Parses.canonical_blanked (hps : Parses t firstLine ps) (hp : p ∈ ps) (h : p.Canonical t) :
    (p.inText (blankComments t)).Canonical (blankComments t) := by
  intro l' hl' s hs
  rw [Parse.lexemes_inText] at hl'
  obtain ⟨l, hl, rfl⟩ := List.mem_map.1 hl'
  exact (hps.slice_blanked hp hl).trans (h l hl s hs)

/-- In the blanked text **every node has the span of what it was read from**. -/
theorem Parses.spanAt?_blanked (ho : o.strategy = .sequential) (hps : Parses t firstLine ps)
    (hp : p ∈ ps) (h : p.Canonical t) (path : NodePath) :
    ((((p.inText (blankComments t)).top (blankComments t)).attribute o).spanAt? path).map Span.bounds
      = (p.get? path).map fun q => (q.extent.span t).bounds := by
  have hstands := hps.standsIn_blanked hp
  rw [hstands.spanAt?_top, Parse.trace_form ho none (hps.canonical_blanked hp h) hstands,
    Parse.get?_located, Parse.get?_inText]
  cases p.get? path with
  | none => rfl
  | some q =>
      simp only [Option.map_some, Option.bind_some, Parse.span_located, Parse.bounds_inText t]

/-- For a form whose scalars are written as they are printed, comments have no effect **if nothing
is in the way, and only then**. -/
theorem Parses.alike_blanked_iff (ho : o.strategy = .sequential) (hps : Parses t firstLine ps)
    (hp : p ∈ ps) (h : p.Canonical t) :
    ((p.top t).attribute o).Alike
        (((p.inText (blankComments t)).top (blankComments t)).attribute o) ↔ p.Clear t := by
  have hstands := hps.standsIn hp
  have hblanked := hps.spanAt?_blanked ho hp h
  constructor
  · rintro ⟨-, hspans⟩
    refine (Parse.asRead_trace_iff ho none h hstands).1 ?_
    intro path q hq
    rw [← hstands.spanAt?_top, hspans path, hblanked, hq, Option.map_some]
  · intro hclear
    refine ⟨Parse.bare_inText .., ?_⟩
    intro path
    rw [hblanked, hstands.spanAt?_top, Parse.trace_of_clear ho none h hclear hstands,
      Parse.get?_located]
    cases p.get? path with
    | none => rfl
    | some q => simp only [Option.map_some, Option.bind_some, Parse.span_located]

/-- However its scalars are written, comments have no effect on a form **if they are quiet**. -/
theorem Parses.alike_of_quiet (ho : o.strategy = .sequential) (hps : Parses t firstLine ps)
    (hp : p ∈ ps) (h : p.Quiet t) :
    ((p.top t).attribute o).Alike
      (((p.inText (blankComments t)).top (blankComments t)).attribute o) := by
  have hstands := hps.standsIn hp
  have htrace := Form.trace_muted ho hstands.seededBy (h.muted hps hp)
    fun path g hg => h.2 (path, g) (Form.mem_nodes_iff.2 hg)
  refine ⟨Parse.bare_inText .., ?_⟩
  intro path
  rw [hstands.spanAt?_top, (hps.standsIn_blanked hp).spanAt?_top, Parse.form_inText,
    Parse.span_inText t, htrace, Form.get?_mapSpans]
  cases (p.form.trace o (some (p.extent.span t)) none).get? path with
  | none => rfl
  | some g =>
      simp only [Option.map_some, Option.bind_some, Form.span_mapSpans, Option.map_map]
      rfl

end

/-- **When comments have no effect on sequential attribution.**  Every text that can be read can
still be read once its comments are blanked: as the same forms, and with the same bounds for each of
them as a whole.  If its scalars are written as they are printed, the spans inside a form have the
same bounds exactly if nothing stands before a node that the search takes for it.  However they are
written, the spans have the same bounds if the comments are quiet and nothing that is looked for runs
into one. -/
theorem attributeText_blankComments {o : Options} (ho : o.strategy = .sequential) {t : Text}
    {tops : List TopForm} (h : readForms t o.firstLine = .ok tops) :
    let u := blankComments t
    ∃ ps, Parses t o.firstLine ps
      ∧ attributeText o t = .ok (ps.map fun p => (p.top t).attribute o)
      ∧ attributeText o u = .ok (ps.map fun p => ((p.inText u).top u).attribute o)
      ∧ ∀ p ∈ ps,
        let a := (p.top t).attribute o
        let b := ((p.inText u).top u).attribute o
        a.form.bare = b.form.bare
          ∧ (a.spanAt? []).map Span.bounds = (b.spanAt? []).map Span.bounds
          ∧ (p.Canonical t → (a.Alike b ↔ p.Clear t))
          ∧ (p.Quiet t → a.Alike b) := by
  intro u
  obtain ⟨ps, hps, -⟩ := readForms_eq_ok_iff.1 h
  refine ⟨ps, hps, hps.attributeText_eq, ?_, ?_⟩
  · rw [hps.blanked.attributeText_eq, List.map_map]
    rfl
  · intro p hp a b
    refine ⟨p.bare_inText o t u, ?_, hps.alike_blanked_iff ho hp, hps.alike_of_quiet ho hp⟩
    rw [(hps.standsIn hp).spanAt?_top, (hps.standsIn_blanked hp).spanAt?_top, Form.get?_nil,
      Form.get?_nil, Option.bind_some, Option.bind_some, Form.span_trace, Form.span_trace,
      Option.map_some, Option.map_some, Parse.bounds_inText t]

/-- A comment with a quote and an opener, which the search passes over; and behind a number that is
not written as it is printed, a comment that is quiet. -/
theorem attributeText_blankComments_quote_and_sign :
    let o : Options := ⟨.sequential, .stop, 1⟩
    let t : Text := "[a ;\"(\n b] (+1 ;z\n c)".toList
    let u : Text := "[a    \n b] (+1   \n c)".toList
    let extent (m n : Nat) : Extent :=
      ⟨(Position.first 1).after (t.take m), (Position.first 1).after (t.take n)⟩
    let p : Parse := .branch .vector (extent 0 1)
      [.leaf (.symbol ['a']) (extent 1 2), .leaf (.symbol ['b']) (extent 8 9)] (extent 9 10)
    let q : Parse := .branch .list (extent 11 12)
      [.leaf (.integer 1) (extent 12 14), .leaf (.symbol ['c']) (extent 19 20)] (extent 20 21)
    blankComments t = u ∧ Parses t 1 [p, q] ∧ p.Canonical t ∧ p.Clear t ∧ q.Quiet t
      ∧ ((p.top t).attribute o).Alike (((p.inText u).top u).attribute o)
      ∧ ((q.top t).attribute o).Alike (((q.inText u).top u).attribute o) := by
  intro o t u extent p q
  have hu : blankComments t = u := by decide +kernel
  have hps : Parses t 1 [p, q] := ⟨by decide +kernel, by simp [p, q]⟩
  have hcanonical : p.Canonical t := by
    intro l hl s hs
    have hlexemes : p.lexemes = [(extent 0 1).lexeme (.opening .vector),
        (extent 1 2).lexeme (.scalar (.symbol ['a'])), (extent 8 9).lexeme (.scalar (.symbol ['b'])),
        (extent 9 10).lexeme (.closing .bracket)] := rfl
    simp only [hlexemes, List.mem_cons, List.not_mem_nil, or_false] at hl
    rcases hl with rfl | rfl | rfl | rfl <;> cases hs <;> decide +kernel
  have hclear : p.Clear t := by
    refine ⟨?_, trivial, ?_, trivial, trivial⟩ <;> decide +kernel
  have hquiet : q.Quiet t := by decide +kernel
  obtain ⟨ps, hps', -, -, halike⟩ := attributeText_blankComments (o := o) rfl
    (readForms_eq_ok_iff.2 ⟨_, hps, rfl⟩)
  obtain rfl := hps'.unique hps
  rw [hu] at halike
  refine ⟨hu, hps, hcanonical, hclear, hquiet, ?_, ?_⟩
  · exact ((halike p (by simp)).2.2.1 hcanonical).2 hclear
  · exact (halike q (by simp)).2.2.2 hquiet

/-- A comment that holds the text of the symbol behind it **does have an effect**: the symbol is
found in the comment. -/
theorem comment_taken_for_symbol :
    ¬∀ (o : Options) (t : Text) (tops : List TopForm), o.strategy = .sequential →
      readForms t o.firstLine = .ok tops →
        ∃ as bs, attributeText o t = .ok as ∧ attributeText o (blankComments t) = .ok bs
          ∧ as.length = bs.length
          ∧ ∀ (i : Nat) (a b : Attributed), as[i]? = some a → bs[i]? = some b → a.Alike b := by
  intro h
  let t : Text := "(;a\n a)".toList
  let extent (m n : Nat) : Extent :=
    ⟨(Position.first 1).after (t.take m), (Position.first 1).after (t.take n)⟩
  let p : Parse := .branch .list (extent 0 1) [.leaf (.symbol ['a']) (extent 5 6)] (extent 6 7)
  have hps : Parses t 1 [p] := ⟨by decide +kernel, by simp [p]⟩
  obtain ⟨as, bs, has, hbs, -, halike⟩ := h ⟨.sequential, .stop, 1⟩ t [p.top t] rfl
    (readForms_eq_ok_iff.2 ⟨_, hps, rfl⟩)
  rw [hps.attributeText_eq] at has
  rw [hps.blanked.attributeText_eq] at hbs
  cases has
  cases hbs
  have hspans := (halike 0 _ _ rfl rfl).2 [0]
  exact absurd hspans (by decide +kernel)

end EdnSpans
