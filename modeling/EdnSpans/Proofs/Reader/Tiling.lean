/-
**The seeds tile the text.**

Every top-level form comes with its seed, the span from its first lexeme to its last.  Between two
seeds, before the first one and behind the last one only blanks and comments are left, so that the
text is put together again from the sources of the seeds and these gaps.  The last gap is special in
that its last comment need not be ended by a line break.

Main definitions:

* `EdnSpans.Tiling` — a text as **gaps and the sources of spans**, in turn;
* `EdnSpans.TopForm.Placed`, `EdnSpans.Tiled` — forms that stand where their seeds say, and seeds
  that tile a text.

Main results:

* `EdnSpans.Tiling.of_run` — the seeds of the parses in a run tile it;
* `EdnSpans.Tiling.pairwise` — spans that tile a text stand one behind the other;
* `EdnSpans.Parse.StandsIn.placed_top` — a form stands where its seed says;
* `EdnSpans.tiled_of_readForms` — **the seeds of a text tile it**.
-/
import EdnSpans.Proofs.Reader.Layout

set_option relaxedAutoImplicit false
set_option autoImplicit false

namespace EdnSpans

open Text

/-! ### Tilings -/

/-- The text, which begins at the given offset, is made of gaps and the sources of the spans in
turn, and every span has the offsets at which its source stands. -/
inductive Tiling : Nat → Text → List Span → Prop
  | last {offset : Nat} {t : Text} : LastGap t → Tiling offset t []
  | span {offset : Nat} {gap rest : Text} {s : Span} {spans : List Span} (hgap : Gap false gap)
      (hstart : s.start = offset + gap.length) (hstop : s.stop = s.start + s.source.length)
      (hsource : s.source ≠ []) (tail : Tiling s.stop rest spans) :
      Tiling offset (gap ++ (s.source ++ rest)) (s :: spans)

namespace Tiling

variable {offset : Nat} {rest : Text} {spans : List Span}

theorem le_start (h : Tiling offset rest spans) : ∀ s ∈ spans, offset ≤ s.start := by
  induction h with
  | last => simp
  | @span offset gap rest s spans hgap hstart hstop hsource tail ih =>
      intro r hr
      rcases List.mem_cons.1 hr with rfl | hr
      · omega
      · have := ih r hr
        omega

/-- The spans of a tiling stand **one behind the other**. -/
theorem pairwise (h : Tiling offset rest spans) : spans.Pairwise fun a b => a.stop ≤ b.start := by
  induction h with
  | last => exact .nil
  | span hgap hstart hstop hsource tail ih => exact List.pairwise_cons.2 ⟨tail.le_start, ih⟩

end Tiling

/-! ### Seeds -/

/-- The seed of a parse that stands in a text, in terms of **what stands before it**. -/
theorem Parse.StandsIn.seed_eq {t : Text} {firstLine : Nat} {sort : Text → Prop} {p : Parse}
    (h : p.StandsIn t firstLine sort) :
    ∃ before body rest, t = before ++ (body ++ rest) ∧ body ≠ []
      ∧ (p.top t).seed = Span.seed body (firstLine + newlines before) before.length := by
  have hseed := h.seed_top
  obtain ⟨k, m, hk, hstart, hrun⟩ := h
  obtain ⟨gap, body, hrest, hbegin, hend, -, -, hbody, -⟩ := hrun.extent
  obtain ⟨hspan, -⟩ := hk.span_eq_seed hrest hbegin hend
  obtain ⟨before, ht, hposition⟩ := hk
  have hfirst : p.extent.start = (Position.first firstLine).after (before ++ gap) := by
    rw [hbegin, hposition, Position.after_append]
  refine ⟨before ++ gap, body, m.rest, ?_, hbody, ?_⟩
  · rw [ht, hrest, List.append_assoc]
  · rw [hseed, hspan, hfirst, Position.line_after, Position.offset_after]
    simp [Position.first]

/-- The seeds of the parses in a run, up to the end of the text, **tile what is left of it**. -/
theorem Tiling.of_run {t : Text} {firstLine : Nat} {k m : Cursor} {ps : List Parse}
    (hk : k.Within t firstLine) (h : Cursor.Run (Gap false) k (ps.flatMap Parse.lexemes) m)
    (hm : m.Ended) :
    Tiling k.position.offset k.rest (ps.map fun p => (p.top t).seed) := by
  induction ps generalizing k with
  | nil =>
      cases h
      exact .last hm.lastGap
  | cons p ps ih =>
      rw [List.flatMap_cons] at h
      obtain ⟨k₁, hp, hps⟩ := Cursor.Run.append_iff.1 h
      obtain ⟨gap, body, hrest, hstart, hstop, hposition, hgap, hbody, -⟩ := hp.extent
      have hseed : (p.top t).seed = Span.seed body p.extent.start.line p.extent.start.offset := by
        rw [(Parse.standsIn_of_run .nil hk hp).seed_top]
        exact (hk.span_eq_seed hrest hstart hstop).1
      have hoffset : k₁.position.offset = (p.top t).seed.stop := by
        rw [hposition, hstop, Position.offset_after, hseed]
        rfl
      have htail := ih (hk.run hp) hps
      rw [hoffset] at htail
      have hsource : (p.top t).seed.source = body := by rw [hseed]; rfl
      rw [hrest, List.map_cons, ← hsource]
      refine .span hgap ?_ ?_ (by rwa [hsource]) htail
      · rw [hseed, hstart, ← Position.offset_after]
        rfl
      · rw [hseed]
        rfl

/-! ### Texts that are read -/

theorem Parse.span_form (p : Parse) : p.form.span = none := by cases p <;> rfl

/-- The form is a symbol or a collection. -/
def Form.IsSymbolOrCollection (f : Form) : Prop :=
  (∃ name m, f = .atom (.symbol name) m) ∨ ∃ kind cs m, f = .node kind cs m

theorem Form.carriesSpan_iff {f : Form} : f.carriesSpan ↔ f.IsSymbolOrCollection := by
  cases f with
  | atom s m => cases s <;> simp [carriesSpan, Scalar.carriesSpan, IsSymbolOrCollection]
  | node kind cs m => simp [carriesSpan, IsSymbolOrCollection]

/-- A top-level form with its seed, in a text whose first line has the given number. -/
structure TopForm.Placed (t : Text) (firstLine : Nat) (top : TopForm) : Prop where
  /-- The seed is not empty. -/
  nonempty : top.seed.start < top.seed.stop
  /-- Its source is what stands in the text between its offsets. -/
  source_eq : top.seed.source = slice t top.seed.start top.seed.stop
  /-- Its line is counted from the first line of the text. -/
  line_eq : top.seed.line = firstLine + newlines (slice t 0 top.seed.start)
  /-- Its last line is counted from its first one. -/
  endLine_eq : top.seed.endLine = top.seed.line + newlines top.seed.source
  /-- A symbol or a collection carries the seed. -/
  root_span : top.form.IsSymbolOrCollection → top.form.span = some top.seed
  /-- Any other scalar carries nothing. -/
  root_bare : ¬top.form.IsSymbolOrCollection → top.form.span = none
  /-- No node below the root carries anything. -/
  below_bare : ∀ path node, path ≠ [] → top.form.get? path = some node → node.span = none

/-- The top-level forms of a text whose first line has the given number: each of them is where its
seed says, and the seeds tile the text. -/
structure Tiled (t : Text) (firstLine : Nat) (tops : List TopForm) : Prop where
  /-- Every form is where its seed says. -/
  placed : ∀ top ∈ tops, top.Placed t firstLine
  /-- The seeds stand in the order of the forms, and none of them overlaps another. -/
  increasing : tops.Pairwise fun a b => a.seed.stop ≤ b.seed.start
  /-- The text is made of the sources of the seeds, and of blanks and comments around them. -/
  tiling : Tiling 0 t (tops.map TopForm.seed)

theorem Parse.below_bare {p : Parse} {span : Option Span} {path : NodePath} {node : Form}
    (hpath : path ≠ []) (h : (p.form.setSpan span).get? path = some node) : node.span = none := by
  cases path with
  | nil => exact absurd rfl hpath
  | cons i path =>
      rw [Form.get?_cons, Form.children_setSpan, ← Form.get?_cons, get?_form] at h
      obtain ⟨q, -, rfl⟩ := Option.map_eq_some_iff.1 h
      exact q.span_form

/-- The form of a parse that stands in a text **is where its seed says**. -/
theorem Parse.StandsIn.placed_top {t : Text} {firstLine : Nat} {sort : Text → Prop} {p : Parse}
    (h : p.StandsIn t firstLine sort) : (p.top t).Placed t firstLine := by
  obtain ⟨before, body, rest, ht, hbody, hseed⟩ := h.seed_eq
  have hpos : 0 < body.length := List.length_pos_iff.2 hbody
  have hcarried : (p.top t).form
      = if p.form.carriesSpan then p.form.setSpan (some (p.top t).seed) else p.form := by
    simp only [top, Form.attach]
    split <;> rfl
  refine ⟨?_, ?_, ?_, ?_, ?_, ?_, ?_⟩
  · rw [hseed]
    simp only [Span.seed]
    omega
  · rw [hseed, ht]
    simp [Span.seed, slice]
  · rw [hseed, ht]
    simp [Span.seed]
  · rw [hseed]
    rfl
  · rw [hcarried, ← Form.carriesSpan_iff]
    split
    · exact fun _ => Form.span_setSpan ..
    · next hnot => exact fun hcarries => absurd hcarries hnot
  · rw [hcarried, ← Form.carriesSpan_iff]
    split
    · next hcarries =>
        rw [Form.carriesSpan_setSpan]
        exact fun hnot => absurd hcarries hnot
    · exact fun _ => p.span_form
  · intro path node hpath hget
    rw [hcarried] at hget
    split at hget
    · exact below_bare hpath hget
    · exact below_bare hpath (p.setSpan_form.symm ▸ hget)

/-- **The seeds tile the text**, for every text that can be read: in the order of the forms they are
pieces of the text that do not overlap, with nothing but blanks and comments around them; and they
are carried by the roots of the forms, if these are symbols or collections, and by no other node. -/
theorem tiled_of_readForms {t : Text} {firstLine : Nat} {tops : List TopForm}
    (h : readForms t firstLine = .ok tops) : Tiled t firstLine tops := by
  obtain ⟨ps, hps, rfl⟩ := readForms_eq_ok_iff.1 h
  obtain ⟨m, hrun, hm⟩ := Cursor.ofEvents_eq_iff.1 hps.stream
  have htiling : Tiling 0 t ((ps.map (Parse.top t)).map TopForm.seed) := by
    rw [List.map_map]
    exact .of_run (Cursor.within_ofText t firstLine) hrun hm
  refine ⟨?_, List.pairwise_map.1 htiling.pairwise, htiling⟩
  intro top htop
  obtain ⟨p, hp, rfl⟩ := List.mem_map.1 htop
  exact (hps.standsIn hp).placed_top

/-- A comment before the first form and one behind the last, which no line break ends; a comma alone
between a number and a list; and characters of more than one byte. -/
theorem tiled_of_readForms_comments :
    ∃ t tops, t = [';', '(', '\n', 'λ', ' ', '7', ',', '(', 'é', '\n', ')', ';', '"']
      ∧ readForms t 3 = .ok tops ∧ Tiled t 3 tops := by
  obtain ⟨tops, h⟩ := exists_readForms
    [';', '(', '\n', 'λ', ' ', '7', ',', '(', 'é', '\n', ')', ';', '"'] 3 (by decide +kernel)
  exact ⟨_, tops, rfl, h, tiled_of_readForms h⟩

end EdnSpans
