/-
**Spans stand where they say.**

A span that is found in the text of another span is placed relative to it: its offsets and its lines
are counted from there.  Through any number of nested searches, and whichever windows they took
place in, this leads back to the seed.  Nothing is assumed of the seed, whose own end and last line
may be anything.

Main definitions:

* `EdnSpans.Span.PlacedIn` — a span's offsets, lines and text are **those of a piece of another's
  text**;
* `EdnSpans.Span.part` — the span of such a piece.

Main results:

* `EdnSpans.Span.PlacedIn.trans` — a piece of a piece is a piece;
* `EdnSpans.Window.placedIn_of_find?` — what is found in a window is a piece of the window's span;
* `EdnSpans.placedIn_of_records` — **every span below the root is a piece of the seed**.
-/
import EdnSpans.Proofs.Attribution.Trace
import EdnSpans.Proofs.Locate.Match

set_option relaxedAutoImplicit false
set_option autoImplicit false

namespace EdnSpans

/-! ### Pieces of pieces -/

namespace Span

/-- The offsets, lines and text of a span are those of a piece of the text of another span, as
counted from where that span begins. -/
structure PlacedIn (outer r : Span) : Prop where
  start_le : outer.start ≤ r.start
  stop_eq : r.stop = r.start + r.source.length
  source_eq : Text.slice outer.source (r.start - outer.start) (r.stop - outer.start) = r.source
  line_eq : r.line
    = outer.line + Text.newlines (Text.slice outer.source 0 (r.start - outer.start))
  endLine_eq : r.endLine = r.line + Text.newlines r.source

/-- A piece of a piece is a piece, provided that it ends inside it. -/
theorem PlacedIn.trans {outer mid r : Span} (hmid : outer.PlacedIn mid) (hr : mid.PlacedIn r)
    (h : r.stop ≤ mid.stop) : outer.PlacedIn r := by
  have hmid_le := hmid.start_le
  have hr_le := hr.start_le
  have hstop := hr.stop_eq
  have hstart : mid.start - outer.start + (r.start - mid.start) = r.start - outer.start := by omega
  refine ⟨by omega, hr.stop_eq, ?_, ?_, hr.endLine_eq⟩
  · have hsource := hr.source_eq
    rw [← hmid.source_eq, Text.slice_slice _ (by omega), hstart] at hsource
    rw [← hsource]
    congr 1
    omega
  · rw [hr.line_eq, hmid.line_eq, ← hmid.source_eq, Text.slice_slice _ (by omega), hstart,
      Nat.add_zero, Nat.add_assoc, ← Text.newlines_append, Text.slice_zero, Text.slice_zero,
      Text.take_append_slice _ (by omega)]

/-- The span of a piece that stands in the text of another span at an offset. -/
def part (outer : Span) (offset : Nat) (piece : Text) : Span :=
  seed piece (outer.line + Text.newlines (outer.source.take offset)) (outer.start + offset)

end Span

/-! ### One search -/

namespace Window

variable {w : Window} {strategy : Strategy} {f : Form} {found : Found}

/-- What is found in a window is a piece of the window's span. -/
theorem placedIn_of_find? (h : w.find? strategy f = some found) : w.span.PlacedIn found.span := by
  obtain ⟨m, hm, rfl⟩ := Option.map_eq_some_iff.1 h
  obtain ⟨hbetween, hle, -, -⟩ := Form.locate_bounds hm
  have hlength := Form.length_of_locate hm
  refine ⟨Nat.le_add_right .., ?_, ?_, ?_, rfl⟩
  · simp only [lift, hlength]
    omega
  · simp only [lift, Nat.add_sub_cancel_left]
    rw [← Text.slice_drop, hbetween]
    rfl
  · simp only [lift, Nat.add_sub_cancel_left, Text.slice_zero]

/-- It ends in the text of the span, if the window begins there. -/
theorem stop_le_of_find? (h : w.find? strategy f = some found)
    (hw : w.offset ≤ w.span.source.length) : found.stop ≤ w.span.source.length := by
  obtain ⟨m, hm, rfl⟩ := Option.map_eq_some_iff.1 h
  obtain ⟨-, -, hstop, -⟩ := Form.locate_bounds hm
  simp only [text, List.length_drop] at hstop
  simp only [lift]
  omega

theorem span_stop_eq (h : w.find? strategy f = some found) :
    found.span.stop = w.span.start + found.stop := by
  obtain ⟨m, -, rfl⟩ := Option.map_eq_some_iff.1 h
  rfl

/-- A match in a window is **a part of the window's span**. -/
theorem find?_eq_part (strategy : Strategy) (f : Form) (w : Window) :
    w.find? strategy f = (f.locate strategy w.text).map fun m =>
      ⟨w.span.part (w.offset + m.start) m.text, w.offset + m.stop⟩ := by
  refine Option.map_congr ?_
  intro m hm
  obtain ⟨-, hle, -, -⟩ := Form.locate_bounds hm
  have hlength := Form.length_of_locate hm
  have hstop : w.span.start + (w.offset + m.stop)
      = w.span.start + (w.offset + m.start) + m.text.length := by omega
  simp only [lift, Span.part, Span.seed, hstop]

/-- The text of a collection that is found has room for its opener. -/
theorem opener_length_le_of_find? {kind : Kind} (h : w.find? strategy f = some found)
    (hkind : f.kind? = some kind) : kind.opener.length ≤ found.span.source.length := by
  obtain ⟨m, hm, rfl⟩ := Option.map_eq_some_iff.1 h
  obtain ⟨-, -, -, hopener⟩ := Form.locate_bounds hm
  have hopener := hopener kind hkind
  have hlength := Form.length_of_locate hm
  simp only [lift, hlength]
  omega

end Window

/-! ### All searches -/

theorem Options.interior_le (o : Options) (kind : Kind) : o.interior kind ≤ kind.opener.length := by
  rw [interior]
  split
  · exact Nat.zero_le _
  · exact Nat.le_refl _

/-- The windows below a seed are the seed's own, wherever they begin, and those of its pieces, as
long as they begin in the piece. -/
def Window.Below (seed : Span) (w : Window) : Prop :=
  w.span = seed ∨ (seed.PlacedIn w.span ∧ w.offset ≤ w.span.source.length)

namespace Window.Below

variable {seed : Span} {w : Window} {strategy : Strategy} {f : Form} {found : Found}

theorem placedIn (hw : w.Below seed) (h : w.find? strategy f = some found) :
    seed.PlacedIn found.span := by
  have hplaced := placedIn_of_find? h
  -- only below a piece does it matter that the window begins in it
  rcases hw with rfl | ⟨hseed, hoffset⟩
  · exact hplaced
  · have hstop := stop_le_of_find? h hoffset
    refine hseed.trans hplaced ?_
    rw [span_stop_eq h, hseed.stop_eq]
    omega

theorem behind (hw : w.Below seed) (h : w.find? strategy f = some found) :
    Below seed ⟨w.span, found.stop⟩ := by
  rcases hw with rfl | ⟨hseed, hoffset⟩
  · exact .inl rfl
  · have hstop := stop_le_of_find? h hoffset
    exact .inr ⟨hseed, hstop⟩

end Window.Below

theorem Options.sustains_placedIn (o : Options) (seed : Span) :
    o.Sustains (Window.Below seed) fun _ => seed.PlacedIn where
  span := Window.Below.placedIn
  behind := Window.Below.behind
  inside hw h hkind :=
    .inr ⟨hw.placedIn h,
      Nat.le_trans (o.interior_le _) (Window.opener_length_le_of_find? h hkind)⟩

/-- **Every span that attribution keeps for a node below the root is a piece of the seed**: its
offsets, its lines and its text are those of the piece, whatever the seed is. -/
theorem placedIn_of_records (o : Options) (f : Form) (seed : Span) {path : NodePath} {r : Span}
    (hpath : path ≠ []) (h : (f.attributeFrom o seed).Records path r) : seed.PlacedIn r := by
  obtain ⟨g, hget, hspan⟩ := Form.get?_trace_of_records h
  cases path with
  | nil => exact absurd rfl hpath
  | cons i path =>
      obtain ⟨c, hc, hget⟩ := Option.bind_eq_some_iff.1 hget
      have hbelow : ∀ kind w, f.kind? = some kind → o.inner kind (some seed) none = some w →
          w.Below seed := by
        rintro kind w - ⟨⟩
        exact .inl rfl
      have hc := List.mem_of_getElem? hc
      exact Form.trace_everywhere (o.sustains_placedIn seed) f _ _ hbelow c hc path g hget r hspan

/-- The second entry of a set stands before the first one, two levels and a line below a seed whose
end is nonsense. -/
theorem placedIn_of_records_nested_set :
    let seed : Span := ⟨"[\n #\x7b1 2\x7d]".toList, 5, 0, 10, 3⟩
    let form : Form := .node .vector
      [.node .set [.atom (.integer 2) none, .atom (.integer 1) none] none] none
    let r : Span := ⟨['1'], 6, 6, 15, 16⟩
    [0, 1] ≠ ([] : NodePath)
      ∧ (form.attributeFrom ⟨.sequential, .stop, 1⟩ seed).Records [0, 1] r
      ∧ seed.PlacedIn r := by
  intro seed form r
  have hrecords : (form.attributeFrom ⟨.sequential, .stop, 1⟩ seed).Records [0, 1] r :=
    .inr (by decide +kernel)
  exact ⟨by decide, hrecords, placedIn_of_records _ form seed (by decide) hrecords⟩

end EdnSpans
