/-
**Spans of a source text.**

A span is a piece of a source text together with where it stands: its own text, the lines on which
it begins and ends, and its character offsets, the second one exclusive.  Whoever reads a top-level
form knows the text, the first line and the first offset, and the rest follows from the text: such
a span is a *seed*.  Lines and offsets are natural numbers, and a sum of them is always there: the
overflow of counters of a fixed width is left out.

Main definitions:

* `EdnSpans.Span` — a piece of text, its lines and its offsets;
* `EdnSpans.Span.seed` — the span of a text that begins at a known line and offset;
* `EdnSpans.Span.contains` — one span's offsets lie within another's.
-/
import EdnSpans.Text.Basic

set_option relaxedAutoImplicit false
set_option autoImplicit false

namespace EdnSpans

/-- A piece of a source text and where it stands.  Its lines and offsets have no upper bound. -/
structure Span where
  /-- The text of the piece. -/
  source : Text
  /-- The line on which it begins. -/
  line : Nat
  /-- The line on which it ends. -/
  endLine : Nat
  /-- The offset of its first character. -/
  start : Nat
  /-- The offset of the character after its last one. -/
  stop : Nat
  deriving DecidableEq, Repr, Inhabited

namespace Span

/-- The span of a text that begins at the given line and offset. -/
def seed (source : Text) (line start : Nat) : Span where
  source := source
  line := line
  endLine := line + Text.newlines source
  start := start
  stop := start + source.length

/-- The offsets of the other span lie within those of this one. -/
def contains (outer inner : Span) : Bool :=
  outer.start ≤ inner.start && inner.stop ≤ outer.stop

end Span

end EdnSpans
