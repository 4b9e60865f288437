/-
**Windows and what is found in them.**

A node is searched in a window: the text of a span from some offset on.  What is found there is a
match in coordinates of the window, and becomes a span in the coordinates of the source by adding
where the window stands.

Main definitions:

* `EdnSpans.Window`, `EdnSpans.Window.text` — a span from an offset on;
* `EdnSpans.Window.lift` — a match in a window as a span of the source;
* `EdnSpans.Window.find?` — a form in a window;
* `EdnSpans.Window.search` — **the search for a child**, which among unordered siblings may begin
  again at the front.
-/
import EdnSpans.Locate.Match

set_option relaxedAutoImplicit false
set_option autoImplicit false

namespace EdnSpans

/-- The text of a span from an offset on. -/
structure Window where
  /-- The span. -/
  span : Span
  /-- The offset, counted from the start of the span. -/
  offset : Nat

/-- A span, and where it ends in the text of the span it was found in. -/
structure Found where
  /-- The span that was found. -/
  span : Span
  /-- Its end, counted from the start of the span it was found in. -/
  stop : Nat

/-- What came of a search. -/
structure Finding where
  /-- The window that was searched last. -/
  searched : Window
  /-- What was found in it. -/
  found : Option Found

namespace Window

/-- The text of a window. -/
def text (w : Window) : Text := w.span.source.drop w.offset

/-- A match in a window as a span of the source.  Its first line is that of the window's span and
one more for every line break before the match. -/
def lift (w : Window) (m : Match) : Found :=
  let start := w.offset + m.start
  let stop := w.offset + m.stop
  let line := w.span.line + Text.newlines (w.span.source.take start)
  { span :=
      { source := m.text
        line := line
        endLine := line + Text.newlines m.text
        start := w.span.start + start
        stop := w.span.start + stop }
    stop := stop }

/-- What is found of a form in a window. -/
def find? (strategy : Strategy) (f : Form) (w : Window) : Option Found :=
  (f.locate strategy w.text).map w.lift

/-- The search for a child from an offset on, inside its parent's window.  Siblings that need not
stand in order are searched in the whole window if they are not found behind those before them. -/
def search (strategy : Strategy) (unordered : Bool) (offset : Nat) (f : Form) (w : Window) :
    Finding :=
  let rest : Window := { w with offset := offset }
  match rest.find? strategy f with
  | some found => ⟨rest, some found⟩
  | none =>
      if unordered ∧ w.offset < offset then ⟨w, w.find? strategy f⟩ else ⟨rest, none⟩

end Window

end EdnSpans
