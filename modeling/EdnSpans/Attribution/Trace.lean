/-
**Spans for all nodes of a tree.**

From the span of its root, the spans of all nodes of a tree are found on the way down: each child is
searched in its parent's text.  A node that is found opens a window of its own for its children; for
the children of one that is not found, the options decide whether they go on in the window in which
their parent was searched.  In the sequential strategy each child is searched behind the furthest
end of the siblings found before it.

The tree keeps its shape and its scalars, and whatever spans it had are replaced.

Main definitions:

* `EdnSpans.Options.interior` — where the children of a node that was found are searched;
* `EdnSpans.Options.inner` — the window for the children of a node;
* `EdnSpans.Options.advance` — where the next sibling is searched;
* `EdnSpans.Form.trace`, `EdnSpans.Form.traceChildren` — **the tree with the span of every node**
  that was found.
-/
import EdnSpans.Attribution.Window

set_option relaxedAutoImplicit false
set_option autoImplicit false

namespace EdnSpans

/-- The offset at which the search for children begins in the text of their parent: behind its
opener in the sequential strategy, and at its front otherwise. -/
def Options.interior (o : Options) (kind : Kind) : Nat :=
  match o.strategy with
  | .first => 0
  | .sequential => kind.opener.length

/-- The window for the children of a collection with the span `own`, if it was found, that was
searched in the window `outer`. -/
def Options.inner (o : Options) (kind : Kind) (own : Option Span) (outer : Option Window) :
    Option Window :=
  match own with
  | some span => some ⟨span, o.interior kind⟩
  | none =>
      match o.unmatched with
      | .stop => none
      | .nearest => outer

/-- The offset at which the next sibling is searched. -/
def Options.advance (o : Options) (offset : Nat) (found : Option Found) : Nat :=
  match o.strategy, found with
  | .sequential, some found => max offset found.stop
  | _, _ => offset

namespace Form

mutual

/-- The tree with the span of every node that was found.  The root has the span `own` and was
searched in the window `outer`. -/
def trace (o : Options) (own : Option Span) (outer : Option Window) : Form → Form
  | .atom s _ => .atom s own
  | .node kind children _ =>
      let window := o.inner kind own outer
      .node kind (traceChildren o window kind.isUnordered ((window.map (·.offset)).getD 0) children)
        own

/-- The children of a collection with the spans of all nodes that were found, searched in the given
window from the given offset on. -/
def traceChildren (o : Options) (window : Option Window) (unordered : Bool) (offset : Nat) :
    List Form → List Form
  | [] => []
  | f :: fs =>
      match window with
      | none => trace o none none f :: traceChildren o none unordered offset fs
      | some w =>
          let finding := w.search o.strategy unordered offset f
          trace o (finding.found.map (·.span)) (some finding.searched) f
            :: traceChildren o window unordered (o.advance offset finding.found) fs

end

end Form

end EdnSpans
