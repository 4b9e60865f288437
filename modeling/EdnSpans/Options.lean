/-
**Options of the search for spans.**

Main definitions:

* `EdnSpans.Strategy` — where a child is searched in its parent's text, and where a collection ends;
* `EdnSpans.Unmatched` — what becomes of the nodes below one that was not found;
* `EdnSpans.Options` — both, and the number of the first line of a text.
-/

set_option relaxedAutoImplicit false
set_option autoImplicit false

namespace EdnSpans

/-- How a child is searched in its parent's text. -/
inductive Strategy
  /-- The whole text of the parent is searched, and a collection ends at the first closing
  delimiter: equal literals all get the span of the first one. -/
  | first
  /-- The interior of the parent is searched from left to right, each child after the one found
  before it, and a collection ends at the delimiter that balances its opening one. -/
  | sequential
  deriving DecidableEq, Repr

/-- What becomes of the nodes below one that was not found. -/
inductive Unmatched
  /-- They get no spans. -/
  | stop
  /-- They are searched in the text of the nearest ancestor that was found. -/
  | nearest
  deriving DecidableEq, Repr

/-- The options of the search. -/
structure Options where
  /-- How a child is searched. -/
  strategy : Strategy := .first
  /-- What becomes of the nodes below one that was not found. -/
  unmatched : Unmatched := .stop
  /-- The number of the first line of a text.  It has no upper bound, so the lines behind it can
  always be counted. -/
  firstLine : Nat := 1
  deriving DecidableEq, Repr

end EdnSpans
