/-
**Where a form stands in a text.**

A scalar is found by its canonical text, a collection by the delimiters of its kind: what is inside
a collection is never compared.  The first opening delimiter decides; if no end is found for it,
there is no match.  All searches for a text are those of `Text.indexOf?`, with the assumption that is
stated there: a search finds the leftmost occurrence, and no pattern is refused.

Main definitions:

* `EdnSpans.Match` — a piece of a text and its offsets;
* `EdnSpans.openerIndex?` — the first opening delimiter of a kind;
* `EdnSpans.closerLength?` — the length of a collection's text after its opening delimiter;
* `EdnSpans.Form.locate` — **the match of a form**.
-/
import EdnSpans.Form.Printer
import EdnSpans.Locate.Balance
import EdnSpans.Options
import EdnSpans.Text.Occurrence

set_option relaxedAutoImplicit false
set_option autoImplicit false

namespace EdnSpans

/-- A piece of a text and its offsets in it, the second one exclusive. -/
structure Match where
  /-- The piece. -/
  text : Text
  /-- The offset of its first character. -/
  start : Nat
  /-- The offset of the character after its last one. -/
  stop : Nat
  deriving DecidableEq, Repr

/-- The piece of a text between two offsets. -/
def Match.between (t : Text) (start stop : Nat) : Match := ⟨Text.slice t start stop, start, stop⟩

/-- The least offset at which the opener of a kind stands, and is not the tail of the opener of
another kind; `before` is the character before the text. -/
def openerIndex? (kind : Kind) (before : Option Char) : Text → Option Nat
  | [] => none
  | c :: t =>
      if kind.opener.isPrefixOf (c :: t) ∧ ¬(before.isSome ∧ before = kind.shadowedBy) then some 0
      else (openerIndex? kind (some c) t).map (· + 1)

/-- The number of characters after the opener of a collection through its end: through the first
closer of its kind, or through the one that balances the opener. -/
def closerLength? (strategy : Strategy) (kind : Kind) (interior : Text) : Option Nat :=
  match strategy with
  | .first => (Text.indexOf? [kind.closer.char] interior).map (· + 1)
  | .sequential => balancedLength? kind.closer.char .code 0 interior

/-- The match of a form in a text.  There is none only if the text of a scalar or the delimiters of a
collection are not found: that the search for a text is refused is left out. -/
def Form.locate (strategy : Strategy) (f : Form) (t : Text) : Option Match :=
  match f with
  | .atom s _ =>
      (Text.indexOf? s.text t).map fun start => Match.between t start (start + s.text.length)
  | .node kind _ _ =>
      (openerIndex? kind none t).bind fun start =>
        let interior := start + kind.opener.length
        (closerLength? strategy kind (t.drop interior)).map fun n =>
          Match.between t start (interior + n)

end EdnSpans
