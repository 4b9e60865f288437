/-
**The lexemes of a text up to the first rejection.**

Whoever builds forms can use the lexemes of a text only up to the first rejection, so what counts is
the list of these lexemes and whether they end at the end of the text or at a rejection.

Main definitions:

* `EdnSpans.LexemeStream` — the lexemes, and the rejection that ends them if there is one;
* `EdnSpans.LexemeStream.ofText` — the stream of a text.
-/
import EdnSpans.Token.Cursor

set_option relaxedAutoImplicit false
set_option autoImplicit false

namespace EdnSpans

/-- Lexemes in the order of the text, and what ends them. -/
structure LexemeStream where
  /-- The lexemes. -/
  lexemes : List Lexeme
  /-- The rejection that follows them; without one, the text ends after them. -/
  rejection : Option Rejection
  deriving DecidableEq, Repr

namespace LexemeStream

/-- The lexemes before the first rejection among the events. -/
def ofEvents : List Event → LexemeStream
  | [] => ⟨[], none⟩
  | .rejected r _ :: _ => ⟨[], some r⟩
  | .lexeme l :: events =>
      let ⟨lexemes, rejection⟩ := ofEvents events
      ⟨l :: lexemes, rejection⟩

/-- The lexemes of a text whose first line has the given number. -/
def ofText (t : Text) (firstLine : Nat) : LexemeStream :=
  ofEvents (Cursor.ofText t firstLine).events.1

end LexemeStream

end EdnSpans
