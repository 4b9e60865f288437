/-
**The kinds of collections and their delimiters.**

There are four kinds of collections.  The delimiters depend on the kind alone and never on what
stands between them.  Sets and maps share their closing delimiter, and the opening delimiter of a
map is the tail of that of a set: a `{` directly after a `#` does not open a map.

Main definitions:

* `EdnSpans.Kind` — vectors, lists, sets and maps;
* `EdnSpans.Closer` — the three closing delimiters;
* `EdnSpans.Kind.opener`, `EdnSpans.Kind.closer` — the delimiters of a kind;
* `EdnSpans.Kind.shadowedBy` — the character before an opening delimiter that makes it the tail of
  a longer one;
* `EdnSpans.isOpening`, `EdnSpans.isClosing` — the characters that open and close some collection.
-/
import EdnSpans.Text.Basic

set_option relaxedAutoImplicit false
set_option autoImplicit false

namespace EdnSpans

/-- A closing delimiter. -/
inductive Closer
  | paren
  | bracket
  | brace
  deriving DecidableEq, Repr

/-- The character of a closing delimiter. -/
def Closer.char : Closer → Char
  | .paren => ')'
  | .bracket => ']'
  | .brace => '}'

/-- The kind of a collection. -/
inductive Kind
  | vector
  | list
  | set
  | map
  deriving DecidableEq, Repr

namespace Kind

/-- The name of a kind. -/
def name : Kind → String
  | .vector => "vector"
  | .list => "list"
  | .set => "set"
  | .map => "map"

/-- The text that opens a collection of a kind. -/
def opener : Kind → Text
  | .vector => ['[']
  | .list => ['(']
  | .set => ['#', '{']
  | .map => ['{']

/-- The delimiter that closes a collection of a kind. -/
def closer : Kind → Closer
  | .vector => .bracket
  | .list => .paren
  | .set => .brace
  | .map => .brace

/-- The character that, standing directly before the opener of a kind, makes it the tail of the
opener of another kind. -/
def shadowedBy : Kind → Option Char
  | .map => some '#'
  | _ => none

/-- The children of the kind need not stand in the order of the text they were read from. -/
def isUnordered : Kind → Bool
  | .set => true
  | .map => true
  | _ => false

theorem opener_ne_nil (k : Kind) : k.opener ≠ [] := by cases k <;> simp [opener]

end Kind

/-- The character ends the opening delimiter of some kind. -/
def isOpening (c : Char) : Bool := c = '[' || c = '(' || c = '{'

/-- The character closes some kind of collection. -/
def isClosing (c : Char) : Bool := c = ']' || c = ')' || c = '}'

end EdnSpans
