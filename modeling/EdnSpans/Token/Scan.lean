/-
**Reading one token.**

The first character of a token, with a look at the next one, decides what kind of token is read.

Main definitions:

* `EdnSpans.Lead` — what the first character announces;
* `EdnSpans.Token.scan` — **the token at the front of a text**, and its length.

Main results:

* `EdnSpans.Token.scan_length_pos` — **reading makes progress**, whether or not it succeeds.
-/
import EdnSpans.Token.Literal

set_option relaxedAutoImplicit false
set_option autoImplicit false

namespace EdnSpans

open Text

/-- What the first character of a token announces. -/
inductive Lead
  | opening (kind : Kind)
  | closing (closer : Closer)
  | string
  | character
  | keyword
  | number
  | word
  /-- Nothing begins with the character. -/
  | stray
  deriving DecidableEq, Repr

/-- What a character announces, given the character after it.  A `#` opens a set together with
a `{`, and a sign begins a number together with a digit. -/
def Lead.of (c : Char) (next : Option Char) : Lead :=
  match c with
  | '(' => .opening .list
  | ')' => .closing .paren
  | '[' => .opening .vector
  | ']' => .closing .bracket
  | '{' => .opening .map
  | '}' => .closing .brace
  | '#' => if next = some '{' then .opening .set else .stray
  | '"' => .string
  | '\\' => .character
  | ':' => .keyword
  | _ =>
      if c.isDigit then .number
      else if (c = '-' ∨ c = '+') ∧ next.any Char.isDigit then .number
      else if isSymbolic c then .word
      else .stray

/-- A number begins with a digit or a sign, and these are characters of names. -/
theorem Lead.isSymbolic_of_number {c : Char} {next : Option Char} (h : Lead.of c next = .number) :
    isSymbolic c := by
  unfold Lead.of at h
  repeat' split at h
  all_goals first | contradiction | skip
  · next hd => exact isSymbolic_of_isDigit hd
  · next hs =>
      rcases hs.1 with rfl | rfl
      · decide
      · decide

/-- A word begins with a character of names. -/
theorem Lead.isSymbolic_of_word {c : Char} {next : Option Char} (h : Lead.of c next = .word) :
    isSymbolic c := by
  unfold Lead.of at h
  repeat' split at h
  all_goals first | contradiction | assumption

namespace Token

/-- The token at the front of the text `c :: t`, and the number of its characters. -/
def scan (c : Char) (t : Text) : Scan Token :=
  match Lead.of c t.head? with
  | .opening kind => ⟨kind.opener.length, .ok (.opening kind)⟩
  | .closing closer => ⟨1, .ok (.closing closer)⟩
  | .string => Literal.string t
  | .character => Literal.character t
  | .keyword => Literal.keyword t
  | .number => Literal.number (c :: t)
  | .word => Literal.word (c :: t)
  | .stray => ⟨1, .error (.strayCharacter c)⟩

/-- Reading **makes progress**, whether or not it succeeds. -/
theorem scan_length_pos (c : Char) (t : Text) : 0 < (scan c t).length := by
  unfold scan
  split
  · next kind _ => cases kind <;> decide
  · exact Nat.one_pos
  · exact Nat.add_pos_left Nat.one_pos _
  · unfold Literal.character
    split
    · exact Nat.one_pos
    · split
      · exact Nat.add_pos_left Nat.one_pos _
      · exact Nat.two_pos
  · exact Nat.add_pos_left Nat.one_pos _
  · next h => simp [Literal.number, Lead.isSymbolic_of_number h]
  · next h => simp [Literal.word, Lead.isSymbolic_of_word h]
  · exact Nat.one_pos

end Token

end EdnSpans
