/-
**Positions in a text.**

Whoever reports something about a text names a *place*, a line and a column; whoever cuts the text
needs offsets.  A position holds all four counts and is moved over one character at a time.  The
first line may have any number, so a fragment can be read with the numbering of the text it was
taken from; columns, offsets and bytes are counted from `0`.  All counts are natural numbers: what a
counter of a fixed width does when it overflows is left out, here and wherever a count is used.

Main definitions:

* `EdnSpans.Place` — a line and a column;
* `EdnSpans.Position` — a place with its offset in characters and in bytes;
* `EdnSpans.Position.next`, `EdnSpans.Position.after` — the position after a character, and after
  a text.

Main results:

* `EdnSpans.Position.after_append` — moving over two texts is moving over one and then the other;
* `EdnSpans.Position.offset_after`, `EdnSpans.Position.byte_after`, `EdnSpans.Position.line_after`
  — **the counts are those of the text that was passed**.
-/
import EdnSpans.Text.Basic

set_option relaxedAutoImplicit false
set_option autoImplicit false

namespace EdnSpans

/-- Where something is reported: a line, and a column counted from `0`.  Neither of them has an upper
bound. -/
structure Place where
  /-- The number of the line. -/
  line : Nat
  /-- The number of characters before it on its line. -/
  column : Nat
  deriving DecidableEq, Repr, Inhabited

/-- A place together with the two ways of measuring what lies before it.  The four counts have no
upper bound, so moving on never overflows. -/
structure Position extends Place where
  /-- The number of characters before it. -/
  offset : Nat
  /-- The number of bytes before it, in UTF-8. -/
  byte : Nat
  deriving DecidableEq, Repr, Inhabited

namespace Position

/-- The beginning of a text whose first line has the given number. -/
def first (line : Nat) : Position := { line, column := 0, offset := 0, byte := 0 }

/-- The position after one more character: a line break begins a new line, and any other character
takes one column. -/
def next (p : Position) (c : Char) : Position where
  line := if c = '\n' then p.line + 1 else p.line
  column := if c = '\n' then 0 else p.column + 1
  offset := p.offset + 1
  byte := p.byte + c.utf8Size

/-- The position after a text. -/
def after (p : Position) (t : Text) : Position := t.foldl next p

@[simp] theorem after_nil (p : Position) : p.after [] = p := rfl

@[simp] theorem after_cons (p : Position) (c : Char) (t : Text) :
    p.after (c :: t) = (p.next c).after t := rfl

@[simp] theorem after_append (p : Position) (s t : Text) :
    p.after (s ++ t) = (p.after s).after t := List.foldl_append

@[simp] theorem offset_after (p : Position) (t : Text) :
    (p.after t).offset = p.offset + t.length := by
  induction t generalizing p with
  | nil => rfl
  | cons c t ih =>
      simp only [after_cons, ih, next, List.length_cons]
      omega

@[simp] theorem byte_after (p : Position) (t : Text) :
    (p.after t).byte = p.byte + Text.byteSize t := by
  induction t generalizing p with
  | nil => rfl
  | cons c t ih =>
      simp only [after_cons, ih, next, Text.byteSize_cons]
      omega

@[simp] theorem line_after (p : Position) (t : Text) :
    (p.after t).line = p.line + Text.newlines t := by
  induction t generalizing p with
  | nil => rfl
  | cons c t ih =>
      simp only [after_cons, ih, next, Text.newlines_cons]
      split <;> omega

end Position

end EdnSpans
