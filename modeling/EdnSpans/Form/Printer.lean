/-
**The canonical text of a form.**

Every form has one canonical text.  The text of a scalar is what is searched for when its place in
a source is sought; a collection is written as its delimiters around its children, with single
spaces between them.

Main definitions:

* `EdnSpans.Binary64.text` — the text of a floating-point number, in the style `floatStyle`;
* `EdnSpans.Scalar.charText`, `EdnSpans.Scalar.stringText` — characters by name, strings in quotes;
* `EdnSpans.Scalar.text`, `EdnSpans.Form.text` — **the canonical text**.
-/
import EdnSpans.Form.Basic
import EdnSpans.Number.Shortest

set_option relaxedAutoImplicit false
set_option autoImplicit false

namespace EdnSpans

/-! ### Numbers -/

/-- Numbers from `0.0001` up to, and not including, `10 ^ 16` are written positionally, whole ones
with `.0`; the others with an exponent after `e`. -/
def floatStyle : Decimal.Style where
  leastPower := -4
  greatestPower := 15
  wholeEnding := ['.', '0']
  mark := 'e'

/-- The text of a floating-point number: the shortest digits that read back, or a mark for what no
digits denote. -/
def Binary64.text (x : Binary64) : Text :=
  if x.isNaN then ['#', '#', 'N', 'a', 'N']
  else if x.isInfinite then
    if x.negative then ['#', '#', '-', 'I', 'n', 'f'] else ['#', '#', 'I', 'n', 'f']
  else
    (if x.negative then ['-'] else [])
      ++ if x.isZero then ['0', '.', '0'] else (Decimal.shortest x.magnitude).text floatStyle

example : (Binary64.ofBits 0x3FB999999999999A).text = ['0', '.', '1'] := by decide +kernel

example : (Binary64.ofBits 0x8000000000000000).text = ['-', '0', '.', '0'] := by decide +kernel

example : (Binary64.ofBits 0x4341C37937E08000).text = ['1', 'e', '1', '6'] := by decide +kernel

example : (Binary64.ofBits 1).text = ['5', 'e', '-', '3', '2', '4'] := by decide +kernel

/-! ### Scalars -/

namespace Scalar

/-- The characters that have a name, with their names. -/
def charNames : List (Char × Text) :=
  [('\n', ['n', 'e', 'w', 'l', 'i', 'n', 'e']), (' ', ['s', 'p', 'a', 'c', 'e']),
   ('\t', ['t', 'a', 'b']), ('\r', ['r', 'e', 't', 'u', 'r', 'n']),
   ('\x0c', ['f', 'o', 'r', 'm', 'f', 'e', 'e', 'd']),
   ('\x08', ['b', 'a', 'c', 'k', 's', 'p', 'a', 'c', 'e'])]

/-- The text of a character: a backslash and its name, or itself if it has none. -/
def charText (c : Char) : Text := '\\' :: (charNames.lookup c).getD [c]

/-- The characters that are written by a letter after a backslash inside a string. -/
def stringEscapes : List (Char × Char) :=
  [('"', '"'), ('\\', '\\'), ('\n', 'n'), ('\t', 't'), ('\r', 'r'), ('\x08', 'b'), ('\x0c', 'f')]

/-- The text of a character inside a string. -/
def escape (c : Char) : Text :=
  match stringEscapes.lookup c with
  | some letter => ['\\', letter]
  | none => [c]

/-- The text of a string: its characters between quotes. -/
def stringText (t : Text) : Text := '"' :: (t.flatMap escape ++ ['"'])

/-- The **canonical text** of a scalar. -/
def text : Scalar → Text
  | .nil => ['n', 'i', 'l']
  | .bool true => ['t', 'r', 'u', 'e']
  | .bool false => ['f', 'a', 'l', 's', 'e']
  | .integer n => Radix.integerText n.toInt
  | .float x => x.text
  | .char c => charText c
  | .string t => stringText t
  | .keyword name => ':' :: name
  | .symbol name => name

end Scalar

/-! ### Collections -/

namespace Form

mutual

/-- The **canonical text** of a form. -/
def text : Form → Text
  | .atom s _ => s.text
  | .node k cs _ => k.opener ++ (textAll cs ++ [k.closer.char])

/-- The canonical texts of several forms, with single spaces between them. -/
def textAll : List Form → Text
  | [] => []
  | f :: fs => text f ++ textMore fs

/-- The canonical texts of several forms, each after a space. -/
def textMore : List Form → Text
  | [] => []
  | f :: fs => ' ' :: (text f ++ textMore fs)

end

end Form

end EdnSpans
