/-
**JSON values and their text.**

JSON values in the little generality that an export needs: numbers are natural numbers, and the
members of an object are written in the order in which they are given.

Main definitions:

* `EdnSpans.Json` — JSON values;
* `EdnSpans.Json.quoted` — a string in quotes;
* `EdnSpans.Json.write`, `EdnSpans.Json.text` — **the text of a value**, one item to a line, two
  spaces for every level; it is written in front of what follows it, so that no part is copied.
-/
import EdnSpans.Number.Radix

set_option relaxedAutoImplicit false
set_option autoImplicit false

namespace EdnSpans

/-- A JSON value. -/
inductive Json
  | null
  | bool (b : Bool)
  | number (n : Nat)
  | string (t : Text)
  | array (items : List Json)
  | object (members : List (Text × Json))

namespace Json

/-! ### Strings -/

/-- The characters that are written by a letter after a backslash. -/
def letterEscapes : List (Char × Char) :=
  [('"', '"'), ('\\', '\\'), ('\x08', 'b'), ('\x0c', 'f'), ('\n', 'n'), ('\r', 'r'), ('\t', 't')]

/-- A character below the space in the four digits of its code. -/
def codeEscape (c : Char) : Text :=
  ['\\', 'u', '0', '0', Nat.digitChar (c.toNat / 16), Nat.digitChar (c.toNat % 16)]

/-- The text of a character inside a string. -/
def escape (c : Char) : Text :=
  match letterEscapes.lookup c with
  | some letter => ['\\', letter]
  | none => if c.toNat < 0x20 then codeEscape c else [c]

/-- A string in quotes. -/
def quoted (t : Text) : Text := '"' :: (t.flatMap escape ++ ['"'])

/-! ### Values -/

/-- The beginning of a line at the given level. -/
def newLine (level : Nat) : Text := '\n' :: List.replicate (2 * level) ' '

mutual

/-- The text of a value whose first line begins at the given level, with `rest` after it. -/
def write (level : Nat) (rest : Text) : Json → Text
  | .null => 'n' :: 'u' :: 'l' :: 'l' :: rest
  | .bool true => 't' :: 'r' :: 'u' :: 'e' :: rest
  | .bool false => 'f' :: 'a' :: 'l' :: 's' :: 'e' :: rest
  | .number n => Radix.decimalText n ++ rest
  | .string t => quoted t ++ rest
  | .array [] => '[' :: ']' :: rest
  | .array (item :: items) =>
      '[' :: (newLine (level + 1)
        ++ write (level + 1) (writeItems (level + 1) (newLine level ++ ']' :: rest) items) item)
  | .object [] => '{' :: '}' :: rest
  | .object ((name, value) :: members) =>
      '{' :: (newLine (level + 1) ++ (quoted name ++ ':' :: ' ' ::
        write (level + 1) (writeMembers (level + 1) (newLine level ++ '}' :: rest) members) value))

/-- The items of an array after its first one, with `rest` after them. -/
def writeItems (level : Nat) (rest : Text) : List Json → Text
  | [] => rest
  | item :: items => ',' :: (newLine level ++ write level (writeItems level rest items) item)

/-- The members of an object after its first one, with `rest` after them. -/
def writeMembers (level : Nat) (rest : Text) : List (Text × Json) → Text
  | [] => rest
  | (name, value) :: members =>
      ',' :: (newLine level ++ (quoted name ++ ':' :: ' ' ::
        write level (writeMembers level rest members) value))

end

/-- The text of a value. -/
def text (j : Json) : Text := j.write 0 []

end Json

end EdnSpans
