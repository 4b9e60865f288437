/-
**Literals: strings, characters, numbers and names.**

How the characters of a literal are read, and how many of them there are.  Names, numbers and
character names extend as far as their characters go; a string extends to its closing quote.

Main definitions:

* `EdnSpans.Literal.stringBody` — a string after its opening quote;
* `EdnSpans.Literal.character` — a character after its backslash;
* `EdnSpans.Literal.keyword` — a keyword after its colon;
* `EdnSpans.Literal.number?`, `EdnSpans.Literal.number` — a number;
* `EdnSpans.Literal.word` — a symbol or one of the three reserved words.
-/
import EdnSpans.Form.Printer
import EdnSpans.Text.Symbolic
import EdnSpans.Token.Basic

set_option relaxedAutoImplicit false
set_option autoImplicit false

namespace EdnSpans.Literal

open Text

/-- The character with the given code point, if there is one. -/
def codePoint? (n : Nat) : Option Char :=
  if n.isValidChar then some (Char.ofNat n) else none

/-- The character named by four digits of base sixteen. -/
def hexCharacter? (digits : Text) : Option Char :=
  if digits.length = 4 then (Radix.natural? 16 digits).bind codePoint? else none

/-! ### Strings -/

/-- The character meant by a character after a backslash inside a string: a letter may name a
control character, and everything else means itself. -/
def unescaped (c : Char) : Char :=
  match Scalar.stringEscapes.find? (·.2 = c) with
  | some (meant, _) => meant
  | none => c

/-- The outcome of an escape whose digits, at the front of the text, name no character. -/
def escapeFailure (t : Text) : Scan Text :=
  let digits := (t.take 4).takeWhile isHexDigit
  ⟨2 + digits.length, .error (.badEscape digits)⟩

/-- A string after its opening quote: its text, and its length with the closing quote. -/
def stringBody : Text → Scan Text
  | [] => ⟨0, .error .openString⟩
  | c :: t =>
      if c = '"' then ⟨1, .ok []⟩
      else if c = '\\' then
        match t with
        | [] => ⟨1, .error .openString⟩
        | e :: t =>
            if e = 'u' then
              match t with
              | h₁ :: h₂ :: h₃ :: h₄ :: t =>
                  match hexCharacter? [h₁, h₂, h₃, h₄] with
                  | some meant => (stringBody t).push 6 meant
                  | none => escapeFailure (h₁ :: h₂ :: h₃ :: h₄ :: t)
              | t => escapeFailure t
            else (stringBody t).push 2 (unescaped e)
      else (stringBody t).push 1 c

/-- A string, quotes included, from the text after its opening quote. -/
def string (t : Text) : Scan Token :=
  let body := stringBody t
  ⟨1 + body.length, body.outcome.map fun s => .scalar (.string s)⟩

/-! ### Characters -/

/-- The character with the given name: a single letter names itself, some characters have names of
their own, and `u` with four digits of base sixteen names any. -/
def characterNamed? (name : Text) : Option Char :=
  match name with
  | [c] => some c
  | _ =>
      match Scalar.charNames.find? (·.2 = name) with
      | some (c, _) => some c
      | none =>
          match name with
          | 'u' :: digits => hexCharacter? digits
          | _ => none

/-- A character, from the text after its backslash.  One that is no letter stands for itself; a
letter begins a name. -/
def character : Text → Scan Token
  | [] => ⟨1, .error .missingCharacter⟩
  | c :: t =>
      if isAlphabetic c then
        let name := c :: t.takeWhile isAlphanumeric
        ⟨1 + name.length,
          match characterNamed? name with
          | some meant => .ok (.scalar (.char meant))
          | none => .error (.unknownCharacter name)⟩
      else ⟨2, .ok (.scalar (.char c))⟩

/-! ### Names -/

/-- A keyword, from the text after its colon. -/
def keyword (t : Text) : Scan Token :=
  let name := t.takeWhile isSymbolic
  ⟨1 + name.length,
    if name.isEmpty then .error .namelessKeyword else .ok (.scalar (.keyword name))⟩

/-- The scalar that a name stands for: one of the three reserved words, or the symbol. -/
def scalarNamed (name : Text) : Scalar :=
  if name = ['n', 'i', 'l'] then .nil
  else if name = ['t', 'r', 'u', 'e'] then .bool true
  else if name = ['f', 'a', 'l', 's', 'e'] then .bool false
  else .symbol name

/-- A symbol or a reserved word, at the front of the text. -/
def word (t : Text) : Scan Token :=
  let name := t.takeWhile isSymbolic
  ⟨name.length, .ok (.scalar (scalarNamed name))⟩

/-! ### Numbers -/

/-- The digits after the mark of base sixteen, if the text begins with it. -/
def hexDigits? : Text → Option Text
  | '0' :: 'x' :: t => some t
  | '0' :: 'X' :: t => some t
  | _ => none

/-- A number with the given sign from the digits after the mark of base sixteen.  The digits may
have a sign of their own, and the number has to fit before and after the outer sign is applied. -/
def hexNumber? (negative : Bool) (digits : Text) : Option Int64 :=
  ((Radix.integer? 16 digits).bind Radix.int64?).bind fun n =>
    Radix.int64? (if negative then -n.toInt else n.toInt)

/-- The number of a literal: in base sixteen after the mark, a floating-point number if there is a
point or an exponent, and otherwise an integer in base ten. -/
def number? (literal : Text) : Option Scalar :=
  let (negative, digits) := Radix.splitSign literal
  match hexDigits? digits with
  | some digits => (hexNumber? negative digits).map .integer
  | none =>
      if digits.any fun c => c = '.' || c = 'e' || c = 'E' then
        (Binary64.ofLiteral? literal).map .float
      else ((Radix.integer? 10 literal).bind Radix.int64?).map .integer

/-- A number, at the front of the text. -/
def number (t : Text) : Scan Token :=
  let literal := t.takeWhile isSymbolic
  ⟨literal.length,
    match number? literal with
    | some value => .ok (.scalar value)
    | none => .error (.badNumber literal)⟩

end EdnSpans.Literal
