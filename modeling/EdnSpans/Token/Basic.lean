/-
**Tokens, lexemes and rejections.**

A text is read as a sequence of lexemes, each a token with the positions before and after its
characters.  What cannot be read as a token is rejected for a cause, and the cause says where the
rejection is reported: an unclosed string where it begins, an escape that names no character at its
digits, and anything else where the reading stopped.

Main definitions:

* `EdnSpans.Token`, `EdnSpans.Lexeme` — what is read;
* `EdnSpans.Cause`, `EdnSpans.Rejection` — what is not;
* `EdnSpans.Cause.offset` — **where a rejection is reported**;
* `EdnSpans.Rejection.diagnostic` — how it is reported;
* `EdnSpans.Scan` — the outcome of reading at the front of a text.
-/
import EdnSpans.Diagnostic
import EdnSpans.Form.Basic

set_option relaxedAutoImplicit false
set_option autoImplicit false

namespace EdnSpans

/-- A token: a scalar, or a delimiter of a collection. -/
inductive Token
  | scalar (value : Scalar)
  | opening (kind : Kind)
  | closing (closer : Closer)
  deriving DecidableEq, Repr

/-- A token and where it stands. -/
structure Lexeme where
  /-- What was read. -/
  token : Token
  /-- The position before its first character. -/
  start : Position
  /-- The position after its last character. -/
  stop : Position
  deriving DecidableEq, Repr

/-- Why something is not a token. -/
inductive Cause
  /-- No token begins with the character. -/
  | strayCharacter (c : Char)
  /-- The text ends inside a string. -/
  | openString
  /-- The digits after the mark of an escape inside a string name no character. -/
  | badEscape (digits : Text)
  /-- The text ends after a backslash. -/
  | missingCharacter
  /-- No character has the name. -/
  | unknownCharacter (name : Text)
  /-- A colon with no name after it. -/
  | namelessKeyword
  /-- The literal begins like a number and is none. -/
  | badNumber (literal : Text)
  deriving DecidableEq, Repr

/-- Where a rejection is reported, as an offset into the rejected characters of the given number:
at their beginning, before the digits of an escape, or at their end. -/
def Cause.offset (length : Nat) : Cause → Nat
  | .openString => 0
  | .badEscape digits => length - digits.length
  | _ => length

/-- A cause and the place where it is reported. -/
structure Rejection where
  /-- Why it is rejected. -/
  cause : Cause
  /-- Where that is reported. -/
  place : Place
  deriving DecidableEq, Repr

/-- The diagnostic of a rejection. -/
def Rejection.diagnostic (r : Rejection) : Diagnostic :=
  match r.cause with
  | .strayCharacter c =>
      ⟨.unexpectedCharacter c r.place, some "Unexpected character in input", some 104⟩
  | .openString => ⟨.unclosedString '"' r.place, some "String literal not closed", some 103⟩
  | .badEscape digits =>
      ⟨.invalidToken ('\\' :: 'u' :: digits) r.place,
        some "Expected four hex digits naming a character", some 108⟩
  | .missingCharacter =>
      ⟨.unexpectedEnd "Expected a character after '\\'" r.place, none, some 105⟩
  | .unknownCharacter name =>
      ⟨.invalidToken ('\\' :: name) r.place, some "Unknown character name", some 106⟩
  | .namelessKeyword =>
      ⟨.invalidToken [':'] r.place, some "A keyword needs a name after ':'", some 107⟩
  | .badNumber literal =>
      ⟨.badValue ("Invalid number '" ++ String.ofList literal ++ "'") r.place, none, some 102⟩

/-- The outcome of reading at the front of a text: how many characters were read, and what they
are. -/
structure Scan (α : Type) where
  /-- The number of characters read. -/
  length : Nat
  /-- What they are, or why they are nothing. -/
  outcome : Except Cause α

/-- The outcome of reading a character, written in `n` characters, before what was read. -/
def Scan.push (n : Nat) (c : Char) (s : Scan Text) : Scan Text :=
  ⟨n + s.length, s.outcome.map (c :: ·)⟩

end EdnSpans
