/-
**Diagnostics and their wording.**

A diagnostic is what is told to somebody whose text or file could not be used: what the problem is
and where, a hint on how to mend it, and a number by which it can be looked up.  The wording of all
messages is here; when one arises is said by the causes that are turned into diagnostics.

Main definitions:

* `EdnSpans.Problem` — the problems that are reported;
* `EdnSpans.Diagnostic` — a problem with an optional hint and an optional code;
* `EdnSpans.Diagnostic.text` — **the message**.
-/
import EdnSpans.Number.Radix
import EdnSpans.Position

set_option relaxedAutoImplicit false
set_option autoImplicit false

namespace EdnSpans

/-- What is reported. -/
inductive Problem
  /-- Lexemes that do not make up a form. -/
  | malformed (message : String) (place : Place)
  /-- A lexeme that begins well and is not finished well. -/
  | invalidToken (token : Text) (place : Place)
  /-- A text that ends too early. -/
  | unexpectedEnd (message : String) (place : Place)
  /-- A number that cannot be read. -/
  | badValue (message : String) (place : Place)
  /-- A string without its closing quote. -/
  | unclosedString (quote : Char) (place : Place)
  /-- A character with which no lexeme begins. -/
  | unexpectedCharacter (c : Char) (place : Place)
  /-- A file that cannot be used. -/
  | unusableFile (path : String) (message : String)
  /-- A tree that cannot be exported. -/
  | failedExport (message : String)
  /-- A root without a span to derive the others from. -/
  | missingSeed (message : String)
  deriving DecidableEq, Repr

/-- A problem, a hint, and a number for looking it up. -/
structure Diagnostic where
  /-- What is reported. -/
  problem : Problem
  /-- How it may be mended. -/
  hint : Option String
  /-- The number of the diagnostic. -/
  code : Option Nat
  deriving DecidableEq, Repr

/-- The decimal digits of a number. -/
def digitString (n : Nat) : String := String.ofList (Radix.decimalText n)

/-- The line and the column of a place, with a colon between them. -/
def Place.text (p : Place) : String := digitString p.line ++ ":" ++ digitString p.column

/-- The wording of a problem. -/
def Problem.text : Problem → String
  | .malformed message place => "Syntax Error at " ++ place.text ++ ": " ++ message
  | .invalidToken token place =>
      "Invalid Token '" ++ String.ofList token ++ "' at " ++ place.text
  | .unexpectedEnd message place => "Unexpected EOF at " ++ place.text ++ ": " ++ message
  | .badValue message place => "Type Error at " ++ place.text ++ ": " ++ message
  | .unclosedString quote place =>
      "Unclosed string starting with '" ++ String.singleton quote ++ "' at " ++ place.text
  | .unexpectedCharacter c place =>
      "Unexpected character '" ++ String.singleton c ++ "' at " ++ place.text
  | .unusableFile path message => "File Error '" ++ path ++ "': " ++ message
  | .failedExport message => "Export Error: " ++ message
  | .missingSeed message => "Missing Seed: " ++ message

/-- The whole message of a diagnostic. -/
def Diagnostic.text (d : Diagnostic) : String :=
  "[FORMSPAN] " ++ d.problem.text
    ++ (d.hint.map (" Hint: " ++ ·)).getD ""
    ++ (d.code.map (" Code: " ++ digitString ·)).getD ""

end EdnSpans
