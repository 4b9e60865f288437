/-
**Reading lexemes one after another.**

A cursor is what is left of a text and the position before it.  A step passes over the gap before
the next lexeme — blanks, and comments from a semicolon through the end of the line — and then over
the lexeme, or over what is rejected in its place; reading goes on after either.

Main definitions:

* `EdnSpans.gapLength` — the number of characters before the next lexeme;
* `EdnSpans.Cursor`, `EdnSpans.Cursor.advance` — what is left of a text, and moving on in it;
* `EdnSpans.Step`, `EdnSpans.Cursor.next` — the next lexeme, rejection or end;
* `EdnSpans.Cursor.events` — **everything that is read up to the end of the text**.

Main results:

* `EdnSpans.Cursor.length_lt_of_next` — a step that is not the last leaves less text.
-/
import EdnSpans.Token.Scan

set_option relaxedAutoImplicit false
set_option autoImplicit false

namespace EdnSpans

open Text

/-! ### Gaps -/

/-- The number of characters, blanks and comments, before the next lexeme; `inComment` says that
the text begins inside a comment, which extends through the next line break. -/
def gapLength (inComment : Bool) : Text → Nat
  | [] => 0
  | c :: t =>
      if inComment then gapLength (c != '\n') t + 1
      else if isBlank c then gapLength false t + 1
      else if c = ';' then gapLength true t + 1
      else 0

/-! ### Cursors -/

/-- What is left of a text, and the position before it. -/
structure Cursor where
  /-- The text that is left. -/
  rest : Text
  /-- The position before it. -/
  position : Position
  deriving DecidableEq, Repr

/-- What a step leads to. -/
inductive Step
  /-- A lexeme, and the cursor after it. -/
  | lexeme (lexeme : Lexeme) (after : Cursor)
  /-- A rejection, and the cursor after the rejected characters. -/
  | rejected (rejection : Rejection) (after : Cursor)
  /-- The end of the text. -/
  | finished (after : Cursor)

/-- Something that was read, or rejected before the given position. -/
inductive Event
  | lexeme (lexeme : Lexeme)
  | rejected (rejection : Rejection) (after : Position)

namespace Cursor

/-- The beginning of a text whose first line has the given number. -/
def ofText (t : Text) (firstLine : Nat) : Cursor := ⟨t, .first firstLine⟩

/-- The cursor after `n` more characters. -/
def advance (k : Cursor) (n : Nat) : Cursor := ⟨k.rest.drop n, k.position.after (k.rest.take n)⟩

@[simp] theorem rest_advance (k : Cursor) (n : Nat) : (k.advance n).rest = k.rest.drop n := rfl

@[simp] theorem position_advance (k : Cursor) (n : Nat) :
    (k.advance n).position = k.position.after (k.rest.take n) := rfl

/-- The cursor before the next lexeme. -/
def skipGap (k : Cursor) : Cursor := k.advance (gapLength false k.rest)

/-- The step from a cursor at the first character of a token. -/
def readToken (k : Cursor) (c : Char) (t : Text) : Step :=
  let s := Token.scan c t
  let after := k.advance s.length
  match s.outcome with
  | .ok token => .lexeme ⟨token, k.position, after.position⟩ after
  | .error cause => .rejected ⟨cause, (k.advance (cause.offset s.length)).position.toPlace⟩ after

/-- The next lexeme, rejection or end. -/
def next (k : Cursor) : Step :=
  let start := k.skipGap
  match start.rest with
  | [] => .finished start
  | c :: t => start.readToken c t

end Cursor

/-- The cursor after a step. -/
def Step.after : Step → Cursor
  | .lexeme _ k => k
  | .rejected _ k => k
  | .finished k => k

/-- The step is not the last one. -/
def Step.goesOn : Step → Bool
  | .finished _ => false
  | _ => true

namespace Cursor

@[simp] theorem after_readToken (k : Cursor) (c : Char) (t : Text) :
    (k.readToken c t).after = k.advance (Token.scan c t).length := by
  unfold readToken
  dsimp only
  split <;> rfl

/-- A step that is not the last leaves less text. -/
theorem length_lt_of_next {k : Cursor} (h : k.next.goesOn) :
    k.next.after.rest.length < k.rest.length := by
  unfold next at h ⊢
  dsimp only at h ⊢
  split at h
  · simp [Step.goesOn] at h
  · next c t e =>
      have hpos := Token.scan_length_pos c t
      have hlen : (k.skipGap.rest).length = t.length + 1 := by rw [e]; rfl
      have hle : (k.skipGap.rest).length ≤ k.rest.length := by simp [skipGap]
      rw [after_readToken, rest_advance, List.length_drop]
      omega

/-- Everything that is read up to the end of the text, and the cursor there. -/
def events (k : Cursor) : List Event × Cursor :=
  match _h : k.next with
  | .finished last => ([], last)
  | .lexeme l after =>
      let (more, last) := events after
      (.lexeme l :: more, last)
  | .rejected r after =>
      let (more, last) := events after
      (.rejected r after.position :: more, last)
termination_by k.rest.length
decreasing_by
  · have := length_lt_of_next (k := k) (by rw [_h]; rfl)
    rwa [_h] at this
  · have := length_lt_of_next (k := k) (by rw [_h]; rfl)
    rwa [_h] at this

end Cursor

end EdnSpans
