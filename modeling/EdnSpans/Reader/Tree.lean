/-
**Trees from lexemes.**

Lexemes are put together to forms by a machine with a stack.  A frame of the stack is a collection
that has been opened and not yet closed, with the items read so far; every lexeme is one move.  A
lexeme is taken only once the one after it is known, so that a rejection right after a lexeme is
reported in place of whatever that lexeme leads to.

Main definitions:

* `EdnSpans.ReadFault` — why no form can be read, and `EdnSpans.ReadFault.diagnostic`;
* `EdnSpans.Frame` — a collection that is open;
* `EdnSpans.Move`, `EdnSpans.Move.of` — what a lexeme does to the stack;
* `EdnSpans.readTree` — **the next form**, and the lexemes after it.

Main results:

* `EdnSpans.length_rest_readTree` — no lexemes are gained.
-/
import EdnSpans.Token.Stream

set_option relaxedAutoImplicit false
set_option autoImplicit false

namespace EdnSpans

/-! ### Faults -/

/-- Why no form can be read. -/
inductive ReadFault
  /-- Something that is no lexeme. -/
  | rejected (rejection : Rejection)
  /-- A closing delimiter, at the given place, that closes nothing or something of another kind. -/
  | unmatched (closer : Closer) (place : Place)
  /-- A collection, opened at the given place, that the text does not close. -/
  | unclosed (kind : Kind) (place : Place)
  /-- A map, opened at the given place, with a key that has no value. -/
  | oddMap (count : Nat) (place : Place)
  deriving DecidableEq, Repr

/-- How a closing delimiter is called in messages. -/
def Closer.messageName : Closer → String
  | .paren => "RParen"
  | .bracket => "RBracket"
  | .brace => "RBrace"

/-- The diagnostic of a fault. -/
def ReadFault.diagnostic : ReadFault → Diagnostic
  | .rejected r => r.diagnostic
  | .unmatched closer place =>
      ⟨.malformed ("Unmatched delimiter " ++ closer.messageName) place,
        some "Remove it or add the matching opening delimiter", some 203⟩
  | .unclosed kind place =>
      ⟨.unexpectedEnd ("Unclosed " ++ kind.name) place,
        some ("Add the closing delimiter for the " ++ kind.name ++ " opened here"), some 202⟩
  | .oddMap count place =>
      ⟨.malformed
        ("Map literal contains an odd number of forms (" ++ digitString count ++ ")") place,
        some "Every key needs a value", some 204⟩

/-! ### Moves -/

/-- A collection that is open. -/
structure Frame where
  /-- Its kind. -/
  kind : Kind
  /-- Where it was opened. -/
  place : Place
  /-- The items read so far, the last one first. -/
  items : List Form

/-- What a lexeme does to the stack of open collections. -/
inductive Move
  /-- Some collection is still open. -/
  | pending (top : Frame) (below : List Frame)
  /-- A form is complete and no collection is open. -/
  | complete (form : Form)
  /-- The lexeme cannot stand here. -/
  | fault (fault : ReadFault)

/-- A form is an item of the innermost open collection, or stands by itself. -/
def Move.deliver (form : Form) : List Frame → Move
  | [] => .complete form
  | top :: below => .pending { top with items := form :: top.items } below

/-- The innermost open collection is closed.  The items of a map have to come in pairs. -/
def Move.close (top : Frame) (below : List Frame) : Move :=
  if top.kind = .map ∧ top.items.length % 2 = 1 then .fault (.oddMap top.items.length top.place)
  else deliver (.node top.kind top.items.reverse none) below

/-- The move of a lexeme. -/
def Move.of (stack : List Frame) (l : Lexeme) : Move :=
  match l.token with
  | .scalar s => deliver (.atom s none) stack
  | .opening kind => .pending ⟨kind, l.start.toPlace, []⟩ stack
  | .closing closer =>
      match stack with
      | [] => .fault (.unmatched closer l.start.toPlace)
      | top :: below =>
          if top.kind.closer = closer then close top below
          else .fault (.unmatched closer l.start.toPlace)

/-! ### The next form -/

/-- The outcome of reading one form. -/
structure TreeReading where
  /-- The form and the position after its last lexeme, or why there is none. -/
  outcome : Except ReadFault (Form × Position)
  /-- The lexemes that are left. -/
  rest : List Lexeme

/-- The next form, from a stack of open collections, a lexeme and the lexemes after it.  The last
lexeme before a rejection is never taken. -/
def readTree (rejection : Option Rejection) (stack : List Frame) (l : Lexeme) :
    List Lexeme → TreeReading
  | [] =>
      match rejection with
      | some r => ⟨.error (.rejected r), []⟩
      | none =>
          match Move.of stack l with
          | .complete form => ⟨.ok (form, l.stop), []⟩
          | .fault fault => ⟨.error fault, []⟩
          | .pending top _ => ⟨.error (.unclosed top.kind top.place), []⟩
  | l' :: rest =>
      match Move.of stack l with
      | .complete form => ⟨.ok (form, l.stop), l' :: rest⟩
      | .fault fault => ⟨.error fault, l' :: rest⟩
      | .pending top below => readTree rejection (top :: below) l' rest

/-- No lexemes are gained. -/
theorem length_rest_readTree (rejection : Option Rejection) (stack : List Frame) (l : Lexeme)
    (rest : List Lexeme) : (readTree rejection stack l rest).rest.length ≤ rest.length := by
  induction rest generalizing stack l with
  | nil =>
      unfold readTree
      repeat' split
      all_goals exact Nat.le_refl 0
  | cons l' rest ih =>
      unfold readTree
      split
      · exact Nat.le_refl _
      · exact Nat.le_refl _
      · exact Nat.le_succ_of_le (ih _ _)

end EdnSpans
