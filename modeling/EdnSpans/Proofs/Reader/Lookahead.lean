/-
**A reader with one lexeme ahead.**

The reader of a text may ask the lexer for one lexeme at a time and descend into a collection by a
call of itself, in place of looking at all lexemes and keeping a stack.  It then keeps the one
lexeme that it has asked for and not yet taken, and the position behind the one it took last.  A
lexeme is taken by asking for the next one, and if that is rejected, no lexeme is ahead any more.
Nothing in such a reader says that it comes to an end, that there always is a lexeme when one is to
be taken, or that the bytes at which it cuts the source of a form out of the text lie between
characters; so it may be stopped by each of these.  The calls and loops that nothing bounds are
given fuel.

Main definitions:

* `EdnSpans.Text.byteSlice?` — what stands between two bytes of a text;
* `EdnSpans.Lookahead` — **a reader with one lexeme ahead**, and `EdnSpans.Halt`, why it stops;
* `EdnSpans.Descent` — what is done with it, and `EdnSpans.Descent.run`;
* `EdnSpans.Descent.take` — the lexeme ahead is taken;
* `EdnSpans.Descent.readForm`, `EdnSpans.Descent.readAll` — the next form, and all of them;
* `EdnSpans.Lookahead.Shows` — the lexemes that are left.

Main results:

* `EdnSpans.Text.byteSlice?_append` — a part of a text, cut out by bytes;
* `EdnSpans.Lookahead.run_take` — a lexeme is taken **once the next one is known**;
* `EdnSpans.Lookahead.run_take_rejected` — and is lost if a rejection is right behind it.
-/
import EdnSpans.Proofs.Locate.Balance
import EdnSpans.Proofs.Token.Seam

set_option relaxedAutoImplicit false
set_option autoImplicit false

namespace EdnSpans

open Text

/-! ### Cuts between bytes -/

/-- What stands in a text before the given byte, if a character begins there or the text ends. -/
def Text.upToByte? : Text → Nat → Option Text
  | _, 0 => some []
  | [], _ + 1 => none
  | c :: t, n + 1 =>
      if c.utf8Size ≤ n + 1 then (upToByte? t (n + 1 - c.utf8Size)).map (c :: ·) else none

/-- What stands between two bytes of a text, if there are such bytes, in this order, and a character
begins at each of them or the text ends. -/
def Text.byteSlice? (t : Text) (start stop : Nat) : Option Text :=
  if start ≤ stop then (fromByte? t start).bind fun rest => upToByte? rest (stop - start) else none

theorem Text.upToByte?_append (s t : Text) : upToByte? (s ++ t) (byteSize s) = some s := by
  induction s with
  | nil => cases t <;> rfl
  | cons c s ih =>
      obtain ⟨n, hn⟩ : ∃ n, c.utf8Size + byteSize s = n + 1 :=
        ⟨c.utf8Size + byteSize s - 1, by have := c.utf8Size_pos; omega⟩
      rw [List.cons_append, byteSize_cons, hn, upToByte?, if_pos (by omega), ← hn,
        Nat.add_sub_cancel_left, ih, Option.map_some]

theorem Text.byteSlice?_append (s u v : Text) :
    byteSlice? (s ++ (u ++ v)) (byteSize s) (byteSize s + byteSize u) = some u := by
  rw [byteSlice?, if_pos (Nat.le_add_right _ _), fromByte?_append, Option.bind_some,
    Nat.add_sub_cancel_left, upToByte?_append]

/-! ### The reader with one lexeme ahead -/

/-- What stands ahead: a lexeme, or the end of the text. -/
inductive Ahead
  | lexeme (lexeme : Lexeme)
  | finish (position : Position)

/-- The position behind it. -/
def Ahead.stop : Ahead → Position
  | .lexeme l => l.stop
  | .finish p => p

/-- Why a reader stops. -/
inductive Halt
  /-- The text has a fault. -/
  | fault (why : ReadFault)
  /-- A lexeme is to be taken, and none stands ahead. -/
  | nothingAhead (place : Place)
  /-- A form is to be read at the end of the text. -/
  | noForm (place : Place)
  /-- A source is to be cut where no character begins. -/
  | badCut (start stop : Nat)
  /-- There is no end with this much fuel. -/
  | outOfFuel

/-- How it is reported.  A bad cut is not reported, for the program ends with it, and neither is
what has no end. -/
def Halt.diagnostic? : Halt → Option Diagnostic
  | .fault why => some why.diagnostic
  | .nothingAhead place => some ⟨.unexpectedEnd "Unexpected end of input" place, none, some 201⟩
  | .noForm place => some ⟨.unexpectedEnd "Expected a form" place, none, some 201⟩
  | .badCut _ _ => none
  | .outOfFuel => none

/-- A reader that asks for lexemes one at a time. -/
structure Lookahead where
  /-- The whole text. -/
  text : Text
  /-- Where the lexer stands. -/
  cursor : Cursor
  /-- What stands ahead, read but not taken; nothing does once the lexer has rejected something. -/
  ahead : Option Ahead
  /-- The position behind what was taken last. -/
  lastStop : Position

/-- What a step of the lexer puts ahead. -/
def Step.ahead : Step → Except Halt Ahead
  | .lexeme l _ => .ok (.lexeme l)
  | .finished m => .ok (.finish m.position)
  | .rejected x _ => .error (.fault (.rejected x))

/-- A reader at the beginning of a text. -/
def Lookahead.ofText (t : Text) (firstLine : Nat) : Except Halt Lookahead :=
  let step := (Cursor.ofText t firstLine).next
  step.ahead.map fun a => ⟨t, step.after, some a, Position.first 0⟩

/-- What is done with a reader: it goes on to other states, and it may be stopped. -/
abbrev Descent := ExceptT Halt (StateM Lookahead)

namespace Descent

/-- What stands ahead is taken, and the next lexeme is put ahead in its place. -/
def take : Descent Ahead := do
  let s ← get
  match s.ahead with
  | none => throw (.nothingAhead s.cursor.position.toPlace)
  | some a =>
      let step := s.cursor.next
      set { s with cursor := step.after, ahead := none, lastStop := a.stop }
      let next ← MonadExcept.ofExcept step.ahead
      modify fun s => { s with ahead := some next }
      return a

mutual

/-- The next form. -/
def parseForm : Nat → Descent Form
  | 0 => throw .outOfFuel
  | fuel + 1 => do
      match ← take with
      | .finish p => throw (.noForm p.toPlace)
      | .lexeme l =>
          match l.token with
          | .scalar s => return .atom s none
          | .closing closer => throw (.fault (.unmatched closer l.start.toPlace))
          | .opening kind =>
              let items ← parseItems fuel kind l.start.toPlace []
              if kind = .map ∧ items.length % 2 = 1 then
                throw (.fault (.oddMap items.length l.start.toPlace))
              else return .node kind items none

/-- The items of a collection that was opened at the given place, behind those read so far. -/
def parseItems : Nat → Kind → Place → List Form → Descent (List Form)
  | 0, _, _, _ => throw .outOfFuel
  | fuel + 1, kind, place, items => do
      match (← get).ahead with
      | some (.lexeme l) =>
          if l.token = .closing kind.closer then
            let _ ← take
            return items
          else
            let form ← parseForm fuel
            parseItems fuel kind place (items ++ [form])
      | _ => throw (.fault (.unclosed kind place))

end

/-- The next top-level form, if there is one.  Its source is cut out of the text by bytes. -/
def readForm (fuel : Nat) : Descent (Option TopForm) := do
  match (← get).ahead with
  | some (.lexeme l) =>
      let form ← parseForm fuel
      let s ← get
      match byteSlice? s.text l.start.byte s.lastStop.byte with
      | some source =>
          let seed := Span.seed source l.start.line l.start.offset
          return some ⟨(form.attach seed).form, seed⟩
      | none => throw (.badCut l.start.byte s.lastStop.byte)
  | _ => return none

/-- All top-level forms that are left. -/
def readAll : Nat → Descent (List TopForm)
  | 0 => throw .outOfFuel
  | fuel + 1 => do
      match ← readForm fuel with
      | some top => return top :: (← readAll fuel)
      | none => return []

/-! ### Runs -/

/-- What comes of it, from the given state, and the state then. -/
def run {α : Type} (x : Descent α) (s : Lookahead) : Except Halt α × Lookahead :=
  (ExceptT.run x).run s

variable {α β : Type} (s : Lookahead)

@[simp] theorem run_pure (a : α) : run (pure a) s = (.ok a, s) := rfl

@[simp] theorem run_throw (e : Halt) : run (throw e : Descent α) s = (.error e, s) := rfl

@[simp] theorem run_get : run get s = (.ok s, s) := rfl

@[simp] theorem run_set (s' : Lookahead) : run (set s') s = (.ok (), s') := rfl

@[simp] theorem run_modify (f : Lookahead → Lookahead) : run (modify f) s = (.ok (), f s) := rfl

@[simp] theorem run_ofExcept (e : Except Halt α) : run (MonadExcept.ofExcept e) s = (e, s) := by
  cases e <;> rfl

theorem run_bind_eq (x : Descent α) (f : α → Descent β) :
    run (x >>= f) s = ExceptT.bindCont f (run x s).1 (run x s).2 := rfl

theorem run_bind_ok {x : Descent α} {s s' : Lookahead} {a : α} (h : run x s = (.ok a, s'))
    (f : α → Descent β) : run (x >>= f) s = run (f a) s' := by
  rw [run_bind_eq, h]
  rfl

theorem run_bind_error {x : Descent α} {s s' : Lookahead} {e : Halt} (h : run x s = (.error e, s'))
    (f : α → Descent β) : run (x >>= f) s = (.error e, s') := by
  rw [run_bind_eq, h]
  rfl

end Descent

/-! ### What a reader with one lexeme ahead shows of the text -/

namespace Lookahead

/-- The lexemes that are left, up to a rejection if there is one: the first of them stands ahead,
and the others are those in front of the lexer.  If none is left, none stands ahead. -/
def Shows (rejection : Option Rejection) (s : Lookahead) : List Lexeme → Prop
  | [] => ∀ l, s.ahead ≠ some (.lexeme l)
  | l :: rest => s.ahead = some (.lexeme l) ∧ s.cursor.stream = ⟨rest, rejection⟩

variable {s : Lookahead} {rejection : Option Rejection} {l : Lexeme} {rest : List Lexeme}

open Descent

/-- The state in which a lexeme has been taken and the next one is ahead. -/
theorem run_take_of_next (hs : s.ahead = some (.lexeme l)) {a : Ahead}
    (hnext : s.cursor.next.ahead = .ok a) :
    run take s = (.ok (.lexeme l),
      { s with cursor := s.cursor.next.after, ahead := some a, lastStop := l.stop }) := by
  rw [take, run_bind_ok (run_get s), hs]
  dsimp only
  rw [run_bind_ok (run_set ..), hnext, run_bind_ok (run_ofExcept ..), run_bind_ok (run_modify ..)]
  rfl

/-- A lexeme is taken **once the next one is known**. -/
theorem run_take (h : s.Shows rejection (l :: rest)) (hready : rejection = none ∨ rest ≠ []) :
    ∃ s', run take s = (.ok (.lexeme l), s') ∧ s'.text = s.text ∧ s'.lastStop = l.stop
      ∧ s'.Shows rejection rest := by
  obtain ⟨hs, hstream⟩ := h
  cases hnext : s.cursor.next with
  | lexeme l' m =>
      have htake := run_take_of_next hs (a := .lexeme l') (by rw [hnext]; rfl)
      rw [Cursor.stream_of_lexeme hnext] at hstream
      obtain ⟨rfl, rfl⟩ : l' :: m.stream.lexemes = rest ∧ m.stream.rejection = rejection :=
        LexemeStream.mk.inj hstream
      refine ⟨_, htake, rfl, rfl, rfl, ?_⟩
      rw [hnext]
      rfl
  | finished m =>
      have htake := run_take_of_next hs (a := .finish m.position) (by rw [hnext]; rfl)
      rw [Cursor.stream_of_finished hnext] at hstream
      obtain ⟨rfl, rfl⟩ := LexemeStream.mk.inj hstream
      exact ⟨_, htake, rfl, rfl, by intro l' hl'; cases hl'⟩
  | rejected x m =>
      rw [Cursor.stream_of_rejected hnext] at hstream
      obtain ⟨rfl, rfl⟩ := LexemeStream.mk.inj hstream
      simp at hready

/-- A lexeme with a rejection right behind it **is not taken**, and nothing is ahead any more. -/
theorem run_take_rejected {x : Rejection} (h : s.Shows (some x) [l]) :
    ∃ s', run take s = (.error (.fault (.rejected x)), s') ∧ s'.text = s.text
      ∧ s'.Shows (some x) [] := by
  obtain ⟨hs, hstream⟩ := h
  cases hnext : s.cursor.next with
  | lexeme l' m =>
      rw [Cursor.stream_of_lexeme hnext] at hstream
      cases (LexemeStream.mk.inj hstream).1
  | finished m =>
      rw [Cursor.stream_of_finished hnext] at hstream
      cases (LexemeStream.mk.inj hstream).2
  | rejected x' m =>
      rw [Cursor.stream_of_rejected hnext] at hstream
      obtain rfl : x' = x := Option.some_inj.1 (LexemeStream.mk.inj hstream).2
      have htake : run take s = (.error (.fault (.rejected x')),
          { s with cursor := s.cursor.next.after, ahead := none, lastStop := l.stop }) := by
        rw [take, run_bind_ok (run_get s), hs]
        dsimp only
        rw [run_bind_ok (run_set ..), hnext]
        exact run_bind_error (run_ofExcept ..) _
      exact ⟨_, htake, rfl, by intro l' hl'; cases hl'⟩

end Lookahead

end EdnSpans
