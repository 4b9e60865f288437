/-
**Which fault of a text is reported.**

Whether the lexemes of a text can be put together to forms is found out without building any form:
it is enough to know, for every collection that is open, its kind, where it was opened and how many
items it has so far.  A machine that keeps this goes over the lexemes up to the first one that
cannot stand where it stands.  The reader takes a lexeme only once the next one is known, so that
what is reported is this violation if another lexeme or the end of the text follows it, and a
rejection otherwise; and if all lexemes can stand where they stand, the collection that was opened
last is reported if the text ends inside it.

Main definitions:

* `EdnSpans.OpenCount`, `EdnSpans.OpenCount.next` — an open collection, and **the machine that
  counts**;
* `EdnSpans.survey` — what it says about the lexemes up to the first violation;
* `EdnSpans.LexemeStream.verdict` — **the fault that has to be reported**;
* `EdnSpans.ReadFault.ReportedAs` — what is told about a fault.

Main results:

* `EdnSpans.OpenCount.next_map_opened` — the machine makes the moves of the reader;
* `EdnSpans.verdict_of_readTree` — the next form and the verdict about the lexemes;
* `EdnSpans.readForms_by_verdict` — **a text is read, or its fault is the one of the verdict**.
-/
import EdnSpans.Proofs.Reader.Descent

set_option relaxedAutoImplicit false
set_option autoImplicit false

namespace EdnSpans

/-! ### A machine that counts -/

/-- A collection that has been opened, as far as it is needed to tell whether it may be closed. -/
structure OpenCount where
  /-- Its kind. -/
  kind : Kind
  /-- Where it was opened. -/
  place : Place
  /-- The number of its items so far. -/
  count : Nat

namespace OpenCount

/-- One more item of the innermost open collection. -/
def item : List OpenCount → List OpenCount
  | [] => []
  | top :: below => { top with count := top.count + 1 } :: below

/-- The open collections after one more lexeme, or why there can be no such lexeme. -/
def next (stack : List OpenCount) (l : Lexeme) : Except ReadFault (List OpenCount) :=
  match l.token with
  | .scalar _ => .ok (item stack)
  | .opening kind => .ok (⟨kind, l.start.toPlace, 0⟩ :: stack)
  | .closing closer =>
      match stack with
      | [] => .error (.unmatched closer l.start.toPlace)
      | top :: below =>
          if top.kind.closer ≠ closer then .error (.unmatched closer l.start.toPlace)
          else if top.kind = .map ∧ top.count % 2 = 1 then .error (.oddMap top.count top.place)
          else .ok (item below)

end OpenCount

/-- What the machine says about a list of lexemes. -/
inductive Survey
  /-- All of them may stand where they stand, and these collections are open behind them. -/
  | sound (stack : List OpenCount)
  /-- One of them may not, for the given reason, and these stand behind it. -/
  | violated (why : ReadFault) (behind : List Lexeme)

/-- The machine goes over the lexemes up to the first violation. -/
def survey (stack : List OpenCount) : List Lexeme → Survey
  | [] => .sound stack
  | l :: rest =>
      match OpenCount.next stack l with
      | .ok stack => survey stack rest
      | .error why => .violated why rest

/-- The fault of a text with the given lexemes, with the given collections open before them.  A
rejection counts for more than a violation at the last lexeme, and for less than an earlier one. -/
def LexemeStream.verdict (stack : List OpenCount) (s : LexemeStream) : Option ReadFault :=
  match survey stack s.lexemes, s.rejection with
  | .violated why _, none => some why
  | .violated why (_ :: _), some _ => some why
  | .violated _ [], some x => some (.rejected x)
  | .sound _, some x => some (.rejected x)
  | .sound (top :: _), none => some (.unclosed top.kind top.place)
  | .sound [], none => none

/-! ### The machine and the reader -/

/-- What the counting machine keeps of an open collection. -/
def Frame.opened (frame : Frame) : OpenCount := ⟨frame.kind, frame.place, frame.items.length⟩

/-- What the counting machine keeps of a move. -/
def Move.opened : Move → Except ReadFault (List OpenCount)
  | .complete _ => .ok []
  | .pending top below => .ok ((top :: below).map Frame.opened)
  | .fault why => .error why

theorem Move.opened_deliver (form : Form) (stack : List Frame) :
    (deliver form stack).opened = .ok (OpenCount.item (stack.map Frame.opened)) := by
  cases stack with
  | nil => rfl
  | cons top below => rfl

/-- The counting machine makes **the moves of the reader**. -/
theorem OpenCount.next_map_opened (stack : List Frame) (l : Lexeme) :
    next (stack.map Frame.opened) l = (Move.of stack l).opened := by
  cases htoken : l.token with
  | scalar s => simp only [next, Move.of, htoken, Move.opened_deliver]
  | opening kind => simp only [next, Move.of, htoken]; rfl
  | closing closer =>
      cases stack with
      | nil => simp only [next, Move.of, htoken, List.map_nil, Move.opened]
      | cons top below =>
          have hopened : top.opened = ⟨top.kind, top.place, top.items.length⟩ := rfl
          simp only [next, Move.of, htoken, List.map_cons, hopened]
          by_cases hcloser : top.kind.closer = closer
          · rw [if_pos hcloser, if_neg (not_not_intro hcloser), Move.close]
            by_cases hodd : top.kind = .map ∧ top.items.length % 2 = 1
            · rw [if_pos hodd, if_pos hodd]
              rfl
            · rw [if_neg hodd, if_neg hodd, Move.opened_deliver]
          · rw [if_neg hcloser, if_pos hcloser]
            rfl

namespace LexemeStream

variable {rejection : Option Rejection} {l : Lexeme} {rest : List Lexeme}

theorem verdict_cons_of_ok {stack stack' : List OpenCount}
    (h : OpenCount.next stack l = .ok stack') :
    verdict stack ⟨l :: rest, rejection⟩ = verdict stack' ⟨rest, rejection⟩ := by
  simp only [verdict, survey, h]

theorem verdict_cons_of_error {stack : List OpenCount} {why : ReadFault}
    (h : OpenCount.next stack l = .error why) (hready : rejection = none ∨ rest ≠ []) :
    verdict stack ⟨l :: rest, rejection⟩ = some why := by
  simp only [verdict, survey, h]
  cases rejection with
  | none => rfl
  | some x =>
      cases rest with
      | nil => simp at hready
      | cons l' rest => rfl

/-- A rejection right behind the last lexeme, **whatever that lexeme leads to**. -/
theorem verdict_singleton_rejected (stack : List OpenCount) (l : Lexeme) (x : Rejection) :
    verdict stack ⟨[l], some x⟩ = some (.rejected x) := by
  simp only [verdict, survey]
  cases OpenCount.next stack l <;> rfl

end LexemeStream

open LexemeStream

/-- The fault of a reading, or else of what is left to be read. -/
def TreeReading.verdict (rejection : Option Rejection) (reading : TreeReading) : Option ReadFault :=
  match reading.outcome with
  | .ok _ => LexemeStream.verdict [] ⟨reading.rest, rejection⟩
  | .error why => some why

/-- The step from the lexemes behind a move to those before it: what the machine says is what is
read, **if it is so behind the move**. -/
theorem verdict_of_ready {rejection : Option Rejection} {rest : List Lexeme}
    (hready : rejection = none ∨ rest ≠ []) (stack : List Frame) (l : Lexeme)
    (ih : ∀ l' rest', rest = l' :: rest' → ∀ top below,
      verdict ((top :: below).map Frame.opened) ⟨l' :: rest', rejection⟩
        = (readTree rejection (top :: below) l' rest').verdict rejection) :
    verdict (stack.map Frame.opened) ⟨l :: rest, rejection⟩
      = (readTree rejection stack l rest).verdict rejection := by
  have hnext := OpenCount.next_map_opened stack l
  rw [readTree_eq_resume hready]
  cases hmove : Move.of stack l with
  | complete form =>
      rw [hmove] at hnext
      exact verdict_cons_of_ok hnext
  | fault why =>
      rw [hmove] at hnext
      exact verdict_cons_of_error hnext hready
  | pending top below =>
      rw [hmove] at hnext
      rw [verdict_cons_of_ok hnext]
      cases rest with
      | nil =>
          obtain rfl : rejection = none := by simpa using hready
          rfl
      | cons l' rest => exact ih l' rest rfl top below

/-- What the machine says about the next lexemes is **what is read from them**. -/
theorem verdict_of_readTree (rejection : Option Rejection) (stack : List Frame) (l : Lexeme)
    (rest : List Lexeme) :
    verdict (stack.map Frame.opened) ⟨l :: rest, rejection⟩
      = (readTree rejection stack l rest).verdict rejection := by
  induction rest generalizing stack l with
  | nil =>
      cases rejection with
      | some x => exact verdict_singleton_rejected ..
      | none => exact verdict_of_ready (.inl rfl) stack l (by simp)
  | cons l' rest ih =>
      refine verdict_of_ready (.inr (List.cons_ne_nil l' rest)) stack l ?_
      intro l₁ rest₁ heq top below
      obtain ⟨rfl, rfl⟩ := List.cons.inj heq
      exact ih (top :: below) l'

/-! ### Texts -/

/-- The fault, if there is one. -/
def faultOf {α : Type} : Except ReadFault α → Option ReadFault
  | .ok _ => none
  | .error why => some why

namespace Reader

/-- The next form, by what the machine says about the lexemes that are left. -/
theorem verdict_of_readForm (r : Reader) :
    match r.readForm with
    | (.ok none, _) => r.pending = []
    | (.ok (some _), r') =>
        verdict [] ⟨r.pending, r.rejection⟩ = verdict [] ⟨r'.pending, r.rejection⟩
    | (.error why, _) => verdict [] ⟨r.pending, r.rejection⟩ = some why := by
  cases hpending : r.pending with
  | nil => rw [readForm_of_nil hpending]
  | cons l rest =>
      have hverdict := verdict_of_readTree r.rejection [] l rest
      rcases hreading : readTree r.rejection [] l rest with ⟨why | read, rest'⟩
      · rw [hreading] at hverdict
        rw [readForm_of_error hpending hreading]
        exact hverdict
      · obtain ⟨form, stop⟩ := read
        rw [hreading] at hverdict
        rw [readForm_of_ok hpending hreading]
        exact hverdict

/-- All forms that are left have **the fault that the machine finds**, or none. -/
theorem faultOf_readAll {r : Reader} (hready : r.rejection = none ∨ r.pending ≠ []) :
    faultOf r.readAll = verdict [] ⟨r.pending, r.rejection⟩ := by
  fun_induction readAll r with
  | case1 r r' hform =>
      have hpending := verdict_of_readForm r
      rw [hform] at hpending
      have hnone : r.rejection = none := by simpa [hpending] using hready
      rw [hpending, hnone]
      rfl
  | case2 r top r' hform ih =>
      have hverdict := verdict_of_readForm r
      rw [hform] at hverdict
      obtain ⟨p, -, -, -, -, hrejection, hlast⟩ := readForm_eq_some hform
      rw [← hrejection] at hlast hverdict
      rw [← hrejection, hverdict, ← ih hlast]
      cases r'.readAll <;> rfl
  | case3 r why r' hform =>
      have hverdict := verdict_of_readForm r
      rw [hform] at hverdict
      exact hverdict.symm

end Reader

/-- The text has the fault that the machine finds, or none. -/
theorem faultOf_readForms (t : Text) (firstLine : Nat) :
    faultOf (readForms t firstLine) = (LexemeStream.ofText t firstLine).verdict [] := by
  rw [readForms_eq_read]
  generalize LexemeStream.ofText t firstLine = s
  rcases s.rejected_or with ⟨x, rfl⟩ | hs
  · rfl
  · rw [LexemeStream.read_eq hs]
    exact Reader.faultOf_readAll hs

/-- What is told about a fault: its number, the place that is blamed, and what is wrong there. -/
def ReadFault.ReportedAs (d : Diagnostic) : ReadFault → Prop
  | .rejected x => d = x.diagnostic
  | .unmatched closer place =>
      d.code = some 203
        ∧ d.problem = .malformed ("Unmatched delimiter " ++ closer.messageName) place
  | .oddMap count place =>
      d.code = some 204
        ∧ d.problem = .malformed
          ("Map literal contains an odd number of forms (" ++ digitString count ++ ")") place
  | .unclosed kind place =>
      d.code = some 202 ∧ d.problem = .unexpectedEnd ("Unclosed " ++ kind.name) place

theorem ReadFault.reportedAs_diagnostic (why : ReadFault) : why.ReportedAs why.diagnostic := by
  cases why with
  | rejected x => rfl
  | unmatched closer place => exact ⟨rfl, rfl⟩
  | unclosed kind place => exact ⟨rfl, rfl⟩
  | oddMap count place => exact ⟨rfl, rfl⟩

/-- A text is read **exactly if the verdict finds no fault** in its lexemes, and otherwise its fault
is the one of the verdict.  A reader with one lexeme ahead comes to the same end, given enough fuel,
and the fault is reported with its number at the place that the machine blames. -/
theorem readForms_by_verdict (t : Text) (firstLine : Nat) :
    (∀ why, readForms t firstLine = .error why
        ↔ (LexemeStream.ofText t firstLine).verdict [] = some why)
      ∧ ((∃ tops, readForms t firstLine = .ok tops)
        ↔ (LexemeStream.ofText t firstLine).verdict [] = none)
      ∧ (∀ more,
        descend (2 * (LexemeStream.ofText t firstLine).lexemes.length + 1 + more) t firstLine
          = (readForms t firstLine).mapError .fault)
      ∧ ∀ why : ReadFault, why.ReportedAs why.diagnostic := by
  rw [← faultOf_readForms]
  refine ⟨?_, ?_, ?_, ReadFault.reportedAs_diagnostic⟩
  · intro why
    cases readForms t firstLine <;> simp [faultOf]
  · cases readForms t firstLine <;> simp [faultOf]
  · intro more
    exact descend_eq_readForms (Nat.le_add_right _ more)

end EdnSpans
