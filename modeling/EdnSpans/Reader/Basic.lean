/-
**Reading the top-level forms of a text.**

A reader holds the lexemes of a text that have not been used yet.  Each call takes the lexemes of
one form; after a fault in the arrangement of the lexemes reading goes on behind it, and after a
rejection nothing more is read.

Every form comes with its *seed*, the span from its first lexeme to its last; the form carries it at
its root if it can.

Main definitions:

* `EdnSpans.TopForm` — a top-level form and its seed;
* `EdnSpans.Reader`, `EdnSpans.Reader.ofText` — the lexemes that are left;
* `EdnSpans.Reader.readForm`, `EdnSpans.Reader.readAll` — the next form, and all of them;
* `EdnSpans.readForms` — **the top-level forms of a text**.

Main results:

* `EdnSpans.Reader.length_pending_readForm` — every form takes at least one lexeme.
-/
import EdnSpans.Reader.Tree

set_option relaxedAutoImplicit false
set_option autoImplicit false

namespace EdnSpans

/-- A top-level form and the span it was read from, which is kept beside the form because not every
form can carry it. -/
structure TopForm where
  /-- The form. -/
  form : Form
  /-- The span from its first lexeme to its last. -/
  seed : Span

/-- The lexemes of a text that have not been used yet. -/
structure Reader where
  /-- The whole text. -/
  text : Text
  /-- The lexemes that are left. -/
  pending : List Lexeme
  /-- The rejection that follows them; without one, the text ends after them. -/
  rejection : Option Rejection

namespace Reader

/-- A reader of a text whose first line has the given number.  There is none if the text begins
with something that is no lexeme. -/
def ofText (t : Text) (firstLine : Nat) : Except ReadFault Reader :=
  match LexemeStream.ofText t firstLine with
  | ⟨[], some r⟩ => .error (.rejected r)
  | ⟨lexemes, rejection⟩ => .ok ⟨t, lexemes, rejection⟩

/-- The top-level form between two positions of the text. -/
def topForm (r : Reader) (form : Form) (start stop : Position) : TopForm :=
  let seed := Span.seed (Text.slice r.text start.offset stop.offset) start.line start.offset
  ⟨(form.attach seed).form, seed⟩

/-- The next top-level form, if there is one, and the reader after it. -/
def readForm (r : Reader) : Except ReadFault (Option TopForm) × Reader :=
  match r.pending with
  | [] => (.ok none, r)
  | l :: rest =>
      let reading := readTree r.rejection [] l rest
      (reading.outcome.map fun (form, stop) => some (r.topForm form l.start stop),
        { r with pending := reading.rest })

/-- Every form, and every fault, takes at least one lexeme. -/
theorem length_pending_readForm {r : Reader} (h : r.readForm.1 ≠ .ok none) :
    r.readForm.2.pending.length < r.pending.length := by
  unfold readForm at h ⊢
  split at h
  · exact absurd rfl h
  · next l rest e =>
      rw [e]
      exact Nat.lt_succ_of_le (length_rest_readTree _ _ _ _)

/-- The outcomes of the next `n` calls, and the reader after them. -/
def readMany : Nat → Reader → List (Except ReadFault (Option TopForm)) × Reader
  | 0, r => ([], r)
  | n + 1, r =>
      let (outcome, r) := r.readForm
      let (outcomes, r) := readMany n r
      (outcome :: outcomes, r)

/-- All top-level forms that are left, or the first fault among them. -/
def readAll (r : Reader) : Except ReadFault (List TopForm) :=
  match _h : r.readForm with
  | (.ok none, _) => .ok []
  | (.ok (some form), rest) => rest.readAll.map (form :: ·)
  | (.error fault, _) => .error fault
termination_by r.pending.length
decreasing_by
  have := length_pending_readForm (r := r) (by rw [_h]; simp)
  rwa [_h] at this

end Reader

/-- The top-level forms of a text whose first line has the given number. -/
def readForms (t : Text) (firstLine : Nat) : Except ReadFault (List TopForm) :=
  (Reader.ofText t firstLine).bind Reader.readAll

/-- The first top-level form of a text, without its seed. -/
def readFirst (t : Text) : Except ReadFault (Option Form) :=
  (readForms t 1).map fun forms => forms.head?.map fun top => top.form.setSpan none

end EdnSpans
