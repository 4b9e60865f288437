/-
**Sessions.**

A session holds a current form, a seed, and the last two attributed trees, and answers commands one
after another.  A command that fails leaves the session as it was.

Main definitions:

* `EdnSpans.Session` — the state;
* `EdnSpans.Command`, `EdnSpans.Reply` — what is asked, and what is answered;
* `EdnSpans.SessionFault` — why a command fails;
* `EdnSpans.Session.run`, `EdnSpans.Session.step` — **one command**.

Main results:

* `EdnSpans.Session.step_of_error` — a command that fails changes nothing.
-/
import EdnSpans.Document

set_option relaxedAutoImplicit false
set_option autoImplicit false

namespace EdnSpans

/-- The state of a session. -/
structure Session where
  /-- The options of reading and attribution. -/
  options : Options := {}
  /-- The current form. -/
  form : Option Form := none
  /-- The current seed. -/
  seed : Option Span := none
  /-- The last attributed tree. -/
  attributed : Option Attributed := none
  /-- The attributed tree before that. -/
  previous : Option Attributed := none

/-- What is asked of a session. -/
inductive Command
  /-- Take new options. -/
  | setOptions (options : Options)
  /-- Read a text and take its form with the given index. -/
  | read (text : Text) (index : Nat)
  /-- Take a form. -/
  | setForm (form : Form)
  /-- Take a seed. -/
  | setSeed (seed : Span)
  /-- Attribute the form from the span at its root. -/
  | attribute
  /-- Attribute the form from the seed. -/
  | attributeFrom
  /-- Attach a span to the form. -/
  | attach (span : Span)
  /-- Drop the span at the root of the form. -/
  | detach
  /-- Show the form. -/
  | tree
  /-- Show the node of the form at a path. -/
  | get (path : NodePath)
  /-- Go down to the node of the form at a path. -/
  | focus (path : NodePath)
  /-- Show the span of the node at a path of the attributed tree. -/
  | spanAt (path : NodePath)
  /-- Show the span of the root of the attributed tree. -/
  | root
  /-- Compare the last two attributed trees. -/
  | same
  /-- Export the attributed tree. -/
  | exportTree
  /-- Compare the spans of the attributed tree with those of their parents. -/
  | audit

/-- What a session answers. -/
inductive Reply
  | done
  /-- How many forms were read, and the one that was taken. -/
  | readings (count : Nat) (taken : Option TopForm)
  | text (text : Text)
  | span (span : Option Span)
  | attributed (tree : Attributed)
  | attachment (attachment : Attachment)
  | form (form : Option Form)
  | focused (form : Option Form)
  | verdict (b : Bool)
  | audits (audits : List Audit)

/-- Why a command fails. -/
inductive SessionFault
  | noForm
  | noSeed
  | noAttributed
  | unreadable (fault : ReadFault)
  | missingSeed (fault : MissingSeed)

namespace Session

/-- The current form. -/
def needForm (s : Session) : Except SessionFault Form :=
  match s.form with
  | some f => .ok f
  | none => .error .noForm

/-- The current seed. -/
def needSeed (s : Session) : Except SessionFault Span :=
  match s.seed with
  | some seed => .ok seed
  | none => .error .noSeed

/-- The last attributed tree. -/
def needAttributed (s : Session) : Except SessionFault Attributed :=
  match s.attributed with
  | some a => .ok a
  | none => .error .noAttributed

/-- The session after an attribution. -/
def store (s : Session) (a : Attributed) : Session :=
  { s with previous := s.attributed, attributed := some a, form := some a.form }

/-- The last two attributed trees are equal; so are two that do not exist. -/
def isSame (s : Session) : Bool :=
  match s.attributed, s.previous with
  | some a, some b => a.same b
  | none, none => true
  | _, _ => false

/-- The answer to a command, and the session after it. -/
def run (s : Session) : Command → Except SessionFault (Reply × Session)
  | .setOptions options => .ok (.done, { s with options := options })
  | .read text index =>
      match readForms text s.options.firstLine with
      | .error fault => .error (.unreadable fault)
      | .ok forms =>
          match forms[index]? with
          | none => .ok (.readings forms.length none, s)
          | some top =>
              .ok (.readings forms.length (some top),
                { s with form := some top.form, seed := some top.seed })
  | .setForm form => .ok (.text form.text, { s with form := some form })
  | .setSeed seed => .ok (.span (some seed), { s with seed := some seed })
  | .attribute => do
      let form ← s.needForm
      match form.attribute s.options with
      | .error fault => .error (.missingSeed fault)
      | .ok a => .ok (.attributed a, s.store a)
  | .attributeFrom => do
      let seed ← s.needSeed
      let form ← s.needForm
      let a := form.attributeFrom s.options seed
      .ok (.attributed a, s.store a)
  | .attach span => do
      let form ← s.needForm
      let attachment := form.attach span
      .ok (.attachment attachment, { s with form := some attachment.form })
  | .detach => do
      let form ← s.needForm
      let bare := form.setSpan none
      .ok (.form (some bare), { s with form := some bare })
  | .tree => do
      let form ← s.needForm
      .ok (.form (some form), s)
  | .get path => do
      let form ← s.needForm
      .ok (.form (form.get? path), s)
  | .focus path => do
      let form ← s.needForm
      match form.get? path with
      | none => .ok (.focused none, s)
      | some below => .ok (.focused (some below), { s with form := some below })
  | .spanAt path => do
      let a ← s.needAttributed
      .ok (.span (a.spanAt? path), s)
  | .root => do
      let a ← s.needAttributed
      .ok (.span a.root?, s)
  | .same => .ok (.verdict s.isSame, s)
  | .exportTree => do
      let a ← s.needAttributed
      .ok (.text a.exportText, s)
  | .audit => do
      let a ← s.needAttributed
      .ok (.audits a.audit, s)

/-- The answer to a command or the fault, and the session after it. -/
def step (s : Session) (command : Command) : Except SessionFault Reply × Session :=
  match s.run command with
  | .ok (reply, s) => (.ok reply, s)
  | .error fault => (.error fault, s)

/-- A command that fails changes nothing. -/
theorem step_of_error {s : Session} {command : Command} {fault : SessionFault}
    (h : (s.step command).1 = .error fault) : (s.step command).2 = s := by
  unfold step at h ⊢
  split at h
  · simp at h
  · rfl

end Session

end EdnSpans
