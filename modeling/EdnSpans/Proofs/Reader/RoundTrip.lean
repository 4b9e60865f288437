/-
**Printing and reading.**

The canonical text of a form puts single spaces between its items and nothing else, which is just
enough to keep the lexemes apart.  So it is read back as the form, with the extents that the printer
had in mind.  The forms for which this makes sense are the readable ones; and apart from
floating-point numbers, of which nothing is said here, these are all the forms that the reader ever
produces.

Main definitions:

* `EdnSpans.Form.Readable` — a form whose scalars are readable and whose maps have pairs for
  entries;
* `EdnSpans.Form.FloatFree` — a form without floating-point numbers.

Main results:

* `EdnSpans.Form.readsBack` — the text of a readable form is read as that form wherever it stands;
* `EdnSpans.Parse.readable_form` — what was read is readable;
* `EdnSpans.readForms_text` — **the canonical text of a readable form is read as that form**, and
  only readable forms are read.
-/
import EdnSpans.Proofs.Form.Nodes
import EdnSpans.Proofs.Reader.Layout
import EdnSpans.Proofs.Token.Canonical

set_option relaxedAutoImplicit false
set_option autoImplicit false

namespace EdnSpans

open Text

/-! ### Readable forms -/

namespace Form

/-- What is required of a single node: a scalar has to be readable, and the children of a map are
its keys and values in turn. -/
def ReadableNode : Form → Prop
  | .atom s _ => s.Readable
  | .node kind cs _ => kind = .map → cs.length % 2 = 0

instance : DecidablePred ReadableNode
  | .atom s _ => inferInstanceAs (Decidable s.Readable)
  | .node _ _ _ => inferInstanceAs (Decidable (_ → _))

/-- All nodes of the form are fit to be read. -/
def Readable (f : Form) : Prop := f.Throughout ReadableNode

/-- No node of the form is a floating-point number. -/
def FloatFree (f : Form) : Prop := f.Throughout fun g => ∀ x m, g ≠ .atom (.float x) m

theorem readable_setSpan {f : Form} {m : Option Span} (h : f.Readable) :
    (f.setSpan m).Readable := by
  obtain ⟨hroot, hchildren⟩ := throughout_iff.1 h
  refine throughout_iff.2 ⟨?_, by rwa [children_setSpan]⟩
  cases f with
  | atom s _ => exact hroot
  | node kind cs _ => exact hroot

end Form

/-! ### From the text to the lexemes -/

theorem Closer.separates (closer : Closer) (rest : Text) : Separates (closer.char :: rest) := by
  rintro c ⟨⟩
  cases closer <;> decide

namespace Cursor

/-- The cursor behind a gap and a word, in front of the given text. -/
def behind (k : Cursor) (gap word rest : Text) : Cursor := ⟨rest, (k.position.after gap).after word⟩

/-- The extent of a word behind a gap. -/
def extentBehind (k : Cursor) (gap word : Text) : Extent :=
  ⟨k.position.after gap, (k.position.after gap).after word⟩

theorem passes_of_readsAs {k : Cursor} {gap word rest : Text} {token : Token}
    (hk : k.rest = gap ++ (word ++ rest)) (h : Token.ReadsAs word rest token) :
    k.Passes gap word ((k.extentBehind gap word).lexeme token) (k.behind gap word rest) :=
  ⟨hk, h, rfl, rfl, rfl⟩

/-- From one cursor to another there is **a parse of the form**, which begins behind the gap. -/
def Reads (k : Cursor) (gap : Text) (f : Form) (m : Cursor) : Prop :=
  ∃ p : Parse, p.Paired ∧ p.form = f.bare ∧ p.extent.start = k.position.after gap
    ∧ Run (Gap false) k p.lexemes m

/-- From one cursor to another there are parses of the forms. -/
def ReadsAll (k : Cursor) (fs : List Form) (m : Cursor) : Prop :=
  ∃ ps : List Parse, (∀ p ∈ ps, p.Paired) ∧ ps.map Parse.form = fs.map Form.bare
    ∧ Run (Gap false) k (ps.flatMap Parse.lexemes) m

variable {k k₁ k₂ m : Cursor} {f : Form} {fs : List Form} {gap : Text}

theorem ReadsAll.cons (hf : k.Reads gap f k₁) (hfs : k₁.ReadsAll fs m) :
    k.ReadsAll (f :: fs) m := by
  obtain ⟨p, hp, hform, -, hrun⟩ := hf
  obtain ⟨ps, hps, hforms, hruns⟩ := hfs
  refine ⟨p :: ps, List.forall_mem_cons.2 ⟨hp, hps⟩, ?_, ?_⟩
  · rw [List.map_cons, List.map_cons, hform, hforms]
  · rw [List.flatMap_cons]
    exact Run.append_iff.2 ⟨k₁, hrun, hruns⟩

/-- A collection is read **from its delimiters and its items**. -/
theorem Reads.node {kind : Kind} {o c : Extent} {span : Option Span}
    (hgap : Gap false gap) (hopen : k.Passes gap kind.opener (o.lexeme (.opening kind)) k₁)
    (hitems : k₁.ReadsAll fs k₂) (heven : kind = .map → fs.length % 2 = 0)
    (hclose : k₂.Passes [] [kind.closer.char] (c.lexeme (.closing kind.closer)) m) :
    k.Reads gap (.node kind fs span) m := by
  obtain ⟨ps, hps, hforms, hrun⟩ := hitems
  refine ⟨.branch kind o ps c, (Parse.paired_branch kind o c ps).2 ⟨?_, hps⟩, ?_,
    hopen.start_eq, ?_⟩
  · have hlength : ps.length = fs.length := by simpa using congrArg List.length hforms
    rwa [hlength]
  · rw [Parse.form_branch, hforms, Form.bare_node]
  · rw [Parse.lexemes_branch]
    exact .cons hgap hopen (Run.append_iff.2 ⟨k₂, hrun, .cons .nil hclose (.nil m)⟩)

end Cursor

namespace Form

/-- The text of a form is read as the form, wherever it stands: behind any gap, and in front of
whatever is not a part of a name. -/
def ReadsBack (f : Form) : Prop :=
  ∀ (k : Cursor) (gap rest : Text), Gap false gap → k.rest = gap ++ (f.text ++ rest) →
    Separates rest → k.Reads gap f (k.behind gap f.text rest)

theorem separates_textMore {fs : List Form} {rest : Text} (hrest : Separates rest) :
    Separates (textMore fs ++ rest) := by
  cases fs with
  | nil => exact hrest
  | cons f fs =>
      rw [textMore]
      rintro c ⟨⟩
      decide

theorem readsAll_textMore {fs : List Form} (ih : ∀ f ∈ fs, f.ReadsBack) {k : Cursor} {rest : Text}
    (hk : k.rest = textMore fs ++ rest) (hrest : Separates rest) :
    k.ReadsAll fs (k.behind [] (textMore fs) rest) := by
  induction fs generalizing k with
  | nil =>
      obtain ⟨text, position⟩ := k
      obtain rfl : text = rest := hk
      exact ⟨[], by simp, rfl, .nil _⟩
  | cons f fs ihfs =>
      have hspace : Gap false [' '] := .blank (by decide) .nil
      rw [textMore, ← List.singleton_append, List.append_assoc, List.append_assoc] at hk
      have hf := ih f (List.mem_cons_self ..) k [' '] _ hspace hk (separates_textMore hrest)
      have hfs := ihfs (fun g hg => ih g (List.mem_cons_of_mem _ hg))
        (k := k.behind [' '] f.text (textMore fs ++ rest)) rfl
      have hbehind : k.behind [] (textMore (f :: fs)) rest
          = (k.behind [' '] f.text (textMore fs ++ rest)).behind [] (textMore fs) rest := by
        rw [textMore]
        simp [Cursor.behind]
      rw [hbehind]
      exact .cons hf hfs

theorem readsAll_textAll {fs : List Form} (ih : ∀ f ∈ fs, f.ReadsBack) {k : Cursor} {rest : Text}
    (hk : k.rest = textAll fs ++ rest) (hrest : Separates rest) :
    k.ReadsAll fs (k.behind [] (textAll fs) rest) := by
  cases fs with
  | nil => exact readsAll_textMore ih hk hrest
  | cons f fs =>
      rw [textAll, List.append_assoc] at hk
      have hf := ih f (List.mem_cons_self ..) k [] _ .nil hk (separates_textMore hrest)
      have hfs := readsAll_textMore (fun g hg => ih g (List.mem_cons_of_mem _ hg))
        (k := k.behind [] f.text (textMore fs ++ rest)) rfl hrest
      have hbehind : k.behind [] (textAll (f :: fs)) rest
          = (k.behind [] f.text (textMore fs ++ rest)).behind [] (textMore fs) rest := by
        rw [textAll]
        simp [Cursor.behind]
      rw [hbehind]
      exact .cons hf hfs

/-- The text of a readable form **is read as that form**, wherever it stands. -/
theorem readsBack {f : Form} (hf : f.Readable) : f.ReadsBack := by
  induction f using Form.induct with
  | atom s span =>
      intro k gap rest hgap hk hrest
      have hs : s.Readable := throughout_atom.1 hf
      have passes := Cursor.passes_of_readsAs hk (Scalar.readsAs_text hs hrest)
      exact ⟨.leaf s _, trivial, rfl, rfl, .cons hgap passes (.nil _)⟩
  | node kind cs span ih =>
      intro k gap rest hgap hk hrest
      obtain ⟨heven, hchildren⟩ := throughout_node.1 hf
      have hk' : k.rest = gap ++ (kind.opener ++ (textAll cs ++ (kind.closer.char :: rest))) := by
        rw [hk, text]
        simp
      have hopen := Cursor.passes_of_readsAs hk' (kind.readsAs_opener _)
      -- a closer ends the name before it, so nothing has to stand between the last item and it
      have hitems := readsAll_textAll (fun c hc => ih c hc (hchildren c hc))
        (k := k.behind gap kind.opener _) rfl (kind.closer.separates rest)
      have hbehind : k.behind gap (Form.node kind cs span).text rest
          = ((k.behind gap kind.opener (textAll cs ++ kind.closer.char :: rest)).behind []
              (textAll cs) (kind.closer.char :: rest)).behind [] [kind.closer.char] rest := by
        rw [text]
        simp [Cursor.behind]
      rw [hbehind]
      exact .node hgap hopen hitems heven
        (Cursor.passes_of_readsAs rfl (kind.closer.readsAs_char rest))

end Form

/-! ### From the lexemes to the form -/

theorem Cursor.ended_of_rest_eq_nil {k : Cursor} (h : k.rest = []) : k.Ended := by
  simp [Ended, next, skipGap, h, gapLength, advance, Step.goesOn]

/-- **What was read is readable**, floating-point numbers apart. -/
theorem Parse.readable_form {t : Text} {firstLine : Nat} {p : Parse}
    (h : p.StandsIn t firstLine (Gap false)) (hp : p.Paired) (hfree : p.form.FloatFree) :
    p.form.Readable := by
  induction p using Parse.induct with
  | leaf s e =>
      obtain ⟨k, m, -, -, hrun⟩ := h
      obtain ⟨gap, word, -, passes⟩ := hrun.leaf
      have hs : ∀ x, s ≠ .float x := by
        rintro x rfl
        exact Form.throughout_atom.1 hfree x none rfl
      exact Form.throughout_atom.2 (passes.reads.readable hs)
  | branch kind o items c ih =>
      obtain ⟨heven, hitems⟩ := (paired_branch kind o c items).1 hp
      rw [form_branch] at hfree ⊢
      refine Form.throughout_node.2 ⟨fun hkind => by simpa using heven hkind, ?_⟩
      intro g hg
      obtain ⟨q, hq, rfl⟩ := List.mem_map.1 hg
      exact ih q hq (h.item .nil hq) (hitems q hq) ((Form.throughout_node.1 hfree).2 _ hg)

theorem Form.FloatFree.of_setSpan {f : Form} {m : Option Span} (h : (f.setSpan m).FloatFree) :
    f.FloatFree := by
  obtain ⟨hroot, hchildren⟩ := throughout_iff.1 h
  refine throughout_iff.2 ⟨?_, by rwa [children_setSpan] at hchildren⟩
  rintro x n rfl
  exact hroot x m rfl

/-- The canonical text of a readable form is read as that form, up to the span of its root, and its
seed is the whole text. -/
theorem readForms_text_of_readable {f : Form} (hf : f.Readable) (firstLine : Nat) :
    ∃ top, readForms f.text firstLine = .ok [top] ∧ top.form.setSpan none = f.bare
      ∧ top.seed = Span.seed f.text firstLine 0 := by
  obtain ⟨p, hp, hform, hstart, hrun⟩ := Form.readsBack hf (Cursor.ofText f.text firstLine) [] []
    .nil (List.append_nil _).symm separates_nil
  have hps : Parses f.text firstLine [p] := by
    refine ⟨?_, by simpa using hp⟩
    rw [List.flatMap_singleton]
    exact Cursor.ofEvents_eq_iff.2 ⟨_, hrun, Cursor.ended_of_rest_eq_nil rfl⟩
  refine ⟨p.top f.text, readForms_eq_ok_iff.2 ⟨[p], hps, rfl⟩, ?_, ?_⟩
  · have hroot : (p.top f.text).form.get? [] = some (p.top f.text).form := rfl
    obtain ⟨q, hq, hbare⟩ := Parse.get?_top hroot
    cases hq
    rw [hbare, hform]
  · obtain ⟨-, -, -, -, -, hstop, -⟩ := hrun.extent
    have hstop : p.extent.stop = (Position.first firstLine).after f.text := hstop.symm
    have hstart : p.extent.start = Position.first firstLine := hstart
    rw [Parse.top, hstart, hstop, Position.offset_after]
    simp [Position.first]

/-- **The canonical text of a readable form is read as that form**, whatever the number of the first
line: there is one form, which differs from the printed one at most in the span of its root, and its
seed is the whole text.  Conversely, every form that is read from a text is readable, if no
floating-point number is in it. -/
theorem readForms_text :
    (∀ (f : Form) (firstLine : Nat), f.Readable →
      ∃ top, readForms f.text firstLine = .ok [top] ∧ top.form.setSpan none = f.bare
        ∧ top.seed = Span.seed f.text firstLine 0)
      ∧ ∀ (t : Text) (firstLine : Nat) (tops : List TopForm), readForms t firstLine = .ok tops →
          ∀ top ∈ tops, top.form.FloatFree → top.form.Readable := by
  refine ⟨fun f firstLine hf => readForms_text_of_readable hf firstLine, ?_⟩
  intro t firstLine tops h top htop hfree
  obtain ⟨ps, hps, rfl⟩ := readForms_eq_ok_iff.1 h
  obtain ⟨p, hp, rfl⟩ := List.mem_map.1 htop
  obtain ⟨span, hspan⟩ := p.form_top t
  rw [hspan] at hfree ⊢
  have hreadable := Parse.readable_form (hps.standsIn hp) (hps.paired p hp) hfree.of_setSpan
  exact Form.readable_setSpan hreadable

/-- Quotes, backslashes and line breaks, a letter that also begins the names of characters, the
least integer, and names that begin like something else only at first sight. -/
theorem readForms_text_escapes :
    let f : Form := .node .map
      [.atom (.keyword [':', ':']) none, .atom (.string ['"', '\\', '\n', 'u']) none,
        .node .set [.atom (.symbol ['-', '#']) none] none,
        .node .vector [.atom (.char '\n') none, .atom (.char 'u') none,
          .atom (.integer Int64.minValue) none] none] none
    f.Readable ∧ ∃ top, readForms f.text 7 = .ok [top] ∧ top.form.setSpan none = f
      ∧ top.seed = Span.seed f.text 7 0 ∧ top.form.FloatFree ∧ top.form.Readable := by
  intro f
  have hf : f.Readable := by
    simp only [f, Form.Readable, Form.throughout_node, Form.throughout_atom, List.forall_mem_cons,
      List.not_mem_nil, false_implies, implies_true, and_true]
    decide +kernel
  have hfree : f.FloatFree := by simp [f, Form.FloatFree]
  obtain ⟨top, hread, hform, hseed⟩ := readForms_text.1 f 7 hf
  have hform : top.form.setSpan none = f := hform
  have htop : top.form.FloatFree := Form.FloatFree.of_setSpan (hform ▸ hfree)
  exact ⟨hf, top, hread, hform, hseed, htop,
    readForms_text.2 f.text 7 [top] hread top (List.mem_singleton_self top) htop⟩

end EdnSpans
