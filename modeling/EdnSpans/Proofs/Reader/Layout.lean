/-
**Where the nodes of a form stand in the text.**

The parses of a text are found in it as runs of lexemes, and with a parse all the parses below it.
So for every node of a form that was read there is a run, from the start of its first lexeme to the
end of its last one, and the positions of both are the positions of the text before them.

Main definitions:

* `EdnSpans.Parse.get?` — the parse of the node at a path;
* `EdnSpans.Parse.StandsIn` — **a parse is a run in a text**;
* `EdnSpans.Extent.span` — the span between two positions of a text.

Main results:

* `EdnSpans.Parse.get?_top` — a node of a form that was read has a parse;
* `EdnSpans.Parses.standsIn`, `EdnSpans.Parse.StandsIn.get?` — the parses of a text stand in it, at
  any depth;
* `EdnSpans.Cursor.Run.branch` — a collection is a run between its delimiters;
* `EdnSpans.Parse.StandsIn.seed_top` — the seed of a form is the span of its parse.
-/
import EdnSpans.Form.Path
import EdnSpans.Proofs.Reader.Parse

set_option relaxedAutoImplicit false
set_option autoImplicit false

namespace EdnSpans

/-! ### Paths -/

namespace Parse

/-- The parses of the items. -/
def items : Parse → List Parse
  | .leaf _ _ => []
  | .branch _ _ items _ => items

/-- The parse of the node at a path. -/
def get? (p : Parse) : NodePath → Option Parse
  | [] => some p
  | i :: path => (p.items[i]?).bind fun q => q.get? path

@[simp] theorem get?_nil (p : Parse) : p.get? [] = some p := rfl

@[simp] theorem get?_cons (p : Parse) (i : Nat) (path : NodePath) :
    p.get? (i :: path) = (p.items[i]?).bind fun q => q.get? path := rfl

theorem children_form (p : Parse) : p.form.children = p.items.map form := by
  cases p with
  | leaf s e => rfl
  | branch k o items c => rw [form_branch]; rfl

theorem get?_form (p : Parse) (path : NodePath) : p.form.get? path = (p.get? path).map form := by
  induction path generalizing p with
  | nil => rfl
  | cons i path ih =>
      rw [Form.get?_cons, children_form, List.getElem?_map, get?_cons]
      cases p.items[i]? with
      | none => rfl
      | some q => exact ih q

theorem form_top (t : Text) (p : Parse) : ∃ span, (p.top t).form = p.form.setSpan span := by
  simp only [top, Form.attach]
  split
  · exact ⟨_, rfl⟩
  · exact ⟨none, p.setSpan_form.symm⟩

/-- Every node of a form that was read **has a parse**: only the root differs from the form of its
parse, and only in its span. -/
theorem get?_top {t : Text} {p : Parse} {path : NodePath} {node : Form}
    (h : (p.top t).form.get? path = some node) :
    ∃ q, p.get? path = some q ∧ node.setSpan none = q.form := by
  obtain ⟨span, htop⟩ := p.form_top t
  rw [htop] at h
  cases path with
  | nil =>
      obtain rfl : p.form.setSpan span = node := by simpa using h
      exact ⟨p, rfl, by rw [← p.setSpan_form]; cases p <;> rfl⟩
  | cons i path =>
      have h' : p.form.get? (i :: path) = some node := by
        rw [Form.get?_cons] at h ⊢
        rwa [Form.children_setSpan] at h
      rw [get?_form] at h'
      obtain ⟨q, hq, rfl⟩ := Option.map_eq_some_iff.1 h'
      exact ⟨q, hq, q.setSpan_form⟩

end Parse

/-! ### Runs of parses -/

namespace Cursor.Run

variable {sort : Text → Prop} {k m : Cursor}

theorem leaf {s : Scalar} {e : Extent} (h : Run sort k (Parse.leaf s e).lexemes m) :
    ∃ gap word, sort gap ∧ k.Passes gap word (e.lexeme (.scalar s)) m := by
  cases h with
  | cons hgap passes tail =>
      cases tail
      exact ⟨_, _, hgap, passes⟩

/-- A collection is a run of its items **between its delimiters**. -/
theorem branch {kind : Kind} {o c : Extent} {items : List Parse}
    (h : Run sort k (Parse.branch kind o items c).lexemes m) :
    ∃ gap gap' k₁ k₂, sort gap ∧ sort gap'
      ∧ k.Passes gap kind.opener (o.lexeme (.opening kind)) k₁
      ∧ Run sort k₁ (items.flatMap Parse.lexemes) k₂
      ∧ k₂.Passes gap' [kind.closer.char] (c.lexeme (.closing kind.closer)) m := by
  rw [Parse.lexemes_branch] at h
  cases h with
  | @cons _ k₁ _ gap word _ _ hgap passes tail =>
      obtain ⟨k₂, hitems, hlast⟩ := append_iff.1 tail
      cases hlast with
      | @cons _ _ _ gap' word' _ _ hgap' passes' tail' =>
          cases tail'
          obtain rfl : word = kind.opener := passes.reads.opening_word
          obtain rfl : word' = [kind.closer.char] := passes'.reads.closing_word
          exact ⟨gap, gap', k₁, k₂, hgap, hgap', passes, hitems, passes'⟩

/-- The text of a collection behind its opener, and where it ends. -/
theorem interior {kind : Kind} {o c : Extent} {gap gap' : Text} {k₁ k₂ : Cursor} {ls : List Lexeme}
    (hopen : k.Passes gap kind.opener (o.lexeme (.opening kind)) k₁) (hitems : Run sort k₁ ls k₂)
    (hclose : k₂.Passes gap' [kind.closer.char] (c.lexeme (.closing kind.closer)) m) :
    ∃ inside, k₁.rest = inside ++ m.rest ∧ c.stop = o.start.after (kind.opener ++ inside) := by
  obtain ⟨passed, hpassed, hposition⟩ := hitems.consumed
  refine ⟨passed ++ (gap' ++ [kind.closer.char]), ?_, ?_⟩
  · rw [hpassed, hclose.rest_eq]
    simp only [List.append_assoc]
  · have ho : k₁.position = o.start.after kind.opener := hopen.position_eq.trans hopen.stop_eq
    have hc : c.stop = (k₂.position.after gap').after [kind.closer.char] := by
      rw [← hclose.start_eq]
      exact hclose.stop_eq
    rw [hc, hposition, ho]
    simp only [Position.after_append]

/-- A parse takes **a gap and a body**, and its extent is that of the body.  That of a collection
begins with the opener. -/
theorem extent {p : Parse} (h : Run sort k p.lexemes m) :
    ∃ gap body, k.rest = gap ++ (body ++ m.rest) ∧ p.extent.start = k.position.after gap
      ∧ p.extent.stop = p.extent.start.after body ∧ m.position = p.extent.stop
      ∧ sort gap ∧ body ≠ [] ∧ ∀ kind, p.form.kind? = some kind → kind.opener <+: body := by
  cases p with
  | leaf s e =>
      obtain ⟨gap, word, hgap, passes⟩ := h.leaf
      have hword : word ≠ [] := by
        obtain ⟨c, w, rfl, -⟩ := passes.reads
        simp
      exact ⟨gap, word, passes.rest_eq, passes.start_eq, passes.stop_eq, passes.position_eq, hgap,
        hword, by simp [Form.kind?]⟩
  | branch kind o items c =>
      obtain ⟨gap, gap', k₁, k₂, hgap, -, hopen, hitems, hclose⟩ := h.branch
      obtain ⟨inside, hinside, hstop⟩ := interior hopen hitems hclose
      refine ⟨gap, kind.opener ++ inside, ?_, hopen.start_eq, hstop, hclose.position_eq, hgap, ?_,
        ?_⟩
      · rw [hopen.rest_eq, hinside, List.append_assoc]
      · simp [kind.opener_ne_nil]
      · rintro kind' ⟨⟩
        exact List.prefix_append ..

/-- A run over several parses is, for each of them, a run over its lexemes. -/
theorem of_mem {ps : List Parse} (h : Run sort k (ps.flatMap Parse.lexemes) m) {p : Parse}
    (hp : p ∈ ps) : ∃ k' m' ls, Run sort k ls k' ∧ Run sort k' p.lexemes m' := by
  obtain ⟨xs, ys, rfl⟩ := List.append_of_mem hp
  rw [List.flatMap_append, List.flatMap_cons] at h
  obtain ⟨k', hxs, htail⟩ := append_iff.1 h
  obtain ⟨m', hrun, -⟩ := append_iff.1 htail
  exact ⟨k', m', _, hxs, hrun⟩

/-- A run may be begun behind the first gap. -/
theorem skip {l : Lexeme} {ls : List Lexeme} (hnil : sort []) (h : Run sort k (l :: ls) m) :
    ∃ gap k', sort gap ∧ k.rest = gap ++ k'.rest ∧ k'.position = k.position.after gap
      ∧ k'.position = l.start ∧ Run sort k' (l :: ls) m := by
  cases h with
  | @cons _ k₁ _ gap word _ _ hgap passes tail =>
      refine ⟨gap, ⟨word ++ k₁.rest, l.start⟩, hgap, passes.rest_eq, passes.start_eq, rfl, ?_⟩
      exact .cons hnil ⟨rfl, passes.reads, rfl, passes.stop_eq, passes.position_eq⟩ tail

end Cursor.Run

/-- A parse **stands in a text**, with gaps of the given sort between its lexemes: they are a run
from where it begins. -/
def Parse.StandsIn (t : Text) (firstLine : Nat) (sort : Text → Prop) (p : Parse) : Prop :=
  ∃ k m, k.Within t firstLine ∧ k.position = p.extent.start ∧ Cursor.Run sort k p.lexemes m

theorem Parse.standsIn_of_run {t : Text} {firstLine : Nat} {sort : Text → Prop} {p : Parse}
    {k m : Cursor} (hnil : sort []) (hk : k.Within t firstLine)
    (h : Cursor.Run sort k p.lexemes m) : p.StandsIn t firstLine sort := by
  obtain ⟨l, ls, hl, hstart, -⟩ := p.lexemes_eq_cons
  rw [hl] at h
  obtain ⟨gap, k', -, hrest, hposition, hk', hrun⟩ := h.skip hnil
  obtain ⟨before, rfl, hbefore⟩ := hk
  refine ⟨k', m, ⟨before ++ gap, ?_, ?_⟩, hk'.trans hstart, by rwa [hl]⟩
  · rw [hrest, List.append_assoc]
  · rw [hposition, hbefore, Position.after_append]

theorem Parse.StandsIn.item {t : Text} {firstLine : Nat} {sort : Text → Prop} {p q : Parse}
    (hnil : sort []) (h : p.StandsIn t firstLine sort) (hq : q ∈ p.items) :
    q.StandsIn t firstLine sort := by
  obtain ⟨k, m, hk, -, hrun⟩ := h
  cases p with
  | leaf s e => simp [items] at hq
  | branch kind o items c =>
      obtain ⟨gap, gap', k₁, k₂, hgap, -, hopen, hitems, -⟩ := hrun.branch
      have hk₁ : k₁.Within t firstLine := hk.run (.cons hgap hopen (.nil k₁))
      obtain ⟨k', m', ls, hbefore, hq⟩ := hitems.of_mem hq
      exact standsIn_of_run hnil (hk₁.run hbefore) hq

theorem Parse.StandsIn.get? {t : Text} {firstLine : Nat} {sort : Text → Prop} {p q : Parse}
    {path : NodePath} (hnil : sort []) (h : p.StandsIn t firstLine sort)
    (hq : p.get? path = some q) : q.StandsIn t firstLine sort := by
  induction path generalizing p with
  | nil =>
      obtain rfl : p = q := by simpa using hq
      exact h
  | cons i path ih =>
      rw [get?_cons] at hq
      obtain ⟨r, hr, hq⟩ := Option.bind_eq_some_iff.1 hq
      exact ih (h.item hnil (List.mem_of_getElem? hr)) hq

/-- The parses of a text **stand in it**. -/
theorem Parses.standsIn {t : Text} {firstLine : Nat} {ps : List Parse} (h : Parses t firstLine ps)
    {p : Parse} (hp : p ∈ ps) : p.StandsIn t firstLine (Gap false) := by
  obtain ⟨k', hrun, -⟩ := Cursor.ofEvents_eq_iff.1 h.stream
  obtain ⟨k, m, ls, hbefore, hrun⟩ := hrun.of_mem hp
  exact Parse.standsIn_of_run .nil ((Cursor.within_ofText t firstLine).run hbefore) hrun

/-! ### Spans of what was read -/

/-- The span between two positions of a text. -/
def Extent.span (t : Text) (e : Extent) : Span where
  source := Text.slice t e.start.offset e.stop.offset
  line := e.start.line
  endLine := e.stop.line
  start := e.start.offset
  stop := e.stop.offset

/-- A stretch of the text in front of a cursor, **as the span between its ends**. -/
theorem Cursor.Within.span_eq_seed {t : Text} {firstLine : Nat} {k : Cursor}
    (hk : k.Within t firstLine) {gap body rest : Text} {e : Extent}
    (hrest : k.rest = gap ++ (body ++ rest)) (hstart : e.start = k.position.after gap)
    (hstop : e.stop = e.start.after body) :
    e.span t = Span.seed body e.start.line e.start.offset
      ∧ Text.slice t e.start.offset e.stop.offset = body := by
  obtain ⟨before, ht, hposition⟩ := hk
  have hoffset : e.start.offset = (before ++ gap).length := by
    rw [hstart, hposition, ← Position.after_append, Position.offset_after]
    exact Nat.zero_add _
  have hslice : Text.slice t e.start.offset e.stop.offset = body := by
    rw [hstop, Position.offset_after, hoffset, ht, hrest, ← List.append_assoc, Text.slice,
      List.drop_left, Nat.add_sub_cancel_left, List.take_left]
  refine ⟨?_, hslice⟩
  rw [Extent.span, hslice, hstop, Position.offset_after, Position.line_after, Span.seed]

/-- The seed of a form that was read is **the span of its parse**. -/
theorem Parse.StandsIn.seed_top {t : Text} {firstLine : Nat} {sort : Text → Prop} {p : Parse}
    (h : p.StandsIn t firstLine sort) : (p.top t).seed = p.extent.span t := by
  obtain ⟨k, m, hk, -, hrun⟩ := h
  obtain ⟨gap, body, hrest, hstart, hstop, -⟩ := hrun.extent
  obtain ⟨hspan, hslice⟩ := hk.span_eq_seed hrest hstart hstop
  rw [hspan, top, hslice]

end EdnSpans
