/-
**A form by itself.**

The source of a seed can be taken out of its text and read by itself.  What stands behind a word has
no influence on it as long as the word ends there, and the end of a text ends every word; so the
tokens inside the source stay what they are, and with them the form.  The form then stands at the
beginning of its text, and all of its attribution lies that much further in front.

Main definitions:

* `EdnSpans.Span.back` — a span further in front.

Main results:

* `EdnSpans.Cursor.Run.excerpt` — **a run by itself**, at any position, goes over the same tokens;
* `EdnSpans.Parse.StandsIn.alone` — a parse is read by itself;
* `EdnSpans.readForms_excerpt` — **the source of a seed stands for its form**.
-/
import EdnSpans.Proofs.Document
import EdnSpans.Proofs.Reader.Grammar

set_option relaxedAutoImplicit false
set_option autoImplicit false

namespace EdnSpans

open Text

/-! ### Runs by themselves -/

theorem Position.eq_nil_of_after_eq {p : Position} {t : Text} (h : p.after t = p) : t = [] := by
  have hoffset := congrArg Position.offset h
  rw [offset_after] at hoffset
  exact List.eq_nil_of_length_eq_zero (by omega)

/-- What stands behind a word may be **cut off anywhere** behind it. -/
theorem Text.inPlaceOf_append (t rest : Text) : t.InPlaceOf (t ++ rest) := by
  cases t with
  | nil =>
      refine .inr ?_
      intro c hc
      cases hc
  | cons c t => exact .inl rfl

/-- The stretch of a text that a run goes over can be read **by itself**, at any position: with the
same tokens, and with nothing before the first of them if there was nothing. -/
theorem Cursor.Run.excerpt {sort : Text → Prop} {k m : Cursor} {ls : List Lexeme}
    (h : Run sort k ls m) {body : Text} (hbody : k.rest = body ++ m.rest) (p : Position) :
    ∃ ls', Run sort ⟨body, p⟩ ls' ⟨[], p.after body⟩
      ∧ ls'.map Lexeme.token = ls.map Lexeme.token
      ∧ ∀ l ∈ ls.head?, l.start = k.position → ∀ l' ∈ ls'.head?, l'.start = p := by
  induction h generalizing body p with
  | nil k =>
      obtain rfl : body = [] := List.self_eq_append_left.1 hbody
      exact ⟨[], .nil _, rfl, by simp⟩
  | @cons k k₁ m gap word l ls hgap passes tail ih =>
      obtain ⟨behind, hbehind, -⟩ := tail.consumed
      have hsame : body ++ m.rest = (gap ++ (word ++ behind)) ++ m.rest := by
        rw [← hbody, passes.rest_eq, hbehind]
        simp only [List.append_assoc]
      obtain rfl := List.append_cancel_right hsame
      obtain ⟨ls', hrun, htokens, -⟩ := ih hbehind ((p.after gap).after word)
      have hreads : Token.ReadsAs word behind l.token := by
        refine passes.reads.inPlaceOf ?_
        rw [hbehind]
        exact inPlaceOf_append behind m.rest
      refine ⟨⟨l.token, p.after gap, (p.after gap).after word⟩ :: ls', ?_, ?_, ?_⟩
      · rw [Position.after_append, Position.after_append]
        exact .cons hgap ⟨rfl, hreads, rfl, rfl, rfl⟩ hrun
      · rw [List.map_cons, List.map_cons, htokens]
      · rintro l₁ ⟨⟩ hstart l' ⟨⟩
        obtain rfl : gap = [] := Position.eq_nil_of_after_eq (passes.start_eq.symm.trans hstart)
        rfl

/-! ### Parses by themselves -/

/-- The seed of a form is the seed of **the stretch of text that its parse goes over**. -/
theorem Parse.seed_of_run {t : Text} {firstLine : Nat} {sort : Text → Prop} {k m : Cursor}
    {p : Parse} (hk : k.Within t firstLine) (hposition : k.position = p.extent.start)
    (h : Cursor.Run sort k p.lexemes m) {body : Text} (hbody : k.rest = body ++ m.rest) :
    (p.top t).seed = Span.seed body p.extent.start.line p.extent.start.offset := by
  obtain ⟨gap, body', hrest, hstart, hstop, -⟩ := h.extent
  obtain rfl : gap = [] := Position.eq_nil_of_after_eq (hstart.symm.trans hposition.symm)
  obtain rfl : body' = body := List.append_cancel_right (hrest.symm.trans hbody)
  rw [top, (hk.span_eq_seed hrest hstart hstop).2]

/-- Parses of the same form give the same top-level form, **further on if its seed is further
on**. -/
theorem Parse.shift_top {t t' : Text} {p p' : Parse} {chars : Nat} (hform : p'.form = p.form)
    (hseed : (p'.top t').seed.shift 0 chars = (p.top t).seed) :
    (p'.top t').shift chars = p.top t := by
  have hattach := Form.attach_mapSpans (p'.mapSpans_form (Span.shift 0 chars)) (p'.top t').seed
  have hforms : (p'.top t').form.mapSpans (Span.shift 0 chars) = (p.top t).form := by
    rw [hseed, hform] at hattach
    rw [top, hform]
    exact hattach
  rw [TopForm.shift, hforms, hseed]

/-- A form that stands in a text is read from its source **by itself**, and is then the same form
further in front. -/
theorem Parse.StandsIn.alone {t : Text} {firstLine : Nat} {p : Parse} (hp : p.Paired)
    (h : p.StandsIn t firstLine (Gap false)) :
    let s := (p.top t).seed
    ∃ top, readForms s.source s.line = .ok [top] ∧ top.tree = p.form
      ∧ top.seed = Span.seed s.source s.line 0 ∧ top.shift s.start = p.top t := by
  obtain ⟨k, m, hk, hposition, hrun⟩ := h
  obtain ⟨body, hbody, -⟩ := hrun.consumed
  have hseed := seed_of_run hk hposition hrun hbody
  rw [hseed]
  dsimp only [Span.seed]
  -- the same form has a parse with the tokens at the beginning of a text
  obtain ⟨ls, hrun', htokens, hhead⟩ :=
    hrun.excerpt hbody (Position.first p.extent.start.line)
  obtain ⟨p', hp', hform, rfl⟩ := Parse.exists_of_derives (htokens ▸ Parse.derives hp)
  have hstart' : p'.extent.start = Position.first p.extent.start.line := by
    obtain ⟨l, ls, hl, hstart, -⟩ := p.lexemes_eq_cons
    obtain ⟨l', ls', hl', hstart', -⟩ := p'.lexemes_eq_cons
    rw [← hstart']
    rw [hl, hl'] at hhead
    exact hhead l rfl (hstart.trans hposition.symm) l' rfl
  have hended : Cursor.Ended ⟨[], (Position.first p.extent.start.line).after body⟩ := rfl
  have hparses : Parses body p.extent.start.line [p'] := by
    refine ⟨?_, by simpa using hp'⟩
    rw [List.flatMap_singleton]
    exact Cursor.ofEvents_eq_iff.2 ⟨_, hrun', hended⟩
  have hseed' := seed_of_run (Cursor.within_ofText body p.extent.start.line) hstart'.symm hrun'
    (List.append_nil body).symm
  rw [hstart'] at hseed'
  refine ⟨p'.top body, readForms_eq_ok_iff.2 ⟨[p'], hparses, rfl⟩, ?_, hseed', ?_⟩
  · rw [tree_top, hform]
  · refine shift_top hform ?_
    rw [hseed', hseed]
    simp [Span.shift, Span.seed, Position.first, Nat.add_comm]

/-! ### Attribution by itself -/

/-- The span further in front, on the same lines. -/
def Span.back (chars : Nat) (s : Span) : Span :=
  { s with start := s.start - chars, stop := s.stop - chars }

theorem Span.back_shift (chars : Nat) (s : Span) : (s.shift 0 chars).back chars = s := by
  simp only [shift, back, Nat.add_zero, Nat.add_sub_cancel]

theorem Form.mapSpans_cancel {φ ψ : Span → Span} (h : ∀ s, ψ (φ s) = s) (f : Form) :
    (f.mapSpans φ).mapSpans ψ = f := by
  have hspan (m : Option Span) : (m.map φ).map ψ = m := by
    cases m with
    | none => rfl
    | some s => exact congrArg some (h s)
  induction f using Form.induct with
  | atom s m => rw [mapSpans_atom, mapSpans_atom, hspan]
  | node kind cs m ih =>
      rw [mapSpans_node, mapSpans_node, hspan, List.map_map]
      congr 1
      exact (List.map_congr_left ih).trans (List.map_id cs)

theorem Attributed.mapSpans_cancel {φ ψ : Span → Span} (h : ∀ s, ψ (φ s) = s) (a : Attributed) :
    (a.mapSpans φ).mapSpans ψ = a := by
  obtain ⟨form, detached⟩ := a
  simp only [mapSpans, Form.mapSpans_cancel h, List.map_map]
  congr 1
  have hentry : ∀ entry ∈ detached, (Prod.map id ψ ∘ Prod.map id φ) entry = entry := by
    intro entry _
    exact Prod.ext rfl (h entry.2)
  exact (List.map_congr_left hentry).trans (List.map_id detached)

/-- **The source of a seed stands for its form.**  It is read by itself, on the line on which it
stands, as exactly one form: the same tree, with a seed that begins at the beginning.  And it is
attributed as it was, with every span that much further in front; no span lay further in front than
the seed, so that nothing is lost. -/
theorem readForms_excerpt (o : Options) {t : Text} {tops : List TopForm}
    (h : readForms t o.firstLine = .ok tops) {top : TopForm} (htop : top ∈ tops) :
    let s := top.seed
    let alone := (top.attribute o).mapSpans (Span.back s.start)
    (∃ top', readForms s.source s.line = .ok [top'] ∧ top'.tree = top.tree
        ∧ top'.seed = Span.seed s.source s.line 0)
      ∧ attributeText { o with firstLine := s.line } s.source = .ok [alone]
      ∧ alone.mapSpans (Span.shift 0 s.start) = top.attribute o := by
  intro s alone
  obtain ⟨ps, hps, rfl⟩ := readForms_eq_ok_iff.1 h
  obtain ⟨p, hp, rfl⟩ := List.mem_map.1 htop
  obtain ⟨top', hread, htree, hseed, hshift⟩ := (hps.standsIn hp).alone (hps.paired p hp)
  have hattribute := top'.attribute_shift o s.line s.start
  rw [hshift] at hattribute
  have halone : alone = top'.attribute { o with firstLine := s.line } := by
    change ((p.top t).attribute o).mapSpans _ = _
    rw [hattribute]
    exact Attributed.mapSpans_cancel (Span.back_shift s.start) _
  refine ⟨⟨top', hread, by rw [htree, Parse.tree_top], hseed⟩, ?_, ?_⟩
  · rw [attributeText, hread, halone]
    rfl
  · rw [halone, hattribute]

/-- A list that does not begin its line, with a set, a number with a sign and a character inside,
and directly behind it a vector: the span of the number, in the text and by itself. -/
theorem readForms_excerpt_list_before_vector :
    let o : Options := ⟨.sequential, .stop, 3⟩
    let t : Text := ['x', '\n', ' ', '(', '#', '{', '-', '1', '}', '\\', 'a', ')', '[', 'λ', ']']
    let source : Text := ['(', '#', '{', '-', '1', '}', '\\', 'a', ')']
    ∃ tops top top', readForms t 3 = .ok tops ∧ top ∈ tops ∧ top.seed = Span.seed source 4 3
      ∧ readForms source 4 = .ok [top'] ∧ top'.tree = top.tree
      ∧ top'.seed = Span.seed source 4 0
      ∧ attributeText { o with firstLine := 4 } source
        = .ok [(top.attribute o).mapSpans (Span.back 3)]
      ∧ ((top.attribute o).mapSpans (Span.back 3)).mapSpans (Span.shift 0 3) = top.attribute o
      ∧ (top.attribute o).spanAt? [0, 0] = some ⟨['-', '1'], 4, 4, 6, 8⟩
      ∧ ((top.attribute o).mapSpans (Span.back 3)).spanAt? [0, 0]
        = some ⟨['-', '1'], 4, 4, 3, 5⟩ := by
  intro o t source
  obtain ⟨tops, h⟩ := exists_readForms t 3 (by decide +kernel)
  have hsecond : ((readForms t 3).toOption.bind fun tops => tops[1]?.map TopForm.seed)
      = some (Span.seed source 4 3) := by decide +kernel
  rw [h] at hsecond
  obtain ⟨top, hsecond, hseed⟩ := Option.map_eq_some_iff.1 hsecond
  have htop : top ∈ tops := List.mem_of_getElem? hsecond
  obtain ⟨⟨top', hread, htree, hseed'⟩, hattribute, hback⟩ := readForms_excerpt o h htop
  rw [hseed] at hread hseed' hattribute hback
  have hnumber : (top.attribute o).spanAt? [0, 0] = some ⟨['-', '1'], 4, 4, 6, 8⟩ := by
    have hspan : ((readForms t 3).toOption.bind fun tops =>
        tops[1]?.bind fun top => (top.attribute o).spanAt? [0, 0])
        = some ⟨['-', '1'], 4, 4, 6, 8⟩ := by decide +kernel
    rw [h, Except.toOption, Option.bind_some, hsecond] at hspan
    exact hspan
  have halone : ((top.attribute o).mapSpans (Span.back 3)).spanAt? [0, 0]
      = some ⟨['-', '1'], 4, 4, 3, 5⟩ := by
    have hspan : ((attributeText { o with firstLine := 4 } source).toOption.bind fun as =>
        as[0]?.bind (·.spanAt? [0, 0])) = some ⟨['-', '1'], 4, 4, 3, 5⟩ := by decide +kernel
    change attributeText { o with firstLine := 4 } source = _ at hattribute
    rw [hattribute] at hspan
    exact hspan
  exact ⟨tops, top, top', h, htop, hseed, hread, htree, hseed', hattribute, hback, hnumber, halone⟩

end EdnSpans
