/-
**Sequential attribution finds what was read.**

The reader and the search know nothing of each other: one goes from lexeme to lexeme, the other
looks for the texts of scalars and for balanced delimiters.  Yet if the scalars of a form are written
the way they are printed, the search for each child begins where the reader stood before it.  As long
as nothing stands in between that the search takes for the child, it finds the child where it was
read, and ends where the reader ended.  Blanks are never in the way; comments may be.

Main definitions:

* `EdnSpans.Parse.located` — a form with **the spans of what its nodes were read from**;
* `EdnSpans.Parse.CommentFree`, `EdnSpans.Parse.Canonical` — no comment inside, and scalars as they
  are printed;
* `EdnSpans.Parse.Clear` — **nothing is in the way** of any node;
* `EdnSpans.Cursor.Takes` — a form is taken from a text, behind a gap;
* `EdnSpans.Window.StandsAt` — a window that begins where the reader stands.

Main results:

* `EdnSpans.Window.StandsAt.find?` — the next child is found where it was read;
* `EdnSpans.Parse.trace_of_clear` — the spans that are found are those of the text that was read if
  nothing is in the way;
* `EdnSpans.Parse.clear_of_blank` — blanks are not in the way;
* `EdnSpans.exact_of_readForms` — **sequential attribution is exact**.
-/
import EdnSpans.Document
import EdnSpans.Proofs.Attribution.Lookup
import EdnSpans.Proofs.Locate.Balance
import EdnSpans.Proofs.Locate.Match

set_option relaxedAutoImplicit false
set_option autoImplicit false

namespace EdnSpans

open Text

/-! ### What was read -/

namespace Parse

mutual

/-- The form that was read, and on every node the span of the text that it was read from: from the
start of its first lexeme to the end of its last one. -/
def located (t : Text) : Parse → Form
  | .leaf s e => .atom s (some (e.span t))
  | .branch k o items c => .node k (locatedAll t items) (some (Extent.span t ⟨o.start, c.stop⟩))

/-- The forms that were read, with those spans. -/
def locatedAll (t : Text) : List Parse → List Form
  | [] => []
  | p :: ps => located t p :: locatedAll t ps

end

theorem locatedAll_eq_map (t : Text) (ps : List Parse) : locatedAll t ps = ps.map (located t) := by
  induction ps with
  | nil => rfl
  | cons p ps ih => rw [locatedAll, ih, List.map_cons]

@[simp] theorem span_located (t : Text) (p : Parse) :
    (p.located t).span = some (p.extent.span t) := by
  cases p with
  | leaf s e => rfl
  | branch k o items c => rfl

theorem children_located (t : Text) (p : Parse) :
    (p.located t).children = p.items.map (located t) := by
  cases p with
  | leaf s e => rfl
  | branch k o items c => exact locatedAll_eq_map t items

theorem get?_located (t : Text) (p : Parse) (path : NodePath) :
    (p.located t).get? path = (p.get? path).map (located t) := by
  induction path generalizing p with
  | nil => rfl
  | cons i path ih =>
      rw [Form.get?_cons, children_located, List.getElem?_map, get?_cons]
      cases p.items[i]? with
      | none => rfl
      | some q => exact ih q

/-! ### How it is written -/

/-- No comment stands inside the form: every semicolon in its text belongs to one of its lexemes. -/
def CommentFree (t : Text) (p : Parse) : Prop :=
  ∀ i, p.extent.start.offset ≤ i → i < p.extent.stop.offset → t[i]? = some ';' →
    ∃ l ∈ p.lexemes, l.start.offset ≤ i ∧ i < l.stop.offset

/-- Every scalar in the form is written the way it is printed. -/
def Canonical (t : Text) (p : Parse) : Prop :=
  ∀ l ∈ p.lexemes, ∀ s, l.token = .scalar s → slice t l.start.offset l.stop.offset = s.text

theorem Canonical.item {t : Text} {p q : Parse} (h : p.Canonical t) (hq : q ∈ p.items) :
    q.Canonical t := by
  intro l hl
  refine h l ?_
  cases p with
  | leaf s e => simp [items] at hq
  | branch k o items c =>
      rw [lexemes_branch]
      refine List.mem_cons_of_mem _ (List.mem_append_left _ ?_)
      exact List.mem_flatMap.2 ⟨q, hq, hl⟩

end Parse

namespace Cursor

variable {t : Text} {firstLine : Nat} {k m : Cursor}

theorem Within.getElem?_eq (hk : k.Within t firstLine) (i : Nat) :
    t[k.position.offset + i]? = k.rest[i]? := by
  obtain ⟨before, rfl, hposition⟩ := hk
  have hoffset : k.position.offset = before.length := by
    rw [hposition, Position.offset_after]
    exact Nat.zero_add _
  rw [hoffset, List.getElem?_append_right (Nat.le_add_right _ _), Nat.add_sub_cancel_left]

/-- Where every semicolon belongs to a lexeme, the gaps of a run are blank. -/
theorem Run.blank_of_semicolons {ls : List Lexeme} (h : Run (Gap false) k ls m)
    (hk : k.Within t firstLine)
    (hsemi : ∀ i, k.position.offset ≤ i → i < m.position.offset → t[i]? = some ';' →
      ∃ l ∈ ls, l.start.offset ≤ i ∧ i < l.stop.offset) : Run AllBlank k ls m := by
  induction h with
  | nil k => exact .nil k
  | @cons k k₁ m gap word l ls hgap passes tail ih =>
      have hstart : l.start.offset = k.position.offset + gap.length := by
        rw [passes.start_eq, Position.offset_after]
      have hstop : k₁.position.offset = l.start.offset + word.length := by
        rw [passes.position_eq, passes.stop_eq, Position.offset_after]
      have hlstop : l.stop.offset = k₁.position.offset := by rw [passes.position_eq]
      have htail := tail.offset_le
      refine .cons (hgap.blank_of_not_mem fun hmem => ?_) passes (ih ?_ ?_)
      · -- a semicolon of the gap would stand before every lexeme of the run
        obtain ⟨i, hi, hget⟩ := List.getElem_of_mem hmem
        have hthere : t[k.position.offset + i]? = some ';' := by
          rw [hk.getElem?_eq, passes.rest_eq, List.getElem?_append_left hi,
            List.getElem?_eq_getElem hi, hget]
        obtain ⟨l', hl', hle, -⟩ := hsemi _ (Nat.le_add_right _ _) (by omega) hthere
        rcases List.mem_cons.1 hl' with rfl | hl'
        · omega
        · have := (tail.bounds l' hl').1
          omega
      · exact hk.run (.cons hgap passes (.nil k₁))
      · intro i hle hlt hthere
        obtain ⟨l', hl', hle', hlt'⟩ := hsemi i (by omega) hlt hthere
        rcases List.mem_cons.1 hl' with rfl | hl'
        · omega
        · exact ⟨l', hl', hle', hlt'⟩

end Cursor

/-! ### Nothing in the way -/

namespace Parse

/-- Between the offset and the form **nothing stands that the search takes for it**. -/
def ClearFrom (t : Text) (offset : Nat) (p : Parse) : Prop :=
  ∀ n < p.extent.start.offset - offset, ¬p.form.BeginsAt (slice t offset p.extent.stop.offset) n

instance (t : Text) (offset : Nat) (p : Parse) : Decidable (p.ClearFrom t offset) :=
  inferInstanceAs (Decidable (∀ n < _, ¬_))

mutual

/-- No node of the form but its root has anything in the way that the search takes for it: neither
before the first child of a collection nor between two of its children. -/
def Clear (t : Text) : Parse → Prop
  | .leaf _ _ => True
  | .branch _ o items _ => ClearAll t o.stop.offset items

/-- The forms one after the other, and the nodes in them, from the given offset on. -/
def ClearAll (t : Text) (offset : Nat) : List Parse → Prop
  | [] => True
  | p :: ps => p.ClearFrom t offset ∧ Clear t p ∧ ClearAll t p.extent.stop.offset ps

end

end Parse

/-! ### One child -/

theorem Match.between_append (gap body after : Text) :
    Match.between (gap ++ (body ++ after)) gap.length (gap.length + body.length)
      = ⟨body, gap.length, gap.length + body.length⟩ := by
  rw [Match.between, slice_middle]

/-- A gap ends with a blank if it is not empty: the comments in it end with their lines. -/
theorem Gap.ends_blank {inComment : Bool} {gap : Text} (h : Gap inComment gap) :
    (inComment = false ∧ gap = []) ∨ ∃ init c, gap = init ++ [c] ∧ isBlank c := by
  induction h with
  | nil => exact .inl ⟨rfl, rfl⟩
  | @blank c t hc _ ih =>
      obtain ⟨-, rfl⟩ | ⟨init, d, rfl, hd⟩ := ih
      · exact .inr ⟨[], c, rfl, hc⟩
      · exact .inr ⟨c :: init, d, rfl, hd⟩
  | comment _ ih =>
      obtain ⟨hfalse, -⟩ | ⟨init, d, rfl, hd⟩ := ih
      · cases hfalse
      · exact .inr ⟨';' :: init, d, rfl, hd⟩
  | @inside c t _ _ ih =>
      obtain ⟨hfalse, -⟩ | ⟨init, d, rfl, hd⟩ := ih
      · cases hfalse
      · exact .inr ⟨c :: init, d, rfl, hd⟩
  | lineEnd _ ih =>
      obtain ⟨-, rfl⟩ | ⟨init, d, rfl, hd⟩ := ih
      · exact .inr ⟨[], '\n', rfl, by decide⟩
      · exact .inr ⟨'\n' :: init, d, rfl, hd⟩

/-- A form can begin **behind a gap**, for no gap casts a shadow. -/
theorem Form.beginsAt_behind {f : Form} {gap body : Text} (hgap : Gap false gap)
    (hsought : f.sought <+: body) : f.BeginsAt (gap ++ body) gap.length := by
  refine ⟨⟨by simp, by rwa [List.drop_left]⟩, ?_⟩
  rw [List.take_left]
  obtain ⟨-, rfl⟩ | ⟨init, c, rfl, hc⟩ := hgap.ends_blank
  · cases f with
    | atom s m => exact .inl rfl
    | node kind cs m => cases kind <;> simp [shadow?, Kind.shadowedBy]
  · have hne : c ≠ '#' := by
      rintro rfl
      exact absurd hc (by decide)
    cases f with
    | atom s m => exact .inl rfl
    | node kind cs m => cases kind <;> simp [shadow?, Kind.shadowedBy, hne]

/-- From the first cursor to the second **the form is taken from the body**, behind the gap; where
the search takes the form to begin with the body, it takes it to be as long. -/
structure Cursor.Takes (k : Cursor) (gap body : Text) (p : Parse) (m : Cursor) : Prop where
  rest_eq : k.rest = gap ++ (body ++ m.rest)
  start_eq : p.extent.start = k.position.after gap
  stop_eq : p.extent.stop = p.extent.start.after body
  position_eq : m.position = p.extent.stop
  gap_sort : Gap false gap
  sought_eq : ∃ c u, p.form.sought = c :: u ∧ isBlank c = false ∧ c ≠ ';'
  sought_front : p.form.sought <+: body
  length?_eq (after : Text) : p.form.length? .sequential (body ++ after) = some body.length

/-- A form whose scalars are written as they are printed **is taken so**. -/
theorem Cursor.Run.takes {t : Text} {firstLine : Nat} {sort : Text → Prop}
    (hsort : ∀ gap, sort gap → Gap false gap) {p : Parse} {k m : Cursor}
    (h : Cursor.Run sort k p.lexemes m) (hk : k.Within t firstLine) (hp : p.Canonical t) :
    ∃ gap body, sort gap ∧ k.Takes gap body p m := by
  cases p with
  | leaf s e =>
      obtain ⟨gap, word, hgap, passes⟩ := h.leaf
      have hstart : e.start = k.position.after gap := passes.start_eq
      have hstop : e.stop = e.start.after word := passes.stop_eq
      have htext : s.text = word := by
        rw [← (hk.span_eq_seed passes.rest_eq hstart hstop).2]
        exact (hp _ (List.mem_singleton_self _) s rfl).symm
      refine ⟨gap, word, hgap, passes.rest_eq, hstart, hstop, passes.position_eq, hsort gap hgap,
        ?_, ?_, ?_⟩
      · obtain ⟨c, w, rfl, hscanned⟩ := passes.reads
        exact ⟨c, w, htext, hscanned.not_blank⟩
      · rw [← htext]
        exact List.prefix_rfl
      · intro after
        rw [← htext]
        rfl
  | branch kind o items c =>
      obtain ⟨gap, k₁, inside, hgap, hopen, hinside, hposition, hstop, hscan⟩ :=
        Parse.balancedLength?_interior hsort h
      have hbody : c.stop = o.start.after (kind.opener ++ inside) := by
        rw [← hstop, hposition, hopen.position_eq, hopen.stop_eq, ← Position.after_append]
        rfl
      refine ⟨gap, kind.opener ++ inside, hgap, ?_, hopen.start_eq, hbody, hstop, hsort gap hgap,
        ?_, ?_, ?_⟩
      · rw [hopen.rest_eq, hinside, List.append_assoc]
      · rw [Parse.form_branch]
        cases kind <;> exact ⟨_, _, rfl, by decide, by decide⟩
      · rw [Parse.form_branch]
        exact List.prefix_append ..
      · intro after
        rw [Parse.form_branch, Form.length?, List.append_assoc, List.drop_left, closerLength?,
          hscan, Option.map_some, List.length_append]

namespace Cursor.Takes

variable {t : Text} {firstLine : Nat} {k m : Cursor} {gap body : Text} {p : Parse}

/-- If the search is not held up in the gap, **the body is what it finds**. -/
theorem locate_eq (h : k.Takes gap body p m)
    (hfirst : ∀ n < gap.length, ¬p.form.BeginsAt (gap ++ body) n) (after : Text) :
    p.form.locate .sequential (gap ++ (body ++ after))
      = some ⟨body, gap.length, gap.length + body.length⟩ := by
  have hlength := h.sought_front.length_le
  have hbegin : p.form.begin? (gap ++ (body ++ after)) = some gap.length := by
    refine Form.begin?_eq_some_iff.2 ⟨Form.beginsAt_behind h.gap_sort ?_, ?_⟩
    · exact h.sought_front.trans (List.prefix_append ..)
    · intro n hn
      rw [← List.append_assoc, Form.beginsAt_append_iff after (by simp; omega)]
      exact hfirst n hn
  rw [Form.locate_eq, hbegin, Option.bind_some, List.drop_left, h.length?_eq, Option.map_some,
    Match.between_append]

/-- The text from a cursor to the end of what is taken there. -/
theorem slice_eq (h : k.Takes gap body p m) (hk : k.Within t firstLine) :
    slice t k.position.offset p.extent.stop.offset = gap ++ body := by
  have hrest : k.rest = [] ++ ((gap ++ body) ++ m.rest) := by
    rw [h.rest_eq, List.nil_append, List.append_assoc]
  have hstop : p.extent.stop = k.position.after (gap ++ body) := by
    rw [h.stop_eq, h.start_eq, Position.after_append]
  exact (hk.span_eq_seed (e := ⟨k.position, p.extent.stop⟩) hrest rfl hstop).2

theorem clearFrom_iff (h : k.Takes gap body p m) (hk : k.Within t firstLine) :
    p.ClearFrom t k.position.offset ↔ ∀ n < gap.length, ¬p.form.BeginsAt (gap ++ body) n := by
  have hlength : p.extent.start.offset - k.position.offset = gap.length := by
    rw [h.start_eq, Position.offset_after, Nat.add_sub_cancel_left]
  rw [Parse.ClearFrom, h.slice_eq hk, hlength]

/-- In a gap of blanks **no form can begin**. -/
theorem clearFrom_of_blank (h : k.Takes gap body p m) (hk : k.Within t firstLine)
    (hgap : AllBlank gap) : p.ClearFrom t k.position.offset := by
  rw [h.clearFrom_iff hk]
  rintro n hn ⟨⟨-, hsought⟩, -⟩
  obtain ⟨c, u, hcu, hc, -⟩ := h.sought_eq
  rw [hcu, List.drop_append_of_le_length (Nat.le_of_lt hn), List.drop_eq_getElem_cons hn,
    List.cons_append, List.cons_prefix_cons] at hsought
  have hblank := hgap _ (List.getElem_mem hn)
  rw [← hsought.1, hc] at hblank
  cases hblank

end Cursor.Takes

/-- The window begins, in the text of its span, where the cursor stands; behind the span the text
goes on with `after`. -/
structure Window.StandsAt (w : Window) (k : Cursor) (after : Text) : Prop where
  offset_le : w.offset ≤ w.span.source.length
  rest_eq : k.rest = w.text ++ after
  offset_eq : k.position.offset = w.span.start + w.offset
  line_eq : k.position.line = w.span.line + newlines (w.span.source.take w.offset)

theorem Window.StandsAt.text_eq {w : Window} {k m : Cursor} {gap body tail after : Text} {p : Parse}
    (hw : w.StandsAt k after) (htakes : k.Takes gap body p m) (hm : m.rest = tail ++ after) :
    w.text = gap ++ (body ++ tail) := by
  have happend := hw.rest_eq.symm.trans htakes.rest_eq
  rw [hm] at happend
  have hcancel : w.text ++ after = (gap ++ (body ++ tail)) ++ after := by simpa using happend
  exact List.append_cancel_right hcancel

/-- From where the reader stands, **the next child is found where it was read** if nothing is in the
way, and the search ends where the reader stands after it. -/
theorem Window.StandsAt.find? {t : Text} {firstLine : Nat} {p : Parse} {w : Window} {k m : Cursor}
    {after tail : Text} (hw : w.StandsAt k after) (hk : k.Within t firstLine) (hp : p.Canonical t)
    (hclear : p.ClearFrom t k.position.offset) (h : Cursor.Run (Gap false) k p.lexemes m)
    (hm : m.rest = tail ++ after) :
    ∃ stop, w.find? .sequential p.form = some ⟨p.extent.span t, stop⟩ ∧ w.offset ≤ stop
      ∧ StandsAt ⟨w.span, stop⟩ m after := by
  obtain ⟨gap, body, -, htakes⟩ := h.takes (fun _ => id) hk hp
  have hlocate := htakes.locate_eq ((htakes.clearFrom_iff hk).1 hclear)
  have htext := hw.text_eq htakes hm
  obtain ⟨hrest, hstart, hstop, hposition, -⟩ := htakes
  -- the text of the span is what was passed before, the blanks, the child, and what is left
  obtain ⟨passed, hsource, hpassed⟩ :
      ∃ passed, w.span.source = passed ++ (gap ++ (body ++ tail)) ∧ passed.length = w.offset := by
    refine ⟨w.span.source.take w.offset, ?_, List.length_take_of_le hw.offset_le⟩
    rw [← htext, text, List.take_append_drop]
  have hline := hw.line_eq
  rw [hsource, ← hpassed, List.take_left] at hline
  have htake : w.span.source.take (w.offset + gap.length) = passed ++ gap := by
    rw [hsource, ← hpassed, ← List.length_append, ← List.append_assoc, List.take_left]
  have htake' : w.span.source.take (w.offset + (gap.length + body.length))
      = passed ++ gap ++ body := by
    rw [hsource, ← hpassed, ← Nat.add_assoc, ← List.length_append, ← List.length_append,
      ← List.append_assoc, ← List.append_assoc, List.take_left]
  have hdrop : w.span.source.drop (w.offset + (gap.length + body.length)) = tail := by
    rw [hsource, ← hpassed, ← Nat.add_assoc, ← List.length_append, ← List.length_append,
      ← List.append_assoc, ← List.append_assoc, List.drop_left]
  refine ⟨w.offset + (gap.length + body.length), ?_, Nat.le_add_right _ _, ?_, ?_, ?_, ?_⟩
  · rw [Window.find?, htext, hlocate, Option.map_some, (hk.span_eq_seed hrest hstart hstop).1,
      hstart, lift, Span.seed]
    simp only [htake, newlines_append, Position.line_after, Position.offset_after, hline,
      hw.offset_eq, Nat.add_assoc]
  · rw [hsource, ← hpassed]
    simp only [List.length_append]
    omega
  · rw [hm, text, hdrop]
  · rw [hposition, hstop, hstart, Position.offset_after, Position.offset_after, hw.offset_eq]
    simp only [Nat.add_assoc]
  · rw [hposition, hstop, hstart, Position.line_after, Position.line_after, hline, htake']
    simp only [newlines_append, Nat.add_assoc]

/-- So does **the search for a child** behind its siblings: it is found at once, and the search never
begins again at the front. -/
theorem Window.StandsAt.search {o : Options} (ho : o.strategy = .sequential) {t : Text}
    {firstLine : Nat} {p : Parse} {w : Window} {offset : Nat} {k m : Cursor} {after tail : Text}
    (hw : StandsAt ⟨w.span, offset⟩ k after) (hk : k.Within t firstLine) (hp : p.Canonical t)
    (hclear : p.ClearFrom t k.position.offset) (h : Cursor.Run (Gap false) k p.lexemes m)
    (hm : m.rest = tail ++ after) (unordered : Bool) :
    ∃ stop, w.search o.strategy unordered offset p.form
        = ⟨⟨w.span, offset⟩, some ⟨p.extent.span t, stop⟩⟩
      ∧ o.advance offset (some ⟨p.extent.span t, stop⟩) = stop ∧ offset ≤ stop
      ∧ StandsAt ⟨w.span, stop⟩ m after := by
  obtain ⟨stop, hfind, hle, hstands⟩ := hw.find? hk hp hclear h hm
  refine ⟨stop, ?_, ?_, hle, hstands⟩
  · simp only [Window.search, ho, hfind]
  · simp only [Options.advance, ho]
    exact Nat.max_eq_right hle

/-! ### All children -/

/-- The children are found one after the other, each of them where it was read. -/
theorem Form.traceChildren_located {o : Options} (ho : o.strategy = .sequential) {t : Text}
    {firstLine : Nat} {items : List Parse}
    (ih : ∀ q ∈ items, ∀ outer, q.Canonical t → q.Clear t → q.StandsIn t firstLine (Gap false) →
      q.form.trace o (some (q.extent.span t)) outer = q.located t)
    {w : Window} {unordered : Bool} {offset : Nat} {k m : Cursor} {after tail : Text}
    (hw : Window.StandsAt ⟨w.span, offset⟩ k after) (hk : k.Within t firstLine)
    (hp : ∀ q ∈ items, q.Canonical t) (hclear : Parse.ClearAll t k.position.offset items)
    (h : Cursor.Run (Gap false) k (items.flatMap Parse.lexemes) m) (hm : m.rest = tail ++ after) :
    traceChildren o (some w) unordered offset (items.map Parse.form)
      = items.map (Parse.located t) := by
  induction items generalizing offset k with
  | nil => rfl
  | cons q qs ihqs =>
      obtain ⟨hfrom, hq_clear, hqs_clear⟩ := hclear
      rw [List.flatMap_cons] at h
      obtain ⟨k₁, hq, hqs⟩ := Cursor.Run.append_iff.1 h
      obtain ⟨passed, hpassed, -⟩ := hqs.consumed
      have hcanonical := hp q (List.mem_cons_self ..)
      have hk₁ : k₁.rest = (passed ++ tail) ++ after := by
        rw [hpassed, hm, List.append_assoc]
      obtain ⟨stop, hsearch, hadvance, -, hw₁⟩ :=
        hw.search ho hk hcanonical hfrom hq hk₁ unordered
      have hstands : q.StandsIn t firstLine (Gap false) := Parse.standsIn_of_run .nil hk hq
      have hposition : k₁.position = q.extent.stop := by
        obtain ⟨-, -, -, -, -, hposition, -⟩ := hq.extent
        exact hposition
      rw [List.map_cons, List.map_cons, traceChildren, hsearch]
      simp only [Option.map_some, hadvance]
      rw [ih q (List.mem_cons_self ..) _ hcanonical hq_clear hstands,
        ihqs (fun r hr => ih r (List.mem_cons_of_mem _ hr)) hw₁ (hk.run hq)
          (fun r hr => hp r (List.mem_cons_of_mem _ hr)) (by rwa [hposition]) hqs]

/-! ### All nodes -/

/-- Between its delimiters a collection is a window that begins where the reader stands. -/
theorem Parse.standsAt_interior {t : Text} {firstLine : Nat} {sort : Text → Prop} {kind : Kind}
    {o c : Extent} {items : List Parse} (h : (branch kind o items c).StandsIn t firstLine sort) :
    ∃ k₁ k₂ tail after, k₁.Within t firstLine ∧ k₁.position = o.stop
      ∧ Window.StandsAt ⟨Extent.span t ⟨o.start, c.stop⟩, kind.opener.length⟩ k₁ after
      ∧ Cursor.Run sort k₁ (items.flatMap lexemes) k₂ ∧ k₂.rest = tail ++ after := by
  obtain ⟨k, m, hk, -, hrun⟩ := h
  obtain ⟨gap, gap', k₁, k₂, hgap, -, hopen, hitems, hclose⟩ := hrun.branch
  obtain ⟨inside, hinside, hstop⟩ := Cursor.Run.interior hopen hitems hclose
  have hrest : k.rest = gap ++ ((kind.opener ++ inside) ++ m.rest) := by
    rw [hopen.rest_eq, hinside, List.append_assoc]
  have hstart : o.start = k.position.after gap := hopen.start_eq
  have hk₁ : k₁.position = o.start.after kind.opener := hopen.position_eq.trans hopen.stop_eq
  have hclose_rest : k₂.rest = (gap' ++ [kind.closer.char]) ++ m.rest := by
    rw [hclose.rest_eq, List.append_assoc]
  refine ⟨k₁, k₂, gap' ++ [kind.closer.char], m.rest, hk.run (.cons hgap hopen (.nil k₁)),
    hopen.position_eq, ?_, hitems, hclose_rest⟩
  have hspan : Extent.span t ⟨o.start, c.stop⟩
      = Span.seed (kind.opener ++ inside) o.start.line o.start.offset :=
    (hk.span_eq_seed (e := ⟨o.start, c.stop⟩) hrest hstart hstop).1
  rw [hspan]
  refine ⟨?_, ?_, ?_, ?_⟩
  · simp [Span.seed]
  · rw [hinside]
    simp [Window.text, Span.seed]
  · rw [hk₁, Position.offset_after]
    rfl
  · rw [hk₁, Position.line_after]
    simp [Span.seed]

/-- **The spans that are found are those of the text that was read**, at every node, if nothing is
in the way of any of them. -/
theorem Parse.trace_of_clear {o : Options} (ho : o.strategy = .sequential) {t : Text}
    {firstLine : Nat} {p : Parse} (outer : Option Window) (hp : p.Canonical t) (hclear : p.Clear t)
    (h : p.StandsIn t firstLine (Gap false)) :
    p.form.trace o (some (p.extent.span t)) outer = p.located t := by
  induction p using Parse.induct generalizing outer with
  | leaf s e => rfl
  | branch kind opening items closing ih =>
      obtain ⟨k₁, k₂, tail, after, hk₁, hposition, hw, hitems, htail⟩ := standsAt_interior h
      have hinterior : o.interior kind = kind.opener.length := by simp only [Options.interior, ho]
      have hchildren : Form.traceChildren o
          (some ⟨Extent.span t ⟨opening.start, closing.stop⟩, kind.opener.length⟩) kind.isUnordered
            kind.opener.length (items.map form) = items.map (located t) :=
        Form.traceChildren_located ho ih hw hk₁ (fun q hq => hp.item hq)
          (by rw [hposition]; exact hclear) hitems htail
      rw [form_branch, Form.trace, located, locatedAll_eq_map, ← hchildren]
      simp only [Options.inner, extent, hinterior, Option.map_some, Option.getD_some]

/-! ### Blanks alone -/

theorem Parse.clearAll_of_blank {t : Text} {firstLine : Nat} {items : List Parse}
    (ih : ∀ q ∈ items, q.Canonical t → q.StandsIn t firstLine AllBlank → q.Clear t)
    {k m : Cursor} (hk : k.Within t firstLine) (hp : ∀ q ∈ items, q.Canonical t)
    (h : Cursor.Run AllBlank k (items.flatMap lexemes) m) : ClearAll t k.position.offset items := by
  induction items generalizing k with
  | nil => trivial
  | cons q qs ihqs =>
      rw [List.flatMap_cons] at h
      obtain ⟨k₁, hq, hqs⟩ := Cursor.Run.append_iff.1 h
      have hcanonical := hp q (List.mem_cons_self ..)
      obtain ⟨gap, body, hgap, htakes⟩ := hq.takes (fun _ => Gap.of_blank) hk hcanonical
      have hstands : q.StandsIn t firstLine AllBlank :=
        standsIn_of_run (by simp [AllBlank]) hk hq
      refine ⟨htakes.clearFrom_of_blank hk hgap,
        ih q (List.mem_cons_self ..) hcanonical hstands, ?_⟩
      rw [← htakes.position_eq]
      exact ihqs (fun r hr => ih r (List.mem_cons_of_mem _ hr)) (hk.run hq)
        (fun r hr => hp r (List.mem_cons_of_mem _ hr)) hqs

/-- Where blanks alone stand between the lexemes, **nothing is in the way**. -/
theorem Parse.clear_of_blank {t : Text} {firstLine : Nat} {p : Parse} (hp : p.Canonical t)
    (h : p.StandsIn t firstLine AllBlank) : p.Clear t := by
  induction p using Parse.induct with
  | leaf s e => trivial
  | branch kind o items c ih =>
      obtain ⟨k₁, k₂, -, -, hk₁, hposition, -, hitems, -⟩ := standsAt_interior h
      rw [Clear, ← hposition]
      exact clearAll_of_blank ih hk₁ (fun q hq => hp.item hq) hitems

theorem Parse.StandsIn.mono {t : Text} {firstLine : Nat} {sort sort' : Text → Prop} {p : Parse}
    (hsort : ∀ gap, sort gap → sort' gap) (h : p.StandsIn t firstLine sort) :
    p.StandsIn t firstLine sort' := by
  obtain ⟨k, m, hk, hstart, hrun⟩ := h
  exact ⟨k, m, hk, hstart, hrun.mono hsort⟩

/-- **The spans that are found are those of the text that was read**, at every node, where blanks
alone stand between the lexemes. -/
theorem Parse.trace_form {o : Options} (ho : o.strategy = .sequential) {t : Text} {firstLine : Nat}
    {p : Parse} (outer : Option Window) (hp : p.Canonical t)
    (h : p.StandsIn t firstLine AllBlank) :
    p.form.trace o (some (p.extent.span t)) outer = p.located t :=
  trace_of_clear ho outer hp (clear_of_blank hp h) (h.mono fun _ => Gap.of_blank)

/-! ### Whole texts -/

/-- Every node of the form has a span, and it is that of the text that the node was read from, from
the start of its first lexeme to the end of its last one. -/
def Parse.Exact (o : Options) (t : Text) (p : Parse) : Prop :=
  ∀ path node, (p.top t).form.get? path = some node →
    ∃ q, p.get? path = some q ∧ node.setSpan none = q.form
      ∧ ((p.top t).attribute o).spanAt? path = some (q.extent.span t)

theorem Form.trace_setSpan (o : Options) (own span : Option Span) (outer : Option Window)
    (f : Form) : (f.setSpan span).trace o own outer = f.trace o own outer := by
  cases f with
  | atom s m => rfl
  | node k cs m => rfl

/-- A form without comments **stands in the text with blanks alone** between its lexemes. -/
theorem Parse.StandsIn.blank {t : Text} {firstLine : Nat} {p : Parse}
    (h : p.StandsIn t firstLine (Gap false)) (hfree : p.CommentFree t) :
    p.StandsIn t firstLine AllBlank := by
  obtain ⟨k, m, hk, hstart, hrun⟩ := h
  obtain ⟨-, -, -, -, -, hstop, -⟩ := hrun.extent
  exact ⟨k, m, hk, hstart, hrun.blank_of_semicolons hk (by rwa [hstart, hstop])⟩

/-- **Sequential attribution is exact**: in every text that can be read, for every form in which no
comment stands and whose scalars are written as they are printed. -/
theorem exact_of_readForms {o : Options} (ho : o.strategy = .sequential) {t : Text}
    {firstLine : Nat} {tops : List TopForm} (h : readForms t firstLine = .ok tops) :
    ∃ ps, Parses t firstLine ps ∧ tops = ps.map (Parse.top t)
      ∧ ∀ p ∈ ps, p.CommentFree t → p.Canonical t → p.Exact o t := by
  obtain ⟨ps, hps, htops⟩ := readForms_eq_ok_iff.1 h
  refine ⟨ps, hps, htops, ?_⟩
  intro p hp hfree hcanonical path node hnode
  obtain ⟨q, hq, hform⟩ := Parse.get?_top hnode
  refine ⟨q, hq, hform, ?_⟩
  have hstands := (hps.standsIn hp).blank hfree
  obtain ⟨span, htop⟩ := p.form_top t
  rw [TopForm.attribute, Form.spanAt?_attributeFrom, htop, Form.trace_setSpan, hstands.seed_top,
    Parse.trace_form ho none hcanonical hstands, Parse.get?_located, hq]
  exact q.span_located t

/-- The symbol `a#` stands directly before a map, so that text and reader seem to disagree about
what is opened; and no blank stands before the first child of the map. -/
theorem exact_of_readForms_hash_before_map :
    let t : Text := ['[', 'a', '#', '\x7b', '1', ' ', '2', '\x7d', ']']
    let position (n : Nat) : Position := ⟨⟨1, n⟩, n, n⟩
    let extent (m n : Nat) : Extent := ⟨position m, position n⟩
    let p : Parse := .branch .vector (extent 0 1)
      [.leaf (.symbol ['a', '#']) (extent 1 3),
        .branch .map (extent 3 4) [.leaf (.integer 1) (extent 4 5), .leaf (.integer 2) (extent 6 7)]
          (extent 7 8)] (extent 8 9)
    Parses t 1 [p] ∧ p.CommentFree t ∧ p.Canonical t ∧ p.Exact ⟨.sequential, .stop, 1⟩ t := by
  intro t position extent p
  have hps : Parses t 1 [p] := ⟨by decide +kernel, by simp [p]⟩
  have hfree : p.CommentFree t := by
    intro i _ _ h
    exact absurd (List.mem_of_getElem? h) (by decide)
  have hcanonical : p.Canonical t := by
    intro l hl s hs
    have hlexemes : p.lexemes = [(extent 0 1).lexeme (.opening .vector),
        (extent 1 3).lexeme (.scalar (.symbol ['a', '#'])), (extent 3 4).lexeme (.opening .map),
        (extent 4 5).lexeme (.scalar (.integer 1)), (extent 6 7).lexeme (.scalar (.integer 2)),
        (extent 7 8).lexeme (.closing .brace), (extent 8 9).lexeme (.closing .bracket)] := rfl
    simp only [hlexemes, List.mem_cons, List.not_mem_nil, or_false] at hl
    rcases hl with rfl | rfl | rfl | rfl | rfl | rfl | rfl <;> cases hs <;> decide +kernel
  obtain ⟨ps, hps', -, hexact⟩ := exact_of_readForms (o := ⟨.sequential, .stop, 1⟩) rfl
    (readForms_eq_ok_iff.2 ⟨_, hps, rfl⟩)
  obtain rfl := hps'.unique hps
  exact ⟨hps, hfree, hcanonical, hexact p (List.mem_singleton_self p) hfree hcanonical⟩

end EdnSpans
