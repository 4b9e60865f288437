/-
**What is in the way is found instead.**

The search commits to the first place at which a form can begin.  So if something before a form
looks like it, in a comment say, the search is held up there: it finds that place or, if no end
belongs to it, no place at all.  Even where the search begins again at the front of the window it
gets no further.  Hence a form whose nodes all have the spans of what they were read from had nothing
in the way of any of them.

Main definitions:

* `EdnSpans.Span.bounds` — the lines and the offsets of a span;
* `EdnSpans.Form.AsRead` — the spans of all nodes have **the bounds of what was read**.

Main results:

* `EdnSpans.Window.StandsAt.start_lt` — a form that can begin before its place is found too early,
  if at all;
* `EdnSpans.Parse.asRead_trace_iff` — **the bounds are those of what was read if nothing is in the
  way, and only then**.
-/
import EdnSpans.Proofs.Attribution.Exact
import EdnSpans.Proofs.Attribution.Trace

set_option relaxedAutoImplicit false
set_option autoImplicit false

namespace EdnSpans

open Text

/-! ### Held up in a gap -/

/-- What is looked for does not begin at the front of a gap, which is a blank or a semicolon. -/
theorem Cursor.Takes.pos_of_beginsAt {k m : Cursor} {gap body : Text} {p : Parse}
    (h : k.Takes gap body p m) {n : Nat} (hn : n < gap.length)
    (hbegins : p.form.BeginsAt (gap ++ body) n) : 0 < n := by
  refine Nat.pos_of_ne_zero ?_
  rintro rfl
  obtain ⟨⟨-, hsought⟩, -⟩ := hbegins
  obtain ⟨c, u, hcu, hblank, hsemi⟩ := h.sought_eq
  have hgap := h.gap_sort
  cases hgap with
  | nil => simp at hn
  | blank hd _ =>
      obtain ⟨rfl, -⟩ : c = _ ∧ _ := by simpa [hcu] using hsought
      simp [hblank] at hd
  | comment _ =>
      obtain ⟨rfl, -⟩ : c = ';' ∧ _ := by simpa [hcu] using hsought
      exact hsemi rfl

/-- A form that can begin in the gap before it **is found too early, if at all**: also when the
search begins again at the front of the window. -/
theorem Window.StandsAt.start_lt {w : Window} {k m : Cursor} {gap body tail after : Text}
    {p : Parse} (hw : w.StandsAt k after) (htakes : k.Takes gap body p m)
    (hm : m.rest = tail ++ after) {n : Nat} (hn : n < gap.length)
    (hbegins : p.form.BeginsAt (gap ++ body) n) {offset : Nat} (hoffset : offset ≤ w.offset)
    {found : Found} (hfound : Window.find? .sequential p.form ⟨w.span, offset⟩ = some found) :
    found.span.start < p.extent.start.offset := by
  have htext : w.text = (gap ++ body) ++ tail := by
    rw [hw.text_eq htakes hm, List.append_assoc]
  -- the window begins further left, by what stands between the two offsets
  obtain ⟨front, hfront, hlength⟩ : ∃ front, (Window.mk w.span offset).text = front ++ w.text
      ∧ front.length = w.offset - offset := by
    refine ⟨slice w.span.source offset w.offset, ?_, length_slice_of_le hw.offset_le⟩
    have hdrop : w.text = (w.span.source.drop offset).drop (w.offset - offset) := by
      rw [text, List.drop_drop, Nat.add_sub_cancel' hoffset]
    rw [hdrop, slice, List.take_append_drop]
    rfl
  have hsought := htakes.sought_front.length_le
  have hthere : p.form.BeginsAt (Window.mk w.span offset).text (front.length + n) := by
    rw [hfront, htext]
    refine Form.BeginsAt.append_left ?_ (htakes.pos_of_beginsAt hn hbegins) front
    exact (Form.beginsAt_append_iff tail (by simp; omega)).2 hbegins
  -- and what is found begins no later than that
  obtain ⟨place, hplace, hle⟩ := Form.begin?_le hthere
  rw [Window.find?, Form.locate_eq, hplace, Option.bind_some, Option.map_map] at hfound
  obtain ⟨length, -, rfl⟩ := Option.map_eq_some_iff.1 hfound
  rw [htakes.start_eq, Position.offset_after, hw.offset_eq]
  simp only [Function.comp_apply, lift, Match.between]
  omega

/-! ### The spans of what was read -/

/-- The span without its text: its lines and its offsets. -/
def Span.bounds (s : Span) : Span := { s with source := [] }

/-- The form has, on every node, a span with the bounds of what the node was read from. -/
def Form.AsRead (t : Text) (f : Form) (p : Parse) : Prop :=
  ∀ path q, p.get? path = some q →
    ((f.get? path).bind Form.span).map Span.bounds = some (q.extent.span t).bounds

theorem Form.asRead_located (t : Text) (p : Parse) : (p.located t).AsRead t p := by
  intro path q hq
  rw [Parse.get?_located, hq]
  simp

/-- What holds of a form holds of its children. -/
theorem Form.AsRead.child {t : Text} {f : Form} {p : Parse} (h : f.AsRead t p) {i : Nat} {q : Parse}
    (hq : p.items[i]? = some q) : ∃ g, f.children[i]? = some g ∧ g.AsRead t q := by
  have hroot := h [i] q (by simp [hq])
  cases hg : f.children[i]? with
  | none => simp [Form.get?_cons, hg] at hroot
  | some g =>
      refine ⟨g, rfl, ?_⟩
      intro path r hr
      have hpath := h (i :: path) r (by simp [hq, hr])
      rwa [Form.get?_cons, hg] at hpath

theorem Form.AsRead.root {t : Text} {f : Form} {p : Parse} (h : f.AsRead t p) :
    ∃ span, f.span = some span ∧ span.start = p.extent.start.offset := by
  obtain ⟨span, hspan, hbounds⟩ := Option.map_eq_some_iff.1 (h [] p rfl)
  exact ⟨span, by simpa using hspan, congrArg Span.start hbounds⟩

/-- Children that have the spans of what they were read from **had nothing in the way**. -/
theorem Parse.clearAll_of_asRead {o : Options} (ho : o.strategy = .sequential) {t : Text}
    {firstLine : Nat} {items : List Parse}
    (ih : ∀ q ∈ items, ∀ outer, q.Canonical t → q.StandsIn t firstLine (Gap false) →
      (q.form.trace o (some (q.extent.span t)) outer).AsRead t q → q.Clear t)
    {w : Window} {unordered : Bool} {offset : Nat} {k m : Cursor} {after tail : Text}
    (hw : Window.StandsAt ⟨w.span, offset⟩ k after) (hoffset : w.offset ≤ offset)
    (hk : k.Within t firstLine) (hp : ∀ q ∈ items, q.Canonical t)
    (h : Cursor.Run (Gap false) k (items.flatMap lexemes) m) (hm : m.rest = tail ++ after)
    (hread : ∀ (i : Nat) q, items[i]? = some q → ∃ g : Form,
      (Form.traceChildren o (some w) unordered offset (items.map form))[i]? = some g
        ∧ g.AsRead t q) : ClearAll t k.position.offset items := by
  induction items generalizing offset k with
  | nil => trivial
  | cons q qs ihqs =>
      rw [List.flatMap_cons] at h
      obtain ⟨k₁, hq, hqs⟩ := Cursor.Run.append_iff.1 h
      obtain ⟨passed, hpassed, -⟩ := hqs.consumed
      have hcanonical := hp q (List.mem_cons_self ..)
      have hk₁ : k₁.rest = (passed ++ tail) ++ after := by
        rw [hpassed, hm, List.append_assoc]
      obtain ⟨gap, body, -, htakes⟩ := hq.takes (fun _ => id) hk hcanonical
      rw [List.map_cons, Form.traceChildren] at hread
      obtain ⟨g, hg, hgq⟩ := hread 0 q (List.getElem?_cons_zero ..)
      obtain rfl := Option.some.inj hg
      -- a child that can begin before its place would have been found too early
      have hfrom : q.ClearFrom t k.position.offset := by
        rw [htakes.clearFrom_iff hk]
        intro n hn hbegins
        obtain ⟨span, hspan, hstart⟩ := hgq.root
        rw [Form.span_trace] at hspan
        obtain ⟨found, hfound, rfl⟩ := Option.map_eq_some_iff.1 hspan
        obtain ⟨hsearched, hfind⟩ := w.search_eq o.strategy unordered offset q.form
        rw [hfound] at hfind
        have hearly : found.span.start < q.extent.start.offset := by
          rcases hsearched with hsearched | hsearched
          · rw [hsearched, ho] at hfind
            exact hw.start_lt htakes hk₁ hn hbegins (Nat.le_refl offset) hfind.symm
          · rw [hsearched, ho] at hfind
            exact hw.start_lt htakes hk₁ hn hbegins hoffset hfind.symm
        omega
      -- so it was found where it was read, and the search went on behind it
      obtain ⟨stop, hsearch, hadvance, hle, hw₁⟩ :=
        hw.search ho hk hcanonical hfrom hq hk₁ unordered
      rw [hsearch] at hgq hread
      simp only [Option.map_some, hadvance] at hgq hread
      refine ⟨hfrom, ih q (List.mem_cons_self ..) _ hcanonical (standsIn_of_run .nil hk hq) hgq, ?_⟩
      rw [← htakes.position_eq]
      refine ihqs (fun r hr => ih r (List.mem_cons_of_mem _ hr)) hw₁ (Nat.le_trans hoffset hle)
        (hk.run hq) (fun r hr => hp r (List.mem_cons_of_mem _ hr)) hqs ?_
      intro i r hr
      obtain ⟨f, hf, hfr⟩ := hread (i + 1) r hr
      exact ⟨f, hf, hfr⟩

/-- **The spans that are found are those of the text that was read if nothing is in the way, and
only then.** -/
theorem Parse.asRead_trace_iff {o : Options} (ho : o.strategy = .sequential) {t : Text}
    {firstLine : Nat} {p : Parse} (outer : Option Window) (hp : p.Canonical t)
    (h : p.StandsIn t firstLine (Gap false)) :
    (p.form.trace o (some (p.extent.span t)) outer).AsRead t p ↔ p.Clear t := by
  constructor
  · induction p using Parse.induct generalizing outer with
    | leaf s e => exact fun _ => trivial
    | branch kind opening items closing ih =>
        intro hread
        obtain ⟨k₁, k₂, tail, after, hk₁, hposition, hw, hitems, htail⟩ := standsAt_interior h
        have hinterior : o.interior kind = kind.opener.length := by
          simp only [Options.interior, ho]
        have hchildren (i : Nat) (q : Parse) (hq : items[i]? = some q) : ∃ g : Form,
            (Form.traceChildren o
              (some ⟨Extent.span t ⟨opening.start, closing.stop⟩, kind.opener.length⟩)
              kind.isUnordered kind.opener.length (items.map form))[i]? = some g ∧ g.AsRead t q := by
          obtain ⟨g, hg, hgq⟩ := hread.child (i := i) (q := q) hq
          refine ⟨g, ?_, hgq⟩
          rw [← hg, form_branch, Form.trace]
          simp only [Options.inner, extent, hinterior, Option.map_some, Option.getD_some,
            Form.children]
        rw [Clear, ← hposition]
        exact clearAll_of_asRead ho (fun q hq outer hq' hstands => ih q hq outer hq' hstands) hw
          (Nat.le_refl _) hk₁ (fun q hq => hp.item hq) hitems htail hchildren
  · intro hclear
    rw [trace_of_clear ho outer hp hclear h]
    exact Form.asRead_located t p

end EdnSpans
