/-
**Spans lie inside the spans above them.**

A node is searched in the text of the nearest span above it, from an offset that lies in this text,
and so what is found lies inside that span, in offsets and in lines.  Between the two there may be
any number of nodes that were not found, if the options let their children be searched; if not, the
nearest span above a node is always that of its parent.

All this depends on a seed that is what it says: it ends where its text ends, and if the form is a
collection, the text begins with the opener.  The seeds of the forms that are read are of this sort.

Main definitions:

* `EdnSpans.NodePath.ancestors`, `EdnSpans.Attributed.nearest?` — the nodes above a node, and the
  nearest span among theirs;
* `EdnSpans.Span.Encloses` — a span lies in another one, **in offsets and in lines**;
* `EdnSpans.Form.SeededBy` — the seed is what it says.

Main results:

* `EdnSpans.Options.sustains_encloses` — what is found lies inside the window's span, and every
  window begins in the text of its span;
* `EdnSpans.Form.findSome?_ancestors` — the nearest span above a node, found on the way down;
* `EdnSpans.Form.trace_none_of_stop` — below a node that was not found nothing is found, if the
  options say so;
* `EdnSpans.enclosed_by_nearest` — **every span lies inside the nearest one above it**.
-/
import EdnSpans.Proofs.Attribution.Placement
import EdnSpans.Proofs.Reader.Layout

set_option relaxedAutoImplicit false
set_option autoImplicit false

namespace EdnSpans

open Text

/-! ### The nodes above a node -/

/-- The paths to the nodes above the node at a path, from its parent up to the root. -/
def NodePath.ancestors : NodePath → List NodePath
  | [] => []
  | i :: path => (ancestors path).map (i :: ·) ++ [[]]

theorem NodePath.ancestors_child (path : NodePath) (i : Nat) :
    ancestors (path.child i) = path :: ancestors path := by
  induction path with
  | nil => rfl
  | cons j path ih =>
      have hchild : child (j :: path) i = j :: child path i := rfl
      rw [hchild, ancestors, ih, ancestors, List.map_cons, List.cons_append]

/-- The span of the nearest node above the node at a path that has one. -/
def Attributed.nearest? (a : Attributed) (path : NodePath) : Option Span :=
  (NodePath.ancestors path).findSome? a.spanAt?

/-- The nearest span above a node **is found on the way down**. -/
theorem Form.findSome?_ancestors {f g : Form} {path : NodePath} (h : f.get? path = some g)
    (best : Option Span) :
    ((NodePath.ancestors path).findSome? fun up => (f.get? up).bind span).or best
      = f.above? best path := by
  induction path generalizing f best with
  | nil => rfl
  | cons i path ih =>
      obtain ⟨c, hc, hget⟩ := Option.bind_eq_some_iff.1 h
      have hbelow : (fun up => (f.get? up).bind span) ∘ (i :: ·)
          = fun up => (c.get? up).bind span := by
        funext up
        simp [hc]
      rw [NodePath.ancestors, List.findSome?_append, List.findSome?_map, hbelow, above?, hc,
        Option.bind_some, ← ih hget, Option.or_assoc]
      simp

/-! ### One span inside another -/

/-- The span lies in another one, in offsets and in lines. -/
structure Span.Encloses (outer r : Span) : Prop where
  contains : outer.contains r
  line_le : outer.line ≤ r.line
  endLine_le : r.endLine ≤ outer.endLine

/-- The end and the last line of the span are **measured by its text**. -/
structure Span.Measured (s : Span) : Prop where
  stop_eq : s.stop = s.start + s.source.length
  endLine_eq : s.endLine = s.line + newlines s.source

/-- A piece of a span **lies in it**, if the span ends where its text ends. -/
theorem Span.PlacedIn.encloses {outer r : Span} (h : outer.PlacedIn r) (houter : outer.Measured)
    (hstop : r.stop ≤ outer.stop) : outer.Encloses r := by
  refine ⟨?_, ?_, ?_⟩
  · simp [Span.contains, h.start_le, hstop]
  · have hline := h.line_eq
    omega
  · -- the line breaks up to the end of the piece are some of those in the whole text
    have hle : r.start - outer.start ≤ r.stop - outer.start := by
      have := h.stop_eq
      omega
    have hcount : newlines (outer.source.take (r.stop - outer.start)) ≤ newlines outer.source :=
      (List.take_sublist _ _).count_le _
    rw [← take_append_slice outer.source hle, newlines_append, h.source_eq] at hcount
    have hline := h.line_eq
    rw [slice_zero] at hline
    have hend := h.endLine_eq
    have houter := houter.endLine_eq
    omega

/-! ### All searches -/

/-- The window begins in the text of its span, which ends where this text ends. -/
structure Window.Proper (w : Window) : Prop where
  measured : w.span.Measured
  offset_le : w.offset ≤ w.span.source.length

/-- What is found lies inside the window's span, and **every window that is left behind begins in
the text of its span**. -/
theorem Options.sustains_encloses (o : Options) : o.Sustains Window.Proper Span.Encloses where
  span hw h := by
    have hplaced := Window.placedIn_of_find? h
    have hstop := Window.stop_le_of_find? h hw.offset_le
    refine hplaced.encloses hw.measured ?_
    rw [Window.span_stop_eq h, hw.measured.stop_eq]
    omega
  behind hw h := by
    have hstop := Window.stop_le_of_find? h hw.offset_le
    exact ⟨hw.measured, hstop⟩
  inside hw h hkind := by
    have hplaced := Window.placedIn_of_find? h
    refine ⟨⟨hplaced.stop_eq, hplaced.endLine_eq⟩, ?_⟩
    exact Nat.le_trans (o.interior_le _) (Window.opener_length_le_of_find? h hkind)

/-! ### Attribution -/

/-- The seed of a form is what it says: its end and its last line are those of its text, and if the
form is a collection, the text begins with the opener. -/
structure Form.SeededBy (f : Form) (seed : Span) : Prop extends seed.Measured where
  opener : ∀ kind, f.kind? = some kind → kind.opener <+: seed.source

/-- The span of what was read is a seed of this sort. -/
theorem Parse.StandsIn.seededBy {t : Text} {firstLine : Nat} {sort : Text → Prop} {p : Parse}
    (h : p.StandsIn t firstLine sort) : p.form.SeededBy (p.extent.span t) := by
  obtain ⟨k, m, hk, -, hrun⟩ := h
  obtain ⟨gap, body, hrest, hstart, hstop, -, -, -, hopener⟩ := hrun.extent
  rw [(hk.span_eq_seed hrest hstart hstop).1]
  exact ⟨⟨rfl, rfl⟩, hopener⟩

/-- The seeds of the forms that are read are of this sort. -/
theorem seededBy_of_readForms {t : Text} {firstLine : Nat} {tops : List TopForm}
    (h : readForms t firstLine = .ok tops) {top : TopForm} (htop : top ∈ tops) :
    top.form.SeededBy top.seed := by
  obtain ⟨ps, hps, rfl⟩ := readForms_eq_ok_iff.1 h
  obtain ⟨p, hp, rfl⟩ := List.mem_map.1 htop
  have hseeded := (hps.standsIn hp).seededBy
  have hkind : (p.top t).form.kind? = p.form.kind? := by
    obtain ⟨span, hform⟩ := p.form_top t
    rw [hform]
    cases p.form <;> rfl
  rw [(hps.standsIn hp).seed_top]
  exact ⟨hseeded.toMeasured, hkind ▸ hseeded.opener⟩

namespace Form

variable {f : Form} {seed : Span}

theorem SeededBy.proper (h : f.SeededBy seed) (o : Options) {kind : Kind}
    (hkind : f.kind? = some kind) : Window.Proper ⟨seed, o.interior kind⟩ :=
  ⟨h.toMeasured, Nat.le_trans (o.interior_le kind) (h.opener kind hkind).length_le⟩

theorem nearest?_attributeFrom {o : Options} {path : NodePath} {g : Form}
    (h : (f.trace o (some seed) none).get? path = some g) :
    (f.attributeFrom o seed).nearest? path = (f.trace o (some seed) none).above? none path := by
  rw [← findSome?_ancestors h none, Option.or_none, Attributed.nearest?]
  congr 1
  funext up
  exact spanAt?_attributeFrom o f seed up

/-- Every span below the root lies inside **the nearest one above it**. -/
theorem SeededBy.encloses (h : f.SeededBy seed) (o : Options) {path : NodePath} {r : Span}
    (hpath : path ≠ []) (hr : (f.attributeFrom o seed).spanAt? path = some r) :
    ∃ outer, (f.attributeFrom o seed).nearest? path = some outer ∧ outer.Encloses r := by
  rw [spanAt?_attributeFrom] at hr
  obtain ⟨g, hget, hspan⟩ := Option.bind_eq_some_iff.1 hr
  rw [nearest?_attributeFrom hget]
  cases path with
  | nil => exact absurd rfl hpath
  | cons i path =>
      obtain ⟨c, hc, hget⟩ := Option.bind_eq_some_iff.1 hget
      have hinner : ∀ kind w, f.kind? = some kind → o.inner kind (some seed) none = some w →
          w.Proper ∧ (some seed).or none = some w.span := by
        rintro kind w hkind ⟨⟩
        exact ⟨h.proper o hkind, rfl⟩
      have hnested := trace_nested o.sustains_encloses f (some seed) none none hinner c
        (List.mem_of_getElem? hc)
      obtain ⟨outer, houter, hencloses⟩ := hnested path g r hget hspan
      refine ⟨outer, ?_, hencloses⟩
      rw [above?, hc, Option.bind_some, span_trace, houter]

/-- If nothing is searched below a node that was not found, **nothing is found there**. -/
theorem trace_none_of_stop {o : Options} (ho : o.unmatched = .stop) (f : Form)
    (outer : Option Window) : (f.trace o none outer).Everywhere fun _ => False := by
  have hnever : o.Sustains (fun _ => False) fun _ _ => False :=
    ⟨fun h => h.elim, fun h => h.elim, fun h => h.elim⟩
  refine throughout_iff.2 ⟨by simp, trace_everywhere hnever f none outer ?_⟩
  intro kind w _ hw
  simp [Options.inner, ho] at hw

theorem spanAt?_append_of_stop {o : Options} (ho : o.unmatched = .stop) (f : Form) (seed : Span)
    {path : NodePath} (h : (f.attributeFrom o seed).spanAt? path = none) (down : NodePath) :
    (f.attributeFrom o seed).spanAt? (path ++ down) = none := by
  rw [spanAt?_attributeFrom] at h ⊢
  rw [get?_append]
  cases hget : (f.trace o (some seed) none).get? path with
  | none => rfl
  | some g =>
      rw [hget, Option.bind_some] at h
      obtain ⟨f', own, outer, rfl⟩ := exists_trace_of_get? hget
      rw [span_trace] at h
      subst h
      rw [Option.bind_some, Option.bind_eq_none_iff]
      intro g hg
      cases hspan : g.span with
      | none => rfl
      | some r => exact (trace_none_of_stop ho f' outer down g hg r hspan).elim

end Form

/-- **Every span lies inside the nearest one above it**, in offsets and in lines, whatever the
options, if the seed is what it says, as that of a form that was read always is.  If nothing is
searched below a node that was not found, the nearest span above a node is that of its parent. -/
theorem enclosed_by_nearest :
    (∀ (t : Text) (firstLine : Nat) (tops : List TopForm), readForms t firstLine = .ok tops →
        ∀ top ∈ tops, top.form.SeededBy top.seed)
      ∧ ∀ (o : Options) (f : Form) (seed : Span), f.SeededBy seed →
        let a := f.attributeFrom o seed
        (∀ path r, path ≠ [] → a.spanAt? path = some r →
            ∃ outer, a.nearest? path = some outer ∧ outer.Encloses r)
          ∧ (o.unmatched = .stop →
            (∀ (path : NodePath) i r, a.spanAt? (path.child i) = some r →
                ∃ outer, a.spanAt? path = some outer ∧ a.nearest? (path.child i) = some outer)
              ∧ ∀ path down, a.spanAt? path = none → a.spanAt? (path ++ down) = none) := by
  refine ⟨fun t firstLine tops h top htop => seededBy_of_readForms h htop, ?_⟩
  intro o f seed hseed a
  refine ⟨fun path r hpath hr => hseed.encloses o hpath hr, fun ho => ⟨?_, ?_⟩⟩
  · intro path i r hr
    cases hparent : a.spanAt? path with
    | none =>
        have hnone : a.spanAt? (path.child i) = none :=
          Form.spanAt?_append_of_stop ho f seed hparent [i]
        rw [hnone] at hr
        cases hr
    | some outer =>
        refine ⟨outer, rfl, ?_⟩
        rw [Attributed.nearest?, NodePath.ancestors_child, List.findSome?_cons, hparent]
  · intro path down h
    exact Form.spanAt?_append_of_stop ho f seed h down

/-- A list that does not stand in the text, between a vector and a number that do.  The number is
found in the text of the vector, or not searched at all. -/
theorem enclosed_by_nearest_unmatched_list :
    let seed : Span := Span.seed "[x\n 5]".toList 3 10
    let form : Form := .node .vector
      [.node .list [.atom (.symbol ['x']) none, .atom (.integer 5) none] none] none
    let a := form.attributeFrom ⟨.sequential, .nearest, 1⟩ seed
    let b := form.attributeFrom ⟨.first, .stop, 1⟩ seed
    a.spanAt? [0] = none ∧ a.spanAt? [0, 1] = some ⟨['5'], 4, 4, 14, 15⟩
      ∧ (∃ outer, a.nearest? [0, 1] = some outer ∧ outer.Encloses ⟨['5'], 4, 4, 14, 15⟩)
      ∧ b.spanAt? [0, 1] = none := by
  intro seed form a b
  have hseed : form.SeededBy seed := by
    refine ⟨⟨rfl, rfl⟩, ?_⟩
    rintro kind ⟨⟩
    exact ⟨"x\n 5]".toList, by decide⟩
  have hnumber : a.spanAt? [0, 1] = some ⟨['5'], 4, 4, 14, 15⟩ := by decide +kernel
  have hlist : b.spanAt? [0] = none := by decide +kernel
  refine ⟨by decide +kernel, hnumber, ?_, ?_⟩
  · exact (enclosed_by_nearest.2 _ form seed hseed).1 [0, 1] _ (by decide) hnumber
  · exact ((enclosed_by_nearest.2 _ form seed hseed).2 rfl).2 [0] [1] hlist

end EdnSpans
