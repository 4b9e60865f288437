/-
**Attribution renews all spans.**

Attribution reads a tree only for its kinds and its scalars, and puts the same kinds and scalars
back, in the same order.  Whatever spans stood on the nodes before, on symbols and collections or on
scalars that should carry none, they are neither looked at nor kept.  So two trees that differ in
their spans alone have the same attribution, and to attribute the outcome again changes nothing.

Main results:

* `EdnSpans.Form.bare_trace`, `EdnSpans.Form.bare_attributeFrom` — the tree stays what it is, apart
  from its spans;
* `EdnSpans.Form.attributeFrom_congr` — **trees that differ in their spans alone have the same
  attribution**;
* `EdnSpans.Form.attribute_attributeFrom` — the outcome carries its seed if its root can;
* `EdnSpans.attributeFrom_renewed` — **attribution replaces what was there, and repeating it changes
  nothing**.
-/
import EdnSpans.Proofs.Attribution.Shift
import EdnSpans.Proofs.Attribution.Trace

set_option relaxedAutoImplicit false
set_option autoImplicit false

namespace EdnSpans

namespace Form

/-! ### What is decided by the tree without its spans -/

theorem carriesSpan_bare (f : Form) : f.bare.carriesSpan = f.carriesSpan := by
  cases f with
  | atom s m => rfl
  | node kind cs m => rfl

theorem kindName_bare (f : Form) : f.bare.kindName = f.kindName := by
  cases f with
  | atom s m => rfl
  | node kind cs m => rfl

theorem children_bare (f : Form) : f.bare.children = f.children.map bare := by
  cases f with
  | atom s m => rfl
  | node kind cs m => exact bareAll_eq_map cs

theorem get?_bare (f : Form) (path : NodePath) : f.bare.get? path = (f.get? path).map bare :=
  get?_of_children_eq_map children_bare f path

/-! ### The tree stays what it is -/

theorem bare_traceChildren {o : Options} {cs : List Form}
    (ih : ∀ c ∈ cs, ∀ own outer, (c.trace o own outer).bare = c.bare)
    (window : Option Window) (unordered : Bool) (offset : Nat) :
    (traceChildren o window unordered offset cs).map bare = cs.map bare := by
  induction cs generalizing offset with
  | nil => rfl
  | cons c cs ihcs =>
      have ihc := ih c (List.mem_cons_self ..)
      replace ihcs := ihcs fun d hd => ih d (List.mem_cons_of_mem _ hd)
      cases window with
      | none => rw [traceChildren, List.map_cons, List.map_cons, ihc, ihcs]
      | some w => rw [traceChildren, List.map_cons, List.map_cons, ihc, ihcs]

/-- A trace differs from the tree **in its spans alone**. -/
theorem bare_trace (o : Options) (f : Form) (own : Option Span) (outer : Option Window) :
    (f.trace o own outer).bare = f.bare := by
  induction f using Form.induct generalizing own outer with
  | atom s m => rfl
  | node kind cs m ih => rw [trace, bare_node, bare_node, bare_traceChildren ih]

theorem bare_shed (f : Form) : f.shed.bare = f.bare := by
  induction f using Form.induct with
  | atom s m => rfl
  | node kind cs m ih =>
      rw [shed, shedAll_eq_map, bare_node, bare_node, List.map_map]
      congr 1
      exact List.map_congr_left ih

/-- The tree of the outcome is **the tree that was given**, apart from the spans. -/
theorem bare_attributeFrom (o : Options) (f : Form) (seed : Span) :
    (f.attributeFrom o seed).form.bare = f.bare := by
  rw [attributeFrom, bare_shed, bare_trace]

/-- Every node of the tree stands **under the same path** in the outcome. -/
theorem map_bare_get?_attributeFrom (o : Options) (f : Form) (seed : Span) (path : NodePath) :
    ((f.attributeFrom o seed).form.get? path).map bare = (f.get? path).map bare := by
  rw [← get?_bare, bare_attributeFrom, get?_bare]

/-! ### The spans that were there before -/

/-- Trees that differ **in their spans alone** have the same attribution. -/
theorem attributeFrom_congr (o : Options) {f f' : Form} (h : f'.bare = f.bare) (seed : Span) :
    f'.attributeFrom o seed = f.attributeFrom o seed := by
  rw [attributeFrom, attributeFrom, ← trace_bare o f', h, trace_bare]

theorem span_attributeFrom (o : Options) (f : Form) (seed : Span) :
    (f.attributeFrom o seed).form.span = if f.carriesSpan then some seed else none := by
  rw [attributeFrom, span_shed, span_trace, ← carriesSpan_bare, bare_trace, carriesSpan_bare]

/-- To attribute the outcome from the span at its root is to attribute it from the seed, **if the
root can carry the seed** at all. -/
theorem attribute_attributeFrom (o : Options) (f : Form) (seed : Span) :
    (f.attributeFrom o seed).form.attribute o
      = if f.carriesSpan then .ok ((f.attributeFrom o seed).form.attributeFrom o seed)
        else .error ⟨f.kindName⟩ := by
  have hspan := span_attributeFrom o f seed
  have hname : (f.attributeFrom o seed).form.kindName = f.kindName := by
    rw [← kindName_bare, bare_attributeFrom, kindName_bare]
  by_cases hcarries : f.carriesSpan
  · rw [if_pos hcarries] at hspan
    rw [if_pos hcarries, Form.attribute, hspan]
  · rw [if_neg hcarries] at hspan
    rw [if_neg hcarries, Form.attribute, hspan, hname]

end Form

/-- **Attribution replaces what was there, and repeating it changes nothing.**  The tree keeps its
kinds, its scalars and their order; any tree that differs from the given one in its spans alone has
the same outcome; so the outcome has itself as its outcome, from the same seed, or from the span at
its root if the root can carry one. -/
theorem attributeFrom_renewed (o : Options) (f : Form) (seed : Span) :
    let out := f.attributeFrom o seed
    out.form.bare = f.bare
      ∧ (∀ f' : Form, f'.bare = f.bare → f'.attributeFrom o seed = out)
      ∧ out.form.attributeFrom o seed = out
      ∧ out.form.attribute o
        = if f.carriesSpan then .ok out else .error ⟨f.kindName⟩ := by
  intro out
  have hbare : out.form.bare = f.bare := f.bare_attributeFrom o seed
  have hagain : out.form.attributeFrom o seed = out := Form.attributeFrom_congr o hbare seed
  refine ⟨hbare, ?_, hagain, ?_⟩
  · intro f' hf'
    exact Form.attributeFrom_congr o hf' seed
  · have hroot := f.attribute_attributeFrom o seed
    rwa [hagain] at hroot

/-- Stale spans on a list, on a keyword that cannot carry one, on a symbol that is not found any more,
and on one that is found elsewhere; and a number as the root, which cannot carry its seed. -/
theorem attributeFrom_renewed_stale :
    let o : Options := ⟨.sequential, .stop, 1⟩
    let seed : Span := Span.seed "(:k 5\ny)".toList 2 7
    let stale : Option Span := some ⟨['?'], 9, 9, 90, 91⟩
    let tree (span : Option Span) : Form :=
      .node .list [.atom (.keyword ['k']) span, .atom (.symbol ['x']) span,
        .atom (.symbol ['y']) span] span
    let f : Form := tree none
    let f' : Form := tree stale
    let number : Form := .atom (.integer 5) stale
    f' ≠ f ∧ f'.attributeFrom o seed = f.attributeFrom o seed
      ∧ (f'.attributeFrom o seed).spanAt? [0] = some ⟨[':', 'k'], 2, 2, 8, 10⟩
      ∧ (f.attributeFrom o seed).spanAt? [1] = none
      ∧ ((f'.attributeFrom o seed).form.get? [2]).bind Form.span = some ⟨['y'], 3, 3, 13, 14⟩
      ∧ (f'.attributeFrom o seed).form.attribute o = .ok (f.attributeFrom o seed)
      ∧ (number.attributeFrom o seed).form.attribute o = .error ⟨"integer"⟩ := by
  intro o seed stale tree f f' number
  have hsame : f'.attributeFrom o seed = f.attributeFrom o seed :=
    (attributeFrom_renewed o f seed).2.1 f' rfl
  refine ⟨by simp [f, f', tree, stale], hsame, by decide +kernel, by decide +kernel,
    by decide +kernel, ?_, ?_⟩
  · rw [hsame]
    exact (attributeFrom_renewed o f seed).2.2.2
  · exact (attributeFrom_renewed o number seed).2.2.2

end EdnSpans
