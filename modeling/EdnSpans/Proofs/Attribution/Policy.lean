/-
**What is left out below a node that was not found.**

The two policies differ only below nodes that were not found: one searches nothing there, the other
goes on in the window in which such a node was searched.  This extra work has a cursor and windows
of its own, and nothing of it reaches a node that both policies search: its siblings are searched
from the same offsets, in the same windows.  So the outcome of the stricter policy is that of the
other one, cut off below every node that has no span.

Main definitions:

* `EdnSpans.Form.pruned` — a tree **without the spans below nodes that have none**.

Main results:

* `EdnSpans.Form.span_get?_pruned` — what is left at a path: its span, if all nodes above have one;
* `EdnSpans.Form.trace_stop` — **the stricter policy prunes the trace of the other**;
* `EdnSpans.stop_prunes_nearest` — the same for attribution, path by path.
-/
import EdnSpans.Proofs.Attribution.Containment
import EdnSpans.Proofs.Attribution.Renewal

set_option relaxedAutoImplicit false
set_option autoImplicit false

namespace EdnSpans

namespace Form

/-! ### Pruned trees -/

mutual

/-- The tree without the spans below nodes that have none. -/
def pruned : Form → Form
  | .atom s span => .atom s span
  | .node kind cs (some span) => .node kind (prunedAll cs) (some span)
  | .node kind cs none => .node kind (bareAll cs) none

/-- The trees without the spans below nodes that have none. -/
def prunedAll : List Form → List Form
  | [] => []
  | f :: fs => pruned f :: prunedAll fs

end

theorem prunedAll_eq_map (fs : List Form) : prunedAll fs = fs.map pruned := by
  induction fs with
  | nil => rfl
  | cons f fs ih => rw [prunedAll, ih, List.map_cons]

@[simp] theorem pruned_node_some (kind : Kind) (cs : List Form) (span : Span) :
    (Form.node kind cs (some span)).pruned = .node kind (cs.map pruned) (some span) := by
  rw [pruned, prunedAll_eq_map]

/-- Below a node without a span **nothing is left**. -/
theorem pruned_of_span_none {f : Form} (h : f.span = none) : f.pruned = f.bare := by
  cases f with
  | atom s m =>
      obtain rfl : m = none := h
      rfl
  | node kind cs m =>
      obtain rfl : m = none := h
      rfl

@[simp] theorem span_pruned (f : Form) : f.pruned.span = f.span := by
  cases f with
  | atom s m => rfl
  | node kind cs m => cases m <;> rfl

theorem children_pruned {f : Form} (h : f.span.isSome) :
    f.pruned.children = f.children.map pruned := by
  obtain ⟨span, hspan⟩ := Option.isSome_iff_exists.1 h
  cases f with
  | atom s m => rfl
  | node kind cs m =>
      obtain rfl : m = some span := hspan
      rw [pruned_node_some]
      rfl

theorem span_bare (f : Form) : f.bare.span = none := by
  cases f with
  | atom s m => rfl
  | node kind cs m => rfl

theorem span_get?_bare (f : Form) (path : NodePath) : (f.bare.get? path).bind span = none := by
  rw [get?_bare]
  cases f.get? path with
  | none => rfl
  | some g => exact g.span_bare

/-- The span that is left at a path is the one that was there, **if all nodes above have a span**,
and none otherwise. -/
theorem span_get?_pruned (f : Form) (path : NodePath) :
    (f.pruned.get? path).bind span
      = if ∀ up ∈ NodePath.ancestors path, ((f.get? up).bind span).isSome then (f.get? path).bind span
        else none := by
  induction path generalizing f with
  | nil => simp [NodePath.ancestors]
  | cons i path ih =>
      -- the nodes above are the root, and those above in the child that the path leads through
      have habove : (∀ up ∈ NodePath.ancestors (i :: path), ((f.get? up).bind span).isSome)
          ↔ f.span.isSome
            ∧ ∀ up ∈ NodePath.ancestors path, ((f.children[i]?).bind fun c =>
                (c.get? up).bind span).isSome := by
        simp only [NodePath.ancestors, List.mem_append, List.mem_map, List.mem_singleton, or_imp,
          forall_and, forall_exists_index, and_imp, forall_apply_eq_imp_iff₂, forall_eq, get?_nil,
          get?_cons, Option.bind_some, Option.bind_assoc]
        exact And.comm
      by_cases hroot : f.span.isSome
      · simp only [habove, hroot, true_and]
        rw [get?_cons, get?_cons, children_pruned hroot, List.getElem?_map]
        cases f.children[i]? with
        | none => simp
        | some c => exact ih c
      · have hnone : f.span = none := by simpa using hroot
        have hcut := span_get?_bare f (i :: path)
        simp only [habove, hroot, false_and, if_false, Bool.false_eq_true]
        rwa [pruned_of_span_none hnone]

end Form

/-! ### The two policies -/

/-- The options with another policy for the nodes below one that was not found. -/
def Options.withUnmatched (o : Options) (policy : Unmatched) : Options :=
  { o with unmatched := policy }

namespace Form

theorem traceChildren_none (o : Options) (unordered : Bool) (offset : Nat) (cs : List Form) :
    traceChildren o none unordered offset cs = cs.map (trace o none none) := by
  induction cs with
  | nil => rfl
  | cons c cs ih => rw [traceChildren, ih, List.map_cons]

section

variable (o : Options)

/-- If nothing is searched below a node that was not found, the node keeps its tree **and nothing
else**. -/
theorem trace_stop_none (f : Form) (outer : Option Window) :
    f.trace (o.withUnmatched .stop) none outer = f.bare := by
  induction f using Form.induct generalizing outer with
  | atom s m => rfl
  | node kind cs m ih =>
      have hinner : (o.withUnmatched .stop).inner kind none outer = none := rfl
      rw [trace, hinner, traceChildren_none, bare_node]
      congr 1
      exact List.map_congr_left fun c hc => ih c hc none

/-- Siblings are searched from the same offsets, **whatever is searched below those before them**. -/
theorem traceChildren_stop {cs : List Form}
    (ih : ∀ c ∈ cs, ∀ own outer, c.trace (o.withUnmatched .stop) own outer
      = (c.trace (o.withUnmatched .nearest) own outer).pruned)
    (w : Window) (unordered : Bool) (offset : Nat) :
    traceChildren (o.withUnmatched .stop) (some w) unordered offset cs
      = (traceChildren (o.withUnmatched .nearest) (some w) unordered offset cs).map pruned := by
  induction cs generalizing offset with
  | nil => rfl
  | cons c cs ihcs =>
      -- the policy has no part in the search and in the offset that it leaves behind
      have hstrategy (policy : Unmatched) : (o.withUnmatched policy).strategy = o.strategy := rfl
      have hadvance (policy : Unmatched) : (o.withUnmatched policy).advance = o.advance := rfl
      rw [traceChildren, traceChildren, List.map_cons, ih c (List.mem_cons_self ..),
        ihcs fun d hd => ih d (List.mem_cons_of_mem _ hd)]
      simp only [hstrategy, hadvance]

/-- The stricter policy **prunes the trace of the other**. -/
theorem trace_stop (f : Form) (own : Option Span) (outer : Option Window) :
    f.trace (o.withUnmatched .stop) own outer
      = (f.trace (o.withUnmatched .nearest) own outer).pruned := by
  induction f using Form.induct generalizing own outer with
  | atom s m => rfl
  | node kind cs m ih =>
      cases own with
      | none => rw [trace_stop_none, pruned_of_span_none (span_trace ..), bare_trace]
      | some span =>
          -- a node that was found opens the same window in both cases
          have hinner (policy : Unmatched) : (o.withUnmatched policy).inner kind (some span) outer
              = some ⟨span, o.interior kind⟩ := rfl
          rw [trace, trace, hinner, hinner, pruned_node_some, traceChildren_stop o ih]

end

end Form

/-- **The stricter policy finds what the other one finds, as long as every node above is found**,
and nothing else: whatever is searched below a node that was not found has no influence on the spans
of other nodes. -/
theorem stop_prunes_nearest (o : Options) (f : Form) (seed : Span) (path : NodePath) :
    let strict := f.attributeFrom (o.withUnmatched .stop) seed
    let lenient := f.attributeFrom (o.withUnmatched .nearest) seed
    strict.spanAt? path
        = (if ∀ up ∈ NodePath.ancestors path, (lenient.spanAt? up).isSome then lenient.spanAt? path
          else none)
      ∧ ∀ r, strict.spanAt? path = some r → lenient.spanAt? path = some r := by
  intro strict lenient
  have hprunes : strict.spanAt? path
      = if ∀ up ∈ NodePath.ancestors path, (lenient.spanAt? up).isSome then lenient.spanAt? path
        else none := by
    simp only [strict, lenient, Form.spanAt?_attributeFrom, Form.trace_stop]
    exact Form.span_get?_pruned _ path
  refine ⟨hprunes, ?_⟩
  intro r hr
  rw [hprunes] at hr
  split at hr
  · exact hr
  · cases hr

/-- A list that does not stand in the text: its symbol is found all the same, or not searched, and
the number behind it is found in both cases. -/
theorem stop_prunes_nearest_unmatched_list :
    let o : Options := ⟨.sequential, .stop, 1⟩
    let seed : Span := Span.seed "[x 5]".toList 1 0
    let f : Form := .node .vector
      [.node .list [.atom (.symbol ['x']) none] none, .atom (.integer 5) none] none
    let strict := f.attributeFrom (o.withUnmatched .stop) seed
    let lenient := f.attributeFrom (o.withUnmatched .nearest) seed
    lenient.spanAt? [0, 0] = some ⟨['x'], 1, 1, 1, 2⟩ ∧ strict.spanAt? [0, 0] = none
      ∧ strict.spanAt? [1] = some ⟨['5'], 1, 1, 3, 4⟩
      ∧ lenient.spanAt? [1] = some ⟨['5'], 1, 1, 3, 4⟩ := by
  intro o seed f strict lenient
  have hlist : lenient.spanAt? [0] = none := by decide +kernel
  have hnumber : strict.spanAt? [1] = some ⟨['5'], 1, 1, 3, 4⟩ := by decide +kernel
  refine ⟨by decide +kernel, ?_, hnumber, (stop_prunes_nearest o f seed [1]).2 _ hnumber⟩
  rw [(stop_prunes_nearest o f seed [0, 0]).1]
  refine if_neg ?_
  intro hall
  have hsome : (lenient.spanAt? [0]).isSome := hall [0] (by simp [NodePath.ancestors])
  simp [hlist] at hsome

end EdnSpans
