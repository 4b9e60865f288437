/-
**The first strategy looks along the path only.**

If every child is searched in the whole text of its parent, the offset at which a search begins
never moves, no search begins anew, and siblings have nothing to say to each other.  Then the span
of a node can be found without the rest of the tree, on the way down from the root: each node on the
path is searched in the text of the nearest span above it, and what is found becomes the nearest
span for the next one.  So the span stays the same whatever is done to the nodes that are not on the
path.

Main definitions:

* `EdnSpans.Form.nodesAlong` — the nodes on a path, below the root;
* `EdnSpans.Sighting`, `EdnSpans.Sighting.next` — what is known at a node on the way down, and **one
  step** of the way;
* `EdnSpans.Form.alone` — a node without its children and its span.

Main results:

* `EdnSpans.Window.search_first`, `EdnSpans.Window.cursor_first` — searches begin at the front of
  the window, always;
* `EdnSpans.Form.span_get?_trace_first` — the trace of a tree, along a path;
* `EdnSpans.spanAt?_first` — **the span of a node is found along its path**.
-/
import EdnSpans.Proofs.Attribution.Siblings

set_option relaxedAutoImplicit false
set_option autoImplicit false

namespace EdnSpans

/-! ### The way down -/

/-- The nodes on the path, from the child of the root down to the node at the path, if there is
one. -/
def Form.nodesAlong (f : Form) : NodePath → Option (List Form)
  | [] => some []
  | i :: path => (f.children[i]?).bind fun c => (c.nodesAlong path).map (c :: ·)

/-- What is known at a node on the way down. -/
structure Sighting where
  /-- The span of the node, if it was found. -/
  own : Option Span
  /-- The span in whose text the next node is searched, if it is searched at all. -/
  current : Option Span

/-- **One step down**: the next node is searched in the text of the current span.  If it is found,
its span becomes the current one; if not, nothing is searched any more, or the current span stays
what it was. -/
def Sighting.next (policy : Unmatched) (above : Sighting) (node : Form) : Sighting :=
  let own := above.current.bind fun span =>
    (node.locate .first span.source).map fun m => span.part m.start m.text
  let otherwise :=
    match policy with
    | .stop => none
    | .nearest => above.current
  ⟨own, own.or otherwise⟩

/-! ### Searches at the front -/

namespace Window

/-- The front of a window is where the search begins, and it does not begin anew. -/
theorem search_first (unordered : Bool) (f : Form) (w : Window) :
    w.search .first unordered w.offset f = ⟨w, w.find? .first f⟩ := by
  rw [search]
  cases hfind : find? .first f w with
  | some found => rfl
  | none => simp

theorem cursor_first {o : Options} (ho : o.strategy = .first) (unordered : Bool) (w : Window)
    (offset : Nat) (cs : List Form) : w.cursor o unordered offset cs = offset := by
  induction cs generalizing offset with
  | nil => rfl
  | cons c cs ih =>
      rw [cursor, ih]
      simp only [Options.advance, ho]

end Window

/-- The whole text of a span. -/
def Span.window (s : Span) : Window := ⟨s, 0⟩

/-! ### The trace along a path -/

namespace Form

variable {o : Options}

/-- The window for the children of a node is the whole text of the current span, if the node itself
was searched in a whole text. -/
theorem inner_next (ho : o.strategy = .first) (above : Sighting) (node : Form) (kind : Kind) :
    o.inner kind (above.next o.unmatched node).own (above.current.map Span.window)
      = (above.next o.unmatched node).current.map Span.window := by
  simp only [Sighting.next]
  generalize (above.current.bind fun span =>
    (node.locate .first span.source).map fun m => span.part m.start m.text) = own
  cases own with
  | some span => simp only [Options.inner, Options.interior, ho, Option.some_or, Option.map_some,
      Span.window]
  | none => cases hpolicy : o.unmatched <;> simp [Options.inner, hpolicy]

/-- The step from a node to its child: the child is searched in the whole text of the current span,
**whatever its siblings are**. -/
theorem getElem?_traceChildren_first (ho : o.strategy = .first) (above : Sighting)
    (unordered : Bool) (cs : List Form) (i : Nat) :
    let window := above.current.map Span.window
    (traceChildren o window unordered ((window.map (·.offset)).getD 0) cs)[i]?
      = (cs[i]?).map fun c => c.trace o (above.next o.unmatched c).own window := by
  intro window
  cases hcurrent : above.current with
  | none =>
      have hwindow : window = none := by simp only [window, hcurrent, Option.map_none]
      rw [hwindow, traceChildren_none, List.getElem?_map]
      simp only [Sighting.next, hcurrent, Option.bind_none]
  | some span =>
      have hwindow : window = some span.window := by simp only [window, hcurrent, Option.map_some]
      rw [hwindow, Option.map_some, Option.getD_some, getElem?_traceChildren]
      refine congrArg (fun g => (cs[i]?).map g) (funext ?_)
      intro c
      have hfound : (span.window.find? .first c).map (·.span) = (above.next o.unmatched c).own := by
        rw [Window.find?_eq_part, Option.map_map]
        simp only [Sighting.next, hcurrent, Option.bind_some, Span.window, Window.text,
          List.drop_zero, Function.comp_def, Nat.zero_add]
      simp only [Window.cursor_first ho, ho, Window.search_first, hfound]

/-- The trace of a tree, **along a path**. -/
theorem span_get?_trace_first (ho : o.strategy = .first) {f : Form} {here : Sighting}
    {outer : Option Window} (hinner : ∀ kind, o.inner kind here.own outer
      = here.current.map Span.window) (path : NodePath) :
    ((f.trace o here.own outer).get? path).bind span
      = (f.nodesAlong path).bind fun nodes =>
          (nodes.foldl (Sighting.next o.unmatched) here).own := by
  induction path generalizing f here outer with
  | nil => exact span_trace ..
  | cons i path ih =>
      cases f with
      | atom s m => rfl
      | node kind cs m =>
          have hchild := getElem?_traceChildren_first ho here kind.isUnordered cs i
          rw [get?_cons, trace, children, hinner, hchild, nodesAlong, children]
          cases cs[i]? with
          | none => rfl
          | some c =>
              rw [Option.map_some, Option.bind_some, Option.bind_some, ih (inner_next ho here c),
                Option.bind_map]
              rfl

/-! ### What is not on the path -/

/-- The node by itself: its kind or its scalar, without its children and its span. -/
def alone : Form → Form
  | .atom s _ => .atom s none
  | .node kind _ _ => .node kind [] none

end Form

/-- One step down looks at the node by itself. -/
theorem Sighting.next_alone (policy : Unmatched) (above : Sighting) (node : Form) :
    above.next policy node.alone = above.next policy node := by
  cases node with
  | atom s m => rfl
  | node kind cs m => rfl

theorem Sighting.foldl_map_alone (policy : Unmatched) (above : Sighting) (nodes : List Form) :
    (nodes.map Form.alone).foldl (next policy) above = nodes.foldl (next policy) above := by
  rw [List.foldl_map]
  simp only [next_alone]

namespace Form

/-- Trees with the same nodes on a path, apart from their children, have the same nodes along it. -/
theorem map_alone_nodesAlong {f f' : Form} {path : NodePath}
    (h : ∀ up, up ≠ [] → up <+: path → (f'.get? up).map alone = (f.get? up).map alone) :
    (f'.nodesAlong path).map (List.map alone) = (f.nodesAlong path).map (List.map alone) := by
  induction path generalizing f f' with
  | nil => rfl
  | cons i path ih =>
      have hfirst := h [i] (by simp) (by simp)
      rw [nodesAlong, nodesAlong]
      simp only [get?_cons, get?_nil] at hfirst
      cases hc : f.children[i]? with
      | none =>
          cases hc' : f'.children[i]? with
          | none => rfl
          | some c' => simp [hc, hc'] at hfirst
      | some c =>
          cases hc' : f'.children[i]? with
          | none => simp [hc, hc'] at hfirst
          | some c' =>
              have halone : c'.alone = c.alone := by simpa [hc, hc'] using hfirst
              have hbelow : (c'.nodesAlong path).map (List.map alone)
                  = (c.nodesAlong path).map (List.map alone) := by
                refine ih ?_
                intro up _ hprefix
                have hcons := h (i :: up) (by simp) (List.cons_prefix_cons.2 ⟨rfl, hprefix⟩)
                rwa [get?_cons, get?_cons, hc, hc'] at hcons
              have hmap (d : Form) :
                  List.map alone ∘ (d :: ·) = (d.alone :: ·) ∘ List.map alone := rfl
              rw [Option.bind_some, Option.bind_some, Option.map_map, Option.map_map, hmap, hmap,
                ← Option.map_map, ← Option.map_map, hbelow, halone]

end Form

/-- **The span of a node is found along its path**, if every child is searched in the whole text of
its parent.  So it stays the same whatever the other nodes are. -/
theorem spanAt?_first (policy : Unmatched) (firstLine : Nat) (f : Form) (seed : Span)
    (path : NodePath) :
    let o : Options := ⟨.first, policy, firstLine⟩
    (f.attributeFrom o seed).spanAt? path
        = (f.nodesAlong path).bind (fun nodes =>
            (nodes.foldl (Sighting.next policy) ⟨some seed, some seed⟩).own)
      ∧ ∀ f' : Form,
          (∀ up, up ≠ [] → up <+: path → (f'.get? up).map Form.alone = (f.get? up).map Form.alone) →
            (f'.attributeFrom o seed).spanAt? path = (f.attributeFrom o seed).spanAt? path := by
  intro o
  have halong (g : Form) : (g.attributeFrom o seed).spanAt? path
      = (g.nodesAlong path).bind (fun nodes =>
          (nodes.foldl (Sighting.next policy) ⟨some seed, some seed⟩).own) := by
    rw [Form.spanAt?_attributeFrom]
    exact @Form.span_get?_trace_first o rfl g ⟨some seed, some seed⟩ none (fun kind => rfl) path
  refine ⟨halong f, ?_⟩
  intro f' hsame
  have halone (g : Form) : (g.attributeFrom o seed).spanAt? path
      = ((g.nodesAlong path).map (List.map Form.alone)).bind (fun nodes =>
          (nodes.foldl (Sighting.next policy) ⟨some seed, some seed⟩).own) := by
    rw [halong, Option.bind_map]
    simp only [Function.comp_def, Sighting.foldl_map_alone]
  rw [halone, halone, Form.map_alone_nodesAlong hsame]

/-- A symbol in a list: the sibling before it is replaced, and everything behind the list. -/
theorem spanAt?_first_other_siblings :
    let o : Options := ⟨.first, .nearest, 1⟩
    let seed : Span := Span.seed "[(a\nb) b]".toList 1 0
    let b : Form := .atom (.symbol ['b']) none
    let f : Form := .node .vector [.node .list [.atom (.symbol ['a']) none, b] none, b] none
    let f' : Form := .node .vector [.node .list [.node .set [b, b] none, b] none] none
    (f.attributeFrom o seed).spanAt? [0, 1] = some ⟨['b'], 2, 2, 4, 5⟩
      ∧ (f'.attributeFrom o seed).spanAt? [0, 1] = some ⟨['b'], 2, 2, 4, 5⟩ := by
  intro o seed b f f'
  have hb : (f.attributeFrom o seed).spanAt? [0, 1] = some ⟨['b'], 2, 2, 4, 5⟩ := by decide +kernel
  refine ⟨hb, ?_⟩
  have hsame : ∀ up, up ≠ [] → up <+: [0, 1] →
      (f'.get? up).map Form.alone = (f.get? up).map Form.alone := by
    intro up hup hprefix
    rcases List.prefix_cons_iff.1 hprefix with rfl | ⟨rest, rfl, hrest⟩
    · exact absurd rfl hup
    · rcases List.prefix_cons_iff.1 hrest with rfl | ⟨down, rfl, hdown⟩
      · rfl
      · obtain rfl := List.prefix_nil.1 hdown
        rfl
  rw [(spanAt?_first .nearest 1 f seed [0, 1]).2 f' hsame, hb]

end EdnSpans
