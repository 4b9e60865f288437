/-
**Siblings are searched one behind the other.**

The children of a collection are searched in one window, from left to right.  All that a child owes
to its siblings is the offset at which its own search begins; and in the sequential strategy this
offset is the furthest end of what was found of them.  So in vectors and lists, where no search ever
begins anew, the spans of siblings are in order and do not overlap.  None of this depends on whether
the collection was found itself, nor on whether the tree has anything to do with the text.

The offset does depend on the siblings before a child, but only on their kinds and scalars and not
on what is below them.  So a node is searched in the same window whatever its children are.

Main definitions:

* `EdnSpans.Window.cursor` — the offset at which the search goes on **behind given siblings**;
* `EdnSpans.Form.withChildrenAt` — the form with other children at one of its nodes.

Main results:

* `EdnSpans.Form.getElem?_traceChildren` — what comes of a single child;
* `EdnSpans.Form.exists_trace_withChildrenAt` — what comes of a node **does not depend on the
  children of that node**;
* `EdnSpans.siblings_in_order` — **the spans of siblings are in order**, and behind the opener of
  their parent.
-/
import EdnSpans.Proofs.Attribution.Placement
import EdnSpans.Proofs.Attribution.Policy

set_option relaxedAutoImplicit false
set_option autoImplicit false

namespace EdnSpans

/-! ### Where the search goes on -/

namespace Options

variable (o : Options)

theorem le_advance (offset : Nat) (found : Option Found) : offset ≤ o.advance offset found := by
  simp only [advance]
  split
  · exact Nat.le_max_left ..
  · exact Nat.le_refl _

theorem advance_none (offset : Nat) : o.advance offset none = offset := by
  cases hstrategy : o.strategy <;> simp only [advance, hstrategy]

theorem advance_sequential {o : Options} (ho : o.strategy = .sequential) (offset : Nat)
    (found : Found) : o.advance offset (some found) = max offset found.stop := by
  simp only [advance, ho]

end Options

namespace Window

/-- The offset at which the search goes on **behind the given siblings**, which are searched one
after the other from the given offset on. -/
def cursor (o : Options) (unordered : Bool) (w : Window) : Nat → List Form → Nat
  | offset, [] => offset
  | offset, c :: cs =>
      cursor o unordered w (o.advance offset (w.search o.strategy unordered offset c).found) cs

section

variable (o : Options) (unordered : Bool) (w : Window)

theorem cursor_append (offset : Nat) (cs ds : List Form) :
    w.cursor o unordered offset (cs ++ ds)
      = w.cursor o unordered (w.cursor o unordered offset cs) ds := by
  induction cs generalizing offset with
  | nil => rfl
  | cons c cs ih => exact ih _

/-- The search never goes back. -/
theorem le_cursor (offset : Nat) (cs : List Form) : offset ≤ w.cursor o unordered offset cs := by
  induction cs generalizing offset with
  | nil => exact Nat.le_refl _
  | cons c cs ih => exact Nat.le_trans (o.le_advance offset _) (ih _)

/-- Later siblings are searched behind what the search for an earlier one has left. -/
theorem advance_le_cursor (offset : Nat) {cs : List Form} {c : Form} {i j : Nat} (hij : i < j)
    (hc : cs[i]? = some c) :
    let before := w.cursor o unordered offset (cs.take i)
    o.advance before (w.search o.strategy unordered before c).found
      ≤ w.cursor o unordered offset (cs.take j) := by
  intro before
  have hsplit : cs.take j = cs.take i ++ c :: (cs.drop (i + 1)).take (j - (i + 1)) := by
    have hj : j = i + 1 + (j - (i + 1)) := by omega
    rw [hj, List.take_add, List.take_add_one, hc, Option.toList_some, List.append_assoc,
      List.singleton_append, ← hj]
  rw [hsplit, cursor_append, cursor]
  exact le_cursor ..

end

variable {w : Window} {strategy : Strategy} {f : Form} {found : Found}

/-- What is found begins where the search began, or further on. -/
theorem add_offset_le_start (h : w.find? strategy f = some found) :
    w.span.start + w.offset ≤ found.span.start := by
  obtain ⟨m, -, rfl⟩ := Option.map_eq_some_iff.1 h
  simp only [lift]
  omega

/-- Wherever a child was searched, it was in the text of the same span. -/
theorem stop_eq_of_search {unordered : Bool} {offset : Nat}
    (h : (w.search strategy unordered offset f).found = some found) :
    found.span.stop = w.span.start + found.stop := by
  obtain ⟨hsearched, hfound⟩ := w.search_eq strategy unordered offset f
  rw [h] at hfound
  have hstop := span_stop_eq hfound.symm
  rcases hsearched with heq | heq
  · rwa [heq] at hstop
  · rwa [heq] at hstop

/-- Where children need not stand in order, the search may begin anew at the front of the window,
but never before it. -/
theorem add_offset_le_start_of_search {unordered : Bool} {offset : Nat} (hle : w.offset ≤ offset)
    (h : (w.search strategy unordered offset f).found = some found) :
    w.span.start + w.offset ≤ found.span.start := by
  obtain ⟨hsearched, hfound⟩ := w.search_eq strategy unordered offset f
  rw [h] at hfound
  have hstart := add_offset_le_start hfound.symm
  rcases hsearched with heq | heq
  · rw [heq] at hstart
    dsimp only at hstart
    omega
  · rwa [heq] at hstart

/-- Where children stand in order, the search never begins anew. -/
theorem search_ordered (strategy : Strategy) (offset : Nat) (f : Form) (w : Window) :
    w.search strategy false offset f = ⟨⟨w.span, offset⟩, find? strategy f ⟨w.span, offset⟩⟩ := by
  rw [search]
  cases hfind : find? strategy f { w with offset := offset } with
  | some found => rfl
  | none => simp

end Window

/-! ### What comes of a child -/

namespace Form

variable {o : Options}

/-- A child is searched **behind the siblings before it**, and nothing else of them matters. -/
theorem getElem?_traceChildren (w : Window) (unordered : Bool) (offset : Nat) (cs : List Form)
    (i : Nat) :
    (traceChildren o (some w) unordered offset cs)[i]?
      = (cs[i]?).map fun c =>
          let finding :=
            w.search o.strategy unordered (w.cursor o unordered offset (cs.take i)) c
          c.trace o (finding.found.map (·.span)) (some finding.searched) := by
  induction cs generalizing offset i with
  | nil => simp [traceChildren]
  | cons c cs ih =>
      rw [traceChildren]
      cases i with
      | zero => rfl
      | succ i =>
          rw [List.getElem?_cons_succ, List.getElem?_cons_succ, List.take_succ_cons, ih]
          rfl

/-- The span of a child is what the search for it has found. -/
theorem span_getElem?_traceChildren {w : Window} {unordered : Bool} {offset : Nat} {cs : List Form}
    {i : Nat} {c : Form} (hc : cs[i]? = some c) :
    ((traceChildren o (some w) unordered offset cs)[i]?).bind span
      = (w.search o.strategy unordered (w.cursor o unordered offset (cs.take i)) c).found.map
          (·.span) := by
  rw [getElem?_traceChildren, hc]
  exact span_trace ..

theorem exists_of_span_traceChildren {w : Window} {unordered : Bool} {offset : Nat}
    {cs : List Form} {i : Nat} {r : Span}
    (h : ((traceChildren o (some w) unordered offset cs)[i]?).bind span = some r) :
    ∃ c found, cs[i]? = some c
      ∧ (w.search o.strategy unordered (w.cursor o unordered offset (cs.take i)) c).found
        = some found
      ∧ found.span = r := by
  cases hc : cs[i]? with
  | none =>
      rw [getElem?_traceChildren, hc] at h
      cases h
  | some c =>
      rw [span_getElem?_traceChildren hc] at h
      obtain ⟨found, hfound, hspan⟩ := Option.map_eq_some_iff.1 h
      exact ⟨c, found, rfl, hfound, hspan⟩

/-- The spans of children that stand in order **are in order**, in whatever window they are searched
or in none. -/
theorem stop_le_start_of_traceChildren (ho : o.strategy = .sequential) {window : Option Window}
    {offset : Nat} {cs : List Form} {i j : Nat} {r s : Span} (hij : i < j)
    (hr : ((traceChildren o window false offset cs)[i]?).bind span = some r)
    (hs : ((traceChildren o window false offset cs)[j]?).bind span = some s) :
    r.stop ≤ s.start := by
  cases window with
  | none =>
      rw [traceChildren_none, List.getElem?_map] at hr
      obtain ⟨d, hd, hspan⟩ := Option.bind_eq_some_iff.1 hr
      obtain ⟨c, -, rfl⟩ := Option.map_eq_some_iff.1 hd
      rw [span_trace] at hspan
      cases hspan
  | some w =>
      obtain ⟨c, found, hc, hfound, rfl⟩ := exists_of_span_traceChildren hr
      obtain ⟨d, found', -, hfound', rfl⟩ := exists_of_span_traceChildren hs
      -- the later search begins behind the end of what the earlier one has found
      have hcursor := w.advance_le_cursor o false offset hij hc
      dsimp only at hcursor
      rw [hfound, Options.advance_sequential ho] at hcursor
      have hstop := Window.stop_eq_of_search hfound
      rw [Window.search_ordered] at hfound'
      have hstart := Window.add_offset_le_start hfound'
      dsimp only at hstart
      omega

/-- The spans of all children are behind the front of their window. -/
theorem add_offset_le_start_of_traceChildren {w : Window} {unordered : Bool} {cs : List Form}
    {i : Nat} {s : Span}
    (hs : ((traceChildren o (some w) unordered w.offset cs)[i]?).bind span = some s) :
    w.span.start + w.offset ≤ s.start := by
  obtain ⟨c, found, -, hfound, rfl⟩ := exists_of_span_traceChildren hs
  exact Window.add_offset_le_start_of_search (w.le_cursor o unordered w.offset _) hfound

/-! ### Other children at a node -/

/-- The node with other children, if it can have any. -/
def withChildren (cs : List Form) : Form → Form
  | .atom s m => .atom s m
  | .node kind _ m => .node kind cs m

/-- The form with other children **at the node at a path**. -/
def withChildrenAt (cs : List Form) : NodePath → Form → Form
  | [], f => f.withChildren cs
  | i :: path, f => f.withChildren (f.children.modify i (withChildrenAt cs path))

theorem withChildren_children (f : Form) : f.withChildren f.children = f := by
  cases f with
  | atom s m => rfl
  | node kind cs m => rfl

theorem withChildrenAt_self {f : Form} {path : NodePath} {kind : Kind} {cs : List Form}
    {m : Option Span} (h : f.get? path = some (.node kind cs m)) : f.withChildrenAt cs path = f := by
  induction path generalizing f with
  | nil =>
      cases h
      rfl
  | cons i path ih =>
      obtain ⟨c, hc, hget⟩ := Option.bind_eq_some_iff.1 h
      have hmodify : f.children.modify i (withChildrenAt cs path) = f.children := by
        refine List.ext_getElem? ?_
        intro j
        rw [List.getElem?_modify]
        by_cases hij : i = j
        · subst hij
          simp [hc, ih hget]
        · simp [hij]
      rw [withChildrenAt, hmodify, withChildren_children]

/-- A search does not look at children. -/
theorem locate_withChildren (strategy : Strategy) (cs : List Form) (f : Form) (t : Text) :
    (f.withChildren cs).locate strategy t = f.locate strategy t := by
  cases f with
  | atom s m => rfl
  | node kind ds m => rfl

theorem locate_withChildrenAt (strategy : Strategy) (cs : List Form) (path : NodePath) (f : Form)
    (t : Text) : (f.withChildrenAt cs path).locate strategy t = f.locate strategy t := by
  cases path with
  | nil => exact locate_withChildren ..
  | cons i path => exact locate_withChildren ..

theorem search_withChildrenAt (strategy : Strategy) (unordered : Bool) (offset : Nat)
    (cs : List Form) (path : NodePath) (f : Form) (w : Window) :
    w.search strategy unordered offset (f.withChildrenAt cs path)
      = w.search strategy unordered offset f := by
  simp only [Window.search, Window.find?, locate_withChildrenAt]

/-- A node gets **the same span and is searched in the same window** whatever its children are. -/
theorem exists_trace_withChildrenAt {f : Form} {path : NodePath} {kind : Kind} {cs : List Form}
    {m : Option Span} (h : f.get? path = some (.node kind cs m)) (own : Option Span)
    (outer : Option Window) :
    ∃ own' outer', ∀ ds : List Form,
      ((f.withChildrenAt ds path).trace o own outer).get? path
        = some ((Form.node kind ds m).trace o own' outer') := by
  induction path generalizing f own outer with
  | nil =>
      cases h
      exact ⟨own, outer, fun ds => rfl⟩
  | cons i path ih =>
      obtain ⟨c, hc, hget⟩ := Option.bind_eq_some_iff.1 h
      cases f with
      | atom s n => cases hc
      | node kind' es n =>
          have hchild (ds : List Form) :
              (es.modify i (withChildrenAt ds path))[i]? = some (c.withChildrenAt ds path) := by
            have hc : es[i]? = some c := hc
            rw [List.getElem?_modify, hc]
            simp
          cases hwindow : o.inner kind' own outer with
          | none =>
              obtain ⟨own', outer', htrace⟩ := ih hget none none
              refine ⟨own', outer', ?_⟩
              intro ds
              rw [get?_cons, withChildrenAt, withChildren, children, trace, children, hwindow,
                traceChildren_none, List.getElem?_map, hchild, ← htrace ds]
              rfl
          | some w =>
              -- the siblings before the child are the same, and so is the search for it
              let offset := w.cursor o kind'.isUnordered w.offset (es.take i)
              let finding := w.search o.strategy kind'.isUnordered offset c
              obtain ⟨own', outer', htrace⟩ :=
                ih hget (finding.found.map (·.span)) (some finding.searched)
              refine ⟨own', outer', ?_⟩
              intro ds
              have htake : (es.modify i (withChildrenAt ds path)).take i = es.take i := by
                rw [List.take_modify, List.modify_eq_self (List.length_take_le ..)]
              rw [get?_cons, withChildrenAt, withChildren, children, trace, children, hwindow,
                Option.map_some, Option.getD_some, getElem?_traceChildren, hchild, htake,
                Option.map_some, Option.bind_some, search_withChildrenAt, htrace ds]

theorem exists_trace_of_node {f : Form} {path : NodePath} {kind : Kind} {cs : List Form}
    {m : Option Span} (h : f.get? path = some (.node kind cs m)) (own : Option Span)
    (outer : Option Window) :
    ∃ own' outer', (f.trace o own outer).get? path
      = some ((Form.node kind cs m).trace o own' outer') := by
  obtain ⟨own', outer', htrace⟩ := exists_trace_withChildrenAt h own outer
  have hself := htrace cs
  rw [withChildrenAt_self h] at hself
  exact ⟨own', outer', hself⟩

/-- The spans of the children of a node, from the trace of the node. -/
theorem spanAt?_child {f g : Form} {seed : Span} {path : NodePath}
    (h : (f.trace o (some seed) none).get? path = some g) (i : Nat) :
    (f.attributeFrom o seed).spanAt? (path.child i) = (g.children[i]?).bind span := by
  rw [spanAt?_attributeFrom, NodePath.child, get?_append, h, Option.bind_some, get?_cons]
  cases g.children[i]? with
  | none => rfl
  | some c => rfl

theorem spanAt?_of_get?_trace {f g : Form} {seed : Span} {path : NodePath}
    (h : (f.trace o (some seed) none).get? path = some g) :
    (f.attributeFrom o seed).spanAt? path = g.span := by
  rw [spanAt?_attributeFrom, h, Option.bind_some]

end Form

/-! ### Attribution -/

/-- **The spans of siblings are in order.**  In a vector or a list, found or not, the span of a child
ends before that of any later child begins; and in any collection that was found, the spans of the
children begin behind the opener. -/
theorem siblings_in_order (policy : Unmatched) (firstLine : Nat) (f : Form) (seed : Span)
    {path : NodePath} {node : Form} {kind : Kind} (hnode : f.get? path = some node)
    (hkind : node.kind? = some kind) :
    let out := f.attributeFrom ⟨.sequential, policy, firstLine⟩ seed
    (kind = .vector ∨ kind = .list → ∀ i j r s, i < j →
        out.spanAt? (path.child i) = some r → out.spanAt? (path.child j) = some s →
          r.stop ≤ s.start)
      ∧ ∀ r, out.spanAt? path = some r → ∀ i s, out.spanAt? (path.child i) = some s →
          r.start + kind.opener.length ≤ s.start := by
  intro out
  cases node with
  | atom s m => cases hkind
  | node kind' cs m =>
      cases hkind
      obtain ⟨own, outer, htrace⟩ := Form.exists_trace_of_node
        (o := ⟨.sequential, policy, firstLine⟩) hnode (some seed) none
      have hchild := Form.spanAt?_child htrace
      have hroot := Form.spanAt?_of_get?_trace htrace
      rw [Form.span_trace] at hroot
      rw [Form.trace, Form.children] at hchild
      refine ⟨?_, ?_⟩
      · intro hordered i j r s hij hr hs
        have hunordered : kind.isUnordered = false := by
          rcases hordered with rfl | rfl
          · rfl
          · rfl
        rw [hchild, hunordered] at hr hs
        exact Form.stop_le_start_of_traceChildren rfl hij hr hs
      · intro r hr i s hs
        rw [hroot] at hr
        subst hr
        rw [hchild] at hs
        exact Form.add_offset_le_start_of_traceChildren (w := ⟨r, kind.opener.length⟩) hs

/-- A list that does not stand in the text, but whose symbols do: they are found in the text of the
vector around it, one behind the other. -/
theorem siblings_in_order_unmatched_list :
    let f : Form := .node .vector
      [.node .list [.atom (.symbol ['x']) none, .atom (.symbol ['x']) none] none,
        .atom (.integer 5) none] none
    let seed : Span := Span.seed "[5 x x]".toList 3 20
    let out := f.attributeFrom ⟨.sequential, .nearest, 1⟩ seed
    let first : Span := ⟨['x'], 3, 3, 23, 24⟩
    let second : Span := ⟨['x'], 3, 3, 25, 26⟩
    out.spanAt? [0] = none ∧ out.spanAt? [0, 0] = some first ∧ out.spanAt? [0, 1] = some second
      ∧ first.stop ≤ second.start ∧ out.spanAt? [1] = some ⟨['5'], 3, 3, 21, 22⟩
      ∧ seed.start + Kind.vector.opener.length ≤ 21 := by
  intro f seed out first second
  have hfirst : out.spanAt? [0, 0] = some first := by decide +kernel
  have hsecond : out.spanAt? [0, 1] = some second := by decide +kernel
  have hnumber : out.spanAt? [1] = some ⟨['5'], 3, 3, 21, 22⟩ := by decide +kernel
  have hlist := @siblings_in_order .nearest 1 f seed [0] _ _ rfl rfl
  have hvector := @siblings_in_order .nearest 1 f seed [] _ _ rfl rfl
  exact ⟨by decide +kernel, hfirst, hsecond,
    hlist.1 (.inr rfl) 0 1 first second (by decide) hfirst hsecond, hnumber,
    hvector.2 seed rfl 1 _ hnumber⟩

end EdnSpans
