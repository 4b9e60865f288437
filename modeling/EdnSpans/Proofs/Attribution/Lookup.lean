/-
**The span of a node, wherever it is kept.**

Attribution finds a span for every node on the way down, and afterwards takes the spans off the
nodes that cannot carry them and keeps them in a list.  For somebody who asks for the span of a node
this makes no difference: the answer is the span that was found for it.

Main definitions:

* `EdnSpans.Attributed.Records` — a span is kept somewhere under a path.

Main results:

* `EdnSpans.Form.lookup_sheddings` — a span that was taken off is found under the path of its node;
* `EdnSpans.Form.spanAt?_attributeFrom` — **the span of a node is the span that was found for it**;
* `EdnSpans.Form.get?_trace_of_records` — nothing else is kept.
-/
import EdnSpans.Attribution.Attributed
import EdnSpans.Proofs.Form.Nodes

set_option relaxedAutoImplicit false
set_option autoImplicit false

namespace EdnSpans

namespace Form

/-! ### Spans that are taken off -/

/-- A list that is the graph of a function is looked up as the function is applied. -/
theorem lookup_eq_of_graph {entries : List (NodePath × Span)} (find : NodePath → Option Span)
    (h : ∀ path span, (path, span) ∈ entries ↔ find path = some span) (path : NodePath) :
    entries.lookup path = find path := by
  cases hlookup : entries.lookup path with
  | none =>
      cases hfind : find path with
      | none => rfl
      | some span =>
          have := List.lookup_eq_none_iff.1 hlookup _ ((h path span).2 hfind)
          simp at this
  | some span =>
      -- whichever entry is found first, it belongs to the graph
      obtain ⟨before, after, hentries, -⟩ := List.lookup_eq_some_iff.1 hlookup
      have hmem : (path, span) ∈ entries := by simp [hentries]
      exact ((h path span).1 hmem).symm

theorem mem_sheddings_iff {f : Form} {path : NodePath} {r : Span} :
    (path, r) ∈ f.sheddings
      ↔ ∃ g, f.get? path = some g ∧ (if g.carriesSpan then none else g.span) = some r := by
  rw [sheddings, List.mem_filterMap]
  constructor
  · rintro ⟨⟨p, g⟩, hmem, hg⟩
    simp only at hg
    split at hg
    · cases hg
    · next hcarries =>
        obtain ⟨r', hr', heq⟩ := Option.map_eq_some_iff.1 hg
        cases heq
        exact ⟨g, mem_nodes_iff.1 hmem, by rw [if_neg hcarries, hr']⟩
  · rintro ⟨g, hget, hspan⟩
    refine ⟨(path, g), mem_nodes_iff.2 hget, ?_⟩
    split at hspan
    · cases hspan
    · next hcarries => simp only [if_neg hcarries, hspan, Option.map_some]

/-- A span that was taken off is found under the path of its node. -/
theorem lookup_sheddings (f : Form) (path : NodePath) :
    f.sheddings.lookup path
      = (f.get? path).bind fun g => if g.carriesSpan then none else g.span := by
  refine lookup_eq_of_graph
    (fun path => (f.get? path).bind fun g => if g.carriesSpan then none else g.span) ?_ path
  intro path r
  rw [mem_sheddings_iff, Option.bind_eq_some_iff]

/-! ### Trees without those spans -/

theorem shedAll_eq_map (fs : List Form) : shedAll fs = fs.map shed := by
  induction fs with
  | nil => rfl
  | cons f fs ih => rw [shedAll, ih, List.map_cons]

@[simp] theorem children_shed (f : Form) : f.shed.children = f.children.map shed := by
  cases f with
  | atom s m => rfl
  | node k cs m => rw [shed, children, shedAll_eq_map, children]

@[simp] theorem span_shed (f : Form) : f.shed.span = if f.carriesSpan then f.span else none := by
  cases f with
  | atom s m => rfl
  | node k cs m => rfl

theorem get?_shed (f : Form) (path : NodePath) : f.shed.get? path = (f.get? path).map shed :=
  get?_of_children_eq_map children_shed f path

/-- The span of a node is **the span that was found for it**, whether the node carries it or not. -/
theorem spanAt?_attributeFrom (o : Options) (f : Form) (seed : Span) (path : NodePath) :
    (f.attributeFrom o seed).spanAt? path
      = ((f.trace o (some seed) none).get? path).bind Form.span := by
  simp only [attributeFrom, Attributed.spanAt?]
  generalize f.trace o (some seed) none = traced
  rw [get?_shed]
  cases hget : traced.get? path with
  | none => rfl
  | some g =>
      simp only [Option.map_some, Option.bind_some, Attributed.spanOf, lookup_sheddings, hget,
        span_shed]
      by_cases hcarries : g.carriesSpan
      · rw [if_pos hcarries, if_pos hcarries, Option.or_none]
      · rw [if_neg hcarries, if_neg hcarries, Option.none_or]

end Form

/-! ### Everything that is recorded -/

/-- The span is kept in the result under the path, on the node that stands there or beside the
tree. -/
def Attributed.Records (a : Attributed) (path : NodePath) (r : Span) : Prop :=
  (∃ g, a.form.get? path = some g ∧ g.span = some r) ∨ (path, r) ∈ a.detached

/-- Every span that is kept, on a node or beside the tree, is **one that was found**. -/
theorem Form.get?_trace_of_records {o : Options} {f : Form} {seed r : Span} {path : NodePath}
    (h : (f.attributeFrom o seed).Records path r) :
    ∃ g, (f.trace o (some seed) none).get? path = some g ∧ g.span = some r := by
  simp only [Attributed.Records, attributeFrom] at h
  rw [get?_shed] at h
  rcases h with ⟨g', hshed, hspan⟩ | hmem
  · obtain ⟨g, hget, rfl⟩ := Option.map_eq_some_iff.1 hshed
    rw [span_shed] at hspan
    split at hspan
    · exact ⟨g, hget, hspan⟩
    · cases hspan
  · obtain ⟨g, hget, hspan⟩ := mem_sheddings_iff.1 hmem
    split at hspan
    · cases hspan
    · exact ⟨g, hget, hspan⟩

end EdnSpans
