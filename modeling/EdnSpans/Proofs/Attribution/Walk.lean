/-
**Attribution in one walk.**

Attribution can be done in a single walk through the tree: on the way down every child is searched,
and on the way back each node is built anew and its span is put on it, or, if the node cannot carry
one, kept in a table under the path of the node.  The table keeps its entries in the order in which
they came in, and an entry for a path that is already there would take the place of the older one.

This never happens, since every node has a path of its own.  And although a node is settled only
after all nodes below it, the table is in pre-order, because the nodes whose spans go there have no
nodes below them.  So the walk has the same outcome as finding all spans first and taking those that
no node can carry off the finished tree.

Main definitions:

* `EdnSpans.Detached.insert` — an entry comes into a table;
* `EdnSpans.Form.walk`, `EdnSpans.Form.walkChildren` — **the walk**.

Main results:

* `EdnSpans.Form.run_walk` — the walk builds the tree and adds to the table what is taken off it;
* `EdnSpans.Attributed.entries_ordered`, `EdnSpans.Attributed.mem_entries_iff` — the nodes are told
  in pre-order, each of them once;
* `EdnSpans.spans_addressed` — **every span is in one place, under the path of its node**.
-/
import EdnSpans.Proofs.Attribution.Renewal
import EdnSpans.Proofs.Form.Order
import EdnSpans.Proofs.Reader.Grammar
import Mathlib.Data.List.Basic

set_option relaxedAutoImplicit false
set_option autoImplicit false

namespace EdnSpans

/-! ### The table -/

/-- Spans under paths, in the order in which they came in. -/
abbrev Detached := List (NodePath × Span)

/-- A span comes in under a path: in place of the one that is there, or behind all others. -/
def Detached.insert (path : NodePath) (span : Span) : Detached → Detached
  | [] => [(path, span)]
  | e :: table => if e.1 = path then (path, span) :: table else e :: insert path span table

/-- The table has no entry at the path or below it. -/
def Detached.Clear (table : Detached) (path : NodePath) : Prop := ∀ e ∈ table, ¬path <+: e.1

theorem Detached.insert_of_clear {table : Detached} {path : NodePath} (h : table.Clear path)
    (span : Span) : table.insert path span = table ++ [(path, span)] := by
  induction table with
  | nil => rfl
  | cons e table ih =>
      have hne : e.1 ≠ path := by
        intro heq
        exact h e (List.mem_cons_self ..) (heq ▸ List.prefix_refl path)
      rw [insert, if_neg hne, ih fun e he => h e (List.mem_cons_of_mem _ he), List.cons_append]

/-! ### The walk -/

namespace Form

/-- A node that was built anew is given its span, or the span is kept under the path of the node. -/
def settle (path : NodePath) (own : Option Span) (rebuilt : Form) : StateM Detached Form :=
  match own with
  | none => pure rebuilt
  | some span =>
      match rebuilt.attach span with
      | .attached f => pure f
      | .refused f span => do
          modify (Detached.insert path span)
          pure f

mutual

/-- The tree at a path built anew, with the span `own`, if it was found, at its root, which was
searched in the window `outer`. -/
def walk (o : Options) (path : NodePath) (own : Option Span) (outer : Option Window) :
    Form → StateM Detached Form
  | .atom s _ => settle path own (.atom s none)
  | .node kind children _ => do
      let window := o.inner kind own outer
      let offset := (window.map (·.offset)).getD 0
      let rebuilt ← walkChildren o path window kind.isUnordered 0 offset children
      settle path own (.node kind rebuilt none)

/-- The children, from the given index on, of a node at a path, built anew one after the other. -/
def walkChildren (o : Options) (path : NodePath) (window : Option Window) (unordered : Bool)
    (index offset : Nat) : List Form → StateM Detached (List Form)
  | [] => pure []
  | f :: fs =>
      match window with
      | none => do
          let g ← walk o (NodePath.child path index) none none f
          let gs ← walkChildren o path none unordered (index + 1) offset fs
          pure (g :: gs)
      | some w => do
          let finding := w.search o.strategy unordered offset f
          let g ← walk o (NodePath.child path index) (finding.found.map (·.span))
            (some finding.searched) f
          let gs ← walkChildren o path window unordered (index + 1)
            (o.advance offset finding.found) fs
          pure (g :: gs)

end

/-! ### What the walk comes to -/

/-- The span that a node at a path has and cannot carry. -/
def shedding (entry : NodePath × Form) : Option (NodePath × Span) :=
  if entry.2.carriesSpan then none else entry.2.span.map (entry.1, ·)

theorem fst_of_shedding {entry : NodePath × Form} {e : NodePath × Span}
    (h : shedding entry = some e) : e.1 = entry.1 := by
  rw [shedding] at h
  split at h
  · cases h
  · obtain ⟨span, -, rfl⟩ := Option.map_eq_some_iff.1 h
    rfl

/-- What is taken off one child is kept **apart from its siblings**. -/
theorem clear_sheddings (f : Form) (path : NodePath) {i j : Nat} (h : i ≠ j) :
    Detached.Clear ((nodesAt (NodePath.child path i) f).filterMap shedding)
      (NodePath.child path j) := by
  intro e he hprefix
  obtain ⟨entry, hentry, hshedding⟩ := List.mem_filterMap.1 he
  obtain ⟨down, hdown⟩ := exists_below_of_mem_nodesAt hentry
  rw [fst_of_shedding hshedding, hdown, NodePath.child, NodePath.child, List.append_assoc,
    List.prefix_append_right_inj] at hprefix
  exact h (List.cons_prefix_cons.1 hprefix).1.symm

theorem run_settle_node (path : NodePath) (own : Option Span) (kind : Kind) (cs : List Form)
    (table : Detached) :
    (settle path own (.node kind cs none)).run table = pure (.node kind cs own, table) := by
  cases own with
  | none => rfl
  | some span => rfl

theorem run_settle_atom {path : NodePath} {table : Detached} (h : table.Clear path)
    (own : Option Span) (s : Scalar) :
    (settle path own (.atom s none)).run table
      = pure ((Form.atom s own).shed,
          table ++ (nodesAt path (.atom s own)).filterMap shedding) := by
  cases own with
  | none => simp [settle, shed, nodesAt, shedding, span]
  | some m =>
      by_cases hs : s.carriesSpan
      · simp [settle, attach, carriesSpan, setSpan, shed, nodesAt, shedding, hs]
      · have hinsert := Detached.insert_of_clear h m
        simp [settle, attach, carriesSpan, shed, nodesAt, shedding, span, hs, hinsert]

section

variable {o : Options}

theorem run_walkChildren {cs : List Form}
    (ih : ∀ c ∈ cs, ∀ (path : NodePath) (own : Option Span) (outer : Option Window)
      (table : Detached), table.Clear path →
      (c.walk o path own outer).run table
        = pure ((c.trace o own outer).shed,
            table ++ (nodesAt path (c.trace o own outer)).filterMap shedding))
    (path : NodePath) (window : Option Window) (unordered : Bool) (index offset : Nat)
    (table : Detached) (h : ∀ i, index ≤ i → table.Clear (NodePath.child path i)) :
    (walkChildren o path window unordered index offset cs).run table
      = pure ((traceChildren o window unordered offset cs).map shed,
          table ++ (nodesFrom path index
            (traceChildren o window unordered offset cs)).filterMap shedding) := by
  induction cs generalizing index offset table with
  | nil => simp [walkChildren, traceChildren, nodesFrom]
  | cons c cs ihcs =>
      -- the child adds to the table under its own path only
      have hnext (traced : Form) : ∀ i, index + 1 ≤ i →
          Detached.Clear (table ++ (nodesAt (NodePath.child path index) traced).filterMap shedding)
            (NodePath.child path i) := by
        intro i hi e he
        rcases List.mem_append.1 he with he | he
        · exact h i (by omega) e he
        · exact clear_sheddings traced path (by omega) e he
      have hhere := h index (Nat.le_refl _)
      replace ihcs := ihcs fun d hd => ih d (List.mem_cons_of_mem _ hd)
      cases window with
      | none =>
          have hc := ih c (List.mem_cons_self ..) (NodePath.child path index) none none table hhere
          rw [walkChildren, traceChildren]
          simp only [StateT.run_bind, StateT.run_pure, hc, pure_bind,
            ihcs (index + 1) offset _ (hnext _), List.map_cons, nodesFrom, List.filterMap_append,
            List.append_assoc]
      | some w =>
          have hc := ih c (List.mem_cons_self ..) (NodePath.child path index)
            ((w.search o.strategy unordered offset c).found.map (·.span))
            (some (w.search o.strategy unordered offset c).searched) table hhere
          rw [walkChildren, traceChildren]
          simp only [StateT.run_bind, StateT.run_pure, hc, pure_bind,
            ihcs (index + 1) _ _ (hnext _), List.map_cons, nodesFrom, List.filterMap_append,
            List.append_assoc]

/-- The walk **builds the tree, and adds to the table what the tree cannot carry**. -/
theorem run_walk (f : Form) (path : NodePath) (own : Option Span) (outer : Option Window)
    (table : Detached) (h : table.Clear path) :
    (f.walk o path own outer).run table
      = pure ((f.trace o own outer).shed,
          table ++ (nodesAt path (f.trace o own outer)).filterMap shedding) := by
  induction f using Form.induct generalizing path own outer table with
  | atom s m => exact run_settle_atom h own s
  | node kind cs m ih =>
      have hbelow : ∀ i, 0 ≤ i → table.Clear (NodePath.child path i) := by
        intro i _ e he hprefix
        exact h e he ((List.prefix_append path [i]).trans hprefix)
      have hchildren := run_walkChildren ih path (o.inner kind own outer) kind.isUnordered 0
        (((o.inner kind own outer).map (·.offset)).getD 0) table hbelow
      -- a collection carries its span, so that only its children have added to the table
      rw [walk, trace, shed, shedAll_eq_map, nodesAt, List.filterMap_cons_none rfl]
      simp only [StateT.run_bind, hchildren, pure_bind, run_settle_node]

end

/-- The attribution of a tree whose root has the given span, **in one walk**. -/
def attributeByWalk (o : Options) (f : Form) (seed : Span) : Attributed :=
  let (form, detached) := Id.run ((f.walk o [] (some seed) none).run [])
  ⟨form, detached⟩

/-- The walk has **the same outcome** as finding all spans first. -/
theorem attributeByWalk_eq (o : Options) (f : Form) (seed : Span) :
    f.attributeByWalk o seed = f.attributeFrom o seed := by
  have hclear : Detached.Clear [] [] := by
    intro e he
    cases he
  have hwalk := run_walk (o := o) f [] (some seed) none [] hclear
  rw [attributeByWalk, hwalk]
  rfl

/-! ### The nodes of the outcome -/

theorem nodes_shed (f : Form) : f.shed.nodes = f.nodes.map (Prod.map id shed) :=
  nodesAt_of_children_eq_map children_shed [] f

end Form

namespace Attributed

variable (a : Attributed)

/-- Nodes are told of **in pre-order**. -/
theorem entries_ordered : (a.entries.map (·.path)).Pairwise NodePath.Precedes := by
  rw [entries, List.map_map, List.pairwise_map]
  exact a.form.nodes_ordered

theorem mem_entries_iff {e : Entry} :
    e ∈ a.entries ↔ ∃ node, a.form.get? e.path = some node ∧ e = a.entry e.path node := by
  rw [entries, List.mem_map]
  constructor
  · rintro ⟨⟨path, node⟩, hmem, rfl⟩
    exact ⟨node, Form.mem_nodes_iff.1 hmem, rfl⟩
  · rintro ⟨node, hget, he⟩
    exact ⟨(e.path, node), Form.mem_nodes_iff.2 hget, he.symm⟩

/-- All nodes are told of, and **nothing else**. -/
theorem mem_paths_iff {path : NodePath} :
    path ∈ a.entries.map (·.path) ↔ (a.form.get? path).isSome := by
  rw [List.mem_map, Option.isSome_iff_exists]
  constructor
  · rintro ⟨e, he, rfl⟩
    obtain ⟨node, hget, -⟩ := a.mem_entries_iff.1 he
    exact ⟨node, hget⟩
  · rintro ⟨node, hget⟩
    exact ⟨a.entry path node, a.mem_entries_iff.2 ⟨node, hget, rfl⟩, rfl⟩

theorem span_of_mem_entries {e : Entry} (h : e ∈ a.entries) : e.span = a.spanAt? e.path := by
  obtain ⟨node, hget, he⟩ := a.mem_entries_iff.1 h
  rw [spanAt?, hget, Option.bind_some]
  exact congrArg Entry.span he

/-- The entry is that of a node that has a span and cannot carry it. -/
def isApart (e : Entry) : Bool :=
  e.span.isSome && (a.form.get? e.path).any fun node => !node.carriesSpan

/-- Every span is in one place, under the path of its node. -/
structure Addressed : Prop where
  /-- Only symbols and collections carry a span. -/
  carried : ∀ path node, a.form.get? path = some node → node.span.isSome → node.carriesSpan
  /-- All nodes are told of, and nothing else. -/
  listed : ∀ path, path ∈ a.entries.map (·.path) ↔ (a.form.get? path).isSome
  /-- They are told of in pre-order. -/
  ordered : (a.entries.map (·.path)).Pairwise NodePath.Precedes
  /-- Each of them is told of once. -/
  once : (a.entries.map (·.path)).Nodup
  /-- With each of them its span is told. -/
  told : ∀ e ∈ a.entries, e.span = a.spanAt? e.path
  /-- Beside the tree are the spans of the nodes that cannot carry theirs, in the same order. -/
  apart : a.detached.map Prod.fst = (a.entries.filter a.isApart).map (·.path)
  /-- Each of them is there once. -/
  apartOnce : (a.detached.map Prod.fst).Nodup

end Attributed

namespace Form

/-- The entries of the outcome, in terms of the spans that were found. -/
theorem entries_attributeFrom (o : Options) (f : Form) (seed : Span) :
    (f.attributeFrom o seed).entries
      = (f.trace o (some seed) none).nodes.map fun entry =>
          (f.attributeFrom o seed).entry entry.1 entry.2.shed := by
  rw [Attributed.entries, attributeFrom, nodes_shed, List.map_map]
  rfl

theorem carriesSpan_shed (f : Form) : f.shed.carriesSpan = f.carriesSpan := by
  rw [← carriesSpan_bare, bare_shed, carriesSpan_bare]

/-- What is told of a node is the span that was found for it. -/
theorem spanOf_attributeFrom {o : Options} {f g : Form} {seed : Span} {path : NodePath}
    (h : (f.trace o (some seed) none).get? path = some g) :
    (f.attributeFrom o seed).spanOf path g.shed = g.span := by
  have hshed : (f.attributeFrom o seed).form.get? path = some g.shed := by
    rw [attributeFrom, get?_shed, h, Option.map_some]
  have hfound := f.spanAt?_attributeFrom o seed path
  rwa [Attributed.spanAt?, hshed, h] at hfound

theorem isApart_entry {o : Options} {f : Form} {seed : Span} {entry : NodePath × Form}
    (h : entry ∈ (f.trace o (some seed) none).nodes) :
    (f.attributeFrom o seed).isApart ((f.attributeFrom o seed).entry entry.1 entry.2.shed)
      = (shedding entry).isSome := by
  obtain ⟨path, g⟩ := entry
  have hget := mem_nodes_iff.1 h
  have hshed : (f.attributeFrom o seed).form.get? path = some g.shed := by
    rw [attributeFrom, get?_shed, hget, Option.map_some]
  have hspan := spanOf_attributeFrom hget
  simp only [Attributed.isApart, Attributed.entry, hspan, hshed, Option.any_some, carriesSpan_shed,
    shedding]
  by_cases hcarries : g.carriesSpan
  · simp [hcarries]
  · simp [hcarries]

/-- Beside the tree are **the spans of the nodes that cannot carry theirs**, in the order of the
nodes. -/
theorem paths_detached (o : Options) (f : Form) (seed : Span) :
    (f.attributeFrom o seed).detached.map Prod.fst
      = ((f.attributeFrom o seed).entries.filter (f.attributeFrom o seed).isApart).map
          (·.path) := by
  have hdetached : (f.attributeFrom o seed).detached
      = (f.trace o (some seed) none).nodes.filterMap shedding := rfl
  rw [hdetached, entries_attributeFrom, List.map_filterMap, List.filter_map, List.map_map,
    ← List.filterMap_eq_map, List.filterMap_filter]
  refine List.filterMap_congr ?_
  intro entry hentry
  simp only [Function.comp_apply, isApart_entry hentry]
  cases hshedding : shedding entry with
  | none => rfl
  | some e => simp [fst_of_shedding hshedding, Attributed.entry]

/-- Attribution leaves **every span in one place**. -/
theorem addressed_attributeFrom (o : Options) (f : Form) (seed : Span) :
    (f.attributeFrom o seed).Addressed := by
  have honce : ((f.attributeFrom o seed).entries.map (·.path)).Nodup :=
    ((f.attributeFrom o seed).entries_ordered).imp fun h => h.ne
  refine ⟨?_, fun path => Attributed.mem_paths_iff _, Attributed.entries_ordered _, honce,
    fun e he => Attributed.span_of_mem_entries _ he, f.paths_detached o seed, ?_⟩
  · intro path node hget hsome
    rw [attributeFrom, get?_shed] at hget
    obtain ⟨g, -, rfl⟩ := Option.map_eq_some_iff.1 hget
    rw [carriesSpan_shed]
    rw [span_shed] at hsome
    split at hsome
    · assumption
    · cases hsome
  · rw [paths_detached]
    exact honce.sublist (List.filter_sublist.map _)

/-! ### The entries of a map -/

/-- Entry `i` of a map has its key at index `2 * i` and its value **at the next one**. -/
theorem getElem?_inTurn (entries : List (Form × Form)) (i : Nat) :
    (inTurn entries)[2 * i]? = entries[i]?.map Prod.fst
      ∧ (inTurn entries)[2 * i + 1]? = entries[i]?.map Prod.snd := by
  induction entries generalizing i with
  | nil => exact ⟨rfl, rfl⟩
  | cons e entries ih =>
      cases i with
      | zero => exact ⟨rfl, rfl⟩
      | succ i => exact ih i

theorem get?_child_inTurn {f : Form} {path : NodePath} {entries : List (Form × Form)}
    {m : Option Span} (h : f.get? path = some (.node .map (inTurn entries) m)) (i : Nat) :
    f.get? (path.child (2 * i)) = entries[i]?.map Prod.fst
      ∧ f.get? (path.child (2 * i + 1)) = entries[i]?.map Prod.snd := by
  have hchild (j : Nat) : f.get? (path.child j) = (inTurn entries)[j]? := by
    rw [NodePath.child, get?_append, h, Option.bind_some, get?_cons, children]
    cases (inTurn entries)[j]? <;> rfl
  rw [hchild, hchild]
  exact getElem?_inTurn entries i

end Form

/-- **Every span is in one place, under the path of its node.**  A single walk that keeps the spans
of plain scalars in a table, in the order in which they come in, has the outcome of attribution.  In
it only symbols and collections carry spans; the nodes are told of in pre-order, each of them once
and with its span; and the table has the plain scalars that have a span, each of them once and in
the same order.  The key and the value of entry `i` of a map are its children `2 * i` and
`2 * i + 1`. -/
theorem spans_addressed (o : Options) (f : Form) (seed : Span) :
    let out := f.attributeFrom o seed
    f.attributeByWalk o seed = out ∧ out.Addressed
      ∧ ∀ (path : NodePath) (entries : List (Form × Form)) (m : Option Span) (i : Nat),
        f.get? path = some (.node .map (Form.inTurn entries) m) →
          (out.form.get? (path.child (2 * i))).map Form.bare
              = entries[i]?.map (fun entry => entry.1.bare)
            ∧ (out.form.get? (path.child (2 * i + 1))).map Form.bare
              = entries[i]?.map (fun entry => entry.2.bare) := by
  intro out
  refine ⟨f.attributeByWalk_eq o seed, f.addressed_attributeFrom o seed, ?_⟩
  intro path entries m i hmap
  obtain ⟨hkey, hvalue⟩ := Form.get?_child_inTurn hmap i
  simp only [out, Form.map_bare_get?_attributeFrom, hkey, hvalue, Option.map_map]
  exact ⟨rfl, rfl⟩

/-- A keyword and a symbol as an entry of a map, and a number behind the map: the spans of the
keyword and of the number are kept beside the tree, and that of the symbol is not. -/
theorem spans_addressed_map_in_vector :
    let o : Options := ⟨.sequential, .stop, 1⟩
    let seed : Span := Span.seed "[\x7b:k x\x7d 5]".toList 1 0
    let entry : Form × Form := (.atom (.keyword ['k']) none, .atom (.symbol ['x']) none)
    let f : Form := .node .vector
      [.node .map (Form.inTurn [entry]) none, .atom (.integer 5) none] none
    let out := f.attributeFrom o seed
    f.attributeByWalk o seed = out ∧ out.detached.map Prod.fst = [[0, 0], [1]]
      ∧ (out.entries.filter out.isApart).map (·.path) = [[0, 0], [1]]
      ∧ (out.form.get? [0, 1]).map Form.bare = some entry.2 := by
  intro o seed entry f out
  obtain ⟨hwalk, haddressed, hentries⟩ := spans_addressed o f seed
  have hdetached : out.detached.map Prod.fst = [[0, 0], [1]] := by decide +kernel
  refine ⟨hwalk, hdetached, ?_, (hentries [0] [entry] none 0 rfl).2⟩
  rw [← haddressed.apart]
  exact hdetached

end EdnSpans
