/-
**An export loses nothing.**

The export of an attributed tree is a text, and what it is the text of can be found out from it: the
text has the outline of the tree as its only reading, and the outline tells of each node its kind
and its canonical text, its span, and whether the node itself carries it.  Kind and text together
determine a scalar, although neither does so alone: a symbol may have the text of anything else.

So the tree is determined by its export, with all spans on its nodes.  The spans beside the tree are
determined as well, since attribution puts there what is told of the other nodes, in the order in
which the nodes are told of.

Main definitions:

* `EdnSpans.Json.rows` — what the objects of an export say of their nodes, in pre-order;
* `EdnSpans.Entry.row` — what should be said of a node;
* `EdnSpans.Entry.apart?` — the span of a node that does not carry it.

Main results:

* `EdnSpans.Outline.rows_toJson`, `EdnSpans.Attributed.flatten_outline` — the objects of an export
  are the entries of the tree;
* `EdnSpans.Attributed.form_eq_of_toJson_eq` — the tree is determined by its outline;
* `EdnSpans.Form.detached_attributeFrom` — the spans beside the tree are determined by the entries;
* `EdnSpans.exportText_faithful` — **the export determines the outcome, and lists its entries**.
-/
import EdnSpans.Export.Outline
import EdnSpans.Proofs.Attribution.Walk
import EdnSpans.Proofs.Export.Json
import EdnSpans.Proofs.Reader.RoundTrip

set_option relaxedAutoImplicit false
set_option autoImplicit false

namespace EdnSpans

/-! ### The rows of an export -/

namespace Json

/-- What an object says of its node. -/
structure Row where
  /-- The path to the node. -/
  path : Json
  /-- The name of its kind. -/
  kind : Json
  /-- The span, or `null`. -/
  span : Json
  /-- The node itself carries its span. -/
  attached : Json

/-- The member with the given name, or `null`. -/
def memberNamed (name : String) (members : List (Text × Json)) : Json :=
  (members.lookup name.toList).getD .null

/-- What an object with the given members says of its node. -/
def rowOf (members : List (Text × Json)) : Row where
  path := memberNamed "path" members
  kind := memberNamed "kind" members
  span := memberNamed "span" members
  attached := memberNamed "attached" members

mutual

/-- The row of an object and those of all objects below it, in pre-order. -/
def rows : Json → List Row
  | .object members => rowOf members :: rowsBelow members
  | _ => []

/-- The rows of the objects among the children of an object with the given members. -/
def rowsBelow : List (Text × Json) → List Row
  | [] => []
  | (name, value) :: members =>
      if name = "children".toList then rowsWithin value else rowsBelow members

/-- The rows of the objects in an array. -/
def rowsWithin : Json → List Row
  | .array items => rowsAll items
  | _ => []

/-- The rows of several objects, one object after the other. -/
def rowsAll : List Json → List Row
  | [] => []
  | item :: items => rows item ++ rowsAll items

end

end Json

/-- What an export says of a node. -/
def Entry.row (e : Entry) : Json.Row where
  path := .string (NodePath.text e.path)
  kind := .string e.kindName.toList
  span := (e.span.map Outline.spanJson).getD .null
  attached := .bool e.attached

namespace Outline

mutual

/-- The rows of an outline are **its entries in pre-order**. -/
theorem rows_toJson (o : Outline) : o.toJson.rows = o.flatten.map Entry.row := by
  cases o with
  | node entry text children =>
      rw [toJson, Json.rows, flatten, List.map_cons, ← rowsAll_toJsonAll children]
      rfl

theorem rowsAll_toJsonAll (os : List Outline) :
    Json.rowsAll (toJsonAll os) = (flattenAll os).map Entry.row := by
  cases os with
  | nil => rfl
  | cons o os =>
      rw [toJsonAll, Json.rowsAll, flattenAll, List.map_append, rows_toJson o, rowsAll_toJsonAll os]

end

/-! ### What an outline determines -/

theorem spanJson_inj {r r' : Span} (h : spanJson r = spanJson r') : r = r' := by
  cases r
  cases r'
  simp only [spanJson, Json.object.injEq, List.cons.injEq, Prod.mk.injEq, Json.number.injEq,
    Json.string.injEq, true_and, and_true] at h
  obtain ⟨rfl, rfl, rfl, rfl, rfl⟩ := h
  rfl

/-- A span or its absence is determined by how it is written. -/
theorem spanJson_getD_inj {m m' : Option Span}
    (h : (m.map spanJson).getD .null = (m'.map spanJson).getD .null) : m = m' := by
  cases m with
  | none =>
      cases m' with
      | none => rfl
      | some r' => simp [spanJson] at h
  | some r =>
      cases m' with
      | none => simp [spanJson] at h
      | some r' => rw [spanJson_inj h]

theorem toJson_inj {e e' : Entry} {t t' : Text} {os os' : List Outline}
    (h : (node e t os).toJson = (node e' t' os').toJson) :
    e.row = e'.row ∧ t = t' ∧ toJsonAll os = toJsonAll os' := by
  simp only [toJson, Json.object.injEq, List.cons.injEq, Prod.mk.injEq, Json.array.injEq,
    true_and, and_true] at h
  obtain ⟨hattached, hchildren, hkind, hpath, hspan, htext⟩ := h
  exact ⟨by simp only [Entry.row, hattached, hkind, hpath, hspan], Json.string.inj htext, hchildren⟩

end Outline

/-- The row of a node determines all that is told of it, the path apart. -/
theorem Entry.row_inj {e e' : Entry} (h : e.row = e'.row) :
    e.kindName = e'.kindName ∧ e.attached = e'.attached ∧ e.span = e'.span := by
  simp only [row, Json.Row.mk.injEq, Json.string.injEq, Json.bool.injEq, String.toList_inj] at h
  obtain ⟨-, hkind, hspan, hattached⟩ := h
  exact ⟨hkind, hattached, Outline.spanJson_getD_inj hspan⟩

theorem Scalar.kindName_ne_name (s : Scalar) (kind : Kind) : s.kindName ≠ kind.name := by
  cases s <;> cases kind <;> simp [kindName, Kind.name]

theorem Kind.name_inj {kind kind' : Kind} (h : kind.name = kind'.name) : kind = kind' := by
  cases kind <;> cases kind' <;> first | rfl | simp [name] at h

namespace Attributed

variable {a b : Attributed}

theorem outlineAt_eq (a : Attributed) (path : NodePath) (f : Form) :
    a.outlineAt path f = .node (a.entry path f) f.text (a.outlinesFrom path 0 f.children) := by
  cases f with
  | atom s m => rfl
  | node kind cs m => rfl

theorem flattenAll_outlinesFrom {cs : List Form}
    (ih : ∀ c ∈ cs, ∀ path, (a.outlineAt path c).flatten
      = (c.nodesAt path).map fun (path, node) => a.entry path node)
    (path : NodePath) (index : Nat) :
    Outline.flattenAll (a.outlinesFrom path index cs)
      = (Form.nodesFrom path index cs).map fun (path, node) => a.entry path node := by
  induction cs generalizing index with
  | nil => rfl
  | cons c cs ihcs =>
      rw [outlinesFrom, Outline.flattenAll, Form.nodesFrom, List.map_append,
        ih c (List.mem_cons_self ..), ihcs fun d hd => ih d (List.mem_cons_of_mem _ hd)]

theorem flatten_outlineAt (a : Attributed) (path : NodePath) (f : Form) :
    (a.outlineAt path f).flatten = (f.nodesAt path).map fun (path, node) => a.entry path node := by
  induction f using Form.induct generalizing path with
  | atom s m => rfl
  | node kind cs m ih =>
      rw [outlineAt, Outline.flatten, Form.nodesAt, List.map_cons, flattenAll_outlinesFrom ih]

/-- The outline tells of the nodes **what the entries tell of them**, in the same order. -/
theorem flatten_outline (a : Attributed) : a.outline.flatten = a.entries :=
  a.flatten_outlineAt [] a.form

/-- The span that a node carries, in terms of what is told of the node. -/
theorem span_eq_of_entry (a : Attributed) (path : NodePath) (f : Form) :
    f.span = if (a.entry path f).attached then (a.entry path f).span else none := by
  cases hspan : f.span with
  | none => simp [entry, hspan]
  | some r => simp [entry, spanOf, hspan]

/-- What an export says of a node determines its kind and **the span that it carries**. -/
theorem kindName_span_of_row_eq {f g : Form} {path path' : NodePath}
    (h : (a.entry path f).row = (b.entry path' g).row) :
    f.kindName = g.kindName ∧ f.span = g.span := by
  obtain ⟨hkind, hattached, hspan⟩ := Entry.row_inj h
  refine ⟨hkind, ?_⟩
  rw [a.span_eq_of_entry path f, b.span_eq_of_entry path' g, hattached, hspan]

/-- The step from the children to their parent. -/
theorem children_eq_of_toJsonAll_eq {cs ds : List Form}
    (ih : ∀ c ∈ cs, ∀ {d : Form}, c.FloatFree → ∀ {path path' : NodePath},
      (a.outlineAt path c).toJson = (b.outlineAt path' d).toJson → c = d)
    (hfree : ∀ c ∈ cs, c.FloatFree) {path path' : NodePath} {index index' : Nat}
    (h : Outline.toJsonAll (a.outlinesFrom path index cs)
      = Outline.toJsonAll (b.outlinesFrom path' index' ds)) : cs = ds := by
  induction cs generalizing ds index index' with
  | nil =>
      cases ds with
      | nil => rfl
      | cons d ds => simp [outlinesFrom, Outline.toJsonAll] at h
  | cons c cs ihcs =>
      cases ds with
      | nil => simp [outlinesFrom, Outline.toJsonAll] at h
      | cons d ds =>
          simp only [outlinesFrom, Outline.toJsonAll, List.cons.injEq] at h
          have hc : c ∈ c :: cs := List.mem_cons_self ..
          have hd := ih c hc (hfree c hc) h.1
          have hds := ihcs (fun c hc => ih c (List.mem_cons_of_mem _ hc))
            (fun c hc => hfree c (List.mem_cons_of_mem _ hc)) h.2
          rw [hd, hds]

/-- The tree, with the spans on its nodes, **is determined by its outline**. -/
theorem form_eq_of_toJson_eq {f g : Form} (hfree : f.FloatFree) {path path' : NodePath}
    (h : (a.outlineAt path f).toJson = (b.outlineAt path' g).toJson) : f = g := by
  induction f using Form.induct generalizing g path path' with
  | atom s m =>
      rw [outlineAt_eq, outlineAt_eq] at h
      obtain ⟨hrow, htext, -⟩ := Outline.toJson_inj h
      obtain ⟨hkind, hspan⟩ := kindName_span_of_row_eq hrow
      cases g with
      | atom t n =>
          have hs : ∀ x, s ≠ .float x := by
            rintro x rfl
            exact Form.throughout_atom.1 hfree x m rfl
          have hscalar := Scalar.eq_of_kindName_of_text hs hkind htext
          have hspan : m = n := hspan
          rw [hscalar, hspan]
      | node kind' ds n => exact absurd hkind (Scalar.kindName_ne_name s kind')
  | node kind cs m ih =>
      rw [outlineAt_eq, outlineAt_eq] at h
      obtain ⟨hrow, -, hchildren⟩ := Outline.toJson_inj h
      obtain ⟨hkind, hspan⟩ := kindName_span_of_row_eq hrow
      cases g with
      | atom t n => exact absurd hkind.symm (Scalar.kindName_ne_name t kind)
      | node kind' ds n =>
          have hds : cs = ds :=
            children_eq_of_toJsonAll_eq ih (Form.throughout_node.1 hfree).2 hchildren
          have hspan : m = n := hspan
          rw [Kind.name_inj hkind, hds, hspan]

/-- Trees that agree, and of whose nodes the same is said, **have the same entries**. -/
theorem entries_eq_of_rows_eq (hform : a.form = b.form)
    (h : a.entries.map Entry.row = b.entries.map Entry.row) : a.entries = b.entries := by
  rw [entries, entries, List.map_map, List.map_map, hform] at h
  rw [entries, entries, hform]
  refine List.map_congr_left ?_
  rintro ⟨path, node⟩ hnode
  obtain ⟨-, -, hspan⟩ := Entry.row_inj (List.map_inj_left.1 h (path, node) hnode)
  have hspan : a.spanOf path node = b.spanOf path node := hspan
  simp only [entry, hspan]

end Attributed

/-! ### The spans beside the tree -/

/-- The span of a node that does not carry it, with its path. -/
def Entry.apart? (e : Entry) : Option (NodePath × Span) :=
  if e.attached then none else e.span.map (e.path, ·)

namespace Form

/-- Beside the tree are **the spans of the nodes that do not carry theirs**, in the order in which
the nodes are told of. -/
theorem detached_attributeFrom (o : Options) (f : Form) (seed : Span) :
    (f.attributeFrom o seed).detached
      = (f.attributeFrom o seed).entries.filterMap Entry.apart? := by
  have hdetached : (f.attributeFrom o seed).detached
      = (f.trace o (some seed) none).nodes.filterMap shedding := rfl
  rw [hdetached, entries_attributeFrom, List.filterMap_map]
  refine List.filterMap_congr ?_
  rintro ⟨path, g⟩ hnode
  have hspan := spanOf_attributeFrom (mem_nodes_iff.1 hnode)
  simp only [Function.comp_apply, Entry.apart?, Attributed.entry, hspan, span_shed, shedding]
  by_cases hcarries : g.carriesSpan
  · cases hg : g.span with
    | none => simp [hcarries]
    | some r => simp [hcarries]
  · simp [hcarries]

/-- Whether a tree has floating-point numbers does not depend on its spans. -/
theorem FloatFree.of_bare_eq {f g : Form} (h : f.FloatFree) (hbare : g.bare = f.bare) :
    g.FloatFree := by
  rintro path node hget x m rfl
  have hmap : (f.get? path).map bare = some (.atom (.float x) none) := by
    rw [← get?_bare, ← hbare, get?_bare, hget]
    rfl
  obtain ⟨node, hnode, hbare⟩ := Option.map_eq_some_iff.1 hmap
  cases node with
  | atom s n =>
      cases hbare
      exact h path _ hnode x n rfl
  | node kind cs n => cases hbare

end Form

/-- **The export determines the outcome, and lists its entries.**  If two outcomes of attribution, of
whatever trees, from whatever seeds and with whatever options, have the same export, then they have
the same tree, the same spans on it and the same spans beside it, provided that there are no
floating-point numbers in one of the trees.  Each export is the text of a JSON value, and of no other
one; the objects in that value, in pre-order, are the entries of the outcome: the text of the path,
the name of the kind, the span or `null`, and whether the node itself carries it. -/
theorem exportText_faithful {f : Form} (hf : f.FloatFree) (g : Form) (o o' : Options)
    (seed seed' : Span) :
    let a := f.attributeFrom o seed
    let b := g.attributeFrom o' seed'
    (a.exportText = b.exportText → a = b)
      ∧ ∀ out ∈ [a, b], ∃ j : Json, (∀ j' : Json, j'.text = out.exportText ↔ j' = j)
        ∧ j.rows = out.entries.map Entry.row := by
  intro a b
  have hrows (out : Attributed) : out.outline.toJson.rows = out.entries.map Entry.row := by
    rw [Outline.rows_toJson, out.flatten_outline]
  refine ⟨?_, fun out _ => ⟨out.outline.toJson, fun j' => Json.text_injective.eq_iff, hrows out⟩⟩
  intro htext
  have hjson : a.outline.toJson = b.outline.toJson := Json.text_injective htext
  have hfree : a.form.FloatFree := hf.of_bare_eq (f.bare_attributeFrom o seed)
  have hform : a.form = b.form := Attributed.form_eq_of_toJson_eq hfree hjson
  have hentries : a.entries = b.entries :=
    Attributed.entries_eq_of_rows_eq hform (by rw [← hrows a, ← hrows b, hjson])
  have hdetached : a.detached = b.detached := by
    rw [f.detached_attributeFrom o seed, g.detached_attributeFrom o' seed', hentries]
  calc a = ⟨a.form, a.detached⟩ := rfl
    _ = ⟨b.form, b.detached⟩ := by rw [hform, hdetached]

/-- A symbol with quotes and a space in its name, and a string with a symbol behind it: both vectors
have the same canonical text and the same seed. -/
theorem exportText_faithful_same_text :
    let o : Options := ⟨.sequential, .stop, 1⟩
    let seed : Span := Span.seed "[\"a\" b]".toList 1 0
    let f : Form := .node .vector [.atom (.symbol "\"a\" b".toList) none] none
    let g : Form := .node .vector [.atom (.string ['a']) none, .atom (.symbol ['b']) none] none
    f.FloatFree ∧ f.text = g.text ∧ f.text = seed.source
      ∧ (f.attributeFrom o seed).exportText ≠ (g.attributeFrom o seed).exportText
      ∧ ∃ j : Json, j.text = (f.attributeFrom o seed).exportText ∧ j.rows.length = 2 := by
  intro o seed f g
  have hfree : f.FloatFree := by simp [f, Form.FloatFree]
  obtain ⟨hdetermined, hread⟩ := exportText_faithful hfree g o o seed seed
  obtain ⟨j, hj, hrows⟩ := hread _ (List.mem_cons_self ..)
  refine ⟨hfree, by decide +kernel, by decide +kernel, ?_, j, (hj j).2 rfl, ?_⟩
  · intro hsame
    have hlength : (f.attributeFrom o seed).form.children.length
        ≠ (g.attributeFrom o seed).form.children.length := by decide +kernel
    exact hlength (by rw [hdetermined hsame])
  · rw [hrows, List.length_map]
    decide +kernel

end EdnSpans
