/-
**The nodes of a form.**

A node can be named by its path or met on a walk through the tree, and what is true of all nodes can
be said either way.  For proofs a third way is the convenient one: true of the root, and of all
nodes below each child.

Main definitions:

* `EdnSpans.Form.Throughout` — something is true of **every node** of a form;
* `EdnSpans.Form.mapSpans` — the form with all its spans changed.

Main results:

* `EdnSpans.Form.mem_nodes_iff` — the nodes in pre-order are the nodes at the paths;
* `EdnSpans.Form.throughout_iff` — the root and the children decide;
* `EdnSpans.Form.nodesAt_of_children_eq_map` — what changes the children of every node one by one
  changes every node in its place;
* `EdnSpans.Form.nodes_mapSpans` — changing the spans changes them node by node.
-/
import EdnSpans.Form.Path

set_option relaxedAutoImplicit false
set_option autoImplicit false

namespace EdnSpans.Form

/-! ### Nodes and paths -/

theorem get?_append (f : Form) (path down : NodePath) :
    f.get? (path ++ down) = (f.get? path).bind fun g => g.get? down := by
  induction path generalizing f with
  | nil => rfl
  | cons i path ih =>
      rw [List.cons_append, get?_cons, get?_cons]
      cases f.children[i]? with
      | none => rfl
      | some c => exact ih c

/-- The nodes among the children of a node, in terms of the nodes of each child. -/
theorem mem_nodesFrom_iff {cs : List Form} {p path : NodePath} {g : Form} {i : Nat}
    (ih : ∀ c ∈ cs, ∀ p, (path, g) ∈ nodesAt p c ↔ ∃ q, path = p ++ q ∧ c.get? q = some g) :
    (path, g) ∈ nodesFrom p i cs
      ↔ ∃ j q, path = p ++ (i + j) :: q ∧ (cs[j]?).bind (fun c => c.get? q) = some g := by
  induction cs generalizing i with
  | nil => simp [nodesFrom]
  | cons c cs ihcs =>
      rw [nodesFrom, List.mem_append, ih c (List.mem_cons_self ..),
        ihcs fun d hd => ih d (List.mem_cons_of_mem _ hd)]
      constructor
      · rintro (⟨q, rfl, hq⟩ | ⟨j, q, rfl, hq⟩)
        · exact ⟨0, q, by simp [NodePath.child], by simpa using hq⟩
        · exact ⟨j + 1, q, by simp [Nat.add_comm, Nat.add_left_comm], by simpa using hq⟩
      · rintro ⟨j, q, rfl, hq⟩
        cases j with
        | zero => exact .inl ⟨q, by simp [NodePath.child], by simpa using hq⟩
        | succ j =>
            exact .inr ⟨j, q, by simp [Nat.add_comm, Nat.add_left_comm], by simpa using hq⟩

theorem mem_nodesAt_iff {f g : Form} {p path : NodePath} :
    (path, g) ∈ nodesAt p f ↔ ∃ q, path = p ++ q ∧ f.get? q = some g := by
  induction f using Form.induct generalizing p with
  | atom s m =>
      rw [nodesAt, List.mem_singleton]
      constructor
      · rintro ⟨⟩
        exact ⟨[], by simp, rfl⟩
      · rintro ⟨q, rfl, hq⟩
        cases q with
        | nil => simp_all
        | cons i q => simp [children] at hq
  | node k cs m ih =>
      rw [nodesAt, List.mem_cons, mem_nodesFrom_iff fun c hc p => ih c hc]
      constructor
      · rintro (⟨⟨⟩⟩ | ⟨j, q, rfl, hq⟩)
        · exact ⟨[], by simp, rfl⟩
        · exact ⟨j :: q, by simp, hq⟩
      · rintro ⟨q, rfl, hq⟩
        cases q with
        | nil => simp_all
        | cons j q => exact .inr ⟨j, q, by simp, hq⟩

/-- The nodes in pre-order are **the nodes at the paths**. -/
theorem mem_nodes_iff {f g : Form} {path : NodePath} :
    (path, g) ∈ f.nodes ↔ f.get? path = some g := by
  rw [nodes, mem_nodesAt_iff]
  simp

/-! ### What is true of all nodes -/

/-- Every node of the form, the root included, has the property. -/
def Throughout (P : Form → Prop) (f : Form) : Prop := ∀ path g, f.get? path = some g → P g

theorem throughout_iff {P : Form → Prop} {f : Form} :
    f.Throughout P ↔ P f ∧ ∀ c ∈ f.children, c.Throughout P := by
  constructor
  · intro h
    refine ⟨h [] f rfl, fun c hc path g hget => ?_⟩
    obtain ⟨i, hi⟩ := List.getElem?_of_mem hc
    exact h (i :: path) g (by rw [get?_cons, hi, Option.bind_some, hget])
  · rintro ⟨hroot, hchildren⟩ path g hget
    cases path with
    | nil =>
        cases hget
        exact hroot
    | cons i path =>
        obtain ⟨c, hc, hget⟩ := Option.bind_eq_some_iff.1 hget
        exact hchildren c (List.mem_of_getElem? hc) path g hget

@[simp] theorem throughout_atom {P : Form → Prop} {s : Scalar} {m : Option Span} :
    (Form.atom s m).Throughout P ↔ P (.atom s m) := by
  rw [throughout_iff]
  simp [children]

@[simp] theorem throughout_node {P : Form → Prop} {kind : Kind} {cs : List Form} {m : Option Span} :
    (Form.node kind cs m).Throughout P ↔ P (.node kind cs m) ∧ ∀ c ∈ cs, c.Throughout P :=
  throughout_iff

/-! ### Forms changed node by node -/

theorem nodesAt_eq (p : NodePath) (f : Form) :
    nodesAt p f = (p, f) :: nodesFrom p 0 f.children := by
  cases f with
  | atom s m => rfl
  | node k cs m => rfl

theorem nodesFrom_map {φ : Form → Form} {cs : List Form}
    (ih : ∀ c ∈ cs, ∀ p, nodesAt p (φ c) = (nodesAt p c).map (Prod.map id φ)) (p : NodePath)
    (index : Nat) :
    nodesFrom p index (cs.map φ) = (nodesFrom p index cs).map (Prod.map id φ) := by
  induction cs generalizing index with
  | nil => rfl
  | cons c cs ihcs =>
      rw [List.map_cons, nodesFrom, nodesFrom, List.map_append, ih c (List.mem_cons_self ..),
        ihcs fun d hd => ih d (List.mem_cons_of_mem _ hd)]

section

variable {φ : Form → Form} (hφ : ∀ f, (φ f).children = f.children.map φ)

include hφ

theorem get?_of_children_eq_map (f : Form) (path : NodePath) :
    (φ f).get? path = (f.get? path).map φ := by
  induction path generalizing f with
  | nil => rfl
  | cons i path ih =>
      rw [get?_cons, get?_cons, hφ, List.getElem?_map]
      cases f.children[i]? with
      | none => rfl
      | some c => exact ih c

/-- What changes the children of every node one by one changes **every node in its place**. -/
theorem nodesAt_of_children_eq_map (p : NodePath) (f : Form) :
    nodesAt p (φ f) = (nodesAt p f).map (Prod.map id φ) := by
  induction f using Form.induct generalizing p with
  | atom s m =>
      rw [nodesAt_eq, hφ]
      rfl
  | node k cs m ih =>
      rw [nodesAt_eq, hφ, nodesAt_eq, List.map_cons, children, nodesFrom_map ih]
      rfl

end

/-! ### Forms that differ in their spans -/

theorem bareAll_eq_map (fs : List Form) : bareAll fs = fs.map bare := by
  induction fs with
  | nil => rfl
  | cons f fs ih => rw [bareAll, ih, List.map_cons]

theorem bare_node (kind : Kind) (cs : List Form) (m : Option Span) :
    (Form.node kind cs m).bare = .node kind (cs.map bare) none := by
  rw [bare, bareAll_eq_map]

mutual

/-- The form with every span on it changed. -/
def mapSpans (φ : Span → Span) : Form → Form
  | .atom s m => .atom s (m.map φ)
  | .node kind cs m => .node kind (mapSpansAll φ cs) (m.map φ)

/-- The forms with every span on them changed. -/
def mapSpansAll (φ : Span → Span) : List Form → List Form
  | [] => []
  | f :: fs => mapSpans φ f :: mapSpansAll φ fs

end

section

variable (φ : Span → Span)

theorem mapSpansAll_eq_map (fs : List Form) : mapSpansAll φ fs = fs.map (mapSpans φ) := by
  induction fs with
  | nil => rfl
  | cons f fs ih => rw [mapSpansAll, ih, List.map_cons]

@[simp] theorem mapSpans_atom (s : Scalar) (m : Option Span) :
    (Form.atom s m).mapSpans φ = .atom s (m.map φ) := rfl

@[simp] theorem mapSpans_node (kind : Kind) (cs : List Form) (m : Option Span) :
    (Form.node kind cs m).mapSpans φ = .node kind (cs.map (mapSpans φ)) (m.map φ) := by
  rw [mapSpans, mapSpansAll_eq_map]

@[simp] theorem span_mapSpans (f : Form) : (f.mapSpans φ).span = f.span.map φ := by
  cases f with
  | atom s m => rfl
  | node kind cs m => rfl

@[simp] theorem carriesSpan_mapSpans (f : Form) :
    (f.mapSpans φ).carriesSpan = f.carriesSpan := by
  cases f with
  | atom s m => rfl
  | node kind cs m => rfl

theorem children_mapSpans (f : Form) : (f.mapSpans φ).children = f.children.map (mapSpans φ) := by
  cases f with
  | atom s m => rfl
  | node kind cs m => exact mapSpansAll_eq_map φ cs

theorem get?_mapSpans (f : Form) (path : NodePath) :
    (f.mapSpans φ).get? path = (f.get? path).map (mapSpans φ) :=
  get?_of_children_eq_map (children_mapSpans φ) f path

theorem bare_mapSpans (f : Form) : (f.mapSpans φ).bare = f.bare := by
  induction f using Form.induct with
  | atom s m => rfl
  | node kind cs m ih =>
      rw [mapSpans_node, bare_node, bare_node, List.map_map]
      congr 1
      exact List.map_congr_left ih

/-- Changing the spans changes them **node by node**. -/
theorem nodes_mapSpans (f : Form) :
    (f.mapSpans φ).nodes = f.nodes.map (Prod.map id (mapSpans φ)) :=
  nodesAt_of_children_eq_map (children_mapSpans φ) [] f

end

end EdnSpans.Form
