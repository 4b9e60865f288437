/-
**Attributed trees.**

The result of the search is a tree in which symbols and collections carry their spans.  The spans of
the other scalars, which are plain values and carry nothing, are kept beside the tree under the
paths of their nodes.

Main definitions:

* `EdnSpans.Attributed` — a tree, and the spans detached from it;
* `EdnSpans.Form.attributeFrom`, `EdnSpans.Form.attribute` — **attribution**, from a given seed or
  from the span at the root;
* `EdnSpans.Attributed.spanAt?`, `EdnSpans.Attributed.entries` — the span of a node, and the spans
  of all nodes in pre-order;
* `EdnSpans.Attributed.audit` — every span compared with that of its parent;
* `EdnSpans.Attributed.same` — equality of results.
-/
import EdnSpans.Attribution.Trace
import EdnSpans.Diagnostic
import EdnSpans.Form.Path

set_option relaxedAutoImplicit false
set_option autoImplicit false

namespace EdnSpans

/-- A tree whose symbols and collections carry spans, and the spans of the other scalars. -/
structure Attributed where
  /-- The tree. -/
  form : Form
  /-- The spans that no node can carry, in pre-order of their nodes. -/
  detached : List (NodePath × Span)

namespace Form

mutual

/-- The tree without the spans on scalars that are not symbols. -/
def shed : Form → Form
  | .atom s span => .atom s (if s.carriesSpan then span else none)
  | .node kind children span => .node kind (shedAll children) span

/-- The trees without the spans on scalars that are not symbols. -/
def shedAll : List Form → List Form
  | [] => []
  | f :: fs => shed f :: shedAll fs

end

/-- The spans on scalars that are not symbols, with their paths. -/
def sheddings (f : Form) : List (NodePath × Span) :=
  f.nodes.filterMap fun (path, g) => if g.carriesSpan then none else g.span.map (path, ·)

/-- The attribution of a tree whose root has the given span.  Spans that the tree carries have no
influence. -/
def attributeFrom (o : Options) (f : Form) (seed : Span) : Attributed :=
  let traced := f.trace o (some seed) none
  ⟨traced.shed, traced.sheddings⟩

end Form

/-- The root carries no span to begin with. -/
structure MissingSeed where
  /-- The name of the root's kind. -/
  kindName : String
  deriving DecidableEq, Repr

/-- The diagnostic of a missing seed. -/
def MissingSeed.diagnostic (m : MissingSeed) : Diagnostic :=
  ⟨.missingSeed ("root " ++ m.kindName ++ " form carries no source record"),
    some "Read the form with read_forms or use attribute_seeded", some 401⟩

/-- The attribution of a tree from the span that its root carries. -/
def Form.attribute (o : Options) (f : Form) : Except MissingSeed Attributed :=
  match f.span with
  | some seed => .ok (f.attributeFrom o seed)
  | none => .error ⟨f.kindName⟩

/-- A node of an attributed tree. -/
structure Entry where
  /-- The path to the node. -/
  path : NodePath
  /-- The name of its kind. -/
  kindName : String
  /-- The node itself carries its span. -/
  attached : Bool
  /-- The span, wherever it is kept. -/
  span : Option Span
  deriving DecidableEq, Repr

/-- A span compared with that of the parent of its node. -/
structure Audit where
  /-- The path to the node. -/
  path : NodePath
  /-- Whether it lies within the parent's span, and whether its text is what stands there in the
  parent's text; nothing if the parent has no span. -/
  verdict : Option (Bool × Bool)

namespace Attributed

/-- The span of a node that stands at the given path, wherever it is kept. -/
def spanOf (a : Attributed) (path : NodePath) (node : Form) : Option Span :=
  node.span.or (a.detached.lookup path)

/-- The span of the node at a path. -/
def spanAt? (a : Attributed) (path : NodePath) : Option Span :=
  (a.form.get? path).bind (a.spanOf path)

/-- The span of the root. -/
def root? (a : Attributed) : Option Span := a.spanAt? []

/-- What is told of a node that stands at the given path. -/
def entry (a : Attributed) (path : NodePath) (node : Form) : Entry where
  path := path
  kindName := node.kindName
  attached := node.span.isSome
  span := a.spanOf path node

/-- Every node in pre-order, the root first, with its span if it has one. -/
def entries (a : Attributed) : List Entry :=
  a.form.nodes.map fun (path, node) => a.entry path node

/-- A span compared with the span of the parent of its node. -/
def auditOf (a : Attributed) (path parent : NodePath) (span : Span) : Audit where
  path := path
  verdict := (a.spanAt? parent).map fun outer =>
    (outer.contains span,
      Text.slice outer.source (span.start - outer.start) (span.stop - outer.start) = span.source)

/-- All spans but that of the root, each compared with the span of the parent of its node. -/
def audit (a : Attributed) : List Audit :=
  a.entries.filterMap fun e =>
    (NodePath.parent? e.path).bind fun parent => e.span.map (a.auditOf e.path parent)

/-- Equality of results, with floating-point numbers compared as numbers. -/
def same (a b : Attributed) : Bool := a.form.same b.form && a.detached == b.detached

end Attributed

end EdnSpans
