/-
**Paths into a form.**

A node of a form is addressed by the indices of the children on the way to it from the root.

Main definitions:

* `EdnSpans.NodePath` — the indices from the root to a node;
* `EdnSpans.NodePath.text` — its text, such as `2.1`, and `root` for the empty path;
* `EdnSpans.Form.get?` — the node at a path;
* `EdnSpans.Form.nodes` — **all nodes in pre-order**, each with its path.
-/
import EdnSpans.Form.Basic
import EdnSpans.Number.Radix

set_option relaxedAutoImplicit false
set_option autoImplicit false

namespace EdnSpans

/-- The indices of the children on the way from the root to a node. -/
abbrev NodePath := List Nat

namespace NodePath

/-- The path to a child of the node at a path. -/
def child (p : NodePath) (index : Nat) : NodePath := p ++ [index]

/-- The path to the parent of the node at a path, unless that is the root. -/
def parent? (p : NodePath) : Option NodePath := if p.isEmpty then none else some p.dropLast

@[simp] theorem parent?_child (p : NodePath) (index : Nat) :
    parent? (child p index) = some p := by simp [parent?, child]

/-- The indices with points between them. -/
def dotted : NodePath → Text
  | [] => []
  | [i] => Radix.decimalText i
  | i :: j :: p => Radix.decimalText i ++ '.' :: dotted (j :: p)

/-- The text of a path. -/
def text (p : NodePath) : Text := if p.isEmpty then ['r', 'o', 'o', 't'] else dotted p

end NodePath

namespace Form

/-- The node at a path below a form. -/
def get? (f : Form) : NodePath → Option Form
  | [] => some f
  | i :: p => (f.children[i]?).bind fun c => get? c p

@[simp] theorem get?_nil (f : Form) : f.get? [] = some f := rfl

@[simp] theorem get?_cons (f : Form) (i : Nat) (p : NodePath) :
    f.get? (i :: p) = (f.children[i]?).bind fun c => c.get? p := rfl

mutual

/-- The nodes of a form that stands at the given path, in pre-order. -/
def nodesAt (p : NodePath) : Form → List (NodePath × Form)
  | .atom s m => [(p, .atom s m)]
  | .node k cs m => (p, .node k cs m) :: nodesFrom p 0 cs

/-- The nodes of the children, from the given index on, of a node at the given path. -/
def nodesFrom (p : NodePath) (index : Nat) : List Form → List (NodePath × Form)
  | [] => []
  | f :: fs => nodesAt (NodePath.child p index) f ++ nodesFrom p (index + 1) fs

end

/-- All nodes **in pre-order**: a node before its descendants, and siblings by index. -/
def nodes (f : Form) : List (NodePath × Form) := nodesAt [] f

end Form

end EdnSpans
