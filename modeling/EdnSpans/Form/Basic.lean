/-
**Forms.**

A form is a tree whose leaves are scalars and whose inner nodes are collections.  Every node may
carry the span of the text it stands for.  The children of a map are its keys and values in turn,
so that all collections are walked alike: entry `i` of a map has its key at index `2 * i` and its
value at index `2 * i + 1`.

Only symbols and collections are meant to carry a span: the other scalars are plain values, which
are the same wherever they stand, and a span for them has to be kept elsewhere.

Main definitions:

* `EdnSpans.Scalar`, `EdnSpans.Form` — the leaves and the trees;
* `EdnSpans.Form.span`, `EdnSpans.Form.setSpan`, `EdnSpans.Form.children` — what stands at a node;
* `EdnSpans.Form.bare` — the tree with no span on any node;
* `EdnSpans.Form.carriesSpan`, `EdnSpans.Form.attach` — **a span is attached only to symbols and
  collections**, and handed back otherwise;
* `EdnSpans.Form.same` — equality of trees, with floating-point numbers compared as numbers.

Main results:

* `EdnSpans.Form.induct` — induction over a tree with the induction hypothesis for every child.
-/
import EdnSpans.Form.Kind
import EdnSpans.Number.Binary64
import EdnSpans.Span

set_option relaxedAutoImplicit false
set_option autoImplicit false

namespace EdnSpans

/-! ### Scalars -/

/-- A leaf of a form. -/
inductive Scalar
  | nil
  | bool (b : Bool)
  | integer (n : Int64)
  | float (x : Binary64)
  | char (c : Char)
  | string (t : Text)
  /-- A keyword by its name, without the colon it is written with. -/
  | keyword (name : Text)
  | symbol (name : Text)
  deriving DecidableEq, Repr

namespace Scalar

/-- The name of the kind of a scalar. -/
def kindName : Scalar → String
  | .nil => "nil"
  | .bool _ => "bool"
  | .integer _ => "integer"
  | .float _ => "float"
  | .char _ => "char"
  | .string _ => "string"
  | .keyword _ => "keyword"
  | .symbol _ => "symbol"

/-- The keyword of a name that may be given with any number of colons before it. -/
def keywordNamed (name : Text) : Scalar := .keyword (name.dropWhile (· = ':'))

/-- Among the scalars only symbols carry a span. -/
def carriesSpan : Scalar → Bool
  | .symbol _ => true
  | _ => false

/-- Equality of scalars, with floating-point numbers compared as numbers. -/
def same : Scalar → Scalar → Bool
  | .float x, .float y => x.equals y
  | s, t => decide (s = t)

end Scalar

/-! ### Trees -/

/-- A tree of scalars and collections, with a span on any of its nodes. -/
inductive Form
  | atom (value : Scalar) (span : Option Span)
  | node (kind : Kind) (children : List Form) (span : Option Span)
  deriving Repr

/-- What came of attaching a span to a form. -/
inductive Attachment
  /-- The form now carries the span. -/
  | attached (form : Form)
  /-- The form has no room for a span, which is handed back. -/
  | refused (form : Form) (span : Span)

namespace Form

/-- Induction **over a tree**, with the induction hypothesis for every child of a node. -/
theorem induct {motive : Form → Prop} (atom : ∀ s m, motive (.atom s m))
    (node : ∀ k cs m, (∀ c ∈ cs, motive c) → motive (.node k cs m)) : ∀ f, motive f
  | .atom s m => atom s m
  | .node k cs m => node k cs m (go cs)
where
  go : ∀ cs : List Form, ∀ c ∈ cs, motive c
  | [], _, h => nomatch h
  | f :: fs, c, h => by
      rcases List.mem_cons.1 h with h | h
      · exact h ▸ induct atom node f
      · exact go fs c h

/-- The span at the root. -/
def span : Form → Option Span
  | .atom _ m => m
  | .node _ _ m => m

/-- The form with the given span at its root, or none. -/
def setSpan (m : Option Span) : Form → Form
  | .atom s _ => .atom s m
  | .node k cs _ => .node k cs m

/-- The children of the root: none below a scalar, keys and values in turn below a map. -/
def children : Form → List Form
  | .atom _ _ => []
  | .node _ cs _ => cs

/-- The name of the kind of the root. -/
def kindName : Form → String
  | .atom s _ => s.kindName
  | .node k _ _ => k.name

/-- The kind of collection at the root, if it is one. -/
def kind? : Form → Option Kind
  | .atom _ _ => none
  | .node k _ _ => some k

/-- Symbols and collections carry spans. -/
def carriesSpan : Form → Bool
  | .atom s _ => s.carriesSpan
  | .node _ _ _ => true

/-- Attach a span to the root, if it is a symbol or a collection. -/
def attach (f : Form) (m : Span) : Attachment :=
  if f.carriesSpan then .attached (f.setSpan (some m)) else .refused f m

@[simp] theorem span_setSpan (m : Option Span) (f : Form) : (f.setSpan m).span = m := by
  cases f <;> rfl

@[simp] theorem children_setSpan (m : Option Span) (f : Form) :
    (f.setSpan m).children = f.children := by cases f <;> rfl

@[simp] theorem carriesSpan_setSpan (m : Option Span) (f : Form) :
    (f.setSpan m).carriesSpan = f.carriesSpan := by cases f <;> rfl

mutual

/-- The tree with no span on any node. -/
def bare : Form → Form
  | .atom s _ => .atom s none
  | .node k cs _ => .node k (bareAll cs) none

/-- The trees with no span on any node. -/
def bareAll : List Form → List Form
  | [] => []
  | f :: fs => bare f :: bareAll fs

end

mutual

/-- Equality of trees and of the spans on their nodes, with floating-point numbers compared as
numbers. -/
def same : Form → Form → Bool
  | .atom s m, .atom t n => s.same t && m == n
  | .node k cs m, .node l ds n => k == l && sameAll cs ds && m == n
  | _, _ => false

/-- Equality of lists of trees. -/
def sameAll : List Form → List Form → Bool
  | [], [] => true
  | f :: fs, g :: gs => same f g && sameAll fs gs
  | _, _ => false

end

end Form

/-- The form after an attempt to attach a span. -/
def Attachment.form : Attachment → Form
  | .attached f => f
  | .refused f _ => f

/-- The span that was handed back, if it was. -/
def Attachment.returned : Attachment → Option Span
  | .attached _ => none
  | .refused _ m => some m

end EdnSpans
