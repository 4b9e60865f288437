/-
**Outlines of attributed trees, and their export.**

The outline of an attributed tree holds for every node what is told of it: its path, its kind, its
canonical text, its span, and whether the node itself carries the span.  An export is the JSON text
of an outline; the members of all objects are in alphabetical order.  Writing an outline cannot fail,
as all keys are texts and all numbers are natural ones, so an export is a text and not an attempt at
one.

Main definitions:

* `EdnSpans.Outline` — the tree of what is told of the nodes;
* `EdnSpans.Outline.flatten` — its entries in pre-order;
* `EdnSpans.Attributed.outline` — the outline of an attributed tree;
* `EdnSpans.Attributed.exportText`, `EdnSpans.exportAllText` — **the export** of one tree, and of
  several in an array.
-/
import EdnSpans.Attribution.Attributed
import EdnSpans.Export.Json

set_option relaxedAutoImplicit false
set_option autoImplicit false

namespace EdnSpans

/-- What is told of a node, its canonical text, and the outlines of its children. -/
inductive Outline
  | node (entry : Entry) (text : Text) (children : List Outline)

namespace Outline

mutual

/-- The entries of an outline in pre-order. -/
def flatten : Outline → List Entry
  | .node entry _ children => entry :: flattenAll children

/-- The entries of several outlines, one outline after the other. -/
def flattenAll : List Outline → List Entry
  | [] => []
  | o :: os => flatten o ++ flattenAll os

end

/-- A span as an object. -/
def spanJson (span : Span) : Json :=
  .object
    [("end_character".toList, .number span.stop), ("end_line".toList, .number span.endLine),
     ("line".toList, .number span.line), ("source".toList, .string span.source),
     ("start_character".toList, .number span.start)]

mutual

/-- An outline as an object. -/
def toJson : Outline → Json
  | .node entry text children =>
      .object
        [("attached".toList, .bool entry.attached), ("children".toList, .array (toJsonAll children)),
         ("kind".toList, .string entry.kindName.toList),
         ("path".toList, .string (NodePath.text entry.path)),
         ("span".toList, (entry.span.map spanJson).getD .null), ("text".toList, .string text)]

/-- Several outlines as objects. -/
def toJsonAll : List Outline → List Json
  | [] => []
  | o :: os => toJson o :: toJsonAll os

end

end Outline

namespace Attributed

mutual

/-- The outline of a node that stands at the given path. -/
def outlineAt (a : Attributed) (path : NodePath) : Form → Outline
  | .atom s span => .node (a.entry path (.atom s span)) s.text []
  | .node kind children span =>
      .node (a.entry path (.node kind children span)) (Form.node kind children span).text
        (outlinesFrom a path 0 children)

/-- The outlines of the children, from the given index on, of a node at the given path. -/
def outlinesFrom (a : Attributed) (path : NodePath) (index : Nat) : List Form → List Outline
  | [] => []
  | f :: fs =>
      outlineAt a (NodePath.child path index) f :: outlinesFrom a path (index + 1) fs

end

/-- The outline of an attributed tree. -/
def outline (a : Attributed) : Outline := a.outlineAt [] a.form

/-- The export of an attributed tree.  Every `Json` value has a text, so there is no failure to
report. -/
def exportText (a : Attributed) : Text := a.outline.toJson.text

end Attributed

/-- The export of several attributed trees, which cannot fail either. -/
def exportAllText (trees : List Attributed) : Text :=
  (Json.array (trees.map fun a => a.outline.toJson)).text

end EdnSpans
