/-
**Whole documents.**

A document is a text or a file.  All its top-level forms are read and each is attributed on its own,
from its own seed.

Main definitions:

* `EdnSpans.attributeText` — **the attributed forms of a text**;
* `EdnSpans.FileEntry` — what is found under the name of a file;
* `EdnSpans.attributeFile`, `EdnSpans.exportFile` — the same for a file, and the export of a whole
  file.
-/
import EdnSpans.Export.Outline
import EdnSpans.Reader.Basic

set_option relaxedAutoImplicit false
set_option autoImplicit false

namespace EdnSpans

/-- The attribution of a top-level form from its seed. -/
def TopForm.attribute (o : Options) (top : TopForm) : Attributed :=
  top.form.attributeFrom o top.seed

/-- The attributed forms of a text. -/
def attributeText (o : Options) (t : Text) : Except ReadFault (List Attributed) :=
  (readForms t o.firstLine).map fun forms => forms.map (TopForm.attribute o)

/-! ### Files -/

/-- What is found under the name of a file. -/
inductive FileEntry
  | absent
  | directory
  | file (bytes : ByteArray)

/-- Why a file cannot be read as a text. -/
inductive Unreadable
  | absent
  | directory
  | notText
  deriving DecidableEq, Repr

/-- The reason in words. -/
def Unreadable.text : Unreadable → String
  | .absent => "No such file or directory (os error 2)"
  | .directory => "Is a directory (os error 21)"
  | .notText => "stream did not contain valid UTF-8"

/-- The text under the name of a file. -/
def FileEntry.text? : FileEntry → Except Unreadable Text
  | .absent => .error .absent
  | .directory => .error .directory
  | .file bytes =>
      match String.fromUTF8? bytes with
      | some s => .ok s.toList
      | none => .error .notText

/-- Why a file has no attributed forms. -/
inductive FileFault
  /-- The file cannot be read. -/
  | unreadable (path : String) (reason : Unreadable)
  /-- The text of the file cannot be read as forms. -/
  | malformed (fault : ReadFault)

/-- The diagnostic of a fault. -/
def FileFault.diagnostic : FileFault → Diagnostic
  | .unreadable path reason =>
      ⟨.unusableFile path ("Failed to read file: " ++ reason.text),
        some "Check that the file exists and is readable", some 301⟩
  | .malformed fault => fault.diagnostic

/-- The attributed forms of a file. -/
def attributeFile (o : Options) (path : String) (entry : FileEntry) :
    Except FileFault (List Attributed) :=
  match entry.text? with
  | .error reason => .error (.unreadable path reason)
  | .ok t => (attributeText o t).mapError .malformed

/-- The export of a whole file. -/
def exportFile (o : Options) (path : String) (entry : FileEntry) : Except FileFault Text :=
  (attributeFile o path entry).map exportAllText

end EdnSpans
