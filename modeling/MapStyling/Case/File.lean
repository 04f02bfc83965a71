import MapStyling.Case.Reader

/-!
# Case Files

Which files of a directory hold cases, and in which order they are taken.

A file holds a case if its extension is the one of cases. A name that is
nothing but an extension has none. Files are taken in the order of their
names, by code point.

## Main definitions

* `CaseFile`: A file by name, with its text.
* `CaseFile.stem?`: The name of the case in a file.
* `CaseFile.sorted`: The files that hold cases, in order.
* `CaseFile.load`: The case in a file.
-/

namespace MapStyling

/-- A file by name, with its text. -/
structure CaseFile where
  name : String
  text : String

namespace CaseFile

/-- What the names of case files end with. -/
def ending : List Char := ".style".toList

/-- The name of the case in a file of a name, if the file holds a case. -/
def stem? (name : String) : Option String :=
  match Text.beforeLast? ending name.toList with
  | none => none
  | some [] => none
  | some stem => some (String.ofList stem)

/-- The files that hold cases, in order. -/
def sorted (files : List CaseFile) : List CaseFile :=
  (files.filter fun f => (stem? f.name).isSome).mergeSort fun a b => decide (a.name ≤ b.name)

/-- The name of the case in a file. -/
def caseName (f : CaseFile) : String :=
  (stem? f.name).getD f.name

/-- The case in a file, or what is said of its fault. -/
def load (f : CaseFile) : Except String Case :=
  match Case.parse f.caseName f.text with
  | .ok c => .ok c
  | .error fault => .error (fault.message f.caseName)

end CaseFile

end MapStyling
