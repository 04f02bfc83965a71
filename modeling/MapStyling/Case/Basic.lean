import MapStyling.Backend
import MapStyling.Scene
import MapStyling.Style.Key

/-!
# Cases

A case is a small recorded experiment with one style function: the function,
what it is shown, what is asked of it, and what the answer should be.

A case says nothing about how its file was laid out. Two files that differ in
the order of their headers, in blank lines or in comments are one case.

## Main definitions

* `CaseKey`: What is asked of the function.
* `Case`: The experiment.
* `Case.appliesTo`: The kinds of backends it is meant for.
* `Case.feature`, `Case.sceneGlobals`: What the function is shown.
* `CaseFault`: What can be wrong with the text of a case.
-/

namespace MapStyling

/-- What is asked of the function of a case. -/
inductive CaseKey
  | filter
  | style (key : StyleKey)
  deriving DecidableEq, Repr

namespace CaseKey

/-- Spelling in case files. -/
def name : CaseKey → String
  | filter => "filter"
  | style key => key.name

/-- The key with a spelling. No style parameter is called as filters are. -/
def ofName? (s : String) : Option CaseKey :=
  if s = filter.name then some filter else (StyleKey.ofName? s).map style

end CaseKey

/-- A style function with what it is shown and the answer that is expected. -/
structure Case where
  name : String
  key : CaseKey
  expect : String
  /-- The kinds of backends it is meant for, all of them if none are named. -/
  backends : Option (List BackendKind)
  properties : Properties
  /-- Scene globals, each with the text of its scalar. -/
  globals : List (String × String)
  zoom : Option Int
  geometry : Geometry
  source : String

namespace Case

def appliesTo (c : Case) (k : BackendKind) : Bool :=
  match c.backends with
  | none => true
  | some kinds => kinds.contains k

/-- The feature that the function is shown. -/
def feature (c : Case) : Feature := ⟨c.geometry, c.properties⟩

/-- The globals as a config tree. -/
def sceneGlobals (c : Case) : Option SceneNode :=
  if c.globals.isEmpty then none
  else some (.mapping (c.globals.map fun g => (.scalar g.1, .scalar g.2)))

end Case

/-- What can be wrong with the text of a case. -/
inductive CaseFault
  /-- No line separates headers from source. -/
  | noSeparator
  | malformedLine (line : String)
  | unknownHeader (field : String)
  | unknownKey (name : String)
  | unknownBackend (name : String)
  | badProperty (value : String)
  | badZoom (fault : Literal.IntegerError)
  | unknownGeometry (name : String)
  | noKey
  | noExpectation
  deriving DecidableEq, Repr

namespace CaseFault

/-- What is said of a fault. The faults of a single value are told without the
    name of the case. -/
def message (name : String) : CaseFault → String
  | noSeparator => name ++ ": missing \x60---\x60 line"
  | malformedLine line => name ++ ": malformed header line: " ++ line
  | unknownHeader field => name ++ ": unknown header \x60" ++ field ++ "\x60"
  | unknownKey key => name ++ ": " ++ StyleKey.unknownMessage key
  | unknownBackend kind => name ++ ": " ++ BackendKind.unknownMessage kind
  | badProperty value => "property value must be a quoted string or a number: " ++ value
  | badZoom fault => fault.message
  | unknownGeometry geometry => "unknown geometry: " ++ geometry
  | noKey => name ++ ": missing \x60key\x60"
  | noExpectation => name ++ ": missing \x60expect\x60"

end CaseFault

end MapStyling
