import MapStyling.Case.Basic
import MapStyling.Text.Blank

/-!
# Outcomes of Cases

Running a case on a styler, and comparing what comes out with what is
expected.

A run installs what a case names before it asks its question, and takes the
feature away afterwards. A function that does not compile ends the run at once.
What a case does not name stays as it was: a case without a zoom is asked at
the last zoom that was set, and one without globals under the last globals.

## Main definitions

* `Case.run`: What comes out on a styler.
* `Case.runOn`: What comes out on a fresh styler of a kind.
* `Case.outcome`: The same, for cases that apply.
* `Comparison`: Whether an outcome is the expected one.
-/

namespace MapStyling

namespace Case

/-- What comes out when the function does not compile. -/
def compileErrorText : String := "compile error"

/-- The answer to what a case asks of the function at the first position. -/
def ask {β : Type} [StyleBackend β] : CaseKey → StateM (Styler β) String
  | .filter => return if ← Styler.evalFilter 0 then "true" else "false"
  | .style key => return (← Styler.evalStyle 0 key).display

/-- What comes out of a case on a styler. -/
def run {β : Type} [StyleBackend β] (c : Case) : StateM (Styler β) String := do
  Styler.setGlobals c.sceneGlobals
  -- A function that does not compile never sees the feature.
  if !(← Styler.setFunctions [c.source]) then return compileErrorText
  if let some level := c.zoom then Styler.setFilterKey .zoom level
  Styler.setFeature c.feature
  let answer ← ask c.key
  -- The next case on the same styler starts without a feature, but with the zoom of this one.
  Styler.clear
  return answer

variable [Languages]

/-- What comes out of a case on a fresh styler of a kind. -/
def runOn (k : BackendKind) (c : Case) : String :=
  (c.run.run (StylerOn.fresh k)).1

/-- What comes out on a styler of a kind, if the case is meant for the kind. -/
def outcome (k : BackendKind) (c : Case) : StateM (StylerOn k) (Option String) := do
  if c.appliesTo k then return some (← c.run) else return none

end Case

/-- Whether an outcome is the expected one. -/
inductive Comparison
  | agrees
  | differs (expected actual : String)
  /-- The case is not meant for the backend. -/
  | skipped
  deriving DecidableEq, Repr

namespace Comparison

/-- Texts are compared without the blanks at their ends. -/
def ofTexts (expected actual : String) : Comparison :=
  if Text.trim expected.toList = Text.trim actual.toList then agrees
  else differs expected actual

def ofOutcome (expected : String) : Option String → Comparison
  | some actual => ofTexts expected actual
  | none => skipped

/-- A skipped case counts as a match. -/
def isMatch : Comparison → Bool
  | differs _ _ => false
  | _ => true

end Comparison

/-- Running a case on a styler of a kind and comparing. -/
def Case.check [Languages] (k : BackendKind) (c : Case) : StateM (StylerOn k) Comparison :=
  return .ofOutcome c.expect (← c.outcome k)

end MapStyling
