import MapStyling.Case.Outcome

/-!
# Reports

What cases come to on backends of every kind.

A worker owns one styler of each kind and runs all its cases on them. A report
keeps the outcomes and not the verdicts; whether an outcome is the expected one
is read off the report.

## Main definitions

* `Worker`: A styler of each kind.
* `CaseReport`: The outcomes of a case.
* `Worker.check`: Running a case on every kind.
* `Report`: The reports of some cases, in order.
-/

namespace MapStyling

/-- A styler of each kind, in the order of the kinds. -/
structure Worker [Languages] where
  stylers : List ((k : BackendKind) × StylerOn k)

/-- The outcomes of a case by kind; none where the case does not apply. -/
structure CaseReport where
  name : String
  source : String
  expect : String
  outcomes : List (BackendKind × Option String)

namespace CaseReport

/-- How an outcome compares with what is expected. -/
def compare (r : CaseReport) (actual : Option String) : Comparison :=
  .ofOutcome r.expect actual

/-- Whether every outcome matches. -/
def passed (r : CaseReport) : Bool :=
  r.outcomes.all fun o => (r.compare o.2).isMatch

end CaseReport

namespace Worker

variable [Languages]

/-- A worker that has run no case. -/
def fresh : Worker := ⟨BackendKind.all.map fun k => ⟨k, StylerOn.fresh k⟩⟩

/-- Run a case on every kind. -/
def check (c : Case) : StateM Worker CaseReport := fun w =>
  let runs := w.stylers.map fun ⟨k, s⟩ =>
    let (actual, s) := (c.outcome k).run s
    ((k, actual), (⟨k, s⟩ : (k : BackendKind) × StylerOn k))
  (⟨c.name, c.source, c.expect, runs.map Prod.fst⟩, ⟨runs.map Prod.snd⟩)

end Worker

/-- The reports of some cases, in order. -/
structure Report where
  cases : List CaseReport

namespace Report

/-- The report of one worker that runs all cases. -/
def ofCases [Languages] (cases : List Case) : Report :=
  ⟨((cases.mapM Worker.check).run Worker.fresh).1⟩

def total (r : Report) : Nat := r.cases.length

/-- Number of the cases that match on every kind. -/
def passed (r : Report) : Nat := r.cases.countP CaseReport.passed

end Report

end MapStyling
