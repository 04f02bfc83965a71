import MapStyling.Number.Digits
import MapStyling.Report.Basic

/-!
# Reports as Lines

A line for each case and each of its mismatches, and a line of totals.

## Main definitions

* `CaseReport.lines`: A case and its mismatches.
* `Report.totals`: Both totals as a sentence.
* `Report.lines`: The whole report.
-/

namespace MapStyling

namespace CaseReport

/-- A case, with a line of its own for each outcome that does not match. -/
def lines (r : CaseReport) : List String :=
  ((if r.passed then "ok   " else "FAIL ") ++ r.name) ::
    r.outcomes.filterMap fun (k, actual) =>
      if (r.compare actual).isMatch then none
      else some ("       " ++ k.name ++ ": expected " ++ r.expect ++ ", got " ++ actual.getD "-")

end CaseReport

namespace Report

/-- How many cases match, out of how many. -/
def totals (r : Report) : String :=
  Digits.text r.passed ++ " / " ++ Digits.text r.total ++ " cases agree on every backend"

/-- All cases, an empty line and the totals. -/
def lines (r : Report) : List String :=
  r.cases.flatMap CaseReport.lines ++ ["", r.totals]

end Report

end MapStyling
