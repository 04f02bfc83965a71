import MapStyling.Number.Digits
import MapStyling.Number.Double
import MapStyling.Report.Basic
import MapStyling.Text.Markup

/-!
# Reports as Pages

A report as a page with a table: a row for each case and a column for each
kind of backend.

## Main definitions

* `Report.percentage`: Rate of the cases that match.
* `Report.table`: The table.
* `Report.page`: The page around it.
-/

namespace MapStyling

namespace Report

/-- Matching cases in a hundred, to the nearest whole number; a half goes to
    the even one. -/
def percentage (r : Report) : Nat :=
  if r.total = 0 then 0
  else
    let rate := Double.ofInt r.passed / Double.ofInt r.total * 100.0
    let (num, den) := (Double.datum rate).ratio
    BinaryLayout.divNearest num den

/-- An element that holds a text alone. -/
def labelled (tag text : String) : Markup :=
  .element tag [] [.text text]

/-- Names of the columns. -/
def heading : Markup :=
  .element "tr" [] <|
    [labelled "th" "Case", labelled "th" "Expected"] ++
      BackendKind.all.map (fun k => labelled "th" k.name) ++ [labelled "th" "Source"]

/-- The style class of a cell. -/
def cellClass : Comparison → String
  | .agrees => "match"
  | .differs _ _ => "mismatch"
  | .skipped => "skipped"

/-- The cell of an outcome. -/
def cell (r : CaseReport) (actual : Option String) : Markup :=
  .element "td" [("class", cellClass (r.compare actual))]
    [labelled "code" (actual.getD "skipped")]

/-- The row of a case. -/
def row (r : CaseReport) : Markup :=
  .element "tr" [("id", r.name)] <|
    [labelled "td" r.name, .element "td" [] [labelled "code" r.expect]] ++
      r.outcomes.map (fun o => cell r o.2) ++ [.element "td" [] [labelled "pre" r.source]]

/-- The table, each row on a line. -/
def table (r : Report) : Markup :=
  .element "table" [] <|
    .text "\n" :: (heading :: r.cases.map row).flatMap fun m => [m, .text "\n"]

/-- Selectors and what is declared for them. -/
def styleRules : List (String × List (String × String)) :=
  [("body", [("font-family", "system-ui, sans-serif"), ("margin", "0"), ("padding", "24px"),
     ("background", "#eee"), ("color", "#333")]),
   ("h1", [("font-weight", "600"), ("font-size", "20px")]),
   ("table", [("border-collapse", "collapse"), ("background", "white"), ("width", "100%")]),
   ("th, td", [("text-align", "left"), ("padding", "6px 10px"),
     ("border-bottom", "1px solid #eee"), ("font-size", "12px"), ("vertical-align", "top")]),
   ("td.match", [("background", "#dcfce7"), ("color", "#166534")]),
   ("td.mismatch", [("background", "#fee2e2"), ("color", "#991b1b")]),
   ("td.skipped", [("color", "#999")]),
   ("pre", [("margin", "0"), ("font-size", "11px"), ("white-space", "pre-wrap")])]

/-- The style sheet, each declaration on a line. -/
def styleSheet : String :=
  String.join <| styleRules.map fun (selector, declarations) =>
    "        " ++ selector ++ " \x7b\n" ++
      String.join (declarations.map fun (name, value) =>
        "            " ++ name ++ ": " ++ value ++ ";\n") ++
      "        \x7d\n"

/-- What stands in front of the body. -/
def head : Markup :=
  .element "head" []
    [.text "\n    ", .void "meta" [("charset", "UTF-8")],
     .text "\n    ", labelled "title" "Style backend comparison",
     .text "\n    ", labelled "style" ("\n" ++ styleSheet ++ "    "), .text "\n"]

/-- The title over the table. -/
def title (r : Report) : String :=
  "Style backend comparison: " ++ Digits.text r.percentage ++ "% (" ++ Digits.text r.passed ++
    " / " ++ Digits.text r.total ++ " passing)"

/-- The whole page. -/
def page (r : Report) : String :=
  "<!DOCTYPE html>\n" ++ Markup.render (.element "html" []
    [.text "\n", head, .text "\n", .element "body" []
      [.text "\n", labelled "h1" r.title, .text "\n", table r, .text "\n"]])

end Report

end MapStyling
