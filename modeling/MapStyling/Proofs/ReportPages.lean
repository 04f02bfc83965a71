import MapStyling.Proofs.Histories
import MapStyling.Proofs.MarkupReading
import MapStyling.Report.Page

/-!
# Pages of Reports

What a reader of markup finds in the page of a report.

The page has one table. Its first row names the columns, and behind it there is a row for each
case in the order of the report. A row has a cell for the name, one for what is expected, one
for each outcome and one for the source, and the texts of the cells are those of the report.
This holds for all texts, also for those that are markup themselves, and for names in quotes:
a name is the value of an attribute as well.

So the texts have no influence on the tags. Two reports whose outcomes are matches, mismatches
and skipped cases at the same places have pages with the same tags in the same order and with
the same classes.

## Main definitions

* `Markup.rows`, `Markup.tables`: The rows of a content, and those of its tables.
* `Markup.outline`: The tags and classes of tokens.
* `CaseReport.tableRow`: What the row of a case is to be read as.
* `CaseReport.Complete`: Reports with an outcome for each kind of backend.
* `Verdict`: What became of an outcome.

## Theorems

* `Report.read?_page`: The content that a page is read as.
* `Report.rows_pageTree`: The rows in it.
* `Report.outline_pageTree`: The tags in it.
* `Report.pages_keep_shape`: These for the text of a page.
-/

namespace MapStyling

namespace Markup

namespace Node

mutual

/-- The elements with one of some tags, in the order in which they begin. -/
def elements (tags : List String) : Node → List Node
  | letter _ => []
  | element tag attributes children =>
    if tag ∈ tags then element tag attributes children :: allElements tags children
    else allElements tags children

def allElements (tags : List String) : List Node → List Node
  | [] => []
  | n :: ns => elements tags n ++ allElements tags ns

end

mutual

/-- The letters in and below a node. -/
def letters : Node → List Char
  | letter c => [c]
  | element _ _ children => allLetters children

def allLetters : List Node → List Char
  | [] => []
  | n :: ns => letters n ++ allLetters ns

end

def tag : Node → String
  | letter _ => ""
  | element tag _ _ => tag

def attributes : Node → List (String × String)
  | letter _ => []
  | element _ attributes _ => attributes

def children : Node → List Node
  | letter _ => []
  | element _ _ children => children

end Node

/-- A cell of a table: whether it is a heading, and the class and the text that it has. -/
structure Cell where
  tag : String
  styleClass : Option String
  text : String

/-- A row of a table. -/
structure Row where
  attributes : List (String × String)
  cells : List Cell

/-- An element as a cell. -/
def Node.cell (n : Node) : Cell := ⟨n.tag, n.attributes.lookup "class", .ofList n.letters⟩

/-- An element as a row, with the cells in it. -/
def Node.row (n : Node) : Row :=
  ⟨n.attributes, (Node.allElements ["th", "td"] n.children).map Node.cell⟩

/-- All rows of a content. -/
def rows (ns : List Node) : List Row := (Node.allElements ["tr"] ns).map Node.row

/-- The tables of a content, each with its rows. -/
def tables (ns : List Node) : List (List Row) :=
  (Node.allElements ["table"] ns).map fun n => rows n.children

/-- A tag with nothing but its class. -/
def Token.outline? : Token → Option Token
  | .opening tag attributes => some (.opening tag (attributes.filter fun a => a.1 = "class"))
  | .closing tag => some (.closing tag)
  | .declaration _ => none
  | .letter _ => none

/-- The tags of tokens, with their classes. -/
def outline (ts : List Token) : List Token := ts.filterMap Token.outline?

theorem rows_letter (c : Char) (ns : List Node) : rows (.letter c :: ns) = rows ns := rfl

theorem tables_letter (c : Char) (ns : List Node) : tables (.letter c :: ns) = tables ns := rfl

namespace Node

theorem allElements_eq (tags : List String) (ns : List Node) :
    allElements tags ns = ns.flatMap (elements tags) := by
  induction ns with
  | nil => rfl
  | cons n ns ih => rw [allElements, ih, List.flatMap_cons]

theorem allLetters_eq (ns : List Node) : allLetters ns = ns.flatMap letters := by
  induction ns with
  | nil => rfl
  | cons n ns ih => rw [allLetters, ih, List.flatMap_cons]

end Node

section

variable (tags : List String) (tag s : String) (attributes : List (String × String))
variable (children ms : List Markup)

/-- The elements that a tree is to be read as, with one of some tags. -/
def found (m : Markup) : List Node := Node.allElements tags m.nodes

/-- The letters that a tree is to be read as. -/
def said (m : Markup) : List Char := Node.allLetters m.nodes

theorem allElements_allNodes : Node.allElements tags (allNodes ms) = ms.flatMap (found tags) := by
  rw [Node.allElements_eq, allNodes_eq, List.flatMap_assoc]
  exact List.flatMap_congr fun m _ => (Node.allElements_eq tags m.nodes).symm

theorem allLetters_allNodes : Node.allLetters (allNodes ms) = ms.flatMap said := by
  rw [Node.allLetters_eq, allNodes_eq, List.flatMap_assoc]
  exact List.flatMap_congr fun m _ => (Node.allLetters_eq m.nodes).symm

@[simp]
theorem found_text : found tags (text s) = [] := by
  rw [found, nodes, Node.allElements_eq, List.flatMap_map]
  exact List.flatMap_eq_nil_iff.mpr fun c _ => rfl

@[simp]
theorem found_element : found tags (element tag attributes children)
    = if tag ∈ tags then
        .element tag attributes (allNodes children) :: children.flatMap (found tags)
      else children.flatMap (found tags) := by
  rw [found, nodes, Node.allElements, Node.allElements, List.append_nil, Node.elements,
    allElements_allNodes]

@[simp]
theorem found_void : found tags (void tag attributes)
    = if tag ∈ tags then [.element tag attributes []] else [] := by
  rw [found, nodes, Node.allElements, Node.allElements, List.append_nil, Node.elements,
    Node.allElements]

@[simp]
theorem said_text : said (text s) = s.toList := by
  rw [said, nodes, Node.allLetters_eq, List.flatMap_map]
  exact List.flatMap_singleton' _

@[simp]
theorem said_element : said (element tag attributes children) = children.flatMap said := by
  rw [said, nodes, Node.allLetters, Node.allLetters, List.append_nil, Node.letters,
    allLetters_allNodes]

/-- The cells that a tree is to be read as. -/
def cellsIn (m : Markup) : List Cell := (found ["th", "td"] m).map Node.cell

/-- An element with no cells inside is one. -/
theorem cellsIn_element (htag : tag ∈ ["th", "td"])
    (hinside : children.flatMap (found ["th", "td"]) = []) :
    cellsIn (element tag attributes children)
      = [⟨tag, attributes.lookup "class", .ofList (children.flatMap said)⟩] := by
  rw [cellsIn, found_element, if_pos htag, hinside, List.map_singleton, Node.cell, Node.letters,
    allLetters_allNodes]
  rfl

/-- An element as a row has the cells that are inside. -/
theorem row_element : (Node.element tag attributes (allNodes children)).row
    = ⟨attributes, children.flatMap cellsIn⟩ := by
  rw [Node.row, Node.children, allElements_allNodes, List.map_flatMap]
  rfl

theorem outline_append (ts us : List Token) : outline (ts ++ us) = outline ts ++ outline us :=
  List.filterMap_append

theorem outline_text : outline (text s).tokens = [] := by
  rw [tokens, outline, List.filterMap_map]
  exact List.filterMap_eq_nil_iff.mpr fun c _ => rfl

theorem outline_allTokens : outline (allTokens ms) = ms.flatMap fun m => outline m.tokens := by
  rw [allTokens_eq, outline, List.filterMap_flatMap]
  rfl

theorem outline_element : outline (element tag attributes children).tokens
    = .opening tag (attributes.filter fun a => a.1 = "class") ::
      (children.flatMap (fun m => outline m.tokens) ++ [.closing tag]) := by
  rw [tokens, ← List.singleton_append, outline_append, outline_append, outline_allTokens]
  rfl

end

end Markup

/-- What became of an outcome. -/
inductive Verdict
  | matched
  | mismatched
  | skipped
  deriving DecidableEq

def Comparison.verdict : Comparison → Verdict
  | .agrees => .matched
  | .differs _ _ => .mismatched
  | .skipped => .skipped

/-- The class of the cells of an outcome. -/
def Verdict.styleClass : Verdict → String
  | matched => "match"
  | mismatched => "mismatch"
  | skipped => "skipped"

namespace CaseReport

/-- Reports with one outcome for each kind of backend, in the order of the kinds. -/
def Complete (c : CaseReport) : Prop := c.outcomes.map Prod.fst = BackendKind.all

/-- What became of the outcomes. -/
def verdicts (c : CaseReport) : List Verdict := c.outcomes.map fun o => (c.compare o.2).verdict

/-- What the row of a case is to be read as. -/
def tableRow (c : CaseReport) : Markup.Row where
  attributes := [("id", c.name)]
  cells :=
    [⟨"td", none, c.name⟩, ⟨"td", none, c.expect⟩] ++
      c.outcomes.map (fun o =>
        ⟨"td", some (c.compare o.2).verdict.styleClass, o.2.getD "skipped"⟩) ++
      [⟨"td", none, c.source⟩]

end CaseReport

namespace Report

open Markup

theorem cellClass_eq (c : Comparison) : cellClass c = c.verdict.styleClass := by cases c <;> rfl

/-- What the row over the cases is to be read as. -/
def headingRow : Row where
  attributes := []
  cells := (["Case", "Expected"] ++ BackendKind.all.map BackendKind.name ++ ["Source"]).map
    fun s => ⟨"th", none, s⟩

/-- What became of the outcomes of all cases. -/
def verdicts (r : Report) : List (List Verdict) := r.cases.map CaseReport.verdicts

/-- The page as a tree. -/
def pageTree (r : Report) : Markup :=
  .element "html" []
    [.text "\n", head, .text "\n", .element "body" []
      [.text "\n", labelled "h1" r.title, .text "\n", table r, .text "\n"]]

theorem page_eq (r : Report) : r.page.toList
    = "<!DOCTYPE html>".toList ++ (['\n'].flatMap image ++ r.pageTree.render.toList) := by
  have hline : "<!DOCTYPE html>\n".toList = "<!DOCTYPE html>".toList ++ ['\n'].flatMap image := rfl
  have hpage : r.page = "<!DOCTYPE html>\n" ++ r.pageTree.render := by
    unfold page pageTree
    rfl
  rw [hpage, String.toList_append, hline, List.append_assoc]

theorem proper_labelled (tag : String) (htag : isName tag = true) (hvoid : tag ∉ voidTags)
    (s : String) : (labelled tag s).proper = true := by
  simp [labelled, proper, allProper_eq, htag, hvoid]

theorem proper_cell (c : CaseReport) (actual : Option String) : (cell c actual).proper = true := by
  have hcode := proper_labelled "code" rfl (by decide) (actual.getD "skipped")
  simp [cell, proper, allProper_eq, hcode]
  decide

theorem proper_row (c : CaseReport) : (row c).proper = true := by
  have hcode := proper_labelled "code" rfl (by decide)
  have hpre := proper_labelled "pre" rfl (by decide)
  have htd := proper_labelled "td" rfl (by decide)
  simp [row, proper, allProper_eq, proper_cell, hcode, hpre, htd]
  decide

theorem proper_pageTree (r : Report) : r.pageTree.proper = true := by
  have hheading : heading.proper = true := by decide
  have hhead : head.proper = true := by decide
  have htable : (table r).proper = true := by
    simp [table, proper, allProper_eq, proper_row, hheading]
    decide
  have hlabelled := proper_labelled "h1" rfl (by decide)
  simp [pageTree, proper, allProper_eq, hhead, htable, hlabelled]
  decide

theorem found_row (c : CaseReport) : found ["tr"] (row c) = (row c).nodes := by
  have hcell : ∀ o : BackendKind × Option String, found ["tr"] (cell c o.2) = [] := fun o => by
    simp [cell, labelled]
  simp [row, labelled, nodes, List.flatMap_map, hcell]

theorem found_heading : found ["tr"] heading = heading.nodes := by
  simp [heading, labelled, nodes, List.flatMap_map]

theorem cellsIn_labelled (tag : String) (htag : tag ∈ ["th", "td"]) (s : String) :
    cellsIn (labelled tag s) = [⟨tag, none, s⟩] := by
  rw [labelled, cellsIn_element _ _ _ htag (by simp)]
  simp

/-- A cell with one element in it that is none has the text of this element. -/
theorem cellsIn_nested (tag : String) (htag : tag ∉ ["th", "td"])
    (attributes : List (String × String)) (s : String) :
    cellsIn (.element "td" attributes [labelled tag s])
      = [⟨"td", attributes.lookup "class", s⟩] := by
  rw [cellsIn_element _ _ _ (by decide) (by simp [labelled, htag])]
  simp [labelled]

theorem cellsIn_cell (c : CaseReport) (actual : Option String) : cellsIn (cell c actual)
    = [⟨"td", some (c.compare actual).verdict.styleClass, actual.getD "skipped"⟩] := by
  rw [cell, cellsIn_nested "code" (by decide), cellClass_eq]
  rfl

theorem map_row_nodes (c : CaseReport) : (row c).nodes.map Node.row = [c.tableRow] := by
  have hcells : (c.outcomes.map fun o => cell c o.2).flatMap cellsIn = c.outcomes.map fun o =>
      ⟨"td", some (c.compare o.2).verdict.styleClass, o.2.getD "skipped"⟩ := by
    rw [List.flatMap_map, List.map_eq_flatMap]
    exact List.flatMap_congr fun o _ => cellsIn_cell c o.2
  -- The cells around the outcomes are the same in number for all cases.
  rw [row, nodes, List.map_singleton, row_element, List.flatMap_append, List.flatMap_append, hcells]
  simp only [List.flatMap_cons, List.flatMap_nil, cellsIn_labelled "td" (by decide),
    cellsIn_nested "code" (by decide), cellsIn_nested "pre" (by decide)]
  rfl

theorem map_heading_nodes : heading.nodes.map Node.row = [headingRow] := by
  have hcells : ∀ names : List String, (names.map (labelled "th")).flatMap cellsIn
      = names.map fun s => ⟨"th", none, s⟩ := by
    intro names
    rw [List.flatMap_map, List.map_eq_flatMap]
    exact List.flatMap_congr fun s _ => cellsIn_labelled "th" (by decide) s
  have hheading : heading = .element "tr" []
      ((["Case", "Expected"] ++ BackendKind.all.map BackendKind.name ++ ["Source"]).map
        (labelled "th")) := rfl
  rw [hheading, nodes, List.map_singleton, row_element, hcells]
  rfl

/-- The table, line by line. -/
theorem found_table (r : Report) :
    found ["tr"] (table r) = heading.nodes ++ r.cases.flatMap fun c => (row c).nodes := by
  simp [table, List.flatMap_assoc, List.flatMap_map, found_heading, found_row]

theorem rows_table (r : Report) : (found ["tr"] (table r)).map Node.row
    = headingRow :: r.cases.map CaseReport.tableRow := by
  rw [found_table, List.map_append, map_heading_nodes, List.map_flatMap, List.map_eq_flatMap]
  exact congrArg (headingRow :: ·) (List.flatMap_congr fun c _ => map_row_nodes c)

/-- No row is outside of the table. -/
theorem rows_pageTree (r : Report) :
    rows r.pageTree.nodes = headingRow :: r.cases.map CaseReport.tableRow := by
  rw [← rows_table, rows]
  refine congrArg (List.map Node.row) ?_
  change found ["tr"] r.pageTree = found ["tr"] (table r)
  simp [pageTree, head, labelled]

/-- All of them are in the one table. -/
theorem tables_pageTree (r : Report) : tables r.pageTree.nodes = [rows r.pageTree.nodes] := by
  have hrow : ∀ c : CaseReport, found ["table"] (row c) = [] := fun c => by
    simp [row, cell, labelled, List.flatMap_map]
  have hheading : found ["table"] heading = [] := by simp [heading, labelled, List.flatMap_map]
  have htable : found ["table"] (table r) = (table r).nodes := by
    simp [table, nodes, List.flatMap_assoc, List.flatMap_map, hrow, hheading]
  have hpage : found ["table"] r.pageTree = (table r).nodes := by
    simp [pageTree, head, labelled, htable]
  -- Below the table are the rows that are in and below it, since it is none itself.
  rw [rows_pageTree, ← rows_table]
  change (found ["table"] r.pageTree).map (fun n => rows n.children) = _
  rw [hpage]
  change [rows (allNodes _)] = _
  rw [rows, allElements_allNodes, found_table]
  simp [List.flatMap_assoc, List.flatMap_map, found_heading, found_row]

theorem tokens?_page (r : Report) : tokens? r.page
    = some (.declaration "DOCTYPE html" :: .letter '\n' :: r.pageTree.tokens) := by
  have htree := scan_render r.pageTree (proper_pageTree r) (Text.scan_nil token?)
  rw [List.append_nil, List.append_nil] at htree
  rw [tokens?, page_eq]
  exact scan_token (by decide) rfl (scan_letters ['\n'] htree)

theorem read?_page (r : Report) : read? r.page = some (.letter '\n' :: r.pageTree.nodes) := by
  rw [read?, tokens?_page, Option.bind_some, build?, List.foldlM_cons, add, Option.bind_eq_bind,
    Option.bind_some, List.foldlM_cons, add, Option.bind_eq_bind, Option.bind_some,
    foldlM_tokens _ _ (proper_pageTree r)]
  rfl

/-- The tags of an element without attributes. -/
def wrapped (tag : String) (inside : List Token) : List Token :=
  .opening tag [] :: (inside ++ [.closing tag])

/-- The tags of a row, by what became of the outcomes. -/
def rowOutline (vs : List Verdict) : List Token :=
  wrapped "tr" <|
    wrapped "td" [] ++ wrapped "td" (wrapped "code" []) ++
      vs.flatMap (fun v =>
        .opening "td" [("class", v.styleClass)] :: (wrapped "code" [] ++ [.closing "td"])) ++
      wrapped "td" (wrapped "pre" [])

theorem outline_labelled (tag s : String) : outline (labelled tag s).tokens = wrapped tag [] := by
  rw [labelled, outline_element, List.flatMap_singleton, outline_text]
  rfl

theorem outline_row (c : CaseReport) : outline (row c).tokens = rowOutline c.verdicts := by
  have hcells : (c.outcomes.map fun o => cell c o.2).flatMap (fun m => outline m.tokens)
      = c.verdicts.flatMap fun v =>
        .opening "td" [("class", v.styleClass)] :: (wrapped "code" [] ++ [.closing "td"]) := by
    rw [List.flatMap_map, CaseReport.verdicts, List.flatMap_map]
    refine List.flatMap_congr fun o _ => ?_
    rw [cell, outline_element, List.flatMap_singleton, outline_labelled, cellClass_eq]
    rfl
  rw [row, outline_element, List.flatMap_append, List.flatMap_append, hcells]
  simp only [List.flatMap_cons, List.flatMap_nil, outline_labelled, outline_element]
  rfl

theorem outline_table (r : Report) : outline (table r).tokens
    = wrapped "table" (outline heading.tokens ++ r.verdicts.flatMap rowOutline) := by
  have hrows : r.cases.flatMap (fun c => outline (row c).tokens)
      = r.verdicts.flatMap rowOutline := by
    rw [verdicts, List.flatMap_map]
    exact List.flatMap_congr fun c _ => outline_row c
  rw [table, outline_element, ← hrows]
  simp only [List.flatMap_cons, List.flatMap_nil, outline_text, List.flatMap_assoc,
    List.flatMap_append, List.flatMap_map, List.append_nil, List.nil_append]
  rfl

/-- The tags of a page are fixed around those of the rows. -/
theorem outline_pageTree {r r' : Report} (h : r.verdicts = r'.verdicts) :
    outline r.pageTree.tokens = outline r'.pageTree.tokens := by
  simp only [pageTree, outline_element, List.flatMap_cons, List.flatMap_nil, outline_labelled,
    outline_table, h, outline_text]

end Report

/-- Workers ask the backends of all kinds, whatever cases they have run before. -/
theorem CaseReport.complete_check [Languages] (history : List Case) (c : Case) :
    ((Worker.check c).run (Worker.after history Worker.fresh)).1.Complete := by
  have hfresh : Worker.fresh = Worker.ofStylers StylerOn.fresh := rfl
  rw [hfresh, Worker.after_ofStylers, Worker.run_check, CaseReport.Complete, List.map_map]
  exact List.map_id _

theorem CaseReport.Complete.length_cells {c : CaseReport} (h : c.Complete) :
    c.tableRow.cells.length = 2 + BackendKind.all.length + 1 := by
  have hlength : c.outcomes.length = BackendKind.all.length := by
    rw [← h, List.length_map]
  rw [CaseReport.tableRow, List.length_append, List.length_append, List.length_map, hlength]
  rfl

/-- Reports of workers have an outcome for each kind of backend. The page of a report, whatever
    texts are in it, is read as a content with one table. All rows are in there: one that names
    the columns, and one for each case, in order, with the name, what is expected, the outcomes
    and the source as the texts of the cells. If the reports of the cases are such as workers
    make, each row has two cells more than there are kinds of backends, and one for the source.
    The tags of a page and their classes are determined by what became of the outcomes: they are
    the same for all reports with as many cases and the same verdicts. -/
theorem Report.pages_keep_shape [Languages] :
    (∀ history c, ((Worker.check c).run (Worker.after history Worker.fresh)).1.Complete) ∧
    (∀ r : Report, ∃ ns, Markup.read? r.page = some ns ∧ Markup.tables ns = [Markup.rows ns] ∧
      Markup.rows ns = headingRow :: r.cases.map CaseReport.tableRow ∧
      ((∀ c ∈ r.cases, c.Complete) →
        ∀ row ∈ Markup.rows ns, row.cells.length = 2 + BackendKind.all.length + 1)) ∧
    ∀ r r' : Report, r.verdicts = r'.verdicts →
      (Markup.tokens? r.page).map Markup.outline = (Markup.tokens? r'.page).map Markup.outline := by
  -- The page is written from a tree, so what is read of it is that tree but for single letters.
  refine ⟨CaseReport.complete_check,
    fun r => ⟨_, read?_page r, ?_, ?_, fun hcomplete row hrow => ?_⟩, fun r r' h => ?_⟩
  · rw [Markup.tables_letter, Markup.rows_letter]
    exact tables_pageTree r
  · rw [Markup.rows_letter]
    exact rows_pageTree r
  · rw [Markup.rows_letter, rows_pageTree] at hrow
    rcases List.mem_cons.mp hrow with rfl | hrow
    · rfl
    · obtain ⟨c, hc, rfl⟩ := List.mem_map.mp hrow
      exact (hcomplete c hc).length_cells
  · have htree := outline_pageTree h
    rw [tokens?_page, tokens?_page]
    exact congrArg some htree

section

open scoped Interpreters

/-- A case with tags and quotes for a name has a row like one with no name at all. -/
theorem Report.pages_keep_shape_tags :
    let c : CaseReport :=
      ⟨"\"><td>&amp;", "</pre>", "uint(1)", [(.web, some "<b>"), (.embedded, none)]⟩
    let d : CaseReport := ⟨"", "", "", [(.web, some "uint(1)"), (.embedded, none)]⟩
    (∃ ns, Markup.read? (Report.page ⟨[c]⟩) = some ns ∧
      Markup.rows ns = [headingRow, c.tableRow] ∧ ∀ row ∈ Markup.rows ns, row.cells.length = 5) ∧
    (Markup.tokens? (Report.page ⟨[c]⟩)).map Markup.outline
      = (Markup.tokens? (Report.page ⟨[d]⟩)).map Markup.outline := by
  intro c d
  obtain ⟨_, hpage, htags⟩ := pages_keep_shape
  obtain ⟨ns, hread, _, hrows, hlength⟩ := hpage ⟨[c]⟩
  refine ⟨⟨ns, hread, hrows, hlength ?_⟩, htags ⟨[c]⟩ ⟨[d]⟩ (by decide)⟩
  intro c' hc'
  rw [List.mem_singleton.mp hc']
  rfl

end

end MapStyling
