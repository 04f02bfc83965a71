import MapStyling.Case.Reader
import MapStyling.Proofs.Bags
import MapStyling.Proofs.Headers

/-!
# Texts of Cases

A case is read back from every text that it is written as.

A text of a case is a line for each of its fields, a line of three hyphens, and the source.
The fields may come in any order, but for the globals, which are a list and keep theirs.
Lines without a word in them and comments may stand anywhere.

What the order of the lines does not change is there in the case already: of one field there
is one line, so the last of its lines is that one, and properties are a bag. The line of
hyphens is found at the right place because no line above it reads like it: headers have a
colon, comments a number sign, and other lines nothing but blanks. Behind it the source may
hold such lines as it likes.

## Main definitions

* `Case.headers`: The headers of a case.
* `Case.Writable`: Cases whose headers fit on lines.
* `Lines`: Lines that say headers, with blank lines and comments among them.
* `Case.text`: The text of lines and a source.

## Theorems

* `Lines.mapM_read`: Lines are read as the headers that they say.
* `Case.ofHeaders_of_perm`: The headers of a case in any order make up the case.
* `Case.parse_text`: A case is read back.
-/

namespace MapStyling

open Text (isBlank)

/-- Lines that say headers, with blank lines and comments among them. -/
inductive Lines : List Header → List (List Char) → Prop
  | nil : Lines [] []
  | blank {x : List Char} {hs : List Header} {ls : List (List Char)}
      (blanks : ∀ c ∈ x, isBlank c = true) (unbroken : '\n' ∉ x) (rest : Lines hs ls) :
      Lines hs (x :: ls)
  /-- A comment, which may be indented. -/
  | comment {x y : List Char} {hs : List Header} {ls : List (List Char)}
      (blanks : ∀ c ∈ x, isBlank c = true) (unbroken : '\n' ∉ x ++ '#' :: y)
      (rest : Lines hs ls) : Lines hs ((x ++ '#' :: y) :: ls)
  | header {h : Header} {line : List Char} {hs : List Header} {ls : List (List Char)}
      (writes : h.Writes line) (rest : Lines hs ls) : Lines (h :: hs) (line :: ls)

namespace Case

/-- The headers of a case. -/
def headers (c : Case) : List Header :=
  [.key c.key, .expect c.expect, .geometry c.geometry] ++ c.backends.toList.map .backends ++
    c.zoom.toList.map .zoom ++ (c.properties.entries.map fun e => .property e.1 e.2) ++
      c.globals.map fun g => .global g.1 g.2

/-- Cases whose headers fit on lines. The properties are a bag, so its entries increase. -/
structure Writable (c : Case) : Prop where
  headers : ∀ h ∈ c.headers, h.Writable
  properties : Entries.Increasing c.properties.entries

/-- The text of lines, a line of hyphens, and whatever stands behind it. -/
def text (lines : List (List Char)) (source : List Char) : String :=
  String.ofList (['\n'].intercalate (lines ++ ["---".toList, source]))

end Case

namespace Lines

variable {hs : List Header} {ls : List (List Char)}

/-- No line is broken, and none reads like the one that ends the headers. -/
theorem not_separator (h : Lines hs ls) (hwritable : ∀ h ∈ hs, h.Writable) :
    ∀ line ∈ ls, '\n' ∉ line ∧ line ≠ "---".toList := by
  induction h with
  | nil => exact fun _ hline => absurd hline List.not_mem_nil
  | blank hblanks hbreak _ ih =>
      -- A hyphen is no blank.
      refine List.forall_mem_cons.mpr ⟨⟨hbreak, ?_⟩, ih hwritable⟩
      rintro rfl
      exact absurd (hblanks '-' List.mem_cons_self) (by decide)
  | comment hblanks hbreak _ ih =>
      refine List.forall_mem_cons.mpr ⟨⟨hbreak, fun heq => ?_⟩, ih hwritable⟩
      have hmem : '#' ∈ "---".toList := heq ▸ List.mem_append_right _ List.mem_cons_self
      exact absurd hmem (by decide)
  | header hwrites _ ih =>
      obtain ⟨hfirst, hrest⟩ := List.forall_mem_cons.mp hwritable
      have hback := Header.readsBack_of_writes hwrites hfirst
      -- A header has a colon, and hyphens have none.
      refine List.forall_mem_cons.mpr ⟨⟨hback.unbroken, ?_⟩, ih hrest⟩
      rintro rfl
      exact absurd hback.colon (by decide)

/-- Lines are read as the headers that they say. -/
theorem mapM_read (h : Lines hs ls) (hwritable : ∀ h ∈ hs, h.Writable) :
    ((ls.map Text.trim).filter fun line => !line.isEmpty && line.head? != some '#').mapM
      Header.read = .ok hs := by
  -- Lines without a header are left out before any line is read.
  induction h with
  | nil => rfl
  | blank hblanks _ _ ih =>
      have htrim := Text.trim_blanks_append hblanks (s := []) rfl
      rw [List.append_nil] at htrim
      rw [List.map_cons, htrim, List.filter_cons_of_neg (by decide)]
      exact ih hwritable
  | comment hblanks _ _ ih =>
      obtain ⟨rest, htrim⟩ := Text.trim_cons hblanks (c := '#') rfl
      rw [List.map_cons, htrim, List.filter_cons_of_neg (by simp)]
      exact ih hwritable
  | header hwrites _ ih =>
      obtain ⟨hfirst, hrest⟩ := List.forall_mem_cons.mp hwritable
      obtain ⟨_, _, ⟨c, rest, htrim, hc⟩, hread⟩ := Header.readsBack_of_writes hwrites hfirst
      rw [htrim] at hread
      rw [List.map_cons, htrim, List.filter_cons_of_pos (by simp [hc]), List.mapM_cons, hread,
        ih hrest]
      rfl

end Lines

namespace Case

variable {c : Case} {hs : List Header}

/-- Of a field with one line, the last line is that one. -/
theorem last?_of_perm {α : Type} {pick : Header → Option α} {o : Option α}
    (h : hs.Perm c.headers) (hpick : c.headers.filterMap pick = o.toList) :
    last? pick hs = o := by
  have hperm : (hs.filterMap pick).Perm o.toList := hpick ▸ h.filterMap pick
  cases o with
  | none => rw [last?, List.perm_nil.mp hperm]; rfl
  | some a => rw [last?, List.perm_singleton.mp hperm]; rfl

/-- The headers of a case by what they say. -/
theorem filterMap_headers {α : Type} (c : Case) (pick : Header → Option α) :
    c.headers.filterMap pick = (pick (.key c.key)).toList ++ (pick (.expect c.expect)).toList ++
      (pick (.geometry c.geometry)).toList ++
      c.backends.toList.filterMap (fun kinds => pick (.backends kinds)) ++
      c.zoom.toList.filterMap (fun level => pick (.zoom level)) ++
      c.properties.entries.filterMap (fun e => pick (.property e.1 e.2)) ++
      c.globals.filterMap (fun g => pick (.global g.1 g.2)) := by
  have hfirst : [Header.key c.key, .expect c.expect, .geometry c.geometry].filterMap pick
      = (pick (.key c.key)).toList ++ (pick (.expect c.expect)).toList ++
        (pick (.geometry c.geometry)).toList := by
    rw [List.filterMap_eq_flatMap_toList]
    simp only [List.flatMap_cons, List.flatMap_nil, List.append_nil, List.append_assoc]
  simp only [headers, List.filterMap_append, hfirst, List.filterMap_map, Function.comp_def]

/-- The headers of a case in any order make up the case. -/
theorem ofHeaders_of_perm (hc : Entries.Increasing c.properties.entries)
    (h : hs.Perm c.headers) (hglobals : hs.filterMap Header.global? = c.globals) :
    ofHeaders c.name hs c.source = .ok c := by
  have hkey : last? Header.key? hs = some c.key :=
    last?_of_perm h (by simp [filterMap_headers, Header.key?])
  have hexpect : last? Header.expect? hs = some c.expect :=
    last?_of_perm h (by simp [filterMap_headers, Header.expect?])
  have hbackends : last? Header.backends? hs = c.backends :=
    last?_of_perm h (by simp [filterMap_headers, Header.backends?])
  have hzoom : last? Header.zoom? hs = c.zoom :=
    last?_of_perm h (by simp [filterMap_headers, Header.zoom?])
  have hgeometry : last? Header.geometry? hs = some c.geometry :=
    last?_of_perm h (by simp [filterMap_headers, Header.geometry?])
  have hentries : c.headers.filterMap Header.entry? = c.properties.entries := by
    simp [filterMap_headers, Header.entry?]
  -- The properties are the only field with several lines whose order does not count.
  have hproperties : Properties.ofList (hs.filterMap Header.entry?) = c.properties :=
    Properties.ofList_of_perm hc (hentries ▸ h.filterMap Header.entry?)
  rw [ofHeaders, hkey, hexpect, hbackends, hzoom, hgeometry, hproperties, hglobals]
  rfl

/-- A case is read back from every text of lines that say its headers, of a line of hyphens,
    and of the source, whatever blanks are around the source and whatever lines are in it. -/
theorem parse_text {headers : List Header} {lines : List (List Char)} {tail : List Char}
    (hc : c.Writable) (horder : headers.Perm c.headers)
    (hglobals : headers.filterMap Header.global? = c.globals) (hlines : Lines headers lines)
    (hsource : Text.trim tail = c.source.toList) :
    parse c.name (text lines tail) = .ok c := by
  have hwritable : ∀ h ∈ headers, h.Writable := fun h hh => hc.headers h (horder.mem_iff.mp hh)
  -- The separating line has a line break in front, so there has to be a line above it.
  have hne : lines ≠ [] := by
    rintro rfl
    cases hlines
    have hkey : Header.key c.key ∈ c.headers := List.mem_cons_self
    exact absurd (horder.mem_iff.mpr hkey) List.not_mem_nil
  have hnot := hlines.not_separator hwritable
  have hsplit : Text.splitAt? separator (text lines tail).toList
      = some (['\n'].intercalate lines, tail) := by
    rw [text, String.toList_ofList]
    exact Text.splitAt?_intercalate hne (by decide) hnot
  have hread : (headerLines (['\n'].intercalate lines)).mapM Header.read = .ok headers := by
    rw [headerLines, Text.splitOn_intercalate hne fun line hline => (hnot line hline).1]
    exact hlines.mapM_read hwritable
  rw [parse, hsplit]
  simp only [hread]
  change ofHeaders c.name headers (String.ofList (Text.trim tail)) = .ok c
  rw [hsource, String.ofList_toList]
  exact ofHeaders_of_perm hc.properties horder hglobals

/-- A case with texts that look like parts of the format. -/
def sample : Case where
  name := "sample"
  key := .filter
  expect := "true"
  backends := some [.web, .embedded]
  properties := ⟨[("height", .number (Decimal.nearestDouble false ⟨15, -1⟩)),
    ("old name", .text "say: \"hi\" \\")]⟩
  globals := [("label", "a: b # c"), ("label", "")]
  zoom := some (-3)
  geometry := .lines
  source := "x\n---\ny"

theorem writable_sample : sample.Writable where
  headers := by
    have hheight : FieldName "height" := ⟨⟨rfl, by decide⟩, by decide⟩
    have hname : FieldName "old name" := ⟨⟨rfl, by decide⟩, by decide⟩
    have hlabel : FieldName "label" := ⟨⟨rfl, by decide⟩, by decide⟩
    have hanswer : OneLine "true".toList := ⟨rfl, by decide⟩
    have htext : OneLine "a: b # c".toList ∧ OneLine "".toList :=
      ⟨⟨rfl, by decide⟩, ⟨rfl, by decide⟩⟩
    change ∀ h ∈ [_, _, _, _, _, _, _, _, _], Header.Writable h
    simp only [List.forall_mem_cons]
    exact ⟨trivial, hanswer, trivial, List.cons_ne_nil _ _, ⟨by decide, by decide⟩, hheight,
      ⟨hname, by decide⟩, ⟨hlabel, htext.1⟩, ⟨hlabel, htext.2⟩, fun _ h =>
        absurd h List.not_mem_nil⟩
  properties := by
    have hlt : "height" < "old name" := String.lt_iff_toList_lt.mpr (by decide)
    exact List.pairwise_pair.mpr hlt

theorem parse_sample : parse "sample" ("# Comment\n" ++
    "prop old name: \"say: \\\"hi\\\" \\\"\n" ++ "global label: a: b # c\n" ++
    "global label: \n" ++ " \n" ++ "key: filter\n" ++ "expect: true\n" ++
    "geometry: line\n" ++ "backends: boa, rhai\n" ++ "zoom: -3\n" ++ "prop height: 1.5\n" ++
    "---\n" ++ " x\n" ++ "---\n" ++ "y\n") = .ok sample := by
  have hnumber : Literal.spelled? "1.5".toList = some (Decimal.nearestDouble false ⟨15, -1⟩) := by
    decide +kernel
  have hsource : Text.trim " x\n---\ny\n".toList = sample.source.toList := by decide
  -- The fields in another order: the second property and the globals come first.
  have hlines : Lines (sample.headers.drop 6 ++ sample.headers.take 6) _ :=
    .comment (x := []) (y := " Comment".toList) (List.all_eq_true.mp rfl) (by decide) <|
    .header (.text "old name" "say: \"hi\" \\") <|
    .header (.global "label" "a: b # c") <|
    .header (.global "label" "") <|
    .blank (x := [' ']) (List.all_eq_true.mp rfl) (by decide) <|
    .header (.key .filter) <|
    .header (.expect "true") <|
    .header (.geometry .lines) <|
    .header (.backends [.web, .embedded]) <|
    .header (.zoom (-3)) <|
    .header (.number "height" hnumber) <| .nil
  have horder : (sample.headers.drop 6 ++ sample.headers.take 6).Perm sample.headers :=
    List.perm_append_comm.trans (.of_eq (List.take_append_drop 6 _))
  have hparse := parse_text writable_sample horder rfl hlines hsource
  refine (congrArg (parse "sample") ?_).trans hparse
  decide +kernel

end Case

end MapStyling
