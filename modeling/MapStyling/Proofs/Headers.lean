import Mathlib.Data.List.Forall2
import MapStyling.Case.Header
import MapStyling.Proofs.NumberTexts
import MapStyling.Proofs.Separators

/-!
# Lines of Headers

How a header is written on a line, and that it is read back from it.

A line is a field and a value, and each of the cuts that reading makes could hit the payload:
the first colon one in a name, the first space one in a word, trimming the end of a text,
the quotes around a text one of its own. Names have no colon and no blank at their ends, so
the field ends where it should. A value may hold anything but line breaks. A text among the
properties begins and ends with a quote, so trimming cannot touch it, and a quote inside
never comes without its backslash. A number holds no quote.

## Main definitions

* `Header.escape`: A text with backslashes in front of its quotes.
* `Header.Writable`: Headers that fit on a line.
* `Header.Writes`: The line that says a header.
* `Header.Says`: A field and a value that are read as a header.
* `Header.ReadsBack`: A line that is read as a header.

## Theorems

* `Header.unescape_escape`: Escaped texts are read back.
* `Header.exists_says_of_writes`: A line is a field and its value.
* `Header.readsBack_of_writes`: A line is read as the header that it says.
-/

namespace MapStyling

/-- Texts that stand for themselves behind a colon. -/
structure OneLine (s : List Char) : Prop where
  trimmed : Text.Trimmed s
  unbroken : '\n' ∉ s

/-- Names of properties and globals. -/
structure FieldName (s : String) : Prop extends OneLine s.toList where
  colonless : ':' ∉ s.toList

/-- A text without blanks stands for itself. -/
theorem oneLine_of_forall {s : List Char} (h : ∀ c ∈ s, Text.isBlank c = false) : OneLine s :=
  ⟨Text.trimmed_of_forall h, fun hmem => absurd (h _ hmem) (by decide)⟩

namespace StyleKey

theorem mem_all (k : StyleKey) : k ∈ all := by
  cases k <;> decide

/-- Different parameters are spelled differently, so a spelling finds its parameter. -/
theorem ofName?_name (k : StyleKey) : ofName? k.name = some k := by
  have hall : ∀ k ∈ all, ofName? k.name = some k := by decide
  exact hall k (mem_all k)

theorem name_ne_filter (k : StyleKey) : k.name ≠ CaseKey.filter.name := by
  have hall : ∀ k ∈ all, k.name ≠ CaseKey.filter.name := by decide
  exact hall k (mem_all k)

theorem not_isBlank_name (k : StyleKey) : ∀ c ∈ k.name.toList, Text.isBlank c = false := by
  have hall : ∀ k ∈ all, k.name.toList.any Text.isBlank = false := by decide
  exact Text.not_isBlank_of_any (hall k (mem_all k))

end StyleKey

namespace CaseKey

theorem ofName?_name (k : CaseKey) : ofName? k.name = some k := by
  cases k with
  | filter => rfl
  | style k =>
      have hname : (style k).name ≠ filter.name := k.name_ne_filter
      have hfound : StyleKey.ofName? (style k).name = some k := k.ofName?_name
      rw [ofName?, if_neg hname, hfound]
      rfl

theorem not_isBlank_name (k : CaseKey) : ∀ c ∈ k.name.toList, Text.isBlank c = false := by
  cases k with
  | filter => exact Text.not_isBlank_of_any rfl
  | style k => exact k.not_isBlank_name

end CaseKey

namespace Header

open Text (Trimmed isBlank)
open Grammar (Stops stops_cons)

/-- A character inside of quotes. -/
def escapedChar (c : Char) : List Char := if c = '"' then ['\\', '"'] else [c]

/-- A text with backslashes in front of its quotes. -/
def escape (s : List Char) : List Char := s.flatMap escapedChar

/-- Headers that fit on a line. -/
def Writable : Header → Prop
  | key _ => True
  | expect answer => OneLine answer.toList
  | backends kinds => kinds ≠ []
  | property _ .nothing => False
  | property name (.text s) => FieldName name ∧ '\n' ∉ s.toList
  | property name (.number _) => FieldName name
  | global name text => FieldName name ∧ OneLine text.toList
  | zoom level => -2147483648 ≤ level ∧ level ≤ 2147483647
  | geometry _ => True

/-- A field and its value. -/
def line (field value : List Char) : List Char := field ++ ':' :: ' ' :: value

/-- The names of kinds with commas between them. -/
def listed (kinds : List BackendKind) : List Char :=
  ", ".toList.intercalate (kinds.map fun k => k.name.toList)

/-- The line that says a header. A number may be spelled in any way. -/
inductive Writes : Header → List Char → Prop
  | key (asked : CaseKey) : Writes (.key asked) (line "key".toList asked.name.toList)
  | expect (answer : String) : Writes (.expect answer) (line "expect".toList answer.toList)
  | backends (kinds : List BackendKind) :
      Writes (.backends kinds) (line "backends".toList (listed kinds))
  | text (name s : String) : Writes (.property name (.text s))
      (line ("prop".toList ++ ' ' :: name.toList) ('"' :: (escape s.toList ++ ['"'])))
  | number (name : String) {digits : List Char} {v : Float}
      (spelling : Literal.spelled? digits = some v) :
      Writes (.property name (.number v)) (line ("prop".toList ++ ' ' :: name.toList) digits)
  | global (name text : String) :
      Writes (.global name text) (line ("global".toList ++ ' ' :: name.toList) text.toList)
  | zoom (level : Int) : Writes (.zoom level) (line "zoom".toList (Digits.signed level).toList)
  | geometry (kind : Geometry) :
      Writes (.geometry kind) (line "geometry".toList kind.scriptName.toList)

theorem escape_cons (c : Char) (s : List Char) : escape (c :: s) = escapedChar c ++ escape s :=
  List.flatMap_cons

/-- Nothing but a backslash comes before a quote in an escaped text. -/
theorem stops_escape (s : List Char) : Stops (fun c => c = '"') (escape s) := by
  cases s with
  | nil => exact Grammar.stops_nil _
  | cons c s =>
      rw [escape_cons, escapedChar]
      split
      · exact stops_cons.mpr rfl
      · next hc => exact stops_cons.mpr (decide_eq_false hc)

theorem unescape_cons {c : Char} {r : List Char} (h : Stops (fun c => c = '"') r) :
    unescape (c :: r) = c :: unescape r := by
  rw [unescape.eq_def]
  split
  · next heq => cases heq
  · next heq =>
    cases heq
    exact absurd (stops_cons.mp h) (by decide)
  · next heq =>
    cases heq
    rfl

/-- Escaped texts are read back. -/
theorem unescape_escape (s : List Char) : unescape (escape s) = s := by
  induction s with
  | nil => rfl
  | cons c s ih =>
      by_cases hc : c = '"'
      · rw [escape_cons, escapedChar, if_pos hc, hc, List.cons_append, List.singleton_append,
          unescape, ih]
      · rw [escape_cons, escapedChar, if_neg hc, List.singleton_append,
          unescape_cons (stops_escape s), ih]

theorem not_mem_escape {s : List Char} (h : '\n' ∉ s) : '\n' ∉ escape s := by
  intro hmem
  obtain ⟨c, hc, hescaped⟩ := List.mem_flatMap.mp hmem
  rw [escapedChar] at hescaped
  split at hescaped
  · exact absurd hescaped (by decide)
  · exact h (List.mem_singleton.mp hescaped ▸ hc)

/-- Quoted texts are read back. -/
theorem property?_text (s : String) :
    property? ('"' :: (escape s.toList ++ ['"'])) = some (.text s) := by
  have hfirst : Text.afterFirst? ['"'] ('"' :: (escape s.toList ++ ['"']))
      = some (escape s.toList ++ ['"']) := Text.afterFirst?_eq_some_iff.mpr rfl
  have hlast : Text.beforeLast? ['"'] (escape s.toList ++ ['"']) = some (escape s.toList) := by
    have hreverse : Text.afterFirst? ['"'].reverse (escape s.toList ++ ['"']).reverse
        = some (escape s.toList).reverse :=
      Text.afterFirst?_eq_some_iff.mpr List.reverse_append
    rw [Text.beforeLast?, hreverse, Option.map_some, List.reverse_reverse]
  have hquoted : quoted? ('"' :: (escape s.toList ++ ['"'])) = some s.toList := by
    rw [quoted?, hfirst, Option.bind_some, hlast, Option.map_some, unescape_escape]
  rw [property?, hquoted]
  simp only [String.ofList_toList]

/-- Numbers are read back, however they are spelled. -/
theorem property?_number {digits : List Char} {v : Float}
    (h : Literal.spelled? digits = some v) : property? digits = some (.number v) := by
  have hquoted : quoted? digits = none := by
    have hfirst : Text.afterFirst? ['"'] digits = none := by
      refine Option.eq_none_iff_forall_ne_some.mpr fun r hr => ?_
      have hmem : '"' ∈ digits := by
        rw [Text.afterFirst?_eq_some_iff.mp hr]
        exact List.mem_cons_self
      exact absurd (Literal.isNumeric_of_spelled h hmem) (by decide)
    rw [quoted?, hfirst]
    rfl
  rw [property?, hquoted, h]
  rfl

/-- Fields: they begin with a letter, and they end at the first colon of a line. -/
structure IsField (field : List Char) : Prop where
  first : ∃ c rest, field = c :: rest ∧ isBlank c = false ∧ c ≠ '#'
  colonless : ':' ∉ field
  unbroken : '\n' ∉ field

/-- A field and a value that say a header. -/
structure Says (h : Header) (field value : List Char) : Prop where
  isField : IsField field
  oneLine : OneLine value
  read : readField field value = .ok h

/-- A word of small letters is a field. -/
theorem isField_of_letters {word : List Char} (hne : word ≠ [])
    (h : word.all Char.isLower = true) : IsField word := by
  have hother : ∀ {c : Char}, c.isLower = false → c ∉ word := fun hc hmem => by
    rw [List.all_eq_true.mp h _ hmem] at hc
    cases hc
  obtain ⟨c, rest, rfl⟩ := List.exists_cons_of_ne_nil hne
  have hlower : c.isLower = true := List.all_eq_true.mp h c List.mem_cons_self
  refine ⟨⟨c, rest, rfl, ?_, ?_⟩, hother rfl, hother rfl⟩
  · exact Literal.not_isBlank_of_isNumeric (Literal.isNumeric_of_isLower hlower)
  · rintro rfl
    cases hlower

/-- What a word says is up to the word and the value, since it has no space to be cut at. -/
theorem says_of_word {h : Header} {word value : List Char} (hne : word ≠ [])
    (hletters : word.all Char.isLower = true) (hvalue : OneLine value)
    (hread : readPlain (String.ofList word) value = .ok h) : h.Says word value where
  isField := isField_of_letters hne hletters
  oneLine := hvalue
  read := by
    have hspace : ' ' ∉ word := fun hmem => absurd (List.all_eq_true.mp hletters _ hmem) (by decide)
    rw [readField, Text.splitAt?_singleton_eq_none hspace]
    exact hread

/-- A word and a name behind it are a field. -/
theorem isField_append {word : List Char} (hword : IsField word) {name : String}
    (hname : FieldName name) : IsField (word ++ ' ' :: name.toList) where
  first := by
    obtain ⟨c, rest, rfl, hc⟩ := hword.first
    exact ⟨c, rest ++ ' ' :: name.toList, rfl, hc⟩
  colonless := by
    rw [List.mem_append, List.mem_cons]
    rintro (hmem | hmem | hmem)
    · exact hword.colonless hmem
    · exact absurd hmem (by decide)
    · exact hname.colonless hmem
  unbroken := by
    rw [List.mem_append, List.mem_cons]
    rintro (hmem | hmem | hmem)
    · exact hword.unbroken hmem
    · exact absurd hmem (by decide)
    · exact hname.unbroken hmem

theorem says_property {name : String} (hname : FieldName name) {value : List Char}
    (hvalue : OneLine value) {v : PropertyValue} (h : property? value = some v) :
    (property name v).Says ("prop".toList ++ ' ' :: name.toList) value where
  isField := isField_append (isField_of_letters (by decide) rfl) hname
  oneLine := hvalue
  read := by
    have htrim : Text.trim name.toList = name.toList := hname.trimmed
    rw [readField, Text.splitAt?_singleton (by decide)]
    simp only [htrim, h, String.ofList_toList, if_true]

theorem says_text {name s : String} (h : (property name (.text s)).Writable) :
    (property name (.text s)).Says ("prop".toList ++ ' ' :: name.toList)
      ('"' :: (escape s.toList ++ ['"'])) := by
  obtain ⟨hname, hbreak⟩ := h
  refine says_property hname ⟨?_, ?_⟩ (property?_text s)
  -- The quotes are the ends of the value, so there are no blanks there.
  · exact Text.trimmed_append (List.cons_ne_nil '"' []) (stops_cons.mpr rfl) _
      (List.cons_ne_nil '"' []) (stops_cons.mpr rfl)
  · rw [List.mem_cons, List.mem_append, List.mem_singleton]
    rintro (hmem | hmem | hmem)
    · exact absurd hmem (by decide)
    · exact not_mem_escape hbreak hmem
    · exact absurd hmem (by decide)

theorem says_number {name : String} {v : Float} (h : (property name (.number v)).Writable)
    {digits : List Char} (spelling : Literal.spelled? digits = some v) :
    (property name (.number v)).Says ("prop".toList ++ ' ' :: name.toList) digits :=
  have hvalue : OneLine digits := oneLine_of_forall fun _ hc =>
    Literal.not_isBlank_of_isNumeric (Literal.isNumeric_of_spelled spelling hc)
  says_property h hvalue (property?_number spelling)

theorem says_global {name text : String} (h : (global name text).Writable) :
    (global name text).Says ("global".toList ++ ' ' :: name.toList) text.toList where
  isField := isField_append (isField_of_letters (by decide) rfl) h.1
  oneLine := h.2
  read := by
    have htrim : Text.trim name.toList = name.toList := h.1.trimmed
    have hword : ¬"global".toList = "prop".toList := by decide
    rw [readField, Text.splitAt?_singleton (by decide)]
    simp only [htrim, hword, String.ofList_toList, if_true, if_false]

theorem says_key (asked : CaseKey) : (key asked).Says "key".toList asked.name.toList := by
  refine says_of_word (by decide) rfl (oneLine_of_forall asked.not_isBlank_name) ?_
  rw [String.ofList_toList]
  simp only [readPlain, String.ofList_toList, asked.ofName?_name]

theorem says_expect {answer : String} (h : (expect answer).Writable) :
    (expect answer).Says "expect".toList answer.toList := by
  refine says_of_word (by decide) rfl h ?_
  change Except.ok (expect (String.ofList answer.toList)) = _
  rw [String.ofList_toList]

theorem says_zoom {level : Int} (h : (zoom level).Writable) :
    (zoom level).Says "zoom".toList (Digits.signed level).toList := by
  have hvalue : OneLine (Digits.signed level).toList := oneLine_of_forall fun c hc =>
    Literal.not_isBlank_of_isNumeric (Literal.isNumeric_signed level c hc)
  refine says_of_word (by decide) rfl hvalue ?_
  rw [String.ofList_toList]
  simp only [readPlain, Literal.integer?_signed h.1 h.2]

theorem says_geometry (kind : Geometry) :
    (geometry kind).Says "geometry".toList kind.scriptName.toList := by
  have hvisible : kind.scriptName.toList.any isBlank = false := by cases kind <;> rfl
  refine says_of_word (by decide) rfl (oneLine_of_forall (Text.not_isBlank_of_any hvisible)) ?_
  rw [String.ofList_toList]
  simp only [readPlain, String.ofList_toList]
  cases kind <;> rfl

theorem not_isBlank_backend (k : BackendKind) :
    (∀ c ∈ k.name.toList, isBlank c = false) ∧ ',' ∉ k.name.toList ∧ k.name.toList ≠ [] := by
  cases k with
  | web => exact ⟨Text.not_isBlank_of_any rfl, by decide⟩
  | embedded => exact ⟨Text.not_isBlank_of_any rfl, by decide⟩

theorem listed_singleton (k : BackendKind) : listed [k] = k.name.toList :=
  List.intercalate_singleton

theorem listed_cons_cons (k next : BackendKind) (kinds : List BackendKind) :
    listed (k :: next :: kinds) = k.name.toList ++ (", ".toList ++ listed (next :: kinds)) := rfl

theorem listed_cons (k : BackendKind) (kinds : List BackendKind) :
    listed (k :: kinds)
      = k.name.toList ++ kinds.flatMap fun k => ',' :: ' ' :: k.name.toList := by
  induction kinds generalizing k with
  | nil => rw [listed_singleton, List.flatMap_nil, List.append_nil]
  | cons next kinds ih =>
      rw [listed_cons_cons, ih, List.flatMap_cons]
      rfl

theorem trimmed_listed (k : BackendKind) (kinds : List BackendKind) :
    Trimmed (listed (k :: kinds)) ∧ listed (k :: kinds) ≠ [] := by
  have hname : ∀ k : BackendKind, Trimmed k.name.toList := fun k =>
    Text.trimmed_of_forall (not_isBlank_backend k).1
  have hne : ∀ k : BackendKind, k.name.toList ≠ [] := fun k => (not_isBlank_backend k).2.2
  induction kinds generalizing k with
  | nil => exact ⟨listed_singleton k ▸ hname k, listed_singleton k ▸ hne k⟩
  | cons next kinds ih =>
      obtain ⟨htrimmed, hlisted⟩ := ih next
      rw [listed_cons_cons]
      exact ⟨Text.trimmed_append (hne k) (Text.trimmed_iff.mp (hname k)).1 _ hlisted
        (Text.trimmed_iff.mp htrimmed).2, List.append_ne_nil_of_left_ne_nil (hne k) _⟩

/-- A list of names is one line: blanks are only between the names. -/
theorem oneLine_listed (k : BackendKind) (kinds : List BackendKind) :
    OneLine (listed (k :: kinds)) := by
  have hname : ∀ k : BackendKind, '\n' ∉ k.name.toList := fun k =>
    (oneLine_of_forall (not_isBlank_backend k).1).unbroken
  refine ⟨(trimmed_listed k kinds).1, ?_⟩
  rw [listed_cons, List.mem_append, List.mem_flatMap]
  rintro (hmem | ⟨next, _, hmem⟩)
  · exact hname k hmem
  · rw [List.mem_cons, List.mem_cons] at hmem
    rcases hmem with hmem | hmem | hmem
    · exact absurd hmem (by decide)
    · exact absurd hmem (by decide)
    · exact hname next hmem

/-- The parts of a list with commas are the names, with a space in front of the later ones. -/
theorem splitOn_listed {first : List Char} (hfirst : ',' ∉ first) (kinds : List BackendKind) :
    Text.splitOn ',' (first ++ kinds.flatMap fun k => ',' :: ' ' :: k.name.toList)
      = first :: kinds.map fun k => ' ' :: k.name.toList := by
  induction kinds generalizing first with
  | nil => rw [List.flatMap_nil, List.append_nil, Text.splitOn_of_not_mem hfirst, List.map_nil]
  | cons k kinds ih =>
      have hk : ',' ∉ ' ' :: k.name.toList := fun h =>
        (List.mem_cons.mp h).elim (by decide) (not_isBlank_backend k).2.1
      rw [List.flatMap_cons, List.cons_append, Text.splitOn_append hfirst, ih hk, List.map_cons]

/-- A part that is the name of a kind up to blanks is read as the kind. -/
theorem ofName?_trim {part : List Char} {k : BackendKind} (h : Text.trim part = k.name.toList) :
    BackendKind.ofName? (String.ofList (Text.trim part)) = some k := by
  rw [h, String.ofList_toList]
  cases k <;> rfl

theorem mapM_eq_ok {α β ε : Type} {f : α → Except ε β} {as : List α} {bs : List β}
    (h : List.Forall₂ (fun a b => f a = .ok b) as bs) : as.mapM f = .ok bs := by
  induction h with
  | nil => rfl
  | cons hfirst _ ih =>
      rw [List.mapM_cons, hfirst, ih]
      rfl

theorem readBackends_listed {kinds : List BackendKind} (h : kinds ≠ []) :
    readBackends (listed kinds) = .ok kinds := by
  have hname : ∀ k : BackendKind, Trimmed k.name.toList := fun k =>
    Text.trimmed_of_forall (not_isBlank_backend k).1
  cases kinds with
  | nil => exact absurd rfl h
  | cons k kinds =>
      rw [readBackends, listed_cons, splitOn_listed (not_isBlank_backend k).2.1]
      refine mapM_eq_ok (.cons ?_ ?_)
      · simp only [ofName?_trim (hname k)]
      · rw [List.forall₂_map_left_iff]
        refine List.forall₂_same.mpr fun k _ => ?_
        have htrim : Text.trim (' ' :: k.name.toList) = k.name.toList := by cases k <;> decide
        simp only [ofName?_trim htrim]

theorem says_backends {kinds : List BackendKind} (h : (backends kinds).Writable) :
    (backends kinds).Says "backends".toList (listed kinds) := by
  have hvalue : OneLine (listed kinds) := by
    cases kinds with
    | nil => exact absurd rfl h
    | cons k kinds => exact oneLine_listed k kinds
  refine says_of_word (by decide) rfl hvalue ?_
  change (readBackends (listed kinds)).map backends = _
  rw [readBackends_listed h]
  rfl

/-- A line is a field and its value, and the two say the header. -/
theorem exists_says_of_writes {h : Header} {text : List Char} (hw : h.Writes text)
    (hh : h.Writable) : ∃ field value, text = line field value ∧ h.Says field value := by
  cases hw with
  | key asked => exact ⟨_, _, rfl, says_key asked⟩
  | expect answer => exact ⟨_, _, rfl, says_expect hh⟩
  | backends kinds => exact ⟨_, _, rfl, says_backends hh⟩
  | text name s => exact ⟨_, _, rfl, says_text hh⟩
  | number name spelling => exact ⟨_, _, rfl, says_number hh spelling⟩
  | global name text => exact ⟨_, _, rfl, says_global hh⟩
  | zoom level => exact ⟨_, _, rfl, says_zoom hh⟩
  | geometry kind => exact ⟨_, _, rfl, says_geometry kind⟩

/-- Trimming a line takes nothing but blanks behind its colon. -/
theorem trim_line {field value : List Char} (hfield : IsField field) (hvalue : Trimmed value) :
    ∃ rest, Text.trim (line field value) = field ++ ':' :: rest ∧ Text.trim rest = value := by
  obtain ⟨c, tail, hcons, hblank, _⟩ := hfield.first
  have hne : field ≠ [] := hcons ▸ List.cons_ne_nil c tail
  have hfirst : Stops isBlank field := hcons ▸ stops_cons.mpr hblank
  have hspace : ∀ d ∈ [' '], isBlank d = true := List.all_eq_true.mp rfl
  by_cases hempty : value = []
  · -- The space behind the colon is at the end of the line, and it goes.
    have htrimmed : Trimmed (field ++ ([] ++ [':'])) :=
      Text.trimmed_append hne hfirst [] (List.cons_ne_nil _ _) (stops_cons.mpr rfl)
    have htrim := Text.trim_append_blanks htrimmed hspace
    rw [List.nil_append, List.append_assoc, List.singleton_append] at htrim
    rw [line, hempty]
    exact ⟨[], htrim, rfl⟩
  · -- The line begins and ends without blanks, so it stays as it is.
    have htrimmed : Trimmed (field ++ ([':', ' '] ++ value)) :=
      Text.trimmed_append hne hfirst _ hempty (Text.trimmed_iff.mp hvalue).2
    exact ⟨' ' :: value, htrimmed, Text.trim_blanks_append hspace hvalue⟩

/-- What a line looks like in a text, and that it is read as the header that it says. -/
structure ReadsBack (h : Header) (text : List Char) : Prop where
  unbroken : '\n' ∉ text
  colon : ':' ∈ text
  /-- It is neither blank nor a comment. -/
  first : ∃ c rest, Text.trim text = c :: rest ∧ c ≠ '#'
  read_trim : read (Text.trim text) = .ok h

/-- A line is read as the header that it says. -/
theorem readsBack_of_writes {h : Header} {text : List Char} (hw : h.Writes text)
    (hh : h.Writable) : h.ReadsBack text := by
  obtain ⟨field, value, rfl, hsays⟩ := exists_says_of_writes hw hh
  obtain ⟨rest, htrim, hrest⟩ := trim_line hsays.isField hsays.oneLine.trimmed
  refine ⟨fun hmem => ?_, List.mem_append_right _ List.mem_cons_self, ?_, ?_⟩
  · rw [line, List.mem_append, List.mem_cons, List.mem_cons] at hmem
    rcases hmem with hmem | hmem | hmem | hmem
    · exact hsays.isField.unbroken hmem
    · exact absurd hmem (by decide)
    · exact absurd hmem (by decide)
    · exact hsays.oneLine.unbroken hmem
  · obtain ⟨c, tail, hcons, _, hc⟩ := hsays.isField.first
    exact ⟨c, tail ++ ':' :: rest, by rw [htrim, hcons]; rfl, hc⟩
  · rw [read, htrim, Text.splitAt?_singleton hsays.isField.colonless]
    simp only [hrest, hsays.read]

end Header

end MapStyling
