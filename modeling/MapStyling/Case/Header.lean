import MapStyling.Case.Basic
import MapStyling.Text.Blank

/-!
# Case Headers

One line in front of the source of a case.

A line is a field and a value with a colon between them. Whatever follows the
first colon is the value, further colons included. The fields of properties
and globals consist of a word and a name, with a space between them; names may
have spaces in them. All other fields are single words.

Texts among the properties stand between double quotes. A quote inside may
have a backslash in front, which is taken away; every other backslash stands
for itself. So the ends of a quoted text are the ends of the line, and no quote
inside can end it early.

## Main definitions

* `Header`: What a line says.
* `Header.key?`, `Header.entry?` and so on: What it says of one field.
* `Header.property?`: The value of a property.
* `Header.read`: The header on a line.
-/

namespace MapStyling

/-- What a line in front of the source says. -/
inductive Header
  | key (asked : CaseKey)
  | expect (answer : String)
  | backends (kinds : List BackendKind)
  | property (name : String) (value : PropertyValue)
  | global (name text : String)
  | zoom (level : Int)
  | geometry (kind : Geometry)

namespace Header

/-- What is asked, if a header says so. -/
def key? : Header → Option CaseKey
  | key asked => some asked
  | _ => none

/-- The answer that a header expects. -/
def expect? : Header → Option String
  | expect answer => some answer
  | _ => none

/-- The kinds of backends that a header names. -/
def backends? : Header → Option (List BackendKind)
  | backends kinds => some kinds
  | _ => none

/-- The name and the value of a property. -/
def entry? : Header → Option (String × PropertyValue)
  | property name value => some (name, value)
  | _ => none

/-- The name and the text of a global. -/
def global? : Header → Option (String × String)
  | global name text => some (name, text)
  | _ => none

/-- The zoom that a header sets. -/
def zoom? : Header → Option Int
  | zoom level => some level
  | _ => none

/-- The geometry that a header sets. -/
def geometry? : Header → Option Geometry
  | geometry kind => some kind
  | _ => none

/-- A text without the backslashes in front of its quotes. -/
def unescape : List Char → List Char
  | [] => []
  | '\\' :: '"' :: r => '"' :: unescape r
  | c :: r => c :: unescape r

/-- The text between a quote at the start and a quote at the end. -/
def quoted? (value : List Char) : Option (List Char) :=
  ((Text.afterFirst? ['"'] value).bind (Text.beforeLast? ['"'])).map unescape

/-- The value of a property: a quoted text or a number. -/
def property? (value : List Char) : Option PropertyValue :=
  -- Quotes keep a text of digits from being a number.
  match quoted? value with
  | some text => some (.text (String.ofList text))
  | none => (Literal.spelled? value).map .number

/-- The kinds in a list with commas, up to the first name that no kind has. -/
def readBackends (value : List Char) : Except CaseFault (List BackendKind) :=
  (Text.splitOn ',' value).mapM fun part =>
    let name := String.ofList (Text.trim part)
    match BackendKind.ofName? name with
    | some k => .ok k
    | none => .error (.unknownBackend name)

/-- The header of a field that is a single word. -/
def readPlain (field : String) (value : List Char) : Except CaseFault Header :=
  let text := String.ofList value
  match field with
  | "key" => match CaseKey.ofName? text with
    | some k => .ok (key k)
    | none => .error (.unknownKey text)
  | "expect" => .ok (expect text)
  | "backends" => (readBackends value).map backends
  | "zoom" => match Literal.integer? value with
    | .ok level => .ok (zoom level)
    | .error fault => .error (.badZoom fault)
  | "geometry" => match Geometry.ofScriptName? text with
    | some g => .ok (geometry g)
    | none => .error (.unknownGeometry text)
  | _ => .error (.unknownHeader field)

/-- The header of a field and its value, which has no blanks at its ends. -/
def readField (field value : List Char) : Except CaseFault Header :=
  match Text.splitAt? [' '] field with
  | none => readPlain (String.ofList field) value
  | some (word, rest) =>
    let name := String.ofList (Text.trim rest)
    if word = "prop".toList then
      match property? value with
      | some v => .ok (property name v)
      | none => .error (.badProperty (String.ofList value))
    else if word = "global".toList then .ok (global name (String.ofList value))
    -- A field of several words is unknown with all of them.
    else readPlain (String.ofList field) value

/-- The header on a line. -/
def read (line : List Char) : Except CaseFault Header :=
  match Text.splitAt? [':'] line with
  | none => .error (.malformedLine (String.ofList line))
  | some (field, value) => readField field (Text.trim value)

end Header

end MapStyling
