import MapStyling.Case.Header

/-!
# Reading Cases

The text of a case is headers, a separating line and the source of the
function.

The first separating line counts, so a source may contain further ones. Blank
lines and comments among the headers say nothing. Of headers that can hold
only once the last one holds, and properties are set one after the other, so
the order of headers matters only among those of one name. Globals keep
their order.

Faults are told in the order of the text: a bad line comes before a header
that is missing altogether.

## Main definitions

* `Case.separator`: What ends the headers.
* `Case.headerLines`: The lines that say something.
* `Case.ofHeaders`: The case that headers and a source make up.
* `Case.parse`: Reading.
-/

namespace MapStyling

namespace Case

/-- The line that ends the headers, with the line breaks around it. -/
def separator : List Char := "\n---\n".toList

/-- The lines of a text that are neither blank nor comments, trimmed. -/
def headerLines (text : List Char) : List (List Char) :=
  ((Text.splitOn '\n' text).map Text.trim).filter fun line =>
    !line.isEmpty && line.head? != some '#'

/-- What the last header of a sort says. -/
def last? {α : Type} (pick : Header → Option α) (headers : List Header) : Option α :=
  (headers.filterMap pick).getLast?

/-- The case that headers and a source make up. -/
def ofHeaders (name : String) (headers : List Header) (source : String) :
    Except CaseFault Case :=
  match last? Header.key? headers with
  | none => .error .noKey
  | some key => match last? Header.expect? headers with
    | none => .error .noExpectation
    | some expect => .ok
      { name, key, expect, source
        backends := last? Header.backends? headers
        properties := .ofList (headers.filterMap Header.entry?)
        globals := headers.filterMap Header.global?
        zoom := last? Header.zoom? headers
        geometry := (last? Header.geometry? headers).getD .points }

/-- The case with a name and a text. -/
def parse (name text : String) : Except CaseFault Case :=
  match Text.splitAt? separator text.toList with
  | none => .error .noSeparator
  | some (head, source) => do
    let headers ← (headerLines head).mapM Header.read
    ofHeaders name headers (String.ofList (Text.trim source))

end Case

end MapStyling
