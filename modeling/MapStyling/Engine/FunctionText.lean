import MapStyling.Text.Alphanumeric
import MapStyling.Text.Blank

/-!
# Function Texts

Function expressions taken apart without knowing the language of their bodies.

Style functions are written as `function name (parameters) { body }`, with or
without a name. The parts are found by their punctuation alone: the first
parenthesis that opens, the first after it that closes, and the braces at the
two ends of what is left. The body is taken as it stands.

## Main definitions

* `FunctionText`: Parameters and body.
* `FunctionText.split?`: The parts of a text of that shape.
-/

namespace MapStyling

/-- Parts of a function expression. -/
structure FunctionText where
  parameters : List Char
  body : List Char

namespace FunctionText

/-- Word that a function expression begins with. -/
def keyword : List Char := "function".toList

/-- A character of a function's name. -/
def isNameChar (c : Char) : Bool :=
  Text.isAlphanumeric c || c = '_'

/-- The body between braces, with blanks around them. -/
def body? (s : List Char) : Option (List Char) :=
  (Text.afterFirst? ['\x7b'] (Text.trim s)).bind (Text.beforeLast? ['\x7d'])

/-- What follows the keyword: blanks and a name, then the parameters between
    parentheses, then the body. -/
def afterKeyword? (rest : List Char) : Option FunctionText := do
  let (name, afterOpen) ← Text.splitAt? ['('] rest
  if !(Text.trim name).all isNameChar then none
  else
    let (parameters, afterClose) ← Text.splitAt? [')'] afterOpen
    let body ← body? afterClose
    return ⟨Text.trim parameters, body⟩

/-- The parts of a function expression, with blanks around it. -/
def split? (source : List Char) : Option FunctionText := do
  let rest ← Text.afterFirst? keyword (Text.trim source)
  match rest with
  | [] => none
  | c :: _ => if Text.isBlank c || c = '(' then afterKeyword? rest else none

end FunctionText

end MapStyling
