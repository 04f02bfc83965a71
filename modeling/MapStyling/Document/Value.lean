import MapStyling.Document.Json
import MapStyling.Engine.Interface
import MapStyling.Entries

/-!
# Values of Documents

The values that documents stand for, and their text.

Values are trees. Storing one in another copies it, so a value never changes
behind the back of whoever holds it.

## Main definitions

* `DocumentValue`: The values.
* `DocumentValue.display`: Their text.
-/

namespace MapStyling

/-- Values that documents stand for. The entries of an object stand in the order
    in which their names were first set. -/
inductive DocumentValue
  | undefined
  | null
  | boolean (b : Bool)
  | number (v : Float)
  | text (s : String)
  | array (items : List DocumentValue)
  | object (entries : List (String × DocumentValue))
  | function

namespace DocumentValue

def kind : DocumentValue → ValueKind
  | undefined => .undefined
  | null => .null
  | boolean _ => .boolean
  | number _ => .number
  | text _ => .string
  | array _ => .array
  | object _ => .object
  | function => .function

def truth : DocumentValue → Bool
  | undefined | null => false
  | boolean b => b
  | number v => !(v == 0.0 || v.isNaN)
  | text s => !s.isEmpty
  | array _ | object _ | function => true

def toNumber : DocumentValue → Float
  | number v => v
  | boolean b => if b then 1.0 else 0.0
  | _ => Double.nan

def length : DocumentValue → Nat
  | array items => items.length
  | _ => 0

/-- An element of an array; undefined past its end and of all else. -/
def element : DocumentValue → Nat → DocumentValue
  | array items, i => items.getD i undefined
  | _, _ => undefined

/-- An array with an element set, grown to hold it. -/
def setElement (container : DocumentValue) (i : Nat) (v : DocumentValue) : DocumentValue :=
  match container with
  | array items => array ((items ++ List.replicate (i + 1 - items.length) undefined).set i v)
  | other => other

def setField (container : DocumentValue) (name : String) (v : DocumentValue) : DocumentValue :=
  match container with
  | object entries => object (Entries.put name v entries)
  | other => other

mutual

/-- Text of a value, strings quoted. -/
def render : DocumentValue → String
  | undefined => "undefined"
  | null => "null"
  | boolean b => if b then "true" else "false"
  | number v => NumberFormat.plain.double v
  | text s => Json.quoted s
  | array items => "[" ++ String.intercalate ", " (renderItems items) ++ "]"
  | object entries => "\x7b" ++ String.intercalate ", " (renderEntries entries) ++ "\x7d"
  | function => "fn"

def renderItems : List DocumentValue → List String
  | [] => []
  | v :: rest => render v :: renderItems rest

def renderEntries : List (String × DocumentValue) → List String
  | [] => []
  | (name, v) :: rest => (Json.quoted name ++ ": " ++ render v) :: renderEntries rest

end

/-- Text of a value; a string is its own text. -/
def display : DocumentValue → String
  | text s => s
  | v => render v

end DocumentValue

end MapStyling
