import MapStyling.Grammar.Rules
import MapStyling.Number.Literal
import MapStyling.Style.Key
import MapStyling.Style.Value
import MapStyling.Text.Hexadecimal

/-!
# Reading Style Texts

Texts of style parameters, read as the kind of the parameter asks.

Each kind has a reader over the grammar, and the readers report where and why
a text fails. Evaluation has no use for the report: `StyleKey.read` turns
every failure into the value `none`.

Blanks around a text are treated in two ways. Flags and colors are trimmed
first, line breaks included. Numbers and dimensions rely on the grammar, which
passes over spaces and tabs only.

## Main definitions

* `ReadError`: Why a text is not read.
* `Color.read`: Colors.
* `Dimension.readList`: Lists of numbers with units.
* `StyleKey.read?`, `StyleKey.read`: The text of a parameter.
-/

namespace MapStyling

/-- Why a text is not read. Places are in bytes. -/
inductive ReadError
  | malformed (expected : String) (offset length : Nat)
  | outOfRange (what : String) (value : Float)

namespace ReadError

def message : ReadError → String
  | malformed expected _ _ => "invalid " ++ expected
  | outOfRange what value => what ++ " out of range: " ++ NumberFormat.plain.double value

def code : ReadError → String
  | malformed _ _ _ => "tilestyle::parse::syntax"
  | outOfRange _ _ => "tilestyle::parse::out_of_range"

/-- What the underlined part of a malformed text is marked with. -/
def label : String := "could not parse this"

/-- A failure at an offset: the rest of the text is underlined. -/
def malformedAt (expected : String) (input : List Char) (offset : Nat) : ReadError :=
  -- A fault at the end underlines nothing and stays inside the text.
  let offset := min offset (Text.byteLength input)
  .malformed expected offset (Text.byteLength input - offset)

end ReadError

namespace Grammar

/-- The node of a rule that has to match. -/
def RuleName.node (r : RuleName) (expected : String) (input : List Char) :
    Except ReadError (Node RuleName) :=
  match r.pattern.parse input with
  | .error offset => .error (.malformedAt expected input offset)
  | .ok (node :: _) => .ok node
  | .ok [] => .error (.malformedAt expected input 0)

/-- The number a node spells. -/
def Node.number (n : Node RuleName) : Float :=
  (Literal.literal? n.text).getD Double.nan

end Grammar

open Grammar (RuleName Node)

/-- A text that is a number, with spaces and tabs around it. -/
def readNumber (input : List Char) : Except ReadError Float := do
  let node ← RuleName.numberLiteral.node "number" input
  return ((node.children.find? fun c => c.name = .number).map Node.number).getD Double.nan

/-- A text that is `true` or `false`, with blanks around it. -/
def readFlag (input : List Char) : Except ReadError Bool := do
  let node ← RuleName.flag.node "true or false" (Text.trim input)
  return node.children.head?.any fun c => c.name = .flagTrue

namespace Color

/-- Value of a hexadecimal digit. -/
def digitValue (c : Char) : UInt8 := .ofNat (Text.hexDigitValue c)

/-- A digit that stands for two of itself. -/
def single (d : Char) : UInt8 := digitValue d * 0x11

/-- Two digits. -/
def double (h l : Char) : UInt8 := digitValue h * 16 + digitValue l

/-- Three or four digits, or three or four pairs of them. -/
def ofDigits? : List Char → Option Color
  | [r, g, b] => some (rgba (single r) (single g) (single b) 0xff)
  | [r, g, b, a] => some (rgba (single r) (single g) (single b) (single a))
  | [r, r', g, g', b, b'] => some (rgba (double r r') (double g g') (double b b') 0xff)
  | [r, r', g, g', b, b', a, a'] =>
    some (rgba (double r r') (double g g') (double b b') (double a a'))
  | _ => none

/-- Three channels up to 255, and alpha up to one where it is given. -/
def channels? : List Float → Option Channels
  | r :: g :: b :: more =>
    some ⟨r / 255.0, g / 255.0, b / 255.0, more.head?.getD 1.0⟩
  | _ => none

/-- A color: digits behind `#`, or numbers in `rgb( )` or `rgba( )`. -/
def read (input : String) : Except ReadError Color := do
  let input := Text.trim input.toList
  let node ← RuleName.color.node "color" input
  match node.children with
  | [] => .error (.malformedAt "color" input 0)
  | inner :: _ =>
    if inner.name = .hexColor then
      match ofDigits? (inner.text.drop 1) with
      | some c => return c
      | none => .error (.malformedAt "hex color" input 1)
    else match channels? (inner.children.map Node.number) with
      | some c => return c.toColor
      | none => .error (.malformedAt "color" input inner.start)

end Color

/-- A number, and the unit behind it if there is one. -/
structure Dimension where
  value : Float
  unit : Option MeasureUnit

namespace Dimension

def ofNode (n : Node RuleName) : Dimension where
  value := ((n.children.find? fun c => c.name = .number).map Node.number).getD Double.nan
  unit := (n.children.find? fun c => c.name = .unit).bind fun c =>
    MeasureUnit.ofSuffix? (String.ofList c.text)

/-- Dimensions with commas between them, with or without brackets around. -/
def readList (input : List Char) : Except ReadError (List Dimension) := do
  let node ← RuleName.dimensionList.node "dimension list" input
  return ((node.children.filter fun c => c.name = .dimensions).flatMap Node.children).map ofNode

/-- The width of a dimension, in a unit of its own or in the given one. -/
def toWidth (d : Dimension) (what : String) (unit : MeasureUnit) : Except ReadError Width :=
  match Width.ofNumber (Double.toSingle d.value) (d.unit.getD unit) with
  | .ok w => .ok w
  | .error _ => .error (.outOfRange what d.value)

end Dimension

def readWidth (unit : MeasureUnit) (input : List Char) : Except ReadError Width := do
  match ← Dimension.readList input with
  | [d] => d.toWidth "width" unit
  | _ => .error (.malformedAt "single dimension" input 0)

def readSize (input : List Char) : Except ReadError Size := do
  match ← Dimension.readList input with
  | [x] => return { Size.zero with x := ← x.toWidth "size" .pixel }
  | [x, y] =>
    let x ← x.toWidth "size" .pixel
    let y ← y.toWidth "size" .pixel
    return ⟨x, y⟩
  | _ => .error (.malformedAt "one or two dimensions" input 0)

/-- Two numbers; one stands for both where that is allowed. -/
def readOffset (allowOne : Bool) (input : List Char) : Except ReadError StyleValue := do
  match ← Dimension.readList input, allowOne with
  | [x, y], _ => return .pair (Double.toSingle x.value) (Double.toSingle y.value)
  | [v], true => return .pair (Double.toSingle v.value) (Double.toSingle v.value)
  | _, _ => .error (.malformedAt "two numbers" input 0)

/-- What the flag of an extrusion means: heights without bound, or none. -/
def extrusionOfFlag (b : Bool) : StyleValue :=
  if b then .pair Single.nan Single.nan else .pair Single.zero Single.zero

/-- A flag, a height above the ground, or two heights. -/
def readExtrusion (input : List Char) : Except ReadError StyleValue :=
  -- A text that is no flag is read once more, and the fault is then the one of the heights.
  match readFlag input with
  | .ok b => .ok (extrusionOfFlag b)
  | .error _ => do
    match ← Dimension.readList input with
    | [h] => return .pair Single.zero (Double.toSingle h.value)
    | [low, high] => return .pair (Double.toSingle low.value) (Double.toSingle high.value)
    | _ => .error (.malformedAt "extrusion" input 0)

def readWord (input : List Char) : Except ReadError UInt32 := do
  let value ← readNumber input
  match Double.toWord? value with
  | some n => return n
  | none => .error (.outOfRange "unsigned integer" value)

namespace StyleKey

/-- The text of a parameter, read as its kind asks. -/
def read? (k : StyleKey) (input : String) : Except ReadError StyleValue :=
  let cs := input.toList
  match k.kind with
  | .text => .ok (.text input)
  | .flag => (readFlag cs).map .flag
  | .extrusion => readExtrusion cs
  | .color => (Color.read input).map .color
  | .width unit => (readWidth unit cs).map .width
  | .size => (readSize cs).map .size
  | .offset => readOffset (k = .buffer) cs
  | .word => (readWord cs).map .word
  | .number => (readNumber cs).map fun v => .number (Double.toSingle v)

/-- The value of a text; `none` if it cannot be read. -/
def read (k : StyleKey) (input : String) : StyleValue :=
  match k.read? input with
  | .ok v => v
  | .error _ => .none

end StyleKey

end MapStyling
