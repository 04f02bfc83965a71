import MapStyling.Engine.Interface
import MapStyling.Style.Reading

/-!
# Decoding Results

The result of a script as the value of one style key.

What a result can be for a key hangs on its kind. A text has a reading for
every key. Truth values, arrays and numbers have one for some keys, and the
undefined value is an answer for all. For the rest there is no value.

## Main definitions

* `decodeText`, `decodeTruth`, `decodeNumber`, `decodeArray`: By kind.
* `decode`: The value behind a handle.

## Theorems

* `contains_colorKeys`: The keys written out here are those of the table of kinds.
-/

namespace MapStyling

namespace Decoding

/-- Text of a number where a text is asked for. -/
def numberFormat : NumberFormat := { NumberFormat.plain with infinity := "Infinity" }

/-- Keys whose texts are taken as they are. -/
def verbatimKeys : List StyleKey :=
  [.outlineStyle, .repeatGroup, .sprite, .spriteDefault, .style, .textAlign, .textRepeatGroup,
   .textSource, .textSourceLeft, .textSourceRight, .textTransform, .texture]

/-- Keys whose values are colors. -/
def colorKeys : List StyleKey := [.color, .outlineColor, .textFontFill, .textFontStrokeColor]

/-- They are the keys that the table of kinds has as colors. -/
theorem contains_colorKeys (key : StyleKey) : colorKeys.contains key = key.isColor := by
  cases key <;> rfl

def decodeText (key : StyleKey) (s : String) : StyleValue :=
  if verbatimKeys.contains key then .text s
  else if colorKeys.contains key then
    match Color.read s with
    | .ok c => .color c
    | .error _ => .none
  else key.read s

def decodeTruth (key : StyleKey) (b : Bool) : StyleValue :=
  match key with
  | .interactive | .textInteractive | .visible => .flag b
  | .extrude => extrusionOfFlag b
  | _ => .none

def decodeNumber (key : StyleKey) (v : Float) : StyleValue :=
  match key with
  | .textSource | .textSourceLeft | .textSourceRight => .text (numberFormat.double v)
  | .extrude => .pair Single.zero (Double.toSingle v)
  | .placementSpacing => .width (.pixels (Double.toSingle v))
  | .width | .outlineWidth => .width (.meters (Double.toSingle v))
  | .angle | .textFontStrokeWidth | .placementMinLengthRatio => .number (Double.toSingle v)
  | .size => .size { Size.zero with x := .pixels (Double.toSingle v) }
  | .order | .outlineOrder | .priority => .word (Double.toWord v)
  -- A number for a color is the packed color.
  | .color | .outlineColor | .textFontFill | .textFontStrokeColor =>
    .color ⟨Double.toWord v⟩
  | _ => .none

variable {σ : Type} [Engine σ]

/-- An element of an array as a number. -/
def element (array : Handle) (i : Nat) : StateM σ Float := do
  Engine.number (← Engine.pushElement array i)

/-- Two elements make an extrusion, three or four make a color. -/
def decodeArray (key : StyleKey) (array : Handle) : StateM σ StyleValue := do
  let length := Engine.length (← get) array
  if key = .extrude then
    if length ≠ 2 then return .none
    let low ← element array 0
    let high ← element array 1
    return .pair (Double.toSingle low) (Double.toSingle high)
  else if colorKeys.contains key then
    if length < 3 ∨ 4 < length then return .none
    let red ← element array 0
    let green ← element array 1
    let blue ← element array 2
    let alpha ← if length = 4 then element array 3 else pure 1.0
    return .color (Channels.mk red green blue alpha).toColor
  else return .none

/-- The value behind a handle, as a value of a key. -/
def decode (key : StyleKey) (h : Handle) : StateM σ StyleValue := do
  match Engine.kind (← get) h with
  | .string => return decodeText key (← Engine.text h)
  | .boolean => return decodeTruth key (Engine.truth (← get) h)
  | .array => decodeArray key h
  | .number => return decodeNumber key (← Engine.number h)
  | .undefined => return .undefined
  | .null | .object | .function => return .none

end Decoding

end MapStyling
