import MapStyling.Color
import MapStyling.Measure
import MapStyling.Text.Quoted

/-!
# Style Values

What an evaluation of a style parameter comes to.

`none` says that nothing usable was produced. `undefined` is an answer: the
rule leaves the parameter unset. The display text keeps all variants and
payloads apart, which is what lets a case file state its expectation as text.

## Main definitions

* `StyleValue`: The typed results.
* `StyleValue.display`: Their text.
-/

namespace MapStyling

/-- Result of evaluating a style parameter. -/
inductive StyleValue
  | none
  | undefined
  | text (s : String)
  | flag (b : Bool)
  | pair (x y : Float32)
  | color (c : Color)
  | width (w : Width)
  | size (s : Size)
  | number (v : Float32)
  | word (n : UInt32)
  deriving DecidableEq

namespace StyleValue

def isNone : StyleValue → Bool
  | none => true
  | _ => false

/-- Text of a truth value. -/
def flagText (b : Bool) : String :=
  if b then "true" else "false"

/-- Text that keeps all values apart, such as `vec2(10, 20)`. -/
def display : StyleValue → String
  | none => "none"
  | undefined => "undefined"
  | text s => Text.quoted s
  | flag b => flagText b
  | pair x y => "vec2(" ++ NumberFormat.plain.single x ++ ", " ++ NumberFormat.plain.single y ++ ")"
  | color c => "color(" ++ c.display ++ ")"
  | width w => "width(" ++ w.display ++ ")"
  | size s => "size(" ++ s.display ++ ")"
  | number v => "float(" ++ NumberFormat.plain.single v ++ ")"
  | word n => "uint(" ++ Digits.text n.toNat ++ ")"

end StyleValue

end MapStyling
