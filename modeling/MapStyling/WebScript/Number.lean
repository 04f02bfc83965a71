import MapStyling.Number.Layout
import MapStyling.WebScript.Token

/-!
# Numbers of Web Scripts

How a web script writes a number as text, and reads one from text.

Writing takes the shortest digits; the point has to fall close to them, and
there is an exponent otherwise. Reading takes what a source may hold for a
number, with a sign before decimal digits, and blanks around it. A blank text
is zero and any other text is not a number.

## Main definitions

* `numberFormat`: The decisions of writing.
* `numberText`: A number as text.
* `textNumber`: The number of a text.
-/

namespace MapStyling

namespace WebScript

/-- At most 21 digits before the point, and at most 5 zeros behind it. -/
def numberFormat : NumberFormat where
  tie := .even
  positional d := -6 < d.pointPlace && d.pointPlace ≤ 21
  wholeEnd := ""
  exponentMark := ("e+", "e-")
  zero := "0"
  negativeZero := "0"
  nan := "NaN"
  infinity := "Infinity"

/-- A number as text. -/
def numberText (v : Float) : Units :=
  Units.ofString (numberFormat.double v)

/-- The number of a text without blanks around it. -/
def trimmedNumber (s : List Char) : Float :=
  match s with
  | [] => 0.0
  | '0' :: c :: ds => match baseOf? c with
    | some base =>
      if !ds.isEmpty && ds.all (isDigitOf base) then Double.ofInt (inBase base ds) else Double.nan
    | none => (Literal.literal? s).getD Double.nan
  | _ =>
    let (negative, unsigned) := Literal.sign s
    if unsigned = "Infinity".toList then Double.infinity negative
    else (Literal.literal? s).getD Double.nan

/-- Blanks and line ends, which are passed over around a number. -/
def isAround (c : Char) : Bool := isSpace c || isLineEnd c

/-- The number of a text. Halves of characters are no part of a number. -/
def textNumber (u : Units) : Float :=
  trimmedNumber (Text.dropEndWhile isAround (u.chars.dropWhile isAround))

end WebScript

end MapStyling
