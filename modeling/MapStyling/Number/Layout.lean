import MapStyling.Number.Decimal
import MapStyling.Number.Digits

/-!
# Number Texts

Laying out a shortest decimal as text.

Every printer of numbers in this library writes the same digits, those of
`Decimal.shortest`. They differ in a handful of decisions, and a `NumberFormat`
is the record of them: when digits are written positionally, what a whole
number ends in, how an exponent is marked, and the words for what has no
digits. The formats themselves stand in the modules that print with them; the
one here is the plain display text of style values and properties.

## Main definitions

* `NumberFormat`: The decisions of one printer.
* `NumberFormat.plain`: Always positional.
* `NumberFormat.double`, `NumberFormat.single`: Printing.
-/

namespace MapStyling

/-- How many digits stand before the point; less than none, where zeros follow
    it. -/
def Decimal.pointPlace (d : Decimal) : Int :=
  d.exponent + Decimal.digitCount d.digits

/-- The decisions of one printer of numbers. -/
structure NumberFormat where
  tie : Tie
  /-- Written positionally; with an exponent otherwise. -/
  positional : Decimal → Bool
  /-- Put behind a positional whole number. -/
  wholeEnd : String
  /-- Marks of an exponent that is not negative, and of one that is. -/
  exponentMark : String × String
  zero : String
  negativeZero : String
  nan : String
  infinity : String

namespace NumberFormat

/-- Digits with the point put where the exponent says. -/
def positionalText (wholeEnd : String) (d : Decimal) : String :=
  let ds := Nat.toDigits 10 d.digits
  if 0 ≤ d.exponent then
    String.ofList (ds ++ List.replicate d.exponent.toNat '0') ++ wholeEnd
  else
    let places := (-d.exponent).toNat
    -- The point falls between digits, or in front of all of them behind zeros.
    if places < ds.length then
      String.ofList (ds.take (ds.length - places)) ++ "." ++
        String.ofList (ds.drop (ds.length - places))
    else "0." ++ String.ofList (List.replicate (places - ds.length) '0' ++ ds)

/-- One digit, the others behind a point, and the exponent. -/
def exponentText (mark : String × String) (d : Decimal) : String :=
  let ds := Nat.toDigits 10 d.digits
  let e : Int := d.exponent + (ds.length - 1 : Nat)
  let rest := ds.drop 1
  String.ofList (ds.take 1) ++ (if rest.isEmpty then "" else "." ++ String.ofList rest) ++
    (if e < 0 then mark.2 else mark.1) ++ Digits.text e.natAbs

/-- Text of a pattern under a layout. -/
def text (f : NumberFormat) (b : BinaryLayout) (pattern : Nat) : String :=
  match b.datum pattern with
  | .nan => f.nan
  | .infinite negative => if negative then "-" ++ f.infinity else f.infinity
  | .finite negative m _ =>
    if m = 0 then if negative then f.negativeZero else f.zero
    else
      let d := Decimal.shortest b f.tie (pattern % b.signBit)
      (if negative then "-" else "") ++
        if f.positional d then positionalText f.wholeEnd d else exponentText f.exponentMark d

def double (f : NumberFormat) (x : Float) : String :=
  f.text .double x.toBits.toNat

def single (f : NumberFormat) (x : Float32) : String :=
  f.text .single x.toBits.toNat

/-- Display texts never use an exponent and show whole numbers without a point. -/
def plain : NumberFormat where
  tie := .larger
  positional _ := true
  wholeEnd := ""
  exponentMark := ("e", "e-")
  zero := "0"
  negativeZero := "-0"
  nan := "NaN"
  infinity := "inf"

end NumberFormat

end MapStyling
