import MapStyling.Number.Layout

/-!
# Widths and Sizes

Single precision numbers with units.

A width that comes from text has to be a finite number that is not below
zero, and `Width.ofNumber` is the gate. A width that a script hands over as a
number passes by it, so a width as such may hold anything.

## Main definitions

* `MeasureUnit`: Pixels, meters, milliseconds, seconds, percent.
* `Width`: A number with a unit.
* `Width.ofNumber`: The width of a finite number that is not negative.
* `Size`: Two widths.
-/

namespace MapStyling

inductive MeasureUnit
  | pixel
  | meter
  | millisecond
  | second
  | percentage
  deriving DecidableEq, Repr

namespace MeasureUnit

/-- Spelling behind a number. -/
def suffix : MeasureUnit → String
  | pixel => "px"
  | meter => "m"
  | millisecond => "ms"
  | second => "s"
  | percentage => "%"

def all : List MeasureUnit := [pixel, meter, millisecond, second, percentage]

/-- The unit with a spelling. -/
def ofSuffix? (s : String) : Option MeasureUnit :=
  all.find? fun u => u.suffix == s

end MeasureUnit

/-- A number with a unit. -/
structure Width where
  value : Float32
  unit : MeasureUnit
  deriving DecidableEq

/-- Why a number is no width. -/
inductive WidthError
  | nan
  | infinite
  | negative
  deriving DecidableEq, Repr

def WidthError.message : WidthError → String
  | nan => "value is NaN"
  | infinite => "value is infinite"
  | negative => "value is negative"

namespace Width

/-- A bare number is a distance on the ground. -/
def meters (value : Float32) : Width := ⟨value, .meter⟩

def pixels (value : Float32) : Width := ⟨value, .pixel⟩

/-- The width of a finite number that is not below zero. -/
def ofNumber (value : Float32) (unit : MeasureUnit) : Except WidthError Width :=
  match Single.datum value with
  | .nan => .error .nan
  | .infinite _ => .error .infinite
  -- Minus zero is no negative width.
  | .finite negative m _ => if negative && m ≠ 0 then .error .negative else .ok ⟨value, unit⟩

def display (w : Width) : String :=
  NumberFormat.plain.single w.value ++ w.unit.suffix

/-- No distance. -/
def zero : Width := meters Single.zero

end Width

/-- Two widths, of sprites and points. -/
structure Size where
  x : Width
  y : Width
  deriving DecidableEq

namespace Size

def display (s : Size) : String :=
  s.x.display ++ ", " ++ s.y.display

/-- No extent, in pixels. -/
def zero : Size := ⟨.pixels Single.zero, .pixels Single.zero⟩

end Size

end MapStyling
