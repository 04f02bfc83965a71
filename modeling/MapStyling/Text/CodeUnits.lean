import MapStyling.Text.Hexadecimal

/-!
# Code Units

Texts as sequences of sixteen-bit units.

Scripts of the web count and cut texts in code units, so halves of a character
can stand alone in them. As long as a text is on its way through a script it
is a list of units. It becomes a text of characters again where it leaves the
script, and halves that stand alone are then written out as escapes.

## Main definitions

* `Units`: A text in code units.
* `Units.ofString`: The units of a text.
* `Units.display`: The characters of units, with lone halves escaped.
-/

namespace MapStyling

/-- A text in sixteen-bit code units. -/
abbrev Units := List UInt16

namespace Units

/-- The units of a character: one, or two halves. -/
def ofChar (c : Char) : Units :=
  let n := c.toNat
  if n < 0x10000 then [.ofNat n]
  else [.ofNat (0xd800 + (n - 0x10000) / 0x400), .ofNat (0xdc00 + (n - 0x10000) % 0x400)]

/-- The units of a text. -/
def ofChars (s : List Char) : Units := s.flatMap ofChar

def ofString (s : String) : Units := ofChars s.toList

/-- Whether a unit is the first half of a character. -/
def isHigh (u : UInt16) : Bool := 0xd800 ≤ u && u < 0xdc00

/-- Whether a unit is the second half of a character. -/
def isLow (u : UInt16) : Bool := 0xdc00 ≤ u && u < 0xe000

/-- The character of two halves. -/
def pair (high low : UInt16) : Char :=
  Char.ofNat (0x10000 + (high.toNat - 0xd800) * 0x400 + (low.toNat - 0xdc00))

/-- The escape of a half that stands alone. -/
def escape (u : UInt16) : List Char :=
  '\\' :: 'u' :: (Text.hexText 4 u.toNat).map Char.toUpper

/-- A unit that is no half of a pair. -/
def single (u : UInt16) : List Char :=
  if isHigh u || isLow u then escape u else [Char.ofNat u.toNat]

/-- The characters of units, with lone halves escaped. -/
def chars : Units → List Char
  | [] => []
  | [u] => single u
  | u :: v :: rest =>
    if isHigh u && isLow v then pair u v :: chars rest else single u ++ chars (v :: rest)

def display (u : Units) : String := String.ofList (chars u)

/-- Order by code units, the shorter of two first where one starts the other. -/
def less : Units → Units → Bool
  | _, [] => false
  | [], _ :: _ => true
  | u :: us, v :: vs => if u = v then less us vs else u < v

end Units

end MapStyling
