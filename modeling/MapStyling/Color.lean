import MapStyling.Number.Double
import MapStyling.Text.Hexadecimal

/-!
# Colors

Packed eight-bit colors and the text `#rrggbbaa`.

A color is one word with red in the low byte and alpha in the high one. The
channels are the digits of that word in base 256, and the text is the same
channels in base 16, red first.

## Main definitions

* `Color`: A packed color.
* `Color.rgba`: Packing four channels.
* `Color.display`: The text `#rrggbbaa`.
* `Channels`: Four channels as numbers from zero to one.
* `Channels.toColor`: Clamping and rounding them to bytes.
-/

namespace MapStyling

/-- A packed color, alpha in the high byte and red in the low one. -/
structure Color where
  abgr : UInt32
  deriving DecidableEq, Repr

namespace Color

/-- Packing four channels. -/
def rgba (r g b a : UInt8) : Color :=
  ⟨r.toUInt32 ||| (g.toUInt32 <<< 8) ||| (b.toUInt32 <<< 16) ||| (a.toUInt32 <<< 24)⟩

def red (c : Color) : UInt8 := c.abgr.toUInt8

def green (c : Color) : UInt8 := (c.abgr >>> 8).toUInt8

def blue (c : Color) : UInt8 := (c.abgr >>> 16).toUInt8

def alpha (c : Color) : UInt8 := (c.abgr >>> 24).toUInt8

/-- The four channels, red first. -/
def channels (c : Color) : List UInt8 := [c.red, c.green, c.blue, c.alpha]

def black : Color := rgba 0 0 0 255

def white : Color := rgba 255 255 255 255

def transparent : Color := rgba 0 0 0 0

/-- A byte as two digits. -/
def hexByte (b : UInt8) : List Char :=
  [Text.hexDigit (b.toNat / 16), Text.hexDigit (b.toNat % 16)]

/-- The text `#rrggbbaa`. -/
def display (c : Color) : String :=
  String.ofList ('#' :: c.channels.flatMap hexByte)

end Color

/-- Four channels as numbers, in the range from zero to one. -/
structure Channels where
  red : Float
  green : Float
  blue : Float
  alpha : Float

namespace Channels

/-- A channel as a byte. Below zero and NaN it is zero, above one it is full;
    a half is rounded up. -/
def toByte (v : Float) : UInt8 :=
  if v.isNaN then 0
  else
    let held := if v < 0.0 then 0.0 else if 1.0 < v then 1.0 else v
    -- The product lies between zero and 255, so only its magnitude counts.
    match Double.datum (held * 255.0) with
    | .finite negative m e =>
      let (num, den) := (Datum.finite negative m e).ratio
      .ofNat ((2 * num + den) / (2 * den))
    | _ => 0

/-- Clamping and rounding to bytes. -/
def toColor (c : Channels) : Color :=
  .rgba (toByte c.red) (toByte c.green) (toByte c.blue) (toByte c.alpha)

end Channels

end MapStyling
