import MapStyling.Number.Binary

/-!
# Double and Single Precision Numbers

Conversions between `Float`, `Float32` and integers, through bit patterns.

Arithmetic and comparison of numbers are the ones of `Float`. What is here is
what that type leaves open or does by machine: narrowing to single precision,
cutting off the fraction, the remainder of a division, and whole numbers on
both sides. Each is one exact computation on the parts of a number, followed
where needed by one rounding.

## Main definitions

* `Double.datum`, `Single.datum`: What a number is, exactly.
* `Double.ofRatio`: The double nearest to a ratio.
* `Double.toSingle`: The nearest single, for a double.
* `Double.truncate`: A finite number without its fraction.
* `Double.toWord`: Truncation held to the range of a `UInt32`.
* `Double.remainder`: Remainder with the sign of the dividend.
-/

namespace MapStyling

namespace Double

/-- What a double is, exactly. -/
def datum (x : Float) : Datum :=
  BinaryLayout.double.datum x.toBits.toNat

/-- The double nearest to `num / den`, with a sign put in front. -/
def ofRatio (negative : Bool) (num den : Nat) : Float :=
  .ofBits (.ofNat (BinaryLayout.double.signed negative (BinaryLayout.double.nearest num den)))

def infinity (negative : Bool) : Float :=
  .ofBits (.ofNat (BinaryLayout.double.signed negative BinaryLayout.double.infinity))

def nan : Float :=
  .ofBits (.ofNat BinaryLayout.double.quietNaN)

/-- The double nearest to a whole number. -/
def ofInt (n : Int) : Float :=
  ofRatio (n < 0) n.natAbs 1

/-- The single nearest to a double, ties to even. -/
def toSingle (x : Float) : Float32 :=
  .ofBits <| .ofNat <| match datum x with
    | .nan => BinaryLayout.single.quietNaN
    | .infinite negative => BinaryLayout.single.signed negative BinaryLayout.single.infinity
    | .finite negative m e =>
      let (num, den) := (Datum.finite negative m e).ratio
      BinaryLayout.single.signed negative (BinaryLayout.single.nearest num den)

/-- A finite number without its fraction; `none` for NaN and the infinities. -/
def truncate (x : Float) : Option Int :=
  match datum x with
  | .finite negative m e =>
    let (num, den) := (Datum.finite negative m e).ratio
    some (if negative then -(num / den : Nat) else (num / den : Nat))
  | _ => none

/-- Truncation held to the range of a word; NaN gives zero. -/
def toWord (x : Float) : UInt32 :=
  match datum x with
  | .nan => 0
  | .infinite negative => if negative then 0 else .ofNat (UInt32.size - 1)
  | .finite negative m e =>
    let (num, den) := (Datum.finite negative m e).ratio
    if negative then 0 else .ofNat (min (num / den) (UInt32.size - 1))

/-- The word under a number that lies within the range of words, and `none`
    for every other number. -/
def toWord? (x : Float) : Option UInt32 :=
  match datum x with
  | .finite negative m e =>
    let (num, den) := (Datum.finite negative m e).ratio
    -- Minus zero is a word, though its sign is set.
    if m = 0 then some 0
    else if negative || (UInt32.size - 1) * den < num then none
    else some (.ofNat (num / den))
  | _ => none

/-- Remainder of the division that truncates, with the sign of the dividend.
    Division by zero and an infinite dividend have none. -/
def remainder (x y : Float) : Float :=
  match datum x, datum y with
  | .finite negative m e, .finite _ m' e' =>
    if m' = 0 then nan
    else
      -- Over the smaller exponent both significands are whole.
      let least := min e e'
      let r := (m * Nat.pow 2 (e - least).toNat) % (m' * Nat.pow 2 (e' - least).toNat)
      let (num, den) := (Datum.finite negative r least).ratio
      ofRatio negative num den
  | .finite _ _ _, .infinite _ => x
  | _, _ => nan

end Double

namespace Single

/-- What a single is, exactly. -/
def datum (x : Float32) : Datum :=
  BinaryLayout.single.datum x.toBits.toNat

def nan : Float32 :=
  .ofBits (.ofNat BinaryLayout.single.quietNaN)

def zero : Float32 :=
  .ofBits 0

end Single

end MapStyling
