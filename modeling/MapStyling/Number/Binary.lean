/-!
# Binary Floating-Point Layouts

Bit patterns, the numbers they stand for, and rounding to them.

A pattern of a layout is a sign bit, a biased exponent and a fraction. Two
facts keep the arithmetic below short. A finite pattern stands for
`significand · 2 ^ exponent` with both parts read off directly, and patterns
of one sign are ordered as the magnitudes they stand for. The second makes
rounding a matter of finding one natural number: a carry out of the
significand moves on to the next exponent without being looked at, and what
runs past the last finite pattern is infinity.

Everything here is exact arithmetic on `Nat`. `Float` and `Float32` enter
only through their bit patterns, so a statement about a reading or a printed
text is a statement about natural numbers.

## Main definitions

* `BinaryLayout`: Widths of the fraction and the exponent.
* `Datum`: What a pattern stands for.
* `BinaryLayout.datum`: Reading a pattern.
* `BinaryLayout.nearest`: The pattern nearest to a ratio, ties to even.
-/

namespace MapStyling

/-- Widths of the two fields under the sign bit. -/
structure BinaryLayout where
  fractionBits : Nat
  exponentBits : Nat

/-- What a pattern stands for. A finite datum is `significand · 2 ^ exponent`. -/
inductive Datum
  | nan
  | infinite (negative : Bool)
  | finite (negative : Bool) (significand : Nat) (exponent : Int)
  deriving DecidableEq, Repr

namespace BinaryLayout

/-- Sixty-four bit numbers. -/
def double : BinaryLayout := ⟨52, 11⟩

/-- Thirty-two bit numbers. -/
def single : BinaryLayout := ⟨23, 8⟩

/-- Exponent of the least positive number. -/
def leastExponent (b : BinaryLayout) : Int :=
  2 - (Nat.pow 2 (b.exponentBits - 1) : Nat) - b.fractionBits

/-- Pattern of positive infinity, the largest that is not a NaN. -/
def infinity (b : BinaryLayout) : Nat :=
  (Nat.pow 2 b.exponentBits - 1) * Nat.pow 2 b.fractionBits

/-- The sign bit alone. -/
def signBit (b : BinaryLayout) : Nat :=
  Nat.pow 2 (b.exponentBits + b.fractionBits)

/-- What a pattern without its sign bit stands for: significand and exponent. -/
def parts (b : BinaryLayout) (magnitude : Nat) : Nat × Int :=
  let biased := magnitude / Nat.pow 2 b.fractionBits
  let fraction := magnitude % Nat.pow 2 b.fractionBits
  -- Subnormal numbers have the least exponent and no hidden bit.
  if biased = 0 then (fraction, b.leastExponent)
  else (Nat.pow 2 b.fractionBits + fraction, b.leastExponent + (biased - 1 : Nat))

/-- Reading a pattern. -/
def datum (b : BinaryLayout) (pattern : Nat) : Datum :=
  let negative := b.signBit ≤ pattern
  let magnitude := pattern % b.signBit
  if b.infinity < magnitude then .nan
  else if magnitude = b.infinity then .infinite negative
  else
    let (significand, exponent) := b.parts magnitude
    .finite negative significand exponent

/-- Numerator and denominator of `(num / den) / 2 ^ e`. -/
def scale (num den : Nat) (e : Int) : Nat × Nat :=
  if e < 0 then (num * Nat.pow 2 (-e).toNat, den) else (num, den * Nat.pow 2 e.toNat)

/-- The quotient nearest to `num / den`, a half going to the even neighbour. -/
def divNearest (num den : Nat) : Nat :=
  let q := num / den
  let twice := 2 * (num % den)
  if twice < den then q
  else if twice = den then q + q % 2
  else q + 1

/-- Largest `k` with `2 ^ k ≤ num / den`. -/
def floorLog (num den : Nat) : Int :=
  let k : Int := (num.log2 : Int) - den.log2
  let (n, d) := scale num den k
  if d ≤ n then k else k - 1

/-- Pattern of the number nearest to `num / den`, which is not negative; a tie
    goes to the even pattern and what is too large becomes infinity. -/
def nearest (b : BinaryLayout) (num den : Nat) : Nat :=
  if num = 0 then 0
  else
    let e := max b.leastExponent (floorLog num den - b.fractionBits)
    let (n, d) := scale num den e
    -- A significand that is rounded up to a power of two carries into the exponent field, which is
    -- the right number.
    min b.infinity ((e - b.leastExponent).toNat * Nat.pow 2 b.fractionBits + divNearest n d)

/-- The nearest pattern with a sign put in front. -/
def signed (b : BinaryLayout) (negative : Bool) (magnitude : Nat) : Nat :=
  if negative then b.signBit + magnitude else magnitude

/-- The one pattern that not-a-number is written with. -/
def quietNaN (b : BinaryLayout) : Nat :=
  b.infinity + Nat.pow 2 (b.fractionBits - 1)

end BinaryLayout

/-- A datum as a ratio of natural numbers, without its sign. -/
def Datum.ratio : Datum → Nat × Nat
  | .finite _ m e => if e < 0 then (m, Nat.pow 2 (-e).toNat) else (m * Nat.pow 2 e.toNat, 1)
  | _ => (0, 1)

end MapStyling
