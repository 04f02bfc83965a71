import MapStyling.Number.Double

/-!
# Shortest Decimals

Decimal numbers, and the shortest one that reads back as a given pattern.

A pattern stands for one number, but every decimal inside its rounding
interval reads back as it. The printed text is the one with the fewest digits
among those. The search below asks the reader itself: for one digit, two
digits, and so on, the two decimals of that length around the number are read
back, and the first length at which one comes back unchanged wins. If some
decimal of a length lies in the interval, then so does one of the two around
the number, so no length is passed over wrongly.

When no short decimal reads back, the number is written out in full. It has a
finite decimal expansion, since its denominator is a power of two. So what is
chosen reads back by construction, whichever way it was found.

## Main definitions

* `Decimal`: Digits and a power of ten.
* `Decimal.nearestDouble`: Reading.
* `Decimal.shortest`: Printing.
-/

namespace MapStyling

/-- The number `digits · 10 ^ exponent`. -/
structure Decimal where
  digits : Nat
  exponent : Int
  deriving DecidableEq, Repr

/-- Which of two equally near decimals is taken. -/
inductive Tie
  | larger
  | even
  deriving DecidableEq, Repr

namespace Decimal

/-- Number of decimal digits, none for zero. -/
def digitCount (n : Nat) : Nat :=
  if n = 0 then 0 else (Nat.toDigits 10 n).length

/-- A decimal as a ratio of natural numbers. -/
def ratio (d : Decimal) : Nat × Nat :=
  if d.exponent < 0 then (d.digits, Nat.pow 10 (-d.exponent).toNat)
  else (d.digits * Nat.pow 10 d.exponent.toNat, 1)

/-- Order of the numbers that decimals stand for. -/
def atMost (a b : Decimal) : Bool :=
  a.ratio.1 * b.ratio.2 ≤ b.ratio.1 * a.ratio.2

/-- No layout in use has a number as large as `10 ^ reach`, or a positive one as
    small as `10 ^ -reach`. -/
def reach : Int := 400

/-- The pattern a decimal reads as. Exponents beyond reach are settled without
    raising ten to them. -/
def nearest (b : BinaryLayout) (d : Decimal) : Nat :=
  let top := d.exponent + digitCount d.digits
  if d.digits = 0 then 0
  else if reach < top then b.infinity
  else if top < -reach then 0
  else
    let (num, den) := d.ratio
    b.nearest num den

/-- The double a decimal reads as. -/
def nearestDouble (negative : Bool) (d : Decimal) : Float :=
  .ofBits (.ofNat (BinaryLayout.double.signed negative (d.nearest .double)))

/-- Largest `k` with `10 ^ k ≤ num / den`. -/
def floorLog (num den : Nat) : Int :=
  if den ≤ num then (digitCount (num / den) : Int) - 1
  else -(digitCount ((den - 1) / num) : Int)

/-- Dividing out the tens. -/
def strip : Nat → Decimal → Decimal
  | 0, d => d
  | fuel + 1, d =>
    if d.digits ≠ 0 ∧ d.digits % 10 = 0 then strip fuel ⟨d.digits / 10, d.exponent + 1⟩ else d

/-- The same number without trailing zeros. -/
def normal (d : Decimal) : Decimal :=
  strip (digitCount d.digits) d

/-- Of the two decimals over `10 ^ exponent` around `num / den`, the one that
    reads back as `pattern`; the nearer of two. -/
def around (b : BinaryLayout) (tie : Tie) (pattern num den : Nat) (exponent : Int) :
    Option Decimal :=
  let (n, d) := if exponent < 0 then (num * Nat.pow 10 (-exponent).toNat, den)
    else (num, den * Nat.pow 10 exponent.toNat)
  let below : Decimal := ⟨n / d, exponent⟩
  let above : Decimal := ⟨n / d + 1, exponent⟩
  -- The neighbours are read back by the reader itself, so no bound on the error is needed.
  match below.nearest b == pattern, above.nearest b == pattern with
  | false, false => none
  | true, false => some below
  | false, true => some above
  | true, true =>
    let twice := 2 * (n % d)
    if twice < d then some below
    else if d < twice then some above
    else match tie with
      | .larger => some above
      | .even => some (if below.digits % 2 = 0 then below else above)

/-- The number a datum stands for, written out in full. -/
def full (significand : Nat) (exponent : Int) : Decimal :=
  if exponent < 0 then ⟨significand * Nat.pow 5 (-exponent).toNat, exponent⟩
  else ⟨significand * Nat.pow 2 exponent.toNat, 0⟩

/-- The longest decimal that is searched for. -/
def longest (b : BinaryLayout) : Nat :=
  (b.fractionBits + 1) * 3 / 10 + 2

/-- The shortest decimal that reads back as a finite pattern without sign. -/
def shortest (b : BinaryLayout) (tie : Tie) (pattern : Nat) : Decimal :=
  let (m, e) := b.parts pattern
  if m = 0 then ⟨0, 0⟩
  else
    let (num, den) := (Datum.finite false m e).ratio
    let top := floorLog num den
    -- Each round allows one digit more, so the first hit has the fewest.
    let found := (List.range (longest b)).findSome? fun (i : Nat) =>
      around b tie pattern num den (top - i)
    (found.getD (full m e)).normal

end Decimal

end MapStyling
