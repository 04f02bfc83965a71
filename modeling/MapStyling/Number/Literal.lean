import MapStyling.Number.Decimal

/-!
# Number Literals

Reading numbers from text.

A literal is a sign, digits with at most one point among or around them, and
an exponent. `unsigned?` reads the part after the sign and demands that it is
the whole text. Two readers sit on it. `literal?` takes exactly the literals;
`spelled?` takes, besides, the words for what has no digits, which is what
property values and values given as text may use.

## Main definitions

* `Literal.unsigned?`: Digits, point and exponent.
* `Literal.literal?`: The same behind an optional sign.
* `Literal.spelled?`: A literal or a word such as `inf` or `nan`.
* `Literal.natural?`, `Literal.integer?`: Whole numbers of a bounded range.
-/

namespace MapStyling

namespace Literal

/-- Value of a text of decimal digits. -/
def digitsValue (ds : List Char) : Nat :=
  ds.foldl (fun n d => 10 * n + (d.toNat - '0'.toNat)) 0

/-- A sign in front, and what follows it. -/
def sign : List Char → Bool × List Char
  | '-' :: r => (true, r)
  | '+' :: r => (false, r)
  | r => (false, r)

/-- The exponent that makes up a whole text; no text is exponent zero. -/
def exponent? : List Char → Option Int
  | [] => some 0
  | c :: r =>
    if c = 'e' ∨ c = 'E' then
      let (negative, ds) := sign r
      if ds.isEmpty || !ds.all Char.isDigit then none
      else if negative then some (-(digitsValue ds : Int))
      else some (digitsValue ds)
    else none

/-- Digits, a point with or without digits on one of its sides, an exponent. -/
def unsigned? (cs : List Char) : Option Decimal :=
  let whole := cs.takeWhile Char.isDigit
  let afterWhole := cs.dropWhile Char.isDigit
  let (fraction, rest) := match afterWhole with
    | '.' :: r => (r.takeWhile Char.isDigit, r.dropWhile Char.isDigit)
    | r => ([], r)
  -- Digits may be missing on one side of the point but not on both.
  if whole.isEmpty && fraction.isEmpty then none
  else (exponent? rest).map fun e =>
    ⟨digitsValue (whole ++ fraction), e - fraction.length⟩

/-- The double that a literal spells. -/
def literal? (cs : List Char) : Option Float :=
  let (negative, r) := sign cs
  (unsigned? r).map (Decimal.nearestDouble negative)

/-- The double that a literal or a word spells, words in any letter case. -/
def spelled? (cs : List Char) : Option Float :=
  let (negative, r) := sign cs
  let word := String.ofList (r.map Char.toLower)
  if word = "inf" ∨ word = "infinity" then some (Double.infinity negative)
  else if word = "nan" then some Double.nan
  else literal? cs

/-- Why a text is not a whole number of a range. -/
inductive IntegerError
  | empty
  | invalidDigit
  | tooLarge
  | tooSmall
  deriving DecidableEq, Repr

def IntegerError.message : IntegerError → String
  | .empty => "cannot parse integer from empty string"
  | .invalidDigit => "invalid digit found in string"
  | .tooLarge => "number too large to fit in target type"
  | .tooSmall => "number too small to fit in target type"

/-- First fault of a text of digits that is read from the left into a bounded
    range: a wrong digit, or the digit at which the range is left. -/
def readDigits (limit : Nat) (overflow : IntegerError) : Nat → List Char →
    Except IntegerError Nat
  | n, [] => .ok n
  | n, d :: r =>
    if !d.isDigit then .error .invalidDigit
    else
      let next := 10 * n + (d.toNat - '0'.toNat)
      -- The fault of a text is the first one from the left, so a wrong digit behind this one is not
      -- seen.
      if limit < next then .error overflow else readDigits limit overflow next r

/-- A whole number of thirty-two bits without a sign, or with a plus in front. -/
def natural? (cs : List Char) : Except IntegerError Nat :=
  match cs with
  | [] => .error .empty
  | ['+'] => .error .invalidDigit
  | '+' :: r => readDigits 4294967295 .tooLarge 0 r
  | r => readDigits 4294967295 .tooLarge 0 r

/-- A whole number of thirty-two bits with its sign. -/
def integer? (cs : List Char) : Except IntegerError Int :=
  match cs with
  | [] => .error .empty
  | ['-'] => .error .invalidDigit
  | ['+'] => .error .invalidDigit
  | '-' :: r => (readDigits 2147483648 .tooSmall 0 r).map fun n => -(n : Int)
  | '+' :: r => (readDigits 2147483647 .tooLarge 0 r).map Int.ofNat
  | r => (readDigits 2147483647 .tooLarge 0 r).map Int.ofNat

end Literal

end MapStyling
