/-!
# Hexadecimal Digits

Digits up to fifteen, in both letter cases.

## Main definitions

* `isHexDigit`: The digits.
* `hexDigitValue`, `hexNumber`: What one digit and what several stand for.
* `hexDigit`, `hexText`: The digits of a number, in lower case.
-/

namespace MapStyling

namespace Text

def isHexDigit (c : Char) : Bool :=
  c.isDigit || ('a' ≤ c && c ≤ 'f') || ('A' ≤ c && c ≤ 'F')

/-- Value of a hexadecimal digit. -/
def hexDigitValue (c : Char) : Nat :=
  if c.isDigit then c.toNat - '0'.toNat
  else if 'a' ≤ c ∧ c ≤ 'f' then c.toNat - 'a'.toNat + 10
  else c.toNat - 'A'.toNat + 10

/-- Value of a text of hexadecimal digits. -/
def hexNumber (ds : List Char) : Nat :=
  ds.foldl (fun n d => 16 * n + hexDigitValue d) 0

/-- The digit of a number below sixteen. -/
def hexDigit (n : Nat) : Char :=
  if n < 10 then Char.ofNat ('0'.toNat + n) else Char.ofNat ('a'.toNat + (n - 10))

/-- The lowest digits of a number, as many as are asked for. -/
def hexText : Nat → Nat → List Char
  | 0, _ => []
  | places + 1, n => hexText places (n / 16) ++ [hexDigit (n % 16)]

end Text

end MapStyling
