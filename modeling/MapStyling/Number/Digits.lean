/-!
# Decimal Digits

Whole numbers as text.

## Main definitions

* `Digits.text`: Digits of a natural number.
* `Digits.signed`: Digits of an integer, behind a minus below zero.
-/

namespace MapStyling

namespace Digits

/-- Digits of a natural number, most significant first. -/
def text (n : Nat) : String :=
  String.ofList (Nat.toDigits 10 n)

/-- Digits of an integer, behind a minus below zero. -/
def signed (n : Int) : String :=
  (if n < 0 then "-" else "") ++ text n.natAbs

end Digits

end MapStyling
