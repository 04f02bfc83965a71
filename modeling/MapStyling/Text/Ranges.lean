/-!
# Ranges of Characters

Membership of a character in a list of code point ranges.

## Main definitions

* `inRanges`: Some range holds the character.
-/

namespace MapStyling

namespace Text

/-- Some range, both ends included, holds the character. -/
def inRanges (ranges : List (Nat × Nat)) (c : Char) : Bool :=
  ranges.any fun r => r.1 ≤ c.toNat && c.toNat ≤ r.2

end Text

end MapStyling
