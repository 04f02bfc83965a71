/-!
# Scanning

A text as a list of tokens, one step after the other.

A step takes one token off the front of a text and leaves the rest. Steps that
leave nothing shorter end the scan with a failure, so scanning ends for every
step there is, and a step need not carry a proof that it moves on.

## Main definitions

* `scan`: The tokens of a text.
* `span?`: A first run of characters that is not empty, and the rest.
-/

namespace MapStyling

namespace Text

/-- The tokens that a step takes off a text, until nothing is left. -/
def scan {τ : Type} (step : List Char → Option (τ × List Char)) (s : List Char) :
    Option (List τ) :=
  if s.isEmpty then some []
  else match step s with
    | none => none
    | some (token, rest) =>
      if rest.length < s.length then (scan step rest).map (token :: ·) else none
termination_by s.length

/-- A first run of characters of a class, if there is one, and the rest. -/
def span? (p : Char → Bool) (s : List Char) : Option (List Char × List Char) :=
  match s with
  | [] => none
  | c :: _ => if p c then some (s.takeWhile p, s.dropWhile p) else none

end Text

end MapStyling
