/-!
# Blanks and Separators

Trimming, and splitting at separators.

Texts are lists of characters here. A blank is a character with the Unicode
property White_Space, so trimming takes line breaks and no-break spaces as
well as spaces and tabs.

## Main definitions

* `isBlank`: White space.
* `trim`: A text without blanks at its ends.
* `splitAt?`: The parts of a text before and after the first separator.
* `splitOn`: The parts between the places where a character stands.
* `byteLength`: Length in UTF-8.
-/

namespace MapStyling

namespace Text

/-- White space. -/
def isBlank (c : Char) : Bool :=
  let n := c.toNat
  (9 ≤ n && n ≤ 13) || n = 0x20 || n = 0x85 || n = 0xa0 || n = 0x1680 ||
    (0x2000 ≤ n && n ≤ 0x200a) || n = 0x2028 || n = 0x2029 || n = 0x202f || n = 0x205f ||
    n = 0x3000

/-- A text without the characters of a class at its end. -/
def dropEndWhile (p : Char → Bool) (s : List Char) : List Char :=
  (s.reverse.dropWhile p).reverse

/-- A text without blanks at its ends. -/
def trim (s : List Char) : List Char :=
  dropEndWhile isBlank (s.dropWhile isBlank)

/-- What follows a text that comes first. -/
def afterFirst? : List Char → List Char → Option (List Char)
  | [], s => some s
  | _ :: _, [] => none
  | p :: ps, c :: cs => if p = c then afterFirst? ps cs else none

/-- What comes before a text that comes last. -/
def beforeLast? (last s : List Char) : Option (List Char) :=
  (afterFirst? last.reverse s.reverse).map List.reverse

/-- The parts of a text before and after the first place where a separator stands. -/
def splitAt? (separator : List Char) : List Char → Option (List Char × List Char)
  | [] => if separator.isEmpty then some ([], []) else none
  | c :: cs =>
    match afterFirst? separator (c :: cs) with
    | some rest => some ([], rest)
    | none => (splitAt? separator cs).map fun (before, rest) => (c :: before, rest)

/-- The parts of a text between the places where a character stands. -/
def splitOn (separator : Char) : List Char → List (List Char)
  | [] => [[]]
  | c :: cs =>
    if c = separator then [] :: splitOn separator cs
    else match splitOn separator cs with
      | [] => [[c]]
      | part :: parts => (c :: part) :: parts

/-- Length in UTF-8. -/
def byteLength (s : List Char) : Nat :=
  s.foldl (fun n c => n + c.utf8Size) 0

end Text

end MapStyling
