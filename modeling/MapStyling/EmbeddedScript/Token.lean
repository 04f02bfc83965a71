import MapStyling.Number.Literal
import MapStyling.Text.Blank
import MapStyling.Text.Hexadecimal
import MapStyling.Text.Scan

/-!
# Tokens of Embedded Scripts

Sources in the embedded language, cut into tokens.

A word, a number or a mark is as long as it can be. Comments nest and stand
wherever a blank can. The marks include those that the language reserves, so
that `===` is one mark that nothing can be made of, and not two that something
could.

## Main definitions

* `Token`: Words, numbers, characters, texts and marks.
* `tokenize?`: The tokens of a source.
-/

namespace MapStyling

namespace EmbeddedScript

/-- Tokens of a source. A word is a name or a keyword. -/
inductive Token
  | word (name : String)
  | integer (n : Int64)
  | number (v : Float)
  | character (c : Char)
  | text (s : String)
  | mark (s : String)
  deriving DecidableEq

def isNameStart (c : Char) : Bool := c.isAlpha || c = '_'

def isNamePart (c : Char) : Bool := c.isAlphanum || c = '_'

/-- Whether a name has a letter behind the underscores that it begins with. -/
def isName (n : List Char) : Bool :=
  (n.dropWhile (· = '_')).head?.any Char.isAlpha

/-- Marks, each before the ones it starts with. -/
def marks : List String :=
  ["===", "!==", "...", "..=", "::<", "**=", "<<=", ">>=", "==", "!=", "<=", ">=", "&&", "||", "+=",
   "-=", "*=", "/=", "%=", "&=", "|=", "^=", "**", "++", "--", "->", "<-", "=>", ":=", "::", "??",
   "?.", "?[", "..", "<<", ">>", "<|", "|>", "#\x7b", "\x7b", "\x7d", "(", ")", "[", "]", ";", ",",
   "<", ">", "+", "-", "*", "/", "%", "&", "|", "^", "!", "~", "?", ":", "=", ".", "@", "$", "#"]

/-- What follows a comment, with as many comments around it as `depth` says. -/
def afterComment (depth : Nat) : List Char → List Char
  | '*' :: '/' :: rest => if depth = 0 then rest else afterComment (depth - 1) rest
  | '/' :: '*' :: rest => afterComment (depth + 1) rest
  | _ :: rest => afterComment depth rest
  -- A comment that is never closed ends with the source.
  | [] => []

/-- Characters that a backslash and one letter stand for. -/
def escapes : List (Char × Char) :=
  [('n', '\n'), ('t', '\t'), ('r', '\r'), ('\\', '\\'), ('"', '"'), ('\'', '\'')]

/-- The character of hexadecimal digits. -/
def hexChar? (ds : List Char) : Option Char :=
  let n := Text.hexNumber ds
  if ds.all Text.isHexDigit && (n < 0xd800 || (0xe000 ≤ n && n < 0x110000)) then
    some (Char.ofNat n)
  else none

/-- A character in front of one that may fail. -/
def prepend (c : Char) : Option (List Char × List Char) → Option (List Char × List Char) :=
  Option.map fun (s, r) => (c :: s, r)

/-- A text up to its closing quote, and what follows the quote. Two quotes in a
    row are one that belongs to the text. -/
def textEnd? (quote : Char) : List Char → Option (List Char × List Char)
  | '\\' :: 'x' :: a :: b :: rest =>
    (hexChar? [a, b]).bind fun c => prepend c (textEnd? quote rest)
  | '\\' :: 'u' :: a :: b :: c :: d :: rest =>
    (hexChar? [a, b, c, d]).bind fun ch => prepend ch (textEnd? quote rest)
  | '\\' :: 'U' :: a :: b :: c :: d :: e :: f :: g :: h :: rest =>
    (hexChar? [a, b, c, d, e, f, g, h]).bind fun ch => prepend ch (textEnd? quote rest)
  | '\\' :: c :: rest => (escapes.lookup c).bind fun ch => prepend ch (textEnd? quote rest)
  -- The character behind a quote is needed as well: a quote there makes both of them one.
  | c :: d :: rest =>
    if c = quote then
      if d = quote then prepend quote (textEnd? quote rest) else some ([], d :: rest)
    else if c = '\n' then none
    else prepend c (textEnd? quote (d :: rest))
  | [c] => if c = quote then some ([], []) else none
  | [] => none

/-- An integer if it fits in 64 bits. -/
def integer? (n : Nat) : Option Token :=
  if n ≤ Int64.maxValue.toInt then some (.integer (.ofNat n)) else none

/-- Digits with underscores between them, and the rest. -/
def digitRun (p : Char → Bool) (s : List Char) : List Char × List Char :=
  let isPart (c : Char) : Bool := p c || c = '_'
  ((s.takeWhile isPart).filter (· != '_'), s.dropWhile isPart)

/-- The fraction in front of a text and the rest. A point belongs to a number if a
    digit follows, or what could be no name and no further point. -/
def fractionPart (s : List Char) : List Char × List Char :=
  match s with
  | '.' :: c :: rest =>
    if c.isDigit then
      let (ds, r) := digitRun Char.isDigit (c :: rest)
      ('.' :: ds, r)
    -- A further point makes a range, and a name makes a property of the integer.
    else if c = '_' || c = '.' || isNameStart c then ([], s)
    else (['.', '0'], c :: rest)
  | ['.'] => (['.', '0'], [])
  | _ => ([], s)

/-- The exponent in front of a text and the rest. -/
def exponentPart (s : List Char) : List Char × List Char :=
  match s with
  | 'e' :: '+' :: rest =>
    let (ds, r) := digitRun Char.isDigit rest
    ('e' :: '+' :: ds, r)
  | 'e' :: '-' :: rest =>
    let (ds, r) := digitRun Char.isDigit rest
    ('e' :: '-' :: ds, r)
  | 'e' :: c :: rest =>
    if c.isDigit then
      let (ds, r) := digitRun Char.isDigit (c :: rest)
      ('e' :: ds, r)
    else ([], s)
  | _ => ([], s)

/-- The decimal number in front of a text, and the rest. Digits that are too many
    for an integer make a number with a point. -/
def decimal? (s : List Char) : Option (Token × List Char) := do
  let (whole, afterWhole) := digitRun Char.isDigit s
  let (fraction, afterFraction) := fractionPart afterWhole
  let (exponent, rest) := exponentPart afterFraction
  let number := (Literal.literal? (whole ++ fraction ++ exponent)).map Token.number
  let token ← if fraction.isEmpty && exponent.isEmpty then
      (integer? (Literal.digitsValue whole)).or number
    else number
  return (token, rest)

/-- An integer in a base other than ten, behind its mark. -/
def based? (base : Nat) (s : List Char) : Option (Token × List Char) := do
  let isDigit (c : Char) : Bool := Text.isHexDigit c && Text.hexDigitValue c < base
  let (ds, rest) := digitRun isDigit s
  if ds.isEmpty then none
  else
    let token ← integer? (ds.foldl (fun n d => base * n + Text.hexDigitValue d) 0)
    return (token, rest)

/-- The number in front of a text, and the rest. -/
def number? : List Char → Option (Token × List Char)
  | '0' :: x :: rest =>
    if x = 'x' ∨ x = 'X' then based? 16 rest
    else if x = 'o' ∨ x = 'O' then based? 8 rest
    else if x = 'b' ∨ x = 'B' then based? 2 rest
    else decimal? ('0' :: x :: rest)
  | s => decimal? s

/-- The token in front of a text, and the rest. -/
def token? : List Char → Option (Token × List Char)
  | [] => none
  | c :: rest =>
    if isNameStart c then
      let name := (c :: rest).takeWhile isNamePart
      if isName name then some (.word (String.ofList name), (c :: rest).dropWhile isNamePart)
      else none
    else if c.isDigit then number? (c :: rest)
    else if c = '"' then (textEnd? '"' rest).map fun (s, r) => (.text (String.ofList s), r)
    else if c = '\'' then
      match textEnd? '\'' rest with
      -- Single quotes hold exactly one character.
      | some ([ch], r) => some (.character ch, r)
      | _ => none
    else marks.findSome? fun m =>
      (Text.afterFirst? m.toList (c :: rest)).map fun r => (.mark m, r)

/-- The token in front of a source, or none for a blank or a comment, and the
    rest. -/
def piece? : List Char → Option (Option Token × List Char)
  | [] => none
  | '/' :: '/' :: rest => some (none, rest.dropWhile (· != '\n'))
  | '/' :: '*' :: rest => some (none, afterComment 0 rest)
  | c :: rest =>
    if Text.isBlank c then some (none, rest)
    else (token? (c :: rest)).map fun (t, r) => (some t, r)

/-- The tokens of a source. -/
def tokenize? (source : List Char) : Option (List Token) :=
  (Text.scan piece? source).map fun pieces => pieces.filterMap id

end EmbeddedScript

end MapStyling
