import MapStyling.Number.Literal
import MapStyling.Text.Blank
import MapStyling.Text.CodeUnits
import MapStyling.Text.Identifier
import MapStyling.Text.Scan

/-!
# Tokens of Web Scripts

Sources in the language of web pages, cut into tokens.

Blanks and comments are left out. What stays of them is whether a line ends
before a token, since a statement may end there without a semicolon.

## Main definitions

* `Token`: Words, numbers, texts and marks.
* `Lexeme`: A token, and whether a line ends before it.
* `tokenize?`: The tokens of a source.
-/

namespace MapStyling

namespace WebScript

/-- Tokens of a source. A word is a name or a keyword. -/
inductive Token
  | word (name : Units)
  | number (v : Float)
  | text (u : Units)
  | mark (s : String)
  deriving DecidableEq

/-- A token, and whether a line ends before it. -/
structure Lexeme where
  token : Token
  startsLine : Bool

/-- A piece of a source: a token, or what stands between tokens and whether a
    line ends in it. -/
inductive Piece
  | blank (endsLine : Bool)
  | token (t : Token)

def isLineEnd (c : Char) : Bool :=
  c = '\n' || c = '\r' || c = '\u2028' || c = '\u2029'

/-- Blanks between tokens; the byte order mark counts and next line does not. -/
def isSpace (c : Char) : Bool :=
  (Text.isBlank c && c != '\u0085') || c = '\ufeff'

def isNameStart (c : Char) : Bool :=
  c = '$' || c = '_' || Text.isIdStart c

def isNamePart (c : Char) : Bool :=
  c = '$' || c = '\u200c' || c = '\u200d' || Text.isIdContinue c

/-- Marks, each before the ones it starts with. -/
def marks : List String :=
  ["...", "===", "!==", "**", "=>", "==", "!=", "<=", ">=", "<<", ">>", "&&", "||", "??", "?.",
   "++", "--", "+=", "-=", "*=", "/=", "%=", "&=", "|=", "^=", "\x7b", "\x7d", "(", ")", "[", "]",
   ";", ",", "<", ">", "+", "-", "*", "/", "%", "&", "|", "^", "!", "~", "?", ":", "=", "."]

/-- What follows a comment that ends with `*/`, and whether a line ends in it. -/
def afterComment? : List Char → Option (Bool × List Char)
  | '*' :: '/' :: rest => some (false, rest)
  | c :: rest => (afterComment? rest).map fun (b, r) => (b || isLineEnd c, r)
  | [] => none

/-- Characters that a backslash and one letter stand for. -/
def escapes : List (Char × Char) :=
  [('n', '\n'), ('t', '\t'), ('r', '\r'), ('b', '\x08'), ('f', '\x0c'), ('v', '\x0b'),
   ('0', '\x00')]

/-- The units of a text up to its closing quote, and what follows the quote. -/
def textEnd? (quote : Char) : List Char → Option (Units × List Char)
  | '\\' :: 'u' :: a :: b :: c :: d :: rest =>
    if [a, b, c, d].all Text.isHexDigit then
      (textEnd? quote rest).map fun (u, r) => (.ofNat (Text.hexNumber [a, b, c, d]) :: u, r)
    else none
  | '\\' :: 'x' :: a :: b :: rest =>
    if [a, b].all Text.isHexDigit then
      (textEnd? quote rest).map fun (u, r) => (.ofNat (Text.hexNumber [a, b]) :: u, r)
    else none
  | '\\' :: c :: rest =>
    if c = 'u' ∨ c = 'x' then none
    else
      -- A line that ends behind a backslash goes on, and both are left out.
      let meant := if isLineEnd c then [] else Units.ofChar ((escapes.lookup c).getD c)
      (textEnd? quote rest).map fun (u, r) => (meant ++ u, r)
  | c :: rest =>
    if c = quote then some ([], rest)
    else if c = '\n' ∨ c = '\r' then none
    else (textEnd? quote rest).map fun (u, r) => (Units.ofChar c ++ u, r)
  | [] => none

/-- The exponent in front of a text, if there is one, and the rest. -/
def exponentPart (s : List Char) : List Char × List Char :=
  match s with
  | c :: rest =>
    if c = 'e' ∨ c = 'E' then
      let (mark, ds) := match rest with
        | '+' :: r => (['+'], r)
        | '-' :: r => (['-'], r)
        | r => ([], r)
      match Text.span? Char.isDigit ds with
      | some (digits, after) => (c :: mark ++ digits, after)
      -- Without digits the letter belongs to what follows the number.
      | none => ([], s)
    else ([], s)
  | [] => ([], [])

/-- The decimal number in front of a text, and the rest. -/
def decimal? (s : List Char) : Option (Float × List Char) := do
  let whole := s.takeWhile Char.isDigit
  let afterWhole := s.dropWhile Char.isDigit
  let (fraction, afterFraction) := match afterWhole with
    | '.' :: r => ('.' :: r.takeWhile Char.isDigit, r.dropWhile Char.isDigit)
    | r => ([], r)
  let (exponent, rest) := exponentPart afterFraction
  let d ← Literal.unsigned? (whole ++ fraction ++ exponent)
  return (d.nearestDouble false, rest)

/-- The bases that a letter behind a zero stands for. -/
def baseOf? (c : Char) : Option Nat :=
  if c = 'x' ∨ c = 'X' then some 16
  else if c = 'o' ∨ c = 'O' then some 8
  else if c = 'b' ∨ c = 'B' then some 2
  else none

def isDigitOf (base : Nat) (c : Char) : Bool :=
  Text.isHexDigit c && Text.hexDigitValue c < base

/-- Value of digits in a base. -/
def inBase (base : Nat) (ds : List Char) : Nat :=
  ds.foldl (fun n d => base * n + Text.hexDigitValue d) 0

/-- The whole number in a base in front of a text, and the rest. -/
def whole? (base : Nat) (s : List Char) : Option (Float × List Char) :=
  (Text.span? (isDigitOf base) s).map fun (ds, rest) => (Double.ofInt (inBase base ds), rest)

/-- The number in front of a text, and the rest. A zero in front of digits makes
    them octal, if all of them can be. -/
def number? (s : List Char) : Option (Float × List Char) :=
  match s with
  | '0' :: c :: rest => match baseOf? c with
    | some base => whole? base rest
    -- One digit above seven makes the whole a decimal number again.
    | none => if c.isDigit && (s.takeWhile Char.isDigit).all (isDigitOf 8) then whole? 8 s
      else decimal? s
  | _ => decimal? s

/-- The mark in front of a text, and the rest. -/
def mark? (s : List Char) : Option (Token × List Char) :=
  marks.findSome? fun m => (Text.afterFirst? m.toList s).map fun rest => (.mark m, rest)

/-- The token in front of a text, and the rest. A number may not run into a
    name. -/
def token? : List Char → Option (Token × List Char)
  | [] => none
  | c :: rest =>
    if c = '"' ∨ c = '\'' then (textEnd? c rest).map fun (u, r) => (.text u, r)
    else if isNameStart c then
      some (.word (Units.ofChars ((c :: rest).takeWhile isNamePart)),
        (c :: rest).dropWhile isNamePart)
    else if c.isDigit || (c = '.' && rest.head?.any Char.isDigit) then
      match number? (c :: rest) with
      | some (v, r) => if r.head?.any isNamePart then none else some (.number v, r)
      | none => none
    else mark? (c :: rest)

/-- The piece in front of a source, and the rest. -/
def piece? : List Char → Option (Piece × List Char)
  | [] => none
  -- The end of the line is left for the next piece, since it may end a statement.
  | '/' :: '/' :: rest => some (.blank false, rest.dropWhile (!isLineEnd ·))
  | '/' :: '*' :: rest => (afterComment? rest).map fun (b, r) => (.blank b, r)
  | c :: rest =>
    if isLineEnd c then some (.blank true, rest)
    else if isSpace c then some (.blank false, rest)
    else (token? (c :: rest)).map fun (t, r) => (.token t, r)

/-- Pieces without what stands between tokens. -/
def lexemes (startsLine : Bool) : List Piece → List Lexeme
  | [] => []
  | .blank endsLine :: rest => lexemes (startsLine || endsLine) rest
  | .token t :: rest => ⟨t, startsLine⟩ :: lexemes false rest

/-- The tokens of a source. -/
def tokenize? (source : List Char) : Option (List Lexeme) :=
  (Text.scan piece? source).map (lexemes false)

end WebScript

end MapStyling
