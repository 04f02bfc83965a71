import MapStyling.Number.Literal
import MapStyling.Text.Hexadecimal
import MapStyling.Text.Scan

/-!
# JSON Documents

Reading a JSON document, and writing its strings.

A document is scanned into tokens, and the tokens are folded over a reader: a
stack of open containers and what may come next. Every token is one step of the
fold, so reading ends with the tokens and the number of open containers is
the depth of the nesting, which is bounded.

## Main definitions

* `Json`: Documents.
* `Json.Token`: Punctuation, words, strings and numbers.
* `Json.Reader`: Open containers and what may come next.
* `Json.read?`: The document that a whole text spells.
* `Json.quoted`: A string as it is written in a document.
-/

namespace MapStyling

/-- Documents. A number of up to 64 bits that is written with digits alone is
    `natural`. The entries of an object stand in reverse, so that the first
    entry of a name is the one that counts. -/
inductive Json
  | null
  | boolean (b : Bool)
  | natural (n : Nat)
  | number (v : Float)
  | text (s : String)
  | array (items : List Json)
  | object (entries : List (String × Json))

namespace Json

/-- Tokens of a document. -/
inductive Token
  | blank
  | mark (c : Char)
  | value (j : Json)

/-- Marks between values. -/
def marks : List Char := ['[', ']', '\x7b', '\x7d', ':', ',']

def isBlank (c : Char) : Bool :=
  c = ' ' || c = '\t' || c = '\n' || c = '\r'

/-- Characters that a backslash and one letter stand for. -/
def escapes : List (Char × Char) :=
  [('"', '"'), ('\\', '\\'), ('/', '/'), ('b', '\x08'), ('f', '\x0c'), ('n', '\n'), ('r', '\r'),
   ('t', '\t')]

/-- The character of one code unit, or of a pair of surrogates. -/
def unitChar? (high : Nat) (low : Option Nat) : Option Char :=
  match low with
  | none => if 0xd800 ≤ high ∧ high < 0xe000 then none else some (Char.ofNat high)
  | some low =>
    if 0xd800 ≤ high ∧ high < 0xdc00 ∧ 0xdc00 ≤ low ∧ low < 0xe000 then
      some (Char.ofNat (0x10000 + (high - 0xd800) * 0x400 + (low - 0xdc00)))
    else none

/-- Four digits as a code unit. -/
def codeUnit? (a b c d : Char) : Option Nat :=
  if [a, b, c, d].all Text.isHexDigit then some (Text.hexNumber [a, b, c, d]) else none

/-- A string up to its closing quote, and what follows the quote. -/
def stringEnd? : List Char → Option (List Char × List Char)
  | '"' :: rest => some ([], rest)
  | '\\' :: 'u' :: a :: b :: c :: d :: '\\' :: 'u' :: a' :: b' :: c' :: d' :: rest => do
    let first ← codeUnit? a b c d
    -- Two escapes in a row make one character only if the first means nothing alone.
    match unitChar? first none with
    | some ch =>
      (stringEnd? ('\\' :: 'u' :: a' :: b' :: c' :: d' :: rest)).map fun (s, r) => (ch :: s, r)
    | none =>
      let ch ← unitChar? first (some (← codeUnit? a' b' c' d'))
      (stringEnd? rest).map fun (s, r) => (ch :: s, r)
  | '\\' :: 'u' :: a :: b :: c :: d :: rest => do
    let ch ← unitChar? (← codeUnit? a b c d) none
    (stringEnd? rest).map fun (s, r) => (ch :: s, r)
  | '\\' :: e :: rest => do
    let ch ← escapes.lookup e
    (stringEnd? rest).map fun (s, r) => (ch :: s, r)
  | c :: rest =>
    if c < ' ' then none else (stringEnd? rest).map fun (s, r) => (c :: s, r)
  | [] => none

/-- Characters that a number can be made of. -/
def isNumberChar (c : Char) : Bool :=
  c.isDigit || c = '-' || c = '+' || c = '.' || c = 'e' || c = 'E'

/-- Digits that do not start with a superfluous zero, and the rest. -/
def wholePart? (s : List Char) : Option (List Char × List Char) :=
  match Text.span? Char.isDigit s with
  -- A zero stands alone or not in front.
  | some ('0' :: _ :: _, _) => none
  | part => part

/-- What may follow the whole part: a fraction, an exponent. -/
def isNumberEnd (s : List Char) : Bool :=
  let afterFraction := match s with
    | '.' :: r => (Text.span? Char.isDigit r).map Prod.snd
    | r => some r
  match afterFraction with
  | some r => (Literal.exponent? r).isSome
  | none => false

/-- The number that a whole text spells. -/
def number? (s : List Char) : Option Json := do
  let unsigned := match s with
    | '-' :: r => r
    | r => r
  let (whole, rest) ← wholePart? unsigned
  -- A sign, a point or an exponent makes a number of what could else be counted with.
  if s.head? ≠ some '-' ∧ rest.isEmpty ∧ Literal.digitsValue whole < UInt64.size then
    return natural (Literal.digitsValue whole)
  else if !isNumberEnd rest then none
  else
    let v ← Literal.literal? s
    if v.isInf then none else return number v

/-- The first token of a text, and the rest. -/
def token? : List Char → Option (Token × List Char)
  | [] => none
  | '"' :: rest => (stringEnd? rest).map fun (s, r) => (.value (text (String.ofList s)), r)
  | c :: rest =>
    if isBlank c then some (.blank, rest)
    else if marks.contains c then some (.mark c, rest)
    else if isNumberChar c then
      (number? ((c :: rest).takeWhile isNumberChar)).map fun j =>
        (.value j, (c :: rest).dropWhile isNumberChar)
    else do
      let (word, r) ← Text.span? Char.isAlpha (c :: rest)
      match String.ofList word with
      | "null" => return (.value null, r)
      | "true" => return (.value (boolean true), r)
      | "false" => return (.value (boolean false), r)
      | _ => none

/-- A container that is not closed yet, its contents in reverse. An object
    waits for the value of a name. -/
inductive Container
  | array (items : List Json)
  | object (entries : List (String × Json)) (name : String)

/-- What may come next. -/
inductive Next
  | value
  | valueOrEnd
  | name (entries : List (String × Json))
  | nameOrEnd
  | colon (entries : List (String × Json)) (name : String)
  | commaOrEnd
  | nothing (document : Json)

/-- The open containers, innermost first, and what may come next. -/
structure Reader where
  opened : List Container
  next : Next

namespace Reader

def start : Reader := ⟨[], .value⟩

/-- The deepest nesting of containers. -/
def deepest : Nat := 127

/-- A value put where it belongs. -/
def complete (j : Json) : List Container → Reader
  | [] => ⟨[], .nothing j⟩
  | .array items :: outer => ⟨.array (j :: items) :: outer, .commaOrEnd⟩
  | .object entries name :: outer => ⟨.object ((name, j) :: entries) name :: outer, .commaOrEnd⟩

/-- The start of a value: all of it, or a container that opens. An object that
    opens has no name yet, and its container follows with the name. -/
def value (opened : List Container) : Token → Option Reader
  | .value j => some (complete j opened)
  | .mark '[' => if opened.length < deepest then some ⟨.array [] :: opened, .valueOrEnd⟩ else none
  | .mark '\x7b' => if opened.length < deepest then some ⟨opened, .nameOrEnd⟩ else none
  | _ => none

/-- One token read. -/
def step (r : Reader) : Token → Option Reader
  | .blank => some r
  | token =>
    match r.next, token with
    | .value, t => value r.opened t
    | .valueOrEnd, .mark ']' => some (complete (.array []) (r.opened.drop 1))
    | .valueOrEnd, t => value r.opened t
    | .nameOrEnd, .mark '\x7d' => some (complete (.object []) r.opened)
    | .nameOrEnd, .value (.text name) => some { r with next := .colon [] name }
    | .name entries, .value (.text name) => some { r with next := .colon entries name }
    -- The container of an object comes back with the name that its next value belongs to.
    | .colon entries name, .mark ':' => some ⟨.object entries name :: r.opened, .value⟩
    | .commaOrEnd, .mark c =>
      match r.opened, c with
      | .array _ :: _, ',' => some { r with next := .value }
      | .array items :: outer, ']' => some (complete (.array items.reverse) outer)
      | .object entries _ :: outer, ',' => some ⟨outer, .name entries⟩
      | .object entries _ :: outer, '\x7d' => some (complete (.object entries) outer)
      | _, _ => none
    | _, _ => none

def finished? (r : Reader) : Option Json :=
  match r.next with
  | .nothing j => some j
  | _ => none

end Reader

/-- The document that a whole text spells. -/
def read? (s : List Char) : Option Json := do
  let tokens ← Text.scan token? s
  (← tokens.foldlM Reader.step Reader.start).finished?

/-- The value of a name of an object. -/
def field? (j : Json) (name : String) : Option Json :=
  match j with
  | object entries => entries.lookup name
  | _ => none

/-- A character as it is written in a string: control characters and what ends
    a string are escaped. -/
def quotedChar (c : Char) : List Char :=
  -- A slash may be escaped when it is read, but it is not written so.
  match escapes.find? fun (_, meant) => meant = c && c != '/' with
  | some (letter, _) => ['\\', letter]
  | none => if c < ' ' then '\\' :: 'u' :: Text.hexText 4 c.toNat else [c]

/-- A string as it is written in a document. -/
def quoted (s : String) : String :=
  String.ofList ('"' :: s.toList.flatMap quotedChar ++ ['"'])

end Json

end MapStyling
