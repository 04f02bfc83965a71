import MapStyling.Text.Blank

/-!
# Patterns with Ordered Choice

Grammars as data, and the one function that runs them.

A pattern either matches a beginning of the text or fails, and a choice takes
its first branch that matches and never returns to it. Patterns here hold
their named rules in place, so there is no table to look rules up in and no
recursion between rules: running a pattern is recursion on the pattern. The
only loop is a repetition, and it ends because the text does.

What a failed run reports is the furthest place at which a named rule was
tried and failed. Rules inside a token are not reported, and neither are bare
words. The place is in bytes, the unit in which the text is underlined.

## Main definitions

* `Pattern`: Words, character classes, sequence, choice, repetition, rules.
* `Node`: What a matched rule leaves behind.
* `Pattern.run`: Matching at a place.
* `Pattern.parse`: Matching from the beginning of a text.
-/

namespace MapStyling

namespace Grammar

/-- What happens between the parts of a rule. -/
inductive Mode
  /-- Spaces and tabs may stand between parts. -/
  | spaced
  /-- Parts touch, and rules among them are seen. -/
  | joined
  /-- Parts touch, and rules among them are not seen. -/
  | token
  deriving DecidableEq, Repr

/-- Patterns over rule names `ρ`. -/
inductive Pattern (ρ : Type) where
  /-- As many characters of a class as there are, at least one. -/
  | oneOrMore (p : Char → Bool)
  /-- As many characters of a class as there are. -/
  | zeroOrMore (p : Char → Bool)
  | word (text : List Char)
  /-- A word of small letters, in either case. -/
  | anyCase (text : List Char)
  | sequence (first second : Pattern ρ)
  | choice (first second : Pattern ρ)
  | optional (part : Pattern ρ)
  | repeated (part : Pattern ρ)
  | start
  | finish
  | rule (name : ρ) (mode : Mode) (body : Pattern ρ)

/-- What a matched rule leaves behind. Places are in bytes. -/
structure Node (ρ : Type) where
  name : ρ
  start : Nat
  stop : Nat
  /-- The text that was matched. -/
  text : List Char
  children : List (Node ρ)

/-- A place in a text: what is left of it, and how many bytes came before. -/
structure Place where
  rest : List Char
  offset : Nat

namespace Place

/-- The place behind `n` characters. -/
def advance (c : Place) (n : Nat) : Place :=
  ⟨c.rest.drop n, c.offset + Text.byteLength (c.rest.take n)⟩

/-- The place behind the characters of a class. -/
def skipWhile (p : Char → Bool) (c : Place) : Place :=
  c.advance (c.rest.takeWhile p).length

/-- The place behind spaces and tabs, where the mode lets them stand. -/
def skip (m : Mode) (c : Place) : Place :=
  if m = .spaced then c.skipWhile fun x => x = ' ' || x = '\t' else c

end Place

/-- Outcome of a run: the furthest failed rule, zero if there is none, and the
    nodes and the place behind a match. -/
structure Outcome (ρ : Type) where
  furthest : Nat
  found : Option (List (Node ρ) × Place)

namespace Pattern

variable {ρ : Type}

/-- Running `step` again and again, the first time at `here` and later behind
    blanks. Blanks are given back when nothing follows them. -/
def loop (step : Place → Outcome ρ) (m : Mode) : Nat → Place → Place → Outcome ρ
  | 0, behind, _ => ⟨0, some ([], behind)⟩
  | fuel + 1, behind, here =>
    -- Where the next round fails, the place behind the last one is given back, without the blanks.
    match step here with
    | ⟨f, none⟩ => ⟨f, some ([], behind)⟩
    | ⟨f, some (nodes, next)⟩ =>
      let rest := loop step m fuel next (next.skip m)
      ⟨max f rest.furthest, rest.found.map fun (more, last) => (nodes ++ more, last)⟩

/-- The small letters of a word, in either case. -/
def afterAnyCase? : List Char → List Char → Bool
  | [], _ => true
  | _ :: _, [] => false
  | p :: ps, c :: cs => p = c.toLower && afterAnyCase? ps cs

/-- Matching at a place. -/
def run : Pattern ρ → Mode → Place → Outcome ρ
  | .oneOrMore p, _, c =>
    let n := (c.rest.takeWhile p).length
    ⟨0, if n = 0 then none else some ([], c.advance n)⟩
  | .zeroOrMore p, _, c => ⟨0, some ([], c.skipWhile p)⟩
  | .word t, _, c => ⟨0, if t.isPrefixOf c.rest then some ([], c.advance t.length) else none⟩
  | .anyCase t, _, c =>
    ⟨0, if afterAnyCase? t c.rest then some ([], c.advance t.length) else none⟩
  | .sequence a b, m, c =>
    match run a m c with
    | ⟨f, none⟩ => ⟨f, none⟩
    | ⟨f, some (nodes, next)⟩ =>
      let rest := run b m (next.skip m)
      ⟨max f rest.furthest, rest.found.map fun (more, last) => (nodes ++ more, last)⟩
  -- The first branch that matches is final. What failed before it is not remembered then.
  | .choice a b, m, c =>
    match run a m c with
    | ⟨f, none⟩ =>
      let other := run b m c
      ⟨max f other.furthest, other.found⟩
    | found => found
  | .optional a, m, c =>
    match run a m c with
    | ⟨f, none⟩ => ⟨f, some ([], c)⟩
    | found => found
  | .repeated a, m, c => loop (run a m) m (c.rest.length + 1) c c
  | .start, _, c => ⟨0, if c.offset = 0 then some ([], c) else none⟩
  | .finish, _, c => ⟨0, if c.rest.isEmpty then some ([], c) else none⟩
  | .rule name mode body, m, c =>
    -- A rule that leaves the mode open takes over that of the rule around it.
    let inner := if mode = .spaced then m else mode
    match run body inner c with
    | ⟨f, none⟩ => ⟨if m = .token then f else max f c.offset, none⟩
    | ⟨f, some (nodes, next)⟩ =>
      let node := Node.mk name c.offset next.offset
        (c.rest.take (c.rest.length - next.rest.length))
        (if inner = .token then [] else nodes)
      ⟨f, some (if m = .token then [] else [node], next)⟩

/-- The nodes of a match from the beginning of a text, or the furthest failed
    rule. -/
def parse (p : Pattern ρ) (input : List Char) : Except Nat (List (Node ρ)) :=
  match p.run .spaced ⟨input, 0⟩ with
  | ⟨f, none⟩ => .error f
  | ⟨_, some (nodes, _)⟩ => .ok nodes

end Pattern

end Grammar

end MapStyling
