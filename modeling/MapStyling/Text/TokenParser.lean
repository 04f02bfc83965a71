/-!
# Parsers of Tokens

Taking a value off the front of a list of tokens.

## Main definitions

* `TokenParser`: A value and the tokens behind it, or a failure.
* `TokenParser.next`, `TokenParser.peek`: The first token.
* `TokenParser.take`, `TokenParser.expect`: Tokens of a class.
-/

namespace MapStyling

/-- A value off the front of tokens. -/
abbrev TokenParser (τ : Type) := StateT (List τ) Option

namespace TokenParser

variable {τ : Type}

/-- The next token, left where it is. -/
def peek : TokenParser τ (Option τ) := return (← get).head?

/-- The next token, taken. -/
def next : TokenParser τ τ := do
  match ← get with
  | [] => failure
  | t :: rest =>
    set rest
    return t

/-- Whether the next token is of a class. -/
def sees (p : τ → Bool) : TokenParser τ Bool := return (← peek).any p

/-- Take the next token if it is of a class, and say whether it was. -/
def take (p : τ → Bool) : TokenParser τ Bool := do
  if ← sees p then
    discard next
    return true
  return false

/-- Take a token that has to be of a class. -/
def expect (p : τ → Bool) : TokenParser τ Unit := do
  if !(← take p) then failure

end TokenParser

end MapStyling
