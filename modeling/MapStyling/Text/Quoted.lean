import MapStyling.Text.Unprintable

/-!
# Quoted Text

Text between double quotes, as string values and properties are displayed.

A quote and a backslash get a backslash in front, four controls have letters
of their own, and what has no printed form is shown by number. Everything
else, an apostrophe included, stands for itself. Each character has its own
image, and no image is the beginning of another, so the quoted text determines
the text.

## Main definitions

* `quotedChar`: Image of one character.
* `quoted`: A text between double quotes.
-/

namespace MapStyling

namespace Text

/-- Image of one character in a quoted text. -/
def quotedChar (c : Char) : List Char :=
  if c = '\x00' then ['\\', '0']
  else if c = '\t' then ['\\', 't']
  else if c = '\r' then ['\\', 'r']
  else if c = '\n' then ['\\', 'n']
  else if c = '\\' then ['\\', '\\']
  else if c = '"' then ['\\', '"']
  else if isUnprintable c then
    ['\\', 'u', '\x7b'] ++ Nat.toDigits 16 c.toNat ++ ['\x7d']
  else [c]

/-- A text between double quotes. -/
def quoted (s : String) : String :=
  String.ofList ('"' :: s.toList.flatMap quotedChar ++ ['"'])

end Text

end MapStyling
