/-!
# Markup

Trees of elements and texts, and how they are written.

Texts and the values of attributes are escaped where they are written, and
nowhere else. So no text can be taken for markup, whatever it holds, and none
is escaped twice.

Escaping replaces one character after the other in the whole text. The
ampersand comes first: the entities that are put in later begin with one, and
would otherwise be escaped in turn.

## Main definitions

* `Markup.entities`: Characters that are escaped, and what stands for them.
* `Markup.escape`: A text without these characters.
* `Markup`: Trees.
* `Markup.render`: Writing.
-/

namespace MapStyling

/-- A tree of elements and texts. -/
inductive Markup
  | text (s : String)
  | element (tag : String) (attributes : List (String × String)) (children : List Markup)
  /-- An element that has no content and no end. -/
  | void (tag : String) (attributes : List (String × String))

namespace Markup

/-- Characters that are escaped, and what stands for them. -/
def entities : List (Char × List Char) :=
  [('&', "&amp;".toList), ('<', "&lt;".toList), ('>', "&gt;".toList), ('"', "&quot;".toList)]

/-- A text with a character replaced. -/
def replace (c : Char) (image : List Char) (s : List Char) : List Char :=
  s.flatMap fun d => if d = c then image else [d]

/-- A text without the characters that are escaped. -/
def escape (s : String) : String :=
  String.ofList (entities.foldl (fun t e => replace e.1 e.2 t) s.toList)

/-- The beginning of an element. -/
def opening (tag : String) (attributes : List (String × String)) : String :=
  let written := attributes.map fun a => " " ++ a.1 ++ "=\"" ++ escape a.2 ++ "\""
  "<" ++ tag ++ String.join written ++ ">"

mutual

/-- A tree as it is written. -/
def render : Markup → String
  | text s => escape s
  | element tag attributes children =>
    opening tag attributes ++ renderAll children ++ "</" ++ tag ++ ">"
  | void tag attributes => opening tag attributes

/-- Trees one after the other. -/
def renderAll : List Markup → String
  | [] => ""
  | m :: ms => render m ++ renderAll ms

end

end Markup

end MapStyling
