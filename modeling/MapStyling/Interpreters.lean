import MapStyling.Backend
import MapStyling.EmbeddedScript.Language
import MapStyling.WebScript.Language

/-!
# Interpreters

The languages that programs run: each is an interpreter of its scripts.

They are an instance in this namespace only. What is said of engines is said for
all languages, and a program or an example that runs one opens the namespace.

## Main definitions

* `Interpreters.languages`: The interpreters as languages.
-/

namespace MapStyling

namespace Interpreters

/-- The interpreters as languages. -/
scoped instance languages : Languages := ⟨WebScript.language, EmbeddedScript.language⟩

end Interpreters

end MapStyling
