import MapStyling.Backend
import MapStyling.Proofs.EmbeddedLanguage.Scopes
import MapStyling.Proofs.WebEngine.Making

/-!
# Languages by Kind

What is asked of the language of an engine, for engines of every kind.

What is said of all kinds at once asks different things of their languages. An embedded
language has a scope that is rewound, and its sources run nothing before they are called.
A language of web pages has objects that are shared, and evaluating a source runs it, so
there it matters which sources an engine is handed.

## Main definitions

* `BackendKind.Allows`: Sources that may be handed to an engine.
* `BackendKind.Rewinds`, `BackendKind.Settles`: Laws of the language of a kind.
-/

namespace MapStyling

namespace BackendKind

/-- Sources that may be handed to the engine of a kind. All sources of embedded scripts may. -/
def Allows (S : String → Prop) : BackendKind → String → Prop
  | web, source => S (WebEngine.scriptText source)
  | embedded, _ => True

variable [Languages]

/-- What is asked of the language of a kind: rewinding a scope takes away what was declared in
    it. Contexts of web pages are not rewound. -/
def Rewinds : BackendKind → Prop
  | web => True
  | embedded => Languages.embedded.Rewinds

/-- What is asked of the language of a kind: variables hold what was put into them last. -/
def Settles (S : String → Prop) : BackendKind → Prop
  | web => Languages.web.SettingLaws S WebEngine.variableNames
  | embedded => Languages.embedded.ScopeLaws

end BackendKind

end MapStyling
