import MapStyling.Engine.EmbeddedEngine
import MapStyling.Engine.WebEngine
import MapStyling.Styler

/-!
# Backends

The engines that stylers are built on, by kind.

A kind is a name that case files and the command line use. It determines the
type of the states of its engine, so whatever is said of stylers on all kinds
is said once, over the family `StylerOn`. The languages that the engines run are
parameters of all this.

## Main definitions

* `BackendKind`: The kinds and their names.
* `Languages`: The languages of the engines.
* `BackendKind.EngineState`: States of the engine of a kind.
* `StylerOn`: Stylers on the engine of a kind.
* `StylerOn.fresh`: A styler nothing was done with.
-/

namespace MapStyling

/-- The engines a styler can be built on. -/
inductive BackendKind
  /-- Function expressions of web pages. -/
  | web
  /-- Scripts of an embedded language. -/
  | embedded
  deriving DecidableEq, Repr

/-- The languages that the engines run. -/
class Languages where
  web : WebLanguage
  embedded : EmbeddedLanguage

namespace BackendKind

/-- The kinds, the preferred one first. -/
def all : List BackendKind := [web, embedded]

def name : BackendKind → String
  | web => "boa"
  | embedded => "rhai"

def ofName? (s : String) : Option BackendKind :=
  all.find? fun k => k.name == s

/-- What is said of a name that no kind has. -/
def unknownMessage (s : String) : String :=
  "unknown backend: " ++ s

variable [Languages]

/-- States of the engine of a kind. -/
def EngineState : BackendKind → Type
  | web => WebEngine Languages.web
  | embedded => EmbeddedEngine Languages.embedded

/-- The engine of a kind before anything was done with it. -/
def newEngine : (k : BackendKind) → k.EngineState
  | web => WebEngine.new
  | embedded => EmbeddedEngine.new

instance (k : BackendKind) : Engine k.EngineState :=
  match k with
  | web => inferInstanceAs (Engine (WebEngine Languages.web))
  | embedded => inferInstanceAs (Engine (EmbeddedEngine Languages.embedded))

end BackendKind

section

variable [Languages]

/-- Stylers on the engine of a kind. -/
abbrev StylerOn (k : BackendKind) := Styler (Session k.EngineState)

/-- A styler nothing was done with, for tiles of the standard size. -/
def StylerOn.fresh (k : BackendKind) : StylerOn k :=
  Styler.new (Session.new k.newEngine) standardTileSize

end

end MapStyling
