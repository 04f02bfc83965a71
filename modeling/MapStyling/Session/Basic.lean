import MapStyling.Session.Decoding
import MapStyling.Session.Seeding

/-!
# Sessions

A function table and scene globals over one engine, and what is evaluated
with them.

The functions of a scene are known by position. A source that does not compile
keeps its position and leaves it empty, so positions never shift. Evaluating
an empty position, or one past the end, fails like a script that throws: a
filter is false and a style has no value.

Every evaluation happens in a scope of its own. The engine is left with the
values it had before, whatever comes out.

## Main definitions

* `StyleBackend`: What a styler needs of a backend.
* `StyleBackend.storeStyle`: A style into a variable.
* `Session`: A scene's functions and globals over an engine.
* `Session.evalFilter`, `Session.evalStyle`: Evaluation.
-/

namespace MapStyling

/-- What a styler needs of a backend, with states `β`. -/
class StyleBackend (β : Type) where
  /-- Install the globals and functions of a scene, once per id. -/
  initFunctions : Scene → StateM β Unit
  /-- Replace all functions; whether every one compiled. -/
  setFunctions : List String → StateM β Bool
  /-- Append one function; whether it compiled. -/
  addFunction : String → StateM β Bool
  setGlobals : Option SceneNode → StateM β Unit
  setFilterKey : FilterKey → Int → StateM β Unit
  setFeature : Feature → StateM β Unit
  /-- Take the feature away. -/
  clear : StateM β Unit
  evalFilter : Nat → StateM β Bool
  evalStyle : Nat → StyleKey → StateM β StyleValue

/-- A style into a variable of the caller, over whatever the variable holds; whether it holds
    a value afterwards. -/
def StyleBackend.storeStyle {β : Type} [StyleBackend β] (index : Nat) (key : StyleKey) :
    StateM (StyleValue × β) Bool := fun (_, backend) =>
  let (value, backend) := evalStyle index key backend
  (!value.isNone, value, backend)

/-- A scene's functions and globals over an engine. -/
structure Session (σ : Type) where
  sceneId : Option Int
  functionCount : Nat
  engine : σ

namespace Session

variable {σ : Type}

/-- A session before its first scene. -/
def new (engine : σ) : Session σ := ⟨none, 0, engine⟩

/-- An action of the engine. -/
def run {α : Type} (action : StateM σ α) : StateM (Session σ) α := fun s =>
  let (answer, engine) := action s.engine
  (answer, { s with engine })

variable [Engine σ]

/-- Functions at the positions from `index` on; whether every one compiled. -/
def bindFunctions : Nat → List String → StateM σ Bool
  | _, [] => return true
  | index, source :: sources => do
    -- A source that does not compile keeps its position, so the indices of the others stay.
    let compiled := (← Engine.setFunction index source).isOk
    let others ← bindFunctions (index + 1) sources
    return compiled && others

def setFunctions (sources : List String) : StateM (Session σ) Bool := do
  let compiled ← run (bindFunctions 0 sources)
  -- Positions of an earlier and longer list would still be called otherwise.
  run (Engine.truncateFunctions sources.length)
  modify fun s => { s with functionCount := sources.length }
  return compiled

def addFunction (source : String) : StateM (Session σ) Bool := do
  let index := (← get).functionCount
  -- The position is taken whether or not the source compiles.
  modify fun s => { s with functionCount := index + 1 }
  return (← run (Engine.setFunction index source)).isOk

def setGlobals (globals : Option SceneNode) : StateM (Session σ) Unit :=
  run (Seeding.installGlobals globals)

def initFunctions (scene : Scene) : StateM (Session σ) Unit := do
  if (← get).sceneId = some scene.id then return
  -- The id is kept first. A scene with functions that do not compile is not tried again.
  modify fun s => { s with sceneId := some scene.id }
  setGlobals scene.globals
  discard <| setFunctions scene.functions

/-- Whether a filter lets the feature through; false if it cannot be run. -/
def evalFilter (index : Nat) : StateM (Session σ) Bool :=
  run <| Engine.inScope do
    -- The answer is read inside the scope, before its handle is gone.
    match ← Engine.callForTruth index with
    | .ok b => return b
    | .error _ => return false

/-- The value of a style function for a key; none if it cannot be run. -/
def evalStyle (index : Nat) (key : StyleKey) : StateM (Session σ) StyleValue :=
  run <| Engine.inScope do
    match ← Engine.call index with
    | .ok h => Decoding.decode key h
    | .error _ => return .none

instance : StyleBackend (Session σ) where
  initFunctions := initFunctions
  setFunctions := setFunctions
  addFunction := addFunction
  setGlobals := setGlobals
  setFilterKey key value := run (Engine.setFilterKey key value)
  setFeature feature := run (Engine.setFeature (some feature))
  clear := run (Engine.setFeature none)
  evalFilter := evalFilter
  evalStyle := evalStyle

end Session

end MapStyling
