import MapStyling.Engine.Interface
import MapStyling.Scene

/-!
# Seeding Scene Globals

Config trees built as values of an engine.

Children are complete before they are put into their parent. An engine that
stores copies and one that stores references therefore end up with the same
tree. Entries under keys that are no scalars have no name to be stored under
and are passed over with all that is below them; of two entries under one key
the later one stays.

## Main definitions

* `pushScalar`: A scalar as a function, a truth value, a number or a text.
* `pushNode`: A tree.
* `installGlobals`: A tree as the global variable of a scene.
-/

namespace MapStyling

namespace Seeding

variable {σ : Type} [Engine σ]

/-- A scalar. One that begins like a function is a function if it compiles, and
    a text if not. -/
def pushScalar (text : String) : StateM σ Handle := do
  if "function".toList.isPrefixOf text.toList then
    match ← Engine.pushFunction text with
    | .ok h => return h
    | .error _ => Engine.pushText text
  else match SceneNode.truthOf? text with
    | some b => Engine.pushBoolean b
    | none => match SceneNode.numberOf? text with
      | some n => Engine.pushNumber n
      | none => Engine.pushText text

mutual

/-- A tree, with its children on the stack above it. -/
def pushNode : SceneNode → StateM σ Handle
  | .null => Engine.pushNull
  | .scalar text => pushScalar text
  | .sequence items => do
    let array ← Engine.pushArray
    pushItems array 0 items
    return array
  | .mapping entries => do
    let object ← Engine.pushObject
    pushEntries object entries
    return object

/-- The items of a sequence from a position on. -/
def pushItems (array : Handle) : Nat → List SceneNode → StateM σ Unit
  | _, [] => return
  | i, item :: items => do
    -- The array is below its items on the stack, so its handle stays good while they are made.
    let value ← pushNode item
    Engine.setElement array i value
    pushItems array (i + 1) items

/-- The entries of a mapping. -/
def pushEntries (object : Handle) : List (SceneNode × SceneNode) → StateM σ Unit
  | [] => return
  | (.scalar name, node) :: entries => do
    let value ← pushNode node
    Engine.setField object name value
    pushEntries object entries
  -- A key that is no text can name no field, and its value is not even made.
  | _ :: entries => pushEntries object entries

end

/-- A tree as the global variable of a scene. Without a tree, or with an empty
    one, the variable stays what it was. -/
def installGlobals : Option SceneNode → StateM σ Unit
  | none => return
  | some .null => return
  -- The scope takes the stack back. What is set as a global outlives it.
  | some node => Engine.inScope do
    let value ← pushNode node
    Engine.setGlobal globalName value

end Seeding

end MapStyling
