import MapStyling.Engine.Fault
import MapStyling.Engine.ValueStack
import MapStyling.Feature

/-!
# Scripting Engines

What a scripting engine has to do to run style functions.

An engine keeps the values it hands out on a stack and everybody else holds
handles. Opening a scope is taking a mark of the stack, closing it is going
back to the mark, and `inScope` does both around an action, whatever the action
answers. A handle that a closed scope has invalidated reads as the undefined
value of the engine.

Reading a value as a number or a text may run a script in some languages, so
these two readings go through the state of the engine. The others do not.

## Main definitions

* `ValueKind`: Kinds of values, as far as decoding cares.
* `Engine`: The operations, over a state `σ`.
* `Engine.inScope`: A scope around an action.
* `Engine.callForTruth`: The result of a function as a truth value.
-/

namespace MapStyling

/-- Kinds of values, as far as decoding cares. -/
inductive ValueKind
  | undefined
  | null
  | boolean
  | number
  | string
  | array
  | object
  | function
  deriving DecidableEq, Repr

/-- What an engine goes back to when a scope is closed: the height of its stack. -/
structure Mark where
  height : Nat
  deriving DecidableEq, Repr

/-- A scripting engine with states `σ`. -/
class Engine (σ : Type) where
  pushNull : StateM σ Handle
  pushBoolean : Bool → StateM σ Handle
  pushNumber : Float → StateM σ Handle
  pushText : String → StateM σ Handle
  pushArray : StateM σ Handle
  pushObject : StateM σ Handle
  /-- Make a function value of a source. -/
  pushFunction : String → StateM σ (Except ScriptFault Handle)
  setElement (array : Handle) (index : Nat) (value : Handle) : StateM σ Unit
  setField (object : Handle) (name : String) (value : Handle) : StateM σ Unit
  kind : σ → Handle → ValueKind
  /-- Truth of a value, as the language of the engine has it. -/
  truth : σ → Handle → Bool
  number : Handle → StateM σ Float
  text : Handle → StateM σ String
  /-- Number of elements of an array, none of anything else. -/
  length : σ → Handle → Nat
  pushElement (array : Handle) (index : Nat) : StateM σ Handle
  setGlobal : String → Handle → StateM σ Unit
  pushGlobal : String → StateM σ Handle
  /-- Bind the function of a source to an index, over what was there. -/
  setFunction : Nat → String → StateM σ (Except ScriptFault Unit)
  /-- Drop the functions from a count on. -/
  truncateFunctions : Nat → StateM σ Unit
  /-- Run the function at an index. -/
  call : Nat → StateM σ (Except ScriptFault Handle)
  /-- Show scripts a feature, or none. -/
  setFeature : Option Feature → StateM σ Unit
  setFilterKey : FilterKey → Int → StateM σ Unit
  mark : σ → Mark
  reset : Mark → StateM σ Unit

namespace Engine

variable {σ : Type} [Engine σ]

/-- A scope around an action. -/
def inScope {α : Type} (action : StateM σ α) : StateM σ α := do
  let opened := mark (← get)
  -- The answer has to be a value of its own: handles made in the scope are cut with it.
  let answer ← action
  reset opened
  return answer

/-- The result of a function as a truth value. -/
def callForTruth (index : Nat) : StateM σ (Except ScriptFault Bool) := do
  match ← call index with
  | .ok h => return .ok (truth (← get) h)
  | .error fault => return .error fault

end Engine

end MapStyling
