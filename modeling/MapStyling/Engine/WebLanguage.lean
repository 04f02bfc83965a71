/-!
# Languages of Web Pages

What the engine of web scripts asks of the language that it runs.

The language is a parameter, with a context in which its objects live. Values
are shared: a value can refer to an object of the context, and what is done with
one value shows in others. Almost every operation can run a script, as objects
can have methods for what is asked of them, so the operations go through the
context.

## Main definitions

* `WebLanguage.Shape`: What a value shows of itself, without its context.
* `WebLanguage`: Values, contexts and what can be done with them.
-/

namespace MapStyling

/-- What a value shows of itself, without its context. -/
inductive WebLanguage.Shape
  | undefined
  | null
  | boolean
  | number
  | text
  /-- An object, or a value of another kind that scripts alone can make. -/
  | other
  deriving DecidableEq

/-- A language of web pages. An operation that ends with an exception has no value,
    or gives the text of the exception where somebody reads it. -/
structure WebLanguage where
  Value : Type
  Context : Type
  /-- The context before the first script. -/
  initial : Context
  undefined : Value
  null : Value
  ofBoolean : Bool → Value
  ofInteger : Int → Value
  ofNumber : Float → Value
  ofText : String → Value
  shape : Value → WebLanguage.Shape
  truth : Value → Bool
  isCallable : Context → Value → Bool
  /-- Number of elements, if the value is an array. -/
  arrayLength? : Context → Value → Option Nat
  toNumber : Value → StateM Context (Option Float)
  toText : Value → StateM Context (Option String)
  newArray : StateM Context Value
  newObject : StateM Context Value
  setElement (array : Value) (index : UInt32) (v : Value) : StateM Context Unit
  element? (array : Value) (index : UInt32) : StateM Context (Option Value)
  setField (object : Value) (name : String) (v : Value) : StateM Context Unit
  /-- Set a global variable. -/
  setVariable (name : String) (v : Value) : StateM Context Unit
  getVariable? : String → StateM Context (Option Value)
  /-- The value of a source. -/
  evaluate : String → StateM Context (Except String Value)
  /-- The result of a function that is called on nothing, without arguments. -/
  call : Value → StateM Context (Except String Value)

end MapStyling
