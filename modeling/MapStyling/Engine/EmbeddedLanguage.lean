/-!
# Embedded Languages

What the engine of embedded scripts asks of the language that it runs.

The language is a parameter. Its values, scopes and scripts are known by the
operations on them and by nothing else, so whatever is said of the engine is
said for every language, and what it needs of one is stated where it is needed.

## Main definitions

* `EmbeddedLanguage.Shape`: What a value shows of itself.
* `EmbeddedLanguage`: Values, scopes and scripts.
-/

namespace MapStyling

/-- What a value shows of itself, with the values `ν` that it holds. -/
inductive EmbeddedLanguage.Shape (ν : Type)
  | unit
  | boolean (b : Bool)
  | integer (n : Int)
  | number (v : Float)
  | character
  | text (s : String)
  | array (items : List ν)
  /-- The entries of a map stand in increasing order of their names. -/
  | map (entries : List (String × ν))
  | function
  | other

/-- An embedded language. Values are copied wherever they go, and a scope is a
    stack of variables. -/
structure EmbeddedLanguage where
  Value : Type
  unit : Value
  ofBoolean : Bool → Value
  ofInteger : Int → Value
  ofNumber : Float → Value
  ofText : String → Value
  ofArray : List Value → Value
  ofMap : List (String × Value) → Value
  shape : Value → EmbeddedLanguage.Shape Value
  display : Value → String
  Scope : Type
  emptyScope : Scope
  /-- Declare a variable, or a constant, on top of a scope. -/
  declare (name : String) (isConstant : Bool) (v : Value) : Scope → Scope
  height : Scope → Nat
  /-- A scope without the variables above a height. -/
  rewind : Nat → Scope → Scope
  /-- Set the variable of a name; a new one comes on top. -/
  setVariable (name : String) (v : Value) : Scope → Scope
  getVariable? : Scope → String → Option Value
  Script : Type
  /-- The script of a source, or what is wrong with the source. -/
  compile : String → Except String Script
  /-- A script without statements and definitions. -/
  noScript : Script
  /-- A script that has the definitions of another one beside its own. -/
  merge (library script : Script) : Script
  definitionsOnly : Script → Script
  /-- The value of a script in a scope of its own, or a fault. -/
  evaluate : Script → Except String Value
  /-- The value of a script in a scope. What the script declares stays on top of it. -/
  run : Script → StateM Scope (Except String Value)

end MapStyling
