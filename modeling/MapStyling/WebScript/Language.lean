import MapStyling.Engine.WebLanguage
import MapStyling.WebScript.Evaluation

/-!
# Web Scripts as a Language

The interpreter of web scripts, with the operations that an engine asks of a
language.

## Main definitions

* `Value.shape`: What a value shows of itself.
* `Store.withProperty`: A store with a property set, unless that is a fault.
* `WebScript.language`: The language.
-/

namespace MapStyling

namespace WebScript

/-- What a value shows of itself. -/
def Value.shape : Value → WebLanguage.Shape
  | undefined => .undefined
  | null => .null
  | boolean _ => .boolean
  | number _ => .number
  | text _ => .text
  | reference _ | method _ _ | common _ => .other

/-- A store with a property set, unless that is a fault. -/
def Store.withProperty (target : Value) (name : Units) (v : Value) (s : Store) : Store :=
  (s.setProperty? target name v).getD s

/-- A value, or the text of an exception. -/
def orExceptionText : Option Value → Except String Value
  | some v => .ok v
  | none => .error "script threw a value"

/-- The value of a source. -/
def evaluateSource (source : String) : StateM Store (Except String Value) :=
  match parse? source.toList with
  | none => return .error "script is malformed"
  | some body => orExceptionText <$> (runScript body).run

/-- A new object in a cell of its own. -/
def newCell (c : Cell) : StateM Store Value := fun s =>
  let (address, s) := s.add c
  (.reference address, s)

/-- The interpreter as a language. -/
abbrev language : WebLanguage where
  Value := Value
  Context := Store
  initial := .initial
  undefined := .undefined
  null := .null
  ofBoolean := .boolean
  ofInteger n := .number (Double.ofInt n)
  ofNumber := .number
  ofText s := .text (Units.ofString s)
  shape := Value.shape
  truth := Value.truth
  isCallable := Store.isCallable
  arrayLength? := Store.arrayLength?
  toNumber v := (toNumber callFunction v).run
  toText v := Option.map Units.display <$> (toText callFunction v).run
  newArray := newCell (.object (.array 0) (.common .array) [])
  newObject := newCell (.object .plain (.common .object) [])
  setElement array i v := modify (Store.withProperty array (indexName i.toNat) v)
  element? array i := return (← get).property? array (indexName i.toNat)
  setField object name v := modify (Store.withProperty object (Units.ofString name) v)
  setVariable name v :=
    modify (Store.withProperty (.reference Store.globalObject) (Units.ofString name) v)
  getVariable? name := return (← get).global? (Units.ofString name)
  evaluate := evaluateSource
  call f := orExceptionText <$> (callFunction f .undefined []).run

end WebScript

end MapStyling
