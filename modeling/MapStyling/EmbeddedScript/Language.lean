import MapStyling.Engine.EmbeddedLanguage
import MapStyling.EmbeddedScript.Evaluation

/-!
# Embedded Scripts as a Language

The interpreter of embedded scripts, with the operations that an engine asks of
a language.

## Main definitions

* `Value.shape`: What a value shows of itself.
* `Scope.setVariable`: A scope with a variable set.
* `EmbeddedScript.language`: The language.
-/

namespace MapStyling

namespace EmbeddedScript

/-- What a value shows of itself. -/
def Value.shape : Value → EmbeddedLanguage.Shape Value
  | unit => .unit
  | boolean b => .boolean b
  | integer n => .integer n.toInt
  | number v => .number v
  | character _ => .character
  | text s => .text s
  | array items => .array items
  | map entries => .map (Entries.sort entries)
  | function _ => .function

/-- A scope with a variable set; a new one comes first. -/
def Scope.setVariable (name : String) (v : Value) (s : Scope) : Scope :=
  match s.lookup name with
  | some slot => Entries.put name { slot with value := v } s
  | none => (name, ⟨v, false⟩) :: s

/-- A value, or the text of a fault. -/
def orFaultText : Option Value → Except String Value
  | some v => .ok v
  | none => .error "script ended with a fault"

/-- The interpreter as a language. -/
def language : EmbeddedLanguage where
  Value := Value
  unit := .unit
  ofBoolean := .boolean
  ofInteger n := .integer (.ofInt n)
  ofNumber := .number
  ofText := .text
  ofArray := .array
  ofMap := .map
  shape := Value.shape
  display := Value.display
  Scope := Scope
  emptyScope := []
  declare name isConstant v s := (name, ⟨v, isConstant⟩) :: s
  height := List.length
  rewind := Scope.back
  setVariable := Scope.setVariable
  getVariable? s name := (s.lookup name).map Slot.value
  Script := Script
  compile source := match parse? source.toList with
    | some script => .ok script
    | none => .error "script is malformed"
  noScript := ⟨[], []⟩
  merge library script :=
    ⟨library.definitions.merge script.definitions, script.body⟩
  definitionsOnly script := { script with body := [] }
  evaluate script := orFaultText ((run script).run []).1
  run script := orFaultText <$> run script

end EmbeddedScript

end MapStyling
