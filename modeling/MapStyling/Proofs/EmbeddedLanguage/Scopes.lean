import MapStyling.Engine.EmbeddedLanguage

/-!
# Scopes of Embedded Languages

What an engine relies on in the scopes of its language.

A scope is a stack of variables. What is declared comes on top, and rewinding takes it
away again. A variable that is set is found with its new value, and setting it touches
no other.

## Main definitions

* `EmbeddedLanguage.Declares`: Scopes with more variables on top.
* `EmbeddedLanguage.Rewinds`: Rewinding takes away what was declared.
* `EmbeddedLanguage.VariableLaws`: Variables are found as they were declared and set.
* `EmbeddedLanguage.ScopeLaws`: Variables are all that a scope knows.
-/

namespace MapStyling

namespace EmbeddedLanguage

variable (L : EmbeddedLanguage)

/-- Scopes that come of one another by declaring variables and constants. -/
inductive Declares : L.Scope → L.Scope → Prop
  | refl (s : L.Scope) : Declares s s
  | declare {s t : L.Scope} (h : Declares s t) (name : String) (isConstant : Bool) (v : L.Value) :
      Declares s (L.declare name isConstant v t)

/-- Rewinding to the height of a scope takes away all that was declared on top of it. -/
def Rewinds : Prop := ∀ s t, L.Declares s t → L.rewind (L.height s) t = s

/-- Variables are found as they were declared and set. -/
structure VariableLaws : Prop where
  getVariable?_declare : ∀ s n c v m, L.getVariable? (L.declare n c v s) m
    = if m = n then some v else L.getVariable? s m
  getVariable?_setVariable : ∀ s n v m, L.getVariable? (L.setVariable n v s) m
    = if m = n then some v else L.getVariable? s m
  /-- Of a variable that is set twice, the second value stays. -/
  setVariable_setVariable : ∀ s n v w,
    L.setVariable n w (L.setVariable n v s) = L.setVariable n w s

/-- Scopes know of the past what their variables hold, and nothing else. -/
structure ScopeLaws : Prop extends L.VariableLaws where
  rewinds : L.Rewinds
  /-- Variables that are there can be set in any order. -/
  setVariable_comm : ∀ s n m v w, n ≠ m → (L.getVariable? s n).isSome = true →
    (L.getVariable? s m).isSome = true →
    L.setVariable n v (L.setVariable m w s) = L.setVariable m w (L.setVariable n v s)
  /-- Setting a variable to what it holds. -/
  setVariable_self : ∀ s n v, L.getVariable? s n = some v → L.setVariable n v s = s

variable {L} in
theorem VariableLaws.getVariable?_self (h : L.VariableLaws) (s : L.Scope) (n : String)
    (v : L.Value) : L.getVariable? (L.setVariable n v s) n = some v := by
  rw [h.getVariable?_setVariable, if_pos rfl]

variable {L} in
theorem VariableLaws.getVariable?_of_ne (h : L.VariableLaws) (s : L.Scope) {n m : String}
    (hne : m ≠ n) (v : L.Value) : L.getVariable? (L.setVariable n v s) m = L.getVariable? s m := by
  rw [h.getVariable?_setVariable, if_neg hne]

end EmbeddedLanguage

end MapStyling
