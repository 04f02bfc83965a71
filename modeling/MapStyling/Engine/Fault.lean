import MapStyling.Number.Digits

/-!
# Faults

What can go wrong outside the reading of style texts.

Evaluation never lets a fault through: it turns into a value or a truth value
on the way. Faults exist so that engines can say what happened to whoever asks
them directly.

## Main definitions

* `ScriptFault`: Faults of a scripting engine.
* `noBackendFault`: No engine to build a context on.
-/

namespace MapStyling

/-- A fault as it is reported: what, under which code, and advice if any. -/
structure FaultReport where
  message : String
  code : String
  help : Option String

/-- Faults of a scripting engine. Indices are positions of functions. -/
inductive ScriptFault
  | compile (index : Nat) (message : String)
  | notAFunction
  | unknownFunction (index : Nat)
  | runtime (message : String)
  deriving DecidableEq, Repr

namespace ScriptFault

def report : ScriptFault → FaultReport
  | compile index message =>
    ⟨"failed to compile function " ++ Digits.text index ++ ": " ++ message,
      "tilestyle::script::compile", none⟩
  | notAFunction =>
    ⟨"source does not evaluate to a function", "tilestyle::script::not_a_function",
      some "style functions are written as \x60function () ...\x60 expressions"⟩
  | unknownFunction index =>
    ⟨"no function registered at index " ++ Digits.text index,
      "tilestyle::script::unknown_function", none⟩
  | runtime message => ⟨"script error: " ++ message, "tilestyle::script::runtime", none⟩

/-- A fault while running the source of a function, seen from its position. -/
def whileCompiling (index : Nat) : ScriptFault → ScriptFault
  | runtime message => compile index message
  | fault => fault

end ScriptFault

/-- No engine to build a context on. -/
def noBackendFault : FaultReport :=
  ⟨"no scripting backend compiled in", "tilestyle::context::no_backend",
    some "enable the \x60boa\x60 or \x60rhai\x60 cargo feature"⟩

end MapStyling
