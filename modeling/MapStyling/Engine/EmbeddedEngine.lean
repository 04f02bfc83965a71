import MapStyling.Engine.EmbeddedLanguage
import MapStyling.Engine.FunctionTable
import MapStyling.Engine.FunctionText
import MapStyling.Engine.Interface
import MapStyling.Entries
import MapStyling.Scene

/-!
# The Engine of Embedded Scripts

Style functions in an embedded language.

The body of a function expression is run as a script, and a source that is no
function expression is the script itself. Scripts run one after the other in
one scope, which holds the feature, the filter keys and the globals of the
scene from the start. A script can assign to these variables, and what it
declares is gone when it ends.

The functions of scene globals become definitions. A value of the globals knows
its function by name, and the definitions join the library when the globals
are installed; they wait until then, each beside the value that was made for
it. A style function takes the library along as it is when its source is read.

## Main definitions

* `EmbeddedEngine`: The state, and the instance of `Engine`.
* `EmbeddedEngine.compile`: The script of a style function.
* `EmbeddedEngine.pushFunction`: A function of the scene globals.
-/

namespace MapStyling

/-- An engine of embedded scripts. -/
structure EmbeddedEngine (L : EmbeddedLanguage) where
  scope : L.Scope
  stack : ValueStack L.Value
  functions : FunctionTable L.Script
  /-- Definitions behind the functions of the installed globals. -/
  library : L.Script
  /-- Definitions made since then, each with the value made for it. -/
  pending : List (Handle × L.Script)
  /-- How many functions have been made since then. -/
  made : Nat

namespace EmbeddedEngine

/-- Name of the variable that holds the feature. -/
def featureName : String := "feature"

def zoomName : String := "zoom"

def geometryName : String := "geometry"

/-- Name of the variable that holds the globals of the scene. -/
def globalsName : String := "globals"

/-- The variable that a global name is bound to. -/
def variableName (name : String) : String :=
  if name = globalName then globalsName else name

/-- Name of a function of the scene globals. -/
def functionName (n : Nat) : String := "scene_fn_" ++ Digits.text n

/-- A script that defines a function and gives back a value for it. -/
def definingText (name : String) (f : FunctionText) : String :=
  "fn " ++ name ++ "(" ++ String.ofList f.parameters ++ ") \x7b " ++ String.ofList f.body
    ++ " \x7d\nFn(\"" ++ name ++ "\")"

/-- The script of a style function as it is written: its body, or all of it. -/
def scriptText (source : String) : String :=
  match FunctionText.split? source.toList with
  | some f => String.ofList f.body
  | none => source

variable {L : EmbeddedLanguage}

/-- All scripts find these variables, so none of them is ever the first to declare one. -/
def initialScope : L.Scope :=
  [featureName, zoomName, geometryName, globalsName].foldl
    (fun s name => L.declare name false L.unit s) L.emptyScope

def new : EmbeddedEngine L := ⟨initialScope, .empty, .empty, L.noScript, [], 0⟩

/-- The value under a handle. -/
def value (e : EmbeddedEngine L) (h : Handle) : L.Value :=
  (e.stack.get? h).getD L.unit

/-- A value on top of the stack. -/
def push (v : L.Value) : StateM (EmbeddedEngine L) Handle := fun e =>
  let (h, stack) := e.stack.push v
  (h, { e with stack })

/-- A change of the value under a handle. -/
def change (h : Handle) (f : L.Value → L.Value) : StateM (EmbeddedEngine L) Unit :=
  modify fun e => { e with stack := e.stack.modify h f }

/-- Set a variable of the scope of all scripts. -/
def assign (name : String) (v : L.Value) : StateM (EmbeddedEngine L) Unit :=
  modify fun e => { e with scope := L.setVariable name v e.scope }

/-- The script of a style function, over a library. -/
def compile (library : L.Script) (source : String) : Except String L.Script := do
  -- A function expression is not called: its body takes its place.
  let script ← L.compile (scriptText source)
  -- The library goes along as it is now.
  return L.merge library script

/-- The value of a script in the scope of all scripts. -/
def evaluate (script : L.Script) : StateM (EmbeddedEngine L) (Except ScriptFault L.Value) :=
  fun e =>
    let height := L.height e.scope
    let (result, scope) := (L.run script).run e.scope
    -- What the script assigned stays assigned, also when it failed later on.
    (result.mapError .runtime, { e with scope := L.rewind height scope })

/-- A function of the scene globals after so many others: its value and the script that
    defines it. -/
def defineFunction (made : Nat) (source : String) : Except ScriptFault (L.Value × L.Script) := do
  match FunctionText.split? source.toList with
  | none => throw .notAFunction
  | some f =>
    let script ← (L.compile (definingText (functionName made) f)).mapError .runtime
    -- The script only makes the value, so it runs in a scope of its own and leaves no trace.
    let pointer ← (L.evaluate script).mapError .runtime
    match L.shape pointer with
    | .function => return (pointer, script)
    | _ => throw .notAFunction

def pushFunction (source : String) : StateM (EmbeddedEngine L) (Except ScriptFault Handle) := do
  match defineFunction (← get).made source with
  | .error fault => return .error fault
  | .ok (pointer, script) =>
    modify fun e => { e with made := e.made + 1 }
    let h ← push pointer
    -- The definition waits beside the handle of its value, so that dropping the one drops the
    -- other.
    modify fun e => { e with pending := e.pending ++ [(h, L.definitionsOnly script)] }
    return .ok h

/-- An array with an element set, grown to hold it. -/
def withElement (i : Nat) (v container : L.Value) : L.Value :=
  match L.shape container with
  | .array items =>
    L.ofArray ((items ++ List.replicate (i + 1 - items.length) L.unit).set i v)
  | _ => container

def withField (name : String) (v container : L.Value) : L.Value :=
  match L.shape container with
  | .map entries => L.ofMap (Entries.insert name v entries)
  | _ => container

/-- The elements of an array; none of anything else. -/
def elements (v : L.Value) : List L.Value :=
  match L.shape v with
  | .array items => items
  | _ => []

def kindOf (v : L.Value) : ValueKind :=
  match L.shape v with
  | .unit => .undefined
  | .boolean _ => .boolean
  | .integer _ | .number _ => .number
  | .text _ | .character => .string
  | .array _ => .array
  | .function => .function
  | .map _ | .other => .object

def truthOf (v : L.Value) : Bool :=
  match L.shape v with
  | .boolean b => b
  | .unit => false
  | .integer n => n != 0
  | .number x => !(x == 0.0 || x.isNaN)
  | .text s => !s.isEmpty
  | .character | .array _ | .map _ | .function | .other => true

def numberOf (v : L.Value) : Float :=
  match L.shape v with
  | .number x => x
  | .integer n => Double.ofInt n
  | .boolean b => if b then 1.0 else 0.0
  | _ => Double.nan

def textOf (v : L.Value) : String :=
  match L.shape v with
  | .text s => s
  | _ => L.display v

/-- Set a global. Setting the globals of the scene also moves the definitions that
    wait into the library, which holds no others. -/
def setGlobal (name : String) (h : Handle) : StateM (EmbeddedEngine L) Unit := do
  if name = globalName then
    -- The globals are replaced as a whole, so functions of earlier ones are gone, and names are
    -- given out from the start again.
    modify fun e =>
      { e with
        library := e.pending.foldl (fun library p => L.merge library p.2) L.noScript
        pending := []
        made := 0 }
  assign (variableName name) ((← get).value h)

def setFunction (index : Nat) (source : String) :
    StateM (EmbeddedEngine L) (Except ScriptFault Unit) := do
  -- The old function is gone before the new source is known to be any good.
  modify fun e => { e with functions := e.functions.set index none }
  match compile (← get).library source with
  | .error message => return .error (.compile index message)
  | .ok script =>
    modify fun e => { e with functions := e.functions.set index (some script) }
    return .ok ()

/-- The value of a script on top of the stack, if it has one. -/
def pushResult : Except ScriptFault L.Value → StateM (EmbeddedEngine L) (Except ScriptFault Handle)
  | .ok v => do return .ok (← push v)
  | .error fault => return .error fault

def call (index : Nat) : StateM (EmbeddedEngine L) (Except ScriptFault Handle) := do
  match (← get).functions.get? index with
  | none => return .error (.unknownFunction index)
  | some script =>
    -- The script is out of the table while it runs, and put back whatever comes of it.
    modify fun e => { e with functions := e.functions.set index none }
    let result ← evaluate script
    modify fun e => { e with functions := e.functions.set index (some script) }
    pushResult result

/-- What a property of a feature is for scripts. -/
def propertyValue : PropertyValue → L.Value
  | .nothing => L.unit
  | .text s => L.ofText s
  | .number v => L.ofNumber v

/-- What scripts see of a feature. -/
def featureValue : Option Feature → L.Value
  | none => L.unit
  | some f => L.ofMap (f.properties.entries.map fun e => (e.1, propertyValue e.2))

def setFilterKey (key : FilterKey) (n : Int) : StateM (EmbeddedEngine L) Unit :=
  match key with
  | .zoom => assign zoomName (L.ofInteger n)
  | .geometry => assign geometryName (L.ofText (Geometry.nameOfCode n))
  | .other => return

instance : Engine (EmbeddedEngine L) where
  pushNull := push L.unit
  pushBoolean b := push (L.ofBoolean b)
  pushNumber v := push (L.ofNumber v)
  pushText s := push (L.ofText s)
  pushArray := push (L.ofArray [])
  pushObject := push (L.ofMap [])
  pushFunction := pushFunction
  setElement array i v := do
    let v := (← get).value v
    change array (withElement i v)
  setField object name v := do
    let v := (← get).value v
    change object (withField name v)
  kind e h := kindOf (e.value h)
  truth e h := truthOf (e.value h)
  number h := return numberOf ((← get).value h)
  text h := return textOf ((← get).value h)
  length e h := (elements (e.value h)).length
  pushElement array i := do push ((elements ((← get).value array)).getD i L.unit)
  setGlobal := setGlobal
  pushGlobal name := do push ((L.getVariable? (← get).scope (variableName name)).getD L.unit)
  setFunction := setFunction
  truncateFunctions count := modify fun e => { e with functions := e.functions.cut count }
  call := call
  setFeature feature := assign featureName (featureValue feature)
  setFilterKey := setFilterKey
  mark e := ⟨e.stack.height⟩
  reset m := modify fun e =>
    { e with
      stack := e.stack.cut m.height
      pending := e.pending.filter fun p => p.1.index < m.height }

end EmbeddedEngine

end MapStyling
