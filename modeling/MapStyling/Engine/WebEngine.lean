import MapStyling.Engine.FunctionTable
import MapStyling.Engine.Interface
import MapStyling.Engine.WebLanguage

/-!
# The Engine of Web Scripts

Style functions written as function expressions of web pages.

The source of a function is put between parentheses and run as a script, and
the value of the script has to be a function. A script sees the feature as the
global variable `feature`, the filter keys as `$zoom` and `$geometry`, and the
globals of the scene under their own name. These variables belong to the
scripts as much as to the engine: a script can write to them.

Closing a scope drops the values that were pushed in it. What they referred to
stays in the context of the language, where nobody has a name for it.

## Main definitions

* `WebEngine`: The state, and the instance of `Engine`.
* `WebEngine.compile`: The function of a source.
-/

namespace MapStyling

/-- An engine of web scripts. -/
structure WebEngine (L : WebLanguage) where
  context : L.Context
  stack : ValueStack L.Value
  functions : FunctionTable L.Value

namespace WebEngine

/-- Name of the variable that holds the feature. -/
def featureName : String := "feature"

def zoomName : String := "$zoom"

def geometryName : String := "$geometry"

/-- Between parentheses, a function is a value and not a declaration. -/
def scriptText (source : String) : String := "(" ++ source ++ ")"

variable {L : WebLanguage}

/-- An operation of the language. -/
def lift {α : Type} (action : StateM L.Context α) : StateM (WebEngine L) α := fun e =>
  let (a, context) := action.run e.context
  (a, { e with context })

def new : WebEngine L :=
  ((lift (L.setVariable featureName L.null)).run ⟨L.initial, .empty, .empty⟩).2

/-- The value under a handle. -/
def value (e : WebEngine L) (h : Handle) : L.Value :=
  (e.stack.get? h).getD L.undefined

/-- A value on top of the stack. -/
def push (v : L.Value) : StateM (WebEngine L) Handle := fun e =>
  let (h, stack) := e.stack.push v
  (h, { e with stack })

/-- The function of a source. -/
def compile (source : String) : StateM (WebEngine L) (Except ScriptFault L.Value) := do
  match ← lift (L.evaluate (scriptText source)) with
  | .error message => return .error (.runtime message)
  | .ok v => return if L.isCallable (← get).context v then .ok v else .error .notAFunction

/-- A value on top of the stack, if there is one. -/
def pushResult : Except ScriptFault L.Value → StateM (WebEngine L) (Except ScriptFault Handle)
  | .ok v => do return .ok (← push v)
  | .error fault => return .error fault

def pushFunction (source : String) : StateM (WebEngine L) (Except ScriptFault Handle) := do
  pushResult (← compile source)

/-- Whether a value is an array. -/
def isArray (e : WebEngine L) (v : L.Value) : Bool := (L.arrayLength? e.context v).isSome

def setElement (array : Handle) (index : Nat) (v : Handle) : StateM (WebEngine L) Unit := do
  let e ← get
  -- A write to something that is no array is passed over. Positions are taken modulo the number
  -- of positions.
  if e.isArray (e.value array) then
    lift (L.setElement (e.value array) (.ofNat index) (e.value v))

def setField (object : Handle) (name : String) (v : Handle) : StateM (WebEngine L) Unit := do
  let e ← get
  lift (L.setField (e.value object) name (e.value v))

def kind (e : WebEngine L) (h : Handle) : ValueKind :=
  let v := e.value h
  match L.shape v with
  | .undefined => .undefined
  | .null => .null
  | .boolean => .boolean
  | .number => .number
  | .text => .string
  | .other =>
    -- Functions are objects too, so they are asked about first.
    if L.isCallable e.context v then .function else if e.isArray v then .array else .object

def number (h : Handle) : StateM (WebEngine L) Float := do
  return (← lift (L.toNumber ((← get).value h))).getD Double.nan

def text (h : Handle) : StateM (WebEngine L) String := do
  return (← lift (L.toText ((← get).value h))).getD ""

def pushElement (array : Handle) (index : Nat) : StateM (WebEngine L) Handle := do
  let e ← get
  if e.isArray (e.value array) then
    push ((← lift (L.element? (e.value array) (.ofNat index))).getD L.undefined)
  else push L.undefined

/-- Set a global variable. -/
def setVariable (name : String) (v : L.Value) : StateM (WebEngine L) Unit :=
  lift (L.setVariable name v)

def setFunction (index : Nat) (source : String) :
    StateM (WebEngine L) (Except ScriptFault Unit) := do
  -- The old function is gone before the new source is known to be any good.
  modify fun e => { e with functions := e.functions.set index none }
  match ← compile source with
  | .error fault => return .error (fault.whileCompiling index)
  | .ok v =>
    modify fun e => { e with functions := e.functions.set index (some v) }
    return .ok ()

def call (index : Nat) : StateM (WebEngine L) (Except ScriptFault Handle) := do
  match (← get).functions.get? index with
  | none => return .error (.unknownFunction index)
  | some f => pushResult ((← lift (L.call f)).mapError .runtime)

/-- What a property of a feature is for scripts. -/
def propertyValue : PropertyValue → L.Value
  | .nothing => L.null
  | .text s => L.ofText s
  | .number v => L.ofNumber v

/-- Set properties of a feature on the object that scripts see. -/
def addProperties (object : L.Value) : List (String × PropertyValue) → StateM L.Context Unit
  | [] => return
  | (name, v) :: rest => do
    L.setField object name (propertyValue v)
    addProperties object rest

/-- The object that scripts see of a feature. -/
def featureObject (f : Feature) : StateM L.Context L.Value := do
  let object ← L.newObject
  addProperties object f.properties.entries
  return object

def setFeature (feature : Option Feature) : StateM (WebEngine L) Unit := do
  -- Without a feature there is a value that says so.
  let v ← match feature with
    | none => pure L.null
    | some f => lift (featureObject f)
  setVariable featureName v

def setFilterKey (key : FilterKey) (n : Int) : StateM (WebEngine L) Unit :=
  match key with
  | .zoom => setVariable zoomName (L.ofInteger n)
  | .geometry => setVariable geometryName (L.ofText (Geometry.nameOfCode n))
  | .other => return

instance : Engine (WebEngine L) where
  pushNull := push L.null
  pushBoolean b := push (L.ofBoolean b)
  pushNumber v := push (L.ofNumber v)
  pushText s := push (L.ofText s)
  pushArray := do push (← lift L.newArray)
  pushObject := do push (← lift L.newObject)
  pushFunction := pushFunction
  setElement := setElement
  setField := setField
  kind := kind
  truth e h := L.truth (e.value h)
  number := number
  text := text
  length e h := (L.arrayLength? e.context (e.value h)).getD 0
  pushElement := pushElement
  setGlobal name h := do setVariable name ((← get).value h)
  pushGlobal name := do push ((← lift (L.getVariable? name)).getD L.undefined)
  setFunction := setFunction
  truncateFunctions count := modify fun e => { e with functions := e.functions.cut count }
  call := call
  setFeature := setFeature
  setFilterKey := setFilterKey
  mark e := ⟨e.stack.height⟩
  reset m := modify fun e => { e with stack := e.stack.cut m.height }

end WebEngine

end MapStyling
