import MapStyling.Document.Value
import MapStyling.Engine.FunctionTable
import MapStyling.Engine.FunctionText

/-!
# An Engine of Documents

The engine whose scripts are JSON documents.

A script stands for itself, so what a style function answers is written down
where the function would be. That is an engine with nothing to trust in, and
what surrounds engines can be watched on it: it keeps a log of the calls that
would change the state of a real one.

Objects with a field `$` say what a document cannot: numbers without digits,
the undefined value, and what the engine has been told about the feature, the
filter keys and the globals.

## Main definitions

* `DocumentEngine`: The state, and the instance of `Engine`.
* `DocumentEngine.parse?`: The document of a function source.
* `DocumentEngine.eval`: The value that a document stands for.
-/

namespace MapStyling

/-- An engine whose scripts are documents. -/
structure DocumentEngine where
  stack : ValueStack DocumentValue
  functions : FunctionTable Json
  globals : List (String × DocumentValue)
  feature : Option Feature
  zoom : Option Int
  geometry : Option Int
  /-- What has been called, the latest last. -/
  log : List String

namespace DocumentEngine

def new : DocumentEngine := ⟨.empty, .empty, [], none, none, none, []⟩

/-- The document of a function source, which may call itself a function. -/
def parse? (source : String) : Option Json :=
  let text := source.toList
  -- What stands in front of the keyword is passed over with it.
  Json.read? (Text.trim ((Text.afterFirst? FunctionText.keyword text).getD text))

/-- What a property of a feature is for scripts. -/
def propertyValue : PropertyValue → DocumentValue
  | .nothing => .null
  | .text s => .text s
  | .number v => .number v

/-- A step of a path: a name of an object or a position of an array. -/
def pathStep? : DocumentValue → Json → Option DocumentValue
  | .object entries, .text name => some ((entries.lookup name).getD .undefined)
  | .array items, .natural i => some (items.getD i .undefined)
  | _, _ => none

/-- Text of a number of a filter key as scripts see it. -/
def keyValue (value : Option Int) (show? : Int → DocumentValue) : DocumentValue :=
  (value.map show?).getD .undefined

/-- The fault of a document that stands for nothing. -/
def meaningless : ScriptFault := .runtime "document stands for no value"

/-- The value of an object with a field `$`. -/
def special (e : DocumentEngine) (j : Json) : Except ScriptFault DocumentValue :=
  match j.field? "$", j.field? "v" with
  | some (.text "num"), some (.text s) =>
    .ok (.number ((Literal.spelled? s.toList).getD Double.nan))
  | some (.text "num"), _ => .ok (.number Double.nan)
  | some (.text "undefined"), _ => .ok .undefined
  | some (.text "object"), _ => .ok (.object [])
  | some (.text "function"), _ => .ok .function
  | some (.text "zoom"), _ => .ok (keyValue e.zoom fun z => .number (Double.ofInt z))
  | some (.text "geometry"), _ =>
    .ok (keyValue e.geometry fun g => .text (Geometry.nameOfCode g))
  -- A property can only be asked for while there is a feature; the one that it lacks is undefined.
  | some (.text "prop"), some (.text name) =>
    match e.feature with
    | none => .error meaningless
    | some f => .ok (((f.properties.get? name).map propertyValue).getD .undefined)
  | some (.text "global"), some (.array path) =>
    match path.foldlM pathStep? (.object e.globals) with
    | some v => .ok v
    | none => .error meaningless
  | _, _ => .error meaningless

mutual

/-- The value that a document stands for. -/
def eval (e : DocumentEngine) : Json → Except ScriptFault DocumentValue
  | .null => .ok .null
  | .boolean b => .ok (.boolean b)
  | .natural n => .ok (.number (Double.ofInt n))
  | .number v => .ok (.number v)
  | .text s => .ok (.text s)
  | .array items => do return .array (← evalItems e items)
  | .object entries => special e (.object entries)

def evalItems (e : DocumentEngine) : List Json → Except ScriptFault (List DocumentValue)
  | [] => .ok []
  | j :: rest => do
    let v ← eval e j
    return v :: (← evalItems e rest)

end

/-- The value under a handle. -/
def value (e : DocumentEngine) (h : Handle) : DocumentValue :=
  (e.stack.get? h).getD .undefined

/-- A value on top of the stack. -/
def push (v : DocumentValue) : StateM DocumentEngine Handle := fun e =>
  let (h, stack) := e.stack.push v
  (h, { e with stack })

def record (line : String) : StateM DocumentEngine Unit :=
  modify fun e => { e with log := e.log ++ [line] }

/-- A change of the value under a handle. -/
def change (h : Handle) (f : DocumentValue → DocumentValue) : StateM DocumentEngine Unit :=
  modify fun e => { e with stack := e.stack.modify h f }

def setGlobal (name : String) (h : Handle) : StateM DocumentEngine Unit := do
  let v := (← get).value h
  modify fun e => { e with globals := Entries.put name v e.globals }
  record ("global " ++ name ++ " = " ++ v.render)

def setFunction (index : Nat) (source : String) :
    StateM DocumentEngine (Except ScriptFault Unit) := do
  let document := parse? source
  -- A source that is no document empties the position.
  modify fun e => { e with functions := e.functions.set index document }
  record ("function " ++ Digits.text index ++ if document.isSome then " ok" else " bad")
  return if document.isSome then .ok () else .error .notAFunction

def call (index : Nat) : StateM DocumentEngine (Except ScriptFault Handle) := do
  let e ← get
  match e.functions.get? index with
  | none => return .error (.unknownFunction index)
  | some document => match e.eval document with
    -- Only values are pushed, so a fault leaves the stack as it is.
    | .ok v => return .ok (← push v)
    | .error fault => return .error fault

def setFeature (feature : Option Feature) : StateM DocumentEngine Unit := do
  modify fun e => { e with feature }
  record <| "feature " ++ match feature with
    | none => "none"
    | some f => Digits.signed f.geometry.code

def setFilterKey (key : FilterKey) (n : Int) : StateM DocumentEngine Unit := do
  modify fun e => match key with
    | .zoom => { e with zoom := some n }
    | .geometry => { e with geometry := some n }
    | .other => e
  record ("filter " ++ key.name ++ " " ++ Digits.signed n)

instance : Engine DocumentEngine where
  pushNull := push .null
  pushBoolean b := push (.boolean b)
  pushNumber v := push (.number v)
  pushText s := push (.text s)
  pushArray := push (.array [])
  pushObject := push (.object [])
  pushFunction source := do
    match parse? source with
    | some _ => return .ok (← push .function)
    | none => return .error (.runtime "function is no document")
  setElement array i v := do
    let v := (← get).value v
    change array (·.setElement i v)
  setField object name v := do
    let v := (← get).value v
    change object (·.setField name v)
  kind e h := (e.value h).kind
  truth e h := (e.value h).truth
  number h := return ((← get).value h).toNumber
  text h := return ((← get).value h).display
  length e h := (e.value h).length
  pushElement array i := do push (((← get).value array).element i)
  setGlobal := setGlobal
  pushGlobal name := do push (((← get).globals.lookup name).getD .undefined)
  setFunction := setFunction
  truncateFunctions count := do
    modify fun e => { e with functions := e.functions.cut count }
    record ("truncate " ++ Digits.text count)
  call := call
  setFeature := setFeature
  setFilterKey := setFilterKey
  mark e := ⟨e.stack.height⟩
  reset m := do
    modify fun e => { e with stack := e.stack.cut m.height }
    record ("reset " ++ Digits.text (← get).stack.height)

end DocumentEngine

end MapStyling
