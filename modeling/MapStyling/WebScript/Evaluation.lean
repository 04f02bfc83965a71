import MapStyling.WebScript.Conversion
import MapStyling.WebScript.Parser

/-!
# Running Web Scripts

The value of an expression and the effect of a statement.

Evaluation is recursion on the term. Only calls leave the term, and the way of
calling is a parameter here: at a depth `n + 1` it runs the body of the
function with the way of calling of depth `n`, and at depth zero every call
fails. A script that calls itself too deeply fails like one that throws.

A scope is a cell of the store, and a term is evaluated in a list of scopes,
innermost first. The variables of a block are there from its start, without a
value until their declarations are reached.

## Main definitions

* `Frame`: Scopes and `this`.
* `evaluate`, `execute`: Expressions and statements.
* `callAt`: Calls up to a depth.
* `runScript`: The statements of a source.

## Theorems

* `evaluate_call`, `evaluate_unary`: The cases that are left when a member is called
  and the kind of a name is asked for.
-/

namespace MapStyling

namespace WebScript

/-- What a term is evaluated in. -/
structure Frame where
  scopes : List Nat
  self : Value

/-- How a statement ends: with the value of an expression statement, if there was
    one, or by returning. -/
inductive Completion
  | normal (value : Option Value)
  | returned (value : Value)

/-- The value of a variable. -/
def readName (frame : Frame) (name : Units) : Run Value := do
  let s ← get
  match s.resolve? name frame.scopes with
  | some (_, ⟨some v, _⟩) => return v
  -- A variable that is declared further down is known, but cannot be read yet.
  | some (_, ⟨none, _⟩) => failure
  | none => match s.global? name with
    | some v => return v
    | none => failure

/-- Kind of the value of a name, which need not be declared. -/
def typeOfName (frame : Frame) (name : Units) : Run Value := do
  let s ← get
  -- This is the one place where a name that nobody declared is no fault.
  if (s.resolve? name frame.scopes).isNone && (s.global? name).isNone then
    return .text (Units.ofString "undefined")
  return .text (Units.ofString (typeOf s (← readName frame name)))

/-- Write to a variable. A name that is not declared becomes a global variable. -/
def writeName (frame : Frame) (name : Units) (v : Value) : Run Unit := do
  match (← get).resolve? name frame.scopes with
  | none => setProperty (.reference Store.globalObject) name v
  | some (_, ⟨none, _⟩) => failure
  | some (_, ⟨some _, .constant⟩) => failure
  -- The name that a function has inside itself is not written to, and that is no fault.
  | some (_, ⟨some _, .fixed⟩) => return
  | some (address, ⟨some _, .mutable⟩) =>
    modify fun s => s.setVariable address name ⟨some v, .mutable⟩

/-- Give a declared variable its first value. -/
def settle (frame : Frame) (name : Units) (v : Value) : Run Unit := do
  match (← get).resolve? name frame.scopes with
  | none => setProperty (.reference Store.globalObject) name v
  | some (address, ⟨_, m⟩) => modify fun s => s.setVariable address name ⟨some v, m⟩

/-- A function value, written in a frame. -/
def close (frame : Frame) (f : Function) : Run Value := do
  let self := if f.isArrow then frame.self else .undefined
  return .reference (← allocate (.object (.closure f frame.scopes self) (.common .function) []))

/-- A function value that sees itself under its name. -/
def closeNamed (frame : Frame) (f : Function) : Run Value := do
  -- The scope comes first, for the function to refer to it, and holds the function last.
  let scope ← allocate (.scope [(f.name, ⟨none, .fixed⟩)])
  let v ← close { frame with scopes := scope :: frame.scopes } f
  modify fun s => s.setVariable scope f.name ⟨some v, .fixed⟩
  return v

/-- Whether an expression is a function that has no name of its own. -/
def isNameless : Expression → Bool
  | .function none _ _ => true
  | .arrow _ _ => true
  | _ => false

/-- A function without a name takes the one that it is first stored under. -/
def nameAfter (e : Expression) (name : Units) (v : Value) : Run Unit :=
  match v with
  | .reference a =>
    if isNameless e then
      modify fun s => s.modify a fun
        | .object (.closure f scopes self) parent properties =>
          .object (.closure { f with name } scopes self) parent properties
        | c => c
    else return
  | _ => return

/-- Functions given to the variables of a scope. -/
def declareFunctions (frame : Frame) : List Function → Run Unit
  | [] => return
  | f :: rest => do
    settle frame f.name (← close frame f)
    declareFunctions frame rest

/-- Variables that statements declare for their own block. -/
def blockVariables (body : List Statement) : List (Units × Variable) :=
  (body.flatMap Statement.lexicals).map fun (name, isConstant) =>
    (name, ⟨none, if isConstant then .constant else .mutable⟩)

/-- Names as variables without a value that means anything. -/
def undefinedVariables (names : List Units) : List (Units × Variable) :=
  names.map fun name => (name, ⟨some .undefined, .mutable⟩)

/-- A frame with a scope for the statements of a block, its functions in place. -/
def openBlock (frame : Frame) (body : List Statement) : Run Frame := do
  let functions := body.filterMap Statement.function?
  -- Functions of a block can be called before it reaches them, its variables cannot.
  let scope ← allocate <| .scope <|
    undefinedVariables (functions.map Function.name) ++ blockVariables body
  let inner := { frame with scopes := scope :: frame.scopes }
  declareFunctions inner functions
  return inner

/-- Parameters with the arguments of a call. Of two parameters of one name the
    last one counts, and missing arguments are undefined. -/
def bindParameters : List Units → List Value → List (Units × Variable)
  | [], _ => []
  | name :: names, arguments =>
    let rest := bindParameters names (arguments.drop 1)
    if names.contains name then rest
    else (name, ⟨some (arguments.head?.getD .undefined), .mutable⟩) :: rest

/-- A frame for the body of a function, its parameters and variables in place. -/
def openFunction (f : Function) (scopes : List Nat) (self : Value) (arguments : List Value) :
    Run Frame := do
  let functions := f.body.filterMap Statement.function?
  -- A parameter hides a variable of its name, which then begins with the argument.
  let hoisted := (Statement.hoistedOf f.body ++ functions.map Function.name).filter
    fun name => !f.parameters.contains name
  let scope ← allocate <| .scope <|
    bindParameters f.parameters arguments ++ undefinedVariables hoisted ++ blockVariables f.body
  let frame := ⟨scope :: scopes, self⟩
  declareFunctions frame functions
  return frame

section

variable (call : Caller)

mutual

/-- The value of an expression. -/
def evaluate (frame : Frame) : Expression → Run Value
  | .null => return .null
  | .boolean b => return .boolean b
  | .number v => return .number v
  | .text u => return .text u
  | .this => return frame.self
  | .name n => readName frame n
  | .array items => do
    let properties ← evaluateItems frame 0 items
    return .reference (← allocate (.object (.array items.length) (.common .array) properties))
  -- The object is there before its entries, and an entry can replace one before it.
  | .object entries => do
    let v := Value.reference (← allocate (.object .plain (.common .object) []))
    evaluateEntries frame v entries
    return v
  | .function none parameters body => close frame ⟨[], parameters, body, false⟩
  | .function (some name) parameters body => closeNamed frame ⟨name, parameters, body, false⟩
  | .arrow parameters body => close frame ⟨[], parameters, body, true⟩
  | .member e key => do
    let v ← evaluate frame e
    let k ← evaluate frame key
    -- The key is evaluated before it shows that there is nothing to look it up in, and only turned
    -- into a text behind that.
    if v.isNothing then failure
    property v (← toText call k)
  -- What a member is called on is `this` in the call.
  | .call (.member e key) arguments => do
    let v ← evaluate frame e
    let k ← evaluate frame key
    if v.isNothing then failure
    let f ← property v (← toText call k)
    call f v (← evaluateAll frame arguments)
  | .call callee arguments => do
    let f ← evaluate frame callee
    call f .undefined (← evaluateAll frame arguments)
  | .unary .typeof (.name n) => typeOfName frame n
  | .unary op e => do computeUnary call op (← evaluate frame e)
  | .binary op e f => do
    let a ← evaluate frame e
    let b ← evaluate frame f
    compute call op a b
  | .both e f => do
    let a ← evaluate frame e
    if a.truth then evaluate frame f else return a
  | .either e f => do
    let a ← evaluate frame e
    if a.truth then return a else evaluate frame f
  | .conditional c e f => do
    if (← evaluate frame c).truth then evaluate frame e else evaluate frame f
  | .sequence e f => do
    discard <| evaluate frame e
    evaluate frame f
  | .assignName n none e => do
    let v ← evaluate frame e
    nameAfter e n v
    writeName frame n v
    return v
  -- The old value is read before the right side can change it.
  | .assignName n (some op) e => do
    let old ← readName frame n
    let v ← compute call op old (← evaluate frame e)
    writeName frame n v
    return v
  | .assignMember e key op f => do
    let target ← evaluate frame e
    let k ← evaluate frame key
    if target.isNothing then failure
    let name ← toText call k
    match op with
    | none =>
      let v ← evaluate frame f
      setProperty target name v
      return v
    | some op =>
      let old ← property target name
      let v ← compute call op old (← evaluate frame f)
      setProperty target name v
      return v

def evaluateAll (frame : Frame) : List Expression → Run (List Value)
  | [] => return []
  | e :: rest => do
    let v ← evaluate frame e
    return v :: (← evaluateAll frame rest)

/-- Items as properties; those that are left out are none. -/
def evaluateItems (frame : Frame) : Nat → List (Option Expression) → Run (List (Units × Value))
  | _, [] => return []
  | i, none :: rest => evaluateItems frame (i + 1) rest
  | i, some e :: rest => do
    let v ← evaluate frame e
    return (indexName i, v) :: (← evaluateItems frame (i + 1) rest)

def evaluateEntries (frame : Frame) (target : Value) : List (Units × Expression) → Run Unit
  | [] => return
  | (name, e) :: rest => do
    let v ← evaluate frame e
    nameAfter e name v
    setProperty target name v
    evaluateEntries frame target rest

end

/-- First values of the names of a declaration. A variable of a function that is
    declared without a value keeps the one it has. -/
def declareAll (frame : Frame) (kind : DeclarationKind) :
    List (Units × Option Expression) → Run Unit
  | [] => return
  | (name, none) :: rest => do
    if kind ≠ .variable then settle frame name .undefined
    declareAll frame kind rest
  | (name, some e) :: rest => do
    let v ← evaluate call frame e
    nameAfter e name v
    if kind = .variable then writeName frame name v else settle frame name v
    declareAll frame kind rest

mutual

/-- The effect of a statement. -/
def execute (frame : Frame) : Statement → Run Completion
  | .empty => return .normal none
  | .expression e => return .normal (some (← evaluate call frame e))
  | .declare kind bindings => do
    declareAll call frame kind bindings
    return .normal none
  -- A function was put in place when its block was opened.
  | .function _ _ _ => return .normal none
  | .block body => do executeAll (← openBlock frame body) none body
  | .branch c yes no => do
    let completion ← if (← evaluate call frame c).truth then execute frame yes
      else execute frame no
    -- A branch has a value even if neither clause brings one about.
    match completion with
    | .normal none => return .normal (some .undefined)
    | other => return other
  | .giveBack none => return .returned .undefined
  | .giveBack (some e) => return .returned (← evaluate call frame e)
  | .throw e => do
    discard <| evaluate call frame e
    failure

/-- Statements in order, up to one that returns. The value is that of the last one
    that has a value. -/
def executeAll (frame : Frame) (last : Option Value) : List Statement → Run Completion
  | [] => return .normal last
  | s :: rest => do
    match ← execute frame s with
    | .normal v => executeAll frame (v.or last) rest
    | returned => return returned

end

/-- A call of a function value. Outside of a member call, `this` is the global
    object. -/
def invoke (f self : Value) (arguments : List Value) : Run Value := do
  match f with
  | .method family name => callMethod call family name self arguments
  | f => match (← get).closure? f with
    | none => failure
    | some (function, scopes, captured) =>
      -- An arrow keeps the `this` of the place where it was written.
      let self := if function.isArrow then captured
        else if self.isNothing then .reference Store.globalObject
        else self
      let frame ← openFunction function scopes self arguments
      match ← executeAll call frame none function.body with
      | .returned v => return v
      | .normal _ => return .undefined

end

/-- A call of what is no member has no value for `this`. -/
theorem evaluate_call {call : Caller} {frame : Frame} {callee : Expression}
    {arguments : List Expression} (h : ∀ e key, callee ≠ .member e key) :
    evaluate call frame (.call callee arguments) = (do
      let f ← evaluate call frame callee
      call f .undefined (← evaluateAll call frame arguments)) := by
  rw [evaluate]
  exact h

/-- Only the kind of a name is asked for without evaluating it. -/
theorem evaluate_unary {call : Caller} {frame : Frame} {op : UnaryOperator} {e : Expression}
    (h : ∀ n, op = .typeof → e ≠ .name n) :
    evaluate call frame (.unary op e) = (do
      computeUnary call op (← evaluate call frame e)) := by
  rw [evaluate]
  exact h

/-- Calls that nest at most to a depth. -/
def callAt : Nat → Caller
  | 0 => fun _ _ _ => failure
  | depth + 1 => invoke (callAt depth)

/-- How deep calls may nest. -/
def deepestCall : Nat := 512

/-- Call a function from outside of a script. -/
def callFunction : Caller := callAt deepestCall

/-- Names as global variables, which keep the values that they have. -/
def declareGlobals : List Units → Run Unit
  | [] => return
  | name :: rest => do
    if ((← get).global? name).isNone then
      setProperty (.reference Store.globalObject) name .undefined
    declareGlobals rest

/-- Variables for what a script declares outside of functions. A variable of all
    scripts is not declared twice. -/
def declareScript (body : List Statement) : Run Unit := do
  let new := blockVariables body
  let old := (← get).bindings Store.scriptScope
  -- Scripts share one scope, and what one of them declared stays declared for the next.
  if new.any fun v => (old.lookup v.1).isSome then failure
  modify fun s => s.modify Store.scriptScope fun
    | .scope vs => .scope (vs ++ new)
    | c => c
  declareGlobals (Statement.hoistedOf body)

/-- The value of the statements of a source. -/
def runScript (body : List Statement) : Run Value := do
  declareScript body
  let frame : Frame := ⟨[Store.scriptScope], .reference Store.globalObject⟩
  declareFunctions frame (body.filterMap Statement.function?)
  -- A source returns nothing by itself, but its value is the same either way.
  match ← executeAll callFunction frame none body with
  | .normal v => return v.getD .undefined
  | .returned v => return v

end WebScript

end MapStyling
