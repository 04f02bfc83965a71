import MapStyling.EmbeddedScript.Parser

/-!
# Running Embedded Scripts

The value of a script in a scope.

A scope is a list of variables, the latest first, so a declaration hides the
variables of its name and closing a block uncovers them. Evaluation is
recursion on the term. It ends early with a fault or with a value that is
given back, and whatever was assigned before stays assigned.

A function sees its parameters and nothing else, so a call is no more than a
partial function from arguments to a value. Evaluation takes that function as
a parameter, and calls nest up to a depth.

## Main definitions

* `Scope`: Variables.
* `evaluate`, `execute`: Expressions and statements.
* `callAt`: Calls of the functions of a library up to a depth.
* `run`: A script in a scope.
-/

namespace MapStyling

namespace EmbeddedScript

/-- What a variable holds. -/
structure Slot where
  value : Value
  isConstant : Bool

/-- Variables, the latest first. -/
abbrev Scope := List (String × Slot)

/-- Why an evaluation ends early. -/
inductive Exit
  | fault
  | returned (v : Value)

/-- An evaluation in a scope. -/
abbrev Run := ExceptT Exit (StateM Scope)

/-- A way of calling functions by their names. -/
abbrev Caller := String → List Value → Option Value

/-- A value, or a fault if there is none. -/
def orFault {α : Type} : Option α → Run α
  | some a => return a
  | none => throw .fault

def readName (n : String) : Run Value := do
  return (← orFault ((← get).lookup n)).value

/-- Change the value of a variable that is no constant. -/
def changeName (n : String) (f : Value → Option Value) : Run Unit := do
  let slot ← orFault ((← get).lookup n)
  if slot.isConstant then throw .fault
  let v ← orFault (f slot.value)
  modify (Entries.put n ⟨v, false⟩)

/-- The scope as it was, but for what was assigned, after it had a length. -/
def Scope.back (length : Nat) (s : Scope) : Scope :=
  -- New variables come first, so what was there before is the end of the list.
  s.drop (s.length - length)

/-- The operators with one operand. -/
def computeUnary? (op : UnaryOperator) (v : Value) : Option Value :=
  match op, v with
  | .plus, .integer n => some (.integer n)
  | .plus, .number x => some (.number x)
  | .minus, v => negate? v
  | .not, .boolean b => some (.boolean !b)
  | _, _ => none

/-- The truth value that a value is. -/
def boolean? : Value → Option Bool
  | .boolean b => some b
  | _ => none

/-- The function that a call on a value means: the value itself, or one that a map
    holds under the name. -/
def callee? (v : Value) (name : String) : Option String :=
  match v with
  | .function f => if name = "call" then some f else none
  | .map entries => match entries.lookup name with
    | some (.function f) => some f
    | _ => none
  | _ => none

section

variable (call : Caller)

mutual

/-- The value of an expression. -/
def evaluate : Expression → Run Value
  | .literal v => return v
  | .name n => readName n
  | .array items => return .array (← evaluateAll items)
  | .map entries => return .map (← evaluateEntries entries)
  | .element container key => do
    let c ← evaluate container
    let k ← evaluate key
    orFault (c.get? k)
  | .call name arguments => do orFault (call name (← evaluateAll arguments))
  -- The value that is called on is evaluated first, and whether it holds a function only shows
  -- behind the arguments.
  | .callOn target name arguments => do
    let v ← evaluate target
    let values ← evaluateAll arguments
    let f ← orFault (callee? v name)
    orFault (call f values)
  | .unary op e => do orFault (computeUnary? op (← evaluate e))
  | .binary op e f => do
    let a ← evaluate e
    let b ← evaluate f
    orFault (compute? op a b)
  | .both e f => do
    if ← orFault (boolean? (← evaluate e)) then
      return .boolean (← orFault (boolean? (← evaluate f)))
    else return .boolean false
  | .either e f => do
    if ← orFault (boolean? (← evaluate e)) then return .boolean true
    else return .boolean (← orFault (boolean? (← evaluate f)))
  | .block body => do
    -- Assignments to outer variables stay, and the block's own are dropped by length, as a name
    -- could be declared twice.
    let length := (← get).length
    let v ← executeAll .unit body
    modify (Scope.back length)
    return v
  | .branch c e f => do
    if ← orFault (boolean? (← evaluate c)) then evaluate e else evaluate f

def evaluateAll : List Expression → Run (List Value)
  | [] => return []
  | e :: rest => do
    let v ← evaluate e
    return v :: (← evaluateAll rest)

def evaluateEntries : List (String × Expression) → Run (List (String × Value))
  | [] => return []
  | (name, e) :: rest => do
    let v ← evaluate e
    return Entries.insert name v (← evaluateEntries rest)

/-- The value of a statement. -/
def execute : Statement → Run Value
  | .expression e => evaluate e
  | .declare n isConstant e => do
    let v ← evaluate e
    modify fun s => (n, ⟨v, isConstant⟩) :: s
    return .unit
  | .assign n path op e => do
    let v ← evaluate e
    -- The right side comes before the keys on the left.
    let keys ← evaluateAll path
    let new (old : Value) : Option Value := match op with
      | none => some v
      | some op => combine? op old v
    changeName n (Value.update? new keys)
    return .unit
  | .giveBack e => do throw (.returned (← evaluate e))
  | .throw e => do
    -- What is thrown is evaluated, but nobody can catch it.
    discard <| evaluate e
    throw .fault

/-- The value of the last statement. Those before it are left out if their value
    is all that they bring about. -/
def executeAll (last : Value) : List Statement → Run Value
  | [] => return last
  | s :: rest => do
    -- The last statement is kept even so, as it is what the statements come to.
    if s.isPure && !rest.isEmpty then executeAll last rest
    else executeAll (← execute s) rest

end

/-- The value that statements come to in a scope, given back or not. -/
def finish (body : List Statement) : StateM Scope (Option Value) := do
  match ← (executeAll call .unit body).run with
  | .ok v => return some v
  | .error (.returned v) => return some v
  | .error .fault => return none

/-- A call of a function of a library, or of the one that makes function values
    of names. -/
def invoke (library : Library) (name : String) (arguments : List Value) : Option Value :=
  match library.find? name arguments.length with
  | some d =>
    -- A function sees its parameters and no variable of its caller.
    let scope : Scope := d.parameters.zip (arguments.map fun v => ⟨v, false⟩)
    ((finish call d.body).run scope).1
  | none => match name, arguments with
    | "Fn", [.text f] =>
      if isName f.toList && f.toList.all isNamePart then some (.function f) else none
    | _, _ => none

end

/-- Calls of the functions of a library that nest at most to a depth. -/
def callAt (library : Library) : Nat → Caller
  | 0 => fun _ _ => none
  | depth + 1 => invoke (callAt library depth) library

/-- How deep calls may nest. -/
def deepestCall : Nat := 64

/-- The value of a script in a scope. Variables that it declares come first afterwards, also
    when it failed half way. -/
def run (s : Script) : StateM Scope (Option Value) :=
  finish (callAt s.definitions deepestCall) s.body

end EmbeddedScript

end MapStyling
