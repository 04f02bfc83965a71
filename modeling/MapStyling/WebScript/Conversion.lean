import MapStyling.WebScript.Property

/-!
# Conversions

What a value is where a script asks for another kind of value.

An object is first asked for a value that is no object, by calling its methods
`valueOf` and `toString` in an order that hangs on what is wanted. So most
conversions can run a script, and they take the way of calling functions as a
parameter. A run answers with a value or fails, and whatever it wrote to the
store before it failed stays written.

## Main definitions

* `Run`: A computation over the store that may fail.
* `Caller`: A way of calling functions.
* `toNumber`, `toText`: Conversions.
* `compute`: The operators with two operands.
-/

namespace MapStyling

namespace WebScript

/-- A computation over the store that may fail. -/
abbrev Run := OptionT (StateM Store)

/-- A way of calling a function, on a value for `this` and arguments. -/
abbrev Caller := Value → Value → List Value → Run Value

/-- What is wanted of an object. -/
inductive Wanted
  | number
  | text
  | anything
  deriving DecidableEq

/-- The value of a property; undefined if there is none. `undefined` and `null` have
    no properties to ask for. -/
def property (v : Value) (name : Units) : Run Value := do
  if v.isNothing then failure
  return ((← get).property? v name).getD .undefined

/-- Set a property. -/
def setProperty (target : Value) (name : Units) (v : Value) : Run Unit := do
  match (← get).setProperty? target name v with
  | some s => set s
  | none => failure

/-- A new cell. -/
def allocate (c : Cell) : Run Nat := do
  let (address, s) := (← get).add c
  set s
  return address

/-- Kind of a value, as scripts see it. -/
def typeOf (s : Store) (v : Value) : String :=
  match v with
  | .undefined => "undefined"
  | .null => "object"
  | .boolean _ => "boolean"
  | .number _ => "number"
  | .text _ => "string"
  | .method _ _ => "function"
  | .common _ => "object"
  | .reference _ => if (s.closure? v).isSome then "function" else "object"

section

variable (call : Caller)

/-- The first answer of methods of an object that is no object. -/
def firstPrimitive (v : Value) : List Units → Run Value
  | [] => failure
  | name :: others => do
    let method ← property v name
    if (← get).isCallable method then
      let answer ← call method v []
      -- An answer that is an object counts as none, and the next method is asked.
      if !answer.isObject then return answer
    firstPrimitive v others

/-- A value that is no object. -/
def toPrimitive (wanted : Wanted) (v : Value) : Run Value :=
  if v.isObject then
    let valueOf := Units.ofString "valueOf"
    let toString := Units.ofString "toString"
    firstPrimitive call v (if wanted = .text then [toString, valueOf] else [valueOf, toString])
  else return v

/-- The number of a value that is no object. -/
def primitiveNumber : Value → Float
  | .undefined => Double.nan
  | .null => 0.0
  | .boolean b => if b then 1.0 else 0.0
  | .number v => v
  | .text u => textNumber u
  | _ => Double.nan

def toNumber (v : Value) : Run Float :=
  return primitiveNumber (← toPrimitive call .number v)

/-- The text of a value that is no object. -/
def primitiveText : Value → Units
  | .undefined => Units.ofString "undefined"
  | .null => Units.ofString "null"
  | .boolean b => Units.ofString (if b then "true" else "false")
  | .number v => numberText v
  | .text u => u
  | _ => []

def toText (v : Value) : Run Units :=
  return primitiveText (← toPrimitive call .text v)

/-- Whether two values are the same, without conversions. -/
def same : Value → Value → Bool
  | .number a, .number b => a == b
  | a, b => a = b

/-- Equality of values that are no objects: of different kinds, as numbers. -/
def looselySame (a b : Value) : Bool :=
  match a, b with
  | .undefined, .null | .null, .undefined => true
  | .undefined, b | .null, b => a = b
  | _, .undefined | _, .null => false
  | .boolean _, .boolean _ | .text _, .text _ => a = b
  | a, b => primitiveNumber a == primitiveNumber b

/-- Equality with conversions. Two objects are equal if they are the same, and an
    object is never equal to `undefined` or `null`. -/
def equal (a b : Value) : Run Bool := do
  -- These cases come first because they call no method of the objects.
  if a.isObject && b.isObject then return a = b
  else if (a.isObject && b.isNothing) || (b.isObject && a.isNothing) then return false
  else return looselySame (← toPrimitive call .anything a) (← toPrimitive call .anything b)

/-- Order of values that are no objects: of two texts by units, else as numbers;
    whether the first is less. -/
def primitiveLess (a b : Value) : Bool :=
  match a, b with
  | .text u, .text v => Units.less u v
  | a, b => primitiveNumber a < primitiveNumber b

/-- Whether the first value is not above the second. With a number that is none
    there is no order. -/
def primitiveLessOrEqual (a b : Value) : Bool :=
  match a, b with
  | .text u, .text v => !Units.less v u
  -- Not the negation of the order turned round: that would hold for a number that is none.
  | a, b => primitiveNumber a ≤ primitiveNumber b

/-- Sum of values that are no objects: texts are joined. -/
def primitiveSum (a b : Value) : Value :=
  match a, b with
  | .text u, b => .text (u ++ primitiveText b)
  | a, .text v => .text (primitiveText a ++ v)
  | a, b => .number (primitiveNumber a + primitiveNumber b)

/-- A comparison of both operands as numbers or texts. -/
def compare (f : Value → Value → Bool) (a b : Value) : Run Value := do
  let p ← toPrimitive call .number a
  let q ← toPrimitive call .number b
  return .boolean (f p q)

/-- Arithmetic on both operands as numbers. -/
def arithmetic (f : Float → Float → Float) (a b : Value) : Run Value := do
  let x ← toNumber call a
  let y ← toNumber call b
  return .number (f x y)

/-- The operators with two operands. -/
def compute (op : BinaryOperator) (a b : Value) : Run Value :=
  match op with
  | .add => do
    let p ← toPrimitive call .anything a
    let q ← toPrimitive call .anything b
    return primitiveSum p q
  | .subtract => arithmetic call (· - ·) a b
  | .multiply => arithmetic call (· * ·) a b
  | .divide => arithmetic call (· / ·) a b
  | .remainder => arithmetic call Double.remainder a b
  | .equal => return .boolean (← equal call a b)
  | .unequal => return .boolean !(← equal call a b)
  | .same => return .boolean (same a b)
  | .different => return .boolean !same a b
  | .less => compare call primitiveLess a b
  | .lessOrEqual => compare call primitiveLessOrEqual a b
  | .greater => compare call (fun p q => primitiveLess q p) a b
  | .greaterOrEqual => compare call (fun p q => primitiveLessOrEqual q p) a b

/-- The operators with one operand. -/
def computeUnary (op : UnaryOperator) (v : Value) : Run Value :=
  match op with
  | .plus => return .number (← toNumber call v)
  | .minus => return .number (-(← toNumber call v))
  | .not => return .boolean !v.truth
  | .typeof => return .text (Units.ofString (typeOf (← get) v))

/-- The texts of the elements of an array up to a length; `undefined` and `null` have
    none. -/
def elementTexts (v : Value) : Nat → Nat → Run (List Units)
  | _, 0 => return []
  | i, n + 1 => do
    let element ← property v (indexName i)
    let text ← if element.isNothing then pure [] else toText call element
    return text :: (← elementTexts v (i + 1) n)

/-- The elements of an array with a separator in between. -/
def join (v : Value) (separator : Units) : Run Value := do
  let n := ((← get).arrayLength? v).getD 0
  return .text (List.intercalate separator (← elementTexts call v 0 n))

/-- What is said of a value that has no text of its own. -/
def objectText (s : Store) (v : Value) : String :=
  let kind := match v with
    | .undefined => "Undefined"
    | .null => "Null"
    | .boolean _ => "Boolean"
    | .number _ => "Number"
    | .text _ => "String"
    | _ =>
      if s.isCallable v then "Function"
      else if (s.arrayLength? v).isSome then "Array"
      else "Object"
  "[object " ++ kind ++ "]"

/-- Text of a function. Its source is not kept. -/
def functionText (s : Store) (v : Value) : Run Value :=
  let text (name : Units) : Value :=
    .text (Units.ofString "function " ++ name ++ Units.ofString "() \x7b [native code] \x7d")
  match v with
  | .method _ n => return text n
  | v => match s.closure? v with
    | some (f, _, _) => return text f.name
    | none => failure

/-- A call of an inherited method. The others are known by name only. -/
def callMethod (family : Family) (name : Units) (self : Value) (arguments : List Value) :
    Run Value := do
  let s ← get
  match family, name.display with
  | .object, "toString" => return .text (Units.ofString (objectText s self))
  | .object, "valueOf" => return self
  | .function, "toString" => functionText s self
  | .array, "join" =>
    match arguments.head?.getD .undefined with
    | .undefined => join call self (Units.ofString ",")
    | separator => join call self (← toText call separator)
  | .array, "toString" =>
    -- A script can put a `join` of its own in front of the inherited one.
    let method ← property self (Units.ofString "join")
    if s.isCallable method then call method self []
    else return .text (Units.ofString (objectText s self))
  | .string, "toString" | .number, "toString" | .boolean, "toString" =>
    return .text (primitiveText self)
  | .string, "valueOf" | .number, "valueOf" | .boolean, "valueOf" => return self
  | _, _ => failure

end

end WebScript

end MapStyling
