import MapStyling.Engine.Interface
import MapStyling.Entries

/-!
# Values of Embedded Scripts

Values, their texts, and the operators on them.

Values are trees and are copied wherever they go. There are integers of 64
bits beside numbers with a point; an operation on integers that leaves their
range is a fault, and with a number on one side both sides count as numbers.
Values of different kinds compare as different, and neither is less.

## Main definitions

* `Value`: Values.
* `Value.display`, `Value.inspect`: Text of a value by itself and inside another.
* `compute?`: Operators.
* `Value.get?`, `Value.update?`: Elements.
-/

namespace MapStyling

namespace EmbeddedScript

/-- Values. The entries of a map stand in increasing order of their names. A
    function is known by its name. -/
inductive Value
  | unit
  | boolean (b : Bool)
  | integer (n : Int64)
  | number (v : Float)
  | character (c : Char)
  | text (s : String)
  | array (items : List Value)
  | map (entries : List (String × Value))
  | function (name : String)

/-- The least number without an exponent, `10 ^ -13` in single precision. -/
def leastPositional : Decimal := ⟨99999998245167, -27⟩

/-- The greatest number without an exponent, `10 ^ 13` in single precision. -/
def greatestPositional : Decimal := ⟨9999999827968, 0⟩

/-- Text of a number by itself: a point in every number, and an exponent where the
    digits would be far from it. -/
def displayFormat : NumberFormat where
  tie := .larger
  positional d := leastPositional.atMost d && d.atMost greatestPositional
  wholeEnd := ".0"
  exponentMark := ("e", "e-")
  zero := "0.0"
  negativeZero := "0.0"
  nan := "NaN"
  infinity := "inf"

/-- Text of a number inside another value. -/
def inspectFormat : NumberFormat :=
  { displayFormat with
    positional := fun d => -4 < d.pointPlace && d.pointPlace ≤ 16
    negativeZero := "-0.0" }

namespace Value

def kind : Value → ValueKind
  | unit => .undefined
  | boolean _ => .boolean
  | integer _ | number _ => .number
  | character _ | text _ => .string
  | array _ => .array
  | map _ => .object
  | function _ => .function

def truth : Value → Bool
  | unit => false
  | boolean b => b
  | integer n => n != 0
  | number v => !(v == 0.0 || v.isNaN)
  | text s => !s.isEmpty
  | character _ | array _ | map _ | function _ => true

/-- The number nearest to an integer. -/
def ofInteger (n : Int64) : Float := Double.ofInt n.toInt

def toNumber : Value → Float
  | number v => v
  | integer n => ofInteger n
  | boolean b => if b then 1.0 else 0.0
  | _ => Double.nan

def length : Value → Nat
  | array items => items.length
  | _ => 0

/-- Text between single quotes. -/
def quotedCharacter (c : Char) : String :=
  let image := if c = '\'' then ['\\', '\''] else if c = '"' then ['"'] else Text.quotedChar c
  "'" ++ String.ofList image ++ "'"

mutual

/-- Text of a value inside another. -/
def inspect : Value → String
  | unit => "()"
  | boolean b => if b then "true" else "false"
  | integer n => Digits.signed n.toInt
  | number v => inspectFormat.double v
  | character c => quotedCharacter c
  | text s => Text.quoted s
  | array items => "[" ++ String.intercalate ", " (inspectItems items) ++ "]"
  | map entries => "#\x7b" ++ String.intercalate ", " (inspectEntries entries) ++ "\x7d"
  | function name => "Fn(" ++ name ++ ")"

def inspectItems : List Value → List String
  | [] => []
  | v :: rest => inspect v :: inspectItems rest

def inspectEntries : List (String × Value) → List String
  | [] => []
  | (name, v) :: rest => (Text.quoted name ++ ": " ++ inspect v) :: inspectEntries rest

end

/-- Text of a value by itself. -/
def display : Value → String
  | unit => ""
  | number v => displayFormat.double v
  | character c => String.singleton c
  | text s => s
  | v => inspect v

mutual

/-- Equality. Integers and numbers compare by value, and a character is equal to
    the text that holds just it. -/
def same : Value → Value → Bool
  | unit, unit => true
  | boolean a, boolean b => a = b
  | integer m, integer n => m = n
  | integer m, number w => ofInteger m == w
  | number v, integer n => v == ofInteger n
  | number v, number w => v == w
  | character c, character d => c = d
  | character c, text t => String.singleton c = t
  | text s, character d => s = String.singleton d
  | text s, text t => s = t
  | array items, array others => sameItems items others
  | map entries, map others => sameEntries entries others
  | function f, function g => f = g
  | _, _ => false

def sameItems : List Value → List Value → Bool
  | [], [] => true
  | v :: rest, w :: others => same v w && sameItems rest others
  | _, _ => false

def sameEntries : List (String × Value) → List (String × Value) → Bool
  | [], [] => true
  | (m, v) :: rest, (n, w) :: others => m = n && same v w && sameEntries rest others
  | _, _ => false

end

/-- Texts and characters as texts. -/
def text? : Value → Option String
  | text s => some s
  | character c => some (String.singleton c)
  | _ => none

/-- Position in a list of a length, counted from its end below zero. -/
def position? (length : Nat) (n : Int64) : Option Nat :=
  let i := if n.toInt < 0 then n.toInt + length else n.toInt
  if 0 ≤ i ∧ i < length then some i.toNat else none

/-- An element: under a name of a map, where a missing one is the unit, or at a
    position of an array or a text. -/
def get? (container key : Value) : Option Value :=
  match container, key with
  | map entries, text name => some ((entries.lookup name).getD unit)
  | array items, integer n => (position? items.length n).bind fun i => items[i]?
  | text s, integer n =>
    (position? s.toList.length n).bind fun i => (s.toList[i]?).map character
  | _, _ => none

/-- A value with the element under a path changed. The last name of a path need not
    be there yet. -/
def update? (f : Value → Option Value) : List Value → Value → Option Value
  | [], v => f v
  | key :: path, container => do
    -- The element is fetched first, so a container without it fails before anything is changed.
    let changed ← update? f path (← container.get? key)
    match container, key with
    | map entries, text name => some (map (Entries.insert name changed entries))
    | array items, integer n =>
      (position? items.length n).map fun i => array (items.set i changed)
    | _, _ => none

end Value

/-- Operators that compute with the values of both operands. -/
inductive BinaryOperator
  | add
  | subtract
  | multiply
  | divide
  | remainder
  | equal
  | unequal
  | less
  | lessOrEqual
  | greater
  | greaterOrEqual
  deriving DecidableEq

/-- An integer of 64 bits, if it is one. -/
def inRange? (n : Int) : Option Value :=
  if Int64.minValue.toInt ≤ n ∧ n ≤ Int64.maxValue.toInt then some (.integer (.ofInt n)) else none

/-- Arithmetic on integers. -/
def computeIntegers? (op : BinaryOperator) (m n : Int) : Option Value :=
  match op with
  | .add => inRange? (m + n)
  | .subtract => inRange? (m - n)
  | .multiply => inRange? (m * n)
  | .divide => if n = 0 then none else inRange? (m.tdiv n)
  | .remainder =>
    -- The least integer has no quotient by minus one, and so no remainder either.
    if n = 0 then none else (inRange? (m.tdiv n)).bind fun _ => inRange? (m.tmod n)
  | _ => none

/-- Arithmetic on numbers. -/
def computeNumbers? (op : BinaryOperator) (v w : Float) : Option Value :=
  match op with
  | .add => some (.number (v + w))
  | .subtract => some (.number (v - w))
  | .multiply => some (.number (v * w))
  | .divide => some (.number (v / w))
  | .remainder => some (.number (Double.remainder v w))
  | _ => none

/-- Arithmetic, and joining of texts, arrays and maps. A text joins with anything. -/
def arithmetic? (op : BinaryOperator) (a b : Value) : Option Value :=
  match a, b with
  | .integer m, .integer n => computeIntegers? op m.toInt n.toInt
  | .integer m, .number w => computeNumbers? op (Value.ofInteger m) w
  | .number v, .integer n => computeNumbers? op v (Value.ofInteger n)
  | .number v, .number w => computeNumbers? op v w
  | a, b =>
    if op ≠ .add then none
    else match a, b with
      -- The left text decides first, so that two texts are joined once.
      | .text s, b => some (.text (s ++ b.display))
      | a, .text t => some (.text (a.display ++ t))
      | .character c, .character d => some (.text (String.ofList [c, d]))
      | .array items, .array others => some (.array (items ++ others))
      | .map entries, .map others =>
        some (.map (others.foldl (fun es e => Entries.insert e.1 e.2 es) entries))
      | _, _ => none

/-- Whether values can be asked for their order: two arrays, two maps or two
    functions cannot. -/
def areComparable (a b : Value) : Bool :=
  match a, b with
  | .array _, .array _ | .map _, .map _ | .function _, .function _ => false
  | _, _ => true

/-- Order of values of one kind. Values of two kinds, and units, have none. -/
def order? (a b : Value) : Option Ordering :=
  match a, b with
  | .boolean x, .boolean y => some (Ord.compare x y)
  | .integer m, .integer n => some (Ord.compare m.toInt n.toInt)
  | a, b => match a.text?, b.text? with
    | some s, some t => some (if s < t then .lt else if s = t then .eq else .gt)
    | _, _ =>
      if a.kind = .number && b.kind = .number then
        let v := a.toNumber
        let w := b.toNumber
        if v < w then some .lt else if v == w then some .eq else if w < v then some .gt else none
      else none

/-- The operators with two operands. -/
def compute? (op : BinaryOperator) (a b : Value) : Option Value :=
  match op with
  | .equal => some (.boolean (a.same b))
  | .unequal => some (.boolean !a.same b)
  | .less => compareBy (· = .lt)
  | .lessOrEqual => compareBy (· ≠ .gt)
  | .greater => compareBy (· = .gt)
  | .greaterOrEqual => compareBy (· ≠ .lt)
  | _ => arithmetic? op a b
where
  /-- A test of the order, false where there is none. -/
  compareBy (p : Ordering → Bool) : Option Value :=
    if areComparable a b then some (.boolean ((order? a b).any p)) else none

/-- What an assignment with an operator makes of the old value. An array takes
    whatever is no array as one more element. -/
def combine? (op : BinaryOperator) (old v : Value) : Option Value :=
  match op, old, v with
  | .add, .array items, .array others => some (.array (items ++ others))
  | .add, .array items, v => some (.array (items ++ [v]))
  | op, old, v => compute? op old v

/-- The value with its sign turned. -/
def negate? : Value → Option Value
  | .integer n => inRange? (-n.toInt)
  | .number v => some (.number (-v))
  | _ => none

end EmbeddedScript

end MapStyling
