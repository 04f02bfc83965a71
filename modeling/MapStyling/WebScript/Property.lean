import MapStyling.WebScript.Store

/-!
# Properties

Reading and writing properties of values.

A property that an object does not have itself is looked for in its parent, and
so on up to an object without one. At the end of most chains stand the common
methods. The element of an array is the property under the digits of its
index, and its length follows the largest index.

## Main definitions

* `index?`: The array index that a name spells.
* `Store.property?`: The value of a property.
* `Store.setProperty?`: A store after a property was set.
-/

namespace MapStyling

namespace WebScript

/-- The array index that a name spells: digits without superfluous zeros, below
    4294967295. -/
def index? (name : Units) : Option Nat :=
  let s := name.chars
  if s.isEmpty || !s.all Char.isDigit then none
  else
    let n := Literal.digitsValue s
    if n < UInt32.size - 1 ∧ Units.ofString (Digits.text n) = name then some n else none

/-- The name that an index is stored under. -/
def indexName (i : Nat) : Units := Units.ofString (Digits.text i)

def lengthName : Units := Units.ofString "length"

def nameName : Units := Units.ofString "name"

/-- Name under which an object shows its parent. -/
def parentName : Units := Units.ofString "__proto__"

namespace Family

/-- Names of the methods that a family has in common. -/
def methods : Family → List String
  | object => ["constructor", "hasOwnProperty", "isPrototypeOf", "propertyIsEnumerable",
      "toLocaleString", "toString", "valueOf", "__defineGetter__", "__defineSetter__",
      "__lookupGetter__", "__lookupSetter__"]
  | function => ["constructor", "apply", "bind", "call", "toString"]
  | array => ["constructor", "at", "concat", "copyWithin", "entries", "every", "fill", "filter",
      "find", "findIndex", "findLast", "findLastIndex", "flat", "flatMap", "forEach", "includes",
      "indexOf", "join", "keys", "lastIndexOf", "map", "pop", "push", "reduce", "reduceRight",
      "reverse", "shift", "slice", "some", "sort", "splice", "toLocaleString", "toReversed",
      "toSorted", "toSpliced", "toString", "unshift", "values", "with"]
  | string => ["constructor", "at", "charAt", "charCodeAt", "codePointAt", "concat", "endsWith",
      "includes", "indexOf", "isWellFormed", "lastIndexOf", "localeCompare", "match", "matchAll",
      "normalize", "padEnd", "padStart", "repeat", "replace", "replaceAll", "search", "slice",
      "split", "startsWith", "substr", "substring", "toLocaleLowerCase", "toLocaleUpperCase",
      "toLowerCase", "toString", "toUpperCase", "toWellFormed", "trim", "trimEnd", "trimStart",
      "valueOf"]
  | number => ["constructor", "toExponential", "toFixed", "toLocaleString", "toPrecision",
      "toString", "valueOf"]
  | boolean => ["constructor", "toString", "valueOf"]

/-- A method of a family itself. -/
def method? (f : Family) (name : Units) : Option Value :=
  if f.methods.any fun m => Units.ofString m == name then some (.method f name) else none

end Family

/-- A property that an object has itself. -/
def Cell.own? (c : Cell) (name : Units) : Option Value :=
  match c with
  | .scope _ => none
  | .object shape _ properties =>
    match shape with
    | .plain => properties.lookup name
    | .array n =>
      if name = lengthName then some (.number (Double.ofInt n)) else properties.lookup name
    | .closure f _ _ =>
      if name = nameName then some (.text f.name)
      else if name = lengthName then some (.number (Double.ofInt f.parameters.length))
      else properties.lookup name

namespace Store

/-- What a value inherits from; `null` if there is nothing. -/
def parent (s : Store) : Value → Value
  | .undefined | .null => .null
  | .boolean _ => .common .boolean
  | .number _ => .common .number
  | .text _ => .common .string
  | .method _ _ => .common .function
  | .common .object => .null
  | .common _ => .common .object
  | .reference a => match s.cells[a]? with
    | some (.object _ p _) => p
    | _ => .null

/-- A property that a value has itself. -/
def own? (s : Store) (v : Value) (name : Units) : Option Value :=
  match v with
  | .reference a => (s.cells[a]?).bind (·.own? name)
  | .text u =>
    if name = lengthName then some (.number (Double.ofInt u.length))
    else (index? name).bind fun i => (u[i]?).map fun unit => .text [unit]
  | .method _ n => if name = nameName then some (.text n) else none
  | .common f => f.method? name
  | _ => none

/-- A property of a value or of what it inherits from, at most `fuel` parents up. -/
def lookUp (s : Store) (name : Units) : Nat → Value → Option Value
  | 0, _ => none
  | fuel + 1, v => match s.own? v name with
    | some found => some found
    | none => match s.parent v with
      | .null => none
      | p => lookUp s name fuel p

/-- More parents than any value has: those in the store, and the common ones. -/
def longestChain (s : Store) : Nat := s.size + 4

/-- Whether a value is one of the parents of another, or that one itself. -/
def isAbove (s : Store) (above : Value) : Nat → Value → Bool
  | 0, _ => false
  | fuel + 1, v => v = above || match s.parent v with
    | .null => false
    | p => isAbove s above fuel p

/-- Whether a value inherits what all objects have in common. -/
def isCommon (s : Store) (v : Value) : Bool :=
  s.isAbove (.common .object) s.longestChain v

/-- The value of a property. -/
def property? (s : Store) (v : Value) (name : Units) : Option Value :=
  match s.lookUp name s.longestChain v with
  | some found => some found
  | none => if name = parentName && s.isCommon v then some (s.parent v) else none

/-- Global variables that nothing can be written to. -/
def constants : List (Units × Value) :=
  [(Units.ofString "undefined", .undefined), (Units.ofString "NaN", .number Double.nan),
   (Units.ofString "Infinity", .number (Double.infinity false)),
   (Units.ofString "globalThis", .reference globalObject)]

/-- The value of a global variable. -/
def global? (s : Store) (name : Units) : Option Value :=
  (constants.lookup name).or (s.property? (.reference globalObject) name)

/-- An array cut or grown to a length. -/
def withLength (n : Nat) (properties : List (Units × Value)) : List (Units × Value) :=
  properties.filter fun p => (index? p.1).all (· < n)

/-- The length that a value asks for. -/
def lengthOf? (v : Value) : Option Nat :=
  let wanted := match v with
    | .number x => x
    | .text u => textNumber u
    | .boolean b => if b then 1.0 else 0.0
    | .null => 0.0
    | _ => Double.nan
  -- A length with a fraction, or out of range, is a fault and is not rounded.
  match Double.truncate wanted with
  | some n => if 0 ≤ n ∧ n < UInt32.size ∧ Double.ofInt n == wanted then some n.toNat else none
  | none => none

/-- An object after one of its own properties was set; nothing if that is a
    fault. -/
def setOwn? (name : Units) (v : Value) : Cell → Option Cell
  | .scope vs => some (.scope vs)
  | .object (.array n) parent properties =>
    if name = lengthName then
      (lengthOf? v).map fun n => .object (.array n) parent (withLength n properties)
    else
      -- A name that is no index is kept beside the elements and does not change the length.
      let grown := match index? name with
        | some i => max n (i + 1)
        | none => n
      some (.object (.array grown) parent (Entries.put name v properties))
  | .object (.closure f scopes self) parent properties =>
    -- Name and length of a function are read only, and a write to them is no fault.
    if name = nameName ∨ name = lengthName then
      some (.object (.closure f scopes self) parent properties)
    else some (.object (.closure f scopes self) parent (Entries.put name v properties))
  | .object .plain parent properties => some (.object .plain parent (Entries.put name v properties))

/-- A store after the parent of an object was set. Only objects and `null` can be
    parents, and an object is not put under itself. -/
def setParent? (s : Store) (address : Nat) (v : Value) : Option Store :=
  if v = .null ∨ v.isObject then
    -- Chains of parents thus end, and looking up a property does.
    if s.isAbove (.reference address) s.longestChain v then none
    else some <| s.modify address fun
      | .object shape _ properties => .object shape v properties
      | c => c
  else some s

/-- A store after a property was set; nothing if that is a fault. What is no
    object of the store takes no properties. -/
def setProperty? (s : Store) (target : Value) (name : Units) (v : Value) : Option Store :=
  match target with
  | .undefined | .null => none
  | .reference a =>
    -- Setting the parent is what the common object has under this name, so an own property comes
    -- first.
    if name = parentName && (s.own? target name).isNone && s.isCommon target then s.setParent? a v
    else if a = globalObject && (constants.lookup name).isSome then some s
    else match s.cells[a]? with
      | some c => (setOwn? name v c).map fun c => s.modify a fun _ => c
      | none => some s
  | _ => some s

end Store

end WebScript

end MapStyling
