import MapStyling.Entries
import MapStyling.WebScript.Number
import MapStyling.WebScript.Term

/-!
# Values and Stores

The values of web scripts, and the store that objects live in.

Objects are shared: a value holds the address of an object and never the object
itself. Scopes live in the same store, since the functions written in a scope
share its variables. Cells are only ever added at the end, so an address that
was handed out stays good, and dropping the cells behind a mark takes away
exactly what came into being after it.

What every script finds there (the methods that objects inherit) is not in the
store. It cannot be changed and is known by name.

## Main definitions

* `Value`: Values.
* `Cell`: A scope or an object.
* `Store`: Cells by address, the global object first.
-/

namespace MapStyling

namespace WebScript

/-- Kinds of values that have methods in common. -/
inductive Family
  | object
  | function
  | array
  | string
  | number
  | boolean
  deriving DecidableEq

/-- Values. Inherited methods are known by the family and their name, and the
    objects that they are inherited from by the family. -/
inductive Value
  | undefined
  | null
  | boolean (b : Bool)
  | number (v : Float)
  | text (u : Units)
  | reference (address : Nat)
  | method (family : Family) (name : Units)
  | common (family : Family)
  deriving DecidableEq

/-- What may be written to a variable: any value, nothing, or nothing without a
    complaint. -/
inductive Mutability
  | mutable
  | constant
  | fixed
  deriving DecidableEq

/-- A variable. It has no value before its declaration is reached. -/
structure Variable where
  value : Option Value
  mutability : Mutability

/-- What an object is besides its properties. A function remembers the scopes
    that it was written in, innermost first, and what `this` was there. -/
inductive Shape
  | plain
  | array (length : Nat)
  | closure (f : Function) (scopes : List Nat) (self : Value)

/-- A scope or an object. An object inherits from its parent, which is `null` if
    there is none. -/
inductive Cell
  | scope (bindings : List (Units × Variable))
  | object (shape : Shape) (parent : Value) (properties : List (Units × Value))

/-- Cells by address. -/
structure Store where
  cells : Array Cell

namespace Value

/-- Address that a value holds. -/
def address? : Value → Option Nat
  | reference a => some a
  | _ => none

/-- Whether a value is an object, functions included. -/
def isObject : Value → Bool
  | reference _ | method _ _ | common _ => true
  | _ => false

/-- Whether a value is one of the two that stand for nothing. -/
def isNothing : Value → Bool
  | undefined | null => true
  | _ => false

/-- Truth of a value. -/
def truth : Value → Bool
  | undefined | null => false
  | boolean b => b
  | number v => !(v == 0.0 || v.isNaN)
  | text u => !u.isEmpty
  | reference _ | method _ _ | common _ => true

end Value

namespace Cell

/-- Addresses that a cell holds. -/
def addresses : Cell → List Nat
  | scope bindings => bindings.filterMap fun v => v.2.value.bind Value.address?
  | object shape parent properties =>
    let own := properties.filterMap (·.2.address?) ++ parent.address?.toList
    match shape with
    | .closure _ scopes self => scopes ++ self.address?.toList ++ own
    | _ => own

end Cell

namespace Store

/-- Address of the object whose properties are the global variables. -/
def globalObject : Nat := 0

/-- Address of the scope for what scripts declare outside of functions. -/
def scriptScope : Nat := 1

/-- A store before the first script. -/
def initial : Store :=
  ⟨#[.object .plain (.common .object) [], .scope []]⟩

def size (s : Store) : Nat := s.cells.size

/-- A new cell, and its address. -/
def add (s : Store) (c : Cell) : Nat × Store :=
  (s.size, ⟨s.cells.push c⟩)

/-- Changing a cell. -/
def modify (s : Store) (address : Nat) (f : Cell → Cell) : Store :=
  ⟨s.cells.modify address f⟩

/-- The variables of a scope. -/
def bindings (s : Store) (address : Nat) : List (Units × Variable) :=
  match s.cells[address]? with
  | some (.scope vs) => vs
  | _ => []

/-- The function of a closure, with its scopes and its `this`. -/
def closure? (s : Store) (v : Value) : Option (Function × List Nat × Value) :=
  match v with
  | .reference a => match s.cells[a]? with
    | some (.object (.closure f scopes self) _ _) => some (f, scopes, self)
    | _ => none
  | _ => none

/-- Length of an array, if the value is one. -/
def arrayLength? (s : Store) (v : Value) : Option Nat :=
  match v with
  | .reference a => match s.cells[a]? with
    | some (.object (.array n) _ _) => some n
    | _ => none
  | _ => none

/-- Whether a value can be called. -/
def isCallable (s : Store) (v : Value) : Bool :=
  match v with
  | .method _ _ => true
  | v => (s.closure? v).isSome

/-- The nearest variable of a name, and the scope it is in. -/
def resolve? (s : Store) (name : Units) : List Nat → Option (Nat × Variable)
  | [] => none
  | a :: outer => match (s.bindings a).lookup name with
    | some v => some (a, v)
    | none => resolve? s name outer

/-- Setting a variable of a scope. -/
def setVariable (s : Store) (address : Nat) (name : Units) (v : Variable) : Store :=
  s.modify address fun
    | .scope vs => .scope (Entries.put name v vs)
    | c => c

end Store

end WebScript

end MapStyling
