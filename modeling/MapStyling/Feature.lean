import MapStyling.Entries
import MapStyling.Number.Layout
import MapStyling.Text.Quoted

/-!
# Features

Map features as scripts see them: a kind of geometry and a bag of properties.

Properties are a finite map from names to scalars, held as a list whose names
strictly increase. The order makes the list canonical: two bags that hold the
same map are the same list, whatever was set and removed on the way.

A property can be present and hold nothing. It reads like an absent one, but
it is counted, listed and contained.

## Main definitions

* `Geometry`: The kinds of geometry and their codes.
* `PropertyValue`: Nothing, a text or a number.
* `Properties`: The bag, with `get`, `set`, `remove` and its list of entries.
* `Feature`: A geometry with properties.

## Theorems

* `Properties.get?_set_self`, `Properties.get?_set_of_ne`,
  `Properties.get?_remove_self`, `Properties.get?_remove_of_ne`: A bag is a map
  from names.
-/

namespace MapStyling

/-- Kinds of geometry. -/
inductive Geometry
  | unknown
  | points
  | lines
  | polygons
  deriving DecidableEq, Repr

namespace Geometry

/-- The number a kind is cached and passed on as. -/
def code : Geometry → Int
  | unknown => 0
  | points => 1
  | lines => 2
  | polygons => 3

def all : List Geometry := [unknown, points, lines, polygons]

/-- The kind with a code. -/
def ofCode? (n : Int) : Option Geometry :=
  all.find? fun g => g.code = n

/-- Name that scripts compare with. -/
def scriptName : Geometry → String
  | unknown => "unknown"
  | points => "point"
  | lines => "line"
  | polygons => "polygon"

/-- The kind with a name. -/
def ofScriptName? (s : String) : Option Geometry :=
  all.find? fun g => g.scriptName == s

/-- What scripts are told for a code; codes without a kind are unknown. -/
def nameOfCode (n : Int) : String :=
  ((ofCode? n).getD unknown).scriptName

end Geometry

/-- A property: nothing, a text or a number. -/
inductive PropertyValue
  | nothing
  | text (s : String)
  | number (v : Float)
  deriving DecidableEq

namespace PropertyValue

def display : PropertyValue → String
  | nothing => "none"
  | text s => Text.quoted s
  | number v => NumberFormat.plain.double v

def text? : PropertyValue → Option String
  | text s => some s
  | _ => none

def number? : PropertyValue → Option Float
  | number v => some v
  | _ => none

/-- Equality of values: of numbers as numbers, so that NaN differs from itself
    and the two zeros are one. -/
def same : PropertyValue → PropertyValue → Bool
  | nothing, nothing => true
  | text s, text t => s == t
  | number v, number w => v == w
  | _, _ => false

end PropertyValue

/-- Properties by name. The names of the entries strictly increase in all bags
    that are built from `empty`. -/
structure Properties where
  entries : List (String × PropertyValue)

namespace Properties

def empty : Properties := ⟨[]⟩

def set (p : Properties) (name : String) (value : PropertyValue) : Properties :=
  ⟨Entries.insert name value p.entries⟩

/-- The value under a name. -/
def get? (p : Properties) (name : String) : Option PropertyValue :=
  p.entries.lookup name

/-- The value under a name, nothing when it is absent. -/
def get (p : Properties) (name : String) : PropertyValue :=
  (p.get? name).getD .nothing

def contains (p : Properties) (name : String) : Bool :=
  (p.get? name).isSome

/-- The bag without a name. -/
def remove (p : Properties) (name : String) : Properties :=
  ⟨p.entries.filter fun e => e.1 != name⟩

def size (p : Properties) : Nat := p.entries.length

def isEmpty (p : Properties) : Bool := p.entries.isEmpty

/-- Entries set one after the other. -/
def ofList (entries : List (String × PropertyValue)) : Properties :=
  entries.foldl (fun p e => p.set e.1 e.2) empty

/-- Same names with the same values. -/
def same (p q : Properties) : Bool :=
  p.size = q.size &&
    (p.entries.zip q.entries).all fun (a, b) => a.1 == b.1 && a.2.same b.2

theorem get?_set_self (p : Properties) (name : String) (value : PropertyValue) :
    (p.set name value).get? name = some value :=
  Entries.lookup_insert_self name value p.entries

theorem get?_set_of_ne (p : Properties) {name other : String} (value : PropertyValue)
    (hne : other ≠ name) : (p.set name value).get? other = p.get? other :=
  Entries.lookup_insert_of_ne value hne p.entries

theorem get?_remove_self (p : Properties) (name : String) : (p.remove name).get? name = none := by
  obtain ⟨entries⟩ := p
  simp only [remove, get?]
  induction entries with
  | nil => rfl
  | cons e rest ih =>
    obtain ⟨n, v⟩ := e
    rw [List.filter_cons]
    split
    · next he =>
      rw [List.lookup_cons, beq_eq_false_iff_ne.mpr (Ne.symm (bne_iff_ne.mp he))]
      exact ih
    · exact ih

theorem get?_remove_of_ne (p : Properties) {name other : String} (hne : other ≠ name) :
    (p.remove name).get? other = p.get? other := by
  obtain ⟨entries⟩ := p
  simp only [remove, get?]
  induction entries with
  | nil => rfl
  | cons e rest ih =>
    obtain ⟨n, v⟩ := e
    rw [List.filter_cons]
    split
    · simp only [List.lookup_cons, ih]
    · next he =>
      have hn : n = name := by simpa only [bne_iff_ne, ne_eq, Decidable.not_not] using he
      rw [ih, List.lookup_cons, beq_eq_false_iff_ne.mpr (by rw [hn]; exact hne)]

end Properties

/-- A map feature. -/
structure Feature where
  geometry : Geometry
  properties : Properties

/-- Dimensions of a context that filters test. `other` stands for all that is
    neither cached nor passed on. -/
inductive FilterKey
  | other
  | zoom
  | geometry
  deriving DecidableEq, Repr

namespace FilterKey

def all : List FilterKey := [other, zoom, geometry]

/-- Slot in a cache of all keys. -/
def index : FilterKey → Nat
  | other => 0
  | zoom => 1
  | geometry => 2

def name : FilterKey → String
  | other => "other"
  | zoom => "zoom"
  | geometry => "geometry"

def ofName? (s : String) : Option FilterKey :=
  all.find? fun k => k.name == s

end FilterKey

end MapStyling
