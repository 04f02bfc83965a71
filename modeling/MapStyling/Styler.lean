import MapStyling.Session.Basic

/-!
# Stylers

The entry point of a renderer: a backend behind a cache of filter keys.

A styler passes calls on to its backend. What it adds is a memory of the
filter keys, so that a key that has not changed never reaches the backend, and
the area of a pixel. The area hangs on the zoom alone, so it is worked out when
a zoom is passed on and kept until the next one.

## Main definitions

* `metersPerPixel`: Resolution at a zoom.
* `FilterCache`: Keys as they were last passed on.
* `ZoomScale`: A zoom and the area of a pixel at it.
* `Styler`: A backend with its cache.

## Theorems

* `FilterCache.get?_set_self`, `FilterCache.get?_set_of_ne`: A key is remembered
  by itself.
-/

namespace MapStyling

/-- Circumference of the equator in meters, on the sphere of map tiles. -/
def equatorLength : Float := 40075016.68557849

/-- Edge of a tile in pixels, unless it is given. -/
def standardTileSize : Float := 256.0

/-- Meters on the ground under one pixel. -/
def metersPerPixel (zoom tileSize : Float) : Float :=
  equatorLength * (-zoom).exp2 / tileSize

/-- Keys as they were last passed on. -/
structure FilterCache where
  zoom : Option Int
  geometry : Option Int

namespace FilterCache

def empty : FilterCache := ⟨none, none⟩

def get? (c : FilterCache) : FilterKey → Option Int
  -- A key that nothing is known of is never remembered.
  | .other => none
  | .zoom => c.zoom
  | .geometry => c.geometry

def set (c : FilterCache) (key : FilterKey) (value : Int) : FilterCache :=
  match key with
  | .other => c
  | .zoom => { c with zoom := some value }
  | .geometry => { c with geometry := some value }

theorem get?_set_self (c : FilterCache) {key : FilterKey} (value : Int) (hne : key ≠ .other) :
    (c.set key value).get? key = some value := by
  cases key with
  | other => exact absurd rfl hne
  | zoom => rfl
  | geometry => rfl

/-- Remembering what is remembered changes nothing. -/
theorem set_of_get? {c : FilterCache} {key : FilterKey} {value : Int}
    (h : c.get? key = some value) : c.set key value = c := by
  rcases c with ⟨zoom, geometry⟩
  cases key with
  | other => rfl
  | zoom => exact congrArg (FilterCache.mk · geometry) h.symm
  | geometry => exact congrArg (FilterCache.mk zoom) h.symm

theorem get?_set_of_ne (c : FilterCache) {key asked : FilterKey} (value : Int)
    (hne : asked ≠ key) : (c.set key value).get? asked = c.get? asked := by
  cases key <;> cases asked <;> simp_all only [ne_eq, not_true_eq_false, set, get?]

end FilterCache

/-- A zoom, and the square meters under a pixel at it. -/
structure ZoomScale where
  level : Int
  pixelArea : Float

namespace ZoomScale

/-- What stands for a zoom before there is one. -/
def initial : ZoomScale := ⟨0, 1.0⟩

def ofZoom (tileSize : Float) (zoom : Int) : ZoomScale :=
  let edge := metersPerPixel (Double.ofInt zoom) tileSize
  ⟨zoom, edge * edge⟩

end ZoomScale

/-- A backend with the cache in front of it. -/
structure Styler (β : Type) where
  backend : β
  cache : FilterCache
  scale : ZoomScale
  tileSize : Float

namespace Styler

variable {β : Type}

/-- A styler that has passed nothing on yet. -/
def new (backend : β) (tileSize : Float) : Styler β := ⟨backend, .empty, .initial, tileSize⟩

/-- The key as it was last passed on. -/
def filterKey (s : Styler β) (key : FilterKey) : Option Int := s.cache.get? key

/-- The zoom as it was last passed on, zero before. -/
def zoomLevel (s : Styler β) : Int := s.scale.level

/-- Square meters under a pixel, one before a zoom is passed on. -/
def pixelAreaScale (s : Styler β) : Float := s.scale.pixelArea

/-- A call of the backend. -/
def run {α : Type} (action : StateM β α) : StateM (Styler β) α := fun s =>
  let (answer, backend) := action s.backend
  (answer, { s with backend })

variable [StyleBackend β]

/-- Pass a key on if it has changed. -/
def setFilterKey (key : FilterKey) (value : Int) : StateM (Styler β) Unit := do
  if key = .other ∨ (← get).filterKey key = some value then return
  modify fun s => { s with
    cache := s.cache.set key value
    -- The scale depends on the zoom alone and is made anew with it.
    scale := if key = .zoom then .ofZoom s.tileSize value else s.scale }
  run (StyleBackend.setFilterKey key value)

/-- Show a feature and pass its kind of geometry on. -/
def setFeature (feature : Feature) : StateM (Styler β) Unit := do
  run (StyleBackend.setFeature feature)
  setFilterKey .geometry feature.geometry.code

def clear : StateM (Styler β) Unit := run StyleBackend.clear

def initFunctions (scene : Scene) : StateM (Styler β) Unit :=
  run (StyleBackend.initFunctions scene)

def setFunctions (sources : List String) : StateM (Styler β) Bool :=
  run (StyleBackend.setFunctions sources)

def addFunction (source : String) : StateM (Styler β) Bool :=
  run (StyleBackend.addFunction source)

def setGlobals (globals : Option SceneNode) : StateM (Styler β) Unit :=
  run (StyleBackend.setGlobals globals)

def evalFilter (index : Nat) : StateM (Styler β) Bool :=
  run (StyleBackend.evalFilter index)

def evalStyle (index : Nat) (key : StyleKey) : StateM (Styler β) StyleValue :=
  run (StyleBackend.evalStyle index key)

/-- A styler stands wherever a backend does. -/
instance : StyleBackend (Styler β) where
  initFunctions := initFunctions
  setFunctions := setFunctions
  addFunction := addFunction
  setGlobals := setGlobals
  setFilterKey := setFilterKey
  setFeature := setFeature
  clear := clear
  evalFilter := evalFilter
  evalStyle := evalStyle

end Styler

end MapStyling
