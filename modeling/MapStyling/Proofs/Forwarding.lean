import MapStyling.Proofs.Calls
import MapStyling.Styler

/-!
# Forwarding

What reaches the backend of a styler, whatever the backend is.

A styler hands every call on as it comes, but for filter keys. A key reaches the
backend if it is one that filters test and if the value that the backend was last
given for it is another one. Showing a feature is two calls, the feature and its
kind of geometry as a key, and the second is under the same rule as a key that
was set by hand. So the two ways of setting the geometry cannot get out of step.

The rule is stated here over the calls that the backend has received, and not over
the cache. What carries the proof is that the cache says the same: a key is cached
with the value that was last delivered for it, and the scale is that of the last
zoom delivered.

## Main definitions

* `Recorder`: A backend that keeps the calls it receives.
* `lastDelivered`: The last value for a key among some calls.
* `Call.forwarded`, `forwardedCalls`: What a call is for a backend that has received
  others, and what some calls are one after the other.
* `Styler.Behind`: Stylers whose cache is what their backend has received.

## Theorems

* `Recorder.after_eq`: A recorder keeps the calls and does what they do.
* `Styler.Behind.perform`: Every call keeps the cache behind the backend.
* `calls_forwarded`: What the backend of a styler receives, and what the styler says
  about it.
-/

namespace MapStyling

/-- A backend that keeps the calls it receives, the latest last. -/
structure Recorder (β : Type) where
  backend : β
  received : List Call

namespace Recorder

variable {β : Type}

/-- A recorder that nothing has reached. -/
def new (backend : β) : Recorder β := ⟨backend, []⟩

/-- An operation of the backend, kept as the call that it is. -/
def keep {α : Type} (c : Call) (action : StateM β α) : StateM (Recorder β) α := fun r =>
  let (answer, backend) := action r.backend
  (answer, ⟨backend, r.received ++ [c]⟩)

variable [StyleBackend β]

instance : StyleBackend (Recorder β) where
  initFunctions scene := keep (.initFunctions scene) (StyleBackend.initFunctions scene)
  setFunctions sources := keep (.setFunctions sources) (StyleBackend.setFunctions sources)
  addFunction source := keep (.addFunction source) (StyleBackend.addFunction source)
  setGlobals globals := keep (.setGlobals globals) (StyleBackend.setGlobals globals)
  setFilterKey key value := keep (.setFilterKey key value) (StyleBackend.setFilterKey key value)
  setFeature feature := keep (.setFeature feature) (StyleBackend.setFeature feature)
  clear := keep .clear StyleBackend.clear
  evalFilter index := keep (.ask (.filter index)) (StyleBackend.evalFilter index)
  evalStyle index key := keep (.ask (.style index key)) (StyleBackend.evalStyle index key)

theorem run_perform (c : Call) (r : Recorder β) : c.perform.run r
    = ((c.perform.run r.backend).1, ⟨(c.perform.run r.backend).2, r.received ++ [c]⟩) := by
  cases c with
  | ask question => cases question <;> rfl
  | _ => rfl

/-- A recorder keeps the calls and does what they do. -/
theorem after_eq (calls : List Call) (r : Recorder β) :
    after calls r = ⟨after calls r.backend, r.received ++ calls⟩ := by
  induction calls generalizing r with
  | nil => rw [List.append_nil]; rfl
  | cons c calls ih =>
      rw [after_cons, run_perform, ih, List.append_assoc, List.singleton_append]
      rfl

end Recorder

/-- The value that a call delivers for a key. -/
def Call.delivered? (key : FilterKey) : Call → Option Int
  | setFilterKey k value => if k = key then some value else none
  | _ => none

/-- The last value that calls deliver for a key. -/
def lastDelivered (key : FilterKey) (calls : List Call) : Option Int :=
  (calls.filterMap (Call.delivered? key)).getLast?

/-- The calls that a key is for a backend that has received others. -/
def forwardedKey (received : List Call) (key : FilterKey) (value : Int) : List Call :=
  if key = .other ∨ lastDelivered key received = some value then []
  else [.setFilterKey key value]

/-- The calls that a call is for a backend that has received others. -/
def Call.forwarded (received : List Call) : Call → List Call
  | setFilterKey key value => forwardedKey received key value
  | setFeature feature =>
    setFeature feature :: forwardedKey received .geometry feature.geometry.code
  | c => [c]

/-- The calls that some calls are for a backend, one after the other. -/
def forwardedCalls (calls : List Call) : List Call :=
  calls.foldl (fun received c => received ++ c.forwarded received) []

theorem lastDelivered_append_of_none {key : FilterKey} {c : Call} (h : c.delivered? key = none)
    (calls : List Call) : lastDelivered key (calls ++ [c]) = lastDelivered key calls := by
  rw [lastDelivered, List.filterMap_append, List.filterMap_cons_none h, List.filterMap_nil,
    List.append_nil, lastDelivered]

theorem lastDelivered_append_self (key : FilterKey) (value : Int) (calls : List Call) :
    lastDelivered key (calls ++ [.setFilterKey key value]) = some value := by
  have hdelivered : Call.delivered? key (.setFilterKey key value) = some value := if_pos rfl
  rw [lastDelivered, List.filterMap_append, List.filterMap_cons_some hdelivered,
    List.filterMap_nil, List.getLast?_concat]

/-- What is said of the zoom that was last delivered. -/
def ZoomScale.ofLast (tileSize : Float) : Option Int → ZoomScale
  | none => .initial
  | some zoom => .ofZoom tileSize zoom

namespace Styler

variable {β : Type} [StyleBackend β]

/-- A styler whose backend has come from a state by some calls, and whose cache says what
    they have delivered. -/
structure Behind (start : β) (tileSize : Float) (received : List Call) (s : Styler β) : Prop where
  backend : s.backend = after received start
  keys : ∀ key, s.cache.get? key = lastDelivered key received
  scale : s.scale = .ofLast tileSize (lastDelivered .zoom received)
  tileSize_eq : s.tileSize = tileSize

variable {start : β} {tileSize : Float} {received : List Call} {s : Styler β}

theorem behind_new (start : β) (tileSize : Float) :
    Behind start tileSize [] (new start tileSize) where
  backend := rfl
  keys := by
    intro key
    cases key <;> rfl
  scale := rfl
  tileSize_eq := rfl

/-- A call that delivers no key and goes through as it is. -/
theorem Behind.run (h : Behind start tileSize received s) {c : Call}
    (hc : ∀ key, c.delivered? key = none) : Behind start tileSize (received ++ [c])
      { s with backend := (c.perform.run s.backend).2 } where
  backend := by
    change (c.perform.run s.backend).2 = after (received ++ [c]) start
    rw [h.backend, after, after, List.foldl_append]
    rfl
  keys := by
    intro key
    rw [lastDelivered_append_of_none (hc key)]
    exact h.keys key
  scale := by
    rw [lastDelivered_append_of_none (hc .zoom)]
    exact h.scale
  tileSize_eq := h.tileSize_eq

/-- A key that is passed on is cached, and a zoom changes the scale. -/
theorem Behind.pass (h : Behind start tileSize received s) {key : FilterKey}
    (hkey : key ≠ .other) (value : Int) :
    Behind start tileSize (received ++ [.setFilterKey key value])
      { s with
        backend := ((Call.setFilterKey key value).perform.run s.backend).2
        cache := s.cache.set key value
        scale := if key = .zoom then .ofZoom s.tileSize value else s.scale } where
  backend := by
    change ((Call.setFilterKey key value).perform.run s.backend).2 = after (received ++ [_]) start
    rw [h.backend, after, after, List.foldl_append]
    rfl
  keys := by
    intro asked
    change (s.cache.set key value).get? asked = _
    -- The key that is passed on was delivered last, and other keys were not delivered by it.
    by_cases hasked : asked = key
    · subst hasked
      rw [FilterCache.get?_set_self s.cache value hkey, lastDelivered_append_self]
    · have hother : Call.delivered? asked (.setFilterKey key value) = none :=
        if_neg fun heq => hasked heq.symm
      rw [FilterCache.get?_set_of_ne s.cache value hasked, lastDelivered_append_of_none hother]
      exact h.keys asked
  scale := by
    change (if key = .zoom then ZoomScale.ofZoom s.tileSize value else s.scale) = _
    by_cases hzoom : key = .zoom
    · subst hzoom
      rw [if_pos rfl, lastDelivered_append_self, h.tileSize_eq]
      rfl
    · have hother : Call.delivered? .zoom (.setFilterKey key value) = none := if_neg hzoom
      rw [if_neg hzoom, lastDelivered_append_of_none hother]
      exact h.scale
  tileSize_eq := h.tileSize_eq

/-- A key reaches the backend unless it is the value that was delivered last. -/
theorem Behind.setFilterKey (h : Behind start tileSize received s) (key : FilterKey)
    (value : Int) : Behind start tileSize (received ++ forwardedKey received key value)
      ((Styler.setFilterKey key value).run s).2 := by
  have hrun : (Styler.setFilterKey key value).run s
      = if key = .other ∨ s.cache.get? key = some value then ((), s)
        else ((), { s with
          backend := ((Call.setFilterKey key value).perform.run s.backend).2
          cache := s.cache.set key value
          scale := if key = .zoom then .ofZoom s.tileSize value else s.scale }) := by
    change (if key = .other ∨ s.cache.get? key = some value then _ else _ :
      StateM (Styler β) Unit).run s = _
    split <;> rfl
  -- The cache decides as the calls received do, since it says what they delivered.
  rw [hrun, h.keys key, forwardedKey]
  by_cases hdropped : key = .other ∨ lastDelivered key received = some value
  · rw [if_pos hdropped, if_pos hdropped, List.append_nil]
    exact h
  · rw [if_neg hdropped, if_neg hdropped]
    exact h.pass (fun heq => hdropped (Or.inl heq)) value

/-- Every call keeps the cache behind what the backend has received. -/
theorem Behind.perform (h : Behind start tileSize received s) (c : Call) :
    Behind start tileSize (received ++ c.forwarded received) (c.perform.run s).2 := by
  cases c with
  | setFilterKey key value => exact h.setFilterKey key value
  | setFeature feature =>
      -- The feature delivers no key, so the rule for its geometry is that of before it.
      have hfeature := h.run (c := .setFeature feature) fun _ => rfl
      have hkey : forwardedKey (received ++ [.setFeature feature]) .geometry feature.geometry.code
          = forwardedKey received .geometry feature.geometry.code := by
        rw [forwardedKey, forwardedKey, lastDelivered_append_of_none rfl]
      have hboth := hfeature.setFilterKey .geometry feature.geometry.code
      rw [hkey, List.append_assoc, List.singleton_append] at hboth
      exact hboth
  | ask question => cases question <;> exact h.run fun _ => rfl
  | _ => exact h.run fun _ => rfl

theorem Behind.after (h : Behind start tileSize received s) (calls : List Call) :
    Behind start tileSize
      (calls.foldl (fun received c => received ++ c.forwarded received) received)
      (after calls s) := by
  induction calls generalizing received s with
  | nil => exact h
  | cons c calls ih => exact ih (h.perform c)

/-- Whatever is asked of a styler, the answer is that of its backend. -/
theorem run_perform_fst (c : Call) (s : Styler β) :
    (c.perform.run s).1 = (c.perform.run s.backend).1 := by
  cases c with
  | ask question => cases question <;> rfl
  | _ => rfl

end Styler

/-- The backend of a styler receives the calls on the styler in their order, but a filter
    key only if it is one that filters test and if its value is not the one that was
    delivered last, and the geometry of a feature as such a key behind the feature. It
    answers for the styler. The keys that a styler knows are those that were delivered
    last, its zoom is the last one delivered, and the area of a pixel is that at this
    zoom. Calls that set no key leave all of this alone. -/
theorem calls_forwarded {β : Type} [StyleBackend β] (start : β) (tileSize : Float)
    (calls : List Call) :
    let s := after calls (Styler.new start tileSize)
    let received := (after calls (Styler.new (Recorder.new start) tileSize)).backend.received
    received = forwardedCalls calls ∧
      s.backend = after received start ∧
      (∀ key, s.filterKey key = lastDelivered key received) ∧
      s.filterKey .other = none ∧
      s.zoomLevel = (lastDelivered .zoom received).getD 0 ∧
      s.pixelAreaScale = (match lastDelivered .zoom received with
        | none => 1.0
        | some zoom => metersPerPixel (Double.ofInt zoom) tileSize
            * metersPerPixel (Double.ofInt zoom) tileSize) ∧
      ∀ c : Call, (c.perform.run s).1 = (c.perform.run s.backend).1 ∧ match c with
        | .setFilterKey _ _ | .setFeature _ => True
        | c => (c.perform.run s).2 = { s with backend := (c.perform.run s.backend).2 } := by
  intro s received
  -- The recorder receives what any backend would, and says what that was.
  have hrecorded := (Styler.behind_new (Recorder.new start) tileSize).after calls
  have hreceived : received = forwardedCalls calls := by
    have hbackend := congrArg Recorder.received hrecorded.backend
    rw [Recorder.after_eq] at hbackend
    exact hbackend
  have hbehind : Styler.Behind start tileSize (forwardedCalls calls) s :=
    (Styler.behind_new start tileSize).after calls
  rw [← hreceived] at hbehind
  refine ⟨hreceived, hbehind.backend, hbehind.keys, rfl, ?_, ?_, fun c => ?_⟩
  · rw [Styler.zoomLevel, hbehind.scale]
    rcases lastDelivered .zoom received with _ | zoom <;> rfl
  · rw [Styler.pixelAreaScale, hbehind.scale]
    rcases lastDelivered .zoom received with _ | zoom <;> rfl
  · -- Only the two calls that can set a key change more than the backend.
    refine ⟨Styler.run_perform_fst c s, ?_⟩
    cases c with
    | setFilterKey key value => exact trivial
    | setFeature feature => exact trivial
    | ask question => cases question <;> rfl
    | _ => rfl

end MapStyling
