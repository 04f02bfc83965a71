import MapStyling.Case.Outcome
import MapStyling.Proofs.Calls

/-!
# Runs of Cases

What the run of a case does, and what cases leave for the ones after them.

A run installs, compiles, shows and asks, in this order. What it shows is the keys
that have changed and the feature. Afterwards the feature is taken away, and
everything else stays.

A case that names no globals, or no zoom, finds what is left of earlier cases in
their place. What is left are the globals of the last case that named some, and
the zoom of the last one that named one and compiled. A run among others is the
run of a case that names what it finds.

## Main definitions

* `Case.built`, `Case.shown`: A session and its engine on the way to the question.
* `Leftover`: What cases leave for others.
* `Case.under`: A case that names what it finds.
* `Case.leave`: What is left when another case has run.
* `afterCases`: The styler that cases lead to.

## Theorems

* `Case.run_run`: The run of a case, in closed form.
* `Case.lasts_run`: What lasts from call to call lasts from case to case.
-/

namespace MapStyling

/-- The tree of some scene globals, if there are any. -/
def sceneTree (globals : List (String × String)) : Option SceneNode :=
  if globals.isEmpty then none
  else some (.mapping (globals.map fun g => (.scalar g.1, .scalar g.2)))

theorem tree?_sceneTree (globals : List (String × String)) :
    Seeding.tree? (sceneTree globals) = sceneTree globals := by
  unfold sceneTree
  split <;> rfl

theorem isSome_sceneTree (globals : List (String × String)) :
    (sceneTree globals).isSome = !globals.isEmpty := by
  cases globals <;> rfl

/-- The question that a key asks of the first function. -/
def CaseKey.question : CaseKey → Question
  | filter => .filter 0
  | style key => .style 0 key

/-- What comes out of an answer. -/
def Answer.text : Answer → String
  | done => ""
  | truth b => if b then "true" else "false"
  | value v => v.display

/-- Globals and a zoom that earlier cases have left. -/
structure Leftover where
  globals : List (String × String)
  zoom : Option Int

namespace Leftover

def nothing : Leftover := ⟨[], none⟩

/-- The sources in globals that are left. -/
def sources (l : Leftover) : List String :=
  ((sceneTree l.globals).map SceneNode.functionTexts).getD []

end Leftover

namespace Case

/-- The case that names what it finds where it names nothing itself. -/
def under (c : Case) (l : Leftover) : Case :=
  { c with
    globals := if c.globals.isEmpty then l.globals else c.globals
    zoom := c.zoom.or l.zoom }

/-- What is left after another case. One that does not compile ends before its zoom is
    set. -/
def leave (compiles : String → Bool) (l : Leftover) (c : Case) : Leftover :=
  ⟨(c.under l).globals, if compiles c.source then (c.under l).zoom else l.zoom⟩

theorem source_under (c : Case) (l : Leftover) : (c.under l).source = c.source := rfl

theorem under_nothing (c : Case) : c.under .nothing = c := by
  have hglobals : (if c.globals.isEmpty then [] else c.globals) = c.globals := by
    split
    · next h => exact (List.isEmpty_iff.mp h).symm
    · rfl
  unfold under Leftover.nothing
  rw [hglobals, Option.or_none]

/-- The sources that a case hands over, those in its globals included. -/
def sources (c : Case) : List String :=
  c.source :: (c.sceneGlobals.map SceneNode.functionTexts).getD []

theorem sceneGlobals_eq (c : Case) : c.sceneGlobals = sceneTree c.globals := rfl

/-- The globals of a case, or what it finds. -/
theorem sceneGlobals_under (c : Case) (l : Leftover) : (c.under l).sceneGlobals
    = if (Seeding.tree? c.sceneGlobals).isSome then c.sceneGlobals else sceneTree l.globals := by
  rw [sceneGlobals_eq, sceneGlobals_eq, tree?_sceneTree, isSome_sceneTree, under]
  cases c.globals <;> rfl

/-- The keys that have been passed on when a case has been shown. -/
def keys (c : Case) (cache : FilterCache) : FilterCache :=
  ⟨c.zoom.or cache.zoom, some c.geometry.code⟩

/-- The zoom of a case, or what it finds. -/
theorem keys_under (c : Case) {l : Leftover} {cache : FilterCache} (h : cache.zoom = l.zoom) :
    (c.under l).keys .empty = c.keys cache := by
  unfold keys under FilterCache.empty
  rw [h, Option.or_none]

section

variable {c : Case} {l : Leftover} {allowed : String → Prop}

theorem sources_left (hl : ∀ source ∈ l.sources, allowed source)
    (hc : ∀ source ∈ c.sources, allowed source) :
    ∀ source ∈ Leftover.sources ⟨(c.under l).globals, l.zoom⟩, allowed source := by
  intro source hmem
  change source ∈ (((c.under l).sceneGlobals.map SceneNode.functionTexts).getD []) at hmem
  rw [sceneGlobals_under] at hmem
  split at hmem
  · exact hc source (List.mem_cons_of_mem _ hmem)
  · exact hl source hmem

/-- A case hands over its own sources and those it finds. -/
theorem sources_under (hl : ∀ source ∈ l.sources, allowed source)
    (hc : ∀ source ∈ c.sources, allowed source) :
    ∀ source ∈ (c.under l).sources, allowed source := by
  intro source hmem
  rcases List.mem_cons.mp hmem with heq | hglobals
  · exact hc source (List.mem_cons.mpr (Or.inl heq))
  · exact sources_left hl hc source hglobals

/-- A case finds nothing if it names everything that is left. -/
theorem under_eq (hglobals : c.globals ≠ [] ∨ l.globals = [])
    (hzoom : c.zoom ≠ none ∨ l.zoom = none) : c.under l = c := by
  have hnamed : (if c.globals.isEmpty then l.globals else c.globals) = c.globals := by
    split
    · next hempty =>
      have hnil := List.isEmpty_iff.mp hempty
      rw [hnil, hglobals.resolve_left fun hne => hne hnil]
    · rfl
  have hlevel : c.zoom.or l.zoom = c.zoom := by
    rcases hc : c.zoom with _ | level
    · rw [hzoom.resolve_left fun hne => hne hc]
      rfl
    · rfl
  unfold under
  rw [hnamed, hlevel]

end

section

variable {σ : Type} [Engine σ]

/-- An engine that is passed a key, unless it was passed on before. -/
def passed (key : FilterKey) (value : Int) (cache : FilterCache) (e : σ) : σ :=
  if cache.get? key = some value then e
  else ((Engine.setFilterKey key value : StateM σ Unit).run e).2

/-- An engine that is shown the zoom of a case, if it names one. -/
def zoomed (c : Case) (cache : FilterCache) (e : σ) : σ :=
  match c.zoom with
  | some level => passed .zoom level cache e
  | none => e

/-- An engine that is shown what a case names. -/
def shown (c : Case) (cache : FilterCache) (e : σ) : σ :=
  passed .geometry c.geometry.code cache
    ((Engine.setFeature (some c.feature) : StateM σ Unit).run (c.zoomed cache e)).2

theorem run_setFilterKey {key : FilterKey} (hkey : key ≠ .other) (value : Int)
    (s : Styler (Session σ)) : ∃ scale, (Styler.setFilterKey key value).run s = ((), { s with
      backend := { s.backend with engine := passed key value s.cache s.backend.engine }
      cache := s.cache.set key value
      scale }) := by
  change ∃ scale, ((if key = .other ∨ s.cache.get? key = some value then _ else _ :
    StateM (Styler (Session σ)) Unit)).run s = _
  unfold passed
  by_cases hcached : s.cache.get? key = some value
  · rw [if_pos (Or.inr hcached), if_pos hcached]
    rw [FilterCache.set_of_get? hcached]
    exact ⟨s.scale, rfl⟩
  · rw [if_neg (not_or.mpr ⟨hkey, hcached⟩), if_neg hcached]
    exact ⟨_, rfl⟩

/-- What a run shows before its question. -/
def present {β : Type} [StyleBackend β] (c : Case) : StateM (Styler β) Unit := do
  if let some level := c.zoom then Styler.setFilterKey .zoom level
  Styler.setFeature c.feature

theorem run_present (c : Case) (s : Styler (Session σ)) :
    ∃ scale, c.present.run s = ((), { s with
      backend := { s.backend with engine := c.shown s.cache s.backend.engine }
      cache := c.keys s.cache
      scale }) := by
  have hfeature : ∀ s : Styler (Session σ), (Styler.setFeature c.feature).run s
      = (Styler.setFilterKey .geometry c.geometry.code).run { s with backend := { s.backend with
          engine := ((Engine.setFeature (some c.feature) : StateM σ Unit).run
            s.backend.engine).2 } } := fun _ => rfl
  unfold Case.present shown zoomed keys
  rcases c.zoom with _ | level
  · change ∃ scale, (Styler.setFeature c.feature).run s = _
    rw [hfeature]
    exact run_setFilterKey FilterKey.noConfusion _ _
  · change ∃ scale,
      (Styler.setFilterKey .zoom level >>= fun _ => Styler.setFeature c.feature).run s = _
    have hkey : FilterKey.zoom ≠ .other := FilterKey.noConfusion
    rcases run_setFilterKey hkey level s with ⟨_, hzoom⟩
    rw [run_bind_state, hzoom, hfeature]
    exact run_setFilterKey FilterKey.noConfusion _ _

/-- What lasts from call to call is true while a case is shown. -/
theorem lasts_shown {allowed : String → Prop} {P : σ → Prop} (h : Engine.Lasts allowed P)
    (c : Case) (cache : FilterCache) {e : σ} (he : P e) : P (c.shown cache e) := by
  have hpassed : ∀ (key : FilterKey) (n : Int) {e : σ}, P e → P (passed key n cache e) := by
    intro key n e he
    unfold passed
    split
    · exact he
    · exact h.setFilterKey key n e he
  have hzoomed : P (c.zoomed cache e) := by
    unfold zoomed
    rcases c.zoom with _ | level
    · exact he
    · exact hpassed .zoom level he
  exact hpassed .geometry _ (h.setFeature _ _ hzoomed)

/-- The answer to what a case asks. -/
theorem run_asked (key : CaseKey) (s : Styler (Session σ)) : (ask key).run s
    = ((key.question.ask.run s.backend).1.text, { s with
        backend := (key.question.ask.run s.backend).2 }) := by
  cases key <;> rfl

/-- The session with the globals and the function of a case, and whether that compiles. -/
def built (c : Case) (s : Session σ) : Bool × Session σ :=
  (Session.setFunctions [c.source]).run { s with
    engine := ((Seeding.installGlobals c.sceneGlobals).run s.engine).2 }

/-- The session when the question of a case is asked. -/
def asked (c : Case) (cache : FilterCache) (s : Session σ) : Session σ :=
  { s with engine := c.shown cache s.engine }

/-- What lasts from call to call is true when a case has been built. -/
theorem lasts_built {allowed : String → Prop} {P : σ → Prop} (h : Engine.Lasts allowed P)
    {c : Case} (hc : ∀ source ∈ c.sources, allowed source) {s : Session σ} (hs : P s.engine) :
    P (c.built s).2.engine := by
  refine h.setFunctions (fun source hmem => hc source ?_) (h.installGlobals _ (fun source hmem =>
    hc source (List.mem_cons_of_mem _ hmem)) _ hs)
  rw [List.mem_singleton.mp hmem]
  exact List.mem_cons_self

theorem run_run (c : Case) (s : Styler (Session σ)) : ∃ scale, c.run.run s =
    if (c.built s.backend).1 then
      let answered := c.key.question.ask.run (c.asked s.cache (c.built s.backend).2)
      (answered.1.text, { s with
        backend := { answered.2 with
          engine := ((Engine.setFeature none : StateM σ Unit).run answered.2.engine).2 }
        cache := c.keys s.cache
        scale })
    else (compileErrorText, { s with backend := (c.built s.backend).2 }) := by
  have hrun : c.run.run s = (do
      if !(← Styler.setFunctions [c.source]) then return compileErrorText
      if let some level := c.zoom then Styler.setFilterKey .zoom level
      Styler.setFeature c.feature
      let answer ← ask c.key
      Styler.clear
      return answer : StateM (Styler (Session σ)) String).run { s with backend := { s.backend with
        engine := ((Seeding.installGlobals c.sceneGlobals).run s.backend.engine).2 } } := rfl
  have hbuilt : (Styler.setFunctions [c.source]).run { s with backend := { s.backend with
        engine := ((Seeding.installGlobals c.sceneGlobals).run s.backend.engine).2 } }
      = ((c.built s.backend).1, { s with backend := (c.built s.backend).2 }) := rfl
  rw [hrun, run_bind_state, hbuilt]
  generalize c.built s.backend = built
  rcases built with ⟨_ | _, backend⟩
  · exact ⟨s.scale, rfl⟩
  · -- Zoom and feature are set between compiling and asking, which is what presenting a case is.
    have hrest : (do
        if let some level := c.zoom then Styler.setFilterKey .zoom level
        Styler.setFeature c.feature
        let answer ← ask c.key
        Styler.clear
        return answer : StateM (Styler (Session σ)) String)
      = (do
        c.present
        let answer ← ask c.key
        Styler.clear
        return answer) := by
      unfold Case.present
      rcases c.zoom with _ | level <;> rfl
    rcases c.run_present { s with backend } with ⟨scale, hpresent⟩
    refine ⟨scale, ?_⟩
    refine (congrArg (fun action => StateT.run (m := Id) action { s with backend }) hrest).trans ?_
    rw [run_bind_state, hpresent, run_bind_state, run_asked]
    rfl

/-- What lasts from call to call is true after the run of a case. -/
theorem lasts_run {allowed : String → Prop} {P : σ → Prop} (h : Engine.Lasts allowed P)
    {c : Case} (hc : ∀ source ∈ c.sources, allowed source) {s : Styler (Session σ)}
    (hs : P s.backend.engine) : P (c.run.run s).2.backend.engine := by
  have hbuilt := lasts_built h hc hs
  rcases c.run_run s with ⟨_, hrun⟩
  rw [hrun]
  split
  · exact h.setFeature _ _ (h.ask _ _ (c.lasts_shown h s.cache hbuilt))
  · exact hbuilt

/-- Runs with the same question come to the same if both compile or neither does, and if
    the question is answered alike. -/
theorem run_fst_eq {c d : Case} {s t : Styler (Session σ)} (hkey : d.key = c.key)
    (hbuilt : (d.built t.backend).1 = (c.built s.backend).1)
    (hanswer : (c.built s.backend).1 = true →
      (c.key.question.ask.run (d.asked t.cache (d.built t.backend).2)).1
        = (c.key.question.ask.run (c.asked s.cache (c.built s.backend).2)).1) :
    (d.run.run t).1 = (c.run.run s).1 := by
  rcases c.run_run s with ⟨_, hc⟩
  rcases d.run_run t with ⟨_, hd⟩
  rw [hc, hd, hbuilt, hkey]
  rcases hb : (c.built s.backend).1 with _ | _
  · rfl
  · rw [if_pos rfl, if_pos rfl]
    exact congrArg Answer.text (hanswer hb)

/-- A run that ends at once. -/
theorem run_of_not_compiled {c : Case} {s : Styler (Session σ)}
    (h : (c.built s.backend).1 = false) :
    c.run.run s = (compileErrorText, { s with backend := (c.built s.backend).2 }) := by
  rcases c.run_run s with ⟨_, hc⟩
  rw [hc, h]
  rfl

/-- A run whose question leaves the session as it was. -/
theorem run_of_compiled {c : Case} {s : Styler (Session σ)} (h : (c.built s.backend).1 = true)
    (hask : (c.key.question.ask.run (c.asked s.cache (c.built s.backend).2)).2
      = c.asked s.cache (c.built s.backend).2) :
    ∃ scale, c.run.run s
      = ((c.key.question.ask.run (c.asked s.cache (c.built s.backend).2)).1.text,
      { s with
        backend := { (c.built s.backend).2 with
          engine := ((Engine.setFeature none : StateM σ Unit).run
            (c.shown s.cache (c.built s.backend).2.engine)).2 }
        cache := c.keys s.cache
        scale }) := by
  rcases c.run_run s with ⟨scale, hc⟩
  refine ⟨scale, ?_⟩
  rw [hc, h, if_pos rfl]
  dsimp only
  rw [hask]
  rfl

end

end Case

/-- Whether a source compiles on an engine. -/
def Engine.compiles {σ : Type} [Engine σ] (e : σ) (source : String) : Bool :=
  ((Session.setFunctions [source]).run (Session.new e)).1

/-- The styler that cases lead to, one after the other. -/
def afterCases {β : Type} [StyleBackend β] (cases : List Case) (s : Styler β) : Styler β :=
  cases.foldl (fun s c => (c.run.run s).2) s

end MapStyling
