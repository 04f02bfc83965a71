import MapStyling.Interpreters
import MapStyling.Proofs.EmbeddedEngine.Scenes
import MapStyling.Proofs.EmbeddedScript.Laws
import MapStyling.Proofs.Kinds
import MapStyling.Proofs.WebEngine.Scenes
import MapStyling.Proofs.WebScript.Looks

/-!
# Replacing Scenes

What is left of earlier scenes when a session comes to a new one.

The functions of the new scene take the place of the old ones, and so does its
tree of globals, if it has one. A scene without a tree leaves the globals of the
one before where they are. So a scene is what it would be in a new session if it
has a tree, or if there have been no globals yet, and in no other case.

In a language of web pages a source is a script of its own, which is run when it is
compiled. What is said there is said of scenes whose sources make values and do
nothing else, as function expressions do, while other scripts may have done anything
before. And what is said of values is what they look like, since every context has
objects of its own.

## Main definitions

* `BackendKind.SameGlobals`: Engines whose scripts find the same globals.
* `BackendKind.SameScene`: Engines with the same functions and the same globals.

## Theorems

* `scene_replaced_iff`: When a new scene replaces what was there before.
-/

namespace MapStyling

namespace BackendKind

variable [Languages] {S inert : String → Prop}

/-- Engines whose scripts find the same globals, or globals that look the same. -/
def SameGlobals (hL : Languages.web.LookLaws S inert globalName) :
    (k : BackendKind) → k.EngineState → k.EngineState → Prop
  | web => WebEngine.SameGlobals hL.look
  | embedded => EmbeddedEngine.SameGlobals

/-- Engines with the same functions and the same globals, or with some that look the same. -/
def SameScene (hL : Languages.web.LookLaws S inert globalName) :
    (k : BackendKind) → k.EngineState → k.EngineState → Prop
  | web => WebEngine.SameScene hL.look
  | embedded => EmbeddedEngine.SameScene

end BackendKind

/-- A scene that a session has not come from looks as it does in a new session if and
    only if it has a tree of globals or no globals are left. Without a tree, what is left
    of the globals stays. -/
theorem scene_replaced_iff [Languages] {S inert : String → Prop}
    (hweb : Languages.web.LookLaws S inert globalName)
    (hembedded : Languages.embedded.VariableLaws) (k : BackendKind) (calls : List Call)
    (hcalls : ∀ c ∈ calls, ∀ source ∈ c.sources, k.Allows S source) (scene : Scene)
    (hscene : ∀ source ∈ scene.sources, k.Allows inert source)
    (hid : (after calls (Session.new k.newEngine)).sceneId ≠ some scene.id) :
    let s := after calls (Session.new k.newEngine)
    let used := after [.initFunctions scene] s
    let fresh := after [.initFunctions scene] (Session.new k.newEngine)
    used.sceneId = fresh.sceneId ∧ used.functionCount = fresh.functionCount ∧
      (k.SameScene hweb fresh.engine used.engine ↔
        (Seeding.tree? scene.globals).isSome = true ∨ k.SameGlobals hweb k.newEngine s.engine) ∧
      (Seeding.tree? scene.globals = none → k.SameGlobals hweb s.engine used.engine) := by
  intro s used fresh
  have hused : used = ((Session.initFunctions scene).run s).2 := rfl
  have hfresh : fresh = ((Session.initFunctions scene).run (Session.new k.newEngine)).2 := rfl
  have hid' : (Session.new k.newEngine).sceneId ≠ some scene.id := by
    intro heq
    cases heq
  have hcounts : used.sceneId = fresh.sceneId ∧ used.functionCount = fresh.functionCount := by
    rw [hused, hfresh, Session.run_initFunctions_of_ne hid, Session.run_initFunctions_of_ne hid']
    exact ⟨rfl, rfl⟩
  refine ⟨hcounts.1, hcounts.2, ?_⟩
  -- What the engines are left with differs by language, but both rest between calls.
  cases k with
  | web =>
      have hrest := WebEngine.Resting.after hcalls (s := Session.new WebEngine.new)
        (WebEngine.resting_new (L := Languages.web))
      exact WebEngine.sameScene_iff hweb hrest hscene hid
  | embedded =>
      have hrest := EmbeddedEngine.lasts_resting.after calls (fun _ _ _ _ => trivial)
        (Session.new EmbeddedEngine.new) (EmbeddedEngine.resting_new (L := Languages.embedded))
      exact EmbeddedEngine.sameScene_iff hembedded hrest hid

/-- A scene with one global. -/
def namedScene : Scene :=
  ⟨1, .mapping [(.scalar globalName, .mapping [(.scalar "n", .scalar "a")])], []⟩

/-- A scene without globals whose function reads the one that is left. -/
def namelessScene : Scene := ⟨2, .null, ["function () { return globals.n; }"]⟩

section

open scoped Interpreters

theorem scene_not_replaced_namelessScene :
    let calls := [Call.initFunctions namedScene]
    let s := after calls (Session.new BackendKind.embedded.newEngine)
    (∀ c ∈ calls, ∀ source ∈ c.sources, BackendKind.embedded.Allows (fun _ => True) source) ∧
      (∀ source ∈ namelessScene.sources, BackendKind.embedded.Allows WebScript.Inert source) ∧
      s.sceneId ≠ some namelessScene.id ∧
      ¬ BackendKind.embedded.SameScene WebScript.lookLaws
        (after [.initFunctions namelessScene] (Session.new BackendKind.embedded.newEngine)).engine
        (after [.initFunctions namelessScene] s).engine := by
  intro calls s
  have hcalls : ∀ c ∈ calls, ∀ source ∈ c.sources,
      BackendKind.embedded.Allows (fun _ => True) source := fun _ _ _ _ => trivial
  have hscene : ∀ source ∈ namelessScene.sources,
      BackendKind.embedded.Allows WebScript.Inert source := fun _ _ => trivial
  have hid : s.sceneId ≠ some namelessScene.id := by
    decide
  refine ⟨hcalls, hscene, hid, fun hsame => ?_⟩
  have hiff := (scene_replaced_iff WebScript.lookLaws EmbeddedScript.variableLaws .embedded calls
    hcalls namelessScene hscene hid).2.2.1
  rcases hiff.mp hsame with htree | hglobals
  · exact absurd htree (by decide)
  · -- The globals are an object on the one engine and nothing on the other.
    have hkinds := congrArg (Option.map EmbeddedScript.Value.kind) hglobals.2
    exact absurd hkinds (by decide)

end

end MapStyling
