import MapStyling.Proofs.EmbeddedEngine.Scenes

/-!
# Installs on Engines of Embedded Scripts

What calls have installed in a session, as a reader of the calls would write it down.

A tree of globals is installed by setting globals and by a scene that is not shown
already, and each tree takes the place of the one before. A function is compiled over
the library as it is, and it takes this library along. So the functions that were there
when a tree was installed do not have its library, and the functions that come after
it do. This is kept beside each source.

The variable that holds the globals is open to scripts. It holds the value of the last
tree as long as no script has set it since.

## Main definitions

* `Installs`: A scene, a tree of globals, and the sources of functions.
* `Installs.of`: What calls have installed.
* `EmbeddedEngine.Follows`: Sessions in which something was installed.
* `EmbeddedEngine.Untouched`: Calls after which no script has set the globals.

## Theorems

* `EmbeddedEngine.Follows.perform`: Every call installs what it says.
* `EmbeddedEngine.follows_after`: Every reachable session is as its calls say.
* `EmbeddedEngine.globals_of_untouched`: What the variable of the globals holds.
-/

namespace MapStyling

/-- What has been installed in a session: the last scene, the last tree of globals, and the
    sources of the functions, each with whether it has come after that tree. -/
structure Installs where
  sceneId : Option Int
  tree : Option SceneNode
  functions : List (String × Bool)

namespace Installs

def nothing : Installs := ⟨none, none, []⟩

/-- A tree takes the place of the one before, and all functions were there before it. -/
def install (x : Installs) (globals : Option SceneNode) : Installs :=
  match Seeding.tree? globals with
  | none => x
  | some node => { x with tree := some node, functions := x.functions.map fun f => (f.1, false) }

/-- What is installed after a call. -/
def take (x : Installs) : Call → Installs
  | .initFunctions scene =>
    if x.sceneId = some scene.id then x
    else { x.install scene.globals with
      sceneId := some scene.id
      functions := scene.functions.map fun source => (source, true) }
  | .setFunctions sources => { x with functions := sources.map fun source => (source, true) }
  | .addFunction source => { x with functions := x.functions ++ [(source, true)] }
  | .setGlobals globals => x.install globals
  | .setFilterKey _ _ | .setFeature _ | .clear | .ask _ => x

/-- The tree that a call installs. -/
def tree? (x : Installs) : Call → Option SceneNode
  | .initFunctions scene =>
    if x.sceneId = some scene.id then none else Seeding.tree? scene.globals
  | .setGlobals globals => Seeding.tree? globals
  | _ => none

/-- What calls have installed. -/
def of (calls : List Call) : Installs := calls.foldl take nothing

theorem of_concat (calls : List Call) (c : Call) : of (calls ++ [c]) = (of calls).take c := by
  rw [of, List.foldl_append]
  rfl

theorem tree_take (x : Installs) (c : Call) : (x.take c).tree = (x.tree? c).or x.tree := by
  have hinstall : ∀ globals, (x.install globals).tree = (Seeding.tree? globals).or x.tree := by
    intro globals
    rw [install]
    rcases Seeding.tree? globals with _ | node <;> rfl
  cases c with
  | initFunctions scene =>
      rw [take, tree?]
      split
      · rfl
      · exact hinstall scene.globals
  | setGlobals globals => exact hinstall globals
  | _ => rfl

end Installs

namespace EmbeddedEngine

variable {L : EmbeddedLanguage}

/-- A session in which something was installed. -/
structure Follows (x : Installs) (s : Session (EmbeddedEngine L)) : Prop where
  resting : Resting s.engine
  sceneId : s.sceneId = x.sceneId
  count : s.functionCount = x.functions.length
  library : s.engine.library = (x.tree.map fun node => (installed node).1).getD L.noScript
  /-- A function that came after the tree was compiled over its library. -/
  current : ∀ i source, x.functions[i]? = some (source, true) →
    s.engine.functions.get? i = (compile s.engine.library source).toOption

/-- What the variable of the globals holds. -/
def globals (s : Session (EmbeddedEngine L)) : Option L.Value :=
  L.getVariable? s.engine.scope globalsName

/-- A function that is added is compiled over the library as it is. -/
theorem run_addFunction_snd (source : String) (s : Session (EmbeddedEngine L)) :
    ((Session.addFunction source).run s).2 = ⟨s.sceneId, s.functionCount + 1, { s.engine with
      functions := s.engine.functions.set s.functionCount
        (compile s.engine.library source).toOption }⟩ := by
  change (⟨s.sceneId, s.functionCount + 1,
    ((setFunction s.functionCount source).run s.engine).2⟩ : Session (EmbeddedEngine L)) = _
  rw [run_setFunction]
  rcases compile s.engine.library source with message | script <;> rfl

namespace Follows

variable {x : Installs} {s : Session (EmbeddedEngine L)}

theorem install (h : Follows x s) (globals : Option SceneNode) :
    Follows (x.install globals) ((Session.setGlobals globals).run s).2 := by
  change Follows (x.install globals)
    { s with engine := ((Seeding.installGlobals globals).run s.engine).2 }
  rw [Installs.install]
  rcases htree : Seeding.tree? globals with _ | node
  · rw [Engine.run_installGlobals_of_none htree]
    exact h
  · rw [run_installGlobals_of_tree htree h.resting]
    refine ⟨⟨h.resting.stack, h.resting.pending, h.resting.made⟩, h.sceneId, ?_, rfl, ?_⟩
    · rw [List.length_map]
      exact h.count
    · -- No function has come after the tree yet.
      intro i source hi
      rw [List.getElem?_map] at hi
      rcases Option.map_eq_some_iff.mp hi with ⟨f, _, hf⟩
      cases hf

theorem setFunctions (h : Follows x s) (sources : List String) :
    Follows { x with functions := sources.map fun source => (source, true) }
      ((Session.setFunctions sources).run s).2 := by
  rw [run_setFunctions]
  refine ⟨⟨h.resting.stack, h.resting.pending, h.resting.made⟩, h.sceneId, ?_, h.library, ?_⟩
  · rw [List.length_map]
  · intro i source hi
    rw [List.getElem?_map] at hi
    rcases Option.map_eq_some_iff.mp hi with ⟨f, hf, heq⟩
    cases heq
    dsimp only
    rw [FunctionTable.get?, List.getElem?_map, hf]
    rfl

theorem addFunction (h : Follows x s) (source : String) :
    Follows { x with functions := x.functions ++ [(source, true)] }
      ((Session.addFunction source).run s).2 := by
  rw [run_addFunction_snd]
  refine ⟨⟨h.resting.stack, h.resting.pending, h.resting.made⟩, h.sceneId, ?_, h.library, ?_⟩
  · rw [List.length_append, List.length_singleton, h.count]
  · intro i other hi
    dsimp only at hi ⊢
    rw [h.count]
    -- The new function is compiled over the library as it is, the others stay.
    by_cases hlast : i = x.functions.length
    · rw [hlast, List.getElem?_concat_length] at hi
      cases hi
      rw [hlast, FunctionTable.get?_set_self]
    · have hlt : i < x.functions.length := by
        have hle := (List.getElem?_eq_some_iff.mp hi).1
        rw [List.length_append, List.length_singleton] at hle
        omega
      rw [List.getElem?_append_left hlt] at hi
      rw [FunctionTable.get?_set_of_ne _ _ (Ne.symm hlast)]
      exact h.current i other hi

/-- A change of the scope installs nothing. -/
theorem withScope (h : Follows x s) (scope : L.Scope) :
    Follows x { s with engine := { s.engine with scope } } :=
  ⟨⟨h.resting.stack, h.resting.pending, h.resting.made⟩, h.sceneId, h.count, h.library, h.current⟩

/-- Every call installs what it says. -/
theorem perform (h : Follows x s) (c : Call) : Follows (x.take c) (c.perform.run s).2 := by
  cases c with
  | initFunctions scene =>
      change Follows _ ((Session.initFunctions scene).run s).2
      rw [Installs.take]
      by_cases hid : x.sceneId = some scene.id
      · rw [if_pos hid, Session.run_initFunctions_of_eq (h.sceneId.trans hid)]
        exact h
      · -- The globals come first, so the functions are compiled over their library.
        rw [if_neg hid, Session.run_initFunctions_of_ne fun heq => hid (h.sceneId.symm.trans heq)]
        have hinstalled := h.install scene.globals
        have hshown : Follows { x.install scene.globals with sceneId := some scene.id }
            { s with
              sceneId := some scene.id
              engine := ((Seeding.installGlobals scene.globals).run s.engine).2 } :=
          ⟨hinstalled.resting, rfl, hinstalled.count, hinstalled.library, hinstalled.current⟩
        exact hshown.setFunctions scene.functions
  | setFunctions sources => exact h.setFunctions sources
  | addFunction source => exact h.addFunction source
  | setGlobals globals => exact h.install globals
  | setFilterKey key n => cases key with
    | zoom => exact h.withScope _
    | geometry => exact h.withScope _
    | other => exact h
  | setFeature feature => exact h.withScope _
  | clear => exact h.withScope _
  | ask q =>
      change Follows x (q.ask.run s).2
      rw [h.resting.run_ask q]
      exact h.withScope _

/-- A style function that came after the globals is its own script, over their library. -/
theorem exists_own (h : Follows x s) {i : Nat} {source : String} {script : L.Script}
    (hlisted : x.functions[i]? = some (source, true))
    (hcompiled : s.engine.functions.get? i = some script) :
    ∃ own, L.compile (scriptText source) = .ok own ∧
      script = L.merge s.engine.library own := by
  rw [h.current i source hlisted, compile] at hcompiled
  rcases hown : L.compile (scriptText source) with message | own
  · rw [hown] at hcompiled
    cases hcompiled
  · rw [hown] at hcompiled
    exact ⟨own, rfl, (Option.some.inj hcompiled).symm⟩

end Follows

theorem follows_new : Follows .nothing (Session.new (new : EmbeddedEngine L)) where
  resting := resting_new
  sceneId := rfl
  count := rfl
  library := rfl
  current := fun _ _ hi => by cases hi

/-- Every reachable session is as its calls say. -/
theorem follows_after (calls : List Call) :
    Follows (Installs.of calls) (after calls (Session.new (new : EmbeddedEngine L))) := by
  -- By induction on the calls, for all sessions that follow what was installed before.
  have hrun : ∀ (x : Installs) (s : Session (EmbeddedEngine L)), Follows x s →
      Follows (calls.foldl Installs.take x) (after calls s) := by
    induction calls with
    | nil => exact fun _ _ h => h
    | cons c calls ih => exact fun x s h => ih _ _ (h.perform c)
  exact hrun _ _ follows_new

variable (L) in
/-- Calls after which the variable of the globals has not been set by a script since the last
    tree was installed. -/
inductive Untouched : List Call → Prop
  | start : Untouched []
  | install {calls : List Call} {c : Call} : ((Installs.of calls).tree? c).isSome = true →
      Untouched (calls ++ [c])
  | keep {calls : List Call} {c : Call} : Untouched calls →
      (∀ q, c = .ask q → globals (after (calls ++ [c]) (Session.new (new : EmbeddedEngine L)))
        = globals (after calls (Session.new new))) → Untouched (calls ++ [c])

theorem after_concat (calls : List Call) (c : Call) (s : Session (EmbeddedEngine L)) :
    after (calls ++ [c]) s = (c.perform.run (after calls s)).2 := by
  rw [after, List.foldl_append]
  rfl

/-- What the variable of the globals holds if no script has set it. -/
def treeValue (tree : Option SceneNode) : L.Value :=
  (tree.map fun node => (installed node).2).getD L.unit

section

variable {x : Installs} {s : Session (EmbeddedEngine L)}

theorem globals_setFunctions (sources : List String) (s : Session (EmbeddedEngine L)) :
    globals ((Session.setFunctions sources).run s).2 = globals s := by
  rw [run_setFunctions]
  rfl

theorem globals_addFunction (source : String) (s : Session (EmbeddedEngine L)) :
    globals ((Session.addFunction source).run s).2 = globals s := by
  rw [run_addFunction_snd]
  rfl

/-- Installing a tree sets the variable of the globals. -/
theorem globals_setGlobals (hL : L.VariableLaws) (h : Resting s.engine)
    (tree : Option SceneNode) : globals ((Session.setGlobals tree).run s).2
      = ((Seeding.tree? tree).map fun node => treeValue (some node)).or (globals s) := by
  change globals { s with engine := ((Seeding.installGlobals tree).run s.engine).2 } = _
  rcases htree : Seeding.tree? tree with _ | node
  · rw [Engine.run_installGlobals_of_none htree]
    rfl
  · rw [run_installGlobals_of_tree htree h]
    exact hL.getVariable?_self _ _ _

/-- Only a tree and a script set the variable of the globals. -/
theorem Follows.globals_perform (hL : L.VariableLaws) (h : Follows x s) (c : Call)
    (hask : ∀ q, c = .ask q → globals (c.perform.run s).2 = globals s) :
    globals (c.perform.run s).2
      = ((x.tree? c).map fun node => treeValue (some node)).or (globals s) := by
  -- The variables of a feature and of filter keys have other names.
  have hassign : ∀ (name : String) (v : L.Value), globalsName ≠ name →
      globals { s with engine := { s.engine with scope := L.setVariable name v s.engine.scope } }
        = globals s := fun name v hne => hL.getVariable?_of_ne _ hne v
  cases c with
  | initFunctions scene =>
      change globals ((Session.initFunctions scene).run s).2 = _
      rw [Installs.tree?]
      by_cases hid : x.sceneId = some scene.id
      · rw [if_pos hid, Session.run_initFunctions_of_eq (h.sceneId.trans hid)]
        rfl
      · rw [if_neg hid, Session.run_initFunctions_of_ne fun heq => hid (h.sceneId.symm.trans heq),
          globals_setFunctions]
        exact globals_setGlobals hL h.resting scene.globals
  | setFunctions sources => exact globals_setFunctions sources s
  | addFunction source => exact globals_addFunction source s
  | setGlobals tree => exact globals_setGlobals hL h.resting tree
  | setFilterKey key n => cases key with
    | zoom => exact hassign _ _ (by decide)
    | geometry => exact hassign _ _ (by decide)
    | other => rfl
  | setFeature feature => exact hassign _ _ (by decide)
  | clear => exact hassign _ _ (by decide)
  | ask q => exact hask q rfl

end

/-- The variable of the globals holds the value of the last tree if no script has set it. -/
theorem globals_of_untouched (hL : L.VariableLaws) {calls : List Call} (h : Untouched L calls) :
    globals (after calls (Session.new (new : EmbeddedEngine L)))
      = some (treeValue (Installs.of calls).tree) := by
  have hstep : ∀ (calls : List Call) (c : Call),
      (∀ q, c = .ask q → globals (after (calls ++ [c]) (Session.new (new : EmbeddedEngine L)))
        = globals (after calls (Session.new new))) →
      globals (after (calls ++ [c]) (Session.new (new : EmbeddedEngine L)))
        = (((Installs.of calls).tree? c).map fun node => treeValue (some node)).or
          (globals (after calls (Session.new new))) := by
    intro calls c hask
    rw [after_concat] at hask ⊢
    exact (follows_after calls).globals_perform hL c hask
  induction h with
  | start =>
      change L.getVariable? initialScope globalsName = some L.unit
      rw [initialScope, List.foldl_cons, List.foldl_cons, List.foldl_cons, List.foldl_cons,
        List.foldl_nil, hL.getVariable?_declare, if_pos rfl]
  | @install calls c hc =>
      -- No question installs a tree, so the call is no question.
      rcases Option.isSome_iff_exists.mp hc with ⟨node, hnode⟩
      have hask : ∀ q, c ≠ .ask q := by
        intro q hq
        rw [hq] at hnode
        cases hnode
      rw [hstep calls c fun q hq => absurd hq (hask q), Installs.of_concat, Installs.tree_take,
        hnode]
      rfl
  | @keep calls c _ hkeep ih =>
      rw [hstep calls c hkeep, Installs.of_concat, Installs.tree_take, ih]
      rcases (Installs.of calls).tree? c with _ | node <;> rfl

end EmbeddedEngine

end MapStyling
