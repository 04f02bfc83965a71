import MapStyling.Proofs.EmbeddedEngine.Questions

/-!
# Scenes on Engines of Embedded Scripts

What a scene comes to on an engine, whatever the engine was used for before.

Between two calls an engine has nothing on its stack, and no definitions wait.
From such a state a tree of globals always comes to the same value and the same
library: its functions are counted from zero, and nothing of the scope is seen
on the way. Style functions are compiled over that library. So nothing of what
comes to be hangs on the past of the engine, as long as there is a tree.

Without a tree the library stays, and so does the variable that holds the
globals.

## Main definitions

* `EmbeddedEngine.Resting`: Engines between two calls.
* `EmbeddedEngine.installed`: The library and the value of a tree.
* `EmbeddedEngine.SameGlobals`: Engines with the same globals.
* `EmbeddedEngine.SameScene`: Engines with the same functions and the same globals.

## Theorems

* `EmbeddedEngine.lasts_resting`: Engines rest between calls.
* `EmbeddedEngine.run_installGlobals_of_tree`: What a tree comes to.
* `EmbeddedEngine.run_setFunctions`: What style functions come to.
* `EmbeddedEngine.sameScene_iff`: When a scene looks as it does on a new engine.
-/

namespace MapStyling

namespace EmbeddedEngine

variable {L : EmbeddedLanguage}

/-- An engine between two calls. -/
structure Resting (e : EmbeddedEngine L) : Prop where
  stack : e.stack = .empty
  pending : e.pending = []
  made : e.made = 0

theorem resting_new : Resting (new : EmbeddedEngine L) := ⟨rfl, rfl, rfl⟩

/-- Where no definition waits, a question changes nothing but the scope of the scripts. -/
theorem Resting.run_ask {s : Session (EmbeddedEngine L)} (h : Resting s.engine) (q : Question) :
    (q.ask.run s).2
      = { s with engine := { s.engine with scope := s.engine.scopeAfter q.index } } :=
  run_ask_of_pendingOnStack (fun _ hp => absurd (h.pending ▸ hp) List.not_mem_nil) q

/-- Definitions that wait do so until globals are set. -/
def Idle (e : EmbeddedEngine L) : Prop := e.pending = [] ∧ e.made = 0

theorem run_setGlobal_globals (a : Handle) (e : EmbeddedEngine L) :
    (Engine.setGlobal globalName a).run e = ((), { e with
      scope := L.setVariable globalsName (e.value a) e.scope
      library := e.pending.foldl (fun library p => L.merge library p.2) L.noScript
      pending := []
      made := 0 }) := rfl

/-- Whatever was done inside a scope, an engine rests when it is closed. -/
theorem Resting.reset {e e' : EmbeddedEngine L} (h : Resting e) (h' : Idle e') :
    Resting ((Engine.reset (Engine.mark e) : StateM (EmbeddedEngine L) Unit).run e').2 where
  stack := by
    change e'.stack.cut e.stack.height = .empty
    rw [h.stack]
    exact e'.stack.cut_zero
  pending := by
    change e'.pending.filter _ = []
    rw [h'.1, List.filter_nil]
  made := h'.2

theorem Resting.setFunction {e : EmbeddedEngine L} (h : Resting e) (i : Nat) (source : String) :
    Resting ((EmbeddedEngine.setFunction i source).run e).2 := by
  rw [run_setFunction]
  rcases compile e.library source with message | script <;> exact ⟨h.stack, h.pending, h.made⟩

theorem lasts_resting : Engine.Lasts (fun _ => True) (Resting : EmbeddedEngine L → Prop) where
  installGlobals := by
    intro globals _ e h
    rw [Engine.run_installGlobals]
    rcases Seeding.tree? globals with _ | node
    · exact h
    · exact h.reset ⟨rfl, rfl⟩
  setFunction := fun i source _ _ h => h.setFunction i source
  truncateFunctions := fun _ _ h => ⟨h.stack, h.pending, h.made⟩
  setFeature := fun _ _ h => ⟨h.stack, h.pending, h.made⟩
  setFilterKey := by
    intro key n e h
    cases key <;> exact ⟨h.stack, h.pending, h.made⟩
  ask := by
    intro q s h
    rw [h.run_ask q]
    exact ⟨h.stack, h.pending, h.made⟩

/-- An engine that has built what another one has, and that is otherwise what it was. -/
structure Beside (base e e' : EmbeddedEngine L) : Prop where
  stack : e'.stack = e.stack
  pending : e'.pending = e.pending
  made : e'.made = e.made
  scope : e'.scope = base.scope
  functions : e'.functions = base.functions
  library : e'.library = base.library

/-- Two engines build the same, since building sees no more than the stack and the
    number of functions made. -/
theorem builds_beside (base : EmbeddedEngine L) :
    Engine.Builds (fun _ => True) (Beside base) := by
  -- Handles are heights of the stack, which the engines have in common.
  have hpush : ∀ (v : L.Value), Agree (Beside base) (push v) := by
    intro v e e' h
    refine ⟨congrArg (fun stack => Handle.mk (ValueStack.height stack)) h.stack, ?_⟩
    exact ⟨congrArg (fun stack => (ValueStack.push stack v).2) h.stack, h.pending, h.made, h.scope,
      h.functions, h.library⟩
  have hchange : ∀ (a v : Handle) (f : L.Value → L.Value → L.Value) (e e' : EmbeddedEngine L),
      Beside base e e' →
      Beside base ((change a (f (e.value v))).run e).2 ((change a (f (e'.value v))).run e').2 := by
    intro a v f e e' h
    have hvalue : e'.value v = e.value v := by rw [value, value, h.stack]
    refine ⟨?_, h.pending, h.made, h.scope, h.functions, h.library⟩
    change e'.stack.modify a (f (e'.value v)) = e.stack.modify a (f (e.value v))
    rw [h.stack, hvalue]
  exact {
    pushNull := hpush _
    pushBoolean := fun _ => hpush _
    pushNumber := fun _ => hpush _
    pushText := fun _ => hpush _
    pushArray := hpush _
    pushObject := hpush _
    pushFunction := by
      intro source _ e e' h
      change ((pushFunction source).run e').1 = ((pushFunction source).run e).1 ∧
        Beside base ((pushFunction source).run e).2 ((pushFunction source).run e').2
      rw [run_pushFunction, run_pushFunction, h.made]
      rcases (defineFunction e.made source : Except ScriptFault (L.Value × L.Script)) with
        fault | ⟨pointer, script⟩
      · exact ⟨rfl, h⟩
      · dsimp only
        rw [h.stack, h.pending]
        exact ⟨rfl, rfl, rfl, rfl, h.scope, h.functions, h.library⟩
    setElement := fun a i v e e' h => ⟨rfl, hchange a v (withElement i) e e' h⟩
    setField := fun o n v e e' h => ⟨rfl, hchange o v (withField n) e e' h⟩ }

/-- The library and the value of a tree. -/
def installed (node : SceneNode) : L.Script × L.Value :=
  let r := (Seeding.pushNode node).run (new : EmbeddedEngine L)
  (r.2.pending.foldl (fun library p => L.merge library p.2) L.noScript, r.2.value r.1)

/-- What a tree comes to on an engine between two calls. -/
theorem run_installGlobals_of_tree {globals : Option SceneNode} {node : SceneNode}
    (h : Seeding.tree? globals = some node) {e : EmbeddedEngine L} (he : Resting e) :
    (Seeding.installGlobals globals).run e = ((), { e with
      scope := L.setVariable globalsName (installed node).2 e.scope
      library := (installed node).1 }) := by
  -- The tree is built as on a new engine, which is beside this one but for its scope.
  have hstart : Beside e new e :=
    ⟨he.stack, he.pending, he.made, rfl, rfl, rfl⟩
  rcases (builds_beside e).pushNode node (fun _ _ => trivial) new e hstart with ⟨hhandle, hbuilt⟩
  rw [Engine.run_installGlobals, h]
  unfold installed
  dsimp only
  rw [hhandle]
  generalize (Seeding.pushNode node).run (new : EmbeddedEngine L) = r at hbuilt ⊢
  generalize ((Seeding.pushNode node).run e).2 = e' at hbuilt ⊢
  have hvalue : e'.value r.1 = r.2.value r.1 := by rw [value, value, hbuilt.stack]
  have hcut : e'.stack.cut e.stack.height = e.stack := by
    rw [he.stack]
    exact e'.stack.cut_zero
  rw [run_setGlobal_globals]
  change ((), (⟨L.setVariable globalsName (e'.value r.1) e'.scope, e'.stack.cut e.stack.height,
    e'.functions, e'.pending.foldl (fun library p => L.merge library p.2) L.noScript, [], 0⟩ :
      EmbeddedEngine L)) = _
  rw [hvalue, hcut, hbuilt.scope, hbuilt.functions, hbuilt.pending, ← he.pending, ← he.made]

theorem run_buildAll (sources : List String) (e : EmbeddedEngine L) :
    (tabled.buildAll sources).run e
      = (sources.map fun source => (compile e.library source).toOption, e) := by
  induction sources with
  | nil => rfl
  | cons source rest ih =>
      rw [Engine.Tabled.run_buildAll_cons]
      change (_ :: ((tabled.buildAll rest).run e).1, ((tabled.buildAll rest).run e).2) = _
      rw [ih]
      rfl

/-- What style functions come to: each is compiled over the library. -/
theorem run_setFunctions (sources : List String) (s : Session (EmbeddedEngine L)) :
    (Session.setFunctions sources).run s
      = (sources.all fun source => (compile s.engine.library source).toOption.isSome,
        ⟨s.sceneId, sources.length, { s.engine with
          functions := ⟨sources.map fun source =>
            (compile s.engine.library source).toOption⟩ }⟩) := by
  rw [Engine.Tabled.run_setFunctions (T := tabled), run_buildAll]
  dsimp only
  rw [List.all_map]
  rfl

/-- Engines with the same functions and the same globals. -/
structure SameScene (e e' : EmbeddedEngine L) : Prop where
  functions : e'.functions = e.functions
  library : e'.library = e.library
  globals : L.getVariable? e'.scope globalsName = L.getVariable? e.scope globalsName

/-- Engines whose scripts find the same globals. -/
def SameGlobals (e e' : EmbeddedEngine L) : Prop :=
  e'.library = e.library ∧
    L.getVariable? e'.scope globalsName = L.getVariable? e.scope globalsName

/-- A scene with a tree of globals replaces what was there before. One without a tree
    leaves the library and the globals, so it only looks as it does on a new engine if
    there were none. -/
theorem sameScene_iff (hL : L.VariableLaws) {scene : Scene} {s : Session (EmbeddedEngine L)}
    (hs : Resting s.engine) (hid : s.sceneId ≠ some scene.id) :
    let used := ((Session.initFunctions scene).run s).2.engine
    (SameScene ((Session.initFunctions scene).run (Session.new new)).2.engine used ↔
        (Seeding.tree? scene.globals).isSome = true ∨ SameGlobals new s.engine) ∧
      (Seeding.tree? scene.globals = none → SameGlobals s.engine used) := by
  have hid' : (Session.new (new : EmbeddedEngine L)).sceneId ≠ some scene.id := by
    intro heq
    cases heq
  rw [Session.run_initFunctions_of_ne hid, Session.run_initFunctions_of_ne hid']
  dsimp only
  rw [run_setFunctions, run_setFunctions]
  dsimp only
  rcases htree : Seeding.tree? scene.globals with _ | node
  · -- Nothing is installed, so only functions are compiled on either engine.
    rw [Engine.run_installGlobals_of_none htree, Engine.run_installGlobals_of_none htree]
    refine ⟨⟨fun hsame => Or.inr ⟨hsame.library, hsame.globals⟩, fun hor => ?_⟩,
      fun _ => ⟨rfl, rfl⟩⟩
    rcases hor with hsome | ⟨hlibrary, hlookup⟩
    · cases hsome
    · refine ⟨?_, hlibrary, hlookup⟩
      change (⟨scene.functions.map fun source => (compile s.engine.library source).toOption⟩ :
        FunctionTable L.Script)
          = ⟨scene.functions.map fun source =>
            (compile (new : EmbeddedEngine L).library source).toOption⟩
      rw [hlibrary]
  · -- Library and variable are replaced on either engine.
    rw [run_installGlobals_of_tree htree hs,
      run_installGlobals_of_tree htree (e := (Session.new new).engine) resting_new]
    refine ⟨⟨fun _ => Or.inl rfl, fun _ => ⟨rfl, rfl, ?_⟩⟩, fun hnone => by cases hnone⟩
    rw [hL.getVariable?_self, hL.getVariable?_self]

end EmbeddedEngine

end MapStyling
