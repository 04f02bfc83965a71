import MapStyling.Proofs.WebEngine.Making
import MapStyling.Proofs.WebLanguage.Looks

/-!
# Scenes on Engines of Web Scripts

What a scene comes to on an engine, whatever the engine was used for before.

Between two calls an engine has nothing on its stack. A tree of globals is made of nothing,
and then style functions are, so the same operations are performed whatever there was
before, and what they make looks the same. The variable of the globals holds the tree then,
or, where there is no tree, what it held before.

Scripts may have left anything behind in a context, so two contexts are not the same: what
is said is what the functions and the globals look like in them.

## Main definitions

* `WebEngine.Resting`: Engines between two calls.
* `WebEngine.SameGlobals`: Engines whose scripts find globals that look the same.
* `WebEngine.SameScene`: Engines whose functions and globals look the same.

## Theorems

* `WebEngine.Resting.after`: Engines rest between calls.
* `WebEngine.Joined.buildAll`: Functions are read alike, one after the other.
* `WebEngine.looksAlike_setFunctions`: What style functions come to, on two engines.
* `WebEngine.sameScene_iff`: When a scene looks as it does on a new engine.
-/

namespace MapStyling

open WebLanguage

namespace WebEngine

variable {L : WebLanguage} {S inert : String → Prop} {T : Holding L → Holding L → Prop}

/-- An engine between two calls, in a context that the language comes to by the allowed
    sources. -/
structure Resting (S : String → Prop) (e : WebEngine L) : Prop where
  stack : e.stack = .empty
  arises : Twins (Diagonal (L.Arises S)) e e

theorem Resting.context {e : WebEngine L} (h : Resting S e) : L.Arises S ⟨e.context, []⟩ := by
  rcases h.arises with ⟨vs, vs', hjoined⟩
  exact hjoined.related.2.select fun _ hv => absurd hv List.not_mem_nil

theorem resting_new : Resting S (new : WebEngine L) where
  stack := rfl
  arises := (agree_setConstant (Arises.bisimulation L S) (fun _ ho => ho.allowed)
    featureName .null _ _
    (joined_empty (T := Diagonal (L.Arises S)) ⟨rfl, .of_common .refl⟩).twins).2

/-- Calls leave nothing on the stack. -/
theorem lasts_stack : Engine.Lasts (fun _ => True) fun e : WebEngine L => e.stack = .empty := by
  have hcut : ∀ e e' : WebEngine L, e.stack = .empty →
      ((Engine.reset (Engine.mark e) : StateM (WebEngine L) Unit).run e').2.stack = .empty := by
    intro e e' h
    change e'.stack.cut e.stack.height = .empty
    rw [h]
    exact e'.stack.cut_zero
  exact {
    installGlobals := by
      intro globals _ e h
      rw [Engine.run_installGlobals]
      rcases Seeding.tree? globals with _ | node
      · exact h
      · exact hcut e _ h
    setFunction := by
      intro i source _ e h
      change ((setFunction i source).run e).2.stack = .empty
      have hcompile := run_compile_snd source e
      rw [run_setFunction]
      generalize (compile source).run e = r at hcompile
      rcases r with ⟨_ | v, e'⟩ <;> cases hcompile <;> exact h
    truncateFunctions := fun _ _ h => h
    setFeature := by
      intro feature e h
      rcases feature with _ | f <;> exact h
    setFilterKey := by
      intro key n e h
      cases key <;> exact h
    ask := by
      intro q s h
      rw [Engine.run_ask_snd]
      exact hcut s.engine _ h }

/-- Engines rest between calls with the allowed sources. -/
theorem Resting.after {calls : List Call} (hs : ∀ c ∈ calls, ∀ s ∈ c.sources, S (scriptText s))
    {s : Session (WebEngine L)} (h : Resting S s.engine) : Resting S (after calls s).engine where
  stack := lasts_stack.after calls (fun _ _ _ _ => trivial) s h.stack
  arises := (upholds_twins (Arises.bisimulation L S)).lasts.after calls hs s h.arises

/-- Functions are read alike in related contexts, one after the other. -/
theorem Joined.buildAll (hT : Bisimulation (Operation.Makes inert) T) (sources : List String)
    (hs : ∀ source ∈ sources, inert (scriptText source)) :
    ∀ {vs vs' : List L.Value} {e e' : WebEngine L}, Joined T vs vs' e e' → ∃ ws ws',
      Joined T (vs ++ ws) (vs' ++ ws') ((tabled.buildAll sources).run e).2
          ((tabled.buildAll sources).run e').2 ∧
        List.Forall₂ (Option.Rel (Beside (vs ++ ws) (vs' ++ ws')))
          ((tabled.buildAll sources).run e).1 ((tabled.buildAll sources).run e').1 := by
  induction sources with
  | nil =>
      intro vs vs' e e' h
      refine ⟨[], [], ?_, .nil⟩
      rw [List.append_nil, List.append_nil]
      exact h
  | cons source rest ih =>
      intro vs vs' e e' h
      rcases h.compile hT (fun _ => trivial) (hs source List.mem_cons_self) with
        ⟨v, v', hafter, hended⟩
      rcases ih (fun s hs' => hs s (List.mem_cons_of_mem _ hs')) hafter with
        ⟨ws, ws', hrest, hslots⟩
      rw [List.append_assoc, List.append_assoc] at hrest hslots
      refine ⟨[v] ++ ws, [v'] ++ ws', hrest, .cons ?_ hslots⟩
      -- The first function is held in front of the others.
      change Option.Rel _ ((WebEngine.compile source).run e).1.toOption
        ((WebEngine.compile source).run e').1.toOption
      generalize ((WebEngine.compile source).run e).1 = r at hended ⊢
      generalize ((WebEngine.compile source).run e').1 = r' at hended ⊢
      cases hended with
      | error fault => exact .none
      | ok hv =>
          rw [← List.append_assoc, ← List.append_assoc]
          exact .some (hv.append _ _)

section

variable (hL : L.LookLaws S inert globalName)
  {c c' : L.Context}

include hL

/-- What is made in two contexts looks the same, and nothing is seen of the contexts while it
    is made. -/
theorem bisimulation_made (hc : L.Arises S ⟨c, []⟩) (hc' : L.Arises S ⟨c', []⟩) :
    Bisimulation (Operation.Makes inert) (Alongside inert c c') := by
  rcases hc.common with ⟨k, hk, rfl, -⟩
  rcases hc'.common with ⟨k', hk', rfl, -⟩
  exact bisimulation_alongside fun operations ho => (hL.made k k' hk hk' operations ho).1

theorem looksAlike_made (hc : L.Arises S ⟨c, []⟩) (hc' : L.Arises S ⟨c', []⟩) {k k' : Holding L}
    (hk : Alongside inert c c' k k') {v v' : L.Value} (hv : Beside k.values k'.values v v') :
    LooksAlike hL.look k.context k'.context v v' := by
  rcases hc.common with ⟨h, hh, rfl, -⟩
  rcases hc'.common with ⟨h', hh', rfl, -⟩
  rcases hk with ⟨operations, ho, rfl, rfl⟩
  have hlooks := (hL.made h h' hh hh' operations ho).2
  rcases hv with ⟨i, hi, hi'⟩
  rw [List.getElem?_eq_some_iff] at hi hi'
  rcases hi with ⟨hlt, rfl⟩
  rcases hi' with ⟨hlt', rfl⟩
  exact hlooks.get hlt hlt'

theorem sameVariable_made (hc : L.Arises S ⟨c, []⟩) {k k' : Holding L}
    (hk : Alongside inert c c' k k') : SameVariable hL.look globalName c k.context := by
  rcases hc.common with ⟨h, hh, rfl, -⟩
  rcases hk with ⟨operations, ho, rfl, -⟩
  exact hL.kept h hh operations ho

/-- A tree that is made in two contexts and put into the variable of the globals looks the
    same. -/
theorem sameVariable_assign {node : SceneNode}
    (hinert : ∀ source ∈ node.functionTexts, inert (scriptText source))
    (hc : L.Arises S ⟨c, []⟩) (hc' : L.Arises S ⟨c', []⟩) :
    SameVariable hL.look globalName (L.assign globalName (treeValue node) c)
      (L.assign globalName (treeValue node) c') := by
  rcases made_treeValue hinert _ (bisimulation_made hL hc hc') c c' (.refl c c') with
    ⟨vs, vs', hmade, hv⟩
  have hlooks := looksAlike_made hL hc hc' hmade hv
  rcases hc.common with ⟨h, hh, rfl, -⟩
  rcases hc'.common with ⟨h', hh', rfl, -⟩
  rcases hmade with ⟨operations, ho, hafter, hafter'⟩
  rcases hv with ⟨i, hi, hi'⟩
  -- What is in the variable looks like what was put there.
  have hset := hL.installed h hh operations ho
  have hset' := hL.installed h' hh' operations ho
  rw [hafter] at hset
  rw [hafter'] at hset'
  rcases hset _ (List.mem_of_getElem? hi) with ⟨w, hw, hvw⟩
  rcases hset' _ (List.mem_of_getElem? hi') with ⟨w', hw', hvw'⟩
  unfold SameVariable assign
  rw [hw, hw']
  exact .some ((hvw.symm.trans hlooks).trans hvw')

end

/-- Engines whose scripts find globals that look the same. -/
def SameGlobals {φ : Type} (look : L.Context → L.Value → Look L.Value φ) (e e' : WebEngine L) :
    Prop :=
  SameVariable look globalName e.context e'.context

/-- Engines whose functions look the same, position by position, and so do their globals. -/
structure SameScene {φ : Type} (look : L.Context → L.Value → Look L.Value φ)
    (e e' : WebEngine L) : Prop where
  functions : List.Forall₂ (Option.Rel (LooksAlike look e.context e'.context)) e.functions.slots
    e'.functions.slots
  globals : SameGlobals look e e'

section

variable (hL : L.LookLaws S inert globalName)

include hL

/-- What style functions come to on two engines between calls. They look the same, and the
    globals are left as they were. -/
theorem looksAlike_setFunctions {sources : List String}
    (hinert : ∀ source ∈ sources, inert (scriptText source)) (s s' : Session (WebEngine L))
    (hstack : s.engine.stack = .empty) (hstack' : s'.engine.stack = .empty)
    (hs : L.Arises S ⟨s.engine.context, []⟩) (hs' : L.Arises S ⟨s'.engine.context, []⟩) :
    let built := ((Session.setFunctions sources).run s).2.engine
    let built' := ((Session.setFunctions sources).run s').2.engine
    List.Forall₂ (Option.Rel (LooksAlike hL.look built.context built'.context))
        built.functions.slots built'.functions.slots ∧
      SameVariable hL.look globalName s.engine.context built.context ∧
      SameVariable hL.look globalName s'.engine.context built'.context := by
  -- The functions that were there before are not seen.
  have hempty : ∀ e : WebEngine L, e.stack = .empty →
      e = tabled.withTable e.functions ⟨e.context, .empty, .empty⟩ := by
    intro e he
    change e = ⟨e.context, .empty, e.functions⟩
    rw [← he]
  rcases Joined.buildAll (bisimulation_made hL hs hs') sources hinert
    (joined_empty (.refl s.engine.context s'.engine.context)) with ⟨vs, vs', hbuilt, hslots⟩
  rw [Engine.Tabled.run_setFunctions (T := tabled), Engine.Tabled.run_setFunctions (T := tabled)]
  dsimp only
  rw [hempty s.engine hstack, hempty s'.engine hstack', Engine.Tabled.run_buildAll_withTable,
    Engine.Tabled.run_buildAll_withTable]
  refine ⟨hslots.imp fun f f' hf => ?_, sameVariable_made hL hs hbuilt.related, ?_⟩
  · cases hf with
    | none => exact .none
    | some hv => exact .some (looksAlike_made hL hs hs' hbuilt.related hv)
  · exact sameVariable_made hL hs' hbuilt.related.symm

/-- A scene with a tree of globals looks the same wherever it is installed. One without a tree
    leaves the globals, so it only looks as it does on a new engine if the globals do. -/
theorem sameScene_iff {scene : Scene} {s : Session (WebEngine L)} (hs : Resting S s.engine)
    (hinert : ∀ source ∈ scene.sources, inert (scriptText source))
    (hid : s.sceneId ≠ some scene.id) :
    let used := ((Session.initFunctions scene).run s).2.engine
    (SameScene hL.look ((Session.initFunctions scene).run (Session.new new)).2.engine used ↔
        (Seeding.tree? scene.globals).isSome = true ∨ SameGlobals hL.look new s.engine) ∧
      (Seeding.tree? scene.globals = none → SameGlobals hL.look s.engine used) := by
  simp only [Scene.sources, List.mem_append] at hinert
  have hid' : (Session.new (new : WebEngine L)).sceneId ≠ some scene.id := by
    intro heq
    cases heq
  rw [Session.run_initFunctions_of_ne hid, Session.run_initFunctions_of_ne hid']
  dsimp only
  have hnew : Resting S (Session.new (new : WebEngine L)).engine := resting_new
  have hfunctions : ∀ source ∈ scene.functions, inert (scriptText source) :=
    fun source hsource => hinert source (Or.inl hsource)
  rcases htree : Seeding.tree? scene.globals with _ | node
  · -- Nothing is installed, so only functions are compiled on either engine.
    rw [Engine.run_installGlobals_of_none htree, Engine.run_installGlobals_of_none htree]
    rcases looksAlike_setFunctions hL hfunctions (Session.new new) s hnew.stack hs.stack
      hnew.context hs.context with ⟨hslots, hleft, hleft'⟩
    refine ⟨⟨fun hsame => Or.inr ?_, fun hor => ?_⟩, fun _ => hleft'⟩
    · exact (hleft.trans hsame.globals).trans hleft'.symm
    · rcases hor with hsome | hglobals
      · cases hsome
      · exact ⟨hslots, (hleft.symm.trans hglobals).trans hleft'⟩
  · -- The variable is set to a tree that looks the same on either engine.
    have hnode : ∀ source ∈ node.functionTexts, inert (scriptText source) := by
      rw [Seeding.eq_of_tree? htree] at hinert
      exact fun source hsource => hinert source (Or.inr hsource)
    rw [run_installGlobals_of_tree htree hs.stack,
      run_installGlobals_of_tree htree (e := (Session.new new).engine) hnew.stack]
    refine ⟨⟨fun _ => Or.inl rfl, fun _ => ?_⟩, fun hnone => by cases hnone⟩
    have hset := sameVariable_assign hL hnode hnew.context hs.context
    have hmade : Made S (treeValue node : StateM L.Context L.Value) :=
      made_treeValue fun source hsource => hL.allowed _ (hnode source hsource)
    rcases looksAlike_setFunctions hL hfunctions
      ⟨none, 0, { (new : WebEngine L) with
        context := L.assign globalName (treeValue node) (new : WebEngine L).context }⟩
      ⟨none, 0, { s.engine with
        context := L.assign globalName (treeValue node) s.engine.context }⟩
      hnew.stack hs.stack (hnew.context.assign hmade) (hs.context.assign hmade) with
      ⟨hslots, hleft, hleft'⟩
    exact ⟨hslots, (hleft.symm.trans hset).trans hleft'⟩

end

end WebEngine

end MapStyling
