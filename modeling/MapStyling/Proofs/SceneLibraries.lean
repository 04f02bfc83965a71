import MapStyling.Proofs.EmbeddedScript.Scenes

/-!
# Libraries of Scenes

The library of an engine of embedded scripts is that of the last tree of globals, after
any calls whatever.

Three things have to stay in step: the values on the stack, the definitions that wait
beside them, and the number of functions made. Between two calls all three are back at
nothing. So a tree always finds the engine as it was at the start, and what it leaves
behind is the same after any history: one definition for each function scalar that
compiles, named by its number among these, and nothing of the trees before.

The functions in the value of the tree are known by these names, each by that of its
own scalar. But the variable that holds the value is open to scripts, and a script can
exchange two functions. So the value is as the tree says as long as no script has set
the variable.

What is asked of the language is that values show what they were made of, that variables
are found as they were set, and that functions are found by name and number of arguments,
those of a script that is merged with others beside these.

## Theorems

* `library_of_last_tree`: The library and the globals after any calls, and what a function
  comes to that does not compile.
-/

namespace MapStyling

/-- After any calls, with trees whose sources spell one function each: the stack is empty and
    no definition waits. The library has one definition for each function scalar that
    compiles in the last tree, all under different names, and no other. And if no script
    has set the globals since, each function in them has the name of the definition of
    its scalar. A function that does not compile changes nothing at all. -/
theorem library_of_last_tree {L : EmbeddedLanguage} (hshape : L.ShapeLaws)
    (hvariable : L.VariableLaws) (F : L.FunctionLaws) (calls : List Call)
    (h : ∀ node, (Installs.of calls).tree = some node → node.SpellsOnce F) :
    let tree := (Installs.of calls).tree
    let e := (after calls (Session.new (EmbeddedEngine.new (L := L)))).engine
    (∃ definitions, EmbeddedEngine.Stocked F tree definitions e ∧
      (EmbeddedEngine.Untouched L calls → EmbeddedEngine.Pointing F tree definitions e)) ∧
    ∀ (source : String) (e' e'' : EmbeddedEngine L) (fault : ScriptFault),
      (EmbeddedEngine.pushFunction source).run e' = (.error fault, e'') → e'' = e' := by
  intro tree e
  refine ⟨?_, fun source e' e'' fault hrun => ?_⟩
  · rcases (EmbeddedEngine.follows_after calls).exists_stocked h with ⟨definitions, hstocked⟩
    refine ⟨definitions, hstocked, fun huntouched => ?_⟩
    exact hstocked.pointing hshape hvariable
      (EmbeddedEngine.globals_of_untouched hvariable huntouched)
  · rw [EmbeddedEngine.run_pushFunction] at hrun
    rcases hmade : (EmbeddedEngine.defineFunction e'.made source :
      Except ScriptFault (L.Value × L.Script)) with other | made
    · rw [hmade] at hrun
      exact (congrArg Prod.snd hrun).symm
    · rw [hmade] at hrun
      cases congrArg Prod.fst hrun

open EmbeddedScript

/-- A tree, another one with a function that does not compile, and scenes without a tree. -/
def reinstallingCalls : List Call := [
  .setGlobals (some (.mapping [(.scalar "old", .scalar "function () { 0 }")])),
  .setFunctions ["globals.old.call()"],
  .ask (.filter 0),
  .initFunctions ⟨1, .mapping [(.scalar globalName, .mapping [
    (.scalar "f", .scalar "function () { 1 }"),
    (.scalar "bad", .scalar "function () { let }"),
    (.scalar "g", .sequence [.scalar "function (x) { x }"])])], ["globals.f.call()"]⟩,
  .initFunctions ⟨2, .null, ["globals.g[0].call(1)"]⟩,
  .setGlobals (some .null),
  .ask (.filter 0)]

theorem library_of_last_tree_reinstallingCalls :
    let tree := (Installs.of reinstallingCalls).tree
    let e := (after reinstallingCalls (Session.new (EmbeddedEngine.new (L := language)))).engine
    (∀ node, tree = some node → node.SpellsOnce functionLaws) ∧
      ∃ definitions, EmbeddedEngine.Stocked functionLaws tree definitions e ∧
        EmbeddedEngine.Pointing functionLaws tree definitions e ∧
        definitions.map (Option.map functionLaws.name)
          = [some "scene_fn_0", none, some "scene_fn_1"] := by
  intro tree e
  have hcomputed : tree.all SceneNode.spellsOnce = true ∧
      asksLocally (Session.new EmbeddedEngine.new) reinstallingCalls = true := by
    decide +kernel
  have hspells : ∀ node, tree = some node → node.SpellsOnce functionLaws :=
    SceneNode.spellsOnce_sound hcomputed.1
  have huntouched : EmbeddedEngine.Untouched language reinstallingCalls :=
    untouched_of_asksLocally hcomputed.2
  rcases (library_of_last_tree shapeLaws variableLaws functionLaws reinstallingCalls hspells).1 with
    ⟨definitions, hstocked, hpointing⟩
  refine ⟨hspells, definitions, hstocked, hpointing huntouched, ?_⟩
  rw [hstocked.map_name]
  decide +kernel

/-- Two functions, and a style function that puts the one in the place of the other. -/
def exchangingCalls : List Call := [
  .setGlobals (some (.mapping [
    (.scalar "f", .scalar "function () { 1 }"), (.scalar "g", .scalar "function () { 2 }")])),
  .addFunction "globals.f = globals.g; 0",
  .ask (.filter 0)]

/-- A script can set the globals, and then they do not have the functions of their tree. -/
theorem globals_exchanged :
    let tree := (Installs.of exchangingCalls).tree
    let e := (after exchangingCalls (Session.new (EmbeddedEngine.new (L := language)))).engine
    (∀ node, tree = some node → node.SpellsOnce functionLaws) ∧
      ¬ ∃ definitions, EmbeddedEngine.Stocked functionLaws tree definitions e ∧
        EmbeddedEngine.Pointing functionLaws tree definitions e := by
  intro tree e
  refine ⟨SceneNode.spellsOnce_sound (by decide +kernel), ?_⟩
  rintro ⟨definitions, hstocked, v, hglobals, hdenotes⟩
  have hnames : definitions.map (Option.map fun d => some (functionLaws.name d))
      = [some (some "scene_fn_0"), some (some "scene_fn_1")] := by
    rw [← hstocked.map_pointer]
    decide +kernel
  have hcontent : EmbeddedEngine.contentOver functionLaws tree definitions
      = .object [("f", .function (some "scene_fn_0")), ("g", .function (some "scene_fn_1"))] := by
    rw [EmbeddedEngine.contentOver, hnames]
    rfl
  rw [hcontent] at hdenotes
  have hpointer := EmbeddedEngine.pointerAt?_of_denotes hdenotes List.mem_cons_self
  -- The name that is found in the place is that of the other function.
  have hfound : (language.getVariable? e.scope EmbeddedEngine.globalsName).bind
      (fun v => EmbeddedEngine.pointerAt? functionLaws v "f") = some "scene_fn_1" := by
    decide +kernel
  rw [hglobals, Option.bind_some, hpointer] at hfound
  exact absurd hfound (by decide)

end MapStyling
