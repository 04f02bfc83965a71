import MapStyling.Proofs.SceneLibraries

/-!
# Functions of Scenes

Which body runs when a style function calls a function of the globals.

A function value that was made of a scalar is no more than a name, and the script that
calls it looks the name up among its own definitions and those of the library that it took
along. A style function that came after the last tree of globals took the library of this
tree along. So it finds the definition of the scalar that the value was made from, unless
it brings a definition of this name itself. A style function that was there before the tree
has another library, and nothing is said of it: names are given out again for each tree.

That the definition is found takes sources that spell one function each. One that closes
the function it is put into and opens another can take the name of any other.

## Main definitions

* `EmbeddedScript.Astray`: Style functions that run another body.

## Theorems

* `scene_functions_run`: Every style function that came after the globals runs the bodies of
  their functions.
* `scene_functions_astray`: Others need not.
-/

namespace MapStyling

/-- After any calls, a style function that came after the last tree of globals has the
    definitions of the functions in it, where their sources spell one function each. When
    it calls one of these functions, the body that runs is that of the definition of its
    scalar, and none runs if the number of arguments is wrong, unless the style function
    has a definition of this name for this number of arguments itself. And the functions
    that it finds in the globals are these, if no script has set the globals since. -/
theorem scene_functions_run {L : EmbeddedLanguage} (hshape : L.ShapeLaws)
    (hvariable : L.VariableLaws) (F : L.FunctionLaws) (calls : List Call) {node : SceneNode}
    {i : Nat} {source : String} {script : L.Script}
    (htree : (Installs.of calls).tree = some node) (hspells : node.SpellsOnce F)
    (hlisted : (Installs.of calls).functions[i]? = some (source, true))
    (hcompiled : (after calls (Session.new (EmbeddedEngine.new (L := L)))).engine.functions.get? i
      = some script) :
    let e := (after calls (Session.new (EmbeddedEngine.new (L := L)))).engine
    ∃ definitions own, EmbeddedEngine.Stocked F (some node) definitions e ∧
      (EmbeddedEngine.Untouched L calls → EmbeddedEngine.Pointing F (some node) definitions e) ∧
      L.compile (EmbeddedEngine.scriptText source) = .ok own ∧ script = L.merge e.library own ∧
      ∀ d, some d ∈ definitions → ∀ v, F.pointer? v = some (F.name d) →
        ∀ count, F.find? own (F.name d) count = none →
          F.called script v count = if count = F.arity d then some d else none := by
  intro e
  have hfollows := EmbeddedEngine.follows_after (L := L) calls
  have hspelled : ∀ other, (Installs.of calls).tree = some other → other.SpellsOnce F := by
    intro other hother
    rw [htree] at hother
    exact Option.some.inj hother ▸ hspells
  -- The library holds one definition for each scalar, and the function was compiled over it.
  rcases hfollows.exists_stocked hspelled with ⟨definitions, hstocked⟩
  rcases hfollows.exists_own hlisted hcompiled with ⟨own, hown, hscript⟩
  rw [htree] at hstocked
  refine ⟨definitions, own, hstocked, fun huntouched => ?_, hown, hscript, ?_⟩
  · have hglobals := EmbeddedEngine.globals_of_untouched hvariable huntouched
    rw [htree] at hglobals
    exact hstocked.pointing hshape hvariable hglobals
  · intro d hd v hpointer count hnone
    rw [F.called_eq script v _ count hpointer, hscript, F.find?_merge, hnone, Option.none_or]
    exact hstocked.find?_library hd count

open EmbeddedScript

/-- A scene whose functions call those of its globals, after a scene of other functions. -/
def callingCalls : List Call := [
  .initFunctions ⟨1, .mapping [(.scalar globalName, .mapping [
    (.scalar "f", .scalar "function () { false }")])], ["globals.f.call()"]⟩,
  .ask (.filter 0),
  .initFunctions ⟨2, .mapping [(.scalar globalName, .mapping [
    (.scalar "bad", .scalar "function () { let }"),
    (.scalar "f", .scalar "function (x) { !x }")])],
    ["function () { return globals.f.call(false); }"]⟩,
  .addFunction "fn scene_fn_0() { false } globals.f.call(false)"]

theorem scene_functions_run_callingCalls :
    let e := (after callingCalls (Session.new (EmbeddedEngine.new (L := language)))).engine
    ∃ (node : SceneNode) (script : Script) (d : Definition),
      (Installs.of callingCalls).tree = some node ∧ node.SpellsOnce functionLaws ∧
      (Installs.of callingCalls).functions[1]?
        = some ("fn scene_fn_0() { false } globals.f.call(false)", true) ∧
      e.functions.get? 1 = some script ∧
      EmbeddedEngine.Stocked functionLaws (some node) [none, some d] e ∧
      EmbeddedEngine.Pointing functionLaws (some node) [none, some d] e ∧
      functionLaws.called script (Value.function d.name) 1 = some d ∧
      ∀ v, script.RunsBody d [v] := by
  intro e
  -- What the calls come to is computed once for all of this.
  have hcomputed : (Installs.of callingCalls).tree.map SceneNode.spellsOnce = some true ∧
      (Installs.of callingCalls).functions[1]?
        = some ("fn scene_fn_0() { false } globals.f.call(false)", true) ∧
      asksLocally (Session.new EmbeddedEngine.new) callingCalls = true ∧
      (e.functions.get? 1).isSome = true ∧
      (functionLaws.find? e.library "scene_fn_0" 1).isSome = true ∧
      ((language.compile (EmbeddedEngine.scriptText
        "fn scene_fn_0() { false } globals.f.call(false)")).toOption.bind
          fun s => functionLaws.find? s "scene_fn_0" 1).isNone = true := by
    decide +kernel
  rcases hcomputed with ⟨htree, hlisted, hlocally, hcompiled, hfound, hother⟩
  rcases Option.map_eq_some_iff.mp htree with ⟨node, hnode, hspells⟩
  have hspells : node.SpellsOnce functionLaws :=
    SceneNode.spellsOnce_sound (by rw [Option.all_some, hspells]) node rfl
  rcases Option.isSome_iff_exists.mp hcompiled with ⟨script, hscript⟩
  have huntouched : EmbeddedEngine.Untouched language callingCalls :=
    untouched_of_asksLocally hlocally
  rcases scene_functions_run shapeLaws variableLaws functionLaws callingCalls hnode hspells hlisted
    hscript with ⟨definitions, own, hstocked, hpointing, hown, _, hcalled⟩
  have hnames : definitions.map (Option.map functionLaws.name) = [none, some "scene_fn_0"] := by
    rw [hstocked.map_name, ← hnode]
    decide +kernel
  rw [hown] at hother
  rcases List.map_eq_cons_iff.mp hnames with ⟨first, rest, rfl, hfirst, hrest⟩
  rcases List.map_eq_cons_iff.mp hrest with ⟨second, none_left, rfl, hsecond, hnil⟩
  rcases Option.map_eq_some_iff.mp hsecond with ⟨d, rfl, hname⟩
  rw [Option.map_eq_none_iff] at hfirst
  rw [List.map_eq_nil_iff] at hnil
  subst hfirst hnil
  have hd : some d ∈ [none, some d] := List.mem_cons_of_mem _ List.mem_cons_self
  have hone : 1 = functionLaws.arity d := by
    by_contra hne
    rw [← hname, hstocked.find?_library hd, if_neg hne] at hfound
    cases hfound
  have hbody : functionLaws.called script (Value.function d.name) 1 = some d := by
    refine (hcalled d hd (.function d.name) rfl 1 ?_).trans (if_pos hone)
    -- The definition in the script itself has no parameters, so it is not the one of the call.
    rw [hname]
    exact Option.isNone_iff_eq_none.mp hother
  exact ⟨node, script, d, hnode, hspells, hlisted, hscript, hstocked, hpointing huntouched, hbody,
    fun v => Script.runsBody_of_find? hbody⟩

namespace EmbeddedScript

/-- A style function at a position that does not run the body of a source, the first of the
    last tree, when it calls the function that was made of it and that the globals have
    under the name `f`. -/
def Astray (calls : List Call) (i : Nat) (source : String) : Prop :=
  let e := (after calls (Session.new (EmbeddedEngine.new (L := language)))).engine
  (Installs.of calls).tree.bind (fun node => node.functionTexts.head?) = some source ∧
    ∃ (script : Script) (f : Value × Script) (d : Definition),
      e.functions.get? i = some script ∧ defined 0 source = .ok f ∧
      EmbeddedEngine.MadeOf functionLaws f d ∧
      (language.getVariable? e.scope EmbeddedEngine.globalsName).bind
        (fun v => EmbeddedEngine.pointerAt? functionLaws v "f") = some d.name ∧
      ¬script.RunsBody d []

/-- The truth value of the body of a source. -/
def bodyTruth? (source : String) : Option Bool :=
  match defined 0 source with
  | .ok (_, s) => s.definitions.head?.bind fun d =>
    (d.value? (fun _ _ => none) []).map Value.truth
  | .error _ => none

/-- A style function is astray if it gets another truth value than the body has. -/
theorem astray_of_truth {calls : List Call} {i : Nat} {source : String} {a b : Bool}
    (h : let e := (after calls (Session.new (EmbeddedEngine.new (L := language)))).engine
      (Installs.of calls).tree.bind (fun node => node.functionTexts.head?) = some source ∧
      spellsOnce 0 source = true ∧
      (language.getVariable? e.scope EmbeddedEngine.globalsName).bind
        (fun v => EmbeddedEngine.pointerAt? functionLaws v "f")
          = some (EmbeddedEngine.functionName 0) ∧
      (e.functions.get? i).bind (fun s : Script =>
        (callAt s.definitions 1 (EmbeddedEngine.functionName 0) []).map Value.truth) = some a ∧
      bodyTruth? source = some b)
    (hne : a ≠ b) : Astray calls i source := by
  rcases h with ⟨hfirst, hspells, hglobals, hcalled, hbody⟩
  rcases Option.bind_eq_some_iff.mp hcalled with ⟨script, hscript, htruth⟩
  rw [bodyTruth?] at hbody
  -- A source that defines nothing has no truth value of its own.
  rcases hdefined : defined 0 source with fault | f
  · rw [hdefined] at hbody
    cases hbody
  · rcases exists_of_spellsOnce hspells hdefined with ⟨d, hd, hname, hpointer⟩
    rw [hdefined] at hbody
    dsimp only at hbody
    rw [hd, List.head?_cons, Option.bind_some] at hbody
    rw [← hname] at hglobals htruth
    exact ⟨hfirst, script, f, d, hscript, hdefined, ⟨hpointer, only_of_definitions hd⟩, hglobals,
      Script.not_runsBody htruth hbody hne⟩

end EmbeddedScript

/-- A tree with one function, under the name `f`. -/
def treeOf (source : String) : SceneNode := .mapping [(.scalar "f", .scalar source)]

/-- A style function that was there before the tree. -/
def olderCalls : List Call := [
  .setGlobals (some (treeOf "function () { true }")),
  .addFunction "globals.f.call()",
  .setGlobals (some (treeOf "function () { false }"))]

/-- A style function that defines the name of the function itself. -/
def hidingCalls : List Call := [
  .setGlobals (some (treeOf "function () { true }")),
  .addFunction "fn scene_fn_0() { false } globals.f.call()"]

/-- A tree with a source that spells two functions. -/
def spellingCalls : List Call := [
  .setGlobals (some (.mapping [
    (.scalar "f", .scalar "function () { true }"),
    (.scalar "g", .scalar "function () { 1 } fn scene_fn_0() { false }")])),
  .addFunction "globals.f.call()"]

/-- Style functions can run other bodies: those that were there before the globals, those that
    define the name themselves, and all where a source spells two functions. -/
theorem scene_functions_astray :
    Astray olderCalls 0 "function () { false }" ∧ Astray hidingCalls 0 "function () { true }" ∧
      Astray spellingCalls 0 "function () { true }" := by
  refine ⟨?_, ?_, ?_⟩
  · exact astray_of_truth (a := true) (b := false) (by decide +kernel) (by decide)
  · exact astray_of_truth (a := false) (b := true) (by decide +kernel) (by decide)
  · exact astray_of_truth (a := false) (b := true) (by decide +kernel) (by decide)

end MapStyling
