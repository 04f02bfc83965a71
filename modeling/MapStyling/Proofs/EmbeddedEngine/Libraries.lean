import MapStyling.Proofs.EmbeddedEngine.Installs
import MapStyling.Proofs.EmbeddedEngine.View
import MapStyling.Proofs.EmbeddedLanguage.Functions
import MapStyling.Proofs.Names

/-!
# Libraries on Engines of Embedded Scripts

The library that a tree of globals comes to, and the functions in the value beside it.

Functions are numbered as they are made, from zero in every tree, and a source that
does not compile takes no number. So what comes of the function scalars of a tree is
what comes of their texts, one after the other, and nothing else of the tree is
needed for it.

A source can close the function that it is put into and open others. It spells one
function if it leaves one definition behind, under the name that was chosen for it, and
a value of this name. The definitions of such sources are all in the library, since no
name is chosen twice.

## Main definitions

* `EmbeddedEngine.definedFunctions`: What function scalars come to.
* `EmbeddedEngine.SpellsOnce`: Sources that spell one function.
* `EmbeddedEngine.Stocked`: Engines with the library of a tree.
* `EmbeddedEngine.Pointing`: Engines whose globals are what a tree stands for.

## Theorems

* `EmbeddedEngine.denotes_installed`: The value of a tree is what the tree stands for.
* `EmbeddedEngine.find?_installed`: The library of a tree has one definition for each source
  that compiles.
* `EmbeddedEngine.Follows.exists_stocked`: Every reachable engine has the library of its tree.
* `EmbeddedEngine.Stocked.pointing`: An untouched value has the functions of its tree.
-/

namespace MapStyling

namespace EmbeddedEngine

variable {L : EmbeddedLanguage}

/-- What function scalars come to one after the other, after so many functions: the value and
    the script with the definition, or nothing where a source does not compile. -/
def definedFunctions : Nat → List String → List (Option (L.Value × L.Script))
  | _, [] => []
  | made, source :: sources => match defineFunction made source with
    | .ok f => some f :: definedFunctions (made + 1) sources
    | .error _ => none :: definedFunctions made sources

/-- The definitions that wait, and how many functions were made, after one more source. -/
def stepMade (counted : List L.Script × Nat) (source : String) : List L.Script × Nat :=
  match (defineFunction counted.2 source : Except _ (L.Value × L.Script)) with
  | .ok f => (counted.1 ++ [L.definitionsOnly f.2], counted.2 + 1)
  | .error _ => counted

/-- Nothing but making functions changes what waits. -/
theorem counts_made : Seeding.Counts
    (fun e : EmbeddedEngine L => (e.pending.map Prod.snd, e.made)) stepMade where
  pushNull := fun _ => rfl
  pushBoolean := fun _ _ => rfl
  pushNumber := fun _ _ => rfl
  pushText := fun _ _ => rfl
  pushArray := fun _ => rfl
  pushObject := fun _ => rfl
  pushFunction := by
    intro source e
    change (((pushFunction source).run e).2.pending.map Prod.snd,
      ((pushFunction source).run e).2.made) = stepMade (e.pending.map Prod.snd, e.made) source
    rw [run_pushFunction, stepMade]
    dsimp only
    rcases (defineFunction e.made source : Except ScriptFault (L.Value × L.Script)) with
      fault | ⟨pointer, script⟩
    · rfl
    · dsimp only
      rw [List.map_append]
      rfl
  setElement := fun _ _ _ _ => rfl
  setField := fun _ _ _ _ => rfl

theorem foldl_stepMade (sources : List String) (waiting : List L.Script) (made : Nat) :
    (sources.foldl stepMade (waiting, made)).1 = waiting
      ++ ((definedFunctions made sources).filterMap (Option.map Prod.snd)).map
          L.definitionsOnly := by
  induction sources generalizing waiting made with
  | nil => exact (List.append_nil waiting).symm
  | cons source sources ih =>
      rw [List.foldl_cons, stepMade, definedFunctions]
      rcases defineFunction made source with fault | f
      · exact ih waiting made
      · dsimp only
        rw [ih, List.append_assoc]
        rfl

theorem map_passed (sources : List String) (waiting : List L.Script) (made : Nat) :
    (Seeding.passed stepMade (waiting, made) sources).map
        (fun m => (defineFunction m.2.2 m.1 : Except _ (L.Value × L.Script)).toOption)
      = definedFunctions made sources := by
  induction sources generalizing waiting made with
  | nil => rfl
  | cons source sources ih =>
      rw [Seeding.passed, List.map_cons, definedFunctions, stepMade]
      dsimp only
      rcases defineFunction made source with fault | f
      · exact congrArg (none :: ·) (ih waiting made)
      · exact congrArg (some f :: ·) (ih _ _)

/-- What is seen of the functions of a tree. -/
theorem madeOf_met {φ : Type} (pointer : L.Value → φ) (node : SceneNode) :
    View.Lawful.madeOf (view pointer) (Seeding.met node new)
      = (definedFunctions 0 node.functionTexts).map (Option.map fun f => pointer f.1) := by
  have hmet := (counts_made.pushNode node (new : EmbeddedEngine L)).2
  rw [← map_passed node.functionTexts [] 0, List.map_map]
  change _ = (Seeding.passed stepMade
    ((new : EmbeddedEngine L).pending.map Prod.snd, (new : EmbeddedEngine L).made) _).map _
  rw [← hmet, List.map_map]
  rfl

/-- The value of a tree is what the tree stands for. -/
theorem denotes_installed (hshape : L.ShapeLaws) (hvariable : L.VariableLaws) {φ : Type}
    (pointer : L.Value → φ) (node : SceneNode) (e : EmbeddedEngine L) :
    (view pointer).Denotes (fun _ => True) e (installed node).2 (node.content
      ((definedFunctions 0 node.functionTexts).map (Option.map fun f => pointer f.1))) := by
  have hbuilt := (lawful hshape hvariable pointer).built_pushNode node new _ node.fits_all trivial
    List.prefix_rfl
  rcases hbuilt.getElem? with ⟨v, hv, hdenotes⟩
  rw [madeOf_met] at hdenotes
  have hvalue : (installed node).2 = v := value_of_stack hv
  rw [hvalue]
  exact hdenotes.mono fun _ _ => ⟨trivial, rfl⟩

/-- The library of a tree has the definitions of its functions, the later over the
    earlier. -/
theorem installed_library (node : SceneNode) : (installed node : L.Script × L.Value).1
    = (((definedFunctions 0 node.functionTexts).filterMap (Option.map Prod.snd)).map
        L.definitionsOnly).foldl L.merge L.noScript := by
  have hcount := congrArg Prod.fst (counts_made.pushNode node (new : EmbeddedEngine L)).1
  change ((Seeding.pushNode node).run (new : EmbeddedEngine L)).2.pending.map Prod.snd
    = (node.functionTexts.foldl stepMade ([], 0)).1 at hcount
  rw [foldl_stepMade, List.nil_append] at hcount
  rw [← hcount, List.foldl_map]
  rfl

theorem functionName_injective {m n : Nat} (h : functionName m = functionName n) : m = n :=
  Digits.text_injective (String.append_right_inj _ |>.mp h)

section

variable (F : L.FunctionLaws)

/-- A value and a script that were made of a definition: the value has its name, and the script
    has no other definition. -/
structure MadeOf (f : L.Value × L.Script) (d : F.Definition) : Prop where
  pointer : F.pointer? f.1 = some (F.name d)
  only : F.Only f.2 d

/-- A source that leaves one definition behind, under the name that is chosen after so many
    functions, and a value of this name, if it compiles. -/
def SpellsOnce (made : Nat) (source : String) : Prop :=
  ∀ f, defineFunction made source = .ok f →
    ∃ d, F.name d = functionName made ∧ MadeOf F f d

end

end EmbeddedEngine

/-- Trees whose sources spell one function each, whatever name is chosen for it. -/
def SceneNode.SpellsOnce {L : EmbeddedLanguage} (F : L.FunctionLaws) (node : SceneNode) : Prop :=
  ∀ source ∈ node.functionTexts, ∀ made < node.functionTexts.length,
    EmbeddedEngine.SpellsOnce F made source

namespace EmbeddedEngine

variable {L : EmbeddedLanguage} {F : L.FunctionLaws}

/-- What sources come to that spell one function each. -/
theorem exists_definitions (sources : List String) (made : Nat)
    (h : ∀ source ∈ sources, ∀ n < made + sources.length, SpellsOnce F n source) :
    ∃ definitions : List (Option F.Definition),
      List.Forall₂ (Option.Rel (MadeOf F)) (definedFunctions made sources) definitions ∧
      (definitions.filterMap id).map F.name
        = (List.range' made (definitions.filterMap id).length).map functionName := by
  induction sources generalizing made with
  | nil => exact ⟨[], .nil, rfl⟩
  | cons source sources ih =>
      rw [List.length_cons] at h
      have hfirst := h source List.mem_cons_self made (by omega)
      rw [definedFunctions]
      rcases hdefined : (defineFunction made source : Except _ (L.Value × L.Script)) with fault | f
      · -- A source that does not compile takes no number, so the count stays.
        rcases ih made fun s hs n hn => h s (List.mem_cons_of_mem _ hs) n (by omega) with
          ⟨definitions, hmade, hnames⟩
        exact ⟨none :: definitions, .cons .none hmade, hnames⟩
      · rcases hfirst f hdefined with ⟨d, hname, hd⟩
        rcases ih (made + 1) fun s hs n hn => h s (List.mem_cons_of_mem _ hs) n (by omega) with
          ⟨definitions, hmade, hnames⟩
        refine ⟨some d :: definitions, .cons (.some hd) hmade, ?_⟩
        have hcons : (some d :: definitions).filterMap id = d :: definitions.filterMap id := rfl
        rw [hcons, List.map_cons, List.length_cons, List.range'_succ, List.map_cons, hnames, hname]

/-- The library of a tree has one definition for each source that compiles, under a name of
    its own, and no others. -/
theorem find?_installed {node : SceneNode} (h : node.SpellsOnce F) :
    ∃ definitions : List (Option F.Definition),
      List.Forall₂ (Option.Rel (MadeOf F)) (definedFunctions 0 node.functionTexts) definitions ∧
      (definitions.filterMap id).map F.name
        = (List.range (definitions.filterMap id).length).map functionName ∧
      ((definitions.filterMap id).map F.name).Nodup ∧
      ∀ n count, F.find? (installed node).1 n count
        = (definitions.filterMap id).find? (F.Fits n count) := by
  have hall : ∀ source ∈ node.functionTexts, ∀ n < 0 + node.functionTexts.length,
      SpellsOnce F n source := by
    intro source hs n hn
    rw [Nat.zero_add] at hn
    exact h source hs n hn
  rcases exists_definitions node.functionTexts 0 hall with ⟨definitions, hmade, hnames⟩
  have hnodup : ((definitions.filterMap id).map F.name).Nodup := by
    rw [hnames]
    exact List.Nodup.map (fun _ _ => functionName_injective) List.nodup_range'
  -- Each script that waits has one definition, so the names are different in all of them.
  have honly : List.Forall₂ F.Only
      ((definedFunctions 0 node.functionTexts).filterMap (Option.map Prod.snd))
      (definitions.filterMap id) :=
    List.rel_filterMap (fun f d hfd => by
      cases hfd with
      | none => exact .none
      | some hmadeOf => exact .some hmadeOf.only) hmade
  rw [← List.range_eq_range'] at hnames
  refine ⟨definitions, hmade, hnames, hnodup, fun n count => ?_⟩
  rw [installed_library,
    EmbeddedLanguage.FunctionLaws.find?_foldl_merge honly hnodup, F.find?_noScript,
    Option.or_none]

variable (F) in
/-- An engine between two calls with the library of a tree, if there is one. There is a
    definition for each function scalar that compiles and no other, and the scalars and
    their definitions stand in the same order. -/
structure Stocked (tree : Option SceneNode) (definitions : List (Option F.Definition))
    (e : EmbeddedEngine L) : Prop extends Resting e where
  defined : List.Forall₂ (Option.Rel (MadeOf F))
    (definedFunctions 0 ((tree.map SceneNode.functionTexts).getD [])) definitions
  library : ∀ n count, F.find? e.library n count
    = (definitions.filterMap id).find? (F.Fits n count)
  names : (definitions.filterMap id).map F.name
    = (List.range (definitions.filterMap id).length).map functionName
  distinct : ((definitions.filterMap id).map F.name).Nodup

variable (F) in
/-- What a tree stands for over definitions: its functions are their names. Without a tree
    this is null. -/
def contentOver (tree : Option SceneNode) (definitions : List (Option F.Definition)) :
    Content (Option String) :=
  (tree.map fun node =>
    node.content (definitions.map (Option.map fun d => some (F.name d)))).getD .null

variable (F) in
/-- An engine whose globals are what a tree stands for, each function under the name of the
    definition of its scalar. -/
def Pointing (tree : Option SceneNode) (definitions : List (Option F.Definition))
    (e : EmbeddedEngine L) : Prop :=
  ∃ v, L.getVariable? e.scope globalsName = some v ∧
    (view F.pointer?).Denotes (fun _ => True) e v (contentOver F tree definitions)

section

variable {x : Installs} {s : Session (EmbeddedEngine L)} {tree : Option SceneNode}
  {definitions : List (Option F.Definition)} {e : EmbeddedEngine L}

/-- A session has the library of the tree that was installed in it last. -/
theorem Follows.exists_stocked (h : Follows x s)
    (hspells : ∀ node, x.tree = some node → node.SpellsOnce F) :
    ∃ definitions, Stocked F x.tree definitions s.engine := by
  have hlibrary := h.library
  -- Without a tree nothing is defined, as on a new engine.
  rcases htree : x.tree with _ | node
  · rw [htree] at hlibrary
    change s.engine.library = L.noScript at hlibrary
    refine ⟨[], h.resting, .nil, fun n count => ?_, rfl, List.nodup_nil⟩
    rw [hlibrary, F.find?_noScript]
    rfl
  · rw [htree] at hlibrary
    change s.engine.library = (installed node).1 at hlibrary
    rcases find?_installed (hspells node htree) with ⟨definitions, hmade, hnames, hdistinct, hfind⟩
    rw [← hlibrary] at hfind
    exact ⟨definitions, h.resting, hmade, hfind, hnames, hdistinct⟩

/-- The names of the functions are those of their definitions. -/
theorem Stocked.map_pointer (h : Stocked F tree definitions e) :
    (definedFunctions 0 ((tree.map SceneNode.functionTexts).getD [])).map
        (Option.map fun f => F.pointer? f.1)
      = definitions.map (Option.map fun d => some (F.name d)) := by
  rw [← List.forall₂_eq_eq_eq, List.forall₂_map_left_iff, List.forall₂_map_right_iff]
  refine h.defined.imp fun f d hfd => ?_
  cases hfd with
  | none => rfl
  | some hmade => exact congrArg some hmade.pointer

/-- The names of the definitions, as the functions show them. -/
theorem Stocked.map_name (h : Stocked F tree definitions e) : definitions.map (Option.map F.name)
    = (definedFunctions 0 ((tree.map SceneNode.functionTexts).getD [])).map
        fun made => made.bind fun f => F.pointer? f.1 := by
  rw [← List.forall₂_eq_eq_eq, List.forall₂_map_left_iff, List.forall₂_map_right_iff]
  refine (h.defined.imp fun f d hfd => ?_).flip
  cases hfd with
  | none => rfl
  | some hmade => exact hmade.pointer.symm

/-- The value of a tree that no script has touched has the functions of the tree. -/
theorem Stocked.pointing (hshape : L.ShapeLaws) (hvariable : L.VariableLaws)
    (h : Stocked F tree definitions e)
    (hglobals : L.getVariable? e.scope globalsName = some (treeValue tree)) :
    Pointing F tree definitions e := by
  refine ⟨_, hglobals, ?_⟩
  rcases tree with _ | node
  · refine .null trivial ?_
    change L.look F.pointer? L.unit = .null
    rw [EmbeddedLanguage.look, hshape.unit]
  · have hdenotes := denotes_installed hshape hvariable F.pointer? node e
    have hnames := h.map_pointer
    dsimp only [Option.map_some, Option.getD_some] at hnames
    rw [hnames] at hdenotes
    exact hdenotes

/-- A definition of a tree is found in its library by its name, for as many arguments as it has
    parameters. -/
theorem Stocked.find?_library (h : Stocked F tree definitions e) {d : F.Definition}
    (hd : some d ∈ definitions) (count : Nat) :
    F.find? e.library (F.name d) count = if count = F.arity d then some d else none := by
  rw [h.library]
  exact EmbeddedLanguage.FunctionLaws.find?_of_nodup (List.mem_filterMap.mpr ⟨some d, hd, rfl⟩)
    h.distinct count

variable (F) in
/-- The name of the function that a map has as a field. -/
def pointerAt? (v : L.Value) (name : String) : Option String :=
  match L.shape v with
  | .map entries => (entries.lookup name).bind F.pointer?
  | _ => none

/-- A function that a value has as a field has its name. -/
theorem pointerAt?_of_denotes {P : L.Value → Prop} {v : L.Value}
    {fields : List (String × Content (Option String))} {name : String} {f : Option String}
    (h : (view F.pointer?).Denotes P e v (.object fields)) (hmem : (name, .function f) ∈ fields) :
    pointerAt? F v name = f := by
  cases h with
  | @object _ get _ _ hlook hnames hfields =>
      have hnamed : (get name).isSome = true :=
        (hnames name).mpr (List.mem_map_of_mem (f := Prod.fst) hmem)
      rcases Option.isSome_iff_exists.mp hnamed with ⟨w, hw⟩
      rcases shape_of_look_object hlook with ⟨entries, hentries, rfl⟩
      have hpointer : f = F.pointer? w := by
        cases hfields name w _ hw hmem with
        | function _ hlook => exact (shape_of_look_function hlook).2
      have hlookup : entries.lookup name = some w := hw
      rw [pointerAt?, hentries, hpointer]
      dsimp only
      rw [hlookup, Option.bind_some]

end

end EmbeddedEngine

end MapStyling
