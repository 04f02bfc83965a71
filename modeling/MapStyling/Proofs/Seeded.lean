import MapStyling.Interpreters
import MapStyling.Proofs.EmbeddedEngine.View
import MapStyling.Proofs.EmbeddedScript.Laws
import MapStyling.Proofs.WebScript.View

/-!
# Seeded Globals

What scripts find in the global variable of a scene is what its tree says.

This holds of every engine that does what it is asked for, whether it copies its
values or shares them, and for every tree of which it can be asked. Both engines at
hand are of this kind.

## Theorems

* `globals_seeded`: What installing a tree of globals comes to.
-/

namespace MapStyling

/-- Installing globals changes nothing without a tree, or with an empty one. A tree becomes
    the value of the global variable: empty nodes are null, scalars are functions where they
    compile, and else texts, or truth values, numbers or texts; sequences are arrays of what
    their items stand for; and mappings are objects with a field for each name among their
    keys, as its last entry has it. The stack is what it was, and everything that was known
    looks as it did. -/
theorem globals_seeded {σ ν φ : Type} [Engine σ] {V : View σ ν φ} {asked : Asked}
    (h : V.Lawful asked) (globals : Option SceneNode)
    (hfits : ∀ node, globals = some node → node.Fits asked) (e : σ) (he : V.Sound e) :
    let e' := ((Seeding.installGlobals globals : StateM σ Unit).run e).2
    match Seeding.tree? globals with
    | none => e' = e
    | some node => V.stack e' = V.stack e ∧
        (∀ y, V.Known e y → V.look e' y = V.look e y) ∧
        ∃ v, V.global e' = some v ∧ V.Denotes (fun _ => True) e' v
          (node.content ((Seeding.met node e).map fun m => V.made m.2 m.1)) := by
  intro e'
  rcases htree : Seeding.tree? globals with _ | node
  · exact congrArg Prod.snd (Engine.run_installGlobals_of_none htree e)
  · have hbuilt := h.built_pushNode node e _ (hfits node (Seeding.eq_of_tree? htree)) he
      List.prefix_rfl
    have hrun : e' = _ := congrArg Prod.snd (Engine.run_installGlobals globals e)
    rw [htree] at hrun
    dsimp only at hrun
    rw [hrun]
    generalize (Seeding.pushNode node : StateM σ Handle).run e = r at hbuilt ⊢
    rcases hbuilt.getElem? with ⟨v, hv, hdenotes⟩
    have hset := h.setGlobal r.1 v r.2 hbuilt.keeps.sound hv
    generalize ((Engine.setGlobal globalName r.1 : StateM σ Unit).run r.2).2 = e₁ at hset ⊢
    rcases hset with ⟨hstack, hglobal, hkeeps⟩
    rcases hbuilt.value with ⟨_, more, hmore, _⟩
    have hclosed := h.reset e e₁ he (hbuilt.keeps.trans hkeeps)
      ⟨_, by rw [hstack, hmore]⟩
    generalize ((Engine.reset (Engine.mark e) : StateM σ Unit).run e₁).2 = e₂ at hclosed ⊢
    rcases hclosed with ⟨hstack', hglobal', hlook⟩
    refine ⟨hstack', fun y hy => ?_, v, hglobal'.trans hglobal, ?_⟩
    · rw [hlook y (Or.inl hy)]
      exact ((hbuilt.keeps.trans hkeeps).known y hy trivial).2
    · -- The global variable reaches the tree, so the tree looks as it did.
      have hset : V.Denotes (fun _ => True) e₁ v _ := hdenotes.mono fun y hy =>
        ⟨trivial, (hkeeps.known y hy.known trivial).2⟩
      have hreached : V.Denotes (V.Reached e₁) e₁ v _ :=
        hset.inside (.global hglobal) fun y w => .held
      exact hreached.mono fun y hy => ⟨trivial, hlook y (Or.inr hy)⟩

/-- A tree with a function, a text that looks like one, an entry without a name and two
    entries of one name. -/
def nestedTree : SceneNode :=
  .mapping [
    (.scalar "a", .sequence [.null, .scalar "function"]),
    (.null, .scalar "function () { 2 }"),
    (.scalar "f", .scalar "function () { return 1; }"),
    (.scalar "a", .sequence [.sequence [], .scalar "function of zoom"])]

/-- What the tree stands for, where its first function compiles and the others do not. -/
theorem content_nestedTree {φ : Type} (f : φ) : nestedTree.content [none, some f, none]
    = .object [("f", .function f), ("a", .array [.array [], .text "function of zoom"])] := by
  rfl

theorem globals_seeded_nestedTree :
    let view := EmbeddedEngine.view EmbeddedScript.functionLaws.pointer?
    (∃ e v, e = ((Seeding.installGlobals (some nestedTree)).run EmbeddedEngine.new).2 ∧
      view.stack e = [] ∧ view.global e = some v ∧
      view.Denotes (fun _ => True) e v (.object
        [("f", .function (some "scene_fn_0")),
          ("a", .array [.array [], .text "function of zoom"])])) ∧
    (∀ node, some nestedTree = some node → node.Fits WebScript.asked) ∧
    ∃ e v f, e = ((Seeding.installGlobals (some nestedTree)).run WebEngine.new).2 ∧
      WebScript.view.stack e = [] ∧ WebScript.view.global e = some v ∧
      WebScript.view.Denotes (fun _ => True) e v (.object
        [("f", .function f), ("a", .array [.array [], .text "function of zoom"])]) := by
  intro view
  have hfits : ∀ node, some nestedTree = some node → node.Fits WebScript.asked := by
    intro node hnode
    rw [← Option.some.inj hnode]
    have hinert : ∀ text ∈ ["function", "function () { return 1; }", "function of zoom"],
        WebScript.isInert (WebEngine.scriptText text) = true := by decide +kernel
    have hnames : ∀ name ∈ ["a", "f"], Units.ofString name ≠ WebScript.parentName := by
      decide
    have hpositions : WebScript.asked.positions 0 ∧ WebScript.asked.positions 1 := by
      change 0 < UInt32.size - 1 ∧ 1 < UInt32.size - 1
      decide
    simp only [List.forall_mem_cons] at hinert hnames
    exact ⟨⟨trivial, hpositions.1, fun _ => hinert.1, hpositions.2, trivial⟩, hnames.1,
      fun _ => hinert.2.1, hnames.2.1,
      ⟨trivial, hpositions.1, fun _ => hinert.2.2.1, hpositions.2, trivial⟩, hnames.1, trivial⟩
  refine ⟨?_, hfits, ?_⟩
  · have hmade : (Seeding.met nestedTree (EmbeddedEngine.new (L := EmbeddedScript.language))).map
        (fun m => view.made m.2 m.1) = [none, some (some "scene_fn_0"), none] := by
      decide +kernel
    rcases globals_seeded (EmbeddedEngine.lawful EmbeddedScript.shapeLaws
      EmbeddedScript.variableLaws _)
      (some nestedTree) (fun node _ => node.fits_all) EmbeddedEngine.new trivial with
      ⟨hstack, _, v, hglobal, hdenotes⟩
    rw [hmade, content_nestedTree] at hdenotes
    exact ⟨_, v, rfl, hstack, hglobal, hdenotes⟩
  · have hmade : ((Seeding.met nestedTree (WebEngine.new (L := WebScript.language))).map
        (fun m => WebScript.view.made m.2 m.1)).map Option.isSome = [false, true, false] := by
      decide +kernel
    rcases globals_seeded WebScript.lawful (some nestedTree) hfits WebEngine.new
      WebScript.backed_new with ⟨hstack, _, v, hglobal, hdenotes⟩
    generalize (Seeding.met nestedTree (WebEngine.new (L := WebScript.language))).map
      (fun m => WebScript.view.made m.2 m.1) = made at hmade hdenotes
    match made, hmade with
    | [none, some f, none], _ =>
      rw [content_nestedTree] at hdenotes
      exact ⟨_, v, f, rfl, hstack, hglobal, hdenotes⟩

end MapStyling
