import MapStyling.Proofs.Calls

/-!
# Contents of Trees

What a config tree stands for, apart from any engine.

A tree stands for a value without cells, copies or handles. Only its functions
depend on the engine: whether a source compiles is for the engine to say, and
what comes of it may hang on what was made before. So the content of a tree is
taken over the functions made of its function scalars, in the order in which
they are come to, and these are told apart by the states of the engine in which
they are come to.

Of the entries of a mapping, those under a scalar count, and of several under one
key the last.

## Main definitions

* `Content`: Values as trees.
* `SceneNode.content`: What a tree stands for, over the functions made.
* `Seeding.met`: The function scalars of a tree, with the states of the engine.
* `Asked`, `SceneNode.Fits`: What a tree asks of an engine.
* `Seeding.Counts`, `Seeding.passed`: Readings of an engine that only functions change.

## Theorems

* `Seeding.map_fst_met`: Every function scalar that has a place is come to.
* `Seeding.Counts.pushNode`: What such a reading comes to while a tree is built.
* `SceneNode.fits_all`: An engine that can be asked for everything can be asked for
  every tree.
-/

namespace MapStyling

/-- Values as trees, with functions of some kind. No name is twice among the fields of
    an object. -/
inductive Content (φ : Type)
  | null
  | truth (b : Bool)
  | number (v : Float)
  | text (s : String)
  | function (f : φ)
  | array (items : List (Content φ))
  | object (fields : List (String × Content φ))

/-- What an engine is asked for while a tree is built. -/
structure Asked where
  sources : String → Prop
  names : String → Prop
  positions : Nat → Prop

/-- All there is to ask for. -/
def Asked.all : Asked := ⟨fun _ => True, fun _ => True, fun _ => True⟩

namespace SceneNode

/-- Whether a scalar is taken for a function. -/
def isFunctionText (text : String) : Bool := "function".toList.isPrefixOf text.toList

section

variable {φ : Type}

/-- What a scalar stands for that is not taken for a function. -/
def plainContent (text : String) : Content φ :=
  match truthOf? text with
  | some b => .truth b
  | none => match numberOf? text with
    | some v => .number v
    | none => .text text

mutual

/-- What a tree stands for, with what was made of its function scalars one after the
    other. -/
def content : SceneNode → List (Option φ) → Content φ
  | null, _ => .null
  | scalar text, made =>
    if isFunctionText text then match made.head?.join with
      | some f => .function f
      | none => .text text
    else plainContent text
  | sequence items, made => .array (contentOfItems items made)
  | mapping entries, made => .object (contentOfEntries entries made)

def contentOfItems : List SceneNode → List (Option φ) → List (Content φ)
  | [], _ => []
  | item :: items, made =>
    content item made :: contentOfItems items (made.drop item.functionTexts.length)

/-- The entries under scalars. An entry is left out if one of its name comes later. -/
def contentOfEntries : List (SceneNode × SceneNode) → List (Option φ) → List (String × Content φ)
  | [], _ => []
  | (.scalar name, node) :: entries, made =>
    let fields := contentOfEntries entries (made.drop node.functionTexts.length)
    if name ∈ fields.map Prod.fst then fields else (name, content node made) :: fields
  | _ :: entries, made => contentOfEntries entries made

end

end

mutual

/-- A tree that asks for no more than it may. -/
def Fits (asked : Asked) : SceneNode → Prop
  | null => True
  | scalar text => isFunctionText text = true → asked.sources text
  | sequence items => FitsItems asked 0 items
  | mapping entries => FitsEntries asked entries

def FitsItems (asked : Asked) : Nat → List SceneNode → Prop
  | _, [] => True
  | i, item :: items => Fits asked item ∧ asked.positions i ∧ FitsItems asked (i + 1) items

def FitsEntries (asked : Asked) : List (SceneNode × SceneNode) → Prop
  | [] => True
  | (.scalar name, node) :: entries =>
    Fits asked node ∧ asked.names name ∧ FitsEntries asked entries
  | _ :: entries => FitsEntries asked entries

end

mutual

/-- An engine that can be asked for everything can be asked for every tree. -/
theorem fits_all : ∀ node : SceneNode, node.Fits .all
  | .null => by rw [Fits]; trivial
  | .scalar text => by rw [Fits]; exact fun _ => trivial
  | .sequence items => by rw [Fits]; exact fitsItems_all 0 items
  | .mapping entries => by rw [Fits]; exact fitsEntries_all entries

theorem fitsItems_all : ∀ (i : Nat) (items : List SceneNode), FitsItems .all i items
  | _, [] => by rw [FitsItems]; trivial
  | i, item :: items => by
      rw [FitsItems]
      exact ⟨fits_all item, trivial, fitsItems_all (i + 1) items⟩

theorem fitsEntries_all : ∀ entries : List (SceneNode × SceneNode), FitsEntries .all entries
  | [] => by rw [FitsEntries]; trivial
  | (.scalar name, node) :: entries => by
      rw [FitsEntries]
      exact ⟨fits_all node, trivial, fitsEntries_all entries⟩
  | (.null, _) :: entries | (.sequence _, _) :: entries | (.mapping _, _) :: entries => by
      simp only [FitsEntries]
      exact fitsEntries_all entries

end

end SceneNode

namespace Seeding

variable {σ : Type} [Engine σ]

mutual

/-- The function scalars of a tree in the order in which they are come to, each with the
    state of the engine. -/
def met : SceneNode → σ → List (String × σ)
  | .null, _ => []
  | .scalar text, e => if SceneNode.isFunctionText text then [(text, e)] else []
  | .sequence items, e =>
    let array := (Engine.pushArray : StateM σ Handle).run e
    metInItems array.1 0 items array.2
  | .mapping entries, e =>
    let object := (Engine.pushObject : StateM σ Handle).run e
    metInEntries object.1 entries object.2

def metInItems (array : Handle) : Nat → List SceneNode → σ → List (String × σ)
  | _, [], _ => []
  | i, item :: items, e =>
    let value := (pushNode item).run e
    met item e ++ metInItems array (i + 1) items
      ((Engine.setElement array i value.1 : StateM σ Unit).run value.2).2

def metInEntries (object : Handle) : List (SceneNode × SceneNode) → σ → List (String × σ)
  | [], _ => []
  | (.scalar name, node) :: entries, e =>
    let value := (pushNode node).run e
    met node e ++ metInEntries object entries
      ((Engine.setField object name value.1 : StateM σ Unit).run value.2).2
  | _ :: entries, e => metInEntries object entries e

end

mutual

/-- Every function scalar that has a place is come to. -/
theorem map_fst_met : ∀ (node : SceneNode) (e : σ),
    (met node e).map Prod.fst = node.functionTexts
  | .null, e => by rw [met, SceneNode.functionTexts, List.map_nil]
  | .scalar text, e => by
      rw [met, SceneNode.functionTexts, SceneNode.isFunctionText]
      split <;> rfl
  | .sequence items, e => by
      rw [met, SceneNode.functionTexts]
      exact map_fst_metInItems _ 0 items _
  | .mapping entries, e => by
      rw [met, SceneNode.functionTexts]
      exact map_fst_metInEntries _ entries _

theorem map_fst_metInItems (array : Handle) : ∀ (i : Nat) (items : List SceneNode) (e : σ),
    (metInItems array i items e).map Prod.fst = SceneNode.functionTextsOfItems items
  | _, [], _ => by rw [metInItems, SceneNode.functionTextsOfItems, List.map_nil]
  | i, item :: items, e => by
      rw [metInItems, SceneNode.functionTextsOfItems, List.map_append, map_fst_met item,
        map_fst_metInItems array (i + 1) items]

theorem map_fst_metInEntries (object : Handle) :
    ∀ (entries : List (SceneNode × SceneNode)) (e : σ),
    (metInEntries object entries e).map Prod.fst = SceneNode.functionTextsOfEntries entries
  | [], _ => by rw [metInEntries, SceneNode.functionTextsOfEntries, List.map_nil]
  | (.scalar name, node) :: entries, e => by
      rw [metInEntries, SceneNode.functionTextsOfEntries, List.map_append, map_fst_met node,
        map_fst_metInEntries object entries]
  | (.null, _) :: entries, e | (.sequence _, _) :: entries, e | (.mapping _, _) :: entries, e => by
      simp only [metInEntries, SceneNode.functionTextsOfEntries]
      exact map_fst_metInEntries object entries e

end

theorem length_met (node : SceneNode) (e : σ) :
    (met node e).length = node.functionTexts.length := by
  rw [← map_fst_met node e, List.length_map]

section

variable {α : Type}

/-- The values that a reading has at some sources, one after the other. -/
def passed (step : α → String → α) : α → List String → List (String × α)
  | _, [] => []
  | a, source :: sources => (source, a) :: passed step (step a source) sources

theorem passed_append (step : α → String → α) (sources others : List String) (a : α) :
    passed step a (sources ++ others)
      = passed step a sources ++ passed step (sources.foldl step a) others := by
  induction sources generalizing a with
  | nil => rfl
  | cons source sources ih => rw [List.cons_append, passed, ih, passed, List.cons_append,
      List.foldl_cons]

/-- A reading of an engine that nothing changes but making functions. -/
structure Counts (g : σ → α) (step : α → String → α) : Prop where
  pushNull : ∀ e, g ((Engine.pushNull : StateM σ Handle).run e).2 = g e
  pushBoolean : ∀ b e, g ((Engine.pushBoolean b : StateM σ Handle).run e).2 = g e
  pushNumber : ∀ x e, g ((Engine.pushNumber x : StateM σ Handle).run e).2 = g e
  pushText : ∀ s e, g ((Engine.pushText s : StateM σ Handle).run e).2 = g e
  pushArray : ∀ e, g ((Engine.pushArray : StateM σ Handle).run e).2 = g e
  pushObject : ∀ e, g ((Engine.pushObject : StateM σ Handle).run e).2 = g e
  pushFunction : ∀ source e,
    g ((Engine.pushFunction source : StateM σ (Except ScriptFault Handle)).run e).2
      = step (g e) source
  setElement : ∀ a i v e, g ((Engine.setElement a i v : StateM σ Unit).run e).2 = g e
  setField : ∀ o n v e, g ((Engine.setField o n v : StateM σ Unit).run e).2 = g e

namespace Counts

variable {g : σ → α} {step : α → String → α}

theorem pushScalar (h : Counts g step) (text : String) (e : σ) :
    g ((Seeding.pushScalar text : StateM σ Handle).run e).2
      = (SceneNode.scalar text).functionTexts.foldl step (g e) := by
  rw [SceneNode.functionTexts]
  unfold Seeding.pushScalar
  by_cases hf : "function".toList.isPrefixOf text.toList
  · rw [if_pos hf, if_pos hf, run_bind_state, List.foldl_cons, List.foldl_nil, ← h.pushFunction]
    rcases (Engine.pushFunction text : StateM σ (Except ScriptFault Handle)).run e with ⟨_ | v, e₁⟩
    · exact h.pushText text e₁
    · rfl
  · rw [if_neg hf, if_neg hf, List.foldl_nil]
    generalize SceneNode.truthOf? text = truth
    generalize SceneNode.numberOf? text = number
    rcases truth with _ | b
    · rcases number with _ | x
      · exact h.pushText text e
      · exact h.pushNumber x e
    · exact h.pushBoolean b e

mutual

/-- What a reading comes to while a tree is built: it steps at each function scalar, and has
    the values in between when these are come to. -/
theorem pushNode (h : Counts g step) : ∀ (node : SceneNode) (e : σ),
    g ((Seeding.pushNode node : StateM σ Handle).run e).2 = node.functionTexts.foldl step (g e) ∧
      (met node e).map (fun m => (m.1, g m.2)) = passed step (g e) node.functionTexts
  | .null, e => by
      rw [Seeding.pushNode, met, SceneNode.functionTexts]
      exact ⟨h.pushNull e, rfl⟩
  | .scalar text, e => by
      rw [Seeding.pushNode, h.pushScalar text e, met, SceneNode.functionTexts,
        SceneNode.isFunctionText]
      refine ⟨rfl, ?_⟩
      split <;> rfl
  | .sequence items, e => by
      rw [Seeding.pushNode, met, SceneNode.functionTexts, run_bind_state, ← h.pushArray e]
      exact pushItems h _ 0 items _
  | .mapping entries, e => by
      rw [Seeding.pushNode, met, SceneNode.functionTexts, run_bind_state, ← h.pushObject e]
      exact pushEntries h _ entries _

theorem pushItems (h : Counts g step) (a : Handle) : ∀ (i : Nat) (items : List SceneNode) (e : σ),
    g ((Seeding.pushItems a i items : StateM σ Unit).run e).2
        = (SceneNode.functionTextsOfItems items).foldl step (g e) ∧
      (metInItems a i items e).map (fun m => (m.1, g m.2))
        = passed step (g e) (SceneNode.functionTextsOfItems items)
  | _, [], e => by
      rw [Seeding.pushItems, metInItems, SceneNode.functionTextsOfItems]
      exact ⟨rfl, rfl⟩
  | i, item :: items, e => by
      rw [Seeding.pushItems, metInItems, SceneNode.functionTextsOfItems, run_bind_state,
        run_bind_state, List.foldl_append, passed_append, List.map_append]
      rcases pushNode h item e with ⟨hitem, hmet⟩
      generalize (Seeding.pushNode item : StateM σ Handle).run e = r at hitem ⊢
      -- Putting an item into the array counts nothing.
      have hset := (h.setElement a i r.1 r.2).trans hitem
      rcases pushItems h a (i + 1) items
        ((Engine.setElement a i r.1 : StateM σ Unit).run r.2).2 with ⟨hitems, hmets⟩
      rw [hset] at hitems hmets
      rw [hmet, hmets]
      exact ⟨hitems, rfl⟩

theorem pushEntries (h : Counts g step) (o : Handle) :
    ∀ (entries : List (SceneNode × SceneNode)) (e : σ),
    g ((Seeding.pushEntries o entries : StateM σ Unit).run e).2
        = (SceneNode.functionTextsOfEntries entries).foldl step (g e) ∧
      (metInEntries o entries e).map (fun m => (m.1, g m.2))
        = passed step (g e) (SceneNode.functionTextsOfEntries entries)
  | [], e => by
      rw [Seeding.pushEntries, metInEntries, SceneNode.functionTextsOfEntries]
      exact ⟨rfl, rfl⟩
  | (.scalar name, node) :: entries, e => by
      rw [Seeding.pushEntries, metInEntries, SceneNode.functionTextsOfEntries, run_bind_state,
        run_bind_state, List.foldl_append, passed_append, List.map_append]
      rcases pushNode h node e with ⟨hnode, hmet⟩
      generalize (Seeding.pushNode node : StateM σ Handle).run e = r at hnode ⊢
      have hset := (h.setField o name r.1 r.2).trans hnode
      rcases pushEntries h o entries ((Engine.setField o name r.1 : StateM σ Unit).run r.2).2 with
        ⟨hentries, hmets⟩
      rw [hset] at hentries hmets
      rw [hmet, hmets]
      exact ⟨hentries, rfl⟩
  -- A key that is no scalar is no name, and its entry is left out.
  | (.null, _) :: entries, e | (.sequence _, _) :: entries, e | (.mapping _, _) :: entries, e => by
      simp only [Seeding.pushEntries, metInEntries, SceneNode.functionTextsOfEntries]
      exact pushEntries h o entries e

end

end Counts

end

end Seeding

end MapStyling
