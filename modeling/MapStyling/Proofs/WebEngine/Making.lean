import MapStyling.Proofs.WebEngine.Twins
import MapStyling.Proofs.WebLanguage.Settings

/-!
# What Engines of Web Scripts Make

Trees, features and functions, as values that an engine makes of nothing.

Between two calls an engine has nothing on its stack. A tree of globals is then built of
nothing but what is pushed for it, so it is made by operations of the language that use no
value from before, and so are the object of a feature and the value of a source. What the
engine does with them is to set a variable, or to write to its table.

## Main definitions

* `WebEngine.variableNames`: The variables that an engine sets.
* `WebEngine.treeValue`, `WebEngine.sourceValue`: The value of a tree, and that of a source.
* `WebEngine.compiles`: Whether the value of a source is a function.

## Theorems

* `WebEngine.made_treeValue`, `WebEngine.made_featureObject`, `WebEngine.made_sourceValue`:
  These are made of nothing.
* `WebEngine.run_installGlobals_of_tree`: What installing a tree does.
* `WebEngine.compiles_eq`: A source compiles in both of two related contexts or in neither.
-/

namespace MapStyling

open WebLanguage

namespace WebEngine

/-- Names of the variables that an engine sets. -/
def variableNames : List String := [featureName, globalName, zoomName, geometryName]

theorem mem_variableNames : featureName ∈ variableNames ∧ globalName ∈ variableNames ∧
    zoomName ∈ variableNames ∧ geometryName ∈ variableNames := by
  decide

variable {L : WebLanguage} {S : String → Prop} {T : Holding L → Holding L → Prop}

/-- The value of a tree. -/
def treeValue (node : SceneNode) : StateM L.Context L.Value := fun c =>
  let r := (Seeding.pushNode node).run (⟨c, .empty, .empty⟩ : WebEngine L)
  (r.2.value r.1, r.2.context)

/-- The value of a source, whether it is a function or not. -/
def sourceValue (source : String) : StateM L.Context L.Value := do
  return valueOf (← L.evaluate (scriptText source))

/-- Whether the value of a source is a function. -/
def compiles (source : String) (c : L.Context) : Bool :=
  ((compile source).run (⟨c, .empty, .empty⟩ : WebEngine L)).1.isOk

/-- Values at a position can be held at one where there is something. -/
theorem exists_beside (hT : Bisimulation (Operation.Makes S) T) {c c' : L.Context}
    {vs vs' : List L.Value} (h : T ⟨c, vs⟩ ⟨c', vs'⟩) (i : Nat) :
    ∃ ws ws', T ⟨c, ws⟩ ⟨c', ws'⟩ ∧
      Beside ws ws' (Holding.value ⟨c, vs⟩ i) (Holding.value ⟨c', vs'⟩ i) := by
  have hlength : vs'.length = vs.length := hT.length _ _ h
  rcases Nat.lt_or_ge i vs.length with hi | hi
  · have hi' : i < vs'.length := by rwa [hlength]
    refine ⟨vs, vs', h, i, ?_, ?_⟩
    · rw [Holding.value, List.getElem?_eq_getElem hi]
      rfl
    · rw [Holding.value, List.getElem?_eq_getElem hi']
      rfl
  · have hi' : vs'.length ≤ i := by rwa [hlength]
    refine ⟨_, _, (hT.step _ _ h (.constant .undefined) trivial).2, ?_⟩
    rw [Holding.value, Holding.value, List.getElem?_eq_none hi, List.getElem?_eq_none hi']
    exact .last hlength _ _

/-- Engines in related contexts, with nothing on their stacks and in their tables. -/
theorem joined_empty {c c' : L.Context} (h : T ⟨c, []⟩ ⟨c', []⟩) :
    Joined T [] [] (⟨c, .empty, .empty⟩ : WebEngine L) ⟨c', .empty, .empty⟩ :=
  ⟨h, .nil, .nil⟩

theorem made_treeValue {node : SceneNode} (hs : ∀ s ∈ node.functionTexts, S (scriptText s)) :
    Made S (treeValue node : StateM L.Context L.Value) := by
  intro T hT c c' h
  rcases (builds_twins hT fun _ ho => ho).pushNode node hs _ _ (joined_empty h).twins with
    ⟨hhandle, vs, vs', hbuilt⟩
  have hrun : ∀ c : L.Context, (treeValue node).run c
      = (let r := (Seeding.pushNode node).run (⟨c, .empty, .empty⟩ : WebEngine L)
        (r.2.value r.1, r.2.context)) := fun _ => rfl
  rw [hrun, hrun]
  dsimp only
  rw [hhandle]
  generalize (Seeding.pushNode node).run (⟨c, .empty, .empty⟩ : WebEngine L) = r at hbuilt ⊢
  generalize ((Seeding.pushNode node).run (⟨c', .empty, .empty⟩ : WebEngine L)).2 = e' at hbuilt ⊢
  rcases hbuilt.position hT r.1 with ⟨i, hi, hi'⟩
  rw [← hi, ← hi']
  exact exists_beside hT hbuilt.related i

theorem made_featureObject (f : Feature) : Made S (featureObject f : StateM L.Context L.Value) := by
  intro T hT c c' h
  rcases (joined_empty h).act hT (o := .newObject) trivial with ⟨-, hnew⟩
  rcases hnew.addProperties hT (fun _ ho => ho) f.properties.entries
    (.last (hT.length _ _ h) _ _) with ⟨ws, ws', hadded, hobject⟩
  exact ⟨ws, ws', hadded.related, hobject⟩

theorem made_sourceValue {source : String} (hs : S (scriptText source)) :
    Made S (sourceValue source : StateM L.Context L.Value) := by
  intro T hT c c' h
  exact ⟨_, _, (hT.step _ _ h (.evaluate (scriptText source)) hs).2, .last (hT.length _ _ h) _ _⟩

/-- A source compiles in both of two related contexts or in neither. -/
theorem compiles_eq (hT : Bisimulation (Operation.Makes S) T) {source : String}
    (hs : S (scriptText source)) {c c' : L.Context} {vs vs' : List L.Value}
    (h : T ⟨c, vs⟩ ⟨c', vs'⟩) : compiles source c' = compiles source c := by
  have hjoined : Joined T vs vs' (⟨c, .empty, .empty⟩ : WebEngine L) ⟨c', .empty, .empty⟩ :=
    ⟨h, .nil, .nil⟩
  rcases hjoined.compile hT (fun _ => trivial) hs with ⟨v, v', -, hended⟩
  unfold compiles
  generalize ((compile source).run (⟨c, .empty, .empty⟩ : WebEngine L)).1 = r at hended ⊢
  generalize ((compile source).run (⟨c', .empty, .empty⟩ : WebEngine L)).1 = r' at hended ⊢
  cases hended <;> rfl

/-- What reading a source does, by what it makes. -/
theorem run_compile_eq (source : String) (e : WebEngine L) :
    ((compile source).run e).1.toOption
        = (if compiles source e.context then some
          ((sourceValue source).run e.context).1 else none) ∧
      ((compile source).run e).2 =
        { e with context := ((sourceValue source).run e.context).2 } := by
  have hfst : ((compile source).run (⟨e.context, .empty, .empty⟩ : WebEngine L)).1
      = ((compile source).run e).1 := run_compile_fst source rfl
  have hvalue : ∀ v, ((compile source).run e).1 = .ok v →
      v = ((sourceValue source).run e.context).1 := by
    intro v hv
    change v = valueOf ((L.evaluate (scriptText source)).run e.context).1
    rw [run_compile] at hv
    generalize (L.evaluate (scriptText source)).run e.context = r at hv ⊢
    rcases r with ⟨_ | w, c⟩
    · cases hv
    · dsimp only at hv
      split at hv
      · exact (Except.ok.inj hv).symm
      · cases hv
  refine ⟨?_, run_compile_snd source e⟩
  unfold compiles
  rw [hfst]
  generalize ((compile source).run e).1 = r at hvalue ⊢
  rcases r with fault | v
  · rfl
  · exact congrArg some (hvalue v rfl)

/-- Building does not see the functions in the table. -/
theorem builds_withFunctions (functions : FunctionTable L.Value) :
    Engine.Builds (fun _ => True) fun e e' : WebEngine L => e' = { e with functions } := by
  have hpush : ∀ v : L.Value,
      Agree (fun e e' : WebEngine L => e' = { e with functions }) (push v) := by
    rintro v e e' rfl
    exact ⟨rfl, rfl⟩
  exact {
    pushNull := hpush _
    pushBoolean := fun _ => hpush _
    pushNumber := fun _ => hpush _
    pushText := fun _ => hpush _
    pushArray := by
      rintro e e' rfl
      exact ⟨rfl, rfl⟩
    pushObject := by
      rintro e e' rfl
      exact ⟨rfl, rfl⟩
    pushFunction := by
      rintro source _ e e' rfl
      change ((pushFunction source).run { e with functions }).1 = ((pushFunction source).run e).1 ∧
        ((pushFunction source).run { e with functions }).2
          = { ((pushFunction source).run e).2 with functions }
      have hfst : ((compile source).run { e with functions }).1 = ((compile source).run e).1 :=
        run_compile_fst source rfl
      rw [run_pushFunction, run_pushFunction, hfst, run_compile_snd, run_compile_snd]
      rcases ((compile source).run e).1 with fault | v <;> exact ⟨rfl, rfl⟩
    setElement := by
      rintro a i v e e' rfl
      refine ⟨rfl, ?_⟩
      change ((setElement a i v).run { e with functions }).2
        = { ((setElement a i v).run e).2 with functions }
      rw [run_setElement, run_setElement]
      dsimp only
      have hsame : ∀ e : WebEngine L, ({ e with functions } : WebEngine L).isArray
          (({ e with functions } : WebEngine L).value a) = e.isArray (e.value a) := fun _ => rfl
      rw [hsame]
      split <;> rfl
    setField := by
      rintro o n v e e' rfl
      exact ⟨rfl, rfl⟩ }

/-- What a tree comes to on an engine between two calls. -/
theorem run_installGlobals_of_tree {globals : Option SceneNode} {node : SceneNode}
    (h : Seeding.tree? globals = some node) {e : WebEngine L} (he : e.stack = .empty) :
    (Seeding.installGlobals globals).run e
      = ((), { e with context := L.assign globalName (treeValue node) e.context }) := by
  have hstart : e
      = { (⟨e.context, .empty, .empty⟩ : WebEngine L) with functions := e.functions } := by
    rw [← he]
  rcases (builds_withFunctions e.functions).pushNode node (fun _ _ => trivial) _ e hstart with
    ⟨hhandle, hbuilt⟩
  have hset : ∀ (a : Handle) (e : WebEngine L),
      ((Engine.setGlobal globalName a : StateM (WebEngine L) Unit).run e).2
        = { e with context := L.withVariable globalName (e.value a) e.context } := fun _ _ => rfl
  rw [Engine.run_installGlobals, h]
  dsimp only
  rw [hset, hhandle, hbuilt]
  change ((), (⟨_, ValueStack.cut _ e.stack.height, e.functions⟩ : WebEngine L)) = _
  rw [he]
  exact congrArg (fun stack => ((), (⟨_, stack, e.functions⟩ : WebEngine L)))
    (ValueStack.cut_zero _)

end WebEngine

end MapStyling
