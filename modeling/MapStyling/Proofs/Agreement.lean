import MapStyling.Session.Basic

/-!
# Agreement of Engines

Actions that give the same answer on two related states of an engine and relate
the states that they leave.

Building a tree of globals and reading a result are long actions over the few
operations of an engine. If the operations agree on a relation, so do they,
whatever the engine and whatever the relation: this is shown once, by induction
on the tree and by cases on the kind of the result. A property of one state is
a relation between the state and itself, so invariants are a case of this.

Sources of functions are singled out, since an engine may not agree on all of
them.

## Main definitions

* `Agree`: An action on related states.
* `Stable`: An action that preserves a property.
* `Engine.Builds`, `Engine.Reads`: Engines whose operations agree, as far as trees
  are built and results are read.
* `SceneNode.functionTexts`: The scalars of a tree that are taken for functions.

## Theorems

* `Engine.Builds.pushNode`: Trees are built alike.
* `Engine.Reads.decode`: Results are read alike.
-/

namespace MapStyling

/-- An action that answers alike on related states and relates what it leaves. -/
def Agree {σ α : Type} (R : σ → σ → Prop) (action : StateM σ α) : Prop :=
  ∀ e e', R e e' → (action.run e').1 = (action.run e).1 ∧ R (action.run e).2 (action.run e').2

/-- An action that preserves a property. -/
def Stable {σ α : Type} (P : σ → Prop) (action : StateM σ α) : Prop :=
  ∀ e, P e → P (action.run e).2

/-- A property, as a relation of a state and itself. -/
def Diagonal {σ : Type} (P : σ → Prop) (e e' : σ) : Prop := e' = e ∧ P e

/-- An action goes on in the state that the one before it left. -/
theorem run_bind_state {σ α β : Type} (action : StateM σ α) (f : α → StateM σ β) (e : σ) :
    (action >>= f).run e = (f (action.run e).1).run (action.run e).2 := rfl

theorem run_get_state {σ : Type} (e : σ) : (get : StateM σ σ).run e = (e, e) := rfl

namespace Agree

variable {σ α β : Type} {R : σ → σ → Prop}

theorem pure (a : α) : Agree R (Pure.pure a : StateM σ α) :=
  fun _ _ h => ⟨rfl, h⟩

theorem bind {action : StateM σ α} {f : α → StateM σ β} (h : Agree R action)
    (hf : ∀ a, Agree R (f a)) : Agree R (action >>= f) := by
  intro e e' he
  rcases h e e' he with ⟨hans, hrel⟩
  have hrest := hf (action.run e).1 _ _ hrel
  rw [run_bind_state, run_bind_state, hans]
  exact hrest

/-- Reading the state, if what is made of it is the same on related states. -/
theorem get_bind {f : σ → StateM σ β} (h : ∀ e e', R e e' → f e' = f e)
    (hf : ∀ e, Agree R (f e)) : Agree R (get >>= f) := by
  intro e e' he
  have hrun : ∀ e, (get >>= f).run e = (f e).run e := fun _ => rfl
  rw [hrun e, hrun e', h e e' he]
  exact hf e e e' he

theorem of_stable {P : σ → Prop} {action : StateM σ α} (h : Stable P action) :
    Agree (Diagonal P) action := by
  intro e e' he
  rcases he with ⟨heq, hp⟩
  rw [heq]
  exact ⟨rfl, rfl, h e hp⟩

theorem stable {P : σ → Prop} {action : StateM σ α} (h : Agree (Diagonal P) action) :
    Stable P action :=
  fun e hp => (h e e ⟨rfl, hp⟩).2.2

/-- An action that agrees on a relation preserves what is related to itself. -/
theorem stable_self {action : StateM σ α} (h : Agree R action) :
    Stable (fun e => R e e) action :=
  fun e he => (h e e he).2

/-- It also preserves what is related to some state. -/
theorem stable_right {action : StateM σ α} (h : Agree R action) :
    Stable (fun e' => ∃ e, R e e') action :=
  fun e' ⟨e, he⟩ => ⟨_, (h e e' he).2⟩

end Agree

namespace SceneNode

mutual

/-- The scalars of a tree that begin like a function, as far as they have a name or a
    position to be stored under. -/
def functionTexts : SceneNode → List String
  | null => []
  | scalar text => if "function".toList.isPrefixOf text.toList then [text] else []
  | sequence items => functionTextsOfItems items
  | mapping entries => functionTextsOfEntries entries

def functionTextsOfItems : List SceneNode → List String
  | [] => []
  | item :: items => functionTexts item ++ functionTextsOfItems items

def functionTextsOfEntries : List (SceneNode × SceneNode) → List String
  | [] => []
  | (.scalar _, node) :: entries => functionTexts node ++ functionTextsOfEntries entries
  | _ :: entries => functionTextsOfEntries entries

end

end SceneNode

namespace Engine

variable {σ : Type} [Engine σ]

/-- An engine that builds trees alike on related states, with functions of the
    sources that are allowed. -/
structure Builds (allowed : String → Prop) (R : σ → σ → Prop) : Prop where
  pushNull : Agree R (Engine.pushNull : StateM σ Handle)
  pushBoolean : ∀ b, Agree R (Engine.pushBoolean b : StateM σ Handle)
  pushNumber : ∀ v, Agree R (Engine.pushNumber v : StateM σ Handle)
  pushText : ∀ s, Agree R (Engine.pushText s : StateM σ Handle)
  pushArray : Agree R (Engine.pushArray : StateM σ Handle)
  pushObject : Agree R (Engine.pushObject : StateM σ Handle)
  pushFunction : ∀ s, allowed s →
    Agree R (Engine.pushFunction s : StateM σ (Except ScriptFault Handle))
  setElement : ∀ a i v, Agree R (Engine.setElement a i v : StateM σ Unit)
  setField : ∀ o n v, Agree R (Engine.setField o n v : StateM σ Unit)

/-- An engine that reads results alike on related states. -/
structure Reads (R : σ → σ → Prop) : Prop where
  kind : ∀ e e', R e e' → ∀ h, Engine.kind e' h = Engine.kind e h
  truth : ∀ e e', R e e' → ∀ h, Engine.truth e' h = Engine.truth e h
  length : ∀ e e', R e e' → ∀ h, Engine.length e' h = Engine.length e h
  number : ∀ h, Agree R (Engine.number h : StateM σ Float)
  text : ∀ h, Agree R (Engine.text h : StateM σ String)
  pushElement : ∀ a i, Agree R (Engine.pushElement a i : StateM σ Handle)

namespace Builds

variable {allowed : String → Prop} {R : σ → σ → Prop}

theorem pushScalar (h : Builds allowed R) {text : String}
    (ht : ∀ s ∈ (SceneNode.scalar text).functionTexts, allowed s) :
    Agree R (Seeding.pushScalar text : StateM σ Handle) := by
  unfold Seeding.pushScalar
  rw [SceneNode.functionTexts] at ht
  by_cases hf : "function".toList.isPrefixOf text.toList
  · rw [if_pos hf] at ht ⊢
    refine (h.pushFunction text (ht text List.mem_cons_self)).bind fun r => ?_
    cases r with
    | ok handle => exact .pure handle
    | error fault => exact h.pushText text
  · rw [if_neg hf]
    rcases SceneNode.truthOf? text with _ | b
    · rcases SceneNode.numberOf? text with _ | n
      · exact h.pushText text
      · exact h.pushNumber n
    · exact h.pushBoolean b

mutual

/-- Trees are built alike if functions of the allowed sources are. -/
theorem pushNode (h : Builds allowed R) : ∀ (node : SceneNode),
    (∀ s ∈ node.functionTexts, allowed s) → Agree R (Seeding.pushNode node : StateM σ Handle)
  | .null, _ => by
      rw [Seeding.pushNode]
      exact h.pushNull
  | .scalar text, ht => by
      rw [Seeding.pushNode]
      exact h.pushScalar ht
  | .sequence items, ht => by
      rw [SceneNode.functionTexts] at ht
      rw [Seeding.pushNode]
      exact h.pushArray.bind fun a => (pushItems h a 0 items ht).bind fun _ => .pure a
  | .mapping entries, ht => by
      rw [SceneNode.functionTexts] at ht
      rw [Seeding.pushNode]
      exact h.pushObject.bind fun o => (pushEntries h o entries ht).bind fun _ => .pure o

theorem pushItems (h : Builds allowed R) (a : Handle) : ∀ (i : Nat) (items : List SceneNode),
    (∀ s ∈ SceneNode.functionTextsOfItems items, allowed s) →
    Agree R (Seeding.pushItems a i items : StateM σ Unit)
  | i, [], _ => by
      rw [Seeding.pushItems]
      exact .pure ()
  | i, item :: items, ht => by
      rw [SceneNode.functionTextsOfItems] at ht
      rw [Seeding.pushItems]
      refine (pushNode h item fun s hs => ht s (List.mem_append_left _ hs)).bind fun v => ?_
      refine (h.setElement a i v).bind fun _ => ?_
      exact pushItems h a (i + 1) items fun s hs => ht s (List.mem_append_right _ hs)

theorem pushEntries (h : Builds allowed R) (o : Handle) :
    ∀ (entries : List (SceneNode × SceneNode)),
    (∀ s ∈ SceneNode.functionTextsOfEntries entries, allowed s) →
    Agree R (Seeding.pushEntries o entries : StateM σ Unit)
  | [], _ => by
      rw [Seeding.pushEntries]
      exact .pure ()
  | (.scalar name, node) :: entries, ht => by
      rw [SceneNode.functionTextsOfEntries] at ht
      rw [Seeding.pushEntries]
      refine (pushNode h node fun s hs => ht s (List.mem_append_left _ hs)).bind fun v => ?_
      refine (h.setField o name v).bind fun _ => ?_
      exact pushEntries h o entries fun s hs => ht s (List.mem_append_right _ hs)
  -- A key that is no scalar is no name, and its entry is left out.
  | (.null, _) :: entries, ht
  | (.sequence _, _) :: entries, ht
  | (.mapping _, _) :: entries, ht => by
      simp only [SceneNode.functionTextsOfEntries] at ht
      simp only [Seeding.pushEntries]
      exact pushEntries h o entries ht

end

/-- What is built alike on related states preserves what such actions preserve. -/
theorem invariant {P : σ → Prop} (h : Builds allowed R)
    (hP : ∀ {α : Type} {action : StateM σ α}, Agree R action → Stable P action) :
    Builds allowed (Diagonal P) where
  pushNull := .of_stable (hP h.pushNull)
  pushBoolean := fun b => .of_stable (hP (h.pushBoolean b))
  pushNumber := fun v => .of_stable (hP (h.pushNumber v))
  pushText := fun s => .of_stable (hP (h.pushText s))
  pushArray := .of_stable (hP h.pushArray)
  pushObject := .of_stable (hP h.pushObject)
  pushFunction := fun s hs => .of_stable (hP (h.pushFunction s hs))
  setElement := fun a i v => .of_stable (hP (h.setElement a i v))
  setField := fun o n v => .of_stable (hP (h.setField o n v))

/-- What is built alike on related states is built of states that are related to
    themselves, and leaves such states. -/
theorem diagonal (h : Builds allowed R) : Builds allowed (Diagonal fun e => R e e) :=
  h.invariant fun ha => ha.stable_self

end Builds

namespace Reads

variable {R : σ → σ → Prop}

theorem element (h : Reads R) (a : Handle) (i : Nat) :
    Agree R (Decoding.element a i : StateM σ Float) :=
  (h.pushElement a i).bind fun e => h.number e

theorem decodeArray (h : Reads R) (key : StyleKey) (a : Handle) :
    Agree R (Decoding.decodeArray key a : StateM σ StyleValue) := by
  unfold Decoding.decodeArray
  refine .get_bind (fun e e' he => by rw [h.length e e' he a]) fun e => ?_
  generalize Engine.length e a = length
  dsimp only
  split
  · split
    · exact .pure _
    · exact (h.element a 0).bind fun low => (h.element a 1).bind fun high => .pure _
  · split
    · split
      · exact .pure _
      · refine (h.element a 0).bind fun red => (h.element a 1).bind fun green =>
          (h.element a 2).bind fun blue => ?_
        split
        · exact (h.element a 3).bind fun alpha => .pure _
        · exact .pure _
    · exact .pure _

/-- Results are read alike for every key. -/
theorem decode (h : Reads R) (key : StyleKey) (v : Handle) :
    Agree R (Decoding.decode key v : StateM σ StyleValue) := by
  unfold Decoding.decode
  refine .get_bind (fun e e' he => by rw [h.kind e e' he v]) fun e => ?_
  cases Engine.kind e v with
  | string => exact (h.text v).bind fun s => .pure _
  | boolean => exact .get_bind (fun e e' he => by rw [h.truth e e' he v]) fun e => .pure _
  | array => exact h.decodeArray key v
  | number => exact (h.number v).bind fun x => .pure _
  | undefined | null | object | function => exact .pure _

end Reads

end Engine

end MapStyling
