import MapStyling.Proofs.EmbeddedScript.Laws
import MapStyling.Proofs.StackHistories
import MapStyling.Proofs.WebEngine.Operations
import MapStyling.WebScript.Language

/-!
# Stale Handles

What is read through a handle when its scope has been closed.

Going back to a mark takes the values away that were put on the stack of an engine since, and
what their holders read from then on is the undefined value. But nobody takes the handles back,
and a handle does not say which of the values in its position it was given for. The next value
that an engine makes is in the position of the first one that was taken away, so the two have the
same handle, and who holds the old one reads the new value, and changes it.

So a handle stays dead if and only if it is not handed out again. This is shown of a stack by
itself, and of an engine whatever is done with it, for all operations of an engine do one thing to
its stack at most.

## Main definitions

* `Engine.Operation`: Everything that can change the state of an engine.
* `Engine.Reading`: Everything that can be read through a handle.
* `Engine.Stack`: The stack that an engine keeps its values on.

## Theorems

* `EmbeddedEngine.onStack`, `WebEngine.onStack`: What operations do to the stacks of the engines.
* `stale_handles`: Dead handles, and handles that come to life again.
-/

namespace MapStyling

namespace Engine

/-- Everything that can change the state of an engine. -/
inductive Operation
  | pushNull
  | pushBoolean (b : Bool)
  | pushNumber (v : Float)
  | pushText (s : String)
  | pushArray
  | pushObject
  | pushFunction (source : String)
  | pushElement (array : Handle) (index : Nat)
  | pushGlobal (name : String)
  | call (index : Nat)
  | setElement (array : Handle) (index : Nat) (value : Handle)
  | setField (object : Handle) (name : String) (value : Handle)
  | setGlobal (name : String) (value : Handle)
  | setFunction (index : Nat) (source : String)
  | truncateFunctions (count : Nat)
  | setFeature (feature : Option Feature)
  | setFilterKey (key : FilterKey) (value : Int)
  | number (h : Handle)
  | text (h : Handle)
  | reset (m : Mark)

/-- Everything that can be read through a handle. Some of it may change the state. -/
structure Reading (σ : Type) where
  kind : ValueKind
  truth : Bool
  length : Nat
  number : Float × σ
  text : String × σ
  element : Nat → Handle × σ

variable {σ : Type} [Engine σ]

/-- An operation, and the handle that it hands out. -/
def Operation.perform : Operation → StateM σ (Option Handle)
  | pushNull => return some (← Engine.pushNull)
  | pushBoolean b => return some (← Engine.pushBoolean b)
  | pushNumber v => return some (← Engine.pushNumber v)
  | pushText s => return some (← Engine.pushText s)
  | pushArray => return some (← Engine.pushArray)
  | pushObject => return some (← Engine.pushObject)
  | pushFunction source => return (← Engine.pushFunction source).toOption
  | pushElement array index => return some (← Engine.pushElement array index)
  | pushGlobal name => return some (← Engine.pushGlobal name)
  | call index => return (← Engine.call index).toOption
  | setElement array index value => do
    Engine.setElement array index value
    return none
  | setField object name value => do
    Engine.setField object name value
    return none
  | setGlobal name value => do
    Engine.setGlobal name value
    return none
  | setFunction index source => do
    discard <| Engine.setFunction index source
    return none
  | truncateFunctions count => do
    Engine.truncateFunctions count
    return none
  | setFeature feature => do
    Engine.setFeature feature
    return none
  | setFilterKey key value => do
    Engine.setFilterKey key value
    return none
  | number h => do
    discard <| Engine.number h
    return none
  | text h => do
    discard <| Engine.text h
    return none
  | reset m => do
    Engine.reset m
    return none

def read (e : σ) (h : Handle) : Reading σ where
  kind := Engine.kind e h
  truth := Engine.truth e h
  length := Engine.length e h
  number := (Engine.number h).run e
  text := (Engine.text h).run e
  element i := (Engine.pushElement h i).run e

/-- The stack that an engine keeps its values on, and its undefined value. -/
structure Stack (σ ν : Type) [Engine σ] where
  stack : σ → ValueStack ν
  absent : ν
  onStack : OnStack Operation.perform stack
  stack_reset : ∀ (m : Mark) (e : σ), stack ((Engine.reset m).run e).2 = (stack e).cut m.height
  /-- What is read through a handle is a matter of the value under it. -/
  read_congr : ∀ (e : σ) (h k : Handle),
    ((stack e).get? h).getD absent = ((stack e).get? k).getD absent → read e h = read e k
  kind_absent : ∀ (e : σ) (h : Handle),
    ((stack e).get? h).getD absent = absent → Engine.kind e h = .undefined

/-- The value under a handle. -/
def Stack.value {ν : Type} (V : Stack σ ν) (e : σ) (h : Handle) : ν :=
  ((V.stack e).get? h).getD V.absent

end Engine

open Engine (Operation)

namespace EmbeddedEngine

variable {L : EmbeddedLanguage}

theorem onStack : OnStack Operation.perform (stack (L := L)) where
  acts op e := by
    cases op with
    | pushNull | pushBoolean _ | pushNumber _ | pushText _ | pushArray | pushObject
    | pushElement _ _ | pushGlobal _ => exact Or.inr ⟨.push _, rfl⟩
    | pushFunction source =>
        change Acts _ e (((pushFunction source).run e).1.toOption, ((pushFunction source).run e).2)
        rw [run_pushFunction]
        rcases defineFunction e.made source with fault | ⟨pointer, script⟩
        · exact Or.inl ⟨rfl, rfl⟩
        · exact Or.inr ⟨.push pointer, rfl⟩
    | call i =>
        change Acts _ e (((call i).run e).1.toOption, ((call i).run e).2)
        rw [run_call]
        rcases e.functions.get? i with _ | script
        · exact Or.inl ⟨rfl, rfl⟩
        · dsimp only
          rw [run_invoke]
          rcases (L.run script).run e.scope with ⟨_ | v, scope⟩
          · exact Or.inl ⟨rfl, rfl⟩
          · exact Or.inr ⟨.push v, rfl⟩
    | setElement _ _ _ | setField _ _ _ => exact Or.inr ⟨.change _ _, rfl⟩
    | setGlobal name h =>
        refine Or.inl ⟨rfl, ?_⟩
        change ((setGlobal name h).run e).2.stack = e.stack
        unfold setGlobal
        split <;> rfl
    | setFunction i source =>
        refine Or.inl ⟨rfl, ?_⟩
        change ((setFunction i source).run e).2.stack = e.stack
        rw [run_setFunction]
        rcases compile e.library source with message | script <;> rfl
    | setFilterKey key value => cases key <;> exact Or.inl ⟨rfl, rfl⟩
    | reset m => exact Or.inr ⟨.cut _, rfl⟩
    | _ => exact Or.inl ⟨rfl, rfl⟩

/-- The stack of an engine of embedded scripts. -/
def values (hL : L.ShapeLaws) : Engine.Stack (EmbeddedEngine L) L.Value where
  stack := stack
  absent := L.unit
  onStack := onStack
  stack_reset _ _ := rfl
  read_congr e h k heq := by
    change e.value h = e.value k at heq
    change Engine.Reading.mk (kindOf (e.value h)) (truthOf (e.value h))
      (elements (e.value h)).length
      (numberOf (e.value h), e) (textOf (e.value h), e)
      (fun i => (push ((elements (e.value h)).getD i L.unit)).run e) = _
    rw [heq]
    rfl
  kind_absent e h habsent := by
    change kindOf (e.value h) = _
    rw [show e.value h = L.unit from habsent, kindOf, hL.unit]

end EmbeddedEngine

namespace WebEngine

variable {L : WebLanguage}

theorem onStack : OnStack Operation.perform (stack (L := L)) where
  acts op e := by
    cases op with
    | pushNull | pushBoolean _ | pushNumber _ | pushText _ | pushArray | pushObject
    | pushGlobal _ => exact Or.inr ⟨.push _, rfl⟩
    | pushFunction source =>
        change Acts _ e (((pushFunction source).run e).1.toOption, ((pushFunction source).run e).2)
        -- The source is run first, and that leaves the stack to which the function is added.
        have hcompile := run_compile_snd source e
        rw [run_pushFunction]
        generalize (compile source).run e = r at hcompile ⊢
        obtain ⟨fault | v, e'⟩ := r <;> cases hcompile
        · exact Or.inl ⟨rfl, rfl⟩
        · exact Or.inr ⟨.push v, rfl⟩
    | pushElement a i =>
        change Acts _ e (some ((pushElement a i).run e).1, ((pushElement a i).run e).2)
        rw [run_pushElement]
        split <;> exact Or.inr ⟨.push _, rfl⟩
    | call i =>
        change Acts _ e (((call i).run e).1.toOption, ((call i).run e).2)
        rw [run_call]
        rcases e.functions.get? i with _ | f
        · exact Or.inl ⟨rfl, rfl⟩
        · dsimp only
          rw [run_invoke]
          rcases (L.call f).run e.context with ⟨_ | v, c⟩
          · exact Or.inl ⟨rfl, rfl⟩
          · exact Or.inr ⟨.push v, rfl⟩
    | setElement a i v =>
        refine Or.inl ⟨rfl, ?_⟩
        change ((setElement a i v).run e).2.stack = e.stack
        rw [run_setElement]
        dsimp only
        split <;> rfl
    | setFunction i source =>
        refine Or.inl ⟨rfl, ?_⟩
        change ((setFunction i source).run e).2.stack = e.stack
        have hcompile := run_compile_snd source e
        rw [run_setFunction]
        generalize (compile source).run e = r at hcompile ⊢
        obtain ⟨fault | v, e'⟩ := r <;> cases hcompile <;> rfl
    | setFeature feature => cases feature <;> exact Or.inl ⟨rfl, rfl⟩
    | setFilterKey key value => cases key <;> exact Or.inl ⟨rfl, rfl⟩
    | reset m => exact Or.inr ⟨.cut _, rfl⟩
    | _ => exact Or.inl ⟨rfl, rfl⟩

/-- The stack of an engine of web scripts. -/
def values (hL : L.shape L.undefined = .undefined) : Engine.Stack (WebEngine L) L.Value where
  stack := stack
  absent := L.undefined
  onStack := onStack
  stack_reset _ _ := rfl
  read_congr e h k heq := by
    change e.value h = e.value k at heq
    have hkind : e.kind h = e.kind k := by
      unfold kind
      rw [heq]
    have helement : (fun i => (pushElement h i).run e) = fun i => (pushElement k i).run e := by
      funext i
      rw [run_pushElement, run_pushElement, heq]
    change Engine.Reading.mk (e.kind h) (L.truth (e.value h))
      ((L.arrayLength? e.context (e.value h)).getD 0)
      (((L.toNumber (e.value h)).run e.context).1.getD Double.nan,
        { e with context := ((L.toNumber (e.value h)).run e.context).2 })
      (((L.toText (e.value h)).run e.context).1.getD "",
        { e with context := ((L.toText (e.value h)).run e.context).2 })
      (fun i => (pushElement h i).run e) = _
    rw [hkind, helement, heq]
    rfl
  kind_absent e h habsent := by
    change kind e h = _
    rw [kind, show e.value h = L.undefined from habsent, hL]

end WebEngine

/-- Under a handle that a cut has reached there is no value at any time after it if and only if the
    handle is not handed out again, and as long as it is not, nothing comes of changes under it.
    Else there is the value that was put last in its position, if no other cut has reached it
    since. It is the same with an engine that goes back to a mark, whatever is done with it
    before and after: until such a handle is handed out again, all that is read through it is
    what is read of the undefined value. -/
theorem stale_handles {α σ ν : Type} [Engine σ] (V : Engine.Stack σ ν) (m : Mark) (h : Handle)
    (hle : m.height ≤ h.index) :
    (∀ (s : ValueStack α) (moves : List (ValueStack.Move α)),
      let later := fun moves => afterMoves ValueStack.Move.perform moves (s.cut m.height)
      ((∀ seen, seen <+: moves → (later seen).get? h = none)
        ↔ h ∉ handedOut ValueStack.Move.perform moves (s.cut m.height)) ∧
      (h ∉ handedOut ValueStack.Move.perform moves (s.cut m.height) →
        ∀ f, (later moves).modify h f = later moves) ∧
      ∀ v, (later moves).get? h = some v ↔ ValueStack.LeftUnder h v moves (s.cut m.height)) ∧
    ∀ (e : σ) (operations : List Operation),
      let closed := ((Engine.reset m : StateM σ Unit).run e).2
      let later := fun operations => afterMoves Operation.perform operations closed
      ((∀ seen, seen <+: operations → (V.stack (later seen)).get? h = none)
        ↔ h ∉ handedOut Operation.perform operations closed) ∧
      (h ∉ handedOut Operation.perform operations closed →
        Engine.kind (later operations) h = .undefined ∧
          ∀ k, V.value (later operations) k = V.absent →
            Engine.read (later operations) h = Engine.read (later operations) k) := by
  -- A stack and an engine go by the same argument: nothing is under the handle at first, and only
  -- handing it out puts something there.
  constructor
  · intro s moves later
    have hnone : (s.cut m.height).get? h = none := ValueStack.get?_cut_of_le hle
    have habsent := ValueStack.onStack_perform.absent_iff h moves (s.cut m.height)
    refine ⟨habsent.trans (and_iff_right hnone), fun hnot f => ?_, fun v =>
      ValueStack.get?_afterMoves_eq_some_iff hnone⟩
    exact ValueStack.modify_of_get?_eq_none
      (habsent.mpr ⟨hnone, hnot⟩ moves (List.prefix_refl moves)) f
  · intro e operations closed later
    have hnone : (V.stack closed).get? h = none := by
      rw [V.stack_reset]
      exact ValueStack.get?_cut_of_le hle
    have habsent := V.onStack.absent_iff h operations closed
    refine ⟨habsent.trans (and_iff_right hnone), fun hnot => ?_⟩
    have hdead : V.value (later operations) h = V.absent := by
      rw [Engine.Stack.value,
        habsent.mpr ⟨hnone, hnot⟩ operations (List.prefix_refl operations)]
      rfl
    exact ⟨V.kind_absent _ h hdead, fun k hk => V.read_congr _ h k (hdead.trans hk.symm)⟩

/-- Texts that were put on a stack, of which a cut will reach the second one. -/
def droppedTexts : ValueStack String :=
  afterMoves ValueStack.Move.perform [.push "kept", .push "dropped"] .empty

/-- An engine that has put two values on its stack and gone back to where it began. -/
def wentBack {σ : Type} [Engine σ] (e : σ) : σ :=
  ((Engine.reset ⟨0⟩).run
    (afterMoves Operation.perform [.pushText "first", .pushText "second"] e)).2

theorem stale_handles_reused :
    let copying := EmbeddedEngine.values EmbeddedScript.shapeLaws
    let sharing := WebEngine.values (L := WebScript.language) rfl
    ⟨1⟩ ∈ handedOut ValueStack.Move.perform [.push "kept", .push "dropped"] .empty ∧
    (afterMoves ValueStack.Move.perform [.push "new"] (droppedTexts.cut 1)).get? ⟨1⟩
      = some "new" ∧
    (¬ ∀ seen, seen <+: [.pushText "new"] → (copying.stack
      (afterMoves Operation.perform seen (wentBack EmbeddedEngine.new))).get? ⟨0⟩ = none) ∧
    (¬ ∀ seen, seen <+: [.pushText "new"] → (sharing.stack
      (afterMoves Operation.perform seen (wentBack WebEngine.new))).get? ⟨0⟩ = none) ∧
    Engine.kind (afterMoves Operation.perform [.pushText "new"]
      (wentBack (WebEngine.new (L := WebScript.language)))) ⟨1⟩ = .undefined := by
  intro copying sharing
  refine ⟨by decide, ?_, fun hall => ?_, fun hall => ?_, ?_⟩
  · have htexts := (stale_handles copying ⟨1⟩ ⟨1⟩ (Nat.le_refl 1)).1 droppedTexts [.push "new"]
    exact (htexts.2.2 "new").mpr
      ⟨[], "new", [], rfl, rfl, fun _ hm => absurd hm List.not_mem_nil, rfl⟩
  · have hvalues := (@stale_handles String _ _ _ copying ⟨0⟩ ⟨0⟩
      (Nat.le_refl 0)).2 (afterMoves Operation.perform [.pushText "first", .pushText "second"]
        .new) [.pushText "new"]
    exact hvalues.1.mp hall (by decide)
  · have hvalues := (@stale_handles String _ _ _ sharing ⟨0⟩ ⟨0⟩
      (Nat.le_refl 0)).2 (afterMoves Operation.perform [.pushText "first", .pushText "second"]
        .new) [.pushText "new"]
    exact hvalues.1.mp hall (by decide)
  · have hvalues := (@stale_handles String _ _ _ sharing ⟨0⟩ ⟨1⟩
      (Nat.zero_le 1)).2 (afterMoves Operation.perform [.pushText "first", .pushText "second"]
        .new) [.pushText "new"]
    exact (hvalues.2 (by decide)).1

end MapStyling
