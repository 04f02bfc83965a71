import MapStyling.Proofs.Agreement

/-!
# Calls of Backends

Everything that can be done with a backend, as data, and what stays true while it
is done.

A state is reachable if some list of calls leads to it from a new backend. What
is said of every reachable state is said of `after calls`, for every list.

Properties of sessions on all engines are shown from properties of the
operations of an engine. A property lasts if it is true again at the end of
every call, and an engine upholds it if every single operation preserves it.

## Main definitions

* `Question`, `Call`: Questions, and everything else that can be done.
* `Call.sources`: The sources that a call hands over.
* `Question.answer`: The answer to a question, by the function that a call runs.
* `after`: The state that calls lead to.
* `Step`, `Session.reach`: Calls, with values left on the stack between them.
* `Engine.Lasts`: Engines with a property that is true between calls.
* `Engine.Preserves`, `Engine.Upholds`: Engines that preserve a property.
* `Engine.answered`: An engine that has answered a question, in the scope of the question.

## Theorems

* `Engine.run_ask`: A question is answered by the function at its position.
* `Engine.Lasts.after`: A property that lasts is true of what calls lead to.
* `Engine.run_ask_snd`: What a question does to a session is left when its scope is closed.
-/

namespace MapStyling

/-- What a backend can be asked of the function at an index. -/
inductive Question
  | filter (index : Nat)
  | style (index : Nat) (key : StyleKey)

/-- What comes back from a call. -/
inductive Answer
  | done
  | truth (b : Bool)
  | value (v : StyleValue)

/-- Everything that can be done with a backend. -/
inductive Call
  | initFunctions (scene : Scene)
  | setFunctions (sources : List String)
  | addFunction (source : String)
  | setGlobals (globals : Option SceneNode)
  | setFilterKey (key : FilterKey) (value : Int)
  | setFeature (feature : Feature)
  | clear
  | ask (question : Question)

/-- The sources of a scene, those in its globals included. -/
def Scene.sources (scene : Scene) : List String :=
  scene.functions ++ (scene.globals.map SceneNode.functionTexts).getD []

/-- The sources that a call hands over. -/
def Call.sources : Call → List String
  | initFunctions scene => scene.sources
  | setFunctions sources => sources
  | addFunction source => [source]
  | setGlobals globals => (globals.map SceneNode.functionTexts).getD []
  | _ => []

/-- What can happen to a session: a call, or a tree that somebody who works with the
    engine itself builds and leaves on its stack. -/
inductive Step
  | call (c : Call)
  | hold (node : SceneNode)

def Step.sources : Step → List String
  | call c => c.sources
  | hold node => node.functionTexts

section

variable {β : Type} [StyleBackend β]

def Question.ask : Question → StateM β Answer
  | filter index => return .truth (← StyleBackend.evalFilter index)
  | style index key => return .value (← StyleBackend.evalStyle index key)

def Call.perform : Call → StateM β Answer
  | initFunctions scene => do
    StyleBackend.initFunctions scene
    return .done
  | setFunctions sources => return .truth (← StyleBackend.setFunctions sources)
  | addFunction source => return .truth (← StyleBackend.addFunction source)
  | setGlobals globals => do
    StyleBackend.setGlobals globals
    return .done
  | setFilterKey key value => do
    StyleBackend.setFilterKey key value
    return .done
  | setFeature feature => do
    StyleBackend.setFeature feature
    return .done
  | clear => do
    StyleBackend.clear
    return .done
  | ask question => question.ask

/-- The state that calls lead to. -/
def after (calls : List Call) (s : β) : β :=
  calls.foldl (fun s c => (c.perform.run s).2) s

/-- The answers to questions one after the other. -/
def askAll : List Question → StateM β (List Answer)
  | [] => return []
  | q :: rest => do
    let answer ← q.ask
    return answer :: (← askAll rest)

theorem after_cons (c : Call) (calls : List Call) (s : β) :
    after (c :: calls) s = after calls (c.perform.run s).2 := rfl

end

namespace Session

theorem run_run {σ α : Type} (action : StateM σ α) (s : Session σ) : (Session.run action).run s
    = ((action.run s.engine).1, { s with engine := (action.run s.engine).2 }) := rfl

variable {σ : Type} [Engine σ]

theorem run_initFunctions_of_eq {scene : Scene} {s : Session σ} (h : s.sceneId = some scene.id) :
    (initFunctions scene).run s = ((), s) := by
  change ((if s.sceneId = some scene.id then pure PUnit.unit else _ :
    StateM (Session σ) Unit)).run s
    = _
  rw [if_pos h]
  rfl

theorem run_initFunctions_of_ne {scene : Scene} {s : Session σ} (h : s.sceneId ≠ some scene.id) :
    (initFunctions scene).run s = ((), ((setFunctions scene.functions).run { s with
      sceneId := some scene.id
      engine := ((Seeding.installGlobals scene.globals).run s.engine).2 }).2) := by
  change ((if s.sceneId = some scene.id then pure PUnit.unit else _ :
    StateM (Session σ) Unit)).run s
    = _
  rw [if_neg h]
  rfl

/-- The session after a step. -/
def take (s : Session σ) : Step → Session σ
  | .call c => (c.perform.run s).2
  | .hold node => { s with engine := ((Seeding.pushNode node).run s.engine).2 }

/-- The session that steps lead to. -/
def reach (steps : List Step) (s : Session σ) : Session σ := steps.foldl take s

end Session

/-- The tree that becomes a global variable, if there is one. -/
def Seeding.tree? : Option SceneNode → Option SceneNode
  | some .null => none
  | globals => globals

theorem Seeding.eq_of_tree? {globals : Option SceneNode} {node : SceneNode}
    (h : tree? globals = some node) : globals = some node := by
  rcases globals with _ | n
  · cases h
  · cases n with
    | null => cases h
    | _ => exact h

/-- The position that a question is about. -/
def Question.index : Question → Nat
  | filter index => index
  | style index _ => index

/-- The answer to a question about a function that cannot be run. -/
def Question.failed : Question → Answer
  | filter _ => .truth false
  | style _ _ => .value .none

/-- The answer to a question, by the function that a call runs. -/
def Question.answer {σ : Type} [Engine σ] (q : Question)
    (call : StateM σ (Except ScriptFault Handle)) : StateM σ Answer := do
  match ← call with
  | .error _ => return q.failed
  | .ok h => match q with
    | .filter _ => return .truth (Engine.truth (← get) h)
    | .style _ key => return .value (← Decoding.decode key h)

namespace Engine

variable {σ : Type} [Engine σ]

theorem run_inScope {α : Type} (action : StateM σ α) (e : σ) :
    (inScope action).run e
      = ((action.run e).1, ((reset (mark e) : StateM σ Unit).run (action.run e).2).2) := rfl

/-- A question is answered in a scope of its own, by the function at its position. -/
theorem run_ask (q : Question) (s : Session σ) : (q.ask.run s : Answer × Session σ)
    = (((inScope (q.answer (call q.index))).run s.engine).1,
      { s with engine := ((inScope (q.answer (call q.index))).run s.engine).2 }) := by
  -- A session asks in its own words, which come to the one form for both kinds.
  cases q with
  | filter index =>
      change (Answer.truth ((Session.evalFilter index).run s).1,
        ((Session.evalFilter index).run s).2) = _
      unfold Session.evalFilter
      rw [Session.run_run, run_inScope, run_inScope]
      dsimp only [Question.index]
      unfold Question.answer callForTruth
      rw [run_bind_state, run_bind_state, run_bind_state]
      rcases (call index).run s.engine with ⟨_ | h, e⟩ <;> rfl
  | style index key =>
      change (Answer.value ((Session.evalStyle index key).run s).1,
        ((Session.evalStyle index key).run s).2) = _
      unfold Session.evalStyle
      rw [Session.run_run, run_inScope, run_inScope]
      dsimp only [Question.index]
      unfold Question.answer
      rw [run_bind_state, run_bind_state]
      rcases (call index).run s.engine with ⟨_ | h, e⟩ <;> rfl

/-- What answering a question makes of an engine, before the scope of the question is
    closed. -/
def answered (q : Question) (e : σ) : σ := ((q.answer (call q.index)).run e).2

theorem run_ask_snd (q : Question) (s : Session σ) : (q.ask.run s).2
    = { s with engine := ((reset (mark s.engine) : StateM σ Unit).run
      (answered q s.engine)).2 } := by
  rw [run_ask, run_inScope, answered]

/-- The call of a question comes first, and then its result is read. -/
theorem answered_eq (q : Question) (e : σ) : answered q e
    = ((q.answer (pure ((call q.index).run e).1)).run ((call q.index).run e).2).2 := by
  unfold answered Question.answer
  rw [run_bind_state, run_bind_state]
  rfl

namespace Reads

variable {R : σ → σ → Prop}

/-- Questions are answered alike by calls that are. -/
theorem answer (h : Reads R) (q : Question) {call : StateM σ (Except ScriptFault Handle)}
    (hc : Agree R call) : Agree R (q.answer call) := by
  unfold Question.answer
  refine hc.bind fun r => ?_
  cases r with
  | error fault => exact .pure q.failed
  | ok v => cases q with
    | filter index =>
        exact .get_bind (fun e e' he => by rw [h.truth e e' he v]) fun e => .pure _
    | style index key => exact (h.decode key v).bind fun w => .pure _

/-- What is true after the call of a question is true when the question is answered, if reading
    results preserves it. -/
theorem answered {Inside : σ → Prop} (h : Reads (Diagonal Inside)) (q : Question) {e : σ}
    (hcalled : Inside ((call q.index).run e).2) : Inside (Engine.answered q e) := by
  rw [answered_eq]
  exact (h.answer q (.pure _)).stable _ hcalled

end Reads

/-- What installing globals does: nothing without a tree, and else the tree becomes a
    global variable, in a scope of its own. -/
theorem run_installGlobals (globals : Option SceneNode) (e : σ) :
    (Seeding.installGlobals globals).run e = match Seeding.tree? globals with
      | none => ((), e)
      | some node => ((), ((reset (mark e) : StateM σ Unit).run
          ((setGlobal globalName ((Seeding.pushNode node).run e).1).run
            ((Seeding.pushNode node).run e).2).2).2) := by
  rcases globals with _ | node
  · rfl
  · cases node <;> rfl

theorem run_installGlobals_of_none {globals : Option SceneNode}
    (h : Seeding.tree? globals = none) (e : σ) :
    (Seeding.installGlobals globals).run e = ((), e) := by
  rw [run_installGlobals, h]

/-- A property of an engine that lasts from call to call, with functions of the sources
    that are allowed. In the middle of a call it need not be true. -/
structure Lasts (allowed : String → Prop) (P : σ → Prop) : Prop where
  installGlobals : ∀ globals : Option SceneNode,
    (∀ s ∈ (globals.map SceneNode.functionTexts).getD [], allowed s) →
    Stable P (Seeding.installGlobals globals : StateM σ Unit)
  setFunction : ∀ i s, allowed s →
    Stable P (Engine.setFunction i s : StateM σ (Except ScriptFault Unit))
  truncateFunctions : ∀ n, Stable P (Engine.truncateFunctions n : StateM σ Unit)
  setFeature : ∀ f, Stable P (Engine.setFeature f : StateM σ Unit)
  setFilterKey : ∀ k n, Stable P (Engine.setFilterKey k n : StateM σ Unit)
  ask : ∀ (q : Question) (s : Session σ), P s.engine → P (q.ask.run s).2.engine

namespace Lasts

variable {allowed : String → Prop} {P : σ → Prop}

theorem bindFunctions (h : Lasts allowed P) : ∀ (sources : List String) (index : Nat),
    (∀ s ∈ sources, allowed s) → Stable P (Session.bindFunctions index sources :
      StateM σ Bool) := by
  intro sources
  induction sources with
  | nil => intro index _ e he; exact he
  | cons source sources ih =>
      intro index ht e he
      have hfirst := h.setFunction index source (ht source List.mem_cons_self) e he
      exact ih (index + 1) (fun s hs => ht s (List.mem_cons_of_mem _ hs)) _ hfirst

theorem setFunctions (h : Lasts allowed P) {sources : List String}
    (ht : ∀ s ∈ sources, allowed s) {s : Session σ} (hs : P s.engine) :
    P ((Session.setFunctions sources).run s).2.engine :=
  h.truncateFunctions sources.length _ (h.bindFunctions sources 0 ht _ hs)

/-- Every call preserves what lasts. -/
theorem perform (h : Lasts allowed P) (c : Call) (ht : ∀ s ∈ c.sources, allowed s)
    {s : Session σ} (hs : P s.engine) : P (c.perform.run s).2.engine := by
  cases c with
  | initFunctions scene =>
      simp only [Call.sources, Scene.sources, List.mem_append] at ht
      change P ((Session.initFunctions scene).run s).2.engine
      by_cases hid : s.sceneId = some scene.id
      · rw [Session.run_initFunctions_of_eq hid]
        exact hs
      · rw [Session.run_initFunctions_of_ne hid]
        refine h.setFunctions (fun source hmem => ht source (Or.inl hmem)) ?_
        exact h.installGlobals _ (fun source hmem => ht source (Or.inr hmem)) _ hs
  | setFunctions sources => exact h.setFunctions ht hs
  | addFunction source => exact h.setFunction _ source (ht source List.mem_cons_self) _ hs
  | setGlobals globals => exact h.installGlobals _ ht _ hs
  | setFilterKey key value => exact h.setFilterKey key value _ hs
  | setFeature feature => exact h.setFeature _ _ hs
  | clear => exact h.setFeature _ _ hs
  | ask question => exact h.ask question s hs

/-- What lasts is true of every state that calls lead to. -/
theorem after (h : Lasts allowed P) : ∀ (calls : List Call),
    (∀ c ∈ calls, ∀ s ∈ c.sources, allowed s) → ∀ s : Session σ, P s.engine →
    P (after calls s).engine := by
  intro calls
  induction calls with
  | nil => intro _ s hs; exact hs
  | cons c calls ih =>
      intro ht s hs
      rw [after_cons]
      exact ih (fun d hd => ht d (List.mem_cons_of_mem _ hd)) _
        (h.perform c (ht c List.mem_cons_self) hs)

end Lasts

/-- An engine whose operations preserve a property, those on its functions aside. -/
structure Preserves (allowed : String → Prop) (P : σ → Prop) : Prop where
  builds : Builds allowed (Diagonal P)
  setGlobal : ∀ n h, Stable P (Engine.setGlobal n h : StateM σ Unit)
  reset : ∀ e e' : σ, P e → P e' → P ((Engine.reset (Engine.mark e) : StateM σ Unit).run e').2
  setFeature : ∀ f, Stable P (Engine.setFeature f : StateM σ Unit)
  setFilterKey : ∀ k n, Stable P (Engine.setFilterKey k n : StateM σ Unit)

/-- An engine whose operations preserve a property, with functions of the sources that
    are allowed. -/
structure Upholds (allowed : String → Prop) (P : σ → Prop) : Prop
    extends Preserves allowed P where
  setFunction : ∀ i s, allowed s →
    Stable P (Engine.setFunction i s : StateM σ (Except ScriptFault Unit))
  truncateFunctions : ∀ n, Stable P (Engine.truncateFunctions n : StateM σ Unit)
  ask : ∀ (q : Question) (s : Session σ), P s.engine → P (q.ask.run s).2.engine

namespace Preserves

variable {allowed : String → Prop} {P : σ → Prop}

theorem installGlobals (h : Preserves allowed P) {globals : Option SceneNode}
    (ht : ∀ s ∈ (globals.map SceneNode.functionTexts).getD [], allowed s) :
    Stable P (Seeding.installGlobals globals : StateM σ Unit) := by
  intro e he
  rw [run_installGlobals]
  rcases hnode : Seeding.tree? globals with _ | node
  · exact he
  · rw [Seeding.eq_of_tree? hnode] at ht
    refine h.reset e _ he ?_
    exact h.setGlobal globalName _ _ ((h.builds.pushNode node ht).stable e he)

end Preserves

namespace Upholds

variable {allowed : String → Prop} {P : σ → Prop}

theorem lasts (h : Upholds allowed P) : Lasts allowed P where
  installGlobals := fun _ ht => h.installGlobals ht
  setFunction := h.setFunction
  truncateFunctions := h.truncateFunctions
  setFeature := h.setFeature
  setFilterKey := h.setFilterKey
  ask := h.ask

/-- What is upheld is true of every session that steps lead to. -/
theorem reach (h : Upholds allowed P) : ∀ (steps : List Step),
    (∀ step ∈ steps, ∀ s ∈ step.sources, allowed s) → ∀ s : Session σ, P s.engine →
    P (Session.reach steps s).engine := by
  intro steps
  induction steps with
  | nil => intro _ s hs; exact hs
  | cons step steps ih =>
      intro ht s hs
      have hstep : P (s.take step).engine := by
        have hsources := ht step List.mem_cons_self
        cases step with
        | call c => exact h.lasts.perform c hsources hs
        | hold node => exact (h.builds.pushNode node hsources).stable _ hs
      exact ih (fun other hmem => ht other (List.mem_cons_of_mem _ hmem)) _ hstep

end Upholds

end Engine

end MapStyling
