import MapStyling.Proofs.WebEngine.Operations
import MapStyling.Proofs.WebLanguage.Operations

/-!
# Twins

Engines of web scripts that take the same steps.

All that an engine does to its context are operations of the language on values that it
holds: those on its stack, and the functions in its table. Two engines are twins if their
contexts, with values that they hold, are in a relation of which operations show nothing,
and if what is on the stacks and in the tables is held at the same positions. Then they do
the same, give the same answers, and remain twins.

To be alike is such a relation, and twins of this kind cannot be told apart by anybody. An
invariant of contexts is one too: a relation of a context and itself.

## Main definitions

* `WebEngine.Joined`: Engines in a relation, with the values that are held.
* `WebEngine.Twins`: Engines in a relation.
* `WebEngine.holding`: What is held by somebody who has all that an engine has.

## Theorems

* `WebEngine.Joined.act`: Twins after an operation of the language.
* `WebEngine.builds_twins`, `WebEngine.reads_twins`, `WebEngine.agree_call`: Trees, results
  and calls.
* `WebEngine.agree_setFunction`, `WebEngine.agree_setFeature`, `WebEngine.agree_setGlobal`:
  Functions and variables.
* `WebEngine.upholds_twins`: Engines that are twins of themselves.
* `WebEngine.twins_iff`: Engines that nobody can tell apart.
-/

namespace MapStyling

open WebLanguage

namespace WebEngine

variable {L : WebLanguage} {S : String → Prop} {A : Operation → Prop}
  {T : Holding L → Holding L → Prop}

/-- Engines whose contexts are in a relation, with the values that are held in them. -/
structure Joined (T : Holding L → Holding L → Prop) (vs vs' : List L.Value)
    (e e' : WebEngine L) : Prop where
  related : T ⟨e.context, vs⟩ ⟨e'.context, vs'⟩
  stack : List.Forall₂ (Beside vs vs') e.stack.values.toList e'.stack.values.toList
  functions : List.Forall₂ (Option.Rel (Beside vs vs')) e.functions.slots e'.functions.slots

/-- Engines whose contexts are in a relation, with all that is on their stacks and in their
    tables. -/
def Twins (T : Holding L → Holding L → Prop) (e e' : WebEngine L) : Prop :=
  ∃ vs vs', Joined T vs vs' e e'

namespace Joined

variable {vs vs' : List L.Value} {e e' : WebEngine L}

theorem twins (h : Joined T vs vs' e e') : Twins T e e' := ⟨vs, vs', h⟩

/-- Handles are the same on both sides. -/
theorem height (h : Joined T vs vs' e e') : e'.stack.height = e.stack.height := by
  change e'.stack.values.size = e.stack.values.size
  rw [← Array.length_toList, ← Array.length_toList, h.stack.length_eq]

theorem length (hT : Bisimulation A T) (h : Joined T vs vs' e e') : vs'.length = vs.length :=
  hT.length _ _ h.related

/-- What is under a handle is held at a position, or else undefined on both sides. -/
theorem position (hT : Bisimulation A T) (h : Joined T vs vs' e e') (a : Handle) :
    ∃ i, Holding.value ⟨e.context, vs⟩ i = e.value a ∧
      Holding.value ⟨e'.context, vs'⟩ i = e'.value a := by
  have hget : ∀ e : WebEngine L, e.value a = (e.stack.values.toList[a.index]?).getD L.undefined :=
    fun e => by rw [Array.getElem?_toList]; rfl
  rw [hget, hget]
  rcases Nat.lt_or_ge a.index e.stack.values.toList.length with hlt | hge
  · have hlt' : a.index < e'.stack.values.toList.length := by rwa [← h.stack.length_eq]
    rw [List.getElem?_eq_getElem hlt, List.getElem?_eq_getElem hlt']
    exact (h.stack.get hlt hlt').position _ _
  · have hge' : e'.stack.values.toList.length ≤ a.index := by rwa [← h.stack.length_eq]
    refine ⟨vs.length, ?_, ?_⟩
    · rw [Holding.value, List.getElem?_eq_none (Nat.le_refl _), List.getElem?_eq_none hge]
    · rw [← h.length hT, Holding.value, List.getElem?_eq_none (Nat.le_refl _),
        List.getElem?_eq_none hge']

/-- Engines in other contexts, where what was held is held still. -/
theorem withContext {T' : Holding L → Holding L → Prop} {ws ws' : List L.Value} {c c' : L.Context}
    (h : Joined T vs vs' e e') (hc : T' ⟨c, ws⟩ ⟨c', ws'⟩)
    (hheld : ∀ v v', Beside vs vs' v v' → Beside ws ws' v v') :
    Joined T' ws ws' { e with context := c } { e' with context := c' } := by
  refine ⟨hc, h.stack.imp fun v v' => hheld v v', h.functions.imp fun f f' hf => ?_⟩
  cases hf with
  | none => exact .none
  | some hv => exact .some (hheld _ _ hv)

/-- The engines after an operation of the language, which shows the same on both sides. -/
theorem act (hT : Bisimulation A T) (h : Joined T vs vs' e e') {o : Operation} (ho : A o) :
    let r := o.act ⟨e.context, vs⟩
    let r' := o.act ⟨e'.context, vs'⟩
    r'.1 = r.1 ∧ Joined T (vs ++ [r.2.1]) (vs' ++ [r'.2.1]) { e with context := r.2.2 }
      { e' with context := r'.2.2 } := by
  rcases hT.step _ _ h.related o ho with ⟨hreply, hafter⟩
  exact ⟨hreply, h.withContext hafter fun _ _ hv => hv.append _ _⟩

/-- What can be seen of two values at one position without running anything. -/
theorem look (hT : Bisimulation A T) (hlook : ∀ i, A (.look i)) (h : Joined T vs vs' e e')
    (i : Nat) :
    let v := Holding.value ⟨e.context, vs⟩ i
    let v' := Holding.value ⟨e'.context, vs'⟩ i
    L.shape v' = L.shape v ∧ L.truth v' = L.truth v ∧
      L.isCallable e'.context v' = L.isCallable e.context v ∧
      L.arrayLength? e'.context v' = L.arrayLength? e.context v :=
  Reply.looks.inj (h.act hT (hlook i)).1

theorem isCallable (hT : Bisimulation A T) (hlook : ∀ i, A (.look i)) (h : Joined T vs vs' e e')
    {v v' : L.Value} (hv : Beside vs vs' v v') :
    L.isCallable e'.context v' = L.isCallable e.context v := by
  rcases hv.position e.context e'.context with ⟨i, rfl, rfl⟩
  exact (h.look hT hlook i).2.2.1

/-- Values at one position are pushed. -/
theorem push (h : Joined T vs vs' e e') {v v' : L.Value} (hv : Beside vs vs' v v') :
    ((WebEngine.push v').run e').1 = ((WebEngine.push v).run e).1 ∧
      Joined T vs vs' ((WebEngine.push v).run e).2 ((WebEngine.push v').run e').2 := by
  refine ⟨congrArg Handle.mk h.height, h.related, ?_, h.functions⟩
  change List.Forall₂ _ (e.stack.values.push v).toList (e'.stack.values.push v').toList
  rw [Array.toList_push, Array.toList_push]
  exact List.rel_append h.stack (.cons hv .nil)

/-- The value of an operation is pushed. -/
theorem push_act (hT : Bisimulation A T) (h : Joined T vs vs' e e') {o : Operation} (ho : A o) :
    let r := o.act ⟨e.context, vs⟩
    let r' := o.act ⟨e'.context, vs'⟩
    ((WebEngine.push r'.2.1).run { e' with context := r'.2.2 }).1
        = ((WebEngine.push r.2.1).run { e with context := r.2.2 }).1 ∧
      Twins T ((WebEngine.push r.2.1).run { e with context := r.2.2 }).2
        ((WebEngine.push r'.2.1).run { e' with context := r'.2.2 }).2 := by
  rcases (h.act hT ho).2.push (.last (h.length hT) _ _) with ⟨hhandle, hpushed⟩
  exact ⟨hhandle, hpushed.twins⟩

end Joined

namespace Twins

variable {e e' : WebEngine L}

theorem height (h : Twins T e e') : e'.stack.height = e.stack.height := by
  rcases h with ⟨vs, vs', h⟩
  exact h.height

/-- What can be seen of a value without running anything. -/
theorem look (hT : Bisimulation A T) (hlook : ∀ i, A (.look i)) (h : Twins T e e') (a : Handle) :
    L.shape (e'.value a) = L.shape (e.value a) ∧ L.truth (e'.value a) = L.truth (e.value a) ∧
      L.isCallable e'.context (e'.value a) = L.isCallable e.context (e.value a) ∧
      L.arrayLength? e'.context (e'.value a) = L.arrayLength? e.context (e.value a) := by
  rcases h with ⟨vs, vs', h⟩
  rcases h.position hT a with ⟨i, hi, hi'⟩
  rw [← hi, ← hi']
  exact h.look hT hlook i

theorem isArray (hT : Bisimulation A T) (hlook : ∀ i, A (.look i)) (h : Twins T e e')
    (a : Handle) : e'.isArray (e'.value a) = e.isArray (e.value a) := by
  rw [WebEngine.isArray, (h.look hT hlook a).2.2.2, WebEngine.isArray]

/-- Stacks that are cut at one height. -/
theorem cut (h : Twins T e e') (n : Nat) :
    Twins T { e with stack := e.stack.cut n } { e' with stack := e'.stack.cut n } := by
  rcases h with ⟨vs, vs', h⟩
  refine ⟨vs, vs', h.related, ?_, h.functions⟩
  rw [ValueStack.toList_cut, ValueStack.toList_cut]
  exact List.forall₂_take n h.stack

end Twins

/-- Two ways to end: with one fault, or with values that belong together. -/
inductive Ended (R : L.Value → L.Value → Prop) :
    Except ScriptFault L.Value → Except ScriptFault L.Value → Prop
  | error (fault : ScriptFault) : Ended R (.error fault) (.error fault)
  | ok {v v' : L.Value} (h : R v v') : Ended R (.ok v) (.ok v')

/-- Sources are read alike, and the functions made of them are held at one position. -/
theorem Joined.compile (hT : Bisimulation A T) (hlook : ∀ i, A (.look i))
    {vs vs' : List L.Value} {e e' : WebEngine L} (h : Joined T vs vs' e e') {source : String}
    (hs : A (.evaluate (scriptText source))) :
    ∃ v v', Joined T (vs ++ [v]) (vs' ++ [v']) ((compile source).run e).2
        ((compile source).run e').2 ∧
      Ended (Beside (vs ++ [v]) (vs' ++ [v'])) ((compile source).run e).1
        ((compile source).run e').1 := by
  rcases h.act hT hs with ⟨hreply, hafter⟩
  simp only [Operation.act, Reply.ended.injEq] at hreply hafter
  rw [run_compile, run_compile]
  generalize (L.evaluate (scriptText source)).run e.context = r at hreply hafter ⊢
  generalize (L.evaluate (scriptText source)).run e'.context = r' at hreply hafter ⊢
  have hlast : Beside (vs ++ [valueOf r.1]) (vs' ++ [valueOf r'.1]) (valueOf r.1) (valueOf r'.1) :=
    .last (h.length hT) _ _
  refine ⟨valueOf r.1, valueOf r'.1, ?_⟩
  rcases r with ⟨fault | v, c⟩ <;> rcases r' with ⟨fault' | v', c'⟩
  · rw [Option.some.inj hreply]
    exact ⟨hafter, .error _⟩
  · cases hreply
  · cases hreply
  · refine ⟨hafter, ?_⟩
    -- Whether the value is a function is the same on both sides.
    have hcallable : L.isCallable c' v' = L.isCallable c v := hafter.isCallable hT hlook hlast
    dsimp only
    rw [hcallable]
    split
    · exact .ok hlast
    · exact .error _

/-- What a property is for scripts, as a constant. -/
def constantOf : PropertyValue → Constant
  | .nothing => .null
  | .text s => .text s
  | .number v => .number v

theorem value_constantOf (v : PropertyValue) : (constantOf v).value
    = (propertyValue v : L.Value) := by
  cases v <;> rfl

theorem agree_push (hT : Bisimulation A T) {c : Constant} (hc : A (.constant c)) :
    Agree (Twins T) (push c.value : StateM (WebEngine L) Handle) := by
  rintro e e' ⟨vs, vs', h⟩
  exact h.push_act hT hc

-- What is made of trees: operations that make values and fill them.
section

variable (hT : Bisimulation A T) (hA : ∀ o : Operation, o.Makes S → A o)

include hT hA

/-- The functions of sources are pushed alike. -/
theorem agree_pushFunction {source : String} (hs : S (scriptText source)) :
    Agree (Twins T) (pushFunction source : StateM (WebEngine L) _) := by
  rintro e e' ⟨vs, vs', h⟩
  rcases h.compile hT (fun i => hA (.look i) trivial) (hA (.evaluate _) hs) with
    ⟨v, v', hafter, hended⟩
  rw [run_pushFunction, run_pushFunction]
  generalize (WebEngine.compile source).run e = r at hafter hended ⊢
  generalize (WebEngine.compile source).run e' = r' at hafter hended ⊢
  rcases r with ⟨r, e₁⟩
  rcases r' with ⟨r', e₁'⟩
  cases hended with
  | error fault => exact ⟨rfl, hafter.twins⟩
  | ok hv =>
    rcases hafter.push hv with ⟨hhandle, hpushed⟩
    exact ⟨congrArg Except.ok hhandle, hpushed.twins⟩

/-- Trees are built alike. -/
theorem builds_twins : Engine.Builds (fun source => S (scriptText source)) (Twins T) where
  pushNull := agree_push hT (hA (.constant .null) trivial)
  pushBoolean := fun b => agree_push hT (hA (.constant (.boolean b)) trivial)
  pushNumber := fun v => agree_push hT (hA (.constant (.number v)) trivial)
  pushText := fun s => agree_push hT (hA (.constant (.text s)) trivial)
  pushArray := by
    rintro e e' ⟨vs, vs', h⟩
    exact h.push_act hT (hA .newArray trivial)
  pushObject := by
    rintro e e' ⟨vs, vs', h⟩
    exact h.push_act hT (hA .newObject trivial)
  pushFunction := fun source hs => agree_pushFunction hT hA hs
  setElement := by
    intro a i v e e' h
    change ((WebEngine.setElement a i v).run e').1 = ((WebEngine.setElement a i v).run e).1 ∧
      Twins T ((WebEngine.setElement a i v).run e).2 ((WebEngine.setElement a i v).run e').2
    rw [run_setElement, run_setElement, h.isArray hT (fun i => hA (.look i) trivial) a]
    refine ⟨rfl, ?_⟩
    dsimp only
    split
    · rcases h with ⟨vs, vs', h⟩
      rcases h.position hT a with ⟨j, hj, hj'⟩
      rcases h.position hT v with ⟨k, hk, hk'⟩
      have hafter := (h.act hT (hA (.setElement j (.ofNat i) k) trivial)).2
      simp only [Operation.act, hj, hj', hk, hk'] at hafter
      exact hafter.twins
    · exact h
  setField := by
    rintro o name v e e' ⟨vs, vs', h⟩
    rcases h.position hT o with ⟨j, hj, hj'⟩
    rcases h.position hT v with ⟨k, hk, hk'⟩
    have hafter := (h.act hT (hA (.setField j name k) trivial)).2
    simp only [Operation.act, hj, hj', hk, hk'] at hafter
    exact ⟨rfl, hafter.twins⟩

/-- Properties are set alike on objects that are held at one position. -/
theorem Joined.addProperties (properties : List (String × PropertyValue)) :
    ∀ {vs vs' : List L.Value} {e e' : WebEngine L} {o o' : L.Value}, Joined T vs vs' e e' →
      Beside vs vs' o o' → ∃ ws ws',
        Joined T ws ws' { e with context := ((addProperties o properties).run e.context).2 }
          { e' with context := ((addProperties o' properties).run e'.context).2 } ∧
        Beside ws ws' o o' := by
  induction properties with
  | nil => exact fun h ho => ⟨_, _, h, ho⟩
  | cons p rest ih =>
      intro vs vs' e e' o o' h ho
      rcases h.act hT (hA (.constant (constantOf p.2)) trivial) with ⟨-, hc⟩
      simp only [Operation.act, value_constantOf] at hc
      have ho₁ := ho.append [propertyValue p.2] [propertyValue p.2]
      have hv : Beside (vs ++ [propertyValue p.2]) (vs' ++ [propertyValue p.2])
          (propertyValue p.2) (propertyValue p.2) := .last (h.length hT) _ _
      rcases ho₁.position e.context e'.context with ⟨i, hi, hi'⟩
      rcases hv.position e.context e'.context with ⟨j, hj, hj'⟩
      have hset := (hc.act hT (hA (.setField i p.1 j) trivial)).2
      simp only [Operation.act, hi, hi', hj, hj'] at hset
      exact ih hset (ho₁.append _ _)

end

/-- Results are read alike. -/
theorem reads_twins (hT : Bisimulation A T) (hA : ∀ o : Operation, o.Converts → A o) :
    Engine.Reads (Twins T) where
  kind := by
    intro e e' h a
    have hlook : ∀ i, A (.look i) := fun i => hA (.look i) trivial
    rcases h.look hT hlook a with ⟨hshape, -, hcallable, -⟩
    change WebEngine.kind e' a = WebEngine.kind e a
    simp only [WebEngine.kind, h.isArray hT hlook a, hshape, hcallable]
  truth := fun e e' h a => (h.look hT (fun i => hA (.look i) trivial) a).2.1
  length := fun e e' h a =>
    congrArg (·.getD 0) (h.look hT (fun i => hA (.look i) trivial) a).2.2.2
  number := by
    rintro a e e' ⟨vs, vs', h⟩
    rcases h.position hT a with ⟨i, hi, hi'⟩
    rcases h.act hT (hA (.toNumber i) trivial) with ⟨hreply, hafter⟩
    simp only [Operation.act, hi, hi', Reply.number.injEq] at hreply hafter
    exact ⟨congrArg (·.getD Double.nan) hreply, hafter.twins⟩
  text := by
    rintro a e e' ⟨vs, vs', h⟩
    rcases h.position hT a with ⟨i, hi, hi'⟩
    rcases h.act hT (hA (.toText i) trivial) with ⟨hreply, hafter⟩
    simp only [Operation.act, hi, hi', Reply.text.injEq] at hreply hafter
    exact ⟨congrArg (·.getD "") hreply, hafter.twins⟩
  pushElement := by
    intro a i e e' h
    change ((WebEngine.pushElement a i).run e').1 = ((WebEngine.pushElement a i).run e).1 ∧
      Twins T ((WebEngine.pushElement a i).run e).2 ((WebEngine.pushElement a i).run e').2
    rw [run_pushElement, run_pushElement, h.isArray hT (fun i => hA (.look i) trivial) a]
    rcases e.isArray (e.value a)
    · exact agree_push hT (hA (.constant .undefined) trivial) e e' h
    · rcases h with ⟨vs, vs', h⟩
      rcases h.position hT a with ⟨j, hj, hj'⟩
      have hpushed := h.push_act hT (hA (.element j (.ofNat i)) trivial)
      simp only [Operation.act, hj, hj'] at hpushed
      exact hpushed

/-- The result of a run that may end with an exception is pushed if there is one. -/
theorem agree_pushResult {vs vs' : List L.Value} {e e' : WebEngine L} (h : Joined T vs vs' e e')
    {r r' : Except String L.Value} (hfault : faultOf r' = faultOf r)
    (hvalue : Beside vs vs' (valueOf r) (valueOf r')) :
    ((pushResult (r'.mapError .runtime)).run e').1 = ((pushResult (r.mapError .runtime)).run e).1 ∧
      Twins T ((pushResult (r.mapError .runtime)).run e).2
        ((pushResult (r'.mapError .runtime)).run e').2 := by
  rcases r with fault | v <;> rcases r' with fault' | v'
  · rw [Option.some.inj hfault]
    exact ⟨rfl, h.twins⟩
  · cases hfault
  · cases hfault
  · rcases h.push hvalue with ⟨hhandle, hpushed⟩
    exact ⟨congrArg Except.ok hhandle, hpushed.twins⟩

/-- Functions at one position of the tables are held at one position. -/
theorem Joined.function {vs vs' : List L.Value} {e e' : WebEngine L} (h : Joined T vs vs' e e')
    (i : Nat) : Option.Rel (Beside vs vs') (e.functions.get? i) (e'.functions.get? i) := by
  unfold FunctionTable.get?
  rcases Nat.lt_or_ge i e.functions.slots.length with hlt | hge
  · have hlt' : i < e'.functions.slots.length := by rwa [← h.functions.length_eq]
    rw [List.getElem?_eq_getElem hlt, List.getElem?_eq_getElem hlt']
    exact h.functions.get hlt hlt'
  · have hge' : e'.functions.slots.length ≤ i := by rwa [← h.functions.length_eq]
    rw [List.getElem?_eq_none hge, List.getElem?_eq_none hge']
    exact .none

-- What is done to answer questions: operations that call functions and read results.
section

variable (hT : Bisimulation A T) (hA : ∀ o : Operation, o.Reads → A o)

include hT hA

/-- Functions are called alike. -/
theorem agree_call (i : Nat) : Agree (Twins T) (call i : StateM (WebEngine L) _) := by
  rintro e e' ⟨vs, vs', h⟩
  have hslots := h.function i
  rw [run_call, run_call]
  generalize e.functions.get? i = f at hslots
  generalize e'.functions.get? i = f' at hslots
  cases hslots with
  | none => exact ⟨rfl, h.twins⟩
  | some hf =>
    rcases hf.position e.context e'.context with ⟨j, hj, hj'⟩
    rcases h.act hT (hA (.call j) trivial) with ⟨hreply, hafter⟩
    simp only [Operation.act, hj, hj', Reply.ended.injEq] at hreply hafter
    exact agree_pushResult hafter hreply (.last (h.length hT) _ _)

/-- Questions are answered alike. -/
theorem agree_answer (q : Question) :
    Agree (Twins T) (q.answer (Engine.call q.index) : StateM (WebEngine L) Answer) :=
  (reads_twins hT fun o ho => hA o ho.reads).answer q (agree_call hT hA q.index)

/-- Twins are asked alike. -/
theorem Twins.ask {s s' : Session (WebEngine L)} (h : Twins T s.engine s'.engine) (q : Question) :
    (q.ask.run s').1 = (q.ask.run s).1 ∧
      Twins T (q.ask.run s).2.engine (q.ask.run s').2.engine := by
  rcases agree_answer hT hA q _ _ h with ⟨hanswer, hafter⟩
  have hclosed := hafter.cut s.engine.stack.height
  rw [Engine.run_ask, Engine.run_ask, Engine.run_inScope, Engine.run_inScope]
  refine ⟨hanswer, ?_⟩
  change Twins T { Engine.answered q s.engine with stack := _ }
    { Engine.answered q s'.engine with
      stack := (Engine.answered q s'.engine).stack.cut s'.engine.stack.height }
  rwa [h.height]

end

theorem forall₂_set {α β : Type} {R : α → β → Prop} {l : List α} {l' : List β}
    (h : List.Forall₂ R l l') : ∀ (i : Nat) {a : α} {b : β}, R a b →
    List.Forall₂ R (l.set i a) (l'.set i b) := by
  induction h with
  | nil => exact fun _ _ _ _ => .nil
  | cons hfirst hrest ih =>
      intro i a b hab
      cases i with
      | zero => exact .cons hab hrest
      | succ i => exact .cons hfirst (ih i hab)

/-- Tables that hold the same positions do so when one is written. -/
theorem forall₂_slots_set {R : Option L.Value → Option L.Value → Prop} (hnone : R none none)
    {t t' : FunctionTable L.Value} (h : List.Forall₂ R t.slots t'.slots) (i : Nat)
    {f f' : Option L.Value} (hf : R f f') :
    List.Forall₂ R (t.set i f).slots (t'.set i f').slots := by
  refine forall₂_set (List.rel_append h ?_) i hf
  rw [h.length_eq]
  exact List.forall₂_same.mpr fun x hx => by rw [List.eq_of_mem_replicate hx]; exact hnone

theorem agree_truncateFunctions (n : Nat) :
    Agree (Twins T) (Engine.truncateFunctions n : StateM (WebEngine L) Unit) := by
  rintro e e' ⟨vs, vs', h⟩
  exact ⟨rfl, vs, vs', h.related, h.stack, List.forall₂_take n h.functions⟩

-- What engines are set up with: values that are made, in the table and in variables.
section

variable (hT : Bisimulation A T) (hA : ∀ o : Operation, o.Sets S → A o)

include hT hA

/-- Functions are bound alike. -/
theorem agree_setFunction (i : Nat) {source : String} (hs : S (scriptText source)) :
    Agree (Twins T) (setFunction i source : StateM (WebEngine L) _) := by
  rintro e e' ⟨vs, vs', h⟩
  rcases h.compile hT (fun i => hA (.look i) trivial) (hA (.evaluate _) hs) with
    ⟨v, v', hafter, hended⟩
  have hfunctions : List.Forall₂ (Option.Rel (Beside (vs ++ [v]) (vs' ++ [v'])))
      e.functions.slots e'.functions.slots := by
    have hsame := hafter.functions
    rwa [run_compile_snd, run_compile_snd] at hsame
  rw [run_setFunction, run_setFunction]
  generalize (WebEngine.compile source).run e = r at hafter hended ⊢
  generalize (WebEngine.compile source).run e' = r' at hafter hended ⊢
  rcases r with ⟨r, e₁⟩
  rcases r' with ⟨r', e₁'⟩
  cases hended with
  | error fault =>
    exact ⟨rfl, _, _, hafter.related, hafter.stack, forall₂_slots_set .none hfunctions i .none⟩
  | ok hv =>
    exact ⟨rfl, _, _, hafter.related, hafter.stack, forall₂_slots_set .none hfunctions i (.some hv)⟩

/-- Variables are set alike. -/
theorem agree_setGlobal (name : String) (a : Handle) :
    Agree (Twins T) (Engine.setGlobal name a : StateM (WebEngine L) Unit) := by
  rintro e e' ⟨vs, vs', h⟩
  rcases h.position hT a with ⟨i, hi, hi'⟩
  have hafter := (h.act hT (hA (.setVariable name i) trivial)).2
  simp only [Operation.act, hi, hi'] at hafter
  exact ⟨rfl, hafter.twins⟩

/-- A value that is held is set as a variable alike. -/
theorem Joined.setVariable {vs vs' : List L.Value} {e e' : WebEngine L} (h : Joined T vs vs' e e')
    (name : String) {v v' : L.Value} (hv : Beside vs vs' v v') :
    Twins T ((WebEngine.setVariable name v).run e).2
      ((WebEngine.setVariable name v').run e').2 := by
  rcases hv.position e.context e'.context with ⟨i, rfl, rfl⟩
  exact (h.act hT (hA (.setVariable name i) trivial)).2.twins

theorem agree_setConstant (name : String) (c : Constant) :
    Agree (Twins T) (setVariable name c.value : StateM (WebEngine L) Unit) := by
  rintro e e' ⟨vs, vs', h⟩
  rcases h.act hT (hA (.constant c) trivial) with ⟨-, hc⟩
  exact ⟨rfl, hc.setVariable hT hA name (.last (h.length hT) _ _)⟩

theorem agree_setFilterKey (key : FilterKey) (n : Int) :
    Agree (Twins T) (Engine.setFilterKey key n : StateM (WebEngine L) Unit) := by
  cases key with
  | zoom => exact agree_setConstant hT hA zoomName (.integer n)
  | geometry => exact agree_setConstant hT hA geometryName (.text (Geometry.nameOfCode n))
  | other => exact .pure ()

/-- Features are shown alike. -/
theorem agree_setFeature (feature : Option Feature) :
    Agree (Twins T) (setFeature feature : StateM (WebEngine L) Unit) := by
  rcases feature with _ | f
  · exact agree_setConstant hT hA featureName .null
  · rintro e e' ⟨vs, vs', h⟩
    rcases h.act hT (hA .newObject trivial) with ⟨-, hnew⟩
    rcases hnew.addProperties hT (fun o ho => hA o ho.sets) f.properties.entries
      (.last (h.length hT) _ _) with ⟨ws, ws', hadded, hobject⟩
    exact ⟨rfl, hadded.setVariable hT hA featureName hobject⟩

end

/-- Engines that are twins of themselves remain so, whatever is done with the allowed
    sources. -/
theorem upholds_twins (hT : Bisimulation (Operation.Allowed S) T) :
    Engine.Upholds (fun source => S (scriptText source)) (fun e : WebEngine L => Twins T e e) where
  builds := (builds_twins hT fun _ ho => ho.allowed).diagonal
  setGlobal := fun n a => (agree_setGlobal hT (fun _ ho => ho.allowed) n a).stable_self
  reset := fun e _ _ h' => h'.cut e.stack.height
  setFeature := fun f => (agree_setFeature hT (fun _ ho => ho.allowed) f).stable_self
  setFilterKey := fun k n => (agree_setFilterKey hT (fun _ ho => ho.allowed) k n).stable_self
  setFunction := fun i _ hs => (agree_setFunction hT (fun _ ho => ho.allowed) i hs).stable_self
  truncateFunctions := fun n => (agree_truncateFunctions n).stable_self
  ask := fun q _ h => (Twins.ask hT (fun _ ho => ho.allowed) h q).2

/-- What somebody holds who has all that is on the stack and in the table of an engine. -/
def holding (e : WebEngine L) : Holding L :=
  ⟨e.context, e.stack.values.toList ++ e.functions.slots.filterMap id⟩

/-- Functions are held one behind the other. -/
theorem beside_slots (fs : List (Option L.Value)) : ∀ {fs' : List (Option L.Value)}
    {vs vs' : List L.Value}, fs'.map Option.isSome = fs.map Option.isSome →
    vs'.length = vs.length → List.Forall₂
      (Option.Rel (Beside (vs ++ fs.filterMap id) (vs' ++ fs'.filterMap id))) fs fs' := by
  induction fs with
  | nil =>
      intro fs' vs vs' hfs _
      rw [List.map_eq_nil_iff.mp hfs]
      exact .nil
  | cons f fs ih =>
      intro fs' vs vs' hfs hlength
      rcases fs' with _ | ⟨f', fs'⟩
      · cases hfs
      · rcases List.cons.inj hfs with ⟨hf, hrest⟩
        rcases f with _ | v <;> rcases f' with _ | v'
        · exact .cons .none (ih hrest hlength)
        · cases hf
        · cases hf
        · -- The first function is one of those in front of the others.
          have hmove : ∀ (ws : List L.Value) (w : L.Value) (gs : List (Option L.Value)),
              ws ++ (some w :: gs).filterMap id = (ws ++ [w]) ++ gs.filterMap id := by
            intro ws w gs
            rw [List.append_assoc]
            rfl
          have hlength' : (vs' ++ [v']).length = (vs ++ [v]).length := by
            rw [List.length_append, List.length_append, hlength]
            rfl
          rw [hmove, hmove]
          exact .cons (.some ((Beside.last hlength v v').append _ _)) (ih hrest hlength')

/-- Engines whose contexts are related with all that is on their stacks and in their tables are
    twins if there are as many values and the same positions are empty. -/
theorem joined_holding {e e' : WebEngine L} (h : T e.holding e'.holding)
    (hheight : e'.stack.height = e.stack.height)
    (hslots : e'.functions.slots.map Option.isSome = e.functions.slots.map Option.isSome) :
    Joined T e.holding.values e'.holding.values e e' := by
  have hlength : e'.stack.values.toList.length = e.stack.values.toList.length := by
    rw [Array.length_toList, Array.length_toList]
    exact hheight
  exact ⟨h, Beside.forall₂_left hlength _ _, beside_slots _ hslots hlength⟩

/-- All that is on the stack and in the table of a twin is held. -/
theorem Joined.mem_of_mem_holding {vs vs' : List L.Value} {e e' : WebEngine L}
    (h : Joined T vs vs' e e') {v : L.Value} (hv : v ∈ e.holding.values) : v ∈ vs := by
  have hbeside : ∃ v', Beside vs vs' v v' := by
    rcases List.mem_append.mp hv with hstack | hslot
    · rcases List.mem_iff_getElem.mp hstack with ⟨i, hi, rfl⟩
      exact ⟨_, h.stack.get hi (by rwa [← h.stack.length_eq])⟩
    · rcases List.mem_filterMap.mp hslot with ⟨f, hmem, hf⟩
      rcases List.mem_iff_getElem.mp hmem with ⟨i, hi, rfl⟩
      have hrel := h.functions.get hi (by rwa [← h.functions.length_eq])
      change e.functions.slots[i] = some v at hf
      rw [List.get_eq_getElem, hf] at hrel
      generalize List.get e'.functions.slots _ = f' at hrel
      cases hrel with
      | some hv => exact ⟨_, hv⟩
  rcases hbeside with ⟨_, i, hi, -⟩
  exact List.mem_of_getElem? hi

/-- Engines are twins if their contexts are alike for whoever has all that is on their stacks
    and in their tables, and if there are as many values and the same positions are empty. -/
theorem twins_iff {e e' : WebEngine L} : Twins (Alike S) e e' ↔ Alike S e.holding e'.holding ∧
    e'.stack.height = e.stack.height ∧
    e'.functions.slots.map Option.isSome = e.functions.slots.map Option.isSome := by
  constructor
  · rintro ⟨vs, vs', h⟩
    refine ⟨h.related.select (List.rel_append h.stack ?_), h.height, ?_⟩
    · exact List.rel_filterMap (fun f f' hf => hf) h.functions
    · rw [← List.forall₂_eq_eq_eq, List.forall₂_map_left_iff, List.forall₂_map_right_iff]
      refine List.Forall₂.flip (h.functions.imp fun f f' hf => ?_)
      cases hf <;> rfl
  · rintro ⟨halike, hheight, hslots⟩
    exact (joined_holding halike hheight hslots).twins

theorem Twins.trans {e e' e'' : WebEngine L} (h : Twins (Alike S) e e')
    (h' : Twins (Alike S) e' e'') : Twins (Alike S) e e'' := by
  rcases twins_iff.mp h with ⟨halike, hheight, hslots⟩
  rcases twins_iff.mp h' with ⟨halike', hheight', hslots'⟩
  exact twins_iff.mpr ⟨halike.trans halike', hheight'.trans hheight, hslots'.trans hslots⟩

end WebEngine

end MapStyling
