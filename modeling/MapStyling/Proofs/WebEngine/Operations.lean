import MapStyling.Engine.WebEngine
import MapStyling.Proofs.Tabled

/-!
# Operations of Engines of Web Scripts

What an engine of web scripts does, in closed form.

The engine adds little to its language: a stack, a table and the order in which
things are asked for. So each operation is one of the language with something
pushed, written to the table, or passed over.

## Main definitions

* `WebEngine.invoke`: What a function is run by.
* `WebEngine.Around`: What an engine may come to during a question.
* `WebEngine.tabled`: The engine apart from its functions.

## Theorems

* `WebEngine.run_compile`, `WebEngine.run_call`: Reading a source, and calling a function.
* `WebEngine.run_setElement`, `WebEngine.run_pushElement`: Writing and reading elements.
-/

namespace MapStyling

namespace WebEngine

variable {L : WebLanguage}

/-- What reading a source does: it is evaluated, and its value has to be a function. -/
theorem run_compile (source : String) (e : WebEngine L) :
    (compile source).run e = match (L.evaluate (scriptText source)).run e.context with
      | (.error message, c) => (.error (.runtime message), { e with context := c })
      | (.ok v, c) =>
        (if L.isCallable c v then .ok v else .error .notAFunction, { e with context := c }) := by
  have hrun : (lift (L.evaluate (scriptText source))).run e
      = (((L.evaluate (scriptText source)).run e.context).1,
        { e with context := ((L.evaluate (scriptText source)).run e.context).2 }) := rfl
  unfold compile
  rw [run_bind_state, hrun]
  rcases (L.evaluate (scriptText source)).run e.context with ⟨_ | v, c⟩ <;> rfl

/-- Nothing but the context changes when a source is read. -/
theorem run_compile_snd (source : String) (e : WebEngine L) : ((compile source).run e).2
    = { e with context := ((L.evaluate (scriptText source)).run e.context).2 } := by
  rw [run_compile]
  rcases (L.evaluate (scriptText source)).run e.context with ⟨_ | v, c⟩ <;> rfl

/-- Reading a source does not see what is on the stack and in the table. -/
theorem run_compile_fst (source : String) {e e' : WebEngine L} (h : e'.context = e.context) :
    ((compile source).run e').1 = ((compile source).run e).1 := by
  rw [run_compile, run_compile, h]
  rcases (L.evaluate (scriptText source)).run e.context with ⟨_ | v, c⟩ <;> rfl

theorem run_pushResult (r : Except ScriptFault L.Value) (e : WebEngine L) :
    (pushResult r).run e = match r with
      | .error fault => (.error fault, e)
      | .ok v => (.ok ((push v).run e).1, ((push v).run e).2) := by
  rcases r with fault | v <;> rfl

theorem run_pushFunction (source : String) (e : WebEngine L) :
    (pushFunction source).run e
      = (pushResult ((compile source).run e).1).run ((compile source).run e).2 := rfl

/-- What a function is run by. -/
def invoke (f : L.Value) : StateM (WebEngine L) (Except ScriptFault Handle) := do
  pushResult ((← lift (L.call f)).mapError .runtime)

/-- What a call does: nothing at an empty position, and else a run of the function. -/
theorem run_call (i : Nat) (e : WebEngine L) :
    (call i).run e = match e.functions.get? i with
      | none => (.error (.unknownFunction i), e)
      | some f => (invoke f).run e := by
  unfold call
  rw [run_bind_state, run_get_state]
  dsimp only
  rcases e.functions.get? i with _ | f <;> rfl

theorem run_invoke (f : L.Value) (e : WebEngine L) :
    (invoke f).run e = match (L.call f).run e.context with
      | (.error message, c) => (.error (.runtime message), { e with context := c })
      | (.ok v, c) => (.ok ⟨e.stack.height⟩, ⟨c, (e.stack.push v).2, e.functions⟩) := by
  change (pushResult (((L.call f).run e.context).1.mapError .runtime)).run
    { e with context := ((L.call f).run e.context).2 } = _
  rcases (L.call f).run e.context with ⟨_ | v, c⟩ <;> rfl

theorem run_setElement (a : Handle) (i : Nat) (v : Handle) (e : WebEngine L) :
    (setElement a i v).run e = ((), if e.isArray (e.value a) then
      { e with context := ((L.setElement (e.value a) (.ofNat i) (e.value v)).run e.context).2 }
      else e) := by
  change StateT.run (if e.isArray (e.value a) then _ else _ : StateM (WebEngine L) Unit) e = _
  split <;> rfl

theorem run_pushElement (a : Handle) (i : Nat) (e : WebEngine L) :
    (pushElement a i).run e = if e.isArray (e.value a) then
        let r := (L.element? (e.value a) (.ofNat i)).run e.context
        (push (r.1.getD L.undefined)).run { e with context := r.2 }
      else (push L.undefined).run e := by
  change StateT.run (if e.isArray (e.value a) then _ else _ : StateM (WebEngine L) Handle) e = _
  split <;> rfl

theorem run_setFunction (i : Nat) (source : String) (e : WebEngine L) :
    (setFunction i source).run e = match (compile source).run e with
      | (.error fault, e') =>
        (.error (fault.whileCompiling i), { e' with functions := e.functions.set i none })
      | (.ok v, e') => (.ok (), { e' with functions := e.functions.set i (some v) }) := by
  unfold setFunction
  rw [run_bind_state, run_bind_state]
  change StateT.run (match ((compile source).run
      { e with functions := e.functions.set i none }).1 with | .error _ => _ | .ok _ => _)
    ((compile source).run { e with functions := e.functions.set i none }).2 = _
  rw [run_compile, run_compile]
  dsimp only
  -- The value is written where the position was emptied before.
  rcases (L.evaluate (scriptText source)).run e.context with ⟨message | v, c⟩
  · rfl
  · dsimp only
    rcases L.isCallable c v with _ | _
    · rfl
    · change (Except.ok (), (⟨c, e.stack, (e.functions.set i none).set i (some v)⟩ :
        WebEngine L)) = _
      rw [FunctionTable.set_set]
      rfl

/-- Nothing but binding and dropping functions touches the table. -/
theorem preserves_functions (t : FunctionTable L.Value) :
    Engine.Preserves (fun _ => True) fun e : WebEngine L => e.functions = t where
  builds := {
    pushNull := .of_stable fun _ h => h
    pushBoolean := fun _ => .of_stable fun _ h => h
    pushNumber := fun _ => .of_stable fun _ h => h
    pushText := fun _ => .of_stable fun _ h => h
    pushArray := .of_stable fun _ h => h
    pushObject := .of_stable fun _ h => h
    pushFunction := fun source _ => .of_stable fun e h => by
      change ((pushFunction source).run e).2.functions = t
      rw [run_pushFunction, run_pushResult, run_compile_snd]
      rcases ((compile source).run e).1 with _ | v <;> exact h
    setElement := fun a i v => .of_stable fun e h => by
      change ((setElement a i v).run e).2.functions = t
      rw [run_setElement]
      dsimp only
      split <;> exact h
    setField := fun _ _ _ => .of_stable fun _ h => h }
  setGlobal := fun _ _ _ h => h
  reset := fun _ _ _ h' => h'
  setFeature := by
    intro feature e h
    rcases feature with _ | f <;> exact h
  setFilterKey := by
    intro key n e h
    cases key <;> exact h

/-- What an engine may come to while it is being asked something, its context aside: the
    same engine with values on top of its stack. -/
structure Around (e e' : WebEngine L) : Prop where
  functions : e'.functions = e.functions
  opened : e'.stack.cut e.stack.height = e.stack

namespace Around

variable {e e' : WebEngine L}

theorem push (h : Around e e') (v : L.Value) : Around e ((WebEngine.push v).run e').2 where
  functions := h.functions
  opened := by
    have hle := ValueStack.height_le_of_cut_eq h.opened
    exact (ValueStack.cut_push_of_le e'.stack v hle).trans h.opened

theorem withContext (h : Around e e') (context : L.Context) : Around e { e' with context } :=
  ⟨h.functions, h.opened⟩

end Around

theorem reads_around (e : WebEngine L) : Engine.Reads (Diagonal (Around e)) where
  kind := fun _ _ h _ => by rw [h.1]
  truth := fun _ _ h _ => by rw [h.1]
  length := fun _ _ h _ => by rw [h.1]
  number := fun _ => .of_stable fun _ h => h.withContext _
  text := fun _ => .of_stable fun _ h => h.withContext _
  pushElement := fun a i => .of_stable fun e' h => by
    change Around e ((pushElement a i).run e').2
    rw [run_pushElement]
    split
    · exact (h.withContext _).push _
    · exact h.push _

theorem call_around (i : Nat) (e : WebEngine L) : Around e ((call i).run e).2 := by
  have hself : Around e e := ⟨rfl, e.stack.cut_height⟩
  rw [run_call]
  rcases e.functions.get? i with _ | f
  · exact hself
  · dsimp only
    rw [run_invoke]
    rcases (L.call f).run e.context with ⟨_ | v, c⟩
    · exact hself.withContext c
    · exact (hself.withContext c).push v

theorem answered_around (q : Question) (e : WebEngine L) : Around e (Engine.answered q e) :=
  (reads_around e).answered q (call_around q.index e)

/-- The engine apart from its functions. -/
def tabled : Engine.Tabled (WebEngine L) L.Value where
  table := functions
  withTable t e := { e with functions := t }
  compile source := Except.toOption <$> compile source
  invoke := invoke
  table_withTable _ _ := rfl
  withTable_table _ := rfl
  withTable_withTable _ _ _ := rfl
  run_compile_withTable t source e := by
    change (((compile source).run { e with functions := t }).1.toOption,
      ((compile source).run { e with functions := t }).2) = (((compile source).run e).1.toOption,
        { ((compile source).run e).2 with functions := t })
    have hfst : ((compile source).run { e with functions := t }).1 = ((compile source).run e).1 :=
      run_compile_fst source rfl
    rw [hfst, run_compile_snd, run_compile_snd]
  run_setFunction i source e := by
    change (((setFunction i source).run e).1.isOk, ((setFunction i source).run e).2)
      = (((compile source).run e).1.toOption.isSome, { ((compile source).run e).2 with
          functions := e.functions.set i ((compile source).run e).1.toOption })
    rw [run_setFunction]
    rcases (compile source).run e with ⟨_ | v, e'⟩ <;> rfl
  run_truncateFunctions _ _ := rfl
  run_call i e := by
    change (call i).run e = _
    rw [run_call]
    rcases e.functions.get? i with _ | f <;> rfl
  kept := preserves_functions
  table_ask q s := by
    rw [Engine.run_ask_snd]
    exact (answered_around q s.engine).functions

end WebEngine

end MapStyling
