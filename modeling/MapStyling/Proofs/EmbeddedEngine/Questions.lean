import MapStyling.Engine.EmbeddedEngine
import MapStyling.Proofs.EmbeddedLanguage.Scopes
import MapStyling.Proofs.Tabled

/-!
# Questions to Engines of Embedded Scripts

What an engine of embedded scripts does, in closed form, and what a question
leaves of it.

A call takes a script out of the table, runs it, and puts it back. It leaves the
scope of all scripts rewound and perhaps a value on the stack, and reading the
value touches nothing but the stack. So all that is left of a question when its
scope is closed is the scope of the scripts, whatever the script was.

Definitions wait beside values of the stack. Closing a scope drops those whose
values go, and none that waited when the scope was opened.

## Main definitions

* `EmbeddedEngine.PendingOnStack`: Engines in which definitions wait beside values.
* `EmbeddedEngine.Around`: What an engine may come to during a question.
* `EmbeddedEngine.scopeAfter`: The scope that a call leaves.
* `EmbeddedEngine.LeavesShared`: Questions whose scripts assign to nothing that was there.
* `EmbeddedEngine.tabled`: The engine apart from its functions.

## Theorems

* `EmbeddedEngine.run_pushFunction`, `EmbeddedEngine.run_call`: What functions of the
  globals and calls do.
* `EmbeddedEngine.run_ask_of_pendingOnStack`: What a question does.
* `EmbeddedEngine.LeavesShared.ask`: Such a question leaves a session as it was.
* `EmbeddedEngine.upholds_pendingOnStack`: Definitions wait beside values, whatever is
  done.
-/

namespace MapStyling

namespace EmbeddedEngine

variable {L : EmbeddedLanguage}

theorem run_pushFunction (source : String) (e : EmbeddedEngine L) :
    (pushFunction source).run e = match defineFunction e.made source with
      | .error fault => (.error fault, e)
      | .ok (pointer, script) => (.ok ⟨e.stack.height⟩,
        { e with
          stack := (e.stack.push pointer).2
          pending := e.pending ++ [(⟨e.stack.height⟩, L.definitionsOnly script)]
          made := e.made + 1 }) := by
  unfold pushFunction
  rw [run_bind_state, run_get_state]
  dsimp only
  rcases defineFunction e.made source with fault | ⟨pointer, script⟩ <;> rfl

theorem functions_pushFunction (source : String) (e : EmbeddedEngine L) :
    ((pushFunction source).run e).2.functions = e.functions := by
  rw [run_pushFunction]
  rcases defineFunction e.made source with fault | ⟨pointer, script⟩ <;> rfl

theorem functions_setGlobal (name : String) (a : Handle) (e : EmbeddedEngine L) :
    ((setGlobal name a).run e).2.functions = e.functions := by
  unfold setGlobal
  split <;> rfl

theorem run_setFunction (i : Nat) (source : String) (e : EmbeddedEngine L) :
    (setFunction i source).run e = match compile e.library source with
      | .error message =>
        (.error (.compile i message), { e with functions := e.functions.set i none })
      | .ok script => (.ok (), { e with functions := e.functions.set i (some script) }) := by
  unfold setFunction
  rw [run_bind_state, run_bind_state]
  change StateT.run (match compile e.library source with | .error _ => _ | .ok _ => _) _ = _
  rcases compile e.library source with message | script
  · rfl
  · change (Except.ok (), { e with functions := (e.functions.set i none).set i (some script) }) = _
    rw [FunctionTable.set_set]

/-- What a function is run by. -/
def invoke (script : L.Script) : StateM (EmbeddedEngine L) (Except ScriptFault Handle) := do
  pushResult (← evaluate script)

theorem run_invoke (script : L.Script) (e : EmbeddedEngine L) :
    (invoke script).run e = match (L.run script).run e.scope with
      | (.ok v, scope) => (.ok ⟨e.stack.height⟩,
        { e with scope := L.rewind (L.height e.scope) scope, stack := (e.stack.push v).2 })
      | (.error message, scope) =>
        (.error (.runtime message), { e with scope := L.rewind (L.height e.scope) scope }) := by
  have hrun : (evaluate script).run e = (((L.run script).run e.scope).1.mapError .runtime,
      { e with scope := L.rewind (L.height e.scope) ((L.run script).run e.scope).2 }) := rfl
  unfold invoke
  rw [run_bind_state, hrun]
  rcases (L.run script).run e.scope with ⟨_ | v, scope⟩ <;> rfl

/-- What a call does: nothing at an empty position, and else a run of the script. -/
theorem run_call (i : Nat) (e : EmbeddedEngine L) :
    (call i).run e = match e.functions.get? i with
      | none => (.error (.unknownFunction i), e)
      | some script => (invoke script).run e := by
  unfold call
  rw [run_bind_state, run_get_state]
  dsimp only
  rcases hget : e.functions.get? i with _ | script
  · rfl
  · dsimp only
    -- The script that was taken out of the table is put back where it was.
    have hback : (e.functions.set i none).set i (some script) = e.functions := by
      rw [FunctionTable.set_set, FunctionTable.set_of_get? hget]
    have hrun : (evaluate script).run { e with functions := e.functions.set i none }
        = (((L.run script).run e.scope).1.mapError .runtime,
          { e with
            scope := L.rewind (L.height e.scope) ((L.run script).run e.scope).2
            functions := e.functions.set i none }) := rfl
    change (pushResult ((evaluate script).run { e with functions := e.functions.set i none }).1).run
      { ((evaluate script).run { e with functions := e.functions.set i none }).2 with
        functions := ((evaluate script).run
          { e with functions := e.functions.set i none }).2.functions.set i (some script) } = _
    rw [run_invoke, hrun]
    dsimp only
    rw [hback]
    rcases (L.run script).run e.scope with ⟨_ | v, scope⟩ <;> rfl

/-- What trees are built of: pushed values, values changed in their places, and functions. -/
theorem builds_of_stable {allowed : String → Prop} {P : EmbeddedEngine L → Prop}
    (hpush : ∀ v, Stable P (push v)) (hchange : ∀ a f, Stable P (change a f))
    (hfunction : ∀ source, Stable P (pushFunction source)) :
    Engine.Builds allowed (Diagonal P) where
  pushNull := .of_stable (hpush _)
  pushBoolean := fun _ => .of_stable (hpush _)
  pushNumber := fun _ => .of_stable (hpush _)
  pushText := fun _ => .of_stable (hpush _)
  pushArray := .of_stable (hpush _)
  pushObject := .of_stable (hpush _)
  pushFunction := fun source _ => .of_stable (hfunction source)
  setElement := fun a i v => .of_stable fun e => hchange a (withElement i (e.value v)) e
  setField := fun o n v => .of_stable fun e => hchange o (withField n (e.value v)) e

/-- An engine in which definitions wait beside values of the stack. -/
def PendingOnStack (e : EmbeddedEngine L) : Prop :=
  ∀ p ∈ e.pending, p.1.index < e.stack.height

/-- What an engine may come to while it is being asked something and its scope stays: the
    same engine with values on top of its stack. -/
structure Around (e e' : EmbeddedEngine L) : Prop where
  scope : e'.scope = e.scope
  functions : e'.functions = e.functions
  library : e'.library = e.library
  pending : e'.pending = e.pending
  made : e'.made = e.made
  opened : e'.stack.cut e.stack.height = e.stack

namespace PendingOnStack

variable {e e' : EmbeddedEngine L}

theorem push (h : PendingOnStack e) (v : L.Value) :
    PendingOnStack ((EmbeddedEngine.push v).run e).2 := by
  intro p hp
  change p.1.index < (e.stack.push v).2.height
  rw [ValueStack.height_push]
  have := h p hp
  omega

theorem change (h : PendingOnStack e) (a : Handle) (f : L.Value → L.Value) :
    PendingOnStack ((EmbeddedEngine.change a f).run e).2 := by
  intro p hp
  change p.1.index < (e.stack.modify a f).height
  rw [ValueStack.height_modify]
  exact h p hp

/-- A function of the scene globals is one more value, with its definition beside it. -/
theorem pushFunction (h : PendingOnStack e) (source : String) :
    PendingOnStack ((EmbeddedEngine.pushFunction source).run e).2 := by
  rw [run_pushFunction]
  rcases defineFunction e.made source with fault | ⟨pointer, script⟩
  · exact h
  · intro p hp
    change p.1.index < (e.stack.push pointer).2.height
    rw [ValueStack.height_push]
    rcases List.mem_append.mp hp with hold | hnew
    · have := h p hold
      omega
    · rw [List.mem_singleton.mp hnew]
      exact Nat.lt_succ_self _

/-- No definition waits once the globals are set, and other variables leave them waiting. -/
theorem setGlobal (h : PendingOnStack e) (name : String) (a : Handle) :
    PendingOnStack ((EmbeddedEngine.setGlobal name a).run e).2 := by
  unfold EmbeddedEngine.setGlobal
  split
  · exact fun _ hp => absurd hp List.not_mem_nil
  · exact h

/-- What waits beside a value below the mark stays. -/
theorem reset (h' : PendingOnStack e') :
    PendingOnStack ((Engine.reset (Engine.mark e) : StateM (EmbeddedEngine L) Unit).run e').2 := by
  intro p hp
  rcases List.mem_filter.mp hp with ⟨hmem, hlt⟩
  have hmark : p.1.index < e.stack.height := of_decide_eq_true hlt
  have htop := h' p hmem
  change p.1.index < (e'.stack.cut e.stack.height).height
  rw [ValueStack.height_cut]
  omega

/-- Closing a scope drops nothing that waited when it was opened, so all that an evaluation
    can change is the scope of the scripts. -/
theorem reset_of_around {scope : L.Scope} (h : PendingOnStack e)
    (he : Around { e with scope } e') :
    ((Engine.reset (Engine.mark e) : StateM (EmbeddedEngine L) Unit).run e').2
      = { e with scope } := by
  have hpending : e.pending.filter (fun p => decide (p.1.index < e.stack.height)) = e.pending :=
    List.filter_eq_self.mpr fun p hp => decide_eq_true (h p hp)
  change (⟨e'.scope, e'.stack.cut e.stack.height, e'.functions, e'.library,
    e'.pending.filter fun p => decide (p.1.index < e.stack.height), e'.made⟩ : EmbeddedEngine L) = _
  rw [he.scope, he.opened, he.functions, he.library, he.pending, he.made, hpending]

end PendingOnStack

section

variable {e e' : EmbeddedEngine L}

theorem Around.push (h : Around e e') (v : L.Value) :
    Around e ((EmbeddedEngine.push v).run e').2 where
  scope := h.scope
  functions := h.functions
  library := h.library
  pending := h.pending
  made := h.made
  opened := by
    have hle := ValueStack.height_le_of_cut_eq h.opened
    exact (ValueStack.cut_push_of_le e'.stack v hle).trans h.opened

theorem reads_around : Engine.Reads (Diagonal (Around e)) where
  kind := fun _ _ h _ => by rw [h.1]
  truth := fun _ _ h _ => by rw [h.1]
  length := fun _ _ h _ => by rw [h.1]
  number := fun _ => .of_stable fun _ h => h
  text := fun _ => .of_stable fun _ h => h
  pushElement := fun _ _ => .of_stable fun _ h => h.push _

/-- The scope after the function at an index was called. -/
def scopeAfter (e : EmbeddedEngine L) (i : Nat) : L.Scope :=
  match e.functions.get? i with
  | none => e.scope
  | some script => L.rewind (L.height e.scope) ((L.run script).run e.scope).2

/-- A call leaves its scope and perhaps a value on the stack. -/
theorem call_around (e : EmbeddedEngine L) (i : Nat) :
    Around { e with scope := e.scopeAfter i } ((call i).run e).2 := by
  have hcut := e.stack.cut_height
  rw [run_call, scopeAfter]
  rcases e.functions.get? i with _ | script
  · exact ⟨rfl, rfl, rfl, rfl, rfl, hcut⟩
  · dsimp only
    rw [run_invoke]
    rcases (L.run script).run e.scope with ⟨_ | v, scope⟩
    · exact ⟨rfl, rfl, rfl, rfl, rfl, hcut⟩
    · have hleft : Around { e with scope := L.rewind (L.height e.scope) scope }
          { e with scope := L.rewind (L.height e.scope) scope } := ⟨rfl, rfl, rfl, rfl, rfl, hcut⟩
      exact hleft.push v

/-- Reading the result of a call touches nothing but the stack. -/
theorem answered_around (e : EmbeddedEngine L) (q : Question) :
    Around { e with scope := e.scopeAfter q.index } (Engine.answered q e) :=
  reads_around.answered q (call_around e q.index)

/-- All that a question changes in a session is the scope of the scripts, and that as the
    function of the question leaves it. -/
theorem run_ask_of_pendingOnStack {s : Session (EmbeddedEngine L)} (h : PendingOnStack s.engine)
    (q : Question) : (q.ask.run s).2
      = { s with engine := { s.engine with scope := s.engine.scopeAfter q.index } } := by
  rw [Engine.run_ask_snd, h.reset_of_around (answered_around s.engine q)]

/-- Whether answering a question assigns to nothing that scripts share: the script only
    declares variables of its own, however it ends. -/
def LeavesShared (e : EmbeddedEngine L) (q : Question) : Prop :=
  ∀ script, e.functions.get? q.index = some script →
    L.Declares e.scope ((L.run script).run e.scope).2

/-- Such a question leaves a session as it was, if rewinding takes away what was declared. -/
theorem LeavesShared.ask (hL : L.Rewinds) {s : Session (EmbeddedEngine L)}
    (h : PendingOnStack s.engine) {q : Question} (hq : LeavesShared s.engine q) :
    (q.ask.run s).2 = s := by
  have hscope : s.engine.scopeAfter q.index = s.engine.scope := by
    unfold scopeAfter
    rcases hscript : s.engine.functions.get? q.index with _ | script
    · rfl
    · exact hL _ _ (hq script hscript)
  rw [run_ask_of_pendingOnStack h, hscope]

theorem upholds_pendingOnStack :
    Engine.Upholds (fun _ => True) (PendingOnStack : EmbeddedEngine L → Prop) where
  builds := builds_of_stable (fun v _ h => h.push v) (fun a f _ h => h.change a f)
    fun source _ h => h.pushFunction source
  setGlobal := fun n a _ h => h.setGlobal n a
  reset := fun _ _ _ h' => h'.reset
  setFunction := by
    intro i source _ e h
    change PendingOnStack ((setFunction i source).run e).2
    rw [run_setFunction]
    rcases compile e.library source with _ | script <;> exact h
  truncateFunctions := fun _ _ h => h
  setFeature := fun _ _ h => h
  setFilterKey := by
    intro key n e h
    cases key <;> exact h
  ask := fun q s h => by
    rw [run_ask_of_pendingOnStack h]
    exact h

theorem pendingOnStack_new : PendingOnStack (new : EmbeddedEngine L) :=
  fun _ h => absurd h List.not_mem_nil

theorem pendingOnStack_reach (steps : List Step) :
    PendingOnStack (Session.reach steps (Session.new (new : EmbeddedEngine L))).engine :=
  upholds_pendingOnStack.reach steps (fun _ _ _ _ => trivial) _ pendingOnStack_new

end

/-- Nothing but binding and dropping functions touches the table. -/
theorem preserves_functions (t : FunctionTable L.Script) :
    Engine.Preserves (fun _ => True) fun e : EmbeddedEngine L => e.functions = t where
  builds := builds_of_stable (fun _ _ h => h) (fun _ _ _ h => h) fun source e h => by
    rwa [functions_pushFunction]
  setGlobal := by
    intro name a e h
    change ((EmbeddedEngine.setGlobal name a).run e).2.functions = t
    rwa [functions_setGlobal]
  reset := fun _ _ _ h' => h'
  setFeature := fun _ _ h => h
  setFilterKey := by
    intro key n e h
    cases key <;> exact h

/-- The engine apart from its functions. -/
def tabled : Engine.Tabled (EmbeddedEngine L) L.Script where
  table := functions
  withTable t e := { e with functions := t }
  compile source := do return (compile (← get).library source).toOption
  invoke := invoke
  table_withTable _ _ := rfl
  withTable_table _ := rfl
  withTable_withTable _ _ _ := rfl
  run_compile_withTable _ _ _ := rfl
  run_setFunction i source e := by
    have hrun := run_setFunction i source e
    change (((setFunction i source).run e).1.isOk, ((setFunction i source).run e).2)
      = ((compile e.library source).toOption.isSome,
        { e with functions := e.functions.set i (compile e.library source).toOption })
    rw [hrun]
    rcases compile e.library source with _ | script <;> rfl
  run_truncateFunctions _ _ := rfl
  run_call i e := by
    change (call i).run e = _
    rw [run_call]
    rcases e.functions.get? i with _ | script <;> rfl
  kept := preserves_functions
  table_ask q s := by
    rw [Engine.run_ask_snd]
    exact (answered_around s.engine q).functions

end EmbeddedEngine

end MapStyling
