import MapStyling.Proofs.EmbeddedEngine.Libraries
import MapStyling.Proofs.EmbeddedScript.Laws

/-!
# Scenes of Embedded Scripts

What scenes come to for the interpreter of embedded scripts.

A call looks its function up when its arguments are known, and runs the body over the
arguments alone. Which functions a source defines can be computed, and so can whether a
style function can have set a variable: not if it assigns to nothing but what it declares.

## Main definitions

* `Definition.value?`: What the body of a definition comes to.
* `Script.RunsBody`: Scripts that run the body of a definition.
* `SceneNode.spellsOnce`: Whether the sources of a tree spell one function each.
* `asksLocally`: Whether all questions among some calls are local.

## Theorems

* `Script.runsBody_of_find?`: A script runs the body of the definition that it finds.
* `SceneNode.spellsOnce_sound`, `untouched_of_asksLocally`: What these come to.
-/

namespace MapStyling

namespace EmbeddedScript

/-- What the body of a definition comes to for arguments, with a way of calling functions. -/
def Definition.value? (call : Caller) (d : Definition) (values : List Value) : Option Value :=
  ((finish call d.body).run (d.parameters.zip (values.map fun v => ⟨v, false⟩))).1

/-- A script that runs the body of a definition when it calls a function of its name. The
    call is one of the function itself or of the field of a map, with arguments that come
    to some values, at any depth and in any scope. -/
def Script.RunsBody (s : Script) (d : Definition) (values : List Value) : Prop :=
  ∀ (depth : Nat) (target : Expression) (name : String) (arguments : List Expression) (v : Value)
    (scope scope₁ scope₂ : Scope),
    (evaluate (callAt s.definitions (depth + 1)) target).run.run scope = (.ok v, scope₁) →
    (evaluateAll (callAt s.definitions (depth + 1)) arguments).run.run scope₁
      = (.ok values, scope₂) →
    callee? v name = some d.name →
    (evaluate (callAt s.definitions (depth + 1)) (.callOn target name arguments)).run.run scope
      = (orFault (d.value? (callAt s.definitions depth) values)).run.run scope₂

/-- What a call of a function comes to, after its target and its arguments. -/
theorem run_evaluate_callOn {call : Caller} {target : Expression} {name f : String}
    {arguments : List Expression} {v : Value} {values : List Value} {scope scope₁ scope₂ : Scope}
    (htarget : (evaluate call target).run.run scope = (.ok v, scope₁))
    (harguments : (evaluateAll call arguments).run.run scope₁ = (.ok values, scope₂))
    (hcallee : callee? v name = some f) :
    (evaluate call (.callOn target name arguments)).run.run scope
      = (orFault (call f values)).run.run scope₂ := by
  rw [evaluate, run_bind, htarget]
  dsimp only
  rw [run_bind, harguments]
  dsimp only
  rw [run_bind, hcallee]
  rfl

/-- A script runs the body of the definition that it finds under the name. -/
theorem Script.runsBody_of_find? {s : Script} {d : Definition} {values : List Value}
    (h : s.definitions.find? d.name values.length = some d) : s.RunsBody d values := by
  intro depth target name arguments v scope scope₁ scope₂ htarget harguments hcallee
  have hcall : callAt s.definitions (depth + 1) d.name values
      = d.value? (callAt s.definitions depth) values := by
    rw [callAt]
    unfold invoke
    rw [h]
    rfl
  rw [run_evaluate_callOn htarget harguments hcallee, hcall]

theorem eq_of_run_orFault {o p : Option Value} {scope : Scope}
    (h : (orFault o).run.run scope = (orFault p).run.run scope) : o = p := by
  have hexits := congrArg Prod.fst h
  rcases o with _ | v <;> rcases p with _ | w <;> cases hexits <;> rfl

/-- A script does not run a body that comes to something else. -/
theorem Script.not_runsBody {s : Script} {d : Definition} {a b : Bool}
    (hcalled : (callAt s.definitions 1 d.name []).map Value.truth = some a)
    (hbody : (d.value? (callAt s.definitions 0) []).map Value.truth = some b) (hne : a ≠ b) :
    ¬s.RunsBody d [] := by
  intro hruns
  have htarget : (evaluate (callAt s.definitions 1) (.literal (.function d.name))).run.run []
      = (.ok (.function d.name), []) := by
    rw [evaluate]
    rfl
  have harguments : (evaluateAll (callAt s.definitions 1) []).run.run [] = (.ok [], []) := by
    rw [evaluateAll]
    rfl
  have hcallee : callee? (.function d.name) "call" = some d.name := rfl
  have hcall := run_evaluate_callOn htarget harguments hcallee
  rw [hruns 0 _ _ _ _ _ _ _ htarget harguments hcallee] at hcall
  rw [← eq_of_run_orFault hcall, hbody] at hcalled
  exact hne (Option.some.inj hcalled).symm

/-- What a source defines after so many functions. -/
def defined (made : Nat) (source : String) : Except ScriptFault (Value × Script) :=
  EmbeddedEngine.defineFunction (L := language) made source

/-- Whether a source leaves one definition behind, under the name that is chosen after so many
    functions, and a value of this name, if it compiles. -/
def spellsOnce (made : Nat) (source : String) : Bool :=
  match defined made source with
  | .ok (v, s) => match s.definitions with
    | [d] => d.name = EmbeddedEngine.functionName made && v.pointer? = some d.name
    | _ => false
  | .error _ => true

theorem exists_of_spellsOnce {made : Nat} {source : String} (h : spellsOnce made source = true)
    {f : Value × Script} (hf : defined made source = .ok f) :
    ∃ d : Definition, f.2.definitions = [d] ∧ d.name = EmbeddedEngine.functionName made ∧
      f.1.pointer? = some d.name := by
  rw [spellsOnce, hf] at h
  obtain ⟨v, definitions, body⟩ := f
  match definitions, h with
  | [d], h =>
    rw [Bool.and_eq_true, decide_eq_true_eq, decide_eq_true_eq] at h
    exact ⟨d, rfl, h⟩

theorem only_of_definitions {s : Script} {d : Definition} (h : s.definitions = [d]) :
    functionLaws.Only s d := by
  intro n count
  have hfits : d.fits n count = true ↔ functionLaws.Fits n count d := by
    rw [Definition.fits, Bool.and_eq_true, decide_eq_true_eq, decide_eq_true_eq]
    exact Iff.rfl
  change List.find? (fun x => x.fits n count) s.definitions = _
  rw [h, List.find?_singleton]
  by_cases hfit : functionLaws.Fits n count d
  · exact (if_pos (hfits.mpr hfit)).trans (if_pos hfit).symm
  · exact (if_neg fun h => hfit (hfits.mp h)).trans (if_neg hfit).symm

theorem spellsOnce_sound {made : Nat} {source : String} (h : spellsOnce made source = true) :
    EmbeddedEngine.SpellsOnce functionLaws made source := by
  intro f hf
  obtain ⟨d, hd, hname, hpointer⟩ := exists_of_spellsOnce h hf
  exact ⟨d, hname, hpointer, only_of_definitions hd⟩

end EmbeddedScript

/-- Whether the sources of a tree spell one function each, whatever name is chosen for it. -/
def SceneNode.spellsOnce (node : SceneNode) : Bool :=
  node.functionTexts.all fun source =>
    (List.range node.functionTexts.length).all fun made => EmbeddedScript.spellsOnce made source

theorem SceneNode.spellsOnce_sound {tree : Option SceneNode}
    (h : tree.all SceneNode.spellsOnce = true) (node : SceneNode) (hnode : tree = some node) :
    node.SpellsOnce EmbeddedScript.functionLaws := by
  rw [hnode, Option.all_some] at h
  intro source hsource made hmade
  exact EmbeddedScript.spellsOnce_sound
    (List.all_eq_true.mp (List.all_eq_true.mp h source hsource) made (List.mem_range.mpr hmade))

namespace EmbeddedScript

/-- Whether a call is a local question, if it is a question. -/
def isLocalCall (e : EmbeddedEngine language) : Call → Bool
  | .ask q => isLocalQuestion e q
  | _ => true

/-- Whether all questions among some calls are local, when they are asked. -/
def asksLocally : Session (EmbeddedEngine language) → List Call → Bool
  | _, [] => true
  | s, c :: rest => isLocalCall s.engine c && asksLocally (c.perform.run s).2 rest

/-- Local scripts leave the globals untouched. -/
theorem untouched_of_asksLocally {calls : List Call}
    (h : asksLocally (Session.new EmbeddedEngine.new) calls = true) :
    EmbeddedEngine.Untouched language calls := by
  -- By induction on the calls to come, behind those that left the globals untouched.
  suffices hbehind : ∀ before, EmbeddedEngine.Untouched language before →
      asksLocally (after before (Session.new EmbeddedEngine.new)) calls = true →
      EmbeddedEngine.Untouched language (before ++ calls) from hbehind [] .start h
  clear h
  induction calls with
  | nil =>
      intro before hbefore _
      rwa [List.append_nil]
  | cons c rest ih =>
      intro before hbefore h
      rw [asksLocally, Bool.and_eq_true, ← EmbeddedEngine.after_concat] at h
      rw [← List.singleton_append, ← List.append_assoc]
      refine ih _ (.keep hbefore fun q hq => ?_) h.2
      rw [hq] at h ⊢
      have hlocal : isLocalQuestion _ q = true := h.1
      have hpending : EmbeddedEngine.PendingOnStack
          (after before (Session.new (EmbeddedEngine.new (L := language)))).engine := by
        intro p hp
        rw [(EmbeddedEngine.follows_after before).resting.pending] at hp
        exact absurd hp List.not_mem_nil
      have hasked := (leavesShared_of_local hlocal).ask scopeLaws.rewinds hpending
      rw [EmbeddedEngine.after_concat]
      exact congrArg EmbeddedEngine.globals hasked

end EmbeddedScript

end MapStyling
