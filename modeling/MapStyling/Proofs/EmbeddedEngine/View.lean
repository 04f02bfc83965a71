import MapStyling.Proofs.EmbeddedEngine.Questions
import MapStyling.Proofs.EmbeddedLanguage.Shapes
import MapStyling.Proofs.Views

/-!
# A View of Engines of Embedded Scripts

Engines of embedded scripts as ones that copy values.

What a value looks like hangs on no state, and a container that is filled is another
value in its place. All values are known from the start, and the engine can be asked for
every source, name and position.

Of a function value something is seen that the language tells, for example its name.
Which definition it has is not to be seen of the value: the definitions wait beside it.

## Main definitions

* `EmbeddedLanguage.look`: What a value looks like.
* `EmbeddedEngine.view`: What is seen of an engine.

## Theorems

* `EmbeddedEngine.lawful`: The engine does what it is asked for.
-/

namespace MapStyling

variable {L : EmbeddedLanguage} {φ : Type}

/-- What a value looks like, with something that is seen of functions. -/
def EmbeddedLanguage.look (pointer : L.Value → φ) (v : L.Value) : Look L.Value φ :=
  match L.shape v with
  | .unit => .null
  | .boolean b => .truth b
  | .number x => .number x
  | .text s => .text s
  | .function => .function (pointer v)
  | .array items => .array items
  | .map entries => .object fun name => entries.lookup name
  | .integer _ | .character | .other => .other

namespace EmbeddedEngine

/-- What is seen of an engine. -/
def view (pointer : L.Value → φ) : View (EmbeddedEngine L) L.Value φ where
  Sound _ := True
  Known _ _ := True
  shares := False
  stack e := e.stack.values.toList
  look _ v := L.look pointer v
  global e := L.getVariable? e.scope globalsName
  made e source := (defineFunction e.made source).toOption.map fun f => pointer f.1

variable {pointer : L.Value → φ}

theorem value_of_stack {e : EmbeddedEngine L} {h : Handle} {v : L.Value}
    (hv : ((view pointer).stack e)[h.index]? = some v) : e.value h = v := by
  have hget : e.stack.get? h = some v := by
    rw [ValueStack.get?, ← hv]
    exact Array.getElem?_toList.symm
  rw [value, hget]
  rfl

/-- Values look the same in all states. -/
theorem keeps (P : L.Value → Prop) (e e' : EmbeddedEngine L) : (view pointer).Keeps P e e' :=
  ⟨trivial, fun _ _ _ => ⟨trivial, rfl⟩⟩

theorem fresh (e e' : EmbeddedEngine L) (v : L.Value) : (view pointer).Fresh e e' v :=
  ⟨trivial, fun hshares => hshares.elim⟩

theorem pushed_push {s : Look L.Value φ} {v : L.Value} (hs : L.look pointer v = s)
    (e : EmbeddedEngine L) : (view pointer).Pushed s e ((push v).run e) where
  keeps := keeps _ _ _
  handle := Array.length_toList.symm
  value := ⟨v, Array.toList_push, hs, fresh _ _ v⟩

/-- A container is changed to another value in its place. -/
theorem changed_change {a : Handle} {x : L.Value} {s : Look L.Value φ} (f : L.Value → L.Value)
    {e : EmbeddedEngine L} (hx : ((view pointer).stack e)[a.index]? = some x)
    (hs : L.look pointer (f x) = s) :
    (view pointer).Changed s a x e ((change a f).run e).2 where
  keeps := keeps _ _ _
  value := by
    refine ⟨f x, [], ?_, hs, trivial, fun hshares => hshares.elim⟩
    rw [List.append_nil]
    change (e.stack.values.modify a.index f).toList = e.stack.values.toList.set a.index (f x)
    have : Inhabited L.Value := ⟨x⟩
    rw [Array.toList_modify, List.modify_eq_set]
    change ((view pointer).stack e).set a.index
      (f (((view pointer).stack e)[a.index]?.getD default)) = _
    rw [hx, Option.getD_some]
    rfl

/-- A value that looks like an array shows its items. -/
theorem shape_of_look_array {v : L.Value} {items : List L.Value}
    (h : L.look pointer v = .array items) : L.shape v = .array items := by
  unfold EmbeddedLanguage.look at h
  rcases hv : L.shape v <;> rw [hv] at h <;> cases h
  rfl

/-- A value that looks like an object shows its entries. -/
theorem shape_of_look_object {v : L.Value} {get : String → Option L.Value}
    (h : L.look pointer v = .object get) :
    ∃ entries, L.shape v = .map entries ∧ get = fun name => entries.lookup name := by
  unfold EmbeddedLanguage.look at h
  rcases hv : L.shape v <;> rw [hv] at h <;> cases h
  exact ⟨_, rfl, rfl⟩

theorem shape_of_look_function {v : L.Value} {f : φ} (h : L.look pointer v = .function f) :
    L.shape v = .function ∧ f = pointer v := by
  unfold EmbeddedLanguage.look at h
  rcases hv : L.shape v <;> rw [hv] at h <;> cases h
  exact ⟨rfl, rfl⟩

/-- A function of the globals is a value that shows itself as a function. -/
theorem shape_defineFunction {made : Nat} {source : String} {f : L.Value × L.Script}
    (h : defineFunction made source = .ok f) : L.shape f.1 = .function := by
  unfold defineFunction at h
  rcases hsplit : FunctionText.split? source.toList with _ | text
  · rw [hsplit] at h
    cases h
  · rw [hsplit] at h
    dsimp only at h
    rcases hcompile : L.compile (definingText (functionName made) text) with fault | script
    · rw [hcompile] at h
      cases h
    · rw [hcompile] at h
      change Except.bind ((L.evaluate script).mapError ScriptFault.runtime) _ = _ at h
      rcases hevaluate : L.evaluate script with fault | v
      · rw [hevaluate] at h
        cases h
      · rw [hevaluate] at h
        dsimp only [Except.mapError, Except.bind] at h
        rcases hv : L.shape v <;> rw [hv] at h <;> cases h
        exact hv

/-- A function text is pushed as what it defines, and nothing is pushed if it defines nothing. -/
theorem pushed_function (source : String) (e : EmbeddedEngine L) :
    (∃ f r, (view pointer).made e source = some f ∧
        (Engine.pushFunction source : StateM (EmbeddedEngine L) _).run e = (.ok r.1, r.2) ∧
        (view pointer).Pushed (.function f) e r) ∨
      ∃ fault, (view pointer).made e source = none ∧
        (Engine.pushFunction source : StateM (EmbeddedEngine L) _).run e = (.error fault, e) := by
  have hrun := run_pushFunction source e
  change (∃ f r, (defineFunction e.made source).toOption.map (fun f => pointer f.1) = some f ∧ _) ∨
    ∃ fault, (defineFunction e.made source).toOption.map (fun f => pointer f.1) = none ∧ _
  rcases hfunction : (defineFunction e.made source : Except _ (L.Value × L.Script))
    with fault | made
  · rw [hfunction] at hrun
    exact Or.inr ⟨fault, rfl, hrun⟩
  · rw [hfunction] at hrun
    have hlook : L.look pointer made.1 = .function (pointer made.1) := by
      rw [EmbeddedLanguage.look, shape_defineFunction hfunction]
    refine Or.inl ⟨pointer made.1, (_, _), rfl, hrun, keeps _ _ _, ?_, made.1, ?_⟩
    · exact Array.length_toList.symm
    · exact ⟨Array.toList_push, hlook, fresh _ _ _⟩

section

variable (hshape : L.ShapeLaws)

include hshape

/-- An array takes an element behind its last one. -/
theorem changed_setElement {a v : Handle} {x w : L.Value} {items : List L.Value}
    {e : EmbeddedEngine L} (hx : ((view pointer).stack e)[a.index]? = some x)
    (hs : L.look pointer x = .array items) (hw : ((view pointer).stack e)[v.index]? = some w) :
    (view pointer).Changed (.array (items ++ [w])) a x e
      ((Engine.setElement a items.length v : StateM (EmbeddedEngine L) Unit).run e).2 := by
  have hset : withElement items.length w x = L.ofArray (items ++ [w]) := by
    rw [withElement, shape_of_look_array hs]
    dsimp only
    rw [Nat.add_sub_cancel_left, List.replicate_one,
      List.set_append_right _ _ (Nat.le_refl _), Nat.sub_self, List.set_cons_zero]
  change (view pointer).Changed _ a x e ((change a (withElement items.length (e.value v))).run e).2
  refine changed_change _ hx ?_
  rw [value_of_stack hw, hset, EmbeddedLanguage.look, hshape.array]

theorem changed_setField {o v : Handle} {x w : L.Value} {get : String → Option L.Value}
    {name : String} {e : EmbeddedEngine L} (hx : ((view pointer).stack e)[o.index]? = some x)
    (hs : L.look pointer x = .object get) (hw : ((view pointer).stack e)[v.index]? = some w) :
    (view pointer).Changed (.object fun n => if n = name then some w else get n) o x e
      ((Engine.setField o name v : StateM (EmbeddedEngine L) Unit).run e).2 := by
  rcases shape_of_look_object hs with ⟨entries, hentries, rfl⟩
  have hset : withField name w x = L.ofMap (Entries.insert name w entries) := by
    rw [withField, hentries]
  have hincreasing := Entries.increasing_insert name w (hshape.increasing x entries hentries)
  change (view pointer).Changed _ o _ e ((change o (withField name (e.value v))).run e).2
  refine changed_change _ hx ?_
  rw [value_of_stack hw, hset, EmbeddedLanguage.look, hshape.map _ hincreasing]
  refine congrArg Look.object (funext fun n => ?_)
  split
  · next hn => rw [hn, Entries.lookup_insert_self]
  · next hn => rw [Entries.lookup_insert_of_ne w hn]

/-- The engine does what it is asked for. -/
theorem lawful (hvariable : L.VariableLaws) (pointer : L.Value → φ) :
    (view pointer).Lawful .all where
  known := fun _ _ _ _ => trivial
  pushNull := fun e _ => pushed_push (by rw [EmbeddedLanguage.look, hshape.unit]) e
  pushBoolean := fun b e _ => pushed_push (by rw [EmbeddedLanguage.look, hshape.boolean]) e
  pushNumber := fun x e _ => pushed_push (by rw [EmbeddedLanguage.look, hshape.number]) e
  pushText := fun s e _ => pushed_push (by rw [EmbeddedLanguage.look, hshape.text]) e
  pushArray := fun e _ => pushed_push (by rw [EmbeddedLanguage.look, hshape.array]) e
  pushObject := fun e _ => pushed_push (by
    rw [EmbeddedLanguage.look, hshape.map [] .nil]
    rfl) e
  pushFunction := by
    intro source f e _ _ hmade
    rcases pushed_function source e with ⟨name, r, hname, hrun, hpushed⟩ | ⟨_, hnone, _⟩
    · rw [hname, Option.some.injEq] at hmade
      rw [hmade] at hpushed
      exact ⟨r, hrun, hpushed⟩
    · rw [hnone] at hmade
      cases hmade
  pushFunction_fails := by
    intro source e _ _ hmade
    rcases pushed_function source e with ⟨_, _, hname, _⟩ | ⟨fault, _, hrun⟩
    · rw [hname] at hmade
      cases hmade
    · exact ⟨fault, e, hrun, rfl, keeps _ _ _⟩
  setElement := fun _ _ _ _ _ _ _ _ hx hs hw => changed_setElement hshape hx hs hw
  setField := fun _ _ _ _ _ _ _ _ _ hx hs hw => changed_setField hshape hx hs hw
  setGlobal := by
    intro a v e _ hv
    refine ⟨rfl, ?_, keeps _ _ _⟩
    change L.getVariable? (L.setVariable globalsName (e.value a) e.scope) globalsName = _
    rw [hvariable.getVariable?_self, value_of_stack hv]
  reset := by
    intro e e' _ _ hstack
    refine ⟨?_, rfl, fun _ _ => rfl⟩
    change (e'.stack.values.take e.stack.values.size).toList = e.stack.values.toList
    rw [Array.take_eq_extract, Array.toList_extract, ← Array.length_toList]
    exact (List.prefix_iff_eq_take.mp hstack).symm

end

end EmbeddedEngine

end MapStyling
